import GridFlight.Heartbeat.ControlLink
import GridFlight.Heartbeat.Responder
import GridFlight.Proofs.Message.Control

/-! A control channel with both its ends. The link writes pings and the responder writes their answers, each into a
    channel that keeps the order. A ping that was written is in the channel, or its answer is on the way back. -/

namespace GridFlight
namespace Heartbeat

/-- Both ends of a control channel, with how many pings the responder has read and how many answers the link has. -/
structure Line where
  link : ControlLink
  responder : Responder
  read : Nat
  heard : Nat

namespace Line

variable {l : Line} {f : Frame} {rest : List Frame}

def new : Line := ⟨.new .lasting, .new .lasting, 0, 0⟩

/-- The pings that are not read yet. -/
def pings (l : Line) : List Frame := l.link.writer.frames.drop l.read

/-- The answers that are not read yet. -/
def answers (l : Line) : List Frame := l.responder.writer.frames.drop l.heard

/-- The link writes its next ping. -/
def ping (l : Line) : Except FrameError Unit × Line :=
  let (result, link) := l.link.write
  (result, { l with link := link })

/-- The responder reads a ping. -/
def respond (f : Frame) (l : Line) : Line :=
  { l with responder := l.responder.take (.ok f), read := l.read + 1 }

/-- The link reads an answer. -/
def hear (l : Line) : Line := { l with heard := l.heard + 1 }

/-- The end of the responder is gone. -/
def hangUp (l : Line) : Line := { l with link := { l.link with writer := l.link.writer.sever } }

/-- A line on which only pings are written and the responder has not stopped by itself. -/
structure Sound (l : Line) : Prop where
  read_le : l.read ≤ l.link.writer.frames.length
  heard_le : l.heard ≤ l.responder.writer.frames.length
  pings : ∀ f ∈ l.pings, ∃ seq, f = (Message.ping seq).toFrame
  running : l.responder.stopped = false
  room : l.responder.writer.room = none

/-- The last ping has not been read, or its answer has not. -/
def Awaiting (l : Line) : Prop :=
  (Message.ping l.link.seq).toFrame ∈ l.pings ∨ (Message.pong l.link.seq).toFrame ∈ l.answers

end Line

/-! ### Writing -/

theorem write_ok {w w' : Writer} {f : Frame} (h : w.write f = (.ok (), w')) :
    w'.frames = w.frames ++ [f] ∧ (w.room = none → w'.room = none) := by
  unfold Writer.write at h
  split at h
  · cases h
  · next n hroom =>
    obtain rfl := (Prod.mk.inj h).2
    exact ⟨Array.toList_push, fun hnone => by rw [hroom] at hnone; cases hnone⟩
  · next hroom =>
    obtain rfl := (Prod.mk.inj h).2
    exact ⟨Array.toList_push, fun _ => rfl⟩

theorem write_error {w w' : Writer} {f : Frame} {e : FrameError} (h : w.write f = (.error e, w')) :
    w.room = some 0 ∧ w' = w := by
  unfold Writer.write at h
  split at h
  · next hroom => exact ⟨hroom, (Prod.mk.inj h).2.symm⟩
  · cases h
  · cases h

theorem write_of_room {w : Writer} (h : w.room = none) (f : Frame) :
    ∃ w', w.write f = (.ok (), w') ∧ w'.frames = w.frames ++ [f] ∧ w'.room = none := by
  unfold Writer.write
  rw [h]
  exact ⟨_, rfl, Array.toList_push, rfl⟩

namespace Line

variable {l m : Line} {f : Frame} {rest : List Frame}

theorem length_of_drop {xs : List Frame} {n : Nat} (h : xs.drop n = f :: rest) :
    n + 1 ≤ xs.length ∧ xs.drop (n + 1) = rest := by
  have hlength := congrArg List.length h
  simp only [List.length_drop, List.length_cons] at hlength
  refine ⟨by omega, ?_⟩
  rw [← List.tail_drop, h, List.tail_cons]

theorem new_sound : Sound new := ⟨Nat.zero_le _, Nat.zero_le _, nofun, rfl, rfl⟩

/-! ### What the ends do -/

theorem Sound.ping (hs : l.Sound) (h : l.ping = (.ok (), m)) :
    m.Sound ∧ m.Awaiting ∧ (l.link.writer.room = none → m.link.writer.room = none) := by
  unfold Line.ping ControlLink.write Writer.send at h
  rcases hwrite : l.link.writer.write (Message.ping (l.link.seq + 1)).toFrame with ⟨result, w⟩
  simp only [hwrite] at h
  obtain ⟨rfl, rfl⟩ := Prod.mk.inj h
  obtain ⟨hframes, hroom⟩ := write_ok hwrite
  have hpings : w.frames.drop l.read = l.pings ++ [(Message.ping (l.link.seq + 1)).toFrame] := by
    rw [hframes, List.drop_append_of_le_length hs.read_le, Line.pings]
  refine ⟨⟨?_, hs.heard_le, ?_, hs.running, hs.room⟩, Or.inl ?_, hroom⟩
  · have := hs.read_le
    simp only [hframes, List.length_append]
    omega
  · simp only [Line.pings, hpings]
    intro f hf
    rcases List.mem_append.mp hf with hf | hf
    · exact hs.pings f hf
    · exact ⟨_, List.mem_singleton.mp hf⟩
  · simp only [Line.pings, hpings]
    exact List.mem_append_right _ (List.mem_singleton_self _)

theorem Sound.ping_error {e : FrameError} (hs : l.Sound) (h : l.ping = (.error e, m)) :
    m.Sound ∧ l.link.writer.room = some 0 := by
  unfold Line.ping ControlLink.write Writer.send at h
  rcases hwrite : l.link.writer.write (Message.ping (l.link.seq + 1)).toFrame with ⟨result, w⟩
  simp only [hwrite] at h
  obtain ⟨rfl, rfl⟩ := Prod.mk.inj h
  obtain ⟨hroom, rfl⟩ := write_error hwrite
  exact ⟨⟨hs.read_le, hs.heard_le, hs.pings, hs.running, hs.room⟩, hroom⟩

/-- The responder answers what it reads. -/
theorem Sound.respond (hs : l.Sound) (h : l.pings = f :: rest) :
    (l.respond f).Sound ∧ (l.respond f).pings = rest ∧ ∃ seq, f = (Message.ping seq).toFrame ∧
      (l.respond f).answers = l.answers ++ [(Message.pong seq).toFrame] := by
  obtain ⟨seq, rfl⟩ := hs.pings f (by rw [h]; exact List.mem_cons_self)
  obtain ⟨w, hwrite, hframes, hroom⟩ := write_of_room hs.room (Message.pong seq).toFrame
  have htake : l.responder.take (.ok (Message.ping seq).toFrame) =
      { l.responder with writer := w, answered := l.responder.answered + 1 } := by
    simp only [Responder.take, hs.running, Message.ofItem, Except.map, Message.ofFrame_ping, Writer.send, hwrite,
      Bool.false_eq_true, if_false]
  obtain ⟨hlength, hdrop⟩ := length_of_drop h
  have hpings : (l.respond (Message.ping seq).toFrame).pings = rest := hdrop
  have hanswers : (l.respond (Message.ping seq).toFrame).answers = l.answers ++ [(Message.pong seq).toFrame] := by
    simp only [Line.answers, Line.respond, htake]
    rw [hframes, List.drop_append_of_le_length hs.heard_le]
  refine ⟨⟨hlength, ?_, ?_, ?_, ?_⟩, hpings, seq, rfl, hanswers⟩
  · have := hs.heard_le
    simp only [Line.respond, htake, hframes, List.length_append]
    omega
  · rw [hpings]
    exact fun f hf => hs.pings f (by rw [h]; exact List.mem_cons_of_mem _ hf)
  · simp only [Line.respond, htake, hs.running]
  · simp only [Line.respond, htake, hroom]

theorem Awaiting.respond (hw : l.Awaiting) (hs : l.Sound) (h : l.pings = f :: rest) : (l.respond f).Awaiting := by
  obtain ⟨-, hpings, seq, rfl, hanswers⟩ := hs.respond h
  have hseq : (l.respond (Message.ping seq).toFrame).link.seq = l.link.seq := rfl
  rw [Awaiting, hseq, hpings, hanswers]
  rcases hw with hw | hw
  · rw [h] at hw
    rcases List.mem_cons.mp hw with hw | hw
    · -- The ping that was read is the last one, and its answer is now on the way back.
      have hsame : seq = l.link.seq := by
        have hread := congrArg Message.ofFrame hw
        rw [Message.ofFrame_ping, Message.ofFrame_ping] at hread
        exact (Message.ping.inj (Except.ok.inj hread)).symm
      rw [hsame]
      exact Or.inr (List.mem_append_right _ (List.mem_singleton_self _))
    · exact Or.inl hw
  · exact Or.inr (List.mem_append_left _ hw)

theorem Sound.hear (hs : l.Sound) (h : l.answers = f :: rest) : l.hear.Sound :=
  ⟨hs.read_le, (length_of_drop h).1, hs.pings, hs.running, hs.room⟩

/-- What the link passes over is not the answer it waits for. -/
theorem Awaiting.hear (hw : l.Awaiting) (h : l.answers = f :: rest) {elapsed : Nat}
    (hverdict : verdict l.link.seq elapsed (.item (.ok f)) = none) : l.hear.Awaiting := by
  refine hw.imp_right fun hw => ?_
  have hrest : l.hear.answers = rest := (length_of_drop h).2
  rw [h] at hw
  rcases List.mem_cons.mp hw with rfl | hw
  · simp [verdict, Message.ofFrame_pong] at hverdict
  · rw [hrest]
    exact hw

theorem Sound.hangUp (hs : l.Sound) : l.hangUp.Sound :=
  ⟨hs.read_le, hs.heard_le, hs.pings, hs.running, hs.room⟩

/-- An answer that decides a ping acknowledges it. -/
theorem acknowledged_of_verdict {seq : UInt64} {elapsed : Nat} {outcome : Outcome}
    (h : verdict seq elapsed (.item (.ok f)) = some outcome) : outcome = .acknowledged elapsed := by
  simp only [verdict] at h
  split at h
  · split at h
    · exact (Option.some.inj h).symm
    · cases h
  · cases h

end Line
end Heartbeat
end GridFlight
