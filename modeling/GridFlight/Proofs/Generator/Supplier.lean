import GridFlight.Generator.Loop
import GridFlight.Proofs.Coordinator.Links
import GridFlight.Proofs.Generator.Scattering
import GridFlight.Proofs.Message.Control
import Mathlib.Data.List.Forall2

/-! A generator between its two channels with the coordinator. It takes in the frames that it was sent in their order,
    and each of its replies answers one of them. What it scatters keeps off the cells that it knows at that moment;
    so every set of targets keeps off the obstacles of the frame that it answers. -/

namespace GridFlight

/-! ### Scattering -/

namespace Placement

variable {window : Window} {d : Draws} {c : Cell}

/-- A free cell that is drawn at once. -/
theorem scatter_one {avoid : List Cell} (h : (randomCell window d).1 = some c) (hfree : c ∉ avoid) :
    (scatter window 1 avoid d).1 = [c] := by
  rcases hdraw : randomCell window d with ⟨_ | cell, rest⟩
  · simp [hdraw] at h
  · obtain rfl : cell = c := by simpa [hdraw] using h
    have hsearch : freeCell window (Std.HashSet.ofList avoid).contains d = (some cell, rest) := by
      simp [freeCell, maxAttempts, search, hdraw, hfree]
    simp [scatter, scatterOnto, hsearch]

end Placement

/-! ### Taking in and replying -/

namespace Generator

theorem handle_targets (g : TargetGenerator) (m : Message) :
    Generator.handle (.targets g) m = ((g.handle m).1, .targets (g.handle m).2) := rfl

/-- A part that scatters targets replies to sets of obstacles only, with targets that keep off them. -/
theorem handle_eq_send {g : TargetGenerator} {m reply : Message} (h : (g.handle m).1 = .send reply) :
    ∃ obstacles targets, m = .obstacles obstacles ∧ reply = .targets targets ∧
      ∀ cell ∈ targets, cell ∉ obstacles := by
  cases m with
  | obstacles cells =>
    cases hwindow : g.window with
    | none =>
      delta TargetGenerator.handle at h
      simp [hwindow] at h
    | some window =>
      rcases hscatter : Placement.scatter window (Placement.population window g.density) cells g.draws with
        ⟨targets, later⟩
      have hreply : (g.handle (.obstacles cells)).1 = .send (.targets targets) := by
        delta TargetGenerator.handle
        simp [hwindow, hscatter]
      obtain rfl : reply = .targets targets := Reply.send.inj (h.symm.trans hreply)
      refine ⟨cells, targets, rfl, rfl, fun cell hcell => ?_⟩
      have hmem : cell ∈ (Placement.scatter window (Placement.population window g.density) cells g.draws).1 := by
        rw [hscatter]
        exact hcell
      exact (Placement.scattered_scatter ..).avoids cell hmem
  | _ => cases h

namespace Loop

/-- A generator that takes in a frame writes nothing, or a reply to the message of the frame. -/
theorem take_cases (l : Loop) (f : Frame) :
    ((l.take (.ok f)).writer.frames = l.writer.frames ∧
      ((l.take (.ok f)).generator = l.generator ∨
        ∃ m, (l.take (.ok f)).generator = (l.generator.handle m).2)) ∨
    ∃ m reply, Message.ofFrame f = .ok m ∧ (l.generator.handle m).1 = .send reply ∧
      (l.take (.ok f)).writer.frames = l.writer.frames ++ [reply.toFrame] ∧
      (l.take (.ok f)).generator = (l.generator.handle m).2 := by
  unfold take
  split
  · exact Or.inl ⟨rfl, Or.inl rfl⟩
  · rcases hread : Message.ofFrame f with e | m
    · simp [Message.ofItem, Except.map, hread]
    · simp only [Message.ofItem, Except.map, hread]
      rcases hhandle : l.generator.handle m with ⟨_ | _ | reply, g⟩
      · exact Or.inl ⟨rfl, Or.inr ⟨m, by rw [hhandle]⟩⟩
      · exact Or.inl ⟨rfl, Or.inr ⟨m, by rw [hhandle]⟩⟩
      · dsimp only
        rcases l.writer.write_cases reply.toFrame with ⟨e, hwrite⟩ | ⟨later, hwrite, hframes⟩
        · refine Or.inl ⟨?_, Or.inr ⟨m, ?_⟩⟩
          · simp [Writer.send, hwrite]
          · simp [Writer.send, hwrite, hhandle]
        · refine Or.inr ⟨m, reply, rfl, ?_, ?_, ?_⟩
          · rw [hhandle]
          · simp [Writer.send, hwrite, hframes]
          · simp [Writer.send, hwrite, hhandle]

end Loop

/-! ### Suppliers -/

/-- A generator between its two channels with the coordinator. -/
structure Supplier where
  loop : Loop
  /-- How many of the frames that it was sent it has taken in. -/
  taken : Nat
  /-- How many of its frames the coordinator has heard. -/
  heard : Nat
  /-- For each of its frames, the number of the frame upon which it was written. -/
  answers : List Nat

namespace Supplier

def new (g : Generator) (room : Option Nat) : Supplier := ⟨.new g ⟨#[], room⟩, 0, 0, []⟩

def frames (s : Supplier) : List Frame := s.loop.writer.frames

/-- Takes in the next frame. -/
def take (f : Frame) (s : Supplier) : Supplier :=
  let loop := s.loop.take (.ok f)
  { s with
    loop := loop
    taken := s.taken + 1
    answers := s.answers ++ List.replicate (loop.writer.frames.length - s.frames.length) s.taken }

def hear (s : Supplier) : Supplier := { s with heard := s.heard + 1 }

/-- A frame keeps off the set of obstacles in the frame of this number. -/
def KeepsOff (sent : List Frame) (number : Nat) (f : Frame) : Prop :=
  f.code = Frame.Kind.targets.code ∧ ∃ request, sent[number]? = some request ∧
    request.code = Frame.Kind.obstacles.code ∧ ∀ cell ∈ f.bulk, cell ∉ request.bulk

/-- A part that scatters targets, all of whose replies keep off the obstacles that they answer. -/
structure Careful (s : Supplier) (sent : List Frame) : Prop where
  generator : ∃ g, s.loop.generator = .targets g
  replies : List.Forall₂ (KeepsOff sent) s.answers s.frames

variable {s : Supplier} {sent : List Frame} {f : Frame}

theorem careful_new (g : TargetGenerator) (room : Option Nat) (sent : List Frame) :
    (new (.targets g) room).Careful sent := ⟨⟨g, rfl⟩, .nil⟩

theorem Careful.hear (h : s.Careful sent) : s.hear.Careful sent := ⟨h.generator, h.replies⟩

theorem Careful.append (h : s.Careful sent) (more : List Frame) : s.Careful (sent ++ more) := by
  refine ⟨h.generator, h.replies.imp ?_⟩
  rintro number f ⟨hcode, request, hrequest, hkind, hoff⟩
  exact ⟨hcode, request, List.getElem?_append_left (List.getElem?_eq_some_iff.mp hrequest).1 ▸ hrequest, hkind, hoff⟩

theorem Careful.take (h : s.Careful sent) (hf : sent[s.taken]? = some f) : (s.take f).Careful sent := by
  obtain ⟨⟨g, hg⟩, hreplies⟩ := h
  rcases s.loop.take_cases f with ⟨hframes, hgenerator⟩ | ⟨m, reply, hread, hsend, hframes, hgenerator⟩
  · refine ⟨?_, ?_⟩
    · rcases hgenerator with hsame | ⟨m, hm⟩
      · exact ⟨g, hsame.trans hg⟩
      · exact ⟨(g.handle m).2, by rw [Supplier.take, hm, hg, handle_targets]⟩
    · have hanswers : (s.take f).answers = s.answers := by simp [Supplier.take, hframes, frames]
      rw [hanswers, frames, show (s.take f).loop = s.loop.take (.ok f) from rfl, hframes]
      exact hreplies
  · rw [hg, handle_targets] at hsend hgenerator
    obtain ⟨obstacles, targets, rfl, rfl, hoff⟩ := handle_eq_send hsend
    refine ⟨⟨_, hgenerator⟩, ?_⟩
    have hanswers : (s.take f).answers = s.answers ++ [s.taken] := by simp [Supplier.take, hframes, frames]
    rw [hanswers, frames, show (s.take f).loop = s.loop.take (.ok f) from rfl, hframes]
    refine List.rel_append hreplies (.cons ⟨rfl, f, hf, Message.code_of_ofFrame hread, ?_⟩ .nil)
    rw [← Message.cells_of_ofFrame hread rfl]
    exact hoff

theorem loop_take_silent {m : Message} (hread : Message.ofFrame f = .ok m)
    (hhandle : (s.loop.generator.handle m).1 = .silent) (hending : s.loop.ending = none) :
    (s.take f).loop = { s.loop with generator := (s.loop.generator.handle m).2 } := by
  rcases hreply : s.loop.generator.handle m with ⟨reply, g⟩
  obtain rfl : reply = .silent := by simpa [hreply] using hhandle
  simp [Supplier.take, Loop.take, hending, Message.ofItem, Except.map, hread, hreply]

theorem frames_take_send {m reply : Message} (hread : Message.ofFrame f = .ok m)
    (hhandle : (s.loop.generator.handle m).1 = .send reply) (hending : s.loop.ending = none)
    (hroom : s.loop.writer.room = none) : (s.take f).frames = s.frames ++ [reply.toFrame] := by
  rcases hreply : s.loop.generator.handle m with ⟨answer, g⟩
  obtain rfl : answer = .send reply := by simpa [hreply] using hhandle
  simp [Supplier.take, Loop.take, hending, Message.ofItem, Except.map, hread, hreply, Writer.send, Writer.write, hroom,
    frames, Writer.frames]

/-- Each reply has the number of a set of obstacles, and is a set of targets that keeps off it. -/
theorem Careful.reply (h : s.Careful sent) {k : Nat} (hf : s.frames[k]? = some f) :
    ∃ number, s.answers[k]? = some number ∧ KeepsOff sent number f := by
  obtain ⟨hk, rfl⟩ := List.getElem?_eq_some_iff.mp hf
  have hlength := h.replies.length_eq
  exact ⟨s.answers.get ⟨k, by omega⟩, List.getElem?_eq_getElem _, h.replies.get (by omega) hk⟩

end Supplier
end Generator

end GridFlight
