import GridFlight.Heartbeat.ControlLink
import GridFlight.Proofs.Message.Control

/-! A ping against its deadline. What comes in either decides a ping or does not matter to it: the first event that
    decides it ends it, if it comes before the deadline, and otherwise the deadline does. The events behind the one that
    decides are kept for the next ping, and so are those behind the deadline. -/

namespace GridFlight
namespace Heartbeat

/-! ### What decides a ping -/

/-- The pong with the number of the ping, a framing error, or the end of the stream. -/
def Decides (seq : UInt64) : ChannelEvent → Prop
  | .ended | .item (.error _) => True
  | .item (.ok f) => Message.ofFrame f = .ok (.pong seq)

/-- What an event that decides a ping makes of it, after so many milliseconds. -/
def outcomeOf (elapsed : Nat) : ChannelEvent → Outcome
  | .ended | .item (.error _) => .disconnected
  | .item (.ok _) => .acknowledged elapsed

variable {seq : UInt64} {start deadline moment : Nat} {event : ChannelEvent} {before incoming after : Incoming}

theorem verdict_of_decides (h : Decides seq event) (elapsed : Nat) :
    verdict seq elapsed event = some (outcomeOf elapsed event) := by
  match event, h with
  | .ended, _ | .item (.error _), _ => rfl
  | .item (.ok f), h =>
    have hpong : Message.ofFrame f = .ok (.pong seq) := h
    simp [verdict, outcomeOf, hpong]

theorem verdict_of_not_decides (h : ¬Decides seq event) (elapsed : Nat) : verdict seq elapsed event = none := by
  match event, h with
  | .ended, h | .item (.error _), h => exact absurd trivial h
  | .item (.ok f), h =>
    have hother : Message.ofFrame f ≠ .ok (.pong seq) := h
    simp only [verdict]
    split
    · next answer hpong =>
      have hanswer : answer ≠ seq := fun heq => hother (heq ▸ hpong)
      rw [if_neg hanswer]
    · rfl

theorem isSome_verdict : (verdict seq 0 event).isSome = true ↔ Decides seq event := by
  by_cases h : Decides seq event
  · simp [verdict_of_decides h, h]
  · simp [verdict_of_not_decides h, h]

instance decidableDecides (seq : UInt64) : DecidablePred (Decides seq) := fun _ => decidable_of_iff _ isSome_verdict

/-! ### The wait -/

/-- One event of a wait that begins before its deadline. -/
theorem await_cons (hstart : start < deadline) :
    await seq start deadline ((moment, event) :: incoming) =
      if moment < deadline then
        if Decides seq event then
          (outcomeOf (max start moment - start) event, max start moment, .behind event, incoming)
        else await seq start deadline incoming
      else (.timedOut, deadline, .steady, (moment, event) :: incoming) := by
  have hearly : (moment ≤ start ∨ moment < deadline) ↔ moment < deadline := by omega
  rw [await]
  simp only [hearly]
  split
  · by_cases hdecides : Decides seq event
    · rw [verdict_of_decides hdecides, if_pos hdecides]
    · rw [verdict_of_not_decides hdecides, if_neg hdecides]
  · rw [Nat.max_eq_right (Nat.le_of_lt hstart)]

/-- What comes after the deadline only is not read. -/
theorem await_late (hstart : start < deadline) (hlate : ∀ x ∈ incoming, deadline ≤ x.1) :
    await seq start deadline incoming = (.timedOut, deadline, .steady, incoming) := by
  match incoming, hlate with
  | [], _ => rw [await, Nat.max_eq_right (Nat.le_of_lt hstart)]
  | first :: incoming, hlate => rw [await_cons hstart, if_neg (Nat.not_lt.mpr (hlate first List.mem_cons_self))]

theorem late_of_first {first : Nat × ChannelEvent} (htimed : (first :: incoming).Pairwise fun x y => x.1 ≤ y.1)
    (hlate : ¬first.1 < deadline) : ∀ x ∈ first :: incoming, deadline ≤ x.1 := by
  have hfirst := Nat.not_lt.mp hlate
  exact List.forall_mem_cons.mpr ⟨hfirst, fun x hx => Nat.le_trans hfirst (List.rel_of_pairwise_cons htimed hx)⟩

/-- The first event that decides a ping ends the wait, if it comes before the deadline. -/
theorem await_decided (hstart : start < deadline) (hbefore : ∀ x ∈ before, x.1 < deadline ∧ ¬Decides seq x.2)
    (hmoment : moment < deadline) (hdecides : Decides seq event) :
    await seq start deadline (before ++ (moment, event) :: after) =
      (outcomeOf (max start moment - start) event, max start moment, .behind event, after) := by
  induction before with
  | nil => rw [List.nil_append, await_cons hstart, if_pos hmoment, if_pos hdecides]
  | cons first before ih =>
    obtain ⟨⟨hearly, hother⟩, hrest⟩ := List.forall_mem_cons.mp hbefore
    rw [List.cons_append, await_cons hstart, if_pos hearly, if_neg hother]
    exact ih hrest

/-- If nothing decides a ping before the deadline, the wait ends at the deadline, and what comes later is kept. -/
theorem await_undecided (hstart : start < deadline) (htimed : incoming.Pairwise fun x y => x.1 ≤ y.1)
    (hoff : ∀ x ∈ incoming, x.1 ≠ deadline) (hnone : ∀ x ∈ incoming, x.1 < deadline → ¬Decides seq x.2) :
    await seq start deadline incoming =
      (.timedOut, deadline, .steady, incoming.filter fun x => deadline < x.1) := by
  induction incoming with
  | nil => exact await_late hstart nofun
  | cons first incoming ih =>
    by_cases hearly : first.1 < deadline
    · have hother := hnone first List.mem_cons_self hearly
      rw [await_cons hstart, if_pos hearly, if_neg hother,
        ih htimed.of_cons (List.forall_mem_cons.mp hoff).2 (List.forall_mem_cons.mp hnone).2,
        List.filter_cons_of_neg (by simpa using Nat.le_of_lt hearly)]
    · have hlate := late_of_first htimed hearly
      have hall : (first :: incoming).filter (fun x => deadline < x.1) = first :: incoming :=
        List.filter_eq_self.mpr fun x hx => decide_eq_true (Nat.lt_of_le_of_ne (hlate x hx) (hoff x hx).symm)
      rw [await_late hstart hlate, hall]

/-- Events that do not decide a ping change neither its outcome nor its moment. -/
theorem await_filter (hstart : start < deadline) (htimed : incoming.Pairwise fun x y => x.1 ≤ y.1) :
    (await seq start deadline (incoming.filter fun x => Decides seq x.2)).1 = (await seq start deadline incoming).1 ∧
      (await seq start deadline (incoming.filter fun x => Decides seq x.2)).2.1 =
        (await seq start deadline incoming).2.1 := by
  induction incoming with
  | nil => exact ⟨rfl, rfl⟩
  | cons first incoming ih =>
    by_cases hearly : first.1 < deadline
    · by_cases hdecides : Decides seq first.2
      · rw [List.filter_cons_of_pos (by simpa using hdecides), await_cons hstart, await_cons hstart]
        simp only [if_pos hearly, if_pos hdecides, and_self]
      · rw [List.filter_cons_of_neg (by simpa using hdecides), await_cons hstart, if_pos hearly, if_neg hdecides]
        exact ih htimed.of_cons
    · have hlate := late_of_first htimed hearly
      rw [await_late hstart hlate, await_late hstart fun x hx => hlate x ((List.mem_filter.mp hx).1)]
      exact ⟨rfl, rfl⟩

/-- A wait in which nothing decides the ping lasts until the deadline. -/
theorem await_silent (start deadline : Nat) (hnone : ∀ x ∈ incoming, ¬Decides seq x.2) :
    (await seq start deadline incoming).1 = .timedOut ∧
      (await seq start deadline incoming).2.1 = max start deadline := by
  induction incoming with
  | nil => exact ⟨rfl, rfl⟩
  | cons first incoming ih =>
    obtain ⟨hfirst, hrest⟩ := List.forall_mem_cons.mp hnone
    rw [await, verdict_of_not_decides hfirst]
    split
    · exact ih hrest
    · exact ⟨rfl, rfl⟩

/-! ### Pings -/

namespace ControlLink

/-- What a ping gives whose write has succeeded: the outcome, its moment, and the link with what is still to come. -/
def pinged (l : ControlLink) (outcome : Outcome) (moment : Nat) (reading : Reading) (incoming : Incoming) :
    Outcome × Nat × ControlLink :=
  (outcome, moment, { l.write.2 with incoming := incoming, reading := reading })

variable {l : ControlLink} {timeout : Nat}

theorem ping_eq_wait (hwrite : l.write.1 = .ok ()) :
    l.ping start timeout = l.write.2.wait start (start + timeout) := by
  have hwritten : l.write = (.ok (), l.write.2) := Prod.ext hwrite rfl
  unfold ping
  rw [hwritten]

theorem ping_of_ended (hwrite : l.write.1 = .ok ()) (hended : l.reading = .ended) :
    l.ping start timeout = (.disconnected, start, l.write.2) := by
  have hreading : l.write.2.reading = .ended := hended
  rw [ping_eq_wait hwrite, wait, hreading]

/-- The end that follows upon an error is met by one ping, and the next one reads what comes in. -/
theorem ping_of_failed (hwrite : l.write.1 = .ok ()) (hfailed : l.reading = .failed) :
    l.ping start timeout = l.pinged .disconnected start .steady l.incoming := by
  have hreading : l.write.2.reading = .failed := hfailed
  rw [ping_eq_wait hwrite, wait, hreading]
  rfl

theorem ping_eq_pinged (hwrite : l.write.1 = .ok ()) (hsteady : l.reading = .steady) :
    l.ping start timeout =
      let (outcome, moment, reading, incoming) := await (l.seq + 1) start (start + timeout) l.incoming
      l.pinged outcome moment reading incoming := by
  have hreading : l.write.2.reading = .steady := hsteady
  rw [ping_eq_wait hwrite, wait, hreading]
  rfl

/-- An open link that takes the next ping, and on which nothing comes that decides it. -/
structure Silent (l : ControlLink) : Prop where
  opened : l.reading = .steady
  written : l.write.1 = .ok ()
  unanswered : ∀ x ∈ l.incoming, ¬Decides (l.seq + 1) x.2

theorem Silent.ping (h : l.Silent) (start timeout : Nat) :
    (l.ping start timeout).1 = .timedOut ∧ (l.ping start timeout).2.1 = start + timeout := by
  obtain ⟨houtcome, hmoment⟩ := await_silent start (start + timeout) h.unanswered
  rw [ping_eq_pinged h.written h.opened]
  exact ⟨houtcome, hmoment.trans (Nat.max_eq_right (Nat.le_add_right start timeout))⟩

/-- A ping that is written at once ends at the first event before its deadline that decides it, and otherwise at its
    deadline, no sooner and no later. All other events come to nothing: without them the ping has the same outcome at
    the same moment. What comes behind the deciding event, or after the deadline, is there for the next ping. Behind the
    end of the stream every ping ends at once, and behind an error the next one does. -/
theorem ping_ends_by_deadline (l : ControlLink) (start : Nat) {timeout : Nat} (hpositive : 0 < timeout)
    (htimed : l.incoming.Pairwise fun x y => x.1 ≤ y.1) (hoff : ∀ x ∈ l.incoming, x.1 ≠ start + timeout)
    (hwrite : l.write.1 = .ok ()) :
    (l.reading = .ended → l.ping start timeout = (.disconnected, start, l.write.2)) ∧
    (l.reading = .failed → l.ping start timeout = l.pinged .disconnected start .steady l.incoming) ∧
    (l.reading = .steady →
      (∀ before moment event after, l.incoming = before ++ (moment, event) :: after → moment < start + timeout →
        Decides (l.seq + 1) event → (∀ x ∈ before, ¬Decides (l.seq + 1) x.2) →
        l.ping start timeout =
          l.pinged (outcomeOf (max start moment - start) event) (max start moment) (.behind event) after) ∧
      ((∀ x ∈ l.incoming, x.1 < start + timeout → ¬Decides (l.seq + 1) x.2) →
        l.ping start timeout =
          l.pinged .timedOut (start + timeout) .steady (l.incoming.filter fun x => start + timeout < x.1)) ∧
      let undisturbed := { l with incoming := l.incoming.filter fun x => Decides (l.seq + 1) x.2 }
      (undisturbed.ping start timeout).1 = (l.ping start timeout).1 ∧
        (undisturbed.ping start timeout).2.1 = (l.ping start timeout).2.1) := by
  have hstart : start < start + timeout := by omega
  refine ⟨ping_of_ended hwrite, ping_of_failed hwrite,
    fun hopen => ⟨fun before moment event after hsplit hmoment hdecides hothers => ?_, fun hnone => ?_, ?_⟩⟩
  · have hbefore : ∀ x ∈ before, x.1 < start + timeout ∧ ¬Decides (l.seq + 1) x.2 := fun x hx => by
      rw [hsplit] at htimed
      have hsooner := (List.pairwise_append.mp htimed).2.2 x hx (moment, event) List.mem_cons_self
      exact ⟨Nat.lt_of_le_of_lt hsooner hmoment, hothers x hx⟩
    rw [ping_eq_pinged hwrite hopen, hsplit, await_decided hstart hbefore hmoment hdecides]
  · rw [ping_eq_pinged hwrite hopen, await_undecided hstart htimed hoff hnone]
  · intro undisturbed
    have hquiet : undisturbed.write.1 = .ok () := hwrite
    rw [ping_eq_pinged hwrite hopen, ping_eq_pinged hquiet hopen]
    exact await_filter hstart htimed

/-- A link before its first ping. Its own answer comes among a late one, a message of another kind, a frame of no kind
    and the answer to a later ping. -/
def crowded : ControlLink :=
  { ControlLink.new .lasting with
    incoming := [(2, .item (.ok (Message.pong 0).toFrame)), (6, .item (.ok (Message.ping 1).toFrame)),
      (6, .item (.ok ⟨99, .ofText "", []⟩)), (7, .item (.ok (Message.pong 1).toFrame)),
      (9, .item (.ok (Message.pong 2).toFrame))] }

theorem crowded_acknowledged :
    (0 < 10 ∧ crowded.incoming.Pairwise (fun x y => x.1 ≤ y.1) ∧ (∀ x ∈ crowded.incoming, x.1 ≠ 4 + 10) ∧
      crowded.write.1 = .ok ()) ∧
    crowded.ping 4 10 = crowded.pinged (.acknowledged 3) 7 .steady [(9, .item (.ok (Message.pong 2).toFrame))] := by
  have htimed : crowded.incoming.Pairwise fun x y => x.1 ≤ y.1 := by simp [crowded]
  have hoff : ∀ x ∈ crowded.incoming, x.1 ≠ 4 + 10 := by simp [crowded]
  have hunknown : Message.ofFrame ⟨99, .ofText "", []⟩ = .error (.unknownKind 99) := rfl
  have hothers : ∀ x ∈ crowded.incoming.take 3, ¬Decides (crowded.seq + 1) x.2 := by
    simp [crowded, Decides, ControlLink.new, Message.ofFrame_pong, Message.ofFrame_ping, hunknown]
  have hanswer : Decides (crowded.seq + 1) (.item (.ok (Message.pong 1).toFrame)) := Message.ofFrame_pong 1
  refine ⟨⟨by decide, htimed, hoff, rfl⟩, ?_⟩
  exact ((ping_ends_by_deadline crowded 4 (by decide) htimed hoff rfl).2.2 rfl).1 (crowded.incoming.take 3) 7 _ _ rfl
    (by decide) hanswer hothers

end ControlLink
end Heartbeat
end GridFlight
