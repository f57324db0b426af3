import GridFlight.Proofs.Coordinator.Moves

/-! Channels do not disturb each other. What a move does to a channel depends on that channel alone, so that under any
    moves the messages applied from a channel are the first of those that its own bytes hold. A frame that does not
    parse costs that frame; an error or an end of a channel costs the rest of that channel and nothing else: the work
    goes on as if the channel were never heard again. -/

namespace GridFlight
namespace Coordinator

open Inbox (Channel)

variable {c d : Coordinator} {n : Nat} {ch later : Channel} {event : Inbound} {moves : List Move}

/-! ### What a move does to a channel -/

namespace Move

/-- The channel after a move. -/
def act (n : Nat) (m : Move) (ch : Channel) : Channel :=
  match m with
  | .meet (.arrival k a) => if k = n then ch.arrive a else ch
  | .hear k => if k = n then ch.heard else ch
  | .giveUp k => if k = n then ch.giveUp else ch
  | _ => ch

/-- What the channel offers in a move. -/
def offer (n : Nat) (m : Move) (ch : Channel) : Option Inbound :=
  match m with
  | .hear k => if k = n then ch.next.map Prod.fst else none
  | _ => none

def hears (n : Nat) : Move → Bool
  | .hear k => k == n
  | _ => false

end Move

/-- Hearing a channel changes it, and what it offers is handled. -/
theorem take_hear (n : Nat) (c : Coordinator) :
    (Move.hear n).take c =
      (match (c.inbox.hear n).map Prod.fst with
        | some event => c.dispatch event
        | none => c.go).fitted (c.inbox.change n Channel.heard) := by
  rw [Move.take]
  cases hhear : c.inbox.hear n with
  | none => exact congrArg (fun b => go (c.fitted b)) (Inbox.hear_eq_none hhear).symm
  | some o =>
    obtain ⟨event, inbox⟩ := o
    obtain ⟨-, -, -, rfl⟩ := Inbox.hear_eq_some hhear
    exact detached_dispatch event _ c

/-- A move does to each channel what it would do to that channel alone. -/
theorem getElem?_take (n : Nat) (m : Move) (c : Coordinator) :
    (m.take c).2.inbox.channels[n]? = c.inbox.channels[n]?.map (m.act n) := by
  have hsame : ∀ channel : Option Channel, channel = channel.map fun ch => ch := fun channel => by simp
  cases m with
  | start => exact (congrArg (fun b : Inbox => b.channels[n]?) (detached_start.inbox c)).trans (hsame _)
  | prepare now => exact (congrArg (fun b : Inbox => b.channels[n]?) ((detached_prepare now).inbox c)).trans (hsame _)
  | queue line => exact hsame _
  | giveUp k => exact Inbox.getElem?_change k n Channel.giveUp c.inbox
  | hear k =>
    rw [take_hear]
    exact Inbox.getElem?_change k n Channel.heard c.inbox
  | meet happening =>
    cases happening with
    | input | sever => exact hsame _
    | arrival k a =>
      have harrive := Inbox.getElem?_change k n (Channel.arrive a) c.inbox
      rw [← Inbox.channels_arrive] at harrive
      exact harrive

/-! ### One channel under any moves -/

/-- The messages that frames from a part hold. -/
def messagesOf (sender : Role) (frames : List Frame) : List Event :=
  frames.filterMap fun f => (Message.ofFrame f).toOption.map (Event.message sender)

theorem messagesOf_append (sender : Role) (frames later : List Frame) :
    messagesOf sender (frames ++ later) = messagesOf sender frames ++ messagesOf sender later :=
  List.filterMap_append

/-- What arrives for a channel. -/
def arrivals (n : Nat) (happenings : List Happening) : List Arrival :=
  happenings.filterMap fun h => match h with
    | .arrival k a => if k = n then some a else none
    | _ => none

/-- All that a channel offers in the course of these moves. -/
def offers (n : Nat) : List Move → Coordinator → List Inbound
  | [], _ => []
  | m :: later, c =>
    (c.inbox.channels[n]?.bind (m.offer n)).toList ++ Turnout.onward (m.take c) (offers n later) []

/-- The messages of a channel that are applied in the course of these moves. -/
def applied (n : Nat) (moves : List Move) (c : Coordinator) : List Event := (offers n moves c).filterMap eventOf

theorem role_act (n : Nat) (m : Move) (ch : Channel) : (m.act n ch).role = ch.role := by
  unfold Move.act
  split
  · split
    · exact ch.role_arrive _
    · rfl
  · split
    · exact ch.role_heard
    · rfl
  · split
    · exact ch.role_giveUp
    · rfl
  · rfl

/-- The message of what a channel offers is the one that its frame holds. -/
theorem eventOf_next (h : ch.next = some (event, later)) :
    (eventOf event).toList = messagesOf ch.role event.frame?.toList := by
  obtain ⟨-, -, ⟨f, rest, rfl, -⟩ | ⟨hevent, -⟩⟩ := Channel.next_cases h
  · simp only [eventOf, Inbound.frame?, messagesOf, Option.toList_some, List.filterMap_cons, List.filterMap_nil]
    cases Message.ofFrame f <;> rfl
  · rcases hevent with rfl | ⟨e, rfl⟩ <;> rfl

/-- In a move a channel offers the first message that is due from it, if anything. -/
theorem messagesOf_due (n : Nat) (m : Move) (ch : Channel) (hs : List Happening) :
    messagesOf ch.role (ch.due (arrivals n (m.happening?.toList ++ hs))) =
      ((m.offer n ch).bind eventOf).toList ++ messagesOf ch.role ((m.act n ch).due (arrivals n hs)) := by
  cases m with
  | start | prepare | queue => rfl
  | giveUp k =>
    by_cases hk : k = n
    · have hact : (Move.giveUp k).act n ch = ch.giveUp := if_pos hk
      rw [hact, ch.due_giveUp]
      rfl
    · have hact : (Move.giveUp k).act n ch = ch := if_neg hk
      rw [hact]
      rfl
  | hear k =>
    by_cases hk : k = n
    · have hact : (Move.hear k).act n ch = ch.heard := if_pos hk
      have hoffer : (Move.hear k).offer n ch = ch.next.map Prod.fst := if_pos hk
      rw [hact, hoffer]
      cases hnext : ch.next with
      | none =>
        rw [Channel.heard_of_nothing hnext]
        rfl
      | some o =>
        rw [Channel.heard_of_next hnext, Channel.due_next hnext, messagesOf_append, ← eventOf_next hnext]
        rfl
    · have hact : (Move.hear k).act n ch = ch := if_neg hk
      have hoffer : (Move.hear k).offer n ch = none := if_neg hk
      rw [hact, hoffer]
      rfl
  | meet happening =>
    cases happening with
    | input | sever => rfl
    | arrival k a =>
      by_cases hk : k = n
      · have hact : (Move.meet (.arrival k a)).act n ch = ch.arrive a := if_pos hk
        have harrivals : arrivals n (.arrival k a :: hs) = a :: arrivals n hs := by simp [arrivals, hk]
        rw [hact, ch.due_arrive, ← harrivals]
        rfl
      · have hact : (Move.meet (.arrival k a)).act n ch = ch := if_neg hk
        have harrivals : arrivals n (.arrival k a :: hs) = arrivals n hs := by simp [arrivals, hk]
        rw [hact, ← harrivals]
        rfl

/-- The message of a channel that is applied in a move. -/
def given (n : Nat) (m : Move) (c : Coordinator) : Option Event :=
  (c.inbox.channels[n]?.bind (m.offer n)).bind eventOf

theorem applied_cons (n : Nat) (m : Move) (moves : List Move) (c : Coordinator) :
    applied n (m :: moves) c = (given n m c).toList ++ Turnout.onward (m.take c) (applied n moves) [] := by
  rw [applied, offers, List.filterMap_append, given]
  congr 1
  · cases c.inbox.channels[n]?.bind (m.offer n) with
    | none => rfl
    | some event => cases h : eventOf event <;> simp [h]
  · rcases m.take c with ⟨e | _ | _, d⟩ <;> rfl

/-- What is due from a channel is what is applied from it and what is still due after the moves. -/
theorem messagesOf_follow (moves : List Move) {c : Coordinator} (h : c.inbox.channels[n]? = some ch) :
    ∃ left later, (follow moves c).2.inbox.channels[n]? = some later ∧
      ((follow moves c).1 = .ok .more → left = []) ∧
        messagesOf ch.role (ch.due (arrivals n (happenings moves))) =
          applied n moves c ++ messagesOf ch.role (later.due (arrivals n left)) := by
  induction moves generalizing c ch with
  | nil => exact ⟨[], ch, h, fun _ => rfl, rfl⟩
  | cons m moves ih =>
    have hafter : (m.take c).2.inbox.channels[n]? = some (m.act n ch) := by rw [getElem?_take, h]; rfl
    have hhappenings : happenings (m :: moves) = m.happening?.toList ++ happenings moves := by
      cases hm : m.happening? <;> simp [happenings, hm]
    rw [hhappenings, messagesOf_due, applied_cons, given, h, Option.bind_some, follow]
    simp only [List.append_assoc]
    rcases htake : m.take c with ⟨e | _ | _, d⟩ <;> rw [htake] at hafter
    · refine ⟨happenings moves, _, hafter, fun hmore => ?_, rfl⟩
      cases hmore
    · obtain ⟨left, later, hlater, hleft, heq⟩ := ih hafter
      rw [role_act] at heq
      exact ⟨left, later, hlater, hleft, congrArg (_ ++ ·) heq⟩
    · refine ⟨happenings moves, _, hafter, fun hmore => ?_, rfl⟩
      cases hmore

/-- A message is given only by what the channel offers when it is heard. -/
theorem given_eq_some {m : Move} {e : Event} (h : given n m c = some e) :
    m = .hear n ∧ ∃ event later, c.inbox.hear n = some (event, later) ∧ eventOf event = some e := by
  obtain ⟨event, hoffer, hevent⟩ := Option.bind_eq_some_iff.mp h
  obtain ⟨ch, hch, hoffer⟩ := Option.bind_eq_some_iff.mp hoffer
  cases m with
  | hear k =>
    by_cases hk : k = n
    · subst hk
      obtain ⟨o, hnext, rfl⟩ := Option.map_eq_some_iff.mp ((if_pos rfl).symm.trans hoffer)
      exact ⟨rfl, o.1, _, Inbox.hear_of_next hch hnext, hevent⟩
    · cases (if_neg hk).symm.trans hoffer
  | _ => cases hoffer

/-- The coordinator handles this message when it hears the channel, in the state that the moves before have led to. So
    many messages of the channel have been applied by then. -/
def Handles (n : Nat) (moves : List Move) (c : Coordinator) (count : Nat) (e : Event) : Prop :=
  ∃ before after d event inbox, moves = before ++ .hear n :: after ∧ follow before c = go d ∧
    (applied n before c).length = count ∧ d.inbox.hear n = some (event, inbox) ∧
      (Move.hear n).take d = (d.dispatch event).fitted inbox ∧ Works d [e] (d.dispatch event)

theorem Handles.cons {m : Move} {count : Nat} {e : Event} (h : Handles n moves d count e) (hm : m.take c = go d) :
    Handles n (m :: moves) c ((given n m c).toList.length + count) e := by
  obtain ⟨before, after, d', event, inbox, rfl, hfollow, rfl, hworks⟩ := h
  refine ⟨m :: before, after, d', event, inbox, rfl, ?_, ?_, hworks⟩
  · rw [follow, hm]
    exact hfollow
  · rw [applied_cons, hm, List.length_append]
    rfl

/-- The messages that are applied are those that the coordinator handles, one after the other. -/
theorem handles_of_applied (moves : List Move) {c : Coordinator} {i : Nat} {e : Event}
    (h : (applied n moves c)[i]? = some e) : Handles n moves c i e := by
  induction moves generalizing c i with
  | nil => cases h
  | cons m moves ih =>
    rw [applied_cons] at h
    have hlater : ∀ j, (Turnout.onward (m.take c) (applied n moves) [])[j]? = some e →
        Handles n (m :: moves) c ((given n m c).toList.length + j) e := by
      intro j hj
      rcases htake : m.take c with ⟨f | _ | _, d⟩ <;> rw [htake] at hj
      · cases hj
      · exact (ih hj).cons htake
      · cases hj
    cases hgiven : given n m c with
    | none =>
      rw [hgiven] at h hlater
      exact Nat.zero_add i ▸ hlater i h
    | some first =>
      rw [hgiven] at h hlater
      cases i with
      | zero =>
        obtain rfl : first = e := Option.some.inj h
        obtain ⟨rfl, event, inbox, hhear, hevent⟩ := given_eq_some hgiven
        have hworks := works_dispatch event c
        rw [hevent] at hworks
        refine ⟨[], moves, c, event, inbox, rfl, rfl, rfl, hhear, ?_, hworks⟩
        rw [Move.take, hhear]
        exact detached_dispatch event inbox c
      | succ i => exact Nat.add_comm 1 i ▸ hlater i h

/-! ### Other channels -/

/-- The same coordinators but for one channel. -/
def SameBut (n : Nat) (c d : Coordinator) : Prop :=
  ∃ b : Inbox, d = c.fitted b ∧ ∀ k, k ≠ n → b.channels[k]? = c.inbox.channels[k]?

theorem mute_act (h : ch.Mute) (n : Nat) (m : Move) : (m.act n ch).Mute := by
  unfold Move.act
  split
  · split
    · exact h.arrive _
    · exact h
  · split
    · exact h.heard
    · exact h
  · split
    · exact h.giveUp
    · exact h
  · exact h

/-- What is offered without a frame is not applied. -/
theorem eventOf_eq_none (h : event.frame? = none) : eventOf event = none := by
  match event with
  | .closed _ | .item _ (.error _) => rfl
  | .item _ (.ok _) => cases h

/-- What is offered without a frame changes nothing. -/
theorem dispatch_of_no_frame (h : event.frame? = none) (c : Coordinator) : c.dispatch event = c.go := by
  match event with
  | .closed _ | .item _ (.error _) => rfl
  | .item _ (.ok _) => cases h

theorem offer_of_not_hears {m : Move} (h : m.hears n = false) (ch : Channel) : m.offer n ch = none := by
  cases m with
  | hear k => exact if_neg (by simpa [Move.hears] using h)
  | _ => rfl

theorem bind_offer_of_mute (h : ch.Mute) (n : Nat) (m : Move) : (m.offer n ch).bind eventOf = none := by
  cases m with
  | hear k =>
    unfold Move.offer
    dsimp only
    split
    · cases hnext : ch.next with
      | none => rfl
      | some o => exact eventOf_eq_none (h.next hnext).1
    · rfl
  | _ => rfl

namespace SameBut

theorem trans_left {c' : Coordinator} (h : SameBut n c d) (h' : SameBut n c c') : SameBut n c' d := by
  obtain ⟨b, rfl, hb⟩ := h
  obtain ⟨b', rfl, hb'⟩ := h'
  exact ⟨b, rfl, fun k hk => (hb k hk).trans (hb' k hk).symm⟩

/-- Detached work does the same to both. -/
theorem work {work : Coordinator → Turnout} (h : SameBut n c d) (hwork : Detached work) :
    (work c).1 = (work d).1 ∧ SameBut n (work c).2 (work d).2 := by
  obtain ⟨b, rfl, hb⟩ := h
  rw [hwork b c]
  exact ⟨rfl, b, rfl, fun k hk => by rw [hwork.inbox]; exact hb k hk⟩

/-- The other channels of both change alike. -/
theorem refit {f : Inbox → Inbox} {k : Nat} {g : Channel → Channel} {t u : Turnout} (h : SameBut n c d)
    (hf : ∀ b, (f b).channels = (b.change k g).channels) (htu : ∃ b, u = t.fitted b) :
    (t.fitted (f c.inbox)).1 = (u.fitted (f d.inbox)).1 ∧
      SameBut n (t.fitted (f c.inbox)).2 (u.fitted (f d.inbox)).2 := by
  obtain ⟨b, rfl, hb⟩ := h
  obtain ⟨b', rfl⟩ := htu
  refine ⟨rfl, f b, rfl, fun j hj => ?_⟩
  change (f b).channels[j]? = (f c.inbox).channels[j]?
  rw [hf, hf, Inbox.getElem?_change, Inbox.getElem?_change, hb j hj]

/-- A move that does not hear the channel does the same to both. -/
theorem take (h : SameBut n c d) {m : Move} (hm : m.hears n = false) :
    (m.take c).1 = (m.take d).1 ∧ SameBut n (m.take c).2 (m.take d).2 := by
  have hgo : ∃ b, d.go = c.go.fitted b := by
    obtain ⟨b, rfl, -⟩ := h
    exact ⟨b, rfl⟩
  cases m with
  | start => exact h.work detached_start
  | prepare now => exact h.work (detached_prepare now)
  | giveUp k => exact h.refit (g := Channel.giveUp) (fun b => rfl) hgo
  | queue line =>
    obtain ⟨b, rfl, hb⟩ := h
    exact ⟨rfl, b.queue line, rfl, hb⟩
  | meet happening =>
    cases happening with
    | arrival k a => exact h.refit (Inbox.channels_arrive k a) hgo
    | input event | sever role =>
      obtain ⟨b, rfl, hb⟩ := h
      exact ⟨rfl, b, rfl, hb⟩
  | hear k =>
    have hk : k ≠ n := by simpa [Move.hears] using hm
    have hsame : (d.inbox.hear k).map Prod.fst = (c.inbox.hear k).map Prod.fst := by
      obtain ⟨b, rfl, hb⟩ := h
      simp only [Inbox.hear, Option.map_map, fitted, hb k hk]
      rfl
    rw [take_hear, take_hear, hsame]
    cases (c.inbox.hear k).map Prod.fst with
    | none => exact h.refit (fun b => rfl) hgo
    | some event =>
      refine h.refit (fun b => rfl) ?_
      obtain ⟨b, rfl, -⟩ := h
      exact ⟨b, detached_dispatch event b c⟩

end SameBut

/-- Hearing a mute channel changes no other. -/
theorem take_hear_of_mute (hch : c.inbox.channels[n]? = some ch) (hmute : ch.Mute) :
    ∃ d, (Move.hear n).take c = d.go ∧ SameBut n c d := by
  refine ⟨c.fitted (c.inbox.change n Channel.heard), ?_, c.inbox.change n Channel.heard, rfl, fun k hk => ?_⟩
  · rw [take_hear]
    cases hhear : c.inbox.hear n with
    | none => rfl
    | some o =>
      obtain ⟨ch', hch', hnext, -⟩ := Inbox.hear_eq_some hhear
      obtain rfl : ch = ch' := Option.some.inj (hch.symm.trans hch')
      exact congrArg (Turnout.fitted _) (dispatch_of_no_frame (hmute.next hnext).1 c)
  · rw [Inbox.getElem?_change]
    simp [Ne.symm hk]

theorem given_hear_other {k : Nat} (hk : n ≠ k) (c : Coordinator) : given k (.hear n) c = none := by
  have hoffer : ∀ ch : Channel, (Move.hear n).offer k ch = none := fun ch => if_neg hk
  rw [given, Option.bind_eq_none_iff.mpr fun ch _ => hoffer ch]
  rfl

theorem given_hear_of_mute (hch : c.inbox.channels[n]? = some ch) (hmute : ch.Mute) (k : Nat) :
    given k (.hear n) c = none := by
  by_cases hk : n = k
  · subst hk
    rw [given, hch]
    exact bind_offer_of_mute hmute n (.hear n)
  · exact given_hear_other hk c

theorem SameBut.given (h : SameBut n c d) (hch : c.inbox.channels[n]? = some ch) (hmute : ch.Mute) {m : Move}
    (hm : m.hears n = false) (k : Nat) : given k m c = given k m d := by
  obtain ⟨b, rfl, hb⟩ := h
  by_cases hk : k = n
  · subst hk
    have hleft : Coordinator.given k m c = none := by
      rw [Coordinator.given, hch]
      exact bind_offer_of_mute hmute k m
    have hright : Coordinator.given k m (c.fitted b) = none := by
      rw [Coordinator.given, Option.bind_eq_none_iff.mpr fun ch _ => offer_of_not_hears hm ch]
      rfl
    rw [hleft, hright]
  · exact congrArg (fun channel : Option Channel => (channel.bind (m.offer k)).bind eventOf) (hb k hk).symm

/-- Once a channel is mute, the work goes on as if it were never heard again. -/
theorem follow_without (moves : List Move) {c d : Coordinator} (hch : c.inbox.channels[n]? = some ch) (hmute : ch.Mute)
    (h : SameBut n c d) :
    let others := moves.filter fun m => !m.hears n
    (follow moves c).1 = (follow others d).1 ∧ SameBut n (follow moves c).2 (follow others d).2 ∧
      ∀ k, applied k moves c = applied k others d := by
  induction moves generalizing c d ch with
  | nil => exact ⟨rfl, h, fun k => rfl⟩
  | cons m moves ih =>
    have hafter : (m.take c).2.inbox.channels[n]? = some (m.act n ch) := by rw [getElem?_take, hch]; rfl
    have hmute' := mute_act hmute n m
    cases hm : m.hears n with
    | true =>
      obtain rfl : m = .hear n := by
        cases m with
        | hear k => rw [of_decide_eq_true hm]
        | _ => cases hm
      obtain ⟨c', htake, hsame⟩ := take_hear_of_mute hch hmute
      rw [htake] at hafter
      obtain ⟨hresult, hbut, happlied⟩ := ih hafter hmute' (h.trans_left hsame)
      simp only [List.filter_cons, hm, Bool.not_true, Bool.false_eq_true, if_false]
      have hfollow : follow (.hear n :: moves) c = follow moves c' := by rw [follow, htake]; rfl
      rw [hfollow]
      refine ⟨hresult, hbut, fun k => ?_⟩
      rw [applied_cons, given_hear_of_mute hch hmute k, htake]
      exact happlied k
    | false =>
      obtain ⟨hresult, hbut⟩ := h.take hm
      have hgiven := h.given hch hmute hm
      simp only [List.filter_cons, hm, Bool.not_false, if_true, follow, applied_cons]
      rcases hc : m.take c with ⟨e | _ | _, c'⟩ <;> rcases hd : m.take d with ⟨e' | _ | _, d'⟩ <;>
        simp only [hc, hd] at hresult hbut hafter <;> try cases hresult
      · exact ⟨rfl, hbut, fun k => by rw [hgiven k]; rfl⟩
      · obtain ⟨hresult', hbut', happlied⟩ := ih hafter hmute' hbut
        exact ⟨hresult', hbut', fun k => by rw [hgiven k]; exact congrArg (_ ++ ·) (happlied k)⟩
      · exact ⟨rfl, hbut, fun k => by rw [hgiven k]; rfl⟩

/-! ### Isolation -/

/-- The messages in the bytes of a channel, as far as its bytes can be read. -/
def held (sender : Role) (n : Nat) (moves : List Move) : List Event :=
  messagesOf sender (Frame.decodeAll (Arrival.bytesOf (arrivals n (happenings moves)))).frames

/-- What is applied from a fresh channel are the first of the messages that it holds, whatever the moves; the others are
    still due, and none is once an error or an end has been offered. -/
theorem applied_of_fresh {sender : Role} (h : c.inbox.channels[n]? = some (.fresh sender)) (moves : List Move) :
    applied n moves c <+: held sender n moves ∧ ∀ d : Coordinator, follow moves c = d.go →
      ∃ later : Channel, d.inbox.channels[n]? = some later ∧
        held sender n moves = applied n moves c ++ messagesOf sender (later.due []) ∧
        (later.Mute → applied n moves c = held sender n moves) := by
  obtain ⟨left, later, hlater, hleft, heq⟩ := messagesOf_follow moves h
  have hheld : held sender n moves = applied n moves c ++ messagesOf sender (later.due (arrivals n left)) := heq
  refine ⟨⟨_, hheld.symm⟩, fun d hd => ?_⟩
  rw [hd] at hlater hleft
  obtain rfl := hleft rfl
  refine ⟨later, hlater, hheld, fun hmute => ?_⟩
  rw [hheld, hmute.due]
  exact (List.append_nil _).symm

theorem given_hear (h : c.inbox.channels[n]? = some ch) (hnext : ch.next = some (event, later)) :
    given n (.hear n) c = eventOf event := by
  simp [given, h, Move.offer, hnext]

theorem take_hear_of_next (h : c.inbox.channels[n]? = some ch) (hnext : ch.next = some (event, later)) :
    (Move.hear n).take c = (c.dispatch event).fitted (c.inbox.set n later) := by
  rw [Move.take, Inbox.hear_of_next h hnext]
  exact detached_dispatch event _ c

/-- A frame that holds no message is passed over, as if its bytes had not come. -/
theorem take_hear_of_unreadable {f : Frame} {rest : List UInt8} {e : Fault} (h : c.inbox.channels[n]? = some ch)
    (hheard : ch.standing = .heard) (hopen : ch.reader.progress ≠ .ended) (hf : f.WellFormed)
    (hbuffer : ch.reader.buffer = f.encode ++ rest) (hmessage : Message.ofFrame f = .error e) :
    (Move.hear n).take c = go (c.fitted (c.inbox.set n { ch with reader := { ch.reader with buffer := rest } })) ∧
      given n (.hear n) c = none := by
  have hdecode := Frame.decode_eq_frame_iff.mpr ⟨hf, hbuffer⟩
  have hnext : ch.next = some (.item ch.role (.ok f), { ch with reader := { ch.reader with buffer := rest } }) := by
    simp only [Channel.next, hheard, Frame.Reader.poll_of_decode hdecode hopen]
  rw [take_hear_of_next h hnext, given_hear h hnext]
  simp only [dispatch, eventOf, hmessage]
  exact ⟨rfl, trivial⟩

/-- After an error or an end of a channel the work goes on as if that channel were never heard. -/
theorem take_hear_of_unusable (h : c.inbox.channels[n]? = some ch) (hnext : ch.next = some (event, later))
    (hframe : event.frame? = none) :
    (Move.hear n).take c = go (c.fitted (c.inbox.set n later)) ∧
      ∀ moves : List Move, let others := moves.filter fun m => !m.hears n
        (follow (.hear n :: moves) c).1 = (follow others c).1 ∧
          SameBut n (follow (.hear n :: moves) c).2 (follow others c).2 ∧
          ∀ k, applied k (.hear n :: moves) c = applied k others c := by
  have htake : (Move.hear n).take c = go (c.fitted (c.inbox.set n later)) := by
    rw [take_hear_of_next h hnext, dispatch_of_no_frame hframe]
    rfl
  have hafter : (c.fitted (c.inbox.set n later)).inbox.channels[n]? = some later := by
    obtain ⟨hn, -⟩ := List.getElem?_eq_some_iff.mp h
    exact List.getElem?_set_self hn
  have hbut : SameBut n (c.fitted (c.inbox.set n later)) c :=
    ⟨c.inbox, rfl, fun k hk => (List.getElem?_set_ne (Ne.symm hk)).symm⟩
  refine ⟨htake, fun moves => ?_⟩
  obtain ⟨hresult, hsame, happlied⟩ := follow_without moves hafter (Channel.mute_of_next hnext hframe) hbut
  have hfollow : follow (.hear n :: moves) c = follow moves (c.fitted (c.inbox.set n later)) := by
    rw [follow, htake]
    rfl
  rw [hfollow]
  refine ⟨hresult, hsame, fun k => ?_⟩
  have hgiven : given k (.hear n) c = none := by
    by_cases hk : n = k
    · rw [← hk, given_hear h hnext, eventOf_eq_none hframe]
    · exact given_hear_other hk c
  rw [applied_cons, hgiven, htake]
  exact happlied k

/-- Channels are isolated, in any order in which they are heard. From a fresh channel the first of the messages of its
    own bytes are applied, in order and none left out. Each of them is what the coordinator handles when it hears the
    channel. A frame that holds no message is passed over. An error or an end of a channel changes nothing but that
    channel, and the work goes on as if it were never heard: with the same world, the same links and the same messages
    of every channel. A run is made of such moves. -/
theorem channels_isolated (c : Coordinator) (n : Nat) (ch : Channel) (h : c.inbox.channels[n]? = some ch) :
    (ch = .fresh ch.role → ∀ moves : List Move,
      applied n moves c <+: held ch.role n moves ∧ ∀ d : Coordinator, follow moves c = d.go →
        ∃ later : Channel, d.inbox.channels[n]? = some later ∧
          held ch.role n moves = applied n moves c ++ messagesOf ch.role (later.due []) ∧
          (later.Mute → applied n moves c = held ch.role n moves)) ∧
    (∀ (moves : List Move) (i : Nat) (e : Event), (applied n moves c)[i]? = some e → Handles n moves c i e) ∧
    (∀ (f : Frame) (rest : List UInt8) (e : Fault), ch.standing = .heard → ch.reader.progress ≠ .ended →
      f.WellFormed → ch.reader.buffer = f.encode ++ rest → Message.ofFrame f = .error e →
      (Move.hear n).take c = go (c.fitted (c.inbox.set n { ch with reader := { ch.reader with buffer := rest } })) ∧
        given n (.hear n) c = none) ∧
    (∀ (event : Inbound) (later : Channel), ch.next = some (event, later) → event.frame? = none →
      (Move.hear n).take c = go (c.fitted (c.inbox.set n later)) ∧
      ∀ moves : List Move, let others := moves.filter fun m => !m.hears n
        (follow (.hear n :: moves) c).1 = (follow others c).1 ∧
          SameBut n (follow (.hear n :: moves) c).2 (follow others c).2 ∧
          ∀ k, applied k (.hear n :: moves) c = applied k others c) ∧
    ∀ (limit : Option Nat) (fuel now : Nat) (script : List (Nat × Happening)),
      let ran := Scene.run limit fuel ⟨now, c, script⟩
      ∃ moves, Scene.ahead script = happenings moves ++ Scene.ahead ran.2.script ∧
        Scene.Leaves (follow moves c) ran.1 ran.2.coordinator := by
  refine ⟨fun hfresh moves => ?_, fun moves i e => handles_of_applied moves,
    fun f rest e hheard hopen hf hbuffer hmessage => ?_,
    fun event later hnext hframe => take_hear_of_unusable h hnext hframe, fun limit fuel now script => ?_⟩
  · rw [hfresh] at h
    exact applied_of_fresh h moves
  · exact take_hear_of_unreadable h hheard hopen hf hbuffer hmessage
  · exact Scene.exists_run limit fuel ⟨now, c, script⟩

/-- Physics sends a frame of an unknown kind before an EXIT, the stream of the targets ends inside a frame, and the
    obstacles are yet to be heard. -/
theorem three_channels_isolated :
    let unknown : Frame := ⟨77, .pad [57, 57], []⟩
    let exit : Frame := Message.exit.toFrame
    let physics : Channel := ⟨.physics, ⟨unknown.encode ++ exit.encode, .waiting⟩, .heard⟩
    let targets : Channel := ⟨.targets, ⟨[1], .closed⟩, .heard⟩
    let c := Coordinator.new .standard ⟨[physics, targets, .fresh .obstacles], []⟩ (fun _ => some (.new .lasting)) none
      (.new fun _ _ => none) (.new fun _ => none) 0 0
    let arrival : List Move := [.meet (.arrival 2 (.bytes exit.encode))]
    (∃ later, held .obstacles 2 arrival = applied 2 arrival c ++ messagesOf .obstacles (Channel.due later [])) ∧
      given 0 (.hear 0) c = none ∧ applied 0 [.hear 1, .hear 0, .hear 0] c = applied 0 [.hear 0, .hear 0] c := by
  intro unknown exit physics targets c arrival
  have hunknown : unknown.WellFormed := Frame.wellFormed_iff.mpr rfl
  refine ⟨?_, ?_, ?_⟩
  · obtain ⟨later, -, hheld, -⟩ := ((channels_isolated c 2 (.fresh .obstacles) rfl).1 rfl arrival).2 _ rfl
    exact ⟨later, hheld⟩
  · exact ((channels_isolated c 0 physics rfl).2.2.1 unknown exit.encode _ rfl nofun hunknown rfl rfl).2
  · exact (((channels_isolated c 1 targets rfl).2.2.2.1 _ _ rfl rfl).2 [.hear 0, .hear 0]).2.2 0

end Coordinator
end GridFlight
