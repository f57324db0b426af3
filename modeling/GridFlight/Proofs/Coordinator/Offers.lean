import GridFlight.Coordinator.Inbox
import GridFlight.Proofs.Frame.Stream
import Mathlib.Data.List.Basic

/-! What the inbound channels offer, one at a time. A channel offers the frames of its own bytes, whatever the others
    do: what is still due from it is settled by its reader and by what arrives for it. The line of the inbox only
    chooses whose turn it is. -/

namespace GridFlight

/-- The frame that has come in, if it is one. -/
def Inbound.frame? : Inbound → Option Frame
  | .item _ (.ok f) => some f
  | _ => none

/-- The bytes of a channel for which this arrives: all of them up to its end. -/
def Arrival.bytesOf : List Arrival → List UInt8
  | [] => []
  | .bytes chunk :: later => chunk ++ bytesOf later
  | .close :: _ => []

/-! ### A reader -/

namespace Frame.Reader

/-- The frames that a reader has yet to yield if this arrives. -/
def due (r : Reader) (arrivals : List Arrival) : List Frame :=
  match r.progress with
  | .waiting => (decodeAll (r.buffer ++ Arrival.bytesOf arrivals)).frames
  | .closed => (decodeAll r.buffer).frames
  | .ended => []

theorem due_of_ended {r : Reader} (h : r.progress = .ended) (arrivals : List Arrival) : r.due arrivals = [] := by
  simp only [due, h]

/-- An arrival is taken in, or comes too late to matter. -/
theorem due_arrive (a : Arrival) (r : Reader) (arrivals : List Arrival) :
    (r.arrive a).due arrivals = r.due (a :: arrivals) := by
  obtain ⟨buffer, progress⟩ := r
  cases progress with
  | closed | ended => cases a <;> rfl
  | waiting =>
    cases a with
    | bytes bytes => exact congrArg (fun bytes => (decodeAll bytes).frames) (List.append_assoc buffer bytes _)
    | close => exact congrArg (fun bytes => (decodeAll bytes).frames) (List.append_nil buffer).symm

theorem poll_of_decode {r : Reader} {f : Frame} {rest : List UInt8} (hdecode : decode r.buffer = (.ok (some f), rest))
    (hopen : r.progress ≠ .ended) : r.poll = (.frame f, { r with buffer := rest }) := by
  obtain ⟨buffer, progress⟩ := r
  cases progress with
  | waiting | closed => simp only [poll, hdecode]
  | ended => exact absurd rfl hopen

/-- A reader yields its first frame, or nothing yet, or ends. -/
theorem poll_cases (r : Reader) :
    (∃ f rest, decode r.buffer = (.ok (some f), rest) ∧ r.progress ≠ .ended ∧
        r.poll = (.frame f, { r with buffer := rest })) ∨
      r.poll = (.pending, r) ∨
      (∃ last left, (last = .ended ∨ ∃ e, last = .error e) ∧ r.poll = (last, ⟨left, .ended⟩)) ∧
        ∀ arrivals, r.due arrivals = [] := by
  obtain ⟨buffer, progress⟩ := r
  match hdecode : decode buffer, progress with
  | _, .ended => exact Or.inr (Or.inr ⟨⟨_, _, Or.inl rfl, rfl⟩, fun _ => rfl⟩)
  | (.ok (some f), rest), .waiting | (.ok (some f), rest), .closed =>
    exact Or.inl ⟨f, rest, hdecode, nofun, poll_of_decode hdecode nofun⟩
  | (.ok none, left), .waiting =>
    obtain rfl := decode_nothing hdecode
    exact Or.inr (Or.inl (by simp [poll, hdecode]))
  | (.ok none, left), .closed =>
    refine Or.inr (Or.inr ⟨?_, fun _ => by simp [due, decodeAll_of_nothing hdecode]⟩)
    by_cases hleft : left.isEmpty = true
    · exact ⟨_, left, Or.inl rfl, by simp [poll, hdecode, hleft]⟩
    · exact ⟨_, left, Or.inr ⟨.io .bytesRemaining, rfl⟩, by simp [poll, hdecode, hleft]⟩
  | (.error e, left), .waiting =>
    refine Or.inr (Or.inr ⟨⟨_, left, Or.inr ⟨e, rfl⟩, by simp [poll, hdecode]⟩, fun arrivals => ?_⟩)
    exact congrArg Decoded.frames (decodeAll_of_error (decode_append_of_error hdecode _))
  | (.error e, left), .closed =>
    refine Or.inr (Or.inr ⟨⟨_, left, Or.inr ⟨e, rfl⟩, by simp [poll, hdecode]⟩, fun arrivals => ?_⟩)
    exact congrArg Decoded.frames (decodeAll_of_error hdecode)

/-- A frame that is taken out was the first that was due. -/
theorem due_of_decode {r : Reader} {f : Frame} {rest : List UInt8} (hdecode : decode r.buffer = (.ok (some f), rest))
    (hopen : r.progress ≠ .ended) (arrivals : List Arrival) :
    r.due arrivals = f :: due { r with buffer := rest } arrivals := by
  obtain ⟨buffer, progress⟩ := r
  cases progress with
  | waiting => exact congrArg Decoded.frames (decodeAll_of_frame (decode_append_of_frame hdecode _))
  | closed => exact congrArg Decoded.frames (decodeAll_of_frame hdecode)
  | ended => exact absurd rfl hopen

end Frame.Reader

namespace Inbox

/-! ### One channel -/

namespace Channel

def fresh (role : Role) : Channel := ⟨role, .empty, .heard⟩

/-- What a channel offers when it is asked, and the channel after that. -/
def next (ch : Channel) : Option (Inbound × Channel) :=
  match ch.standing with
  | .heard =>
    match ch.reader.poll with
    | (.frame f, reader) => some (.item ch.role (.ok f), { ch with reader := reader })
    | (.error e, reader) => some (.item ch.role (.error e), { ch with reader := reader })
    | (.ended, reader) => some (.closed ch.role, { ch with reader := reader, standing := .told })
    | (.pending, _) => none
  | _ => none

def heard (ch : Channel) : Channel := (ch.next.map Prod.snd).getD ch

def arrive (a : Arrival) (ch : Channel) : Channel :=
  match ch.standing with
  | .heard => { ch with reader := ch.reader.arrive a }
  | _ => ch

def giveUp (ch : Channel) : Channel :=
  match ch.standing with
  | .told => { ch with standing := .removed }
  | _ => ch

/-- The frames that a channel has yet to offer if this arrives for it. -/
def due (ch : Channel) (arrivals : List Arrival) : List Frame :=
  match ch.standing with
  | .heard => ch.reader.due arrivals
  | _ => []

/-- A channel that offers no frame any more. -/
def Mute (ch : Channel) : Prop := ch.standing = .heard → ch.reader.progress = .ended

variable {ch later : Channel} {event : Inbound}

/-- A channel offers its first frame, or an error or its end, after which it is mute. -/
theorem next_cases (h : ch.next = some (event, later)) :
    ch.standing = .heard ∧ later.role = ch.role ∧
      ((∃ f rest, event = .item ch.role (.ok f) ∧ later = { ch with reader := { ch.reader with buffer := rest } } ∧
          Frame.decode ch.reader.buffer = (.ok (some f), rest) ∧ ch.reader.progress ≠ .ended) ∨
        (event = .closed ch.role ∨ ∃ e, event = .item ch.role (.error e)) ∧ later.Mute ∧
          ∀ arrivals, ch.due arrivals = []) := by
  obtain ⟨role, reader, standing⟩ := ch
  cases standing with
  | told | removed => cases h
  | heard =>
    rcases reader.poll_cases with ⟨f, rest, hdecode, hopen, hpoll⟩ | hpoll | ⟨⟨last, left, hlast, hpoll⟩, hdue⟩ <;>
      simp only [next, hpoll] at h
    · cases h
      exact ⟨rfl, rfl, Or.inl ⟨f, rest, rfl, rfl, hdecode, hopen⟩⟩
    · cases h
    · rcases hlast with rfl | ⟨e, rfl⟩
      · cases h
        exact ⟨rfl, rfl, Or.inr ⟨Or.inl rfl, nofun, hdue⟩⟩
      · cases h
        exact ⟨rfl, rfl, Or.inr ⟨Or.inr ⟨e, rfl⟩, fun _ => rfl, hdue⟩⟩

theorem Mute.due (h : ch.Mute) (arrivals : List Arrival) : ch.due arrivals = [] := by
  obtain ⟨role, reader, standing⟩ := ch
  cases standing with
  | heard => exact Frame.Reader.due_of_ended (h rfl) arrivals
  | told | removed => rfl

/-- What a channel offers is the first of what was due from it. -/
theorem due_next (h : ch.next = some (event, later)) (arrivals : List Arrival) :
    ch.due arrivals = event.frame?.toList ++ later.due arrivals := by
  obtain ⟨hstanding, -, ⟨f, rest, rfl, rfl, hdecode, hopen⟩ | ⟨hevent, hmute, hdue⟩⟩ := next_cases h
  · simp only [due, hstanding]
    exact Frame.Reader.due_of_decode hdecode hopen arrivals
  · have hframe : event.frame? = none := by
      rcases hevent with rfl | ⟨e, rfl⟩ <;> rfl
    rw [hdue, hmute.due, hframe]
    rfl

theorem due_arrive (a : Arrival) (ch : Channel) (arrivals : List Arrival) :
    (ch.arrive a).due arrivals = ch.due (a :: arrivals) := by
  obtain ⟨role, reader, standing⟩ := ch
  cases standing with
  | heard => exact reader.due_arrive a arrivals
  | told | removed => rfl

theorem due_giveUp (ch : Channel) (arrivals : List Arrival) : ch.giveUp.due arrivals = ch.due arrivals := by
  obtain ⟨role, reader, standing⟩ := ch
  cases standing <;> rfl

theorem heard_of_next (h : ch.next = some (event, later)) : ch.heard = later := by
  simp [heard, h]

theorem heard_of_nothing (h : ch.next = none) : ch.heard = ch := by
  simp [heard, h]

theorem role_heard (ch : Channel) : ch.heard.role = ch.role := by
  cases hnext : ch.next with
  | none => rw [heard_of_nothing hnext]
  | some o => rw [heard_of_next hnext, (next_cases hnext).2.1]

theorem role_arrive (a : Arrival) (ch : Channel) : (ch.arrive a).role = ch.role := by
  obtain ⟨role, reader, standing⟩ := ch
  cases standing <;> rfl

theorem role_giveUp (ch : Channel) : ch.giveUp.role = ch.role := by
  obtain ⟨role, reader, standing⟩ := ch
  cases standing <;> rfl

theorem Mute.arrive (h : ch.Mute) (a : Arrival) : (ch.arrive a).Mute := by
  obtain ⟨role, ⟨buffer, progress⟩, standing⟩ := ch
  cases standing with
  | heard =>
    obtain rfl : progress = .ended := h rfl
    cases a <;> exact fun _ => rfl
  | told | removed => exact nofun

theorem Mute.giveUp (h : ch.Mute) : ch.giveUp.Mute := by
  obtain ⟨role, reader, standing⟩ := ch
  cases standing with
  | heard => exact h
  | told | removed => exact nofun

theorem mute_of_next (h : ch.next = some (event, later)) (hframe : event.frame? = none) : later.Mute := by
  obtain ⟨-, -, ⟨f, rest, rfl, -⟩ | ⟨-, hmute, -⟩⟩ := next_cases h
  · cases hframe
  · exact hmute

/-- A mute channel has no more to offer than its end. -/
theorem Mute.next (h : ch.Mute) (hnext : ch.next = some (event, later)) : event.frame? = none ∧ later.Mute := by
  obtain ⟨hstanding, -, ⟨f, rest, -, -, -, hopen⟩ | ⟨hevent, hmute, -⟩⟩ := next_cases hnext
  · exact absurd (h hstanding) hopen
  · exact ⟨by rcases hevent with rfl | ⟨e, rfl⟩ <;> rfl, hmute⟩

theorem Mute.heard (h : ch.Mute) : ch.heard.Mute := by
  cases hnext : ch.next with
  | none => rwa [heard_of_nothing hnext]
  | some o =>
    rw [heard_of_next hnext]
    exact (h.next hnext).2

theorem arrive_of_heard (h : ch.standing = .heard) (a : Arrival) :
    ch.arrive a = { ch with reader := ch.reader.arrive a } := by
  simp only [arrive, h]

theorem arrive_of_not_heard (h : ch.standing ≠ .heard) (a : Arrival) : ch.arrive a = ch := by
  unfold arrive
  split
  · exact absurd ‹_› h
  · rfl

/-- No bytes are no arrival. -/
theorem arrive_nothing (ch : Channel) : ch.arrive (.bytes []) = ch := by
  obtain ⟨role, ⟨buffer, progress⟩, standing⟩ := ch
  cases standing <;> cases progress <;> simp [arrive, Frame.Reader.arrive, Frame.Reader.feed]

end Channel

/-! ### All channels -/

def Offer.inbound? : Offer → Option Inbound
  | .event inbound => some inbound
  | _ => none

/-- The inbox with one of its channels changed. -/
def change (n : Nat) (f : Channel → Channel) (b : Inbox) : Inbox := { b with channels := b.channels.modify n f }

/-- What the channel of a number offers, and the inbox after that. -/
def hear (n : Nat) (b : Inbox) : Option (Inbound × Inbox) :=
  (b.channels[n]?.bind Channel.next).map fun o => (o.1, b.set n o.2)

/-- Gives a channel up if its end has been told. -/
def giveUp (n : Nat) (b : Inbox) : Inbox := b.change n Channel.giveUp

def queue (line : List Nat) (b : Inbox) : Inbox := { b with line := line }

variable {b after : Inbox} {n k : Nat} {event : Inbound} {ch : Channel}

theorem getElem?_change (n k : Nat) (f : Channel → Channel) (b : Inbox) :
    (b.change n f).channels[k]? = b.channels[k]?.map fun ch => if n = k then f ch else ch :=
  List.getElem?_modify f n b.channels k

theorem change_of_some (h : b.channels[n]? = some ch) (f : Channel → Channel) : b.change n f = b.set n (f ch) := by
  rw [change, List.modify_eq_set_getElem?, h]
  rfl

theorem change_of_none (h : b.channels[n]? = none) (f : Channel → Channel) : b.change n f = b := by
  rw [change, List.modify_eq_set_getElem?, h]
  rfl

theorem change_of_fixed {f : Channel → Channel} (h : b.channels[n]? = some ch) (hfixed : f ch = ch) :
    b.change n f = b := by
  rw [change_of_some h, hfixed, set]
  obtain ⟨hn, hch⟩ := List.getElem?_eq_some_iff.mp h
  rw [← hch, List.set_getElem_self]

/-- A channel that has offered something is as if it had been heard alone. -/
theorem hear_eq_some (h : b.hear n = some (event, after)) :
    ∃ ch, b.channels[n]? = some ch ∧ ch.next = some (event, ch.heard) ∧ after = b.change n Channel.heard := by
  obtain ⟨⟨event', later⟩, hnext, heq⟩ := Option.map_eq_some_iff.mp h
  obtain ⟨ch, hch, hnext⟩ := Option.bind_eq_some_iff.mp hnext
  cases heq
  have hheard := Channel.heard_of_next hnext
  exact ⟨ch, hch, hheard ▸ hnext, by rw [change_of_some hch, hheard]⟩

theorem hear_eq_none (h : b.hear n = none) : b.change n Channel.heard = b := by
  cases hch : b.channels[n]? with
  | none => exact change_of_none hch Channel.heard
  | some ch =>
    have hnext : ch.next = none := by simpa [hear, hch] using h
    exact change_of_fixed hch (Channel.heard_of_nothing hnext)

theorem hear_of_next {later : Channel} (h : b.channels[n]? = some ch) (hnext : ch.next = some (event, later)) :
    b.hear n = some (event, b.set n later) := by
  simp [hear, h, hnext]

/-- An arrival changes its channel, and the line at most. -/
theorem channels_arrive (n : Nat) (a : Arrival) (b : Inbox) :
    (b.arrive n a).channels = (b.change n (Channel.arrive a)).channels := by
  unfold arrive
  match hch : b.channels[n]? with
  | none => rw [change_of_none hch]
  | some ch =>
    by_cases hidle : ch.standing ≠ .heard ∨ a = .bytes []
    · have hfixed : ch.arrive a = ch := by
        rcases hidle with hstanding | rfl
        · exact Channel.arrive_of_not_heard hstanding a
        · exact ch.arrive_nothing
      rw [change_of_fixed hch hfixed]
      exact congrArg channels (if_pos hidle)
    · have hheard : ch.standing = .heard := Decidable.not_not.mp fun hstanding => hidle (Or.inl hstanding)
      rw [change_of_some hch, Channel.arrive_of_heard hheard]
      simp only [if_neg hidle]
      split <;> rfl

theorem ask_of_heard (h : b.channels[n]? = some ch) (hheard : ch.standing = .heard) (line : List Nat) :
    ask (n :: line) b =
      match ch.next with
      | some (event, later) => (.event event, (b.queue (line ++ [n])).set n later)
      | none => ask line b := by
  rw [ask]
  simp only [h, hheard, Channel.next]
  rcases ch.reader.poll with ⟨_ | _ | _ | _, reader⟩ <;> rfl

/-- Asking a line gives up the ended channels at its front, and hears the first channel that offers something. -/
theorem ask_cases (line : List Nat) (b : Inbox) :
    ∃ (gone later : List Nat), let ready := (gone.foldl (fun b n => b.giveUp n) b).queue later
      (∃ n event after, ask line b = (.event event, after) ∧ ready.hear n = some (event, after)) ∨
        ∃ offer, (∀ event, offer ≠ .event event) ∧ ask line b = (offer, ready) := by
  induction line generalizing b with
  | nil =>
    refine ⟨[], [], Or.inr ⟨_, fun event => ?_, rfl⟩⟩
    split <;> exact nofun
  | cons n line ih =>
    match hch : b.channels[n]? with
    | none =>
      rw [ask, hch]
      exact ih b
    | some ch =>
      cases hstanding : ch.standing with
      | removed =>
        rw [ask]
        simp only [hch, hstanding]
        exact ih b
      | told =>
        obtain ⟨gone, later, h⟩ := ih (b.set n { ch with standing := .removed })
        have hgive : b.giveUp n = b.set n { ch with standing := .removed } := by
          rw [giveUp, change_of_some hch, Channel.giveUp, hstanding]
        have hask : ask (n :: line) b = ask line (b.set n { ch with standing := .removed }) := by
          rw [ask]
          simp only [hch, hstanding]
        exact ⟨n :: gone, later, by rw [hask, List.foldl_cons, hgive]; exact h⟩
      | heard =>
        rw [ask_of_heard hch hstanding]
        match hnext : ch.next with
        | none => exact ih b
        | some (event, after) => exact ⟨[], line ++ [n], Or.inl ⟨n, event, _, rfl, hear_of_next hch hnext⟩⟩

end Inbox
end GridFlight
