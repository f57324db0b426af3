import GridFlight.Proofs.Registry.Refinement
import Mathlib.Data.Fintype.Defs
import Mathlib.Logic.Function.Basic

/-! Callers that work on one file at the same time. Each of them takes the actions of its own routine, one at a time and
    in any order between those of the others, with an open file and a lock of its own. An exclusive lock excludes
    every other lock, and that is all that a lock does: nothing else keeps the callers apart. -/

namespace GridFlight
namespace Disk

/-! ### Locks -/

inductive Lock where
  | shared
  | exclusive
  deriving DecidableEq, Repr

/-- Takes a lock. -/
def Lock.taking : Lock → Action
  | shared => .lockShared
  | exclusive => .lockExclusive

/-- The lock that is held after an action. -/
def Action.lockAfter (action : Action) (lock : Option Lock) : Option Lock :=
  match action with
  | .lockShared => some .shared
  | .lockExclusive => some .exclusive
  | .unlock => none
  | _ => lock

/-- Whether an action can be taken while somebody else holds a lock. Other actions do not ask for locks. -/
def Action.goesWith (action : Action) (held : Option Lock) : Bool :=
  match action, held with
  | .lockShared, some .exclusive | .lockExclusive, some _ => false
  | _, _ => true

theorem Action.goesWith_shared {held : Option Lock} (h : lockShared.goesWith held = true) :
    held ≠ some .exclusive := by
  rintro rfl
  cases h

theorem Action.goesWith_exclusive {held : Option Lock} (h : lockExclusive.goesWith held = true) : held = none := by
  cases held with
  | none => rfl
  | some lock => cases h

/-! ### Callers -/

/-- A caller in the middle of a routine. -/
structure Caller (α : Type) where
  /-- What is still to be done. -/
  routine : Routine α
  position : Nat
  lock : Option Lock

/-- Callers at one place. -/
structure Crowd (ι α : Type) where
  place : Place
  callers : ι → Caller α

namespace Crowd

variable {ι α : Type}

/-- The locks of the others leave a caller free to take an action. -/
def Grants (c : Crowd ι α) (i : ι) (action : Action) : Prop := ∀ j, j ≠ i → action.goesWith (c.callers j).lock

variable [DecidableEq ι]

instance [Fintype ι] (c : Crowd ι α) (i : ι) (action : Action) : Decidable (c.Grants i action) :=
  inferInstanceAs (Decidable (∀ j, j ≠ i → action.goesWith (c.callers j).lock = true))

/-- A caller takes an action, and goes on by its outcome. -/
def take (c : Crowd ι α) (i : ι) (action : Action) (next : Outcome → Routine α) : Crowd ι α :=
  let (outcome, o) := perform action ⟨c.place, (c.callers i).position⟩
  ⟨o.place, Function.update c.callers i ⟨next outcome, o.position, action.lockAfter (c.callers i).lock⟩⟩

theorem take_other (c : Crowd ι α) {i j : ι} (h : j ≠ i) (action : Action) (next : Outcome → Routine α) :
    (c.take i action next).callers j = c.callers j := Function.update_of_ne h _ _

theorem take_eq {c : Crowd ι α} {i : ι} {routine : Routine α} {position : Nat} {lock : Option Lock}
    (hcaller : c.callers i = ⟨routine, position, lock⟩) {action : Action} {outcome : Outcome} {o : Open}
    (hperform : perform action ⟨c.place, position⟩ = (outcome, o)) (next : Outcome → Routine α) :
    (c.take i action next).place = o.place ∧
      (c.take i action next).callers i = ⟨next outcome, o.position, action.lockAfter lock⟩ := by
  simp [take, hcaller, hperform]

inductive Step (c : Crowd ι α) : Crowd ι α → Prop where
  | act (i : ι) {action : Action} {next : Outcome → Routine α}
    (hnext : (c.callers i).routine = .act action next) (hgrants : c.Grants i action) :
    Step c (c.take i action next)

/-- Whoever holds the exclusive lock is the only one with a lock. -/
def Alone (c : Crowd ι α) : Prop := ∀ i j, j ≠ i → (c.callers i).lock = some .exclusive → (c.callers j).lock = none

theorem Alone.take {c : Crowd ι α} (h : c.Alone) {i : ι} {action : Action} (hgrants : c.Grants i action)
    (next : Outcome → Routine α) : (c.take i action next).Alone := by
  -- It is enough that the lock after the action goes with those of the others.
  have hlock : ∀ j, j ≠ i →
      (action.lockAfter (c.callers i).lock = some .exclusive → (c.callers j).lock = none) ∧
        ((c.callers j).lock = some .exclusive → action.lockAfter (c.callers i).lock = none) := by
    intro j hj
    cases action with
    | lockShared => exact ⟨nofun, fun hexclusive => absurd hexclusive (Action.goesWith_shared (hgrants j hj))⟩
    | lockExclusive =>
      have hfree := Action.goesWith_exclusive (hgrants j hj)
      exact ⟨fun _ => hfree, fun hexclusive => nomatch hfree.symm.trans hexclusive⟩
    | unlock => exact ⟨nofun, fun _ => rfl⟩
    | _ => exact ⟨h i j hj, h j i hj.symm⟩
  intro j k hkj
  by_cases hj : j = i
  · subst hj
    simpa [Crowd.take, Function.update_of_ne hkj] using (hlock k hkj).1
  · by_cases hk : k = i
    · subst hk
      simpa [Crowd.take, Function.update_of_ne hj] using (hlock j hj).2
    · simpa [Crowd.take, Function.update_of_ne hj, Function.update_of_ne hk] using h j k hkj

/-- What can be reached when every caller begins with its routine at this place. -/
inductive Reachable (routine : ι → Routine α) (p : Place) : Crowd ι α → Prop where
  | initial : Reachable routine p ⟨p, fun i => ⟨routine i, 0, none⟩⟩
  | step {c d : Crowd ι α} (h : Reachable routine p c) (hstep : c.Step d) : Reachable routine p d

end Crowd

/-! ### Routines under a lock -/

namespace Routine

variable {α β : Type}

def map (f : α → β) : Routine α → Routine β
  | done a => done (f a)
  | act action next => act action fun o => (next o).map f

theorem runFrom_map (f : α → β) (r : Routine α) (o : Open) :
    (r.map f).runFrom o = (f (r.runFrom o).1, (r.runFrom o).2) := by
  induction r generalizing o with
  | done a => rfl
  | act action next ih => exact ih _ _

end Routine

/-- What a holder of a lock does to the file. Under a shared lock it only reads. -/
def Lock.Allows : Lock → Action → Prop
  | _, .read | _, .rewind | _, .flush => True
  | exclusive, .truncate | exclusive, .write _ | exclusive, .append _ => True
  | _, _ => False

def Action.Opens : Action → Prop
  | openRead | openReadWrite | openAppend => True
  | _ => False

namespace Routine

variable {α β : Type} {lock : Lock} {action : Action} {r : Routine α}

/-- A routine of a holder of a lock that does not touch the lock. -/
inductive Keeps (lock : Lock) : Routine α → Prop where
  | done (a : α) : Keeps lock (.done a)
  | act {action : Action} {next : Outcome → Routine α} (hallows : lock.Allows action)
    (hnext : ∀ o, Keeps lock (next o)) : Keeps lock (.act action next)

/-- The rest of a routine that holds a lock, and gives it back as its last action. -/
inductive Holding (lock : Lock) : Routine α → Prop where
  | last (a : α) : Holding lock (.act .unlock fun _ => .done a)
  | act {action : Action} {next : Outcome → Routine α} (hallows : lock.Allows action)
    (hnext : ∀ o, Holding lock (next o)) : Holding lock (.act action next)

/-- The rest of a routine that has opened the file and goes on when it gets its lock. -/
inductive Waiting : Routine α → Prop where
  | lock {lock : Lock} {next : Outcome → Routine α} (hnext : (next .done).Holding lock) :
    Waiting (.act lock.taking next)

/-- A routine that does all its work under a lock, and gives up if it cannot open the file. -/
inductive Opening : Routine α → Prop where
  | act {action : Action} {next : Outcome → Routine α} (hopens : action.Opens) (hopened : (next .done).Waiting)
    (hrefused : ∀ cause, ∃ a, next (.failed cause) = .done a) : Opening (.act action next)

theorem Keeps.attempt {r : Routine (Except SystemError α)} (hallows : lock.Allows action) (h : r.Keeps lock) :
    (attempt action r).Keeps lock :=
  .act hallows fun
    | .failed _ => .done _
    | .done => h
    | .content _ => h

theorem Keeps.holding (h : r.Keeps lock) (f : α → β) : ((r.finish .unlock).map f).Holding lock := by
  induction h with
  | done a => exact .last (f a)
  | act hallows _ ih => exact .act hallows ih

theorem waiting_locked (lock : Lock) {body : Routine (Except SystemError α)} (h : body.Keeps lock)
    (f : Except SystemError α → β) : ((locked lock.taking body).map f).Waiting := .lock (h.holding f)

end Routine

/-! ### Single actions -/

/-- There is a file at the place. -/
def Place.HasFile (p : Place) : Prop := ∃ bytes, p.node = .file bytes

variable {p : Place} {position : Nat} {action : Action} {lock : Lock}

theorem perform_of_opens (h : action.Opens) (hfile : p.HasFile) : perform action ⟨p, position⟩ = (.done, ⟨p, 0⟩) := by
  obtain ⟨parent, node⟩ := p
  obtain ⟨bytes, rfl⟩ := hfile
  cases action <;> first | rfl | cases h

/-- Opening a file that is not there makes an empty one, or is refused. -/
theorem perform_of_opens_absent (h : action.Opens) :
    perform action ⟨⟨true, .absent⟩, position⟩ = (.done, ⟨⟨true, .file []⟩, 0⟩) ∨
      perform action ⟨⟨true, .absent⟩, position⟩ = (.failed .noSuchFile, ⟨⟨true, .absent⟩, position⟩) := by
  cases action with
  | openAppend => exact Or.inl rfl
  | openRead | openReadWrite => exact Or.inr rfl
  | _ => cases h

theorem perform_taking (lock : Lock) (o : Open) : perform lock.taking o = (.done, o) := by
  cases lock <;> rfl

theorem hasFile_perform (h : lock.Allows action) (hfile : p.HasFile) :
    (perform action ⟨p, position⟩).2.place.HasFile := by
  obtain ⟨parent, node⟩ := p
  obtain ⟨bytes, rfl⟩ := hfile
  cases action with
  | read | rewind | flush | truncate | write | append => exact ⟨_, rfl⟩
  | _ => cases lock <;> cases h

theorem place_perform_shared (h : Lock.shared.Allows action) (hfile : p.HasFile) :
    (perform action ⟨p, position⟩).2.place = p := by
  obtain ⟨parent, node⟩ := p
  obtain ⟨bytes, rfl⟩ := hfile
  cases action with
  | read | rewind | flush => rfl
  | _ => cases h

theorem lockAfter_of_allows (h : lock.Allows action) (held : Option Lock) : action.lockAfter held = held := by
  cases action with
  | read | rewind | flush | truncate | write | append => rfl
  | _ => cases lock <;> cases h

theorem lockAfter_of_opens (h : action.Opens) (held : Option Lock) : action.lockAfter held = held := by
  cases action with
  | openRead | openReadWrite | openAppend => rfl
  | _ => cases h

end Disk

namespace Registry

open Disk (Routine)

/-! ### Requests as routines -/

/-- The routine that serves a request. -/
def Request.routine : Request → Routine Response
  | reset => File.reset.map (Except.map fun () => .done)
  | publish e => (File.publish e).map (Except.map fun () => .done)
  | withdraw e => (File.withdraw e).map (Except.map .withdrawn)
  | refresh => File.refresh.map (Except.map .entries)
  | lookup role => File.refresh.map fun answer => (answer.map (find? role)).map .identity

theorem serve_eq_run (r : Request) (p : Disk.Place) : File.serve r p = r.routine.run p := by
  have hmap : ∀ {α : Type} (f : α → Response) (routine : Routine α),
      (routine.map f).run p = (f (routine.run p).1, (routine.run p).2) := fun f routine => by
    simp only [Routine.run, Routine.runFrom_map]
  cases r with
  | reset | publish | withdraw | refresh => exact (hmap _ _).symm
  | lookup role => exact (hmap (fun answer => (answer.map (find? role)).map .identity) File.refresh).symm

theorem File.strike_keeps (e : Entry) (text : List Char) : (strike e text).Keeps .exclusive := by
  unfold strike
  split
  · exact .attempt trivial (.attempt trivial (.attempt trivial (.attempt trivial (.done _))))
  · exact .done _

/-- Every request but a reset does its work under a lock. -/
theorem opening_routine {r : Request} (h : r ≠ .reset) : r.routine.Opening := by
  have hreads : ∀ lock : Disk.Lock, lock.Allows .read := fun lock => by cases lock <;> trivial
  have hread : ∀ f : Except SystemError (List Entry) → Response, (File.refresh.map f).Opening := by
    intro f
    refine .act trivial (Routine.waiting_locked .shared ?_ f) fun _ => ⟨_, rfl⟩
    refine .act (hreads _) fun o => ?_
    cases o with
    | done | failed => exact .done _
    | content bytes =>
      dsimp only
      split
      · exact .done _
      · exact .done _
  cases r with
  | reset => exact absurd rfl h
  | publish e =>
    refine .act trivial (Routine.waiting_locked .exclusive ?_ _) fun _ => ⟨_, rfl⟩
    exact .attempt trivial (.attempt trivial (.done _))
  | withdraw e =>
    refine .act trivial (Routine.waiting_locked .exclusive ?_ _) fun cause => ?_
    · refine .act (hreads _) fun o => ?_
      cases o with
      | done => exact File.strike_keeps e []
      | failed => exact .done _
      | content bytes =>
        dsimp only
        split
        · exact .done _
        · exact File.strike_keeps e _
    · cases cause <;> exact ⟨_, rfl⟩
  | refresh => exact hread _
  | lookup role => exact hread _

end Registry
end GridFlight
