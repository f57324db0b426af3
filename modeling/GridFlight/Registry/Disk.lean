import GridFlight.Error

/-! One place in a file system, and routines that work on it. A routine is a tree of single actions: it names the
    next action and goes on by its outcome. The same routine can be run to its end, run with an action that fails,
    or taken one action at a time between the actions of others. -/

namespace GridFlight
namespace Disk

inductive Node where
  | absent
  | file (bytes : List UInt8)
  | directory
  deriving DecidableEq, Repr

/-- A path: whether the directory that it lies in exists, and what is found there. -/
structure Place where
  parent : Bool
  node : Node
  deriving DecidableEq, Repr

inductive Action where
  | makeParent
  /-- Opens for writing, and empties or makes the file. -/
  | create
  | openRead
  | openReadWrite
  /-- Opens for writing at the end, and makes the file where there is none. -/
  | openAppend
  | lockShared
  | lockExclusive
  | read
  /-- Cuts the file to nothing; the position stays. -/
  | truncate
  | rewind
  | write (bytes : List UInt8)
  /-- Writes at the end, wherever the position is. -/
  | append (bytes : List UInt8)
  | flush
  | unlock
  deriving DecidableEq, Repr

inductive Outcome where
  | done
  | content (bytes : List UInt8)
  | failed (cause : IoCause)
  deriving DecidableEq, Repr

/-! ### Routines -/

inductive Routine (α : Type) where
  | done (a : α)
  | act (action : Action) (next : Outcome → Routine α)

namespace Routine

/-- Appends an action whose outcome does not matter. -/
def finish {α : Type} (last : Action) : Routine α → Routine α
  | done a => act last fun _ => done a
  | act action next => act action fun o => finish last (next o)

/-- Goes on unless the action fails. -/
def attempt {α : Type} (action : Action) (next : Routine (Except SystemError α)) :
    Routine (Except SystemError α) :=
  act action fun
    | .failed cause => done (.error (.io cause))
    | _ => next

/-- Goes on under a lock, which is given back at the end in every case. -/
def locked {α : Type} (lock : Action) (body : Routine (Except SystemError α)) : Routine (Except SystemError α) :=
  act lock fun
    | .failed cause => done (.error (.call "flock" cause))
    | _ => body.finish .unlock

end Routine

/-! ### Running -/

/-- A place with the position of one open file. -/
structure Open where
  place : Place
  position : Nat

/-- The bytes with `data` written over them from the position on. -/
def overwrite (bytes : List UInt8) (position : Nat) (data : List UInt8) : List UInt8 :=
  let start := bytes.take position
  start ++ List.replicate (position - start.length) 0 ++ data ++ bytes.drop (position + data.length)

/-- Why an opening that needs the place to be a file, or to be free for one, is refused. -/
def refusal (p : Place) : Option IoCause :=
  match p.node with
  | .directory => some .isDirectory
  | .file _ => none
  | .absent => if p.parent then none else some .noSuchFile

def perform (action : Action) (o : Open) : Outcome × Open :=
  let put := fun bytes position => (Outcome.done, Open.mk { o.place with node := .file bytes } position)
  let fail := fun cause => (Outcome.failed cause, o)
  match action, o.place.node with
  | .makeParent, _ => (.done, { o with place := { o.place with parent := true } })
  | .create, _ =>
    match refusal o.place with
    | some cause => fail cause
    | none => put [] 0
  | .openAppend, .absent => if o.place.parent then put [] 0 else fail .noSuchFile
  | .openAppend, .directory => fail .isDirectory
  | .openRead, .absent => fail .noSuchFile
  | .openReadWrite, .absent => fail .noSuchFile
  | .openReadWrite, .directory => fail .isDirectory
  | .openAppend, .file _ | .openRead, _ | .openReadWrite, .file _ => (.done, { o with position := 0 })
  | .read, .file bytes => (.content (bytes.drop o.position), { o with position := max o.position bytes.length })
  | .read, .directory => fail .isDirectory
  | .read, .absent => (.content [], o)
  | .truncate, .file _ => put [] o.position
  | .write data, .file bytes => put (overwrite bytes o.position data) (o.position + data.length)
  | .append data, .file bytes => put (bytes ++ data) (bytes.length + data.length)
  | .truncate, _ | .write _, _ | .append _, _ => fail .badDescriptor
  | .rewind, _ => (.done, { o with position := 0 })
  | .lockShared, _ | .lockExclusive, _ | .flush, _ | .unlock, _ => (.done, o)

def Routine.runFrom {α : Type} : Routine α → Open → α × Open
  | .done a, o => (a, o)
  | .act action next, o => (next (perform action o).1).runFrom (perform action o).2

def Routine.run {α : Type} (r : Routine α) (p : Place) : α × Place :=
  let (a, o) := r.runFrom ⟨p, 0⟩
  (a, o.place)

/-! ### Faults -/

/-- An action that fails. A failing write has stored this many of its bytes. -/
structure Fault where
  cause : IoCause
  stored : Nat

def Action.part (action : Action) (n : Nat) : Option Action :=
  match action with
  | .write bytes => some (.write (bytes.take n))
  | .append bytes => some (.append (bytes.take n))
  | _ => none

def spoil (fault : Fault) (action : Action) (o : Open) : Outcome × Open :=
  match action.part fault.stored with
  | some part => (.failed fault.cause, (perform part o).2)
  | none => (.failed fault.cause, o)

/-- Runs a routine whose action number `n` fails. -/
def Routine.runSpoiled {α : Type} (fault : Fault) : Nat → Routine α → Open → α × Open
  | _, .done a, o => (a, o)
  | 0, .act action next, o => (next (spoil fault action o).1).runFrom (spoil fault action o).2
  | n + 1, .act action next, o => (next (perform action o).1).runSpoiled fault n (perform action o).2

end Disk
end GridFlight
