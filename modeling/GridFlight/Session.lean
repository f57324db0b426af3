import GridFlight.Registry.File
import GridFlight.Text.Document
import GridFlight.Wiring

/-! A whole session: the registry is emptied, every part is started from its plan, and the session waits for all of
    them. A part that cannot be started ends the session at once. -/

namespace GridFlight
namespace Session

structure Exit where
  role : Role
  pid : Pid
  /-- The exit code, unless a signal ended the part. -/
  code : Option Int
  success : Bool
  deriving DecidableEq, Repr

structure Summary where
  seed : UInt64
  parts : List Exit
  deriving DecidableEq, Repr

namespace Summary

def allSucceeded (s : Summary) : Bool := s.parts.all Exit.success

def document (s : Summary) : Document :=
  .record
    [("seed", .ofNat s.seed.toNat),
      ("children", .list (s.parts.map fun e => .record
        [("role", .text e.role.longName),
          ("pid", .ofNat e.pid.val.toNat),
          ("code", match e.code with
            | some n => .number (Number.writeInt n)
            | none => .null),
          ("success", .truth e.success)]))]

end Summary

def startAll (start : Plan → Except IoCause Exit) : List Plan → Except Failure (List Exit)
  | [] => .ok []
  | plan :: plans =>
    match start plan with
    | .error cause => .error (.during (.spawning plan.role) (.cause cause))
    | .ok e => (startAll start plans).map (e :: ·)

/-- Runs a session whose parts start and end as `start` says. -/
def run (start : Plan → Except IoCause Exit) (w : Wiring) (o : Options) (registry : Disk.Place) :
    Except Failure Summary × Disk.Place :=
  match Registry.File.reset.run registry with
  | (.error e, place) => (.error (.during .resetting (.fault (.system e))), place)
  | (.ok (), place) => ((startAll start (plans w o)).map (⟨o.seed, ·⟩), place)

end Session
end GridFlight
