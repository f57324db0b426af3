import GridFlight.Pid

/-! Processes as a signal finds them. -/

namespace GridFlight
namespace Liveness

inductive Presence where
  | own
  | foreign
  | gone
  deriving DecidableEq, Repr

/-- Signals a process. Identities from `2 ^ 31` on belong to none. -/
def signal (presence : Presence) (p : Pid) : Except SystemError Unit :=
  if Nat.pow 2 31 ≤ p.val.toNat then .error (.malformed (.identityRange p.text))
  else match presence with
    | .own => .ok ()
    | .foreign => .error (.call "kill" .notPermitted)
    | .gone => .error (.call "kill" .noSuchProcess)

/-- A process that may not be signalled exists nevertheless. -/
def isAlive (presence : Presence) (p : Pid) : Bool :=
  match signal presence p with
  | .ok () => true
  | .error (.call _ cause) => cause == .notPermitted
  | .error _ => false

end Liveness
end GridFlight
