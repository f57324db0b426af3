import GridFlight.Error
import GridFlight.Number.Integer
import GridFlight.Text.Blank

/-! Identities of processes. -/

namespace GridFlight

structure Pid where
  val : UInt32
  deriving DecidableEq, Repr

namespace Pid

def text (p : Pid) : String := p.val.toNat.repr

def read? (s : String) : Option Pid := (Number.readUInt32? (Text.trim s)).map Pid.mk

def read (s : String) : Except SystemError Pid :=
  match read? s with
  | some p => .ok p
  | none => .error (.malformed (.identity s))

end Pid

def Role.read (s : String) : Except SystemError Role :=
  match Role.ofName? s with
  | some r => .ok r
  | none => .error (.malformed (.role s))

end GridFlight
