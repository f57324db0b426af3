import GridFlight.Screen

/-! Local events: keys, resizes and the wish to quit, as the terminal reports them and as the coordinator takes
    them. -/

namespace GridFlight

inductive UiEvent where
  | key (key : Char)
  | resize (window : Window)
  | quit
  deriving DecidableEq, Repr

namespace Keyboard

inductive Motion where
  | press
  | again
  | release
  deriving DecidableEq, Repr

inductive Event where
  | char (key : Char) (control : Bool) (motion : Motion)
  /-- A key that stands for no character. -/
  | special (motion : Motion)
  | resize (columns rows : UInt16)
  | other
  deriving DecidableEq, Repr

/-- A pressed or repeated character is a key in lower case; control and `c` together quit. -/
def interpret : Event → Option UiEvent
  | .char key control motion =>
    if motion = .release then none
    else if key = 'c' ∧ control then some .quit
    else some (.key key.toLower)
  | .special _ => none
  | .resize columns rows => some (.resize (Screen.window columns rows))
  | .other => none

end Keyboard
end GridFlight
