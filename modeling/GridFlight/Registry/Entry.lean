import GridFlight.Pid

/-! Registry entries and their lines. A line is the tag of a role and an identity. A snapshot is read from the
    lines of a text that end in a newline; blank lines, unknown tags and lines that are no entry are passed over. -/

namespace GridFlight
namespace Registry

structure Entry where
  role : Role
  pid : Pid
  deriving DecidableEq, Repr

namespace Entry

def line (e : Entry) : String := e.role.tag ++ " " ++ e.pid.text ++ "\n"

/-- Reads a line; a line with an unknown tag is no entry and no error. -/
def readLine (line : String) : Except SystemError (Option Entry) :=
  match Text.fields line with
  | [tag, identity] =>
    match Role.ofTag? tag with
    | none => .ok none
    | some role => (Pid.read identity).map fun pid => some ⟨role, pid⟩
  | _ => .error (.malformed (.line (Text.trimEnd line)))

def ofLine? (line : List Char) : Option Entry := ((readLine (String.ofList line)).toOption).join

end Entry

/-! ### Lines -/

/-- The lines of a text, each with its newline; the last may have none. -/
def linesOf : List Char → List (List Char)
  | [] => []
  | c :: cs =>
    if c = '\n' then [c] :: linesOf cs
    else match linesOf cs with
      | [] => [[c]]
      | line :: lines => (c :: line) :: lines

theorem flatten_linesOf (cs : List Char) : (linesOf cs).flatten = cs := by
  induction cs with
  | nil => rfl
  | cons c cs ih =>
    by_cases hc : c = '\n'
    · simp [linesOf, hc, ih]
    · cases h : linesOf cs with
      | nil => simp [linesOf, hc, h] at ih ⊢; exact ih
      | cons line lines => simp [linesOf, hc, h] at ih ⊢; exact ih

def isWhole (line : List Char) : Bool := line.getLast? == some '\n'

/-! ### Snapshots -/

/-- The entry of a line that counts in a snapshot. -/
def snapshotLine? (line : List Char) : Option Entry :=
  if isWhole line && !(Text.trimOf line).isEmpty then Entry.ofLine? line else none

def snapshotOf (text : List Char) : List Entry := (linesOf text).filterMap snapshotLine?

def snapshot (text : String) : List Entry := snapshotOf text.toList

def find? (role : Role) (entries : List Entry) : Option Pid :=
  (entries.find? fun e => e.role = role).map Entry.pid

end Registry
end GridFlight
