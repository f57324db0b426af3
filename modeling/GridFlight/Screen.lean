import GridFlight.World

/-! The drawing of the world on a screen of character cells. The status line takes the top row, so the cell `(x, y)`
    is at column `x` and row `y + 1`. A drawing is a list of strokes; `text` writes them as escape sequences. -/

namespace GridFlight
namespace Screen

inductive Stroke where
  | moveTo (column row : Nat)
  /-- Blanks the cells from the cursor on. -/
  | clearBelow
  /-- Blanks the row of the cursor. -/
  | clearRow
  | print (text : String)
  deriving DecidableEq, Repr

def Stroke.text : Stroke → String
  | moveTo column row => "\x1b[" ++ (row + 1).repr ++ ";" ++ (column + 1).repr ++ "H"
  | clearBelow => "\x1b[J"
  | clearRow => "\x1b[2K"
  | print text => text

def text (strokes : List Stroke) : String := String.join (strokes.map Stroke.text)

def statusRows : Nat := 1

def maxCoordinate : Nat := 65535

/-- Prints a text from the cell `(x, y)` on, unless the cell is off every screen. -/
def put (x y : Int) (text : String) : List Stroke :=
  if x < 0 ∨ y < 0 ∨ (maxCoordinate : Int) < x ∨ (maxCoordinate : Int) < y then []
  else [.moveTo x.toNat (min maxCoordinate (y.toNat + statusRows)), .print text]

def putCell (c : Cell) (text : String) : List Stroke := put c.x.toInt c.y.toInt text

/-- The border of a window that is at least two cells wide and high. -/
def border (window : Window) : List Stroke :=
  let width := window.width.toInt
  let height := window.height.toInt
  if 2 ≤ width ∧ 2 ≤ height then
    let edge := "+" ++ String.ofList (List.replicate (width - 2).toNat '-') ++ "+"
    let sides := (List.range (height - 2).toNat).flatMap fun (i : Nat) =>
      put 0 (1 + i) "|" ++ put (width - 1) (1 + i) "|"
    put 0 0 edge ++ put 0 (height - 1) edge ++ sides
  else []

/-- The text of a target is its number. -/
def label (w : World) (index : Nat) : String := (w.number index).toNat.repr

/-- Obstacles, then targets by their numbers, then the other drone and the drone. -/
def entities (w : World) : List Stroke :=
  w.obstacles.flatMap (putCell · "O")
    ++ w.targets.zipIdx.flatMap (fun (c, index) => putCell c (label w index))
    ++ (match w.remote with
      | some p => putCell (.ofPosition p) "*"
      | none => [])
    ++ putCell w.droneCell "+"

def draw (w : World) : List Stroke := [.moveTo 0 statusRows, .clearBelow] ++ border w.window ++ entities w

def status (line : String) : List Stroke := [.moveTo 0 0, .clearRow, .print line]

/-! ### Size -/

def window (columns rows : UInt16) : Window :=
  ⟨Int32.ofNat columns.toNat, Int32.ofNat (rows.toNat - statusRows)⟩

end Screen
end GridFlight
