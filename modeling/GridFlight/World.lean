import GridFlight.Message
import GridFlight.Random
import GridFlight.Text.Document

/-! The state of the grid: the drone, the obstacles, the targets in the order in which they must be reached, and
    the window. Entities are moved to free cells strictly inside the border of the window. -/

namespace GridFlight

structure Window where
  width : Int32
  height : Int32
  deriving DecidableEq, Repr

structure World where
  drone : Vec Float32
  obstacles : List Cell
  targets : List Cell
  window : Window
  /-- Targets reached in order so far, modulo `2 ^ 32`. -/
  reached : UInt32
  forces : ForceReport
  remote : Option (Vec Float32)
  deriving DecidableEq, Repr

/-! ### Free cells -/

namespace Placement

/-- A cell strictly inside the border, where the window has such cells. The column is drawn first. -/
def randomCell (window : Window) (d : Draws) : Option Cell × Draws :=
  if window.width < 3 ∨ window.height < 3 then (none, d)
  else
    let (x, d) := d.int32 1 (window.width - 1)
    let (y, d) := d.int32 1 (window.height - 1)
    (some ⟨x, y⟩, d)

/-- Draws cells until one is free, at most `attempts` times. -/
def search (window : Window) (occupied : Cell → Bool) : Nat → Draws → Option Cell × Draws
  | 0, d => (none, d)
  | attempts + 1, d =>
    match randomCell window d with
    | (some c, d) => if occupied c then search window occupied attempts d else (some c, d)
    | (none, d) => search window occupied attempts d

def maxAttempts : Nat := 1024

def freeCell (window : Window) (occupied : Cell → Bool) (d : Draws) : Option Cell × Draws :=
  search window occupied maxAttempts d

end Placement

/-- What a contact of the drone with a target did. -/
inductive Contact where
  /-- The first target was reached and is gone. -/
  | expected (cleared : Cell) (remaining : Nat)
  /-- A later target was reached; it moved, or stayed where no cell is free. -/
  | unexpected (index : Nat) (origin : Cell) (goal : Option Cell)
  deriving DecidableEq, Repr

namespace World

def empty : World := ⟨⟨zeroSingle, zeroSingle⟩, [], [], ⟨0, 0⟩, 0, .zero, none⟩

def droneCell (w : World) : Cell := .ofPosition w.drone

/-! ### Moving entities -/

def targetBlocked (w : World) (index : Nat) (c : Cell) : Bool :=
  c == w.droneCell || w.obstacles.contains c || (w.targets.eraseIdx index).contains c

def obstacleBlocked (w : World) (index : Nat) (c : Cell) : Bool :=
  w.targets.contains c || (w.obstacles.eraseIdx index).contains c

def relocateTarget (w : World) (index : Nat) (d : Draws) : Option Cell × World × Draws :=
  match Placement.freeCell w.window (w.targetBlocked index) d with
  | (some c, d) => (some c, { w with targets := w.targets.set index c }, d)
  | (none, d) => (none, w, d)

def relocateObstacle (w : World) (index : Nat) (d : Draws) : Option Cell × World × Draws :=
  match Placement.freeCell w.window (w.obstacleBlocked index) d with
  | (some c, d) => (some c, { w with obstacles := w.obstacles.set index c }, d)
  | (none, d) => (none, w, d)

/-! ### Contacts -/

/-- Handles the first target on the cell of the drone. The head of the list is removed and counted; any other
    target moves elsewhere. -/
def resolveContact (w : World) (d : Draws) : Option Contact × World × Draws :=
  match w.targets.findIdx? (· == w.droneCell), w.targets with
  | none, _ => (none, w, d)
  | some _, [] => (none, w, d)
  | some 0, first :: rest =>
    (some (.expected first rest.length), { w with targets := rest, reached := w.reached + 1 }, d)
  | some (index + 1), _ :: _ =>
    let (goal, moved, d) := w.relocateTarget (index + 1) d
    (some (.unexpected (index + 1) w.droneCell goal), moved, d)

/-! ### Texts -/

/-- The number of the target with this index, which counts the targets reached before it. -/
def number (w : World) (index : Nat) : UInt32 := UInt32.ofNat index + w.reached + 1

def statusLine (w : World) : String :=
  let four := fun x => (Number.single x).fixed 4
  let pair := fun (v : Vec Float32) => "(" ++ four v.x ++ " " ++ four v.y ++ ")"
  "x=" ++ four w.drone.x ++ " y=" ++ four w.drone.y ++ " | drn" ++ pair w.forces.drone ++ " | obst"
    ++ pair w.forces.obstacle ++ " | wall" ++ pair w.forces.wall ++ " | targ" ++ pair w.forces.target

def numberDocument (x : Float32) : Document := .number ((Number.single x).plain Number.Layout.single)

def vecDocument (v : Vec Float32) : Document := .list [numberDocument v.x, numberDocument v.y]

def int32Document (n : Int32) : Document := .number (Number.writeInt n.toInt)

def cellsDocument (cells : List Cell) : Document :=
  .list (cells.map fun c => .record [("x", int32Document c.x), ("y", int32Document c.y)])

def document (w : World) : Document :=
  .record
    [("drone", vecDocument w.drone),
      ("obstacles", cellsDocument w.obstacles),
      ("targets", cellsDocument w.targets),
      ("window", .list [int32Document w.window.width, int32Document w.window.height]),
      ("targets_reached", .ofNat w.reached.toNat),
      ("forces", .record
        [("drone", vecDocument w.forces.drone), ("obstacle", vecDocument w.forces.obstacle),
          ("wall", vecDocument w.forces.wall), ("target", vecDocument w.forces.target)]),
      ("remote_drone", match w.remote with
        | some p => vecDocument p
        | none => .null)]

end World
end GridFlight
