import GridFlight.Message
import GridFlight.Scalar
import GridFlight.World

/-! The motion of the drone: a mass with friction, driven by a commanded force, pushed away by obstacles and walls
    and pulled by targets within range. One step solves `m x'' + k x' = F` by finite differences over the last two
    positions. -/

namespace GridFlight

namespace Physics

structure Config (α : Type) where
  mass : α
  friction : α
  dt : α
  maxForce : α
  rho : α
  eta : α
  keyForce : α

def Config.standard : Config Float := ⟨1, 10, 0.01, 10, 8, 5, 1⟩

structure Forces (α : Type) where
  command : Vec α
  obstacle : Vec α
  wall : Vec α
  target : Vec α

end Physics

structure Physics (α : Type) where
  config : Physics.Config α
  position : Vec α
  previous : Vec α
  command : Vec α
  window : Window
  obstacles : List Cell
  targets : List Cell
  spawned : Bool
  lastForces : Physics.Forces α

namespace Physics

variable {α : Type} [Scalar α]

/-! ### Forces -/

namespace Forces

def zero : Forces α := ⟨.zero, .zero, .zero, .zero⟩

/-- The sum; targets pull. -/
def total (f : Forces α) : Vec α := f.command + f.obstacle + f.wall - f.target

end Forces

def minFieldDistance : α := Scalar.tenth

/-- The distance from the corner of an obstacle within which the drone has run into it. -/
def collisionDistance : α := Scalar.tenth

namespace Config

def field (c : Config α) (d : α) : α := c.eta * (Scalar.one / d - Scalar.one / c.rho) / (d * d)

def wall (c : Config α) (d : α) : α :=
  if Scalar.lt d c.rho then c.field (if Scalar.lt d minFieldDistance then minFieldDistance else d) else Scalar.zero

end Config

def centre (c : Cell) : Vec α := ⟨Scalar.ofInt32 c.x + Scalar.half, Scalar.ofInt32 c.y + Scalar.half⟩

/-- The corner of a cell with the least coordinates. -/
def corner (c : Cell) : Vec α := ⟨Scalar.ofInt32 c.x, Scalar.ofInt32 c.y⟩

/-- The force along the line from a cell, whose edge is half a unit from its middle. -/
def cellForce (config : Config α) (position : Vec α) (c : Cell) : Option (Vec α) :=
  let offset := position - centre c
  let d := offset.norm - Scalar.half
  if Scalar.lt d config.rho && Scalar.lt minFieldDistance d then some ((offset.shrink d).scale (config.field d))
  else none

def cellForces (config : Config α) (position : Vec α) (cells : List Cell) : Vec α :=
  cells.foldl (fun sum c =>
    match cellForce config position c with
    | some f => sum + f
    | none => sum) .zero

def forces (p : Physics α) : Forces α :=
  let c := p.config
  let width : α := Scalar.ofInt32 p.window.width
  let height : α := Scalar.ofInt32 p.window.height
  let right := (width - Scalar.one) - p.position.x
  let left := p.position.x - Scalar.one
  let top := p.position.y - Scalar.one
  let bottom := (height - Scalar.one) - p.position.y
  { command := p.command
    obstacle := cellForces c p.position p.obstacles
    wall := ⟨c.wall left - c.wall right, c.wall top - c.wall bottom⟩
    target := cellForces c p.position p.targets }

/-! ### Messages and keys -/

def new (config : Config α) : Physics α :=
  ⟨config, .zero, .zero, .zero, ⟨0, 0⟩, [], [], false, .zero⟩

def place (point : Vec α) (p : Physics α) : Physics α :=
  { p with position := point, previous := point, spawned := true }

/-- Halves a component of the command, and drops it where it is small. -/
def brake (a : α) : α :=
  let halved := a * Scalar.half
  if Scalar.le (Scalar.abs halved) Scalar.half then Scalar.zero else halved

def keyForce (f : α) : Char → Option (Vec α)
  | 'e' => some ⟨Scalar.zero, -f⟩
  | 'r' => some ⟨f, -f⟩
  | 'f' => some ⟨f, Scalar.zero⟩
  | 'v' => some ⟨f, f⟩
  | 'c' => some ⟨Scalar.zero, f⟩
  | 'x' => some ⟨-f, f⟩
  | 's' => some ⟨-f, Scalar.zero⟩
  | 'w' => some ⟨-f, -f⟩
  | _ => none

/-- Changes the command by a key; `d` brakes. -/
def press (key : Char) (p : Physics α) : Physics α :=
  if key = 'd' then { p with command := p.command.map brake }
  else match keyForce p.config.keyForce key with
    | some f => { p with command := p.command + f }
    | none => p

inductive Reaction (α : Type) where
  | none
  /-- Reports this position, at the first window. -/
  | report (point : Vec α)
  | exit

/-- Takes in a message. The first window puts the drone into its middle. -/
def apply (p : Physics α) : Message → Reaction α × Physics α
  | .size width height =>
    let p := { p with window := ⟨width, height⟩ }
    if p.spawned then (.none, p)
    else
      let middle : Vec α := ⟨Scalar.ofInt32 width / Scalar.two, Scalar.ofInt32 height / Scalar.two⟩
      (.report middle, { p.place middle with command := .zero })
  | .input key => if key = 'q' then (.exit, p) else (.none, p.press key)
  | .exit => (.exit, p)
  | .obstacles cells => (.none, { p with obstacles := cells })
  | .targets cells => (.none, { p with targets := cells })
  | _ => (.none, p)

/-! ### Steps -/

def capped (c : Config α) (total : Vec α) : Vec α :=
  let magnitude := total.norm
  if Scalar.lt c.maxForce magnitude then total.scale (c.maxForce / magnitude) else total

/-- The next position by finite differences. -/
def advance (c : Config α) (force previous position : Vec α) : Vec α :=
  let damping := c.friction * c.dt
  ((force.scale (c.dt * c.dt) - previous.scale c.mass) + position.scale (Scalar.two * c.mass + damping)).shrink
    (c.mass + damping)

/-- Whether a position lies too near to an obstacle. -/
def collides (obstacles : List Cell) (position : Vec α) : Bool :=
  obstacles.any fun o => Scalar.le (position - corner o).norm collisionDistance

/-- Moves the drone by one step, unless it would leave the numbers or run into an obstacle. -/
def step (p : Physics α) : Forces α × Physics α :=
  let f := p.forces
  let p := { p with lastForces := f }
  if p.spawned then
    let next := advance p.config (capped p.config f.total) p.previous p.position
    let next := if next.isFinite then next else p.position
    let kept := if collides p.obstacles next then p.position else next
    (f, { p with previous := p.position, position := kept })
  else (f, p)

/-! ### Reports -/

def Forces.report (f : Forces Float) : ForceReport :=
  ⟨f.command.map Number.narrow, f.obstacle.map Number.narrow, f.wall.map Number.narrow, f.target.map Number.narrow⟩

def positionMessage (point : Vec Float) : Message := .position (point.map Number.narrow)

def reports (p : Physics Float) : List Message := [positionMessage p.position, .force p.lastForces.report]

end Physics
end GridFlight
