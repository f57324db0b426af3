import GridFlight.World
import Std.Data.HashSet

/-! The generators of obstacles and targets. Each holds the newest set of the other kind, and scatters a new set of
    its own over free cells of the window when it is told to. -/

namespace GridFlight

structure Densities where
  obstacles : Float
  targets : Float

/-- Half a percent of the cells inside the border are obstacles, a tenth of a percent are targets. -/
def Densities.standard : Densities := ⟨0.005, 0.001⟩

namespace Placement

/-- The number of entities in a window: the share of the cells inside the border, but at least one. -/
def population (window : Window) (density : Float) : Nat :=
  let span := fun (n : Int32) => Float.ofNat (n - 2).toNatClampNeg
  let share := span window.width * span window.height * density
  max 1 ((Number.double share).roundNat (Nat.pow 2 64 - 1))

/-- Draws up to `count` free cells that are all different, and adds them to `placed` in reverse. -/
def scatterOnto (window : Window) (taken : Std.HashSet Cell) (placed : List Cell) : Nat → Draws → List Cell × Draws
  | 0, d => (placed.reverse, d)
  | count + 1, d =>
    match freeCell window taken.contains d with
    | (some c, d) => scatterOnto window (taken.insert c) (c :: placed) count d
    | (none, d) => (placed.reverse, d)

/-- Up to `count` different cells inside the border, none of them in `avoid`; fewer where no free cell is found. -/
def scatter (window : Window) (count : Nat) (avoid : List Cell) (d : Draws) : List Cell × Draws :=
  scatterOnto window (Std.HashSet.ofList avoid) [] count d

end Placement

/-- What a generator does upon a message: it stops, or sends a reply or nothing. -/
inductive Reply where
  | stop
  | silent
  | send (m : Message)
  deriving DecidableEq, Repr

/-- Scatters obstacles over every new window. -/
structure ObstacleGenerator where
  density : Float
  draws : Draws
  targets : List Cell
  obstacles : List Cell

namespace ObstacleGenerator

def new (densities : Densities) (draws : Draws) : ObstacleGenerator := ⟨densities.obstacles, draws, [], []⟩

def handle (g : ObstacleGenerator) : Message → Reply × ObstacleGenerator
  | .size width height =>
    let window : Window := ⟨width, height⟩
    let (cells, draws) := Placement.scatter window (Placement.population window g.density) g.targets g.draws
    (.send (.obstacles cells), { g with obstacles := cells, draws := draws })
  | .targets cells => (.silent, { g with targets := cells })
  | .exit => (.stop, g)
  | _ => (.silent, g)

end ObstacleGenerator

/-- Scatters targets around every new set of obstacles, once it knows the window. -/
structure TargetGenerator where
  density : Float
  draws : Draws
  window : Option Window
  obstacles : List Cell
  targets : List Cell

namespace TargetGenerator

def new (densities : Densities) (draws : Draws) : TargetGenerator := ⟨densities.targets, draws, none, [], []⟩

def handle (g : TargetGenerator) : Message → Reply × TargetGenerator
  | .size width height => (.silent, { g with window := some ⟨width, height⟩ })
  | .obstacles cells =>
    match g.window with
    | none => (.silent, { g with obstacles := cells })
    | some window =>
      let (targets, draws) := Placement.scatter window (Placement.population window g.density) cells g.draws
      (.send (.targets targets), { g with obstacles := cells, targets := targets, draws := draws })
  | .exit => (.stop, g)
  | _ => (.silent, g)

end TargetGenerator

inductive Generator where
  | obstacles (g : ObstacleGenerator)
  | targets (g : TargetGenerator)

namespace Generator

def handle : Generator → Message → Reply × Generator
  | obstacles g, m => let (reply, g) := g.handle m; (reply, obstacles g)
  | targets g, m => let (reply, g) := g.handle m; (reply, targets g)

def held : Generator → List Cell
  | obstacles g => g.obstacles
  | targets g => g.targets

end Generator
end GridFlight
