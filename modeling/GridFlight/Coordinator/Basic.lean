import GridFlight.Coordinator.Inbox
import GridFlight.Display

/-! The coordinator, the only owner of the world: its state, and how it sends and draws. A link that cannot be written
    is dropped. A step that cannot draw ends with the fault. -/

namespace GridFlight

structure Outlet where
  writer : Writer
  connected : Bool

namespace Outlet

def new (w : Writer) : Outlet := ⟨w, true⟩

/-- Writes a frame, and drops the link if that fails. -/
def write (f : Frame) (o : Outlet) : Outlet :=
  if o.connected then
    match o.writer.write f with
    | (.ok (), w) => ⟨w, true⟩
    | (.error _, w) => ⟨w, false⟩
  else o

def drop (o : Outlet) : Outlet := { o with connected := false }

end Outlet

namespace Coordinator

/-- Times in milliseconds, and the window at the start. -/
structure Config where
  readiness : Nat
  obstaclePeriod : Nat
  window : Window
  deriving DecidableEq, Repr

def Config.standard : Config := ⟨30, 5000, ⟨80, 24⟩⟩

inductive Phase where
  | idle
  | processingInput
  | updatingMap
  | rendering
  | broadcasting
  deriving DecidableEq, Repr

inductive Flow where
  | more
  | quit
  deriving DecidableEq, Repr

structure Summary where
  iterations : Nat
  frames : Nat
  reached : UInt32
  deriving DecidableEq, Repr

end Coordinator

structure Coordinator where
  config : Coordinator.Config
  world : World
  inbox : Inbox
  outlets : Role → Option Outlet
  supervisor : Option Outlet
  display : Display
  input : Input
  draws : Draws
  phase : Coordinator.Phase
  lastStatus : String
  lastRelocation : Nat
  iterations : Nat
  frames : Nat

namespace Coordinator

def stream : UInt64 := 1

def new (config : Config) (inbox : Inbox) (outlets : Role → Option Outlet) (supervisor : Option Outlet)
    (display : Display) (input : Input) (seed : UInt64) (now : Nat) : Coordinator where
  config := config
  world := { World.empty with window := config.window }
  inbox := inbox
  outlets := outlets
  supervisor := supervisor
  display := display
  input := input
  draws := .derive seed stream
  phase := .idle
  lastStatus := ""
  lastRelocation := now
  iterations := 0
  frames := 0

def roles (c : Coordinator) : List Role := Role.all.filter fun r => (c.outlets r).any (·.connected)

def summary (c : Coordinator) : Summary := ⟨c.iterations, c.frames, c.world.reached⟩

/-! ### Sending -/

def deliver (f : Frame) (c : Coordinator) (role : Role) : Coordinator :=
  { c with outlets := fun r => if r = role then (c.outlets r).map (Outlet.write f) else c.outlets r }

def broadcast (roles : List Role) (m : Message) (c : Coordinator) : Coordinator :=
  roles.foldl (deliver m.toFrame) { c with phase := .broadcasting }

def broadcastExcept (except : Option Role) (m : Message) (c : Coordinator) : Coordinator :=
  c.broadcast (c.roles.filter fun r => some r ≠ except) m

/-! ### Drawing -/

abbrev Turnout := Except Fault Flow × Coordinator

def go (c : Coordinator) : Turnout := (.ok .more, c)

def call (call : Display.Call) (c : Coordinator) : Except Fault Unit × Coordinator :=
  let (result, display) := c.display.call call
  (result, { c with display := display })

/-- Draws the world, and goes on unless that fails. -/
def drawThen (c : Coordinator) (next : Coordinator → Turnout) : Turnout :=
  match { c with phase := .rendering }.call (.render c.world) with
  | (.ok (), c) => next c
  | (.error e, c) => (.error e, c)

end Coordinator
end GridFlight
