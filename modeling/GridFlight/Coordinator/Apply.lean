import GridFlight.Coordinator.Basic

/-! What the coordinator does about messages, events of its user and the time. The world that a message leaves is
    drawn first and then handed on to the parts that need it. -/

namespace GridFlight
namespace Coordinator

/-! ### Applying messages -/

/-- Tells the parts about the targets, and asks for new ones when there are none. -/
def announceTargets (c : Coordinator) : Coordinator :=
  let c := c.broadcast [.physics, .obstacles] (.targets c.world.targets)
  if c.world.targets.isEmpty then c.deliver (Message.obstacles c.world.obstacles).toFrame .targets else c

def touchTarget (c : Coordinator) : Turnout :=
  let (contact, world, draws) := c.world.resolveContact c.draws
  let c := { c with world := world, draws := draws }
  match contact with
  | none | some (.unexpected _ _ none) => c.go
  | some _ => c.drawThen fun c => c.announceTargets.go

def onPosition (p : Vec Float32) (c : Coordinator) : Turnout :=
  { c with phase := .updatingMap, world := { c.world with drone := p } }.drawThen fun c =>
    (c.deliver (Message.position p).toFrame .relay).touchTarget

/-- The drone of another flight is an obstacle to physics. -/
def onRemotePosition (p : Vec Float32) (c : Coordinator) : Turnout :=
  { c with phase := .updatingMap, world := { c.world with remote := some p } }.drawThen fun c =>
    (c.deliver (Message.obstacles [.ofPosition p]).toFrame .physics).go

def onForce (report : ForceReport) (c : Coordinator) : Turnout :=
  let c := { c with world := { c.world with forces := report } }
  let line := c.world.statusLine
  if line = c.lastStatus then c.go
  else match { c with phase := .rendering }.call (.status line) with
    | (.ok (), c) => go { c with lastStatus := line }
    | (.error e, c) => (.error e, c)

def without (sender : Role) (roles : List Role) : List Role := roles.filter (· ≠ sender)

def onObstacles (sender : Role) (cells : List Cell) (c : Coordinator) : Turnout :=
  { c with phase := .updatingMap, world := { c.world with obstacles := cells } }.drawThen fun c =>
    (c.broadcast (without sender [.physics, .targets]) (.obstacles cells)).go

def onTargets (sender : Role) (cells : List Cell) (c : Coordinator) : Turnout :=
  { c with phase := .updatingMap, world := { c.world with targets := cells } }.drawThen fun c =>
    (c.broadcast (without sender [.physics, .obstacles]) (.targets cells)).go

def onSize (sender : Option Role) (window : Window) (c : Coordinator) : Turnout :=
  { c with phase := .updatingMap, world := { c.world with window := window } }.drawThen fun c =>
    (c.broadcastExcept sender (.size window.width window.height)).go

def quit (c : Coordinator) : Turnout :=
  let c := c.broadcastExcept none .exit
  (.ok .quit, { c with supervisor := c.supervisor.map fun o => (o.write Message.exit.toFrame).drop })

/-- Applies a message from a part. Messages that a part has no business sending change nothing. -/
def apply (sender : Role) (m : Message) (c : Coordinator) : Turnout :=
  match m with
  | .position p => if sender = .relay then c.onRemotePosition p else c.onPosition p
  | .force report => c.onForce report
  | .obstacles cells => c.onObstacles sender cells
  | .targets cells => c.onTargets sender cells
  | .size width height => c.onSize (some sender) ⟨width, height⟩
  | .exit => if sender = .relay then c.quit else c.go
  | _ => c.go

/-- Handles what has come in. An error or an end of a channel and an unreadable frame change nothing. -/
def dispatch (event : Inbound) (c : Coordinator) : Turnout :=
  match event with
  | .closed _ | .item _ (.error _) => c.go
  | .item sender (.ok f) =>
    match Message.ofFrame f with
    | .ok m => { c with frames := c.frames + 1 }.apply sender m
    | .error _ => c.go

/-! ### Events of the user -/

def handle (event : UiEvent) (c : Coordinator) : Turnout :=
  let c := { c with phase := .processingInput }
  match event with
  | .quit | .key 'q' => c.quit
  | .key key => (c.deliver (Message.input key).toFrame .physics).go
  | .resize window => c.onSize none window

def drain : List UiEvent → Coordinator → Turnout
  | [], c =>
    match c.input.ask with
    | (.ok (), input) => go { c with input := input }
    | (.error e, input) => (.error e, { c with input := input })
  | event :: later, c =>
    match c.input.ask with
    | (.ok (), input) =>
      match { c with input := { input with pending := later } }.handle event with
      | (.ok .more, c) => drain later c
      | turnout => turnout
    | (.error e, input) => (.error e, { c with input := input })

/-! ### Moving obstacles -/

/-- Moves an obstacle, if there is one that can be moved. -/
def relocate (c : Coordinator) : Turnout :=
  if c.world.obstacles.isEmpty then c.go
  else
    let (index, draws) := c.draws.index c.world.obstacles.length
    let (goal, world, draws) := c.world.relocateObstacle index draws
    let c := { c with phase := .updatingMap, world := world, draws := draws }
    match goal with
    | none => c.go
    | some _ => c.drawThen fun c => (c.broadcast [.physics] (.obstacles c.world.obstacles)).go

def tick (now : Nat) (c : Coordinator) : Turnout :=
  if now - c.lastRelocation < c.config.obstaclePeriod then c.go
  else relocate { c with lastRelocation := now }

end Coordinator
end GridFlight
