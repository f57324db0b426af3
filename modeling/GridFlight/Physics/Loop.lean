import GridFlight.Channel
import GridFlight.Physics

/-! The physics part at work. It takes in the frames of the coordinator as they arrive, steps and reports at fixed
    intervals, and ends at an exit, at the end of its channel, or when it cannot read or write. -/

namespace GridFlight
namespace Physics

structure Intervals where
  step : Nat
  report : Nat
  deriving DecidableEq, Repr

/-- A thousand steps and thirty reports in a second. -/
def Intervals.standard : Intervals := ⟨1000000, 33333333⟩

structure Loop where
  physics : Physics Float
  reader : Frame.Reader
  writer : Writer
  steps : Nat
  clock : Nat
  /-- How the part has ended: with the number of its steps, or with a fault. -/
  ending : Option (Except Fault Nat)
  nextStep : Nat
  nextReport : Nat

namespace Loop

def new (config : Config Float) (writer : Writer) : Loop := ⟨.new config, .empty, writer, 0, 0, none, 0, 0⟩

def finish (l : Loop) : Loop := { l with ending := some (.ok l.steps) }

def fail (e : FrameError) (l : Loop) : Loop := { l with ending := some (.error (.frame e)) }

def send : List Message → Loop → Loop
  | [], l => l
  | m :: ms, l =>
    match l.writer.send m with
    | (.ok (), writer) => send ms { l with writer := writer }
    | (.error e, writer) => fail e { l with writer := writer }

def take (m : Message) (l : Loop) : Loop :=
  let (reaction, physics) := l.physics.apply m
  let l := { l with physics := physics }
  match reaction with
  | .report point => l.send [positionMessage point]
  | .exit => l.finish
  | .none => l

/-- Takes in the frames that are complete, at most `fuel` of them. A frame that is no message is passed over. -/
def drain : Nat → Loop → Loop
  | 0, l => l
  | fuel + 1, l =>
    if l.ending.isSome then l
    else
      let (item, reader) := l.reader.poll
      let l := { l with reader := reader }
      match item with
      | .pending => l
      | .ended => l.finish
      | .error e => l.fail e
      | .frame f =>
        match Message.ofFrame f with
        | .ok m => drain fuel (l.take m)
        | .error _ => drain fuel l

/-- Takes in all complete frames. Each has some bytes, so they are no more than the bytes of the buffer. -/
def settle (l : Loop) : Loop := l.drain (l.reader.buffer.length + 2)

def arrive (a : Arrival) (l : Loop) : Loop := { l with reader := l.reader.arrive a }.settle

/-! ### Timers -/

def stepDue (intervals : Intervals) (l : Loop) : Loop :=
  let l := { l with clock := l.nextStep, nextStep := l.nextStep + intervals.step }
  if l.physics.spawned then { l with physics := l.physics.step.2, steps := l.steps + 1 } else l

def reportDue (intervals : Intervals) (l : Loop) : Loop :=
  let l := { l with clock := l.nextReport, nextReport := l.nextReport + intervals.report }
  if l.physics.spawned then l.send l.physics.reports else l

/-- Lets the timers tick that are due before a moment, at most `fuel` of them. -/
def tickUntil (intervals : Intervals) (moment : Nat) : Nat → Loop → Loop
  | 0, l => l
  | fuel + 1, l =>
    if l.ending.isSome then l
    else if l.nextStep < moment ∧ l.nextStep ≤ l.nextReport then
      (l.stepDue intervals).tickUntil intervals moment fuel
    else if l.nextReport < moment then (l.reportDue intervals).tickUntil intervals moment fuel
    else l

/-- Runs through the arrivals, which come in the order of their moments. -/
def run (intervals : Intervals) : List (Nat × Arrival) → Loop → Loop
  | [], l => l
  | (moment, a) :: arrivals, l =>
    let l := l.tickUntil intervals moment (2 * moment + 2)
    if l.ending.isSome then l else ({ l with clock := moment }.arrive a).run intervals arrivals

end Loop
end Physics
end GridFlight
