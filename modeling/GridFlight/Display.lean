import GridFlight.Keyboard

/-! The two sides of the coordinator that face its user. A display draws the world and the status line and keeps the
    calls made to it; an input holds the events that wait. Any call can be refused, with a text that says why. -/

namespace GridFlight

inductive Display.Call where
  | render (world : World)
  | status (line : String)
  | shutdown
  deriving DecidableEq, Repr

inductive Display.Service where
  | render
  | status
  | shutdown
  deriving DecidableEq, Repr

def Display.Call.service : Display.Call → Display.Service
  | render _ => .render
  | status _ => .status
  | shutdown => .shutdown

structure Display where
  /-- The calls so far, each with whether it was served. -/
  calls : Array (Display.Call × Bool)
  /-- Why the call of this number, from one on, is refused. -/
  refusal : Display.Service → Nat → Option String

namespace Display

def new (refusal : Service → Nat → Option String) : Display := ⟨#[], refusal⟩

def count (d : Display) (s : Service) : Nat := d.calls.countP (·.1.service = s)

def call (call : Call) (d : Display) : Except Fault Unit × Display :=
  match d.refusal call.service (d.count call.service + 1) with
  | none => (.ok (), { d with calls := d.calls.push (call, true) })
  | some text => (.error (.screen text), { d with calls := d.calls.push (call, false) })

def strokes : Call → List Screen.Stroke
  | .render world => Screen.draw world
  | .status line => Screen.status line
  | .shutdown => []

/-- What the served calls have drawn. -/
def drawn (calls : List (Call × Bool)) : String :=
  Screen.text ((calls.filter Prod.snd).flatMap fun c => strokes c.1)

def statusLines (calls : List (Call × Bool)) : List String :=
  calls.filterMap fun c => match c.1 with
    | .status line => some line
    | _ => none

end Display

structure Input where
  pending : List UiEvent
  polls : Nat
  refusal : Nat → Option String

namespace Input

def new (refusal : Nat → Option String) : Input := ⟨[], 0, refusal⟩

def ask (i : Input) : Except Fault Unit × Input :=
  match i.refusal (i.polls + 1) with
  | none => (.ok (), { i with polls := i.polls + 1 })
  | some text => (.error (.screen text), { i with polls := i.polls + 1 })

end Input
end GridFlight
