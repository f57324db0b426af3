import GridFlight.Coordinator.Apply

/-! The work of the coordinator from its start to its end. Each iteration takes the events of the user, moves an
    obstacle when it is time, waits a little for something to come in, and attends to it. A scene holds a coordinator,
    the moment, and what is going to happen around it. -/

namespace GridFlight
namespace Coordinator

/-! ### An iteration -/

def start (c : Coordinator) : Turnout :=
  c.drawThen fun c => (c.broadcastExcept none (.size c.world.window.width c.world.window.height)).go

def prepare (now : Nat) (c : Coordinator) : Turnout :=
  let c := { c with iterations := c.iterations + 1, phase := .idle }
  match c.drain c.input.pending with
  | (.ok .more, c) => c.tick now
  | turnout => turnout

def attendMore : Nat → Coordinator → Turnout
  | 0, c => c.go
  | n + 1, c =>
    match c.inbox.poll with
    | (.event event, inbox) =>
      match { c with inbox := inbox }.dispatch event with
      | (.ok .more, c) => attendMore n c
      | turnout => turnout
    | (_, inbox) => go { c with inbox := inbox }

/-- The part of an iteration after something has come in: about one thing of each channel is handled. -/
def attend (event : Inbound) (c : Coordinator) : Turnout :=
  match c.dispatch event with
  | (.ok .more, c) => attendMore (c.inbox.size - 1) c
  | turnout => turnout

/-! ### Surroundings -/

inductive Happening where
  | arrival (channel : Nat) (arrival : Arrival)
  | input (event : UiEvent)
  | sever (role : Role)

def meet (h : Happening) (c : Coordinator) : Coordinator :=
  match h with
  | .arrival n a => { c with inbox := c.inbox.arrive n a }
  | .input event => { c with input := { c.input with pending := c.input.pending ++ [event] } }
  | .sever role =>
    let severed := fun (o : Outlet) => { o with writer := o.writer.sever }
    { c with outlets := fun r => if r = role then (c.outlets r).map severed else c.outlets r }

structure Scene where
  now : Nat
  coordinator : Coordinator
  script : List (Nat × Happening)

namespace Scene

/-- Waits until a deadline for something to come in. What is due happens first. -/
def waitFrom (deadline : Nat) : Nat → Coordinator → List (Nat × Happening) → Option Inbound × Scene
  | now, c, [] =>
    match c.inbox.poll with
    | (.event event, inbox) => (some event, ⟨now, { c with inbox := inbox }, []⟩)
    | (.exhausted, inbox) => (none, ⟨now, { c with inbox := inbox }, []⟩)
    | (.pending, inbox) => (none, ⟨max now deadline, { c with inbox := inbox }, []⟩)
  | now, c, (moment, h) :: script =>
    if moment ≤ now then waitFrom deadline now (c.meet h) script
    else
      match c.inbox.poll with
      | (.event event, inbox) => (some event, ⟨now, { c with inbox := inbox }, (moment, h) :: script⟩)
      | (.exhausted, inbox) => (none, ⟨now, { c with inbox := inbox }, (moment, h) :: script⟩)
      | (.pending, inbox) =>
        let c := { c with inbox := inbox }
        if moment < deadline then waitFrom deadline moment (c.meet h) script
        else (none, ⟨max now deadline, c, (moment, h) :: script⟩)

def wait (deadline : Nat) (s : Scene) : Option Inbound × Scene := waitFrom deadline s.now s.coordinator s.script

/-- Lets everything happen that is due before a moment, and moves the clock there. -/
def sleepTo (moment : Nat) (s : Scene) : Scene :=
  let due := s.script.takeWhile fun h => h.1 < moment
  ⟨max s.now moment, due.foldl (fun c h => c.meet h.2) s.coordinator, s.script.drop due.length⟩

/-- One iteration. There is no result when the limit cuts it off; a wait that ends right at the limit is not cut. -/
def step (limit : Option Nat) (s : Scene) : Option (Except Fault Flow) × Scene :=
  match s.coordinator.prepare s.now with
  | (.ok .more, c) =>
    let s := { s with coordinator := c }
    let full := s.now + c.config.readiness
    let deadline := (limit.map (min full)).getD full
    let cut := fun (s : Scene) => if limit.any fun l => l ≤ s.now ∧ l < full then none else some (.ok .more)
    if c.inbox.size = 0 then
      let s := s.sleepTo deadline
      (cut s, s)
    else
      match s.wait deadline with
      | (some event, s) =>
        let (result, c) := s.coordinator.attend event
        (some result, { s with coordinator := c })
      | (none, s) => (cut s, s)
  | (result, c) => (some result, { s with coordinator := c })

def finish (result : Except Fault Flow) (s : Scene) : Except Fault Summary × Scene :=
  let (answer, c) := s.coordinator.call .shutdown
  let ending := match result, answer with
    | .error e, _ | .ok _, .error e => .error e
    | .ok _, .ok () => .ok c.summary
  (ending, { s with coordinator := c })

def iterate (limit : Option Nat) : Nat → Scene → Option (Except Fault Summary) × Scene
  | 0, s => (none, s)
  | fuel + 1, s =>
    match s.step limit with
    | (none, s) => (none, s)
    | (some (.ok .more), s) => iterate limit fuel s
    | (some result, s) =>
      let (ending, s) := s.finish result
      (some ending, s)

/-- Runs from the start until a quit or a fault, for at most `fuel` iterations and not past the limit. -/
def run (limit : Option Nat) (fuel : Nat) (s : Scene) : Option (Except Fault Summary) × Scene :=
  match s.coordinator.start with
  | (.ok _, c) => iterate limit fuel { s with coordinator := c }
  | (.error e, c) => (some (.error e), { s with coordinator := c })

end Scene
end Coordinator
end GridFlight
