import GridFlight.Coordinator.Run

/-! A rehearsal of the coordinator with peers at the other ends of its links. A peer writes to an inbound channel,
    reads what the outlet of its role carries, or both; where a role is given twice the later outlet serves it. -/

namespace GridFlight
namespace Rehearsal

/-- The far end of a stream of frames, and how much of the stream has been looked at. -/
structure Tap where
  reader : Frame.Reader
  seen : Nat

namespace Tap

def new : Tap := ⟨.empty, 0⟩

/-- A stream ends behind an error. -/
def withEnd : ChannelEvent → List ChannelEvent
  | .item (.error e) => [.item (.error e), .ended]
  | event => [event]

/-- What has come through since the last look. -/
def look (o : Option Outlet) (t : Tap) : List ChannelEvent × Tap :=
  let frames := (o.map fun o => o.writer.frames.drop t.seen).getD []
  let reader := t.reader.feed (frames.flatMap Frame.encode)
  let (events, reader) := (if o.any (·.connected) then reader else reader.close).yields
  (events.flatMap withEnd, ⟨reader, t.seen + frames.length⟩)

end Tap

structure Peer where
  role : Role
  /-- The inbound channel that it writes to. -/
  channel : Option Nat
  /-- Whether the outlet of its role leads to it. -/
  served : Bool
  writes : Bool
  reads : Bool
  tap : Tap

/-- A link as it is asked for: the role, and whether it leads in and out. -/
structure Ask where
  role : Role
  inbound : Bool
  outbound : Bool

def peersOf (asks : List Ask) : List Peer :=
  asks.zipIdx.map fun (a, place) =>
    { role := a.role
      channel := if a.inbound then some ((asks.take place).countP (·.inbound)) else none
      served := a.outbound && !(asks.drop (place + 1)).any fun b => b.role = a.role ∧ b.outbound
      writes := a.inbound
      reads := true
      tap := .new }

inductive Act where
  | send (link : Nat) (bytes : List UInt8)
  | closeWriting (link : Nat)
  | closeReading (link : Nat)
  | input (event : UiEvent)

structure Failing where
  render : List Nat
  status : List Nat
  poll : List Nat
  shutdown : Bool

namespace Failing

def display (f : Failing) : Display :=
  .new fun service n => match service with
    | .render => if f.render.contains n then some "render failed" else none
    | .status => if f.status.contains n then some "status failed" else none
    | .shutdown => if f.shutdown then some "shutdown failed" else none

def input (f : Failing) : Input := .new fun n => if f.poll.contains n then some "poll failed" else none

end Failing

structure Ensemble where
  now : Nat
  coordinator : Coordinator
  peers : List Peer
  supervisor : Tap
  shown : Nat

structure Glance where
  received : List (List ChannelEvent)
  supervisor : List ChannelEvent
  calls : List (Display.Call × Bool)

namespace Ensemble

/-- An ensemble with these links. The supervisor may listen, be out of reach or not be there. -/
def new (config : Coordinator.Config) (seed : UInt64) (asks : List Ask) (supervisor : Option Writer)
    (failing : Failing) : Ensemble :=
  let inbox := Inbox.ofRoles ((asks.filter (·.inbound)).map Ask.role)
  let outlets := fun role => if asks.any fun a => a.role = role ∧ a.outbound then some (Outlet.new .lasting) else none
  ⟨0, .new config inbox outlets (supervisor.map .new) failing.display failing.input seed 0, peersOf asks, .new, 0⟩

def happening? (e : Ensemble) : Act → Option Coordinator.Happening
  | .send link bytes =>
    (e.peers[link]?).bind fun p => if p.writes then p.channel.map fun n => .arrival n (.bytes bytes) else none
  | .closeWriting link => ((e.peers[link]?).bind Peer.channel).map fun n => .arrival n .close
  | .closeReading link => (e.peers[link]?).bind fun p => if p.served then some (.sever p.role) else none
  | .input event => some (.input event)

def noteAct (e : Ensemble) : Act → Ensemble
  | .closeWriting link => { e with peers := e.peers.modify link fun p => { p with writes := false } }
  | .closeReading link => { e with peers := e.peers.modify link fun p => { p with reads := false } }
  | _ => e

/-- Whether what a peer writes still finds a reader. -/
def reaches (e : Ensemble) (link : Nat) : Bool :=
  (e.peers[link]?).any fun p => p.writes && p.channel.any e.coordinator.inbox.hears

def act (a : Act) (e : Ensemble) : Ensemble :=
  let e := match e.happening? a with
    | some h => { e with coordinator := e.coordinator.meet h }
    | none => e
  e.noteAct a

/-- The scene in which these acts are going to happen. -/
def scene (e : Ensemble) (acts : List (Nat × Act)) : Coordinator.Scene :=
  ⟨e.now, e.coordinator, acts.filterMap fun (moment, a) => (e.happening? a).map fun h => (moment, h)⟩

def resume (s : Coordinator.Scene) (e : Ensemble) : Ensemble := { e with now := s.now, coordinator := s.coordinator }

def step (e : Ensemble) : Option (Except Fault Coordinator.Flow) × Ensemble :=
  let (result, s) := (e.scene []).step none
  (result, e.resume s)

/-- At most `n` iterations, up to the first that does not go on. -/
def steps : Nat → Ensemble → Option (Except Fault Coordinator.Flow) × Ensemble
  | 0, e => (some (.ok .more), e)
  | n + 1, e =>
    match e.step with
    | (some (.ok .more), e) => steps n e
    | other => other

/-- More iterations than a rehearsal has before its limit. -/
def patience : Nat := 4000000

/-- A whole run of the coordinator with acts at moments after its start, and at most this long. -/
def run (length : Nat) (acts : List (Nat × Act)) (e : Ensemble) :
    Option (Except Fault Coordinator.Summary) × Ensemble :=
  let acts := acts.map fun (moment, a) => (e.now + moment, a)
  let (result, s) := (e.scene acts).run (some (e.now + length)) patience
  let e := e.resume s
  (result, (acts.filter (·.1 ≤ e.now)).foldl (fun e a => e.noteAct a.2) e)

def advance (millis : Nat) (e : Ensemble) : Ensemble := { e with now := e.now + millis }

def turn (f : Coordinator → Coordinator.Turnout) (e : Ensemble) : Except Fault Coordinator.Flow × Ensemble :=
  let (result, c) := f e.coordinator
  (result, { e with coordinator := c })

def look (e : Ensemble) : Glance × Ensemble :=
  let views := e.peers.map fun p =>
    let (events, tap) := p.tap.look (if p.served then e.coordinator.outlets p.role else none)
    (if p.reads then events else [], { p with tap := tap })
  let (supervisor, tap) := match e.coordinator.supervisor with
    | some o => if o.writer.room = some 0 then ([], e.supervisor) else e.supervisor.look (some o)
    | none => ([], e.supervisor)
  let calls := e.coordinator.display.calls.toList
  (⟨views.map Prod.fst, supervisor, calls.drop e.shown⟩,
    { e with peers := views.map Prod.snd, supervisor := tap, shown := calls.length })

end Ensemble
end Rehearsal
end GridFlight
