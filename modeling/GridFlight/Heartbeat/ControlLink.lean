import GridFlight.Channel

/-! The monitoring side of a heartbeat channel. A ping carries a new number and is acknowledged by the pong with the
    same number before a deadline; pongs with other numbers, other messages and unreadable frames are passed over and
    do not move the deadline. -/

namespace GridFlight
namespace Heartbeat

/-- What became of a ping. An acknowledgment comes with the milliseconds that it took. -/
inductive Outcome where
  | acknowledged (millis : Nat)
  | timedOut
  | disconnected
  | unreachable
  deriving DecidableEq, Repr

namespace Outcome

def isAlive : Outcome → Bool
  | acknowledged _ => true
  | _ => false

def text : Outcome → String
  | acknowledged millis => "Acknowledged(" ++ millis.repr ++ "ms)"
  | timedOut => "TimedOut"
  | disconnected => "Disconnected"
  | unreachable => "Unreachable"

end Outcome

/-- What comes in on a control channel, with the moment at which it can be read. -/
abbrev Incoming := List (Nat × ChannelEvent)

/-- Whether an event decides a ping: the pong with its number, or the end of the stream in any way. -/
def verdict (seq : UInt64) (elapsed : Nat) : ChannelEvent → Option Outcome
  | .ended | .item (.error _) => some .disconnected
  | .item (.ok f) =>
    match Message.ofFrame f with
    | .ok (.pong answer) => if answer = seq then some (.acknowledged elapsed) else none
    | _ => none

/-- How a link reads on: what comes in, or an end that follows once upon an error, or an end for ever. -/
inductive Reading where
  | steady
  | failed
  | ended
  deriving DecidableEq, Repr

def Reading.behind : ChannelEvent → Reading
  | .item (.ok _) => .steady
  | .item (.error _) => .failed
  | .ended => .ended

/-- Waits from `start` for an event that decides the ping. Gives the outcome, the moment, how the link reads on, and what
    is still to come. What can be read at the start is read even when the deadline is no later. -/
def await (seq : UInt64) (start deadline : Nat) : Incoming → Outcome × Nat × Reading × Incoming
  | [] => (.timedOut, max start deadline, .steady, [])
  | (moment, event) :: incoming =>
    if moment ≤ start ∨ moment < deadline then
      match verdict seq (max start moment - start) event with
      | some outcome => (outcome, max start moment, .behind event, incoming)
      | none => await seq start deadline incoming
    else (.timedOut, max start deadline, .steady, (moment, event) :: incoming)

structure ControlLink where
  writer : Writer
  incoming : Incoming
  reading : Reading
  /-- The number of the last ping. -/
  seq : UInt64

namespace ControlLink

def new (w : Writer) : ControlLink := ⟨w, [], .steady, 0⟩

def write (l : ControlLink) : Except FrameError Unit × ControlLink :=
  let seq := l.seq + 1
  let (result, writer) := l.writer.send (.ping seq)
  (result, { l with writer := writer, seq := seq })

def wait (start deadline : Nat) (l : ControlLink) : Outcome × Nat × ControlLink :=
  match l.reading with
  | .steady =>
    let (outcome, moment, reading, incoming) := await l.seq start deadline l.incoming
    (outcome, moment, { l with incoming := incoming, reading := reading })
  | .failed => (.disconnected, start, { l with reading := .steady })
  | .ended => (.disconnected, start, l)

/-- Pings at a moment and waits for the answer until the timeout has passed. Gives the moment of the outcome. -/
def ping (start timeout : Nat) (l : ControlLink) : Outcome × Nat × ControlLink :=
  match l.write with
  | (.error _, l) => (.disconnected, start, l)
  | (.ok (), l) => l.wait start (start + timeout)

end ControlLink

/-- The control links of a detector, by role. -/
abbrev ControlLinks := Role → Option ControlLink

/-- Probes a role over its link. A role without a link cannot be reached. -/
def ControlLinks.probe (role : Role) (start timeout : Nat) (links : ControlLinks) : Outcome × Nat × ControlLinks :=
  match links role with
  | none => (.unreachable, start, links)
  | some l =>
    let (outcome, moment, l) := l.ping start timeout
    (outcome, moment, fun r => if r = role then some l else links r)

end Heartbeat
end GridFlight
