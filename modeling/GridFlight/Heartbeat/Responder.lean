import GridFlight.Channel

/-! The monitored side of a heartbeat channel, and the watch for an exit. A responder answers every ping as it is
    read, until an exit, an unreadable stream or a failed write. -/

namespace GridFlight
namespace Heartbeat

structure Responder where
  writer : Writer
  answered : Nat
  stopped : Bool

namespace Responder

def new (w : Writer) : Responder := ⟨w, 0, false⟩

def take (r : Responder) (item : Except FrameError Frame) : Responder :=
  if r.stopped then r
  else match Message.ofItem item with
    | .error _ => { r with stopped := true }
    | .ok (.ok (.ping seq)) =>
      match r.writer.send (.pong seq) with
      | (.ok (), writer) => { r with writer := writer, answered := r.answered + 1 }
      | (.error _, writer) => { r with writer := writer, stopped := true }
    | .ok (.ok .exit) => { r with stopped := true }
    | .ok _ => r

def run (items : List (Except FrameError Frame)) (r : Responder) : Responder := items.foldl take r

end Responder

/-! ### Watching for an exit -/

/-- Where a watch stands: still reading, told to exit, or past an unreadable stream. -/
inductive Watch where
  | reading
  | told
  | lost
  deriving DecidableEq, Repr

namespace Watch

def take (w : Watch) (item : Except FrameError Frame) : Watch :=
  match w with
  | .reading =>
    match Message.ofItem item with
    | .error _ => .lost
    | .ok (.ok .exit) => .told
    | .ok _ => .reading
  | w => w

/-- Whether a whole stream tells to exit. Its end alone does not. -/
def run (items : List (Except FrameError Frame)) : Bool := items.foldl take .reading == .told

end Watch
end Heartbeat
end GridFlight
