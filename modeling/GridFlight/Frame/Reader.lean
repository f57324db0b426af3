import GridFlight.Message

/-! The reading end of a channel of frames. Bytes arrive in any pieces; the reader yields a frame as soon as it is
    complete. After an error it ends; an end of the bytes inside a frame is an error. -/

namespace GridFlight
namespace Frame

/-- How far a reader has come: open, at the end of its bytes, or past an error or the last frame. -/
inductive Progress where
  | waiting
  | closed
  | ended
  deriving DecidableEq, Repr

structure Reader where
  buffer : List UInt8
  progress : Progress
  deriving DecidableEq

inductive Yield where
  | frame (f : Frame)
  | error (e : FrameError)
  | ended
  | pending

namespace Reader

def empty : Reader := ⟨[], .waiting⟩

/-- More bytes arrive. They are lost once the reader has ended. -/
def feed (bytes : List UInt8) (r : Reader) : Reader :=
  match r.progress with
  | .waiting => { r with buffer := r.buffer ++ bytes }
  | _ => r

def close (r : Reader) : Reader :=
  match r.progress with
  | .waiting => { r with progress := .closed }
  | _ => r

def poll (r : Reader) : Yield × Reader :=
  match r.progress with
  | .ended => (.ended, r)
  | progress =>
    match decode r.buffer with
    | (.error e, left) => (.error e, ⟨left, .ended⟩)
    | (.ok (some f), rest) => (.frame f, { r with buffer := rest })
    | (.ok none, left) =>
      if progress = .waiting then (.pending, { r with buffer := left })
      else if left.isEmpty then (.ended, ⟨left, .ended⟩)
      else (.error (.io .bytesRemaining), ⟨left, .ended⟩)

end Reader

/-! ### A whole stream -/

/-- The items of a stream whose bytes have all arrived: its frames, then an error if it does not end behind one. -/
def readAll (bytes : List UInt8) : List (Except FrameError Frame) :=
  let d := decodeAll bytes
  d.frames.map .ok ++
    match d.error with
    | some e => [.error e]
    | none => if d.left.isEmpty then [] else [.error (.io .bytesRemaining)]

end Frame

def Message.ofItem (item : Except FrameError Frame) : Except FrameError (Except Fault Message) :=
  item.map Message.ofFrame

end GridFlight
