import GridFlight.Frame.Reader

/-! The writing end of a channel of frames. It keeps what was written, and how many more frames its reader will
    take: a write to a reader that has gone is a broken pipe. -/

namespace GridFlight

structure Writer where
  written : Array Frame
  /-- The number of writes that still succeed, if it is limited. -/
  room : Option Nat

namespace Writer

def lasting : Writer := ⟨#[], none⟩

def broken : Writer := ⟨#[], some 0⟩

def frames (w : Writer) : List Frame := w.written.toList

def write (f : Frame) (w : Writer) : Except FrameError Unit × Writer :=
  match w.room with
  | some 0 => (.error (.io .brokenPipe), w)
  | some (n + 1) => (.ok (), ⟨w.written.push f, some n⟩)
  | none => (.ok (), ⟨w.written.push f, none⟩)

def send (m : Message) (w : Writer) : Except FrameError Unit × Writer := w.write m.toFrame

def sever (w : Writer) : Writer := { w with room := some 0 }

end Writer

/-- What happens to the reading end of a channel at a moment. -/
inductive Arrival where
  | bytes (bytes : List UInt8)
  | close
  deriving DecidableEq, Repr

def Frame.Reader.arrive (r : Frame.Reader) : Arrival → Frame.Reader
  | .bytes bytes => r.feed bytes
  | .close => r.close

/-- What the reader of a channel meets: an item of its stream, or its end. -/
inductive ChannelEvent where
  | item (item : Except FrameError Frame)
  | ended

/-- Takes out everything that a reader yields without waiting. -/
def Frame.Reader.yields (r : Frame.Reader) : List ChannelEvent × Frame.Reader :=
  match r.progress with
  | .ended => ([], r)
  | progress =>
    let d := Frame.decodeAll r.buffer
    let frames := d.frames.map fun f => ChannelEvent.item (.ok f)
    match d.error with
    | some e => (frames ++ [.item (.error e)], ⟨d.left, .ended⟩)
    | none =>
      if progress = .waiting then (frames, ⟨d.left, .waiting⟩)
      else if d.left.isEmpty then (frames ++ [.ended], ⟨d.left, .ended⟩)
      else (frames ++ [.item (.error (.io .bytesRemaining))], ⟨d.left, .ended⟩)

end GridFlight
