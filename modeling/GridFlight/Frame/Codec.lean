import GridFlight.Frame.Basic
import GridFlight.Text.Blank

/-! Frames on the wire. A frame is its code, its payload and its cells; how many cells follow is read from the
    payload, so a frame is complete once all of them have arrived. -/

namespace GridFlight
namespace Frame

def maxBulk : Nat := 65536

/-- The number of cells that a payload announces. A negative number announces none. -/
def bulkCount (p : Payload) : Except FrameError Nat :=
  match p.text? with
  | none => .error (.badCount (Utf8.decodeLossy p.bytes))
  | some text =>
    match Number.readInt64? ((Text.fields text).headD "") with
    | none => .error (.badCount (Text.trim text))
    | some count =>
      if count ≤ 0 then .ok 0
      else if maxBulk < count.toNat then .error (.bulkTooLarge count.toNat)
      else .ok count.toNat

def announced (code : Int32) (p : Payload) : Except FrameError Nat :=
  match Kind.ofCode? code with
  | some kind => if kind.carriesBulk then bulkCount p else .ok 0
  | none => .ok 0

/-! ### Writing -/

def encode (f : Frame) : List UInt8 := Bytes.ofInt32 f.code ++ f.payload.bytes ++ Cell.encodeAll f.bulk

def headerSize : Nat := 4 + payloadSize

theorem length_encode (f : Frame) : f.encode.length = headerSize + f.bulk.length * Cell.wireSize := by
  simp [encode, headerSize, f.payload.length_bytes, Cell.length_encodeAll, Nat.add_assoc]

/-! ### Reading -/

/-- The code, the payload and the bytes after them. -/
def header? : List UInt8 → Option (Int32 × Payload × List UInt8)
  | a :: b :: c :: d :: rest =>
    if h : (rest.take payloadSize).length = payloadSize then
      some (Bytes.toInt32 a b c d, ⟨rest.take payloadSize, h⟩, rest.drop payloadSize)
    else none
  | _ => none

theorem length_of_header? {buffer body : List UInt8} {code : Int32} {p : Payload}
    (h : header? buffer = some (code, p, body)) : buffer.length = headerSize + body.length := by
  unfold header? at h
  split at h
  · split at h
    case isTrue hp =>
      simp only [Option.some.injEq, Prod.mk.injEq] at h
      rw [← h.2.2]
      simp only [List.length_take, List.length_cons, List.length_drop, headerSize] at hp ⊢
      omega
    case isFalse => cases h
  · cases h

def body? (count : Nat) (bytes : List UInt8) : Option (List Cell × List UInt8) :=
  let size := count * Cell.wireSize
  let cells := bytes.take size
  if cells.length = size then some (Cell.decodeAll cells, bytes.drop size) else none

/-- Asks a buffer for its first frame, and gives the buffer afterwards. While the frame is incomplete there is no
    frame and nothing is taken out. -/
def decode (buffer : List UInt8) : Except FrameError (Option Frame) × List UInt8 :=
  match header? buffer with
  | none => (.ok none, buffer)
  | some (code, payload, bytes) =>
    match announced code payload with
    | .error e => (.error e, buffer)
    | .ok count =>
      match body? count bytes with
      | none => (.ok none, buffer)
      | some (cells, rest) => (.ok (some ⟨code, payload, cells⟩), rest)

theorem length_lt_of_decode {buffer rest : List UInt8} {f : Frame} (h : decode buffer = (.ok (some f), rest)) :
    rest.length < buffer.length := by
  unfold decode at h
  split at h
  · cases h
  · next code payload bytes hh =>
    have hlen := length_of_header? hh
    split at h
    · cases h
    · split at h
      · cases h
      · next cells tail hb =>
        cases h
        simp only [body?] at hb
        split at hb
        · cases hb
          simp only [List.length_drop, headerSize] at hlen ⊢
          omega
        · cases hb

/-- What a buffer holds: whole frames, then an error or bytes that do not complete a frame. -/
structure Decoded where
  frames : List Frame
  error : Option FrameError
  left : List UInt8

/-- Takes frames out of the buffer until it holds no complete one or cannot be read. -/
def decodeAll (buffer : List UInt8) : Decoded :=
  match _h : decode buffer with
  | (.error e, left) => ⟨[], some e, left⟩
  | (.ok none, left) => ⟨[], none, left⟩
  | (.ok (some f), rest) =>
    let tail := decodeAll rest
    { tail with frames := f :: tail.frames }
termination_by buffer.length
decreasing_by exact length_lt_of_decode _h

end Frame
end GridFlight
