/-! Text as bytes. `decode?` reads a byte string that is exactly the encoding of some text; `decodeLossy`
    reads any byte string and puts one replacement character for every maximal part that begins no character. -/

namespace GridFlight
namespace Utf8

def encode (s : String) : List UInt8 := s.toByteArray.data.toList

def decode? (bytes : List UInt8) : Option String := String.fromUTF8? ⟨bytes.toArray⟩

theorem decode?_encode (s : String) : decode? (encode s) = some s := by
  simp [decode?, encode, String.fromUTF8?, String.fromUTF8, s.isValidUTF8]

theorem encode_of_decode? {bytes : List UInt8} {s : String} (h : decode? bytes = some s) : encode s = bytes := by
  simp only [decode?, String.fromUTF8?] at h
  split at h
  · cases h
    simp [encode, String.fromUTF8]
  · cases h

/-- Reading accepts exactly what writing produces. -/
theorem decode?_eq_some_iff {bytes : List UInt8} {s : String} : decode? bytes = some s ↔ bytes = encode s :=
  ⟨fun h => (encode_of_decode? h).symm, fun h => h ▸ decode?_encode s⟩

/-! ### The longest text within a byte limit -/

/-- The longest list of leading characters whose encodings fit into `room` bytes together. -/
def fitOf (room : Nat) : List Char → List Char
  | [] => []
  | c :: cs => if c.utf8Size ≤ room then c :: fitOf (room - c.utf8Size) cs else []

def fit (room : Nat) (s : String) : String := String.ofList (fitOf room s.toList)

/-! ### Lossy reading -/

/-- The range that the second byte of a character must lie in, by its first byte, and the number of bytes after it. -/
def shape (first : Nat) : Option (Nat × Nat × Nat) :=
  if 0xC2 ≤ first ∧ first ≤ 0xDF then some (0x80, 0xBF, 1)
  else if first = 0xE0 then some (0xA0, 0xBF, 2)
  else if first = 0xED then some (0x80, 0x9F, 2)
  else if 0xE1 ≤ first ∧ first ≤ 0xEF then some (0x80, 0xBF, 2)
  else if first = 0xF0 then some (0x90, 0xBF, 3)
  else if 0xF1 ≤ first ∧ first ≤ 0xF3 then some (0x80, 0xBF, 3)
  else if first = 0xF4 then some (0x80, 0x8F, 3)
  else none

/-- Reads the bytes after the first one. The count is that of the bytes that belong together. -/
def continuation (code low high : Nat) : Nat → List UInt8 → Nat → Option Nat × Nat
  | 0, _, used => (some code, used)
  | _ + 1, [], used => (none, used)
  | wanted + 1, b :: bytes, used =>
    if low ≤ b.toNat ∧ b.toNat ≤ high then
      continuation (code * 64 + (b.toNat - 0x80)) 0x80 0xBF wanted bytes (used + 1)
    else (none, used)

/-- The first character, or the replacement character, and the number of bytes after the first that belong to it. -/
def leading (first : UInt8) (bytes : List UInt8) : Char × Nat :=
  if first.toNat < 0x80 then (Char.ofNat first.toNat, 0)
  else match shape first.toNat with
    | none => ('\uFFFD', 0)
    | some (low, high, wanted) =>
      let head := if wanted = 1 then first.toNat - 0xC0 else if wanted = 2 then first.toNat - 0xE0
        else first.toNat - 0xF0
      match continuation head low high wanted bytes 0 with
      | (some code, used) => (Char.ofNat code, used)
      | (none, used) => ('\uFFFD', used)

def decodeLossyOf : List UInt8 → List Char
  | [] => []
  | b :: bytes =>
    let (c, used) := leading b bytes
    c :: decodeLossyOf (bytes.drop used)
termination_by bytes => bytes.length
decreasing_by simp only [List.length_drop, List.length_cons]; omega

def decodeLossy (bytes : List UInt8) : String := String.ofList (decodeLossyOf bytes)

end Utf8
end GridFlight
