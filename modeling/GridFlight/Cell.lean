import GridFlight.Bytes
import GridFlight.Number.Binary
import GridFlight.Number.Integer
import GridFlight.Vec

/-! Cells of the grid. A cell travels as two words, `x` before `y`. -/

namespace GridFlight

structure Cell where
  x : Int32
  y : Int32
  deriving DecidableEq, Hashable, Repr

namespace Cell

/-- The cell that a position lies in, each coordinate taken towards zero. -/
def ofPosition (p : Vec Float32) : Cell := ⟨Number.toInt32 p.x, Number.toInt32 p.y⟩

def text (c : Cell) : String := "(" ++ Number.writeInt c.x.toInt ++ ", " ++ Number.writeInt c.y.toInt ++ ")"

/-! ### On the wire -/

def wireSize : Nat := 8

def encode (c : Cell) : List UInt8 := Bytes.ofInt32 c.x ++ Bytes.ofInt32 c.y

@[simp] theorem length_encode (c : Cell) : c.encode.length = wireSize := rfl

def encodeAll (cells : List Cell) : List UInt8 := cells.flatMap encode

theorem length_encodeAll (cells : List Cell) : (encodeAll cells).length = cells.length * wireSize := by
  induction cells with
  | nil => rfl
  | cons c cells ih => simp only [encodeAll, List.flatMap_cons, List.length_append, List.length_cons,
      length_encode] at ih ⊢; rw [ih, Nat.succ_mul, Nat.add_comm]

/-- The cells of whole groups of eight bytes, in order, after those already read. -/
def decodeOnto (read : List Cell) : List UInt8 → List Cell
  | a :: b :: c :: d :: e :: f :: g :: h :: bytes =>
    decodeOnto (⟨Bytes.toInt32 a b c d, Bytes.toInt32 e f g h⟩ :: read) bytes
  | _ => read.reverse

def decodeAll (bytes : List UInt8) : List Cell := decodeOnto [] bytes

theorem decodeOnto_encodeAll (cells read : List Cell) :
    decodeOnto read (encodeAll cells) = read.reverse ++ cells := by
  induction cells generalizing read with
  | nil => simp [encodeAll, decodeOnto]
  | cons c cells ih =>
    have hx : Bytes.toWord _ _ _ _ = _ := Bytes.toWord_ofWord c.x.toUInt32
    have hy : Bytes.toWord _ _ _ _ = _ := Bytes.toWord_ofWord c.y.toUInt32
    simp only [encodeAll, List.flatMap_cons, encode, Bytes.ofInt32, Bytes.ofWord, List.cons_append,
      List.nil_append, decodeOnto, Bytes.toInt32, hx, hy] at ih ⊢
    rw [ih]
    simp

theorem exists_decodeOnto {bytes : List UInt8} {count : Nat} (h : bytes.length = count * wireSize) (read : List Cell) :
    ∃ cells, decodeOnto read bytes = read.reverse ++ cells ∧ cells.length = count ∧ encodeAll cells = bytes := by
  induction count generalizing bytes read with
  | zero =>
    rw [Nat.zero_mul, List.length_eq_zero_iff] at h
    exact ⟨[], by simp [h, decodeOnto], rfl, h.symm⟩
  | succ count ih =>
    have short : ∀ {l : List UInt8}, l.length < wireSize → l.length ≠ (count + 1) * wireSize := by
      intro l hl
      simp only [wireSize] at hl ⊢
      omega
    match bytes, h with
    | [], h | [_], h | [_, _], h | [_, _, _], h | [_, _, _, _], h | [_, _, _, _, _], h | [_, _, _, _, _, _], h
    | [_, _, _, _, _, _, _], h => exact absurd h (short (by simp [wireSize]))
    | a :: b :: c :: d :: e :: f :: g :: i :: bytes, h =>
      let cell : Cell := ⟨Bytes.toInt32 a b c d, Bytes.toInt32 e f g i⟩
      have hlen : bytes.length = count * wireSize := by
        simp only [List.length_cons, wireSize] at h ⊢
        omega
      obtain ⟨cells, hread, hcount, hbytes⟩ := ih hlen (cell :: read)
      refine ⟨cell :: cells, ?_, by rw [List.length_cons, hcount], ?_⟩
      · rw [decodeOnto, hread]
        simp
      · have hcell : cell.encode = [a, b, c, d, e, f, g, i] := by
          rw [encode, Bytes.ofInt32_toInt32, Bytes.ofInt32_toInt32]
          rfl
        rw [encodeAll, List.flatMap_cons, hcell]
        exact congrArg (a :: b :: c :: d :: e :: f :: g :: i :: ·) hbytes

/-- Whole groups of eight bytes are the encoding of what they decode to. -/
theorem encodeAll_decodeAll {bytes : List UInt8} {count : Nat} (h : bytes.length = count * wireSize) :
    (decodeAll bytes).length = count ∧ encodeAll (decodeAll bytes) = bytes := by
  obtain ⟨cells, hread, hcount, hbytes⟩ := exists_decodeOnto h []
  have hcells : decodeAll bytes = cells := hread
  rw [hcells]
  exact ⟨hcount, hbytes⟩

theorem decodeAll_encodeAll (cells : List Cell) : decodeAll (encodeAll cells) = cells :=
  decodeOnto_encodeAll cells []

end Cell
end GridFlight
