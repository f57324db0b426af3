/-! Words as bytes, least significant first. -/

namespace GridFlight
namespace Bytes

def ofWord (w : UInt32) : List UInt8 :=
  let n := w.toNat
  [UInt8.ofNat n, UInt8.ofNat (n / 0x100), UInt8.ofNat (n / 0x10000), UInt8.ofNat (n / 0x1000000)]

def toWord (a b c d : UInt8) : UInt32 :=
  UInt32.ofNat (a.toNat + b.toNat * 0x100 + c.toNat * 0x10000 + d.toNat * 0x1000000)

@[simp] theorem length_ofWord (w : UInt32) : (ofWord w).length = 4 := rfl

theorem toWord_ofWord (w : UInt32) :
    toWord (UInt8.ofNat w.toNat) (UInt8.ofNat (w.toNat / 0x100)) (UInt8.ofNat (w.toNat / 0x10000))
      (UInt8.ofNat (w.toNat / 0x1000000)) = w := by
  have hw := w.toNat_lt
  apply UInt32.toNat_inj.mp
  simp only [toWord, UInt32.toNat_ofNat', UInt8.toNat_ofNat']
  omega

theorem ofWord_toWord (a b c d : UInt8) : ofWord (toWord a b c d) = [a, b, c, d] := by
  have ha := a.toNat_lt
  have hb := b.toNat_lt
  have hc := c.toNat_lt
  have hd := d.toNat_lt
  simp only [ofWord, toWord, UInt32.toNat_ofNat', List.cons.injEq, and_true]
  refine ⟨?_, ?_, ?_, ?_⟩ <;> apply UInt8.toNat_inj.mp <;> simp only [UInt8.toNat_ofNat'] <;> omega

/-! ### Signed words -/

def ofInt32 (n : Int32) : List UInt8 := ofWord n.toUInt32

def toInt32 (a b c d : UInt8) : Int32 := (toWord a b c d).toInt32

@[simp] theorem length_ofInt32 (n : Int32) : (ofInt32 n).length = 4 := rfl

theorem ofInt32_toInt32 (a b c d : UInt8) : ofInt32 (toInt32 a b c d) = [a, b, c, d] :=
  ofWord_toWord a b c d

theorem exists_ofInt32 (n : Int32) : ∃ a b c d, ofInt32 n = [a, b, c, d] ∧ toInt32 a b c d = n := by
  refine ⟨_, _, _, _, rfl, ?_⟩
  rw [toInt32, toWord_ofWord]
  exact n.toInt32_toUInt32

end Bytes
end GridFlight
