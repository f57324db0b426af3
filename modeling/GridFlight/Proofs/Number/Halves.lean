import Mathlib.Tactic.Positivity
import Mathlib.Tactic.Ring
import GridFlight.Scalar

/-! Integers and their halves in double precision. An integer below `2 ^ 53` is a double as it is, and half of it is
    one with the exponent next below, so that nothing is rounded where an integer is halved. -/

namespace GridFlight
namespace Number

open Float.Model Float.Model.UnpackedFloat

/-- What a double stands for, unless it is an infinity or no number. -/
def rational? (x : Float) : Option ℚ :=
  match x.toModel.unpack with
  | .zero _ => some 0
  | .finite sign m e _ => some (sign.apply (m : Int) * (2 : ℚ) ^ e)
  | .infinity _ | .notANumber => none

theorem isSome_rational? (x : Float) : (rational? x).isSome = x.isFinite := by
  show (rational? x).isSome = x.toModel.unpack.isFinite
  unfold rational?
  cases x.toModel.unpack <;> rfl

/-! ### Rounding -/

/-- A significand of 53 bits at an exponent at which doubles have one. -/
structure Normal (m : Nat) (e : Int) : Prop where
  bits : m.log2 = 52
  low : -1074 ≤ e
  high : e ≤ 971

theorem Normal.pos {m : Nat} {e : Int} (h : Normal m e) : 0 < m := by
  rcases Nat.eq_zero_or_pos m with rfl | hpos
  · exact absurd h.bits (by decide)
  · exact hpos

theorem shiftRight_exact (m k : Nat) :
    (⟨m * 2 ^ k, false, false⟩ : ExtendedMantissa) >>> k = ⟨m, false, false⟩ := by
  induction k generalizing m with
  | zero => rw [Nat.pow_zero, Nat.mul_one]; rfl
  | succ k ih =>
    have hmul : m * 2 ^ (k + 1) = m * 2 * 2 ^ k := by ring
    show ((⟨m * 2 ^ (k + 1), false, false⟩ : ExtendedMantissa) >>> k).shiftRightOne = _
    rw [hmul, ih, ExtendedMantissa.shiftRightOne]
    simp

theorem log2_mul_two_pow {m : Nat} (hpos : 0 < m) (k : Nat) : (m * 2 ^ k).log2 = m.log2 + k := by
  induction k with
  | zero => rw [Nat.pow_zero, Nat.mul_one, Nat.add_zero]
  | succ k ih =>
    have hmul : m * 2 ^ (k + 1) = 2 * (m * 2 ^ k) := by ring
    have hne : m * 2 ^ k ≠ 0 := (Nat.mul_pos hpos (Nat.two_pow_pos k)).ne'
    rw [hmul, Nat.log2_two_mul hne, ih, Nat.add_assoc]

theorem mantissaBits_binary64 : (Format.binary64.mantissaBits : Int) = 53 := rfl

/-- Zeros behind the significand are cut off, and nothing is rounded. -/
theorem shift_of_normal {m : Nat} {e : Int} (h : Normal m e) (k : Nat) :
    shiftToTargetExponent .binary64 (m * 2 ^ k) (e - k) .exact = (⟨m, false, false⟩, e) := by
  have htarget : Format.binary64.targetExponent (totalExponent (m * 2 ^ k) (e - k)) = e := by
    have hlow := h.low
    simp only [Format.targetExponent, totalExponent, log2_mul_two_pow h.pos, h.bits, mantissaBits_binary64,
      Format.minExponent]
    omega
  have hshift : (e - (e - k)).toNat = k := by omega
  rw [shiftToTargetExponent, htarget, shiftToExponent, hshift]
  simp only [ExtendedMantissa.ofMantissaAndAccuracy, shiftRight_exact]
  rw [Int.sub_add_cancel]

theorem round_of_normal {m : Nat} {e : Int} (h : Normal m e) (s : Sign) (k : Nat) :
    roundWithAccuracy .binary64 s (m * 2 ^ k) (e - k) .exact = .finite s m e h.pos := by
  have hagain : shiftToTargetExponent .binary64 m e .exact = (⟨m, false, false⟩, e) := by
    have := shift_of_normal h 0
    rwa [Nat.pow_zero, Nat.mul_one, Int.natCast_zero, Int.sub_zero] at this
  have hrounded : (⟨m, false, false⟩ : ExtendedMantissa).roundedMantissa = m := rfl
  unfold roundWithAccuracy
  rw [shift_of_normal h k]
  dsimp only
  rw [hrounded, hagain]
  exact dif_neg h.pos.ne'

/-! ### Bits -/

theorem ofNat_ne_of_lt {w a b : Nat} (ha : a < 2 ^ w) (hb : b < 2 ^ w) (hne : a ≠ b) :
    BitVec.ofNat w a ≠ BitVec.ofNat w b := by
  intro h
  have hnat := congrArg BitVec.toNat h
  rw [BitVec.toNat_ofNat, BitVec.toNat_ofNat, Nat.mod_eq_of_lt ha, Nat.mod_eq_of_lt hb] at hnat
  exact hne hnat

/-- The leading bit of a significand is not stored. -/
theorem toNat_leading {m : Nat} (h : m.log2 = 52) : (1#1 ++ BitVec.ofNat 52 m).toNat = m := by
  have hne : m ≠ 0 := by
    rintro rfl
    exact absurd h (by decide)
  obtain ⟨hlow, hhigh⟩ := (Nat.log2_eq_iff hne).mp h
  have hrest : (BitVec.ofNat 52 m).toNat = m - 2 ^ 52 := by
    rw [BitVec.toNat_ofNat]
    omega
  rw [BitVec.toNat_append, ← Nat.shiftLeft_add_eq_or_of_lt (BitVec.ofNat 52 m).isLt, hrest, Nat.shiftLeft_eq,
    BitVec.toNat_ofNat]
  omega

theorem pack_of_normal {m : Nat} {e : Int} (h : Normal m e) (s : Sign) :
    UnpackedFloat.pack .binary64 (.finite s m e h.pos) =
      packComponents .binary64 s (BitVec.ofNat 11 (e + 1075).toNat) (BitVec.ofNat 52 m) := by
  obtain ⟨hbits, hlow, hhigh⟩ := h
  have hbias : e + (Format.binary64.exponentBias : Int) + (Format.binary64.mantissaBitsWithoutImplicit : Int) =
      e + 1075 := by
    show e + 1023 + 52 = e + 1075
    omega
  have hrange : ¬2 ^ Format.binary64.exponentBits ≤ (e + 1075).toNat + 1 := by
    show ¬2048 ≤ (e + 1075).toNat + 1
    omega
  show (if 2 ^ Format.binary64.exponentBits ≤ (e + (Format.binary64.exponentBias : Int) +
      (Format.binary64.mantissaBitsWithoutImplicit : Int)).toNat + 1 then _ else if _ then _ else _) = _
  rw [hbias, if_neg hrange, if_pos (by rw [hbits]; rfl)]

theorem sign_packComponents {spec : Format} (s : Sign) (exponent : BitVec spec.exponentBits)
    (mantissa : BitVec spec.mantissaBitsWithoutImplicit) :
    Sign.ofBitVec (unpackSign (packComponents spec s exponent mantissa)) = s := by
  have hsign : unpackSign (packComponents spec s exponent mantissa) = s.toBitVec := by
    ext i hi
    obtain rfl : i = 0 := by omega
    show (BitVec.cast _ (BitVec.extractLsb _ _ (packComponents spec s exponent mantissa)))[0] = _
    simp +arith [packComponents, BitVec.extractLsb, BitVec.getElem_append]
  rw [hsign]
  cases s <;> rfl

theorem unpack_of_ne {b : BitVec Format.binary64.numBits} (hinfinite : unpackExponent b ≠ -1#_)
    (hzero : unpackExponent b ≠ 0#_) : ∃ hpos, UnpackedFloat.unpack .binary64 b =
      .finite (.ofBitVec (unpackSign b)) (1#1 ++ unpackMantissa b).toNat ((unpackExponent b).toNat - (1023 + 52)) hpos :=
  ⟨_, (if_neg hinfinite).trans (if_neg hzero)⟩

/-- What is stored in the bits of a double reads back. -/
theorem unpack_pack {m : Nat} {e : Int} (h : Normal m e) (s : Sign) :
    (Float.Model.pack (.finite s m e h.pos)).unpack = .finite s m e h.pos := by
  show UnpackedFloat.unpack .binary64 (UnpackedFloat.pack .binary64 (.finite s m e h.pos)) = _
  have hlow := h.low
  have hhigh := h.high
  have hones : -1#11 = BitVec.ofNat 11 2047 := rfl
  have hinfinite : BitVec.ofNat 11 (e + 1075).toNat ≠ -1#11 := by
    rw [hones]
    exact ofNat_ne_of_lt (by omega) (by omega) (by omega)
  have hzero : BitVec.ofNat 11 (e + 1075).toNat ≠ 0#11 := ofNat_ne_of_lt (by omega) (by omega) (by omega)
  have hexponent : ((BitVec.ofNat 11 (e + 1075).toNat).toNat : Int) - (1023 + 52) = e := by
    rw [BitVec.toNat_ofNat]
    omega
  rw [pack_of_normal h]
  generalize hb : packComponents .binary64 s (BitVec.ofNat 11 (e + 1075).toNat) (BitVec.ofNat 52 m) = b
  have hsign : Sign.ofBitVec (unpackSign b) = s := hb ▸ sign_packComponents s _ _
  have hbits : unpackExponent b = BitVec.ofNat 11 (e + 1075).toNat := hb ▸ unpackExponent_packComponents
  have hmantissa : unpackMantissa b = BitVec.ofNat 52 m := hb ▸ unpackMantissa_packComponents
  obtain ⟨hpos, hunpack⟩ := unpack_of_ne (b := b) (hbits ▸ hinfinite) (hbits ▸ hzero)
  rw [hunpack, UnpackedFloat.finite.injEq]
  refine ⟨hsign, ?_, ?_⟩
  · rw [hmantissa]
    exact toNat_leading h.bits
  · rw [hbits]
    exact hexponent

/-! ### Integers -/

/-- An integer below `2 ^ 53` has its bits in the significand, with zeros behind them. -/
def lifted (n : Nat) : Nat := n * 2 ^ (52 - n.log2)

theorem normal_lifted {n : Nat} (hpos : 0 < n) (hlt : n < 2 ^ 53) :
    Normal (lifted n) (-((52 - n.log2 : Nat) : Int)) := by
  have hlog : n.log2 < 53 := (Nat.log2_lt hpos.ne').mpr hlt
  refine ⟨?_, by omega, by omega⟩
  rw [lifted, log2_mul_two_pow hpos]
  omega

theorem value_lifted (n : Nat) : ((lifted n : Int) : ℚ) * 2 ^ (-((52 - n.log2 : Nat) : Int)) = n := by
  rw [lifted, zpow_neg, zpow_natCast]
  push_cast
  exact mul_inv_cancel_right₀ (by positivity) _

theorem round_natural {n : Nat} (hpos : 0 < n) (hlt : n < 2 ^ 53) :
    UnpackedFloat.round .binary64 .positive n 0 =
      .finite .positive (lifted n) (-((52 - n.log2 : Nat) : Int)) (normal_lifted hpos hlt).pos := by
  have hlog : n.log2 < 53 := (Nat.log2_lt hpos.ne').mpr hlt
  have hshift : ((0 : Int) - Format.binary64.targetExponent (totalExponent n 0)).toNat = 52 - n.log2 := by
    simp only [Format.targetExponent, totalExponent, mantissaBits_binary64, Format.minExponent]
    omega
  have hround := round_of_normal (normal_lifted hpos hlt) .positive 0
  rw [Nat.pow_zero, Nat.mul_one, Int.natCast_zero, Int.sub_zero] at hround
  rw [← hround, UnpackedFloat.round, decreaseExponent, hshift]
  simp only [lifted, Nat.shiftLeft_eq, Int.zero_sub]

theorem unpack_toFloat {n : Nat} (hpos : 0 < n) (hlt : n < 2 ^ 53) :
    n.toUInt64.toFloat.toModel.unpack =
      .finite .positive (lifted n) (-((52 - n.log2 : Nat) : Int)) (normal_lifted hpos hlt).pos := by
  have hword : n.toUInt64.toNat = n := by
    rw [Nat.toUInt64, UInt64.toNat_ofNat']
    omega
  have hnormal : UnpackedFloat.ofUInt64 .binary64 n.toUInt64 = UnpackedFloat.round .binary64 .positive n 0 := by
    have hcompare : compare (n : Int) 0 = .gt := compare_gt_iff_gt.mpr (by omega)
    rw [UnpackedFloat.ofUInt64, hword, UnpackedFloat.ofNat, UnpackedFloat.ofInt, UnpackedFloat.normalize,
      hcompare]
    rfl
  show (Float.Model.pack (UnpackedFloat.ofUInt64 .binary64 n.toUInt64)).unpack = _
  rw [hnormal, round_natural hpos hlt]
  exact unpack_pack (normal_lifted hpos hlt) .positive

theorem unpack_ofNat {n : Nat} (hpos : 0 < n) (hlt : n < 2 ^ 53) :
    (Float.ofNat n).toModel.unpack =
      .finite .positive (lifted n) (-((52 - n.log2 : Nat) : Int)) (normal_lifted hpos hlt).pos := by
  have hone : (Float.exactlyRepresentablePowersOfTen[0]).toModel.unpack =
      .finite .positive (2 ^ 52) (-52) (by decide) := rfl
  have hscientific : Float.ofNat n = n.toUInt64.toFloat * Float.exactlyRepresentablePowersOfTen[0] := by
    show Float.ofScientific n false 0 = _
    rw [Float.ofScientific, dif_pos ⟨hlt, by decide⟩]
    rfl
  rw [hscientific]
  show (Float.Model.pack (UnpackedFloat.mul .binary64 n.toUInt64.toFloat.toModel.unpack
    (Float.exactlyRepresentablePowersOfTen[0]).toModel.unpack)).unpack = _
  rw [unpack_toFloat hpos hlt, hone]
  have hround := round_of_normal (normal_lifted hpos hlt) (.positive * .positive) 52
  exact (congrArg (fun u => (Float.Model.pack u).unpack) hround).trans (unpack_pack (normal_lifted hpos hlt) .positive)

/-! ### Halves -/

theorem divCore_two {m : Nat} {e : Int} (h : Normal m e) (hlow : -1072 ≤ e) :
    divCore .binary64 m e (2 ^ 52) (-51) = (m * 2 ^ 1, e - 1 - (1 : Nat), .exact) := by
  have hlog : (2 ^ 52).log2 = 52 := Nat.log2_two_pow
  have htarget : min (e - -51) (Format.binary64.targetExponent (totalExponent m e - totalExponent (2 ^ 52) (-51))) =
      e - 1 - (1 : Nat) := by
    simp only [Format.targetExponent, totalExponent, h.bits, hlog, mantissaBits_binary64, Format.minExponent]
    omega
  have hshift : (e - -51 - (e - 1 - (1 : Nat))).toNat = 53 := by omega
  have hmul : m * 2 ^ 53 = m * 2 ^ 1 * 2 ^ 52 := by ring
  simp only [divCore, htarget, hshift]
  rw [Nat.shiftLeft_eq, hmul, Nat.mul_div_cancel _ (by decide), Nat.mul_mod_left]
  rfl

/-- The exponent goes down by one. -/
theorem unpack_half {x : Float} {s : Sign} {m : Nat} {e : Int} {hpos : 0 < m}
    (hx : x.toModel.unpack = .finite s m e hpos) (h : Normal m e) (hlow : -1072 ≤ e) :
    (x / 2).toModel.unpack = .finite s m (e - 1) hpos := by
  have hhalf : Normal m (e - 1) := ⟨h.bits, by omega, by have := h.high; omega⟩
  have htwo : (2 : Float).toModel.unpack = .finite .positive (2 ^ 52) (-51) (by decide) := rfl
  have hsign : s / Sign.positive = s := by cases s <;> rfl
  have hdiv : UnpackedFloat.div .binary64 (.finite s m e hpos) (.finite .positive (2 ^ 52) (-51) (by decide)) =
      roundWithAccuracy .binary64 s (m * 2 ^ 1) (e - 1 - (1 : Nat)) .exact := by
    show roundWithAccuracy .binary64 (s / Sign.positive) (divCore .binary64 m e (2 ^ 52) (-51)).1
      (divCore .binary64 m e (2 ^ 52) (-51)).2.1 (divCore .binary64 m e (2 ^ 52) (-51)).2.2 = _
    rw [divCore_two h hlow, hsign]
  show (Float.Model.pack (UnpackedFloat.div .binary64 x.toModel.unpack (2 : Float).toModel.unpack)).unpack = _
  rw [hx, htwo, hdiv, round_of_normal hhalf s 1]
  exact unpack_pack hhalf s

theorem rational?_of_unpack {x : Float} {s : Sign} {m : Nat} {e : Int} {hpos : 0 < m}
    (hx : x.toModel.unpack = .finite s m e hpos) : rational? x = some (s.apply (m : Int) * (2 : ℚ) ^ e) := by
  rw [rational?, hx]

theorem unpack_neg {x : Float} {s : Sign} {m : Nat} {e : Int} (h : Normal m e)
    (hx : x.toModel.unpack = .finite s m e h.pos) : x.neg.toModel.unpack = .finite (-s) m e h.pos := by
  show (Float.Model.pack x.toModel.unpack.neg).unpack = _
  rw [hx]
  exact unpack_pack h (-s)

theorem value_half (n : Nat) :
    ((lifted n : Int) : ℚ) * 2 ^ (-((52 - n.log2 : Nat) : Int) - 1) = (n : ℚ) / 2 := by
  rw [zpow_sub_one₀ two_ne_zero, ← mul_assoc, value_lifted, div_eq_mul_inv]

/-- Half of an integer is a double that stands for just that. -/
theorem rational?_half {n : Int} (hlt : n.natAbs < 2 ^ 53) :
    rational? (Float.ofInt n / 2) = some ((n : ℚ) / 2) := by
  cases n with
  | ofNat k =>
    rcases Nat.eq_zero_or_pos k with rfl | hpos
    · have hzero : ((Int.ofNat 0 : Int) : ℚ) / 2 = 0 := by norm_num
      rw [hzero]
      rfl
    · have hnormal := normal_lifted hpos hlt
      have hunpack := unpack_half (unpack_ofNat hpos hlt) hnormal (by omega)
      show rational? (Float.ofNat k / 2) = _
      rw [rational?_of_unpack hunpack, Sign.apply, value_half]
      rfl
  | negSucc k =>
    have hnormal := normal_lifted k.succ_pos hlt
    have hunpack := unpack_half (unpack_neg hnormal (unpack_ofNat k.succ_pos hlt)) hnormal (by omega)
    have hsign : -Sign.positive = Sign.negative := rfl
    show rational? ((Float.ofNat k.succ).neg / 2) = _
    rw [rational?_of_unpack hunpack, hsign, Sign.apply, Int.cast_neg, neg_mul, value_half, Int.cast_negSucc, neg_div]

end Number
end GridFlight
