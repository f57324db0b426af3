import GridFlight.Number.Decimal
import Mathlib.Algebra.Order.Field.Power
import Mathlib.Data.Int.Log
import Mathlib.Data.Rat.Floor
import Mathlib.Tactic.NormNum
import Mathlib.Tactic.Positivity

/-! The digits of a number written with an exponent. The exponent is the decimal logarithm of the value, or one more
    where the digits round up to the next power of ten; there are always as many digits as are asked for. -/

namespace GridFlight
namespace Number

/-! ### Quotients -/

section

variable {num den k : Nat}

theorem le_roundDiv (hden : 0 < den) (h : (k : ℚ) ≤ num / den) : k ≤ roundDiv num den := by
  rw [le_div_iff₀ (Nat.cast_pos.mpr hden)] at h
  have hquotient : k ≤ num / den := (Nat.le_div_iff_mul_le hden).mpr (by exact_mod_cast h)
  simp only [roundDiv]
  split <;> [skip; split] <;> omega

theorem roundDiv_le (hden : 0 < den) (h : (num / den : ℚ) ≤ k) : roundDiv num den ≤ k := by
  rw [div_le_iff₀ (Nat.cast_pos.mpr hden)] at h
  have hmost : num ≤ k * den := by exact_mod_cast h
  rcases Nat.lt_or_ge (num / den) k with hbelow | habove
  · simp only [roundDiv]
    split <;> [skip; split] <;> omega
  · -- The quotient is then `k` itself, without a rest.
    have hexact : num = k * den := Nat.le_antisymm hmost ((Nat.le_div_iff_mul_le hden).mp habove)
    subst hexact
    simp only [roundDiv, Nat.mul_mod_left, Nat.mul_zero, if_pos hden, Nat.mul_div_cancel _ hden, le_refl]

variable {e : Int}

theorem exists_neg_of_not_nonneg (h : ¬0 ≤ e) : ∃ n : Nat, e = -n := ⟨(-e).toNat, by omega⟩

/-- The multiple of a power of ten next to a quotient is the integer next to another quotient. -/
theorem exists_roundDiv (num : Nat) (hden : 0 < den) (e : Int) :
    ∃ a b, 0 < b ∧ roundDecimal num den e = roundDiv a b ∧ (a / b : ℚ) = num / den / 10 ^ e := by
  unfold roundDecimal
  split
  · next he =>
    obtain ⟨n, rfl⟩ := Int.eq_ofNat_of_zero_le he
    refine ⟨_, _, Nat.mul_pos hden (Nat.pow_pos (by decide)), rfl, ?_⟩
    rw [zpow_natCast, div_div]
    norm_num
  · next he =>
    obtain ⟨n, rfl⟩ := exists_neg_of_not_nonneg he
    refine ⟨_, _, hden, rfl, ?_⟩
    rw [zpow_neg, zpow_natCast, div_inv_eq_mul, div_mul_eq_mul_div]
    norm_num

theorem le_roundDecimal (hden : 0 < den) (h : (k : ℚ) * 10 ^ e ≤ num / den) : k ≤ roundDecimal num den e := by
  obtain ⟨a, b, hb, hround, hquotient⟩ := exists_roundDiv num hden e
  rw [hround]
  exact le_roundDiv hb (hquotient ▸ (le_div_iff₀ (zpow_pos (by norm_num) e)).mpr h)

theorem roundDecimal_le (hden : 0 < den) (h : num / den ≤ (k : ℚ) * 10 ^ e) : roundDecimal num den e ≤ k := by
  obtain ⟨a, b, hb, hround, hquotient⟩ := exists_roundDiv num hden e
  rw [hround]
  exact roundDiv_le hb (hquotient ▸ (div_le_iff₀ (zpow_pos (by norm_num) e)).mpr h)

/-! ### The power of ten below a quotient -/

theorem pow_le_quotient_iff (hden : 0 < den) :
    (if 0 ≤ e then den * Nat.pow 10 e.toNat ≤ num else den ≤ num * Nat.pow 10 (-e).toNat) ↔
      (10 : ℚ) ^ e ≤ num / den := by
  rw [le_div_iff₀ (Nat.cast_pos.mpr hden)]
  split
  · next he =>
    obtain ⟨n, rfl⟩ := Int.eq_ofNat_of_zero_le he
    rw [zpow_natCast, mul_comm]
    exact_mod_cast Iff.rfl
  · next he =>
    obtain ⟨n, rfl⟩ := exists_neg_of_not_nonneg he
    rw [zpow_neg, zpow_natCast, ← div_eq_inv_mul, div_le_iff₀ (by positivity), neg_neg, Int.toNat_natCast]
    exact_mod_cast Iff.rfl

theorem length_repr_pos (n : Nat) : 0 < n.repr.length := by
  rw [← String.length_toList, Nat.toList_repr]
  exact List.length_pos_iff.mpr Nat.toDigits_ne_nil

theorem lt_pow_length_repr (n : Nat) : n < 10 ^ n.repr.length :=
  (Nat.length_repr_le_iff (length_repr_pos n)).mp (Nat.le_refl _)

theorem pow_le_of_length_repr {n : Nat} (h : 0 < n) : 10 ^ (n.repr.length - 1) ≤ n := by
  rcases Nat.eq_zero_or_pos (n.repr.length - 1) with hzero | hpos
  · rw [hzero]
    exact h
  · refine Nat.not_lt.mp fun hlt => ?_
    have hlength := (Nat.length_repr_le_iff hpos).mpr hlt
    omega

/-- The numbers of digits tell the power of ten up to one. -/
theorem quotient_between (hnum : 0 < num) (hden : 0 < den) :
    let guess : Int := (num.repr.length : Int) - den.repr.length
    (10 : ℚ) ^ (guess - 1) ≤ num / den ∧ (num / den : ℚ) < 10 ^ (guess + 1) := by
  intro guess
  have hnumLow : (10 : ℚ) ^ (num.repr.length - 1) ≤ num := by exact_mod_cast pow_le_of_length_repr hnum
  have hnumHigh : (num : ℚ) < 10 ^ num.repr.length := by exact_mod_cast lt_pow_length_repr num
  have hdenLow : (10 : ℚ) ^ (den.repr.length - 1) ≤ den := by exact_mod_cast pow_le_of_length_repr hden
  have hdenHigh : (den : ℚ) < 10 ^ den.repr.length := by exact_mod_cast lt_pow_length_repr den
  have hnumLength := length_repr_pos num
  have hdenLength := length_repr_pos den
  have hpos : (0 : ℚ) < den := Nat.cast_pos.mpr hden
  constructor
  · calc (10 : ℚ) ^ (guess - 1) = 10 ^ (num.repr.length - 1) / 10 ^ den.repr.length := by
          rw [← zpow_natCast, ← zpow_natCast, ← zpow_sub₀ (by norm_num)]
          congr 1
          omega
      _ ≤ num / den := div_le_div₀ (Nat.cast_nonneg num) hnumLow hpos hdenHigh.le
  · calc (num / den : ℚ) < 10 ^ num.repr.length / 10 ^ (den.repr.length - 1) :=
          div_lt_div₀ hnumHigh hdenLow (by positivity) (by positivity)
      _ = 10 ^ (guess + 1) := by
          rw [← zpow_natCast, ← zpow_natCast, ← zpow_sub₀ (by norm_num)]
          congr 1
          omega

/-- The power of ten at or next below a quotient. -/
theorem decade_eq_log (hnum : 0 < num) (hden : 0 < den) : decade num den = Int.log 10 (num / den : ℚ) := by
  have hpos : (0 : ℚ) < num / den := div_pos (Nat.cast_pos.mpr hnum) (Nat.cast_pos.mpr hden)
  obtain ⟨hlow, hhigh⟩ := quotient_between hnum hden
  have hlog : ∀ e : Int, (10 : ℚ) ^ e ≤ num / den ↔ e ≤ Int.log 10 (num / den : ℚ) := fun e => by
    exact_mod_cast Int.zpow_le_iff_le_log (b := 10) (by decide) hpos
  rw [hlog] at hlow
  rw [← not_le, hlog] at hhigh
  simp only [decade, pow_le_quotient_iff hden, hlog]
  split <;> omega

end

/-! ### Digits and an exponent -/

namespace Datum

variable {m : Nat} {q : Int}

theorem quotient_pos (h : 0 < m) : 0 < (quotient m q).1 ∧ 0 < (quotient m q).2 := by
  unfold quotient
  split
  · exact ⟨Nat.mul_pos h (Nat.pow_pos (by decide)), Nat.one_pos⟩
  · exact ⟨h, Nat.pow_pos (by decide)⟩

theorem quotient_eq (m : Nat) (q : Int) : ((quotient m q).1 / (quotient m q).2 : ℚ) = m * 2 ^ q := by
  unfold quotient
  split
  · next hq =>
    obtain ⟨n, rfl⟩ := Int.eq_ofNat_of_zero_le hq
    simp
  · next hq =>
    obtain ⟨n, rfl⟩ := exists_neg_of_not_nonneg hq
    simp [div_eq_mul_inv]

/-- The digits and the exponent that a value is written with: `places + 1` digits, or zero. -/
def significant (places m : Nat) (q : Int) : Nat × Int :=
  if m = 0 then (0, 0)
  else
    let (num, den) := quotient m q
    let e := decade num den
    let digits := roundDecimal num den (e - places)
    if digits = Nat.pow 10 (places + 1) then (Nat.pow 10 places, e + 1) else (digits, e)

theorem scientific_finite (places : Nat) (negative : Bool) (m : Nat) (q : Int) :
    scientific places (.finite negative m q) = signText negative ++ positional (significant places m q).1 places ++
      "e" ++ toString (significant places m q).2 := by
  simp only [scientific, significant]
  split
  · have hzero : "e" ++ toString (0 : Int) = "e0" := rfl
    rw [← hzero, ← String.append_assoc]
  · rfl

/-- As many digits as asked for; the exponent is the logarithm of the value, or one more. -/
theorem significant_bounds (places : Nat) (q : Int) (h : 0 < m) :
    let log := Int.log 10 (m * 2 ^ q : ℚ)
    10 ^ places ≤ (significant places m q).1 ∧ (significant places m q).1 < 10 ^ (places + 1) ∧
      ((significant places m q).2 = log ∨ (significant places m q).2 = log + 1) := by
  intro log
  obtain ⟨hnum, hden⟩ := quotient_pos (q := q) h
  have hvalue := quotient_eq m q
  have hpos : (0 : ℚ) < m * 2 ^ q := mul_pos (Nat.cast_pos.mpr h) (zpow_pos (by norm_num) q)
  have hlow : (10 : ℚ) ^ log ≤ (quotient m q).1 / (quotient m q).2 := by
    rw [hvalue]
    exact_mod_cast Int.zpow_log_le_self (b := 10) (by decide) hpos
  have hhigh : ((quotient m q).1 / (quotient m q).2 : ℚ) < 10 ^ (log + 1) := by
    rw [hvalue]
    exact_mod_cast Int.lt_zpow_succ_log_self (b := 10) (by decide) (m * 2 ^ q : ℚ)
  have hlog : decade (quotient m q).1 (quotient m q).2 = log := by rw [decade_eq_log hnum hden, hvalue]
  simp only [significant, if_neg (Nat.pos_iff_ne_zero.mp h), hlog]
  have hscaled : ∀ n : Nat, ((10 ^ n : Nat) : ℚ) * 10 ^ (log - places) = 10 ^ (log + (n - places)) := fun n => by
    rw [Nat.cast_pow, ← zpow_natCast, Nat.cast_ofNat, ← zpow_add₀ (by norm_num)]
    congr 1
    omega
  have hleast : 10 ^ places ≤ roundDecimal (quotient m q).1 (quotient m q).2 (log - places) := by
    refine le_roundDecimal hden ?_
    rw [hscaled, Int.sub_self, Int.add_zero]
    exact hlow
  have hmost : roundDecimal (quotient m q).1 (quotient m q).2 (log - places) ≤ 10 ^ (places + 1) := by
    refine roundDecimal_le hden ?_
    rw [hscaled, Nat.cast_succ, add_sub_cancel_left]
    exact hhigh.le
  split
  · exact ⟨Nat.le_refl _, Nat.pow_lt_pow_right (by decide) (Nat.lt_succ_self places), Or.inr rfl⟩
  · next hround => exact ⟨hleast, Nat.lt_of_le_of_ne hmost hround, Or.inl rfl⟩

theorem significant_lt (places m : Nat) (q : Int) : (significant places m q).1 < 10 ^ (places + 1) := by
  rcases Nat.eq_zero_or_pos m with rfl | hpos
  · exact Nat.pow_pos (by decide)
  · exact (significant_bounds places q hpos).2.1

/-! ### Single precision -/

/-- A finite datum has at most 24 bits, and its last place is in the range of single precision. -/
def WithinSingle : Datum → Prop
  | .finite _ m q => m < 2 ^ 24 ∧ -149 ≤ q ∧ q ≤ 104
  | _ => True

theorem withinSingle_datum (bits : Nat) : (Layout.single.datum bits).WithinSingle := by
  have hlowest : Layout.single.lowest = -149 := rfl
  have hfraction : bits % Nat.pow 2 Layout.single.fraction < 8388608 := Nat.mod_lt _ (by decide)
  have hexponent : bits / Nat.pow 2 Layout.single.fraction % Nat.pow 2 Layout.single.exponent < 256 :=
    Nat.mod_lt _ (by decide)
  have hbits : Nat.pow 2 Layout.single.fraction = 8388608 := rfl
  have hspecial : Nat.pow 2 Layout.single.exponent - 1 = 255 := rfl
  unfold Layout.datum
  dsimp only
  generalize bits % Nat.pow 2 Layout.single.fraction = fraction at hfraction ⊢
  generalize bits / Nat.pow 2 Layout.single.fraction % Nat.pow 2 Layout.single.exponent = exponent at hexponent ⊢
  split
  · split <;> trivial
  · next hfinite =>
    rw [hspecial] at hfinite
    split <;> simp only [WithinSingle, hlowest, hbits] <;> omega

/-- The exponents of single precision, and of what is rounded up from there, have two digits at most. -/
theorem significant_exponent {m : Nat} {q : Int} {negative : Bool} (places : Nat)
    (h : (Datum.finite negative m q).WithinSingle) :
    -45 ≤ (significant places m q).2 ∧ (significant places m q).2 ≤ 39 := by
  obtain ⟨hm, hlow, hhigh⟩ := h
  rcases Nat.eq_zero_or_pos m with rfl | hpos
  · exact ⟨by simp [significant], by simp [significant]⟩
  · obtain ⟨-, -, hexponent⟩ := significant_bounds places q hpos
    have hvalue : (0 : ℚ) < m * 2 ^ q := mul_pos (Nat.cast_pos.mpr hpos) (zpow_pos (by norm_num) q)
    have hleast : -45 ≤ Int.log 10 (m * 2 ^ q : ℚ) := by
      rw [← Int.zpow_le_iff_le_log (by decide) hvalue]
      calc ((10 : Nat) : ℚ) ^ (-45 : Int) ≤ 1 * 2 ^ (-149 : Int) := by norm_num
        _ ≤ m * 2 ^ q := by
          gcongr
          · exact_mod_cast hpos
          · norm_num
    have hmost : Int.log 10 (m * 2 ^ q : ℚ) < 39 := by
      rw [← Int.lt_zpow_iff_log_lt (by decide) hvalue]
      calc (m * 2 ^ q : ℚ) ≤ 2 ^ 24 * 2 ^ (104 : Int) := by
            gcongr
            · exact_mod_cast hm.le
            · norm_num
        _ < ((10 : Nat) : ℚ) ^ (39 : Int) := by norm_num
    omega

end Datum

end Number
end GridFlight
