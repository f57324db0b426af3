import GridFlight.World
import Mathlib.Algebra.Group.Nat.Defs
import Mathlib.Data.List.Basic

/-! Cells drawn at random. A cell that is drawn lies strictly inside the border, and a window has such cells exactly
    when one is drawn at all. Any cells inside the border can be drawn, one after the other. A search takes the first of
    the cells drawn that is free, and finds none only if all of them are occupied. -/

namespace GridFlight

/-! ### Cells inside the border -/

/-- Strictly inside the border of a window. -/
def Window.Inside (w : Window) (c : Cell) : Prop :=
  (0 < c.x.toInt ∧ c.x.toInt < w.width.toInt - 1) ∧ 0 < c.y.toInt ∧ c.y.toInt < w.height.toInt - 1

instance (w : Window) (c : Cell) : Decidable (w.Inside c) :=
  inferInstanceAs (Decidable ((0 < c.x.toInt ∧ c.x.toInt < w.width.toInt - 1) ∧
    0 < c.y.toInt ∧ c.y.toInt < w.height.toInt - 1))

/-- An integer drawn from a range that is not empty lies in it. -/
theorem Draws.int32_mem {low high : Int32} (h : low < high) (d : Draws) :
    low.toInt ≤ (d.int32 low high).1.toInt ∧ (d.int32 low high).1.toInt < high.toInt := by
  rw [Int32.lt_iff_toInt_lt] at h
  have hrange : 0 < (high.toInt - low.toInt).toNat := by omega
  have hword : ∀ d : Draws, ((fun d : Draws => (d.next32.1.toNat, d.next32.2)) d).1 < Nat.pow 2 32 :=
    fun d => d.next32.1.toNat_lt
  have hbelow := below_lt hrange hword patience d
  have hlow := low.le_toInt
  have hhigh := high.toInt_lt
  unfold int32
  generalize below 32 (high.toInt - low.toInt).toNat (fun d => (d.next32.1.toNat, d.next32.2)) patience d = drawn
    at hbelow ⊢
  obtain ⟨k, later⟩ := drawn
  dsimp only at hbelow ⊢
  rw [Int32.toInt_ofInt_of_le (by omega) (by omega)]
  omega

namespace Draws

/-- Scaling hits each number below the range, with less than the range to spare. -/
theorem exists_scaled {k range : Nat} (hk : k < range) (hrange : range ≤ 2 ^ 32) :
    ∃ word rest, word < 2 ^ 32 ∧ rest < range ∧ word * range = k * 2 ^ 32 + rest := by
  have hdiv := Nat.div_add_mod' (k * 2 ^ 32 + (range - 1)) range
  have hmod := Nat.mod_lt (k * 2 ^ 32 + (range - 1)) (Nat.zero_lt_of_lt hk)
  generalize (k * 2 ^ 32 + (range - 1)) / range = word at hdiv
  generalize (k * 2 ^ 32 + (range - 1)) % range = excess at hdiv hmod
  have hproduct : word * range = k * 2 ^ 32 + (range - 1 - excess) := by omega
  refine ⟨word, range - 1 - excess, ?_, by omega, hproduct⟩
  have hsmall : word * range < 2 ^ 32 * range := by omega
  exact Nat.lt_of_mul_lt_mul_right hsmall

theorem below_of_le {width range fuel : Nat} {next : Draws → Nat × Draws} {d : Draws}
    (h : (next d).1 * range % Nat.pow 2 width ≤ zone width range) :
    below width range next (fuel + 1) d = ((next d).1 * range / Nat.pow 2 width, (next d).2) := by
  rw [below]
  exact if_pos h

/-- Each integer of a range can be drawn. -/
theorem exists_word {low high n : Int32} (hlow : low ≤ n) (hhigh : n < high) :
    ∃ word, ∀ d : Draws, d.word d.drawn = word → d.int32 low high = (n, d.next32.2) := by
  rw [Int32.le_iff_toInt_le] at hlow
  rw [Int32.lt_iff_toInt_lt] at hhigh
  have hleast := low.le_toInt
  have hmost := high.toInt_lt
  obtain ⟨k, hk⟩ := Int.eq_ofNat_of_zero_le (Int.sub_nonneg.mpr hlow)
  obtain ⟨range, hrange⟩ := Int.eq_ofNat_of_zero_le (a := high.toInt - low.toInt) (by omega)
  have hbelow : k < range := by omega
  have hsize : range ≤ 2 ^ 32 := by omega
  obtain ⟨word, rest, hword, hrest, hproduct⟩ := exists_scaled hbelow hsize
  refine ⟨UInt32.ofNat word, fun d hd => ?_⟩
  have hzone : rest ≤ zone 32 range := by
    have hscale : range * 1 ≤ range * 2 ^ (32 - 1 - range.log2) :=
      Nat.mul_le_mul_left _ (Nat.one_le_two_pow)
    unfold zone
    rw [Nat.pow_eq]
    omega
  have hnext : d.next32.1.toNat = word := by
    rw [next32, hd, UInt32.toNat_ofNat_of_lt' hword]
  have hmod : (k * 2 ^ 32 + rest) % 2 ^ 32 = rest := by omega
  have hdiv : (k * 2 ^ 32 + rest) / 2 ^ 32 = k := by omega
  have hint : Int32.ofInt (low.toInt + k) = n := by
    rw [← hk, Int.add_comm, Int.sub_add_cancel, Int32.ofInt_toInt]
  rw [int32, hrange, Int.toNat_natCast, show patience = 65535 + 1 from rfl, below_of_le, hnext, hproduct, Nat.pow_eq,
    hdiv]
  · exact congrArg (·, d.next32.2) hint
  · rw [hnext, hproduct, Nat.pow_eq, hmod]
    exact hzone

end Draws

namespace Placement

variable {window : Window} {occupied : Cell → Bool} {d later : Draws} {c : Cell} {n : Nat}

/-- One less than a side on which cells are drawn is no overflow. -/
theorem toInt_pred {side : Int32} (h : ¬side < 3) : (side - 1).toInt = side.toInt - 1 := by
  rw [Int32.lt_iff_toInt_lt, show (3 : Int32).toInt = 3 from rfl] at h
  have hone : (1 : Int32).toInt = 1 := rfl
  refine Int32.toInt_sub_of_le side 1 (by decide) ?_
  rw [Int32.le_iff_toInt_le, hone]
  omega

/-- The range that a coordinate is drawn from is not empty. -/
theorem one_lt_pred {side : Int32} (h : ¬side < 3) : 1 < side - 1 := by
  have hpred := toInt_pred h
  rw [Int32.lt_iff_toInt_lt, show (3 : Int32).toInt = 3 from rfl] at h
  rw [Int32.lt_iff_toInt_lt, hpred, show (1 : Int32).toInt = 1 from rfl]
  omega

/-- On sides that are long enough a cell is drawn, and it is inside the border. -/
theorem exists_randomCell (h : ¬(window.width < 3 ∨ window.height < 3)) (d : Draws) :
    ∃ c later, randomCell window d = (some c, later) ∧ window.Inside c := by
  rw [randomCell, if_neg h]
  rw [not_or] at h
  have hx := Draws.int32_mem (one_lt_pred h.1) d
  generalize d.int32 1 (window.width - 1) = drawn at hx ⊢
  obtain ⟨x, between⟩ := drawn
  dsimp only
  have hy := Draws.int32_mem (one_lt_pred h.2) between
  generalize between.int32 1 (window.height - 1) = drawn at hy ⊢
  obtain ⟨y, later⟩ := drawn
  rw [toInt_pred h.1] at hx
  rw [toInt_pred h.2] at hy
  exact ⟨⟨x, y⟩, later, rfl, ⟨hx.1, hx.2⟩, hy.1, hy.2⟩

theorem inside_of_randomCell (h : randomCell window d = (some c, later)) : window.Inside c := by
  by_cases hsides : window.width < 3 ∨ window.height < 3
  · rw [randomCell, if_pos hsides] at h
    cases h
  · obtain ⟨drawn, rest, hdraw, hinside⟩ := exists_randomCell hsides d
    rw [hdraw] at h
    cases h
    exact hinside

theorem sides_of_inside (h : window.Inside c) : ¬(window.width < 3 ∨ window.height < 3) := by
  obtain ⟨⟨hleft, hright⟩, htop, hbottom⟩ := h
  rw [Int32.lt_iff_toInt_lt, Int32.lt_iff_toInt_lt, show (3 : Int32).toInt = 3 from rfl]
  omega

/-- No cell is drawn exactly where the window has none inside its border. -/
theorem randomCell_eq_none_iff : (randomCell window d).1 = none ↔ ∀ c, ¬window.Inside c := by
  by_cases hsides : window.width < 3 ∨ window.height < 3
  · exact iff_of_true (by rw [randomCell, if_pos hsides]) fun c hc => sides_of_inside hc hsides
  · obtain ⟨c, later, hdraw, hinside⟩ := exists_randomCell hsides d
    exact iff_of_false (by simp [hdraw]) fun hnone => hnone c hinside

/-- Each cell inside the border can be drawn. -/
theorem exists_words (h : window.Inside c) :
    ∃ x y, ∀ d : Draws, d.word d.drawn = x → d.word (d.drawn + 1) = y →
      randomCell window d = (some c, { d with drawn := d.drawn + 2 }) := by
  have hsides := sides_of_inside h
  obtain ⟨hwidth, hheight⟩ := not_or.mp hsides
  obtain ⟨⟨hleft, hright⟩, htop, hbottom⟩ := h
  rw [← toInt_pred hwidth, ← Int32.lt_iff_toInt_lt] at hright
  rw [← toInt_pred hheight, ← Int32.lt_iff_toInt_lt] at hbottom
  have hpositive : ∀ {n : Int32}, 0 < n.toInt → 1 ≤ n := fun h => Int32.le_iff_toInt_le.mpr h
  obtain ⟨x, hx⟩ := Draws.exists_word (hpositive hleft) hright
  obtain ⟨y, hy⟩ := Draws.exists_word (hpositive htop) hbottom
  refine ⟨x, y, fun d hdx hdy => ?_⟩
  rw [randomCell, if_neg hsides, hx d hdx]
  dsimp only
  rw [hy d.next32.2 hdy]
  rfl

/-! ### Searches -/

/-- The cells that are drawn in so many attempts. -/
def tries (window : Window) : Nat → Draws → List Cell
  | 0, _ => []
  | attempts + 1, d =>
    match randomCell window d with
    | (some c, d) => c :: tries window attempts d
    | (none, d) => tries window attempts d

theorem inside_of_mem_tries (h : c ∈ tries window n d) : window.Inside c := by
  induction n generalizing d with
  | zero => cases h
  | succ n ih =>
    unfold tries at h
    split at h
    · next drawn later hdraw =>
      rcases List.mem_cons.mp h with rfl | h
      · exact inside_of_randomCell hdraw
      · exact ih h
    · exact ih h

/-- Each attempt draws a cell if there is one inside the border. -/
theorem length_tries (h : ∃ c, window.Inside c) (n : Nat) (d : Draws) : (tries window n d).length = n := by
  induction n generalizing d with
  | zero => rfl
  | succ n ih =>
    unfold tries
    split
    · exact congrArg (· + 1) (ih _)
    · next later hdraw =>
      obtain ⟨c, hc⟩ := h
      have hnone : (randomCell window d).1 = none := by rw [hdraw]
      exact absurd hc (randomCell_eq_none_iff.mp hnone c)

/-- All sequences of cells inside the border can be drawn. -/
theorem exists_tries (cells : List Cell) (h : ∀ c ∈ cells, window.Inside c) :
    ∃ d, tries window cells.length d = cells := by
  suffices hwords : ∃ words : List UInt32, ∀ d : Draws,
      (∀ i < words.length, words[i]? = some (d.word (d.drawn + i))) → tries window cells.length d = cells by
    obtain ⟨words, hwords⟩ := hwords
    refine ⟨⟨fun i => words[i]?.getD 0, 0⟩, hwords _ fun i hi => ?_⟩
    simp [hi]
  induction cells with
  | nil => exact ⟨[], fun _ _ => rfl⟩
  | cons c cells ih =>
    obtain ⟨hc, hcells⟩ := List.forall_mem_cons.mp h
    obtain ⟨x, y, hdraw⟩ := exists_words hc
    obtain ⟨words, hwords⟩ := ih hcells
    refine ⟨x :: y :: words, fun d hd => ?_⟩
    have hx : d.word d.drawn = x := (Option.some.inj (hd 0 (by simp))).symm
    have hy : d.word (d.drawn + 1) = y := (Option.some.inj (hd 1 (by simp))).symm
    rw [List.length_cons, tries, hdraw d hx hy]
    refine congrArg (c :: ·) (hwords _ fun i hi => ?_)
    have hword := hd (i + 2) (by simpa using hi)
    rw [← Nat.add_assoc, Nat.add_right_comm] at hword
    exact hword

/-- A search takes the first free cell. -/
theorem search_eq_find? (window : Window) (occupied : Cell → Bool) (n : Nat) (d : Draws) :
    (search window occupied n d).1 = (tries window n d).find? fun c => !occupied c := by
  induction n generalizing d with
  | zero => rfl
  | succ n ih =>
    unfold search tries
    rcases randomCell window d with ⟨_ | c, later⟩
    · exact ih later
    · cases hc : occupied c with
      | true => simp [hc, ih]
      | false => simp [hc]

theorem inside_of_freeCell (h : freeCell window occupied d = (some c, later)) :
    window.Inside c ∧ occupied c = false := by
  have hfind := search_eq_find? window occupied maxAttempts d
  rw [freeCell] at h
  rw [h] at hfind
  exact ⟨inside_of_mem_tries (List.mem_of_find?_eq_some hfind.symm), by simpa using List.find?_some hfind.symm⟩

/-- A search in vain has come upon occupied cells only. -/
theorem occupied_of_freeCell (h : freeCell window occupied d = (none, later)) :
    ∀ c ∈ tries window maxAttempts d, occupied c = true := by
  have hfind := search_eq_find? window occupied maxAttempts d
  rw [freeCell] at h
  rw [h] at hfind
  simpa using hfind.symm

end Placement
end GridFlight
