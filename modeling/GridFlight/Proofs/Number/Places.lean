import GridFlight.Number.Literal
import GridFlight.Proofs.Number.Rounding
import GridFlight.Proofs.Number.Signed
import GridFlight.Proofs.Text.Tokens

/-! Decimal forms of binary floating-point data. Whatever the datum is, its form is a token that reads back as a
    literal: no number and the infinities as themselves, and anything finite with its sign and the digits that were
    written. -/

namespace GridFlight
namespace Number

/-! ### Positional notation -/

theorem digitsValue_repr (n : Nat) : digitsValue n.repr.toList = n := by
  rw [digitsValue_eq_ofDigitChars, Nat.toList_repr, Nat.ofDigitChars_ten_toDigits]

theorem digitsValue_zeros_append (zeros : Nat) (cs : List Char) :
    digitsValue (List.replicate zeros '0' ++ cs) = digitsValue cs := by
  induction zeros with
  | zero => rfl
  | succ zeros ih => exact ih

/-- The digits before and behind the point. -/
structure Placed (n places : Nat) (whole fraction : List Char) : Prop where
  text : (positional n places).toList = whole ++ if places = 0 then [] else '.' :: fraction
  digits : ∀ c ∈ whole ++ fraction, c.isDigit = true
  value : digitsValue (whole ++ fraction) = n
  length_fraction : fraction.length = places
  width : whole.length + places = max (places + 1) n.repr.length

theorem exists_placed (n places : Nat) : ∃ whole fraction, Placed n places whole fraction := by
  let padded := List.replicate (places + 1 - n.repr.length) '0' ++ n.repr.toList
  have hlength : padded.length = max (places + 1) n.repr.length := by
    simp only [padded, List.length_append, List.length_replicate, String.length_toList]
    omega
  refine ⟨padded.take (padded.length - places), padded.drop (padded.length - places), ?_, ?_, ?_, ?_, ?_⟩
  · rw [positional]
    split
    · next hzero =>
      have hpos := length_repr_pos n
      have hpadded : padded = n.repr.toList := by
        simp only [padded, hzero, Nat.sub_eq_zero_of_le hpos, List.replicate_zero, List.nil_append]
      rw [hpadded, hzero, Nat.sub_zero, List.take_length, List.append_nil]
    · exact String.toList_ofList
  · rw [List.take_append_drop]
    intro c hc
    rcases List.mem_append.mp hc with hzero | hdigit
    · rw [List.eq_of_mem_replicate hzero]
      rfl
    · exact isDigit_of_mem_repr hdigit
  · rw [List.take_append_drop, digitsValue_zeros_append, digitsValue_repr]
  · rw [List.length_drop]
    omega
  · rw [List.length_take]
    omega

namespace Placed

variable {n places : Nat} {whole fraction : List Char}

theorem exists_digit (h : Placed n places whole fraction) : ∃ c cs, whole = c :: cs ∧ c.isDigit = true := by
  have hwidth := h.width
  cases whole with
  | nil =>
    rw [List.length_nil] at hwidth
    omega
  | cons c cs => exact ⟨c, cs, rfl, h.digits c (List.mem_append_left _ List.mem_cons_self)⟩

end Placed

theorem exists_positional (n places : Nat) : ∃ c cs, (positional n places).toList = c :: cs ∧ c.isDigit = true := by
  obtain ⟨whole, fraction, h⟩ := exists_placed n places
  obtain ⟨c, cs, rfl, hc⟩ := h.exists_digit
  exact ⟨c, _, h.text, hc⟩

theorem positional_visible (n places : Nat) : ∀ c ∈ (positional n places).toList, Text.isVisible c = true := by
  obtain ⟨whole, fraction, h⟩ := exists_placed n places
  have hdigits : ∀ c ∈ whole ++ fraction, Text.isVisible c = true := fun c hc =>
    Text.isVisible_of_isDigit (h.digits c hc)
  intro c hc
  rw [h.text, List.mem_append] at hc
  rcases hc with hwhole | hrest
  · exact hdigits c (List.mem_append_left _ hwhole)
  · split at hrest
    · cases hrest
    · rcases List.mem_cons.mp hrest with rfl | hfraction
      · rfl
      · exact hdigits c (List.mem_append_right _ hfraction)

theorem length_positional {n places : Nat} (hplaces : places ≠ 0) (h : n < 10 ^ (places + 1)) :
    (positional n places).length = places + 2 := by
  obtain ⟨whole, fraction, hplaced⟩ := exists_placed n places
  have hdigits := (Nat.length_repr_le_iff (Nat.succ_pos places)).mpr h
  have hwidth := hplaced.width
  rw [← String.length_toList, hplaced.text, if_neg hplaces, List.length_append, List.length_cons,
    hplaced.length_fraction]
  omega

/-! ### Reading -/

namespace Literal

theorem toLower_of_isDigit {c : Char} (h : c.isDigit = true) : c.toLower = c := by
  have hdigit := (Char.isDigit_iff_toNat.mp h).2
  have hnine : '9'.toNat = 57 := rfl
  have hcapital : 'A'.val.toNat = 65 := rfl
  have hvalue : c.val.toNat = c.toNat := rfl
  refine dif_neg fun hupper => ?_
  have hlow := UInt32.le_iff_toNat_le.mp hupper.1
  omega

/-- An unsigned literal that starts with a digit is a decimal. -/
theorem readUnsigned?_of_digit (negative : Bool) {c : Char} (h : c.isDigit = true) (cs : List Char) :
    readUnsigned? negative (c :: cs) = readDecimal? negative (c :: cs) := by
  have hother : ∀ d ds, d.isDigit = false → (c :: cs).map Char.toLower ≠ d :: ds := by
    rintro d ds hd heq
    rw [List.map_cons, toLower_of_isDigit h] at heq
    rw [(List.cons.inj heq).1, hd] at h
    cases h
  have hinf : "inf".toList = ['i', 'n', 'f'] := rfl
  have hinfinity : "infinity".toList = ['i', 'n', 'f', 'i', 'n', 'i', 't', 'y'] := rfl
  have hnan : "nan".toList = ['n', 'a', 'n'] := rfl
  simp only [readUnsigned?, hinf, hinfinity, hnan]
  rw [if_neg (not_or.mpr ⟨hother 'i' _ rfl, hother 'i' _ rfl⟩), if_neg (hother 'n' _ rfl)]

/-- A literal behind the sign that is written for it. -/
theorem read?_signText (negative : Bool) {c : Char} (hminus : c ≠ '-') (hplus : c ≠ '+') (cs : List Char) :
    read? ((signText negative).toList ++ c :: cs) = readUnsigned? negative (c :: cs) := by
  cases negative with
  | true => rfl
  | false =>
    have hsign : (signText false).toList ++ c :: cs = c :: cs := rfl
    rw [hsign]
    unfold read?
    split
    · next heq => exact absurd (List.cons.inj heq).1 hminus
    · next heq => exact absurd (List.cons.inj heq).1 hplus
    · rfl

/-- Positional digits and what is behind them: nothing or an exponent. -/
theorem readDecimal?_positional (negative : Bool) (n places : Nat) {rest : List Char}
    (hrest : rest = [] ∨ ∃ cs, rest = 'e' :: cs) :
    readDecimal? negative ((positional n places).toList ++ rest) =
      (readExponent? rest).map fun e => .finite negative n (e - places) := by
  obtain ⟨whole, fraction, h⟩ := exists_placed n places
  have hnone : rest.takeWhile Char.isDigit = [] ∧ rest.dropWhile Char.isDigit = rest := by
    rcases hrest with rfl | ⟨cs, rfl⟩ <;> exact ⟨rfl, rfl⟩
  have hwhole : ∀ c ∈ whole, c.isDigit = true := fun c hc => h.digits c (List.mem_append_left _ hc)
  have hfraction : ∀ c ∈ fraction, c.isDigit = true := fun c hc => h.digits c (List.mem_append_right _ hc)
  have hsome : (whole.isEmpty && fraction.isEmpty) = false := by
    obtain ⟨c, cs, rfl, -⟩ := h.exists_digit
    rfl
  have hlength := h.length_fraction
  rw [h.text]
  split
  · next hzero =>
    obtain rfl : fraction = [] := List.eq_nil_of_length_eq_zero (hlength.trans hzero)
    have htake : (whole ++ [] ++ rest).takeWhile Char.isDigit = whole := by
      rw [List.append_nil, List.takeWhile_append_of_pos hwhole, hnone.1, List.append_nil]
    have hdrop : (whole ++ [] ++ rest).dropWhile Char.isDigit = rest := by
      rw [List.append_nil, List.dropWhile_append_of_pos hwhole, hnone.2]
    simp only [readDecimal?, htake, hdrop]
    split
    · rcases hrest with hnil | ⟨cs, hexponent⟩
      · cases hnil
      · cases hexponent
    · simp only [hsome, h.value, hzero]
      rfl
  · have htake : (whole ++ '.' :: fraction ++ rest).takeWhile Char.isDigit = whole := by
      rw [List.append_assoc, List.takeWhile_append_of_pos hwhole]
      simp
    have hdrop : (whole ++ '.' :: fraction ++ rest).dropWhile Char.isDigit = '.' :: (fraction ++ rest) := by
      rw [List.append_assoc, List.dropWhile_append_of_pos hwhole]
      rfl
    simp only [readDecimal?, htake, hdrop, List.takeWhile_append_of_pos hfraction,
      List.dropWhile_append_of_pos hfraction, hnone, List.append_nil, hsome, h.value, hlength]
    rfl

theorem readExponent?_writeInt (e : Int) : readExponent? ('e' :: (writeInt e).toList) = some e := by
  rw [readExponent?, if_pos (Or.inl rfl), readInt?_writeInt]

end Literal

/-! ### Forms -/

theorem toString_eq_writeInt (n : Int) : toString n = writeInt n := by
  cases n with
  | ofNat n => rfl
  | negSucc n => exact (writeInt_of_neg (Int.negSucc_lt_zero n)).symm

theorem writeInt_visible (n : Int) : ∀ c ∈ (writeInt n).toList, Text.isVisible c = true := by
  intro c hc
  rcases mem_writeInt hc with rfl | hdigit
  · rfl
  · exact Text.isVisible_of_isDigit hdigit

theorem length_writeInt_le {n : Int} (h : n.natAbs < 100) : (writeInt n).length ≤ 3 := by
  have hdigits : n.natAbs.repr.length ≤ 2 := (Nat.length_repr_le_iff (by decide)).mpr h
  rcases Int.lt_or_le n 0 with hneg | hnonneg
  · have hminus : "-".length = 1 := rfl
    rw [writeInt_of_neg hneg, String.length_append]
    omega
  · rw [writeInt_of_nonneg hnonneg]
    omega

theorem signText_visible (negative : Bool) : ∀ c ∈ (signText negative).toList, Text.isVisible c = true := by
  cases negative <;> exact List.all_eq_true.mp rfl

/-- What is said of a datum by a number of digits and a power of ten. -/
def Datum.rounded (digits : Nat → Int → Nat × Int) : Datum → Literal
  | .nan => .nan
  | .infinite negative => .infinite negative
  | .finite negative m q => .finite negative (digits m q).1 (digits m q).2

/-- The forms of the numbers in a payload: with a number of places, or with three digits and an exponent. -/
inductive Form where
  | places (count : Nat)
  | exponent
  deriving DecidableEq, Repr

namespace Form

def write : Form → Datum → String
  | places count => Datum.fixed count
  | exponent => Datum.scientific 2

/-- The digits that are written of a value, and the power of ten of the last. -/
def digits : Form → Nat → Int → Nat × Int
  | places count, m, q => (roundScaled (m * Nat.pow 10 count) 1 (-q), -count)
  | exponent, m, q => ((Datum.significant 2 m q).1, (Datum.significant 2 m q).2 - 2)

theorem write_nan (f : Form) : f.write .nan = "NaN" := by cases f <;> rfl

theorem write_infinite (f : Form) (negative : Bool) : f.write (.infinite negative) = signText negative ++ "inf" := by
  cases f <;> rfl

/-- Anything finite is written as a sign, digits with a point among them, and nothing or an exponent behind them. -/
theorem write_finite (f : Form) (negative : Bool) (m : Nat) (q : Int) : ∃ n places rest e,
    (f.write (.finite negative m q)).toList = (signText negative).toList ++ ((positional n places).toList ++ rest) ∧
      (rest = [] ∨ ∃ cs, rest = 'e' :: cs) ∧ (∀ c ∈ rest, Text.isVisible c = true) ∧
      Literal.readExponent? rest = some e ∧ f.digits m q = (n, e - places) := by
  cases f with
  | places count =>
    refine ⟨roundScaled (m * Nat.pow 10 count) 1 (-q), count, [], 0, ?_, Or.inl rfl, nofun, rfl, ?_⟩
    · rw [write, Datum.fixed, String.toList_append, List.append_nil]
    · rw [digits, Int.zero_sub]
  | exponent =>
    refine ⟨_, 2, 'e' :: (writeInt (Datum.significant 2 m q).2).toList, _, ?_, Or.inr ⟨_, rfl⟩, ?_,
      Literal.readExponent?_writeInt _, rfl⟩
    · rw [write, Datum.scientific_finite, toString_eq_writeInt]
      simp
    · intro c hc
      rcases List.mem_cons.mp hc with rfl | hexponent
      · rfl
      · exact writeInt_visible _ c hexponent

/-- Whatever a datum is, its form is a token. -/
theorem token_write (f : Form) (d : Datum) : Text.Token (f.write d) := by
  cases d with
  | nan =>
    rw [write_nan]
    exact ⟨by decide, List.all_eq_true.mp rfl⟩
  | infinite negative =>
    rw [write_infinite]
    cases negative <;> exact ⟨by decide, List.all_eq_true.mp rfl⟩
  | finite negative m q =>
    obtain ⟨n, places, rest, e, htext, -, hrest, -⟩ := f.write_finite negative m q
    refine ⟨?_, fun c hc => ?_⟩
    · obtain ⟨c, cs, hdigits, -⟩ := exists_positional n places
      rw [htext, hdigits]
      simp
    · rw [htext, List.mem_append, List.mem_append] at hc
      rcases hc with hsign | hdigits | htail
      · exact signText_visible negative c hsign
      · exact positional_visible n places c hdigits
      · exact hrest c htail

/-- The form of a datum reads back: what it says is no number, an infinity of the same sign, or the digits and the power
    of ten with the sign of the datum. -/
theorem read?_write (f : Form) (d : Datum) : Literal.read? (f.write d).toList = some (d.rounded f.digits) := by
  cases d with
  | nan =>
    rw [write_nan]
    rfl
  | infinite negative =>
    rw [write_infinite]
    cases negative <;> rfl
  | finite negative m q =>
    obtain ⟨n, places, rest, e, htext, hshape, -, hread, hdigits⟩ := f.write_finite negative m q
    have hdecimal := Literal.readDecimal?_positional negative n places hshape
    obtain ⟨c, cs, htop, hc⟩ := exists_positional n places
    have hminus : c ≠ '-' := by
      rintro rfl
      cases hc
    have hplus : c ≠ '+' := by
      rintro rfl
      cases hc
    rw [htop, List.cons_append, hread] at hdecimal
    rw [htext, htop, List.cons_append, Literal.read?_signText negative hminus hplus,
      Literal.readUnsigned?_of_digit negative hc, hdecimal, Datum.rounded, hdigits]
    rfl

/-- In single precision a number with an exponent is at most nine characters: a sign, three digits and their point, and
    a signed exponent of two digits. -/
theorem length_write_exponent {d : Datum} (h : d.WithinSingle) : (exponent.write d).length ≤ 9 := by
  cases d with
  | nan => decide
  | infinite negative => cases negative <;> decide
  | finite negative m q =>
    have hsign : (signText negative).length ≤ 1 := by cases negative <;> decide
    have hpoint : (positional (Datum.significant 2 m q).1 2).length = 4 :=
      length_positional (by decide) (Datum.significant_lt 2 m q)
    obtain ⟨hlow, hhigh⟩ := Datum.significant_exponent 2 h
    have hexponent := length_writeInt_le (n := (Datum.significant 2 m q).2) (by omega)
    rw [write, Datum.scientific_finite, toString_eq_writeInt]
    simp only [String.length_append]
    have he : "e".length = 1 := rfl
    omega

end Form
end Number
end GridFlight
