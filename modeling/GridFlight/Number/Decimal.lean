import GridFlight.Number.Binary

/-! Decimal texts of binary floating-point data: a fixed number of places, a fixed number of digits with an
    exponent, and the fewest digits that read back. Every rounding is of the exact value, ties to even. -/

namespace GridFlight
namespace Number

def signText (negative : Bool) : String := if negative then "-" else ""

/-- `n / 10 ^ places` in positional notation. -/
def positional (n places : Nat) : String :=
  let digits := n.repr
  if places = 0 then digits
  else
    let padded := List.replicate (places + 1 - digits.length) '0' ++ digits.toList
    let whole := padded.length - places
    String.ofList (padded.take whole ++ '.' :: padded.drop whole)

/-- The power of ten at or next below `num / den`, for positive arguments. -/
def decade (num den : Nat) : Int :=
  let guess : Int := (num.repr.length : Int) - den.repr.length
  let reached := if 0 ≤ guess then den * Nat.pow 10 guess.toNat ≤ num else den ≤ num * Nat.pow 10 (-guess).toNat
  if reached then guess else guess - 1

/-- The integer nearest to `num / den / 10 ^ e`. -/
def roundDecimal (num den : Nat) (e : Int) : Nat :=
  if 0 ≤ e then roundDiv num (den * Nat.pow 10 e.toNat) else roundDiv (num * Nat.pow 10 (-e).toNat) den

namespace Datum

/-- `significand * 2 ^ exponent` as a quotient. -/
def quotient (m : Nat) (q : Int) : Nat × Nat :=
  if 0 ≤ q then (m * Nat.pow 2 q.toNat, 1) else (m, Nat.pow 2 (-q).toNat)

/-! ### A fixed number of digits -/

def fixed (places : Nat) : Datum → String
  | .nan => "NaN"
  | .infinite negative => signText negative ++ "inf"
  | .finite negative m q => signText negative ++ positional (roundScaled (m * Nat.pow 10 places) 1 (-q)) places

/-- One digit before the point, `places` digits after it and a decimal exponent. -/
def scientific (places : Nat) : Datum → String
  | .nan => "NaN"
  | .infinite negative => signText negative ++ "inf"
  | .finite negative m q =>
    if m = 0 then signText negative ++ positional 0 places ++ "e0"
    else
      let (num, den) := quotient m q
      let e := decade num den
      let digits := roundDecimal num den (e - places)
      let (digits, e) := if digits = Nat.pow 10 (places + 1) then (Nat.pow 10 places, e + 1) else (digits, e)
      signText negative ++ positional digits places ++ "e" ++ toString e

/-! ### The fewest digits that read back -/

/-- The quarters of the last place between which every rational rounds to the datum, and whether the ends do too. -/
def interval (l : Layout) (m : Nat) (q : Int) : Nat × Nat × Bool :=
  let below := if m = Nat.pow 2 l.fraction ∧ l.lowest < q then 4 * m - 1 else 4 * m - 2
  (below, 4 * m + 2, m % 2 = 0)

/-- The multiple of `10 ^ e` nearest to the datum, when it reads back. -/
def onGrid (l : Layout) (m : Nat) (q : Int) (e : Int) : Option Nat :=
  let (below, above, closed) := interval l m q
  -- all in units of `2 ^ (q - 2)`: the grid has the spacing `num / den`
  let (num, den) := quotient 1 (2 - q)
  let (num, den) := if 0 ≤ e then (num * Nat.pow 10 e.toNat, den) else (num, den * Nat.pow 10 (-e).toNat)
  let inside := fun n =>
    let point := n * num
    if closed then below * den ≤ point ∧ point ≤ above * den else below * den < point ∧ point < above * den
  let lower := 4 * m * den / num
  let nearest := roundDiv (4 * m * den) num
  let other := if nearest = lower then lower + 1 else lower
  if inside nearest then some nearest else if inside other then some other else none

def stripZeros : Nat → Nat × Int → Nat × Int
  | 0, d => d
  | fuel + 1, (n, e) => if n % 10 = 0 then stripZeros fuel (n / 10, e + 1) else (n, e)

/-- Tries `count` digits, then one more at a time; `top` is the power of ten of the first digit. -/
def shortestFrom (l : Layout) (m : Nat) (q top : Int) : Nat → Nat → Nat × Int
  | _, 0 => (0, 0)
  | count, more + 1 =>
    match onGrid l m q (top + 1 - count) with
    | some n => stripZeros (count + 1) (n, top + 1 - count)
    | none => shortestFrom l m q top (count + 1) more

/-- The digits and the power of ten of the shortest decimal that reads back, for a positive significand. -/
def shortest (l : Layout) (m : Nat) (q : Int) : Nat × Int :=
  let (num, den) := quotient m q
  shortestFrom l m q (decade num den) 1 17

/-- The text of a number in a document: shortest digits, positional below `10 ^ 15` and above `10 ^ -7` with at
    least one place, else with a signed exponent. What is no number has the text `null`. -/
def plain (l : Layout) : Datum → String
  | .nan | .infinite _ => "null"
  | .finite negative m q =>
    if m = 0 then signText negative ++ "0.0"
    else
      let (n, e) := shortest l m q
      let digits := n.repr
      let top := e + digits.length - 1
      let body :=
        if -7 < top ∧ top < 15 then
          if 0 ≤ e then digits ++ String.ofList (List.replicate e.toNat '0') ++ ".0" else positional n (-e).toNat
        else
          let mantissa := if digits.length = 1 then digits else positional n (digits.length - 1)
          mantissa ++ "e" ++ (if 0 ≤ top then "+" else "") ++ toString top
      signText negative ++ body

end Datum
end Number
end GridFlight
