import GridFlight.Number.Decimal
import GridFlight.Number.Integer

/-! Floating-point literals: an optional sign, then `inf`, `infinity` or `nan` in any case, or digits with an
    optional point and an optional exponent. At least one digit stands before or after the point. -/

namespace GridFlight
namespace Number

/-- What a literal says; a finite one is `± digits * 10 ^ exponent`. -/
inductive Literal where
  | nan
  | infinite (negative : Bool)
  | finite (negative : Bool) (digits : Nat) (exponent : Int)
  deriving DecidableEq, Repr

namespace Literal

/-- The exponent behind an `e`, or zero where the text ends. -/
def readExponent? : List Char → Option Int
  | [] => some 0
  | c :: cs => if c = 'e' ∨ c = 'E' then readInt? cs else none

def readDecimal? (negative : Bool) (cs : List Char) : Option Literal :=
  let whole := cs.takeWhile Char.isDigit
  let rest := cs.dropWhile Char.isDigit
  let (places, rest) := match rest with
    | '.' :: tail => (tail.takeWhile Char.isDigit, tail.dropWhile Char.isDigit)
    | _ => ([], rest)
  if whole.isEmpty && places.isEmpty then none
  else (readExponent? rest).map fun e => .finite negative (digitsValue (whole ++ places)) (e - places.length)

def readUnsigned? (negative : Bool) (cs : List Char) : Option Literal :=
  let lower := cs.map Char.toLower
  if lower = "inf".toList ∨ lower = "infinity".toList then some (.infinite negative)
  else if lower = "nan".toList then some .nan
  else readDecimal? negative cs

def read? : List Char → Option Literal
  | '-' :: cs => readUnsigned? true cs
  | '+' :: cs => readUnsigned? false cs
  | cs => readUnsigned? false cs

/-! ### Rounding a literal -/

/-- A decimal whose first digit stands at or above this power of ten is infinite in both formats, and one whose
    first digit stands below its negative is zero. -/
def farDecade : Int := 400

def round (l : Layout) : Literal → Nat
  | .nan => l.quietNan
  | .infinite negative => l.signed negative l.infinity
  | .finite negative digits e =>
    let top := e + digits.repr.length
    l.signed negative <|
      if digits = 0 ∨ top < -farDecade then 0
      else if farDecade < top then l.infinity
      else if 0 ≤ e then l.nearest (digits * Nat.pow 10 e.toNat) 1
      else l.nearest digits (Nat.pow 10 (-e).toNat)

end Literal

def readSingle? (s : String) : Option Float32 :=
  (Literal.read? s.toList).map fun x => Float32.ofBits (UInt32.ofNat (x.round Layout.single))

end Number
end GridFlight
