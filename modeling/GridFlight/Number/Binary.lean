/-! Binary floating-point patterns. A pattern stands for a signed multiple of a power of two, an infinity, or
    no number; a rational is rounded to the nearest pattern, ties to the even significand. -/

namespace GridFlight
namespace Number

/-- What a pattern stands for; a finite one is `± significand * 2 ^ exponent`. -/
inductive Datum where
  | nan
  | infinite (negative : Bool)
  | finite (negative : Bool) (significand : Nat) (exponent : Int)
  deriving DecidableEq, Repr

/-- The stored significand bits and the exponent bits of a format. -/
structure Layout where
  fraction : Nat
  exponent : Nat
  deriving DecidableEq, Repr

def Layout.single : Layout := ⟨23, 8⟩
def Layout.double : Layout := ⟨52, 11⟩

namespace Layout

/-- The exponent of the last place of the smallest patterns. -/
def lowest (l : Layout) : Int := 2 - (Nat.pow 2 (l.exponent - 1) : Int) - l.fraction

def infinity (l : Layout) : Nat := (Nat.pow 2 l.exponent - 1) * Nat.pow 2 l.fraction

def signBit (l : Layout) : Nat := Nat.pow 2 (l.fraction + l.exponent)

def datum (l : Layout) (bits : Nat) : Datum :=
  let negative := bits / l.signBit % 2 == 1
  let exponent := bits / Nat.pow 2 l.fraction % Nat.pow 2 l.exponent
  let fraction := bits % Nat.pow 2 l.fraction
  if exponent = Nat.pow 2 l.exponent - 1 then
    if fraction = 0 then .infinite negative else .nan
  else if exponent = 0 then .finite negative fraction l.lowest
  else .finite negative (Nat.pow 2 l.fraction + fraction) (l.lowest + exponent - 1)

end Layout

/-! ### Rounding -/

/-- The integer nearest to `num / den`; a tie goes to the even one. -/
def roundDiv (num den : Nat) : Nat :=
  let quotient := num / den
  let rest := 2 * (num % den)
  if rest < den then quotient
  else if den < rest then quotient + 1
  else quotient + quotient % 2

/-- `roundDiv` of `num / den / 2 ^ q`. -/
def roundScaled (num den : Nat) (q : Int) : Nat :=
  if 0 ≤ q then roundDiv num (den * Nat.pow 2 q.toNat) else roundDiv (num * Nat.pow 2 (-q).toNat) den

/-- The power of two at or next below `num / den`, for positive arguments. -/
def binade (num den : Nat) : Int :=
  let guess : Int := (num.log2 : Int) - den.log2
  let reached := if 0 ≤ guess then den * Nat.pow 2 guess.toNat ≤ num else den ≤ num * Nat.pow 2 (-guess).toNat
  if reached then guess else guess - 1

namespace Layout

/-- The pattern without sign that is nearest to `num / den`. -/
def nearest (l : Layout) (num den : Nat) : Nat :=
  if num = 0 then 0
  else
    let q := max l.lowest (binade num den - l.fraction)
    min l.infinity ((q - l.lowest).toNat * Nat.pow 2 l.fraction + roundScaled num den q)

def quietNan (l : Layout) : Nat := l.infinity + Nat.pow 2 (l.fraction - 1)

def signed (l : Layout) (negative : Bool) (bits : Nat) : Nat := if negative then l.signBit + bits else bits

/-- The pattern nearest to what a pattern of any format stands for. -/
def ofDatum (l : Layout) : Datum → Nat
  | .nan => l.quietNan
  | .infinite negative => l.signed negative l.infinity
  | .finite negative m q =>
    l.signed negative (if 0 ≤ q then l.nearest (m * Nat.pow 2 q.toNat) 1 else l.nearest m (Nat.pow 2 (-q).toNat))

end Layout

/-! ### The two formats in use -/

def single (x : Float32) : Datum := Layout.single.datum x.toBits.toNat

def double (x : Float) : Datum := Layout.double.datum x.toBits.toNat

def toSingle (d : Datum) : Float32 := Float32.ofBits (UInt32.ofNat (Layout.single.ofDatum d))

def toDouble (d : Datum) : Float := Float.ofBits (UInt64.ofNat (Layout.double.ofDatum d))

def narrow (x : Float) : Float32 := toSingle (double x)

/-! ### Integers near a datum -/

namespace Datum

def floorMagnitude (m : Nat) (q : Int) : Nat := if 0 ≤ q then m * Nat.pow 2 q.toNat else m / Nat.pow 2 (-q).toNat

/-- The nearest integer magnitude; a half goes up. -/
def roundMagnitude (m : Nat) (q : Int) : Nat :=
  if 0 ≤ q then m * Nat.pow 2 q.toNat else (2 * m + Nat.pow 2 (-q).toNat) / Nat.pow 2 ((-q).toNat + 1)

/-- The integer next towards zero, held within `[low, high]`. No number counts as zero. -/
def truncate (low high : Int) : Datum → Int
  | .nan => 0
  | .infinite negative => if negative then low else high
  | .finite negative m q =>
    let n : Int := floorMagnitude m q
    max low (min high (if negative then -n else n))

/-- The nearest natural number up to `high`, a half going up. What is below zero or no number counts as zero. -/
def roundNat (high : Nat) : Datum → Nat
  | .nan => 0
  | .infinite negative => if negative then 0 else high
  | .finite negative m q => if negative then 0 else min high (roundMagnitude m q)

end Datum

/-- A single as an `Int32`: the integer next towards zero, at the ends of the range where it lies outside. -/
def toInt32 (x : Float32) : Int32 := Int32.ofInt ((single x).truncate (-2147483648) 2147483647)

end Number
end GridFlight
