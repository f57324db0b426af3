import GridFlight.Physics
import Mathlib.Analysis.Real.Sqrt

/-! Arithmetic without rounding. A number is a real, an infinity, or no number, and there is one zero, which counts as
    positive where something is divided by it. So parameters may be infinite or no numbers, and a quotient by zero is as
    little finite as it is in floating point. -/

namespace GridFlight

inductive Exact where
  | finite (r : ℝ)
  | infinite (negative : Bool)
  | nan

namespace Exact

noncomputable section

def neg : Exact → Exact
  | finite r => finite (-r)
  | infinite negative => infinite !negative
  | nan => nan

/-- Opposite infinities have no sum. -/
def add : Exact → Exact → Exact
  | finite r, finite s => finite (r + s)
  | infinite m, infinite n => if m = n then infinite m else nan
  | infinite m, finite _ | finite _, infinite m => infinite m
  | nan, _ | _, nan => nan

/-- An infinity has no multiple by zero. -/
def scaleInfinity (negative : Bool) (r : ℝ) : Exact := if r = 0 then nan else infinite (negative ^^ decide (r < 0))

def mul : Exact → Exact → Exact
  | finite r, finite s => finite (r * s)
  | infinite m, infinite n => infinite (m ^^ n)
  | infinite m, finite r | finite r, infinite m => scaleInfinity m r
  | nan, _ | _, nan => nan

def div : Exact → Exact → Exact
  | finite r, finite s => if s = 0 then scaleInfinity false r else finite (r / s)
  | infinite m, finite s => infinite (m ^^ decide (s < 0))
  | finite _, infinite _ => finite 0
  | infinite _, infinite _ => nan
  | nan, _ | _, nan => nan

def sqrt : Exact → Exact
  | finite r => if r < 0 then nan else finite √r
  | infinite negative => if negative then nan else infinite false
  | nan => nan

def lt : Exact → Exact → Bool
  | finite r, finite s => decide (r < s)
  | infinite m, infinite n => m && !n
  | infinite m, finite _ => m
  | finite _, infinite n => !n
  | nan, _ | _, nan => false

def le : Exact → Exact → Bool
  | finite r, finite s => decide (r ≤ s)
  | infinite m, infinite n => m || !n
  | infinite m, finite _ => m
  | finite _, infinite n => !n
  | nan, _ | _, nan => false

def isFinite : Exact → Bool
  | finite _ => true
  | infinite _ | nan => false

instance : Scalar Exact where
  add := add
  sub a b := add a (neg b)
  mul := mul
  div := div
  neg := neg
  zero := finite 0
  tenth := finite (1 / 10)
  half := finite (1 / 2)
  one := finite 1
  two := finite 2
  ofInt32 n := finite n.toInt
  sqrt := sqrt
  lt := lt
  le := le
  isFinite := isFinite

/-- The usual parameters of the motion of the drone. -/
def parameters : Physics.Config Exact :=
  ⟨finite 1, finite 10, finite (1 / 100), finite 10, finite 8, finite 5, finite 1⟩

end

/-! ### Finite numbers -/

variable {r s : ℝ}

@[simp] theorem finite_add : finite r + finite s = finite (r + s) := rfl

@[simp] theorem finite_sub : finite r - finite s = finite (r - s) := congrArg finite (sub_eq_add_neg r s).symm

@[simp] theorem finite_mul : finite r * finite s = finite (r * s) := rfl

theorem finite_div (h : s ≠ 0) : finite r / finite s = finite (r / s) := if_neg h

theorem sqrt_finite (h : 0 ≤ r) : Scalar.sqrt (finite r) = finite √r := if_neg (not_lt.mpr h)

@[simp] theorem lt_finite : Scalar.lt (finite r) (finite s) = true ↔ r < s := decide_eq_true_iff

@[simp] theorem le_finite : Scalar.le (finite r) (finite s) = true ↔ r ≤ s := decide_eq_true_iff

theorem exists_of_isFinite {a : Exact} (h : Scalar.isFinite a = true) : ∃ r, a = finite r := by
  cases a with
  | finite r => exact ⟨r, rfl⟩
  | infinite negative => cases h
  | nan => cases h

end Exact
end GridFlight
