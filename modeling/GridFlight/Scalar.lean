import GridFlight.Number.Binary
import GridFlight.Vec

/-! The arithmetic that the motion of the drone is written in: double precision when it runs. -/

namespace GridFlight

class Scalar (α : Type) extends Add α, Sub α, Mul α, Div α, Neg α where
  zero : α
  tenth : α
  half : α
  one : α
  two : α
  ofInt32 : Int32 → α
  sqrt : α → α
  lt : α → α → Bool
  le : α → α → Bool
  isFinite : α → Bool

instance : Scalar Float where
  zero := 0
  tenth := 0.1
  half := 0.5
  one := 1
  two := 2
  ofInt32 n := Float.ofInt n.toInt
  sqrt := Float.sqrt
  lt a b := decide (a < b)
  le a b := decide (a ≤ b)
  isFinite := Float.isFinite

namespace Scalar

variable {α : Type} [Scalar α]

def abs (a : α) : α := if lt a zero then -a else a

end Scalar

/-! ### Vectors -/

namespace Vec

variable {α : Type} [Scalar α]

def zero : Vec α := ⟨Scalar.zero, Scalar.zero⟩

instance : Add (Vec α) := ⟨zipWith (· + ·)⟩

instance : Sub (Vec α) := ⟨zipWith (· - ·)⟩

def scale (v : Vec α) (a : α) : Vec α := v.map (· * a)

def shrink (v : Vec α) (a : α) : Vec α := v.map (· / a)

def norm (v : Vec α) : α := Scalar.sqrt (v.x * v.x + v.y * v.y)

def isFinite (v : Vec α) : Bool := Scalar.isFinite v.x && Scalar.isFinite v.y

end Vec
end GridFlight
