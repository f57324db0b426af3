/-! Pairs of coordinates in the plane. -/

namespace GridFlight

structure Vec (α : Type) where
  x : α
  y : α
  deriving DecidableEq, Repr

namespace Vec

def map {α β : Type} (f : α → β) (v : Vec α) : Vec β := ⟨f v.x, f v.y⟩

def zipWith {α β γ : Type} (f : α → β → γ) (v : Vec α) (w : Vec β) : Vec γ := ⟨f v.x w.x, f v.y w.y⟩

end Vec
end GridFlight
