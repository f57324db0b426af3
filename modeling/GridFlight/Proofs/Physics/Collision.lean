import GridFlight.Proofs.Number.Exact
import GridFlight.Proofs.Physics.Position
import Mathlib.Tactic.Linarith

/-! Steps near obstacles, in exact arithmetic. A step ends farther than a tenth from the corner of every obstacle, or
    does not move the drone. The fields have their origin at the middles of the cells instead, and what is near to the
    middle of a cell is away from all corners. So the test for collisions never keeps a step off a middle: the drone
    goes there whenever the step leads there. -/

namespace GridFlight
namespace Physics

/-! ### Distances -/

/-- The two are farther from each other than an obstacle and a drone that has run into it. -/
def Beyond (v c : Vec Exact) : Prop := Scalar.lt collisionDistance (v - c).norm = true

variable {a b x y : ℝ}

theorem corner_eq (o : Cell) : (corner o : Vec Exact) = ⟨.finite o.x.toInt, .finite o.y.toInt⟩ := rfl

theorem centre_eq (o : Cell) :
    (centre o : Vec Exact) = ⟨.finite (o.x.toInt + 1 / 2), .finite (o.y.toInt + 1 / 2)⟩ := rfl

theorem norm_finite (a b : ℝ) : (⟨.finite a, .finite b⟩ : Vec Exact).norm = .finite √(a ^ 2 + b ^ 2) := by
  have hsum : (Exact.finite a * .finite a + .finite b * .finite b) = .finite (a ^ 2 + b ^ 2) := by
    rw [Exact.finite_mul, Exact.finite_mul, Exact.finite_add, sq, sq]
  show Scalar.sqrt (Exact.finite a * .finite a + .finite b * .finite b) = _
  rw [hsum]
  exact Exact.sqrt_finite (add_nonneg (sq_nonneg a) (sq_nonneg b))

theorem norm_offset :
    ((⟨.finite a, .finite b⟩ : Vec Exact) - ⟨.finite x, .finite y⟩).norm = .finite √((a - x) ^ 2 + (b - y) ^ 2) := by
  show (⟨Exact.finite a - .finite x, Exact.finite b - .finite y⟩ : Vec Exact).norm = _
  rw [Exact.finite_sub, Exact.finite_sub, norm_finite]

/-- They are farther than a tenth from each other. -/
theorem beyond_iff :
    Beyond ⟨.finite a, .finite b⟩ ⟨.finite x, .finite y⟩ ↔ 1 / 10 < √((a - x) ^ 2 + (b - y) ^ 2) := by
  rw [Beyond, norm_offset]
  exact Exact.lt_finite

/-- At a point of the plane the test for collisions measures the distances from the corners. -/
theorem collides_eq_false_iff {obstacles : List Cell} :
    collides obstacles (⟨.finite a, .finite b⟩ : Vec Exact) = false ↔
      ∀ o ∈ obstacles, Beyond ⟨.finite a, .finite b⟩ (corner o) := by
  have hnear : ∀ o : Cell,
      Scalar.le ((⟨.finite a, .finite b⟩ : Vec Exact) - corner o).norm collisionDistance = true ↔
        ¬Beyond ⟨.finite a, .finite b⟩ (corner o) := by
    intro o
    rw [corner_eq, norm_offset, beyond_iff, not_lt]
    exact Exact.le_finite
  rw [collides, List.any_eq_false]
  exact forall₂_congr fun o _ => by rw [hnear, not_not]

/-- The middles of the cells are away from all corners, and so is what is near to them. -/
theorem beyond_corner_of_near_centre {o : Cell} (h : ¬Beyond ⟨.finite a, .finite b⟩ (centre o)) (c : Cell) :
    Beyond ⟨.finite a, .finite b⟩ (corner c) := by
  rw [centre_eq, beyond_iff, not_lt] at h
  rw [corner_eq, beyond_iff]
  have hnear : |a - (o.x.toInt + 1 / 2)| ≤ 1 / 10 :=
    (Real.abs_le_sqrt (le_add_of_nonneg_right (sq_nonneg _))).trans h
  have hfar : 1 / 10 < |a - c.x.toInt| := by
    obtain ⟨hlow, hhigh⟩ := abs_le.mp hnear
    rcases Int.lt_or_le o.x.toInt c.x.toInt with hright | hleft
    · have hright : (o.x.toInt : ℝ) + 1 ≤ c.x.toInt := by exact_mod_cast hright
      exact lt_abs.mpr (Or.inr (by linarith))
    · have hleft : (c.x.toInt : ℝ) ≤ o.x.toInt := by exact_mod_cast hleft
      exact lt_abs.mpr (Or.inl (by linarith))
  exact hfar.trans_le (Real.abs_le_sqrt (le_add_of_nonneg_right (sq_nonneg _)))

/-! ### Steps -/

theorem step_cases {α : Type} [Scalar α] (p : Physics α) :
    p.step.2.position = p.position ∨
      p.spawned = true ∧ collides p.obstacles p.aim = false ∧ p.step.2.position = p.aim := by
  cases hspawned : p.spawned with
  | false => exact Or.inl (by rw [step_of_not_spawned hspawned])
  | true =>
    rw [step_of_spawned hspawned]
    cases hcollides : collides p.obstacles p.aim with
    | false => exact Or.inr ⟨rfl, rfl, rfl⟩
    | true => exact Or.inl rfl

theorem aim_cases (p : Physics Exact) : p.aim = p.position ∨ ∃ a b, p.aim = ⟨.finite a, .finite b⟩ := by
  unfold aim
  dsimp only
  split
  · next hfinite =>
    rw [Vec.isFinite, Bool.and_eq_true] at hfinite
    obtain ⟨a, ha⟩ := Exact.exists_of_isFinite hfinite.1
    obtain ⟨b, hb⟩ := Exact.exists_of_isFinite hfinite.2
    exact Or.inr ⟨a, b, by rw [← ha, ← hb]⟩
  · exact Or.inl rfl

/-- A step keeps off the corners of the obstacles. It keeps off their middles exactly where it does not lead there. -/
theorem keeps_off_middles_iff (p : Physics Exact) :
    (∀ o ∈ p.obstacles, p.step.2.position = p.position ∨ Beyond p.step.2.position (corner o)) ∧
      ((∀ o ∈ p.obstacles, p.step.2.position = p.position ∨ Beyond p.step.2.position (centre o)) ↔
        (p.spawned = true → ∀ o ∈ p.obstacles, p.aim = p.position ∨ Beyond p.aim (centre o))) := by
  constructor
  · intro o ho
    rcases p.step_cases with hstay | ⟨-, hclear, hmoved⟩
    · exact Or.inl hstay
    · rw [hmoved]
      rcases p.aim_cases with haim | ⟨a, b, haim⟩
      · exact Or.inl haim
      · rw [haim] at hclear ⊢
        exact Or.inr (collides_eq_false_iff.mp hclear o ho)
  · constructor
    · intro hoff hspawned o ho
      rcases p.aim_cases with haim | ⟨a, b, haim⟩
      · exact Or.inl haim
      · by_contra hnear
        rw [not_or, haim] at hnear
        -- The point that the step leads to is near to a middle, so no corner keeps the drone from it.
        have hclear : collides p.obstacles p.aim = false := by
          rw [haim]
          exact collides_eq_false_iff.mpr fun c _ => beyond_corner_of_near_centre hnear.2 c
        have hmoved : p.step.2.position = ⟨.finite a, .finite b⟩ := by
          rw [step_of_spawned hspawned, hclear, ← haim]
          rfl
        have hstep := hoff o ho
        rw [hmoved] at hstep
        exact hstep.elim hnear.1 hnear.2
    · intro haim o ho
      rcases p.step_cases with hstay | ⟨hspawned, -, hmoved⟩
      · exact Or.inl hstay
      · rw [hmoved]
        exact haim hspawned o ho

/-! ### A drone in the middle of an obstacle -/

/-- The field of a cell is switched off near to its middle and out of its range. -/
theorem cellForce_eq_none {config : Config Exact} {rho : ℝ} (hrho : config.rho = .finite rho) {o : Cell}
    (hcentre : (centre o : Vec Exact) = ⟨.finite x, .finite y⟩)
    (h : √((a - x) ^ 2 + (b - y) ^ 2) - 1 / 2 ≤ 1 / 10 ∨ rho ≤ √((a - x) ^ 2 + (b - y) ^ 2) - 1 / 2) :
    cellForce config ⟨.finite a, .finite b⟩ o = none := by
  have hdistance : ((⟨.finite a, .finite b⟩ : Vec Exact) - centre o).norm - Scalar.half =
      .finite (√((a - x) ^ 2 + (b - y) ^ 2) - 1 / 2) := by
    rw [hcentre, norm_offset]
    exact Exact.finite_sub
  have hoff : (Scalar.lt (((⟨.finite a, .finite b⟩ : Vec Exact) - centre o).norm - Scalar.half) config.rho &&
      Scalar.lt minFieldDistance (((⟨.finite a, .finite b⟩ : Vec Exact) - centre o).norm - Scalar.half)) = false := by
    rw [hdistance, hrho, Bool.and_eq_false_iff, ← Bool.not_eq_true, ← Bool.not_eq_true, Exact.lt_finite, not_lt]
    rcases h with hnear | hfar
    · exact Or.inr fun hlt => absurd (Exact.lt_finite.mp hlt) (not_lt.mpr hnear)
    · exact Or.inl hfar
  unfold cellForce
  rw [if_neg (by rw [hoff]; exact Bool.false_ne_true)]

theorem wall_eq_zero {config : Config Exact} {rho d : ℝ} (hrho : config.rho = .finite rho) (h : rho ≤ d) :
    config.wall (.finite d) = .finite 0 := by
  unfold Config.wall
  rw [hrho, if_neg (by rw [Exact.lt_finite]; exact not_lt.mpr h)]
  rfl

/-- A drone in the middle of its window, with one obstacle, that is pushed to the right. -/
noncomputable def pushed (o : Cell) : Physics Exact :=
  after Exact.parameters [.message (.size 81 25), .message (.obstacles [o]), .key 'f']

theorem pushed_eq (o : Cell) :
    pushed o = { (new Exact.parameters : Physics Exact) with
      position := ⟨.finite (81 / 2), .finite (25 / 2)⟩
      previous := ⟨.finite (81 / 2), .finite (25 / 2)⟩
      command := ⟨.finite 1, .finite 0⟩
      window := ⟨81, 25⟩
      obstacles := [o]
      spawned := true } := by
  have hmiddle : (middle ⟨81, 25⟩ : Vec Exact) = ⟨.finite (81 / 2), .finite (25 / 2)⟩ := by
    have hdiv : ∀ r : ℝ, (Exact.finite r / .finite 2 : Exact) = .finite (r / 2) := fun r => Exact.finite_div two_ne_zero
    exact congrArg₂ Vec.mk (hdiv 81) (hdiv 25)
  have hcommand : (Vec.zero + ⟨.finite 1, .finite 0⟩ : Vec Exact) = ⟨.finite 1, .finite 0⟩ := by
    show (⟨.finite (0 + 1), .finite (0 + 0)⟩ : Vec Exact) = _
    rw [zero_add, zero_add]
  have hplace : pushed o = { (new Exact.parameters : Physics Exact) with
      position := middle ⟨81, 25⟩
      previous := middle ⟨81, 25⟩
      command := Vec.zero + ⟨.finite 1, .finite 0⟩
      window := ⟨81, 25⟩
      obstacles := [o]
      spawned := true } := rfl
  rw [hplace, hmiddle, hcommand]

/-- The next position of a drone at rest. -/
theorem advance_exact (f g : ℝ) :
    advance Exact.parameters ⟨.finite f, .finite g⟩ ⟨.finite a, .finite b⟩ ⟨.finite a, .finite b⟩ =
      ⟨.finite (a + f / 11000), .finite (b + g / 11000)⟩ := by
  have hcoordinate : ∀ f a : ℝ,
      (Exact.finite f * (.finite (1 / 100) * .finite (1 / 100)) - .finite a * .finite 1 +
          .finite a * (.finite 2 * .finite 1 + .finite 10 * .finite (1 / 100))) /
        (.finite 1 + .finite 10 * .finite (1 / 100)) = .finite (a + f / 11000) := by
    intro f a
    have hmass : (1 : ℝ) + 10 * (1 / 100) ≠ 0 := by norm_num
    simp only [Exact.finite_mul, Exact.finite_add, Exact.finite_sub]
    rw [Exact.finite_div hmass]
    exact congrArg Exact.finite (by ring)
  exact congrArg₂ Vec.mk (hcoordinate f a) (hcoordinate g b)

/-- The walls are out of range, and so nothing but the command acts on the drone. -/
theorem forces_pushed {o : Cell} (h : cellForce Exact.parameters ⟨.finite (81 / 2), .finite (25 / 2)⟩ o = none) :
    (pushed o).forces = ⟨⟨.finite 1, .finite 0⟩, .zero, ⟨.finite 0, .finite 0⟩, .zero⟩ := by
  have hwalls : ∀ c d : ℝ, 8 ≤ c → 8 ≤ d →
      Exact.parameters.wall (.finite c) - Exact.parameters.wall (.finite d) = .finite 0 := by
    intro c d hc hd
    rw [wall_eq_zero rfl hc, wall_eq_zero rfl hd, Exact.finite_sub, sub_zero]
  have hacross := hwalls (81 / 2 - 1) (81 - 1 - 81 / 2) (by norm_num) (by norm_num)
  have hdown := hwalls (25 / 2 - 1) (25 - 1 - 25 / 2) (by norm_num) (by norm_num)
  have hobstacle : cellForces Exact.parameters ⟨.finite (81 / 2), .finite (25 / 2)⟩ [o] = .zero := by
    rw [cellForces, List.foldl_cons, h]
    rfl
  have hparts : (pushed o).forces = ⟨⟨.finite 1, .finite 0⟩,
      cellForces Exact.parameters ⟨.finite (81 / 2), .finite (25 / 2)⟩ [o],
      ⟨Exact.parameters.wall (.finite (81 / 2 - 1)) - Exact.parameters.wall (.finite (81 - 1 - 81 / 2)),
        Exact.parameters.wall (.finite (25 / 2 - 1)) - Exact.parameters.wall (.finite (25 - 1 - 25 / 2))⟩, .zero⟩ := by
    rw [pushed_eq]
    simp only [← Exact.finite_sub]
    rfl
  rw [hparts, hobstacle, hacross, hdown]

theorem capped_unit :
    capped Exact.parameters (⟨.finite 1, .finite 0⟩ : Vec Exact) = ⟨.finite 1, .finite 0⟩ := by
  have hnorm : (⟨.finite 1, .finite 0⟩ : Vec Exact).norm = .finite 1 := by
    rw [norm_finite]
    norm_num
  have hmax : ¬Scalar.lt Exact.parameters.maxForce (⟨.finite 1, .finite 0⟩ : Vec Exact).norm = true := by
    rw [hnorm]
    exact fun hlt => absurd (Exact.lt_finite.mp hlt) (by norm_num)
  exact if_neg hmax

theorem aim_pushed {o : Cell} (h : cellForce Exact.parameters ⟨.finite (81 / 2), .finite (25 / 2)⟩ o = none) :
    (pushed o).aim = ⟨.finite (81 / 2 + 1 / 11000), .finite (25 / 2)⟩ := by
  have htotal : (pushed o).forces.total = ⟨.finite 1, .finite 0⟩ := by
    have hsum : ∀ r : ℝ, Exact.finite r + .finite 0 + .finite 0 - .finite 0 = .finite r := by
      intro r
      rw [Exact.finite_add, Exact.finite_add, Exact.finite_sub, add_zero, add_zero, sub_zero]
    rw [forces_pushed h]
    exact congrArg₂ Vec.mk (hsum 1) (hsum 0)
  have hconfig : (pushed o).config = Exact.parameters := rfl
  have hnext : advance (pushed o).config (capped (pushed o).config (pushed o).forces.total) (pushed o).previous
      (pushed o).position = ⟨.finite (81 / 2 + 1 / 11000), .finite (25 / 2)⟩ := by
    rw [htotal, hconfig, capped_unit, pushed_eq, advance_exact, zero_div, add_zero]
  rw [aim, hnext]
  rfl

theorem position_pushed (o : Cell) : (pushed o).position = ⟨.finite (81 / 2), .finite (25 / 2)⟩ := by
  rw [pushed_eq]

theorem aim_ne_position_pushed {o : Cell}
    (h : cellForce Exact.parameters ⟨.finite (81 / 2), .finite (25 / 2)⟩ o = none) :
    (pushed o).aim ≠ (pushed o).position := by
  intro heq
  rw [aim_pushed h, position_pushed] at heq
  injection heq with hx _
  injection hx with hx
  norm_num at hx

theorem step_pushed {o : Cell} (h : cellForce Exact.parameters ⟨.finite (81 / 2), .finite (25 / 2)⟩ o = none)
    (hclear : Beyond ⟨.finite (81 / 2 + 1 / 11000), .finite (25 / 2)⟩ (corner o)) :
    (pushed o).step.2.position = (pushed o).aim := by
  have hobstacles : (pushed o).obstacles = [o] := rfl
  have hcollides : collides (pushed o).obstacles (pushed o).aim = false := by
    rw [hobstacles, aim_pushed h]
    exact collides_eq_false_iff.mpr fun c hc => List.mem_singleton.mp hc ▸ hclear
  have hspawned : (pushed o).spawned = true := rfl
  rw [step_of_spawned hspawned, hcollides]
  rfl

theorem centre_of_eq {o : Cell} {m n : Int} (hx : o.x.toInt = m) (hy : o.y.toInt = n) :
    (centre o : Vec Exact) = ⟨.finite (m + 1 / 2), .finite (n + 1 / 2)⟩ := by
  rw [centre_eq, hx, hy]

theorem near_middle : ¬Beyond ⟨.finite (81 / 2 + 1 / 11000), .finite (25 / 2)⟩ (centre ⟨40, 12⟩) := by
  rw [centre_of_eq (m := 40) (n := 12) rfl rfl, beyond_iff, not_lt]
  exact Real.sqrt_le_iff.mpr ⟨by norm_num, by norm_num⟩

/-- An obstacle has come to where the drone is. Its field is off there and the drone moves on, near to the middle. -/
theorem middle_entered :
    (⟨40, 12⟩ : Cell) ∈ (pushed ⟨40, 12⟩).obstacles ∧
      (pushed ⟨40, 12⟩).step.2.position ≠ (pushed ⟨40, 12⟩).position ∧
      ¬Beyond (pushed ⟨40, 12⟩).step.2.position (centre ⟨40, 12⟩) := by
  have hoff : cellForce Exact.parameters ⟨.finite (81 / 2), .finite (25 / 2)⟩ ⟨40, 12⟩ = none := by
    refine cellForce_eq_none rfl (centre_of_eq (m := 40) (n := 12) rfl rfl) (Or.inl ?_)
    norm_num
  rw [step_pushed hoff (beyond_corner_of_near_centre near_middle _)]
  refine ⟨List.mem_singleton_self _, aim_ne_position_pushed hoff, ?_⟩
  rw [aim_pushed hoff]
  exact near_middle

/-- From an obstacle that is out of reach the drone moves away. -/
theorem distant_obstacle_kept_off :
    (⟨20, 12⟩ : Cell) ∈ (pushed ⟨20, 12⟩).obstacles ∧
      (pushed ⟨20, 12⟩).step.2.position ≠ (pushed ⟨20, 12⟩).position ∧
      Beyond (pushed ⟨20, 12⟩).step.2.position (corner ⟨20, 12⟩) ∧
      Beyond (pushed ⟨20, 12⟩).step.2.position (centre ⟨20, 12⟩) := by
  have hx : (⟨20, 12⟩ : Cell).x.toInt = 20 := rfl
  have hy : (⟨20, 12⟩ : Cell).y.toInt = 12 := rfl
  have hobstacles : ∀ o ∈ (pushed ⟨20, 12⟩).obstacles, o = ⟨20, 12⟩ := fun o ho => List.mem_singleton.mp ho
  have hoff : cellForce Exact.parameters ⟨.finite (81 / 2), .finite (25 / 2)⟩ ⟨20, 12⟩ = none := by
    have hdistance : √((81 / 2 - (((20 : Int) : ℝ) + 1 / 2)) ^ 2 + (25 / 2 - (((12 : Int) : ℝ) + 1 / 2)) ^ 2) = 20 :=
      Real.sqrt_eq_iff_mul_self_eq_of_pos (by norm_num) |>.mpr (by norm_num)
    refine cellForce_eq_none rfl (centre_of_eq hx hy) (Or.inr ?_)
    rw [hdistance]
    norm_num
  have hcorner : Beyond ⟨.finite (81 / 2 + 1 / 11000), .finite (25 / 2)⟩ (corner ⟨20, 12⟩) := by
    rw [corner_eq, hx, hy, beyond_iff]
    exact Real.lt_sqrt_of_sq_lt (by norm_num)
  have hcentre : Beyond ⟨.finite (81 / 2 + 1 / 11000), .finite (25 / 2)⟩ (centre ⟨20, 12⟩) := by
    rw [centre_of_eq hx hy, beyond_iff]
    exact Real.lt_sqrt_of_sq_lt (by norm_num)
  have hmoved : (pushed ⟨20, 12⟩).step.2.position ≠ (pushed ⟨20, 12⟩).position := by
    rw [step_pushed hoff hcorner]
    exact aim_ne_position_pushed hoff
  have hmem : (⟨20, 12⟩ : Cell) ∈ (pushed ⟨20, 12⟩).obstacles := List.mem_singleton_self _
  have hkept := keeps_off_middles_iff (pushed ⟨20, 12⟩)
  have haim : ∀ o ∈ (pushed ⟨20, 12⟩).obstacles,
      (pushed ⟨20, 12⟩).aim = (pushed ⟨20, 12⟩).position ∨ Beyond (pushed ⟨20, 12⟩).aim (centre o) := by
    intro o ho
    rw [hobstacles o ho, aim_pushed hoff]
    exact Or.inr hcentre
  exact ⟨hmem, hmoved, (hkept.1 _ hmem).resolve_left hmoved, (hkept.2.mpr (fun _ => haim) _ hmem).resolve_left hmoved⟩

end Physics
end GridFlight
