import GridFlight.Proofs.World.Drawing
import Mathlib.Data.List.Nodup

/-! Entities that move, and the drone that reaches targets. A target moves to a cell inside the border that is free of the
    drone, the obstacles and the other targets; an obstacle moves to one that is free of targets and other obstacles. So
    lists without duplicates and without a common cell stay so, and a target that the drone has reached is gone from its
    cell unless it could not move. Nothing in this goes wrong where arithmetic and indices are checked. -/

namespace GridFlight

/-- The targets are not what they were before the contact. -/
def Contact.moves : Contact → Bool
  | .expected .. => true
  | .unexpected _ _ goal => goal.isSome

namespace World

variable {w v : World} {index : Nat} {goal : Option Cell} {c : Cell} {draws later : Draws}

/-! ### Moves -/

/-- A target moves to a free cell, or stays and nothing changes. -/
inductive MovesTarget (w : World) (index : Nat) : Option Cell → World → Prop where
  | stay : MovesTarget w index none w
  | move {c : Cell} (inside : w.window.Inside c) (drone : c ≠ w.droneCell) (obstacles : c ∉ w.obstacles)
    (others : ∀ i, i ≠ index → w.targets[i]? ≠ some c) :
    MovesTarget w index (some c) { w with targets := w.targets.set index c }

/-- An obstacle moves to a free cell, or stays and nothing changes. -/
inductive MovesObstacle (w : World) (index : Nat) : Option Cell → World → Prop where
  | stay : MovesObstacle w index none w
  | move {c : Cell} (inside : w.window.Inside c) (targets : c ∉ w.targets)
    (others : ∀ i, i ≠ index → w.obstacles[i]? ≠ some c) :
    MovesObstacle w index (some c) { w with obstacles := w.obstacles.set index c }

theorem others_of_notMem_eraseIdx {cells : List Cell} (h : c ∉ cells.eraseIdx index) :
    ∀ i, i ≠ index → cells[i]? ≠ some c :=
  fun i hi hc => h (List.mem_eraseIdx_iff_getElem?.mpr ⟨i, hi, hc⟩)

theorem movesTarget (w : World) (index : Nat) (d : Draws) :
    w.MovesTarget index (w.relocateTarget index d).1 (w.relocateTarget index d).2.1 := by
  unfold relocateTarget
  rcases hfree : Placement.freeCell w.window (w.targetBlocked index) d with ⟨_ | c, later⟩
  · exact .stay
  · obtain ⟨hinside, hblocked⟩ := Placement.inside_of_freeCell hfree
    simp only [targetBlocked, Bool.or_eq_false_iff, beq_eq_false_iff_ne, List.contains_eq_mem,
      decide_eq_false_iff_not] at hblocked
    exact .move hinside hblocked.1.1 hblocked.1.2 (others_of_notMem_eraseIdx hblocked.2)

theorem movesObstacle (w : World) (index : Nat) (d : Draws) :
    w.MovesObstacle index (w.relocateObstacle index d).1 (w.relocateObstacle index d).2.1 := by
  unfold relocateObstacle
  rcases hfree : Placement.freeCell w.window (w.obstacleBlocked index) d with ⟨_ | c, later⟩
  · exact .stay
  · obtain ⟨hinside, hblocked⟩ := Placement.inside_of_freeCell hfree
    simp only [obstacleBlocked, Bool.or_eq_false_iff, List.contains_eq_mem, decide_eq_false_iff_not] at hblocked
    exact .move hinside hblocked.1 (others_of_notMem_eraseIdx hblocked.2)

/-- One obstacle at most moves, to the cell that is announced. -/
theorem relocateObstacle_cases (h : w.relocateObstacle index draws = (goal, v, later)) :
    goal = none ∧ v = w ∨ ∃ cell, goal = some cell ∧ v = { w with obstacles := w.obstacles.set index cell } := by
  have hmoves : w.MovesObstacle index goal v := by simpa only [h] using w.movesObstacle index draws
  cases hmoves with
  | stay => exact Or.inl ⟨rfl, rfl⟩
  | move => exact Or.inr ⟨_, rfl, rfl⟩

/-! ### Contacts -/

/-- What a contact does to the world: none, one with the first target, or one with a later target. -/
inductive Meets (w : World) : Option Contact → World → Prop where
  | off (away : w.droneCell ∉ w.targets) : Meets w none w
  | first {rest : List Cell} (targets : w.targets = w.droneCell :: rest) :
    Meets w (some (.expected w.droneCell rest.length)) { w with targets := rest, reached := w.reached + 1 }
  | later {index : Nat} {goal : Option Cell} {v : World} (target : w.targets[index + 1]? = some w.droneCell)
    (moves : w.MovesTarget (index + 1) goal v) :
    Meets w (some (.unexpected (index + 1) w.droneCell goal)) v

theorem meets (w : World) (d : Draws) : w.Meets (w.resolveContact d).1 (w.resolveContact d).2.1 := by
  unfold resolveContact
  split
  · next hfind =>
    rw [List.findIdx?_eq_none_iff] at hfind
    exact .off fun hmem => by simpa using hfind _ hmem
  · next htargets => exact .off (by simp [htargets])
  · next first rest hfind htargets =>
    rw [htargets, List.findIdx?_eq_some_iff_getElem] at hfind
    obtain ⟨_, hfirst, -⟩ := hfind
    obtain rfl : first = w.droneCell := by simpa using hfirst
    exact .first htargets
  · next index first rest hfind htargets =>
    rw [List.findIdx?_eq_some_iff_getElem] at hfind
    obtain ⟨hindex, htarget, -⟩ := hfind
    exact .later (List.getElem?_eq_some_iff.mpr ⟨hindex, by simpa using htarget⟩) (w.movesTarget (index + 1) d)

theorem meets_of_resolveContact {contact : Option Contact} (h : w.resolveContact draws = (contact, v, later)) :
    w.Meets contact v := by
  simpa only [h] using w.meets draws

/-- A contact concerns the targets and their count alone. -/
theorem resolveContact_cases {contact : Option Contact} (h : w.resolveContact draws = (contact, v, later)) :
    contact.any Contact.moves = false ∧ v = w ∨
      contact.any Contact.moves = true ∧ ∃ targets reached, v = { w with targets := targets, reached := reached } := by
  cases meets_of_resolveContact h with
  | off => exact Or.inl ⟨rfl, rfl⟩
  | first => exact Or.inr ⟨rfl, _, _, rfl⟩
  | later target moves =>
    cases moves with
    | stay => exact Or.inl ⟨rfl, rfl⟩
    | move => exact Or.inr ⟨rfl, _, w.reached, rfl⟩

/-! ### Tidy worlds -/

/-- No two targets and no two obstacles are on one cell, and no target is on the cell of an obstacle. -/
structure Tidy (w : World) : Prop where
  targets : w.targets.Nodup
  obstacles : w.obstacles.Nodup
  apart : ∀ c ∈ w.targets, c ∉ w.obstacles

/-- An entry goes to a cell that no other entry is on. -/
theorem nodup_set {cells : List Cell} (h : cells.Nodup) (hothers : ∀ i, i ≠ index → cells[i]? ≠ some c) :
    (cells.set index c).Nodup := by
  by_cases hmem : c ∈ cells
  · -- The entry is on this cell already.
    obtain ⟨i, hi⟩ := List.mem_iff_getElem?.mp hmem
    obtain rfl : i = index := by
      by_contra hne
      exact hothers i hne hi
    obtain ⟨hlt, hget⟩ := List.getElem?_eq_some_iff.mp hi
    rw [← hget, List.set_getElem_self]
    exact h
  · exact h.set hmem

theorem MovesTarget.tidy (h : w.MovesTarget index goal v) (hw : w.Tidy) : v.Tidy := by
  cases h with
  | stay => exact hw
  | move inside drone obstacles others =>
    refine ⟨nodup_set hw.targets others, hw.obstacles, fun c hc => ?_⟩
    rcases List.mem_or_eq_of_mem_set hc with hc | rfl
    · exact hw.apart c hc
    · exact obstacles

theorem MovesObstacle.tidy (h : w.MovesObstacle index goal v) (hw : w.Tidy) : v.Tidy := by
  cases h with
  | stay => exact hw
  | move inside targets others =>
    refine ⟨hw.targets, nodup_set hw.obstacles others, fun c hc hmem => ?_⟩
    rcases List.mem_or_eq_of_mem_set hmem with hmem | rfl
    · exact hw.apart c hc hmem
    · exact targets hc

theorem Meets.tidy {contact : Option Contact} (h : w.Meets contact v) (hw : w.Tidy) : v.Tidy := by
  cases h with
  | off => exact hw
  | first targets =>
    obtain ⟨htargets, hobstacles, hapart⟩ := hw
    rw [targets] at htargets hapart
    exact ⟨(List.nodup_cons.mp htargets).2, hobstacles, fun c hc => hapart c (List.mem_cons_of_mem _ hc)⟩
  | later target moves => exact moves.tidy hw

/-- After a contact no target is where the drone is, unless the one that was reached could not move. -/
theorem Meets.clear {contact : Option Contact} (h : w.Meets contact v) (hw : w.Tidy) :
    v.droneCell ∉ v.targets ∨ ∃ index origin, contact = some (.unexpected index origin none) := by
  cases h with
  | off away => exact Or.inl away
  | first targets =>
    have hnodup := hw.targets
    rw [targets] at hnodup
    exact Or.inl (List.nodup_cons.mp hnodup).1
  | later target moves =>
    cases moves with
    | stay => exact Or.inr ⟨_, _, rfl⟩
    | @move c inside drone obstacles others =>
      refine Or.inl fun hmem => ?_
      obtain ⟨i, hi⟩ := List.mem_iff_getElem?.mp hmem
      rw [List.getElem?_set] at hi
      split at hi
      · split at hi
        · exact drone (Option.some.inj hi)
        · cases hi
      · next hother =>
        have hlt := (List.getElem?_eq_some_iff.mp target).1
        exact hother ((List.getElem?_inj hlt hw.targets).mp (target.trans hi.symm))

/-! ### Checked work -/

/-- Why work would be broken off where arithmetic, ranges and indices are checked. -/
inductive Halt where
  | overflow
  | emptyRange
  | badIndex
  deriving DecidableEq, Repr

namespace Checked

def pred (n : Int32) : Except Halt Int32 := if (n - 1).toInt = n.toInt - 1 then .ok (n - 1) else .error .overflow

def draw (low high : Int32) (d : Draws) : Except Halt (Int32 × Draws) :=
  if low < high then .ok (d.int32 low high) else .error .emptyRange

def randomCell (window : Window) (d : Draws) : Except Halt (Option Cell × Draws) :=
  if window.width < 3 ∨ window.height < 3 then .ok (none, d)
  else do
    let right ← pred window.width
    let (x, d) ← draw 1 right d
    let bottom ← pred window.height
    let (y, d) ← draw 1 bottom d
    .ok (some ⟨x, y⟩, d)

def search (window : Window) (occupied : Cell → Bool) : Nat → Draws → Except Halt (Option Cell × Draws)
  | 0, d => .ok (none, d)
  | attempts + 1, d => do
    match ← randomCell window d with
    | (some c, d) => if occupied c then search window occupied attempts d else .ok (some c, d)
    | (none, d) => search window occupied attempts d

/-- Moves an entry of a list to a free cell, if one is found. -/
def relocate (window : Window) (occupied : Cell → Bool) (cells : List Cell) (index : Nat) (d : Draws) :
    Except Halt (Option Cell × List Cell × Draws) := do
  match ← search window occupied Placement.maxAttempts d with
  | (some c, d) => if index < cells.length then .ok (some c, cells.set index c, d) else .error .badIndex
  | (none, d) => .ok (none, cells, d)

theorem randomCell_eq (window : Window) (d : Draws) :
    randomCell window d = .ok (Placement.randomCell window d) := by
  unfold randomCell Placement.randomCell
  split
  · rfl
  · next hsides =>
    rw [not_or] at hsides
    have hright : pred window.width = .ok (window.width - 1) := if_pos (Placement.toInt_pred hsides.1)
    have hbottom : pred window.height = .ok (window.height - 1) := if_pos (Placement.toInt_pred hsides.2)
    have hdraw : ∀ {side : Int32} (d : Draws), ¬side < 3 → draw 1 (side - 1) d = .ok (d.int32 1 (side - 1)) :=
      fun d h => if_pos (Placement.one_lt_pred h)
    rw [hright, hbottom]
    simp only [bind, Except.bind, hdraw _ hsides.1, hdraw _ hsides.2]

theorem search_eq (window : Window) (occupied : Cell → Bool) (n : Nat) (d : Draws) :
    search window occupied n d = .ok (Placement.search window occupied n d) := by
  induction n generalizing d with
  | zero => rfl
  | succ n ih =>
    rw [search, randomCell_eq, Placement.search]
    rcases Placement.randomCell window d with ⟨_ | c, later⟩
    · exact ih later
    · simp only [bind, Except.bind, ih]
      split <;> rfl

end Checked

/-- Checks find nothing wrong with the move of a target. -/
theorem checked_relocateTarget (h : index < w.targets.length) (d : Draws) :
    Checked.relocate w.window (w.targetBlocked index) w.targets index d =
      .ok ((w.relocateTarget index d).1, (w.relocateTarget index d).2.1.targets, (w.relocateTarget index d).2.2) := by
  rw [Checked.relocate, Checked.search_eq, relocateTarget, Placement.freeCell]
  rcases Placement.search w.window (w.targetBlocked index) Placement.maxAttempts d with ⟨_ | c, later⟩
  · rfl
  · exact if_pos h

/-- Checks find nothing wrong with the move of an obstacle. -/
theorem checked_relocateObstacle (h : index < w.obstacles.length) (d : Draws) :
    Checked.relocate w.window (w.obstacleBlocked index) w.obstacles index d =
      .ok ((w.relocateObstacle index d).1, (w.relocateObstacle index d).2.1.obstacles,
        (w.relocateObstacle index d).2.2) := by
  rw [Checked.relocate, Checked.search_eq, relocateObstacle, Placement.freeCell]
  rcases Placement.search w.window (w.obstacleBlocked index) Placement.maxAttempts d with ⟨_ | c, later⟩
  · rfl
  · exact if_pos h

/-! ### Consistency -/

/-- An entry moves without a fault, and then to a free cell inside the border; nothing else changes. So a tidy world
    stays tidy, and the drone is on no target after a contact unless the target could not move. -/
theorem relocation_keeps_tidy (w : World) (d : Draws) :
    (∀ index < w.targets.length,
      Checked.relocate w.window (w.targetBlocked index) w.targets index d =
          .ok ((w.relocateTarget index d).1, (w.relocateTarget index d).2.1.targets, (w.relocateTarget index d).2.2) ∧
        w.MovesTarget index (w.relocateTarget index d).1 (w.relocateTarget index d).2.1) ∧
    (∀ index < w.obstacles.length,
      Checked.relocate w.window (w.obstacleBlocked index) w.obstacles index d =
          .ok ((w.relocateObstacle index d).1, (w.relocateObstacle index d).2.1.obstacles,
            (w.relocateObstacle index d).2.2) ∧
        w.MovesObstacle index (w.relocateObstacle index d).1 (w.relocateObstacle index d).2.1) ∧
    (w.Tidy →
      (∀ index, (w.relocateTarget index d).2.1.Tidy) ∧ (∀ index, (w.relocateObstacle index d).2.1.Tidy) ∧
        (w.resolveContact d).2.1.Tidy ∧
        ((w.resolveContact d).2.1.droneCell ∉ (w.resolveContact d).2.1.targets ∨
          ∃ index origin, (w.resolveContact d).1 = some (.unexpected index origin none))) := by
  refine ⟨fun index h => ⟨checked_relocateTarget h d, w.movesTarget index d⟩,
    fun index h => ⟨checked_relocateObstacle h d, w.movesObstacle index d⟩, fun hw => ⟨fun index => ?_,
      fun index => ?_, (w.meets d).tidy hw, (w.meets d).clear hw⟩⟩
  · exact (w.movesTarget index d).tidy hw
  · exact (w.movesObstacle index d).tidy hw

/-- The drone is on the second of two targets in a small window, and there is one free cell besides its own. -/
def crowded : World :=
  { empty with window := ⟨4, 4⟩, drone := ⟨2, 1⟩, targets := [⟨1, 1⟩, ⟨2, 1⟩], obstacles := [⟨1, 2⟩] }

theorem crowded_tidy : crowded.Tidy := ⟨by decide, by decide, by decide⟩

/-- Its target moves to the free cell, after some draws in vain. -/
theorem crowded_stays_tidy : ∃ d,
    (crowded.resolveContact d).1 = some (.unexpected 1 ⟨2, 1⟩ (some ⟨2, 2⟩)) ∧ (crowded.resolveContact d).2.1.Tidy ∧
      crowded.MovesTarget 1 (some ⟨2, 2⟩) (crowded.relocateTarget 1 d).2.1 ∧
      crowded.MovesObstacle 0 (crowded.relocateObstacle 0 d).1 (crowded.relocateObstacle 0 d).2.1 := by
  have hcontact : (crowded.resolveContact (.cycle #[0, 0, 0, 2147483648, 2147483648])).1 =
      some (.unexpected 1 ⟨2, 1⟩ (some ⟨2, 2⟩)) := by decide +kernel
  have hgoal : (crowded.relocateTarget 1 (.cycle #[0, 0, 0, 2147483648, 2147483648])).1 = some ⟨2, 2⟩ := by
    decide +kernel
  obtain ⟨htargets, hobstacles, htidy⟩ := relocation_keeps_tidy crowded (.cycle #[0, 0, 0, 2147483648, 2147483648])
  have hmove := (htargets 1 (by decide)).2
  rw [hgoal] at hmove
  exact ⟨_, hcontact, (htidy crowded_tidy).2.2.1, hmove, (hobstacles 0 (by decide)).2⟩

end World
end GridFlight
