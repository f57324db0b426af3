import GridFlight.Physics
import GridFlight.Proofs.Number.Halves

/-! Where the drone is, whatever the parameters of its motion are. The first window puts it into its middle, which is
    finite, and no other message and no key moves it. A step moves it only afterwards, and only to a finite position:
    what is no number is given up for the position before, and so is a position too near to an obstacle. -/

namespace GridFlight
namespace Physics

variable {α : Type} [Scalar α]

/-! ### Runs -/

/-- What the part can be made to do. -/
inductive Act where
  | message (m : Message)
  | key (key : Char)
  | step

def act (p : Physics α) : Act → Physics α
  | .message m => (p.apply m).2
  | .key key => p.press key
  | .step => p.step.2

/-- The drone after some acts, from its beginning on. -/
def after (config : Config α) (acts : List Act) : Physics α := acts.foldl act (new config)

theorem after_concat (config : Config α) (acts : List Act) (a : Act) :
    after config (acts ++ [a]) = act (after config acts) a := by
  rw [after, List.foldl_append]
  rfl

/-! ### Windows -/

def windowOf? : Message → Option Window
  | .size width height => some ⟨width, height⟩
  | _ => none

def Act.window? : Act → Option Window
  | .message m => windowOf? m
  | _ => none

/-- The windows of a run, in order. -/
def windows (acts : List Act) : List Window := acts.filterMap Act.window?

theorem windows_concat_of_none {a : Act} (h : a.window? = none) (acts : List Act) :
    windows (acts ++ [a]) = windows acts := by
  rw [windows, List.filterMap_append, List.filterMap_cons_none h, List.filterMap_nil, List.append_nil]
  rfl

theorem windows_concat_of_some {a : Act} {window : Window} (h : a.window? = some window) (acts : List Act) :
    windows (acts ++ [a]) ≠ [] := by
  rw [windows, List.filterMap_append, List.filterMap_cons_some h]
  exact List.append_ne_nil_of_right_ne_nil _ (List.cons_ne_nil _ _)

/-- The middle of a window. -/
def middle (window : Window) : Vec α :=
  ⟨Scalar.ofInt32 window.width / Scalar.two, Scalar.ofInt32 window.height / Scalar.two⟩

/-! ### What moves the drone -/

theorem press_cases (p : Physics α) (key : Char) :
    (p.press key).position = p.position ∧ (p.press key).spawned = p.spawned := by
  unfold press
  split
  · exact ⟨rfl, rfl⟩
  · split <;> exact ⟨rfl, rfl⟩

/-- A message without a window leaves the drone where it is. -/
theorem apply_of_no_window (p : Physics α) {m : Message} (h : windowOf? m = none) :
    (∀ point, (p.apply m).1 ≠ .report point) ∧ (p.apply m).2.position = p.position ∧
      (p.apply m).2.spawned = p.spawned := by
  cases m with
  | size => cases h
  | input key =>
    by_cases hquit : key = 'q'
    · have happly : p.apply (.input key) = (.exit, p) := if_pos hquit
      rw [happly]
      exact ⟨nofun, rfl, rfl⟩
    · have happly : p.apply (.input key) = (.none, p.press key) := if_neg hquit
      rw [happly]
      exact ⟨nofun, (p.press_cases key).1, (p.press_cases key).2⟩
  | _ => exact ⟨nofun, rfl, rfl⟩

theorem eq_size_of_windowOf? {m : Message} {window : Window} (h : windowOf? m = some window) :
    m = .size window.width window.height := by
  cases m with
  | size => cases h; rfl
  | _ => cases h

/-- The first window places the drone. -/
theorem apply_first_window {p : Physics α} (h : p.spawned = false) (window : Window) :
    p.apply (.size window.width window.height) =
      (.report (middle window), { p.place (middle window) with window := window, command := .zero }) :=
  if_neg (by rw [h]; exact Bool.false_ne_true)

/-- Later ones do not. -/
theorem apply_later_window {p : Physics α} (h : p.spawned = true) (window : Window) :
    p.apply (.size window.width window.height) = (.none, { p with window := window }) :=
  if_pos h

theorem spawned_apply (p : Physics α) {m : Message} {window : Window} (h : windowOf? m = some window) :
    (p.apply m).2.spawned = true := by
  rw [eq_size_of_windowOf? h]
  cases hspawned : p.spawned with
  | false => rw [apply_first_window hspawned]; rfl
  | true => rw [apply_later_window hspawned]; exact hspawned

/-! ### Steps -/

/-- Where a step leads if no obstacle is near: to the next position, or nowhere where that is no number. -/
def aim (p : Physics α) : Vec α :=
  let next := advance p.config (capped p.config p.forces.total) p.previous p.position
  if next.isFinite then next else p.position

theorem step_of_spawned {p : Physics α} (h : p.spawned = true) :
    p.step.2 = { p with
      lastForces := p.forces, previous := p.position,
      position := if collides p.obstacles p.aim then p.position else p.aim } := by
  simp only [step, h]
  rfl

theorem step_of_not_spawned {p : Physics α} (h : p.spawned = false) : p.step.2 = { p with lastForces := p.forces } := by
  simp only [step, h]
  rfl

theorem step_spawned (p : Physics α) : p.step.2.spawned = p.spawned := by
  cases h : p.spawned with
  | false => rw [step_of_not_spawned h, ← h]
  | true => rw [step_of_spawned h, ← h]

theorem isFinite_aim {p : Physics α} (h : p.position.isFinite = true) : p.aim.isFinite = true := by
  unfold aim
  dsimp only
  split
  · next hnext => exact hnext
  · exact h

theorem isFinite_step {p : Physics α} (h : p.position.isFinite = true) : p.step.2.position.isFinite = true := by
  cases hspawned : p.spawned with
  | false =>
    rw [step_of_not_spawned hspawned]
    exact h
  | true =>
    rw [step_of_spawned hspawned]
    cases hcollides : collides p.obstacles p.aim with
    | false => exact isFinite_aim h
    | true => exact h

/-! ### Invariants of runs -/

/-- The drone has been placed once a window has come. -/
theorem spawned_iff (config : Config α) (acts : List Act) :
    (after config acts).spawned = true ↔ windows acts ≠ [] := by
  induction acts using List.reverseRecOn with
  | nil => exact ⟨fun h => absurd h Bool.false_ne_true, fun h => absurd rfl h⟩
  | append_singleton acts a ih =>
    rw [after_concat]
    cases a with
    | message m =>
      cases hwindow : windowOf? m with
      | none =>
        have hact : (Act.message m).window? = none := hwindow
        rw [windows_concat_of_none hact, ← ih]
        exact Bool.eq_iff_iff.mp ((after config acts).apply_of_no_window hwindow).2.2
      | some window =>
        have hact : (Act.message m).window? = some window := hwindow
        exact ⟨fun _ => windows_concat_of_some hact acts, fun _ => (after config acts).spawned_apply hwindow⟩
    | key key =>
      rw [windows_concat_of_none rfl, ← ih]
      exact Bool.eq_iff_iff.mp ((after config acts).press_cases key).2
    | step =>
      rw [windows_concat_of_none rfl, ← ih]
      exact Bool.eq_iff_iff.mp (after config acts).step_spawned

/-! ### The middle of a window -/

/-- In double precision it is where it is in the plane. -/
theorem rational?_middle (window : Window) :
    Number.rational? (middle window : Vec Float).x = some ((window.width.toInt : ℚ) / 2) ∧
      Number.rational? (middle window : Vec Float).y = some ((window.height.toInt : ℚ) / 2) := by
  have hhalf : ∀ n : Int32,
      Number.rational? (Scalar.ofInt32 n / Scalar.two : Float) = some ((n.toInt : ℚ) / 2) := by
    intro n
    have hlow := n.le_toInt
    have hhigh := n.toInt_lt
    exact Number.rational?_half (by omega)
  exact ⟨hhalf window.width, hhalf window.height⟩

theorem isFinite_middle (window : Window) : (middle window : Vec Float).isFinite = true := by
  obtain ⟨hx, hy⟩ := rational?_middle window
  have hfinite : ∀ {x : Float} {q : ℚ}, Number.rational? x = some q → Scalar.isFinite x = true := by
    intro x q h
    show x.isFinite = true
    rw [← Number.isSome_rational?, h]
    rfl
  rw [Vec.isFinite, hfinite hx, hfinite hy]
  rfl

/-- The position that is reported, if any, and else the position before. -/
def Reaction.positionFrom (before : Vec α) : Reaction α → Vec α
  | .report point => point
  | .none | .exit => before

theorem apply_position (p : Physics α) (m : Message) :
    (p.apply m).2.position = (p.apply m).1.positionFrom p.position := by
  cases hwindow : windowOf? m with
  | none =>
    obtain ⟨hsilent, hposition, -⟩ := p.apply_of_no_window hwindow
    cases hreaction : (p.apply m).1 with
    | report point => exact absurd hreaction (hsilent point)
    | none => exact hposition
    | exit => exact hposition
  | some window =>
    rw [eq_size_of_windowOf? hwindow]
    cases hspawned : p.spawned with
    | false => rw [apply_first_window hspawned]; rfl
    | true => rw [apply_later_window hspawned]; rfl

theorem apply_report_iff (p : Physics α) (m : Message) (point : Vec α) :
    (p.apply m).1 = .report point ↔
      p.spawned = false ∧ ∃ window, windowOf? m = some window ∧ point = middle window := by
  cases hwindow : windowOf? m with
  | none =>
    obtain ⟨hsilent, -, -⟩ := p.apply_of_no_window hwindow
    exact ⟨fun h => absurd h (hsilent point), fun ⟨_, _, h, _⟩ => nomatch h⟩
  | some window =>
    rw [eq_size_of_windowOf? hwindow]
    cases hspawned : p.spawned with
    | false =>
      rw [apply_first_window hspawned]
      constructor
      · intro h
        cases h
        exact ⟨rfl, window, rfl, rfl⟩
      · rintro ⟨-, _, ⟨⟩, rfl⟩
        rfl
    | true =>
      rw [apply_later_window hspawned]
      exact ⟨nofun, fun ⟨h, _⟩ => nomatch h⟩

theorem isFinite_act {p : Physics Float} (h : p.position.isFinite = true) (a : Act) :
    (p.act a).position.isFinite = true := by
  cases a with
  | message m =>
    show (p.apply m).2.position.isFinite = true
    rw [apply_position]
    cases hreaction : (p.apply m).1 with
    | report point =>
      obtain ⟨-, window, -, rfl⟩ := (p.apply_report_iff m point).mp hreaction
      exact isFinite_middle window
    | none => exact h
    | exit => exact h
  | key key => exact (p.press_cases key).1 ▸ h
  | step => exact isFinite_step h

theorem isFinite_after (config : Config Float) (acts : List Act) :
    (after config acts).position.isFinite = true := by
  induction acts using List.reverseRecOn with
  | nil =>
    show (Vec.zero : Vec Float).isFinite = true
    decide
  | append_singleton acts a ih =>
    rw [after_concat]
    exact isFinite_act ih a

/-- The position is finite after any run, whatever the parameters. Exactly the first window is answered with a report,
    of its middle, and puts the drone there; no other message and no key moves it, nor does a step before that. -/
theorem finite_and_placed_once (config : Config Float) (acts : List Act) :
    (after config acts).position.isFinite = true ∧
      (∀ m point, ((after config acts).apply m).1 = .report point ↔
        windows acts = [] ∧ ∃ window, windowOf? m = some window ∧ point = middle window) ∧
      (∀ m, ((after config acts).apply m).2.position =
        ((after config acts).apply m).1.positionFrom (after config acts).position) ∧
      (∀ key, ((after config acts).press key).position = (after config acts).position) ∧
      (windows acts = [] → (after config acts).step.2.position = (after config acts).position) ∧
      ∀ window, Number.rational? (middle window : Vec Float).x = some ((window.width.toInt : ℚ) / 2) ∧
        Number.rational? (middle window : Vec Float).y = some ((window.height.toInt : ℚ) / 2) := by
  have hspawned : (after config acts).spawned = false ↔ windows acts = [] := by
    rw [← Bool.not_eq_true, spawned_iff, not_not]
  refine ⟨isFinite_after config acts, fun m point => ?_, (after config acts).apply_position,
    fun key => ((after config acts).press_cases key).1, fun hnone => ?_, rational?_middle⟩
  · rw [apply_report_iff, hspawned]
  · rw [step_of_not_spawned (hspawned.mpr hnone)]

/-- Parameters none of which makes sense. -/
def Config.senseless : Config Float := ⟨0 / 0, 1 / 0, -1, 0, 0, -(1 / 0), 0 / 0⟩

/-- With these the drone waits for its window as with any others, and is at a finite position after the steps behind. -/
theorem senseless_placed_once :
    windows [.message (.obstacles [⟨2, 1⟩]), .key 'f', .step] = [] ∧
      ((after Config.senseless [.message (.obstacles [⟨2, 1⟩]), .key 'f', .step]).step.2.position =
        (after Config.senseless [.message (.obstacles [⟨2, 1⟩]), .key 'f', .step]).position) ∧
      ((after Config.senseless [.message (.obstacles [⟨2, 1⟩]), .key 'f', .step]).apply (.size 5 3)).1 =
        .report (middle ⟨5, 3⟩) ∧
      (after Config.senseless
        [.message (.obstacles [⟨2, 1⟩]), .message (.size 5 3), .key 'f', .step, .step]).position.isFinite = true := by
  obtain ⟨-, hreport, -, -, hstill, -⟩ :=
    finite_and_placed_once Config.senseless [.message (.obstacles [⟨2, 1⟩]), .key 'f', .step]
  refine ⟨rfl, hstill rfl, (hreport (.size 5 3) _).mpr ⟨rfl, ⟨5, 3⟩, rfl, rfl⟩, ?_⟩
  exact (finite_and_placed_once Config.senseless _).1

end Physics
end GridFlight
