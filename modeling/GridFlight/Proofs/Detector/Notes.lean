import GridFlight.Proofs.Detector.Pass

/-! What a detector asks, with the moments. The timed surroundings answer as the given ones do and note every question
    with its answer and with the moments at which it was asked and answered. -/

namespace GridFlight

open Registry (Entry)

namespace Detector

/-- A question with its answer, and the moments at which it was asked and answered. -/
structure Note where
  event : Event
  asked : Nat
  answered : Nat

section
variable {σ α : Type}

/-- What a question of this kind answers, with a note of it. -/
def Surroundings.noted (env : Surroundings σ) (s : σ × List Note) (event : α → Event) (answer : α × σ) :
    α × σ × List Note :=
  (answer.1, answer.2, s.2 ++ [⟨event answer.1, env.now s.1, env.now answer.2⟩])

/-- The same surroundings, with a note of every question. -/
def Surroundings.timed (env : Surroundings σ) : Surroundings (σ × List Note) where
  publish e s := env.noted s (.published e) (env.publish e s.1)
  withdraw e s := env.noted s (.withdrew e) (env.withdraw e s.1)
  refresh s := env.noted s .refreshed (env.refresh s.1)
  probe role timeout s := env.noted s (.probed role timeout) (env.probe role timeout s.1)
  pause millis s := env.noted s (.paused millis) (env.pause millis s.1)
  kill members s := env.noted s (.killed members) (env.kill members s.1)
  now s := env.now s.1

/-- The notes of a run so far. -/
def notes (env : Surroundings σ) (d : Detector) (s : σ) (n : Nat) : List Note :=
  (after env.timed d (s, []) n).2.2

/-- The notes of one pass. -/
def cycleNotes (env : Surroundings σ) (d : Detector) (s : σ) : List Note := (cycle env.timed d (s, [])).2.2.2

variable (env : Surroundings σ) (d : Detector) (s : σ)

/-- The note of a step in a pass. -/
def noteInPass (pass : Pass) : Option Note :=
  (askedInPass env d s pass).map fun e => ⟨e, env.now s, env.now (passStep env d s pass).2.2⟩

/-- The note of a step. -/
def noteOf : Option Note := (asked env d s).map fun e => ⟨e, env.now s, env.now (step env d s).2⟩

/-! ### Taking notes -/

theorem passStep_timed (log : List Note) (pass : Pass) :
    passStep env.timed d (s, log) pass =
      ((passStep env d s pass).1, (passStep env d s pass).2.1, (passStep env d s pass).2.2,
        log ++ (noteInPass env d s pass).toList) := by
  cases pass with
  | reading => rfl
  | probing member rest count skipped => rfl
  | rechecking member outcome rest count skipped => rfl
  | finished report =>
    simp only [passStep, noteInPass, askedInPass, Option.map_none, Option.toList_none, List.append_nil]

theorem step_timed (log : List Note) :
    step env.timed d (s, log) = ((step env d s).1, (step env d s).2, log ++ (noteOf env d s).toList) := by
  cases hd : d.stage with
  | publishing =>
    rcases h : env.publish d.self s with ⟨_ | _, t⟩ <;>
      simp [step, noteOf, asked, hd, Surroundings.timed, Surroundings.noted, h]
  | pausing millis =>
    rcases h : env.pause millis s with ⟨_ | _, t⟩ <;>
      simp [step, noteOf, asked, hd, Surroundings.timed, Surroundings.noted, h]
  | passing pass =>
    rcases h : passStep env d s pass with ⟨next, d', t⟩
    cases next <;> simp [step, noteOf, asked, hd, passStep_timed, noteInPass, h]
  | gathering failed => simp [step, noteOf, asked, hd, Surroundings.timed, Surroundings.noted]
  | killing failed members =>
    rcases h : env.kill members s with ⟨_ | _, t⟩ <;>
      simp [step, noteOf, asked, hd, Surroundings.timed, Surroundings.noted, h]
  | leaving => simp [step, noteOf, asked, hd, Surroundings.timed, Surroundings.noted]
  | ended result => simp [step, noteOf, asked, hd]

/-- Taking notes does not change a run. -/
theorem after_timed (n : Nat) :
    after env.timed d (s, []) n = ((after env d s n).1, (after env d s n).2, notes env d s n) := by
  have hrun : ∀ n, (after env.timed d (s, []) n).1 = (after env d s n).1 ∧
      (after env.timed d (s, []) n).2.1 = (after env d s n).2 := by
    intro n
    induction n with
    | zero => exact ⟨rfl, rfl⟩
    | succ n ih =>
      obtain ⟨hd, hs⟩ := ih
      simp only [after]
      rw [← Prod.eta (after env.timed d (s, []) n).2, step_timed, hd, hs]
      exact ⟨rfl, rfl⟩
  obtain ⟨hd, hs⟩ := hrun n
  rw [← hd, ← hs, notes]

theorem notes_succ (n : Nat) :
    notes env d s (n + 1) = notes env d s n ++ (noteOf env (after env d s n).1 (after env d s n).2).toList := by
  rw [notes, after, after_timed]
  simp only [step_timed]

/-- The notes of a run are its history, with the moments. -/
theorem map_event_notes (n : Nat) : (notes env d s n).map Note.event = history env d s n := by
  induction n with
  | zero => rfl
  | succ n ih =>
    rw [notes_succ, history_succ, List.map_append, ih, noteOf]
    cases asked env (after env d s n).1 (after env d s n).2 <;> rfl

/-! ### One pass -/

theorem passStep_keeps (pass : Pass) :
    (passStep env d s pass).2.1.pid = d.pid ∧ (passStep env d s pass).2.1.config = d.config := by
  cases pass with
  | reading =>
    simp only [passStep, begin]
    split <;> exact ⟨rfl, rfl⟩
  | probing =>
    simp only [passStep, Detector.probed]
    split <;> exact ⟨rfl, rfl⟩
  | rechecking =>
    simp only [passStep, rechecked]
    split <;> exact ⟨rfl, rfl⟩
  | finished => exact ⟨rfl, rfl⟩

theorem passFrom_finished (fuel : Nat) (report : Report) :
    passFrom env fuel d s (.finished report) = (report, d, s) := by
  cases fuel <;> rfl

theorem passFrom_succ (fuel : Nat) (pass : Pass) :
    passFrom env (fuel + 1) d s pass =
      passFrom env fuel (passStep env d s pass).2.1 (passStep env d s pass).2.2 (passStep env d s pass).1 := by
  cases pass with
  | finished report => rw [passFrom_finished, passStep, passFrom_finished]
  | reading | probing | rechecking => rfl

/-- Taking notes does not change a pass. -/
theorem passFrom_timed (fuel : Nat) (log : List Note) (pass : Pass) :
    (passFrom env.timed fuel d (s, log) pass).1 = (passFrom env fuel d s pass).1 ∧
      (passFrom env.timed fuel d (s, log) pass).2.1 = (passFrom env fuel d s pass).2.1 ∧
      (passFrom env.timed fuel d (s, log) pass).2.2.1 = (passFrom env fuel d s pass).2.2 := by
  induction fuel generalizing d s log pass with
  | zero => cases pass <;> exact ⟨rfl, rfl, rfl⟩
  | succ fuel ih =>
    rw [passFrom_succ, passFrom_succ, passStep_timed]
    exact ih _ _ _ _

theorem cycle_timed : cycle env.timed d (s, []) =
    ((cycle env d s).1, (cycle env d s).2.1, (cycle env d s).2.2, cycleNotes env d s) := by
  obtain ⟨hreport, hd, hs⟩ := passFrom_timed env d s (2 * Role.all.length + 2) [] .reading
  exact Prod.ext hreport (Prod.ext hd (Prod.ext hs rfl))

/-- The most questions that a pass still has. -/
def Pass.budget : Pass → Nat
  | .reading => 2 * Role.all.length + 1
  | .probing _ rest _ _ => 2 * rest.length + 2
  | .rechecking _ _ rest _ _ => 2 * rest.length + 1
  | .finished _ => 0

theorem budget_next (rest : List Entry) (probed skipped : Nat) :
    (Pass.next rest probed skipped).budget ≤ 2 * rest.length := by
  cases rest with
  | nil => exact Nat.zero_le _
  | cons m rest => simp only [Pass.next, Pass.budget, List.length_cons]; omega

/-- Every question brings a pass nearer to its report. -/
theorem budget_passStep (pass : Pass) : (passStep env d s pass).1.budget ≤ pass.budget - 1 := by
  cases pass with
  | reading =>
    have hmembers := length_membersOf_le d.pid ((env.refresh s).1.toOption.getD [])
    simp only [passStep, begin]
    split
    · exact Nat.zero_le _
    · next m rest hsome =>
      rw [hsome, List.length_cons] at hmembers
      simp only [Pass.budget]
      omega
  | probing m rest count skipped =>
    simp only [passStep, probed]
    split
    · exact Nat.le_trans (budget_next rest (count + 1) skipped) (Nat.le_succ _)
    · exact Nat.le_refl _
  | rechecking m outcome rest count skipped =>
    simp only [passStep, rechecked]
    split
    · exact Nat.zero_le _
    · exact budget_next rest count (skipped + 1)
  | finished report => exact Nat.zero_le _

/-- What every question of a pass keeps is there when the pass reports. -/
theorem passFrom_induction {motive : Pass → Detector → σ → Prop}
    (step : ∀ pass d s, motive pass d s →
      motive (passStep env d s pass).1 (passStep env d s pass).2.1 (passStep env d s pass).2.2)
    (fuel : Nat) {pass : Pass} {d : Detector} {s : σ} (hfuel : pass.budget ≤ fuel) (h : motive pass d s) :
    motive (.finished (passFrom env fuel d s pass).1) (passFrom env fuel d s pass).2.1
      (passFrom env fuel d s pass).2.2 := by
  induction fuel generalizing d s pass with
  | zero =>
    cases pass with
    | finished report => exact h
    | reading | probing | rechecking => cases hfuel
  | succ fuel ih =>
    have hbudget := budget_passStep env d s pass
    rw [passFrom_succ]
    exact ih (by omega) (step pass d s h)

/-- A whole pass keeps what every question of it keeps. -/
theorem cycle_induction {motive : Pass → Detector → σ → Prop}
    (step : ∀ pass d s, motive pass d s →
      motive (passStep env d s pass).1 (passStep env d s pass).2.1 (passStep env d s pass).2.2)
    {d : Detector} {s : σ} (h : motive .reading d s) :
    motive (.finished (cycle env d s).1) (cycle env d s).2.1 (cycle env d s).2.2 :=
  passFrom_induction env step (2 * Role.all.length + 2) (Nat.le_succ _) h

end

end Detector
end GridFlight
