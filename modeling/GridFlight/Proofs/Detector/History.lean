import GridFlight.Detector

/-! What a detector asks of its surroundings. The recorded surroundings answer as the given ones do and note every
    question with its answer, so that a run leaves its history. -/

namespace GridFlight

open Registry (Entry)

namespace Detector

/-- A question to the surroundings, with its answer. -/
inductive Event where
  | published (e : Entry) (answer : Except SystemError Unit)
  | withdrew (e : Entry) (answer : Except SystemError Bool)
  | refreshed (answer : Except SystemError (List Entry))
  | probed (role : Role) (timeout : Nat) (outcome : Heartbeat.Outcome)
  | paused (millis : Nat) (told : Bool)
  | killed (members : List Entry) (answer : Except SystemError Unit)

namespace Event

def isKill : Event → Bool
  | killed _ _ => true
  | _ => false

def probedRole? : Event → Option Role
  | probed role _ _ => some role
  | _ => none

end Event

section
variable {σ : Type}

/-- The same surroundings, with a note of every question. -/
def Surroundings.recorded (env : Surroundings σ) : Surroundings (σ × List Event) where
  publish e s := let (answer, t) := env.publish e s.1; (answer, t, s.2 ++ [.published e answer])
  withdraw e s := let (answer, t) := env.withdraw e s.1; (answer, t, s.2 ++ [.withdrew e answer])
  refresh s := let (answer, t) := env.refresh s.1; (answer, t, s.2 ++ [.refreshed answer])
  probe role timeout s :=
    let (outcome, t) := env.probe role timeout s.1
    (outcome, t, s.2 ++ [.probed role timeout outcome])
  pause millis s := let (told, t) := env.pause millis s.1; (told, t, s.2 ++ [.paused millis told])
  kill members s := let (answer, t) := env.kill members s.1; (answer, t, s.2 ++ [.killed members answer])
  now s := env.now s.1

/-! ### Runs -/

/-- A detector and its surroundings after so many questions. -/
def after (env : Surroundings σ) (d : Detector) (s : σ) : Nat → Detector × σ
  | 0 => (d, s)
  | n + 1 => let (d, s) := after env d s n; step env d s

/-- The questions so far, with their answers. -/
def history (env : Surroundings σ) (d : Detector) (s : σ) (n : Nat) : List Event :=
  (after env.recorded d (s, []) n).2.2

/-- The question of a step in a pass, with its answer. -/
def askedInPass (env : Surroundings σ) (d : Detector) (s : σ) : Pass → Option Event
  | .reading | .rechecking .. => some (.refreshed (env.refresh s).1)
  | .probing member .. =>
    let timeout := d.config.timeoutFor member.role
    some (.probed member.role timeout (env.probe member.role timeout s).1)
  | .finished _ => none

/-- The question of a step, with its answer. -/
def asked (env : Surroundings σ) (d : Detector) (s : σ) : Option Event :=
  match d.stage with
  | .publishing => some (.published d.self (env.publish d.self s).1)
  | .pausing millis => some (.paused millis (env.pause millis s).1)
  | .passing pass => askedInPass env d s pass
  | .gathering _ => some (.refreshed (env.refresh s).1)
  | .killing _ members => some (.killed members (env.kill members s).1)
  | .leaving => some (.withdrew d.self (env.withdraw d.self s).1)
  | .ended _ => none

variable (env : Surroundings σ) (d : Detector) (s : σ)

theorem passStep_recorded (log : List Event) (pass : Pass) :
    passStep env.recorded d (s, log) pass =
      ((passStep env d s pass).1, (passStep env d s pass).2.1, (passStep env d s pass).2.2,
        log ++ (askedInPass env d s pass).toList) := by
  cases pass with
  | reading => rfl
  | probing member rest count skipped => rfl
  | rechecking member outcome rest count skipped => rfl
  | finished report => simp only [passStep, askedInPass, Option.toList_none, List.append_nil]

theorem step_recorded (log : List Event) :
    step env.recorded d (s, log) = ((step env d s).1, (step env d s).2, log ++ (asked env d s).toList) := by
  cases hd : d.stage with
  | publishing =>
    rcases h : env.publish d.self s with ⟨_ | _, t⟩ <;> simp [step, asked, hd, Surroundings.recorded, h]
  | pausing millis =>
    rcases h : env.pause millis s with ⟨_ | _, t⟩ <;> simp [step, asked, hd, Surroundings.recorded, h]
  | passing pass =>
    rcases h : passStep env d s pass with ⟨next, d', t⟩
    cases next <;> simp [step, asked, hd, passStep_recorded, h]
  | gathering failed => simp [step, asked, hd, Surroundings.recorded]
  | killing failed members =>
    rcases h : env.kill members s with ⟨_ | _, t⟩ <;> simp [step, asked, hd, Surroundings.recorded, h]
  | leaving => simp [step, asked, hd, Surroundings.recorded]
  | ended result => simp [step, asked, hd]

/-- Taking notes does not change a run. -/
theorem after_recorded (n : Nat) :
    after env.recorded d (s, []) n = ((after env d s n).1, (after env d s n).2, history env d s n) := by
  have hrun : ∀ n, (after env.recorded d (s, []) n).1 = (after env d s n).1 ∧
      (after env.recorded d (s, []) n).2.1 = (after env d s n).2 := by
    intro n
    induction n with
    | zero => exact ⟨rfl, rfl⟩
    | succ n ih =>
      obtain ⟨hd, hs⟩ := ih
      simp only [after]
      rw [← Prod.eta (after env.recorded d (s, []) n).2, step_recorded, hd, hs]
      exact ⟨rfl, rfl⟩
  obtain ⟨hd, hs⟩ := hrun n
  rw [← hd, ← hs, history]

theorem history_succ (n : Nat) :
    history env d s (n + 1) =
      history env d s n ++ (asked env (after env d s n).1 (after env d s n).2).toList := by
  rw [history, after, after_recorded]
  simp only [step_recorded]

end

end Detector
end GridFlight
