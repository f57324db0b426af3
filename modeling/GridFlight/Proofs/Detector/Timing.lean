import Mathlib.Algebra.Ring.Nat
import GridFlight.Proofs.Detector.Kill
import GridFlight.Proofs.Detector.Notes
import GridFlight.Proofs.Heartbeat.Deadline

/-! When a detector does what it does, on a clock that only probes and pauses move. A pass starts when the probes and
    the pauses before it are over, and the kill for a silent member comes when the timeout of that member is over. -/

namespace GridFlight

open Registry (Entry)

namespace Detector

/-! ### The passes in the notes -/

/-- The passes in the notes. -/
def rounds (log : List Note) : List (List Note) := split Note.event log

def Note.isJoined (n : Note) : Prop :=
  match n.event with
  | .refreshed _ | .probed _ _ _ => True
  | _ => False

variable {config : Config} {own : Pid} {start moment cycles : Nat} {log round : List Note} {done : List (List Note)}
  {n : Note}

theorem rounds_concat (log : List Note) (n : Note) : rounds (log ++ [n]) = join Note.event (rounds log) n :=
  split_concat Note.event log n

theorem rounds_joined (h : rounds log = done ++ [round]) (hn : n.isJoined) :
    rounds (log ++ [n]) = done ++ [round ++ [n]] := by
  obtain ⟨event, asked, answered⟩ := n
  rw [rounds_concat, h]
  cases event with
  | refreshed | probed => simp [join]
  | published | withdrew | paused | killed => exact hn.elim

/-- The passes are those of the history, with the moments. -/
theorem map_rounds (log : List Note) : (rounds log).map (·.map Note.event) = passes (log.map Note.event) :=
  map_split Note.event log

/-! ### Durations -/

/-- The milliseconds that a probe took. Nothing else takes time in a pass. -/
def Note.took (n : Note) : Nat := if n.event.probedRole?.isSome then n.answered - n.asked else 0

/-- The milliseconds that the probes of a pass took. -/
def probing (round : List Note) : Nat := (round.map Note.took).sum

/-- The milliseconds from the start of a pass to the start of the next: its probes, and the pause behind it. -/
def span (config : Config) (own : Pid) (round : List Note) : Nat :=
  probing round + if membersIn own (round.map Note.event) = [] then config.idleMillis else config.cycleMillis

/-- The moment at which the pass behind these is to start. -/
def due (config : Config) (own : Pid) (start : Nat) (done : List (List Note)) : Nat :=
  start + config.warmupMillis + (done.map (span config own)).sum

theorem probing_concat (round : List Note) (n : Note) : probing (round ++ [n]) = probing round + n.took := by
  simp [probing]

theorem due_concat (done : List (List Note)) (round : List Note) :
    due config own start (done ++ [round]) = due config own start done + span config own round := by
  simp [due, Nat.add_assoc]

/-- Every pass has begun with its look at the registry at the moment at which it was to start. -/
def StartedOnTime (config : Config) (own : Pid) (start : Nat) (rounds : List (List Note)) : Prop :=
  ∀ done round later, rounds = done ++ round :: later → ∀ look ∈ round.head?, look.asked = due config own start done

namespace StartedOnTime

theorem nil : StartedOnTime config own start [] := by
  intro done round later h
  simp at h

theorem front (h : StartedOnTime config own start (done ++ [round])) : StartedOnTime config own start done := by
  intro earlier last later hdone
  exact h earlier last (later ++ [round]) (by simp [hdone])

theorem concat (h : StartedOnTime config own start done)
    (hround : ∀ look ∈ round.head?, look.asked = due config own start done) :
    StartedOnTime config own start (done ++ [round]) := by
  intro earlier last later hsplit
  rcases List.eq_nil_or_concat later with rfl | ⟨between, x, rfl⟩
  · obtain ⟨rfl, hlast⟩ := List.append_inj' hsplit rfl
    obtain rfl := List.singleton_inj.mp hlast
    exact hround
  · have hfront : done ++ [round] = (earlier ++ last :: between) ++ [x] := by rw [hsplit]; simp
    obtain ⟨rfl, -⟩ := List.append_inj' hfront rfl
    exact h earlier last between rfl

/-- A note that is not the first of its pass changes no start. -/
theorem joined (h : StartedOnTime config own start (done ++ [round])) (hbegun : round ≠ []) (n : Note) :
    StartedOnTime config own start (done ++ [round ++ [n]]) := by
  refine h.front.concat fun look hlook => h done round [] rfl look ?_
  rwa [List.head?_append_of_ne_nil _ hbegun] at hlook

end StartedOnTime

/-! ### A run on the clock -/

/-- Surroundings with a clock that only probes and pauses move, and in which nobody wishes to stop. -/
structure Surroundings.Clocked {σ : Type} (env : Surroundings σ) : Prop where
  publish : ∀ e s, env.now (env.publish e s).2 = env.now s
  refresh : ∀ s, env.now (env.refresh s).2 = env.now s
  probe : ∀ role timeout s, env.now s ≤ env.now (env.probe role timeout s).2
  pause : ∀ millis s, (env.pause millis s).1 = false ∧ env.now (env.pause millis s).2 = env.now s + millis

/-- What the clock shows at each stage of a run, and how many passes have begun. -/
def OnTime (config : Config) (own : Pid) (start : Nat) (log : List Note) (cycles moment : Nat) : Stage → Prop
  | .publishing => rounds log = [] ∧ cycles = 0 ∧ moment = start
  | .pausing millis => cycles = (rounds log).length ∧ moment + millis = due config own start (rounds log)
  | .passing .reading =>
    ∃ done, rounds log = done ++ [[]] ∧ cycles = done.length ∧ moment = due config own start done
  | .passing (.finished _) => False
  | .passing _ => ∃ done round, rounds log = done ++ [round] ∧ membersIn own (round.map Note.event) ≠ [] ∧
    cycles = done.length + 1 ∧ moment = due config own start done + probing round
  | .gathering _ | .killing _ _ => ∃ done round, rounds log = done ++ [round] ∧ round ≠ [] ∧
    cycles = done.length + 1 ∧ moment = due config own start done + probing round
  | .leaving | .ended _ => True

theorem onTime_next {rest : List Entry} (hrounds : rounds log = done ++ [round])
    (hmembers : membersIn own (round.map Note.event) ≠ [])
    (hcycles : cycles = done.length + 1) (hmoment : moment = due config own start done + probing round)
    (probed skipped : Nat) :
    OnTime config own start log cycles moment (stageOf config (.next rest probed skipped)) := by
  cases rest with
  | nil =>
    refine ⟨by rw [hrounds, hcycles, List.length_append, List.length_singleton], ?_⟩
    rw [hrounds, due_concat, span, if_neg hmembers, hmoment, Nat.add_assoc]
  | cons m rest => exact ⟨done, round, hrounds, hmembers, hcycles, hmoment⟩

theorem ne_nil_of_membersIn (h : membersIn own (round.map Note.event) ≠ []) : round ≠ [] := fun hnil => by
  rw [hnil] at h
  exact h rfl

theorem membersIn_joined (h : membersIn own (round.map Note.event) ≠ []) (n : Note) :
    membersIn own ((round ++ [n]).map Note.event) ≠ [] := by
  rw [List.map_append, List.map_singleton, membersIn_concat (by simpa using ne_nil_of_membersIn h)]
  exact h

section
variable {σ : Type} {env : Surroundings σ} {d : Detector} {s : σ}

/-- The first look of a pass counts it, and it is idle or goes on with a member. -/
theorem reading_cases (env : Surroundings σ) (d : Detector) (s : σ) :
    (passStep env d s .reading).2.1.cycles = d.cycles + 1 ∧
      (membersOf d.pid ((env.refresh s).1.toOption.getD []) = [] ∧ (passStep env d s .reading).1 = .finished .idle ∨
        membersOf d.pid ((env.refresh s).1.toOption.getD []) ≠ [] ∧
          ∃ m rest, (passStep env d s .reading).1 = .probing m rest 0 0) := by
  simp only [passStep, begin]
  split
  · next hnone => exact ⟨rfl, Or.inl ⟨hnone, rfl⟩⟩
  · next m rest hsome => exact ⟨rfl, Or.inr ⟨hsome ▸ List.cons_ne_nil m rest, m, rest, rfl⟩⟩

/-- A probe or a second look settles a member, leaves it to a second look, or fails the pass. -/
theorem settling_cases (env : Surroundings σ) (d : Detector) (s : σ) {current : Pass} (hbegun : current ≠ .reading)
    (hunfinished : ∀ report, current ≠ .finished report) :
    (passStep env d s current).2.1.cycles = d.cycles ∧
      ((∃ rest probed skipped, (passStep env d s current).1 = .next rest probed skipped) ∨
        (∃ m outcome rest probed skipped,
          (passStep env d s current).1 = .rechecking m outcome rest probed skipped) ∨
        ∃ failed, (passStep env d s current).1 = .finished (.failed failed)) := by
  cases current with
  | reading => exact absurd rfl hbegun
  | probing m rest probed skipped =>
    simp only [passStep, Detector.probed]
    split
    · exact ⟨rfl, Or.inl ⟨rest, probed + 1, skipped, rfl⟩⟩
    · exact ⟨rfl, Or.inr (Or.inl ⟨m, _, rest, probed, skipped, rfl⟩)⟩
  | rechecking m outcome rest probed skipped =>
    simp only [passStep, rechecked]
    split
    · exact ⟨rfl, Or.inr (Or.inr ⟨⟨m, outcome⟩, rfl⟩)⟩
    · exact ⟨rfl, Or.inl ⟨rest, probed, skipped + 1, rfl⟩⟩
  | finished report => exact absurd rfl (hunfinished report)

/-- A question of a pass takes the time of its probe. -/
theorem noteInPass_clocked (hclock : env.Clocked) (d : Detector) (s : σ) {current : Pass}
    (hunfinished : ∀ report, current ≠ .finished report) :
    ∃ n, noteInPass env d s current = some n ∧ n.isJoined ∧ n.asked = env.now s ∧
      askedInPass env d s current = some n.event ∧ env.now (passStep env d s current).2.2 = env.now s + n.took := by
  cases current with
  | reading | rechecking => exact ⟨_, rfl, trivial, rfl, rfl, hclock.refresh s⟩
  | probing m rest probed skipped =>
    have hnow := hclock.probe m.role (d.config.timeoutFor m.role) s
    exact ⟨_, rfl, trivial, rfl, rfl, (Nat.add_sub_cancel' hnow).symm⟩
  | finished report => exact absurd rfl (hunfinished report)

/-- The clock through the first look of a pass, which is on time. -/
theorem onTime_reading (hclock : env.Clocked) (hpid : d.pid = own)
    (h : OnTime config own start log d.cycles (env.now s) (.passing .reading))
    (hstarts : StartedOnTime config own start (rounds log)) :
    OnTime config own start (log ++ (noteInPass env d s .reading).toList) (passStep env d s .reading).2.1.cycles
        (env.now (passStep env d s .reading).2.2) (stageOf config (passStep env d s .reading).1) ∧
      StartedOnTime config own start (rounds (log ++ (noteInPass env d s .reading).toList)) := by
  obtain ⟨n, hnote, hjoined, hasked, hevent, hnow⟩ :=
    noteInPass_clocked hclock d s (show ∀ report, Pass.reading ≠ .finished report from nofun)
  obtain ⟨done, hrounds, hcycles, hmoment⟩ := h
  have hround : rounds (log ++ [n]) = done ++ [[n]] := rounds_joined hrounds hjoined
  have hprobing : env.now s + n.took = due config own start done + probing [n] := by
    rw [hmoment, probing, List.map_singleton, List.sum_singleton]
  have hmembers : membersIn own ([n].map Note.event) = membersOf d.pid ((env.refresh s).1.toOption.getD []) := by
    rw [List.map_singleton, ← Option.some.inj hevent, hpid]
    rfl
  have hstarted : StartedOnTime config own start (done ++ [[n]]) := by
    rw [hrounds] at hstarts
    refine hstarts.front.concat ?_
    rintro look ⟨⟩
    exact hasked.trans hmoment
  rw [hnote, Option.toList_some, hnow, hround]
  refine ⟨?_, hstarted⟩
  obtain ⟨hcounted, ⟨hnone, hnext⟩ | ⟨hsome, m, rest, hnext⟩⟩ := reading_cases env d s
  · rw [hnext, hcounted, hcycles]
    refine ⟨by rw [hround, List.length_append, List.length_singleton], ?_⟩
    rw [hround, due_concat, span, hmembers, if_pos hnone, hprobing, Nat.add_assoc]
  · rw [hnext, hcounted, hcycles]
    exact ⟨done, [n], hround, hmembers ▸ hsome, rfl, hprobing⟩

/-- The clock through a probe or a second look. -/
theorem onTime_settling (hclock : env.Clocked) {current : Pass} (hbegun : current ≠ .reading)
    (h : OnTime config own start log d.cycles (env.now s) (.passing current))
    (hstarts : StartedOnTime config own start (rounds log)) :
    OnTime config own start (log ++ (noteInPass env d s current).toList) (passStep env d s current).2.1.cycles
        (env.now (passStep env d s current).2.2) (stageOf config (passStep env d s current).1) ∧
      StartedOnTime config own start (rounds (log ++ (noteInPass env d s current).toList)) := by
  have hunfinished : ∀ report, current ≠ .finished report := by
    rintro report rfl
    exact h
  obtain ⟨n, hnote, hjoined, -, -, hnow⟩ := noteInPass_clocked hclock d s hunfinished
  obtain ⟨done, round, hrounds, hmembers, hcycles, hmoment⟩ : ∃ done round, rounds log = done ++ [round] ∧
      membersIn own (round.map Note.event) ≠ [] ∧ d.cycles = done.length + 1 ∧
        env.now s = due config own start done + probing round := by
    cases current with
    | reading => exact absurd rfl hbegun
    | probing | rechecking => exact h
    | finished => exact h.elim
  have hround : rounds (log ++ [n]) = done ++ [round ++ [n]] := rounds_joined hrounds hjoined
  have hprobing : env.now s + n.took = due config own start done + probing (round ++ [n]) := by
    rw [hmoment, probing_concat, Nat.add_assoc]
  have hjoinedMembers := membersIn_joined hmembers n
  obtain ⟨hcounted, hnext⟩ := settling_cases env d s hbegun hunfinished
  rw [hrounds] at hstarts
  rw [hnote, Option.toList_some, hnow, hcounted, hround]
  refine ⟨?_, hstarts.joined (ne_nil_of_membersIn hmembers) n⟩
  rcases hnext with ⟨rest, probed, skipped, hnext⟩ | ⟨m, outcome, rest, probed, skipped, hnext⟩ | ⟨failed, hnext⟩
  · rw [hnext]
    exact onTime_next hround hjoinedMembers hcycles hprobing probed skipped
  · rw [hnext]
    exact ⟨done, _, hround, hjoinedMembers, hcycles, hprobing⟩
  · rw [hnext]
    exact ⟨done, _, hround, by simp, hcycles, hprobing⟩

/-- The clock through one question of a pass, and the starts. -/
theorem onTime_passStep (hclock : env.Clocked) (hpid : d.pid = own) {current : Pass}
    (h : OnTime config own start log d.cycles (env.now s) (.passing current))
    (hstarts : StartedOnTime config own start (rounds log)) :
    OnTime config own start (log ++ (noteInPass env d s current).toList) (passStep env d s current).2.1.cycles
        (env.now (passStep env d s current).2.2) (stageOf config (passStep env d s current).1) ∧
      StartedOnTime config own start (rounds (log ++ (noteInPass env d s current).toList)) := by
  by_cases hreading : current = .reading
  · subst hreading
    exact onTime_reading hclock hpid h hstarts
  · exact onTime_settling hclock hreading h hstarts

theorem step_passing {current : Pass} (h : d.stage = .passing current) :
    step env d s =
      ({ (passStep env d s current).2.1 with
          stage := stageOf (passStep env d s current).2.1.config (passStep env d s current).1 },
        (passStep env d s current).2.2) := by
  rcases hstep : passStep env d s current with ⟨next, d', t⟩
  cases next <;> simp only [step, h, hstep] <;> rfl

/-- A detector at some point of a run on the clock. -/
structure Paced (config : Config) (own : Pid) (start : Nat) (log : List Note) (d : Detector) (moment : Nat) : Prop where
  samePid : d.pid = own
  sameConfig : d.config = config
  onTime : OnTime config own start log d.cycles moment d.stage
  started : StartedOnTime config own start (rounds log)

theorem Paced.step (hclock : env.Clocked) (h : Paced config own start log d (env.now s)) :
    Paced config own start (log ++ (noteOf env d s).toList) (step env d s).1 (env.now (step env d s).2) := by
  obtain ⟨hpid, hconfig, honTime, hstarted⟩ := h
  cases hd : d.stage with
  | publishing =>
    rw [hd] at honTime
    obtain ⟨hrounds, hcycles, hmoment⟩ := honTime
    have hnow := hclock.publish d.self s
    have hnone : ∀ answer answered, rounds (log ++ [⟨.published d.self answer, env.now s, answered⟩]) = [] :=
      fun _ _ => (rounds_concat _ _).trans hrounds
    rcases hanswer : env.publish d.self s with ⟨_ | _, t⟩
    · simp only [Detector.step, noteOf, asked, hd, hanswer, Option.map_some, Option.toList_some]
      exact ⟨hpid, hconfig, trivial, hnone _ _ ▸ StartedOnTime.nil⟩
    · rw [hanswer] at hnow
      simp only [Detector.step, noteOf, asked, hd, hanswer, Option.map_some, Option.toList_some]
      refine ⟨hpid, hconfig, ⟨by rw [hnone]; exact hcycles, ?_⟩, hnone _ _ ▸ StartedOnTime.nil⟩
      rw [hnone, hconfig, hnow, hmoment]
      rfl
  | pausing millis =>
    rw [hd] at honTime
    obtain ⟨hcycles, hmoment⟩ := honTime
    obtain ⟨htold, hnow⟩ := hclock.pause millis s
    have hround : ∀ told answered, rounds (log ++ [⟨.paused millis told, env.now s, answered⟩]) = rounds log ++ [[]] :=
      fun _ _ => rounds_concat _ _
    rcases hanswer : env.pause millis s with ⟨told, t⟩
    rw [hanswer] at htold hnow
    obtain rfl : told = false := htold
    simp only [Detector.step, noteOf, asked, hd, hanswer, Option.map_some, Option.toList_some]
    exact ⟨hpid, hconfig, ⟨rounds log, hround _ _, hcycles, hnow.trans hmoment⟩,
      hround _ _ ▸ hstarted.concat (by simp)⟩
  | passing current =>
    rw [hd] at honTime
    obtain ⟨honTime', hstarted'⟩ := onTime_passStep hclock hpid honTime hstarted
    obtain ⟨hpid', hconfig'⟩ := passStep_keeps env d s current
    have hnote : noteOf env d s = noteInPass env d s current := by
      rw [noteOf, asked, hd, step_passing hd]
      rfl
    rw [hnote, step_passing hd]
    exact ⟨hpid'.trans hpid, hconfig'.trans hconfig, (hconfig'.trans hconfig).symm ▸ honTime', hstarted'⟩
  | gathering failed =>
    rw [hd] at honTime
    obtain ⟨done, round, hrounds, hbegun, hcycles, hmoment⟩ := honTime
    have hnow := hclock.refresh s
    have hround := rounds_joined (n := ⟨.refreshed (env.refresh s).1, env.now s, env.now (env.refresh s).2⟩) hrounds
      trivial
    rw [hrounds] at hstarted
    simp only [Detector.step, noteOf, asked, hd, Option.map_some, Option.toList_some]
    refine ⟨hpid, hconfig, ⟨done, _, hround, by simp, hcycles, ?_⟩, hround ▸ hstarted.joined hbegun _⟩
    rw [hnow, hmoment, probing_concat]
    rfl
  | killing failed members =>
    have hround : ∀ answer answered, rounds (log ++ [⟨.killed members answer, env.now s, answered⟩]) = rounds log :=
      fun _ _ => rounds_concat _ _
    rcases hanswer : env.kill members s with ⟨_ | _, t⟩ <;>
      simp only [Detector.step, noteOf, asked, hd, hanswer, Option.map_some, Option.toList_some] <;>
      exact ⟨hpid, hconfig, trivial, hround _ _ ▸ hstarted⟩
  | leaving =>
    have hround : ∀ answer answered, rounds (log ++ [⟨.withdrew d.self answer, env.now s, answered⟩]) = rounds log :=
      fun _ _ => rounds_concat _ _
    simp only [Detector.step, noteOf, asked, hd, Option.map_some, Option.toList_some]
    exact ⟨hpid, hconfig, trivial, hround _ _ ▸ hstarted⟩
  | ended result =>
    simp only [Detector.step, noteOf, asked, hd, Option.map_none, Option.toList_none, List.append_nil]
    exact ⟨hpid, hconfig, hd ▸ trivial, hstarted⟩

theorem paced_after (hclock : env.Clocked) (config : Config) (own : Pid) (s : σ) (n : Nat) :
    Paced config own (env.now s) (notes env (.new config own) s n) (after env (.new config own) s n).1
      (env.now (after env (.new config own) s n).2) := by
  induction n with
  | zero => exact ⟨rfl, rfl, ⟨rfl, rfl, rfl⟩, StartedOnTime.nil⟩
  | succ n ih =>
    rw [notes_succ]
    exact ih.step hclock

/-! ### From pass to pass -/

section
variable {n : Nat}

theorem after_succ_passing {d : Detector} {s : σ} {current : Pass} (h : (after env d s n).1.stage = .passing current) :
    (after env d s (n + 1)).1.stage =
        stageOf (after env d s n).1.config (passStep env (after env d s n).1 (after env d s n).2 current).1 ∧
      (after env d s (n + 1)).1.cycles = (passStep env (after env d s n).1 (after env d s n).2 current).2.1.cycles ∧
      (after env d s (n + 1)).2 = (passStep env (after env d s n).1 (after env d s n).2 current).2.2 := by
  have hnext : after env d s (n + 1) = step env (after env d s n).1 (after env d s n).2 := rfl
  rw [hnext, step_passing h, (passStep_keeps env _ _ current).2]
  exact ⟨rfl, rfl, rfl⟩

/-- A pass that has looked for its members goes on to a pause or to a kill. -/
theorem passing_ends {d : Detector} {s : σ} {current : Pass} (h : (after env d s n).1.stage = .passing current)
    (hbegun : current ≠ .reading) (hunfinished : ∀ report, current ≠ .finished report) :
    ∃ later, (after env d s later).1.cycles = (after env d s n).1.cycles ∧
      ((∃ millis, (after env d s later).1.stage = .pausing millis) ∨
        ∃ failed, (after env d s later).1.stage = .gathering failed) := by
  induction hbudget : current.budget using Nat.strongRecOn generalizing n current with
  | ind budget ih =>
    obtain ⟨hstage, hcycles, -⟩ := after_succ_passing h
    obtain ⟨hcounted, hnext⟩ := settling_cases env (after env d s n).1 (after env d s n).2 hbegun hunfinished
    have hless := budget_passStep env (after env d s n).1 (after env d s n).2 current
    have hpositive : 0 < current.budget := by
      cases current with
      | reading => exact absurd rfl hbegun
      | probing | rechecking => exact Nat.succ_pos _
      | finished report => exact absurd rfl (hunfinished report)
    have hcycles' := hcycles.trans hcounted
    have hgoes_on : ∀ next, (passStep env (after env d s n).1 (after env d s n).2 current).1 = next →
        (after env d s (n + 1)).1.stage = .passing next → next ≠ .reading → (∀ report, next ≠ .finished report) →
        ∃ later, (after env d s later).1.cycles = (after env d s n).1.cycles ∧
          ((∃ millis, (after env d s later).1.stage = .pausing millis) ∨
            ∃ failed, (after env d s later).1.stage = .gathering failed) := by
      intro next heq hpassing hnext hnext'
      rw [heq] at hless
      rw [← hcycles']
      exact ih next.budget (by omega) hpassing hnext hnext' rfl
    rcases hnext with ⟨rest, probed, skipped, hnext⟩ | ⟨m, outcome, rest, probed, skipped, hnext⟩ | ⟨failed, hnext⟩
    · rw [hnext] at hstage
      cases rest with
      | nil => exact ⟨n + 1, hcycles', Or.inl ⟨_, hstage⟩⟩
      | cons m rest => exact hgoes_on _ hnext hstage nofun nofun
    · rw [hnext] at hstage
      exact hgoes_on _ hnext hstage nofun nofun
    · rw [hnext] at hstage
      exact ⟨n + 1, hcycles', Or.inr ⟨failed, hstage⟩⟩

theorem pausing_succ (hclock : env.Clocked) {d : Detector} {s : σ} {millis : Nat}
    (h : (after env d s n).1.stage = .pausing millis) :
    (after env d s (n + 1)).1.stage = .passing .reading ∧
      (after env d s (n + 1)).1.cycles = (after env d s n).1.cycles := by
  have htold := (hclock.pause millis (after env d s n).2).1
  rcases hanswer : env.pause millis (after env d s n).2 with ⟨told, t⟩
  rw [hanswer] at htold
  obtain rfl : told = false := htold
  simp only [after, Detector.step, h, hanswer, and_self]

/-- Nobody stops the detector, so it begins one pass after another, up to one that fails. -/
theorem exists_pass (hclock : env.Clocked) (config : Config) {own : Pid} {s : σ}
    (hpublish : (env.publish ⟨.supervisor, own⟩ s).1 = .ok ()) (k : Nat) :
    ∃ n, (after env (.new config own) s n).1.cycles ≤ k ∧
      ((after env (.new config own) s n).1.stage = .passing .reading ∧
          (after env (.new config own) s n).1.cycles = k ∨
        ∃ failed, (after env (.new config own) s n).1.stage = .gathering failed) := by
  induction k with
  | zero =>
    have hpausing : (after env (.new config own) s 1).1.stage = .pausing config.warmupMillis ∧
        (after env (.new config own) s 1).1.cycles = 0 := by
      rcases hanswer : env.publish ⟨.supervisor, own⟩ s with ⟨answer, t⟩
      rw [hanswer] at hpublish
      obtain rfl : answer = .ok () := hpublish
      simp only [after, Detector.step, Detector.new, self, hanswer, and_self]
    obtain ⟨hstage, hcycles⟩ := pausing_succ hclock hpausing.1
    exact ⟨2, Nat.le_of_eq (hcycles.trans hpausing.2), Or.inl ⟨hstage, hcycles.trans hpausing.2⟩⟩
  | succ k ih =>
    obtain ⟨n, hcounted, ⟨hstage, hcycles⟩ | hfailed⟩ := ih
    · obtain ⟨hstage', hcycles', -⟩ := after_succ_passing hstage
      obtain ⟨hbegun, hnext⟩ :=
        reading_cases env (after env (.new config own) s n).1 (after env (.new config own) s n).2
      rw [hbegun, hcycles] at hcycles'
      have hpaused : ∀ later millis, (after env (.new config own) s later).1.cycles = k + 1 →
          (after env (.new config own) s later).1.stage = .pausing millis →
          (after env (.new config own) s (later + 1)).1.stage = .passing .reading ∧
            (after env (.new config own) s (later + 1)).1.cycles = k + 1 := fun later millis hlater hpausing => by
        obtain ⟨hreading, hsame⟩ := pausing_succ hclock hpausing
        exact ⟨hreading, hsame.trans hlater⟩
      rcases hnext with ⟨-, hidle⟩ | ⟨-, m, rest, hprobing⟩
      · rw [hidle] at hstage'
        obtain ⟨hreading, hcycles''⟩ := hpaused (n + 1) _ hcycles' hstage'
        exact ⟨n + 2, Nat.le_of_eq hcycles'', Or.inl ⟨hreading, hcycles''⟩⟩
      · rw [hprobing] at hstage'
        have hpassing : (after env (.new config own) s (n + 1)).1.stage = .passing (.probing m rest 0 0) := hstage'
        obtain ⟨later, hlater, ⟨millis, hpausing⟩ | hgathering⟩ := passing_ends hpassing (by simp) (by simp)
        · obtain ⟨hreading, hcycles''⟩ := hpaused later millis (hlater.trans hcycles') hpausing
          exact ⟨later + 1, Nat.le_of_eq hcycles'', Or.inl ⟨hreading, hcycles''⟩⟩
        · exact ⟨later, Nat.le_of_eq (hlater.trans hcycles'), Or.inr hgathering⟩
    · exact ⟨n, by omega, Or.inr hfailed⟩

/-! ### From silence to the kill -/

theorem after_succ_gathering {d : Detector} {s : σ} {failed : Failed}
    (h : (after env d s n).1.stage = .gathering failed) :
    (∃ members, (after env d s (n + 1)).1.stage = .killing failed members) ∧
      (after env d s (n + 1)).1.cycles = (after env d s n).1.cycles ∧
      (after env d s (n + 1)).2 = (env.refresh (after env d s n).2).2 := by
  rw [after]
  simp only [Detector.step, h]
  exact ⟨⟨_, rfl⟩, trivial, trivial⟩

theorem killed_noted {d : Detector} {s : σ} {failed : Failed} {members : List Entry}
    (h : (after env d s n).1.stage = .killing failed members) :
    ∃ answer answered, ⟨.killed members answer, env.now (after env d s n).2, answered⟩ ∈ notes env d s (n + 1) ∧
      (answer = .ok () →
        (after env d s (n + 1)).1.result? = some (.ok (.killed failed (after env d s n).1.cycles))) := by
  refine ⟨(env.kill members (after env d s n).2).1, env.now (after env d s (n + 1)).2, ?_, fun hanswer => ?_⟩
  · rw [notes_succ, noteOf, asked, h]
    exact List.mem_append_right _ (List.mem_singleton_self _)
  · rcases hkill : env.kill members (after env d s n).2 with ⟨answer, t⟩
    rw [hkill] at hanswer
    obtain rfl : answer = .ok () := hanswer
    simp only [after, Detector.step, h, hkill, result?]

/-- The probe of a role is a ping on its control link. -/
def Surroundings.ProbesOver (env : Surroundings σ) (links : Heartbeat.ControlLinks) (role : Role) (timeout : Nat)
    (s : σ) : Prop :=
  (env.probe role timeout s).1 = (links.probe role (env.now s) timeout).1 ∧
    env.now (env.probe role timeout s).2 = (links.probe role (env.now s) timeout).2.1

/-- A probe over an open link on which nobody answers lasts for its timeout. -/
theorem probe_of_silence {links : Heartbeat.ControlLinks} {l : Heartbeat.ControlLink} {role : Role} {timeout : Nat}
    (hprobe : env.ProbesOver links role timeout s) (hlink : links role = some l) (hsilent : l.Silent) :
    (env.probe role timeout s).1 = .timedOut ∧ env.now (env.probe role timeout s).2 = env.now s + timeout := by
  obtain ⟨houtcome, hmoment⟩ := hprobe
  obtain ⟨hsilence, hend⟩ := hsilent.ping (env.now s) timeout
  simp only [Heartbeat.ControlLinks.probe, hlink] at houtcome hmoment
  exact ⟨houtcome.trans hsilence, hmoment.trans hend⟩

/-- A silent member that is still listed is the failure of its pass, and the kill is asked for when its timeout is over:
    neither the second look nor the look for whom to kill takes time. -/
theorem killed_of_silence (hclock : env.Clocked) {config : Config} {own : Pid} {s : σ} {m : Entry} {rest : List Entry}
    {probed skipped : Nat} {links : Heartbeat.ControlLinks} {l : Heartbeat.ControlLink}
    (hstage : (after env (.new config own) s n).1.stage = .passing (.probing m rest probed skipped))
    (hlink : links m.role = some l) (hsilent : l.Silent)
    (hprobe : env.ProbesOver links m.role (config.timeoutFor m.role) (after env (.new config own) s n).2)
    (hlisted : stillRegistered m (env.refresh
      (env.probe m.role (config.timeoutFor m.role) (after env (.new config own) s n).2).2).1 = true) :
    firstFailure? own (history env (.new config own) s (n + 2)) = some ⟨m, .timedOut⟩ ∧
      ∃ members answer answered,
        ⟨.killed members answer, env.now (after env (.new config own) s n).2 + config.timeoutFor m.role, answered⟩ ∈
          notes env (.new config own) s (n + 4) ∧
        (answer = .ok () → (after env (.new config own) s (n + 4)).1.result? =
          some (.ok (.killed ⟨m, .timedOut⟩ (after env (.new config own) s n).1.cycles))) := by
  have hconfig := (paced_after hclock config own s n).sameConfig
  obtain ⟨houtcome, hmoment⟩ := probe_of_silence hprobe hlink hsilent
  obtain ⟨hstage₁, hcycles₁, hstate₁⟩ := after_succ_passing hstage
  simp only [passStep, hconfig, houtcome, Detector.probed] at hstage₁ hcycles₁ hstate₁
  have hrechecking : (after env (.new config own) s (n + 1)).1.stage =
      .passing (.rechecking m .timedOut rest probed skipped) := hstage₁
  obtain ⟨hstage₂, hcycles₂, hstate₂⟩ := after_succ_passing hrechecking
  simp only [passStep, hstate₁, rechecked, if_pos hlisted] at hstage₂ hcycles₂ hstate₂
  have hgathering : (after env (.new config own) s (n + 2)).1.stage = .gathering ⟨m, .timedOut⟩ := hstage₂
  obtain ⟨⟨members, hkilling⟩, hcycles₃, hstate₃⟩ := after_succ_gathering hgathering
  obtain ⟨answer, answered, hnoted, hresult⟩ := killed_noted hkilling
  have hnow : env.now (after env (.new config own) s (n + 3)).2 =
      env.now (after env (.new config own) s n).2 + config.timeoutFor m.role := by
    rw [hstate₃, hclock.refresh, hstate₂, hclock.refresh, hmoment]
  have hcycles : (after env (.new config own) s (n + 3)).1.cycles = (after env (.new config own) s n).1.cycles :=
    hcycles₃.trans (hcycles₂.trans hcycles₁)
  refine ⟨?_, members, answer, answered, hnow ▸ hnoted, hcycles ▸ hresult⟩
  have hfits := (after_fits env s config own (n + 2)).1
  rw [hgathering] at hfits
  obtain ⟨pass, hamid, hfailing⟩ := hfits
  exact hamid.firstFailure?.trans hfailing.failure

/-- On a clock that only probes and pauses move, every pass starts when the probes and pauses before it are over, and
    without an end one pass is begun after another up to one that fails. If a member of a pass never answers on its open
    link, and is still listed, then it is the first failure, and its kill comes at the start of the pass and after the
    probes of the members before it and its own timeout. -/
theorem passes_start_on_time (hclock : env.Clocked) (config : Config) (own : Pid) (s : σ) :
    let run := after env (.new config own) s
    let log := notes env (.new config own) s
    let timeout := config.timeoutFor
    (∀ n, StartedOnTime config own (env.now s) (rounds (log n))) ∧
    ((env.publish ⟨.supervisor, own⟩ s).1 = .ok () → ∀ k, ∃ n, (run n).1.cycles ≤ k ∧
      (((run n).1.stage = .passing .reading ∧ ∃ done, rounds (log n) = done ++ [[]] ∧ done.length = k ∧
          env.now (run n).2 = due config own (env.now s) done) ∨
        ∃ failed, (run n).1.stage = .gathering failed)) ∧
    ∀ n m rest probed skipped links l, (run n).1.stage = .passing (.probing m rest probed skipped) →
      links m.role = some l → l.Silent → env.ProbesOver links m.role (timeout m.role) (run n).2 →
      stillRegistered m (env.refresh (env.probe m.role (timeout m.role) (run n).2).2).1 = true →
      ∃ done round seen, rounds (log n) = done ++ [round] ∧ Underway own (round.map Note.event) seen (m :: rest) ∧
        firstFailure? own (history env (.new config own) s (n + 2)) = some ⟨m, .timedOut⟩ ∧
        ∃ members answer answered,
          ⟨.killed members answer, due config own (env.now s) done + probing round + timeout m.role, answered⟩ ∈
            log (n + 4) ∧
          (answer = .ok () → (run (n + 4)).1.result? = some (.ok (.killed ⟨m, .timedOut⟩ (done.length + 1)))) := by
  intro run log timeout
  refine ⟨fun n => (paced_after hclock config own s n).started, fun hpublish k => ?_,
    fun n m rest probed skipped links l hstage hlink hsilent hprobe hlisted => ?_⟩
  · obtain ⟨n, hcounted, ⟨hstage, hcycles⟩ | hfailed⟩ := exists_pass hclock config hpublish k
    · have honTime := (paced_after hclock config own s n).onTime
      rw [hstage] at honTime
      obtain ⟨done, hrounds, hlength, hmoment⟩ := honTime
      exact ⟨n, hcounted, Or.inl ⟨hstage, done, hrounds, hlength.symm.trans hcycles, hmoment⟩⟩
    · exact ⟨n, hcounted, Or.inr hfailed⟩
  · have honTime := (paced_after hclock config own s n).onTime
    rw [hstage] at honTime
    obtain ⟨done, round, hrounds, -, hcycles, hmoment⟩ := honTime
    have hfits := (after_fits env s config own n).1
    rw [hstage] at hfits
    obtain ⟨pass, seen, hamid, hunderway⟩ := hfits
    obtain ⟨settled, hpasses, -⟩ := hamid.passes
    have hround : pass = round.map Note.event := by
      rw [← map_event_notes, ← map_rounds, hrounds, List.map_append, List.map_singleton] at hpasses
      exact (List.singleton_inj.mp (List.append_inj' hpasses rfl).2).symm
    obtain ⟨hfirst, members, answer, answered, hnoted, hresult⟩ :=
      killed_of_silence hclock hstage hlink hsilent hprobe hlisted
    rw [hcycles] at hresult
    rw [hmoment] at hnoted
    exact ⟨done, round, seen, hrounds, hround ▸ hunderway, hfirst, members, answer, answered, hnoted, hresult⟩

end

end

/-- Surroundings whose state is the clock. After one idle pass a part is found that answers in three milliseconds, and
    in the pass after that another, which is silent. -/
def silentRelay : Surroundings Nat where
  publish _ t := (.ok (), t)
  withdraw _ t := (.ok true, t)
  refresh t := (.ok ((if t < 1500 then [] else [⟨.physics, ⟨8⟩⟩]) ++ if t < 2500 then [] else [⟨.relay, ⟨9⟩⟩]), t)
  probe role timeout t := if role = .physics then (.acknowledged 3, t + 3) else (.timedOut, t + timeout)
  pause millis t := (false, t + millis)
  kill _ t := (.ok (), t)
  now t := t

theorem clocked_silentRelay : silentRelay.Clocked where
  publish _ _ := rfl
  refresh _ := rfl
  probe role timeout t := by
    simp only [silentRelay]
    split <;> exact Nat.le_add_right _ _
  pause _ _ := ⟨rfl, rfl⟩

/-- The pass that a detector is in. -/
def Stage.pass? : Stage → Option Pass
  | .passing pass => some pass
  | _ => none

theorem Stage.eq_passing {stage : Stage} {pass : Pass} (h : stage.pass? = some pass) : stage = .passing pass := by
  cases stage with
  | passing => exact congrArg passing (Option.some.inj h)
  | publishing | pausing | gathering | killing | leaving | ended => cases h

/-- The third pass starts at 4003; the silent part has half a second, and is killed for at 4506. -/
theorem silent_relay_killed_on_time :
    let config : Config := ⟨200, [(.relay, 500)], 2000, 1000, 1000⟩
    (after silentRelay (.new config ⟨7⟩) 0 9).1.stage = .passing (.probing ⟨.relay, ⟨9⟩⟩ [] 1 0) ∧
      (Heartbeat.ControlLink.new .lasting).Silent ∧
      ∃ members answer answered, ⟨.killed members answer, 4506, answered⟩ ∈ notes silentRelay (.new config ⟨7⟩) 0 13 ∧
        (answer = .ok () → (after silentRelay (.new config ⟨7⟩) 0 13).1.result? =
          some (.ok (.killed ⟨⟨.relay, ⟨9⟩⟩, .timedOut⟩ 3))) := by
  intro config
  have hstage : (after silentRelay (.new config ⟨7⟩) 0 9).1.stage = .passing (.probing ⟨.relay, ⟨9⟩⟩ [] 1 0) :=
    Stage.eq_passing (by decide +kernel)
  have hsilent : (Heartbeat.ControlLink.new .lasting).Silent := ⟨rfl, rfl, List.forall_mem_nil _⟩
  refine ⟨hstage, hsilent, ?_⟩
  obtain ⟨done, round, seen, hrounds, -, -, members, answer, answered, hnoted, hresult⟩ :=
    (passes_start_on_time clocked_silentRelay config ⟨7⟩ 0).2.2 9 ⟨.relay, ⟨9⟩⟩ [] 1 0
      (fun _ => some (.new .lasting)) (.new .lasting) hstage rfl hsilent ⟨rfl, by decide +kernel⟩ (by decide +kernel)
  have hdue : due config ⟨7⟩ 0 (rounds (notes silentRelay (.new config ⟨7⟩) 0 9)).dropLast = 4003 := by
    decide +kernel
  have hprobing : ((rounds (notes silentRelay (.new config ⟨7⟩) 0 9)).getLast?.map probing) = some 3 := by decide +kernel
  have hlength : (rounds (notes silentRelay (.new config ⟨7⟩) 0 9)).length = 3 := by decide +kernel
  rw [hrounds, List.dropLast_concat] at hdue
  rw [hrounds, List.getLast?_concat] at hprobing
  rw [hrounds, List.length_append, List.length_singleton] at hlength
  rw [show silentRelay.now 0 = 0 from rfl, hdue, Option.some.inj hprobing] at hnoted
  rw [hlength] at hresult
  exact ⟨members, answer, answered, hnoted, hresult⟩

end Detector
end GridFlight
