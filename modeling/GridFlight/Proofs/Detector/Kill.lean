import GridFlight.Proofs.Detector.Stages

/-! When a detector kills. In a run every pass asks about its members in turn, and the first member that does not
    answer and is still listed ends the run with the one kill; a run that is told to stop never kills. -/

namespace GridFlight

open Registry (Entry)

namespace Detector

variable {own : Pid} {log pass : List Event} {failed : Failed} {stage : Stage}

/-! ### The one kill -/

theorem Calm.firstFailure? (h : Calm own log) : firstFailure? own log = none :=
  List.findSome?_eq_none_iff.mpr fun pass hpass => (h.settled pass hpass).1

theorem Amid.firstFailure? (h : Amid own log pass) : firstFailure? own log = failure? own pass := by
  obtain ⟨done, hpasses, hdone⟩ := h.passes
  have hnone : done.findSome? (failure? own) = none :=
    List.findSome?_eq_none_iff.mpr fun pass hpass => (hdone pass hpass).1
  rw [Detector.firstFailure?, hpasses, List.findSome?_append, hnone, Option.none_or, List.findSome?_cons]
  cases failure? own pass <;> rfl

theorem Killed.firstFailure? {answer : Except SystemError Unit} (h : Killed own log failed answer) :
    firstFailure? own log = some failed := by
  obtain ⟨earlier, members, pass, rfl, hamid, hfailing⟩ := h
  rw [Detector.firstFailure?, passes_concat]
  exact hamid.firstFailure?.trans hfailing.failure

theorem Killed.kill_mem {answer : Except SystemError Unit} (h : Killed own log failed answer) :
    ∃ members, .killed members answer ∈ log := by
  obtain ⟨earlier, members, pass, rfl, -⟩ := h
  exact ⟨members, List.mem_append_right _ (List.mem_singleton_self _)⟩

namespace Fits

theorem quiet_or_killed (h : Fits own log stage) : Quiet log ∨ ∃ failed answer, Killed own log failed answer := by
  cases stage with
  | publishing =>
    obtain rfl : log = [] := h
    exact Or.inl fun _ hmem => nomatch hmem
  | pausing | leaving => exact Or.inl h.quiet
  | passing current =>
    cases current with
    | reading => exact Or.inl h.quiet
    | probing =>
      obtain ⟨pass, seen, hamid, -⟩ := h
      exact Or.inl hamid.quiet
    | rechecking =>
      obtain ⟨pass, seen, timeout, hamid, -⟩ := h
      exact Or.inl hamid.quiet
    | finished => exact h.elim
  | gathering | killing =>
    obtain ⟨pass, hamid, -⟩ := h
    exact Or.inl hamid.quiet
  | ended result =>
    rcases result with e | ⟨cycles⟩ | ⟨failed, cycles⟩
    · exact h.imp Calm.quiet fun ⟨failed, cause, _, h⟩ => ⟨failed, _, h⟩
    · exact Or.inl h.1.quiet
    · exact Or.inr ⟨failed, _, h⟩

/-- The kill is the last question. -/
theorem kill_last (h : Fits own log stage) {before later : List Event} {e : Event} (hlog : log = before ++ e :: later)
    (he : e.isKill = true) : later = [] := by
  rcases h.quiet_or_killed with hquiet | ⟨failed, answer, earlier, members, pass, hkill, hamid, -⟩
  · rw [hquiet e (by simp [hlog])] at he
    cases he
  · -- The kill ends the log, and everything in front of it is quiet.
    rcases List.eq_nil_or_concat later with rfl | ⟨between, last, rfl⟩
    · rfl
    · have hsplit : earlier ++ [.killed members answer] = (before ++ e :: between) ++ [last] := by
        rw [← hkill, hlog]
        simp
      obtain ⟨rfl, -⟩ := List.append_inj' hsplit rfl
      rw [hamid.quiet e (by simp)] at he
      cases he

theorem kills_le_one (h : Fits own log stage) : log.countP Event.isKill ≤ 1 := by
  have hzero : ∀ {log : List Event}, Quiet log → log.countP Event.isKill = 0 := fun hquiet =>
    List.countP_eq_zero.mpr fun e he => by simp [hquiet e he]
  rcases h.quiet_or_killed with hquiet | ⟨failed, answer, earlier, members, pass, rfl, hamid, -⟩
  · rw [hzero hquiet]
    exact Nat.zero_le 1
  · rw [List.countP_append, hzero hamid.quiet]
    simp [Event.isKill]

theorem failure_of_kill (h : Fits own log stage) (hkill : ∃ e ∈ log, e.isKill = true) :
    (firstFailure? own log).isSome := by
  rcases h.quiet_or_killed with hquiet | ⟨failed, answer, hkilled⟩
  · obtain ⟨e, he, hkill⟩ := hkill
    rw [hquiet e he] at hkill
    cases hkill
  · rw [hkilled.firstFailure?]
    rfl

end Fits

/-! ### Members in turn -/

/-- In every pass the members are probed in turn. A pass that is over has probed them all, and one that has failed has
    probed them up to the one that failed. -/
structure InTurn (own : Pid) (log : List Event) : Prop where
  whole : Whole log
  past : Settled own (passes log).dropLast
  turn : ∀ pass ∈ passes log, probedRoles pass <+: (membersIn own pass).map Entry.role
  stop : ∀ pass ∈ passes log, ∀ failed, failure? own pass = some failed → ∃ seen rest,
    membersIn own pass = seen ++ failed.member :: rest ∧ probedRoles pass = (seen ++ [failed.member]).map Entry.role

theorem Calm.inTurn (h : Calm own log) : InTurn own log where
  whole := h.whole
  past pass hpass := h.settled pass (List.dropLast_subset _ hpass)
  turn pass hpass := (h.settled pass hpass).2 ▸ List.prefix_rfl
  stop pass hpass failed hfailed := by
    rw [(h.settled pass hpass).1] at hfailed
    cases hfailed

theorem Amid.inTurn (h : Amid own log pass) (hturn : probedRoles pass <+: (membersIn own pass).map Entry.role)
    (hstop : ∀ failed, failure? own pass = some failed → ∃ seen rest,
      membersIn own pass = seen ++ failed.member :: rest ∧
        probedRoles pass = (seen ++ [failed.member]).map Entry.role) : InTurn own log := by
  obtain ⟨done, hpasses, hdone⟩ := h.passes
  refine ⟨h.whole, ?_, ?_, ?_⟩
  · rw [hpasses, List.dropLast_concat]
    exact hdone
  · intro p hp
    rw [hpasses] at hp
    rcases List.mem_append.mp hp with hp | hp
    · exact (hdone p hp).2 ▸ List.prefix_rfl
    · rw [List.mem_singleton.mp hp]
      exact hturn
  · intro p hp failed hfailed
    rw [hpasses] at hp
    rcases List.mem_append.mp hp with hp | hp
    · rw [(hdone p hp).1] at hfailed
      cases hfailed
    · rw [List.mem_singleton.mp hp] at hfailed ⊢
      exact hstop failed hfailed

theorem Amid.inTurn_of_underway {seen rest : List Entry} (h : Amid own log pass)
    (hpass : Underway own pass seen rest) :
    InTurn own log := by
  refine h.inTurn ?_ fun failed hfailed => ?_
  · rw [hpass.probed, hpass.members, List.map_append]
    exact List.prefix_append _ _
  · rw [hpass.unfailed] at hfailed
    cases hfailed

theorem Amid.inTurn_of_failing (h : Amid own log pass) (hpass : Failing own pass failed) : InTurn own log := by
  obtain ⟨seen, rest, hmembers, hprobed⟩ := hpass.members
  refine h.inTurn ?_ fun other hother => ?_
  · rw [hprobed, hmembers, List.append_cons seen failed.member rest]
    exact (List.prefix_append _ _).map _
  · rw [hpass.failure] at hother
    obtain rfl := Option.some.inj hother
    exact ⟨seen, rest, hmembers, hprobed⟩

theorem Killed.inTurn {answer : Except SystemError Unit} (h : Killed own log failed answer) : InTurn own log := by
  obtain ⟨earlier, members, pass, rfl, hamid, hfailing⟩ := h
  obtain ⟨hwhole, hpast, hturn, hstop⟩ := hamid.inTurn_of_failing hfailing
  have hpasses : passes (earlier ++ [.killed members answer]) = passes earlier := passes_concat _ _
  exact ⟨hwhole.concat (Or.inr rfl), hpasses ▸ hpast, hpasses ▸ hturn, hpasses ▸ hstop⟩

theorem Fits.inTurn (h : Fits own log stage) : InTurn own log := by
  cases stage with
  | publishing =>
    obtain rfl : log = [] := h
    exact ⟨rfl, nofun, nofun, nofun⟩
  | pausing | leaving => exact h.inTurn
  | passing current =>
    cases current with
    | reading => exact h.calm_nil.inTurn
    | probing =>
      obtain ⟨pass, seen, hamid, hpass⟩ := h
      exact hamid.inTurn_of_underway hpass
    | rechecking =>
      obtain ⟨pass, seen, timeout, hamid, hpass, -⟩ := h
      exact hamid.inTurn_of_underway hpass
    | finished => exact h.elim
  | gathering | killing =>
    obtain ⟨pass, hamid, hpass⟩ := h
    exact hamid.inTurn_of_failing hpass
  | ended result =>
    rcases result with e | ⟨cycles⟩ | ⟨failed, cycles⟩
    · rcases h with hcalm | ⟨failed, cause, -, hkilled⟩
      · exact hcalm.inTurn
      · exact hkilled.inTurn
    · exact h.1.inTurn
    · exact h.inTurn

/-! ### A look after silence -/

def Event.isSilence : Event → Bool
  | .probed _ _ outcome => !outcome.isAlive
  | _ => false

def Event.isLook : Event → Bool
  | .refreshed _ => true
  | _ => false

/-- After a probe without an answer the next question is what the registry holds. -/
def Looks (log : List Event) : Prop :=
  ∀ before silence next later, log = before ++ silence :: next :: later →
    silence.isSilence = true → next.isLook = true

theorem Looks.concat (h : Looks log) {e : Event}
    (he : ∀ last, log.getLast? = some last → last.isSilence = true → e.isLook = true) : Looks (log ++ [e]) := by
  intro before silence next later hlog hsilence
  -- Either the new event is the one behind the silence, or both were there before it.
  rcases List.eq_nil_or_concat later with rfl | ⟨later, last, rfl⟩
  · have hsplit : log ++ [e] = (before ++ [silence]) ++ [next] := by rw [hlog]; simp
    obtain ⟨rfl, hnext⟩ := List.append_inj' hsplit rfl
    rw [← List.singleton_inj.mp hnext]
    exact he silence List.getLast?_concat hsilence
  · have hsplit : log ++ [e] = (before ++ silence :: next :: later) ++ [last] := by rw [hlog]; simp
    obtain ⟨rfl, -⟩ := List.append_inj' hsplit rfl
    exact h before silence next later rfl hsilence

/-- The detector is about to look at the registry again. -/
def Stage.isRechecking : Stage → Bool
  | .passing (.rechecking ..) => true
  | _ => false

section
variable {σ : Type} (env : Surroundings σ) {d : Detector} (s : σ)

theorem asked_of_rechecking (h : d.stage.isRechecking = true) :
    asked env d s = some (.refreshed (env.refresh s).1) := by
  unfold Stage.isRechecking at h
  split at h
  · next hstage =>
    rw [asked, hstage]
    rfl
  · cases h

theorem rechecking_of_silence {e : Event} (he : asked env d s = some e) (hsilence : e.isSilence = true) :
    (step env d s).1.stage.isRechecking = true := by
  cases hd : d.stage with
  | passing current =>
    cases current with
    | probing m rest count skipped =>
      rw [asked, hd] at he
      obtain rfl := Option.some.inj he
      rcases hprobe : env.probe m.role (d.config.timeoutFor m.role) s with ⟨outcome, t⟩
      simp only [Event.isSilence, hprobe, Bool.not_eq_true'] at hsilence
      cases outcome with
      | acknowledged millis => cases hsilence
      | timedOut | disconnected | unreachable => simp [step, hd, passStep, hprobe, probed, Stage.isRechecking]
    | reading | rechecking =>
      rw [asked, hd] at he
      obtain rfl := Option.some.inj he
      cases hsilence
    | finished =>
      rw [asked, hd] at he
      cases he
  | publishing | pausing | gathering | killing | leaving =>
    rw [asked, hd] at he
    obtain rfl := Option.some.inj he
    cases hsilence
  | ended =>
    rw [asked, hd] at he
    cases he

theorem history_looks (d : Detector) (n : Nat) :
    Looks (history env d s n) ∧ ∀ last, (history env d s n).getLast? = some last → last.isSilence = true →
      (after env d s n).1.stage.isRechecking = true := by
  -- The stage remembers a silence until the next question, which is the look.
  induction n with
  | zero =>
    refine ⟨fun before silence next later h => ?_, nofun⟩
    exact absurd h (by simp [history, after])
  | succ n ih =>
    obtain ⟨hlooks, hlast⟩ := ih
    rw [history_succ, after]
    cases hasked : asked env (after env d s n).1 (after env d s n).2 with
    | none =>
      rw [Option.toList_none, List.append_nil]
      refine ⟨hlooks, fun last h hsilence => ?_⟩
      rw [asked_of_rechecking env _ (hlast last h hsilence)] at hasked
      cases hasked
    | some e =>
      rw [Option.toList_some]
      constructor
      · refine hlooks.concat fun last h hsilence => ?_
        rw [asked_of_rechecking env _ (hlast last h hsilence)] at hasked
        obtain rfl := Option.some.inj hasked
        rfl
      · intro last h hsilence
        rw [List.getLast?_concat] at h
        obtain rfl := Option.some.inj h
        exact rechecking_of_silence env _ hasked hsilence

end

/-! ### From a failure to the kill -/

/-- What a run that has killed ends with: the failure, or the cause for which the group could not be killed. -/
def Reports (failed : Failed) : Except SystemError Unit → Except Fault Ending → Prop
  | .ok (), result => ∃ cycles, result = .ok (.killed failed cycles)
  | .error e, result => result = .error (.system e)

theorem Fits.of_failure (h : Fits own log stage) (hfailed : firstFailure? own log = some failed) :
    stage = .gathering failed ∨ (∃ members, stage = .killing failed members) ∨
      ∃ members answer result, .killed members answer ∈ log ∧ stage = .ended result ∧ Reports failed answer result := by
  have not_calm : ¬ Calm own log := fun hcalm => by
    rw [hcalm.firstFailure?] at hfailed
    cases hfailed
  have not_underway : ∀ {pass seen rest}, Amid own log pass → ¬ Underway own pass seen rest := fun hamid hpass => by
    rw [hamid.firstFailure?, hpass.unfailed] at hfailed
    cases hfailed
  have same_of_failing : ∀ {pass other}, Amid own log pass → Failing own pass other → other = failed :=
    fun hamid hpass => Option.some.inj (hpass.failure.symm.trans (hamid.firstFailure?.symm.trans hfailed))
  have same_of_killed : ∀ {other answer}, Killed own log other answer → other = failed := fun hkilled =>
    Option.some.inj (hkilled.firstFailure?.symm.trans hfailed)
  cases stage with
  | publishing =>
    obtain rfl : log = [] := h
    cases hfailed
  | pausing | leaving => exact absurd h not_calm
  | passing current =>
    cases current with
    | reading => exact absurd h.calm_nil not_calm
    | probing =>
      obtain ⟨pass, seen, hamid, hpass⟩ := h
      exact absurd hpass (not_underway hamid)
    | rechecking =>
      obtain ⟨pass, seen, timeout, hamid, hpass, -⟩ := h
      exact absurd hpass (not_underway hamid)
    | finished => exact h.elim
  | gathering other =>
    obtain ⟨pass, hamid, hpass⟩ := h
    exact Or.inl (by rw [same_of_failing hamid hpass])
  | killing other members =>
    obtain ⟨pass, hamid, hpass⟩ := h
    exact Or.inr (Or.inl ⟨members, by rw [same_of_failing hamid hpass]⟩)
  | ended result =>
    refine Or.inr (Or.inr ?_)
    rcases result with e | ⟨cycles⟩ | ⟨other, cycles⟩
    · rcases h with hcalm | ⟨other, cause, rfl, hkilled⟩
      · exact absurd hcalm not_calm
      · obtain rfl := same_of_killed hkilled
        obtain ⟨members, hmem⟩ := hkilled.kill_mem
        exact ⟨members, _, _, hmem, rfl, rfl⟩
    · exact absurd h.1 not_calm
    · obtain rfl := same_of_killed h
      obtain ⟨members, hmem⟩ := h.kill_mem
      exact ⟨members, _, _, hmem, rfl, cycles, rfl⟩

section
variable {σ : Type} (env : Surroundings σ) (d : Detector) (s : σ) {n : Nat} {members : List Entry}

theorem gathering_succ (h : (after env d s n).1.stage = .gathering failed) :
    ∃ members, (after env d s (n + 1)).1.stage = .killing failed members := by
  rw [after]
  simp only [step, h]
  exact ⟨_, rfl⟩

theorem killing_succ (h : (after env d s n).1.stage = .killing failed members) :
    ∃ answer result, .killed members answer ∈ history env d s (n + 1) ∧
      (after env d s (n + 1)).1.stage = .ended result ∧ Reports failed answer result := by
  refine ⟨(env.kill members (after env d s n).2).1, ?_⟩
  have hmem : .killed members (env.kill members (after env d s n).2).1 ∈ history env d s (n + 1) := by
    rw [history_succ, asked, h]
    exact List.mem_append_right _ (List.mem_singleton_self _)
  rw [after]
  rcases hkill : env.kill members (after env d s n).2 with ⟨_ | _, t⟩
  · rw [hkill] at hmem
    exact ⟨_, hmem, by simp [step, h, hkill], rfl⟩
  · rw [hkill] at hmem
    exact ⟨.ok (.killed failed (after env d s n).1.cycles), hmem, by simp [step, h, hkill], _, rfl⟩

theorem ended_succ {result : Except Fault Ending} (h : (after env d s n).1.stage = .ended result) :
    (after env d s (n + 1)).1.stage = .ended result ∧ history env d s (n + 1) = history env d s n := by
  rw [history_succ, asked, h, after]
  simp only [step, h]
  exact ⟨trivial, List.append_nil _⟩

/-- A run that has found a failure has killed two questions later. -/
theorem killed_of_failure (config : Config) (own : Pid)
    (h : firstFailure? own (history env (.new config own) s n) = some failed) :
    ∃ members answer result, .killed members answer ∈ history env (.new config own) s (n + 2) ∧
      (after env (.new config own) s (n + 2)).1.stage = .ended result ∧ Reports failed answer result := by
  rcases (after_fits env s config own n).1.of_failure h with hstage | ⟨members, hstage⟩ | hended
  · obtain ⟨members, hstage⟩ := gathering_succ env _ s hstage
    exact ⟨members, killing_succ env _ s hstage⟩
  · obtain ⟨answer, result, hmem, hstage, hreports⟩ := killing_succ env _ s hstage
    obtain ⟨hstage', hhistory⟩ := ended_succ env _ s hstage
    exact ⟨members, answer, result, hhistory ▸ hmem, hstage', hreports⟩
  · obtain ⟨members, answer, result, hmem, hstage, hreports⟩ := hended
    obtain ⟨hstage, hhistory⟩ := ended_succ env _ s hstage
    obtain ⟨hstage', hhistory'⟩ := ended_succ env _ s hstage
    exact ⟨members, answer, result, hhistory' ▸ hhistory ▸ hmem, hstage', hreports⟩

/-- A detector kills once at most, as its last question, and exactly when a pass has found a failure, which is what it
    reports. Its passes ask about their members in turn, and one that was told to stop has withdrawn and not killed. -/
theorem kills_exactly_for_first_failure (config : Config) (own : Pid) (n : Nat) :
    let log := history env (.new config own) s
    let result? := fun n => (after env (.new config own) s n).1.result?
    ((log n).countP Event.isKill ≤ 1 ∧
      ∀ before kill later, log n = before ++ kill :: later → kill.isKill = true → later = []) ∧
    (((∃ kill ∈ log n, kill.isKill = true) → (firstFailure? own (log n)).isSome) ∧
      (∀ failed, firstFailure? own (log n) = some failed → ∃ members answer result,
        .killed members answer ∈ log (n + 2) ∧ result? (n + 2) = some result ∧ Reports failed answer result) ∧
      (∀ failed cycles, result? n = some (.ok (.killed failed cycles)) →
        firstFailure? own (log n) = some failed ∧ ∃ members, .killed members (.ok ()) ∈ log n)) ∧
    (InTurn own (log n) ∧ Looks (log n) ∧
      ∀ entries, (∀ m, m ∈ membersOf own entries ↔ FirstOfRole own entries m) ∧
        (membersOf own entries).Pairwise fun a b => entries.idxOf a < entries.idxOf b) ∧
    ∀ cycles, result? n = some (.ok (.shutdown cycles)) →
      Quiet (log n) ∧ ∃ answer, .withdrew ⟨.supervisor, own⟩ answer ∈ log n := by
  intro log result?
  obtain ⟨hfits, -⟩ := after_fits env s config own n
  have stage_of_result : ∀ {n result}, result? n = some result →
      (after env (.new config own) s n).1.stage = .ended result := by
    intro n result h
    simp only [result?, Detector.result?] at h
    split at h
    · next hstage => rw [hstage, Option.some.inj h]
    · cases h
  refine ⟨⟨hfits.kills_le_one, fun _ _ _ hlog hkill => hfits.kill_last hlog hkill⟩,
    ⟨hfits.failure_of_kill, fun failed hfailed => ?_, fun failed cycles hresult => ?_⟩,
    ⟨hfits.inTurn, (history_looks env s _ n).1, fun entries => ⟨fun m => mem_membersOf_iff, membersOf_order own entries⟩⟩,
    fun cycles hresult => ?_⟩
  · obtain ⟨members, answer, result, hmem, hstage, hreports⟩ := killed_of_failure env s config own hfailed
    exact ⟨members, answer, result, hmem, by simp only [result?, Detector.result?, hstage], hreports⟩
  · rw [stage_of_result hresult] at hfits
    have hkilled : Killed own (log n) failed (.ok ()) := hfits
    exact ⟨hkilled.firstFailure?, hkilled.kill_mem⟩
  · rw [stage_of_result hresult] at hfits
    have hleft : Calm own (log n) ∧ ∃ answer, .withdrew ⟨.supervisor, own⟩ answer ∈ log n := hfits
    exact ⟨hleft.1.quiet, hleft.2⟩

end

/-- Surroundings in which one part is listed and does not answer. -/
def silentPart : Surroundings Unit where
  publish _ _ := (.ok (), ())
  withdraw _ _ := (.ok true, ())
  refresh _ := (.ok [⟨.supervisor, ⟨7⟩⟩, ⟨.physics, ⟨8⟩⟩], ())
  probe _ _ _ := (.timedOut, ())
  pause _ _ := (false, ())
  kill _ _ := (.ok (), ())
  now _ := 0

theorem kills_for_silent_part :
    ∃ members answer, .killed members answer ∈ history silentPart (.new .standard ⟨7⟩) () 7 := by
  obtain ⟨-, ⟨-, hkills, -⟩, -⟩ := kills_exactly_for_first_failure silentPart () .standard ⟨7⟩ 5
  obtain ⟨members, answer, result, hmem, -⟩ := hkills ⟨⟨.physics, ⟨8⟩⟩, .timedOut⟩ (by rfl)
  exact ⟨members, answer, hmem⟩

end Detector
end GridFlight
