import GridFlight.Proofs.Detector.Pass

/-! The invariant of a run of the detector: for each stage, what the history looks like there. The passes so far are
    settled but for the last one, which is under way or has failed, and nothing is killed before a failure. -/

namespace GridFlight

open Registry (Entry)

namespace Detector

variable {own : Pid} {log pass : List Event} {done : List (List Event)} {seen rest : List Entry} {failed : Failed}

/-! ### The stages of a run -/

def Quiet (log : List Event) : Prop := ∀ e ∈ log, e.isKill = false

theorem Quiet.concat (h : Quiet log) {e : Event} (he : e.isKill = false) : Quiet (log ++ [e]) := by
  intro x hx
  rcases List.mem_append.mp hx with hx | hx
  · exact h x hx
  · rw [List.mem_singleton.mp hx]
    exact he

/-- Every probe belongs to a pass. -/
def Whole (log : List Event) : Prop := log.filterMap Event.probedRole? = (passes log).flatMap probedRoles

theorem Whole.concat (h : Whole log) {e : Event} (he : passes log ≠ [] ∨ e.probedRole? = none) :
    Whole (log ++ [e]) := by
  rw [Whole, List.filterMap_append, passes_concat, h]
  cases e with
  | published | withdrew | killed => exact List.append_nil _
  | paused => simp [join, probedRoles, Event.probedRole?]
  | refreshed answer =>
    rcases List.eq_nil_or_concat (passes log) with hnil | ⟨done, pass, hpasses⟩
    · simp [hnil, join, Event.probedRole?]
    · simp [hpasses, join, probedRoles, Event.probedRole?]
  | probed role timeout outcome =>
    have hne : passes log ≠ [] := he.resolve_right (by simp [Event.probedRole?])
    obtain ⟨done, pass, hpasses⟩ := (List.eq_nil_or_concat (passes log)).resolve_left hne
    simp [hpasses, join, probedRoles, Event.probedRole?]

/-- A history without a kill whose passes are settled but for the last one. -/
structure Amid (own : Pid) (log pass : List Event) : Prop where
  quiet : Quiet log
  whole : Whole log
  passes : ∃ done, passes log = done ++ [pass] ∧ Settled own done

structure Calm (own : Pid) (log : List Event) : Prop where
  quiet : Quiet log
  whole : Whole log
  settled : Settled own (passes log)

/-- A history that ends with the kill for a failure, and its answer. -/
def Killed (own : Pid) (log : List Event) (failed : Failed) (answer : Except SystemError Unit) : Prop :=
  ∃ earlier members pass, log = earlier ++ [.killed members answer] ∧ Amid own earlier pass ∧ Failing own pass failed

/-- What the history looks like at a stage. -/
def Fits (own : Pid) (log : List Event) : Stage → Prop
  | .publishing => log = []
  | .pausing _ | .leaving => Calm own log
  | .passing .reading => Amid own log []
  | .passing (.probing m rest _ _) => ∃ pass seen, Amid own log pass ∧ Underway own pass seen (m :: rest)
  | .passing (.rechecking m outcome rest _ _) =>
    ∃ pass seen timeout, Amid own log pass ∧ Underway own pass (seen ++ [m]) rest ∧
      pass.getLast? = some (.probed m.role timeout outcome) ∧ outcome.isAlive = false
  | .passing (.finished _) => False
  | .gathering failed | .killing failed _ => ∃ pass, Amid own log pass ∧ Failing own pass failed
  | .ended (.ok (.shutdown _)) => Calm own log ∧ ∃ answer, .withdrew ⟨.supervisor, own⟩ answer ∈ log
  | .ended (.ok (.killed failed _)) => Killed own log failed (.ok ())
  | .ended (.error e) => Calm own log ∨ ∃ failed cause, e = .system cause ∧ Killed own log failed (.error cause)

namespace Amid

theorem look (h : Amid own log pass) (answer : Except SystemError (List Entry)) :
    Amid own (log ++ [.refreshed answer]) (pass ++ [.refreshed answer]) where
  quiet := h.quiet.concat rfl
  whole := h.whole.concat (Or.inr rfl)
  passes := by
    obtain ⟨done, hpasses, hdone⟩ := h.passes
    exact ⟨done, by rw [passes_concat, hpasses]; simp [join], hdone⟩

theorem probe (h : Amid own log pass) (role : Role) (timeout : Nat) (outcome : Heartbeat.Outcome) :
    Amid own (log ++ [.probed role timeout outcome]) (pass ++ [.probed role timeout outcome]) where
  quiet := h.quiet.concat rfl
  whole := by
    obtain ⟨done, hpasses, -⟩ := h.passes
    exact h.whole.concat (Or.inl (by simp [hpasses]))
  passes := by
    obtain ⟨done, hpasses, hdone⟩ := h.passes
    exact ⟨done, by rw [passes_concat, hpasses]; simp [join], hdone⟩

theorem calm (h : Amid own log pass) (hpass : Underway own pass seen []) : Calm own log := by
  obtain ⟨done, hpasses, hdone⟩ := h.passes
  exact ⟨h.quiet, h.whole, by rw [hpasses]; exact hdone.concat hpass.complete⟩

end Amid

theorem Calm.published (e : Entry) (answer : Except SystemError Unit) : Calm own [.published e answer] := by
  refine ⟨?_, rfl, ?_⟩ <;> simp [Quiet, Settled, passes, split, join, Event.isKill]

theorem Calm.pause (h : Calm own log) (millis : Nat) (told : Bool) : Amid own (log ++ [.paused millis told]) [] where
  quiet := h.quiet.concat rfl
  whole := h.whole.concat (Or.inr rfl)
  passes := ⟨passes log, passes_concat _ _, h.settled⟩

theorem Amid.calm_nil (h : Amid own log []) : Calm own log := by
  obtain ⟨done, hpasses, hdone⟩ := h.passes
  exact ⟨h.quiet, h.whole, by rw [hpasses]; exact hdone.concat_nil⟩

/-- The stage that a detector is in after a question of a pass. -/
def stageOf (c : Config) : Pass → Stage
  | .finished report => afterReport c report
  | pass => .passing pass

theorem fits_next (h : Amid own log pass) (hpass : Underway own pass seen rest) (c : Config) (probed skipped : Nat) :
    Fits own log (stageOf c (Pass.next rest probed skipped)) := by
  cases rest with
  | nil => exact h.calm hpass
  | cons m rest => exact ⟨pass, seen, h, hpass⟩

/-! ### A step -/

section
variable {σ : Type} (env : Surroundings σ) {d : Detector} (s : σ)

theorem passStep_fits {current : Pass} (hpid : d.pid = own) (h : Fits own log (.passing current)) :
    Fits own (log ++ (askedInPass env d s current).toList) (stageOf d.config (passStep env d s current).1) ∧
      (passStep env d s current).2.1.pid = own ∧ (passStep env d s current).2.1.config = d.config := by
  cases current with
  | reading =>
    have hamid := Amid.look h (env.refresh s).1
    have hpass := Underway.begin own (env.refresh s).1
    simp only [passStep, askedInPass, begin, hpid, Option.toList_some]
    split
    · next hnone =>
      rw [hnone] at hpass
      exact ⟨hamid.calm hpass, rfl, rfl⟩
    · next m rest hsome =>
      rw [hsome] at hpass
      exact ⟨⟨_, _, hamid, hpass⟩, rfl, rfl⟩
  | probing m rest count skipped =>
    obtain ⟨pass, seen, hamid, hpass⟩ := h
    have hamid' := fun outcome => hamid.probe m.role (d.config.timeoutFor m.role) outcome
    have hpass' := fun outcome => hpass.probe (d.config.timeoutFor m.role) outcome
    simp only [passStep, askedInPass, probed, Option.toList_some]
    split
    · exact ⟨fits_next (hamid' _) (hpass' _) _ _ _, hpid, rfl⟩
    · next hdead =>
      -- Without an answer the member counts as probed, and the next look decides about it.
      refine ⟨⟨_, _, _, hamid' _, hpass' _, List.getLast?_concat, ?_⟩, hpid, rfl⟩
      cases houtcome : (env.probe m.role (d.config.timeoutFor m.role) s).1 with
      | acknowledged millis => exact absurd houtcome (hdead millis)
      | timedOut | disconnected | unreachable => rfl
  | rechecking m outcome rest count skipped =>
    obtain ⟨pass, seen, timeout, hamid, hpass, hlast, hdead⟩ := h
    have hamid' := hamid.look (env.refresh s).1
    simp only [passStep, askedInPass, rechecked, Option.toList_some]
    split
    · next hlisted => exact ⟨⟨_, hamid', hpass.fails hlast hdead hlisted⟩, hpid, rfl⟩
    · next hgone => exact ⟨fits_next hamid' (hpass.gone hlast (by simpa using hgone)) _ _ _, hpid, rfl⟩
  | finished report => exact h.elim

theorem step_fits (hpid : d.pid = own) (h : Fits own log d.stage) :
    Fits own (log ++ (asked env d s).toList) (step env d s).1.stage ∧ (step env d s).1.pid = own := by
  cases hd : d.stage with
  | publishing =>
    rw [hd] at h
    obtain rfl : log = [] := h
    rcases hanswer : env.publish d.self s with ⟨_ | _, t⟩
    · simp only [step, asked, hd, hanswer]
      exact ⟨Or.inl (Calm.published _ _), hpid⟩
    · simp only [step, asked, hd, hanswer]
      exact ⟨Calm.published _ _, hpid⟩
  | pausing millis =>
    rw [hd] at h
    rcases hanswer : env.pause millis s with ⟨_ | _, t⟩
    · simp only [step, asked, hd, hanswer]
      exact ⟨h.pause millis false, hpid⟩
    · simp only [step, asked, hd, hanswer]
      exact ⟨(h.pause millis true).calm_nil, hpid⟩
  | passing current =>
    rw [hd] at h
    obtain ⟨hfits, hpid', hconfig⟩ := passStep_fits env s hpid h
    rcases hstep : passStep env d s current with ⟨next, d', t⟩
    rw [hstep] at hfits hpid' hconfig
    cases next with
    | finished report =>
      simp only [step, asked, hd, hstep]
      rw [hconfig]
      exact ⟨hfits, hpid'⟩
    | reading | probing | rechecking =>
      simp only [step, asked, hd, hstep]
      exact ⟨hfits, hpid'⟩
  | gathering failed =>
    rw [hd] at h
    obtain ⟨pass, hamid, hfailing⟩ := h
    simp only [step, asked, hd]
    exact ⟨⟨_, hamid.look _, hfailing.refreshed _⟩, hpid⟩
  | killing failed members =>
    rw [hd] at h
    obtain ⟨pass, hamid, hfailing⟩ := h
    rcases hanswer : env.kill members s with ⟨_ | _, t⟩
    · simp only [step, asked, hd, hanswer]
      exact ⟨Or.inr ⟨failed, _, rfl, log, members, pass, rfl, hamid, hfailing⟩, hpid⟩
    · simp only [step, asked, hd, hanswer]
      exact ⟨⟨log, members, pass, rfl, hamid, hfailing⟩, hpid⟩
  | leaving =>
    rw [hd] at h
    simp only [step, asked, hd]
    refine ⟨⟨⟨h.quiet.concat rfl, h.whole.concat (Or.inr rfl), ?_⟩, (env.withdraw d.self s).1, ?_⟩, hpid⟩
    · rw [Option.toList_some, passes_concat]
      exact h.settled
    · rw [← hpid]
      exact List.mem_append_right _ (List.mem_singleton_self _)
  | ended result =>
    simp only [step, asked, hd, Option.toList_none, List.append_nil]
    rw [← hd]
    exact ⟨h, hpid⟩

/-- The history of a run fits the stage of the detector. -/
theorem after_fits (config : Config) (own : Pid) (n : Nat) :
    Fits own (history env (.new config own) s n) (after env (.new config own) s n).1.stage ∧
      (after env (.new config own) s n).1.pid = own := by
  induction n with
  | zero => exact ⟨rfl, rfl⟩
  | succ n ih =>
    rw [history_succ]
    exact step_fits env _ ih.2 ih.1

end

end Detector
end GridFlight
