import GridFlight.Proofs.Detector.History
import GridFlight.Proofs.Detector.Members

/-! The passes in a history, and what one pass has asked so far. The members of a pass, the roles it has probed and its
    first failure are read off from the history alone. -/

namespace GridFlight

open Registry (Entry)

namespace Detector

/-! ### Passes -/

section
variable {α : Type} (event : α → Event)

/-- A pause begins a pass; what is looked up or probed belongs to the last pass. -/
def join (passes : List (List α)) (a : α) : List (List α) :=
  match event a with
  | .paused _ _ => passes ++ [[]]
  | .refreshed _ | .probed _ _ _ => passes.dropLast ++ (passes.getLast?.map (· ++ [a])).toList
  | _ => passes

/-- The passes in the records of some events, each with its looks at the registry and its probes. -/
def split (log : List α) : List (List α) := log.foldl (join event) []

theorem split_concat (log : List α) (a : α) : split event (log ++ [a]) = join event (split event log) a := by
  rw [split, List.foldl_append]
  rfl

/-- Events are split as their records are. -/
theorem map_split (log : List α) : (split event log).map (·.map event) = split id (log.map event) := by
  induction log using List.reverseRecOn with
  | nil => rfl
  | append_singleton log a ih =>
    rw [split_concat, List.map_append, List.map_singleton, split_concat, ← ih]
    unfold join
    rw [id_eq]
    split
    · simp
    · rcases List.eq_nil_or_concat (split event log) with hnil | ⟨done, pass, hpasses⟩
      · simp [hnil]
      · simp [hpasses]
    · rcases List.eq_nil_or_concat (split event log) with hnil | ⟨done, pass, hpasses⟩
      · simp [hnil]
      · simp [hpasses]
    · rfl

end

/-- The passes in a history. -/
def passes (log : List Event) : List (List Event) := split id log

theorem passes_concat (log : List Event) (e : Event) : passes (log ++ [e]) = join id (passes log) e :=
  split_concat id log e

/-- The members of a pass, which begins with a look at the registry. An unreadable registry has none. -/
def membersIn (own : Pid) : List Event → List Entry
  | .refreshed answer :: _ => membersOf own (answer.toOption.getD [])
  | _ => []

def probedRoles (pass : List Event) : List Role := pass.filterMap Event.probedRole?

/-- The failure that a probe and the look after it make out, if any: a member did not answer and is still listed, or
    the registry cannot be read. -/
def failureOf (members : List Entry) : Event × Event → Option Failed
  | (.probed role _ outcome, .refreshed answer) =>
    (members.find? fun m => m.role = role).bind fun m =>
      if outcome.isAlive = false ∧ stillRegistered m answer = true then some ⟨m, outcome⟩ else none
  | _ => none

/-- The first failure in a pass. -/
def failure? (own : Pid) (pass : List Event) : Option Failed :=
  (pass.zip pass.tail).findSome? (failureOf (membersIn own pass))

/-- The first failure of the first pass that has one. -/
def firstFailure? (own : Pid) (log : List Event) : Option Failed := (passes log).findSome? (failure? own)

/-! ### One pass -/

variable {own : Pid} {log pass : List Event} {done : List (List Event)} {seen rest : List Entry} {m : Entry}
  {failed : Failed}

theorem zip_tail_concat {α : Type} (xs : List α) (x : α) :
    (xs ++ [x]).zip (xs ++ [x]).tail = xs.zip xs.tail ++ (xs.getLast?.map fun last => (last, x)).toList := by
  induction xs with
  | nil => rfl
  | cons y ys ih =>
    cases ys with
    | nil => rfl
    | cons z zs => simpa using ih

theorem membersIn_concat (h : pass ≠ []) (e : Event) : membersIn own (pass ++ [e]) = membersIn own pass := by
  obtain ⟨first, later, rfl⟩ := List.exists_cons_of_ne_nil h
  cases first <;> rfl

theorem failure?_concat (h : pass ≠ []) (e : Event) :
    failure? own (pass ++ [e]) =
      (failure? own pass).or (pass.getLast?.bind fun last => failureOf (membersIn own pass) (last, e)) := by
  rw [failure?, zip_tail_concat, List.findSome?_append, membersIn_concat h, failure?]
  congr 1
  cases pass.getLast? with
  | none => rfl
  | some last =>
    simp only [Option.map_some, Option.toList_some, List.findSome?_cons, List.findSome?_nil, Option.bind_some]
    cases failureOf (membersIn own pass) (last, e) <;> rfl

theorem failureOf_probed (members : List Entry) (last : Event) (role : Role) (timeout : Nat)
    (outcome : Heartbeat.Outcome) : failureOf members (last, .probed role timeout outcome) = none := by
  cases last <;> rfl

theorem probedRoles_concat (pass : List Event) (e : Event) :
    probedRoles (pass ++ [e]) = probedRoles pass ++ e.probedRole?.toList := by
  rw [probedRoles, List.filterMap_append]
  cases h : e.probedRole? <;> simp [probedRoles, h]

/-- A pass that has asked about the members `seen`, without a failure, and has the members `rest` before it. -/
structure Underway (own : Pid) (pass : List Event) (seen rest : List Entry) : Prop where
  begun : pass ≠ []
  members : membersIn own pass = seen ++ rest
  probed : probedRoles pass = seen.map Entry.role
  unfailed : failure? own pass = none

/-- A pass that has asked about its members up to one that failed. -/
structure Failing (own : Pid) (pass : List Event) (failed : Failed) : Prop where
  begun : pass ≠ []
  members : ∃ seen rest, membersIn own pass = seen ++ failed.member :: rest ∧
    probedRoles pass = (seen ++ [failed.member]).map Entry.role
  failure : failure? own pass = some failed

/-- Passes that have asked about all their members without a failure. -/
def Settled (own : Pid) (passes : List (List Event)) : Prop :=
  ∀ pass ∈ passes, failure? own pass = none ∧ probedRoles pass = (membersIn own pass).map Entry.role

theorem Settled.concat (h : Settled own done)
    (hpass : failure? own pass = none ∧ probedRoles pass = (membersIn own pass).map Entry.role) :
    Settled own (done ++ [pass]) := by
  intro p hp
  rcases List.mem_append.mp hp with hp | hp
  · exact h p hp
  · rw [List.mem_singleton.mp hp]
    exact hpass

theorem Settled.concat_nil (h : Settled own done) : Settled own (done ++ [[]]) := h.concat ⟨rfl, rfl⟩

namespace Underway

theorem begin (own : Pid) (answer : Except SystemError (List Entry)) :
    Underway own [.refreshed answer] [] (membersOf own (answer.toOption.getD [])) :=
  ⟨List.cons_ne_nil _ _, rfl, rfl, rfl⟩

theorem probe (h : Underway own pass seen (m :: rest)) (timeout : Nat) (outcome : Heartbeat.Outcome) :
    Underway own (pass ++ [.probed m.role timeout outcome]) (seen ++ [m]) rest where
  begun := by simp
  members := by rw [membersIn_concat h.begun, h.members, List.append_assoc, List.singleton_append]
  probed := by rw [probedRoles_concat, h.probed, List.map_append]; rfl
  unfailed := by
    rw [failure?_concat h.begun, h.unfailed, Option.none_or]
    cases pass.getLast? with
    | none => rfl
    | some last => exact failureOf_probed _ _ _ _ _

theorem failureOf_last (h : Underway own pass (seen ++ [m]) rest) (timeout : Nat) (outcome : Heartbeat.Outcome)
    (answer : Except SystemError (List Entry)) :
    failureOf (membersIn own pass) (.probed m.role timeout outcome, .refreshed answer) =
      if outcome.isAlive = false ∧ stillRegistered m answer = true then some ⟨m, outcome⟩ else none := by
  have hmembers : membersIn own pass = seen ++ m :: rest := by
    rw [h.members, List.append_assoc, List.singleton_append]
  -- The members have different roles, so the role of a probe tells whom it was for.
  have hfind : (membersIn own pass).find? (fun e => e.role = m.role) = some m := by
    unfold membersIn at hmembers ⊢
    split at hmembers
    · exact find?_member hmembers
    · simp at hmembers
  rw [failureOf, hfind, Option.bind_some]

theorem gone (h : Underway own pass (seen ++ [m]) rest) {timeout : Nat} {outcome : Heartbeat.Outcome}
    (hlast : pass.getLast? = some (.probed m.role timeout outcome)) {answer : Except SystemError (List Entry)}
    (hanswer : stillRegistered m answer = false) : Underway own (pass ++ [.refreshed answer]) (seen ++ [m]) rest where
  begun := by simp
  members := by rw [membersIn_concat h.begun, h.members]
  probed := by rw [probedRoles_concat, h.probed]; exact List.append_nil _
  unfailed := by
    rw [failure?_concat h.begun, h.unfailed, hlast, Option.none_or, Option.bind_some, h.failureOf_last, hanswer]
    simp

theorem fails (h : Underway own pass (seen ++ [m]) rest) {timeout : Nat} {outcome : Heartbeat.Outcome}
    (hlast : pass.getLast? = some (.probed m.role timeout outcome)) (hdead : outcome.isAlive = false)
    {answer : Except SystemError (List Entry)} (hanswer : stillRegistered m answer = true) :
    Failing own (pass ++ [.refreshed answer]) ⟨m, outcome⟩ where
  begun := by simp
  members := by
    refine ⟨seen, rest, ?_, ?_⟩
    · rw [membersIn_concat h.begun, h.members, List.append_assoc, List.singleton_append]
    · rw [probedRoles_concat, h.probed]
      exact List.append_nil _
  failure := by
    rw [failure?_concat h.begun, h.unfailed, hlast, Option.none_or, Option.bind_some, h.failureOf_last,
      if_pos ⟨hdead, hanswer⟩]

theorem complete (h : Underway own pass seen []) :
    failure? own pass = none ∧ probedRoles pass = (membersIn own pass).map Entry.role := by
  refine ⟨h.unfailed, ?_⟩
  rw [h.probed, h.members, List.append_nil]

end Underway

theorem Failing.refreshed (h : Failing own pass failed) (answer : Except SystemError (List Entry)) :
    Failing own (pass ++ [.refreshed answer]) failed where
  begun := by simp
  members := by
    obtain ⟨seen, rest, hmembers, hprobed⟩ := h.members
    refine ⟨seen, rest, by rw [membersIn_concat h.begun, hmembers], ?_⟩
    rw [probedRoles_concat, hprobed]
    exact List.append_nil _
  failure := by rw [failure?_concat h.begun, h.failure, Option.some_or]

end Detector
end GridFlight
