import GridFlight.Proofs.Detector.Notes

/-! The records of a detector from pass to pass. A pass begins by dropping what is no longer listed; then it records the
    members that are acknowledged and drops those that have left. So a pass without a failure leaves a record of every
    member that it has heard of, and of nobody else. -/

namespace GridFlight

open Registry (Entry)

namespace Detector

variable {own : Pid} {entries seen rest : List Entry} {heard : List (Role × Nat)} {probed skipped : Nat}
  {d : Detector} {m : Entry} {role : Role} {r : Record}

/-! ### Acknowledgments -/

/-- The role that was acknowledged, and the moment of it. -/
def Note.acknowledgment? (n : Note) : Option (Role × Nat) :=
  match n.event with
  | .probed role _ (.acknowledged _) => some (role, n.answered)
  | _ => none

/-- The roles that were acknowledged, in turn, each with the moment of it. -/
def acknowledgments (log : List Note) : List (Role × Nat) := log.filterMap Note.acknowledgment?

theorem acknowledgments_concat (log : List Note) (n : Note) :
    acknowledgments (log ++ [n]) = acknowledgments log ++ n.acknowledgment?.toList := by
  rw [acknowledgments, List.filterMap_append, acknowledgments]
  cases h : n.acknowledgment? <;> simp [h]

/-! ### Records in a pass -/

/-- A record stands under its own role, with the timeout of that role. -/
def Keyed (d : Detector) : Prop :=
  ∀ role r, d.records role = some r → r.role = role ∧ r.timeout = d.config.timeoutFor role

/-- The records of a pass that has settled the members `seen` and not yet the others, and has heard of these. -/
structure Tally (heard : List (Role × Nat)) (seen rest : List Entry) (probed skipped : Nat) (d : Detector) : Prop where
  distinct : (seen ++ rest).Pairwise fun a b => a.role ≠ b.role
  keyed : Keyed d
  listed : ∀ role r, d.records role = some r → ⟨role, r.pid⟩ ∈ seen ++ rest
  /-- The records of settled members are of this pass. -/
  fresh : ∀ m ∈ seen, ∀ r, d.records m.role = some r → (m.role, r.lastHeartbeat) ∈ heard
  recorded : ∀ x ∈ heard, ∃ r, d.records x.1 = some r ∧ r.lastHeartbeat = x.2
  settled : (heard.map Prod.fst).Sublist (seen.map Entry.role)
  answers : probed = heard.length
  counted : probed + skipped = seen.length

namespace Tally

theorem begin (answer : Except SystemError (List Entry)) (hkeyed : Keyed d)
    (hmembers : membersOf d.pid (answer.toOption.getD []) = m :: rest) :
    (d.begin answer).1 = .probing m rest 0 0 ∧ Tally [] [] (m :: rest) 0 0 (d.begin answer).2 := by
  have hdistinct := membersOf_roles d.pid (answer.toOption.getD [])
  simp only [Detector.begin, hmembers] at hdistinct ⊢
  refine ⟨trivial, hdistinct, ?_, ?_, List.forall_mem_nil _, List.forall_mem_nil _, List.Sublist.refl _, rfl, rfl⟩
  · intro role r hr
    exact hkeyed role r (Option.eq_some_of_filter_eq_some hr)
  · intro role r hr
    have hstays := (Option.filter_eq_some_iff.mp hr).2
    obtain ⟨member, hmember, hsame⟩ := List.any_eq_true.mp hstays
    obtain ⟨rfl, hpid⟩ := of_decide_eq_true hsame
    rw [← hpid]
    exact hmember

/-- No settled member has the role of one that is not settled yet. -/
theorem role_ne (h : Tally heard seen (m :: rest) probed skipped d) : ∀ x ∈ seen, x.role ≠ m.role :=
  fun x hx => (List.pairwise_append.mp h.distinct).2.2 x hx m List.mem_cons_self

theorem unheard (h : Tally heard seen (m :: rest) probed skipped d) : ∀ x ∈ heard, x.1 ≠ m.role := by
  intro x hx
  obtain ⟨member, hmember, hrole⟩ := List.mem_map.mp (h.settled.subset (List.mem_map_of_mem hx))
  rw [← hrole]
  exact h.role_ne member hmember

/-- What stands under the role of a member that has been acknowledged. -/
theorem records_note (h : Tally heard seen (m :: rest) probed skipped d) (now : Nat) :
    ∃ r, (d.note m now).records m.role = some r ∧ (r.role = m.role ∧ r.timeout = d.config.timeoutFor m.role) ∧
      ⟨m.role, r.pid⟩ ∈ seen ++ m :: rest ∧ r.lastHeartbeat = now := by
  cases hold : d.records m.role with
  | none =>
    exact ⟨⟨m.role, m.pid, d.config.timeoutFor m.role, now⟩, by simp [Detector.note, hold], ⟨rfl, rfl⟩, by simp, rfl⟩
  | some old =>
    exact ⟨{ old with lastHeartbeat := now }, by simp [Detector.note, hold], h.keyed m.role old hold,
      h.listed m.role old hold, rfl⟩

theorem records_note_of_ne (m : Entry) (now : Nat) (d : Detector) (hrole : role ≠ m.role) :
    (d.note m now).records role = d.records role := by
  simp only [Detector.note, if_neg hrole]

theorem note (h : Tally heard seen (m :: rest) probed skipped d) (now : Nat) :
    Tally (heard ++ [(m.role, now)]) (seen ++ [m]) rest (probed + 1) skipped (d.note m now) := by
  obtain ⟨new, hnew, hkeyed, hlisted, hlast⟩ := h.records_note now
  have hmembers : seen ++ m :: rest = seen ++ [m] ++ rest := by simp
  constructor
  case distinct => exact hmembers ▸ h.distinct
  case keyed =>
    intro role r hr
    by_cases hrole : role = m.role
    · subst hrole
      obtain rfl := Option.some.inj (hnew.symm.trans hr)
      exact hkeyed
    · rw [records_note_of_ne m now d hrole] at hr
      exact h.keyed role r hr
  case listed =>
    intro role r hr
    by_cases hrole : role = m.role
    · subst hrole
      obtain rfl := Option.some.inj (hnew.symm.trans hr)
      exact hmembers ▸ hlisted
    · rw [records_note_of_ne m now d hrole] at hr
      exact hmembers ▸ h.listed role r hr
  case fresh =>
    intro x hx r hr
    rcases List.mem_append.mp hx with hold | hx
    · rw [records_note_of_ne m now d (h.role_ne x hold)] at hr
      exact List.mem_append_left _ (h.fresh x hold r hr)
    · obtain rfl := List.mem_singleton.mp hx
      obtain rfl := Option.some.inj (hnew.symm.trans hr)
      rw [hlast]
      exact List.mem_append_right _ (List.mem_singleton_self _)
  case recorded =>
    intro x hx
    rcases List.mem_append.mp hx with hold | hx
    · rw [records_note_of_ne m now d (h.unheard x hold)]
      exact h.recorded x hold
    · rw [List.mem_singleton.mp hx]
      exact ⟨new, hnew, hlast⟩
  case settled =>
    rw [List.map_append, List.map_append]
    exact h.settled.append (List.Sublist.refl _)
  case answers => rw [List.length_append, h.answers, List.length_singleton]
  case counted =>
    have hcounted := h.counted
    rw [List.length_append, List.length_singleton]
    omega

theorem forget (h : Tally heard seen (m :: rest) probed skipped d) :
    Tally heard (seen ++ [m]) rest probed (skipped + 1) (d.forget m.role) := by
  have hkept : ∀ role r, (d.forget m.role).records role = some r → role ≠ m.role ∧ d.records role = some r := by
    intro role r hr
    simp only [Detector.forget] at hr
    split at hr
    · cases hr
    · next hrole => exact ⟨hrole, hr⟩
  have hmembers : seen ++ m :: rest = seen ++ [m] ++ rest := by simp
  constructor
  case distinct => exact hmembers ▸ h.distinct
  case keyed => exact fun role r hr => h.keyed role r (hkept role r hr).2
  case listed => exact fun role r hr => hmembers ▸ h.listed role r (hkept role r hr).2
  case fresh =>
    intro x hx r hr
    obtain ⟨hne, hold⟩ := hkept x.role r hr
    rcases List.mem_append.mp hx with hx | hx
    · exact h.fresh x hx r hold
    · exact absurd (congrArg Entry.role (List.mem_singleton.mp hx)) hne
  case recorded =>
    intro x hx
    obtain ⟨r, hr, hlast⟩ := h.recorded x hx
    exact ⟨r, by simp only [Detector.forget, if_neg (h.unheard x hx), hr], hlast⟩
  case settled =>
    rw [List.map_append]
    exact h.settled.trans (List.sublist_append_left _ _)
  case answers => exact h.answers
  case counted =>
    have hcounted := h.counted
    rw [List.length_append, List.length_singleton]
    omega

theorem nodup_heard (h : Tally heard seen rest probed skipped d) : (heard.map Prod.fst).Nodup :=
  List.Nodup.sublist h.settled (List.pairwise_map.mpr (List.pairwise_append.mp h.distinct).1)

/-- When all members are settled, the records are those of the roles that were acknowledged. -/
theorem isSome_records_iff (h : Tally heard seen [] probed skipped d) :
    (d.records role).isSome ↔ role ∈ heard.map Prod.fst := by
  rw [Option.isSome_iff_exists, List.mem_map]
  constructor
  · rintro ⟨r, hr⟩
    have hlisted := h.listed role r hr
    rw [List.append_nil] at hlisted
    exact ⟨_, h.fresh _ hlisted r hr, rfl⟩
  · rintro ⟨x, hx, rfl⟩
    obtain ⟨r, hr, -⟩ := h.recorded x hx
    exact ⟨r, hr⟩

theorem length_recordList (h : Tally heard seen [] probed skipped d) : d.recordList.length = probed := by
  have hkeys : (Role.all.filter fun role => (d.records role).isSome).Perm (heard.map Prod.fst) := by
    refine (List.perm_ext_iff_of_nodup (List.Pairwise.filter _ (by decide)) h.nodup_heard).mpr fun role => ?_
    rw [List.mem_filter, h.isSome_records_iff]
    exact ⟨And.right, fun hmem => ⟨role.mem_all, hmem⟩⟩
  rw [recordList, List.length_filterMap_eq_countP, List.countP_eq_length_filter, hkeys.length_eq, List.length_map,
    h.answers]

end Tally

/-! ### A pass -/

/-- What the records and the notes of a pass over these members are, once it has looked for them. -/
def Tallied (members : List Entry) (log : List Note) (d : Detector) : Pass → Prop
  | .reading => False
  | .probing m rest probed skipped | .rechecking m _ rest probed skipped =>
    ∃ seen, members = seen ++ m :: rest ∧ Tally (acknowledgments log) seen (m :: rest) probed skipped d
  | .finished .idle => members = [] ∧ Keyed d ∧ ∀ role, d.records role = none
  | .finished (.healthy probed skipped) => members ≠ [] ∧ Tally (acknowledgments log) members [] probed skipped d
  | .finished (.failed failed) => ∃ seen rest probed skipped,
    members = seen ++ failed.member :: rest ∧
      Tally (acknowledgments log) seen (failed.member :: rest) probed skipped d

variable {members : List Entry} {log : List Note}

theorem tallied_next (hmembers : members = seen ++ rest) (hseen : seen ≠ [])
    (h : Tally (acknowledgments log) seen rest probed skipped d) :
    Tallied members log d (.next rest probed skipped) := by
  cases rest with
  | nil =>
    rw [List.append_nil] at hmembers
    exact hmembers ▸ ⟨hseen, h⟩
  | cons m rest => exact ⟨seen, hmembers, h⟩

/-- The look at the registry with which a pass begins tells the members. -/
theorem tallied_begin (answer : Except SystemError (List Entry)) (hkeyed : Keyed d)
    (hheard : acknowledgments log = []) :
    Tallied (membersOf d.pid (answer.toOption.getD [])) log (d.begin answer).2 (d.begin answer).1 := by
  cases hmembers : membersOf d.pid (answer.toOption.getD []) with
  | nil =>
    simp only [begin, hmembers]
    refine ⟨rfl, fun role r hr => ?_, fun _ => rfl⟩
    cases hr
  | cons m rest =>
    obtain ⟨hpass, htally⟩ := Tally.begin answer hkeyed hmembers
    rw [hpass]
    exact ⟨[], rfl, hheard ▸ htally⟩

section
variable {σ : Type} (env : Surroundings σ) (d : Detector) (s : σ)

theorem tallied_passStep {pass : Pass} (h : Tallied members log d pass) :
    Tallied members (log ++ (noteInPass env d s pass).toList) (passStep env d s pass).2.1
      (passStep env d s pass).1 := by
  cases pass with
  | reading => exact h.elim
  | probing m rest probed skipped =>
    obtain ⟨seen, hmembers, htally⟩ := h
    have hsettled := hmembers.trans (List.append_cons seen m rest)
    simp only [passStep, noteInPass, askedInPass, Option.map_some, Option.toList_some]
    cases houtcome : (env.probe m.role (d.config.timeoutFor m.role) s).1 with
    | acknowledged millis =>
      refine tallied_next hsettled (by simp) ?_
      rw [acknowledgments_concat]
      exact htally.note _
    | timedOut | disconnected | unreachable =>
      refine ⟨seen, hmembers, ?_⟩
      rw [acknowledgments_concat]
      exact (List.append_nil _).symm ▸ htally
  | rechecking m outcome rest probed skipped =>
    obtain ⟨seen, hmembers, htally⟩ := h
    have hsettled := hmembers.trans (List.append_cons seen m rest)
    have hheard : ∀ n : Note, n.acknowledgment? = none → acknowledgments (log ++ [n]) = acknowledgments log :=
      fun n hn => by rw [acknowledgments_concat, hn]; exact List.append_nil _
    simp only [passStep, noteInPass, askedInPass, Option.map_some, Option.toList_some, rechecked]
    split
    · refine ⟨seen, rest, probed, skipped, hmembers, ?_⟩
      rw [hheard _ rfl]
      exact htally
    · refine tallied_next hsettled (by simp) ?_
      rw [hheard _ rfl]
      exact htally.forget
  | finished report =>
    rw [noteInPass, askedInPass, Option.map_none, Option.toList_none, List.append_nil]
    exact h

/-- What the records and the notes of a pass are when it reports. -/
theorem tallied_cycle (hkeyed : Keyed d) :
    Tallied (membersOf d.pid ((env.refresh s).1.toOption.getD [])) (cycleNotes env d s) (cycle env d s).2.1
      (.finished (cycle env d s).1) := by
  have hcycle : cycle env.timed d (s, []) = passFrom env.timed (2 * Role.all.length + 1)
      (passStep env d s .reading).2.1 ((passStep env d s .reading).2.2, (noteInPass env d s .reading).toList)
      (passStep env d s .reading).1 := by
    rw [cycle, passFrom_succ, passStep_timed, List.nil_append]
  have hbudget : (passStep env d s .reading).1.budget ≤ 2 * Role.all.length + 1 :=
    Nat.le_succ_of_le (budget_passStep env d s .reading)
  have hbegun : Tallied (membersOf d.pid ((env.refresh s).1.toOption.getD [])) (noteInPass env d s .reading).toList
      (passStep env d s .reading).2.1 (passStep env d s .reading).1 := tallied_begin (env.refresh s).1 hkeyed rfl
  have hended := passFrom_induction env.timed
    (motive := fun pass e t => Tallied (membersOf d.pid ((env.refresh s).1.toOption.getD [])) t.2 e pass)
    (fun pass e t h => by rw [passStep_timed]; exact tallied_passStep env e t.1 h)
    (2 * Role.all.length + 1) hbudget
    (s := ((passStep env d s .reading).2.2, (noteInPass env d s .reading).toList)) hbegun
  rw [← hcycle, cycle_timed] at hended
  exact hended

theorem cycle_keeps : (cycle env d s).2.1.pid = d.pid ∧ (cycle env d s).2.1.config = d.config :=
  cycle_induction env (motive := fun _ e _ => e.pid = d.pid ∧ e.config = d.config)
    (fun pass e t ⟨hpid, hconfig⟩ =>
      ⟨(passStep_keeps env e t pass).1.trans hpid, (passStep_keeps env e t pass).2.trans hconfig⟩)
    ⟨rfl, rfl⟩

/-! ### Pass after pass -/

/-- A detector and its surroundings after so many passes. -/
def afterCycles : Nat → Detector × σ
  | 0 => (d, s)
  | n + 1 => (cycle env (afterCycles n).1 (afterCycles n).2).2

theorem keyed_of_tallied {report : Report} {e : Detector} (h : Tallied members log e (.finished report)) : Keyed e := by
  cases report with
  | idle => exact h.2.1
  | healthy probed skipped => exact h.2.keyed
  | failed failed =>
    obtain ⟨seen, rest, probed, skipped, -, htally⟩ := h
    exact htally.keyed

theorem keyed_afterCycles (config : Config) (own : Pid) (n : Nat) :
    Keyed (afterCycles env (.new config own) s n).1 ∧ (afterCycles env (.new config own) s n).1.pid = own := by
  induction n with
  | zero => exact ⟨nofun, rfl⟩
  | succ n ih =>
    exact ⟨keyed_of_tallied (tallied_cycle env _ _ ih.1), (cycle_keeps env _ _).1.trans ih.2⟩

end

/-- What is recorded after a pass that found no failure: the members that were acknowledged in it, each with the moment
    of that acknowledgment. The others had left and were passed over. -/
structure UpToDate (own : Pid) (entries : List Entry) (heard : List (Role × Nat)) (probed skipped : Nat)
    (d : Detector) : Prop where
  once : (heard.map Prod.fst).Nodup
  keys : ∀ role, (d.records role).isSome ↔ role ∈ heard.map Prod.fst
  answers : probed = d.recordList.length
  counted : probed + skipped = (membersOf own entries).length
  records : ∀ role r, d.records role = some r →
    r.role = role ∧ FirstOfRole own entries ⟨role, r.pid⟩ ∧ (role, r.lastHeartbeat) ∈ heard

/-- After any number of passes over any registry, the next pass leaves records that follow the members it found: none if
    there are no members, those of the acknowledged members if nobody failed, and of members only if somebody did. -/
theorem records_follow_members {σ : Type} (env : Surroundings σ) (config : Config) (own : Pid) (s : σ) (n : Nat) :
    let d := (afterCycles env (.new config own) s n).1
    let t := (afterCycles env (.new config own) s n).2
    let entries := (env.refresh t).1.toOption.getD []
    let later := (cycle env d t).2.1
    ((cycle env d t).1 = .idle ↔ membersOf own entries = []) ∧
    ((cycle env d t).1 = .idle → ∀ role, later.records role = none) ∧
    (∀ probed skipped, (cycle env d t).1 = .healthy probed skipped →
      UpToDate own entries (acknowledgments (cycleNotes env d t)) probed skipped later) ∧
    ∀ failed, (cycle env d t).1 = .failed failed → FirstOfRole own entries failed.member ∧
      ∀ role r, later.records role = some r → r.role = role ∧ FirstOfRole own entries ⟨role, r.pid⟩ := by
  intro d t entries later
  obtain ⟨hkeyed, hpid⟩ := keyed_afterCycles env s config own n
  have htallied := tallied_cycle env d t hkeyed
  rw [show d.pid = own from hpid] at htallied
  cases hreport : (cycle env d t).1 with
  | idle =>
    rw [hreport] at htallied
    exact ⟨⟨fun _ => htallied.1, fun _ => rfl⟩, fun _ => htallied.2.2, nofun, nofun⟩
  | healthy probed skipped =>
    rw [hreport] at htallied
    obtain ⟨hsome, htally⟩ := htallied
    refine ⟨⟨nofun, fun hnone => absurd hnone hsome⟩, nofun, fun p k heq => ?_, nofun⟩
    obtain ⟨rfl, rfl⟩ := Report.healthy.inj heq
    have hmember : ∀ role r, later.records role = some r → ⟨role, r.pid⟩ ∈ membersOf own entries := fun role r hr => by
      have hlisted := htally.listed role r hr
      rwa [List.append_nil] at hlisted
    exact ⟨htally.nodup_heard, fun role => htally.isSome_records_iff, htally.length_recordList.symm, htally.counted,
      fun role r hr => ⟨(htally.keyed role r hr).1, mem_membersOf_iff.mp (hmember role r hr),
        htally.fresh ⟨role, r.pid⟩ (hmember role r hr) r hr⟩⟩
  | failed failed =>
    rw [hreport] at htallied
    obtain ⟨seen, rest, probed, skipped, hmembers, htally⟩ := htallied
    refine ⟨⟨nofun, fun hnone => by rw [hnone] at hmembers; simp at hmembers⟩, nofun, nofun, fun f heq => ?_⟩
    obtain rfl := Report.failed.inj heq
    refine ⟨mem_membersOf_iff.mp (hmembers ▸ by simp), fun role r hr => ⟨(htally.keyed role r hr).1, ?_⟩⟩
    exact mem_membersOf_iff.mp (hmembers ▸ htally.listed role r hr)

/-- Surroundings whose state is the clock: a part comes back under another identity, and a part that has just joined
    leaves without an answer. -/
def movingPart : Surroundings Nat where
  publish _ t := (.ok (), t)
  withdraw _ t := (.ok true, t)
  refresh t := (.ok (if t < 5 then [⟨.physics, ⟨8⟩⟩]
    else if t < 200 then [⟨.supervisor, ⟨7⟩⟩, ⟨.physics, ⟨9⟩⟩, ⟨.physics, ⟨8⟩⟩, ⟨.relay, ⟨10⟩⟩]
    else [⟨.physics, ⟨9⟩⟩]), t)
  probe role timeout t := if role = .physics then (.acknowledged 5, t + 5) else (.disconnected, t + timeout)
  pause millis t := (false, t + millis)
  kill _ t := (.ok (), t)
  now t := t

theorem records_follow_moving_part :
    let first := (afterCycles movingPart (.new .standard ⟨7⟩) 0 1).1
    first.records .physics = some ⟨.physics, ⟨8⟩, 200, 5⟩ ∧
      UpToDate ⟨7⟩ [⟨.supervisor, ⟨7⟩⟩, ⟨.physics, ⟨9⟩⟩, ⟨.physics, ⟨8⟩⟩, ⟨.relay, ⟨10⟩⟩] [(.physics, 10)] 1 1
        (cycle movingPart first 5).2.1 :=
  ⟨rfl, (records_follow_members movingPart .standard ⟨7⟩ 0 1).2.2.1 1 1 rfl⟩

end Detector
end GridFlight
