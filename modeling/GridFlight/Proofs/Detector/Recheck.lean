import GridFlight.Proofs.Detector.Members
import GridFlight.Proofs.Registry.Mishaps

/-! Passes over a registry in a file that others use at the same time, and that cannot always be opened, locked and
    read. A member that does not answer is listed when the pass looks again, unless it has withdrawn or the registry
    has been emptied. So the pass fails, also when it cannot lock or read the file; but if it cannot open the file it
    takes the member for one that has left. -/

namespace GridFlight

open Disk (Mishaps Place)
open Registry (Entry Listed Request)

namespace Detector

/-- Surroundings with a registry in a file, where openings, lockings and readings fail, and with this outcome of any
    probe. -/
def onFile (mishaps : Mishaps) (outcome : Heartbeat.Outcome) (now : Nat) : Surroundings Place where
  publish e p := (Registry.File.publish e).runDespite mishaps p
  withdraw e p := (Registry.File.withdraw e).runDespite mishaps p
  refresh p := Registry.File.refresh.runDespite mishaps p
  probe _ _ p := (outcome, p)
  pause _ p := (false, p)
  kill _ p := (.ok (), p)
  now _ := now

/-- The members that a pass has not settled yet. -/
def Pass.pending : Pass → List Entry
  | .probing member rest _ _ | .rechecking member _ rest _ _ => member :: rest
  | _ => []

/-- A pass looks again only after a probe that was not acknowledged. -/
def Pass.LooksOnSilence : Pass → Prop
  | .rechecking _ outcome _ _ _ => outcome.isAlive = false
  | _ => True

theorem pending_begin (d : Detector) (answer : Except SystemError (List Entry)) :
    (d.begin answer).1.pending = membersOf d.pid (answer.toOption.getD []) ∧ (d.begin answer).1.LooksOnSilence := by
  unfold begin
  dsimp only
  split
  · next h => exact ⟨h.symm, trivial⟩
  · next h => exact ⟨h.symm, trivial⟩

theorem pending_next (rest : List Entry) (probed skipped : Nat) :
    (Pass.next rest probed skipped).pending = rest ∧ (Pass.next rest probed skipped).LooksOnSilence := by
  cases rest with
  | nil => exact ⟨rfl, trivial⟩
  | cons m rest => exact ⟨rfl, trivial⟩

theorem pending_probed (d : Detector) (m : Entry) (rest : List Entry) (probed skipped : Nat)
    (outcome : Heartbeat.Outcome) (now : Nat) :
    (d.probed m rest probed skipped outcome now).1.pending ⊆ m :: rest ∧
      (d.probed m rest probed skipped outcome now).1.LooksOnSilence := by
  cases outcome with
  | acknowledged millis =>
    obtain ⟨hpending, hlooks⟩ := pending_next rest (probed + 1) skipped
    refine ⟨?_, hlooks⟩
    simp only [Detector.probed, hpending]
    exact List.subset_cons_self m rest
  | timedOut | disconnected | unreachable => exact ⟨fun _ hm => hm, rfl⟩

theorem pending_rechecked (d : Detector) (m : Entry) (outcome : Heartbeat.Outcome) (rest : List Entry)
    (probed skipped : Nat) (answer : Except SystemError (List Entry)) :
    (d.rechecked m outcome rest probed skipped answer).1.pending ⊆ rest ∧
      (d.rechecked m outcome rest probed skipped answer).1.LooksOnSilence := by
  unfold rechecked
  split
  · exact ⟨List.nil_subset _, trivial⟩
  · obtain ⟨hpending, hlooks⟩ := pending_next rest probed (skipped + 1)
    exact ⟨fun m' hm' => hpending ▸ hm', hlooks⟩

/-- A detector in a pass, and a registry that others use. -/
structure Vigil where
  place : Place
  detector : Detector
  pass : Pass
  /-- What others have asked of the registry since the pass looked for its members. -/
  since : List Request

namespace Vigil

variable {v w : Vigil} {m : Entry} {outcome : Heartbeat.Outcome} {rest : List Entry} {probed skipped : Nat}

/-! ### Steps -/

/-- The pass asks its next question. -/
def ask (v : Vigil) (env : Surroundings Place) : Vigil :=
  let (pass, detector, place) := passStep env v.detector v.place v.pass
  ⟨place, detector, pass, if v.pass = .reading then [] else v.since⟩

/-- Another part asks something of the registry. -/
def serve (v : Vigil) (mishaps : Mishaps) (r : Request) : Vigil :=
  { v with place := (Registry.File.serveDespite mishaps r v.place).2, since := v.since ++ [r] }

inductive Step (v : Vigil) : Vigil → Prop where
  | ask (mishaps : Mishaps) (outcome : Heartbeat.Outcome) (now : Nat) : Step v (v.ask (onFile mishaps outcome now))
  | serve (mishaps : Mishaps) (r : Request) : Step v (v.serve mishaps r)
  | again {report : Report} (hpass : v.pass = .finished report) : Step v { v with pass := .reading }

/-- What can be reached from the beginning of a pass, whatever is found at the place. -/
inductive Reachable : Vigil → Prop where
  | initial (place : Place) (detector : Detector) : Reachable ⟨place, detector, .reading, []⟩
  | step {v w : Vigil} (h : Reachable v) (hstep : v.Step w) : Reachable w

/-! ### Members that have not left -/

/-- A member before the pass is listed unless it has left since, and a second look follows only on silence. -/
structure Watchful (v : Vigil) : Prop where
  listed : ∀ m ∈ v.pass.pending, .reset ∉ v.since → .withdraw m ∉ v.since → Listed m v.place
  looks : v.pass.LooksOnSilence

theorem place_ask (v : Vigil) (mishaps : Mishaps) (outcome : Heartbeat.Outcome) (now : Nat) :
    (v.ask (onFile mishaps outcome now)).place = v.place := by
  obtain ⟨place, detector, pass, since⟩ := v
  cases pass with
  | reading | rechecking => exact Registry.place_refresh mishaps place
  | probing | finished => rfl

theorem Watchful.ask (h : v.Watchful) (mishaps : Mishaps) (outcome : Heartbeat.Outcome) (now : Nat) :
    (v.ask (onFile mishaps outcome now)).Watchful := by
  obtain ⟨place, detector, pass, since⟩ := v
  have hplace := place_ask ⟨place, detector, pass, since⟩ mishaps outcome now
  cases pass with
  | reading =>
    obtain ⟨hpending, hlooks⟩ := pending_begin detector (Registry.File.refresh.runDespite mishaps place).1
    refine ⟨fun m hm _ _ => ?_, hlooks⟩
    have hmember : m ∈ membersOf detector.pid
        ((Registry.File.refresh.runDespite mishaps place).1.toOption.getD []) := hpending ▸ hm
    have hentry := mem_of_mem_membersOf hmember
    have hlisted : Listed m place := by
      cases hanswer : (Registry.File.refresh.runDespite mishaps place).1 with
      | error e =>
        rw [hanswer] at hentry
        cases hentry
      | ok entries =>
        rw [hanswer] at hentry
        exact Registry.listed_of_refresh hanswer hentry
    rw [hplace]
    exact hlisted
  | probing m rest probed skipped =>
    obtain ⟨hpending, hlooks⟩ := pending_probed detector m rest probed skipped outcome now
    exact ⟨fun m' hm' => h.listed m' (hpending hm'), hlooks⟩
  | rechecking m silence rest probed skipped =>
    obtain ⟨hpending, hlooks⟩ := pending_rechecked detector m silence rest probed skipped
      (Registry.File.refresh.runDespite mishaps place).1
    refine ⟨fun m' hm' hreset hwithdraw => ?_, hlooks⟩
    rw [hplace]
    exact h.listed m' (List.mem_cons_of_mem m (hpending hm')) hreset hwithdraw
  | finished report => exact h

theorem Watchful.serve (h : v.Watchful) (mishaps : Mishaps) (r : Request) : (v.serve mishaps r).Watchful where
  listed m hm hreset hwithdraw := by
    obtain ⟨hreset, hr⟩ := not_or.mp (mt List.mem_append.mpr hreset)
    obtain ⟨hwithdraw, hr'⟩ := not_or.mp (mt List.mem_append.mpr hwithdraw)
    exact (h.listed m hm hreset hwithdraw).serve (fun heq => hr (heq ▸ List.mem_singleton_self _))
      fun heq => hr' (heq ▸ List.mem_singleton_self _)
  looks := h.looks

theorem Watchful.step (h : v.Watchful) (hstep : v.Step w) : w.Watchful := by
  cases hstep with
  | ask mishaps outcome now => exact h.ask mishaps outcome now
  | serve mishaps r => exact h.serve mishaps r
  | again hpass => exact ⟨nofun, trivial⟩

theorem watchful_of_reachable (h : Reachable v) : v.Watchful := by
  induction h with
  | initial place detector => exact ⟨nofun, trivial⟩
  | step _ hstep ih => exact ih.step hstep

/-! ### The second look -/

/-- A pass is about to look again for a member that was not acknowledged. If that member has not withdrawn and the
    registry has not been emptied since the pass looked for its members, the pass fails for it exactly when the file
    can be opened, whether or not it can then be locked and read. -/
theorem silent_member_fails_iff_opened (h : Reachable v) (hpass : v.pass = .rechecking m outcome rest probed skipped)
    (hreset : .reset ∉ v.since) (hwithdraw : .withdraw m ∉ v.since) (mishaps : Mishaps)
    (probe : Heartbeat.Outcome) (now : Nat) :
    outcome.isAlive = false ∧
      ((v.ask (onFile mishaps probe now)).pass = .finished (.failed ⟨m, outcome⟩) ↔ mishaps .openRead = none) := by
  obtain ⟨place, detector, pass, since⟩ := v
  obtain rfl : pass = _ := hpass
  have hwatchful := watchful_of_reachable h
  refine ⟨hwatchful.looks, ?_⟩
  have hask : (Vigil.ask ⟨place, detector, .rechecking m outcome rest probed skipped, since⟩
      (onFile mishaps probe now)).pass =
      (detector.rechecked m outcome rest probed skipped (Registry.File.refresh.runDespite mishaps place).1).1 := rfl
  rw [hask]
  cases hopen : mishaps .openRead with
  | some cause =>
    -- Nobody is registered in a file that cannot be opened, and the pass goes on.
    have hpassed : (detector.rechecked m outcome rest probed skipped
        (Registry.File.refresh.runDespite mishaps place).1).1 = .next rest probed (skipped + 1) := by
      rw [Registry.refresh_unopened hopen]
      rfl
    rw [hpassed]
    cases rest <;> exact ⟨nofun, nofun⟩
  | none =>
    have hlisted := hwatchful.listed m List.mem_cons_self hreset hwithdraw
    have hstill : stillRegistered m (Registry.File.refresh.runDespite mishaps place).1 = true := by
      rcases hlisted.refresh hopen with ⟨error, hanswer⟩ | ⟨entries, hanswer, hm⟩
      · rw [hanswer]
        rfl
      · rw [hanswer]
        exact List.contains_iff_mem.mpr hm
    simp [rechecked, hstill]

/-- A registered part, and a detector at the beginning of a pass. -/
def onePart : Vigil := ⟨⟨true, .file (Utf8.encode (Entry.line ⟨.physics, ⟨11⟩⟩))⟩, Detector.new .standard ⟨1⟩, .reading, []⟩

/-- The pass has found the part silent. -/
def onePartSilent : Vigil :=
  (onePart.ask (onFile (fun _ => none) .timedOut 0)).ask (onFile (fun _ => none) .timedOut 0)

/-- The second look fails when it reads the file. -/
theorem silent_part_fails_unread :
    Reachable onePartSilent ∧ onePartSilent.pass = .rechecking ⟨.physics, ⟨11⟩⟩ .timedOut [] 0 0 ∧
      (onePartSilent.ask (onFile (fun action => if action = .read then some .badDescriptor else none) .timedOut 0)).pass
        = .finished (.failed ⟨⟨.physics, ⟨11⟩⟩, .timedOut⟩) := by
  have h : Reachable onePartSilent := ((Reachable.initial _ _).step (.ask _ _ _)).step (.ask _ _ _)
  have hpass : onePartSilent.pass = .rechecking ⟨.physics, ⟨11⟩⟩ .timedOut [] 0 0 := rfl
  exact ⟨h, hpass, (silent_member_fails_iff_opened h hpass (by decide) (by decide) _ _ _).2.mpr rfl⟩

/-- The second look fails when it opens the file, and the pass goes on although the part is registered. -/
theorem silent_part_forgiven_unopened :
    Reachable onePartSilent ∧ onePartSilent.pass = .rechecking ⟨.physics, ⟨11⟩⟩ .timedOut [] 0 0 ∧
      onePartSilent.since = [] ∧ Listed ⟨.physics, ⟨11⟩⟩ onePartSilent.place ∧
      (onePartSilent.ask (onFile (fun action => if action = .openRead then some .permissionDenied else none)
        .timedOut 0)).pass = .finished (.healthy 0 1) := by
  refine ⟨((Reachable.initial _ _).step (.ask _ _ _)).step (.ask _ _ _), rfl, rfl, ⟨Entry.line ⟨.physics, ⟨11⟩⟩, rfl, ?_⟩, rfl⟩
  decide

end Vigil
end Detector
end GridFlight
