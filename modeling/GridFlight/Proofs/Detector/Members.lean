import Mathlib.Data.List.Basic
import Mathlib.Data.List.Induction
import Mathlib.Data.List.Perm.Subperm
import GridFlight.Detector

/-! The members of a pass: of every role the first entry that is neither a supervisor's nor the detector's own, in the
    order of the registry. -/

namespace GridFlight

open Registry (Entry)

namespace Detector

variable {own : Pid} {entries members : List Entry} {e m : Entry}

/-- An entry that a detector watches over: not of a supervisor, and not the detector itself. -/
def Watched (own : Pid) (e : Entry) : Prop := e.role ≠ .supervisor ∧ e.pid ≠ own

/-- The first entry of its role that is watched over. -/
def FirstOfRole (own : Pid) (entries : List Entry) (m : Entry) : Prop :=
  Watched own m ∧ ∃ before after, entries = before ++ m :: after ∧ ∀ e ∈ before, Watched own e → e.role ≠ m.role

/-! ### Enrolling -/

theorem enroll_cases (own : Pid) (members : List Entry) (e : Entry) :
    (enroll own members e = members ∧ (Watched own e → ∃ m ∈ members, m.role = e.role)) ∨
      (enroll own members e = members ++ [e] ∧ Watched own e ∧ ∀ m ∈ members, m.role ≠ e.role) := by
  unfold enroll
  split
  · next h =>
    refine Or.inl ⟨rfl, fun hw => ?_⟩
    rcases h with hrole | hpid | hany
    · exact absurd hrole hw.1
    · exact absurd hpid hw.2
    · simpa using hany
  · next h =>
    simp only [not_or, List.any_eq_true, decide_eq_true_eq, not_exists, not_and] at h
    exact Or.inr ⟨rfl, ⟨h.1, h.2.1⟩, h.2.2⟩

theorem membersOf_concat (own : Pid) (entries : List Entry) (e : Entry) :
    membersOf own (entries ++ [e]) = enroll own (membersOf own entries) e := by
  rw [membersOf, List.foldl_append]
  rfl

theorem exists_member (he : e ∈ entries) (hw : Watched own e) :
    ∃ m ∈ membersOf own entries, m.role = e.role := by
  induction entries using List.reverseRecOn with
  | nil => cases he
  | append_singleton entries last ih =>
    rw [membersOf_concat]
    rcases List.mem_append.mp he with hold | hnew
    · obtain ⟨m, hm, hrole⟩ := ih hold
      rcases enroll_cases own (membersOf own entries) last with ⟨heq, -⟩ | ⟨heq, -, -⟩
      · exact ⟨m, by rw [heq]; exact hm, hrole⟩
      · exact ⟨m, by rw [heq]; exact List.mem_append_left _ hm, hrole⟩
    · obtain rfl := List.mem_singleton.mp hnew
      rcases enroll_cases own (membersOf own entries) e with ⟨heq, hcover⟩ | ⟨heq, -, -⟩
      · rw [heq]
        exact hcover hw
      · exact ⟨e, by rw [heq]; exact List.mem_append_right _ (List.mem_singleton_self e), rfl⟩

/-! ### Who is a member -/

theorem mem_membersOf_iff : m ∈ membersOf own entries ↔ FirstOfRole own entries m := by
  induction entries using List.reverseRecOn generalizing m with
  | nil =>
    constructor
    · intro h
      cases h
    · rintro ⟨-, before, after, h, -⟩
      cases before <;> cases h
  | append_singleton entries last ih =>
    rw [membersOf_concat]
    constructor
    · intro h
      have old : m ∈ membersOf own entries → FirstOfRole own (entries ++ [last]) m := by
        intro hm
        obtain ⟨hw, before, after, rfl, hbefore⟩ := ih.mp hm
        exact ⟨hw, before, after ++ [last], by simp, hbefore⟩
      rcases enroll_cases own (membersOf own entries) last with ⟨heq, -⟩ | ⟨heq, hw, hnone⟩
      · exact old (heq ▸ h)
      · rcases List.mem_append.mp (heq ▸ h) with hm | hm
        · exact old hm
        · obtain rfl := List.mem_singleton.mp hm
          refine ⟨hw, entries, [], rfl, fun e he hwe hrole => ?_⟩
          obtain ⟨m', hm', hrole'⟩ := exists_member he hwe
          exact hnone m' hm' (hrole'.trans hrole)
    · rintro ⟨hw, before, after, heq, hbefore⟩
      rcases List.eq_nil_or_concat after with rfl | ⟨after, x, rfl⟩
      · obtain ⟨rfl, hlast⟩ := List.append_inj' heq rfl
        obtain rfl := (List.singleton_inj.mp hlast).symm
        rcases enroll_cases own (membersOf own entries) m with ⟨heq, hcover⟩ | ⟨heq, -, -⟩
        · -- A member of the same role would be an earlier entry.
          obtain ⟨m', hm', hrole⟩ := hcover hw
          obtain ⟨hw', before', after', rfl, -⟩ := ih.mp hm'
          exact absurd hrole (hbefore m' (by simp) hw')
        · rw [heq]
          exact List.mem_append_right _ (List.mem_singleton_self m)
      · have hsplit : entries ++ [last] = (before ++ m :: after) ++ [x] := by rw [heq]; simp
        obtain ⟨rfl, -⟩ := List.append_inj' hsplit rfl
        have hm : m ∈ membersOf own (before ++ m :: after) := ih.mpr ⟨hw, before, after, rfl, hbefore⟩
        rcases enroll_cases own (membersOf own (before ++ m :: after)) last with ⟨heq, -⟩ | ⟨heq, -, -⟩
        · rw [heq]
          exact hm
        · rw [heq]
          exact List.mem_append_left _ hm

theorem mem_of_mem_membersOf (h : m ∈ membersOf own entries) : m ∈ entries := by
  obtain ⟨-, before, after, rfl, -⟩ := mem_membersOf_iff.mp h
  simp

/-- There is one member of a role at most. -/
theorem membersOf_roles (own : Pid) (entries : List Entry) :
    (membersOf own entries).Pairwise fun a b => a.role ≠ b.role := by
  induction entries using List.reverseRecOn with
  | nil => exact List.Pairwise.nil
  | append_singleton entries last ih =>
    rw [membersOf_concat]
    rcases enroll_cases own (membersOf own entries) last with ⟨heq, -⟩ | ⟨heq, -, hnone⟩
    · rw [heq]
      exact ih
    · rw [heq, List.pairwise_append]
      refine ⟨ih, List.pairwise_singleton _ _, fun a ha b hb => ?_⟩
      rw [List.mem_singleton.mp hb]
      exact hnone a ha

theorem length_membersOf_le (own : Pid) (entries : List Entry) :
    (membersOf own entries).length ≤ Role.all.length := by
  have hroles : ((membersOf own entries).map Entry.role).Nodup := List.pairwise_map.mpr (membersOf_roles own entries)
  rw [← List.length_map Entry.role]
  exact (List.Nodup.subperm hroles fun role _ => role.mem_all).length_le

/-- The members stand in the order of the registry. -/
theorem membersOf_order (own : Pid) (entries : List Entry) :
    (membersOf own entries).Pairwise fun a b => entries.idxOf a < entries.idxOf b := by
  induction entries using List.reverseRecOn with
  | nil => exact List.Pairwise.nil
  | append_singleton entries last ih =>
    have old : (membersOf own entries).Pairwise fun a b =>
        (entries ++ [last]).idxOf a < (entries ++ [last]).idxOf b := by
      refine ih.imp_of_mem fun ha hb hab => ?_
      rw [List.idxOf_append_of_mem (mem_of_mem_membersOf ha), List.idxOf_append_of_mem (mem_of_mem_membersOf hb)]
      exact hab
    rw [membersOf_concat]
    rcases enroll_cases own (membersOf own entries) last with ⟨heq, -⟩ | ⟨heq, hw, hnone⟩
    · rw [heq]
      exact old
    · rw [heq, List.pairwise_append]
      refine ⟨old, List.pairwise_singleton _ _, fun a ha b hb => ?_⟩
      obtain rfl := List.mem_singleton.mp hb
      have hfresh : b ∉ entries := fun hmem => by
        obtain ⟨m, hm, hrole⟩ := exists_member hmem hw
        exact hnone m hm hrole
      rw [List.idxOf_append_of_mem (mem_of_mem_membersOf ha), List.idxOf_append_of_notMem hfresh]
      have := List.idxOf_lt_length_of_mem (mem_of_mem_membersOf ha)
      omega

theorem find?_member {before after : List Entry} (h : membersOf own entries = before ++ m :: after) :
    (membersOf own entries).find? (fun e => e.role = m.role) = some m := by
  have hroles := membersOf_roles own entries
  rw [h, List.pairwise_append] at hroles
  rw [h, List.find?_append, List.find?_cons_of_pos (by simp), Option.or_eq_right_of_none]
  rw [List.find?_eq_none]
  intro e he
  simpa using hroles.2.2 e he m List.mem_cons_self

end Detector
end GridFlight
