import GridFlight.Proofs.Registry.Lines
import GridFlight.Registry.File

/-! Snapshots of any text. A text goes on after each newline as if it began there, so that a part of a text that was
    read too early lists the first entries of the whole, and lines can be taken out without harm to the others. -/

namespace GridFlight
namespace Registry

/-! ### A text line by line -/

/-- A text is unfinished, or it is a line and a text after its newline. -/
theorem text_induction {motive : List Char → Prop} (unfinished : ∀ cs, '\n' ∉ cs → motive cs)
    (line : ∀ cs rest, '\n' ∉ cs → motive rest → motive (cs ++ '\n' :: rest)) (cs : List Char) : motive cs := by
  induction hlength : cs.length using Nat.strongRecOn generalizing cs with
  | ind n ih =>
    by_cases hnewline : '\n' ∈ cs
    · obtain ⟨first, rest, rfl, hfirst⟩ := List.eq_append_cons_of_mem hnewline
      have hshorter : rest.length < n := by
        simp only [List.length_append, List.length_cons] at hlength
        omega
      exact line first rest hfirst (ih rest.length hshorter rest rfl)
    · exact unfinished cs hnewline

theorem linesOf_unfinished {cs : List Char} (h : '\n' ∉ cs) (hne : cs ≠ []) : linesOf cs = [cs] := by
  induction cs with
  | nil => exact absurd rfl hne
  | cons c cs ih =>
    have hc : c ≠ '\n' := fun e => h (e ▸ List.mem_cons_self)
    cases cs with
    | nil => simp [linesOf, hc]
    | cons d ds =>
      have hrest := ih (fun hmem => h (List.mem_cons_of_mem c hmem)) (List.cons_ne_nil d ds)
      rw [linesOf, if_neg hc, hrest]

theorem snapshotLine?_unfinished {cs : List Char} (h : '\n' ∉ cs) : snapshotLine? cs = none := by
  have hwhole : isWhole cs = false := by
    rw [isWhole, beq_eq_false_iff_ne]
    exact fun hlast => h (List.mem_of_getLast? hlast)
  rw [snapshotLine?, hwhole]
  rfl

theorem snapshotOf_unfinished {cs : List Char} (h : '\n' ∉ cs) : snapshotOf cs = [] := by
  by_cases hne : cs = []
  · rw [hne]
    rfl
  · simp [snapshotOf, linesOf_unfinished h hne, snapshotLine?_unfinished h]

theorem snapshotOf_line {cs : List Char} (h : '\n' ∉ cs) (rest : List Char) :
    snapshotOf (cs ++ '\n' :: rest) = (snapshotLine? (cs ++ ['\n'])).toList ++ snapshotOf rest := by
  rw [snapshotOf, linesOf_line h, List.filterMap_cons, snapshotOf]
  cases snapshotLine? (cs ++ ['\n']) <;> rfl

/-! ### Parts of a text -/

/-- What is read of the beginning of a text is the beginning of what is read of the whole. -/
theorem snapshotOf_prefix_append (cs later : List Char) : snapshotOf cs <+: snapshotOf (cs ++ later) := by
  induction cs using text_induction with
  | unfinished cs h =>
    rw [snapshotOf_unfinished h]
    exact List.nil_prefix
  | line cs rest h ih =>
    rw [List.append_assoc, List.cons_append, snapshotOf_line h, snapshotOf_line h]
    exact (List.prefix_append_right_inj _).mpr ih

/-- Behind a newline a text is read as if it began there. -/
theorem snapshotOf_append {cs : List Char} (h : cs = [] ∨ cs.getLast? = some '\n') (later : List Char) :
    snapshotOf (cs ++ later) = snapshotOf cs ++ snapshotOf later := by
  induction cs using text_induction with
  | unfinished cs hcs =>
    rcases h with rfl | hlast
    · rfl
    · exact absurd (List.mem_of_getLast? hlast) hcs
  | line cs rest hcs ih =>
    have hrest : rest = [] ∨ rest.getLast? = some '\n' := by
      rcases h with hnil | hlast
      · simp at hnil
      · cases rest with
        | nil => exact Or.inl rfl
        | cons c rest => exact Or.inr (by simpa using hlast)
    rw [List.append_assoc, List.cons_append, snapshotOf_line hcs, snapshotOf_line hcs, ih hrest, List.append_assoc]

theorem linesOf_flatten_filter (p : List Char → Bool) (cs : List Char) :
    linesOf ((linesOf cs).filter p).flatten = (linesOf cs).filter p := by
  induction cs using text_induction with
  | unfinished cs h =>
    by_cases hne : cs = []
    · rw [hne]
      rfl
    · rw [linesOf_unfinished h hne, List.filter_cons, List.filter_nil]
      split
      · simpa using linesOf_unfinished h hne
      · rfl
  | line cs rest h ih =>
    rw [linesOf_line h, List.filter_cons]
    split
    · rw [List.flatten_cons, List.append_assoc, List.singleton_append, linesOf_line h, ih]
    · exact ih

theorem ofLine?_of_snapshotLine? {line : List Char} {e : Entry} (h : snapshotLine? line = some e) :
    Entry.ofLine? line = some e := by
  unfold snapshotLine? at h
  split at h
  · exact h
  · cases h

/-- Striking out an entry leaves all the others. -/
theorem snapshotOf_without (e : Entry) (cs : List Char) :
    snapshotOf (File.without e cs).flatten = (snapshotOf cs).filter (· != e) := by
  rw [snapshotOf, File.without, linesOf_flatten_filter, snapshotOf]
  induction linesOf cs with
  | nil => rfl
  | cons line lines ih =>
    rw [List.filter_cons, List.filterMap_cons]
    cases hline : snapshotLine? line with
    | none =>
      split
      · rw [List.filterMap_cons, hline, ih]
      · exact ih
    | some f =>
      rw [ofLine?_of_snapshotLine? hline, List.filter_cons]
      by_cases hf : f = e
      · simpa [hf] using ih
      · simpa [hf, hline] using ih

/-! ### Parts and wholes -/

theorem snapshot_line (e : Entry) : snapshot e.line = [e] := by
  have hread := snapshotOf_line e.newline_notMem []
  rw [← Entry.toList_line, e.snapshotLine?_line] at hread
  exact hread

theorem getLast?_line (front : String) (e : Entry) : (front ++ e.line).toList.getLast? = some '\n' := by
  rw [String.toList_append, Entry.toList_line, ← List.append_assoc, List.getLast?_concat]

/-- What is read of the beginning of a text is the beginning of what is read of the whole: a line that is cut off is
    never taken for an entry, though it may look like one. A text that ends with its line is read apart from what
    follows, and an entry whose line follows it is read next. -/
theorem part_reads_first_entries (part later : String) :
    snapshot part <+: snapshot (part ++ later) ∧
    (part = "" ∨ part.toList.getLast? = some '\n' →
      snapshot (part ++ later) = snapshot part ++ snapshot later ∧
      ∀ e : Entry, snapshot (part ++ e.line ++ later) = snapshot part ++ e :: snapshot later) := by
  have happend : ∀ front back : String, front = "" ∨ front.toList.getLast? = some '\n' →
      snapshot (front ++ back) = snapshot front ++ snapshot back := fun front back h => by
    rw [snapshot, String.toList_append, snapshotOf_append (h.imp_left String.toList_eq_nil_iff.mpr)]
    rfl
  refine ⟨?_, fun hwhole => ⟨happend part later hwhole, fun e => ?_⟩⟩
  · rw [snapshot, snapshot, String.toList_append]
    exact snapshotOf_prefix_append part.toList later.toList
  · rw [happend _ later (Or.inr (getLast?_line part e)), happend part e.line hwhole, snapshot_line, List.append_assoc,
      List.singleton_append]

/-- Behind two whole lines the beginning of a third looks like the entry of another identity, and nothing is read of it
    until the line is there. -/
theorem torn_target_unread :
    snapshot "SUPERVISOR_PID 10\nPHYSICS_PID 11\nTARGET_PID 1" = [⟨.supervisor, ⟨10⟩⟩, ⟨.physics, ⟨11⟩⟩] ∧
      snapshot "SUPERVISOR_PID 10\nPHYSICS_PID 11\nTARGET_PID 12\n" =
        [⟨.supervisor, ⟨10⟩⟩, ⟨.physics, ⟨11⟩⟩, ⟨.targets, ⟨12⟩⟩] ∧
      snapshot "TARGET_PID 1\n" = [⟨.targets, ⟨1⟩⟩] := by
  have hwhole : snapshot "SUPERVISOR_PID 10\nPHYSICS_PID 11\n" = [⟨.supervisor, ⟨10⟩⟩, ⟨.physics, ⟨11⟩⟩] := by
    decide +kernel
  have hlast : "SUPERVISOR_PID 10\nPHYSICS_PID 11\n".toList.getLast? = some '\n' := by decide +kernel
  have hread := fun later => (part_reads_first_entries "SUPERVISOR_PID 10\nPHYSICS_PID 11\n" later).2 (Or.inr hlast)
  rw [hwhole] at hread
  exact ⟨(hread "TARGET_PID 1").1, (hread "").2 ⟨.targets, ⟨12⟩⟩, snapshot_line ⟨.targets, ⟨1⟩⟩⟩

end Registry
end GridFlight
