import GridFlight.Proofs.Registry.Mishaps
import Mathlib.Data.List.DropRight

/-! Publications into a file that holds any text. The publisher adds its line behind whatever is there, and the reader
    passes over what follows the last newline. So the line of an entry is read as that entry exactly when there are
    only blanks between it and the last newline. Otherwise the two make up one line, and this holds no entry. -/

namespace GridFlight

/-! ### Fields across a seam -/

namespace Text

/-- The fields hold all that is not blank, in its order. -/
theorem flatten_fieldsOf (cs : List Char) : (fieldsOf cs).flatten = cs.filter fun c => !isBlank c := by
  rw [fieldsOf, List.flatten_filter_not_isEmpty]
  induction cs with
  | nil => rfl
  | cons c cs ih =>
    rw [List.splitOnP_cons_eq_if_modifyHead]
    cases hc : isBlank c with
    | true => simpa [hc] using ih
    | false =>
      obtain ⟨first, later, hsplit⟩ := List.exists_cons_of_ne_nil (List.splitOnP_ne_nil isBlank cs)
      rw [hsplit] at ih ⊢
      simpa [hc] using ih

theorem fieldsOf_eq_nil_iff {cs : List Char} : fieldsOf cs = [] ↔ ∀ c ∈ cs, isBlank c = true := by
  have hfilter : (cs.filter fun c => !isBlank c) = [] ↔ ∀ c ∈ cs, isBlank c = true := by
    simp [List.filter_eq_nil_iff]
  rw [← hfilter, ← flatten_fieldsOf, List.flatten_eq_nil_iff]
  constructor
  · intro h
    simp [h]
  · intro h
    refine List.eq_nil_iff_forall_not_mem.mpr fun field hfield => ?_
    have hsome : (!field.isEmpty) = true := (List.mem_filter.mp hfield).2
    rw [h field hfield] at hsome
    cases hsome

/-- A text ends in a field that may go on, possibly an empty one. Nothing else in it depends on what follows. -/
theorem exists_open_field (cs : List Char) : ∃ front back, cs = front ++ back ∧ (∀ c ∈ back, isBlank c = false) ∧
    ∀ rest, fieldsOf (front ++ rest) = fieldsOf front ++ fieldsOf rest := by
  induction cs using List.reverseRecOn with
  | nil => exact ⟨[], [], rfl, List.forall_mem_nil _, fun _ => rfl⟩
  | append_singleton cs c ih =>
    cases hc : isBlank c with
    | true =>
      refine ⟨cs ++ [c], [], (List.append_nil _).symm, List.forall_mem_nil _, fun rest => ?_⟩
      have hcs : fieldsOf (cs ++ [c]) = fieldsOf cs := (fieldsOf_append_blank cs hc []).trans (List.append_nil _)
      rw [hcs, List.append_assoc, List.singleton_append, fieldsOf_append_blank cs hc]
    | false =>
      obtain ⟨front, back, rfl, hback, hfields⟩ := ih
      refine ⟨front, back ++ [c], List.append_assoc .., fun d hd => ?_, hfields⟩
      rcases List.mem_append.mp hd with hd | hd
      · exact hback d hd
      · rw [List.mem_singleton.mp hd, hc]

end Text

/-- No tag ends in another one. -/
theorem Role.eq_nil_of_append_tag {cs : List Char} {r s : Role} (h : cs ++ r.tag.toList = s.tag.toList) : cs = [] := by
  have hends : ∀ r s : Role, r.tag.toList <:+ s.tag.toList → r = s := by
    intro r s
    cases r <;> cases s <;> decide
  obtain rfl := hends r s ⟨cs, h⟩
  exact List.append_left_eq_self.mp h

namespace Registry

/-! ### A line behind a text -/

namespace Entry

/-- What is read as an entry has two fields, and the first is a tag. -/
theorem fieldsOf_of_ofLine? {line : List Char} {e : Entry} (h : ofLine? line = some e) :
    ∃ identity, Text.fieldsOf line = [e.role.tag.toList, identity] := by
  unfold ofLine? readLine at h
  split at h
  · next tag identity hfields =>
    split at h
    · cases h
    · next role hrole =>
      obtain ⟨pid, -, rfl⟩ : ∃ pid, Pid.read identity = .ok pid ∧ e = ⟨role, pid⟩ := by
        cases hpid : Pid.read identity with
        | error fault => simp [hpid, Except.map, Except.toOption] at h
        | ok pid => exact ⟨pid, rfl, by simpa [hpid, Except.map, Except.toOption, eq_comm] using h⟩
      have htag : role.tag = tag := by simpa using List.find?_some hrole
      rw [Text.fields, String.toList_ofList] at hfields
      obtain ⟨first, later, hsplit, hfirst, hlater⟩ := List.map_eq_cons_iff.mp hfields
      obtain ⟨second, none, rfl, -, hnone⟩ := List.map_eq_cons_iff.mp hlater
      rw [List.map_eq_nil_iff.mp hnone] at hsplit
      exact ⟨second, by rw [hsplit, htag, ← hfirst, String.toList_ofList]⟩
  · cases h

/-- The line of an entry is read as that entry behind blanks, and as no entry behind anything else. -/
theorem snapshotLine?_append_line (cs : List Char) (e : Entry) :
    snapshotLine? (cs ++ e.line.toList) = if cs.all Text.isBlank then some e else none := by
  rw [snapshotLine?_append_line_eq]
  obtain ⟨front, back, rfl, hback, hfront⟩ := Text.exists_open_field cs
  have hfields : Text.fieldsOf (front ++ back ++ e.line.toList) =
      Text.fieldsOf front ++ [back ++ e.role.tag.toList, e.pid.text.toList] := by
    rw [List.append_assoc, hfront, fieldsOf_append_line hback]
  split
  · next hblank =>
    rw [List.all_eq_true] at hblank
    have hnone : back = [] := List.eq_nil_iff_forall_not_mem.mpr fun c hc => by
      have hc' := hblank c (List.mem_append_right front hc)
      rw [hback c hc] at hc'
      cases hc'
    rw [Text.fieldsOf_eq_nil_iff.mpr fun c hc => hblank c (List.mem_append_left back hc), hnone] at hfields
    exact hnone ▸ ofLine?_of_fieldsOf hfields
  · next hunblank =>
    -- An entry would have two fields, so the front has none, and its tag would end in the tag of the line.
    by_contra hsome
    obtain ⟨f, hf⟩ := Option.ne_none_iff_exists'.mp hsome
    obtain ⟨identity, htwo⟩ := fieldsOf_of_ofLine? hf
    rw [hfields, ← List.nil_append [f.role.tag.toList, identity]] at htwo
    obtain ⟨hnil, hpair⟩ := List.append_inj' htwo rfl
    rw [Role.eq_nil_of_append_tag (List.cons.inj hpair).1, List.append_nil] at hunblank
    exact hunblank (List.all_eq_true.mpr (Text.fieldsOf_eq_nil_iff.mp hnil))

end Entry

/-! ### The seam -/

/-- What follows the last newline of a text. -/
def tailOf (cs : List Char) : List Char := cs.rtakeWhile (· ≠ '\n')

theorem tailOf_unfinished {cs : List Char} (h : '\n' ∉ cs) : tailOf cs = cs := by
  rw [tailOf, List.rtakeWhile_eq_self_iff]
  intro c hc
  simp only [ne_eq, decide_not, Bool.not_eq_eq_eq_not, Bool.not_true, decide_eq_false_iff_not]
  rintro rfl
  exact h hc

theorem tailOf_line (cs rest : List Char) : tailOf (cs ++ '\n' :: rest) = tailOf rest := by
  simp only [tailOf, List.rtakeWhile, List.reverse_append, List.reverse_cons, List.append_assoc,
    List.singleton_append, List.takeWhile_append]
  split
  · next hall =>
    rw [List.takeWhile_cons_of_neg (by simp), List.append_nil, (List.takeWhile_prefix _).eq_of_length hall]
  · rfl

/-- A line that is appended to a text is all that is read anew. -/
theorem snapshotOf_append_line (cs : List Char) (e : Entry) :
    snapshotOf (cs ++ e.line.toList) = snapshotOf cs ++ if (tailOf cs).all Text.isBlank then [e] else [] := by
  induction cs using text_induction with
  | unfinished cs h =>
    have hline : '\n' ∉ cs ++ (e.role.tag.toList ++ ' ' :: e.pid.text.toList) := fun hmem =>
      (List.mem_append.mp hmem).elim h e.newline_notMem
    have hread := Entry.snapshotLine?_append_line cs e
    rw [Entry.toList_line, ← List.append_assoc] at hread ⊢
    rw [snapshotOf_line hline, hread, snapshotOf_unfinished h, tailOf_unfinished h]
    split <;> rfl
  | line cs rest h ih =>
    rw [List.append_assoc, List.cons_append, snapshotOf_line h, snapshotOf_line h, ih, tailOf_line, List.append_assoc]

/-! ### Publications -/

open Disk (Mishaps Place)

variable {mishaps : Mishaps} {p q : Place} {text : String} {e : Entry}

theorem refresh_text (h : p.node = .file (Utf8.encode text)) : File.refresh.run p = (.ok (snapshot text), p) := by
  obtain ⟨parent, node⟩ := p
  obtain rfl : node = .file (Utf8.encode text) := h
  simp [File.refresh, Disk.Routine.run, Disk.Routine.runFrom, Disk.Routine.locked, Disk.Routine.finish, Disk.perform,
    Utf8.decode?_encode]

/-- What is read after a publication: what was read before, and the entry if there were only blanks before its line. -/
theorem refresh_published (hfile : p.node = .file (Utf8.encode text))
    (hpublish : (File.publish e).runDespite mishaps p = (.ok (), q)) :
    File.refresh.run q =
      (.ok (snapshot text ++ if (tailOf text.toList).all Text.isBlank then [e] else []), q) := by
  rcases publish_cases mishaps e hfile with ⟨error, hrun⟩ | hrun
  · rw [hrun] at hpublish
    cases hpublish
  · rw [hrun] at hpublish
    obtain rfl := (Prod.mk.inj hpublish).2
    rw [refresh_text rfl, snapshot, String.toList_append, snapshotOf_append_line, snapshot]

/-- A published entry is read behind the entries that were there before exactly when only blanks follow the last newline
    of the text; otherwise the entries are what they were before. -/
theorem published_entry_read_iff (hfile : p.node = .file (Utf8.encode text))
    (hpublish : (File.publish e).runDespite mishaps p = (.ok (), q)) :
    (File.refresh.run p).1 = .ok (snapshot text) ∧
      ((File.refresh.run q).1 = .ok (snapshot text ++ [e]) ↔ ∀ c ∈ tailOf text.toList, Text.isBlank c = true) ∧
      ((∃ c ∈ tailOf text.toList, Text.isBlank c = false) → (File.refresh.run q).1 = .ok (snapshot text)) := by
  rw [refresh_text hfile, refresh_published hfile hpublish, ← List.all_eq_true]
  refine ⟨rfl, ?_, ?_⟩
  · split
    · next hblank => exact ⟨fun _ => hblank, fun _ => rfl⟩
    · next hunblank => simp [hunblank]
  · rintro ⟨c, hc, hunblank⟩
    have hall : ¬(tailOf text.toList).all Text.isBlank = true := fun hall => by
      rw [List.all_eq_true.mp hall c hc] at hunblank
      cases hunblank
    rw [if_neg hall, List.append_nil]

/-- Blanks behind the last newline do no harm. -/
theorem published_entry_read_behind_blanks :
    (File.refresh.run ⟨true, .file (Utf8.encode ("PHYSICS_PID 11\n \t" ++ "SUPERVISOR_PID 7\n"))⟩).1 =
      .ok [⟨.physics, ⟨11⟩⟩, ⟨.supervisor, ⟨7⟩⟩] := by
  have hsnapshot : snapshot "PHYSICS_PID 11\n \t" = [⟨.physics, ⟨11⟩⟩] := by decide +kernel
  have hpublish : (File.publish ⟨.supervisor, ⟨7⟩⟩).runDespite (fun _ => none)
      ⟨true, .file (Utf8.encode "PHYSICS_PID 11\n \t")⟩ =
        (.ok (), ⟨true, .file (Utf8.encode ("PHYSICS_PID 11\n \t" ++ "SUPERVISOR_PID 7\n"))⟩) := by
    decide +kernel
  have hblank : (tailOf "PHYSICS_PID 11\n \t".toList).all Text.isBlank = true := by decide +kernel
  have hread := (published_entry_read_iff rfl hpublish).2.1.mpr (List.all_eq_true.mp hblank)
  rwa [hsnapshot] at hread

/-- The last line of the file has no newline: the supervisor publishes itself behind it, and nobody finds it. -/
theorem published_behind_torn_line : ∃ q,
    (File.publish ⟨.supervisor, ⟨7⟩⟩).run ⟨true, .file (Utf8.encode "COORDINATOR_PID 4")⟩ = (.ok (), q) ∧
      (File.refresh.run ⟨true, .file (Utf8.encode "COORDINATOR_PID 4")⟩).1 = .ok [] ∧
      (File.refresh.run q).1 = .ok [] ∧ File.lookup .supervisor q = .ok none := by
  have hpublish : (File.publish ⟨.supervisor, ⟨7⟩⟩).run ⟨true, .file (Utf8.encode "COORDINATOR_PID 4")⟩ =
      (.ok (), ⟨true, .file (Utf8.encode ("COORDINATOR_PID 4" ++ "SUPERVISOR_PID 7\n"))⟩) := by
    decide +kernel
  have hsnapshot : snapshot "COORDINATOR_PID 4" = [] := by decide +kernel
  have hread := hpublish
  rw [← Disk.Routine.runDespite_none] at hread
  have hread := refresh_published rfl hread
  refine ⟨_, hpublish, ?_, ?_, ?_⟩
  · rw [refresh_text rfl, hsnapshot]
  · rw [hread, hsnapshot]
    rfl
  · rw [File.lookup, hread, hsnapshot]
    rfl

end Registry
end GridFlight
