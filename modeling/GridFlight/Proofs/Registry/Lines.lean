import GridFlight.Proofs.Frame.Payload
import GridFlight.Registry.Listing
import Mathlib.Data.List.TakeWhile

/-! The text of a registry, line by line. A text made of whole lines splits at every newline, whatever follows it, and
    the line of an entry reads back as that entry. So the text of a listing holds its entries and nothing else. -/

namespace GridFlight

/-! ### Blank and unblank characters -/

namespace Text

theorem trimOf_eq_nil_iff {cs : List Char} : trimOf cs = [] ↔ ∀ c ∈ cs, isBlank c = true := by
  constructor
  · intro h
    simp only [trimOf, trimEndOf, List.reverse_eq_nil_iff, List.dropWhile_eq_nil_iff, List.mem_reverse] at h
    refine List.dropWhile_eq_nil_iff.mp ?_
    cases hdrop : cs.dropWhile isBlank with
    | nil => rfl
    | cons d ds =>
      -- What is left would start with a character that is not blank.
      have hd : isBlank d = false := by
        have hne : cs.dropWhile isBlank ≠ [] := by rw [hdrop]; exact List.cons_ne_nil d ds
        simpa [hdrop] using List.head_dropWhile_not isBlank hne
      have hblank := h d (by rw [hdrop]; exact List.mem_cons_self)
      rw [hd] at hblank
      cases hblank
  · intro h
    rw [trimOf, List.dropWhile_eq_nil_iff.mpr h]
    rfl

theorem trimOf_of_unblank {cs : List Char} (h : ∀ c ∈ cs, isBlank c = false) : trimOf cs = cs := by
  have hdrop : ∀ ds : List Char, (∀ c ∈ ds, isBlank c = false) → ds.dropWhile isBlank = ds := by
    intro ds hds
    cases ds with
    | nil => rfl
    | cons d ds => simp [hds d List.mem_cons_self]
  rw [trimOf, trimEndOf, hdrop cs h, hdrop cs.reverse fun c hc => h c (List.mem_reverse.mp hc), List.reverse_reverse]

/-- Two fields with one blank between them and one behind. -/
theorem fieldsOf_pair {cs ds : List Char} (hcs : cs ≠ []) (hds : ds ≠ []) (hc : ∀ c ∈ cs, isBlank c = false)
    (hd : ∀ d ∈ ds, isBlank d = false) {a b : Char} (ha : isBlank a = true) (hb : isBlank b = true) :
    fieldsOf (cs ++ a :: (ds ++ [b])) = [cs, ds] := by
  rw [fieldsOf_append_cons hcs hc ha, fieldsOf_append_cons hds hd hb]
  rfl

end Text

/-! ### Identities and tags -/

theorem Pid.text_unblank (p : Pid) : ∀ c ∈ p.text.toList, Text.isBlank c = false :=
  fun _ hc => Text.isBlank_of_isDigit (Number.isDigit_of_mem_repr hc)

theorem Pid.toList_text_ne_nil (p : Pid) : p.text.toList ≠ [] := Number.toList_repr_ne_nil p.val.toNat

theorem Pid.read?_text (p : Pid) : Pid.read? p.text = some p := by
  have htrim : Text.trim p.text = p.text := by
    rw [Text.trim, Text.trimOf_of_unblank p.text_unblank]
    exact String.ofList_toList
  have hlt : p.val.toNat < Nat.pow 2 32 := p.val.toNat_lt
  rw [Pid.read?, htrim, Number.readUInt32?, Pid.text, Number.readNat?_repr, Option.bind_some, if_pos hlt,
    UInt32.ofNat_toNat]
  rfl

theorem Pid.read_text (p : Pid) : Pid.read p.text = .ok p := by
  rw [Pid.read, Pid.read?_text]

theorem Role.tag_unblank (r : Role) : ∀ c ∈ r.tag.toList, Text.isBlank c = false := by
  have hall : r.tag.toList.all (fun c => !Text.isBlank c) = true := by cases r <;> decide
  intro c hc
  simpa using List.all_eq_true.mp hall c hc

theorem Role.toList_tag_ne_nil (r : Role) : r.tag.toList ≠ [] := by cases r <;> decide

namespace Registry

/-! ### Lines of a text -/

theorem linesOf_newline (cs : List Char) : linesOf ('\n' :: cs) = ['\n'] :: linesOf cs := by simp [linesOf]

/-- A line ends at its first newline. -/
theorem linesOf_line {line : List Char} (h : '\n' ∉ line) (rest : List Char) :
    linesOf (line ++ '\n' :: rest) = (line ++ ['\n']) :: linesOf rest := by
  induction line with
  | nil => exact linesOf_newline rest
  | cons c line ih =>
    have hc : c ≠ '\n' := fun e => h (e ▸ List.mem_cons_self)
    have hline : '\n' ∉ line := fun hmem => h (List.mem_cons_of_mem c hmem)
    simp [linesOf, hc, ih hline]

/-! ### Lines of entries -/

namespace Entry

theorem toList_line (e : Entry) :
    e.line.toList = (e.role.tag.toList ++ ' ' :: e.pid.text.toList) ++ ['\n'] := by
  simp [line]

theorem newline_notMem (e : Entry) : '\n' ∉ e.role.tag.toList ++ ' ' :: e.pid.text.toList := by
  intro h
  have hnewline : Text.isBlank '\n' = true := by decide
  simp only [List.mem_append, List.mem_cons] at h
  rcases h with htag | hspace | hpid
  · rw [e.role.tag_unblank _ htag] at hnewline
    cases hnewline
  · exact absurd hspace (by decide)
  · rw [e.pid.text_unblank _ hpid] at hnewline
    cases hnewline

/-- A line behind the beginning of a field: the tag goes on with that field. -/
theorem fieldsOf_append_line {cs : List Char} (hcs : ∀ c ∈ cs, Text.isBlank c = false) (e : Entry) :
    Text.fieldsOf (cs ++ e.line.toList) = [cs ++ e.role.tag.toList, e.pid.text.toList] := by
  have hspace : Text.isBlank ' ' = true := by decide
  have hnewline : Text.isBlank '\n' = true := by decide
  have htag : ∀ c ∈ cs ++ e.role.tag.toList, Text.isBlank c = false := fun c hc =>
    (List.mem_append.mp hc).elim (hcs c) (e.role.tag_unblank c)
  have hpair := Text.fieldsOf_pair (List.append_ne_nil_of_right_ne_nil cs e.role.toList_tag_ne_nil)
    e.pid.toList_text_ne_nil htag e.pid.text_unblank hspace hnewline
  rw [← hpair, toList_line]
  simp only [List.append_assoc, List.cons_append]

theorem fieldsOf_line (e : Entry) : Text.fieldsOf e.line.toList = [e.role.tag.toList, e.pid.text.toList] :=
  fieldsOf_append_line (List.forall_mem_nil _) e

theorem ofLine?_of_fieldsOf {line : List Char} {e : Entry}
    (h : Text.fieldsOf line = [e.role.tag.toList, e.pid.text.toList]) : ofLine? line = some e := by
  have hfields : Text.fields (String.ofList line) = [e.role.tag, e.pid.text] := by
    rw [Text.fields, String.toList_ofList, h]
    simp only [List.map_cons, List.map_nil, String.ofList_toList]
  have hread : readLine (String.ofList line) = .ok (some e) := by
    simp only [readLine, hfields, Role.ofTag?_tag, Pid.read_text, Except.map]
  rw [ofLine?, hread]
  rfl

/-- The line of an entry reads back as the entry. -/
theorem ofLine?_line (e : Entry) : ofLine? e.line.toList = some e := ofLine?_of_fieldsOf e.fieldsOf_line

/-- Whatever stands in front of the line of an entry, the line is whole and not blank. -/
theorem snapshotLine?_append_line_eq (cs : List Char) (e : Entry) :
    snapshotLine? (cs ++ e.line.toList) = ofLine? (cs ++ e.line.toList) := by
  have hwhole : isWhole (cs ++ e.line.toList) = true := by
    rw [isWhole, toList_line, ← List.append_assoc, List.getLast?_concat]
    rfl
  have htrim : Text.trimOf (cs ++ e.line.toList) ≠ [] := by
    intro h
    obtain ⟨c, hc⟩ := List.exists_mem_of_ne_nil _ e.role.toList_tag_ne_nil
    have hblank := Text.trimOf_eq_nil_iff.mp h c (by
      rw [toList_line]
      exact List.mem_append_right _ (List.mem_append_left _ (List.mem_append_left _ hc)))
    rw [e.role.tag_unblank c hc] at hblank
    cases hblank
  rw [snapshotLine?, if_pos (by simp [hwhole, htrim])]

theorem snapshotLine?_line (e : Entry) : snapshotLine? e.line.toList = some e :=
  (snapshotLine?_append_line_eq [] e).trans e.ofLine?_line

end Entry

/-! ### The text of a listing -/

namespace Listing

theorem toList_text (l : Listing) : l.text.toList = l.flatMap fun e => e.line.toList := by
  simp [text, String.toList_join, List.flatMap_map]

/-- The lines of a listing are those of its entries. -/
theorem linesOf_text (l : Listing) : linesOf l.text.toList = l.map fun e => e.line.toList := by
  rw [toList_text]
  induction l with
  | nil => rfl
  | cons e l ih =>
    have hline := linesOf_line e.newline_notMem (l.flatMap fun e => e.line.toList)
    rw [List.flatMap_cons, Entry.toList_line, List.append_assoc, List.singleton_append, hline, ih, List.map_cons,
      Entry.toList_line]

theorem snapshot_text (l : Listing) : snapshot l.text = l := by
  rw [snapshot, snapshotOf, linesOf_text, List.filterMap_map]
  have hlines : snapshotLine? ∘ (fun e : Entry => e.line.toList) = some := funext Entry.snapshotLine?_line
  rw [hlines, List.filterMap_some]

theorem text_publish (e : Entry) (l : Listing) : (l.publish e).text = l.text ++ e.line := by
  simp [publish, text, String.join_append]

end Listing
end Registry
end GridFlight
