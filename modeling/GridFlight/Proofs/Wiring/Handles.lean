import GridFlight.Wiring
import GridFlight.Proofs.Number.Signed

/-! The texts of handles and links. A handle is written as its number. A link is written as three words with colons
    between them, and since none of these words holds a colon it can be taken apart again. There are more texts than
    links (a role has a name and a tag, a handle may have blanks around it and a plus sign in front), but each text that
    is read gives a link that reads back from its own text. -/

namespace GridFlight

namespace Handle

theorem read_text {h : Handle} (hnonneg : 0 ≤ h.val) : Handle.read h.text = .ok h := by
  rw [Handle.read, text, Number.trim_writeInt, Number.readInt32?_writeInt]
  exact if_pos hnonneg

theorem nonneg_of_read {s : String} {h : Handle} (hread : Handle.read s = .ok h) : 0 ≤ h.val := by
  unfold Handle.read at hread
  split at hread
  · next n _ =>
    split at hread
    · next hnonneg =>
      cases hread
      exact hnonneg
    · cases hread
  · cases hread

theorem colon_notMem_text (h : Handle) : ':' ∉ h.text.toList := by
  intro hcolon
  rcases Number.mem_writeInt hcolon with hsign | hdigit
  · exact absurd hsign (by decide)
  · cases hdigit

end Handle

theorem Role.read_name (r : Role) : Role.read r.name = .ok r := by
  rw [Role.read, Role.ofName?_name]

theorem Role.colon_notMem_name (r : Role) : ':' ∉ r.name.toList := by
  cases r <;> decide

namespace Link

/-- A dash alone is no handle, so that it can stand for an end that is missing. -/
theorem readEnd_endText {e : Option Handle} (hnonneg : ∀ h ∈ e, 0 ≤ h.val) : readEnd (endText e) = .ok e := by
  cases e with
  | none => rfl
  | some h =>
    have hread := Handle.read_text (hnonneg h rfl)
    have hdash : h.text ≠ "-" := by
      intro heq
      rw [heq] at hread
      cases hread
    rw [readEnd, endText, if_neg hdash, hread]
    rfl

theorem colon_notMem_endText (e : Option Handle) : ':' ∉ (endText e).toList := by
  cases e with
  | none => decide
  | some h => exact h.colon_notMem_text

theorem splitOn_text (l : Link) :
    l.text.toList.splitOn ':' = [l.role.name.toList, (endText l.rx).toList, (endText l.tx).toList] := by
  have htext : l.text.toList =
      [':'].intercalate [l.role.name.toList, (endText l.rx).toList, (endText l.tx).toList] := by
    simp [text, List.intercalate]
  rw [htext]
  refine List.splitOn_intercalate ':' (fun word hword => ?_) (List.cons_ne_nil _ _)
  simp only [List.mem_cons, List.not_mem_nil, or_false] at hword
  rcases hword with rfl | rfl | rfl
  · exact l.role.colon_notMem_name
  · exact colon_notMem_endText l.rx
  · exact colon_notMem_endText l.tx

theorem nonneg_of_readEnd {s : String} {e : Option Handle} (hread : readEnd s = .ok e) : ∀ h ∈ e, 0 ≤ h.val := by
  intro h hh
  obtain rfl : e = some h := hh
  unfold readEnd at hread
  split at hread
  · cases hread
  · cases hhandle : Handle.read s with
    | error e => rw [hhandle] at hread; cases hread
    | ok handle =>
      rw [hhandle] at hread
      cases hread
      exact Handle.nonneg_of_read hhandle

theorem handles_eq_nil_iff {l : Link} : l.handles = [] ↔ (l.rx.isNone && l.tx.isNone) = true := by
  obtain ⟨role, rx, tx⟩ := l
  cases rx <;> cases tx <;> simp [handles]

/-- A link is read from three words, each of which is read on its own, unless both ends are missing. -/
theorem read_eq_ok_iff {s : String} {l : Link} :
    Link.read s = .ok l ↔ ∃ role rx tx, s.toList.splitOn ':' = [role, rx, tx] ∧
      Role.read (String.ofList role) = .ok l.role ∧ readEnd (String.ofList rx) = .ok l.rx ∧
        readEnd (String.ofList tx) = .ok l.tx ∧ l.handles ≠ [] := by
  constructor
  · intro h
    unfold Link.read at h
    split at h
    · next role rx tx hwords =>
      cases hrole : Role.read (String.ofList role) with
      | error e => rw [hrole] at h; cases h
      | ok r =>
      cases hrx : readEnd (String.ofList rx) with
      | error e => rw [hrole, hrx] at h; cases h
      | ok rxEnd =>
      cases htx : readEnd (String.ofList tx) with
      | error e => rw [hrole, hrx, htx] at h; cases h
      | ok txEnd =>
      rw [hrole, hrx, htx] at h
      simp only [bind, Except.bind] at h
      split at h
      · cases h
      · next hpresent =>
        cases h
        exact ⟨role, rx, tx, hwords, hrole, hrx, htx, fun hnil => hpresent (handles_eq_nil_iff.mp hnil)⟩
    · cases h
  · rintro ⟨role, rx, tx, hwords, hrole, hrx, htx, hpresent⟩
    have hsome : (l.rx.isNone && l.tx.isNone) = false := by
      rwa [ne_eq, handles_eq_nil_iff, Bool.not_eq_true] at hpresent
    simp only [Link.read, hwords, hrole, hrx, htx, bind, Except.bind, hsome]
    rfl

theorem read_text {l : Link} (hsome : l.handles ≠ []) (hnonneg : ∀ h ∈ l.handles, 0 ≤ h.val) :
    Link.read l.text = .ok l := by
  have hrx : ∀ h ∈ l.rx, 0 ≤ h.val := fun h hh => hnonneg h (List.mem_append_left _ (Option.mem_toList.mpr hh))
  have htx : ∀ h ∈ l.tx, 0 ≤ h.val := fun h hh => hnonneg h (List.mem_append_right _ (Option.mem_toList.mpr hh))
  refine read_eq_ok_iff.mpr ⟨_, _, _, splitOn_text l, ?_, ?_, ?_, hsome⟩
  · rw [String.ofList_toList, Role.read_name]
  · rw [String.ofList_toList, readEnd_endText hrx]
  · rw [String.ofList_toList, readEnd_endText htx]

/-! ### Which links have texts -/

/-- An end is present, and no handle is negative. -/
structure Usable (l : Link) : Prop where
  present : l.handles ≠ []
  nonneg : ∀ h ∈ l.handles, 0 ≤ h.val

theorem usable_of_read {s : String} {l : Link} (h : Link.read s = .ok l) : l.Usable := by
  obtain ⟨role, rx, tx, -, -, hrx, htx, hpresent⟩ := read_eq_ok_iff.mp h
  refine ⟨hpresent, fun handle hmem => ?_⟩
  rcases List.mem_append.mp hmem with hmem | hmem
  · exact nonneg_of_readEnd hrx handle (Option.mem_toList.mp hmem)
  · exact nonneg_of_readEnd htx handle (Option.mem_toList.mp hmem)

/-- A link reads back from its text exactly where it is usable. Whatever text a link is read from, it is usable, and
    its own text gives it again. -/
theorem text_reads_back :
    (∀ l : Link, Link.read l.text = .ok l ↔ l.Usable) ∧
      ∀ (s : String) (l : Link), Link.read s = .ok l → l.Usable ∧ Link.read l.text = .ok l := by
  refine ⟨fun l => ⟨usable_of_read, fun h => read_text h.present h.nonneg⟩, fun s l h => ?_⟩
  have husable := usable_of_read h
  exact ⟨husable, read_text husable.present husable.nonneg⟩

/-- The tag of a role, blanks and a plus sign are read, and are gone from the text of the link. -/
theorem padded_text_reads_back :
    Link.read "PHYSICS_PID: +7 :-" = .ok ⟨.physics, some ⟨7⟩, none⟩ ∧
      (⟨.physics, some ⟨7⟩, none⟩ : Link).text = "physics:7:-" ∧
        (⟨.physics, some ⟨7⟩, none⟩ : Link).Usable ∧ Link.read "physics:7:-" = .ok ⟨.physics, some ⟨7⟩, none⟩ := by
  have hread : Link.read "PHYSICS_PID: +7 :-" = .ok ⟨.physics, some ⟨7⟩, none⟩ := by decide +kernel
  have htext : (⟨.physics, some ⟨7⟩, none⟩ : Link).text = "physics:7:-" := by decide +kernel
  obtain ⟨husable, hback⟩ := text_reads_back.2 _ _ hread
  rw [htext] at hback
  exact ⟨hread, htext, husable, hback⟩

end Link
end GridFlight
