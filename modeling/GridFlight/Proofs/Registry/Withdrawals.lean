import GridFlight.Proofs.Registry.Seam

/-! Withdrawals, whole and broken off. A withdrawal that nothing disturbs strikes out the lines of its entry and leaves
    every other line as it was. One that fails has done no harm as long as the file has not been cut; after the cut
    there is only so much of the other lines as has been written again. -/

namespace GridFlight

/-! ### Parts of an encoded text -/

namespace Utf8

/-- The first character of a text can be told from its bytes, whatever follows. -/
theorem char_eq_of_encode_append {c d : Char} {later rest : List UInt8}
    (h : String.utf8EncodeChar c ++ later = String.utf8EncodeChar d ++ rest) : c = d := by
  have hfirst : ∀ (c : Char) (later : List UInt8),
      ByteArray.utf8DecodeChar? (String.utf8EncodeChar c ++ later).toByteArray 0 = some c := by
    intro c later
    rw [List.toByteArray_append]
    exact ByteArray.utf8DecodeChar?_utf8EncodeChar_append
  have hc := hfirst c later
  rw [h, hfirst d rest] at hc
  exact (Option.some.inj hc).symm

theorem prefix_of_flatMap_prefix {cs ds : List Char}
    (h : cs.flatMap String.utf8EncodeChar <+: ds.flatMap String.utf8EncodeChar) : cs <+: ds := by
  induction cs generalizing ds with
  | nil => exact List.nil_prefix
  | cons c cs ih =>
    obtain ⟨later, h⟩ := h
    rw [List.flatMap_cons, List.append_assoc] at h
    cases ds with
    | nil =>
      have hlength := congrArg List.length h
      rw [List.length_append, String.length_utf8EncodeChar] at hlength
      have hsize := c.utf8Size_pos
      simp only [List.flatMap_nil, List.length_nil] at hlength
      omega
    | cons d ds =>
      rw [List.flatMap_cons] at h
      obtain rfl := char_eq_of_encode_append h
      exact (List.prefix_cons_inj c).mpr (ih ⟨later, List.append_cancel_left h⟩)

/-- If the first bytes of a text are a text at all, they are the beginning of it. -/
theorem prefix_of_decode?_take {s t : String} {k : Nat} (h : decode? ((encode s).take k) = some t) :
    t.toList <+: s.toList := by
  have hprefix := List.take_prefix k (encode s)
  rw [decode?_eq_some_iff.mp h, encode_eq_flatMap, encode_eq_flatMap] at hprefix
  exact prefix_of_flatMap_prefix hprefix

end Utf8

namespace Disk

/-- The actions of a run, in order. -/
def Routine.actions {α : Type} : Routine α → Open → List Action
  | .done _, _ => []
  | .act action next, o => action :: (next (perform action o).1).actions (perform action o).2

/-- What a withdrawal does up to the cut. -/
def Action.upToCut : Action → Bool
  | .openReadWrite | .lockExclusive | .read | .truncate => true
  | _ => false

end Disk

namespace Registry

open Disk (Action Open Place)
open Disk.Routine (actions attempt finish locked run runFrom runSpoiled)

variable {parent : Bool} {p : Place} {text : String} {e : Entry}

/-! ### Whole withdrawals -/

/-- The text without the lines of an entry. -/
def struck (e : Entry) (text : String) : String := String.ofList (File.without e text.toList).flatten

theorem linesOf_struck (e : Entry) (text : String) :
    linesOf (struck e text).toList = (linesOf text.toList).filter fun line => Entry.ofLine? line ≠ some e := by
  rw [struck, String.toList_ofList, File.without, linesOf_flatten_filter]
  exact List.filter_congr fun line _ => by rw [Bool.eq_iff_iff]; simp

theorem snapshot_struck (e : Entry) (text : String) :
    snapshot (struck e text) = (snapshot text).filter (· ≠ e) := by
  rw [struck, snapshot, String.toList_ofList, snapshotOf_without]
  exact List.filter_congr fun f _ => by rw [Bool.eq_iff_iff]; simp

theorem struck_of_unheld (h : File.holds e text.toList = false) : struck e text = text := by
  have hall : File.without e text.toList = linesOf text.toList := by
    refine List.filter_eq_self.mpr fun line hline => ?_
    simpa [bne] using List.any_eq_false.mp h line hline
  rw [struck, hall, flatten_linesOf, String.ofList_toList]

theorem actions_unheld (h : File.holds e text.toList = false) :
    (File.withdraw e).actions ⟨⟨parent, .file (Utf8.encode text)⟩, 0⟩ =
      [.openReadWrite, .lockExclusive, .read, .unlock] := by
  simp [File.withdraw, actions, locked, finish, Disk.perform, Utf8.decode?_encode, File.strike, h]

theorem run_unheld (h : File.holds e text.toList = false) :
    (File.withdraw e).run ⟨parent, .file (Utf8.encode text)⟩ = (.ok false, ⟨parent, .file (Utf8.encode text)⟩) := by
  simp [File.withdraw, run, runFrom, locked, finish, Disk.perform, Utf8.decode?_encode, File.strike, h]

theorem actions_held (h : File.holds e text.toList = true) :
    (File.withdraw e).actions ⟨⟨parent, .file (Utf8.encode text)⟩, 0⟩ =
      [.openReadWrite, .lockExclusive, .read, .truncate, .rewind, .write (Utf8.encode (struck e text)), .flush,
        .unlock] := by
  simp [File.withdraw, actions, attempt, locked, finish, Disk.perform, Utf8.decode?_encode, File.strike, h, struck]

theorem run_held (h : File.holds e text.toList = true) :
    (File.withdraw e).run ⟨parent, .file (Utf8.encode text)⟩ =
      (.ok true, ⟨parent, .file (Utf8.encode (struck e text))⟩) := by
  simp [File.withdraw, run, runFrom, attempt, locked, finish, Disk.perform, Utf8.decode?_encode, File.strike, h,
    Disk.overwrite, struck]

/-- A withdrawal takes exactly the lines of its entry out of the file, whatever else is in it, and answers whether
    there were any. If there were none it only reads. What is registered afterwards is what was registered before,
    without the entry. -/
theorem withdrawal_strikes_own_lines (parent : Bool) (text : String) (e : Entry) : ∃ present kept,
    (File.withdraw e).run ⟨parent, .file (Utf8.encode text)⟩ = (.ok present, ⟨parent, .file (Utf8.encode kept)⟩) ∧
      linesOf kept.toList = (linesOf text.toList).filter (fun line => Entry.ofLine? line ≠ some e) ∧
      (present = true ↔ ∃ line ∈ linesOf text.toList, Entry.ofLine? line = some e) ∧
      (present = false → kept = text ∧ (File.withdraw e).actions ⟨⟨parent, .file (Utf8.encode text)⟩, 0⟩ =
        [.openReadWrite, .lockExclusive, .read, .unlock]) ∧
      (File.refresh.run ⟨parent, .file (Utf8.encode text)⟩).1 = .ok (snapshot text) ∧
      (File.refresh.run ⟨parent, .file (Utf8.encode kept)⟩).1 = .ok ((snapshot text).filter (· ≠ e)) := by
  have hread : (File.refresh.run ⟨parent, .file (Utf8.encode (struck e text))⟩).1 =
      .ok ((snapshot text).filter (· ≠ e)) := by
    rw [refresh_text rfl, snapshot_struck]
  refine ⟨File.holds e text.toList, struck e text, ?_, linesOf_struck e text, by simp [File.holds], fun hunheld => ?_,
    by rw [refresh_text rfl], hread⟩
  · cases hheld : File.holds e text.toList with
    | false => rw [run_unheld hheld, struck_of_unheld hheld]
    | true => exact run_held hheld
  · exact ⟨struck_of_unheld hunheld, actions_unheld hunheld⟩

/-- A line without a newline at the end is struck out like the others, and the lines around keep their ends. -/
example : struck ⟨.physics, ⟨11⟩⟩ "\r\nPHYSICS_PID 11\n?\n \tPHYSICS_PID +11\r\nRELAY_PID 3\nPHYSICS_PID 11" =
    "\r\n?\nRELAY_PID 3\n" := by
  decide +kernel

/-! ### Withdrawals that fail -/

variable {fault : Disk.Fault} {n : Nat} {action : Action} {error : SystemError} {o : Open}

/-- An action that is attempted either fails itself, and then only the lock is given back, or one of those after it
    does. -/
theorem attempt_failed {α : Type} {next : Disk.Routine (Except SystemError α)} {o o' : Open}
    (hdone : (Disk.perform action o).1 = .done)
    (hfail : ((attempt action next).finish .unlock).runSpoiled fault n o = (.error error, o')) :
    n = 0 ∧ o' = (Disk.spoil fault action o).2 ∨
      ∃ m, n = m + 1 ∧ (next.finish .unlock).runSpoiled fault m (Disk.perform action o).2 = (.error error, o') := by
  cases n with
  | zero =>
    have hspoilt : (Disk.spoil fault action o).1 = .failed fault.cause := by
      unfold Disk.spoil
      split <;> rfl
    simp only [attempt, finish, runSpoiled, hspoilt] at hfail
    exact Or.inl ⟨rfl, (Prod.mk.inj hfail).2.symm⟩
  | succ m =>
    simp only [attempt, finish, runSpoiled, hdone] at hfail
    exact Or.inr ⟨m, rfl, hfail⟩

/-- Nothing that happens when the lock is given back changes the answer. -/
theorem answer_finished {α : Type} (a : α) (o : Open) :
    ((finish .unlock (.done a)).runSpoiled fault n o).1 = a := by
  match n with
  | 0 | 1 | _ + 2 => rfl

/-- The file is cut first, and then written again from its beginning. -/
theorem strike_failed {position : Nat} (hheld : File.holds e text.toList = true)
    (hfail : ((File.strike e text.toList).finish .unlock).runSpoiled fault n
      ⟨⟨parent, .file (Utf8.encode text)⟩, position⟩ = (.error error, o)) :
    n = 0 ∧ o.place = ⟨parent, .file (Utf8.encode text)⟩ ∨
      n ≠ 0 ∧ ∃ k, o.place = ⟨parent, .file ((Utf8.encode (struck e text)).take k)⟩ := by
  rw [File.strike, if_pos hheld] at hfail
  rcases attempt_failed rfl hfail with ⟨rfl, rfl⟩ | ⟨n, rfl, hrewind⟩
  · exact Or.inl ⟨rfl, rfl⟩
  refine Or.inr ⟨Nat.succ_ne_zero n, ?_⟩
  rcases attempt_failed rfl hrewind with ⟨-, rfl⟩ | ⟨n, -, hwrite⟩
  · exact ⟨0, rfl⟩
  rcases attempt_failed rfl hwrite with ⟨-, rfl⟩ | ⟨n, -, hflush⟩
  · exact ⟨fault.stored, by simp [Disk.spoil, Action.part, Disk.perform, Disk.overwrite, struck]⟩
  rcases attempt_failed rfl hflush with ⟨-, rfl⟩ | ⟨n, -, hend⟩
  · refine ⟨(Utf8.encode (struck e text)).length, ?_⟩
    rw [List.take_length]
    simp [Disk.spoil, Action.part, Disk.perform, Disk.overwrite, struck]
  · have hanswer := congrArg Prod.fst hend
    rw [answer_finished] at hanswer
    cases hanswer

/-- A withdrawal that fails leaves the file alone up to the cut, and afterwards so much of the new text as was stored. -/
theorem withdraw_failed
    (haction : ((File.withdraw e).actions ⟨⟨parent, .file (Utf8.encode text)⟩, 0⟩)[n]? = some action)
    (hfail : (File.withdraw e).runSpoiled fault n ⟨⟨parent, .file (Utf8.encode text)⟩, 0⟩ = (.error error, o)) :
    action.upToCut = true ∧ o.place = ⟨parent, .file (Utf8.encode text)⟩ ∨
      action.upToCut = false ∧ ∃ k, o.place = ⟨parent, .file ((Utf8.encode (struck e text)).take k)⟩ := by
  match n with
  | 0 =>
    obtain rfl : .openReadWrite = action := Option.some.inj haction
    obtain ⟨cause, stored⟩ := fault
    refine Or.inl ⟨rfl, ?_⟩
    cases cause <;> cases hfail <;> rfl
  | 1 =>
    obtain rfl : .lockExclusive = action := Option.some.inj haction
    cases hfail
    exact Or.inl ⟨rfl, rfl⟩
  | 2 =>
    obtain rfl : .read = action := Option.some.inj haction
    cases hfail
    exact Or.inl ⟨rfl, rfl⟩
  | n + 3 =>
    simp only [File.withdraw, runSpoiled, locked, Disk.perform, finish, Utf8.decode?_encode, List.drop_zero] at hfail
    cases hheld : File.holds e text.toList with
    | false => cases n <;> simp [File.strike, hheld, finish, runSpoiled, runFrom] at hfail
    | true =>
      rw [actions_held hheld] at haction
      rcases strike_failed hheld hfail with ⟨rfl, hplace⟩ | ⟨hn, hplace⟩
      · obtain rfl : .truncate = action := by simpa using haction
        exact Or.inl ⟨rfl, hplace⟩
      · obtain ⟨m, rfl⟩ := Nat.exists_eq_succ_of_ne_zero hn
        have hmem : action ∈ [.rewind, .write (Utf8.encode (struck e text)), .flush, .unlock] :=
          List.mem_of_getElem? (i := m) (by simpa using haction)
        refine Or.inr ⟨?_, hplace⟩
        simp only [List.mem_cons, List.not_mem_nil, or_false] at hmem
        rcases hmem with rfl | rfl | rfl | rfl <;> rfl

/-- What can be read of the first bytes of the new text are the first of the other entries. -/
theorem refresh_stored {k : Nat} {entries : List Entry}
    (h : (File.refresh.run ⟨parent, .file ((Utf8.encode (struck e text)).take k)⟩).1 = .ok entries) :
    entries <+: (snapshot text).filter (· ≠ e) := by
  cases hdecode : Utf8.decode? ((Utf8.encode (struck e text)).take k) with
  | none => simp [File.refresh, run, runFrom, locked, finish, Disk.perform, hdecode] at h
  | some stored =>
    rw [Utf8.decode?_eq_some_iff.mp hdecode, refresh_text rfl] at h
    obtain rfl := Except.ok.inj h
    obtain ⟨later, hlater⟩ := Utf8.prefix_of_decode?_take hdecode
    rw [← snapshot_struck, snapshot, snapshot, ← hlater]
    exact snapshotOf_prefix_append stored.toList later

/-- A withdrawal that fails changes nothing up to the cut of the file. If it fails after the cut, then of the entries
    that were registered there are left at most the first few without the withdrawn one, or the file cannot be read;
    so if the withdrawn entry was registered, what is registered has changed. -/
theorem entries_survive_iff_uncut (hfile : p.node = .file (Utf8.encode text))
    (haction : ((File.withdraw e).actions ⟨p, 0⟩)[n]? = some action)
    (hfail : (File.withdraw e).runSpoiled fault n ⟨p, 0⟩ = (.error error, o)) :
    (action.upToCut = true → o.place = p ∧ (File.refresh.run o.place).1 = (File.refresh.run p).1) ∧
      (action.upToCut = false → (∃ k, o.place = ⟨p.parent, .file ((Utf8.encode (struck e text)).take k)⟩) ∧
        ∀ entries, (File.refresh.run o.place).1 = .ok entries → entries <+: (snapshot text).filter (· ≠ e)) ∧
      (e ∈ snapshot text → ((File.refresh.run o.place).1 = (File.refresh.run p).1 ↔ action.upToCut = true)) := by
  obtain ⟨parent, node⟩ := p
  obtain rfl : node = .file (Utf8.encode text) := hfile
  rcases withdraw_failed haction hfail with ⟨hcut, hplace⟩ | ⟨hcut, k, hplace⟩
  · rw [hplace]
    exact ⟨fun _ => ⟨rfl, rfl⟩, fun h => absurd (h ▸ hcut) nofun, fun _ => ⟨fun _ => hcut, fun _ => rfl⟩⟩
  · rw [hplace]
    refine ⟨fun h => absurd (h ▸ hcut) nofun, fun _ => ⟨⟨k, rfl⟩, fun _ => refresh_stored⟩,
      fun hlisted => ⟨fun hsame => ?_, ?_⟩⟩
    · -- The withdrawn entry is not among what is left.
      have hbefore : (File.refresh.run ⟨parent, .file (Utf8.encode text)⟩).1 = .ok (snapshot text) := by
        rw [refresh_text rfl]
      have hmem := (refresh_stored (hsame.trans hbefore)).subset hlisted
      simp at hmem
    · rw [hcut]
      exact nofun

/-- A file in which the supervisor is found. -/
def twoEntries : Place := ⟨true, .file (Utf8.encode "SUPERVISOR_PID 7\nPHYSICS_PID 11\n")⟩

theorem refresh_twoEntries :
    (File.refresh.run twoEntries).1 = .ok [⟨.supervisor, ⟨7⟩⟩, ⟨.physics, ⟨11⟩⟩] := by
  decide +kernel

/-- The lock is refused: nothing has been done. -/
theorem entries_survive_refused_lock : ∃ o,
    (File.withdraw ⟨.physics, ⟨11⟩⟩).runSpoiled ⟨.notPermitted, 0⟩ 1 ⟨twoEntries, 0⟩ =
        (.error (.call "flock" .notPermitted), o) ∧
      (File.refresh.run o.place).1 = .ok [⟨.supervisor, ⟨7⟩⟩, ⟨.physics, ⟨11⟩⟩] := by
  have hlisted : (⟨.physics, ⟨11⟩⟩ : Entry) ∈ snapshot "SUPERVISOR_PID 7\nPHYSICS_PID 11\n" := by decide +kernel
  have haction : ((File.withdraw ⟨.physics, ⟨11⟩⟩).actions ⟨twoEntries, 0⟩)[1]? = some .lockExclusive := rfl
  have hfail : (File.withdraw ⟨.physics, ⟨11⟩⟩).runSpoiled ⟨.notPermitted, 0⟩ 1 ⟨twoEntries, 0⟩ =
      (.error (.call "flock" .notPermitted), ⟨twoEntries, 0⟩) := rfl
  have hsame := ((entries_survive_iff_uncut rfl haction hfail).2.2 hlisted).mpr rfl
  exact ⟨_, hfail, hsame.trans refresh_twoEntries⟩

/-- The write of the new text fails before its last byte: the supervisor, who has nothing to do with the withdrawal, is
    not found any more. -/
theorem supervisor_lost_in_withdrawal : ∃ o,
    (File.withdraw ⟨.physics, ⟨11⟩⟩).runSpoiled ⟨.notPermitted, 16⟩ 5 ⟨twoEntries, 0⟩ =
        (.error (.io .notPermitted), o) ∧
      (File.refresh.run twoEntries).1 = .ok [⟨.supervisor, ⟨7⟩⟩, ⟨.physics, ⟨11⟩⟩] ∧
      (File.refresh.run o.place).1 = .ok [] ∧ File.lookup .supervisor o.place = .ok none := by
  have hanswer : ((File.withdraw ⟨.physics, ⟨11⟩⟩).runSpoiled ⟨.notPermitted, 16⟩ 5 ⟨twoEntries, 0⟩).1 =
      .error (.io .notPermitted) := by
    decide +kernel
  have hplace : ((File.withdraw ⟨.physics, ⟨11⟩⟩).runSpoiled ⟨.notPermitted, 16⟩ 5 ⟨twoEntries, 0⟩).2.place =
      ⟨true, .file (Utf8.encode "SUPERVISOR_PID 7")⟩ := by
    decide +kernel
  have hread : (File.refresh.run ⟨true, .file (Utf8.encode "SUPERVISOR_PID 7")⟩).1 = .ok [] := by decide +kernel
  rcases hrun : (File.withdraw ⟨.physics, ⟨11⟩⟩).runSpoiled ⟨.notPermitted, 16⟩ 5 ⟨twoEntries, 0⟩ with ⟨answer, o⟩
  rw [hrun] at hanswer hplace
  rw [← hplace] at hread
  exact ⟨o, congrArg (·, o) hanswer, refresh_twoEntries, hread, by rw [File.lookup, hread]; rfl⟩

end Registry
end GridFlight
