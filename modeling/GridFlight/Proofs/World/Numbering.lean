import GridFlight.Proofs.World.Relocation
import GridFlight.Screen

/-! The numbers of the targets. A target's number counts the targets that were reached before it, so it stays the same
    while the list gets shorter at its front. A contact is about one number: its target is gone if it was the first
    one, and has moved or stayed otherwise. All other numbers keep their cells. The count of reached targets wraps
    around, and so do the numbers; they are in order as long as the count does not. -/

namespace GridFlight

namespace Contact

/-- The index of the target that was touched. -/
def index : Contact → Nat
  | expected .. => 0
  | unexpected index .. => index

/-- The cell of that target. -/
def origin : Contact → Cell
  | expected cleared _ => cleared
  | unexpected _ origin _ => origin

/-- The cell of that target afterwards, unless it is gone. -/
def place : Contact → Option Cell
  | expected .. => none
  | unexpected _ origin goal => some (goal.getD origin)

/-- The numbered targets after the contact: without the first one, or with one of them on another cell. -/
def leave (k : Contact) (entries : List (UInt32 × Cell)) : List (UInt32 × Cell) :=
  match k.place with
  | none => entries.tail
  | some c => entries.modify k.index fun entry => (entry.1, c)

end Contact

namespace World

variable {w v : World} {contact : Option Contact} {index : Nat} {n : UInt32}

/-! ### Numbers -/

/-- The targets with their numbers, in their order. -/
def entries (w : World) : List (UInt32 × Cell) := w.targets.zipIdx.map fun (c, index) => (w.number index, c)

def numbers (w : World) : List UInt32 := w.entries.map Prod.fst

/-- The cell of the first target with this number, if there is one. -/
def numbered (w : World) (n : UInt32) : Option Cell := w.entries.lookup n

/-- The targets that are there and those that were reached, as the program adds them up. -/
def count (w : World) : UInt32 := w.reached + UInt32.ofNat w.targets.length

/-- The targets that are there and those that were reached. -/
def total (w : World) : Nat := w.reached.toNat + w.targets.length

/-- The screen shows each target by its number. -/
theorem drawn_by_number (w : World) :
    (w.targets.zipIdx.flatMap fun (c, index) => Screen.putCell c (Screen.label w index)) =
      w.entries.flatMap fun (n, c) => Screen.putCell c n.toNat.repr := by
  rw [entries, List.flatMap_map]
  rfl

@[simp] theorem getElem?_entries (w : World) (index : Nat) :
    w.entries[index]? = w.targets[index]?.map fun c => (w.number index, c) := by
  simp [entries, List.getElem?_zipIdx, Function.comp_def]

@[simp] theorem length_entries (w : World) : w.entries.length = w.targets.length := by
  simp [entries]

@[simp] theorem length_numbers (w : World) : w.numbers.length = w.targets.length := by
  simp [numbers]

/-- The number after the largest one is zero. -/
example : { empty with reached := 4294967295 }.number 0 = 0 := by decide

/-- One more target has been reached, and each index is one less. -/
theorem number_succ (h : v.reached = w.reached + 1) (index : Nat) : v.number index = w.number (index + 1) := by
  have hone : UInt32.ofNat (index + 1) = UInt32.ofNat index + 1 := UInt32.ofNat_add index 1
  simp only [number, h, hone]
  ac_rfl

/-- Without a wrap-around the numbers of the targets are consecutive. -/
theorem toNat_number (h : w.total < UInt32.size) (hindex : index < w.targets.length) :
    (w.number index).toNat = w.reached.toNat + 1 + index := by
  unfold total at h
  have hsmall : (UInt32.ofNat index).toNat = index := UInt32.toNat_ofNat_of_lt' (by omega)
  have hsize : UInt32.size = 2 ^ 32 := rfl
  rw [number, UInt32.toNat_add, UInt32.toNat_add, hsmall, UInt32.toNat_one]
  omega

theorem map_toNat_numbers (h : w.total < UInt32.size) :
    w.numbers.map UInt32.toNat = List.range' (w.reached.toNat + 1) w.targets.length := by
  refine List.ext_getElem? fun index => ?_
  rw [List.getElem?_map, numbers, List.getElem?_map, getElem?_entries]
  by_cases hindex : index < w.targets.length
  · rw [List.getElem?_eq_getElem hindex, List.getElem?_range' hindex, Nat.one_mul]
    exact congrArg some (toNat_number h hindex)
  · simp [Nat.le_of_not_lt hindex]

theorem nodup_numbers (h : w.total < UInt32.size) : w.numbers.Nodup := by
  refine List.Nodup.of_map UInt32.toNat ?_
  rw [map_toNat_numbers h]
  exact List.nodup_range'

/-! ### Contacts -/

/-- The targets keep their numbers over a contact, if there is one. Only what it was about is elsewhere, or gone. -/
structure KeepsNumbers (w : World) (contact : Option Contact) (v : World) : Prop where
  count : v.count = w.count
  reached : v.reached = if contact.any (·.place.isNone) then w.reached + 1 else w.reached
  touched : ∀ k ∈ contact, w.targets[k.index]? = some k.origin ∧ (k.place = none → k.index = 0)
  entries : v.entries = contact.elim w.entries (·.leave w.entries)
  changed : v.targets ≠ w.targets ↔ ∃ k ∈ contact, k.place ≠ some k.origin

theorem entries_congr (htargets : v.targets = w.targets) (hreached : v.reached = w.reached) :
    v.entries = w.entries := by
  simp only [entries, number, htargets, hreached]

theorem keepsNumbers_of_eq (htargets : v.targets = w.targets) (hreached : v.reached = w.reached) :
    w.KeepsNumbers none v where
  count := by rw [count, count, htargets, hreached]
  reached := hreached
  touched := nofun
  entries := entries_congr htargets hreached
  changed := by simp [htargets]

/-- The first target is gone, and the others are one place further to the front. -/
theorem keepsNumbers_first {c : Cell} {rest : List Cell} (h : w.targets = c :: rest) :
    w.KeepsNumbers (some (.expected c rest.length)) { w with targets := rest, reached := w.reached + 1 } where
  count := by
    have hlength : UInt32.ofNat (rest.length + 1) = UInt32.ofNat rest.length + 1 := UInt32.ofNat_add _ 1
    simp only [count, h, List.length_cons, hlength]
    ac_rfl
  reached := rfl
  touched := by
    rintro k ⟨⟩
    exact ⟨by simp [h, Contact.index, Contact.origin], fun _ => rfl⟩
  entries := by
    refine List.ext_getElem? fun index => ?_
    have hnumber := number_succ (w := w) (v := { w with targets := rest, reached := w.reached + 1 }) rfl index
    have htail : (w.entries.tail)[index]? = w.entries[index + 1]? := List.getElem?_tail
    refine Eq.trans ?_ htail.symm
    rw [getElem?_entries, getElem?_entries, h, List.getElem?_cons_succ, hnumber]
  changed := by simp [h, Contact.place]

/-- A later target is elsewhere, and keeps its number. -/
theorem entries_set (w : World) (index : Nat) (goal : Cell) :
    { w with targets := w.targets.set index goal }.entries =
      w.entries.modify index fun entry => (entry.1, goal) := by
  refine List.ext_getElem? fun other => ?_
  rw [List.getElem?_modify, getElem?_entries, getElem?_entries, List.getElem?_set]
  by_cases hother : index = other
  · subst hother
    by_cases hlt : index < w.targets.length
    · simp [hlt, number]
    · simp [hlt]
  · simp [hother, number]

theorem keepsNumbers_set {c goal : Cell} (h : w.targets[index]? = some c) (hne : goal ≠ c) :
    w.KeepsNumbers (some (.unexpected index c (some goal))) { w with targets := w.targets.set index goal } where
  count := by simp [count]
  reached := rfl
  touched := by
    rintro k ⟨⟩
    exact ⟨h, nofun⟩
  entries := w.entries_set index goal
  changed := by
    have hset : w.targets.set index goal ≠ w.targets := by
      intro heq
      have hlt := (List.getElem?_eq_some_iff.mp h).1
      have hget : (w.targets.set index goal)[index]? = some goal := List.getElem?_set_self hlt
      rw [heq, h] at hget
      exact hne (Option.some.inj hget).symm
    simp [hset, Contact.place, Contact.origin, hne]

/-- A later target stays. -/
theorem keepsNumbers_stuck {c : Cell} (h : w.targets[index]? = some c) :
    w.KeepsNumbers (some (.unexpected index c none)) w where
  count := rfl
  reached := rfl
  touched := by
    rintro k ⟨⟩
    exact ⟨h, nofun⟩
  entries := by
    obtain ⟨hlt, hget⟩ := List.getElem?_eq_some_iff.mp h
    have hsame : w.targets.set index c = w.targets := by rw [← hget, List.set_getElem_self]
    have hentries := w.entries_set index c
    rwa [hsame] at hentries
  changed := by simp [Contact.place, Contact.origin]

theorem Meets.keepsNumbers (h : w.Meets contact v) : w.KeepsNumbers contact v := by
  cases h with
  | off => exact keepsNumbers_of_eq rfl rfl
  | first targets => exact keepsNumbers_first targets
  | later target moves =>
    cases moves with
    | stay => exact keepsNumbers_stuck target
    | move inside drone obstacles others => exact keepsNumbers_set target drone

/-- A contact that moves something finds targets and leaves other ones. -/
theorem Meets.targets_ne (h : w.Meets contact v) (hmoves : contact.any Contact.moves = true) :
    w.targets ≠ [] ∧ v.targets ≠ w.targets := by
  cases h with
  | off => cases hmoves
  | first targets => simp [targets]
  | later target moves =>
    cases moves with
    | stay => cases hmoves
    | move inside drone obstacles others =>
      refine ⟨fun hempty => ?_, (keepsNumbers_set target drone).changed.mpr ⟨_, rfl, ?_⟩⟩
      · simp [hempty] at target
      · simpa [Contact.place, Contact.origin] using drone

/-! ### Numbers that are gone -/

/-- The number of the target that a contact makes go, if it does. -/
def cleared (w : World) (contact : Option Contact) : List UInt32 :=
  (contact.filter (·.place.isNone)).toList.map fun k => w.number k.index

theorem cleared_gone {k : Contact} (hplace : k.place = none) : w.cleared (some k) = [w.number k.index] := by
  rw [cleared, Option.filter_some_pos (by rw [hplace]; rfl)]
  rfl

theorem cleared_left {k : Contact} {c : Cell} (hplace : k.place = some c) : w.cleared (some k) = [] := by
  rw [cleared, Option.filter_some_neg (by rw [hplace]; rfl)]
  rfl

/-- With all numbers different, a change of one cell is seen under its number alone. -/
theorem lookup_modify {entries : List (UInt32 × Cell)} {m : UInt32} {origin : Cell}
    (hnodup : (entries.map Prod.fst).Nodup) (hindex : entries[index]? = some (m, origin)) (c : Cell) (n : UInt32) :
    (entries.modify index fun entry => (entry.1, c)).lookup n = if m = n then some c else entries.lookup n := by
  induction entries generalizing index with
  | nil => simp at hindex
  | cons entry rest ih =>
    obtain ⟨first, cell⟩ := entry
    rw [List.map_cons, List.nodup_cons] at hnodup
    cases index with
    | zero =>
      obtain rfl : first = m := congrArg Prod.fst (Option.some.inj hindex)
      rw [List.modify_zero_cons, List.lookup_cons, List.lookup_cons]
      by_cases hfirst : first = n
      · simp [hfirst]
      · simp [hfirst, beq_false_of_ne (Ne.symm hfirst)]
    | succ index =>
      rw [List.getElem?_cons_succ] at hindex
      have hne : first ≠ m := by
        rintro rfl
        exact hnodup.1 (List.mem_map.mpr ⟨_, List.mem_of_getElem? hindex, rfl⟩)
      rw [List.modify_succ_cons, List.lookup_cons, List.lookup_cons, ih hnodup.2 hindex]
      by_cases hfirst : first = n
      · simp [← hfirst, hne.symm]
      · simp [beq_false_of_ne (Ne.symm hfirst)]

namespace KeepsNumbers

/-- The first target was there before it went, and no other goes. -/
theorem entries_cons {k : Contact} (h : w.KeepsNumbers (some k) v) (hplace : k.place = none) :
    w.entries = (w.number k.index, k.origin) :: v.entries := by
  obtain ⟨htarget, hfirst⟩ := h.touched k rfl
  have htail : v.entries = w.entries.tail := by simpa [Contact.leave, hplace] using h.entries
  rw [hfirst hplace] at htarget ⊢
  have hhead : w.entries[0]? = some (w.number 0, k.origin) := by rw [getElem?_entries, htarget]; rfl
  rw [htail]
  exact List.eq_cons_of_mem_head? (by rwa [← List.head?_eq_getElem?] at hhead)

theorem entries_modify {k : Contact} {c : Cell} (h : w.KeepsNumbers (some k) v) (hplace : k.place = some c) :
    v.entries = w.entries.modify k.index fun entry => (entry.1, c) := by
  simpa [Contact.leave, hplace] using h.entries

/-- The numbers are those of the target that goes and of the targets that are left. -/
theorem numbers_eq (h : w.KeepsNumbers contact v) : w.numbers = w.cleared contact ++ v.numbers := by
  cases contact with
  | none => exact (congrArg (List.map Prod.fst) h.entries).symm
  | some k =>
    cases hplace : k.place with
    | none =>
      rw [cleared_gone hplace, numbers, h.entries_cons hplace]
      rfl
    | some c =>
      rw [cleared_left hplace, List.nil_append, numbers, numbers, h.entries_modify hplace]
      refine List.ext_getElem? fun index => ?_
      rw [List.getElem?_map, List.getElem?_map, List.getElem?_modify]
      cases w.entries[index]? with
      | none => rfl
      | some entry =>
        simp
        split <;> rfl

theorem length_eq (h : w.KeepsNumbers contact v) :
    w.targets.length = (w.cleared contact).length + v.targets.length := by
  simpa using congrArg List.length h.numbers_eq

theorem reached_eq (h : w.KeepsNumbers contact v) :
    v.reached = w.reached + UInt32.ofNat (w.cleared contact).length := by
  rw [h.reached]
  cases contact with
  | none => exact (UInt32.add_zero _).symm
  | some k =>
    cases hplace : k.place with
    | none => simp [cleared_gone hplace, hplace]
    | some c => simp [cleared_left hplace, hplace]

/-- Without a wrap-around the targets that are there and those that were reached remain as many. -/
theorem total_eq (h : w.KeepsNumbers contact v) (hsize : w.total < UInt32.size) : v.total = w.total := by
  have hlength := h.length_eq
  unfold total at hsize ⊢
  have hsmall : (UInt32.ofNat (w.cleared contact).length).toNat = (w.cleared contact).length :=
    UInt32.toNat_ofNat_of_lt' (by omega)
  have hpow : UInt32.size = 2 ^ 32 := rfl
  rw [h.reached_eq, UInt32.toNat_add, hsmall]
  omega

/-- A target that is still there is where the contact has left it, or where it was. -/
theorem numbered_eq (h : w.KeepsNumbers contact v) (hnodup : w.numbers.Nodup) (hn : n ∈ v.numbers) :
    v.numbered n = (contact.bind fun k => if w.number k.index = n then k.place else none).or (w.numbered n) := by
  cases contact with
  | none => exact congrArg (List.lookup n) h.entries
  | some k =>
    cases hplace : k.place with
    | none =>
      have hentries := h.entries_cons hplace
      rw [numbers, hentries, List.map_cons, List.nodup_cons] at hnodup
      have hne : n ≠ w.number k.index := by
        rintro rfl
        exact hnodup.1 hn
      simp [numbered, hentries, hplace, List.lookup_cons, beq_false_of_ne hne]
    | some c =>
      have htouched : w.entries[k.index]? = some (w.number k.index, k.origin) := by
        rw [getElem?_entries, (h.touched k rfl).1]
        rfl
      rw [numbered, h.entries_modify hplace, lookup_modify hnodup htouched]
      by_cases hk : w.number k.index = n
      · simp [hk, hplace]
      · simp [hk, numbered]

end KeepsNumbers
end World
end GridFlight
