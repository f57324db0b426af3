import GridFlight.Screen
import Mathlib.Data.List.Induction

/-! A screen of character cells. The strokes of a drawing move the cursor, blank cells, or print characters one after
    the other to the right. What is printed off the screen is lost. A cell shows what the last of the strokes that reach
    it has left in it, so the parts of a drawing are looked at one by one. -/

namespace GridFlight
namespace Screen

structure Canvas where
  columns : Nat
  rows : Nat
  /-- The column of the cursor. -/
  column : Nat
  row : Nat
  /-- What the cell of a column and a row shows. -/
  shows : Nat → Nat → Char

namespace Canvas

/-- Prints a character and moves the cursor to the next column. -/
def printChar (s : Canvas) (c : Char) : Canvas :=
  { s with
    column := s.column + 1
    shows := fun x y => if (x = s.column ∧ y = s.row) ∧ x < s.columns ∧ y < s.rows then c else s.shows x y }

def apply (s : Canvas) : Stroke → Canvas
  | .moveTo column row => { s with column := column, row := row }
  | .clearBelow => { s with shows := fun x y => if s.row < y ∨ s.row = y ∧ s.column ≤ x then ' ' else s.shows x y }
  | .clearRow => { s with shows := fun x y => if y = s.row then ' ' else s.shows x y }
  | .print text => text.toList.foldl printChar s

def draw (s : Canvas) (strokes : List Stroke) : Canvas := strokes.foldl apply s

/-- What a cell of the grid shows. -/
def cell (s : Canvas) (c : Cell) : Char := s.shows c.x.toInt.toNat (c.y.toInt.toNat + statusRows)

/-- The cell of the grid is on the screen. -/
def Holds (s : Canvas) (c : Cell) : Prop :=
  (0 ≤ c.x.toInt ∧ c.x.toInt < s.columns) ∧ 0 ≤ c.y.toInt ∧ c.y.toInt + statusRows < s.rows

variable {s : Canvas} {c : Cell}

theorem size_foldl_printChar (cs : List Char) (s : Canvas) :
    (cs.foldl printChar s).columns = s.columns ∧ (cs.foldl printChar s).rows = s.rows := by
  induction cs generalizing s with
  | nil => exact ⟨rfl, rfl⟩
  | cons c cs ih => exact ih (s.printChar c)

/-- A text changes the cells from the cursor on, as far as it goes and as the screen goes. -/
theorem shows_foldl_printChar (cs : List Char) (s : Canvas) {x y : Nat} (hx : x < s.columns) (hy : y < s.rows) :
    (cs.foldl printChar s).shows x y =
      (if y = s.row ∧ s.column ≤ x then cs[x - s.column]? else none).getD (s.shows x y) := by
  induction cs generalizing s with
  | nil => simp
  | cons c cs ih =>
    have hchar : (s.printChar c).shows x y = if x = s.column ∧ y = s.row then c else s.shows x y := by
      simp only [printChar, hx, hy, and_true]
    rw [List.foldl_cons, ih (s.printChar c) hx hy, hchar]
    show (if y = s.row ∧ s.column + 1 ≤ x then cs[x - (s.column + 1)]? else none).getD _ = _
    by_cases hrow : y = s.row
    · rcases Nat.lt_trichotomy x s.column with hleft | hhere | hright
      · rw [if_neg (by omega), if_neg (by omega), if_neg (by omega)]
      · have hleft : s.column ≤ x := Nat.le_of_eq hhere.symm
        rw [if_neg (by omega), if_pos ⟨hhere, hrow⟩, if_pos ⟨hrow, hleft⟩, hhere, Nat.sub_self]
        rfl
      · have hnext : x - s.column = x - (s.column + 1) + 1 := by omega
        have hleft : s.column ≤ x := Nat.le_of_lt hright
        rw [if_pos ⟨hrow, hright⟩, if_neg (by omega), if_pos ⟨hrow, hleft⟩, hnext, List.getElem?_cons_succ]
    · rw [if_neg (by omega), if_neg (by omega), if_neg (by omega)]

theorem size_apply (s : Canvas) (k : Stroke) : (s.apply k).columns = s.columns ∧ (s.apply k).rows = s.rows := by
  cases k with
  | print text => exact size_foldl_printChar text.toList s
  | _ => exact ⟨rfl, rfl⟩

theorem draw_append (s : Canvas) (first later : List Stroke) : s.draw (first ++ later) = (s.draw first).draw later :=
  List.foldl_append

theorem Holds.draw (h : s.Holds c) (strokes : List Stroke) : (s.draw strokes).Holds c := by
  induction strokes generalizing s with
  | nil => exact h
  | cons k strokes ih =>
    refine ih ?_
    unfold Holds at h ⊢
    rw [(size_apply s k).1, (size_apply s k).2]
    exact h

end Canvas

/-! ### What strokes leave in a cell -/

/-- On each screen that has the cell the strokes leave this character in it, or what it has shown before. -/
def Leaves (strokes : List Stroke) (c : Cell) (mark : Option Char) : Prop :=
  ∀ s : Canvas, s.Holds c → (s.draw strokes).cell c = mark.getD (s.cell c)

namespace Leaves

variable {α : Type} {strokes first later : List Stroke} {c : Cell} {mark old new : Option Char}

theorem nil : Leaves [] c none := fun _ _ => rfl

/-- What is drawn later prevails. -/
theorem append (hfirst : Leaves first c old) (hlater : Leaves later c new) :
    Leaves (first ++ later) c (new.or old) := by
  intro s hs
  rw [Canvas.draw_append, hlater _ (hs.draw first), hfirst s hs]
  cases new with
  | none => rfl
  | some d => rfl

/-- Strokes of one character, drawn for each member of a list at the cells that it selects. -/
theorem flatMap_same {l : List α} {f : α → List Stroke} {p : α → Prop} [DecidablePred p] {q : Prop} [Decidable q]
    {d : Char} (h : ∀ a ∈ l, Leaves (f a) c (if p a then some d else none)) (hq : q ↔ ∃ a ∈ l, p a) :
    Leaves (l.flatMap f) c (if q then some d else none) := by
  induction l generalizing q with
  | nil =>
    rw [if_neg (by simp [hq])]
    exact nil
  | cons a l ih =>
    obtain ⟨ha, hl⟩ := List.forall_mem_cons.mp h
    simp only [List.mem_cons, exists_eq_or_imp] at hq
    rw [List.flatMap_cons]
    by_cases hlater : ∃ b ∈ l, p b
    · have hboth := ha.append (ih hl (iff_of_true trivial hlater))
      rw [if_pos trivial, Option.some_or] at hboth
      rw [if_pos (hq.mpr (Or.inr hlater))]
      exact hboth
    · have hboth := ha.append (ih hl (iff_of_false not_false hlater))
      rw [if_neg not_false, Option.none_or] at hboth
      rw [or_iff_left hlater] at hq
      simp only [hq]
      exact hboth

end Leaves

/-- What the last of the numbers below `n` that have a character leaves. -/
def topmost (g : Nat → Option Char) : Nat → Option Char
  | 0 => none
  | n + 1 => (g n).or (topmost g n)

theorem topmost_congr {g g' : Nat → Option Char} {n : Nat} (h : ∀ k < n, g k = g' k) : topmost g n = topmost g' n := by
  induction n with
  | zero => rfl
  | succ n ih => rw [topmost, topmost, h n n.lt_succ_self, ih fun k hk => h k (Nat.lt_succ_of_lt hk)]

theorem topmost_eq_none_iff {g : Nat → Option Char} {n : Nat} : topmost g n = none ↔ ∀ k < n, g k = none := by
  induction n with
  | zero => exact iff_of_true rfl nofun
  | succ n ih => rw [topmost, Option.or_eq_none_iff, ih, Nat.forall_lt_succ_right, and_comm]

theorem exists_of_topmost {g : Nat → Option Char} {n : Nat} {d : Char} (h : topmost g n = some d) :
    ∃ k < n, g k = some d ∧ ∀ i < n, k < i → g i = none := by
  induction n with
  | zero => cases h
  | succ n ih =>
    cases hn : g n with
    | some e =>
      rw [topmost, hn, Option.some_or] at h
      exact ⟨n, n.lt_succ_self, hn.trans h, fun i hi hlater => absurd hlater (by omega)⟩
    | none =>
      rw [topmost, hn, Option.none_or] at h
      obtain ⟨k, hk, hd, hlast⟩ := ih h
      refine ⟨k, Nat.lt_succ_of_lt hk, hd, fun i hi hlater => ?_⟩
      rcases Nat.lt_succ_iff_lt_or_eq.mp hi with hi | rfl
      · exact hlast i hi hlater
      · exact hn

theorem Leaves.flatMap_zipIdx {α : Type} {l : List α} {f : α × Nat → List Stroke} {g : α × Nat → Option Char} {c : Cell}
    (h : ∀ a k, l[k]? = some a → Leaves (f (a, k)) c (g (a, k))) :
    Leaves (l.zipIdx.flatMap f) c (topmost (fun k => l[k]?.bind fun a => g (a, k)) l.length) := by
  induction l using List.reverseRecOn with
  | nil => exact nil
  | append_singleton l a ih =>
    have hfirst := ih fun b k hb => h b k (by
      rw [List.getElem?_append_left (List.getElem?_eq_some_iff.mp hb).1]
      exact hb)
    have hlast := h a l.length (by simp)
    have hsame : topmost (fun k => (l ++ [a])[k]?.bind fun b => g (b, k)) l.length =
        topmost (fun k => l[k]?.bind fun b => g (b, k)) l.length :=
      topmost_congr fun k hk => by rw [List.getElem?_append_left hk]
    rw [List.zipIdx_append, List.flatMap_append, List.length_append, List.length_singleton, topmost, hsame]
    simpa using hfirst.append hlast

/-- The character of a text, put at `(x, y)`, that comes to lie on a cell. -/
def printed (x y : Int) (text : String) (c : Cell) : Option Char :=
  if c.y.toInt = y ∧ x ≤ c.x.toInt then text.toList[(c.x.toInt - x).toNat]? else none

variable {x y : Int}

theorem leaves_put (text : String) (c : Cell) (hx : 0 ≤ x ∧ x ≤ maxCoordinate) (hy : 0 ≤ y ∧ y < maxCoordinate) :
    Leaves (put x y text) c (printed x y text c) := by
  intro s hs
  obtain ⟨⟨hleft, hright⟩, htop, hbottom⟩ := hs
  have hput : put x y text = [.moveTo x.toNat (y.toNat + statusRows), .print text] := by
    unfold put
    rw [if_neg (by omega), Nat.min_eq_right (by unfold statusRows; omega)]
  have hshows : (s.draw (put x y text)).cell c =
      (if c.y.toInt.toNat + statusRows = y.toNat + statusRows ∧ x.toNat ≤ c.x.toInt.toNat then
        text.toList[c.x.toInt.toNat - x.toNat]? else none).getD (s.cell c) := by
    rw [hput]
    exact Canvas.shows_foldl_printChar text.toList (s.apply (.moveTo x.toNat (y.toNat + statusRows)))
      (show c.x.toInt.toNat < s.columns by omega) (show c.y.toInt.toNat + statusRows < s.rows by omega)
  rw [hshows, printed]
  by_cases hon : c.y.toInt = y ∧ x ≤ c.x.toInt
  · have hplace : c.x.toInt.toNat - x.toNat = (c.x.toInt - x).toNat := by omega
    rw [if_pos hon, if_pos (by omega), hplace]
  · rw [if_neg hon, if_neg (by omega)]

theorem printed_single {text : String} {c : Cell} {d : Char} (h : text.toList = [d]) :
    printed x y text c = if c.x.toInt = x ∧ c.y.toInt = y then some d else none := by
  rw [printed, h]
  by_cases hon : c.y.toInt = y ∧ x ≤ c.x.toInt
  · rw [if_pos hon]
    rcases Int.lt_or_eq_of_le hon.2 with hright | hhere
    · rw [if_neg (by omega), List.getElem?_eq_none (by rw [List.length_singleton]; omega)]
    · rw [if_pos ⟨hhere.symm, hon.1⟩, hhere, Int.sub_self]
      rfl
  · rw [if_neg hon, if_neg (by omega)]

end Screen
end GridFlight
