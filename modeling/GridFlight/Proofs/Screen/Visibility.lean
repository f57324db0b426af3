import GridFlight.Proofs.Frame.Payload
import GridFlight.Proofs.Screen.Canvas
import GridFlight.Proofs.World.Numbering

/-! What a drawn world shows. A label of several digits runs over the cells to the right of its target, and hides what
    is drawn there before: the border, obstacles, and the labels of earlier targets. Everything else is visible. -/

namespace GridFlight

namespace Window

/-- Among the cells of a window. -/
def Spans (w : Window) (c : Cell) : Prop :=
  (0 ≤ c.x.toInt ∧ c.x.toInt < w.width.toInt) ∧ 0 ≤ c.y.toInt ∧ c.y.toInt < w.height.toInt

theorem Inside.spans {w : Window} {c : Cell} (h : w.Inside c) : w.Spans c := by
  obtain ⟨⟨hleft, hright⟩, htop, hbottom⟩ := h
  exact ⟨⟨by omega, by omega⟩, by omega, by omega⟩

end Window

theorem Cell.eq_iff {c d : Cell} : c = d ↔ c.x.toInt = d.x.toInt ∧ c.y.toInt = d.y.toInt := by
  rw [Int32.toInt_inj, Int32.toInt_inj]
  cases c
  cases d
  rw [Cell.mk.injEq]

namespace Screen

/-! ### Borders -/

/-- The character of the border at one of its cells. -/
def frame (window : Window) (c : Cell) : Char :=
  if c.y.toInt = 0 ∨ c.y.toInt = window.height.toInt - 1 then
    if c.x.toInt = 0 ∨ c.x.toInt = window.width.toInt - 1 then '+' else '-'
  else '|'

/-- The sides of a window that a screen may have, and whose cells have an inside. -/
structure Sized (window : Window) : Prop where
  width : 3 ≤ window.width.toInt ∧ window.width.toInt ≤ maxCoordinate
  height : 3 ≤ window.height.toInt ∧ window.height.toInt ≤ maxCoordinate

/-- The border above and below a window. -/
def edge (width : Int) : String := "+" ++ String.ofList (List.replicate (width - 2).toNat '-') ++ "+"

variable {window : Window} {c : Cell}

theorem printed_edge {y width : Int} (hc : 0 ≤ c.x.toInt ∧ c.x.toInt < width) (hwidth : 2 ≤ width) :
    printed 0 y (edge width) c =
      if c.y.toInt = y then some (if c.x.toInt = 0 ∨ c.x.toInt = width - 1 then '+' else '-') else none := by
  have hlist : (edge width).toList = '+' :: (List.replicate (width - 2).toNat '-' ++ ['+']) := by
    simp only [edge, String.toList_append, String.toList_ofList]
    rfl
  rw [printed, hlist, Int.sub_zero]
  by_cases hy : c.y.toInt = y
  · rw [if_pos ⟨hy, hc.1⟩, if_pos hy]
    rcases Nat.eq_zero_or_pos c.x.toInt.toNat with hleft | hleft
    · rw [hleft, if_pos (by omega)]
      rfl
    · obtain ⟨k, hk⟩ := Nat.exists_eq_add_of_lt hleft
      rw [Nat.zero_add] at hk
      rw [hk, List.getElem?_cons_succ]
      by_cases hright : c.x.toInt = width - 1
      · have hlast : k = (List.replicate (width - 2).toNat '-').length := by
          rw [List.length_replicate]
          omega
        rw [if_pos (Or.inr hright), hlast, List.getElem?_append_right (Nat.le_refl _), Nat.sub_self]
        rfl
      · have hbetween : k < (width - 2).toNat := by omega
        rw [if_neg (by omega), List.getElem?_append_left (by rw [List.length_replicate]; exact hbetween),
          List.getElem?_replicate, if_pos hbetween]
  · rw [if_neg (fun hon => hy hon.1), if_neg hy]

/-- Both bars of a row. -/
theorem leaves_bars {width y : Int} (hwidth : 1 ≤ width ∧ width ≤ maxCoordinate) (hy : 0 ≤ y ∧ y < maxCoordinate) :
    Leaves (put 0 y "|" ++ put (width - 1) y "|") c
      (if (c.x.toInt = 0 ∨ c.x.toInt = width - 1) ∧ c.y.toInt = y then some '|' else none) := by
  have hbar : "|".toList = ['|'] := rfl
  have hboth := (leaves_put (x := 0) "|" c (by omega) hy).append (leaves_put (x := width - 1) "|" c (by omega) hy)
  rw [printed_single hbar, printed_single hbar] at hboth
  have hmark : (if (c.x.toInt = 0 ∨ c.x.toInt = width - 1) ∧ c.y.toInt = y then some '|' else none) =
      (if c.x.toInt = width - 1 ∧ c.y.toInt = y then some '|' else none).or
        (if c.x.toInt = 0 ∧ c.y.toInt = y then some '|' else none) := by
    by_cases hright : c.x.toInt = width - 1 ∧ c.y.toInt = y
    · rw [if_pos hright, if_pos ⟨Or.inr hright.1, hright.2⟩, Option.some_or]
    · rw [if_neg hright, Option.none_or]
      exact if_congr (by omega) rfl rfl
  rw [hmark]
  exact hboth

theorem leaves_sides (hsized : Sized window) :
    Leaves
      ((List.range (window.height.toInt - 2).toNat).flatMap fun (i : Nat) =>
        put 0 (1 + i) "|" ++ put (window.width.toInt - 1) (1 + i) "|") c
      (if (c.x.toInt = 0 ∨ c.x.toInt = window.width.toInt - 1) ∧ 0 < c.y.toInt ∧ c.y.toInt < window.height.toInt - 1
        then some '|' else none) := by
  obtain ⟨hwidth, hheight⟩ := hsized
  refine Leaves.flatMap_same (p := fun (i : Nat) =>
    (c.x.toInt = 0 ∨ c.x.toInt = window.width.toInt - 1) ∧ c.y.toInt = 1 + i) (fun i hi => ?_) ?_
  · rw [List.mem_range] at hi
    exact leaves_bars (by omega) (by omega)
  · simp only [List.mem_range]
    constructor
    · rintro ⟨hside, htop, hbottom⟩
      exact ⟨(c.y.toInt - 1).toNat, by omega, hside, by omega⟩
    · rintro ⟨i, hi, hside, hrow⟩
      exact ⟨hside, by omega, by omega⟩

/-- Of the border a cell shows its own character, and a cell inside shows nothing. -/
theorem leaves_border (hsized : Sized window) (hc : window.Spans c) :
    Leaves (border window) c (if window.Inside c then none else some (frame window c)) := by
  have hwidth := hsized.width
  have hheight := hsized.height
  obtain ⟨hx, hy⟩ := hc
  have htop := leaves_put (x := 0) (y := 0) (edge window.width.toInt) c (by omega) (by omega)
  have hbottom := leaves_put (x := 0) (y := window.height.toInt - 1) (edge window.width.toInt) c (by omega) (by omega)
  rw [printed_edge hx (by omega)] at htop hbottom
  have hall := (htop.append hbottom).append (leaves_sides hsized)
  have hborder : border window = put 0 0 (edge window.width.toInt) ++
      put 0 (window.height.toInt - 1) (edge window.width.toInt) ++
      (List.range (window.height.toInt - 2).toNat).flatMap fun (i : Nat) =>
        put 0 (1 + i) "|" ++ put (window.width.toInt - 1) (1 + i) "|" :=
    if_pos ⟨by omega, by omega⟩
  rw [hborder]
  convert hall using 1
  have hinside : window.Inside c ↔ (0 < c.x.toInt ∧ c.x.toInt < window.width.toInt - 1) ∧
    0 < c.y.toInt ∧ c.y.toInt < window.height.toInt - 1 := Iff.rfl
  unfold frame
  by_cases hrow : c.y.toInt = 0 ∨ c.y.toInt = window.height.toInt - 1
  · have hout : ¬window.Inside c := by
      rw [hinside]
      omega
    have hbar : ¬((c.x.toInt = 0 ∨ c.x.toInt = window.width.toInt - 1) ∧
      0 < c.y.toInt ∧ c.y.toInt < window.height.toInt - 1) := by omega
    rw [if_neg hout, if_pos hrow, if_neg hbar, Option.none_or]
    rcases hrow with htop | hbottom
    · rw [if_pos htop, if_neg (show ¬c.y.toInt = window.height.toInt - 1 by omega), Option.none_or]
    · rw [if_pos hbottom, Option.some_or]
  · rw [not_or] at hrow
    rw [if_neg (not_or.mpr hrow), if_neg hrow.1, if_neg hrow.2, Option.or_none, Option.or_none]
    by_cases hside : c.x.toInt = 0 ∨ c.x.toInt = window.width.toInt - 1
    · have hout : ¬window.Inside c := by
        rw [hinside]
        omega
      rw [if_neg hout, if_pos ⟨hside, by omega⟩]
    · rw [if_pos (hinside.mpr (by omega)), if_neg (fun hbar => hside hbar.1)]

/-! ### Entities -/

/-- A drone is on the cell. -/
def Flown (w : World) (c : Cell) : Prop := w.droneCell = c ∨ ∃ p, w.remote = some p ∧ Cell.ofPosition p = c

/-- A world that a screen may show, with all that it holds strictly inside the border. -/
structure Contained (w : World) : Prop extends Sized w.window where
  obstacles : ∀ o ∈ w.obstacles, w.window.Inside o
  targets : ∀ t ∈ w.targets, w.window.Inside t
  drones : ∀ c, Flown w c → w.window.Inside c

/-- The character that the label of a target has on a cell. -/
def labelOn (w : World) (c : Cell) (k : Nat) : Option Char :=
  w.targets[k]?.bind fun t => printed t.x.toInt t.y.toInt (label w k) c

/-- The character of the last label that is on a cell. -/
def topLabel (w : World) (c : Cell) : Option Char := topmost (labelOn w c) w.targets.length

/-- The label of a target goes on from the target to the cell. -/
def RunsOver (w : World) (k : Nat) (c : Cell) : Prop :=
  ∃ t, w.targets[k]? = some t ∧ t.y = c.y ∧ t.x.toInt < c.x.toInt ∧ c.x.toInt < t.x.toInt + (label w k).length

variable {w : World} {s : Canvas} {k : Nat} {t : Cell}

theorem leaves_putCell (hsized : Sized window) {o : Cell} (ho : window.Inside o) (text : String) (c : Cell) :
    Leaves (putCell o text) c (printed o.x.toInt o.y.toInt text c) := by
  obtain ⟨hwidth, hheight⟩ := hsized
  obtain ⟨⟨hleft, hright⟩, htop, hbottom⟩ := ho
  exact leaves_put text c (by omega) (by omega)

theorem leaves_putCell_single (hsized : Sized window) {o : Cell} (ho : window.Inside o) (text : String) {d : Char}
    (h : text.toList = [d]) (c : Cell) : Leaves (putCell o text) c (if o = c then some d else none) := by
  have hput := leaves_putCell hsized ho text c
  rw [printed_single h] at hput
  simp only [@eq_comm _ o c, Cell.eq_iff]
  exact hput

/-- What the drones show in a cell. -/
def flyer (w : World) (c : Cell) : Option Char :=
  (if w.droneCell = c then some '+' else none).or
    (if ∃ p, w.remote = some p ∧ Cell.ofPosition p = c then some '*' else none)

theorem leaves_entities (h : Contained w) (c : Cell) :
    Leaves (entities w) c
      ((flyer w c).or ((topLabel w c).or (if c ∈ w.obstacles then some 'O' else none))) := by
  have hobstacles : Leaves (w.obstacles.flatMap (putCell · "O")) c (if c ∈ w.obstacles then some 'O' else none) :=
    Leaves.flatMap_same (p := (· = c)) (fun o ho => leaves_putCell_single h.toSized (h.obstacles o ho) "O" rfl c)
      (by simp)
  have htargets : Leaves (w.targets.zipIdx.flatMap fun a => putCell a.1 (label w a.2)) c (topLabel w c) :=
    Leaves.flatMap_zipIdx (g := fun a => printed a.1.x.toInt a.1.y.toInt (label w a.2) c)
      fun t k ht => leaves_putCell h.toSized (h.targets t (List.mem_of_getElem? ht)) (label w k) c
  have hdrone : Leaves (putCell w.droneCell "+") c (if w.droneCell = c then some '+' else none) :=
    leaves_putCell_single h.toSized (h.drones _ (Or.inl rfl)) "+" rfl c
  rw [flyer, Option.or_assoc]
  refine ((hobstacles.append htargets).append ?_).append hdrone
  cases hp : w.remote with
  | none =>
    simpa using Leaves.nil
  | some p =>
    have hinside := h.drones _ (Or.inr ⟨p, hp, rfl⟩)
    simpa using leaves_putCell_single h.toSized hinside "*" (d := '*') rfl c

theorem leaves_background (c : Cell) : Leaves [.moveTo 0 statusRows, .clearBelow] c (some ' ') := by
  intro s hs
  refine if_pos ?_
  show statusRows < c.y.toInt.toNat + statusRows ∨ statusRows = c.y.toInt.toNat + statusRows ∧ 0 ≤ c.x.toInt.toNat
  omega

/-- The screen has the window, and a row above it. -/
def Canvas.Fits (s : Canvas) (window : Window) : Prop :=
  window.width.toInt ≤ s.columns ∧ window.height.toInt + statusRows ≤ s.rows

/-- Where no drone is, the last label on a cell prevails. -/
theorem cell_draw (h : Contained w) (hs : s.Fits w.window) (hc : w.window.Spans c) (hflown : ¬Flown w c) :
    (s.draw (draw w)).cell c = (topLabel w c).getD
      (if c ∈ w.obstacles then 'O' else if w.window.Inside c then ' ' else frame w.window c) := by
  have hholds : s.Holds c := by
    obtain ⟨hwidth, hheight⟩ := hs
    obtain ⟨hx, hy⟩ := hc
    exact ⟨by omega, by omega⟩
  have hflyer : flyer w c = none := by
    rw [Flown, not_or] at hflown
    rw [flyer, if_neg hflown.1, if_neg hflown.2, Option.none_or]
  have hall := ((leaves_background c).append (leaves_border h.toSized hc)).append (leaves_entities h c)
  rw [hflyer, Option.none_or] at hall
  refine (hall s hholds).trans ?_
  cases topLabel w c with
  | some d => rfl
  | none =>
    by_cases ho : c ∈ w.obstacles
    · simp [ho]
    · by_cases hinside : w.window.Inside c <;> simp [ho, hinside]

/-! ### Labels -/

theorem labelOn_eq_some_iff {d : Char} :
    labelOn w c k = some d ↔ ∃ t, w.targets[k]? = some t ∧ (c.y.toInt = t.y.toInt ∧ t.x.toInt ≤ c.x.toInt) ∧
      (label w k).toList[(c.x.toInt - t.x.toInt).toNat]? = some d := by
  simp only [labelOn, Option.bind_eq_some_iff, printed, Option.ite_none_right_eq_some]

theorem isDigit_of_labelOn {d : Char} (h : labelOn w c k = some d) : d.isDigit = true := by
  obtain ⟨t, -, -, hd⟩ := labelOn_eq_some_iff.mp h
  exact Number.isDigit_of_mem_repr (List.mem_of_getElem? hd)

/-- A label begins on the cell of its target. -/
theorem labelOn_self (h : w.targets[k]? = some t) : labelOn w t k = (label w k).toList.head? := by
  rw [labelOn, h, Option.bind_some, printed, if_pos ⟨rfl, Int.le_refl _⟩, Int.sub_self, List.head?_eq_getElem?]
  rfl

theorem length_label_pos (w : World) (k : Nat) : 0 < (label w k).length := by
  rw [← String.length_toList]
  exact List.length_pos_iff.mpr (Number.toList_repr_ne_nil _)

/-- A label is on the cells from its target on, as far as it goes. -/
theorem labelOn_ne_none (ht : w.targets[k]? = some t) (hrow : c.y.toInt = t.y.toInt) (hleft : t.x.toInt ≤ c.x.toInt)
    (hright : c.x.toInt < t.x.toInt + (label w k).length) : labelOn w c k ≠ none := by
  have hlength : (c.x.toInt - t.x.toInt).toNat < (label w k).toList.length := by
    rw [String.length_toList]
    omega
  rw [labelOn, ht, Option.bind_some, printed, if_pos ⟨hrow, hleft⟩, List.getElem?_eq_getElem hlength]
  exact Option.some_ne_none _

theorem labelOn_eq_none_iff : labelOn w c k = none ↔ w.targets[k]? ≠ some c ∧ ¬RunsOver w k c := by
  constructor
  · intro hnone
    refine ⟨fun hc => ?_, fun ⟨t, ht, hrow, hleft, hright⟩ => ?_⟩
    · have hpositive := length_label_pos w k
      exact labelOn_ne_none hc rfl (Int.le_refl _) (by omega) hnone
    · exact labelOn_ne_none ht (congrArg Int32.toInt hrow.symm) (Int.le_of_lt hleft) hright hnone
  · rintro ⟨hc, hrun⟩
    by_contra hsome
    obtain ⟨d, hd⟩ := Option.ne_none_iff_exists'.mp hsome
    obtain ⟨t, ht, ⟨hrow, hleft⟩, hchar⟩ := labelOn_eq_some_iff.mp hd
    have hlength := (List.getElem?_eq_some_iff.mp hchar).1
    rw [String.length_toList] at hlength
    rcases Int.lt_or_eq_of_le hleft with hright | hhere
    · exact hrun ⟨t, ht, Int32.toInt_inj.mp hrow.symm, hright, by omega⟩
    · rw [Cell.eq_iff.mpr ⟨hhere.symm, hrow⟩] at hc
      exact hc ht

theorem labelOn_of_length_le (h : w.targets.length ≤ k) : labelOn w c k = none := by
  rw [labelOn, List.getElem?_eq_none h]
  rfl

theorem topLabel_eq_none_iff : topLabel w c = none ↔ ∀ k, labelOn w c k = none := by
  rw [topLabel, topmost_eq_none_iff]
  constructor
  · intro hnone k
    rcases Nat.lt_or_ge k w.targets.length with hk | hk
    · exact hnone k hk
    · exact labelOn_of_length_le hk
  · intro hnone k _
    exact hnone k

theorem exists_of_topLabel {d : Char} (h : topLabel w c = some d) :
    ∃ m, labelOn w c m = some d ∧ ∀ i, m < i → labelOn w c i = none := by
  obtain ⟨m, -, hd, hlast⟩ := exists_of_topmost h
  refine ⟨m, hd, fun i hi => ?_⟩
  rcases Nat.lt_or_ge i w.targets.length with hlength | hlength
  · exact hlast i hlength hi
  · exact labelOn_of_length_le hlength

/-- What is no digit shows where no label is. -/
theorem getD_topLabel_eq_iff {d : Char} (hd : d.isDigit = false) :
    (topLabel w c).getD d = d ↔ ∀ k, labelOn w c k = none := by
  rw [← topLabel_eq_none_iff]
  cases htop : topLabel w c with
  | none => exact iff_of_true rfl rfl
  | some e =>
    refine iff_of_false (fun heq => ?_) nofun
    obtain ⟨m, hm, -⟩ := exists_of_topLabel htop
    rw [Option.getD_some] at heq
    rw [← heq, isDigit_of_labelOn hm] at hd
    cases hd

/-! ### What is visible -/

theorem isDigit_frame (window : Window) (c : Cell) : (frame window c).isDigit = false := by
  unfold frame
  split
  · split <;> rfl
  · rfl

theorem border_cell_visible_iff (h : Contained w) (hs : s.Fits w.window) (hc : w.window.Spans c)
    (hout : ¬w.window.Inside c) : (s.draw (draw w)).cell c = frame w.window c ↔ ∀ k, ¬RunsOver w k c := by
  have hflown : ¬Flown w c := fun hflown => hout (h.drones c hflown)
  have hobstacle : c ∉ w.obstacles := fun ho => hout (h.obstacles c ho)
  rw [cell_draw h hs hc hflown, if_neg hobstacle, if_neg hout, getD_topLabel_eq_iff (isDigit_frame _ _)]
  refine forall_congr' fun k => ?_
  rw [labelOn_eq_none_iff, and_iff_right fun hk => hout (h.targets c (List.mem_of_getElem? hk))]

/-- A label ends inside the border, or it runs over the border at the right. -/
theorem border_visible_iff (h : Contained w) (hs : s.Fits w.window) :
    (∀ c, w.window.Spans c → ¬w.window.Inside c → (s.draw (draw w)).cell c = frame w.window c) ↔
      ∀ k t, w.targets[k]? = some t → t.x.toInt + (label w k).length < w.window.width.toInt := by
  constructor
  · intro hall k t ht
    by_contra hlong
    rw [Int.not_lt] at hlong
    obtain ⟨⟨hleft, hright⟩, htop, hbottom⟩ := h.targets t (List.mem_of_getElem? ht)
    have hwidth := h.width
    have hlast : (w.window.width - 1).toInt = w.window.width.toInt - 1 := by
      refine Placement.toInt_pred fun hsmall => ?_
      rw [Int32.lt_iff_toInt_lt, show (3 : Int32).toInt = 3 from rfl] at hsmall
      omega
    -- The cell of the border in the row of the target.
    let c : Cell := ⟨w.window.width - 1, t.y⟩
    have hx : c.x.toInt = w.window.width.toInt - 1 := hlast
    have hy : c.y.toInt = t.y.toInt := rfl
    have hspans : w.window.Spans c := ⟨⟨by omega, by omega⟩, by omega, by omega⟩
    have hout : ¬w.window.Inside c := fun hinside => absurd hinside.1.2 (by omega)
    have hclear := (border_cell_visible_iff h hs hspans hout).mp (hall c hspans hout)
    exact hclear k ⟨t, ht, rfl, by omega, by omega⟩
  · intro hshort c hc hout
    rw [border_cell_visible_iff h hs hc hout]
    rintro k ⟨t, ht, hrow, hleft, hright⟩
    have hend := hshort k t ht
    obtain ⟨⟨hfirst, -⟩, htop, hbottom⟩ := h.targets t (List.mem_of_getElem? ht)
    rw [hrow] at htop hbottom
    exact hout ⟨⟨by omega, by omega⟩, htop, hbottom⟩

theorem obstacle_visible_iff (h : Contained w) (hs : s.Fits w.window) {o : Cell} (ho : o ∈ w.obstacles)
    (htarget : o ∉ w.targets) (hflown : ¬Flown w o) :
    (s.draw (draw w)).cell o = 'O' ↔ ∀ k, ¬RunsOver w k o := by
  have hspans := (h.obstacles o ho).spans
  rw [cell_draw h hs hspans hflown, if_pos ho, getD_topLabel_eq_iff rfl]
  refine forall_congr' fun k => ?_
  rw [labelOn_eq_none_iff, and_iff_right fun hk => htarget (List.mem_of_getElem? hk)]

/-- The first digit of a label shows, unless the last label to run over it has another digit there. -/
theorem target_visible_iff (h : Contained w) (hs : s.Fits w.window) (ht : w.targets[k]? = some t)
    (hlast : ∀ i, k < i → w.targets[i]? ≠ some t) (hflown : ¬Flown w t) :
    some ((s.draw (draw w)).cell t) = (label w k).toList.head? ↔
      ∀ i, k < i → RunsOver w i t → (∀ j, i < j → ¬RunsOver w j t) → labelOn w t i = (label w k).toList.head? := by
  have hown : labelOn w t k ≠ none := by
    rw [Ne, labelOn_eq_none_iff, not_and_or, not_not]
    exact Or.inl ht
  have hlater : ∀ i, k < i → (labelOn w t i = none ↔ ¬RunsOver w i t) := fun i hi => by
    rw [labelOn_eq_none_iff, and_iff_right (hlast i hi)]
  rw [cell_draw h hs (h.targets t (List.mem_of_getElem? ht)).spans hflown]
  cases htop : topLabel w t with
  | none => exact absurd (topLabel_eq_none_iff.mp htop k) hown
  | some d =>
    obtain ⟨m, hd, hnone⟩ := exists_of_topLabel htop
    have hkm : k ≤ m := Nat.le_of_not_lt fun hmk => hown (hnone k hmk)
    rw [Option.getD_some, ← labelOn_self ht, ← hd]
    rcases Nat.lt_or_eq_of_le hkm with hkm | rfl
    · have hruns : RunsOver w m t := by
        by_contra hoff
        rw [(hlater m hkm).mpr hoff] at hd
        cases hd
      constructor
      · intro hsame i hi hrun habove
        rcases Nat.lt_trichotomy i m with him | rfl | hmi
        · exact absurd hruns (habove m him)
        · exact hsame
        · exact absurd hrun ((hlater i hi).mp (hnone i hmi))
      · intro hall
        exact hall m hkm hruns fun j hj => (hlater j (Nat.lt_trans hkm hj)).mp (hnone j hj)
    · exact iff_of_true rfl fun i hi hrun _ => absurd hrun ((hlater i hi).mp (hnone i hi))

/-- The border is visible exactly where all labels end before it, an obstacle exactly where no label runs over it, and a
    target exactly where the last later label to run over it, if there is one, has the same digit there. -/
theorem visible_iff_not_run_over (h : Contained w) (hs : s.Fits w.window) :
    ((∀ c, w.window.Spans c → ¬w.window.Inside c → (s.draw (draw w)).cell c = frame w.window c) ↔
      ∀ k t, w.targets[k]? = some t → t.x.toInt + (label w k).length < w.window.width.toInt) ∧
    (∀ o ∈ w.obstacles, o ∉ w.targets → ¬Flown w o →
      ((s.draw (draw w)).cell o = 'O' ↔ ∀ k, ¬RunsOver w k o)) ∧
    (∀ k t, w.targets[k]? = some t → (∀ i, k < i → w.targets[i]? ≠ some t) → ¬Flown w t →
      (some ((s.draw (draw w)).cell t) = (label w k).toList.head? ↔
        ∀ i, k < i → RunsOver w i t → (∀ j, i < j → ¬RunsOver w j t) →
          labelOn w t i = (label w k).toList.head?)) :=
  ⟨border_visible_iff h hs, fun _ ho htarget hflown => obstacle_visible_iff h hs ho htarget hflown,
    fun _ _ ht hlast hflown => target_visible_iff h hs ht hlast hflown⟩

theorem length_label_le_one (h : w.total ≤ 9) (hk : k < w.targets.length) : (label w k).length ≤ 1 := by
  have hsize : w.total < UInt32.size := Nat.lt_of_le_of_lt h (by decide)
  rw [label, Nat.length_repr_le_iff Nat.one_pos, World.toNat_number hsize hk]
  unfold World.total at h
  omega

/-- Labels of one digit run over nothing. -/
theorem not_runsOver (h : w.total ≤ 9) (k : Nat) (c : Cell) : ¬RunsOver w k c := by
  rintro ⟨t, ht, -, hleft, hright⟩
  have hlength := length_label_le_one h (List.getElem?_eq_some_iff.mp ht).1
  omega

theorem later_ne_of_nodup (h : w.targets.Nodup) (ht : w.targets[k]? = some t) (i : Nat) (hi : k < i) :
    w.targets[i]? ≠ some t := by
  intro hagain
  have heq : k = i := (List.getElem?_inj (List.getElem?_eq_some_iff.mp ht).1 h).mp (ht.trans hagain.symm)
  exact Nat.ne_of_lt hi heq

theorem flown_iff_of_alone (h : w.remote = none) : Flown w c ↔ c = w.droneCell := by
  simp [Flown, h, eq_comm]

/-- A blank screen. -/
def Canvas.blank (columns rows : Nat) : Canvas := ⟨columns, rows, 0, 0, fun _ _ => ' '⟩

/-- Two of four targets have been reached. -/
def halfway : World :=
  { World.empty with
    drone := ⟨Float32.ofBits 0x40B00000, Float32.ofBits 0x40866666⟩
    obstacles := [⟨2, 2⟩]
    targets := [⟨8, 3⟩, ⟨9, 6⟩]
    window := ⟨20, 10⟩
    reached := 2 }

theorem flown_halfway_iff : Flown halfway c ↔ c = ⟨5, 4⟩ := by
  have hdrone : halfway.droneCell = ⟨5, 4⟩ := by decide +kernel
  rw [flown_iff_of_alone rfl, hdrone]

theorem contained_halfway : Contained halfway where
  width := by decide
  height := by decide
  obstacles := by decide
  targets := by decide
  drones c hc := by
    rw [flown_halfway_iff.mp hc]
    decide

theorem halfway_visible :
    (∀ c, halfway.window.Spans c → ¬halfway.window.Inside c →
      ((Canvas.blank 20 11).draw (draw halfway)).cell c = frame halfway.window c) ∧
      ((Canvas.blank 20 11).draw (draw halfway)).cell ⟨2, 2⟩ = 'O' ∧
      ((Canvas.blank 20 11).draw (draw halfway)).cell ⟨8, 3⟩ = '3' ∧
      ((Canvas.blank 20 11).draw (draw halfway)).cell ⟨9, 6⟩ = '4' := by
  have hfits : (Canvas.blank 20 11).Fits halfway.window := ⟨by decide, by decide⟩
  have hnine : halfway.total ≤ 9 := by decide
  have hflown : ∀ c : Cell, c ≠ ⟨5, 4⟩ → ¬Flown halfway c := fun c hc h => hc (flown_halfway_iff.mp h)
  have hnodup : halfway.targets.Nodup := by decide
  obtain ⟨hborder, hobstacle, htarget⟩ := visible_iff_not_run_over contained_halfway hfits
  have hfirst := (htarget 0 ⟨8, 3⟩ rfl (later_ne_of_nodup hnodup rfl) (hflown _ (by decide))).mpr
    fun i _ hi => absurd hi (not_runsOver hnine i _)
  have hsecond := (htarget 1 ⟨9, 6⟩ rfl (later_ne_of_nodup hnodup rfl) (hflown _ (by decide))).mpr
    fun i _ hi => absurd hi (not_runsOver hnine i _)
  refine ⟨hborder.mpr fun k t ht => ?_, ?_, Option.some.inj hfirst, Option.some.inj hsecond⟩
  · have hlength := length_label_le_one hnine (List.getElem?_eq_some_iff.mp ht).1
    have hinside := (contained_halfway.targets t (List.mem_of_getElem? ht)).1
    omega
  · exact (hobstacle ⟨2, 2⟩ (by decide) (by decide) (hflown _ (by decide))).mpr fun k => not_runsOver hnine k _

/-- Labels of two digits beside each other, beside an obstacle, and beside the border. -/
def crowded : World :=
  { World.empty with
    drone := ⟨Float32.ofBits 0x3F800000, Float32.ofBits 0x3F800000⟩
    obstacles := [⟨4, 1⟩]
    targets := [⟨3, 1⟩, ⟨2, 1⟩, ⟨5, 1⟩]
    window := ⟨7, 3⟩
    reached := 10 }

theorem flown_crowded_iff : Flown crowded c ↔ c = ⟨1, 1⟩ := by
  have hdrone : crowded.droneCell = ⟨1, 1⟩ := by decide +kernel
  rw [flown_iff_of_alone rfl, hdrone]

/-- A bar of the border, the obstacle and the first digit of a label are all hidden by digits. -/
theorem crowded_hidden :
    Contained crowded ∧ (Canvas.blank 7 4).Fits crowded.window ∧
      (crowded.window.Spans ⟨6, 1⟩ ∧ ¬crowded.window.Inside ⟨6, 1⟩ ∧
        ((Canvas.blank 7 4).draw (draw crowded)).cell ⟨6, 1⟩ ≠ frame crowded.window ⟨6, 1⟩) ∧
      (⟨4, 1⟩ ∈ crowded.obstacles ∧ ⟨4, 1⟩ ∉ crowded.targets ∧ ¬Flown crowded ⟨4, 1⟩ ∧
        ((Canvas.blank 7 4).draw (draw crowded)).cell ⟨4, 1⟩ ≠ 'O') ∧
      crowded.targets[0]? = some ⟨3, 1⟩ ∧ (∀ i, 0 < i → crowded.targets[i]? ≠ some ⟨3, 1⟩) ∧ ¬Flown crowded ⟨3, 1⟩ ∧
        some (((Canvas.blank 7 4).draw (draw crowded)).cell ⟨3, 1⟩) ≠ (label crowded 0).toList.head? := by
  have hbar : ((Canvas.blank 7 4).draw (draw crowded)).cell ⟨6, 1⟩ = '3' := rfl
  have hobstacle : ((Canvas.blank 7 4).draw (draw crowded)).cell ⟨4, 1⟩ = '1' := rfl
  have hdigit : ((Canvas.blank 7 4).draw (draw crowded)).cell ⟨3, 1⟩ = '2' := rfl
  have hcontained : Contained crowded := by
    refine ⟨⟨by decide, by decide⟩, by decide, by decide, fun c hc => ?_⟩
    rw [flown_crowded_iff.mp hc]
    decide
  have hflown : ∀ c : Cell, c ≠ ⟨1, 1⟩ → ¬Flown crowded c := fun c hc h => hc (flown_crowded_iff.mp h)
  have hnodup : crowded.targets.Nodup := by decide
  rw [hbar, hobstacle, hdigit]
  refine ⟨hcontained, ⟨by decide, by decide⟩, ⟨⟨by decide, by decide⟩, by decide, by decide⟩,
    ⟨by decide, by decide, hflown _ (by decide), by decide⟩, rfl, later_ne_of_nodup hnodup rfl,
    hflown _ (by decide), ?_⟩
  decide

end Screen
end GridFlight
