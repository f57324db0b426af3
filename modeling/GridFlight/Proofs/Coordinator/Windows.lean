import GridFlight.Proofs.Coordinator.Coherence
import GridFlight.Proofs.Message.RoundTrip

/-! The windows that the parts take over. A part refuses a window without a column or without a row. The user can have
    such a window all the same, and then it is drawn and announced like any other. So each part is left with the last
    window of the world that was no such window. -/

namespace GridFlight

/-- At least one cell wide and high. -/
def Window.Proper (w : Window) : Prop := 0 < w.width ∧ 0 < w.height

instance : DecidablePred Window.Proper := fun w => inferInstanceAs (Decidable (0 < w.width ∧ 0 < w.height))

/-- The status line takes a row of the terminal, so a proper window needs another one below it. -/
theorem Screen.proper_window {columns rows : UInt16} :
    (Screen.window columns rows).Proper ↔ 0 < columns ∧ 1 < rows := by
  have hcolumns := columns.toNat_lt
  have hrows := rows.toNat_lt
  have hone : (1 : UInt16).toNat = 1 := rfl
  have hzero : (0 : UInt16).toNat = 0 := rfl
  have hside : ∀ n : Nat, n < 65536 → (0 < Int32.ofNat n ↔ 0 < n) := by
    intro n hn
    rw [Int32.lt_iff_toInt_lt, Int32.toInt_ofNat_of_lt (by omega)]
    exact Int.natCast_pos
  rw [Window.Proper, Screen.window, hside _ (by omega), hside _ (by omega), UInt16.lt_iff_toNat_lt,
    UInt16.lt_iff_toNat_lt, hone, hzero, Screen.statusRows, Nat.sub_pos_iff_lt]

/-! ### Reading windows -/

/-- A window is read from the frame of its size if it is proper, and the frame is refused otherwise. -/
theorem Message.ofFrame_size (width height : Int32) :
    ofFrame (size width height).toFrame =
      if (⟨width, height⟩ : Window).Proper then .ok (size width height)
      else .error (.payload "SIZE" (.badSize (size width height).payloadText)) := by
  have hfits := fits_size width height
  have hread := ofFrame_toFrame (size width height) (Frame.Payload.text?_ofText hfits.1 hfits.2)
  rw [hread, show ofText (size width height).kind _ (size width height).cells = _ from ofText_size width height]
  by_cases hproper : (⟨width, height⟩ : Window).Proper
  · have hpositive : ¬(width ≤ 0 ∨ height ≤ 0) := by
      rw [not_or, Int32.not_le, Int32.not_le]
      exact hproper
    rw [if_neg hpositive, if_pos hproper]
    rfl
  · have hpositive : width ≤ 0 ∨ height ≤ 0 := by
      rw [← Int32.not_lt, ← Int32.not_lt]
      exact Classical.not_and_iff_not_or_not.mp hproper
    rw [if_pos hpositive, if_neg hproper]
    rfl

namespace Coordinator

/-- The window that the receiver of a frame takes over. -/
def windowOf? (f : Frame) : Option Window :=
  match Message.ofFrame f with
  | .ok (.size width height) => some ⟨width, height⟩
  | _ => none

theorem windowOf?_size (width height : Int32) :
    windowOf? (Message.size width height).toFrame =
      if (⟨width, height⟩ : Window).Proper then some ⟨width, height⟩ else none := by
  rw [windowOf?, Message.ofFrame_size]
  by_cases hproper : (⟨width, height⟩ : Window).Proper
  · rw [if_pos hproper, if_pos hproper]
  · rw [if_neg hproper, if_neg hproper]

theorem windowOf?_of_kind_ne {m : Message} (h : m.kind ≠ .size) : windowOf? m.toFrame = none := by
  unfold windowOf?
  split
  · next width height hread =>
    have hkind : m.kind = .size := code_inj.mp (Message.code_of_ofFrame hread)
    exact absurd hkind h
  · rfl

/-- The windows among some messages, as far as they are taken over. -/
theorem windowsOf_toFrame (ms : List Message) :
    (ms.map Message.toFrame).filterMap windowOf? =
      (ms.filter fun m => m.kind = .size).filterMap fun m => windowOf? m.toFrame := by
  rw [List.filterMap_map, List.filterMap_filter]
  refine List.filterMap_congr fun m _ => ?_
  by_cases hkind : m.kind = .size
  · simp [hkind]
  · simp [hkind, windowOf?_of_kind_ne hkind]

/-! ### What the parts have taken over -/

/-- The frames written to a part in a step. -/
def Step.written (r : Role) (s : Step) : List Frame := (s.after.framesTo r).drop (s.before.framesTo r).length

/-- The last window exchanged with a part that its receiver has taken over. -/
def lastTaken (r : Role) (steps : List Step) : Option Window :=
  (steps.flatMap fun s => (s.exchanged r).filterMap windowOf?).getLast?

/-- The windows of the world, one after each event. -/
def windows (steps : List Step) : List Window := steps.map fun s => s.after.world.window

variable {c d : Coordinator} {e : Event} {mail : Mail} {r : Role} {steps : List Step} {s : Step}

theorem lastTaken_concat (r : Role) (steps : List Step) (s : Step) :
    lastTaken r (steps ++ [s]) = ((s.exchanged r).filterMap windowOf?).getLast?.or (lastTaken r steps) := by
  simp [lastTaken, List.flatMap_append, List.getLast?_append]

theorem windows_concat (steps : List Step) (s : Step) :
    windows (steps ++ [s]) = windows steps ++ [s.after.world.window] := List.map_append

/-- In a step a part takes over the window that the world has afterwards, if it is proper, or the window stays. -/
theorem Deed.taken {v w : World} (h : Deed w e v mail) (r : Role) :
    ((e.heard r ++ mail r).map Message.toFrame).filterMap windowOf? = [v.window].filter Window.Proper ∨
      ((e.heard r ++ mail r).map Message.toFrame).filterMap windowOf? = [] ∧ v.window = w.window ∧ e ≠ .start := by
  rw [windowsOf_toFrame]
  rcases h.sizes r with hsome | ⟨hnone, hsame⟩
  · refine Or.inl ?_
    rw [hsome, List.filterMap_cons, windowOf?_size]
    by_cases hproper : v.window.Proper <;> simp [hproper]
  · exact Or.inr ⟨by rw [hnone]; rfl, hsame⟩

/-- Each part has the last proper window of the world. -/
structure Informed (steps : List Step) (c : Coordinator) : Prop where
  last : (windows steps).getLast? = some c.world.window
  taken : ∀ r, c.connects r = true → lastTaken r steps = ((windows steps).filter Window.Proper).getLast?

theorem informed_start (h : c.upon .start = (.ok .more, d)) : Informed [⟨.start, c, d⟩] d := by
  obtain ⟨mail, hdeed, hsends⟩ := deed_of_upon h
  refine ⟨rfl, fun r hr => ?_⟩
  rcases hdeed.taken r with htaken | ⟨-, -, hstart⟩
  · rw [lastTaken, List.flatMap_singleton, hsends.exchanged hr, htaken]
    rfl
  · exact absurd rfl hstart

theorem Informed.next (hc : Informed steps c) (h : c.upon e = (.ok .more, d)) : Informed (steps ++ [⟨e, c, d⟩]) d := by
  obtain ⟨mail, hdeed, hsends⟩ := deed_of_upon h
  refine ⟨by simp [windows_concat], fun r hr => ?_⟩
  have hbefore := hc.taken r (hsends.connects hr)
  rw [lastTaken_concat, windows_concat, hsends.exchanged hr, List.filter_append, List.getLast?_append]
  rcases hdeed.taken r with htaken | ⟨hnone, hsame, -⟩
  · rw [htaken, hbefore]
  · rw [hnone, hbefore]
    by_cases hproper : c.world.window.Proper
    · -- The window stays, and it has been the last proper one already.
      obtain ⟨earlier, hearlier⟩ := List.getLast?_eq_some_iff.mp hc.last
      simp [hearlier, hsame, hproper]
    · simp [hsame, hproper]

theorem informed_course (h : Course steps c) : Informed steps c := by
  induction h with
  | start hfresh hstart => exact informed_start hstart
  | aside _ haside ih =>
    refine ⟨by rw [haside.world]; exact ih.last, fun r hr => ih.taken r ?_⟩
    rwa [← haside.connects]
  | next _ hnext ih => exact ih.next hnext

/-! ### Sizes that are written -/

/-- Whatever is written about a size is the window of the world. -/
theorem Course.size_written (h : Course steps c) (hs : s ∈ steps) {f : Frame} (hf : f ∈ s.written r)
    (hcode : f.code = Frame.Kind.size.code) :
    f = (Message.size s.after.world.window.width s.after.world.window.height).toFrame := by
  obtain ⟨mail, hdeed, hsends⟩ := deed_of_upon (h.upon_of_mem hs)
  obtain ⟨sent, hsent, hframes, -⟩ := hsends r
  rw [Step.written, hframes, List.drop_left] at hf
  obtain ⟨m, hm, rfl⟩ := List.mem_map.mp hf
  have hsize : m ∈ (s.event.heard r ++ mail r).filter fun m => m.kind = .size :=
    List.mem_filter.mpr ⟨List.mem_append_right _ (hsent.mem hm), decide_eq_true (code_inj.mp hcode)⟩
  rcases hdeed.sizes r with hsome | ⟨hnone, -⟩
  · rw [hsome] at hsize
    rw [List.mem_singleton.mp hsize]
  · rw [hnone] at hsize
    cases hsize

/-! ### Agreement -/

/-- A part that is connected agrees with the world about the window exactly when this is proper, and has the last window
    that was, if there was one. What is written to it about a size is accepted in exactly these cases; and a terminal
    gives a proper window exactly when it has a column and a second row. -/
theorem window_agreed_iff_proper (h : Course steps c) (hr : c.connects r = true) :
    (lastTaken r steps = some c.world.window ↔ c.world.window.Proper) ∧
      lastTaken r steps = ((windows steps).filter Window.Proper).getLast? ∧
      (∀ s ∈ steps, ∀ f ∈ s.written r, f.code = Frame.Kind.size.code →
        ((∃ m, Message.ofFrame f = .ok m) ↔ s.after.world.window.Proper)) ∧
      ∀ columns rows, (Screen.window columns rows).Proper ↔ 0 < columns ∧ 1 < rows := by
  obtain ⟨hlast, htaken⟩ := informed_course h
  refine ⟨⟨fun hagreed => ?_, fun hproper => ?_⟩, htaken r hr, fun s hs f hf hcode => ?_,
    fun _ _ => Screen.proper_window⟩
  · rw [htaken r hr] at hagreed
    exact of_decide_eq_true (List.mem_filter.mp (List.mem_of_getLast? hagreed)).2
  · obtain ⟨earlier, hearlier⟩ := List.getLast?_eq_some_iff.mp hlast
    rw [htaken r hr, hearlier]
    simp [hproper]
  · rw [h.size_written hs hf hcode, Message.ofFrame_size]
    split
    · next hproper => exact ⟨fun _ => hproper, fun _ => ⟨_, rfl⟩⟩
    · next himproper => exact ⟨nofun, fun hproper => absurd hproper himproper⟩

/-- The terminal is cut down to its status line and then grows again. -/
theorem window_agreed_after_growth : ∃ steps c, Course steps c ∧ c.connects .physics = true ∧
    windows steps = [⟨40, 20⟩, ⟨80, 0⟩, ⟨80, 23⟩] ∧ lastTaken .physics steps = some ⟨80, 23⟩ := by
  have h : Course _ _ := .start (c := fresh [.physics] ⟨40, 20⟩ (.cycle #[])) rfl rfl
  have h := h.next (e := .user (.resize (Screen.window 80 1))) rfl
  have h := h.next (e := .user (.resize (Screen.window 80 24))) rfl
  exact ⟨_, _, h, rfl, rfl, (window_agreed_iff_proper h rfl).1.mpr (by decide)⟩

/-- The terminal is cut down to its status line: physics refuses the window of the world and keeps the one before. -/
theorem window_disputed : ∃ steps c, Course steps c ∧ c.connects .physics = true ∧ c.world.window = ⟨80, 0⟩ ∧
    c.framesTo .physics = [(Message.size 40 20).toFrame, (Message.size 80 0).toFrame] ∧
    Message.ofFrame (Message.size 80 0).toFrame = .error (.payload "SIZE" (.badSize "80 0")) ∧
    lastTaken .physics steps = some ⟨40, 20⟩ := by
  have h : Course _ _ := .start (c := fresh [.physics] ⟨40, 20⟩ (.cycle #[])) rfl rfl
  have h := h.next (e := .user (.resize (Screen.window 80 1))) rfl
  refine ⟨_, _, h, rfl, rfl, rfl, ?_, ((informed_course h).taken .physics rfl).trans (by decide)⟩
  rw [Message.ofFrame_size]
  rfl

end Coordinator
end GridFlight
