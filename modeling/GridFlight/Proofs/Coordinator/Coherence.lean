import GridFlight.Proofs.Coordinator.Course

/-! What the parts know of the world. A set of targets, a window or a set of obstacles that the coordinator takes over
    has come from a part or goes out to it, so the last one exchanged with each part is the one in the world. Only
    the part that scatters the targets is not told of obstacles that move one by one. -/

namespace GridFlight
namespace Coordinator

/-! ### The news of a deed -/

variable {w v : World} {c d : Coordinator} {e : Event} {mail : Mail} {r : Role} {kind : Frame.Kind} {m : Message}
  {steps : List Step}

/-- Physics and the part that scatters obstacles learn of every change of the targets. -/
theorem Deed.news_targets (h : Deed w e v mail) (hr : r = .physics ∨ r = .obstacles) :
    news .targets r e mail = some (.targets v.targets) ∨ news .targets r e mail = none ∧ v.targets = w.targets := by
  cases h with
  | @targets sender cells => exact Or.inl (news_handed_on sender (.targets cells) (by simpa using hr))
  | reach =>
    refine Or.inl (news_eq_some rfl ?_ ?_)
    · rcases hr with rfl | rfl <;> simp
    · intro n hn hkind
      grind [Message.kind]
  | start | fly | remote | force | obstacles | size | key | resize | wait | relocate =>
    refine Or.inr ⟨news_eq_none fun n hn => ?_, rfl⟩
    grind [Message.kind]
  | ignore hkind => exact Or.inr ⟨news_ignored hkind (by decide), rfl⟩

/-- A part hears or says nothing about the window, or one thing: what the window is now. -/
theorem Deed.sizes (h : Deed w e v mail) (r : Role) :
    (e.heard r ++ mail r).filter (fun m => m.kind = .size) = [.size v.window.width v.window.height] ∨
      (e.heard r ++ mail r).filter (fun m => m.kind = .size) = [] ∧ v.window = w.window ∧ e ≠ .start := by
  cases h with
  | start | resize => exact Or.inl rfl
  | @size sender width height =>
    refine Or.inl ?_
    by_cases hsender : sender = r
    · simp [Event.heard, Mail.toAllBut, hsender, Message.kind]
    · simp [Event.heard, Mail.toAllBut, hsender, Ne.symm hsender, Message.kind]
  | fly | reach | remote | force | obstacles | targets | key | wait | relocate =>
    refine Or.inr ⟨List.filter_eq_nil_iff.mpr fun n hn => ?_, rfl, by simp⟩
    grind [Message.kind]
  | @ignore sender m hkind =>
    refine Or.inr ⟨List.filter_eq_nil_iff.mpr fun n hn hsize => ?_, rfl, by simp⟩
    obtain ⟨-, rfl⟩ : sender = r ∧ n = m := by simpa using hn
    rw [of_decide_eq_true hsize] at hkind
    exact absurd hkind (by decide)

/-- Every part learns of every change of the window. -/
theorem Deed.news_size (h : Deed w e v mail) (r : Role) :
    news .size r e mail = some (.size v.window.width v.window.height) ∨
      news .size r e mail = none ∧ v.window = w.window ∧ e ≠ .start := by
  unfold news
  rcases h.sizes r with hsome | ⟨hnone, hsame⟩
  · exact Or.inl (by rw [hsome]; rfl)
  · exact Or.inr ⟨by rw [hnone]; rfl, hsame⟩

/-- The part that scatters targets learns of every change of the obstacles but the moves of single ones. -/
theorem Deed.news_obstacles (h : Deed w e v mail) :
    news .obstacles .targets e mail = some (.obstacles v.obstacles) ∨
      news .obstacles .targets e mail = none ∧ (v.obstacles = w.obstacles ∨
        ∃ now index cell, e = .time now ∧ index < w.obstacles.length ∧ v.obstacles = w.obstacles.set index cell) := by
  cases h with
  | @obstacles sender cells => exact Or.inl (news_handed_on sender (.obstacles cells) (by simp))
  | @reach sender p contact draws later targets reached =>
    by_cases hempty : targets.isEmpty = true
    · rw [if_pos hempty]
      refine Or.inl (news_eq_some rfl (by simp) ?_)
      intro n hn hkind
      simp only [List.mem_append, mem_heard_message, Mail.mem_both, Mail.mem_toEach] at hn
      rcases hn with ⟨-, rfl⟩ | ⟨-, rfl⟩ | ⟨-, rfl⟩ | ⟨-, rfl⟩
      · cases hkind
      · cases hkind
      · cases hkind
      · rfl
    · rw [if_neg hempty]
      refine Or.inr ⟨news_eq_none fun n hn hkind => ?_, Or.inl rfl⟩
      simp only [List.mem_append, mem_heard_message, Mail.mem_both, Mail.mem_toEach, Mail.mem_none, or_false] at hn
      rcases hn with ⟨-, rfl⟩ | ⟨-, rfl⟩ | ⟨-, rfl⟩ <;> cases hkind
  | @relocate now index cell hindex =>
    refine Or.inr ⟨news_eq_none fun n hn => ?_, Or.inr ⟨now, index, cell, rfl, hindex, rfl⟩⟩
    grind [Message.kind]
  | start | fly | remote | force | targets | size | key | resize | wait =>
    refine Or.inr ⟨news_eq_none fun n hn => ?_, Or.inl rfl⟩
    grind [Message.kind]
  | ignore hkind => exact Or.inr ⟨news_ignored hkind (by decide), Or.inl rfl⟩

/-! ### What the parts have been told -/

/-- The step moves the obstacle with this index because it is time to. -/
def Step.Moves (s : Step) (index : Nat) : Prop :=
  (∃ now, s.event = .time now) ∧ s.before.world.obstacles[index]? ≠ s.after.world.obstacles[index]?

/-- What the parts have been told is what the world is. -/
structure Coherent (steps : List Step) (c : Coordinator) : Prop where
  targets : ∀ r, r = .physics ∨ r = .obstacles → c.connects r = true →
    Told steps r (.targets c.world.targets) ∨ latest .targets r steps = none ∧ c.world.targets = []
  size : ∀ r, c.connects r = true → Told steps r (.size c.world.window.width c.world.window.height)
  /-- The set that was told differs from the one in the world only where obstacles have moved since. -/
  obstacles : c.connects .targets = true →
    (∃ cells, Told steps .targets (.obstacles cells) ∧ cells.length = c.world.obstacles.length ∧
      ∀ index, cells[index]? ≠ c.world.obstacles[index]? →
        ∃ s ∈ since .obstacles .targets steps, s.Moves index) ∨
    latest .obstacles .targets steps = none ∧ c.world.obstacles = []

theorem Aside.coherent (h : c.Aside d) (hc : Coherent steps c) : Coherent steps d where
  targets r hr hd := by
    rw [h.connects] at hd
    rw [h.world]
    exact hc.targets r hr hd
  size r hd := by
    rw [h.connects] at hd
    rw [h.world]
    exact hc.size r hd
  obstacles hd := by
    rw [h.connects] at hd
    rw [h.world]
    exact hc.obstacles hd

theorem Deed.of_start (h : Deed w .start v mail) :
    v = w ∧ mail = .toAllBut none (.size w.window.width w.window.height) := by
  cases h
  exact ⟨rfl, rfl⟩

/-- At the start the parts are told the window; there is nothing else to know. -/
theorem coherent_start (hfresh : c.world = { World.empty with window := c.config.window })
    (h : c.upon .start = (.ok .more, d)) : Coherent [⟨.start, c, d⟩] d := by
  obtain ⟨mail, hdeed, hsends⟩ := deed_of_upon h
  obtain ⟨hworld, hmail⟩ := hdeed.of_start
  have hempty : d.world.targets = [] ∧ d.world.obstacles = [] := by
    rw [hworld, hfresh]
    exact ⟨rfl, rfl⟩
  have hquiet : ∀ kind, kind ≠ .size → ∀ r, d.connects r = true → latest kind r [⟨.start, c, d⟩] = none := by
    intro kind hkind r hr
    refine (hsends.latest_concat [] hr (news_eq_none fun m hm => ?_)).trans rfl
    simp only [hmail, heard_start, List.nil_append, Mail.mem_toAllBut] at hm
    rw [hm.2]
    exact hkind.symm
  refine ⟨fun r _ hr => Or.inr ⟨hquiet .targets (by decide) r hr, hempty.1⟩, fun r hr => ?_,
    fun hr => Or.inr ⟨hquiet .obstacles (by decide) .targets hr, hempty.2⟩⟩
  rcases hdeed.news_size r with hnews | ⟨-, -, hstart⟩
  · exact hsends.told [] hr hnews
  · exact absurd rfl hstart

/-- The parts stay informed, whatever happens. -/
theorem Coherent.next (hc : Coherent steps c) (h : c.upon e = (.ok .more, d)) :
    Coherent (steps ++ [⟨e, c, d⟩]) d := by
  obtain ⟨mail, hdeed, hsends⟩ := deed_of_upon h
  refine ⟨fun r hr hd => ?_, fun r hd => ?_, fun hd => ?_⟩
  · rcases hdeed.news_targets hr with hnews | ⟨hnews, hsame⟩
    · exact Or.inl (hsends.told steps hd hnews)
    · rw [hsame, hsends.told_concat steps (.targets _) hd hnews, hsends.latest_concat steps hd hnews]
      exact hc.targets r hr (hsends.connects hd)
  · rcases hdeed.news_size r with hnews | ⟨hnews, hsame, -⟩
    · exact hsends.told steps hd hnews
    · rw [hsame, hsends.told_concat steps (.size _ _) hd hnews]
      exact hc.size r (hsends.connects hd)
  · rcases hdeed.news_obstacles with hnews | ⟨hnews, hsame⟩
    · exact Or.inl ⟨d.world.obstacles, hsends.told steps hd hnews, rfl, fun _ hne => absurd rfl hne⟩
    · have hlatest := hsends.latest_concat steps hd hnews
      have hsince := hsends.since_concat steps hd hnews
      rcases hc.obstacles (hsends.connects hd) with ⟨cells, htold, hlength, hmoved⟩ | ⟨hnone, hempty⟩
      · refine Or.inl ⟨cells, ?_, ?_, fun index hne => ?_⟩
        · exact (hsends.told_concat steps (.obstacles cells) hd hnews).mpr htold
        · rcases hsame with hsame | ⟨now, index, cell, -, -, hset⟩
          · rw [hsame, hlength]
          · rw [hset, List.length_set, hlength]
        · rw [hsince]
          -- The index is off because it was before, or because this step moves its obstacle.
          by_cases hbefore : cells[index]? = c.world.obstacles[index]?
          · refine ⟨⟨e, c, d⟩, List.mem_append_right _ (List.mem_singleton_self _), ?_, hbefore ▸ hne⟩
            rcases hsame with hsame | ⟨now, -, -, htime, -, -⟩
            · exact absurd (hsame ▸ hbefore) hne
            · exact ⟨now, htime⟩
          · obtain ⟨s, hs, hmoves⟩ := hmoved index hbefore
            exact ⟨s, List.mem_append_left _ hs, hmoves⟩
      · refine Or.inr ⟨hlatest.trans hnone, ?_⟩
        rcases hsame with hsame | ⟨now, index, cell, -, hindex, -⟩
        · rw [hsame, hempty]
        · rw [hempty] at hindex
          exact absurd hindex (Nat.not_lt_zero index)

/-- In every course, each part that is still connected has last been told the state of the world that concerns it. -/
theorem course_coherent (h : Course steps c) : Coherent steps c := by
  induction h with
  | start hfresh hstart => exact coherent_start hfresh hstart
  | aside _ haside ih => exact haside.coherent ih
  | next _ hnext ih => exact ih.next hnext

/-- The first of two obstacles has moved since the set was told. -/
theorem coherent_after_a_move : ∃ steps c, Course steps c ∧ c.connects .targets = true ∧
    Told steps .targets (.obstacles [⟨1, 1⟩, ⟨2, 2⟩]) ∧ c.world.obstacles = [⟨1, 2⟩, ⟨2, 2⟩] ∧ Coherent steps c := by
  have h : Course _ _ :=
    .start (c := fresh [.physics, .obstacles, .targets] ⟨4, 4⟩ (.cycle #[0, 0, 0, 2147483648])) rfl rfl
  have h := h.next (e := .message .obstacles (.obstacles [⟨1, 1⟩, ⟨2, 2⟩])) rfl
  have h := h.next (e := .time 5000) rfl
  exact ⟨_, _, h, rfl, rfl, rfl, course_coherent h⟩

end Coordinator
end GridFlight
