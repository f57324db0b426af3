import GridFlight.Proofs.Coordinator.Course

/-! What physics knows of obstacles. Physics keeps one set, the last that it was sent. The coordinator sends it the
    obstacles of the world whenever they change; but when the drone of another flight reports its position, physics
    is sent the cell of that drone in their place. -/

namespace GridFlight
namespace Coordinator

/-- The drone of another flight reports where it is. -/
def Event.isRemote : Event → Bool
  | .message .relay (.position _) => true
  | _ => false

theorem Event.isRemote_iff {e : Event} : e.isRemote = true ↔ ∃ p, e = .message .relay (.position p) := by
  constructor
  · intro h
    unfold Event.isRemote at h
    split at h
    · next p => exact ⟨p, rfl⟩
    · cases h
  · rintro ⟨p, rfl⟩
    rfl

variable {w v : World} {c d : Coordinator} {e : Event} {mail : Mail} {steps : List Step}

/-! ### The news of a deed -/

/-- But for the drone of another flight, physics learns of every change of the obstacles and of nothing else. -/
theorem Deed.news_physics (h : Deed w e v mail) (hlocal : e.isRemote = false) :
    v.remote = w.remote ∧ (news .obstacles .physics e mail = some (.obstacles v.obstacles) ∨
      news .obstacles .physics e mail = none ∧ v.obstacles = w.obstacles) := by
  cases h with
  | remote => cases hlocal
  | @obstacles sender cells => exact ⟨rfl, Or.inl (news_handed_on sender (.obstacles cells) (by simp))⟩
  | relocate =>
    refine ⟨rfl, Or.inl (news_eq_some rfl (by simp) ?_)⟩
    intro n hn hkind
    simp only [heard_time, List.nil_append, Mail.mem_toEach] at hn
    exact hn.2
  | ignore hkind => exact ⟨rfl, Or.inr ⟨news_ignored hkind (by decide), rfl⟩⟩
  | start | fly | reach | force | targets | size | key | resize | wait =>
    refine ⟨rfl, Or.inr ⟨news_eq_none fun n hn => ?_, rfl⟩⟩
    grind [Message.kind]

/-- The drone of another flight is news to physics, as the only obstacle. -/
theorem Deed.news_remote {p : Vec Float32} (h : Deed w (.message .relay (.position p)) v mail) :
    v = { w with remote := some p } ∧
      news .obstacles .physics (.message .relay (.position p)) mail = some (.obstacles [.ofPosition p]) := by
  cases h with
  | remote =>
    refine ⟨rfl, news_eq_some rfl (by simp) ?_⟩
    intro n hn hkind
    grind [Message.kind]
  | fly hsender | reach hsender => exact absurd rfl hsender
  | ignore hkind => exact absurd hkind (by simp [Message.kind])

/-! ### What physics has been told -/

/-- The steps that are not reports of the drone of another flight. -/
def ownSteps (steps : List Step) : List Step := steps.filter fun s => !s.event.isRemote

/-- Physics has last been told the obstacles of the world, or since then the cell of another drone in their place. -/
structure Obstructed (steps : List Step) (c : Coordinator) : Prop where
  last : ∀ e f, latest .obstacles .physics steps = some (e, f) →
    (e.isRemote = false ∧ f = (Message.obstacles c.world.obstacles).toFrame) ∨
      ∃ p, e = .message .relay (.position p) ∧ f = (Message.obstacles [.ofPosition p]).toFrame ∧
        c.world.remote = some p
  own : Told (ownSteps steps) .physics (.obstacles c.world.obstacles) ∨
    latest .obstacles .physics (ownSteps steps) = none ∧ c.world.obstacles = []

theorem ownSteps_concat (steps : List Step) (s : Step) :
    ownSteps (steps ++ [s]) = if s.event.isRemote then ownSteps steps else ownSteps steps ++ [s] := by
  rw [ownSteps, List.filter_append, List.filter_singleton]
  cases hremote : s.event.isRemote <;> simp [ownSteps]

theorem Obstructed.next (ho : Obstructed steps c) (h : c.upon e = (.ok .more, d)) (hd : d.connects .physics = true) :
    Obstructed (steps ++ [⟨e, c, d⟩]) d := by
  obtain ⟨mail, hdeed, hsends⟩ := deed_of_upon h
  obtain ⟨hlast, hown⟩ := ho
  cases hremote : e.isRemote with
  | true =>
    obtain ⟨p, rfl⟩ := Event.isRemote_iff.mp hremote
    obtain ⟨hworld, hnews⟩ := hdeed.news_remote
    refine ⟨fun e' f hlatest => ?_, ?_⟩
    · rw [hsends.latest_some steps hd hnews] at hlatest
      cases hlatest
      exact Or.inr ⟨p, rfl, rfl, by rw [hworld]⟩
    · rw [ownSteps_concat, if_pos hremote, hworld]
      exact hown
  | false =>
    obtain ⟨hkept, hnews | ⟨hnews, hsame⟩⟩ := hdeed.news_physics hremote
    · refine ⟨fun e' f hlatest => ?_, Or.inl ?_⟩
      · rw [hsends.latest_some steps hd hnews] at hlatest
        cases hlatest
        exact Or.inl ⟨hremote, rfl⟩
      · rw [ownSteps_concat, if_neg (by simp [hremote])]
        exact hsends.told _ hd hnews
    · refine ⟨fun e' f hlatest => ?_, ?_⟩
      · rw [hsends.latest_concat _ hd hnews] at hlatest
        rw [hsame, hkept]
        exact hlast e' f hlatest
      · rw [ownSteps_concat, if_neg (by simp [hremote]), hsends.told_concat _ (.obstacles _) hd hnews,
          hsends.latest_concat _ hd hnews, hsame]
        exact hown

/-- In every course, as long as physics is connected: the last set of obstacles that it knows is the set of the world,
    unless that set was sent because of the drone of another flight; then it is the cell of that drone. Of the sets
    that were not sent for that reason, the last one is the set of the world. -/
theorem course_obstructed (h : Course steps c) (hc : c.connects .physics = true) : Obstructed steps c := by
  induction h with
  | @start c d hfresh hstart =>
    have hempty : Obstructed [] c := ⟨nofun, Or.inr ⟨rfl, by rw [hfresh]; rfl⟩⟩
    exact hempty.next hstart hc
  | aside _ haside ih =>
    rw [haside.connects] at hc
    obtain ⟨hlast, hown⟩ := ih hc
    exact ⟨by rwa [haside.world], by rwa [haside.world]⟩
  | next _ hnext ih =>
    obtain ⟨mail, -, hsends⟩ := deed_of_upon hnext
    exact (ih (hsends.connects hc)).next hnext hc

theorem obstructed_after_a_report : ∃ steps c, Course steps c ∧ c.connects .physics = true ∧
    c.world.obstacles = [⟨1, 1⟩, ⟨2, 2⟩] ∧ c.world.remote ≠ none ∧ Obstructed steps c := by
  have h : Course _ _ := .start (c := fresh [.physics, .obstacles, .relay] ⟨4, 4⟩ (.cycle #[0])) rfl rfl
  have h := h.next (e := .message .obstacles (.obstacles [⟨1, 1⟩, ⟨2, 2⟩])) rfl
  have h := h.next (e := .message .relay (.position ⟨zeroSingle, zeroSingle⟩)) rfl
  exact ⟨_, _, h, rfl, rfl, nofun, course_obstructed h rfl⟩

/-- The drone of another flight makes physics forget the obstacles. -/
theorem obstacles_forgotten : ¬ ∀ steps c, Course steps c → c.connects .physics = true →
    ∀ e f, latest .obstacles .physics steps = some (e, f) → ∀ cell ∈ c.world.obstacles, cell ∈ f.bulk := by
  intro hall
  have h : Course _ _ := .start (c := fresh [.physics, .obstacles, .relay] ⟨4, 4⟩ (.cycle #[0])) rfl rfl
  have h := h.next (e := .message .obstacles (.obstacles [⟨1, 1⟩, ⟨2, 2⟩])) rfl
  have h := h.next (e := .message .relay (.position ⟨zeroSingle, zeroSingle⟩)) rfl
  have hmem := hall _ _ h rfl _ (Message.obstacles [.ofPosition ⟨zeroSingle, zeroSingle⟩]).toFrame rfl
  have hfirst := List.mem_singleton.mp (hmem ⟨1, 1⟩ (List.mem_cons_self ..))
  have hsecond := List.mem_singleton.mp (hmem ⟨2, 2⟩ (List.mem_cons_of_mem _ (List.mem_singleton_self _)))
  exact absurd (hfirst.trans hsecond.symm) (by decide)

end Coordinator
end GridFlight
