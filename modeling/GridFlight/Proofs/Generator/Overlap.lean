import GridFlight.Proofs.Coordinator.Course
import GridFlight.Proofs.Generator.Supplier
import GridFlight.Proofs.Message.Control

/-! The coordinator with its two generators, over channels that keep the order of frames. A set of targets keeps off the
    obstacles that it answers, but it is applied later: by then single obstacles may have moved, which only physics
    is told, or another set of obstacles may have taken their place. Where targets and obstacles overlap, an obstacle
    was put since the coordinator sent the obstacles that the targets answer. -/

namespace GridFlight

open Generator (Supplier)

/-! ### The composition -/

/-- A coordinator at work, what it has done so far, and its generators. -/
structure Supplied where
  history : List Coordinator.Step
  coordinator : Coordinator
  suppliers : Role → Supplier

namespace Supplied

/-- A coordinator that has just started, and generators before their first frame. -/
def initial (c d : Coordinator) (densities : Densities) (draws : Role → Draws) (room : Role → Option Nat) :
    Supplied where
  history := [⟨.start, c, d⟩]
  coordinator := d
  suppliers r :=
    let generator := if r = .targets then .targets (.new densities (draws r)) else .obstacles (.new densities (draws r))
    .new generator (room r)

def put (f : Supplied) (r : Role) (s : Supplier) : Supplied :=
  { f with suppliers := fun r' => if r' = r then s else f.suppliers r' }

/-- The coordinator has handled an event. -/
def handled (f : Supplied) (e : Coordinator.Event) (d : Coordinator) : Supplied :=
  { f with history := f.history ++ [⟨e, f.coordinator, d⟩], coordinator := d }

/-- The next frame of a generator is this message, and the coordinator comes to `d` when it applies it. -/
def Applies (f : Supplied) (r : Role) (m : Message) (d : Coordinator) : Prop :=
  ∃ frame, (f.suppliers r).frames[(f.suppliers r).heard]? = some frame ∧ Message.ofFrame frame = .ok m ∧
    f.coordinator.upon (.message r m) = (.ok .more, d)

inductive Step (f : Supplied) : Supplied → Prop where
  | fly {p : Vec Float32} {d : Coordinator}
    (h : f.coordinator.upon (.message .physics (.position p)) = (.ok .more, d)) :
    Step f (f.handled (.message .physics (.position p)) d)
  | resize {window : Window} {d : Coordinator} (h : f.coordinator.upon (.user (.resize window)) = (.ok .more, d)) :
    Step f (f.handled (.user (.resize window)) d)
  | tick {now : Nat} {d : Coordinator} (h : f.coordinator.upon (.time now) = (.ok .more, d)) :
    Step f (f.handled (.time now) d)
  | aside {d : Coordinator} (h : f.coordinator.Aside d) : Step f { f with coordinator := d }
  | take {r : Role} {frame : Frame} (hr : r = .obstacles ∨ r = .targets)
    (h : (f.coordinator.framesTo r)[(f.suppliers r).taken]? = some frame) :
    Step f (f.put r ((f.suppliers r).take frame))
  | hear {r : Role} {m : Message} {d : Coordinator} (hr : r = .obstacles ∨ r = .targets) (h : f.Applies r m d) :
    Step f ((f.handled (.message r m) d).put r (f.suppliers r).hear)
  /-- A frame that is no message changes nothing. -/
  | ignore {r : Role} {frame : Frame} {e : Fault} (hr : r = .obstacles ∨ r = .targets)
    (h : (f.suppliers r).frames[(f.suppliers r).heard]? = some frame) (hbad : Message.ofFrame frame = .error e) :
    Step f (f.put r (f.suppliers r).hear)

inductive Reachable : Supplied → Prop where
  | initial {c d : Coordinator} {densities : Densities} {draws : Role → Draws} {room : Role → Option Nat}
    (hfresh : c.world = { World.empty with window := c.config.window })
    (hsilent : ∀ r, c.framesTo r = []) (hstart : c.upon .start = (.ok .more, d)) :
    Reachable (initial c d densities draws room)
  | step {f g : Supplied} (h : Reachable f) (hstep : f.Step g) : Reachable g

end Supplied

/-! ### Requests and obstacles -/

namespace Coordinator

/-- The frame with this number was written to a part in this step. -/
def Step.Writes (s : Step) (r : Role) (number : Nat) (f : Frame) : Prop :=
  (s.before.framesTo r).length ≤ number ∧ (s.after.framesTo r)[number]? = some f

/-- An obstacle is put on a cell: one that moves because it is time to, or one of a new set. -/
def Step.Puts (s : Step) (cell : Cell) : Prop :=
  cell ∉ s.before.world.obstacles ∧ cell ∈ s.after.world.obstacles ∧
    ((∃ now, s.event = .time now) ∨ ∃ sender cells, s.event = .message sender (.obstacles cells))

variable {w v : World} {c d : Coordinator} {e : Event} {mail : Mail} {steps : List Step}

/-- The obstacles that the target generator is sent are the obstacles afterwards. -/
theorem Deed.mail_obstacles (h : Deed w e v mail) {m : Message} (hm : m ∈ mail .targets)
    (hkind : m.kind = .obstacles) : m = .obstacles v.obstacles := by
  cases h with
  | @obstacles sender cells =>
    simp only [Mail.mem_toEach] at hm
    exact hm.2
  | @reach sender p contact draws later targets =>
    simp only [Mail.mem_both, Mail.mem_toEach] at hm
    rcases hm with ⟨-, rfl⟩ | ⟨-, rfl⟩ | hm
    · cases hkind
    · cases hkind
    · split at hm
      · exact (Mail.mem_toEach.mp hm).2
      · cases hm
  | start | fly | remote | force | targets | size | key | resize | wait | relocate | ignore => grind [Message.kind]

/-- Obstacles change only when one moves or a new set comes in. -/
theorem Deed.obstacles_eq (h : Deed w e v mail) : v.obstacles = w.obstacles ∨ (∃ now, e = .time now) ∨
    ∃ sender cells, e = .message sender (.obstacles cells) := by
  cases h with
  | obstacles => exact Or.inr (Or.inr ⟨_, _, rfl⟩)
  | relocate => exact Or.inr (Or.inl ⟨_, rfl⟩)
  | start | fly | reach | remote | force | targets | size | key | resize | wait | ignore => exact Or.inl rfl

/-- Every set of obstacles in the frames for the target generator was the set of the world when it was sent, and every
    obstacle was there at any earlier moment or was put since. -/
structure Accounted (steps : List Step) (c : Coordinator) : Prop where
  requests : ∀ number f, (c.framesTo .targets)[number]? = some f → f.code = Frame.Kind.obstacles.code →
    ∃ earlier sending later, steps = earlier ++ sending :: later ∧ sending.Writes .targets number f ∧
      f.bulk = sending.after.world.obstacles
  obstacles : ∀ earlier s later, steps = earlier ++ s :: later → ∀ cell ∈ c.world.obstacles,
    cell ∈ s.after.world.obstacles ∨ ∃ t ∈ later, t.Puts cell

theorem Accounted.aside (h : Accounted steps c) (haside : c.Aside d) : Accounted steps d := by
  obtain ⟨hrequests, hobstacles⟩ := h
  exact ⟨by rwa [haside.frames], by rwa [haside.world]⟩

/-- A new step either is the last one of a split of the history, or lies after it. -/
theorem split_concat {earlier later : List Step} {s t : Step} (h : steps ++ [t] = earlier ++ s :: later) :
    (later = [] ∧ s = t ∧ earlier = steps) ∨ ∃ rest, later = rest ++ [t] ∧ steps = earlier ++ s :: rest := by
  rcases List.eq_nil_or_concat later with rfl | ⟨rest, last, rfl⟩
  · obtain ⟨rfl, hlast⟩ := List.append_inj' h rfl
    exact Or.inl ⟨rfl, (List.singleton_inj.mp hlast).symm, rfl⟩
  · rw [List.concat_eq_append, ← List.cons_append, ← List.append_assoc] at h
    obtain ⟨rfl, hlast⟩ := List.append_inj' h rfl
    exact Or.inr ⟨rest, by rw [List.concat_eq_append, List.singleton_inj.mp hlast], rfl⟩

theorem Accounted.next (h : Accounted steps c) (hnext : c.upon e = (.ok .more, d)) :
    Accounted (steps ++ [⟨e, c, d⟩]) d := by
  obtain ⟨mail, hdeed, hsends⟩ := deed_of_upon hnext
  refine ⟨fun number f hf hcode => ?_, fun earlier s later hsplit cell hcell => ?_⟩
  · obtain ⟨sent, hsent, hframes, -⟩ := hsends .targets
    by_cases hold : number < (c.framesTo .targets).length
    · rw [hframes, List.getElem?_append_left hold] at hf
      obtain ⟨earlier, sending, later, rfl, hwrites, hbulk⟩ := h.requests number f hf hcode
      exact ⟨earlier, sending, later ++ [⟨e, c, d⟩], by simp, hwrites, hbulk⟩
    · refine ⟨steps, ⟨e, c, d⟩, [], rfl, ⟨not_lt.mp hold, hf⟩, ?_⟩
      rw [hframes, List.getElem?_append_right (not_lt.mp hold)] at hf
      obtain ⟨m, hm, rfl⟩ := List.mem_map.mp (List.mem_of_getElem? hf)
      rw [hdeed.mail_obstacles (hsent.subset hm) (code_inj.mp hcode)]
      rfl
  · rcases split_concat hsplit with ⟨rfl, rfl, rfl⟩ | ⟨rest, rfl, hrest⟩
    · exact Or.inl hcell
    · by_cases hbefore : cell ∈ c.world.obstacles
      · rcases h.obstacles earlier s rest hrest cell hbefore with hthere | ⟨t, ht, hputs⟩
        · exact Or.inl hthere
        · exact Or.inr ⟨t, List.mem_append_left _ ht, hputs⟩
      · refine Or.inr ⟨⟨e, c, d⟩, List.mem_append_right _ (List.mem_singleton_self _), hbefore, hcell, ?_⟩
        rcases hdeed.obstacles_eq with hsame | hevent
        · exact absurd (hsame ▸ hcell) hbefore
        · exact hevent

theorem accounted_start (hsilent : c.framesTo .targets = []) (hstart : c.upon .start = (.ok .more, d)) :
    Accounted [⟨.start, c, d⟩] d := by
  have hempty : Accounted [] c := by
    refine ⟨fun number f hf => ?_, fun earlier s later hsplit => ?_⟩
    · rw [hsilent] at hf
      cases hf
    · exact absurd hsplit.symm (by simp)
  exact hempty.next hstart

end Coordinator

/-! ### Overlaps -/

namespace Supplied

structure Sound (f : Supplied) : Prop where
  accounted : Coordinator.Accounted f.history f.coordinator
  careful : (f.suppliers .targets).Careful (f.coordinator.framesTo .targets)

variable {f g : Supplied} {e : Coordinator.Event} {d : Coordinator}

theorem Sound.handled (h : f.Sound) (hupon : f.coordinator.upon e = (.ok .more, d)) : (f.handled e d).Sound := by
  obtain ⟨mail, -, hsends⟩ := Coordinator.deed_of_upon hupon
  obtain ⟨sent, -, hframes, -⟩ := hsends .targets
  refine ⟨h.accounted.next hupon, ?_⟩
  have hcareful := h.careful.append (sent.map Message.toFrame)
  rw [← hframes] at hcareful
  exact hcareful

theorem Sound.put (h : f.Sound) {r : Role} {s : Supplier}
    (hs : r = .targets → s.Careful (f.coordinator.framesTo .targets)) : (f.put r s).Sound := by
  refine ⟨h.accounted, ?_⟩
  by_cases hr : Role.targets = r
  · subst hr
    simpa [Supplied.put] using hs rfl
  · simpa [Supplied.put, hr] using h.careful

theorem Sound.step (h : f.Sound) (hstep : f.Step g) : g.Sound := by
  cases hstep with
  | fly hupon | resize hupon | tick hupon => exact h.handled hupon
  | aside haside =>
    refine ⟨h.accounted.aside haside, ?_⟩
    rw [haside.frames]
    exact h.careful
  | take hr hframe =>
    refine h.put fun htargets => ?_
    subst htargets
    exact h.careful.take hframe
  | hear hr happlies =>
    obtain ⟨frame, -, -, hupon⟩ := happlies
    refine (h.handled hupon).put fun htargets => ?_
    subst htargets
    exact (h.handled hupon).careful.hear
  | ignore hr hframe hbad =>
    refine h.put fun htargets => ?_
    subst htargets
    exact h.careful.hear

theorem Reachable.sound (h : Reachable f) : f.Sound := by
  induction h with
  | initial hfresh hsilent hstart =>
    refine ⟨Coordinator.accounted_start (hsilent .targets) hstart, ?_⟩
    exact Generator.Supplier.careful_new _ _ _
  | step _ hstep ih => exact ih.step hstep

/-- When the coordinator has just applied a set of targets, this set keeps off the obstacles that the world had when the
    coordinator sent the set of obstacles that the targets answer. So where a target and an obstacle share a cell,
    the obstacle was put there after that. -/
theorem overlap_put_since_request (h : Reachable f) {cells : List Cell} (hm : f.Applies .targets (.targets cells) d) :
    ∃ number request earlier sending later,
      (f.suppliers .targets).answers[(f.suppliers .targets).heard]? = some number ∧
      f.history = earlier ++ sending :: later ∧ sending.Writes .targets number request ∧
      request.code = Frame.Kind.obstacles.code ∧ request.bulk = sending.after.world.obstacles ∧
      d.world.targets = cells ∧ (∀ cell ∈ d.world.targets, cell ∉ sending.after.world.obstacles) ∧
      ∀ cell ∈ d.world.targets, cell ∈ d.world.obstacles → ∃ t ∈ later, t.Puts cell := by
  obtain ⟨frame, hframe, hread, hupon⟩ := hm
  obtain ⟨haccounted, hcareful⟩ := h.sound
  obtain ⟨number, hanswers, hcode, request, hrequest, hkind, hoff⟩ := hcareful.reply hframe
  obtain ⟨earlier, sending, later, hsplit, hwrites, hbulk⟩ := haccounted.requests number request hrequest hkind
  obtain ⟨mail, hdeed, -⟩ := Coordinator.deed_of_upon hupon
  have hworld : d.world = { f.coordinator.world with targets := cells } := by
    generalize d.world = v at hdeed
    cases hdeed with
    | targets => rfl
    | ignore hkind => exact absurd hkind (by simp [Message.kind])
  have hcells : cells = frame.bulk := Message.cells_of_ofFrame hread rfl
  have hkeeps : ∀ cell ∈ d.world.targets, cell ∉ sending.after.world.obstacles := by
    rw [hworld, ← hbulk, hcells]
    exact hoff
  refine ⟨number, request, earlier, sending, later, hanswers, hsplit, hwrites, hkind, hbulk, by rw [hworld], hkeeps,
    fun cell hcell hobstacle => ?_⟩
  rw [hworld] at hobstacle
  rcases haccounted.obstacles earlier sending later hsplit cell hobstacle with hthere | hputs
  · exact absurd hthere (hkeeps cell hcell)
  · exact hputs

/-! ### An obstacle that moves onto a target -/

/-- A coordinator whose first obstacle to move goes to the last free cell of a small window. -/
def bench : Coordinator :=
  .fresh [.physics, .obstacles, .targets] ⟨4, 4⟩ (.cycle #[0, 0, 2147483648, 2147483648])

/-- Obstacles are scattered from the first cell on, targets from the last. -/
def benchDraws (r : Role) : Draws := .cycle (if r = .targets then #[2147483648] else #[0])

def benchObstacles : Supplier := .new (.obstacles (.new .standard (benchDraws .obstacles))) none

def benchTargets : Supplier := .new (.targets (.new .standard (benchDraws .targets))) none

theorem ofFrame_benchSize : Message.ofFrame (Message.size 4 4).toFrame = .ok (.size 4 4) := by
  rw [Message.ofFrame_toFrame _ (Frame.Payload.text?_ofText (by decide) (by decide))]
  rfl

theorem ofFrame_benchSet {m : Message} (h : m = .obstacles [⟨1, 1⟩] ∨ m = .targets [⟨2, 2⟩]) :
    Message.ofFrame m.toFrame = .ok m := by
  rcases h with rfl | rfl <;>
  · rw [Message.ofFrame_toFrame _ (Frame.Payload.text?_ofText (by decide) (by decide))]
    rfl

theorem frames_benchObstacles :
    (benchObstacles.take (Message.size 4 4).toFrame).frames = [(Message.obstacles [⟨1, 1⟩]).toFrame] := by
  have hone : Placement.population ⟨4, 4⟩ Densities.standard.obstacles = 1 := by decide +kernel
  have hcell : (Placement.randomCell ⟨4, 4⟩ (benchDraws .obstacles)).1 = some ⟨1, 1⟩ := by decide +kernel
  have hscatter := Placement.scatter_one hcell List.not_mem_nil
  rw [← hone] at hscatter
  have hreply : (benchObstacles.loop.generator.handle (.size 4 4)).1 = .send (.obstacles [⟨1, 1⟩]) :=
    congrArg (fun cells => Reply.send (.obstacles cells)) hscatter
  exact Supplier.frames_take_send ofFrame_benchSize hreply rfl rfl

theorem frames_benchTargets :
    ((benchTargets.take (Message.size 4 4).toFrame).take (Message.obstacles [⟨1, 1⟩]).toFrame).frames =
      [(Message.targets [⟨2, 2⟩]).toFrame] := by
  have hone : Placement.population ⟨4, 4⟩ Densities.standard.targets = 1 := by decide +kernel
  have hcell : (Placement.randomCell ⟨4, 4⟩ (benchDraws .targets)).1 = some ⟨2, 2⟩ := by decide +kernel
  have hfree : (⟨2, 2⟩ : Cell) ∉ [⟨1, 1⟩] := by decide
  have hscatter := Placement.scatter_one hcell hfree
  rw [← hone] at hscatter
  have hloop : (benchTargets.take (Message.size 4 4).toFrame).loop =
      { benchTargets.loop with generator := (benchTargets.loop.generator.handle (.size 4 4)).2 } :=
    Supplier.loop_take_silent ofFrame_benchSize rfl rfl
  have hreply : ((benchTargets.take (Message.size 4 4).toFrame).loop.generator.handle (.obstacles [⟨1, 1⟩])).1 =
      .send (.targets [⟨2, 2⟩]) := by
    rw [hloop]
    exact congrArg (fun cells => Reply.send (.targets cells)) hscatter
  rw [Supplier.frames_take_send (ofFrame_benchSet (Or.inl rfl)) hreply (by rw [hloop]; rfl) (by rw [hloop]; rfl),
    Supplier.frames, hloop]
  rfl

/-- The targets answer obstacles at `(1, 1)`, but the obstacle moves before they are heard. -/
theorem exists_overlap : ∃ f d, Reachable f ∧ f.Applies .targets (.targets [⟨2, 2⟩]) d ∧
    d.world.targets = [⟨2, 2⟩] ∧ d.world.obstacles = [⟨2, 2⟩] := by
  have h : Reachable (initial bench _ .standard benchDraws fun _ => none) :=
    .initial rfl (fun r => by cases r <;> rfl) rfl
  have h := h.step (.take (r := .obstacles) (Or.inl rfl) (rfl : _ = some (Message.size 4 4).toFrame))
  have h := h.step (.take (r := .targets) (Or.inr rfl) (rfl : _ = some (Message.size 4 4).toFrame))
  have hfirst := ofFrame_benchSet (Or.inl rfl)
  have h := h.step (.hear (r := .obstacles) (Or.inl rfl) ⟨_, congrArg (·[0]?) frames_benchObstacles, hfirst, rfl⟩)
  have h := h.step (.take (r := .targets) (Or.inr rfl) (rfl : _ = some (Message.obstacles [⟨1, 1⟩]).toFrame))
  have h := h.step (.tick (rfl : Coordinator.upon (.time 5000) _ = (.ok .more, _)))
  have hsecond := ofFrame_benchSet (Or.inr rfl)
  exact ⟨_, _, h, ⟨_, congrArg (·[0]?) frames_benchTargets, hsecond, rfl⟩, rfl, rfl⟩

theorem overlap_put_since_first_request : ∃ f d, Reachable f ∧ f.Applies .targets (.targets [⟨2, 2⟩]) d ∧
    ∃ sending ∈ f.history, ⟨2, 2⟩ ∉ sending.after.world.obstacles ∧ ∃ t ∈ f.history, t.Puts ⟨2, 2⟩ := by
  obtain ⟨f, d, h, hm, htargets, hobstacles⟩ := exists_overlap
  obtain ⟨number, request, earlier, sending, later, -, hsplit, -, -, -, -, hoff, hputs⟩ :=
    overlap_put_since_request h hm
  have hcell : (⟨2, 2⟩ : Cell) ∈ d.world.targets := htargets ▸ List.mem_singleton_self _
  obtain ⟨t, ht, hput⟩ := hputs ⟨2, 2⟩ hcell (hobstacles ▸ List.mem_singleton_self _)
  refine ⟨f, d, h, hm, sending, ?_, hoff ⟨2, 2⟩ hcell, t, ?_, hput⟩
  · simp [hsplit]
  · simp [hsplit, ht]

/-- Targets and obstacles can share a cell. -/
theorem overlap_reachable : ¬ ∀ f d cells, Reachable f → f.Applies .targets (.targets cells) d →
    ∀ cell ∈ d.world.targets, cell ∉ d.world.obstacles := by
  intro hall
  obtain ⟨f, d, h, hm, htargets, hobstacles⟩ := exists_overlap
  have hcell : (⟨2, 2⟩ : Cell) ∈ d.world.targets := htargets ▸ List.mem_singleton_self _
  exact hall f d _ h hm ⟨2, 2⟩ hcell (hobstacles ▸ List.mem_singleton_self _)

end Supplied
end GridFlight
