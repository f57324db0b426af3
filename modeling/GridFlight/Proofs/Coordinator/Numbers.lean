import GridFlight.Proofs.Coordinator.Updates
import GridFlight.Proofs.Coordinator.Windows
import GridFlight.Proofs.World.Numbering

/-! The targets between two sets of them. Until a part brings a new set, the drone takes the targets away one by one, by
    their numbers. A target that it touches too early moves and keeps its number. The parts that have to know hear of
    every change, and the last change makes the coordinator ask for the next set. -/

namespace GridFlight
namespace Coordinator

variable {c d : Coordinator} {e : Event} {mail : Mail} {r : Role} {kind : Frame.Kind} {ms : List Message}
  {w v : World} {steps : List Step} {s : Step} {p : Vec Float32} {flow : Flow} {n : UInt32}

/-! ### Stretches -/

/-- The event brings a new set of targets. -/
def Event.replaces : Event → Bool
  | .message _ (.targets _) => true
  | _ => false

/-- The events from one state to another, none of which brings a new set of targets. An event that ends the work, because
    the world cannot be drawn or the user quits, ends every stretch before it. -/
inductive Stretch (c : Coordinator) : List Step → Coordinator → Prop where
  | here : Stretch c [] c
  | aside {steps : List Step} {d d' : Coordinator} (hstretch : Stretch c steps d) (haside : d.Aside d') :
    Stretch c steps d'
  | next {steps : List Step} {e : Event} {d d' : Coordinator} (hstretch : Stretch c steps d)
    (hkeeps : e.replaces = false) (hnext : d.upon e = (.ok .more, d')) : Stretch c (steps ++ [⟨e, d, d'⟩]) d'

/-- A message other than EXIT does not end the work, as long as the display refuses nothing. -/
theorem goes_on {m : Message} (h : ∀ s n, c.display.refusal s n = none) (sender : Role) (hm : m ≠ .exit) :
    c.upon (.message sender m) = (.ok .more, (c.apply sender m).2) ∧
      ∀ s n, (c.apply sender m).2.display.refusal s n = none := by
  have hsmooth := smooth_apply hm sender c
  refine ⟨Prod.ext (hsmooth.more h) rfl, ?_⟩
  rw [hsmooth.kept.refusal]
  exact h

/-- Any positions from any parts make a stretch, as long as the display refuses nothing. -/
theorem exists_stretch_of_positions (h : ∀ s n, c.display.refusal s n = none) (reports : List (Role × Vec Float32)) :
    ∃ steps d, Stretch c steps d ∧
      steps.map Step.event = reports.map fun report => .message report.1 (.position report.2) := by
  suffices hstretch : ∃ steps d, Stretch c steps d ∧ (∀ s n, d.display.refusal s n = none) ∧
      steps.map Step.event = reports.map fun report => .message report.1 (.position report.2) by
    obtain ⟨steps, d, hstretch, -, hevents⟩ := hstretch
    exact ⟨steps, d, hstretch, hevents⟩
  induction reports using List.reverseRecOn with
  | nil => exact ⟨[], c, .here, h, rfl⟩
  | append_singleton reports report ih =>
    obtain ⟨steps, d, hstretch, hrefusal, hevents⟩ := ih
    obtain ⟨hupon, hlater⟩ := goes_on hrefusal report.1 (m := .position report.2) nofun
    refine ⟨_, _, hstretch.next rfl hupon, hlater, ?_⟩
    rw [List.map_append, List.map_append, hevents]
    rfl

/-- What a course has done since some state, without a new set of targets, is a stretch. -/
theorem Course.exists_stretch {earlier later : List Step} (h : Course (earlier ++ later) d) (hearlier : earlier ≠ [])
    (hkeeps : ∀ s ∈ later, s.event.replaces = false) : ∃ c, Course earlier c ∧ Stretch c later d := by
  generalize hsteps : earlier ++ later = steps at h
  induction h generalizing later with
  | start hfresh hstart =>
    rcases List.append_eq_singleton_iff.mp hsteps with ⟨hnil, -⟩ | ⟨rfl, rfl⟩
    · exact absurd hnil hearlier
    · exact ⟨_, .start hfresh hstart, .here⟩
  | aside _ haside ih =>
    obtain ⟨c, hcourse, hstretch⟩ := ih hkeeps hsteps
    exact ⟨c, hcourse, hstretch.aside haside⟩
  | next hcourse hnext ih =>
    rcases later.eq_nil_or_concat' with rfl | ⟨later, s, rfl⟩
    · obtain rfl : earlier = _ := (List.append_nil earlier).symm.trans hsteps
      exact ⟨_, hcourse.next hnext, .here⟩
    · rw [← List.append_assoc] at hsteps
      obtain ⟨hfront, hlast⟩ := List.append_inj' hsteps rfl
      obtain rfl := (List.cons.inj hlast).1
      rw [List.forall_mem_append, List.forall_mem_singleton] at hkeeps
      obtain ⟨c, hstart, hstretch⟩ := ih hkeeps.1 hfront
      exact ⟨c, hstart, hstretch.next hkeeps.2 hnext⟩

/-! ### Contacts -/

/-- The contact that an event leads to. -/
def contact (e : Event) (c : Coordinator) : Option Contact :=
  match e with
  | .message sender (.position p) =>
    if sender = .relay then none else ({ c.world with drone := p }.resolveContact c.draws).1
  | _ => none

def Step.contact (s : Step) : Option Contact := s.before.contact s.event

theorem world_of_flight {sender : Role} (hsender : sender ≠ .relay)
    (h : c.upon (.message sender (.position p)) = (.ok flow, d)) :
    d.world = ({ c.world with drone := p }.resolveContact c.draws).2.1 := by
  rw [world_upon h, tasks_of_flight hsender]
  exact worldAfter_touching { c.world with drone := p } c.draws

/-- Without a new set the targets are what they were, unless the drone has moved. -/
theorem Deed.targets_kept (h : Deed w e v mail) (hkeeps : e.replaces = false) :
    v.targets = w.targets ∧ v.reached = w.reached ∨ ∃ sender p, sender ≠ .relay ∧ e = .message sender (.position p) := by
  cases h with
  | fly hsender | reach hsender => exact Or.inr ⟨_, _, hsender, rfl⟩
  | targets => cases hkeeps
  | start | remote | force | obstacles | size | ignore | key | resize | wait | relocate => exact Or.inl ⟨rfl, rfl⟩

theorem contact_eq_none (h : ¬∃ sender p, sender ≠ .relay ∧ e = .message sender (.position p)) :
    c.contact e = none := by
  unfold contact
  split
  · next sender p =>
    refine if_pos ?_
    by_contra hsender
    exact h ⟨sender, p, hsender, rfl⟩
  · rfl

/-- The targets keep their numbers, whatever happens. -/
theorem keepsNumbers_of_upon (h : c.upon e = (.ok .more, d)) (hkeeps : e.replaces = false) :
    c.world.KeepsNumbers (c.contact e) d.world := by
  by_cases hflies : ∃ sender p, sender ≠ .relay ∧ e = .message sender (.position p)
  · obtain ⟨sender, p, hsender, rfl⟩ := hflies
    have hcontact : c.contact (.message sender (.position p)) =
        ({ c.world with drone := p }.resolveContact c.draws).1 := if_neg hsender
    have hmeets := ({ c.world with drone := p }.meets c.draws).keepsNumbers
    rw [hcontact, world_of_flight hsender h]
    exact ⟨hmeets.count, hmeets.reached, hmeets.touched, hmeets.entries, hmeets.changed⟩
  · obtain ⟨mail, hdeed, -⟩ := deed_of_upon h
    obtain ⟨htargets, hreached⟩ := (hdeed.targets_kept hkeeps).resolve_right hflies
    rw [contact_eq_none hflies]
    exact World.keepsNumbers_of_eq htargets hreached

/-! ### Announcements -/

/-- The frames of a kind written to a part are those of some messages, or some of them if its link broke meanwhile. -/
def Step.Delivers (s : Step) (kind : Frame.Kind) (r : Role) (ms : List Message) : Prop :=
  ((s.written r).filter fun f => f.code = kind.code).Sublist (ms.map Message.toFrame) ∧
    (s.after.connects r = true → (s.written r).filter (fun f => f.code = kind.code) = ms.map Message.toFrame)

theorem Sends.delivers (h : c.Sends d mail) (hmail : (mail r).filter (fun m => m.kind = kind) = ms) :
    Step.Delivers ⟨e, c, d⟩ kind r ms := by
  obtain ⟨sent, hsent, hframes, hstands⟩ := h r
  have hwritten : Step.written r ⟨e, c, d⟩ = sent.map Message.toFrame := by
    rw [Step.written, hframes, List.drop_left]
  rw [Step.Delivers, hwritten, filter_toFrame, ← hmail]
  exact ⟨(hsent.filter _).map _, fun hr => by rw [(hstands hr).2]⟩

theorem Mail.filter_toEach (roles : List Role) (m : Message) (kind : Frame.Kind) (r : Role) :
    (toEach roles m r).filter (fun m => m.kind = kind) = if r ∈ roles ∧ m.kind = kind then [m] else [] := by
  by_cases hr : r ∈ roles <;> simp [toEach, hr, List.filter_singleton]

/-- Physics and the part that scatters obstacles are told the targets exactly when these change. -/
theorem Deed.tells_targets (h : Deed w e v mail) (hkeeps : e.replaces = false) (r : Role) :
    (mail r).filter (fun m => m.kind = .targets) =
      if (r = .physics ∨ r = .obstacles) ∧ v.targets ≠ w.targets then [.targets v.targets] else [] := by
  cases h with
  | @reach sender p contact draws later targets reached hsender hcontact hmoves =>
    have hchanged : targets ≠ w.targets := ((World.meets_of_resolveContact hcontact).targets_ne hmoves).2
    have hrequest : ((if targets.isEmpty then Mail.toEach [.targets] (.obstacles w.obstacles) else .none) r).filter
        (fun m => m.kind = .targets) = [] := by
      split
      · exact (Mail.filter_toEach ..).trans (if_neg (by simp [Message.kind]))
      · rfl
    rw [Mail.both, Mail.both, List.filter_append, List.filter_append, hrequest, Mail.filter_toEach, Mail.filter_toEach]
    simp [Message.kind, hchanged]
  | targets => cases hkeeps
  | start | fly | remote | force | obstacles | size | ignore | key | resize | wait | relocate =>
    rw [if_neg fun hchanged => hchanged.2 rfl, List.filter_eq_nil_iff]
    intro m hm
    grind [Message.kind]

/-- The part that scatters targets is asked for new ones exactly when the last one is gone. -/
theorem Deed.asks_for_targets (h : Deed w e v mail) (hkeeps : e.replaces = false)
    (hown : ∀ sender cells, e ≠ .message sender (.obstacles cells)) :
    (mail .targets).filter (fun m => m.kind = .obstacles) =
      if w.targets ≠ [] ∧ v.targets = [] then [.obstacles v.obstacles] else [] := by
  cases h with
  | @reach sender p contact draws later targets reached hsender hcontact hmoves =>
    have hbefore : w.targets ≠ [] := ((World.meets_of_resolveContact hcontact).targets_ne hmoves).1
    by_cases hempty : targets = []
    · simp [Mail.both, Mail.toEach, Message.kind, hbefore, hempty]
    · simp [Mail.both, Mail.toEach, Mail.none, Message.kind, hempty]
  | obstacles => exact absurd rfl (hown _ _)
  | targets => cases hkeeps
  | start | fly | remote | force | size | ignore | key | resize | wait | relocate =>
    rw [if_neg fun hempty => hempty.1 hempty.2, List.filter_eq_nil_iff]
    intro m hm
    grind [Message.kind]

/-! ### Runs -/

/-- The numbers of the targets that the drone reaches in a step. -/
def Step.reached (s : Step) : List UInt32 := s.before.world.cleared s.contact

/-- Where the contact of a step leaves the target with this number. -/
def Step.placed (n : UInt32) (s : Step) : Option Cell :=
  s.contact.bind fun k => if s.before.world.number k.index = n then k.place else none

theorem Stretch.upon_of_mem (h : Stretch c steps d) (hs : s ∈ steps) :
    s.event.replaces = false ∧ s.before.upon s.event = (.ok .more, s.after) := by
  induction h with
  | here => cases hs
  | aside _ _ ih => exact ih hs
  | next _ hkeeps hnext ih =>
    rcases List.mem_append.mp hs with hearlier | hlast
    · exact ih hearlier
    · obtain rfl := List.mem_singleton.mp hlast
      exact ⟨hkeeps, hnext⟩

theorem Stretch.keepsNumbers (h : Stretch c steps d) (hs : s ∈ steps) :
    s.before.world.KeepsNumbers s.contact s.after.world :=
  have ⟨hkeeps, hupon⟩ := h.upon_of_mem hs
  keepsNumbers_of_upon hupon hkeeps

/-- What each step keeps of a world is kept over the whole stretch. -/
theorem Stretch.kept_over {α : Type} (f : World → α) (h : Stretch c steps d)
    (hstep : ∀ s ∈ steps, f s.before.world = f c.world → f s.after.world = f c.world) :
    f d.world = f c.world ∧ ∀ s ∈ steps, f s.after.world = f c.world := by
  induction h with
  | here => exact ⟨rfl, List.forall_mem_nil _⟩
  | aside _ haside ih => rw [haside.world]; exact ih hstep
  | next _ hkeeps hnext ih =>
    rw [List.forall_mem_append, List.forall_mem_singleton] at hstep ⊢
    obtain ⟨hbefore, hearlier⟩ := ih hstep.1
    have hafter := hstep.2 hbefore
    exact ⟨hafter, hearlier, hafter⟩

/-- The numbers at first are those of the targets that the drone reaches, in their order, and of those that are left. -/
theorem Stretch.numbers (h : Stretch c steps d) :
    c.world.numbers = steps.flatMap Step.reached ++ d.world.numbers := by
  induction h with
  | here => rfl
  | aside _ haside ih => rwa [haside.world]
  | next _ hkeeps hnext ih =>
    rw [ih, List.flatMap_append, List.flatMap_singleton, List.append_assoc,
      (keepsNumbers_of_upon hnext hkeeps).numbers_eq]
    rfl

/-- Without a wrap-around the targets are reached one after the other. -/
theorem Stretch.reached (h : Stretch c steps d) (hsize : c.world.total < UInt32.size)
    (htotal : d.world.total = c.world.total) :
    ∃ k, (steps.flatMap Step.reached).map UInt32.toNat = List.range' (c.world.reached.toNat + 1) k ∧
      d.world.reached.toNat = c.world.reached.toNat + k := by
  have hnumbers := congrArg (List.map UInt32.toNat) h.numbers
  have hlength : c.world.targets.length = (steps.flatMap Step.reached).length + d.world.targets.length := by
    simpa using congrArg List.length h.numbers
  have hcount : d.world.reached.toNat = c.world.reached.toNat + (steps.flatMap Step.reached).length := by
    unfold World.total at htotal
    omega
  rw [List.map_append, World.map_toNat_numbers hsize, World.map_toNat_numbers (htotal ▸ hsize), hlength,
    ← List.range'_append_1] at hnumbers
  exact ⟨_, (List.append_inj_left' hnumbers (by simp)).symm, hcount⟩

/-- A target that is left is where the last contact with it has left it. -/
theorem Stretch.numbered (h : Stretch c steps d) (hsize : c.world.total < UInt32.size) (hn : n ∈ d.world.numbers) :
    d.world.numbered n = (steps.filterMap (Step.placed n)).getLast?.or (c.world.numbered n) := by
  induction h with
  | here => rfl
  | aside _ haside ih =>
    rw [haside.world] at hn ⊢
    exact ih hn
  | @next steps e d d' hstretch hkeeps hnext ih =>
    have hstep := keepsNumbers_of_upon hnext hkeeps
    have hbefore : n ∈ d.world.numbers := by
      rw [hstep.numbers_eq]
      exact List.mem_append_right _ hn
    have hnodup : d.world.numbers.Nodup := by
      have hall := World.nodup_numbers hsize
      rw [hstretch.numbers] at hall
      exact (List.nodup_append.mp hall).2.1
    have hplaced : d'.world.numbered n = (Step.placed n ⟨e, d, d'⟩).or (d.world.numbered n) :=
      hstep.numbered_eq hnodup hn
    rw [hplaced, ih hbefore, List.filterMap_append, List.getLast?_append]
    cases hlast : Step.placed n ⟨e, d, d'⟩ with
    | none => simp [hlast]
    | some cell => simp [hlast]

/-- As long as no part brings a new set of targets, the drone reaches them in the order of their numbers, and a contact
    with a later one changes the cell of its number alone. Physics and the part that scatters obstacles are told the
    targets exactly when these change, and new ones are asked for exactly when the last one is gone. All of this holds
    for numbers that wrap around; where they do not, they are consecutive and increasing, and each number that is left
    has the cell where the last contact left it. -/
theorem targets_reached_in_order (h : Stretch c steps d) :
    c.world.numbers = steps.flatMap Step.reached ++ d.world.numbers ∧
      (d.world.count = c.world.count ∧ ∀ s ∈ steps, s.after.world.count = c.world.count) ∧
      (∀ s ∈ steps, s.before.world.KeepsNumbers s.contact s.after.world) ∧
      (∀ s ∈ steps, ∀ r, s.Delivers .targets r
        (if (r = .physics ∨ r = .obstacles) ∧ s.after.world.targets ≠ s.before.world.targets then
          [.targets s.after.world.targets] else [])) ∧
      (∀ s ∈ steps, (∀ sender cells, s.event ≠ .message sender (.obstacles cells)) →
        s.Delivers .obstacles .targets
          (if s.before.world.targets ≠ [] ∧ s.after.world.targets = [] then
            [.obstacles s.after.world.obstacles] else [])) ∧
      (c.world.total < UInt32.size →
        (∃ k, (steps.flatMap Step.reached).map UInt32.toNat = List.range' (c.world.reached.toNat + 1) k ∧
          d.world.reached.toNat = c.world.reached.toNat + k) ∧
        (d.world.total = c.world.total ∧ ∀ s ∈ steps, s.after.world.total = c.world.total) ∧
        ∀ n ∈ d.world.numbers,
          d.world.numbered n = (steps.filterMap (Step.placed n)).getLast?.or (c.world.numbered n)) := by
  refine ⟨h.numbers, h.kept_over World.count fun s hs => (h.keepsNumbers hs).count.trans,
    fun s hs => h.keepsNumbers hs, fun s hs r => ?_, fun s hs hown => ?_, fun hsize => ?_⟩
  · obtain ⟨hkeeps, hupon⟩ := h.upon_of_mem hs
    obtain ⟨mail, hdeed, hsends⟩ := deed_of_upon hupon
    exact hsends.delivers (hdeed.tells_targets hkeeps r)
  · obtain ⟨hkeeps, hupon⟩ := h.upon_of_mem hs
    obtain ⟨mail, hdeed, hsends⟩ := deed_of_upon hupon
    exact hsends.delivers (hdeed.asks_for_targets hkeeps hown)
  · have htotal := h.kept_over World.total fun s hs hbefore =>
      ((h.keepsNumbers hs).total_eq (hbefore.trans_lt hsize)).trans hbefore
    exact ⟨h.reached hsize htotal.1, htotal, fun n hn => h.numbered hsize hn⟩

/-- A coordinator with two targets in a small window, and three parts. -/
def guided : Coordinator :=
  { fresh [.physics, .obstacles, .targets] ⟨4, 4⟩ (.cycle #[0, 0, 0, 2147483648, 2147483648]) with
    world := World.crowded }

/-- The drone touches the second target too early. Then it reaches the first one, and the second one where this is. -/
theorem two_targets_reached_in_order : ∃ steps d, Stretch guided steps d ∧
    steps.map Step.contact = [some (.unexpected 1 ⟨2, 1⟩ (some ⟨2, 2⟩)), some (.expected ⟨1, 1⟩ 1),
      some (.expected ⟨2, 2⟩ 0)] ∧
    steps.flatMap Step.reached = [1, 2] ∧ d.world.targets = [] ∧ d.world.total = 2 ∧
    ∀ s ∈ steps, s.Delivers .targets .physics [.targets s.after.world.targets] := by
  obtain ⟨htouch, hrefusal⟩ := goes_on (c := guided) (m := .position ⟨2, 1⟩) (fun _ _ => rfl) .physics nofun
  obtain ⟨hfirst, hrefusal⟩ := goes_on (m := .position ⟨1, 1⟩) hrefusal .physics nofun
  obtain ⟨hsecond, -⟩ := goes_on (m := .position ⟨2, 2⟩) hrefusal .physics nofun
  have h := ((Stretch.here.next rfl htouch).next rfl hfirst).next rfl hsecond
  obtain ⟨steps, d, h, hcontacts, hreached, htargets, hchanged⟩ : ∃ steps d, Stretch guided steps d ∧
      steps.map Step.contact = [some (.unexpected 1 ⟨2, 1⟩ (some ⟨2, 2⟩)), some (.expected ⟨1, 1⟩ 1),
        some (.expected ⟨2, 2⟩ 0)] ∧
      steps.flatMap Step.reached = [1, 2] ∧ d.world.targets = [] ∧
      ∀ s ∈ steps, s.after.world.targets ≠ s.before.world.targets :=
    ⟨_, _, h, by decide +kernel, by decide +kernel, by decide +kernel, by decide +kernel⟩
  obtain ⟨-, -, -, htold, -, hcounted⟩ := targets_reached_in_order h
  obtain ⟨-, ⟨htotal, -⟩, -⟩ := hcounted (by decide)
  refine ⟨steps, d, h, hcontacts, hreached, htargets, htotal, fun s hs => ?_⟩
  have hdelivers := htold s hs .physics
  rwa [if_pos ⟨Or.inl rfl, hchanged s hs⟩] at hdelivers

end Coordinator
end GridFlight
