import GridFlight.Proofs.Coordinator.Handled
import Mathlib.Data.List.DropRight
import Mathlib.Logic.Relation

/-! The course of a coordinator from its start: the events that it has handled, each with the states before and after.
    Between events its surroundings may change, but not the world, the display or what has been written. What was
    exchanged with a part, in either direction, is read off the course. An iteration of the loop is a course of
    events, so that what holds of every course holds of the coordinator at work. -/

namespace GridFlight
namespace Coordinator

/-! ### Courses -/

/-- An event that was handled. -/
structure Step where
  event : Event
  before : Coordinator
  after : Coordinator

inductive Course : List Step → Coordinator → Prop where
  | start {c d : Coordinator} (hfresh : c.world = { World.empty with window := c.config.window })
    (hstart : c.upon .start = (.ok .more, d)) : Course [⟨.start, c, d⟩] d
  | aside {steps : List Step} {c d : Coordinator} (hcourse : Course steps c) (haside : c.Aside d) : Course steps d
  | next {steps : List Step} {e : Event} {c d : Coordinator} (hcourse : Course steps c)
    (hnext : c.upon e = (.ok .more, d)) : Course (steps ++ [⟨e, c, d⟩]) d

theorem Course.upon_of_mem {steps : List Step} {c : Coordinator} {s : Step} (h : Course steps c) (hs : s ∈ steps) :
    s.before.upon s.event = (.ok .more, s.after) := by
  induction h with
  | start hfresh hstart =>
    obtain rfl := List.mem_singleton.mp hs
    exact hstart
  | aside _ _ ih => exact ih hs
  | next _ hnext ih =>
    rcases List.mem_append.mp hs with hearlier | hlast
    · exact ih hearlier
    · obtain rfl := List.mem_singleton.mp hlast
      exact hnext

/-- A coordinator before its start, with lasting links to these parts and a user who does nothing. -/
def fresh (roles : List Role) (window : Window) (draws : Draws) : Coordinator :=
  let c := Coordinator.new ⟨30, 5000, window⟩ (.ofRoles roles)
    (fun r => if r ∈ roles then some (.new .lasting) else none) none (.new fun _ _ => none) (.new fun _ => none) 0 0
  { c with draws := draws }

/-! ### Exchanges -/

/-- The messages that an event brings from a part. -/
def Event.heard (e : Event) (r : Role) : List Message :=
  match e with
  | .message sender m => if sender = r then [m] else []
  | _ => []

@[simp, grind =] theorem mem_heard_message {sender r : Role} {m n : Message} :
    m ∈ (Event.message sender n).heard r ↔ sender = r ∧ m = n := by
  by_cases hr : sender = r <;> simp [Event.heard, hr]

@[simp, grind =] theorem heard_start (r : Role) : Event.start.heard r = [] := rfl

@[simp, grind =] theorem heard_user (event : UiEvent) (r : Role) : (Event.user event).heard r = [] := rfl

@[simp, grind =] theorem heard_time (now : Nat) (r : Role) : (Event.time now).heard r = [] := rfl

/-- The frames exchanged with a part in a step: first what came from it, then what was written to it. -/
def Step.exchanged (s : Step) (r : Role) : List Frame :=
  (s.event.heard r).map Message.toFrame ++ (s.after.framesTo r).drop (s.before.framesTo r).length

/-- The last frame of a kind that a step exchanged with a part. -/
def Step.newest (kind : Frame.Kind) (r : Role) (s : Step) : Option Frame :=
  ((s.exchanged r).filter fun f => f.code = kind.code).getLast?

/-- The last frame of a kind exchanged with a part, and the event of that exchange. -/
def latest (kind : Frame.Kind) (r : Role) (steps : List Step) : Option (Event × Frame) :=
  (steps.filterMap fun s => (s.newest kind r).map (s.event, ·)).getLast?

/-- The steps after the last one that exchanged a frame of a kind with a part. -/
def since (kind : Frame.Kind) (r : Role) (steps : List Step) : List Step :=
  steps.rtakeWhile fun s => (s.newest kind r).isNone

theorem latest_concat (kind : Frame.Kind) (r : Role) (steps : List Step) (s : Step) :
    latest kind r (steps ++ [s]) = ((s.newest kind r).map (s.event, ·)).or (latest kind r steps) := by
  rw [latest, List.filterMap_append]
  cases hs : s.newest kind r with
  | none => simp [hs, latest]
  | some f => simp [hs]

theorem since_concat (kind : Frame.Kind) (r : Role) (steps : List Step) (s : Step) :
    since kind r (steps ++ [s]) = if (s.newest kind r).isNone then since kind r steps ++ [s] else [] := by
  rw [since, List.rtakeWhile_concat, since]

theorem code_inj {k l : Frame.Kind} : k.code = l.code ↔ k = l := by
  constructor
  · intro h
    have hk := Frame.Kind.ofCode?_code k
    rw [h, Frame.Kind.ofCode?_code l] at hk
    exact (Option.some.inj hk).symm
  · rintro rfl
    rfl

/-- Frames of a kind are the frames of the messages of that kind. -/
theorem filter_toFrame (kind : Frame.Kind) (ms : List Message) :
    (ms.map Message.toFrame).filter (fun f => f.code = kind.code) =
      (ms.filter fun m => m.kind = kind).map Message.toFrame := by
  rw [List.filter_map]
  refine congrArg (List.map _) (List.filter_congr fun m _ => ?_)
  simp [Message.toFrame, Frame.ofText, code_inj]

variable {c d : Coordinator} {e : Event} {mail : Mail} {r : Role} {kind : Frame.Kind} {m : Message}

/-- The last message of a kind that an event brings from a part or its deed sends there. -/
def news (kind : Frame.Kind) (r : Role) (e : Event) (mail : Mail) : Option Message :=
  ((e.heard r ++ mail r).filter fun m => m.kind = kind).getLast?

theorem news_eq_none (h : ∀ m ∈ e.heard r ++ mail r, m.kind ≠ kind) : news kind r e mail = none := by
  rw [news, List.filter_eq_nil_iff.mpr fun m hm => by simpa using h m hm]
  rfl

theorem news_eq_some (hkind : m.kind = kind) (hsome : m ∈ e.heard r ++ mail r)
    (honly : ∀ n ∈ e.heard r ++ mail r, n.kind = kind → n = m) : news kind r e mail = some m := by
  have hmem : m ∈ (e.heard r ++ mail r).filter fun n => n.kind = kind :=
    List.mem_filter.mpr ⟨hsome, decide_eq_true hkind⟩
  obtain ⟨n, hn⟩ := Option.isSome_iff_exists.mp (List.getLast?_isSome.mpr (List.ne_nil_of_mem hmem))
  have hlast := List.mem_filter.mp (List.mem_of_getLast? hn)
  rw [news, hn, honly n hlast.1 (of_decide_eq_true hlast.2)]

/-- A message that is handed on is news to everybody whom it concerns, also to its sender. -/
theorem news_handed_on {roles : List Role} (sender : Role) (m : Message) (hr : r ∈ roles) :
    news m.kind r (.message sender m) (.toEach (without sender roles) m) = some m := by
  refine news_eq_some rfl ?_ fun n hn _ => ?_
  · by_cases hsender : sender = r
    · simp [hsender]
    · simp [without, hr, Ne.symm hsender]
  · simp only [List.mem_append, mem_heard_message, Mail.mem_toEach] at hn
    rcases hn with ⟨-, rfl⟩ | ⟨-, rfl⟩ <;> rfl

theorem news_ignored {sender : Role} (hkind : m.kind ∈ [.input, .exit, .pid, .ping, .pong])
    (hother : kind ∉ [.input, .exit, .pid, .ping, .pong]) : news kind r (.message sender m) .none = none := by
  refine news_eq_none fun n hn heq => ?_
  obtain ⟨-, rfl⟩ : sender = r ∧ n = m := by simpa using hn
  exact hother (heq ▸ hkind)

theorem Sends.exchanged (h : c.Sends d mail) (hr : d.connects r = true) :
    Step.exchanged ⟨e, c, d⟩ r = (e.heard r ++ mail r).map Message.toFrame := by
  simp [Step.exchanged, h.framesTo hr]

/-- The news of a standing link. -/
theorem Sends.newest (h : c.Sends d mail) (hr : d.connects r = true) (kind : Frame.Kind) :
    Step.newest kind r ⟨e, c, d⟩ = (news kind r e mail).map Message.toFrame := by
  rw [Step.newest, h.exchanged hr, filter_toFrame, List.getLast?_map, news]

/-- The last message of its kind exchanged with a part. -/
def Told (steps : List Step) (r : Role) (m : Message) : Prop :=
  (latest m.kind r steps).map Prod.snd = some m.toFrame

theorem Sends.latest_some (h : c.Sends d mail) (steps : List Step) (hr : d.connects r = true)
    (hnews : news kind r e mail = some m) : latest kind r (steps ++ [⟨e, c, d⟩]) = some (e, m.toFrame) := by
  have hnewest := h.newest (e := e) hr kind
  rw [hnews] at hnewest
  simp [Coordinator.latest_concat, hnewest]

theorem Sends.told (h : c.Sends d mail) (steps : List Step) (hr : d.connects r = true)
    (hnews : news m.kind r e mail = some m) : Told (steps ++ [⟨e, c, d⟩]) r m := by
  rw [Told, h.latest_some steps hr hnews]
  rfl

theorem Sends.latest_concat (h : c.Sends d mail) (steps : List Step) (hr : d.connects r = true)
    (hnews : news kind r e mail = none) : latest kind r (steps ++ [⟨e, c, d⟩]) = latest kind r steps := by
  have hnewest := h.newest (e := e) hr kind
  rw [hnews] at hnewest
  simp [Coordinator.latest_concat, hnewest]

theorem Sends.told_concat (h : c.Sends d mail) (steps : List Step) (m : Message) (hr : d.connects r = true)
    (hnews : news m.kind r e mail = none) : Told (steps ++ [⟨e, c, d⟩]) r m ↔ Told steps r m := by
  rw [Told, h.latest_concat steps hr hnews, Told]

theorem Sends.since_concat (h : c.Sends d mail) (steps : List Step) (hr : d.connects r = true)
    (hnews : news kind r e mail = none) :
    since kind r (steps ++ [⟨e, c, d⟩]) = since kind r steps ++ [⟨e, c, d⟩] := by
  have hnewest := h.newest (e := e) hr kind
  rw [hnews] at hnewest
  simp [Coordinator.since_concat, hnewest]

/-! ### Iterations -/

/-- Any course to `c` goes on to `d`. -/
def Leads (c d : Coordinator) : Prop := ∀ steps, Course steps c → ∃ later, Course (steps ++ later) d

theorem Leads.trans {c d e : Coordinator} (hcd : c.Leads d) (hde : d.Leads e) : c.Leads e := by
  intro steps hcourse
  obtain ⟨first, hfirst⟩ := hcd steps hcourse
  obtain ⟨second, hsecond⟩ := hde (steps ++ first) hfirst
  exact ⟨first ++ second, by rwa [← List.append_assoc]⟩

theorem leads_aside (h : c.Aside d) : c.Leads d :=
  fun steps hcourse => ⟨[], (List.append_nil steps).symm ▸ hcourse.aside h⟩

theorem leads_upon (h : c.upon e = (.ok .more, d)) : c.Leads d := fun _ hcourse => ⟨_, hcourse.next h⟩

theorem Works.leads {events : List Event} {t : Turnout} (h : Works c events t) (hmore : t = (.ok .more, d)) :
    c.Leads d := by
  induction h with
  | aside hquiet _ ih => exact (leads_aside hquiet.toAside).trans (ih hmore)
  | go c =>
    obtain rfl := (Prod.mk.inj hmore).2
    exact leads_aside (quiet_refl c).toAside
  | fail e c => cases hmore
  | last c e => exact leads_upon hmore
  | next hupon _ ih => exact (leads_upon hupon).trans (ih hmore)

namespace Scene

/-- An iteration after which the work goes on is a course of events. -/
theorem leads_step {limit : Option Nat} {s t : Scene} (h : s.step limit = (some (.ok .more), t)) :
    s.coordinator.Leads t.coordinator := by
  have hworks := works_step limit s
  rw [h] at hworks
  exact hworks.leads rfl

/-- Whatever the coordinator has come to in its loop, it has come to it by a course of events from its start. -/
theorem course_of_iterations {s t : Scene} {c : Coordinator}
    (hfresh : s.coordinator.world = { World.empty with window := s.coordinator.config.window })
    (hstart : s.coordinator.start = (.ok .more, c))
    (hloop : Relation.ReflTransGen (fun s t : Scene => ∃ limit, s.step limit = (some (.ok .more), t))
      { s with coordinator := c } t) : ∃ steps, Course (⟨.start, s.coordinator, c⟩ :: steps) t.coordinator := by
  induction hloop with
  | refl => exact ⟨[], .start hfresh hstart⟩
  | tail _ hstep ih =>
    obtain ⟨limit, hstep⟩ := hstep
    obtain ⟨steps, hcourse⟩ := ih
    obtain ⟨later, hlater⟩ := leads_step hstep _ hcourse
    exact ⟨steps ++ later, hlater⟩

end Scene
end Coordinator
end GridFlight
