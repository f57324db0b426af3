import GridFlight.Proofs.Coordinator.Course
import GridFlight.Proofs.Coordinator.Updates
import Mathlib.Data.List.Chain

/-! What the user sees. Every handler draws the world that it leaves, the last thing before it hands the news on. Only
    the forces are not drawn with the world: they are told in the status line, which is written when it differs from
    the one that stands there. -/

namespace GridFlight

/-- The worlds that were drawn. -/
def Display.worlds (calls : List (Display.Call × Bool)) : List World :=
  calls.filterMap fun c => match c.1 with
    | .render world => some world
    | _ => none

theorem World.statusLine_ne_empty (w : World) : w.statusLine ≠ "" := by
  unfold World.statusLine
  simp only [ne_eq, String.append_eq_empty_iff]
  intro h
  exact absurd h.1.1.1.1.1.1.1.1.1.1.1 (by decide)

namespace Coordinator

/-! ### The screen -/

def drawnWorlds (c : Coordinator) : List World := Display.worlds c.display.calls.toList

def statusLines (c : Coordinator) : List String := Display.statusLines c.display.calls.toList

/-- The world was drawn last as it is now, but for the forces. -/
def Shows (c : Coordinator) : Prop :=
  ∃ drawn, c.drawnWorlds.getLast? = some drawn ∧ { drawn with forces := c.world.forces } = c.world

/-- The status line that stands on the screen is known, and no line has been written over itself. -/
structure Remembers (c : Coordinator) : Prop where
  last : c.statusLines.getLast?.getD "" = c.lastStatus
  changes : c.statusLines.IsChain (· ≠ ·)

/-- What the user sees after an event. -/
structure Current (e : Event) (c : Coordinator) : Prop where
  world : c.Shows
  line : ∀ sender report, e = .message sender (.force report) → c.statusLines.getLast? = some c.world.statusLine
  changes : c.statusLines.IsChain (· ≠ ·)

/-- Nothing was drawn yet. -/
structure Unused (c : Coordinator) : Prop where
  calls : c.display.calls = #[]
  lastStatus : c.lastStatus = ""

theorem new_unused (config : Config) (inbox : Inbox) (outlets : Role → Option Outlet) (supervisor : Option Outlet)
    (refusal : Display.Service → Nat → Option String) (input : Input) (seed : UInt64) (now : Nat) :
    Unused (.new config inbox outlets supervisor (.new refusal) input seed now) := ⟨rfl, rfl⟩

variable {c d : Coordinator} {e : Event} {flow : Flow} {steps : List Step}

theorem Unused.remembers (h : c.Unused) : c.Remembers := by
  have hlines : c.statusLines = [] := by
    rw [statusLines, h.calls]
    rfl
  exact ⟨by rw [hlines, h.lastStatus]; rfl, by rw [hlines]; exact .nil⟩

theorem unused_head {first : Step} (h : first.before.Unused) (later : List Step) :
    ∀ s ∈ (first :: later).head?, s.before.Unused := by
  rintro _ ⟨⟩
  exact h

/-! ### Drawing the world -/

/-- The world is shown if it was, and the status line stays. -/
structure Redraws (c d : Coordinator) : Prop where
  shows : c.Shows → d.Shows
  lines : d.statusLines = c.statusLines
  lastStatus : d.lastStatus = c.lastStatus

theorem Redraws.trans {c d e : Coordinator} (hcd : c.Redraws d) (hde : d.Redraws e) : c.Redraws e :=
  ⟨fun h => hde.shows (hcd.shows h), hde.lines.trans hcd.lines, hde.lastStatus.trans hcd.lastStatus⟩

theorem Unseen.redraws (h : c.Unseen d) : c.Redraws d where
  shows hc := by rwa [Shows, drawnWorlds, h.display, h.world]
  lines := by rw [statusLines, h.display, statusLines]
  lastStatus := h.lastStatus

theorem unseen_broadcast (roles : List Role) (m : Message) (c : Coordinator) : c.Unseen (c.broadcast roles m) :=
  broadcast_induction (motive := c.Unseen) ⟨rfl, rfl, rfl⟩ fun _ _ h => ⟨h.world, h.display, h.lastStatus⟩

/-! ### Tasks -/

theorem calls_of_served {call : Display.Call} {display : Display} (h : (display.call call).1 = .ok ()) :
    (display.call call).2.calls = display.calls.push (call, true) := by
  rcases display.call_cases call with ⟨-, hcall⟩ | ⟨text, -, hcall⟩
  · rw [hcall]
  · rw [hcall] at h
    cases h

/-- A world that is drawn is shown, whatever was shown before. -/
theorem draw_shows {world : World} (h : (Task.draw world).act c = (.ok (), d)) :
    d.Shows ∧ d.statusLines = c.statusLines ∧ d.lastStatus = c.lastStatus := by
  have hcalls : d.display.calls = c.display.calls.push (.render world, true) :=
    congrArg (fun answer => answer.2.display.calls) h ▸ calls_of_served (congrArg Prod.fst h)
  obtain rfl : ((Task.draw world).act c).2 = d := congrArg Prod.snd h
  refine ⟨⟨world, ?_, rfl⟩, ?_, rfl⟩
  · simp [drawnWorlds, Display.worlds, hcalls]
  · simp [statusLines, Display.statusLines, hcalls]

theorem status_writes {line : String} (h : (Task.status line).act c = (.ok (), d)) :
    d.world = c.world ∧ d.drawnWorlds = c.drawnWorlds ∧ d.statusLines = c.statusLines ++ [line] ∧
      d.lastStatus = line := by
  have hserved : (c.display.call (.status line)).1 = .ok () := congrArg Prod.fst h
  have hcalls : d.display.calls = c.display.calls.push (.status line, true) :=
    congrArg (fun answer => answer.2.display.calls) h ▸ calls_of_served hserved
  obtain rfl : ((Task.status line).act c).2 = d := congrArg Prod.snd h
  refine ⟨rfl, ?_, ?_, ?_⟩
  · simp [drawnWorlds, Display.worlds, hcalls]
  · simp [statusLines, Display.statusLines, hcalls]
  · simp [Task.act, Coordinator.call, hserved]

/-- Only a report of forces changes what the screen must show without drawing it. -/
theorem redraws_act {task : Task} (hforce : ∀ sender report, e ≠ .message sender (.force report)) (h : task.Due e)
    (hact : task.act c = (.ok (), d)) : c.Redraws d := by
  cases task with
  | feel | status =>
    obtain ⟨sender, report, he⟩ := h
    exact absurd he (hforce sender report)
  | draw world =>
    obtain ⟨hshows, hlines, hlast⟩ := draw_shows hact
    exact ⟨fun _ => hshows, hlines, hlast⟩
  | enter | keep | mark | deliver | dismiss => exact (Prod.mk.inj hact).2 ▸ Unseen.redraws ⟨rfl, rfl, rfl⟩
  | broadcast roles m => exact (Prod.mk.inj hact).2 ▸ (unseen_broadcast roles m c).redraws
  | broadcastExcept except m => exact (Prod.mk.inj hact).2 ▸ (unseen_broadcast _ m c).redraws

theorem redraws_perform {flow' : Flow} {ts : List Task} (hforce : ∀ sender report, e ≠ .message sender (.force report))
    (hdue : ∀ task ∈ ts, task.Due e) (h : perform flow ts c = (.ok flow', d)) : c.Redraws d :=
  perform_ok_induction (motive := c.Redraws) h (Unseen.redraws ⟨rfl, rfl, rfl⟩) fun task htask _ _ hact hc =>
    hc.trans (redraws_act hforce (hdue task htask) hact)

theorem start_shows (h : c.start = (.ok flow, d)) : d.Shows := by
  obtain ⟨drawn, hdraw, hlater⟩ := perform_cons_ok ((upon_performs .start c).symm.trans h)
  have hdue := (List.forall_mem_cons.mp (due_tasks .start c)).2
  exact (redraws_perform (by simp) hdue hlater).shows (draw_shows hdraw).1

/-! ### The status line -/

/-- A line is written exactly when it is another one than the last. -/
structure Writes (c d : Coordinator) (line : String) : Prop where
  lines : d.statusLines = if line = c.lastStatus then c.statusLines else c.statusLines ++ [line]
  lastStatus : d.lastStatus = line

theorem Writes.remembers {line : String} (h : c.Writes d line) (hc : c.Remembers) : d.Remembers := by
  obtain ⟨hlines, hlast⟩ := h
  by_cases hsame : line = c.lastStatus
  · rw [if_pos hsame] at hlines
    exact ⟨by rw [hlines, hc.last, hlast, hsame], by rw [hlines]; exact hc.changes⟩
  · rw [if_neg hsame] at hlines
    refine ⟨by rw [hlines, hlast]; simp, ?_⟩
    rw [hlines]
    refine List.IsChain.append hc.changes (.singleton line) fun x hx y hy => ?_
    obtain rfl : line = y := by simpa using hy
    -- The last line on the screen is the one that is remembered.
    have hremembered := hc.last
    rw [hx] at hremembered
    rintro rfl
    exact hsame hremembered

/-- Forces are drawn nowhere but in the status line. -/
theorem onForce_writes {report : ForceReport} (h : c.onForce report = (.ok flow, d)) :
    d.world = { c.world with forces := report } ∧ d.drawnWorlds = c.drawnWorlds ∧ c.Writes d d.world.statusLine := by
  rw [onForce_performs .physics] at h
  obtain ⟨felt, hfeel, hlater⟩ := perform_cons_ok h
  obtain rfl := (Prod.mk.inj hfeel).2
  split at hlater
  · next hsame =>
    obtain rfl := (Prod.mk.inj hlater).2
    exact ⟨rfl, rfl, (if_pos hsame).symm, hsame.symm⟩
  · next hother =>
    obtain ⟨written, hstatus, hdone⟩ := perform_cons_ok hlater
    obtain rfl := (Prod.mk.inj hdone).2
    obtain ⟨hworld, hdrawn, hlines, hlast⟩ := status_writes hstatus
    rw [hworld]
    exact ⟨rfl, hdrawn, hlines.trans (if_neg hother).symm, hlast⟩

/-! ### Courses -/

theorem Remembers.of_same (h : c.Remembers) (hlines : d.statusLines = c.statusLines)
    (hlast : d.lastStatus = c.lastStatus) : d.Remembers where
  last := by rw [hlines, hlast]; exact h.last
  changes := by rw [hlines]; exact h.changes

/-- A status line is never empty, so the one that is remembered was written. -/
theorem Remembers.line (h : c.Remembers) (hlast : c.lastStatus = c.world.statusLine) :
    c.statusLines.getLast? = some c.world.statusLine := by
  have hline := h.last
  rw [hlast] at hline
  cases hlines : c.statusLines.getLast? with
  | none =>
    rw [hlines] at hline
    exact absurd hline.symm c.world.statusLine_ne_empty
  | some line =>
    rw [hlines] at hline
    exact congrArg some hline

theorem current_of_shows (hshows : d.Shows) (hremembers : d.Remembers)
    (hforce : ∀ sender report, e ≠ .message sender (.force report)) : Current e d where
  world := hshows
  line sender report he := absurd he (hforce sender report)
  changes := hremembers.changes

theorem onForce_current {sender : Role} {report : ForceReport} (hshows : c.Shows) (hremembers : c.Remembers)
    (h : c.onForce report = (.ok flow, d)) : Current (.message sender (.force report)) d ∧ d.Remembers := by
  obtain ⟨hworld, hdrawn, hwrites⟩ := onForce_writes h
  have hd := hwrites.remembers hremembers
  obtain ⟨drawn, hlast, hsame⟩ := hshows
  have hshown : d.Shows := by
    refine ⟨drawn, hdrawn ▸ hlast, ?_⟩
    rw [hworld, ← hsame]
  exact ⟨⟨hshown, fun _ _ _ => hd.line hwrites.lastStatus, hd.changes⟩, hd⟩

/-- Every event keeps the screen current, and the start makes it so. -/
theorem upon_current (hshows : e ≠ .start → c.Shows) (hremembers : c.Remembers) (h : c.upon e = (.ok flow, d)) :
    Current e d ∧ d.Remembers := by
  by_cases hforce : ∃ sender report, e = .message sender (.force report)
  · obtain ⟨sender, report, rfl⟩ := hforce
    exact onForce_current (hshows nofun) hremembers h
  · have hother : ∀ sender report, e ≠ .message sender (.force report) :=
      fun sender report he => hforce ⟨sender, report, he⟩
    have hredraws := redraws_perform hother (due_tasks e c) ((upon_performs e c).symm.trans h)
    have hd := hremembers.of_same hredraws.lines hredraws.lastStatus
    have hshown : d.Shows := by
      by_cases hstart : e = .start
      · subst hstart
        exact start_shows h
      · exact hredraws.shows (hshows hstart)
    exact ⟨current_of_shows hshown hd hother, hd⟩

theorem Course.current (h : Course steps c) (hunused : ∀ s ∈ steps.head?, s.before.Unused) :
    (∀ s ∈ steps, Current s.event s.after) ∧ c.Shows ∧ c.Remembers := by
  induction h with
  | @start c d hfresh hstart =>
    have hbefore : c.Unused := hunused ⟨.start, c, d⟩ rfl
    obtain ⟨hcurrent, hremembers⟩ := upon_current (fun h => absurd rfl h) hbefore.remembers hstart
    exact ⟨by simpa using hcurrent, hcurrent.world, hremembers⟩
  | aside _ haside ih =>
    obtain ⟨hcurrent, hshows, hremembers⟩ := ih hunused
    have hredraws := haside.toUnseen.redraws
    exact ⟨hcurrent, hredraws.shows hshows, hremembers.of_same hredraws.lines hredraws.lastStatus⟩
  | next _ hnext ih =>
    obtain ⟨hcurrent, hshows, hremembers⟩ :=
      ih fun s hs => hunused s (List.mem_head?_append_of_mem_head? hs)
    obtain ⟨hlast, hremembers'⟩ := upon_current (fun _ => hshows) hremembers hnext
    refine ⟨fun s hs => ?_, hlast.world, hremembers'⟩
    rcases List.mem_append.mp hs with hearlier | hs
    · exact hcurrent s hearlier
    · obtain rfl := List.mem_singleton.mp hs
      exact hlast

/-- Whenever a coordinator that was just made comes round its loop, the screen shows the world. -/
theorem Scene.shows_of_iterations {s t : Scene} {c : Coordinator} (hunused : s.coordinator.Unused)
    (hfresh : s.coordinator.world = { World.empty with window := s.coordinator.config.window })
    (hstart : s.coordinator.start = (.ok .more, c))
    (hloop : Relation.ReflTransGen (fun s t : Scene => ∃ limit, s.step limit = (some (.ok .more), t))
      { s with coordinator := c } t) : t.coordinator.Shows := by
  obtain ⟨steps, hcourse⟩ := course_of_iterations hfresh hstart hloop
  exact (hcourse.current (unused_head hunused steps)).2.1

/-- From the start on the screen is current after every event, the one that ends the work included. -/
theorem screen_current (h : Course steps c) (hunused : ∀ s ∈ steps.head?, s.before.Unused) :
    (∀ s ∈ steps, Current s.event s.after) ∧ ∀ e flow d, c.upon e = (.ok flow, d) → Current e d := by
  obtain ⟨hcurrent, hshows, hremembers⟩ := h.current hunused
  exact ⟨hcurrent, fun e flow d hlast => (upon_current (fun _ => hshows) hremembers hlast).1⟩

/-- The forces are reported twice, and then the drone moves. -/
theorem screen_current_after_reports : ∃ steps c, Course steps c ∧ (∀ s ∈ steps.head?, s.before.Unused) ∧
    steps.map Step.event = [.start, .message .physics (.force .zero), .message .physics (.force .zero),
      .message .physics (.position ⟨zeroSingle, zeroSingle⟩)] ∧
    ∀ s ∈ steps, Current s.event s.after := by
  have hserved : ∀ m, m ≠ .exit → ∀ c : Coordinator, (∀ s n, c.display.refusal s n = none) →
      ∃ d, c.upon (.message .physics m) = (.ok .more, d) ∧ ∀ s n, d.display.refusal s n = none := by
    intro m hm c hrefusal
    have hsmooth := smooth_apply hm .physics c
    refine ⟨(c.apply .physics m).2, Prod.ext (hsmooth.more hrefusal) rfl, ?_⟩
    rw [hsmooth.kept.refusal]
    exact hrefusal
  obtain ⟨c, hstart, hrefusal⟩ : ∃ c, upon .start (fresh [.physics] ⟨40, 20⟩ (.cycle #[])) = (.ok .more, c) ∧
      ∀ s n, c.display.refusal s n = none := ⟨_, rfl, fun _ _ => rfl⟩
  obtain ⟨d, hreport, hrefusal⟩ := hserved (.force .zero) nofun c hrefusal
  obtain ⟨e, hagain, hrefusal⟩ := hserved (.force .zero) nofun d hrefusal
  obtain ⟨f, hmove, -⟩ := hserved (.position ⟨zeroSingle, zeroSingle⟩) nofun e hrefusal
  have h := (((Course.start rfl hstart).next hreport).next hagain).next hmove
  have hunused := @unused_head ⟨.start, fresh [.physics] ⟨40, 20⟩ (.cycle #[]), c⟩ ⟨rfl, rfl⟩
  exact ⟨_, f, h, hunused _, rfl, (screen_current h (hunused _)).1⟩

end Coordinator
end GridFlight
