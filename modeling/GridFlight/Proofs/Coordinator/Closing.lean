import GridFlight.Proofs.Coordinator.Handled

/-! The end of a display. Whatever the coordinator handles, it asks its display to draw and to write lines, and never to
    shut down; it does that after its loop, whether the loop has ended with a quit or with a fault. Only a run whose
    first drawing is refused never comes to its loop, and leaves the display as it is. -/

namespace GridFlight

namespace Display

/-- From `d` to `d'` the display was asked to draw and to write lines, and not to shut down. -/
def DrawnOn (d d' : Display) : Prop :=
  ∃ drawn, d'.calls.toList = d.calls.toList ++ drawn ∧ ∀ call ∈ drawn, call.1 ≠ .shutdown

/-- From `d` to `d'` the display was drawn on, and then asked to shut down: once, and nothing after it. -/
def Closed (d d' : Display) : Prop :=
  ∃ drawn served, d'.calls.toList = d.calls.toList ++ drawn ++ [(.shutdown, served)] ∧
    ∀ call ∈ drawn, call.1 ≠ .shutdown

theorem drawnOn_of_eq {d d' : Display} (h : d' = d) : d.DrawnOn d' :=
  ⟨[], by rw [h, List.append_nil], List.forall_mem_nil _⟩

theorem DrawnOn.trans {d d' d'' : Display} (h : d.DrawnOn d') (h' : d'.DrawnOn d'') : d.DrawnOn d'' := by
  obtain ⟨first, hfirst, hopen⟩ := h
  obtain ⟨second, hsecond, hopen'⟩ := h'
  refine ⟨first ++ second, by rw [hsecond, hfirst, List.append_assoc], fun call hcall => ?_⟩
  exact (List.mem_append.mp hcall).elim (hopen call) (hopen' call)

theorem calls_call (call : Call) (d : Display) :
    ∃ served, (d.call call).2.calls.toList = d.calls.toList ++ [(call, served)] := by
  rcases d.call_cases call with ⟨-, hcall⟩ | ⟨text, -, hcall⟩ <;> rw [hcall]
  · exact ⟨true, Array.toList_push⟩
  · exact ⟨false, Array.toList_push⟩

theorem drawnOn_call {call : Call} (h : call ≠ .shutdown) (d : Display) : d.DrawnOn (d.call call).2 := by
  obtain ⟨served, hcalls⟩ := d.calls_call call
  exact ⟨[(call, served)], hcalls, by simpa using h⟩

theorem DrawnOn.close {d d' : Display} (h : d.DrawnOn d') : d.Closed (d'.call .shutdown).2 := by
  obtain ⟨drawn, hdrawn, hopen⟩ := h
  obtain ⟨served, hcalls⟩ := d'.calls_call .shutdown
  exact ⟨drawn, served, by rw [hcalls, hdrawn], hopen⟩

theorem DrawnOn.trans_closed {d d' d'' : Display} (h : d.DrawnOn d') (h' : d'.Closed d'') : d.Closed d'' := by
  obtain ⟨first, hfirst, hopen⟩ := h
  obtain ⟨second, served, hsecond, hopen'⟩ := h'
  refine ⟨first ++ second, served, by rw [hsecond, hfirst, List.append_assoc d.calls.toList], fun call hcall => ?_⟩
  exact (List.mem_append.mp hcall).elim (hopen call) (hopen' call)

/-- A display that was only drawn on is not closed. -/
theorem DrawnOn.not_closed {d d' : Display} (h : d.DrawnOn d') : ¬d.Closed d' := by
  rintro ⟨drawn, served, hclosed, -⟩
  obtain ⟨only, honly, hopen⟩ := h
  rw [honly, List.append_assoc] at hclosed
  have hlast : (Call.shutdown, served) ∈ only := by
    rw [List.append_cancel_left hclosed]
    exact List.mem_append_right drawn (List.mem_singleton_self _)
  exact hopen _ hlast rfl

end Display

namespace Coordinator

variable {c d : Coordinator}

/-! ### Events -/

theorem display_broadcast (roles : List Role) (m : Message) (c : Coordinator) :
    (c.broadcast roles m).display = c.display :=
  broadcast_induction (motive := fun d => d.display = c.display) rfl fun _ _ h => h

theorem drawnOn_act (task : Task) (c : Coordinator) : c.display.DrawnOn (task.act c).2.display := by
  cases task with
  | enter | keep | mark | feel | deliver | dismiss => exact Display.drawnOn_of_eq rfl
  | draw world =>
    have hrender : Display.Call.render world ≠ .shutdown := nofun
    exact c.display.drawnOn_call hrender
  | status line =>
    have hstatus : Display.Call.status line ≠ .shutdown := nofun
    exact c.display.drawnOn_call hstatus
  | broadcast roles m => exact Display.drawnOn_of_eq (display_broadcast roles m c)
  | broadcastExcept except m => exact Display.drawnOn_of_eq (display_broadcast _ m c)

theorem drawnOn_upon (e : Event) (c : Coordinator) : c.display.DrawnOn (c.upon e).2.display := by
  rw [upon_performs]
  exact perform_induction (motive := fun d => c.display.DrawnOn d.display) (Display.drawnOn_of_eq rfl)
    fun task _ d hd => hd.trans (drawnOn_act task d)

theorem Works.drawnOn {events : List Event} {t : Turnout} (h : Works c events t) :
    c.display.DrawnOn t.2.display := by
  induction h with
  | aside hquiet _ ih => exact (Display.drawnOn_of_eq hquiet.display).trans ih
  | go | fail => exact Display.drawnOn_of_eq rfl
  | last c e => exact drawnOn_upon e c
  | @next c d e _ _ hupon _ ih =>
    have hdrawn := drawnOn_upon e c
    rw [hupon] at hdrawn
    exact hdrawn.trans ih

/-! ### Runs -/

namespace Scene

variable {s t : Scene} {limit : Option Nat} {fuel : Nat} {ending : Except Fault Summary}

/-- A loop that has ended, in whatever way, has closed the display. -/
theorem closed_of_iterate (h : iterate limit fuel s = (some ending, t)) :
    s.coordinator.display.Closed t.coordinator.display := by
  induction fuel generalizing s with
  | zero => cases h
  | succ fuel ih =>
    have hdrawn := (works_step limit s).drawnOn
    have hfinish : ∀ (result : Except Fault Flow) (u : Scene), s.step limit = (some result, u) →
        (some (u.finish result).1, (u.finish result).2) = (some ending, t) →
        s.coordinator.display.Closed t.coordinator.display := by
      intro result u hstep hended
      rw [hstep] at hdrawn
      obtain rfl := (Prod.mk.inj hended).2
      exact hdrawn.close
    unfold iterate at h
    rcases hstep : s.step limit with ⟨_ | e | _ | _, u⟩ <;> simp only [hstep] at h
    · cases h
    · exact hfinish _ u hstep h
    · rw [hstep] at hdrawn
      exact hdrawn.trans_closed (ih h)
    · exact hfinish _ u hstep h

/-- The first drawing of a run is served. -/
def Opens (s : Scene) : Prop :=
  s.coordinator.display.refusal .render (s.coordinator.display.count .render + 1) = none

/-- A run whose first drawing is refused ends there. -/
theorem start_refused {text : String}
    (h : c.display.refusal .render (c.display.count .render + 1) = some text) :
    ∃ d, c.start = (.error (.screen text), d) ∧
      d.display.calls.toList = c.display.calls.toList ++ [(.render c.world, false)] := by
  refine ⟨{ c with phase := .rendering, display := (c.display.call (.render c.world)).2 }, ?_, ?_⟩
  · refine (upon_performs .start c).trans ?_
    simp [tasks, perform, Task.act, Coordinator.call, Display.call, Display.Call.service, h]
  · simp [Display.call, Display.Call.service, h]

theorem start_served (h : c.display.refusal .render (c.display.count .render + 1) = none) :
    ∃ d, c.start = (.ok .more, d) := by
  have hresult : c.start.1 = .ok .more := by
    refine (congrArg Prod.fst (upon_performs .start c)).trans ?_
    simp [tasks, perform, Task.act, Coordinator.call, Display.call, Display.Call.service, h, Event.quits]
  exact ⟨c.start.2, Prod.ext hresult rfl⟩

/-- A run that has come to an end, with a quit or with a fault, has asked its display to shut down exactly if the first
    drawing was served: once, and after everything else. Otherwise that drawing is all it has asked for, and the run
    ends with its fault. -/
theorem closed_iff_opens (h : s.run limit fuel = (some ending, t)) :
    (s.coordinator.display.Closed t.coordinator.display ↔ s.Opens) ∧
      (¬s.Opens → t.coordinator.display.calls.toList =
          s.coordinator.display.calls.toList ++ [(.render s.coordinator.world, false)] ∧
        ∃ text, ending = .error (.screen text)) := by
  have hstart := drawnOn_upon .start s.coordinator
  unfold run at h
  cases hrefusal : s.coordinator.display.refusal .render (s.coordinator.display.count .render + 1) with
  | none =>
    have hopens : s.Opens := hrefusal
    obtain ⟨c, hc⟩ := start_served hrefusal
    rw [upon, hc] at hstart
    rw [hc] at h
    exact ⟨⟨fun _ => hopens, fun _ => hstart.trans_closed (closed_of_iterate h)⟩, fun hnot => absurd hopens hnot⟩
  | some text =>
    have hshut : ¬s.Opens := by simp [Opens, hrefusal]
    obtain ⟨c, hc, hcalls⟩ := start_refused hrefusal
    rw [upon, hc] at hstart
    rw [hc] at h
    obtain ⟨hended, rfl⟩ := Prod.mk.inj h
    refine ⟨⟨fun hclosed => absurd hclosed hstart.not_closed, fun hopens => absurd hopens hshut⟩, fun _ => ⟨hcalls, ?_⟩⟩
    exact ⟨text, (Option.some.inj hended).symm⟩

/-- A coordinator that has no parts, over a display and an input. -/
def lone (display : Display) (input : Input) : Scene where
  now := 0
  coordinator := .new ⟨30, 5000, ⟨40, 20⟩⟩ (.ofRoles []) (fun _ => none) none display input 1 0
  script := []

/-- The first question to the user is refused: the run ends with that fault, and the display is closed all the same. -/
theorem closed_after_refused_poll : ∃ t,
    (lone (.new fun _ _ => none) (.new fun n => if n = 1 then some "poll failed" else none)).run none 1 =
        (some (.error (.screen "poll failed")), t) ∧
      (Display.new fun _ _ => none).Closed t.coordinator.display := by
  obtain ⟨t, hrun⟩ : ∃ t,
      (lone (.new fun _ _ => none) (.new fun n => if n = 1 then some "poll failed" else none)).run none 1 =
        (some (.error (.screen "poll failed")), t) := ⟨_, rfl⟩
  have hopens : (lone (.new fun _ _ => none) (.new fun n => if n = 1 then some "poll failed" else none)).Opens := rfl
  exact ⟨t, hrun, (closed_iff_opens hrun).1.mpr hopens⟩

/-- The first drawing is refused: the run ends, and the display was never asked to shut down. -/
theorem left_open_by_refused_drawing : ∃ t,
    (lone (.new fun service n => if service = .render ∧ n = 1 then some "render failed" else none)
        (.new fun _ => none)).run none 1 = (some (.error (.screen "render failed")), t) ∧
      t.coordinator.display.calls.toList = [(.render { World.empty with window := ⟨40, 20⟩ }, false)] :=
  ⟨_, rfl, rfl⟩

end Scene
end Coordinator
end GridFlight
