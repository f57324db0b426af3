import GridFlight.Proofs.Coordinator.Deeds

/-! The events that a coordinator handles, in their order. The log of a run follows the loop: the events of the user
    until none is left, the time, and about one message of each channel, until the work ends. What lies between two
    events changes neither the world nor what is drawn or written, so that a run is its events, one upon the other. -/

namespace GridFlight
namespace Coordinator

/-! ### The log -/

/-- What follows a turnout: something if the coordinator goes on, and otherwise a stop. -/
def Turnout.onward {α : Type} (t : Turnout) (next : Coordinator → α) (stop : α) : α :=
  match t with
  | (.ok .more, c) => next c
  | _ => stop

/-- The event of what has come in. An end, an error and an unreadable frame are none. -/
def eventOf : Inbound → Option Event
  | .item sender (.ok f) =>
    match Message.ofFrame f with
    | .ok m => some (.message sender m)
    | .error _ => none
  | _ => none

def drained : List UiEvent → Coordinator → List Event
  | [], _ => []
  | event :: later, c =>
    match c.input.ask with
    | (.ok (), input) =>
      .user event :: Turnout.onward ({ c with input := { input with pending := later } }.handle event) (drained later) []
    | (.error _, _) => []

def prepared (now : Nat) (c : Coordinator) : List Event :=
  let c := { c with iterations := c.iterations + 1, phase := .idle }
  drained c.input.pending c ++ Turnout.onward (c.drain c.input.pending) (fun _ => [.time now]) []

def attendedMore : Nat → Coordinator → List Event
  | 0, _ => []
  | n + 1, c =>
    match c.inbox.poll with
    | (.event event, inbox) =>
      (eventOf event).toList ++ Turnout.onward ({ c with inbox := inbox }.dispatch event) (attendedMore n) []
    | _ => []

def attended (event : Inbound) (c : Coordinator) : List Event :=
  (eventOf event).toList ++ Turnout.onward (c.dispatch event) (fun c => attendedMore (c.inbox.size - 1) c) []

namespace Scene

/-- The events of an iteration after its beginning. -/
def awaited (limit : Option Nat) (s : Scene) : List Event :=
  let full := s.now + s.coordinator.config.readiness
  if s.coordinator.inbox.size = 0 then []
  else
    match s.wait ((limit.map (min full)).getD full) with
    | (some event, s) => attended event s.coordinator
    | (none, _) => []

/-- The events of one iteration. -/
def stepped (limit : Option Nat) (s : Scene) : List Event :=
  prepared s.now s.coordinator ++
    Turnout.onward (s.coordinator.prepare s.now) (fun c => awaited limit { s with coordinator := c }) []

def iterated (limit : Option Nat) : Nat → Scene → List Event
  | 0, _ => []
  | fuel + 1, s =>
    s.stepped limit ++
      match s.step limit with
      | (some (.ok .more), s) => iterated limit fuel s
      | _ => []

/-- The events of a run. -/
def handled (limit : Option Nat) (fuel : Nat) (s : Scene) : List Event :=
  .start :: Turnout.onward s.coordinator.start (fun c => iterated limit fuel { s with coordinator := c }) []

end Scene

/-! ### Works -/

/-- Nothing changes of what is shown. -/
structure Unseen (c d : Coordinator) : Prop where
  world : d.world = c.world
  display : d.display = c.display
  lastStatus : d.lastStatus = c.lastStatus

/-- Nothing changes of what is shown, and no part is told anything. -/
structure Aside (c d : Coordinator) : Prop extends Unseen c d where
  frames : ∀ r, d.framesTo r = c.framesTo r
  connects : ∀ r, d.connects r = c.connects r

/-- What may happen between two events. -/
structure Quiet (c d : Coordinator) : Prop extends Aside c d where
  supervisor : d.supervisor = c.supervisor

/-- These events are handled in turn, with this turnout at the end. -/
inductive Works : Coordinator → List Event → Turnout → Prop where
  | aside {c d : Coordinator} {events : List Event} {t : Turnout} (hquiet : c.Quiet d) (h : Works d events t) :
    Works c events t
  | go (c : Coordinator) : Works c [] c.go
  | fail (e : Fault) (c : Coordinator) : Works c [] (.error e, c)
  | last (c : Coordinator) (e : Event) : Works c [e] (c.upon e)
  | next {c d : Coordinator} {e : Event} {events : List Event} {t : Turnout} (hupon : c.upon e = (.ok .more, d))
    (h : Works d events t) : Works c (e :: events) t

variable {c d : Coordinator} {events later : List Event} {t : Turnout}

theorem Works.trans (h : Works c events (.ok .more, d)) (hlater : Works d later t) : Works c (events ++ later) t := by
  generalize hmore : ((.ok .more, d) : Turnout) = u at h
  induction h with
  | aside hquiet _ ih => exact .aside hquiet (ih hmore)
  | go c =>
    obtain rfl := (Prod.mk.inj hmore).2
    exact hlater
  | fail e c => cases hmore
  | last c e => exact .next hmore.symm hlater
  | next hupon _ ih => exact .next hupon (ih hmore)

theorem Works.onward {log : Coordinator → List Event} {next : Coordinator → Turnout}
    (hnext : ∀ d, Works d (log d) (next d)) :
    Works c events t → Works c (events ++ t.onward log []) (match t with
      | (.ok .more, d) => next d
      | turnout => turnout) := by
  intro h
  obtain ⟨e | _ | _, d⟩ := t
  · simpa [Turnout.onward] using h
  · exact h.trans (hnext d)
  · simpa [Turnout.onward] using h

theorem works_aside (h : c.Quiet d) : Works c [] d.go := .aside h (.go d)

/-! ### An iteration -/

theorem quiet_input (c : Coordinator) (input : Input) : c.Quiet { c with input := input } :=
  ⟨⟨⟨rfl, rfl, rfl⟩, fun _ => rfl, fun _ => rfl⟩, rfl⟩

theorem quiet_inbox (c : Coordinator) (inbox : Inbox) : c.Quiet { c with inbox := inbox } :=
  ⟨⟨⟨rfl, rfl, rfl⟩, fun _ => rfl, fun _ => rfl⟩, rfl⟩

theorem works_drain (events : List UiEvent) (c : Coordinator) : Works c (drained events c) (c.drain events) := by
  induction events generalizing c with
  | nil =>
    rcases hask : c.input.ask with ⟨e | _, input⟩ <;> simp only [drain, drained, hask]
    · exact .aside (quiet_input c input) (.fail e _)
    · exact works_aside (quiet_input c input)
  | cons event later ih =>
    rcases hask : c.input.ask with ⟨e | _, input⟩ <;> simp only [drain, drained, hask]
    · exact .aside (quiet_input c input) (.fail e _)
    · have hevent := Works.last { c with input := { input with pending := later } } (.user event)
      exact .aside (quiet_input c { input with pending := later }) (.onward ih hevent)

theorem works_prepare (now : Nat) (c : Coordinator) : Works c (prepared now c) (c.prepare now) := by
  have hbegin : c.Quiet { c with iterations := c.iterations + 1, phase := .idle } :=
    ⟨⟨⟨rfl, rfl, rfl⟩, fun _ => rfl, fun _ => rfl⟩, rfl⟩
  exact .aside hbegin (.onward (fun d => .last d (.time now)) (works_drain c.input.pending _))

theorem works_dispatch (event : Inbound) (c : Coordinator) :
    Works c (eventOf event).toList (c.dispatch event) := by
  unfold dispatch
  split
  · exact .go c
  · exact .go c
  · next sender f =>
    cases hm : Message.ofFrame f with
    | ok m =>
      have hcount : c.Quiet { c with frames := c.frames + 1 } := ⟨⟨⟨rfl, rfl, rfl⟩, fun _ => rfl, fun _ => rfl⟩, rfl⟩
      have hevent : eventOf (.item sender (.ok f)) = some (.message sender m) := by simp [eventOf, hm]
      rw [hevent]
      exact .aside hcount (.last _ (.message sender m))
    | error e =>
      have hevent : eventOf (.item sender (.ok f)) = none := by simp [eventOf, hm]
      rw [hevent]
      exact .go c

theorem works_attendMore (n : Nat) (c : Coordinator) : Works c (attendedMore n c) (attendMore n c) := by
  induction n generalizing c with
  | zero => exact .go c
  | succ n ih =>
    rcases hpoll : c.inbox.poll with ⟨event | _ | _, inbox⟩ <;> simp only [attendMore, attendedMore, hpoll]
    · exact .aside (quiet_inbox c inbox) (.onward ih (works_dispatch event _))
    · exact works_aside (quiet_inbox c inbox)
    · exact works_aside (quiet_inbox c inbox)

theorem works_attend (event : Inbound) (c : Coordinator) : Works c (attended event c) (c.attend event) :=
  .onward (fun d => works_attendMore (d.inbox.size - 1) d) (works_dispatch event c)

theorem start_goes_on {flow : Flow} (h : c.start = (.ok flow, d)) : flow = .more := upon_flow (e := .start) h

/-! ### Surroundings -/

theorem quiet_refl (c : Coordinator) : c.Quiet c := ⟨⟨⟨rfl, rfl, rfl⟩, fun _ => rfl, fun _ => rfl⟩, rfl⟩

theorem Quiet.trans {c d e : Coordinator} (h : c.Quiet d) (h' : d.Quiet e) : c.Quiet e where
  world := h'.world.trans h.world
  display := h'.display.trans h.display
  lastStatus := h'.lastStatus.trans h.lastStatus
  frames r := (h'.frames r).trans (h.frames r)
  connects r := (h'.connects r).trans (h.connects r)
  supervisor := h'.supervisor.trans h.supervisor

theorem quiet_meet (h : Happening) (c : Coordinator) : c.Quiet (c.meet h) := by
  cases h with
  | arrival n a => exact quiet_inbox c _
  | input event => exact quiet_input c _
  | sever role =>
    have houtlet : ∀ r, (c.meet (.sever role)).outlets r = c.outlets r ∨
        (c.meet (.sever role)).outlets r = (c.outlets r).map fun o => { o with writer := o.writer.sever } := by
      intro r
      by_cases hr : r = role
      · exact Or.inr (if_pos hr)
      · exact Or.inl (if_neg hr)
    refine ⟨⟨⟨rfl, rfl, rfl⟩, fun r => ?_, fun r => ?_⟩, rfl⟩
    · rcases houtlet r with hr | hr <;> simp only [framesTo, hr]
      cases c.outlets r <;> rfl
    · rcases houtlet r with hr | hr <;> simp only [connects, hr]
      cases c.outlets r <;> rfl

namespace Scene

theorem quiet_waitFrom (deadline now : Nat) (c : Coordinator) (script : List (Nat × Happening)) :
    c.Quiet (waitFrom deadline now c script).2.coordinator := by
  induction script generalizing now c with
  | nil =>
    unfold waitFrom
    split <;> exact quiet_inbox c _
  | cons due script ih =>
    obtain ⟨moment, h⟩ := due
    unfold waitFrom
    split
    · exact (quiet_meet h c).trans (ih now (c.meet h))
    · split
      · exact quiet_inbox c _
      · exact quiet_inbox c _
      · next inbox hpoll =>
        dsimp only
        split
        · exact (quiet_inbox c inbox).trans ((quiet_meet h _).trans (ih moment _))
        · exact quiet_inbox c inbox

theorem quiet_wait (deadline : Nat) (s : Scene) : s.coordinator.Quiet (s.wait deadline).2.coordinator :=
  quiet_waitFrom deadline s.now s.coordinator s.script

theorem quiet_sleepTo (moment : Nat) (s : Scene) : s.coordinator.Quiet (s.sleepTo moment).coordinator := by
  have hfold : ∀ (due : List (Nat × Happening)) (c : Coordinator),
      c.Quiet (due.foldl (fun c h => c.meet h.2) c) := by
    intro due
    induction due with
    | nil => exact quiet_refl
    | cons h due ih => exact fun c => (quiet_meet h.2 c).trans (ih (c.meet h.2))
  exact hfold _ _

/-- An iteration that is cut off by the limit counts as one after which the work goes on. -/
theorem works_step (limit : Option Nat) (s : Scene) :
    Works s.coordinator (s.stepped limit) ((s.step limit).1.getD (.ok .more), (s.step limit).2.coordinator) := by
  have hprepare := works_prepare s.now s.coordinator
  have hcut : ∀ p : Bool, (if p then none else some (Except.ok Flow.more : Except Fault Flow)).getD (.ok .more) =
      .ok .more := fun p => by cases p <;> rfl
  unfold stepped
  rcases hresult : s.coordinator.prepare s.now with ⟨e | _ | _, c⟩ <;> rw [hresult] at hprepare
  · simpa [step, hresult, Turnout.onward] using hprepare
  · refine hprepare.trans ?_
    simp only [step, hresult, awaited, Turnout.onward]
    generalize (limit.map (min (s.now + c.config.readiness))).getD (s.now + c.config.readiness) = deadline
    split
    · rw [hcut]
      exact works_aside (quiet_sleepTo deadline { s with coordinator := c })
    · have hquiet := quiet_wait deadline { s with coordinator := c }
      rcases hwait : wait deadline { s with coordinator := c } with ⟨_ | event, s'⟩ <;> rw [hwait] at hquiet
      · rw [hcut]
        exact works_aside hquiet
      · exact .aside hquiet (works_attend event s'.coordinator)
  · simpa [step, hresult, Turnout.onward] using hprepare

/-! ### A run -/

/-- What has come of a run whose last event had this turnout: the display may have been closed after it. -/
structure Leaves (t : Turnout) (result : Option (Except Fault Summary)) (c : Coordinator) : Prop where
  ended : t.1 ≠ .ok .more → result.isSome = true
  coordinator : ∃ display, c = { t.2 with display := display }

theorem leaves_finish (ended : Except Fault Flow) (s : Scene) :
    Leaves (ended, s.coordinator) (some (finish ended s).1) (finish ended s).2.coordinator :=
  ⟨fun _ => rfl, (s.coordinator.display.call .shutdown).2, rfl⟩

theorem works_iterate (limit : Option Nat) (fuel : Nat) (s : Scene) :
    ∃ t : Turnout, Works s.coordinator (iterated limit fuel s) t ∧
      Leaves t (iterate limit fuel s).1 (iterate limit fuel s).2.coordinator := by
  induction fuel generalizing s with
  | zero => exact ⟨s.coordinator.go, .go _, fun h => absurd rfl h, s.coordinator.display, rfl⟩
  | succ fuel ih =>
    have hstep := works_step limit s
    rcases hresult : s.step limit with ⟨_ | e | _ | _, s'⟩ <;> rw [hresult] at hstep <;>
      simp only [iterated, iterate, hresult, List.append_nil]
    · exact ⟨s'.coordinator.go, hstep, fun h => absurd rfl h, s'.coordinator.display, rfl⟩
    · exact ⟨_, hstep, leaves_finish _ s'⟩
    · obtain ⟨t, ht, hleaves⟩ := ih s'
      exact ⟨t, hstep.trans ht, hleaves⟩
    · exact ⟨_, hstep, leaves_finish _ s'⟩

/-- A run handles the events of its log, from the start on. -/
theorem works_run (limit : Option Nat) (fuel : Nat) (s : Scene) :
    ∃ t : Turnout, Works s.coordinator (s.handled limit fuel) t ∧
      Leaves t (s.run limit fuel).1 (s.run limit fuel).2.coordinator := by
  have hstart := Works.last s.coordinator .start
  unfold handled run
  rcases hresult : s.coordinator.start with ⟨e | flow, c⟩ <;> rw [upon, hresult] at hstart
  · exact ⟨_, hstart, fun _ => rfl, c.display, rfl⟩
  · obtain rfl := start_goes_on hresult
    obtain ⟨t, ht, hleaves⟩ := works_iterate limit fuel { s with coordinator := c }
    exact ⟨t, hstart.trans ht, hleaves⟩

end Scene
end Coordinator
end GridFlight
