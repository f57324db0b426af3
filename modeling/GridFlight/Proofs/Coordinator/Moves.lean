import GridFlight.Proofs.Coordinator.Handled
import GridFlight.Proofs.Coordinator.Offers

/-! The work of the coordinator under any order of its channels. A move is one thing that the loop does or that happens
    to it; which channel is heard next is a move of its own, so that a list of moves fixes what a multiplexer is free
    to choose. Every run of a scene is a list of moves. Apart from hearing, no move of the coordinator reads or
    changes its inbound channels. -/

namespace GridFlight
namespace Coordinator

/-! ### Work without the inbound channels -/

/-- The same coordinator with these inbound channels. -/
def fitted (b : Inbox) (c : Coordinator) : Coordinator := { c with inbox := b }

def Turnout.fitted (b : Inbox) (t : Turnout) : Turnout := (t.1, t.2.fitted b)

/-- Work that neither reads nor changes the inbound channels. -/
def Detached (work : Coordinator → Turnout) : Prop := ∀ b c, work (c.fitted b) = (work c).fitted b

theorem Detached.inbox {work : Coordinator → Turnout} (h : Detached work) (c : Coordinator) :
    (work c).2.inbox = c.inbox :=
  congrArg (fun t : Turnout => t.2.inbox) (h c.inbox c)

theorem fitted_broadcast (roles : List Role) (m : Message) (b : Inbox) (c : Coordinator) :
    (c.fitted b).broadcast roles m = (c.broadcast roles m).fitted b := by
  have hfold : ∀ (roles : List Role) (c : Coordinator),
      roles.foldl (deliver m.toFrame) (c.fitted b) = (roles.foldl (deliver m.toFrame) c).fitted b := by
    intro roles
    induction roles with
    | nil => exact fun _ => rfl
    | cons role roles ih => exact fun c => ih (c.deliver m.toFrame role)
  exact hfold roles { c with phase := .broadcasting }

theorem act_fitted (task : Task) (b : Inbox) (c : Coordinator) :
    task.act (c.fitted b) = ((task.act c).1, (task.act c).2.fitted b) := by
  cases task with
  | enter | keep | mark | draw | feel | status | deliver | dismiss => rfl
  | broadcast roles m => exact congrArg (Prod.mk _) (fitted_broadcast roles m b c)
  | broadcastExcept except m => exact congrArg (Prod.mk _) (fitted_broadcast _ m b c)

theorem detached_perform (flow : Flow) (ts : List Task) : Detached (perform flow ts) := by
  intro b c
  induction ts generalizing c with
  | nil => rfl
  | cons task later ih =>
    rw [perform, perform, act_fitted]
    rcases task.act c with ⟨e | _, d⟩
    · rfl
    · exact ih d

theorem tasks_fitted (e : Event) (b : Inbox) (c : Coordinator) : tasks e (c.fitted b) = tasks e c := by
  cases e <;> rfl

theorem detached_upon (e : Event) : Detached (upon e) := by
  intro b c
  rw [upon_performs, upon_performs, tasks_fitted]
  exact detached_perform _ _ b c

theorem detached_dispatch (event : Inbound) : Detached (dispatch event) := by
  intro b c
  match event with
  | .closed _ | .item _ (.error _) => rfl
  | .item sender (.ok f) =>
    simp only [dispatch]
    cases Message.ofFrame f with
    | ok m => exact detached_upon (.message sender m) b { c with frames := c.frames + 1 }
    | error e => rfl

/-- Work that goes on with other work if it is not at its end. -/
theorem detached_then {work next : Coordinator → Turnout} (h : Detached work) (hnext : Detached next) :
    Detached fun c => match work c with
      | (.ok .more, c) => next c
      | turnout => turnout := by
  intro b c
  dsimp only
  rw [h b c]
  rcases work c with ⟨e | _ | _, d⟩
  · rfl
  · exact hnext b d
  · rfl

theorem detached_drain (events : List UiEvent) : Detached (drain events) := by
  induction events with
  | nil =>
    intro b c
    rcases hask : c.input.ask with ⟨e | _, input⟩ <;> simp only [drain, fitted, hask] <;> rfl
  | cons event later ih =>
    intro b c
    rcases hask : c.input.ask with ⟨e | _, input⟩ <;> simp only [drain, fitted, hask]
    · rfl
    · exact detached_then (detached_upon (.user event)) ih b { c with input := { input with pending := later } }

theorem detached_prepare (now : Nat) : Detached (prepare now) := by
  intro b c
  exact detached_then (detached_drain c.input.pending) (detached_upon (.time now)) b
    { c with iterations := c.iterations + 1, phase := .idle }

theorem detached_start : Detached start := detached_upon .start

/-! ### Moves -/

inductive Move where
  | start
  /-- An iteration begins: the events of the user and the time. -/
  | prepare (now : Nat)
  | meet (h : Happening)
  /-- A channel is heard, and what it offers is handled. -/
  | hear (channel : Nat)
  /-- An ended channel is given up. -/
  | giveUp (channel : Nat)
  | queue (line : List Nat)

namespace Move

def take : Move → Coordinator → Turnout
  | .start, c => c.start
  | .prepare now, c => c.prepare now
  | .meet h, c => (c.meet h).go
  | .hear n, c =>
    match c.inbox.hear n with
    | some (event, inbox) => (c.fitted inbox).dispatch event
    | none => c.go
  | .giveUp n, c => (c.fitted (c.inbox.giveUp n)).go
  | .queue line, c => (c.fitted (c.inbox.queue line)).go

def happening? : Move → Option Happening
  | .meet h => some h
  | _ => none

end Move

/-- The moves one after the other, as long as the coordinator goes on. -/
def follow : List Move → Coordinator → Turnout
  | [], c => c.go
  | m :: later, c =>
    match m.take c with
    | (.ok .more, c) => follow later c
    | turnout => turnout

/-- What the moves let happen around the coordinator. -/
def happenings (moves : List Move) : List Happening := moves.filterMap Move.happening?

theorem follow_append {c d : Coordinator} {moves : List Move} (h : follow moves c = d.go) (later : List Move) :
    follow (moves ++ later) c = follow later d := by
  induction moves generalizing c with
  | nil =>
    obtain rfl : c = d := (Prod.mk.inj h).2
    rfl
  | cons m moves ih =>
    rw [follow] at h
    rw [List.cons_append, follow]
    rcases hm : m.take c with ⟨e | _ | _, c'⟩ <;> simp only [hm] at h ⊢
    · cases h
    · exact ih h
    · cases h

theorem follow_one {c : Coordinator} (m : Move) : follow [m] c = m.take c := by
  rw [follow]
  rcases m.take c with ⟨e | _ | _, d⟩ <;> rfl

theorem happenings_append (moves later : List Move) : happenings (moves ++ later) = happenings moves ++ happenings later :=
  List.filterMap_append

variable {c d : Coordinator} {moves : List Move} {t : Turnout}

/-- Moves of the rest of the work are added if the work goes on. -/
theorem follow_onward {next : Coordinator → Turnout}
    (hnext : ∀ d, ∃ later, happenings later = [] ∧ follow later d = next d) :
    follow moves c = t → ∃ later, happenings later = [] ∧ follow (moves ++ later) c = match t with
      | (.ok .more, d) => next d
      | turnout => turnout := by
  intro h
  obtain ⟨e | _ | _, d⟩ := t
  · exact ⟨[], rfl, by rw [List.append_nil]; exact h⟩
  · obtain ⟨later, hquiet, hlater⟩ := hnext d
    exact ⟨later, hquiet, (follow_append h later).trans hlater⟩
  · exact ⟨[], rfl, by rw [List.append_nil]; exact h⟩

/-! ### A run as moves -/

/-- These moves lead up to what has come in, if anything has. -/
def Reaches (c : Coordinator) (moves : List Move) : Option Inbound → Coordinator → Prop
  | none, d => follow moves c = d.go
  | some event, d => ∃ ready n, follow moves c = go ready ∧ ready.inbox.hear n = some (event, d.inbox) ∧
      ready.fitted d.inbox = d

theorem Reaches.after {event : Option Inbound} {e : Coordinator} {later : List Move} (h : d.Reaches later event e)
    (hmoves : follow moves c = d.go) : c.Reaches (moves ++ later) event e := by
  cases event with
  | none => exact (follow_append hmoves later).trans h
  | some event =>
    obtain ⟨ready, n, hready, hhear⟩ := h
    exact ⟨ready, n, (follow_append hmoves later).trans hready, hhear⟩

theorem Reaches.dispatch {event : Inbound} (h : c.Reaches moves (some event) d) :
    ∃ n, follow (moves ++ [.hear n]) c = d.dispatch event := by
  obtain ⟨ready, n, hready, hhear, hfitted⟩ := h
  refine ⟨n, ?_⟩
  rw [follow_append hready, follow_one, Move.take, hhear]
  exact congrArg (Coordinator.dispatch event) hfitted

theorem reaches_poll (c : Coordinator) :
    ∃ moves, happenings moves = [] ∧ c.Reaches moves c.inbox.poll.1.inbound? (c.fitted c.inbox.poll.2) := by
  obtain ⟨gone, later, h⟩ := Inbox.ask_cases c.inbox.line c.inbox
  have hgone : ∀ (gone : List Nat) (c : Coordinator),
      follow (gone.map .giveUp) c = go (c.fitted (gone.foldl (fun b n => b.giveUp n) c.inbox)) := by
    intro gone
    induction gone with
    | nil => exact fun c => rfl
    | cons n gone ih => exact fun c => ih (c.fitted (c.inbox.giveUp n))
  have hready := follow_append (hgone gone c) [.queue later]
  refine ⟨gone.map .giveUp ++ [.queue later], ?_, ?_⟩
  · have hquiet : ∀ gone : List Nat, happenings (gone.map Move.giveUp) = [] := by
      intro gone
      induction gone with
      | nil => rfl
      | cons n gone ih => exact ih
    rw [happenings_append, hquiet]
    rfl
  · rcases h with ⟨n, event, after, hask, hhear⟩ | ⟨offer, hoffer, hask⟩ <;> rw [Inbox.poll, hask]
    · exact ⟨_, n, hready, hhear, rfl⟩
    · cases offer with
      | event event => exact absurd rfl (hoffer event)
      | pending | exhausted => exact hready

theorem exists_attendMore (n : Nat) (c : Coordinator) :
    ∃ moves, happenings moves = [] ∧ follow moves c = attendMore n c := by
  induction n generalizing c with
  | zero => exact ⟨[], rfl, rfl⟩
  | succ n ih =>
    obtain ⟨moves, hquiet, h⟩ := reaches_poll c
    rcases hpoll : c.inbox.poll with ⟨event | _ | _, inbox⟩ <;> rw [hpoll] at h <;> simp only [attendMore, hpoll]
    · obtain ⟨k, hdispatch⟩ := h.dispatch
      obtain ⟨later, hlater, hfollow⟩ := follow_onward ih hdispatch
      refine ⟨_, ?_, hfollow⟩
      rw [happenings_append, happenings_append, hquiet, hlater]
      rfl
    · exact ⟨moves, hquiet, h⟩
    · exact ⟨moves, hquiet, h⟩

theorem exists_attend {event : Inbound} (h : c.Reaches moves (some event) d) :
    ∃ later, happenings later = [] ∧ follow (moves ++ later) c = d.attend event := by
  obtain ⟨n, hdispatch⟩ := h.dispatch
  obtain ⟨later, hlater, hfollow⟩ := follow_onward (fun e => exists_attendMore (e.inbox.size - 1) e) hdispatch
  refine ⟨[.hear n] ++ later, hlater, ?_⟩
  rw [← List.append_assoc]
  exact hfollow

namespace Scene

/-- The happenings of a script, in their order. -/
def ahead (script : List (Nat × Happening)) : List Happening := script.map Prod.snd

theorem reaches_waitFrom (deadline now : Nat) (c : Coordinator) (script : List (Nat × Happening)) :
    ∃ moves, ahead script = happenings moves ++ ahead (waitFrom deadline now c script).2.script ∧
      c.Reaches moves (waitFrom deadline now c script).1 (waitFrom deadline now c script).2.coordinator := by
  induction script generalizing now c with
  | nil =>
    obtain ⟨moves, hquiet, h⟩ := reaches_poll c
    refine ⟨moves, ?_⟩
    rcases hpoll : c.inbox.poll with ⟨event | _ | _, inbox⟩ <;> rw [hpoll] at h <;>
      simp only [waitFrom, hpoll, hquiet] <;> exact ⟨rfl, h⟩
  | cons due script ih =>
    obtain ⟨moment, happening⟩ := due
    have hmeet : ∀ (now : Nat) (c : Coordinator), ∃ moves,
        happening :: ahead script =
          happenings moves ++ ahead (waitFrom deadline now (c.meet happening) script).2.script ∧
          c.Reaches moves (waitFrom deadline now (c.meet happening) script).1
            (waitFrom deadline now (c.meet happening) script).2.coordinator := by
      intro now c
      obtain ⟨moves, hscript, h⟩ := ih now (c.meet happening)
      refine ⟨[.meet happening] ++ moves, ?_, h.after rfl⟩
      rw [hscript]
      rfl
    unfold waitFrom
    split
    · exact hmeet now c
    · obtain ⟨moves, hquiet, h⟩ := reaches_poll c
      rcases hpoll : c.inbox.poll with ⟨event | _ | _, inbox⟩ <;> rw [hpoll] at h <;> dsimp only
      · exact ⟨moves, by rw [hquiet]; rfl, h⟩
      · split
        · obtain ⟨later, hscript, hlater⟩ := hmeet moment (c.fitted inbox)
          refine ⟨moves ++ later, ?_, hlater.after h⟩
          rw [happenings_append, hquiet]
          exact hscript
        · exact ⟨moves, by rw [hquiet]; rfl, h⟩
      · exact ⟨moves, by rw [hquiet]; rfl, h⟩

theorem exists_sleepTo (moment : Nat) (s : Scene) :
    ∃ moves, ahead s.script = happenings moves ++ ahead (s.sleepTo moment).script ∧
      follow moves s.coordinator = (s.sleepTo moment).coordinator.go := by
  have hfold : ∀ (due : List (Nat × Happening)) (c : Coordinator),
      happenings (due.map fun h => .meet h.2) = ahead due ∧
        follow (due.map fun h => .meet h.2) c = go (due.foldl (fun c h => c.meet h.2) c) := by
    intro due
    induction due with
    | nil => exact fun c => ⟨rfl, rfl⟩
    | cons h due ih => exact fun c => ⟨congrArg (h.2 :: ·) (ih c).1, (ih (c.meet h.2)).2⟩
  obtain ⟨hahead, hfollow⟩ := hfold (s.script.takeWhile fun h => h.1 < moment) s.coordinator
  refine ⟨_, ?_, hfollow⟩
  rw [hahead, ahead, ahead, ahead, ← List.map_append]
  exact congrArg (List.map Prod.snd) (List.prefix_iff_eq_append.mp (List.takeWhile_prefix _)).symm

/-- An iteration is made of moves. One that is cut off by the limit counts as one after which the work goes on. -/
theorem exists_step (limit : Option Nat) (s : Scene) :
    ∃ moves, ahead s.script = happenings moves ++ ahead (s.step limit).2.script ∧
      follow moves s.coordinator = ((s.step limit).1.getD (.ok .more), (s.step limit).2.coordinator) := by
  have hprepare : follow [.prepare s.now] s.coordinator = s.coordinator.prepare s.now := follow_one _
  have hcut : ∀ p : Bool, (if p then none else some (Except.ok Flow.more : Except Fault Flow)).getD (.ok .more) =
      .ok .more := fun p => by cases p <;> rfl
  rcases hresult : s.coordinator.prepare s.now with ⟨e | _ | _, c⟩ <;> rw [hresult] at hprepare <;>
    simp only [step, hresult]
  · exact ⟨[.prepare s.now], rfl, hprepare⟩
  · generalize (limit.map (min (s.now + c.config.readiness))).getD (s.now + c.config.readiness) = deadline
    split
    · obtain ⟨moves, hscript, hsleep⟩ := exists_sleepTo deadline { s with coordinator := c }
      refine ⟨[.prepare s.now] ++ moves, hscript, ?_⟩
      rw [hcut, follow_append hprepare, hsleep]
      rfl
    · obtain ⟨moves, hscript, hwait⟩ := reaches_waitFrom deadline s.now c s.script
      have hreach := hwait.after hprepare
      rcases hwaited : wait deadline { s with coordinator := c } with ⟨_ | event, s'⟩ <;>
        rw [wait] at hwaited <;> rw [hwaited] at hscript hreach
      · refine ⟨[.prepare s.now] ++ moves, hscript, ?_⟩
        rw [hcut]
        exact hreach
      · obtain ⟨later, hlater, hattend⟩ := exists_attend hreach
        refine ⟨[.prepare s.now] ++ moves ++ later, ?_, hattend⟩
        rw [happenings_append, hlater, List.append_nil]
        exact hscript
  · exact ⟨[.prepare s.now], rfl, hprepare⟩

theorem exists_iterate (limit : Option Nat) (fuel : Nat) (s : Scene) :
    ∃ moves, ahead s.script = happenings moves ++ ahead (iterate limit fuel s).2.script ∧
      Leaves (follow moves s.coordinator) (iterate limit fuel s).1 (iterate limit fuel s).2.coordinator := by
  induction fuel generalizing s with
  | zero => exact ⟨[], rfl, fun h => absurd rfl h, s.coordinator.display, rfl⟩
  | succ fuel ih =>
    obtain ⟨moves, hscript, hstep⟩ := exists_step limit s
    rcases hresult : s.step limit with ⟨_ | e | _ | _, s'⟩ <;> rw [hresult] at hscript hstep <;>
      simp only [iterate, hresult]
    · exact ⟨moves, hscript, hstep ▸ ⟨fun h => absurd rfl h, s'.coordinator.display, rfl⟩⟩
    · exact ⟨moves, hscript, hstep ▸ leaves_finish _ s'⟩
    · obtain ⟨later, hlater, hleaves⟩ := ih s'
      refine ⟨moves ++ later, ?_, ?_⟩
      · rw [happenings_append, List.append_assoc, ← hlater]
        exact hscript
      · rw [follow_append hstep]
        exact hleaves
    · exact ⟨moves, hscript, hstep ▸ leaves_finish _ s'⟩

/-- A run is made of moves, and lets what its script holds happen in order. -/
theorem exists_run (limit : Option Nat) (fuel : Nat) (s : Scene) :
    ∃ moves, ahead s.script = happenings moves ++ ahead (s.run limit fuel).2.script ∧
      Leaves (follow moves s.coordinator) (s.run limit fuel).1 (s.run limit fuel).2.coordinator := by
  have hstart : follow [.start] s.coordinator = s.coordinator.start := follow_one _
  rcases hresult : s.coordinator.start with ⟨e | flow, c⟩ <;> rw [hresult] at hstart <;> simp only [run, hresult]
  · exact ⟨[.start], rfl, hstart ▸ ⟨fun _ => rfl, c.display, rfl⟩⟩
  · obtain rfl := start_goes_on hresult
    obtain ⟨moves, hscript, hleaves⟩ := exists_iterate limit fuel { s with coordinator := c }
    refine ⟨[.start] ++ moves, hscript, ?_⟩
    rw [follow_append hstart]
    exact hleaves

end Scene
end Coordinator
end GridFlight
