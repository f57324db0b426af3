import GridFlight.Proofs.Coordinator.Handled

/-! The coordinator says EXIT when it quits, and at no other time. Whatever it is busy with, no part is told to exit and
    the outlet to the supervisor is left alone, unless the work ends there with a quit. -/

namespace GridFlight
namespace Coordinator

variable {c d : Coordinator} {t : Turnout} {e : Event} {m : Message}

/-- The outlet to the supervisor when something has been handled with this result. -/
def supervisorAfter (c : Coordinator) : Except Fault Flow → Option Outlet
  | .ok .quit => c.supervisor.map fun o => (o.write Message.exit.toFrame).drop
  | _ => c.supervisor

/-- The supervisor is told to exit exactly when the coordinator quits. -/
def Tells (c : Coordinator) (t : Turnout) : Prop := t.2.supervisor = c.supervisorAfter t.1

theorem Tells.trans (h : d.supervisor = c.supervisor) (ht : d.Tells t) : c.Tells t := by
  have hafter : d.supervisorAfter t.1 = c.supervisorAfter t.1 := by
    unfold supervisorAfter
    rw [h]
  exact Eq.trans ht hafter

/-! ### Sparing -/

theorem supervisor_broadcast (roles : List Role) (m : Message) (c : Coordinator) :
    (c.broadcast roles m).supervisor = c.supervisor :=
  broadcast_induction (motive := fun d => d.supervisor = c.supervisor) rfl fun _ _ h => h

theorem supervisor_broadcastExcept (except : Option Role) (m : Message) (c : Coordinator) :
    (c.broadcastExcept except m).supervisor = c.supervisor := supervisor_broadcast _ m c

/-- From `c` to `d` no EXIT has gone out to the parts, and nothing to the supervisor. -/
structure Spares (c d : Coordinator) : Prop where
  mail : ∃ mail : Mail, (∀ r, .exit ∉ mail r) ∧ c.Sends d mail
  supervisor : d.supervisor = c.supervisor

theorem spares_of_outlets (h : d.outlets = c.outlets) (hsupervisor : d.supervisor = c.supervisor) : c.Spares d :=
  ⟨⟨.none, by simp, sends_none h⟩, hsupervisor⟩

theorem Spares.trans {c d e : Coordinator} (hcd : c.Spares d) (hde : d.Spares e) : c.Spares e := by
  obtain ⟨first, hfirst, hsends⟩ := hcd.mail
  obtain ⟨second, hsecond, hsends'⟩ := hde.mail
  refine ⟨⟨first.both second, fun r hexit => ?_, hsends.trans hsends'⟩, hde.supervisor.trans hcd.supervisor⟩
  rcases Mail.mem_both.mp hexit with h | h
  · exact hfirst r h
  · exact hsecond r h

theorem spares_act {task : Task} (hquits : e.quits = false) (h : task.Due e) (c : Coordinator) :
    c.Spares (task.act c).2 := by
  have hgoes : e.quits ≠ true := by simp [hquits]
  refine ⟨⟨task.mail, fun r hexit => ?_, sends_act h c⟩, ?_⟩
  · cases task with
    | enter | keep | mark | draw | feel | status | dismiss => cases hexit
    | deliver m role => exact h (Mail.mem_toEach.mp hexit).2.symm
    | broadcast roles m => exact h.1 (Mail.mem_toEach.mp hexit).2.symm
    | broadcastExcept except m => exact hgoes (h (Mail.mem_toAllBut.mp hexit).2.symm)
  · cases task with
    | enter | keep | mark | draw | feel | status | deliver => rfl
    | broadcast roles m => exact supervisor_broadcast roles m c
    | broadcastExcept except m => exact supervisor_broadcastExcept except m c
    | dismiss => exact absurd h hgoes

/-- A turnout that is no quit, after work that has told nobody to exit. -/
structure Plain (c : Coordinator) (t : Turnout) : Prop where
  result : t.1 ≠ .ok .quit
  spares : c.Spares t.2

theorem plain_go_self (c : Coordinator) : c.Plain c.go := ⟨nofun, spares_of_outlets rfl rfl⟩

theorem Plain.after (h : c.Spares d) (ht : d.Plain t) : c.Plain t := ⟨ht.result, h.trans ht.spares⟩

theorem plain_upon (h : e.quits = false) (c : Coordinator) : c.Plain (c.upon e) := by
  refine ⟨fun hquit => ?_, ?_⟩
  · have hflow := upon_flow (d := (c.upon e).2) (Prod.ext hquit rfl)
    rw [h] at hflow
    cases hflow
  · rw [upon_performs]
    exact perform_induction (motive := c.Spares) (spares_of_outlets rfl rfl) fun task htask d hd =>
      hd.trans (spares_act h (due_tasks e c task htask) d)

/-- EXIT goes out to everybody. -/
theorem quit_upon (h : e.quits = true) (c : Coordinator) :
    (c.upon e).1 = .ok .quit ∧ c.Sends (c.upon e).2 (.toAllBut none .exit) ∧ c.Tells (c.upon e) := by
  have hquit : ∀ d : Coordinator, d.outlets = c.outlets → d.supervisor = c.supervisor →
      d.quit.1 = .ok .quit ∧ c.Sends d.quit.2 (.toAllBut none .exit) ∧ c.Tells d.quit := by
    intro d houtlets hsupervisor
    refine ⟨rfl, (sends_broadcastExcept none .exit d).of_outlets houtlets, .trans hsupervisor ?_⟩
    rw [Tells, quit, supervisorAfter, supervisor_broadcastExcept]
  unfold Event.quits at h
  split at h
  · exact hquit { c with phase := .processingInput } rfl rfl
  · exact hquit { c with phase := .processingInput } rfl rfl
  · exact hquit c rfl rfl
  · cases h

theorem Plain.tells (h : c.Plain t) : c.Tells t := by
  obtain ⟨e | _ | _, d⟩ := t
  · exact h.spares.supervisor
  · exact h.spares.supervisor
  · exact absurd rfl h.result

theorem tells_upon (e : Event) (c : Coordinator) : c.Tells (c.upon e) := by
  cases h : e.quits with
  | true => exact (quit_upon h c).2.2
  | false => exact (plain_upon h c).tells

theorem tells_start (c : Coordinator) : c.Tells c.start := tells_upon .start c

theorem Works.tells {events : List Event} (h : Works c events t) : c.Tells t := by
  induction h with
  | aside hquiet _ ih => exact ih.trans hquiet.supervisor
  | go c => exact rfl
  | fail e c => exact rfl
  | last c e => exact tells_upon e c
  | @next c d e _ _ hupon _ ih =>
    have htells := tells_upon e c
    rw [hupon] at htells
    exact ih.trans htells

/-- An iteration tells the supervisor exactly when the work ends there with a quit. -/
theorem Scene.supervisor_step (limit : Option Nat) (s : Scene) :
    (s.step limit).2.coordinator.supervisor = s.coordinator.supervisorAfter ((s.step limit).1.getD (.ok .more)) :=
  (works_step limit s).tells

end Coordinator
end GridFlight
