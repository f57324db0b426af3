import GridFlight.Proofs.Coordinator.Tasks

/-! What the coordinator has done upon an event, when it goes on afterwards: how the world has changed, and which messages
    have gone out to which parts. Both are read off the tasks; what holds over a whole course is read off the deeds. -/

namespace GridFlight
namespace Coordinator

variable {c d : Coordinator} {e : Event} {flow flow' : Flow} {task : Task} {ts : List Task}

/-! ### Tasks -/

/-- The world after a task. -/
def Task.leaves : Task → World → World
  | draw world, _ => world
  | feel report, w => { w with forces := report }
  | _, w => w

/-- The messages that a task sends to the parts. -/
def Task.mail : Task → Mail
  | deliver m role => .toEach [role] m
  | broadcast roles m => .toEach roles m
  | broadcastExcept except m => .toAllBut except m
  | _ => .none

theorem world_act (task : Task) (c : Coordinator) : (task.act c).2.world = task.leaves c.world := by
  cases task with
  | enter | keep | mark | draw | feel | status | deliver | dismiss => rfl
  | broadcast roles m => exact world_broadcast roles m c
  | broadcastExcept except m => exact world_broadcast _ m c

/-- A task sends its mail, whether it succeeds or not. -/
theorem sends_act (h : task.Due e) (c : Coordinator) : c.Sends (task.act c).2 task.mail := by
  cases task with
  | enter | keep | mark | draw | feel | status | dismiss => exact sends_none rfl
  | deliver m role => exact sends_deliver m role c
  | broadcast roles m => exact sends_broadcast roles m c h.2
  | broadcastExcept except m => exact sends_broadcastExcept except m c

/-- The world after some tasks. -/
def worldAfter (ts : List Task) (w : World) : World := ts.foldl (fun w task => task.leaves w) w

/-- The messages that some tasks send to the parts. -/
def mailAll (ts : List Task) : Mail := ts.foldr (fun task mail => task.mail.both mail) .none

@[simp] theorem mailAll_nil : mailAll [] = .none := rfl

@[simp] theorem mailAll_cons (task : Task) (ts : List Task) : mailAll (task :: ts) = task.mail.both (mailAll ts) := rfl

theorem perform_ok (h : perform flow ts c = (.ok flow', d)) (hdue : ∀ task ∈ ts, task.Due e) :
    d.world = worldAfter ts c.world ∧ c.Sends d (mailAll ts) := by
  induction ts generalizing c with
  | nil =>
    obtain rfl := (Prod.mk.inj h).2
    exact ⟨rfl, sends_none rfl⟩
  | cons task later ih =>
    obtain ⟨htask, hdue⟩ := List.forall_mem_cons.mp hdue
    obtain ⟨c', hact, hlater⟩ := perform_cons_ok h
    obtain ⟨hworld, hsends⟩ := ih hlater hdue
    have hfirst := sends_act htask c
    have hleaves := world_act task c
    rw [hact] at hfirst hleaves
    rw [hleaves] at hworld
    exact ⟨hworld, hfirst.trans hsends⟩

theorem world_upon (h : c.upon e = (.ok flow, d)) : d.world = worldAfter (tasks e c) c.world :=
  (perform_ok ((upon_performs e c).symm.trans h) (due_tasks e c)).1

theorem worldAfter_announcing (w v : World) : worldAfter (announcing w) v = v := by
  unfold announcing
  split <;> rfl

theorem worldAfter_touching (w : World) (draws : Draws) :
    worldAfter (touching w draws) w = (w.resolveContact draws).2.1 := by
  rcases hcontact : w.resolveContact draws with ⟨contact, v, later⟩
  rcases touching_cases hcontact with ⟨-, rfl, hstay⟩ | ⟨-, -, hmove⟩
  · rw [hstay]
    rfl
  · rw [hmove]
    exact worldAfter_announcing v v

theorem tasks_of_flight {sender : Role} (hsender : sender ≠ .relay) (p : Vec Float32) (c : Coordinator) :
    tasks (.message sender (.position p)) c = .draw { c.world with drone := p } :: .deliver (.position p) .relay ::
      touching { c.world with drone := p } c.draws := if_neg hsender

/-! ### Deeds -/

/-- What an event with this outcome has done to the world, and the messages that it has sent. -/
inductive Deed (w : World) : Event → World → Mail → Prop where
  | start : Deed w .start w (.toAllBut none (.size w.window.width w.window.height))
  /-- The drone moves and no target does. -/
  | fly {sender : Role} {p : Vec Float32} {contact : Option Contact} {draws later : Draws} (hsender : sender ≠ .relay)
    (hcontact : { w with drone := p }.resolveContact draws = (contact, { w with drone := p }, later))
    (hstill : contact.any Contact.moves = false) :
    Deed w (.message sender (.position p)) { w with drone := p } (.toEach [.relay] (.position p))
  /-- The drone reaches a target. -/
  | reach {sender : Role} {p : Vec Float32} {contact : Option Contact} {draws later : Draws} {targets : List Cell}
    {reached : UInt32} (hsender : sender ≠ .relay)
    (hcontact : { w with drone := p }.resolveContact draws =
      (contact, { w with drone := p, targets := targets, reached := reached }, later))
    (hmoves : contact.any Contact.moves = true) :
    Deed w (.message sender (.position p)) { w with drone := p, targets := targets, reached := reached }
      ((Mail.toEach [.relay] (.position p)).both ((Mail.toEach [.physics, .obstacles] (.targets targets)).both
        (if targets.isEmpty then .toEach [.targets] (.obstacles w.obstacles) else .none)))
  | remote {p : Vec Float32} :
    Deed w (.message .relay (.position p)) { w with remote := some p } (.toEach [.physics] (.obstacles [.ofPosition p]))
  | force {sender : Role} {report : ForceReport} :
    Deed w (.message sender (.force report)) { w with forces := report } .none
  | obstacles {sender : Role} {cells : List Cell} :
    Deed w (.message sender (.obstacles cells)) { w with obstacles := cells }
      (.toEach (without sender [.physics, .targets]) (.obstacles cells))
  | targets {sender : Role} {cells : List Cell} :
    Deed w (.message sender (.targets cells)) { w with targets := cells }
      (.toEach (without sender [.physics, .obstacles]) (.targets cells))
  | size {sender : Role} {width height : Int32} :
    Deed w (.message sender (.size width height)) { w with window := ⟨width, height⟩ }
      (.toAllBut (some sender) (.size width height))
  /-- A message that a part has no business sending. -/
  | ignore {sender : Role} {m : Message} (hkind : m.kind ∈ [.input, .exit, .pid, .ping, .pong]) :
    Deed w (.message sender m) w .none
  | key {key : Char} : Deed w (.user (.key key)) w (.toEach [.physics] (.input key))
  | resize {window : Window} :
    Deed w (.user (.resize window)) { w with window := window } (.toAllBut none (.size window.width window.height))
  /-- It is not time yet, or no obstacle can move. -/
  | wait {now : Nat} : Deed w (.time now) w .none
  | relocate {now index : Nat} {cell : Cell} (hindex : index < w.obstacles.length) :
    Deed w (.time now) { w with obstacles := w.obstacles.set index cell }
      (.toEach [.physics] (.obstacles (w.obstacles.set index cell)))


theorem Deed.of_tasks {w v : World} {mail : Mail} (h : Deed w e v mail) (hworld : worldAfter ts w = v)
    (hmail : mailAll ts = mail) : Deed w e (worldAfter ts w) (mailAll ts) := by
  subst hworld
  subst hmail
  exact h

/-- What the drone does upon a position, by whether it reaches a target there. -/
theorem deed_of_flight {sender : Role} (hsender : sender ≠ .relay) (p : Vec Float32) (c : Coordinator) :
    Deed c.world (.message sender (.position p)) (worldAfter (tasks (.message sender (.position p)) c) c.world)
      (mailAll (tasks (.message sender (.position p)) c)) := by
  rw [tasks_of_flight hsender]
  rcases hcontact : { c.world with drone := p }.resolveContact c.draws with ⟨contact, v, later⟩
  rcases touching_cases hcontact with ⟨hstill, rfl, htouching⟩ | ⟨hmoves, ⟨targets, reached, rfl⟩, htouching⟩ <;>
    rw [htouching]
  · exact .of_tasks (.fly hsender hcontact hstill) rfl (by simp [Task.mail])
  · refine .of_tasks (.reach hsender hcontact hmoves) (worldAfter_announcing _ _) ?_
    by_cases hempty : targets.isEmpty = true <;> simp [announcing, Task.mail, hempty]

theorem deed_of_relocating (now : Nat) (c : Coordinator) :
    Deed c.world (.time now) (worldAfter (tasks (.time now) c) c.world) (mailAll (tasks (.time now) c)) := by
  simp only [tasks, tasksOfTime]
  split
  · exact .wait
  · rcases relocating_cases c.world c.draws with hstay | ⟨later, hstay⟩ | ⟨index, cell, later, hindex, hmove⟩
    · exact .of_tasks .wait (by rw [hstay]; rfl) (by simp [hstay, Task.mail])
    · exact .of_tasks .wait (by rw [hstay]; rfl) (by simp [hstay, Task.mail])
    · exact .of_tasks (.relocate hindex) (by rw [hmove]; rfl) (by simp [hmove, Task.mail])

/-- The tasks of an event that does not end the work amount to one of the deeds. -/
theorem deed_of_tasks (h : e.quits = false) (c : Coordinator) :
    Deed c.world e (worldAfter (tasks e c) c.world) (mailAll (tasks e c)) := by
  cases e with
  | start => exact .of_tasks .start rfl (by simp [tasks, Task.mail])
  | message sender m =>
    cases m with
    | position p =>
      by_cases hsender : sender = .relay
      · subst hsender
        exact .of_tasks .remote rfl (by simp [tasks, tasksOfMessage, Task.mail])
      · exact deed_of_flight hsender p c
    | force report =>
      simp only [tasks, tasksOfMessage]
      split
      · exact .of_tasks .force rfl (by simp [Task.mail])
      · exact .of_tasks .force rfl (by simp [Task.mail])
    | obstacles cells => exact .of_tasks .obstacles rfl (by simp [tasks, tasksOfMessage, Task.mail])
    | targets cells => exact .of_tasks .targets rfl (by simp [tasks, tasksOfMessage, Task.mail])
    | size width height => exact .of_tasks .size rfl (by simp [tasks, tasksOfMessage, Task.mail])
    | exit =>
      have hnone : tasks (.message sender .exit) c = [] := if_neg fun hsender => by
        subst hsender
        cases h
      rw [hnone]
      exact .ignore (by decide)
    | input | pid | ping | pong => exact .ignore (by simp [Message.kind])
  | user event =>
    cases event with
    | quit => cases h
    | resize window => exact .of_tasks .resize rfl (by simp [tasks, tasksOfUser, Task.mail])
    | key key =>
      have hkey : key ≠ 'q' := by
        rintro rfl
        cases h
      have htasks : tasks (.user (.key key)) c = [.enter .processingInput, .deliver (.input key) .physics] := by
        simp [tasks, tasksOfUser]
      rw [htasks]
      exact .of_tasks .key rfl (by simp [Task.mail])
  | time now => exact deed_of_relocating now c

/-- Whatever happens, the coordinator does one of the deeds if it goes on. -/
theorem deed_of_upon (h : c.upon e = (.ok .more, d)) : ∃ mail, Deed c.world e d.world mail ∧ c.Sends d mail := by
  have hquits : e.quits = false := by
    by_contra hquits
    have hflow := upon_flow h
    rw [if_pos (by simpa using hquits)] at hflow
    cases hflow
  obtain ⟨hworld, hsends⟩ := perform_ok ((upon_performs e c).symm.trans h) (due_tasks e c)
  exact ⟨_, hworld ▸ deed_of_tasks hquits c, hsends⟩

end Coordinator
end GridFlight
