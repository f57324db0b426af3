import GridFlight.Proofs.Coordinator.Links
import GridFlight.Proofs.World.Relocation

/-! What the coordinator does upon an event, as a list of tasks. Which tasks these are is settled beforehand, by the event
    and the state; the first that the display refuses is the last. Each handler is opened once, here, to show that it
    performs its tasks. What holds of every task, or of the tasks of an event, then holds of the handler. -/

namespace GridFlight

/-- A call is served or refused, and kept either way. -/
theorem Display.call_cases (call : Call) (d : Display) :
    d.refusal call.service (d.count call.service + 1) = none ∧
        d.call call = (.ok (), { d with calls := d.calls.push (call, true) }) ∨
      ∃ text, d.refusal call.service (d.count call.service + 1) = some text ∧
        d.call call = (.error (.screen text), { d with calls := d.calls.push (call, false) }) := by
  unfold Display.call
  cases d.refusal call.service (d.count call.service + 1) with
  | none => exact Or.inl ⟨rfl, rfl⟩
  | some text => exact Or.inr ⟨text, rfl, rfl⟩

namespace Coordinator

/-! ### Events -/

/-- What can happen to a coordinator at work. -/
inductive Event where
  | start
  | message (sender : Role) (m : Message)
  | user (event : UiEvent)
  | time (now : Nat)

/-- What the coordinator does upon an event. -/
def upon (e : Event) (c : Coordinator) : Turnout :=
  match e with
  | .start => c.start
  | .message sender m => c.apply sender m
  | .user event => c.handle event
  | .time now => c.tick now

/-- The user quits, by an event or by a key, or the relay says EXIT. -/
def Event.quits : Event → Bool
  | .user .quit | .user (.key 'q') | .message .relay .exit => true
  | _ => false

/-! ### Tasks -/

inductive Task where
  | enter (phase : Phase)
  /-- Goes on with these draws. -/
  | keep (draws : Draws)
  /-- Notes the moment at which an obstacle was to be moved. -/
  | mark (moment : Nat)
  /-- Takes over a world and draws it. -/
  | draw (world : World)
  /-- Takes over the forces, and draws nothing. -/
  | feel (report : ForceReport)
  | status (line : String)
  | deliver (m : Message) (role : Role)
  | broadcast (roles : List Role) (m : Message)
  | broadcastExcept (except : Option Role) (m : Message)
  /-- Tells the supervisor to exit, and drops its link. -/
  | dismiss

def Task.act (task : Task) (c : Coordinator) : Except Fault Unit × Coordinator :=
  match task with
  | enter phase => (.ok (), { c with phase := phase })
  | keep draws => (.ok (), { c with draws := draws })
  | mark moment => (.ok (), { c with lastRelocation := moment })
  | draw world => { c with phase := .rendering, world := world }.call (.render world)
  | feel report => (.ok (), { c with world := { c.world with forces := report } })
  | status line =>
    let (result, c) := { c with phase := .rendering }.call (.status line)
    let standing := match result with
      | .ok () => line
      | .error _ => c.lastStatus
    (result, { c with lastStatus := standing })
  | deliver m role => (.ok (), c.deliver m.toFrame role)
  | broadcast roles m => (.ok (), c.broadcast roles m)
  | broadcastExcept except m => (.ok (), c.broadcastExcept except m)
  | dismiss => (.ok (), { c with supervisor := c.supervisor.map fun o => (o.write Message.exit.toFrame).drop })

/-- The tasks one after the other, up to one that fails. -/
def perform (flow : Flow) : List Task → Coordinator → Turnout
  | [], c => (.ok flow, c)
  | task :: later, c =>
    match task.act c with
    | (.ok (), c) => perform flow later c
    | (.error e, c) => (.error e, c)

def announcing (w : World) : List Task :=
  .broadcast [.physics, .obstacles] (.targets w.targets) ::
    if w.targets.isEmpty then [.deliver (.obstacles w.obstacles) .targets] else []

/-- The drone is where this world has it. -/
def touching (w : World) (draws : Draws) : List Task :=
  let (contact, touched, draws) := w.resolveContact draws
  .keep draws :: if contact.any Contact.moves then .draw touched :: announcing touched else []

def quitting : List Task := [.broadcastExcept none .exit, .dismiss]

def tasksOfMessage (sender : Role) (m : Message) (c : Coordinator) : List Task :=
  match m with
  | .position p =>
    if sender = .relay then [.draw { c.world with remote := some p }, .deliver (.obstacles [.ofPosition p]) .physics]
    else
      let w := { c.world with drone := p }
      .draw w :: .deliver (.position p) .relay :: touching w c.draws
  | .force report =>
    let line := { c.world with forces := report }.statusLine
    .feel report :: if line = c.lastStatus then [] else [.status line]
  | .obstacles cells =>
    [.draw { c.world with obstacles := cells }, .broadcast (without sender [.physics, .targets]) (.obstacles cells)]
  | .targets cells =>
    [.draw { c.world with targets := cells }, .broadcast (without sender [.physics, .obstacles]) (.targets cells)]
  | .size width height =>
    [.draw { c.world with window := ⟨width, height⟩ }, .broadcastExcept (some sender) (.size width height)]
  | .exit => if sender = .relay then quitting else []
  | .input _ | .pid _ | .ping _ | .pong _ => []

def tasksOfUser (event : UiEvent) (c : Coordinator) : List Task :=
  .enter .processingInput ::
    match event with
    | .quit | .key 'q' => quitting
    | .key key => [.deliver (.input key) .physics]
    | .resize window =>
      [.draw { c.world with window := window }, .broadcastExcept none (.size window.width window.height)]

/-- An obstacle is to be moved. -/
def relocating (w : World) (draws : Draws) : List Task :=
  if w.obstacles.isEmpty then []
  else
    let (index, draws) := draws.index w.obstacles.length
    match w.relocateObstacle index draws with
    | (none, _, draws) => [.enter .updatingMap, .keep draws]
    | (some _, moved, draws) => [.keep draws, .draw moved, .broadcast [.physics] (.obstacles moved.obstacles)]

def tasksOfTime (now : Nat) (c : Coordinator) : List Task :=
  if now - c.lastRelocation < c.config.obstaclePeriod then [] else .mark now :: relocating c.world c.draws

def tasks (e : Event) (c : Coordinator) : List Task :=
  match e with
  | .start => [.draw c.world, .broadcastExcept none (.size c.world.window.width c.world.window.height)]
  | .message sender m => tasksOfMessage sender m c
  | .user event => tasksOfUser event c
  | .time now => tasksOfTime now c

/-! ### The handlers -/

variable {c d : Coordinator} {e : Event} {flow flow' : Flow} {task : Task} {ts : List Task}

/-- Work that starts with a drawing performs its tasks if what is left of it does. -/
theorem drawThen_performs {next : Coordinator → Turnout}
    (h : ∀ display, next { c with phase := .rendering, display := display } =
      perform .more ts { c with phase := .rendering, display := display }) :
    c.drawThen next = perform .more (.draw c.world :: ts) c := by
  simp only [drawThen, perform, Task.act, Coordinator.call]
  rcases c.display.call (.render c.world) with ⟨e | _, display⟩
  · rfl
  · exact h display

theorem world_broadcast (roles : List Role) (m : Message) (c : Coordinator) :
    (c.broadcast roles m).world = c.world :=
  broadcast_induction (motive := fun d => d.world = c.world) rfl fun _ _ h => h

theorem announceTargets_performs (c : Coordinator) : c.announceTargets.go = perform .more (announcing c.world) c := by
  unfold announceTargets announcing
  dsimp only
  rw [world_broadcast]
  split <;> rfl

theorem touchTarget_performs (c : Coordinator) : c.touchTarget = perform .more (touching c.world c.draws) c := by
  unfold touchTarget touching
  rcases hcontact : c.world.resolveContact c.draws with ⟨contact, v, draws⟩
  obtain ⟨hstill, rfl⟩ | ⟨hmoves, -⟩ := World.resolveContact_cases hcontact
  · simp only [hstill]
    match contact with
    | none | some (.unexpected _ _ none) => rfl
    | some (.expected _ _) | some (.unexpected _ _ (some _)) => cases hstill
  · simp only [hmoves]
    match contact with
    | none | some (.unexpected _ _ none) => cases hmoves
    | some (.expected _ _) | some (.unexpected _ _ (some _)) =>
      exact drawThen_performs (c := { c with world := v, draws := draws }) fun _ => announceTargets_performs _

theorem onPosition_performs (p : Vec Float32) (c : Coordinator) :
    c.onPosition p = perform .more (.draw { c.world with drone := p } :: .deliver (.position p) .relay ::
      touching { c.world with drone := p } c.draws) c :=
  drawThen_performs (c := { c with phase := .updatingMap, world := { c.world with drone := p } }) fun _ =>
    touchTarget_performs _

theorem onForce_performs (sender : Role) (report : ForceReport) (c : Coordinator) :
    c.onForce report = perform .more (tasksOfMessage sender (.force report) c) c := by
  unfold onForce tasksOfMessage
  dsimp only
  split
  · rfl
  · generalize World.statusLine _ = line
    simp only [perform, Task.act, Coordinator.call]
    rcases c.display.call (.status line) with ⟨_ | _, display⟩
    · rfl
    · rfl

theorem relocate_performs (c : Coordinator) : c.relocate = perform .more (relocating c.world c.draws) c := by
  unfold relocate relocating
  split
  · rfl
  · generalize c.draws.index c.world.obstacles.length = drawn
    obtain ⟨index, draws⟩ := drawn
    dsimp only
    rcases hmove : c.world.relocateObstacle index draws with ⟨_ | cell, v, later⟩
    · obtain ⟨-, rfl⟩ | ⟨cell, hcell, -⟩ := World.relocateObstacle_cases hmove
      · rfl
      · cases hcell
    · exact drawThen_performs (c := { c with phase := .updatingMap, world := v, draws := later }) fun _ => rfl

theorem apply_performs {m : Message} (hm : m ≠ .exit) (sender : Role) (c : Coordinator) :
    c.apply sender m = perform .more (tasksOfMessage sender m c) c := by
  cases m with
  | exit => exact absurd rfl hm
  | position p =>
    unfold apply tasksOfMessage
    dsimp only
    split
    · rfl
    · exact onPosition_performs p c
  | force report => exact onForce_performs sender report c
  | obstacles | targets | size | input | pid | ping | pong => rfl

theorem handle_performs (event : UiEvent) (c : Coordinator) :
    c.handle event = perform (if (Event.user event).quits then .quit else .more) (tasksOfUser event c) c := by
  cases event with
  | quit | resize => rfl
  | key key =>
    by_cases hkey : key = 'q'
    · subst hkey
      rfl
    · have hquits : (Event.user (.key key)).quits = false := by simp [Event.quits, hkey]
      simp only [handle, tasksOfUser, hquits]
      rfl

theorem Event.quits_message {m : Message} (hm : m ≠ .exit) (sender : Role) : (message sender m).quits = false := by
  cases m with
  | exit => exact absurd rfl hm
  | _ => cases sender <;> rfl

/-- The coordinator performs the tasks of an event. -/
theorem upon_performs (e : Event) (c : Coordinator) :
    c.upon e = perform (if e.quits then .quit else .more) (tasks e c) c := by
  cases e with
  | start => exact drawThen_performs fun _ => rfl
  | message sender m =>
    by_cases hm : m = .exit
    · subst hm
      cases sender <;> rfl
    · rw [Event.quits_message hm]
      exact apply_performs hm sender c
  | user event => exact handle_performs event c
  | time now =>
    unfold upon tick tasks tasksOfTime
    dsimp only
    split
    · rfl
    · exact relocate_performs { c with lastRelocation := now }

/-! ### Which tasks there are -/

/-- Where a contact moves no target there is nothing left to do. Otherwise the world is drawn with the targets as they
    are, and these are announced. -/
theorem touching_cases {w v : World} {contact : Option Contact} {draws later : Draws}
    (h : w.resolveContact draws = (contact, v, later)) :
    contact.any Contact.moves = false ∧ v = w ∧ touching w draws = [.keep later] ∨
      contact.any Contact.moves = true ∧ (∃ targets reached, v = { w with targets := targets, reached := reached }) ∧
        touching w draws = .keep later :: .draw v :: announcing v := by
  unfold touching
  rw [h]
  dsimp only
  rcases World.resolveContact_cases h with ⟨hstill, hsame⟩ | ⟨hmoves, hmoved⟩
  · exact Or.inl ⟨hstill, hsame, by rw [hstill]; rfl⟩
  · exact Or.inr ⟨hmoves, hmoved, by rw [hmoves]; rfl⟩

/-- No obstacle moves, or one does and the world is drawn with it. -/
theorem relocating_cases (w : World) (draws : Draws) :
    relocating w draws = [] ∨ (∃ later, relocating w draws = [.enter .updatingMap, .keep later]) ∨
      ∃ index cell later, index < w.obstacles.length ∧
        relocating w draws =
          [.keep later, .draw { w with obstacles := w.obstacles.set index cell },
            .broadcast [.physics] (.obstacles (w.obstacles.set index cell))] := by
  unfold relocating
  split
  · exact Or.inl rfl
  · next hsome =>
    refine Or.inr ?_
    have hindex : (draws.index w.obstacles.length).1 < w.obstacles.length := by
      refine Draws.index_lt (List.length_pos_iff.mpr ?_) draws
      simpa using hsome
    generalize draws.index w.obstacles.length = drawn at hindex ⊢
    obtain ⟨index, draws⟩ := drawn
    dsimp only
    rcases hmove : w.relocateObstacle index draws with ⟨goal, v, later⟩
    rcases World.relocateObstacle_cases hmove with ⟨rfl, -⟩ | ⟨cell, rfl, rfl⟩
    · exact Or.inl ⟨later, rfl⟩
    · exact Or.inr ⟨index, cell, later, hindex, rfl⟩

/-- A task that the event may lead to. Only a report of forces is felt and told in a line, only a quit makes the
    coordinator say EXIT, and nobody is told anything twice. -/
def Task.Due (e : Event) : Task → Prop
  | feel _ | status _ => ∃ sender report, e = .message sender (.force report)
  | deliver m _ => m ≠ .exit
  | broadcast roles m => m ≠ .exit ∧ roles.Nodup
  | broadcastExcept _ m => m = .exit → e.quits = true
  | dismiss => e.quits = true
  | _ => True

theorem nodup_without (sender : Role) (roles : List Role) (h : roles.Nodup) : (without sender roles).Nodup :=
  h.filter _

theorem due_announcing (e : Event) (w : World) : ∀ task ∈ announcing w, task.Due e := by
  unfold announcing
  split <;> simp [Task.Due]

theorem due_touching (e : Event) (w : World) (draws : Draws) : ∀ task ∈ touching w draws, task.Due e := by
  rcases hcontact : w.resolveContact draws with ⟨contact, v, later⟩
  rcases touching_cases hcontact with ⟨-, -, hstay⟩ | ⟨-, -, hmove⟩
  · simp [hstay, Task.Due]
  · simpa [hmove, Task.Due] using due_announcing e v

theorem due_relocating (e : Event) (w : World) (draws : Draws) : ∀ task ∈ relocating w draws, task.Due e := by
  rcases relocating_cases w draws with hstay | ⟨later, hstay⟩ | ⟨index, cell, later, -, hmove⟩
  · simp [hstay]
  · simp [hstay, Task.Due]
  · simp [hmove, Task.Due]

theorem due_quitting (h : e.quits = true) : ∀ task ∈ quitting, task.Due e := by simp [quitting, Task.Due, h]

theorem due_tasks (e : Event) (c : Coordinator) : ∀ task ∈ tasks e c, task.Due e := by
  cases e with
  | start => simp [tasks, Task.Due]
  | message sender m =>
    cases m with
    | position p =>
      simp only [tasks, tasksOfMessage]
      split
      · simp [Task.Due]
      · exact List.forall_mem_cons.mpr ⟨trivial, List.forall_mem_cons.mpr ⟨nofun, due_touching _ _ _⟩⟩
    | force report =>
      simp only [tasks, tasksOfMessage]
      split <;> simp [Task.Due]
    | obstacles | targets | size => simp [tasks, tasksOfMessage, Task.Due, nodup_without]
    | exit =>
      simp only [tasks, tasksOfMessage]
      split
      · next hsender =>
        subst hsender
        exact due_quitting rfl
      · simp
    | input | pid | ping | pong => simp [tasks, tasksOfMessage]
  | user event =>
    simp only [tasks, tasksOfUser]
    split
    · exact List.forall_mem_cons.mpr ⟨trivial, due_quitting rfl⟩
    · exact List.forall_mem_cons.mpr ⟨trivial, due_quitting rfl⟩
    · simp [Task.Due]
    · simp [Task.Due]
  | time now =>
    simp only [tasks, tasksOfTime]
    split
    · simp
    · exact List.forall_mem_cons.mpr ⟨trivial, due_relocating _ _ _⟩

/-! ### Performing -/

/-- What holds at first and is kept by every task holds in the end, whether a task has failed or not. -/
theorem perform_induction {motive : Coordinator → Prop} (hc : motive c)
    (hact : ∀ task ∈ ts, ∀ d, motive d → motive (task.act d).2) : motive (perform flow ts c).2 := by
  induction ts generalizing c with
  | nil => exact hc
  | cons task later ih =>
    have hd := hact task List.mem_cons_self c hc
    have hlater : ∀ task ∈ later, ∀ d, motive d → motive (task.act d).2 :=
      fun task htask => hact task (List.mem_cons_of_mem _ htask)
    unfold perform
    generalize task.act c = answer at hd ⊢
    obtain ⟨e | _, d⟩ := answer
    · exact hd
    · exact ih hd hlater

/-- Tasks that have all been performed: the first has, and then the others. -/
theorem perform_cons_ok (h : perform flow (task :: ts) c = (.ok flow', d)) :
    ∃ c', task.act c = (.ok (), c') ∧ perform flow ts c' = (.ok flow', d) := by
  unfold perform at h
  rcases hact : task.act c with ⟨e | _, c'⟩ <;> simp only [hact] at h
  · cases h
  · exact ⟨c', rfl, h⟩

/-- What holds at first and is kept by every task that succeeds holds when all have been performed. -/
theorem perform_ok_induction {motive : Coordinator → Prop} (h : perform flow ts c = (.ok flow', d)) (hc : motive c)
    (hact : ∀ task ∈ ts, ∀ c d, task.act c = (.ok (), d) → motive c → motive d) : motive d := by
  induction ts generalizing c with
  | nil => exact (Prod.mk.inj h).2 ▸ hc
  | cons task later ih =>
    obtain ⟨c', htask, hlater⟩ := perform_cons_ok h
    exact ih hlater (hact task List.mem_cons_self c c' htask hc)
      fun task htask => hact task (List.mem_cons_of_mem _ htask)

/-- Tasks do not choose whether the work goes on after them. -/
theorem perform_flow (h : perform flow ts c = (.ok flow', d)) : flow' = flow := by
  induction ts generalizing c with
  | nil => exact (Except.ok.inj (Prod.mk.inj h).1).symm
  | cons task later ih =>
    obtain ⟨c', -, hlater⟩ := perform_cons_ok h
    exact ih hlater

theorem upon_flow (h : c.upon e = (.ok flow, d)) : flow = if e.quits then .quit else .more :=
  perform_flow ((upon_performs e c).symm.trans h)

end Coordinator
end GridFlight
