import GridFlight.Proofs.Coordinator.Deeds

/-! Messages as updates. A message that leads the drone onto no target changes at most one part of the world and sends
    mail that depends on the message and its sender alone. Where the display refuses nothing the coordinator goes on,
    and whatever it does, its links are only written to. -/

namespace GridFlight

/-! ### Updates of the world -/

namespace World

/-- A new value for one part of the world. -/
inductive Update where
  | drone (p : Vec Float32)
  | remote (p : Vec Float32)
  | forces (report : ForceReport)
  | obstacles (cells : List Cell)
  | targets (cells : List Cell)
  | window (size : Window)

namespace Update

inductive Place where
  | drone
  | remote
  | forces
  | obstacles
  | targets
  | window
  deriving DecidableEq

def place : Update → Place
  | drone _ => .drone
  | remote _ => .remote
  | forces _ => .forces
  | obstacles _ => .obstacles
  | targets _ => .targets
  | window _ => .window

def act (u : Update) (w : World) : World :=
  match u with
  | drone p => { w with drone := p }
  | remote p => { w with remote := some p }
  | forces report => { w with forces := report }
  | obstacles cells => { w with obstacles := cells }
  | targets cells => { w with targets := cells }
  | window size => { w with window := size }

/-- Updates of different places can be made in any order. -/
theorem act_comm {u v : Update} (h : u.place ≠ v.place) (w : World) : v.act (u.act w) = u.act (v.act w) := by
  cases u <;> cases v <;> first | rfl | exact absurd rfl h

end Update

theorem resolveContact_of_clear {w : World} (h : w.droneCell ∉ w.targets) (draws : Draws) :
    w.resolveContact draws = (none, w, draws) := by
  have hnone : w.targets.findIdx? (· == w.droneCell) = none :=
    List.findIdx?_eq_none_iff.mpr fun cell hcell => beq_eq_false_iff_ne.mpr fun heq => h (heq ▸ hcell)
  simp only [resolveContact, hnone]

end World

/-! ### Outlets -/

namespace Outlet

/-- Writes frames one after the other. -/
def writeAll (frames : List Frame) (o : Outlet) : Outlet := frames.foldl (fun o f => o.write f) o

theorem writeAll_of_dropped {o : Outlet} (h : o.connected = false) (frames : List Frame) : o.writeAll frames = o := by
  have hwrite : ∀ f, o.write f = o := fun f => by simp [write, h]
  induction frames with
  | nil => rfl
  | cons f frames ih =>
    rw [writeAll, List.foldl_cons, hwrite]
    exact ih

/-- A link without a limit stands whatever is written. -/
theorem writeAll_of_lasting {o : Outlet} (h : o.connected = true) (hroom : o.writer.room = none)
    (frames : List Frame) : (o.writeAll frames).connected = true ∧ (o.writeAll frames).writer.room = none := by
  induction frames generalizing o with
  | nil => exact ⟨h, hroom⟩
  | cons f frames ih =>
    have hwrite : o.write f = ⟨⟨o.writer.written.push f, none⟩, true⟩ := by
      simp [write, h, Writer.write, hroom]
    rw [writeAll, List.foldl_cons, hwrite]
    exact ih rfl rfl

end Outlet

namespace Coordinator

/-! ### Messages -/

/-- The update that a message from a part makes where the drone touches no target. -/
def updateOf (sender : Role) (m : Message) : Option World.Update :=
  match m with
  | .position p => some (if sender = .relay then .remote p else .drone p)
  | .force report => some (.forces report)
  | .obstacles cells => some (.obstacles cells)
  | .targets cells => some (.targets cells)
  | .size width height => some (.window ⟨width, height⟩)
  | _ => none

/-- Messages of this kind and from this part concern a place. -/
def Concerns (sender : Role) (kind : Frame.Kind) : World.Update.Place → Prop
  | .drone => kind = .position ∧ sender ≠ .relay
  | .remote => kind = .position ∧ sender = .relay
  | .forces => kind = .force
  | .obstacles => kind = .obstacles
  | .targets => kind = .targets
  | .window => kind = .size

theorem concerns_of_updateOf {sender : Role} {m : Message} {u : World.Update} (h : updateOf sender m = some u) :
    Concerns sender m.kind u.place := by
  cases m with
  | position p =>
    obtain rfl := Option.some.inj h
    by_cases hsender : sender = .relay
    · rw [if_pos hsender]
      exact ⟨rfl, hsender⟩
    · rw [if_neg hsender]
      exact ⟨rfl, hsender⟩
  | force | obstacles | targets | size =>
    obtain rfl := Option.some.inj h
    exact rfl
  | input | exit | pid | ping | pong => cases h

/-- What the message makes the coordinator send there. -/
def mailOf (sender : Role) (m : Message) : Mail :=
  match m with
  | .position p => if sender = .relay then .toEach [.physics] (.obstacles [.ofPosition p]) else .toEach [.relay] (.position p)
  | .obstacles cells => .toEach (without sender [.physics, .targets]) (.obstacles cells)
  | .targets cells => .toEach (without sender [.physics, .obstacles]) (.targets cells)
  | .size width height => .toAllBut (some sender) (.size width height)
  | _ => .none

/-- The world after the message. -/
def updated (w : World) (sender : Role) (m : Message) : World := ((updateOf sender m).map fun u => u.act w).getD w

/-- The message does not lead the drone onto one of these targets. -/
def Avoids (targets : List Cell) (sender : Role) (m : Message) : Prop :=
  ∀ p, m = .position p → sender ≠ .relay → Cell.ofPosition p ∉ targets

variable {c d e : Coordinator} {sender : Role} {m : Message} {t : Turnout}

theorem updated_of_apply (h : c.apply sender m = (.ok .more, d)) (havoids : Avoids c.world.targets sender m) :
    d.world = updated c.world sender m ∧ c.Sends d (mailOf sender m) := by
  obtain ⟨mail, hdeed, hsends⟩ := deed_of_upon (e := .message sender m) h
  generalize hw : c.world = w at hdeed havoids ⊢
  generalize hv : d.world = v at hdeed ⊢
  generalize he : Event.message sender m = e at hdeed
  cases hdeed with
  | start | key | resize | wait | relocate => cases he
  | fly hsender =>
    cases he
    simp only [updated, updateOf, mailOf, if_neg hsender]
    exact ⟨rfl, hsends⟩
  | @reach _ p contact draws _ _ _ hsender hcontact hmoves =>
    cases he
    have hnone := World.resolveContact_of_clear (w := { w with drone := p }) (havoids p rfl hsender) draws
    rw [hcontact] at hnone
    obtain rfl : contact = none := congrArg Prod.fst hnone
    cases hmoves
  | remote | force | obstacles | targets | size =>
    cases he
    exact ⟨rfl, hsends⟩
  | ignore hkind =>
    cases he
    cases m with
    | input | exit | pid | ping | pong => exact ⟨rfl, hsends⟩
    | _ => simp [Message.kind] at hkind

/-! ### Going on -/

/-- From `c` to `d` the links are only written to, and the display goes on refusing what it refused. -/
structure Kept (c d : Coordinator) : Prop where
  refusal : d.display.refusal = c.display.refusal
  outlets : ∀ r, ∃ frames, d.outlets r = (c.outlets r).map (Outlet.writeAll frames)

/-- The display refuses nothing, and the links that stand have no limit. -/
structure Calm (c : Coordinator) : Prop where
  refusal : ∀ s n, c.display.refusal s n = none
  lasting : ∀ r o, c.outlets r = some o → o.connected = true → o.writer.room = none

theorem kept_of_outlets (h : d.outlets = c.outlets) (hrefusal : d.display.refusal = c.display.refusal) : c.Kept d :=
  ⟨hrefusal, fun r => ⟨[], by rw [h]; cases c.outlets r <;> rfl⟩⟩

theorem Kept.trans (hcd : c.Kept d) (hde : d.Kept e) : c.Kept e := by
  refine ⟨hde.refusal.trans hcd.refusal, fun r => ?_⟩
  obtain ⟨first, hfirst⟩ := hcd.outlets r
  obtain ⟨second, hsecond⟩ := hde.outlets r
  refine ⟨first ++ second, ?_⟩
  rw [hsecond, hfirst, Option.map_map]
  exact congrArg (Option.map · (c.outlets r)) (funext fun o => (List.foldl_append ..).symm)

/-- Nothing is written to a link that does not stand. -/
theorem Kept.framesTo (h : c.Kept d) {r : Role} (hr : c.connects r = false) :
    d.framesTo r = c.framesTo r ∧ d.connects r = false := by
  obtain ⟨frames, hframes⟩ := h.outlets r
  have hsame : d.outlets r = c.outlets r := by
    rw [hframes]
    cases ho : c.outlets r with
    | none => rfl
    | some o =>
      have hdropped : o.connected = false := by simpa [connects, ho] using hr
      exact congrArg some (Outlet.writeAll_of_dropped hdropped frames)
  constructor
  · rw [Coordinator.framesTo, hsame, Coordinator.framesTo]
  · rwa [connects, hsame, ← connects]

theorem Kept.calm (h : c.Kept d) (hc : c.Calm) : d.Calm ∧ ∀ r, c.connects r = true → d.connects r = true := by
  refine ⟨⟨fun s n => by rw [h.refusal]; exact hc.refusal s n, fun r o ho hconnected => ?_⟩, fun r hr => ?_⟩
  · obtain ⟨frames, hframes⟩ := h.outlets r
    obtain ⟨before, hbefore, rfl⟩ := Option.map_eq_some_iff.mp (hframes.symm.trans ho)
    cases hstood : before.connected with
    | true => exact (Outlet.writeAll_of_lasting hstood (hc.lasting r before hbefore hstood) frames).2
    | false =>
      rw [Outlet.writeAll_of_dropped hstood, hstood] at hconnected
      cases hconnected
  · obtain ⟨frames, hframes⟩ := h.outlets r
    cases ho : c.outlets r with
    | none => simp [connects, ho] at hr
    | some o =>
      have hstood : o.connected = true := by simpa [connects, ho] using hr
      rw [connects, hframes, ho]
      exact (Outlet.writeAll_of_lasting hstood (hc.lasting r o ho hstood) frames).1

/-! #### Sending and drawing -/

theorem kept_deliver (f : Frame) (role : Role) (c : Coordinator) : c.Kept (c.deliver f role) := by
  refine ⟨rfl, fun r => ?_⟩
  by_cases hr : r = role
  · exact ⟨[f], if_pos hr⟩
  · refine ⟨[], (if_neg hr).trans ?_⟩
    cases c.outlets r <;> rfl

theorem kept_broadcast (roles : List Role) (m : Message) (c : Coordinator) : c.Kept (c.broadcast roles m) :=
  broadcast_induction (motive := c.Kept) (kept_of_outlets rfl rfl) fun d role h =>
    h.trans (kept_deliver m.toFrame role d)

/-! #### Tasks -/

theorem refusal_call (call : Display.Call) (d : Display) : (d.call call).2.refusal = d.refusal := by
  rcases d.call_cases call with ⟨-, hcall⟩ | ⟨text, -, hcall⟩ <;> rw [hcall]

theorem call_served {d : Display} (h : ∀ s n, d.refusal s n = none) (call : Display.Call) :
    (d.call call).1 = .ok () := by
  rcases d.call_cases call with ⟨-, hcall⟩ | ⟨text, hrefusal, -⟩
  · rw [hcall]
  · rw [h] at hrefusal
    cases hrefusal

theorem kept_act (task : Task) (c : Coordinator) : c.Kept (task.act c).2 := by
  cases task with
  | enter | keep | mark | feel | dismiss => exact kept_of_outlets rfl rfl
  | draw world => exact kept_of_outlets rfl (refusal_call (.render world) c.display)
  | status line => exact kept_of_outlets rfl (refusal_call (.status line) c.display)
  | deliver m role => exact kept_deliver m.toFrame role c
  | broadcast roles m => exact kept_broadcast roles m c
  | broadcastExcept except m => exact kept_broadcast _ m c

theorem served_act (h : ∀ s n, c.display.refusal s n = none) (task : Task) : (task.act c).1 = .ok () := by
  cases task with
  | enter | keep | mark | feel | deliver | broadcast | broadcastExcept | dismiss => rfl
  | draw world => exact call_served h (.render world)
  | status line => exact call_served h (.status line)

theorem kept_upon (e : Event) (c : Coordinator) : c.Kept (c.upon e).2 := by
  rw [upon_performs]
  exact perform_induction (motive := c.Kept) (kept_of_outlets rfl rfl) fun task _ d hd => hd.trans (kept_act task d)

/-- Nothing stops the tasks where the display refuses nothing. -/
theorem perform_of_served {flow : Flow} {ts : List Task} (h : ∀ s n, c.display.refusal s n = none) :
    (perform flow ts c).1 = .ok flow := by
  induction ts generalizing c with
  | nil => rfl
  | cons task later ih =>
    have hserved := served_act h task
    have hkept := (kept_act task c).refusal
    unfold perform
    generalize task.act c = answer at hserved hkept ⊢
    obtain ⟨_ | _, d⟩ := answer
    · cases hserved
    · exact ih fun s n => by rw [hkept]; exact h s n

/-- Work that keeps the links, and goes on unless the display refuses something. -/
structure Smooth (c : Coordinator) (t : Turnout) : Prop where
  kept : c.Kept t.2
  more : (∀ s n, c.display.refusal s n = none) → t.1 = .ok .more

/-- Without an EXIT the coordinator goes on, unless the display refuses something. -/
theorem smooth_apply (hm : m ≠ .exit) (sender : Role) (c : Coordinator) : c.Smooth (c.apply sender m) := by
  refine ⟨kept_upon (.message sender m) c, fun h => ?_⟩
  rw [apply_performs hm]
  exact perform_of_served h

end Coordinator
end GridFlight
