import GridFlight.Coordinator.Run

/-! What the parts receive. Sending writes a frame to every link that still stands, drops a link that cannot be written,
    and never brings one back. `Sends` says which messages have gone out between two states of the coordinator: a
    link that stands at the end has received them all, a link that broke has received some of them, in their order. -/

namespace GridFlight

/-! ### Outlets -/

/-- A write fails and changes nothing, or adds the frame. -/
theorem Writer.write_cases (f : Frame) (w : Writer) :
    (∃ e, w.write f = (.error e, w)) ∨ ∃ later, w.write f = (.ok (), later) ∧ later.frames = w.frames ++ [f] := by
  obtain ⟨written, _ | _ | room⟩ := w
  · exact Or.inr ⟨_, rfl, Array.toList_push⟩
  · exact Or.inl ⟨_, rfl⟩
  · exact Or.inr ⟨_, rfl, Array.toList_push⟩

namespace Outlet

def frames (o : Outlet) : List Frame := o.writer.frames

theorem write_cases (f : Frame) (o : Outlet) :
    (o.write f).frames = o.frames ∧ (o.write f).connected = false ∨
      (o.write f).frames = o.frames ++ [f] ∧ (o.write f).connected = true ∧ o.connected = true := by
  obtain ⟨writer, connected⟩ := o
  cases connected with
  | false => exact Or.inl ⟨rfl, rfl⟩
  | true =>
    rcases writer.write_cases f with ⟨e, hwrite⟩ | ⟨later, hwrite, hframes⟩
    · exact Or.inl (by simp [write, hwrite, frames])
    · exact Or.inr (by simp [write, hwrite, frames, hframes])

end Outlet

namespace Coordinator

/-- The frames written to a part so far. -/
def framesTo (c : Coordinator) (r : Role) : List Frame := ((c.outlets r).map Outlet.frames).getD []

/-- The link to a part stands. -/
def connects (c : Coordinator) (r : Role) : Bool := (c.outlets r).any (·.connected)

theorem mem_roles {c : Coordinator} {r : Role} : r ∈ c.roles ↔ c.connects r = true := by
  simp [roles, connects, Role.mem_all]

/-- Messages for each part. -/
abbrev Mail := Role → List Message

namespace Mail

def none : Mail := fun _ => []

def toEach (roles : List Role) (m : Message) : Mail := fun r => if r ∈ roles then [m] else []

def both (a b : Mail) : Mail := fun r => a r ++ b r

@[simp] theorem none_both (a : Mail) : none.both a = a := rfl

@[simp] theorem both_none (a : Mail) : a.both none = a := funext fun r => List.append_nil (a r)

/-- A message to everybody but one part. -/
def toAllBut (except : Option Role) (m : Message) : Mail := fun r => if some r = except then [] else [m]

variable {m n : Message} {r : Role} {roles : List Role} {except : Option Role} {a b : Mail}

@[simp, grind =] theorem mem_none : m ∈ none r ↔ False := List.mem_nil_iff m

@[simp, grind =] theorem mem_toEach : m ∈ toEach roles n r ↔ r ∈ roles ∧ m = n := by
  by_cases hr : r ∈ roles <;> simp [toEach, hr]

@[simp, grind =] theorem mem_both : m ∈ both a b r ↔ m ∈ a r ∨ m ∈ b r := List.mem_append

@[simp, grind =] theorem mem_toAllBut : m ∈ toAllBut except n r ↔ some r ≠ except ∧ m = n := by
  by_cases hr : some r = except <;> simp [toAllBut, hr]

end Mail

/-- From `c` to `d`, these messages have gone out. -/
def Sends (c d : Coordinator) (mail : Mail) : Prop :=
  ∀ r, ∃ sent, sent.Sublist (mail r) ∧ d.framesTo r = c.framesTo r ++ sent.map Message.toFrame ∧
    (d.connects r = true → c.connects r = true ∧ sent = mail r)

variable {c d e : Coordinator} {mail a b : Mail}

theorem Sends.connects (h : c.Sends d mail) {r : Role} (hr : d.connects r = true) : c.connects r = true := by
  obtain ⟨sent, -, -, hstands⟩ := h r
  exact (hstands hr).1

theorem Sends.framesTo (h : c.Sends d mail) {r : Role} (hr : d.connects r = true) :
    d.framesTo r = c.framesTo r ++ (mail r).map Message.toFrame := by
  obtain ⟨sent, -, hframes, hstands⟩ := h r
  rw [hframes, (hstands hr).2]

/-- Nothing has been sent between states with the same outlets. -/
theorem sends_none (h : d.outlets = c.outlets) : c.Sends d .none := by
  intro r
  refine ⟨[], List.Sublist.refl [], ?_, fun hr => ⟨?_, rfl⟩⟩
  · simp [Coordinator.framesTo, h]
  · rwa [Coordinator.connects, ← h]

theorem Sends.of_outlets (h : d.Sends e mail) (houtlets : d.outlets = c.outlets) : c.Sends e mail := by
  intro r
  have hframes : d.framesTo r = c.framesTo r := by rw [Coordinator.framesTo, houtlets, Coordinator.framesTo]
  have hconnects : d.connects r = c.connects r := by rw [Coordinator.connects, houtlets, Coordinator.connects]
  rw [← hframes, ← hconnects]
  exact h r

theorem Sends.trans (hcd : c.Sends d a) (hde : d.Sends e b) : c.Sends e (a.both b) := by
  intro r
  obtain ⟨first, hfirst, hframes, hstands⟩ := hcd r
  obtain ⟨second, hsecond, hframes', hstands'⟩ := hde r
  refine ⟨first ++ second, hfirst.append hsecond, ?_, fun hr => ?_⟩
  · rw [hframes', hframes, List.map_append, List.append_assoc]
  · obtain ⟨hd, rfl⟩ := hstands' hr
    obtain ⟨hc, rfl⟩ := hstands hd
    exact ⟨hc, rfl⟩

/-- Only what a standing link has received matters. -/
theorem Sends.congr (h : c.Sends d a) (hsame : ∀ r, c.connects r = true → a r = b r)
    (hnone : ∀ r, c.connects r = false → a r = []) : c.Sends d b := by
  intro r
  obtain ⟨sent, hsent, hframes, hstands⟩ := h r
  by_cases hr : c.connects r = true
  · rw [hsame r hr] at hsent hstands
    exact ⟨sent, hsent, hframes, hstands⟩
  · rw [hnone r (by simpa using hr)] at hsent
    obtain rfl : sent = [] := List.sublist_nil.mp hsent
    exact ⟨[], List.nil_sublist _, hframes, fun hd => absurd (hstands hd).1 hr⟩

/-! ### Sending -/

theorem sends_deliver (m : Message) (role : Role) (c : Coordinator) :
    c.Sends (c.deliver m.toFrame role) (.toEach [role] m) := by
  intro r
  by_cases hr : r = role
  · subst hr
    have hmail : Mail.toEach [r] m r = [m] := by simp [Mail.toEach]
    rw [hmail]
    cases ho : c.outlets r with
    | none => exact ⟨[], List.nil_sublist _, by simp [framesTo, deliver, ho], by simp [connects, deliver, ho]⟩
    | some o =>
      rcases o.write_cases m.toFrame with ⟨hframes, hbroken⟩ | ⟨hframes, hconnected, hbefore⟩
      · refine ⟨[], List.nil_sublist _, ?_, ?_⟩
        · simp [framesTo, deliver, ho, hframes]
        · simp [connects, deliver, ho, hbroken]
      · refine ⟨[m], List.Sublist.refl _, ?_, ?_⟩
        · simp [framesTo, deliver, ho, hframes]
        · simp [connects, ho, hbefore]
  · have hmail : Mail.toEach [role] m r = [] := by simp [Mail.toEach, hr]
    rw [hmail]
    refine ⟨[], List.nil_sublist _, ?_, ?_⟩
    · simp [framesTo, deliver, hr]
    · simp [connects, deliver, hr]

theorem sends_broadcast (roles : List Role) (m : Message) (c : Coordinator) (hnodup : roles.Nodup) :
    c.Sends (c.broadcast roles m) (.toEach roles m) := by
  have hfold : ∀ (roles : List Role) (c : Coordinator), roles.Nodup →
      c.Sends (roles.foldl (deliver m.toFrame) c) (.toEach roles m) := by
    intro roles
    induction roles with
    | nil => exact fun c _ => sends_none rfl
    | cons role roles ih =>
      intro c hnodup
      obtain ⟨hfresh, hnodup⟩ := List.nodup_cons.mp hnodup
      have h := (sends_deliver m role c).trans (ih (c.deliver m.toFrame role) hnodup)
      have hmail : (Mail.toEach [role] m).both (.toEach roles m) = .toEach (role :: roles) m := by
        funext r
        by_cases hr : r = role
        · subst hr
          simp [Mail.both, Mail.toEach, hfresh]
        · simp [Mail.both, Mail.toEach, hr]
      exact hmail ▸ h
  exact hfold roles { c with phase := .broadcasting } hnodup

/-- What holds before a broadcast and is kept by every delivery holds after it. -/
theorem broadcast_induction {motive : Coordinator → Prop} {roles : List Role} {m : Message}
    (hphase : motive { c with phase := .broadcasting })
    (hdeliver : ∀ d role, motive d → motive (d.deliver m.toFrame role)) : motive (c.broadcast roles m) := by
  have hfold : ∀ (roles : List Role) (d : Coordinator), motive d → motive (roles.foldl (deliver m.toFrame) d) := by
    intro roles
    induction roles with
    | nil => exact fun d hd => hd
    | cons role roles ih => exact fun d hd => ih _ (hdeliver d role hd)
  exact hfold roles _ hphase

theorem sends_broadcastExcept (except : Option Role) (m : Message) (c : Coordinator) :
    c.Sends (c.broadcastExcept except m) (.toAllBut except m) := by
  have hnodup : (c.roles.filter fun r => some r ≠ except).Nodup := by
    have hall : Role.all.Nodup := by decide
    exact (hall.filter _).filter _
  refine (sends_broadcast _ m c hnodup).congr (fun r hr => ?_) fun r hr => ?_
  · by_cases hexcept : some r = except
    · simp [Mail.toEach, Mail.toAllBut, hexcept]
    · simp [Mail.toEach, Mail.toAllBut, hexcept, mem_roles, hr]
  · simp [Mail.toEach, mem_roles, hr]

end Coordinator
end GridFlight
