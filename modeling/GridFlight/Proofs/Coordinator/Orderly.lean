import GridFlight.Proofs.Coordinator.Exit

/-! The end of the coordinator's work. A quit is the last event that is handled. It alone sends EXIT: to every part whose
    link still stands, and to the supervisor, as the last frame that they receive. -/

namespace GridFlight
namespace Coordinator

variable {c d : Coordinator} {e : Event} {events : List Event} {t : Turnout}

/-- EXIT from a part other than the relay counts as a frame, and that is all. -/
theorem dispatch_exit {sender : Role} {f : Frame} (hsender : sender ≠ .relay) (hexit : Message.ofFrame f = .ok .exit)
    (c : Coordinator) : c.dispatch (.item sender (.ok f)) = (.ok .more, { c with frames := c.frames + 1 }) := by
  unfold dispatch
  dsimp only
  rw [hexit]
  exact if_neg hsender

/-! ### Any work -/

theorem eq_exit_of_toFrame {m : Message} (h : m.toFrame = Message.exit.toFrame) : m = .exit := by
  have hcode : m.kind.code = Message.exit.kind.code := congrArg Frame.code h
  cases m with
  | exit => rfl
  | _ => exact absurd hcode (by simp [Message.kind, Frame.Kind.code])

/-- What has gone out to a part without an EXIT. -/
theorem Spares.framesTo (h : c.Spares d) (r : Role) :
    ∃ sent, d.framesTo r = c.framesTo r ++ sent ∧ Message.exit.toFrame ∉ sent := by
  obtain ⟨mail, hmail, hsends⟩ := h.mail
  obtain ⟨sent, hsent, hframes, -⟩ := hsends r
  refine ⟨_, hframes, fun hexit => ?_⟩
  obtain ⟨m, hm, hframe⟩ := List.mem_map.mp hexit
  exact hmail r (eq_exit_of_toFrame hframe ▸ hsent.subset hm)

theorem spares_of_quiet (h : c.Quiet d) : c.Spares d := by
  refine ⟨⟨.none, by simp, fun r => ⟨[], List.nil_sublist _, ?_, fun hr => ⟨?_, rfl⟩⟩⟩, h.supervisor⟩
  · rw [h.frames r, List.map_nil, List.append_nil]
  · rwa [← h.connects r]

/-- No quit has been handled, and nobody has been told to exit. -/
structure Unended (c : Coordinator) (events : List Event) (t : Turnout) : Prop where
  events : ∀ e ∈ events, e.quits = false
  plain : c.Plain t

/-- A quit was the last event, and EXIT was the last that was sent. -/
structure Ended (c : Coordinator) (events : List Event) (t : Turnout) : Prop where
  result : t.1 = .ok .quit
  last : ∃ before e b, events = before ++ [e] ∧ e.quits = true ∧ (∀ e ∈ before, e.quits = false) ∧
    Works c before b.go ∧ t = upon e b
  exit : ∃ d, c.Spares d ∧ d.Sends t.2 (.toAllBut none .exit)
  supervisor : t.2.supervisor = c.supervisor.map fun o => (o.write Message.exit.toFrame).drop

theorem ended_or_unended_upon (e : Event) (c : Coordinator) : Ended c [e] (c.upon e) ∨ Unended c [e] (c.upon e) := by
  cases hquits : e.quits with
  | true =>
    obtain ⟨hresult, hsends, htells⟩ := quit_upon hquits c
    rw [Tells, hresult] at htells
    have hlast : ∃ before e' b, [e] = before ++ [e'] ∧ e'.quits = true ∧ (∀ e ∈ before, e.quits = false) ∧
        Works c before b.go ∧ c.upon e = upon e' b :=
      ⟨[], e, c, rfl, hquits, List.forall_mem_nil _, .go c, rfl⟩
    exact Or.inl ⟨hresult, hlast, ⟨c, spares_of_outlets rfl rfl, hsends⟩, htells⟩
  | false => exact Or.inr ⟨fun e' he => List.mem_singleton.mp he ▸ hquits, plain_upon hquits c⟩

/-- What comes before without a quit does not change how the work has ended. -/
theorem Ended.after (h : Ended d events t) {before : List Event} (hbefore : ∀ e ∈ before, e.quits = false)
    (hworks : Works c before d.go) (hspares : c.Spares d) : Ended c (before ++ events) t := by
  obtain ⟨later, e, b, rfl, hquits, hlater, hworks', ht⟩ := h.last
  obtain ⟨d', hspares', hexit⟩ := h.exit
  refine ⟨h.result,
    ⟨before ++ later, e, b, (List.append_assoc _ _ _).symm, hquits, fun e' he => ?_, hworks.trans hworks', ht⟩,
    ⟨d', hspares.trans hspares', hexit⟩, hspares.supervisor ▸ h.supervisor⟩
  rcases List.mem_append.mp he with he | he
  · exact hbefore e' he
  · exact hlater e' he

theorem Unended.after (h : Unended d events t) {before : List Event} (hbefore : ∀ e ∈ before, e.quits = false)
    (hspares : c.Spares d) : Unended c (before ++ events) t := by
  refine ⟨fun e he => ?_, h.plain.after hspares⟩
  rcases List.mem_append.mp he with he | he
  · exact hbefore e he
  · exact h.events e he

theorem Works.ended_or_unended (h : Works c events t) : Ended c events t ∨ Unended c events t := by
  induction h with
  | aside hquiet _ ih =>
    have hnone := List.forall_mem_nil fun e : Event => e.quits = false
    have hspares := spares_of_quiet hquiet
    exact ih.imp (fun h => h.after hnone (works_aside hquiet) hspares) fun h => h.after hnone hspares
  | go c => exact Or.inr ⟨nofun, plain_go_self c⟩
  | fail fault c => exact Or.inr ⟨nofun, nofun, spares_of_outlets rfl rfl⟩
  | last c e => exact ended_or_unended_upon e c
  | @next c d e events t hupon _ ih =>
    rcases ended_or_unended_upon e c with hended | hfirst
    · have hresult := hended.result
      rw [hupon] at hresult
      cases hresult
    · have hspares := hfirst.plain.spares
      rw [hupon] at hspares
      exact ih.imp (fun h => h.after hfirst.events (.next hupon (.go d)) hspares)
        fun h => h.after hfirst.events hspares

/-! ### A run -/

/-- What the supervisor gets that is told to exit: one frame, if its channel can be written. -/
theorem frames_of_exit {o : Outlet} (hconnected : o.connected = true)
    (hwritable : (o.writer.write Message.exit.toFrame).1 = .ok ()) :
    (o.write Message.exit.toFrame).drop.frames = o.frames ++ [Message.exit.toFrame] := by
  obtain ⟨writer, connected⟩ := o
  obtain rfl : connected = true := hconnected
  rcases writer.write_cases Message.exit.toFrame with ⟨e, hwrite⟩ | ⟨later, hwrite, hframes⟩
  · rw [hwrite] at hwritable
    cases hwritable
  · simp [Outlet.write, Outlet.drop, Outlet.frames, hwrite, hframes]

namespace Scene

/-- Any run, whatever comes in, is typed or breaks. If a quit is among the events that it handles, then it is the last:
    the events before it lead from the beginning to where the quit is handled, the run ends, and all that follows upon it
    is that the display is closed; every link that stands in the end has received EXIT once in the run, as its last
    frame; and so has the supervisor, and nothing else, if its channel can be written. If no quit is handled, nobody
    receives EXIT and the supervisor receives nothing. EXIT from a part other than the relay is counted as a frame and
    changes nothing else. -/
theorem exit_sent_once_and_last (limit : Option Nat) (fuel : Nat) (s : Scene) :
    ((∃ e ∈ s.handled limit fuel, e.quits = true) →
      (s.run limit fuel).1.isSome = true ∧
      (∃ before e c display, s.handled limit fuel = before ++ [e] ∧ e.quits = true ∧
        (∀ e ∈ before, e.quits = false) ∧ Works s.coordinator before c.go ∧
        (s.run limit fuel).2.coordinator = { (upon e c).2 with display := display }) ∧
      (∀ r, (s.run limit fuel).2.coordinator.connects r = true →
        ∃ sent, (s.run limit fuel).2.coordinator.framesTo r =
            s.coordinator.framesTo r ++ sent ++ [Message.exit.toFrame] ∧ Message.exit.toFrame ∉ sent) ∧
      ∀ o, s.coordinator.supervisor = some o → o.connected = true →
        (o.writer.write Message.exit.toFrame).1 = .ok () →
        ∃ told, (s.run limit fuel).2.coordinator.supervisor = some told ∧
          told.frames = o.frames ++ [Message.exit.toFrame]) ∧
    ((∀ e ∈ s.handled limit fuel, e.quits = false) →
      (∀ r, ∃ sent, (s.run limit fuel).2.coordinator.framesTo r = s.coordinator.framesTo r ++ sent ∧
        Message.exit.toFrame ∉ sent) ∧
      (s.run limit fuel).2.coordinator.supervisor = s.coordinator.supervisor) ∧
    ∀ (c : Coordinator) (sender : Role) (f : Frame), sender ≠ .relay → Message.ofFrame f = .ok .exit →
      c.dispatch (.item sender (.ok f)) = (.ok .more, { c with frames := c.frames + 1 }) := by
  obtain ⟨t, hworks, hleaves⟩ := works_run limit fuel s
  obtain ⟨display, hcoordinator⟩ := hleaves.coordinator
  rw [hcoordinator]
  refine ⟨fun ⟨e, he, hquits⟩ => ?_, fun hnone => ?_, fun c sender f hsender hexit => ?_⟩
  · rcases hworks.ended_or_unended with hended | hunended
    · obtain ⟨before, last, c, hevents, hlast, hbefore, hbegun, rfl⟩ := hended.last
      obtain ⟨d, hspares, hexit⟩ := hended.exit
      refine ⟨hleaves.ended (by rw [hended.result]; exact nofun),
        ⟨before, last, c, display, hevents, hlast, hbefore, hbegun, rfl⟩, fun r hr => ?_,
        fun o ho hconnected hwritable => ?_⟩
      · obtain ⟨sent, hsent, hspared⟩ := hspares.framesTo r
        refine ⟨sent, ?_, hspared⟩
        rw [← hsent]
        exact hexit.framesTo hr
      · refine ⟨(o.write Message.exit.toFrame).drop, ?_, frames_of_exit hconnected hwritable⟩
        rw [hended.supervisor, ho]
        rfl
    · rw [hunended.events e he] at hquits
      cases hquits
  · rcases hworks.ended_or_unended with hended | hunended
    · obtain ⟨before, last, c, hevents, hlast, -, -, -⟩ := hended.last
      rw [hnone last (hevents ▸ List.mem_append_right before (List.mem_singleton_self last))] at hlast
      cases hlast
    · exact ⟨hunended.plain.spares.framesTo, hunended.plain.spares.supervisor⟩
  · exact dispatch_exit hsender hexit c

/-- The user types on behind the key that ends the work. -/
theorem exit_sent_upon_key :
    ∃ s : Scene, s.coordinator.input.pending = [.key 'f', .key 'q', .key 'd'] ∧
      s.handled none 1 = [.start, .user (.key 'f'), .user (.key 'q')] ∧ (s.run none 1).1.isSome = true ∧
      (s.run none 1).2.coordinator.connects .physics = true ∧
      (∃ sent, (s.run none 1).2.coordinator.framesTo .physics =
          s.coordinator.framesTo .physics ++ sent ++ [Message.exit.toFrame] ∧ Message.exit.toFrame ∉ sent) ∧
      ∃ told, (s.run none 1).2.coordinator.supervisor = some told ∧ told.frames = [Message.exit.toFrame] := by
  let s := Supervised.sceneOf ⟨[.key 'f', .key 'q', .key 'd'], 0, fun _ => none⟩
  have hhandled : s.handled none 1 = [.start, .user (.key 'f'), .user (.key 'q')] := rfl
  have hstands : (s.run none 1).2.coordinator.connects .physics = true := rfl
  have hquit : ∃ e ∈ s.handled none 1, e.quits = true := ⟨.user (.key 'q'), by rw [hhandled]; simp, rfl⟩
  obtain ⟨hsome, -, hlinks, hsupervisor⟩ := (exit_sent_once_and_last none 1 s).1 hquit
  exact ⟨s, rfl, hhandled, hsome, hstands, hlinks .physics hstands, hsupervisor (.new .lasting) rfl rfl rfl⟩

end Scene
end Coordinator
end GridFlight
