import GridFlight.Proofs.Coordinator.Process
import GridFlight.Proofs.Coordinator.Quit
import GridFlight.Proofs.Detector.Members
import GridFlight.Proofs.Message.Control

/-! What the supervisor learns of the end of the coordinator. The coordinator withdraws whatever its work has come to,
    but it writes to the supervisor only when the work has ended with a quit. After a fault the supervisor hears
    nothing, and its detector does not miss a part that has withdrawn. -/

namespace GridFlight

open Registry (Entry Listing)
open Coordinator (Flow Scene Summary)

/-! ### The detector -/

/-- The detector has been told to stop. -/
def Detector.Stage.isStopping : Stage → Bool
  | .leaving | .ended (.ok (.shutdown _)) => true
  | _ => false

theorem Detector.not_stopping_afterReport (c : Config) (report : Report) :
    (afterReport c report).isStopping = false := by
  cases report <;> rfl

/-- A detector stops only when it is told to. -/
theorem Detector.told_of_stopping {σ : Type} {env : Surroundings σ} {d : Detector} {s : σ}
    (h : (step env d s).1.stage.isStopping = true) :
    d.stage.isStopping = true ∨ ∃ millis, (env.pause millis s).1 = true := by
  cases hd : d.stage with
  | publishing =>
    rcases hpublish : env.publish d.self s with ⟨_ | _, t⟩ <;> simp [step, hd, hpublish, Stage.isStopping] at h
  | pausing millis =>
    rcases hpause : env.pause millis s with ⟨_ | _, t⟩
    · simp [step, hd, hpause, Stage.isStopping] at h
    · exact Or.inr ⟨millis, by rw [hpause]⟩
  | passing pass =>
    rcases hstep : passStep env d s pass with ⟨next, d', t⟩
    cases next with
    | finished report => simp [step, hd, hstep, not_stopping_afterReport] at h
    | reading | probing | rechecking => simp [step, hd, hstep, Stage.isStopping] at h
  | gathering failed => simp [step, hd, Stage.isStopping] at h
  | killing failed members =>
    rcases hkill : env.kill members s with ⟨_ | _, t⟩ <;> simp [step, hd, hkill, Stage.isStopping] at h
  | leaving => exact Or.inl rfl
  | ended result =>
    rw [step, hd] at h
    exact Or.inl (hd ▸ h)

/-! ### The invariant -/

namespace Supervised

/-- The exit channel holds one frame after a quit and none before, and only that frame stops the supervisor. -/
structure Sound (f : Supervised) : Prop where
  silent : f.work ≠ .ended (.ok .quit) → f.scene.coordinator.supervisor = some (.new .lasting)
  written : f.work = .ended (.ok .quit) → f.scene.coordinator.exitFrames = [Message.exit.toFrame]
  watch : f.watch = .reading ∧ f.read = 0 ∨ f.watch = .told ∧ f.work = .ended (.ok .quit)
  detector : f.detector.stage.isStopping = true → f.watch = .told

variable {f g : Supervised}

theorem Sound.exitFrames_nil (h : f.Sound) (hwork : f.work ≠ .ended (.ok .quit)) :
    f.scene.coordinator.exitFrames = [] := by
  rw [Coordinator.exitFrames, h.silent hwork]
  rfl

theorem Sound.reading (h : f.Sound) (hwork : f.work ≠ .ended (.ok .quit)) : f.watch = .reading ∧ f.read = 0 :=
  h.watch.resolve_right fun htold => hwork htold.2

/-- Work that goes on or ends with a fault leaves the exit channel as it was. -/
theorem Sound.unheard (h : f.Sound) (hbefore : f.work ≠ .ended (.ok .quit)) (hafter : g.work ≠ .ended (.ok .quit))
    (hsupervisor : g.scene.coordinator.supervisor = f.scene.coordinator.supervisor) (hwatch : g.watch = f.watch)
    (hread : g.read = f.read) (hdetector : g.detector = f.detector) : g.Sound where
  silent _ := hsupervisor.trans (h.silent hbefore)
  written hquit := absurd hquit hafter
  watch := Or.inl (by rw [hwatch, hread]; exact h.reading hbefore)
  detector := by rw [hwatch, hdetector]; exact h.detector

/-- A quit writes the one frame. -/
theorem Sound.quit (h : f.Sound) (hbefore : f.work ≠ .ended (.ok .quit)) (hafter : g.work = .ended (.ok .quit))
    (hsupervisor : g.scene.coordinator.supervisor = f.scene.coordinator.supervisorAfter (.ok .quit))
    (hwatch : g.watch = f.watch) (hread : g.read = f.read) (hdetector : g.detector = f.detector) : g.Sound where
  silent hquit := absurd hafter hquit
  written _ := by
    have htold : g.scene.coordinator.supervisor = some (((Outlet.new .lasting).write Message.exit.toFrame).drop) := by
      rw [hsupervisor, Coordinator.supervisorAfter, h.silent hbefore]
      rfl
    rw [Coordinator.exitFrames, htold]
    rfl
  watch := Or.inl (by rw [hwatch, hread]; exact h.reading hbefore)
  detector := by rw [hwatch, hdetector]; exact h.detector

theorem take_exit : Heartbeat.Watch.take .reading (.ok Message.exit.toFrame) = .told := by
  simp only [Heartbeat.Watch.take, Message.ofItem, Except.map, Message.ofFrame_exit]

theorem Sound.step (h : f.Sound) (hstep : f.Step g) : g.Sound := by
  cases hstep with
  | look | publish | withdraw | hush | elsewhere => exact ⟨h.silent, h.written, h.watch, h.detector⟩
  | start hstage hwork hstart =>
    obtain rfl := Coordinator.start_goes_on hstart
    have hbefore : f.work ≠ .ended (.ok .quit) := by rw [hwork]; exact nofun
    have htells := Coordinator.tells_start f.scene.coordinator
    rw [hstart] at htells
    exact h.unheard hbefore nofun htells rfl rfl rfl
  | startFailed hstage hwork hstart =>
    have hbefore : f.work ≠ .ended (.ok .quit) := by rw [hwork]; exact nofun
    have htells := Coordinator.tells_start f.scene.coordinator
    rw [hstart] at htells
    exact h.unheard hbefore nofun htells rfl rfl rfl
  | iterate hwork hstep =>
    have hbefore : f.work ≠ .ended (.ok .quit) := by rw [hwork]; exact nofun
    have htells := Scene.supervisor_step none f.scene
    rw [hstep] at htells
    exact h.unheard hbefore hbefore htells rfl rfl rfl
  | @finish how s hwork hstep hhow =>
    have hbefore : f.work ≠ .ended (.ok .quit) := by rw [hwork]; exact nofun
    have htells := Scene.supervisor_step none f.scene
    rw [hstep] at htells
    rcases how with e | ⟨_ | _⟩
    · exact h.unheard hbefore nofun htells rfl rfl rfl
    · exact absurd rfl hhow
    · exact h.quit hbefore rfl htells rfl rfl rfl
  | @watch frame hframe =>
    by_cases hquit : f.work = .ended (.ok .quit)
    · rw [h.written hquit] at hframe
      -- The exit is the only frame there is; a watch that has taken it stays told.
      have htold : f.watch.take (.ok frame) = .told := by
        rcases h.watch with ⟨hreading, hread⟩ | ⟨htold, -⟩
        · rw [hread] at hframe
          rw [hreading, ← Option.some.inj hframe]
          exact take_exit
        · rw [htold]
          rfl
      exact ⟨h.silent, h.written, Or.inr ⟨htold, hquit⟩, fun _ => htold⟩
    · rw [h.exitFrames_nil hquit] at hframe
      cases hframe
  | detect outcome told now htold =>
    refine ⟨h.silent, h.written, h.watch, fun hstopping => ?_⟩
    rcases Detector.told_of_stopping hstopping with hstopping | ⟨millis, hpause⟩
    · exact h.detector hstopping
    · exact htold hpause

theorem Reachable.sound (h : Reachable f) : f.Sound := by
  induction h with
  | initial hfresh hwired => exact ⟨fun _ => hwired, nofun, Or.inl ⟨rfl, rfl⟩, nofun⟩
  | step h hstep ih => exact ih.step hstep

/-- A coordinator withdraws whatever its work has come to. -/
theorem Reachable.withdrawn (h : Reachable f) {result : Except Fault Summary}
    (hstage : f.part.stage = .withdrawing result) :
    ∃ g, Reachable g ∧ g.part.entry ∉ g.listing ∧ g.work = f.work ∧ g.scene = f.scene ∧
      g.watch = f.watch := by
  refine ⟨_, h.step (.withdraw hstage), ?_, rfl, rfl, rfl⟩
  have hentry : f.part.withdrew.entry = f.part.entry := by
    simp only [Participant.withdrew, hstage, Participant.entry]
  simp [hentry, Listing.withdraw]

/-- Once the coordinator has ended its work and is out of the registry, it has written an exit to the supervisor if and
    only if the work ended with a quit. After a quit the watch can tell the detector to stop; after a fault nothing
    does, and the detector no longer asks about the coordinator. -/
theorem exit_written_iff_quit (h : Reachable f) {how : Except Fault Flow} (hended : f.work = .ended how)
    (hwithdrawn : f.part.entry ∉ f.listing) :
    (Message.exit.toFrame ∈ f.scene.coordinator.exitFrames ↔ how = .ok .quit) ∧
      (how = .ok .quit → f.watch = .told ∨ ∃ g, f.Step g ∧ g.watch = .told) ∧
      (how ≠ .ok .quit → f.watch = .reading ∧ f.detector.stage.isStopping = false ∧
        f.part.entry ∉ Detector.membersOf f.detector.pid f.listing) := by
  have hsound := h.sound
  have hwork : how ≠ .ok .quit → f.work ≠ .ended (.ok .quit) := fun hhow hquit =>
    hhow (Coordinator.Work.ended.inj (hended.symm.trans hquit))
  refine ⟨⟨fun hmem => ?_, fun hquit => ?_⟩, fun hquit => ?_, fun hhow => ?_⟩
  · by_contra hhow
    rw [hsound.exitFrames_nil (hwork hhow)] at hmem
    cases hmem
  · rw [hsound.written (hquit ▸ hended)]
    exact List.mem_singleton_self _
  · rcases hsound.watch with ⟨hreading, hread⟩ | ⟨htold, -⟩
    · have hframe : f.scene.coordinator.exitFrames[f.read]? = some Message.exit.toFrame := by
        rw [hsound.written (hquit ▸ hended), hread]
        rfl
      refine Or.inr ⟨_, .watch hframe, ?_⟩
      rw [hreading]
      exact take_exit
    · exact Or.inl htold
  · have hreading := (hsound.reading (hwork hhow)).1
    refine ⟨hreading, ?_, fun hmem => hwithdrawn (Detector.mem_of_mem_membersOf hmem)⟩
    by_contra hstopping
    have htold := hsound.detector (by simpa using hstopping)
    rw [hreading] at htold
    cases htold

/-! ### Two ends -/

/-- A coordinator over three links, with an input. -/
def sceneOf (input : Input) : Scene where
  now := 0
  coordinator := .new ⟨30, 5000, ⟨40, 20⟩⟩ (.ofRoles [.physics, .obstacles, .targets])
    (fun role => if role ∈ [Role.physics, .obstacles, .targets] then some (.new .lasting) else none)
    (some (.new .lasting)) (.new fun _ _ => none) input 1 0
  script := []

theorem exit_written_after_a_quit :
    ∃ f, Reachable f ∧ f.part.entry ∉ f.listing ∧
      Message.exit.toFrame ∈ f.scene.coordinator.exitFrames := by
  have h : Reachable (initial [⟨.supervisor, ⟨7⟩⟩] ⟨8⟩ ⟨7⟩ .standard (sceneOf ⟨[.quit], 0, fun _ => none⟩)) :=
    .initial (by decide) rfl
  have h := h.step .look
  have h := h.step (.publish rfl)
  have h := h.step (.start rfl rfl rfl)
  have h := h.step (.finish rfl rfl nofun)
  obtain ⟨f, hf, hwithdrawn, hwork, -⟩ := h.withdrawn rfl
  exact ⟨f, hf, hwithdrawn, (exit_written_iff_quit hf hwork hwithdrawn).1.mpr rfl⟩

/-- The first question to the user is refused: the coordinator withdraws and nobody is told. -/
theorem withdrawn_without_exit :
    ∃ f, Reachable f ∧ f.work = .ended (.error (.screen "poll failed")) ∧ f.part.entry ∉ f.listing ∧
      Message.exit.toFrame ∉ f.scene.coordinator.exitFrames ∧ f.watch = .reading := by
  have h : Reachable (initial [⟨.supervisor, ⟨7⟩⟩] ⟨8⟩ ⟨7⟩ .standard
      (sceneOf ⟨[], 0, fun n => if n = 1 then some "poll failed" else none⟩)) := .initial (by decide) rfl
  have h := h.step .look
  have h := h.step (.publish rfl)
  have h := h.step (.start rfl rfl rfl)
  have h := h.step (.finish rfl rfl nofun)
  obtain ⟨f, hf, hwithdrawn, hwork, -, hwatch⟩ := h.withdrawn rfl
  refine ⟨f, hf, hwork, hwithdrawn, ?_, hwatch⟩
  rw [hf.sound.exitFrames_nil (by rw [hwork]; exact nofun)]
  exact List.not_mem_nil

end Supervised
end GridFlight
