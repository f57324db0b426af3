import GridFlight.Generator
import GridFlight.Proofs.World.Drawing
import Mathlib.Data.List.Induction

/-! What the generators reply. A set that is scattered over a window has no cell twice, lies strictly inside the border
    and keeps off the cells to avoid. It is as large as wanted, unless there is no cell inside the border or a search
    was in vain. A generator scatters its set with what it was told last of the other kind and of the window. -/

namespace GridFlight
namespace Placement

variable {window : Window} {avoid : List Cell} {d later : Draws} {c : Cell} {n : Nat}

/-! ### Scattering -/

/-- Up to so many free cells, one after the other, each of which is to be avoided from then on. -/
def pick (window : Window) (avoid : List Cell) : Nat → Draws → List Cell × Draws
  | 0, d => ([], d)
  | count + 1, d =>
    match freeCell window avoid.contains d with
    | (some c, d) =>
      let (cells, d) := pick window (c :: avoid) count d
      (c :: cells, d)
    | (none, d) => ([], d)

theorem scatterOnto_eq_pick {taken : Std.HashSet Cell} (h : ∀ c, taken.contains c = avoid.contains c)
    (placed : List Cell) (n : Nat) (d : Draws) :
    scatterOnto window taken placed n d =
      (placed.reverse ++ (pick window avoid n d).1, (pick window avoid n d).2) := by
  induction n generalizing taken avoid placed d with
  | zero => simp [scatterOnto, pick]
  | succ n ih =>
    have hsame : taken.contains = avoid.contains := funext h
    rw [scatterOnto, pick, hsame]
    rcases freeCell window avoid.contains d with ⟨_ | c, rest⟩
    · simp
    · have hinsert : ∀ b, (taken.insert c).contains b = (c :: avoid).contains b := by
        intro b
        rw [Std.HashSet.contains_insert, h, List.contains_cons, Bool.beq_comm]
      simp [ih hinsert]

theorem scatter_eq_pick (window : Window) (n : Nat) (avoid : List Cell) (d : Draws) :
    scatter window n avoid d = pick window avoid n d := by
  rw [scatter, scatterOnto_eq_pick fun c => Std.HashSet.contains_ofList]
  rfl

theorem mem_pick (h : c ∈ (pick window avoid n d).1) : window.Inside c ∧ c ∉ avoid := by
  induction n generalizing avoid d with
  | zero => cases h
  | succ n ih =>
    unfold pick at h
    split at h
    · next first rest hfree =>
      obtain ⟨hinside, hfirst⟩ := inside_of_freeCell hfree
      rcases List.mem_cons.mp h with rfl | h
      · exact ⟨hinside, by simpa using hfirst⟩
      · exact (ih h).imp_right fun hoff hmem => hoff (List.mem_cons_of_mem first hmem)
    · cases h

theorem nodup_pick (window : Window) (avoid : List Cell) (n : Nat) (d : Draws) : (pick window avoid n d).1.Nodup := by
  induction n generalizing avoid d with
  | zero => exact List.nodup_nil
  | succ n ih =>
    unfold pick
    split
    · next c rest hfree =>
      exact List.nodup_cons.mpr ⟨fun hmem => (mem_pick hmem).2 List.mem_cons_self, ih (c :: avoid) rest⟩
    · exact List.nodup_nil

/-- All the cells that were wanted are picked, or a search after the last one was in vain. -/
theorem length_pick (window : Window) (avoid : List Cell) (n : Nat) (d : Draws) :
    (pick window avoid n d).1.length = n ∨
      (pick window avoid n d).1.length < n ∧ ∃ later,
        pick window avoid (pick window avoid n d).1.length d = ((pick window avoid n d).1, later) ∧
          ∀ c ∈ tries window maxAttempts later, c ∈ avoid ∨ c ∈ (pick window avoid n d).1 := by
  induction n generalizing avoid d with
  | zero => exact Or.inl rfl
  | succ n ih =>
    rcases hfree : freeCell window avoid.contains d with ⟨_ | c, rest⟩
    · have hnone : pick window avoid (n + 1) d = ([], rest) := by rw [pick, hfree]
      rw [hnone]
      refine Or.inr ⟨n.succ_pos, d, rfl, fun c hc => Or.inl ?_⟩
      simpa using occupied_of_freeCell hfree c hc
    · have hsome : ∀ m, pick window avoid (m + 1) d =
          (c :: (pick window (c :: avoid) m rest).1, (pick window (c :: avoid) m rest).2) := fun m => by rw [pick, hfree]
      rw [hsome, List.length_cons]
      rcases ih (c :: avoid) rest with hall | ⟨hless, later, hpick, hvain⟩
      · exact Or.inl (congrArg (· + 1) hall)
      · refine Or.inr ⟨Nat.succ_lt_succ hless, later, by rw [hsome, hpick], fun b hb => ?_⟩
        rcases hvain b hb with havoid | hpicked
        · exact (List.mem_cons.mp havoid).elim (fun hfirst => Or.inr (hfirst ▸ List.mem_cons_self)) Or.inl
        · exact Or.inr (List.mem_cons_of_mem c hpicked)

/-- Cells that were scattered over a window, so many as were wanted if none of the searches was in vain. -/
structure Scattered (window : Window) (count : Nat) (avoid : List Cell) (d : Draws) (cells : List Cell) : Prop where
  nodup : cells.Nodup
  inside : ∀ c ∈ cells, window.Inside c
  avoids : ∀ c ∈ cells, c ∉ avoid
  length_le : cells.length ≤ count
  /-- The search in vain is the one after the last cell: all its draws hit cells to avoid or cells scattered before. -/
  complete : cells.length = count ∨ (∀ c, ¬window.Inside c) ∨ ∃ later,
    scatter window cells.length avoid d = (cells, later) ∧ (tries window maxAttempts later).length = maxAttempts ∧
      ∀ c ∈ tries window maxAttempts later, c ∈ avoid ∨ c ∈ cells

theorem scattered_scatter (window : Window) (count : Nat) (avoid : List Cell) (d : Draws) :
    Scattered window count avoid d (scatter window count avoid d).1 := by
  have hlength := length_pick window avoid count d
  simp only [← scatter_eq_pick] at hlength
  refine ⟨?_, fun c hc => ?_, fun c hc => ?_, ?_, ?_⟩
  · rw [scatter_eq_pick]
    exact nodup_pick window avoid count d
  · rw [scatter_eq_pick] at hc
    exact (mem_pick hc).1
  · rw [scatter_eq_pick] at hc
    exact (mem_pick hc).2
  · exact hlength.elim Nat.le_of_eq fun hless => Nat.le_of_lt hless.1
  · refine hlength.imp_right fun hvain => ?_
    obtain ⟨-, later, hscatter, hvain⟩ := hvain
    by_cases hinside : ∃ c, window.Inside c
    · exact Or.inr ⟨later, hscatter, length_tries hinside maxAttempts later, hvain⟩
    · exact Or.inl (not_exists.mp hinside)

end Placement

/-! ### What a generator has been told -/

/-- What a generator has come to when it has been sent some messages. -/
def Generator.sent {σ : Type} (handle : σ → Message → Reply × σ) (ms : List Message) (g : σ) : σ :=
  ms.foldl (fun g m => (handle g m).2) g

theorem Generator.sent_concat {σ : Type} (handle : σ → Message → Reply × σ) (ms : List Message) (m : Message) (g : σ) :
    sent handle (ms ++ [m]) g = (handle (sent handle ms g) m).2 := List.foldl_concat ..

open Generator (sent sent_concat)

/-- The last set of targets among some messages. -/
def lastTargets (ms : List Message) : List Cell :=
  ((ms.filterMap fun
    | .targets cells => some cells
    | _ => none).getLast?).getD []

/-- The last window among some messages. -/
def lastWindow? (ms : List Message) : Option Window :=
  (ms.filterMap fun
    | .size width height => some (⟨width, height⟩ : Window)
    | _ => none).getLast?

theorem getLast?_filterMap_concat {α β : Type} (f : α → Option β) (l : List α) (a : α) :
    ((l ++ [a]).filterMap f).getLast? = (f a).or (l.filterMap f).getLast? := by
  rw [List.filterMap_append, List.getLast?_append]
  cases ha : f a <;> simp [ha]

namespace ObstacleGenerator

/-- It knows the last targets. -/
theorem sent_new (densities : Densities) (draws : Draws) (ms : List Message) :
    (sent handle ms (new densities draws)).density = densities.obstacles ∧
      (sent handle ms (new densities draws)).targets = lastTargets ms := by
  induction ms using List.reverseRecOn with
  | nil => exact ⟨rfl, rfl⟩
  | append_singleton ms m ih =>
    rw [sent_concat, lastTargets, getLast?_filterMap_concat]
    cases m with
    | targets cells => exact ⟨ih.1, rfl⟩
    | size | obstacles | input | exit | position | force | pid | ping | pong => exact ih

end ObstacleGenerator

namespace TargetGenerator

/-- It knows the last window. -/
theorem sent_new (densities : Densities) (draws : Draws) (ms : List Message) :
    (sent handle ms (new densities draws)).density = densities.targets ∧
      (sent handle ms (new densities draws)).window = lastWindow? ms := by
  induction ms using List.reverseRecOn with
  | nil => exact ⟨rfl, rfl⟩
  | append_singleton ms m ih =>
    rw [sent_concat, lastWindow?, getLast?_filterMap_concat]
    cases m with
    | size width height => exact ⟨ih.1, rfl⟩
    | obstacles cells =>
      generalize sent handle ms (new densities draws) = g at ih ⊢
      obtain ⟨density, rest, _ | window, obstacles, targets⟩ := g
      · exact ih
      · exact ih
    | targets | input | exit | position | force | pid | ping | pong => exact ih

end TargetGenerator

/-- Whatever the generators have been told, a window is answered with obstacles scattered over it, off the last targets,
    and a set of obstacles with targets scattered over the last window, off these obstacles, if there was a window;
    nothing else is answered. -/
theorem Generator.replies_scattered (densities : Densities) (draws : Draws) (ms : List Message) (m : Message) :
    (let g := sent ObstacleGenerator.handle ms (.new densities draws);
      match m with
      | .size width height => ∃ cells, (g.handle m).1 = .send (.obstacles cells) ∧
          Placement.Scattered ⟨width, height⟩ (Placement.population ⟨width, height⟩ densities.obstacles)
            (lastTargets ms) g.draws cells
      | .exit => (g.handle m).1 = .stop
      | _ => (g.handle m).1 = .silent) ∧
    (let g := sent TargetGenerator.handle ms (.new densities draws);
      match m, lastWindow? ms with
      | .obstacles around, some window => ∃ cells, (g.handle m).1 = .send (.targets cells) ∧
          Placement.Scattered window (Placement.population window densities.targets) around g.draws cells
      | .exit, _ => (g.handle m).1 = .stop
      | _, _ => (g.handle m).1 = .silent) := by
  refine ⟨?_, ?_⟩
  · obtain ⟨hdensity, htargets⟩ := ObstacleGenerator.sent_new densities draws ms
    cases m with
    | size width height =>
      rw [← hdensity, ← htargets]
      exact ⟨_, rfl, Placement.scattered_scatter ..⟩
    | targets | obstacles | input | exit | position | force | pid | ping | pong => rfl
  · obtain ⟨hdensity, hwindow⟩ := TargetGenerator.sent_new densities draws ms
    cases m with
    | obstacles around =>
      rw [← hwindow, ← hdensity]
      generalize sent TargetGenerator.handle ms (.new densities draws) = g
      obtain ⟨density, rest, _ | window, obstacles, targets⟩ := g
      · rfl
      · exact ⟨_, rfl, Placement.scattered_scatter ..⟩
    | size | targets | input | exit | position | force | pid | ping | pong => rfl

end GridFlight
