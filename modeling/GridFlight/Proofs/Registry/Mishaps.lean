import GridFlight.Proofs.Registry.Crowd
import GridFlight.Proofs.Registry.Snapshots

/-! A registry in a file that cannot always be opened, locked and read. Such a mishap leaves the file as it was. A
    listed entry stays listed until it is withdrawn or the registry is emptied, whatever else is asked and whatever
    fails. But a reader that cannot open the file is told that nothing is registered. -/

namespace GridFlight
namespace Disk

/-! ### Mishaps -/

/-- Openings, lockings and readings. -/
def Action.canFail : Action → Bool
  | .openRead | .openReadWrite | .openAppend | .lockShared | .lockExclusive | .read => true
  | _ => false

/-- The openings, lockings and readings that fail, and why. -/
abbrev Mishaps := Action → Option IoCause

def performDespite (mishaps : Mishaps) (action : Action) (o : Open) : Outcome × Open :=
  match if action.canFail then mishaps action else none with
  | some cause => (.failed cause, o)
  | none => perform action o

namespace Routine

variable {α β : Type}

def runFromDespite (mishaps : Mishaps) : Routine α → Open → α × Open
  | .done a, o => (a, o)
  | .act action next, o =>
    (next (performDespite mishaps action o).1).runFromDespite mishaps (performDespite mishaps action o).2

def runDespite (mishaps : Mishaps) (r : Routine α) (p : Place) : α × Place :=
  let (a, o) := r.runFromDespite mishaps ⟨p, 0⟩
  (a, o.place)

theorem runDespite_none (r : Routine α) (p : Place) : r.runDespite (fun _ => none) p = r.run p := by
  have hperform : ∀ (action : Action) (o : Open), performDespite (fun _ => none) action o = perform action o := by
    intro action o
    simp [performDespite]
  have hrun : ∀ o : Open, r.runFromDespite (fun _ => none) o = r.runFrom o := by
    induction r with
    | done a => exact fun _ => rfl
    | act action next ih =>
      intro o
      rw [runFromDespite, runFrom, hperform, ih]
  rw [runDespite, hrun, run]

theorem runDespite_map (mishaps : Mishaps) (f : α → β) (r : Routine α) (p : Place) :
    (r.map f).runDespite mishaps p = (f (r.runDespite mishaps p).1, (r.runDespite mishaps p).2) := by
  have hrun : ∀ o : Open,
      (r.map f).runFromDespite mishaps o = (f (r.runFromDespite mishaps o).1, (r.runFromDespite mishaps o).2) := by
    induction r with
    | done a => exact fun _ => rfl
    | act action next ih => exact fun o => ih _ _
  rw [runDespite, hrun, runDespite]

end Routine
end Disk

namespace Registry

open Disk (Mishaps Place performDespite)
open Disk.Routine (runDespite runFromDespite attempt locked finish)

variable {mishaps : Mishaps} {p : Place} {e : Entry}

/-! ### Single requests -/

/-- A file that cannot be opened counts as empty, whatever is in it. -/
theorem refresh_unopened {cause : IoCause} (h : mishaps .openRead = some cause) (p : Place) :
    File.refresh.runDespite mishaps p = (.ok [], p) := by
  simp [File.refresh, runDespite, runFromDespite, performDespite, Disk.Action.canFail, h]

/-- Of a file that has been opened the reader is told an error, or what it lists. -/
theorem refresh_opened {bytes : List UInt8} (hopen : mishaps .openRead = none) (hfile : p.node = .file bytes) :
    (∃ error, File.refresh.runDespite mishaps p = (.error error, p)) ∨
      ∃ text, bytes = Utf8.encode text ∧ File.refresh.runDespite mishaps p = (.ok (snapshot text), p) := by
  obtain ⟨parent, node⟩ := p
  obtain rfl : node = .file bytes := hfile
  cases htext : Utf8.decode? bytes with
  | none =>
    refine Or.inl ?_
    cases hlock : mishaps .lockShared <;> cases hread : mishaps .read <;>
      simp [File.refresh, runDespite, runFromDespite, performDespite, Disk.Action.canFail, locked, finish, Disk.perform,
        hopen, hlock, hread, htext]
  | some text =>
    have hanswer : (∃ error,
        File.refresh.runDespite mishaps ⟨parent, .file bytes⟩ = (.error error, ⟨parent, .file bytes⟩)) ∨
          File.refresh.runDespite mishaps ⟨parent, .file bytes⟩ = (.ok (snapshot text), ⟨parent, .file bytes⟩) := by
      cases hlock : mishaps .lockShared <;> cases hread : mishaps .read <;>
        simp [File.refresh, runDespite, runFromDespite, performDespite, Disk.Action.canFail, locked, finish,
          Disk.perform, hopen, hlock, hread, htext]
    exact hanswer.imp_right fun hrun => ⟨text, (Utf8.encode_of_decode? htext).symm, hrun⟩

theorem refresh_cases (mishaps : Mishaps) (p : Place) :
    File.refresh.runDespite mishaps p = (.ok [], p) ∨
      (∃ error, File.refresh.runDespite mishaps p = (.error error, p)) ∨
      ∃ text, p.node = .file (Utf8.encode text) ∧ File.refresh.runDespite mishaps p = (.ok (snapshot text), p) := by
  cases hopen : mishaps .openRead with
  | some cause => exact Or.inl (refresh_unopened hopen p)
  | none =>
    cases hnode : p.node with
    | absent =>
      refine Or.inl ?_
      simp [File.refresh, runDespite, runFromDespite, performDespite, Disk.Action.canFail, Disk.perform, hopen, hnode]
    | directory =>
      refine Or.inr (Or.inl ?_)
      cases hlock : mishaps .lockShared <;> cases hread : mishaps .read <;>
        simp [File.refresh, runDespite, runFromDespite, performDespite, Disk.Action.canFail, locked, finish,
          Disk.perform, hopen, hnode, hlock, hread]
    | file bytes =>
      refine Or.inr ((refresh_opened hopen hnode).imp_right ?_)
      rintro ⟨text, rfl, hrun⟩
      exact ⟨text, rfl, hrun⟩

theorem place_refresh (mishaps : Mishaps) (p : Place) : (File.refresh.runDespite mishaps p).2 = p := by
  rcases refresh_cases mishaps p with hrun | ⟨error, hrun⟩ | ⟨text, -, hrun⟩ <;> rw [hrun]

/-- A publication fails without a trace, or adds its line at the end. -/
theorem publish_cases (mishaps : Mishaps) (e : Entry) {text : String} (hfile : p.node = .file (Utf8.encode text)) :
    (∃ error, (File.publish e).runDespite mishaps p = (.error error, p)) ∨
      (File.publish e).runDespite mishaps p = (.ok (), ⟨p.parent, .file (Utf8.encode (text ++ e.line))⟩) := by
  obtain ⟨parent, node⟩ := p
  obtain rfl : node = _ := hfile
  cases hopen : mishaps .openAppend <;> cases hlock : mishaps .lockExclusive <;>
    simp [File.publish, runDespite, runFromDespite, performDespite, Disk.Action.canFail, attempt, locked, finish,
      Disk.perform, hopen, hlock, Utf8.encode_append]

theorem place_withdraw (mishaps : Mishaps) (e : Entry) {text : String} (hfile : p.node = .file (Utf8.encode text)) :
    ((File.withdraw e).runDespite mishaps p).2 = p ∨
      ((File.withdraw e).runDespite mishaps p).2 =
        ⟨p.parent, .file (Utf8.encode (String.ofList (File.without e text.toList).flatten))⟩ := by
  obtain ⟨parent, node⟩ := p
  obtain rfl : node = _ := hfile
  cases hopen : mishaps .openReadWrite with
  | some cause =>
    refine Or.inl ?_
    cases cause <;>
      simp [File.withdraw, runDespite, runFromDespite, performDespite, Disk.Action.canFail, hopen]
  | none =>
    cases hlock : mishaps .lockExclusive <;> cases hread : mishaps .read <;>
      cases hholds : File.holds e text.toList <;>
      simp [File.withdraw, File.strike, runDespite, runFromDespite, performDespite, Disk.Action.canFail, attempt,
        locked, finish, Disk.perform, Disk.overwrite, hopen, hlock, hread, hholds, Utf8.decode?_encode]

/-! ### Listed entries -/

/-- The file can be read, and lists the entry. -/
def Listed (e : Entry) (p : Place) : Prop := ∃ text, p.node = .file (Utf8.encode text) ∧ e ∈ snapshot text

theorem listed_of_refresh {entries : List Entry} (h : (File.refresh.runDespite mishaps p).1 = .ok entries)
    (he : e ∈ entries) : Listed e p := by
  rcases refresh_cases mishaps p with hrun | ⟨error, hrun⟩ | ⟨text, hfile, hrun⟩
  · rw [hrun] at h
    obtain rfl := Except.ok.inj h
    cases he
  · rw [hrun] at h
    cases h
  · rw [hrun] at h
    obtain rfl := Except.ok.inj h
    exact ⟨text, hfile, he⟩

/-- Whoever can open the file finds a listed entry there, unless there is an error. -/
theorem Listed.refresh (h : Listed e p) (hopen : mishaps .openRead = none) :
    (∃ error, (File.refresh.runDespite mishaps p).1 = .error error) ∨
      ∃ entries, (File.refresh.runDespite mishaps p).1 = .ok entries ∧ e ∈ entries := by
  obtain ⟨text, hfile, he⟩ := h
  rcases refresh_opened hopen hfile with ⟨error, hrun⟩ | ⟨text', htext, hrun⟩
  · exact Or.inl ⟨error, by rw [hrun]⟩
  · have hsame : text = text' := Utf8.encode_inj.mp htext
    exact Or.inr ⟨snapshot text, by rw [hrun, hsame], he⟩

/-- Serves a request while openings, lockings and readings fail. -/
def File.serveDespite (mishaps : Mishaps) (r : Request) (p : Place) : Response × Place :=
  r.routine.runDespite mishaps p

/-- Without a mishap a request is served as ever. -/
theorem File.serveDespite_none (r : Request) (p : Place) : serveDespite (fun _ => none) r p = serve r p := by
  rw [serveDespite, Disk.Routine.runDespite_none, serve_eq_run]

theorem Listed.serve (h : Listed e p) {r : Request} (hreset : r ≠ .reset) (hwithdraw : r ≠ .withdraw e) :
    Listed e (File.serveDespite mishaps r p).2 := by
  obtain ⟨text, hfile, he⟩ := h
  cases r with
  | reset => exact absurd rfl hreset
  | refresh | lookup =>
    simp only [File.serveDespite, Request.routine, Disk.Routine.runDespite_map, place_refresh]
    exact ⟨text, hfile, he⟩
  | publish f =>
    simp only [File.serveDespite, Request.routine, Disk.Routine.runDespite_map]
    rcases publish_cases mishaps f hfile with ⟨error, hrun⟩ | hrun
    · rw [hrun]
      exact ⟨text, hfile, he⟩
    · rw [hrun]
      refine ⟨text ++ f.line, rfl, ?_⟩
      rw [snapshot, String.toList_append]
      exact (snapshotOf_prefix_append _ _).subset he
  | withdraw f =>
    simp only [File.serveDespite, Request.routine, Disk.Routine.runDespite_map]
    rcases place_withdraw mishaps f hfile with hplace | hplace
    · rw [hplace]
      exact ⟨text, hfile, he⟩
    · rw [hplace]
      refine ⟨_, rfl, ?_⟩
      have hne : e ≠ f := fun heq => hwithdraw (heq ▸ rfl)
      rw [snapshot, String.toList_ofList, snapshotOf_without, List.mem_filter]
      exact ⟨he, bne_iff_ne.mpr hne⟩

end Registry
end GridFlight
