import GridFlight.Membership
import GridFlight.Proofs.Detector.Recheck
import Mathlib.Logic.Function.Basic

/-! The start of a flight on a registry that has just been emptied. The supervisor publishes itself; the other parts
    look for it, any number of times, at a file that may be unreadable or read only in part, and publish themselves
    after they have found it. So the supervisor is the first in the registry, and nobody finds another. -/

namespace GridFlight

open Disk (Mishaps Place)
open Registry (Entry Listing find? snapshot)

/-- A part has found this identity of the supervisor. -/
def Joining.Knows (j : Joining) (pid : Pid) : Prop := j = .publishing pid ∨ j = .joined pid

/-- A file with the text of a listing. -/
def Registry.Listing.place (l : Listing) : Place := ⟨true, .file (Utf8.encode l.text)⟩

theorem Registry.publish_listing (mishaps : Mishaps) (e : Entry) (l : Listing) :
    (∃ error, (File.publish e).runDespite mishaps l.place = (.error error, l.place)) ∨
      (File.publish e).runDespite mishaps l.place = (.ok (), (l.publish e).place) := by
  have hfile : l.place.node = .file (Utf8.encode l.text) := rfl
  have hplace : (l.publish e).place = ⟨true, .file (Utf8.encode (l.text ++ e.line))⟩ := by
    rw [Listing.place, Listing.text_publish]
  rw [hplace]
  exact publish_cases mishaps e hfile

variable {ι : Type} {entry : ι → Entry} {own : Pid}

/-- A registry in a file, a supervisor, and parts that join. -/
structure Startup (ι : Type) where
  place : Place
  supervisor : Detector
  joiners : ι → Joining

namespace Startup

section
variable [DecidableEq ι]

/-- What is found in the registry under a role, while openings, lockings and readings fail. -/
def lookup (mishaps : Mishaps) (role : Role) (p : Place) : Except SystemError (Option Pid) :=
  (Registry.File.refresh.runDespite mishaps p).1.map (find? role)

def publishSupervisor (s : Startup ι) (mishaps : Mishaps) : Startup ι :=
  let (supervisor, place) := s.supervisor.step (Detector.onFile mishaps .unreachable 0) s.place
  { s with supervisor, place }

/-- A part looks for the supervisor and reads this text. -/
def look (s : Startup ι) (i : ι) (mishaps : Mishaps) (seen : String) : Startup ι :=
  let answer := lookup mishaps .supervisor { s.place with node := .file (Utf8.encode seen) }
  { s with joiners := Function.update s.joiners i ((s.joiners i).look answer) }

def publish (s : Startup ι) (i : ι) (e : Entry) (mishaps : Mishaps) : Startup ι :=
  let (answer, place) := (Registry.File.publish e).runDespite mishaps s.place
  { s with place, joiners := Function.update s.joiners i ((s.joiners i).published answer) }

/-- The supervisor publishes itself once. A part reads a text that the file begins with, and publishes itself when it
    has found the supervisor. -/
inductive Step (entry : ι → Entry) (s : Startup ι) : Startup ι → Prop where
  | supervise (mishaps : Mishaps) (hstage : s.supervisor.stage = .publishing) : Step entry s (s.publishSupervisor mishaps)
  | look (i : ι) (mishaps : Mishaps) {text seen : String} (htext : s.place.node = .file (Utf8.encode text))
    (hseen : seen.toList <+: text.toList) : Step entry s (s.look i mishaps seen)
  | publish (i : ι) (mishaps : Mishaps) {supervisor : Pid} (hfound : s.joiners i = .publishing supervisor) :
    Step entry s (s.publish i (entry i) mishaps)

/-- What can be reached from a registry that has just been emptied, before anybody has looked. -/
inductive Reachable (entry : ι → Entry) (config : Detector.Config) (own : Pid) : Startup ι → Prop where
  | initial {before place : Place} (hreset : Registry.File.reset.run before = (.ok (), place)) :
    Reachable entry config own ⟨place, .new config own, fun _ => .looking⟩
  | step {s t : Startup ι} (h : Reachable entry config own s) (hstep : s.Step entry t) : Reachable entry config own t

end

/-! ### The order of publication -/

variable {s : Startup ι} {l : Listing} {i : ι}

/-- The supervisor is the first in the registry, and no part knows of another. -/
structure Orderly (own : Pid) (s : Startup ι) (l : Listing) : Prop where
  place : s.place = l.place
  self : s.supervisor.pid = own
  unpublished : s.supervisor.stage = .publishing → l = []
  first : l = [] ∨ ∃ parts, l = ⟨.supervisor, own⟩ :: parts ∧ ∀ e ∈ parts, e.role ≠ .supervisor
  found : ∀ i pid, (s.joiners i).Knows pid → pid = own ∧ l ≠ []

theorem run_reset {p q : Place} (h : Registry.File.reset.run p = (.ok (), q)) : q = Listing.place [] := by
  obtain ⟨parent, node⟩ := p
  cases node with
  | absent | file => exact (Prod.mk.inj h).2.symm
  | directory => cases h

/-- What is found in a part of a text is what comes first in the whole. -/
theorem find?_of_lookup {mishaps : Mishaps} {role : Role} {parent : Bool} {seen : String} {pid : Pid}
    (h : lookup mishaps role ⟨parent, .file (Utf8.encode seen)⟩ = .ok (some pid)) (hseen : seen.toList <+: l.text.toList) :
    find? role l = some pid := by
  rcases Registry.refresh_cases mishaps ⟨parent, .file (Utf8.encode seen)⟩ with hrun | ⟨error, hrun⟩ | ⟨text, hfile, hrun⟩
  · rw [lookup, hrun] at h
    cases h
  · rw [lookup, hrun] at h
    cases h
  · rw [lookup, hrun] at h
    have hfound : find? role (snapshot text) = some pid := Except.ok.inj h
    obtain rfl : seen = text := Utf8.encode_inj.mp (Disk.Node.file.inj hfile)
    -- The entries of the part that was read come first in the listing.
    obtain ⟨later, hlater⟩ := hseen
    have hfirst : snapshot seen <+: l := by
      have hwhole := Registry.Listing.snapshot_text l
      rw [snapshot, ← hlater] at hwhole
      exact hwhole ▸ Registry.snapshotOf_prefix_append seen.toList later
    obtain ⟨others, rfl⟩ := hfirst
    obtain ⟨e, he, rfl⟩ := Option.map_eq_some_iff.mp hfound
    simp [find?, List.find?_append, he]

theorem look_cases (j : Joining) (answer : Except SystemError (Option Pid)) :
    j.look answer = j ∨ ∃ pid, answer = .ok (some pid) ∧ j.look answer = .publishing pid := by
  cases j with
  | looking =>
    rcases answer with error | _ | pid
    · exact Or.inl rfl
    · exact Or.inl rfl
    · exact Or.inr ⟨pid, rfl, rfl⟩
  | publishing | joined | refused => exact Or.inl rfl

namespace Orderly

theorem initial {before place : Place} (hreset : Registry.File.reset.run before = (.ok (), place))
    (config : Detector.Config) (own : Pid) : Orderly own (⟨place, .new config own, fun _ => .looking⟩ : Startup ι) [] where
  place := run_reset hreset
  self := rfl
  unpublished _ := rfl
  first := Or.inl rfl
  found _ _ := nofun

theorem publishSupervisor (h : Orderly own s l) (mishaps : Mishaps) (hstage : s.supervisor.stage = .publishing) :
    ∃ m, Orderly own (s.publishSupervisor mishaps) m := by
  obtain ⟨place, supervisor, joiners⟩ := s
  obtain ⟨config, pid, records, cycles, stage⟩ := supervisor
  obtain rfl : place = l.place := h.place
  obtain rfl : pid = own := h.self
  obtain rfl : stage = .publishing := hstage
  obtain rfl : l = [] := h.unpublished rfl
  have hlooking : ∀ i pid', ¬(joiners i).Knows pid' :=
    fun i pid' hknows => (h.found i pid' hknows).2 rfl
  rcases Registry.publish_listing mishaps ⟨.supervisor, pid⟩ [] with ⟨error, hrun⟩ | hrun
  · refine ⟨[], ?_⟩
    simp only [Startup.publishSupervisor, Detector.step, Detector.onFile, Detector.self, hrun]
    exact ⟨rfl, rfl, fun _ => rfl, Or.inl rfl, fun i pid' hknows => absurd hknows (hlooking i pid')⟩
  · refine ⟨[⟨.supervisor, pid⟩], ?_⟩
    simp only [Startup.publishSupervisor, Detector.step, Detector.onFile, Detector.self, hrun]
    exact ⟨rfl, rfl, nofun, Or.inr ⟨[], rfl, nofun⟩, fun i pid' hknows => absurd hknows (hlooking i pid')⟩

/-- Whoever finds a supervisor in the registry finds this one. -/
theorem own_of_find? (h : Orderly own s l) {pid : Pid} (hfind : find? .supervisor l = some pid) :
    pid = own ∧ l ≠ [] := by
  rcases h.first with rfl | ⟨parts, rfl, -⟩
  · cases hfind
  · exact ⟨(Option.some.inj hfind).symm, List.cons_ne_nil _ _⟩

variable [DecidableEq ι]

theorem found_update (h : Orderly own s l) {m : Listing} (hm : m ≠ []) {j : Joining}
    (hj : ∀ pid, j.Knows pid → pid = own) :
    ∀ k pid, (Function.update s.joiners i j k).Knows pid → pid = own ∧ m ≠ [] := by
  intro k pid hknows
  by_cases hk : k = i
  · subst hk
    rw [Function.update_self] at hknows
    exact ⟨hj pid hknows, hm⟩
  · rw [Function.update_of_ne hk] at hknows
    exact ⟨(h.found k pid hknows).1, hm⟩

theorem look (h : Orderly own s l) (i : ι) (mishaps : Mishaps) {text seen : String}
    (htext : s.place.node = .file (Utf8.encode text)) (hseen : seen.toList <+: text.toList) :
    Orderly own (s.look i mishaps seen) l := by
  have hwhole : seen.toList <+: l.text.toList := by
    rw [h.place] at htext
    exact Utf8.encode_inj.mp (Disk.Node.file.inj htext) ▸ hseen
  have hfound : ∀ k pid, ((s.look i mishaps seen).joiners k).Knows pid → pid = own ∧ l ≠ [] := by
    obtain ⟨answer, hanswer⟩ :
      ∃ answer, lookup mishaps .supervisor ⟨s.place.parent, .file (Utf8.encode seen)⟩ = answer := ⟨_, rfl⟩
    simp only [Startup.look, hanswer]
    rcases look_cases (s.joiners i) answer with hsame | ⟨found, rfl, hpublishing⟩
    · rw [hsame, Function.update_eq_self]
      exact h.found
    · obtain ⟨hown, hne⟩ := h.own_of_find? (find?_of_lookup hanswer hwhole)
      rw [hpublishing]
      refine h.found_update hne fun pid hknows => ?_
      rcases hknows with heq | heq
      · exact (Joining.publishing.inj heq).symm.trans hown
      · cases heq
  exact ⟨h.place, h.self, h.unpublished, h.first, hfound⟩

theorem publish (h : Orderly own s l) (i : ι) (mishaps : Mishaps) {e : Entry} (hrole : e.role ≠ .supervisor)
    {supervisor : Pid} (hfound : s.joiners i = .publishing supervisor) :
    ∃ m, Orderly own (s.publish i e mishaps) m := by
  obtain ⟨rfl, hne⟩ := h.found i supervisor (Or.inl hfound)
  obtain ⟨parts, rfl, hparts⟩ := h.first.resolve_left hne
  rcases Registry.publish_listing mishaps e (⟨.supervisor, supervisor⟩ :: parts) with ⟨error, hrun⟩ | hrun
  · refine ⟨⟨.supervisor, supervisor⟩ :: parts, ?_⟩
    simp only [Startup.publish, h.place, hrun, hfound, Joining.published]
    refine ⟨rfl, h.self, h.unpublished, h.first, h.found_update hne fun pid hknows => ?_⟩
    rcases hknows with heq | heq <;> cases heq
  · refine ⟨Listing.publish e (⟨.supervisor, supervisor⟩ :: parts), ?_⟩
    simp only [Startup.publish, h.place, hrun, hfound, Joining.published]
    refine ⟨rfl, h.self, fun hstage => absurd (h.unpublished hstage) hne, Or.inr ⟨parts ++ [e], rfl, ?_⟩,
      h.found_update (List.cons_ne_nil _ _) fun pid hknows => ?_⟩
    · intro f hf
      rcases List.mem_append.mp hf with hf | hf
      · exact hparts f hf
      · exact List.mem_singleton.mp hf ▸ hrole
    · rcases hknows with heq | heq
      · cases heq
      · exact (Joining.joined.inj heq).symm

end Orderly

variable [DecidableEq ι] {config : Detector.Config}

theorem exists_orderly (hroles : ∀ i, (entry i).role ≠ .supervisor) (h : Reachable entry config own s) :
    ∃ l, Orderly own s l := by
  induction h with
  | initial hreset => exact ⟨[], .initial hreset config own⟩
  | step _ hstep ih =>
    obtain ⟨l, hl⟩ := ih
    cases hstep with
    | supervise mishaps hstage => exact hl.publishSupervisor mishaps hstage
    | look i mishaps htext hseen => exact ⟨l, hl.look i mishaps htext hseen⟩
    | publish i mishaps hfound => exact hl.publish i mishaps (hroles i) hfound

/-- Whatever the order of the steps, and whatever fails: the registry can be read, the supervisor has published itself
    before every other part that is in it, and a part that has joined knows the identity that the supervisor has
    published. -/
theorem supervisor_published_first (hroles : ∀ i, (entry i).role ≠ .supervisor)
    (h : Reachable entry config own s) :
    ∃ l, Registry.File.refresh.run s.place = (.ok l, s.place) ∧
      (∀ i before after, l = before ++ entry i :: after → ⟨.supervisor, own⟩ ∈ before) ∧
      ∀ i pid, s.joiners i = .joined pid → pid = own ∧ ⟨.supervisor, own⟩ ∈ l := by
  obtain ⟨l, hl⟩ := exists_orderly hroles h
  refine ⟨l, ?_, fun i before after hsplit => ?_, fun i pid hjoined => ?_⟩
  · have hholds : Registry.Holds s.place l := hl.place ▸ ⟨rfl, Or.inr rfl⟩
    exact hholds.refresh
  · rcases hl.first with rfl | ⟨parts, rfl, hparts⟩
    · simp at hsplit
    · cases before with
      | nil => exact absurd (List.cons.inj hsplit).1 fun heq => hroles i (heq ▸ rfl)
      | cons first before => exact (List.cons.inj hsplit).1 ▸ List.mem_cons_self
  · obtain ⟨hpid, hne⟩ := hl.found i pid (Or.inr hjoined)
    obtain ⟨parts, rfl, -⟩ := hl.first.resolve_left hne
    exact ⟨hpid, List.mem_cons_self⟩

/-- Two parts that join a flight. -/
def twoParts : Fin 2 → Entry
  | 0 => ⟨.physics, ⟨11⟩⟩
  | 1 => ⟨.targets, ⟨12⟩⟩

/-- The second part first reads a text that ends within the identity of the supervisor. -/
theorem two_parts_join_after_supervisor :
    ∃ s, Reachable twoParts .standard ⟨42⟩ s ∧ s.joiners 0 = .joined ⟨42⟩ ∧ s.joiners 1 = .joined ⟨42⟩ ∧
      ∃ l, Registry.File.refresh.run s.place = (.ok l, s.place) ∧
        (∀ i before after, l = before ++ twoParts i :: after → ⟨.supervisor, ⟨42⟩⟩ ∈ before) ∧
        ∀ i pid, s.joiners i = .joined pid → pid = ⟨42⟩ ∧ ⟨.supervisor, ⟨42⟩⟩ ∈ l := by
  have hreset : Registry.File.reset.run ⟨false, .absent⟩ = (.ok (), ⟨true, .file []⟩) := rfl
  have h : Reachable twoParts .standard ⟨42⟩ _ := .initial hreset
  have h := h.step (.supervise (fun _ => none) rfl)
  have hpart : "SUPERVISOR_PID 4".toList <+: (Entry.line ⟨.supervisor, ⟨42⟩⟩).toList := by decide
  have hwhole := List.prefix_refl (Entry.line ⟨.supervisor, ⟨42⟩⟩).toList
  have h := h.step (.look 1 (fun _ => none) (by rfl) hpart)
  have h := h.step (.look 0 (fun _ => none) (by rfl) hwhole)
  have h := h.step (.publish 0 (fun _ => none) (show _ = Joining.publishing ⟨42⟩ from rfl))
  have hlonger : (Entry.line ⟨.supervisor, ⟨42⟩⟩).toList <+:
      (Entry.line ⟨.supervisor, ⟨42⟩⟩ ++ Entry.line ⟨.physics, ⟨11⟩⟩).toList := by decide
  have h := h.step (.look 1 (fun _ => none) (by rfl) hlonger)
  have h := h.step (.publish 1 (fun _ => none) (show _ = Joining.publishing ⟨42⟩ from rfl))
  exact ⟨_, h, rfl, rfl, supervisor_published_first (by decide) h⟩

end Startup
end GridFlight
