import GridFlight.Proofs.Detector.Members
import GridFlight.Proofs.Flight.Composition

/-! A part that leaves is never taken for one that has failed. A part answers pings from before its entry is in the
    registry until after it is out of it. So a part that has not answered has ended, and the look at the registry that
    follows does not find it. -/

namespace GridFlight

open Registry (Entry Listing)
open Heartbeat (Line Outcome)

variable {α : Type}

/-! ### Stages of a life -/

namespace LifeStage

/-- The part has published itself and has not withdrawn. -/
def isListed : LifeStage α → Bool
  | working | withdrawing _ => true
  | _ => false

def isEnded : LifeStage α → Bool
  | ended _ => true
  | _ => false

theorem not_listed_of_ended {stage : LifeStage α} (h : stage.isEnded = true) : stage.isListed = false := by
  cases stage with
  | ended result => rfl
  | joining | working | withdrawing | closing => cases h

end LifeStage

namespace Participant

/-- What a step of a part that does not touch the registry keeps. -/
structure Kept (p q : Participant α) : Prop where
  entry : q.entry = p.entry
  listed : q.stage.isListed = p.stage.isListed
  ended : p.stage.isEnded = true → q.stage.isEnded = true
  answering : p.answering = true ∨ p.stage.isEnded = true → q.answering = true ∨ q.stage.isEnded = true
  silent : p.answering = false → q.answering = false

theorem Kept.refl (p : Participant α) : p.Kept p := ⟨rfl, rfl, id, id, id⟩

theorem kept_look (p : Participant α) (answer : Except SystemError (Option Pid)) : p.Kept (p.look answer) := by
  obtain ⟨role, pid, answering, stage⟩ := p
  cases stage with
  | joining j => exact ⟨rfl, rfl, nofun, id, id⟩
  | working | withdrawing | closing | ended => exact Kept.refl _

theorem kept_finish (p : Participant α) (result : Except Fault α) : p.Kept (p.finish result) := by
  obtain ⟨role, pid, answering, stage⟩ := p
  cases stage with
  | working => exact ⟨rfl, rfl, nofun, id, id⟩
  | joining | withdrawing | closing | ended => exact Kept.refl _

theorem kept_hush (p : Participant α) : p.Kept p.hush := by
  obtain ⟨role, pid, answering, stage⟩ := p
  cases stage with
  | closing result => exact ⟨rfl, rfl, nofun, fun _ => Or.inr rfl, fun _ => rfl⟩
  | joining | working | withdrawing | ended => exact Kept.refl _

end Participant

/-! ### The invariant -/

/-- A part is in the registry while it works, and answers until it has ended. -/
structure Post.Sound (listing : Listing) (role : Role) (p : Post α) : Prop where
  role : p.part.role = role
  listed : p.part.entry ∈ listing ↔ p.part.stage.isListed = true
  answering : p.part.answering = true ∨ p.part.stage.isEnded = true
  line : p.line.Sound
  room : p.line.link.writer.room = none ∨ p.part.answering = false

theorem Post.Sound.ended_of_silent {listing : Listing} {role : Role} {p : Post α} (h : p.Sound listing role)
    (hsilent : p.part.answering = false) : p.part.stage.isEnded = true :=
  h.answering.resolve_left (by rw [hsilent]; nofun)

/-- A responder that is gone was told to end. -/
theorem Post.Sound.silent_of_gone {listing : Listing} {role : Role} {p : Post α} (h : p.Sound listing role)
    (hgone : p.Gone) : p.part.answering = false :=
  hgone.resolve_right (by rw [h.line.running]; nofun)

theorem Post.Sound.of_kept {listing : Listing} {role : Role} {p : Post α} (h : p.Sound listing role)
    {part : Participant α} (hkept : p.part.Kept part) : Post.Sound listing role { p with part := part } where
  role := (congrArg Entry.role hkept.entry).trans h.role
  listed := by
    rw [hkept.entry, hkept.listed]
    exact h.listed
  answering := hkept.answering h.answering
  line := h.line
  room := h.room.imp_right hkept.silent

theorem Post.Sound.step {listing : Listing} {role : Role} {p q : Post α} (h : p.Sound listing role)
    (hstep : p.Step listing q) : q.Sound listing role ∧ q.part.entry = p.part.entry ∧
      (p.part.stage.isEnded = true → q.part.stage.isEnded = true) ∧ (p.line.Awaiting → q.line.Awaiting) := by
  cases hstep with
  | look =>
    have hkept := p.part.kept_look (.ok (Registry.find? .supervisor listing))
    exact ⟨h.of_kept hkept, hkept.entry, hkept.ended, id⟩
  | finish result =>
    have hkept := p.part.kept_finish result
    exact ⟨h.of_kept hkept, hkept.entry, hkept.ended, id⟩
  | hush =>
    have hkept := p.part.kept_hush
    exact ⟨h.of_kept hkept, hkept.entry, hkept.ended, id⟩
  | respond hpings =>
    exact ⟨⟨h.role, h.listed, h.answering, (h.line.respond hpings).1, h.room⟩, rfl, id,
      fun hw => hw.respond h.line hpings⟩
  | hangUp hgone =>
    exact ⟨⟨h.role, h.listed, h.answering, h.line.hangUp, Or.inr (h.silent_of_gone hgone)⟩, rfl, id, id⟩

namespace Flight

/-- The entry of a part that has started. -/
def Known (f : Flight α) (e : Entry) : Prop := ∃ p, f.posts e.role = some p ∧ p.part.entry = e

/-- Whom a pass asks is known; a ping that was written is not lost, and whoever is looked up again has ended. -/
def PassSound (f : Flight α) : Prop :=
  match f.pass with
  | .reading | .finished .idle | .finished (.healthy _ _) => True
  | .probing m rest _ _ =>
    (∀ e ∈ m :: rest, f.Known e) ∧ (f.waiting = true → ∃ p, f.posts m.role = some p ∧ p.line.Awaiting)
  | .rechecking m _ rest _ _ =>
    (∀ e ∈ m :: rest, f.Known e) ∧ ∃ p, f.posts m.role = some p ∧ p.part.stage.isEnded = true
  | .finished (.failed _) => False

/-- Every part is where the registry says, and the registry lists nobody else. -/
structure Grounded (f : Flight α) : Prop where
  posts : ∀ role p, f.posts role = some p → p.Sound f.listing role
  entries : ∀ e ∈ f.listing, e.role = .supervisor ∨ f.Known e

theorem initial_grounded (config : Detector.Config) (own : Pid) (supervisors : List Pid) :
    (initial config own supervisors : Flight α).Grounded where
  posts _ _ h := nomatch h
  entries e he := by
    obtain ⟨pid, -, rfl⟩ := List.mem_map.mp he
    exact Or.inl rfl

/-! ### What a step keeps -/

/-- What a step keeps of every part. -/
structure Kept (f g : Flight α) : Prop where
  posts : ∀ role p, f.posts role = some p → ∃ q, g.posts role = some q ∧ q.part.entry = p.part.entry ∧
    (p.part.stage.isEnded = true → q.part.stage.isEnded = true) ∧ (p.line.Awaiting → q.line.Awaiting)
  pass : g.pass = f.pass
  waiting : g.waiting = f.waiting

theorem Kept.known {f g : Flight α} (h : f.Kept g) {e : Entry} (he : f.Known e) : g.Known e := by
  obtain ⟨p, hp, rfl⟩ := he
  obtain ⟨q, hq, hentry, -⟩ := h.posts _ p hp
  exact ⟨q, hq, hentry⟩

theorem Kept.passSound {f g : Flight α} (h : f.Kept g) (hf : f.PassSound) : g.PassSound := by
  unfold PassSound at hf ⊢
  rw [h.pass]
  cases hpass : f.pass with
  | reading => trivial
  | probing m rest probed skipped =>
    rw [hpass] at hf
    obtain ⟨hknown, hwaiting⟩ := hf
    refine ⟨fun e he => h.known (hknown e he), fun hw => ?_⟩
    obtain ⟨p, hp, hawaiting⟩ := hwaiting (h.waiting ▸ hw)
    obtain ⟨q, hq, -, -, hkept⟩ := h.posts _ p hp
    exact ⟨q, hq, hkept hawaiting⟩
  | rechecking m outcome rest probed skipped =>
    rw [hpass] at hf
    obtain ⟨hknown, p, hp, hended⟩ := hf
    obtain ⟨q, hq, -, hkept, -⟩ := h.posts _ p hp
    exact ⟨fun e he => h.known (hknown e he), q, hq, hkept hended⟩
  | finished report =>
    rw [hpass] at hf
    cases report with
    | idle | healthy => trivial
    | failed => exact hf.elim

section
variable {f : Flight α} {role : Role} {p q : Post α}

theorem put_self (f : Flight α) (role : Role) (p : Post α) : (f.put role p).posts role = some p := if_pos rfl

theorem put_other (f : Flight α) {role other : Role} (h : other ≠ role) (p : Post α) :
    (f.put role p).posts other = f.posts other := if_neg h

theorem kept_start (h : f.posts role = none) (listing : Listing) :
    f.Kept { f.put role q with listing := listing } where
  posts other p hp := by
    by_cases hrole : other = role
    · rw [hrole, h] at hp
      cases hp
    · exact ⟨p, (put_other f hrole q).trans hp, rfl, id, id⟩
  pass := rfl
  waiting := rfl

theorem kept_put (h : f.posts role = some p) (q : Post α) (hentry : q.part.entry = p.part.entry)
    (hended : p.part.stage.isEnded = true → q.part.stage.isEnded = true)
    (hawaiting : p.line.Awaiting → q.line.Awaiting) (listing : Listing) :
    f.Kept { f.put role q with listing := listing } where
  posts other r hr := by
    by_cases hrole : other = role
    · obtain rfl : p = r := Option.some.inj (h.symm.trans (hrole ▸ hr))
      exact ⟨q, hrole ▸ put_self f role q, hentry, hended, hawaiting⟩
    · exact ⟨r, (put_other f hrole q).trans hr, rfl, id, id⟩
  pass := rfl
  waiting := rfl

theorem Grounded.put {listing : Listing} (hf : f.Grounded) (hq : q.Sound listing role)
    (hothers : ∀ e, e.role ≠ role → (e ∈ listing ↔ e ∈ f.listing))
    (hentries : ∀ e ∈ listing, e.role = role → e.role = .supervisor ∨ q.part.entry = e)
    (hknown : ∀ e, f.Known e → Known { f.put role q with listing := listing } e) :
    Grounded { f.put role q with listing := listing } where
  posts other r hr := by
    by_cases hrole : other = role
    · subst hrole
      obtain rfl : q = r := Option.some.inj ((put_self f other q).symm.trans hr)
      exact hq
    · obtain ⟨hr', hlisted, hanswering, hline, hroom⟩ := hf.posts other r ((put_other f hrole q).symm.trans hr)
      have hentry : r.part.entry.role ≠ role := fun h => hrole (hr'.symm.trans h)
      exact ⟨hr', (hothers _ hentry).trans hlisted, hanswering, hline, hroom⟩
  entries e he := by
    by_cases hrole : e.role = role
    · refine (hentries e he hrole).imp_right fun h => ⟨q, ?_, h⟩
      rw [hrole]
      exact put_self f role q
    · exact (hf.entries e ((hothers e hrole).mp he)).imp_right (hknown e)

/-- The registry has no other entry of the role of a part than the part's own. -/
theorem Grounded.own_entry (hf : f.Grounded) (h : f.posts role = some p) {e : Entry} (he : e ∈ f.listing)
    (hrole : e.role = role) : e.role = .supervisor ∨ p.part.entry = e := by
  refine (hf.entries e he).imp_right ?_
  rintro ⟨r, hr, hentry⟩
  obtain rfl : p = r := Option.some.inj (h.symm.trans (hrole ▸ hr))
  exact hentry

/-! ### Steps of the parts -/

theorem Grounded.start (hf : f.Grounded) (h : f.posts role = none) (hrole : role ≠ .supervisor) (pid : Pid) :
    (f.put role (.start role pid)).Grounded ∧ f.Kept (f.put role (.start role pid)) := by
  have hkept : f.Kept (f.put role (.start role pid)) := kept_start h f.listing
  have hfresh : ∀ e ∈ f.listing, e.role ≠ role := by
    intro e he heq
    rcases hf.entries e he with hsup | ⟨p, hp, -⟩
    · exact hrole (heq.symm.trans hsup)
    · rw [heq, h] at hp
      cases hp
  have hstart : Post.Sound f.listing role (.start role pid : Post α) :=
    ⟨rfl, ⟨fun hmem => absurd rfl (hfresh _ hmem), nofun⟩, Or.inl rfl, Line.new_sound, Or.inl rfl⟩
  exact ⟨hf.put hstart (fun _ _ => Iff.rfl) (fun e he heq => absurd heq (hfresh e he)) fun _ => hkept.known, hkept⟩

theorem Grounded.alone (hf : f.Grounded) (h : f.posts role = some p) (hstep : p.Step f.listing q) :
    (f.put role q).Grounded ∧ f.Kept (f.put role q) := by
  obtain ⟨hq, hentry, hended, hawaiting⟩ := (hf.posts role p h).step hstep
  have hkept : f.Kept (f.put role q) := kept_put h q hentry hended hawaiting f.listing
  refine ⟨hf.put hq (fun _ _ => Iff.rfl) (fun e he hrole => ?_) fun _ => hkept.known, hkept⟩
  rw [hentry]
  exact hf.own_entry h he hrole

/-- A part that has not ended moves on together with its entry, and no other entry is touched. -/
theorem Grounded.move (hf : f.Grounded) (h : f.posts role = some p) {stage : LifeStage α} {listing : Listing}
    (hbefore : p.part.stage.isEnded = false) (hown : p.part.entry ∈ listing ↔ stage.isListed = true)
    (hothers : ∀ e, e ≠ p.part.entry → (e ∈ listing ↔ e ∈ f.listing)) :
    let g := { f.put role { p with part := { p.part with stage := stage } } with listing := listing }
    g.Grounded ∧ f.Kept g := by
  intro g
  have hp := hf.posts role p h
  have hlive : ¬ p.part.stage.isEnded = true := by rw [hbefore]; nofun
  have hkept : f.Kept g := kept_put h { p with part := { p.part with stage := stage } } rfl
    (fun hended => absurd hended hlive) id listing
  refine ⟨hf.put ?_ ?_ ?_ fun _ => hkept.known, hkept⟩
  · exact ⟨hp.role, hown, Or.inl (hp.answering.resolve_right hlive), hp.line, hp.room⟩
  · intro e he
    refine hothers e ?_
    rintro rfl
    exact he hp.role
  · intro e he hrole
    by_cases hentry : p.part.entry = e
    · exact Or.inr hentry
    · exact hf.own_entry h ((hothers e fun heq => hentry heq.symm).mp he) hrole

theorem Grounded.publish (hf : f.Grounded) (h : f.posts role = some p) {supervisor : Pid}
    (hstage : p.part.stage = .joining (.publishing supervisor)) :
    let g := { f.put role { p with part := p.part.published (.ok ()) } with
      listing := f.listing.publish p.part.entry }
    g.Grounded ∧ f.Kept g := by
  have hpart : p.part.published (.ok ()) = { p.part with stage := .working } := by
    simp only [Participant.published, hstage, Joining.published]
  have hmem : ∀ e, e ∈ f.listing.publish p.part.entry ↔ e ∈ f.listing ∨ e = p.part.entry := fun e => by
    rw [Listing.publish, List.mem_append, List.mem_singleton]
  rw [hpart]
  refine hf.move h (by rw [hstage]; rfl) ⟨fun _ => rfl, fun _ => (hmem _).mpr (Or.inr rfl)⟩ fun e he => ?_
  exact (hmem e).trans ⟨fun h => h.resolve_right he, Or.inl⟩

theorem Grounded.withdraw (hf : f.Grounded) (h : f.posts role = some p) {result : Except Fault α}
    (hstage : p.part.stage = .withdrawing result) :
    let g := { f.put role { p with part := p.part.withdrew } with listing := (f.listing.withdraw p.part.entry).2 }
    g.Grounded ∧ f.Kept g := by
  have hpart : p.part.withdrew = { p.part with stage := .closing result } := by
    simp only [Participant.withdrew, hstage]
  have hmem : ∀ e, e ∈ (f.listing.withdraw p.part.entry).2 ↔ e ∈ f.listing ∧ e ≠ p.part.entry := by
    simp only [Listing.withdraw, List.mem_filter, bne_iff_ne, implies_true]
  rw [hpart]
  refine hf.move h (by rw [hstage]; rfl) ⟨fun hown => absurd rfl ((hmem _).mp hown).2, nofun⟩ fun e he => ?_
  exact (hmem e).trans ⟨And.left, fun h => ⟨h, he⟩⟩

/-! ### Steps of the detector -/

theorem begin_passSound (hf : f.Grounded) :
    PassSound { f with
      pass := (f.detector.begin (.ok f.listing)).1
      detector := (f.detector.begin (.ok f.listing)).2
      waiting := false } := by
  have hknown : ∀ e ∈ Detector.membersOf f.detector.pid f.listing, f.Known e := fun e he =>
    (hf.entries e (Detector.mem_of_mem_membersOf he)).resolve_left (Detector.mem_membersOf_iff.mp he).1.1
  unfold PassSound Detector.begin
  simp only [Except.toOption, Option.getD_some]
  cases hmembers : Detector.membersOf f.detector.pid f.listing with
  | nil => trivial
  | cons m rest =>
    rw [hmembers] at hknown
    exact ⟨hknown, nofun⟩

theorem conclude_passSound {m : Entry} {rest : List Entry} {outcome : Outcome} (probed skipped now : Nat)
    (hknown : ∀ e ∈ m :: rest, f.Known e)
    (hdead : outcome.isAlive = false → ∃ p, f.posts m.role = some p ∧ p.part.stage.isEnded = true) :
    (f.conclude m rest probed skipped outcome now).PassSound := by
  cases outcome with
  | acknowledged millis =>
    cases rest with
    | nil => trivial
    | cons next rest => exact ⟨fun e he => hknown e (List.mem_cons_of_mem _ he), nofun⟩
  | timedOut | disconnected | unreachable => exact ⟨hknown, hdead rfl⟩

theorem recheck_passSound {m : Entry} {outcome : Outcome} {rest : List Entry} {probed skipped : Nat}
    (hf : f.Grounded) (hpass : f.PassSound) (hstage : f.pass = .rechecking m outcome rest probed skipped) :
    PassSound { f with
      pass := (f.detector.rechecked m outcome rest probed skipped (.ok f.listing)).1
      detector := (f.detector.rechecked m outcome rest probed skipped (.ok f.listing)).2
      waiting := false } := by
  rw [PassSound, hstage] at hpass
  obtain ⟨hknown, p, hp, hended⟩ := hpass
  -- The part that was asked has ended, and an ended part is not listed.
  have hgone : Detector.stillRegistered m (.ok f.listing) = false := by
    obtain ⟨r, hr, hentry⟩ := hknown m List.mem_cons_self
    obtain rfl : p = r := Option.some.inj (hp.symm.trans hr)
    have hlisted := (hf.posts _ p hp).listed
    rw [hentry, LifeStage.not_listed_of_ended hended] at hlisted
    rw [Detector.stillRegistered, List.contains_eq_mem, decide_eq_false_iff_not]
    exact fun hmem => nomatch hlisted.mp hmem
  unfold PassSound Detector.rechecked
  simp only [hgone, Bool.false_eq_true, if_false]
  cases rest with
  | nil => trivial
  | cons next rest => exact ⟨fun e he => hknown e (List.mem_cons_of_mem _ he), nofun⟩

theorem known_line (h : f.posts role = some p) (l : Line) {e : Entry} (he : f.Known e) :
    (f.put role { p with line := l }).Known e := by
  obtain ⟨r, hr, rfl⟩ := he
  by_cases hrole : r.part.entry.role = role
  · obtain rfl : p = r := Option.some.inj (h.symm.trans (hrole ▸ hr))
    refine ⟨{ p with line := l }, ?_, rfl⟩
    rw [hrole]
    exact put_self f role _
  · exact ⟨r, (put_other f hrole _).trans hr, rfl⟩

theorem Grounded.line (hf : f.Grounded) (h : f.posts role = some p) {l : Line} (hl : l.Sound)
    (hroom : l.link.writer.room = none ∨ p.part.answering = false) :
    (f.put role { p with line := l }).Grounded := by
  have hp := hf.posts role p h
  have hq : Post.Sound f.listing role { p with line := l } := ⟨hp.role, hp.listed, hp.answering, hl, hroom⟩
  exact hf.put hq (fun _ _ => Iff.rfl) (fun e he hrole => hf.own_entry h he hrole) fun _ => known_line h l

theorem passSound_of_probing {m : Entry} {rest : List Entry} {probed skipped : Nat}
    (hstage : f.pass = .probing m rest probed skipped) (hknown : ∀ e ∈ m :: rest, f.Known e)
    (hawaiting : f.waiting = true → ∃ p, f.posts m.role = some p ∧ p.line.Awaiting) : f.PassSound := by
  rw [PassSound, hstage]
  exact ⟨hknown, hawaiting⟩

/-- A pass that probes knows whom, and the ping that it waits for is on its way. -/
theorem probing_sound {m : Entry} {rest : List Entry} {probed skipped : Nat} (hpass : f.PassSound)
    (hstage : f.pass = .probing m rest probed skipped) (h : f.posts m.role = some p) :
    (∀ e ∈ m :: rest, f.Known e) ∧ (f.waiting = true → p.line.Awaiting) := by
  rw [PassSound, hstage] at hpass
  obtain ⟨hknown, hawaiting⟩ := hpass
  refine ⟨hknown, fun hw => ?_⟩
  obtain ⟨r, hr, hr'⟩ := hawaiting hw
  obtain rfl : p = r := Option.some.inj (h.symm.trans hr)
  exact hr'

theorem step_sound {g : Flight α} (hf : f.Grounded) (hpass : f.PassSound) (hstep : f.Step g) :
    g.Grounded ∧ g.PassSound := by
  cases hstep with
  | start role pid hrole h =>
    obtain ⟨hg, hkept⟩ := hf.start h hrole pid
    exact ⟨hg, hkept.passSound hpass⟩
  | alone role h hstep =>
    obtain ⟨hg, hkept⟩ := hf.alone h hstep
    exact ⟨hg, hkept.passSound hpass⟩
  | publish role h hstage =>
    obtain ⟨hg, hkept⟩ := hf.publish h hstage
    exact ⟨hg, hkept.passSound hpass⟩
  | withdraw role h hstage =>
    obtain ⟨hg, hkept⟩ := hf.withdraw h hstage
    exact ⟨hg, hkept.passSound hpass⟩
  | begin => exact ⟨⟨hf.posts, hf.entries⟩, begin_passSound hf⟩
  | @ping m rest probed skipped p l hstage hwaiting h hping =>
    have hp := hf.posts _ p h
    obtain ⟨hline, hawaiting, hroom⟩ := hp.line.ping hping
    have hg := hf.line h hline (hp.room.imp_left hroom)
    refine ⟨⟨hg.posts, hg.entries⟩, ?_⟩
    refine passSound_of_probing hstage (fun e he => ?_) fun _ => ⟨_, put_self f _ _, hawaiting⟩
    exact known_line h l ((probing_sound hpass hstage h).1 e he)
  | @refused m rest probed skipped p l e hstage hwaiting h hping now =>
    have hp := hf.posts _ p h
    obtain ⟨hline, hroom⟩ := hp.line.ping_error hping
    -- A ping cannot be written only where the end of the responder has gone.
    have hsilent : p.part.answering = false := hp.room.resolve_left (by rw [hroom]; nofun)
    have hg := hf.line h hline (Or.inr hsilent)
    refine ⟨⟨hg.posts, hg.entries⟩, conclude_passSound _ _ _ (fun e he => ?_) fun _ => ?_⟩
    · exact known_line h l ((probing_sound hpass hstage h).1 e he)
    · exact ⟨_, put_self f _ _, hp.ended_of_silent hsilent⟩
  | unreachable hstage h now =>
    -- Whom a pass asks has started, so that there is a line to it.
    rw [PassSound, hstage] at hpass
    obtain ⟨p, hp, -⟩ := hpass.1 _ List.mem_cons_self
    rw [h] at hp
    cases hp
  | @ignore m rest probed skipped elapsed p a later hstage hwaiting h hanswers hverdict =>
    have hp := hf.posts _ p h
    have hg := hf.line h (hp.line.hear hanswers) hp.room
    have hkept : f.Kept (f.put m.role { p with line := p.line.hear }) :=
      kept_put h { p with line := p.line.hear } rfl id (fun hw => hw.hear hanswers hverdict) f.listing
    exact ⟨hg, hkept.passSound hpass⟩
  | @hear m rest probed skipped elapsed p a later outcome hstage hwaiting h hanswers hverdict now =>
    have hp := hf.posts _ p h
    have hg := hf.line h (hp.line.hear hanswers) hp.room
    refine ⟨⟨hg.posts, hg.entries⟩, conclude_passSound _ _ _ (fun e he => ?_) fun hdead => ?_⟩
    · exact known_line h _ ((probing_sound hpass hstage h).1 e he)
    · rw [Line.acknowledged_of_verdict hverdict] at hdead
      cases hdead
  | lose hstage hwaiting h hgone hanswers hverdict now =>
    have hp := hf.posts _ _ h
    have hended := hp.ended_of_silent (hp.silent_of_gone hgone)
    exact ⟨⟨hf.posts, hf.entries⟩,
      conclude_passSound _ _ _ (probing_sound hpass hstage h).1 fun _ => ⟨_, h, hended⟩⟩
  | timeOut hstage hwaiting h hlate now =>
    have hp := hf.posts _ _ h
    obtain ⟨hknown, hawaiting⟩ := probing_sound hpass hstage h
    refine ⟨⟨hf.posts, hf.entries⟩, conclude_passSound _ _ _ hknown fun _ => ⟨_, h, ?_⟩⟩
    rcases hlate with hgone | ⟨hpings, hanswers⟩
    · exact hp.ended_of_silent (hp.silent_of_gone hgone)
    · -- A ping was written, so that something is on its way.
      rcases hawaiting hwaiting with hmem | hmem
      · rw [hpings] at hmem
        cases hmem
      · rw [hanswers] at hmem
        cases hmem
  | recheck hstage => exact ⟨⟨hf.posts, hf.entries⟩, recheck_passSound hf hpass hstage⟩
  | again => exact ⟨⟨hf.posts, hf.entries⟩, trivial⟩

theorem Reachable.sound {config : Detector.Config} {own : Pid} {supervisors : List Pid}
    (h : Reachable config own supervisors f) : f.Grounded ∧ f.PassSound := by
  induction h with
  | initial => exact ⟨initial_grounded config own supervisors, trivial⟩
  | step h hstep ih => exact step_sound ih.1 ih.2 hstep

/-- Whatever the order of steps, no pass reports a failure while every part leaves in the way that parts do. -/
theorem no_failure_of_clean_exits {config : Detector.Config} {own : Pid} {supervisors : List Pid}
    (h : Reachable config own supervisors f) (failed : Detector.Failed) : f.pass ≠ .finished (.failed failed) := by
  intro hpass
  have hsound := h.sound.2
  rw [PassSound, hpass] at hsound
  exact hsound

end

/-- A part that leaves between the look at the registry and the ping is passed over. -/
theorem pass_without_a_part_that_left :
    ∃ f : Flight Unit, Reachable .standard ⟨7⟩ [⟨7⟩] f ∧ f.pass = .finished (.healthy 0 1) ∧
      ∀ failed, f.pass ≠ .finished (.failed failed) := by
  have h : Reachable .standard ⟨7⟩ [⟨7⟩] (initial .standard ⟨7⟩ [⟨7⟩] : Flight Unit) := .initial
  have h := h.step (.start .physics ⟨8⟩ (by decide) rfl)
  have h := h.step (.alone .physics rfl .look)
  have h := h.step (.publish .physics rfl rfl)
  have h := h.step (.begin rfl)
  have h := h.step (.alone .physics rfl (.finish (.ok ())))
  have h := h.step (.withdraw .physics rfl rfl)
  have h := h.step (.alone .physics rfl .hush)
  have h := h.step (.ping rfl rfl rfl rfl)
  have h := h.step (.timeOut rfl rfl rfl (Or.inl (Or.inl rfl)) 0)
  have h := h.step (.recheck rfl)
  exact ⟨_, h, rfl, no_failure_of_clean_exits h⟩

end Flight
end GridFlight
