import GridFlight.Detector
import GridFlight.Membership
import GridFlight.Proofs.Flight.Line
import GridFlight.Registry.Listing

/-! Parts and a detector that share a registry. Every part has a control channel to the detector. The parts and the
    detector take their steps in any order, and operations on the registry are single steps that succeed. -/

namespace GridFlight

open Registry (Entry Listing)
open Heartbeat (Line Outcome verdict)

/-- A part with its control channel. -/
structure Post (α : Type) where
  part : Participant α
  line : Line

/-- A registry, the parts that have started, and a detector in the middle of a pass. -/
structure Flight (α : Type) where
  listing : Listing
  posts : Role → Option (Post α)
  detector : Detector
  pass : Detector.Pass
  /-- Whether the detector has written a ping and waits for the answer. -/
  waiting : Bool

variable {α : Type}

namespace Post

/-- A part that answers pings before it does anything else. -/
def start (role : Role) (pid : Pid) : Post α := ⟨.start role pid true, .new⟩

/-- The responder has been told to end, or has stopped by itself. -/
def Gone (p : Post α) : Prop := p.part.answering = false ∨ p.line.responder.stopped = true

/-- What a part does without changing the registry. -/
inductive Step (listing : Listing) (p : Post α) : Post α → Prop where
  | look : Step listing p { p with part := p.part.look (.ok (Registry.find? .supervisor listing)) }
  | finish (result : Except Fault α) : Step listing p { p with part := p.part.finish result }
  | hush : Step listing p { p with part := p.part.hush }
  | respond {f : Frame} {rest : List Frame} (h : p.line.pings = f :: rest) :
    Step listing p { p with line := p.line.respond f }
  | hangUp (h : p.Gone) : Step listing p { p with line := p.line.hangUp }

end Post

namespace Flight

/-- A registry of nothing but supervisors, before any part has started. -/
def initial (config : Detector.Config) (own : Pid) (supervisors : List Pid) : Flight α :=
  ⟨supervisors.map (Entry.mk .supervisor), fun _ => none, .new config own, .reading, false⟩

def put (f : Flight α) (role : Role) (p : Post α) : Flight α :=
  { f with posts := fun r => if r = role then some p else f.posts r }

/-- The detector takes in the outcome of a probe. -/
def conclude (f : Flight α) (m : Entry) (rest : List Entry) (probed skipped : Nat) (outcome : Outcome) (now : Nat) :
    Flight α :=
  let (pass, detector) := f.detector.probed m rest probed skipped outcome now
  { f with pass := pass, detector := detector, waiting := false }

inductive Step (f : Flight α) : Flight α → Prop where
  | start (role : Role) (pid : Pid) (hrole : role ≠ .supervisor) (h : f.posts role = none) :
    Step f (f.put role (.start role pid))
  | alone (role : Role) {p q : Post α} (h : f.posts role = some p) (hstep : p.Step f.listing q) :
    Step f (f.put role q)
  | publish (role : Role) {p : Post α} {supervisor : Pid} (h : f.posts role = some p)
    (hstage : p.part.stage = .joining (.publishing supervisor)) :
    Step f { f.put role { p with part := p.part.published (.ok ()) } with listing := f.listing.publish p.part.entry }
  | withdraw (role : Role) {p : Post α} {result : Except Fault α} (h : f.posts role = some p)
    (hstage : p.part.stage = .withdrawing result) :
    Step f { f.put role { p with part := p.part.withdrew } with listing := (f.listing.withdraw p.part.entry).2 }
  | begin (hpass : f.pass = .reading) :
    Step f { f with
      pass := (f.detector.begin (.ok f.listing)).1
      detector := (f.detector.begin (.ok f.listing)).2
      waiting := false }
  | ping {m : Entry} {rest : List Entry} {probed skipped : Nat} {p : Post α} {l : Line}
    (hpass : f.pass = .probing m rest probed skipped) (hwaiting : f.waiting = false)
    (h : f.posts m.role = some p) (hping : p.line.ping = (.ok (), l)) :
    Step f { f.put m.role { p with line := l } with waiting := true }
  | refused {m : Entry} {rest : List Entry} {probed skipped : Nat} {p : Post α} {l : Line} {e : FrameError}
    (hpass : f.pass = .probing m rest probed skipped) (hwaiting : f.waiting = false)
    (h : f.posts m.role = some p) (hping : p.line.ping = (.error e, l)) (now : Nat) :
    Step f ((f.put m.role { p with line := l }).conclude m rest probed skipped .disconnected now)
  | unreachable {m : Entry} {rest : List Entry} {probed skipped : Nat}
    (hpass : f.pass = .probing m rest probed skipped) (h : f.posts m.role = none) (now : Nat) :
    Step f (f.conclude m rest probed skipped .unreachable now)
  | ignore {m : Entry} {rest : List Entry} {probed skipped elapsed : Nat} {p : Post α} {a : Frame}
    {later : List Frame} (hpass : f.pass = .probing m rest probed skipped) (hwaiting : f.waiting = true)
    (h : f.posts m.role = some p) (hanswers : p.line.answers = a :: later)
    (hverdict : verdict p.line.link.seq elapsed (.item (.ok a)) = none) :
    Step f (f.put m.role { p with line := p.line.hear })
  | hear {m : Entry} {rest : List Entry} {probed skipped elapsed : Nat} {p : Post α} {a : Frame}
    {later : List Frame} {outcome : Outcome}
    (hpass : f.pass = .probing m rest probed skipped) (hwaiting : f.waiting = true)
    (h : f.posts m.role = some p) (hanswers : p.line.answers = a :: later)
    (hverdict : verdict p.line.link.seq elapsed (.item (.ok a)) = some outcome) (now : Nat) :
    Step f ((f.put m.role { p with line := p.line.hear }).conclude m rest probed skipped outcome now)
  | lose {m : Entry} {rest : List Entry} {probed skipped elapsed : Nat} {p : Post α} {outcome : Outcome}
    (hpass : f.pass = .probing m rest probed skipped) (hwaiting : f.waiting = true)
    (h : f.posts m.role = some p) (hgone : p.Gone) (hanswers : p.line.answers = [])
    (hverdict : verdict p.line.link.seq elapsed .ended = some outcome) (now : Nat) :
    Step f (f.conclude m rest probed skipped outcome now)
  /-- Time runs out only when no ping and no answer is on its way, or the responder has gone. -/
  | timeOut {m : Entry} {rest : List Entry} {probed skipped : Nat} {p : Post α}
    (hpass : f.pass = .probing m rest probed skipped) (hwaiting : f.waiting = true)
    (h : f.posts m.role = some p)
    (hlate : p.Gone ∨ p.line.pings = [] ∧ p.line.answers = []) (now : Nat) :
    Step f (f.conclude m rest probed skipped .timedOut now)
  | recheck {m : Entry} {outcome : Outcome} {rest : List Entry} {probed skipped : Nat}
    (hpass : f.pass = .rechecking m outcome rest probed skipped) :
    Step f { f with
      pass := (f.detector.rechecked m outcome rest probed skipped (.ok f.listing)).1
      detector := (f.detector.rechecked m outcome rest probed skipped (.ok f.listing)).2
      waiting := false }
  | again {report : Detector.Report} (hpass : f.pass = .finished report) : Step f { f with pass := .reading }

inductive Reachable (config : Detector.Config) (own : Pid) (supervisors : List Pid) : Flight α → Prop where
  | initial : Reachable config own supervisors (initial config own supervisors)
  | step {f g : Flight α} (h : Reachable config own supervisors f) (hstep : f.Step g) :
    Reachable config own supervisors g

end Flight
end GridFlight
