import GridFlight.Coordinator.Run
import GridFlight.Detector
import GridFlight.Heartbeat.Responder
import GridFlight.Membership
import GridFlight.Registry.Listing

/-! The process of the coordinator beside the supervisor. The coordinator joins the registry, works, withdraws and
    ends; the supervisor watches the exit channel and runs its detector. Their steps come in any order. -/

namespace GridFlight

open Registry (Entry Listing)
open Coordinator (Flow Scene Summary)

/-- How far the work of the coordinator has come. -/
inductive Coordinator.Work where
  | fresh
  | looping
  /-- The loop has ended, with a quit or a fault. -/
  | ended (how : Except Fault Flow)

/-- The frames that the coordinator has written to the supervisor. -/
def Coordinator.exitFrames (c : Coordinator) : List Frame := (c.supervisor.map fun o => o.writer.frames).getD []

/-- The coordinator and the supervisor that learns of its end. -/
structure Supervised where
  listing : Listing
  part : Participant Summary
  scene : Scene
  work : Coordinator.Work
  watch : Heartbeat.Watch
  /-- How many frames of the exit channel the watch has taken. -/
  read : Nat
  detector : Detector

namespace Supervised

/-- What the detector meets: the registry, probes with any outcome, and the wish to stop. -/
def surroundings (outcome : Role → Nat → Heartbeat.Outcome) (told : Bool) (now : Nat) :
    Detector.Surroundings Listing where
  publish e l := (.ok (), l.publish e)
  withdraw e l := (.ok (l.withdraw e).1, (l.withdraw e).2)
  refresh l := (.ok l, l)
  probe role timeout l := (outcome role timeout, l)
  pause _ l := (told, l)
  kill _ l := (.ok (), l)
  now _ := now

/-- Before anything has happened. -/
def initial (listing : Listing) (pid own : Pid) (config : Detector.Config) (scene : Scene) : Supervised where
  listing := listing
  part := .start .coordinator pid true
  scene := scene
  work := .fresh
  watch := .reading
  read := 0
  detector := .new config own

inductive Step (f : Supervised) : Supervised → Prop where
  | look : Step f { f with part := f.part.look (.ok (Registry.find? .supervisor f.listing)) }
  | publish {supervisor : Pid} (hstage : f.part.stage = .joining (.publishing supervisor)) :
    Step f { f with part := f.part.published (.ok ()), listing := f.listing.publish f.part.entry }
  | start {flow : Flow} {c : Coordinator} (hstage : f.part.stage = .working) (hwork : f.work = .fresh)
    (hstart : f.scene.coordinator.start = (.ok flow, c)) :
    Step f { f with scene := { f.scene with coordinator := c }, work := .looping }
  | startFailed {e : Fault} {c : Coordinator} (hstage : f.part.stage = .working) (hwork : f.work = .fresh)
    (hstart : f.scene.coordinator.start = (.error e, c)) :
    Step f { f with
      scene := { f.scene with coordinator := c }
      work := .ended (.error e)
      part := f.part.finish (.error e) }
  | iterate {s : Scene} (hwork : f.work = .looping) (hstep : f.scene.step none = (some (.ok .more), s)) :
    Step f { f with scene := s }
  | finish {how : Except Fault Flow} {s : Scene} (hwork : f.work = .looping)
    (hstep : f.scene.step none = (some how, s)) (hhow : how ≠ .ok .more) :
    Step f { f with scene := (s.finish how).2, work := .ended how, part := f.part.finish (s.finish how).1 }
  | withdraw {result : Except Fault Summary} (hstage : f.part.stage = .withdrawing result) :
    Step f { f with part := f.part.withdrew, listing := (f.listing.withdraw f.part.entry).2 }
  | hush : Step f { f with part := f.part.hush }
  | watch {frame : Frame} (hframe : f.scene.coordinator.exitFrames[f.read]? = some frame) :
    Step f { f with watch := f.watch.take (.ok frame), read := f.read + 1 }
  | detect (outcome : Role → Nat → Heartbeat.Outcome) (told : Bool) (now : Nat)
    (htold : told = true → f.watch = .told) :
    Step f { f with
      detector := (Detector.step (surroundings outcome told now) f.detector f.listing).1
      listing := (Detector.step (surroundings outcome told now) f.detector f.listing).2 }
  /-- Other parts publish and withdraw entries of their own. -/
  | elsewhere {listing : Listing} (hown : f.part.entry ∈ listing ↔ f.part.entry ∈ f.listing) :
    Step f { f with listing := listing }

/-- What can be reached when the exit channel is there and can be written. -/
inductive Reachable : Supervised → Prop where
  | initial {listing : Listing} {pid own : Pid} {config : Detector.Config} {scene : Scene}
    (hfresh : ⟨.coordinator, pid⟩ ∉ listing) (hwired : scene.coordinator.supervisor = some (.new .lasting)) :
    Reachable (initial listing pid own config scene)
  | step {f g : Supervised} (h : Reachable f) (hstep : f.Step g) : Reachable g

end Supervised
end GridFlight
