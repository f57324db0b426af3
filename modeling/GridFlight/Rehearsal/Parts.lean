import GridFlight.Heartbeat.Responder
import GridFlight.Endpoints
import GridFlight.Rehearsal.Clock

/-! Rehearsals of whole parts: a part that joins, works and leaves, and a supervisor with its exit channel. -/

namespace GridFlight
namespace Rehearsal

open Registry (Entry Listing)

/-- No handle is open but those that the rehearsal hands out itself. -/
def noEndpoints : Endpoints := fun _ => .closed

/-! ### A part -/

/-- What became of a part: its result, whether its work began, and the registry afterwards. -/
structure Career where
  result : Option (Except Failure (List Entry))
  started : Bool
  after : Listing

/-- A part that notes the registry while it works, and then fails with a text or gives what it has noted. -/
def participate (e : Entry) (unopened : Option Handle) (failing : Option String) (stage : Stage) : Career :=
  match noEndpoints.heartbeat (unopened.map fun h => ⟨h, h⟩) with
  | .error failure => ⟨some (.error failure), false, stage.listing⟩
  | .ok _ =>
    let work := fun (s : Stage × Bool) =>
      let noted := match failing with
        | some text => .error (.screen text)
        | none => .ok s.1.listing
      (noted, s.1, true)
    let (part, stage, started) := (Participant.start e.role e.pid true).live
      (fun (s, started) => let (found, s) := find .supervisor 1 s; (found, s, started))
      (fun e (s, started) => let (answer, s) := s.publish e; (answer, s, started))
      (fun e (s, started) => let (answer, s) := s.withdraw e; (answer, s, started))
      work (stage, false)
    ⟨part.result?, started, stage.listing⟩

/-! ### A supervisor -/

def ownPid : Pid := ⟨4000000⟩

structure Supervision where
  result : Option (Except Failure Detector.Ending)
  kills : Nat
  listed : Bool

/-- A supervisor with these control links that cannot be taken over, or whose exit channel cannot. Otherwise its lines
    are those of the stage and its exit channel holds these bytes and stays open. -/
def supervise (config : Detector.Config) (controls : List Link) (exit : Option Handle) (bytes : List UInt8)
    (stage : Stage) : Supervision :=
  let told := ((Frame.decodeAll bytes).frames.map Except.ok).foldl Heartbeat.Watch.take .reading == .told
  let stage := if told then { stage with cancelled := true } else stage
  let listed := fun (l : Listing) => (Registry.find? .supervisor l).isSome
  match noEndpoints.supervisor controls exit with
  | .error failure => ⟨some (.error failure), 0, listed stage.listing⟩
  | .ok _ =>
    let (d, stage) := detect (.new config ownPid) stage
    let result := d.result?.map fun r => r.mapError fun f => .during .detecting (.fault f)
    ⟨result, stage.kills.length, listed stage.listing⟩

end Rehearsal
end GridFlight
