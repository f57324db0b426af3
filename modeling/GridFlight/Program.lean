import GridFlight.CommandLine.Help
import GridFlight.Coordinator.Run
import GridFlight.Detector
import GridFlight.Generator.Loop
import GridFlight.Heartbeat.Responder
import GridFlight.Liveness
import GridFlight.Membership
import GridFlight.Physics.Loop
import GridFlight.Endpoints
import GridFlight.Session

/-! The program: what each command does to the registry, what it writes and how it ends. A part that works over the
    standard handles takes in all of its input and writes all of its output at once. -/

namespace GridFlight
namespace Program

open CommandLine (Shared Command SupervisorArgs CoordinatorArgs DependentArgs)

structure Host where
  pid : Pid
  endpoints : Endpoints
  input : List UInt8
  presence : Pid → Liveness.Presence
  seed : UInt64
  wiring : Wiring
  start : Session.Plan → Except IoCause Session.Exit

structure Effect where
  result : Except Failure Unit
  output : List UInt8
  registry : Disk.Place

def standardInput : Handle := ⟨0⟩

def standardOutput : Handle := ⟨1⟩

def fail (failure : Failure) (registry : Disk.Place) : Effect := ⟨.error failure, [], registry⟩

def seedOf (host : Host) (shared : Shared) : UInt64 := if shared.seed = 0 then host.seed else shared.seed

def inputOf (host : Host) (h : Handle) : List UInt8 := if h = standardInput then host.input else []

/-- The part of what was written to a handle that goes to the standard output. -/
def outputOf (h : Handle) (w : Writer) : List UInt8 :=
  if h = standardOutput then w.frames.flatMap Frame.encode else []

/-! ### Parts -/

/-- The life of a part whose work is done at once and writes these bytes. It has no effect that lasts while there is
    no supervisor. -/
def live (host : Host) (role : Role) (heartbeat : Option HeartbeatHandles) (endpoints : Endpoints)
    (work : Except Fault Unit × List UInt8) (registry : Disk.Place) : Option Effect :=
  match endpoints.heartbeat heartbeat with
  | .error failure => some (fail failure registry)
  | .ok _ =>
    let (part, registry, output) := (Participant.start role host.pid heartbeat.isSome).live
      (fun (r, output) => ((Registry.File.lookup .supervisor r).toOption.join, r, output))
      (fun e (r, output) => let (answer, r) := (Registry.File.publish e).run r; (answer, r, output))
      (fun e (r, output) => let (answer, r) := (Registry.File.withdraw e).run r; (answer, r, output))
      (fun (r, _) => (work.1, r, work.2)) (registry, [])
    part.result?.map fun result => ⟨result, output, registry⟩

def dependent (host : Host) (role : Role) (args : DependentArgs) (work : Except Fault Unit × Writer)
    (registry : Disk.Place) : Option Effect :=
  match HeartbeatHandles.ofPair args.heartbeatRx args.heartbeatTx with
  | .error failure => some (fail failure registry)
  | .ok heartbeat =>
    match host.endpoints.dependent args.rx args.tx with
    | .error failure => some (fail failure registry)
    | .ok endpoints => live host role heartbeat endpoints (work.1, outputOf args.tx work.2) registry

def physicsWork (input : List UInt8) : Except Fault Unit × Writer :=
  let l := (Physics.Loop.new .standard .lasting).run .standard [(0, .bytes input), (0, .close)]
  ((l.ending.getD (.ok l.steps)).map fun _ => (), l.writer)

def obstacleStream : UInt64 := 2

def targetStream : UInt64 := 3

def generatorWork (g : Generator) (input : List UInt8) : Except Fault Unit × Writer :=
  (Generator.Loop.new g .lasting).run (Frame.readAll input)

/-! ### The coordinator -/

/-- A coordinator over these links. The last link out to a role serves it. -/
def coordinatorOf (host : Host) (shared : Shared) (args : CoordinatorArgs) : Coordinator :=
  let config : Coordinator.Config :=
    { Coordinator.Config.standard with obstaclePeriod := args.obstaclePeriod, window := ⟨args.width, args.height⟩ }
  let leadsOut := fun role => args.links.any fun l => l.role = role ∧ l.tx.isSome
  let outlets := fun role => if leadsOut role then some (Outlet.new .lasting) else none
  .new config (.ofRoles ((args.links.filter (·.rx.isSome)).map Link.role)) outlets
    (args.supervisor.map fun _ => .new .lasting) (.new fun _ _ => none) (.new fun _ => none) (seedOf host shared) 0

def arrivals (host : Host) (links : List Link) : List (Nat × Coordinator.Happening) :=
  (links.filterMap Link.rx).zipIdx.flatMap fun (h, n) =>
    if h = standardInput then [(0, .arrival n (.bytes host.input)), (0, .arrival n .close)] else []

def coordinatorOutput (args : CoordinatorArgs) (c : Coordinator) : List UInt8 :=
  let writer := fun (o : Option Outlet) => (o.map Outlet.writer).getD .lasting
  let last := fun role => (args.links.reverse.find? fun l => l.role = role ∧ l.tx.isSome).bind Link.tx
  let links := Role.all.flatMap fun role => ((last role).map fun h => outputOf h (writer (c.outlets role))).getD []
  links ++ (args.supervisor.map fun h => outputOf h (writer c.supervisor)).getD []

/-- A coordinator that draws nothing. It goes on for ever unless something that has come in makes it quit. -/
def coordinate (host : Host) (shared : Shared) (args : CoordinatorArgs) (registry : Disk.Place) : Option Effect :=
  match HeartbeatHandles.ofPair args.heartbeatRx args.heartbeatTx with
  | .error failure => some (fail failure registry)
  | .ok heartbeat =>
    match host.endpoints.coordinator args.links args.supervisor with
    | .error failure => some (fail failure registry)
    | .ok endpoints =>
      let scene : Coordinator.Scene := ⟨0, coordinatorOf host shared args, arrivals host args.links⟩
      match scene.run (some 1) (host.input.length + args.links.length + 2) with
      | (none, _) => none
      | (some result, scene) =>
        let output := coordinatorOutput args scene.coordinator
        live host .coordinator heartbeat endpoints (result.map fun _ => (), output) registry

/-! ### The supervisor -/

/-- The surroundings of a supervisor that reaches nobody, with the registry and the moment. -/
def surroundings (told : Bool) : Detector.Surroundings (Disk.Place × Nat) where
  publish e := fun (r, now) => let (answer, r) := (Registry.File.publish e).run r; (answer, r, now)
  withdraw e := fun (r, now) => let (answer, r) := (Registry.File.withdraw e).run r; (answer, r, now)
  refresh := fun (r, now) => let (answer, r) := Registry.File.refresh.run r; (answer, r, now)
  probe _ _ s := (.unreachable, s)
  pause millis := fun (r, now) => if told then (true, r, now) else (false, r, now + millis)
  kill _ s := (.ok (), s)
  now := Prod.snd

/-- A supervisor ends well only when it is told to exit. -/
def supervisorResult : Except Fault Detector.Ending → Except Failure Unit
  | .error f => .error (.during .detecting (.fault f))
  | .ok (.shutdown _) => .ok ()
  | .ok (.killed f _) => .error (.heartbeatFailed f.member.role f.member.pid.text f.outcome.text)

/-- As many steps as a supervisor is followed that nobody stops. -/
def patience : Nat := 10000

def supervise (host : Host) (args : SupervisorArgs) (registry : Disk.Place) : Option Effect :=
  match host.endpoints.supervisor args.controls args.exit with
  | .error failure => some (fail failure registry)
  | .ok _ =>
    let told := args.exit.any fun h => Heartbeat.Watch.run (Frame.readAll (inputOf host h))
    let config := { Detector.Config.standard with probeMillis := args.probeMillis, cycleMillis := args.cycleMillis }
    let (d, registry, _) :=
      Detector.runUntil (surroundings told) (1000 * patience) patience (.new config host.pid) (registry, 0)
    d.result?.map fun result => ⟨supervisorResult result, [], registry⟩

/-! ### The session -/

def session (host : Host) (shared : Shared) (headless : Bool) (probeMillis : Option Nat) (registry : Disk.Place) :
    Effect :=
  let options : Session.Options :=
    ⟨shared.registry, shared.logDirectory, seedOf host shared, shared.verbose, headless, probeMillis⟩
  let (result, registry) := Session.run host.start host.wiring options registry
  let ended := result.bind fun s =>
    if s.allSucceeded then .ok () else .error (.childrenFailed (s.parts.countP fun e => !e.success))
  ⟨ended, [], registry⟩

/-! ### The registry -/

def padded (width : Nat) (s : String) : String := s ++ String.ofList (List.replicate (width - s.length) ' ')

def entryLine (alive : Pid → Bool) (e : Registry.Entry) : String :=
  padded 12 e.role.name ++ " " ++ e.pid.text ++ "  " ++ (if alive e.pid then "alive" else "gone") ++ "\n"

def entryDocument (alive : Pid → Bool) (e : Registry.Entry) : Document :=
  .record [("alive", .truth (alive e.pid)), ("pid", .ofNat e.pid.val.toNat), ("role", .text e.role.name),
    ("tag", .text e.role.tag)]

def listing (alive : Pid → Bool) (path : String) (json : Bool) (entries : List Registry.Entry) : String :=
  if json then
    let documents := entries.map (entryDocument alive)
    (Document.record [("entries", .list documents), ("registry", .text path)]).indented 0 ++ "\n"
  else String.join (entries.map (entryLine alive))

def list (host : Host) (shared : Shared) (json : Bool) (registry : Disk.Place) : Effect :=
  let alive := fun p => Liveness.isAlive (host.presence p) p
  match Registry.File.refresh.run registry with
  | (.error e, registry) => fail (.during (.reading shared.registry) (.fault (.system e))) registry
  | (.ok entries, registry) => ⟨.ok (), Utf8.encode (listing alive shared.registry json entries), registry⟩

/-! ### All commands -/

/-- Performs a command on what is found under the path of the registry. There is no effect yet while the command waits
    for something that does not come. -/
def perform (host : Host) (shared : Shared) (command : Command) (registry : Disk.Place) : Option Effect :=
  match command with
  | .run headless probeMillis => some (session host shared headless probeMillis registry)
  | .supervisor args => supervise host args registry
  | .coordinator args => coordinate host shared args registry
  | .physics args => dependent host .physics args (physicsWork (inputOf host args.rx)) registry
  | .obstacles args =>
    let g := Generator.obstacles (.new .standard (.derive (seedOf host shared) obstacleStream))
    dependent host .obstacles args (generatorWork g (inputOf host args.rx)) registry
  | .targets args =>
    let g := Generator.targets (.new .standard (.derive (seedOf host shared) targetStream))
    dependent host .targets args (generatorWork g (inputOf host args.rx)) registry
  | .registry json => some (list host shared json registry)

def errorLine (failure : Failure) : String := "Error: " ++ failure.message

def logName (command : Command) : String := command.component ++ ".log"

def within (directory name : String) : String :=
  if directory.endsWith "/" then directory ++ name else directory ++ "/" ++ name

def failedCode : Nat := 1

def usageCode : Nat := 2

end Program
end GridFlight
