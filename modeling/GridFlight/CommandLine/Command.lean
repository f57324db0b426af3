import GridFlight.CommandLine.Grammar
import GridFlight.Handle

/-! The commands: one that runs a whole session, one for each part, and one that lists the registry. Some options
    belong to every command and may stand before or behind its name. -/

namespace GridFlight
namespace CommandLine

structure Shared where
  registry : String
  logDirectory : String
  logToErrors : Bool
  seed : UInt64
  verbose : Bool
  deriving DecidableEq, Repr

structure SupervisorArgs where
  exit : Option Handle
  controls : List Link
  probeMillis : Nat
  cycleMillis : Nat
  deriving DecidableEq, Repr

structure CoordinatorArgs where
  links : List Link
  supervisor : Option Handle
  heartbeatRx : Option Handle
  heartbeatTx : Option Handle
  headless : Bool
  width : Int32
  height : Int32
  obstaclePeriod : Nat
  deriving DecidableEq, Repr

structure DependentArgs where
  rx : Handle
  tx : Handle
  heartbeatRx : Option Handle
  heartbeatTx : Option Handle
  deriving DecidableEq, Repr

inductive Command where
  | run (headless : Bool) (probeMillis : Option Nat)
  | supervisor (args : SupervisorArgs)
  | coordinator (args : CoordinatorArgs)
  | physics (args : DependentArgs)
  | obstacles (args : DependentArgs)
  | targets (args : DependentArgs)
  | registry (json : Bool)
  deriving DecidableEq, Repr

namespace Command

def component : Command → String
  | run .. => "orchestrator"
  | supervisor _ => Role.supervisor.name
  | coordinator _ => Role.coordinator.name
  | physics _ => Role.physics.name
  | obstacles _ => Role.obstacles.name
  | targets _ => Role.targets.name
  | registry _ => "registry"

def logsToFile (shared : Shared) : Command → Bool
  | registry _ | run true _ => false
  | _ => !shared.logToErrors

end Command

/-! ### Options -/

def isPath (s : String) : Bool := !s.isEmpty

def isNatural (s : String) : Bool := (Number.readUInt64? s).isSome

def isInteger (s : String) : Bool := (Number.readInt32? s).isSome

def isHandle (s : String) : Bool := (Handle.read s).toOption.isSome

def isLink (s : String) : Bool := (Link.read s).toOption.isSome

def sharedOptions : List Opt :=
  [(Opt.valued "registry" isPath "Process registry file").standing "pid_registry.txt",
    (Opt.valued "log-dir" isPath "Directory for per-component log files").standing "logs",
    .flag "log-stderr" "Log to stderr instead of a file",
    ((Opt.valued "seed" isNatural "Master seed for placement randomness (0 = random)").called 's').standing "0",
    (Opt.flag "verbose" "Verbose output").called 'v']

structure Form where
  name : String
  about : String
  options : List Opt

def heartbeatOptions (rx tx : String) : List Opt :=
  [.valued "heartbeat-rx" isHandle rx, .valued "heartbeat-tx" isHandle tx]

def dependentForm (name about : String) : Form :=
  ⟨name, about,
    [(Opt.valued "rx" isHandle "Handle to read coordinator frames from").must,
      (Opt.valued "tx" isHandle "Handle to write frames to the coordinator").must]
      ++ heartbeatOptions "Handle supervisor pings arrive on" "Handle to answer pings on"⟩

def supervisorForm : Form :=
  ⟨"supervisor", "Heartbeat failure detector",
    [.valued "exit-rx" isHandle "Handle the coordinator's EXIT arrives on",
      (Opt.valued "control" isLink "Control link per monitored role, `role:rx:tx`").many "CONTROLS",
      (Opt.valued "probe-timeout-ms" isNatural "Probe timeout in milliseconds").standing "200",
      (Opt.valued "cycle-delay-ms" isNatural "Pause between passes in milliseconds").standing "2000"]⟩

def coordinatorForm : Form :=
  ⟨"coordinator", "Central coordinator; owns the terminal",
    [(Opt.valued "link" isLink
        "Link per dependent, `role:rx:tx` (`-` for a missing direction)").many "LINKS",
      .valued "supervisor-tx" isHandle "Handle to send EXIT to the supervisor on"]
      ++ heartbeatOptions "" ""
      ++ [.flag "headless" "Draw nothing; Ctrl-C quits",
        (Opt.valued "width" isInteger "Window width when headless").standing "80",
        (Opt.valued "height" isInteger "Window height when headless").standing "24",
        (Opt.valued "obstacle-period-ms" isNatural
          "Interval between obstacle relocations in milliseconds").standing "5000"]⟩

/-- The commands, in the order in which help lists them. -/
def forms : List Form :=
  [⟨"run", "Start a full session: supervisor, coordinator and collaborators",
      [.flag "headless" "No terminal UI; log everything to stderr, Ctrl-C quits",
        .valued "probe-timeout-ms" isNatural "Supervisor probe timeout in milliseconds"]⟩,
    supervisorForm, coordinatorForm, dependentForm "physics" "Drone dynamics",
    dependentForm "obstacles" "Obstacle generator", dependentForm "targets" "Target generator",
    ⟨"registry", "Print the current registry", [.flag "json" "JSON output"]⟩]

def form? (name : String) : Option Form := forms.find? (·.name = name)

/-! ### Reading -/

inductive Refusal where
  | usage
  | help (command : Option String)
  deriving DecidableEq, Repr

section
variable (given : List Given)

def text (name standard : String) : String := (value? given name).getD standard

def natural? (name : String) : Option Nat := ((value? given name).bind Number.readUInt64?).map (·.toNat)

def integer (name : String) (standard : Int32) : Int32 :=
  ((value? given name).bind Number.readInt32?).getD standard

def handle? (name : String) : Option Handle := (value? given name).bind fun s => (Handle.read s).toOption

def links (name : String) : List Link := (values given name).filterMap fun s => (Link.read s).toOption

def shared : Shared where
  registry := text given "registry" "pid_registry.txt"
  logDirectory := text given "log-dir" "logs"
  logToErrors := isGiven given "log-stderr"
  seed := ((value? given "seed").bind Number.readUInt64?).getD 0
  verbose := isGiven given "verbose"

def dependent? : Option DependentArgs :=
  match handle? given "rx", handle? given "tx" with
  | some rx, some tx => some ⟨rx, tx, handle? given "heartbeat-rx", handle? given "heartbeat-tx"⟩
  | _, _ => none

/-- The command of a name, if the options that it cannot do without are given. -/
def command? (name : String) : Option Command :=
  match name with
  | "run" => some (.run (isGiven given "headless") (natural? given "probe-timeout-ms"))
  | "supervisor" => some (.supervisor
    { exit := handle? given "exit-rx"
      controls := links given "control"
      probeMillis := (natural? given "probe-timeout-ms").getD 200
      cycleMillis := (natural? given "cycle-delay-ms").getD 2000 })
  | "coordinator" => some (.coordinator
    { links := links given "link"
      supervisor := handle? given "supervisor-tx"
      heartbeatRx := handle? given "heartbeat-rx"
      heartbeatTx := handle? given "heartbeat-tx"
      headless := isGiven given "headless"
      width := integer given "width" 80
      height := integer given "height" 24
      obstaclePeriod := (natural? given "obstacle-period-ms").getD 5000 })
  | "physics" => (dependent? given).map .physics
  | "obstacles" => (dependent? given).map .obstacles
  | "targets" => (dependent? given).map .targets
  | "registry" => some (.registry (isGiven given "json"))
  | _ => none

end

def helpOn : List String → Refusal
  | [] => .help none
  | [name] => if name = helpName ∨ (form? name).isSome then .help (some name) else .usage
  | _ => .usage

def readCommand (before : List Given) (name : String) (args : List String) : Except Refusal (Shared × Command) :=
  match form? name with
  | none => .error (helpOn args)
  | some form =>
    let r := read (sharedOptions ++ form.options) [] args
    let given := before ++ r.given
    match r.ending, command? given name with
    | .finished, some command => .ok (shared given, command)
    | .help, _ => .error (.help (some name))
    | _, _ => .error .usage

def readArgs (args : List String) : Except Refusal (Shared × Command) :=
  let r := read sharedOptions (helpName :: forms.map Form.name) args
  match r.ending with
  | .command name args => readCommand r.given name args
  | .help => .error (.help none)
  | _ => .error .usage

end CommandLine
end GridFlight
