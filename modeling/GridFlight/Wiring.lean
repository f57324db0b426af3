import GridFlight.Handle

/-! The pipes of a session and the command lines of its parts. The coordinator has a pipe to and from each of its
    dependents, the supervisor one to and from each monitored part, and one pipe leads from the coordinator to the
    supervisor. Each part is told on its command line which ends it has. -/

namespace GridFlight

structure Pipe where
  read : Handle
  write : Handle
  deriving DecidableEq, Repr

structure Duplex where
  toPart : Pipe
  fromPart : Pipe
  deriving DecidableEq, Repr

/-- The pipes in the order in which they are made. -/
structure Wiring where
  pipe : Nat → Pipe

namespace Wiring

def dependents : List Role := [.physics, .obstacles, .targets]

def monitored : List Role := [.coordinator, .physics, .obstacles, .targets]

/-- The wiring whose pipe ends have these handles, read ends before write ends. -/
def ofHandles (handle : Nat → Handle) : Wiring := ⟨fun k => ⟨handle (2 * k), handle (2 * k + 1)⟩⟩

/-- The pipes of roles in turn, from pipe number `first` on. -/
def duplexes (w : Wiring) (first : Nat) (roles : List Role) : List (Role × Duplex) :=
  roles.zipIdx.map fun (role, i) => (role, ⟨w.pipe (first + 2 * i), w.pipe (first + 2 * i + 1)⟩)

def data (w : Wiring) : List (Role × Duplex) := w.duplexes 0 dependents

def control (w : Wiring) : List (Role × Duplex) := w.duplexes 6 monitored

def exit (w : Wiring) : Pipe := w.pipe 14

end Wiring

/-! ### Command lines -/

namespace Session

structure Options where
  registry : String
  logDirectory : String
  seed : UInt64
  verbose : Bool
  headless : Bool
  probeMillis : Option Nat

structure Plan where
  role : Role
  args : List String
  handles : List Handle
  deriving DecidableEq, Repr

def Options.args (o : Options) : List String :=
  ["--registry", o.registry, "--log-dir", o.logDirectory, "--seed", o.seed.toNat.repr]
    ++ (if o.verbose then ["--verbose"] else []) ++ (if o.headless then ["--log-stderr"] else [])

def heartbeat (w : Wiring) (role : Role) : Option (Handle × Handle) :=
  (w.control.find? fun entry => entry.1 = role).map fun entry => (entry.2.toPart.read, entry.2.fromPart.write)

def heartbeatArgs (w : Wiring) (role : Role) : List String :=
  match heartbeat w role with
  | some (rx, tx) => ["--heartbeat-rx", rx.text, "--heartbeat-tx", tx.text]
  | none => []

def heartbeatHandles (w : Wiring) (role : Role) : List Handle :=
  match heartbeat w role with
  | some (rx, tx) => [rx, tx]
  | none => []

/-- The link of the part in the middle, which reads what the other part writes. -/
def link (role : Role) (d : Duplex) : Link := ⟨role, some d.fromPart.read, some d.toPart.write⟩

def linkArgs (option : String) (links : List (Role × Duplex)) : List String :=
  links.flatMap fun (role, d) => [option, (link role d).text]

def linkHandles (links : List (Role × Duplex)) : List Handle := links.flatMap fun (role, d) => (link role d).handles

def supervisorPlan (w : Wiring) (o : Options) : Plan :=
  let probe := match o.probeMillis with
    | some n => ["--probe-timeout-ms", n.repr]
    | none => []
  ⟨.supervisor,
    ["supervisor"] ++ o.args ++ ["--exit-rx", w.exit.read.text] ++ probe ++ linkArgs "--control" w.control,
    w.exit.read :: linkHandles w.control⟩

def coordinatorPlan (w : Wiring) (o : Options) : Plan :=
  ⟨.coordinator,
    ["coordinator"] ++ o.args ++ (if o.headless then ["--headless"] else [])
      ++ ["--supervisor-tx", w.exit.write.text] ++ linkArgs "--link" w.data ++ heartbeatArgs w .coordinator,
    w.exit.write :: linkHandles w.data ++ heartbeatHandles w .coordinator⟩

def dependentPlan (w : Wiring) (o : Options) (role : Role) (d : Duplex) : Plan :=
  ⟨role,
    [role.name] ++ o.args ++ ["--rx", d.toPart.read.text, "--tx", d.fromPart.write.text] ++ heartbeatArgs w role,
    [d.toPart.read, d.fromPart.write] ++ heartbeatHandles w role⟩

/-- The plans of all parts, the supervisor first. -/
def plans (w : Wiring) (o : Options) : List Plan :=
  supervisorPlan w o :: coordinatorPlan w o :: w.data.map fun (role, d) => dependentPlan w o role d

end Session
end GridFlight
