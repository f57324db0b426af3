import GridFlight.Heartbeat.ControlLink
import GridFlight.Registry.Entry

/-! The failure detector of the supervisor. It publishes itself and then makes one pass after another over the
    registered parts, probing each in turn. The first part that does not answer and is still registered ends the
    flight: every member of the group is killed. A part that has withdrawn in the meantime is passed over. Each step
    asks the surroundings one question. -/

namespace GridFlight

open Registry (Entry)

namespace Detector

structure Config where
  probeMillis : Nat
  /-- Waits of single roles that differ from the common one. -/
  roleMillis : List (Role × Nat)
  cycleMillis : Nat
  idleMillis : Nat
  warmupMillis : Nat
  deriving DecidableEq, Repr

namespace Config

def standard : Config := ⟨200, [], 2000, 1000, 1000⟩

def timeoutFor (c : Config) (role : Role) : Nat :=
  ((c.roleMillis.find? fun entry => entry.1 = role).map Prod.snd).getD c.probeMillis

end Config

structure Record where
  role : Role
  pid : Pid
  timeout : Nat
  lastHeartbeat : Nat
  deriving DecidableEq, Repr

/-- A part that did not answer although it is registered. -/
structure Failed where
  member : Entry
  outcome : Heartbeat.Outcome
  deriving DecidableEq, Repr

inductive Report where
  | idle
  | healthy (probed skipped : Nat)
  | failed (failed : Failed)
  deriving DecidableEq, Repr

inductive Ending where
  | shutdown (cycles : Nat)
  | killed (failed : Failed) (cycles : Nat)
  deriving DecidableEq, Repr

inductive Pass where
  | reading
  | probing (member : Entry) (rest : List Entry) (probed skipped : Nat)
  | rechecking (member : Entry) (outcome : Heartbeat.Outcome) (rest : List Entry) (probed skipped : Nat)
  | finished (report : Report)
  deriving DecidableEq, Repr

inductive Stage where
  | publishing
  | pausing (millis : Nat)
  | passing (pass : Pass)
  | gathering (failed : Failed)
  | killing (failed : Failed) (members : List Entry)
  | leaving
  | ended (result : Except Fault Ending)

end Detector

structure Detector where
  config : Detector.Config
  pid : Pid
  records : Role → Option Detector.Record
  cycles : Nat
  stage : Detector.Stage

namespace Detector

def new (config : Config) (pid : Pid) : Detector := ⟨config, pid, fun _ => none, 0, .publishing⟩

def self (d : Detector) : Entry := ⟨.supervisor, d.pid⟩

def recordList (d : Detector) : List Record := Role.all.filterMap d.records

/-! ### Members -/

/-- Adds an entry to the members unless it is a supervisor, the detector itself, or of a role that has one. -/
def enroll (self : Pid) (members : List Entry) (e : Entry) : List Entry :=
  if e.role = .supervisor ∨ e.pid = self ∨ members.any (·.role = e.role) then members else members ++ [e]

/-- The entries that a pass probes, in the order of the registry. -/
def membersOf (self : Pid) (entries : List Entry) : List Entry := entries.foldl (enroll self) []

/-! ### A pass -/

def Pass.next (rest : List Entry) (probed skipped : Nat) : Pass :=
  match rest with
  | [] => .finished (.healthy probed skipped)
  | member :: rest => .probing member rest probed skipped

/-- Begins a pass with what the registry holds. An unreadable registry counts as empty. -/
def begin (d : Detector) (answer : Except SystemError (List Entry)) : Pass × Detector :=
  let d := { d with cycles := d.cycles + 1 }
  match membersOf d.pid (answer.toOption.getD []) with
  | [] => (.finished .idle, { d with records := fun _ => none })
  | member :: rest =>
    let stays := fun (role : Role) (r : Record) => (member :: rest).any fun m => m.role = role ∧ m.pid = r.pid
    let kept := fun role => (d.records role).filter (stays role)
    (.probing member rest 0 0, { d with records := kept })

/-- Notes an acknowledgment. A record that is there keeps its identity and its timeout. -/
def note (member : Entry) (now : Nat) (d : Detector) : Detector :=
  let record := match d.records member.role with
    | some r => { r with lastHeartbeat := now }
    | none => ⟨member.role, member.pid, d.config.timeoutFor member.role, now⟩
  { d with records := fun role => if role = member.role then some record else d.records role }

def forget (role : Role) (d : Detector) : Detector :=
  { d with records := fun r => if r = role then none else d.records r }

def probed (d : Detector) (member : Entry) (rest : List Entry) (probed skipped : Nat) (outcome : Heartbeat.Outcome)
    (now : Nat) : Pass × Detector :=
  match outcome with
  | .acknowledged _ => (.next rest (probed + 1) skipped, d.note member now)
  | outcome => (.rechecking member outcome rest probed skipped, d)

/-- Whether a member is still registered. What cannot be read now is taken to be as it was. -/
def stillRegistered (member : Entry) : Except SystemError (List Entry) → Bool
  | .ok entries => entries.contains member
  | .error _ => true

def rechecked (d : Detector) (member : Entry) (outcome : Heartbeat.Outcome) (rest : List Entry)
    (probed skipped : Nat) (answer : Except SystemError (List Entry)) : Pass × Detector :=
  if stillRegistered member answer then (.finished (.failed ⟨member, outcome⟩), d)
  else (.next rest probed (skipped + 1), d.forget member.role)

/-! ### The surroundings -/

/-- What a detector works with: a registry, probes, a clock with the wish to stop, and the power to kill. -/
structure Surroundings (σ : Type) where
  publish : Entry → σ → Except SystemError Unit × σ
  withdraw : Entry → σ → Except SystemError Bool × σ
  refresh : σ → Except SystemError (List Entry) × σ
  probe : Role → Nat → σ → Heartbeat.Outcome × σ
  /-- Lets milliseconds pass. The flag says whether the wish to stop came first. -/
  pause : Nat → σ → Bool × σ
  kill : List Entry → σ → Except SystemError Unit × σ
  now : σ → Nat

/-- One question of a pass, and its answer. -/
def passStep {σ : Type} (env : Surroundings σ) (d : Detector) (s : σ) : Pass → Pass × Detector × σ
  | .reading =>
    let (answer, s) := env.refresh s
    let (pass, d) := d.begin answer
    (pass, d, s)
  | .probing member rest count skipped =>
    let (outcome, s) := env.probe member.role (d.config.timeoutFor member.role) s
    let (pass, d) := d.probed member rest count skipped outcome (env.now s)
    (pass, d, s)
  | .rechecking member outcome rest count skipped =>
    let (answer, s) := env.refresh s
    let (pass, d) := d.rechecked member outcome rest count skipped answer
    (pass, d, s)
  | .finished report => (.finished report, d, s)

/-- Runs a pass to its report. Every member takes at most two steps. -/
def passFrom {σ : Type} (env : Surroundings σ) : Nat → Detector → σ → Pass → Report × Detector × σ
  | _, d, s, .finished report => (report, d, s)
  | 0, d, s, _ => (.idle, d, s)
  | fuel + 1, d, s, pass =>
    let (pass, d, s) := passStep env d s pass
    passFrom env fuel d s pass

/-- One pass without pauses and without a kill. There is one member of a role at most. -/
def cycle {σ : Type} (env : Surroundings σ) (d : Detector) (s : σ) : Report × Detector × σ :=
  passFrom env (2 * Role.all.length + 2) d s .reading

/-! ### A run -/

def afterReport (c : Config) : Report → Stage
  | .idle => .pausing c.idleMillis
  | .healthy _ _ => .pausing c.cycleMillis
  | .failed failed => .gathering failed

/-- One question of a run, and its answer. -/
def step {σ : Type} (env : Surroundings σ) (d : Detector) (s : σ) : Detector × σ :=
  match d.stage with
  | .publishing =>
    match env.publish d.self s with
    | (.ok (), s) => ({ d with stage := .pausing d.config.warmupMillis }, s)
    | (.error e, s) => ({ d with stage := .ended (.error (.system e)) }, s)
  | .pausing millis =>
    match env.pause millis s with
    | (true, s) => ({ d with stage := .leaving }, s)
    | (false, s) => ({ d with stage := .passing .reading }, s)
  | .passing pass =>
    match passStep env d s pass with
    | (.finished report, d, s) => ({ d with stage := afterReport d.config report }, s)
    | (pass, d, s) => ({ d with stage := .passing pass }, s)
  | .gathering failed =>
    let (answer, s) := env.refresh s
    ({ d with stage := .killing failed (answer.toOption.getD []) }, s)
  | .killing failed members =>
    match env.kill members s with
    | (.ok (), s) => ({ d with stage := .ended (.ok (.killed failed d.cycles)) }, s)
    | (.error e, s) => ({ d with stage := .ended (.error (.system e)) }, s)
  | .leaving =>
    let (_, s) := env.withdraw d.self s
    ({ d with stage := .ended (.ok (.shutdown d.cycles)) }, s)
  | .ended _ => (d, s)

def result? (d : Detector) : Option (Except Fault Ending) :=
  match d.stage with
  | .ended result => some result
  | _ => none

def runUntil {σ : Type} (env : Surroundings σ) (limit : Nat) : Nat → Detector → σ → Detector × σ
  | 0, d, s => (d, s)
  | fuel + 1, d, s =>
    if d.result?.isSome || limit ≤ env.now s then (d, s)
    else
      let (d, s) := step env d s
      runUntil env limit fuel d s

end Detector
end GridFlight
