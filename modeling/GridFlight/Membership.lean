import GridFlight.Registry.Entry

/-! Joining and leaving the registry. A part looks for the supervisor again and again, and publishes itself only
    after it has found it. A registry that cannot be read is looked at again later. -/

namespace GridFlight

open Registry (Entry)

inductive Joining where
  | looking
  | publishing (supervisor : Pid)
  | joined (supervisor : Pid)
  | refused (error : SystemError)
  deriving DecidableEq, Repr

namespace Joining

def look (j : Joining) (answer : Except SystemError (Option Pid)) : Joining :=
  match j, answer with
  | .looking, .ok (some supervisor) => .publishing supervisor
  | j, _ => j

def published (j : Joining) (answer : Except SystemError Unit) : Joining :=
  match j, answer with
  | .publishing supervisor, .ok () => .joined supervisor
  | .publishing _, .error e => .refused e
  | j, _ => j

end Joining

/-! ### Discovery -/

/-- What a part needs to find another: looks at the registry, pauses and a clock. -/
structure Lookout (σ : Type) where
  lookup : Role → σ → Except SystemError (Option Pid) × σ
  pause : Nat → σ → σ
  now : σ → Nat

/-- Looks until the role has an identity, with a pause between two looks, before `limit`. -/
def discover {σ : Type} (env : Lookout σ) (role : Role) (backoff limit : Nat) : Nat → σ → Option Pid × σ
  | 0, s => (none, s)
  | fuel + 1, s =>
    if limit ≤ env.now s then (none, s)
    else match env.lookup role s with
      | (.ok (some pid), s) => (some pid, s)
      | (_, s) => discover env role backoff limit fuel (env.pause backoff s)

/-! ### The life of a part -/

inductive LifeStage (α : Type) where
  | joining (joining : Joining)
  | working
  | withdrawing (result : Except Fault α)
  /-- The entry is gone; pings are still answered. -/
  | closing (result : Except Fault α)
  | ended (result : Except Failure α)

/-- A part between its start and its end. It answers pings from before it joins until after it has withdrawn. -/
structure Participant (α : Type) where
  role : Role
  pid : Pid
  answering : Bool
  stage : LifeStage α

namespace Participant

variable {α : Type}

def entry (p : Participant α) : Entry := ⟨p.role, p.pid⟩

def start (role : Role) (pid : Pid) (heartbeat : Bool) : Participant α := ⟨role, pid, heartbeat, .joining .looking⟩

def look (p : Participant α) (answer : Except SystemError (Option Pid)) : Participant α :=
  match p.stage with
  | .joining j => { p with stage := .joining (j.look answer) }
  | _ => p

/-- Takes in the outcome of publishing. A part that may not join never begins its work. -/
def published (p : Participant α) (answer : Except SystemError Unit) : Participant α :=
  match p.stage with
  | .joining j =>
    match j.published answer with
    | .joined _ => { p with stage := .working }
    | .refused e =>
      { p with answering := false, stage := .ended (.error (.during (.joining p.role) (.fault (.system e)))) }
    | j => { p with stage := .joining j }
  | _ => p

def finish (p : Participant α) (result : Except Fault α) : Participant α :=
  match p.stage with
  | .working => { p with stage := .withdrawing result }
  | _ => p

/-- Goes on after the withdrawal, whether or not it succeeded. -/
def withdrew (p : Participant α) : Participant α :=
  match p.stage with
  | .withdrawing result => { p with stage := .closing result }
  | _ => p

/-- Stops answering pings, which is the last thing that a part does. -/
def hush (p : Participant α) : Participant α :=
  match p.stage with
  | .closing result =>
    { p with answering := false, stage := .ended (result.mapError fun f => .during (.running p.role) (.fault f)) }
  | _ => p

/-- A whole life: the part looks for the supervisor, publishes itself, works and withdraws. It stays where it is while
    it finds no supervisor. -/
def live {σ : Type} (look : σ → Option Pid × σ) (publish : Entry → σ → Except SystemError Unit × σ)
    (withdraw : Entry → σ → Except SystemError Bool × σ) (work : σ → Except Fault α × σ) (p : Participant α) (s : σ) :
    Participant α × σ :=
  let (found, s) := look s
  let p := p.look (.ok found)
  match p.stage with
  | .joining (.publishing _) =>
    let (answer, s) := publish p.entry s
    let p := p.published answer
    match p.stage with
    | .working =>
      let (result, s) := work s
      let (_, s) := withdraw p.entry s
      ((p.finish result).withdrew.hush, s)
    | _ => (p, s)
  | _ => (p, s)

def result? (p : Participant α) : Option (Except Failure α) :=
  match p.stage with
  | .ended result => some result
  | _ => none

end Participant
end GridFlight
