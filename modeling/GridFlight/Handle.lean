import GridFlight.Pid

/-! Channel handles, the numbers by which a process names the ends of the channels that it was given. -/

namespace GridFlight

structure Handle where
  val : Int32
  deriving DecidableEq, Repr

namespace Handle

def text (h : Handle) : String := Number.writeInt h.val.toInt

def read (s : String) : Except SystemError Handle :=
  match Number.readInt32? (Text.trim s) with
  | some n => if 0 ≤ n then .ok ⟨n⟩ else .error (.channel (.badHandle s))
  | none => .error (.channel (.badHandle s))

def notOpen (h : Handle) : SystemError := .channel (.notOpen h.val.toInt)

end Handle

/-! ### Links -/

structure Link where
  role : Role
  rx : Option Handle
  tx : Option Handle
  deriving DecidableEq, Repr

namespace Link

def handles (l : Link) : List Handle := l.rx.toList ++ l.tx.toList

def endText : Option Handle → String
  | some h => h.text
  | none => "-"

/-- The text `role:rx:tx`, with a dash for a missing direction. -/
def text (l : Link) : String := l.role.name ++ ":" ++ endText l.rx ++ ":" ++ endText l.tx

def readEnd (s : String) : Except SystemError (Option Handle) :=
  if s = "-" then .ok none else (Handle.read s).map some

def read (s : String) : Except SystemError Link :=
  match s.toList.splitOn ':' with
  | [role, rx, tx] => do
    let role ← Role.read (String.ofList role)
    let rx ← readEnd (String.ofList rx)
    let tx ← readEnd (String.ofList tx)
    if rx.isNone && tx.isNone then throw (.malformed (.linkEmpty s))
    pure ⟨role, rx, tx⟩
  | _ => .error (.malformed (.linkShape s))

end Link

/-! ### Heartbeat handles -/

structure HeartbeatHandles where
  rx : Handle
  tx : Handle
  deriving DecidableEq, Repr

def HeartbeatHandles.ofPair : Option Handle → Option Handle → Except Failure (Option HeartbeatHandles)
  | some rx, some tx => .ok (some ⟨rx, tx⟩)
  | none, none => .ok none
  | _, _ => .error .halfHeartbeat

end GridFlight
