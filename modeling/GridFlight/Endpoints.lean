import GridFlight.Handle

/-! Taking over handles. A handle that a part was given must be open and be the end of a pipe in the right
    direction, and it is taken over once. The first that cannot be taken over ends the part, and the failure says
    which it was. -/

namespace GridFlight

/-- What a handle stands for. An end of a pipe may have been taken over already. -/
inductive Endpoint where
  | closed
  | reading (taken : Bool)
  | writing (taken : Bool)
  deriving DecidableEq, Repr

abbrev Endpoints := Handle → Endpoint

namespace Endpoints

def standard : Endpoints := fun h =>
  if h.val = 0 then .reading false else if h.val = 1 ∨ h.val = 2 then .writing false else .closed

def set (h : Handle) (e : Endpoint) (p : Endpoints) : Endpoints := fun other => if other = h then e else p other

def reader (h : Handle) (p : Endpoints) : Except SystemError Endpoints :=
  match p h with
  | .closed => .error h.notOpen
  | .writing _ => .error (.channel (.notReadable h.val.toInt "not in O_RDONLY or O_RDWR access mode"))
  | .reading true => .error (.channel (.notReadable h.val.toInt IoCause.fileExists.message))
  | .reading false => .ok (p.set h (.reading true))

def writer (h : Handle) (p : Endpoints) : Except SystemError Endpoints :=
  match p h with
  | .closed => .error h.notOpen
  | .reading _ => .error (.channel (.notWritable h.val.toInt "not in O_WRONLY or O_RDWR access mode"))
  | .writing true => .error (.channel (.notWritable h.val.toInt IoCause.fileExists.message))
  | .writing false => .ok (p.set h (.writing true))

def during (activity : Activity) (result : Except SystemError Endpoints) : Except Failure Endpoints :=
  result.mapError fun e => .during activity (.fault (.system e))

def heartbeat (handles : Option HeartbeatHandles) (p : Endpoints) : Except Failure Endpoints :=
  match handles with
  | none => .ok p
  | some h => do
    let p ← during (.adopting "heartbeat rx") (p.reader h.rx)
    during (.adopting "heartbeat tx") (p.writer h.tx)

/-- Takes over the channel of a part to and from the coordinator. -/
def dependent (rx tx : Handle) (p : Endpoints) : Except Failure Endpoints := do
  let p ← during (.adopting "coordinator rx") (p.reader rx)
  during (.adopting "coordinator tx") (p.writer tx)

/-- Takes over a control link of the supervisor, which needs both directions. -/
def control (p : Endpoints) (l : Link) : Except Failure Endpoints :=
  match l.rx, l.tx with
  | some rx, some tx => do
    let p ← during (.controlIn l.role) (p.reader rx)
    during (.controlOut l.role) (p.writer tx)
  | _, _ => .error (.halfControl l.text)

/-- Takes over the control links of the supervisor and then its exit channel. -/
def supervisor (controls : List Link) (exit : Option Handle) (p : Endpoints) : Except Failure Endpoints := do
  let p ← controls.foldlM control p
  match exit with
  | none => pure p
  | some h => during (.adopting "exit channel") (p.reader h)

def link (p : Endpoints) (l : Link) : Except Failure Endpoints :=
  let bare := fun (result : Except SystemError Endpoints) => result.mapError fun e => .fault (.system e)
  match l.rx, l.tx with
  | some rx, some tx => do
    let p ← during (.linkIn l.role) (p.reader rx)
    during (.linkOut l.role) (p.writer tx)
  | some rx, none => bare (p.reader rx)
  | none, some tx => bare (p.writer tx)
  | none, none => .ok p

/-- Takes over the links of the coordinator and then its channel to the supervisor. -/
def coordinator (links : List Link) (supervisor : Option Handle) (p : Endpoints) : Except Failure Endpoints := do
  let p ← links.foldlM link p
  match supervisor with
  | none => pure p
  | some h => during (.adopting "supervisor channel") (p.writer h)

end Endpoints
end GridFlight
