import GridFlight.Frame.Codec
import GridFlight.Number.Literal
import GridFlight.Pid

/-! Messages, and the frames that carry them. A number payload takes as many places as fit into a payload. -/

namespace GridFlight

/-- The forces on the drone: the command, the fields of obstacles and walls, and the pull of the targets. -/
structure ForceReport where
  drone : Vec Float32
  obstacle : Vec Float32
  wall : Vec Float32
  target : Vec Float32
  deriving DecidableEq, Repr

inductive Message where
  | size (width height : Int32)
  | obstacles (cells : List Cell)
  | input (key : Char)
  | exit
  | position (p : Vec Float32)
  | targets (cells : List Cell)
  | force (report : ForceReport)
  | pid (p : Pid)
  | ping (seq : UInt64)
  | pong (seq : UInt64)
  deriving DecidableEq, Repr

open GridFlight.Frame (Kind)

/-! ### Numbers in a payload -/

def zeroSingle : Float32 := Float32.ofBits 0

/-- The numbers with as many places as fit, from `places` downwards. -/
def fixedFitting? (values : List Number.Datum) (places : Nat) : Option String :=
  let text := " ".intercalate (values.map (Number.Datum.fixed places))
  if text.utf8ByteSize < Frame.payloadSize then some text
  else match places with
    | 0 => none
    | fewer + 1 => fixedFitting? values fewer

/-- The numbers with six places or fewer, or with three significant digits where no fixed form fits. -/
def numbersText (values : List Float32) : String :=
  let data := values.map Number.single
  (fixedFitting? data 6).getD (" ".intercalate (data.map (Number.Datum.scientific 2)))

namespace ForceReport

def zero : ForceReport :=
  ⟨⟨zeroSingle, zeroSingle⟩, ⟨zeroSingle, zeroSingle⟩, ⟨zeroSingle, zeroSingle⟩, ⟨zeroSingle, zeroSingle⟩⟩

def values (r : ForceReport) : List Float32 :=
  [r.drone.x, r.drone.y, r.obstacle.x, r.obstacle.y, r.wall.x, r.wall.y, r.target.x, r.target.y]

/-- The report with these components; missing ones are zero. -/
def ofValues (values : List Float32) : ForceReport :=
  let component := fun i => values.getD i zeroSingle
  ⟨⟨component 0, component 1⟩, ⟨component 2, component 3⟩, ⟨component 4, component 5⟩,
    ⟨component 6, component 7⟩⟩

/-- The components in fields, at most `room` of them. -/
def readComponents : Nat → List String → Except PayloadFault (List Float32)
  | _, [] => .ok []
  | 0, _ :: _ => .error .tooManyComponents
  | room + 1, field :: fields =>
    match Number.readSingle? field with
    | none => .error (.badComponent field)
    | some value => (readComponents room fields).map (value :: ·)

/-- Reads one to eight components. -/
def read (text : String) : Except PayloadFault ForceReport :=
  match Text.fields text with
  | [] => .error .noComponents
  | fields => (readComponents 8 fields).map ofValues

end ForceReport

namespace Message

def kind : Message → Kind
  | size .. => .size
  | obstacles _ => .obstacles
  | input _ => .input
  | exit => .exit
  | position _ => .position
  | targets _ => .targets
  | force _ => .force
  | pid _ => .pid
  | ping _ => .ping
  | pong _ => .pong

/-! ### Writing -/

def payloadText : Message → String
  | size width height => Number.writeInt width.toInt ++ " " ++ Number.writeInt height.toInt
  | obstacles cells | targets cells => cells.length.repr
  | input key => String.singleton key
  | exit => ""
  | position p => numbersText [p.x, p.y]
  | force report => numbersText report.values
  | pid p => p.text
  | ping seq | pong seq => seq.toNat.repr

def cells : Message → List Cell
  | obstacles cells | targets cells => cells
  | _ => []

def toFrame (m : Message) : Frame := Frame.ofText m.kind m.payloadText m.cells

/-! ### Reading -/

/-- Reads the first field, and gives the fields after it. -/
def field {α : Type} (read : String → Option α) : List String → Except PayloadFault (α × List String)
  | [] => .error .missingField
  | s :: fields =>
    match read s with
    | some a => .ok (a, fields)
    | none => .error (.badField s)

def single {α : Type} (read : String → Option α) (fields : List String) : Except PayloadFault α :=
  (field read fields).map Prod.fst

def pair {α : Type} (read : String → Option α) (fields : List String) : Except PayloadFault (α × α) := do
  let (a, fields) ← field read fields
  let (b, _) ← field read fields
  pure (a, b)

def ofText (kind : Kind) (text : String) (bulk : List Cell) : Except PayloadFault Message :=
  let fields := Text.fields text
  match kind with
  | .size => do
    let (width, height) ← pair Number.readInt32? fields
    if width ≤ 0 ∨ height ≤ 0 then throw (.badSize text)
    pure (.size width height)
  | .obstacles => .ok (.obstacles bulk)
  | .targets => .ok (.targets bulk)
  | .input =>
    match text.toList with
    | [] => .error .emptyKey
    | key :: _ => .ok (.input key)
  | .exit => .ok .exit
  | .position => (pair Number.readSingle? fields).map fun (x, y) => .position ⟨x, y⟩
  | .force => (ForceReport.read text).map .force
  | .pid => (single Pid.read? fields).map .pid
  | .ping => (single Number.readUInt64? fields).map .ping
  | .pong => (single Number.readUInt64? fields).map .pong

def ofFrame (f : Frame) : Except Fault Message :=
  match f.kind? with
  | none => .error (.unknownKind f.code)
  | some kind =>
    match f.payload.text? with
    | none => .error (.payload kind.name .notText)
    | some text => (ofText kind text f.bulk).mapError (.payload kind.name)

def encode (m : Message) : List UInt8 := m.toFrame.encode

end Message
end GridFlight
