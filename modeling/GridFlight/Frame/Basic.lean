import GridFlight.Cell
import GridFlight.Error
import GridFlight.Text.Utf8

/-! Frames: a code, a payload of eighty bytes and a list of cells. The payload holds a text up to its first zero
    byte; a text made into a payload keeps its longest part that leaves room for one zero byte. -/

namespace GridFlight
namespace Frame

/-! ### Kinds -/

inductive Kind where
  | size
  | obstacles
  | input
  | exit
  | position
  | targets
  | force
  | pid
  | ping
  | pong
  deriving DecidableEq, Repr

namespace Kind

def all : List Kind := [size, obstacles, input, exit, position, targets, force, pid, ping, pong]

def code : Kind → Int32
  | size => 1
  | obstacles => 2
  | input => 3
  | exit => 4
  | position => 6
  | targets => 8
  | force => 9
  | pid => 10
  | ping => 11
  | pong => 12

def ofCode? (code : Int32) : Option Kind := all.find? fun k => k.code == code

theorem ofCode?_code (k : Kind) : ofCode? k.code = some k := by cases k <;> decide

def carriesBulk : Kind → Bool
  | obstacles | targets => true
  | _ => false

def name : Kind → String
  | size => "SIZE"
  | obstacles => "OBSTACLES"
  | input => "INPUT"
  | exit => "EXIT"
  | position => "POSITION"
  | targets => "TARGETS"
  | force => "FORCE"
  | pid => "PID"
  | ping => "PING"
  | pong => "PONG"

end Kind

/-! ### Payloads -/

def payloadSize : Nat := 80

structure Payload where
  bytes : List UInt8
  length_bytes : bytes.length = payloadSize
  deriving DecidableEq

namespace Payload

/-- The first eighty bytes, with zeros behind a shorter list. -/
def pad (bytes : List UInt8) : Payload :=
  ⟨(bytes ++ List.replicate payloadSize 0).take payloadSize, by simp⟩

/-- The payload of the longest part of the text that leaves room for a zero byte. -/
def ofText (text : String) : Payload := pad (Utf8.encode (Utf8.fit (payloadSize - 1) text))

/-- The bytes before the first zero byte. -/
def textBytes (p : Payload) : List UInt8 := p.bytes.takeWhile (· != 0)

def text? (p : Payload) : Option String := Utf8.decode? p.textBytes

end Payload
end Frame

structure Frame where
  code : Int32
  payload : Frame.Payload
  bulk : List Cell
  deriving DecidableEq

namespace Frame

def ofText (kind : Kind) (text : String) (bulk : List Cell) : Frame := ⟨kind.code, .ofText text, bulk⟩

def kind? (f : Frame) : Option Kind := Kind.ofCode? f.code

end Frame
end GridFlight
