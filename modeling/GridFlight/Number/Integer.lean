/-! Decimal integers. A numeral is an optional sign and at least one digit; a minus sign belongs to signed
    numerals only. A reader takes the range of the wanted type and refuses a value outside it. -/

namespace GridFlight
namespace Number

def digitValue (c : Char) : Nat := c.toNat - '0'.toNat

def digitsValue (cs : List Char) : Nat := cs.foldl (fun value c => value * 10 + digitValue c) 0

def readDigits? (cs : List Char) : Option Nat :=
  if cs.isEmpty then none else if cs.all Char.isDigit then some (digitsValue cs) else none

def readNat? (cs : List Char) : Option Nat :=
  match cs with
  | '+' :: digits => readDigits? digits
  | _ => readDigits? cs

def readInt? (cs : List Char) : Option Int :=
  match cs with
  | '-' :: digits => (readDigits? digits).map fun n => -(n : Int)
  | '+' :: digits => (readDigits? digits).map Int.ofNat
  | _ => (readDigits? cs).map Int.ofNat

def readUInt32? (s : String) : Option UInt32 :=
  (readNat? s.toList).bind fun n => if n < Nat.pow 2 32 then some (UInt32.ofNat n) else none

def readUInt64? (s : String) : Option UInt64 :=
  (readNat? s.toList).bind fun n => if n < Nat.pow 2 64 then some (UInt64.ofNat n) else none

def readInt32? (s : String) : Option Int32 :=
  (readInt? s.toList).bind fun n => if -2147483648 ≤ n ∧ n ≤ 2147483647 then some (Int32.ofInt n) else none

/-- An integer of 64 bits, kept as an integer. -/
def readInt64? (s : String) : Option Int :=
  (readInt? s.toList).bind fun n => if -9223372036854775808 ≤ n ∧ n ≤ 9223372036854775807 then some n else none

/-! ### Writing -/

def writeInt (n : Int) : String := if n < 0 then "-" ++ n.natAbs.repr else n.natAbs.repr

end Number
end GridFlight
