/-! Blank characters and the fields they separate. Blank is the Unicode property `White_Space`;
    a field is a maximal run of characters that are not blank. -/

namespace GridFlight
namespace Text

/-- The code points of the property `White_Space`. -/
def blankCodes : List Nat :=
  [0x9, 0xA, 0xB, 0xC, 0xD, 0x20, 0x85, 0xA0, 0x1680, 0x2000, 0x2001, 0x2002, 0x2003, 0x2004, 0x2005, 0x2006,
    0x2007, 0x2008, 0x2009, 0x200A, 0x2028, 0x2029, 0x202F, 0x205F, 0x3000]

def isBlank (c : Char) : Bool := blankCodes.contains c.toNat

/-! ### Fields -/

def fieldsOf (cs : List Char) : List (List Char) :=
  (cs.splitOnP isBlank).filter fun field => !field.isEmpty

def fields (s : String) : List String := (fieldsOf s.toList).map String.ofList

/-! ### Trimming -/

def trimEndOf (cs : List Char) : List Char := (cs.reverse.dropWhile isBlank).reverse

def trimOf (cs : List Char) : List Char := trimEndOf (cs.dropWhile isBlank)

def trimEnd (s : String) : String := String.ofList (trimEndOf s.toList)

def trim (s : String) : String := String.ofList (trimOf s.toList)

end Text
end GridFlight
