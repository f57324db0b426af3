/-! Documents: nested lists and records of texts, numbers and truth values. They are written on one line, or
    indented by two blanks with one item on each line. -/

namespace GridFlight

inductive Document where
  | null
  | truth (value : Bool)
  | number (digits : String)
  | text (value : String)
  | list (items : List Document)
  | record (fields : List (String × Document))

namespace Document

def hexDigit (n : Nat) : Char := Nat.digitChar (n % 16)

def escape (c : Char) : List Char :=
  if c = '"' then ['\\', '"']
  else if c = '\\' then ['\\', '\\']
  else if c = '\n' then ['\\', 'n']
  else if c = '\r' then ['\\', 'r']
  else if c = '\t' then ['\\', 't']
  else if c.toNat = 8 then ['\\', 'b']
  else if c.toNat = 12 then ['\\', 'f']
  else if c.toNat < 32 then ['\\', 'u', '0', '0', hexDigit (c.toNat / 16), hexDigit c.toNat]
  else [c]

def quote (s : String) : String := "\"" ++ String.ofList (s.toList.flatMap escape) ++ "\""

def ofNat (n : Nat) : Document := .number n.repr

mutual

def compact : Document → String
  | null => "null"
  | truth value => if value then "true" else "false"
  | number digits => digits
  | text value => quote value
  | list items => "[" ++ ",".intercalate (compactItems items) ++ "]"
  | record fields => "\x7b" ++ ",".intercalate (compactFields fields) ++ "\x7d"

def compactItems : List Document → List String
  | [] => []
  | item :: items => item.compact :: compactItems items

def compactFields : List (String × Document) → List String
  | [] => []
  | (name, value) :: fields => (quote name ++ ":" ++ value.compact) :: compactFields fields

end

def margin (depth : Nat) : String := "\n" ++ String.ofList (List.replicate (2 * depth) ' ')

/-- Items on lines of their own between two brackets. -/
def enclose (opening closing : String) (depth : Nat) (items : List String) : String :=
  if items.isEmpty then opening ++ closing
  else opening ++ ",".intercalate (items.map (margin (depth + 1) ++ ·)) ++ margin depth ++ closing

mutual

def indented (depth : Nat) : Document → String
  | null => "null"
  | truth value => if value then "true" else "false"
  | number digits => digits
  | text value => quote value
  | list items => enclose "[" "]" depth (indentedItems (depth + 1) items)
  | record fields => enclose "\x7b" "\x7d" depth (indentedFields (depth + 1) fields)

def indentedItems (depth : Nat) : List Document → List String
  | [] => []
  | item :: items => item.indented depth :: indentedItems depth items

def indentedFields (depth : Nat) : List (String × Document) → List String
  | [] => []
  | (name, value) :: fields => (quote name ++ ": " ++ value.indented depth) :: indentedFields depth fields

end

end Document
end GridFlight
