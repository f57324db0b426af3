/-! The grammar of command lines. A long option has two dashes and takes its value from behind an equals sign or from
    the next argument; short options have one dash and can be written together. A value in an argument of its own
    does not begin with a dash, unless it is a dash alone. -/

namespace GridFlight
namespace CommandLine

/-- The value that an option takes: what stands for it in help, which texts it can be, and what it is if the option is
    not given. -/
structure ValueForm where
  placeholder : String
  valid : String → Bool
  standard : Option String

/-- An option that a command takes. One that takes no value is a flag. -/
structure Opt where
  name : String
  short : Option Char
  about : String
  value : Option ValueForm
  required : Bool
  repeats : Bool

namespace Opt

def flag (name : String) (about : String) : Opt := ⟨name, none, about, none, false, false⟩

/-- An option with a value. Its placeholder is its name in capital letters, joined by low lines. -/
def valued (name : String) (valid : String → Bool) (about : String) : Opt :=
  let placeholder := String.ofList (name.toList.map fun c => if c = '-' then '_' else c.toUpper)
  ⟨name, none, about, some ⟨placeholder, valid, none⟩, false, false⟩

def called (short : Char) (o : Opt) : Opt := { o with short := some short }

def must (o : Opt) : Opt := { o with required := true }

def standing (standard : String) (o : Opt) : Opt :=
  { o with value := o.value.map fun v => { v with standard := some standard } }

def many (placeholder : String) (o : Opt) : Opt :=
  { o with repeats := true, value := o.value.map fun v => { v with placeholder := placeholder } }

end Opt

/-- An option as it was given, with the text of its value; that of a flag is empty. -/
structure Given where
  option : Opt
  value : String

namespace Given

def valid (g : Given) : Bool := g.option.value.all fun form => form.valid g.value

end Given

inductive Ending where
  | finished
  | command (name : String) (args : List String)
  | help
  | wrong
  deriving DecidableEq, Repr

structure Reading where
  given : List Given
  ending : Ending

namespace Reading

def wrong : Reading := ⟨[], .wrong⟩

def add (g : List Given) (r : Reading) : Reading := { r with given := g ++ r.given }

end Reading

def helpName : String := "help"

def isValue (arg : String) : Bool := arg = "-" || !arg.startsWith "-"

/-! ### Options of one argument -/

/-- What an argument of options holds, and which option still needs a value. -/
inductive Piece where
  | complete (given : List Given)
  | needing (given : List Given) (option : Opt)
  | help (given : List Given)
  | wrong

def find? (options : List Opt) (name : String) : Option Opt := options.find? (·.name = name)

def longPiece (options : List Opt) (body : List Char) : Piece :=
  let name := String.ofList (body.takeWhile (· ≠ '='))
  let attached := match body.dropWhile (· ≠ '=') with
    | [] => none
    | _ :: value => some (String.ofList value)
  match find? options name, attached with
  | some o, some value => if o.value.isSome then .complete [⟨o, value⟩] else .wrong
  | some o, none => if o.value.isSome then .needing [] o else .complete [⟨o, ""⟩]
  | none, none => if name = helpName then .help [] else .wrong
  | none, some _ => .wrong

/-- The options behind one dash. The last one may have its value behind it. -/
def shortPiece (options : List Opt) (given : List Given) : List Char → Piece
  | [] => .complete given
  | c :: cs =>
    match options.find? (·.short = some c) with
    | none => if c = 'h' then .help given else .wrong
    | some o =>
      if o.value.isNone then shortPiece options (given ++ [⟨o, ""⟩]) cs
      else match cs with
        | [] => .needing given o
        | '=' :: value => .complete (given ++ [⟨o, String.ofList value⟩])
        | value => .complete (given ++ [⟨o, String.ofList value⟩])

/-! ### Arguments -/

/-- Reads arguments, perhaps behind an option that needs a value, up to the end or the name of a command. -/
def readFrom (options : List Opt) (commands : List String) : Option Opt → List String → Reading
  | none, [] => ⟨[], .finished⟩
  | some _, [] => .wrong
  | some o, arg :: args => if isValue arg then (readFrom options commands none args).add [⟨o, arg⟩] else .wrong
  | none, arg :: args =>
    match arg.toList with
    | ['-', '-'] => ⟨[], if args.isEmpty then .finished else .wrong⟩
    | '-' :: '-' :: body => go (longPiece options body) args
    | '-' :: c :: cs => go (shortPiece options [] (c :: cs)) args
    | _ => ⟨[], if commands.contains arg then .command arg args else .wrong⟩
where
  go (piece : Piece) (args : List String) : Reading :=
    match piece with
    | .complete given => (readFrom options commands none args).add given
    | .needing given o => (readFrom options commands (some o) args).add given
    | .help given => ⟨given, .help⟩
    | .wrong => .wrong

/-- Whether every value is valid and every option that does not repeat was given once. -/
def sound : List Given → Bool
  | [] => true
  | g :: gs => g.valid && (g.option.repeats || !gs.any (·.option.name = g.option.name)) && sound gs

def read (options : List Opt) (commands : List String) (args : List String) : Reading :=
  let r := readFrom options commands none args
  if sound r.given then r else .wrong

/-! ### Values -/

def value? (given : List Given) (name : String) : Option String :=
  (given.reverse.find? (·.option.name = name)).map Given.value

def values (given : List Given) (name : String) : List String :=
  (given.filter (·.option.name = name)).map Given.value

def isGiven (given : List Given) (name : String) : Bool := given.any (·.option.name = name)

end CommandLine
end GridFlight
