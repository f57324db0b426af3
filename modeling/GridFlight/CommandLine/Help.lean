import GridFlight.CommandLine.Command

/-! The texts of help: what a command is for, how it is used, and its options with their descriptions. Descriptions
    stand in a column of their own, or below the options where that column would be too narrow. -/

namespace GridFlight
namespace CommandLine

def programName : String := "dronegrid"

structure HelpEntry where
  head : String
  lead : String
  about : String
  note : String

namespace HelpEntry

def description (e : HelpEntry) : String :=
  if e.note.isEmpty then e.about else if e.about.isEmpty then e.note else e.about ++ " " ++ e.note

/-- The length of the description without the blank before the note. -/
def extent (e : HelpEntry) : Nat := e.about.length + e.note.length

end HelpEntry

def pageWidth : Nat := 100

/-- Whether the descriptions go below what they describe: the column before them takes more than two fifths of the
    page, and the room behind it is too small for one of them. -/
def below (longest : Nat) (entries : List HelpEntry) : Bool :=
  let taken := longest + 12
  taken ≤ pageWidth && 2 * pageWidth < 5 * taken && entries.any fun e => pageWidth - taken < e.extent

def entriesText (entries : List HelpEntry) : String :=
  let longest := entries.foldl (fun n e => max n e.head.length) 0
  let blanks := fun n => String.ofList (List.replicate n ' ')
  let stacked := below longest entries
  String.join (entries.map fun e =>
    e.lead ++ e.head
      ++ (if stacked then "\n" ++ blanks 10 else blanks (longest + 2 - e.head.length))
      ++ e.description ++ "\n")

/-! ### Options -/

def Opt.head (o : Opt) : String :=
  "--" ++ o.name ++ (o.value.map fun v => " <" ++ v.placeholder ++ ">").getD ""

def Opt.entry (o : Opt) : HelpEntry where
  head := o.head
  lead := match o.short with
    | some c => "  -" ++ String.singleton c ++ ", "
    | none => "      "
  about := o.about
  note := ((o.value.bind ValueForm.standard).map fun standard => "[default: " ++ standard ++ "]").getD ""

def Opt.key (o : Opt) : String := (o.short.map String.singleton).getD o.name

def arranged (own : List Opt) : List Opt :=
  let precedes := fun (a b : Opt × Nat) => a.2 < b.2 || (a.2 = b.2 && a.1.key ≤ b.1.key)
  ((own.zipIdx ++ sharedOptions.zipIdx).mergeSort precedes).map Prod.fst

def helpOption : Opt := (Opt.flag helpName "Print help").called 'h'

def optionsText (own : List Opt) : String :=
  "Options:\n" ++ entriesText ((arranged own ++ [helpOption]).map Opt.entry)

/-! ### Pages -/

def commandsText : String :=
  let listed := forms.map (fun f => (f.name, f.about))
    ++ [(helpName, "Print this message or the help of the given subcommand(s)")]
  "Commands:\n" ++ entriesText (listed.map fun (name, about) => ⟨name, "  ", about, ""⟩)

def programPage : String :=
  "Run and supervise the DroneGrid drone simulation\n\nUsage: " ++ programName ++ " [OPTIONS] <COMMAND>\n\n"
    ++ commandsText ++ "\n" ++ optionsText []

def Form.page (f : Form) : String :=
  let required := (f.options.filter Opt.required).map fun o => " " ++ o.head
  f.about ++ "\n\nUsage: " ++ programName ++ " " ++ f.name ++ " [OPTIONS]" ++ String.join required ++ "\n\n"
    ++ optionsText f.options

def helpPage (command : Option String) : String := ((command.bind form?).map Form.page).getD programPage

end CommandLine
end GridFlight
