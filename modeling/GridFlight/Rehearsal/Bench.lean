import GridFlight.Program

/-! A rehearsal of the whole program in a directory that holds at most a registry. The standard input is a pipe that
    holds some bytes and then ends; the standard output is a pipe, and no other handle is open. -/

namespace GridFlight
namespace Rehearsal

open CommandLine (Shared Command)

structure Bench where
  /-- The content of the registry, if there is one. -/
  registry : Option (List UInt8)
  input : List UInt8

structure Remains where
  code : Nat
  errors : List String
  output : List UInt8
  logs : List String
  registry : Option (List UInt8)

namespace Bench

def names (path : String) : List String := (path.splitOn "/").filter fun name => name ≠ "" ∧ name ≠ "."

def registryName : String := "pid_registry.txt"

def isAbsolute (path : String) : Bool := path.startsWith "/"

def registryNode (b : Bench) : Disk.Node :=
  match b.registry with
  | some bytes => .file bytes
  | none => .absent

/-- What is found under a path, once the directories on the way of another have been made. -/
def place (b : Bench) (made : List String) (path : String) : Disk.Place :=
  let way := names path
  if isAbsolute path then if way.isEmpty then ⟨true, .directory⟩ else ⟨false, .absent⟩
  else if way.isPrefixOf made ∨ way.all (· = "..") then ⟨true, .directory⟩
  else if way = [registryName] then ⟨true, b.registryNode⟩
  else ⟨way.dropLast.isPrefixOf made, .absent⟩

/-- The names on the way of a path that is a file, if there is one. -/
def isFile (b : Bench) (path : String) : Bool :=
  if isAbsolute path then names path = ["dev", "null"] else names path = [registryName] ∧ b.registry.isSome

/-- Makes the directory of logs: its names, if it can be made. -/
def makeLogs (b : Bench) (path : String) : Except Failure (List String) :=
  let start := if isAbsolute path then "/" else ""
  let refuse := fun cause => Except.error (.during (.loggingDirectory path) (.cause cause))
  if b.isFile path then refuse .fileExists
  else if (List.range (names path).length).any fun n => b.isFile (start ++ "/".intercalate ((names path).take n)) then
    refuse .notDirectory
  else .ok (if isAbsolute path then [] else names path)

def host (b : Bench) (presence : Pid → Liveness.Presence) : Program.Host where
  pid := ⟨4000000⟩
  endpoints := .standard
  input := b.input
  presence := presence
  seed := 1
  wiring := .ofHandles fun k => ⟨Int32.ofNat (k + 3)⟩
  start _ := .error .noSuchFile

/-- The names in the directory `logs` after a command has logged in a directory. -/
def logNames (way : List String) (command : Command) : List String :=
  match way with
  | ["logs"] => [Program.logName command]
  | "logs" :: name :: _ => [name]
  | _ => []

def perform (b : Bench) (presence : Pid → Liveness.Presence) (shared : Shared) (command : Command) : Option Remains :=
  let failed := fun failure logs => some ⟨Program.failedCode, [Program.errorLine failure], [], logs, b.registry⟩
  let made := if command.logsToFile shared then b.makeLogs shared.logDirectory else .ok []
  match made with
  | .error failure => failed failure []
  | .ok made =>
    (Program.perform (b.host presence) shared command (b.place made shared.registry)).map fun effect =>
      { code := if effect.result.isOk then 0 else Program.failedCode
        errors := match effect.result with
          | .ok () => []
          | .error failure => [Program.errorLine failure]
        output := effect.output
        logs := logNames made command
        registry := match effect.registry.node with
          | .file bytes => if names shared.registry = [registryName] then some bytes else b.registry
          | _ => b.registry }

/-- Runs the program. There are no remains of a run that does not end. -/
def run (b : Bench) (presence : Pid → Liveness.Presence) (args : List String) : Option Remains :=
  match CommandLine.readArgs args with
  | .error .usage => some ⟨Program.usageCode, [], [], [], b.registry⟩
  | .error (.help command) => some ⟨0, [], Utf8.encode (CommandLine.helpPage command), [], b.registry⟩
  | .ok (shared, command) => b.perform presence shared command

end Bench
end Rehearsal
end GridFlight
