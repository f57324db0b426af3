import GridFlight.Program

/-! The program on a command line. It reads what it needs of its surroundings, performs the command, and carries the
    effect out. A command that has no effect yet is tried again a little later. -/

namespace GridFlight
namespace CommandLine

def causeOf : IO.Error → IoCause
  | .noFileOrDirectory .. => .noSuchFile
  | .alreadyExists .. => .fileExists
  | .inappropriateType .. => .notDirectory
  | .permissionDenied .. => .permissionDenied
  | _ => .notPermitted

def findPlace (path : String) : IO Disk.Place := do
  let file := (← IO.currentDir) / path
  let parent ← match file.parent with
    | some directory => directory.isDir
    | none => pure true
  if ← file.isDir then return ⟨parent, .directory⟩
  unless ← file.pathExists do return ⟨parent, .absent⟩
  return ⟨parent, .file (← IO.FS.readBinFile file).toList⟩

def leavePlace (path : String) (before after : Disk.Place) : IO Unit := do
  let file := (← IO.currentDir) / path
  if after.parent && !before.parent then
    if let some directory := file.parent then IO.FS.createDirAll directory
  match after.node with
  | .file bytes => if before.node ≠ .file bytes then IO.FS.writeBinFile file (ByteArray.mk bytes.toArray)
  | _ => pure ()

partial def readInput (input : IO.FS.Stream) (read : ByteArray) : IO ByteArray := do
  let more ← input.read 65536
  if more.isEmpty then return read
  readInput input (read ++ more)

def ownPid : IO Pid := do
  try
    let line ← IO.FS.readFile "/proc/self/stat"
    return (Pid.read? (String.ofList (line.toList.takeWhile (· ≠ ' ')))).getD ⟨0⟩
  catch _ => return ⟨0⟩

def findPresence (place : Disk.Place) : IO (Pid → Liveness.Presence) := do
  let entries := ((Registry.File.refresh.run place).1.toOption).getD []
  let shown ← entries.filterM fun e => do
    if e.pid.val = 0 then return true
    return ← ((← IO.currentDir) / ("/proc/" ++ e.pid.text)).pathExists
  return fun p => if shown.any (·.pid = p) then .own else .gone

def openLog (shared : Shared) (command : Command) : IO (Except Failure Unit) := do
  let directory := shared.logDirectory
  let path := Program.within directory (Program.logName command)
  try IO.FS.createDirAll directory
  catch e => return .error (.during (.loggingDirectory directory) (.cause (causeOf e)))
  try
    let _ ← IO.FS.Handle.mk path .append
    return .ok ()
  catch e => return .error (.during (.loggingFile path) (.cause (causeOf e)))

def readsInput : Command → Bool
  | .physics args | .obstacles args | .targets args => args.rx = Program.standardInput
  | .coordinator args => args.links.any (·.rx = some Program.standardInput)
  | .supervisor args => args.exit = some Program.standardInput
  | _ => false

def hostOf (input : List UInt8) (place : Disk.Place) : IO Program.Host := do
  return {
    pid := ← ownPid
    endpoints := .standard
    input := input
    presence := ← findPresence place
    seed := UInt64.ofNat (2 * (← IO.monoNanosNow) + 1)
    wiring := .ofHandles fun k => ⟨Int32.ofNat (k + 3)⟩
    start := fun _ => .error .notPermitted }

/-- Performs a command, again and again until it has an effect. -/
partial def performCommand (shared : Shared) (command : Command) (input : List UInt8) : IO Program.Effect := do
  let place ← findPlace shared.registry
  match Program.perform (← hostOf input place) shared command place with
  | some effect =>
    leavePlace shared.registry place effect.registry
    return effect
  | none =>
    IO.sleep 200
    performCommand shared command input

def report (failure : Failure) : IO UInt32 := do
  IO.eprintln (Program.errorLine failure)
  return UInt32.ofNat Program.failedCode

def runCommand (shared : Shared) (command : Command) : IO UInt32 := do
  if command.logsToFile shared then
    if let .error failure ← openLog shared command then return ← report failure
  let input ← if readsInput command then readInput (← IO.getStdin) .empty else pure .empty
  let effect ← performCommand shared command input.toList
  let output ← IO.getStdout
  output.write (ByteArray.mk effect.output.toArray)
  output.flush
  match effect.result with
  | .ok () => return 0
  | .error failure => report failure

def runProgram (args : List String) : IO UInt32 := do
  match readArgs args with
  | .ok (shared, command) => runCommand shared command
  | .error (.help command) =>
    IO.print (helpPage command)
    return 0
  | .error .usage =>
    IO.eprint (helpPage none)
    return UInt32.ofNat Program.usageCode

end CommandLine
end GridFlight

def main (args : List String) : IO UInt32 := GridFlight.CommandLine.runProgram args
