import GridFlight.Role

/-! What can go wrong, as causes. Each cause has one message; a failure of a whole part carries what was being done
    when the cause arose, and `Failure.chain` lists the messages from the outermost to the innermost. -/

namespace GridFlight

inductive IoCause where
  | bytesRemaining
  | brokenPipe
  | notUtf8
  | notPermitted
  | noSuchFile
  | noSuchProcess
  | badDescriptor
  | permissionDenied
  | fileExists
  | notDirectory
  | isDirectory
  deriving DecidableEq, Repr

def IoCause.message : IoCause → String
  | bytesRemaining => "bytes remaining on stream"
  | brokenPipe => "broken pipe"
  | notUtf8 => "stream did not contain valid UTF-8"
  | notPermitted => "Operation not permitted (os error 1)"
  | noSuchFile => "No such file or directory (os error 2)"
  | noSuchProcess => "No such process (os error 3)"
  | badDescriptor => "Bad file descriptor (os error 9)"
  | permissionDenied => "Permission denied (os error 13)"
  | fileExists => "File exists (os error 17)"
  | notDirectory => "Not a directory (os error 20)"
  | isDirectory => "Is a directory (os error 21)"

/-! ### Framing -/

/-- A stream of frames that cannot be read further. -/
inductive FrameError where
  | io (cause : IoCause)
  | badCount (text : String)
  | bulkTooLarge (count : Nat)
  deriving DecidableEq, Repr

def FrameError.message : FrameError → String
  | io cause => "I/O error: " ++ cause.message
  | badCount text => "Unreadable bulk count '" ++ text ++ "'"
  | bulkTooLarge count => "Bulk count " ++ count.repr ++ " exceeds limit"

/-! ### Payloads -/

/-- A frame of a known kind whose payload does not say what it must. -/
inductive PayloadFault where
  | notText
  | missingField
  | badField (field : String)
  | badSize (text : String)
  | emptyKey
  | tooManyComponents
  | badComponent (field : String)
  | noComponents
  deriving DecidableEq, Repr

def PayloadFault.message : PayloadFault → String
  | notText => "not ASCII"
  | missingField => "missing field"
  | badField field => "unparseable field '" ++ field ++ "'"
  | badSize text => "non-positive size '" ++ text ++ "'"
  | emptyKey => "empty key"
  | tooManyComponents => "more than eight components"
  | badComponent field => "unparseable component '" ++ field ++ "'"
  | noComponents => "no components"

/-! ### Registry, handles and processes -/

/-- A text that is not an entry, an identity, a role or a link, or an identity that no process can have. -/
inductive Malformed where
  | identity (text : String)
  | role (text : String)
  | line (text : String)
  | linkShape (text : String)
  | linkEmpty (text : String)
  | identityRange (text : String)
  /-- A stand-in declined to serve. -/
  | refused (operation : String)
  deriving DecidableEq, Repr

def Malformed.message : Malformed → String
  | identity text => "invalid process identity '" ++ text ++ "'"
  | role text => "unknown role '" ++ text ++ "'"
  | line text => "registry line '" ++ text ++ "'"
  | linkShape text => "link '" ++ text ++ "' is not role:rx:tx"
  | linkEmpty text => "link '" ++ text ++ "' has no handles"
  | identityRange text => "pid " ++ text ++ " out of range"
  | refused operation => operation ++ " refused"

inductive ChannelFault where
  | badHandle (text : String)
  | notOpen (handle : Int)
  | notReadable (handle : Int) (cause : String)
  | notWritable (handle : Int) (cause : String)
  deriving DecidableEq, Repr

def handleText (handle : Int) : String := toString handle

def ChannelFault.message : ChannelFault → String
  | badHandle text => "invalid channel handle '" ++ text ++ "'"
  | notOpen handle => "fd " ++ handleText handle ++ " is not open"
  | notReadable handle cause => "fd " ++ handleText handle ++ " is not a readable pipe: " ++ cause
  | notWritable handle cause => "fd " ++ handleText handle ++ " is not a writable pipe: " ++ cause

/-- What the surroundings of a part refused: files, registry texts, handles and calls on processes. -/
inductive SystemError where
  | io (cause : IoCause)
  | malformed (fault : Malformed)
  | channel (fault : ChannelFault)
  | call (name : String) (cause : IoCause)
  deriving DecidableEq, Repr

def SystemError.message : SystemError → String
  | io cause => "I/O error: " ++ cause.message
  | malformed fault => "Malformed entry: " ++ fault.message
  | channel fault => "Channel error: " ++ fault.message
  | call name cause => "OS call " ++ name ++ " failed: " ++ cause.message

/-! ### Faults of a part -/

inductive Fault where
  | frame (error : FrameError)
  | payload (kind : String) (fault : PayloadFault)
  | unknownKind (code : Int32)
  | screen (text : String)
  | system (error : SystemError)
  deriving DecidableEq, Repr

namespace Fault

def message : Fault → String
  | frame error => "Framing error: " ++ error.message
  | payload kind fault => "Bad " ++ kind ++ " payload: " ++ fault.message
  | unknownKind code => "Unknown frame type " ++ toString code.toInt
  | screen text => "UI error: " ++ text
  | system error => error.message

def chain (fault : Fault) : List String :=
  fault.message :: match fault with
    | frame (.io cause) => [(FrameError.io cause).message, cause.message]
    | frame error => [error.message]
    | system (.io cause) | system (.call _ cause) => [cause.message]
    | _ => []

end Fault

inductive Activity where
  | adopting (what : String)
  | joining (role : Role)
  | running (role : Role)
  | controlIn (role : Role)
  | controlOut (role : Role)
  | linkIn (role : Role)
  | linkOut (role : Role)
  | detecting
  | reading (path : String)
  | resetting
  | spawning (role : Role)
  | loggingDirectory (path : String)
  | loggingFile (path : String)
  deriving DecidableEq, Repr

def Activity.message : Activity → String
  | adopting what => "adopting " ++ what
  | joining role => role.name ++ " failed to join the registry"
  | running role => role.name ++ " failed"
  | controlIn role => "control rx for " ++ role.name
  | controlOut role => "control tx for " ++ role.name
  | linkIn role => "link rx for " ++ role.name
  | linkOut role => "link tx for " ++ role.name
  | detecting => "detector failed"
  | reading path => "reading " ++ path
  | resetting => "resetting the registry"
  | spawning role => "spawning " ++ role.name
  | loggingDirectory path => "creating log directory " ++ path
  | loggingFile path => "opening log file " ++ path

inductive Failure where
  | fault (fault : Fault)
  /-- A bare cause of the system, as starting a process gives it. -/
  | cause (cause : IoCause)
  | halfHeartbeat
  | halfControl (link : String)
  | heartbeatFailed (role : Role) (pid : String) (outcome : String)
  | childrenFailed (count : Nat)
  | during (activity : Activity) (failure : Failure)
  deriving DecidableEq, Repr

namespace Failure

def chain : Failure → List String
  | fault f => f.chain
  | cause c => [c.message]
  | halfHeartbeat => ["--heartbeat-rx and --heartbeat-tx must be given together"]
  | halfControl link => ["control link " ++ link ++ " needs both directions"]
  | heartbeatFailed role pid outcome => [role.name ++ " (" ++ pid ++ ") failed its heartbeat: " ++ outcome]
  | childrenFailed count => [count.repr ++ " component(s) failed"]
  | during activity failure => activity.message :: chain failure

def message (failure : Failure) : String := ": ".intercalate failure.chain

end Failure
end GridFlight
