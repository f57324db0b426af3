import GridFlight.Detector
import GridFlight.Membership
import GridFlight.Registry.Listing

/-! A rehearsal on a clock that stands still while anything can be done and then moves straight to the next event.
    The registry is held in memory and can be made to refuse. Monitored parts are played by doubles that follow a
    script: for each ping that a double reads, the script says what it writes and when. -/

namespace GridFlight
namespace Rehearsal

open Registry (Entry Listing)
open Heartbeat (ControlLink Incoming)

/-! ### Doubles -/

/-- What a double does upon a ping: after a delay it writes these bytes, then perhaps the pong, then perhaps hangs
    up. The pong carries the number of the ping and an offset. -/
structure Reaction where
  delay : Nat
  bytes : List UInt8
  pong : Option Int
  hangUp : Bool
  deriving Repr

structure Double where
  /-- The reactions to the pings in turn; the last one repeats. -/
  script : List Reaction
  unread : List UInt64
  /-- The moment from which on the double can read again. -/
  free : Nat
  readAt : List Nat
  gone : Option Nat
  reader : Frame.Reader

namespace Double

def new (script : List Reaction) : Double := ⟨script, [], 0, [], none, .empty⟩

def pongSeq (seq : UInt64) (offset : Int) : UInt64 := UInt64.ofNat ((seq.toNat : Int) + offset).toNat

/-- What a reader yields when these bytes arrive. After an error it reads on as soon as more arrives, and at the end of
    its bytes it ends. -/
def arrive (bytes : List UInt8) (close : Bool) (reader : Frame.Reader) : List ChannelEvent × Frame.Reader :=
  if bytes.isEmpty ∧ !close then ([], reader)
  else
    let reader := reader.feed bytes
    let (events, reader) := (if close then reader.close else reader).yields
    match events.getLast? with
    | some (.item (.error _)) =>
      if close then (events ++ [.ended], reader) else (events, { reader with progress := .waiting })
    | _ => (events, reader)

/-- The events that reach the other end when these bytes arrive at a moment. -/
def deliver (d : Double) (moment : Nat) (bytes : List UInt8) (close : Bool) : Incoming × Double :=
  let (events, reader) := arrive bytes close d.reader
  (events.map fun e => (moment, e), { d with reader := reader })

/-- Reads one ping, at the moment `now` or as soon as the double is free. -/
def read (now : Nat) (d : Double) (seq : UInt64) : Incoming × Double :=
  if d.gone.isSome then ([], d)
  else
    let start := max now d.free
    let d := { d with readAt := d.readAt ++ [start] }
    match d.script with
    | [] => ([], d)
    | reaction :: later =>
      let moment := start + reaction.delay
      let pong := match reaction.pong with
        | some offset => (Message.pong (pongSeq seq offset)).encode
        | none => []
      let (events, d) := d.deliver moment (reaction.bytes ++ pong) reaction.hangUp
      (events,
        { d with
          script := if later.isEmpty then [reaction] else later
          free := moment
          gone := if reaction.hangUp then some moment else none })

def readAll (now : Nat) (d : Double) : Incoming × Double :=
  d.unread.foldl (fun (incoming, d) seq =>
    let (events, d) := read now d seq
    (incoming ++ events, d)) ([], { d with unread := [] })

def pings (d : Double) (now : Nat) : Nat := (d.readAt.filter (· ≤ now)).length

end Double

/-- A control link and the double at its other end, if anybody plays it. -/
structure Line where
  role : Role
  link : ControlLink
  double : Double
  /-- Whether this line is the one that its role is reached by. -/
  current : Bool

namespace Line

def new (role : Role) (script : List Reaction) (gone : Bool) : Line :=
  ⟨role, .new (if gone then .broken else .lasting), .new script, true⟩

/-- Lets the double read what waits, while the monitoring side sleeps. -/
def settle (now : Nat) (l : Line) : Line :=
  let (events, double) := l.double.readAll now
  { l with link := { l.link with incoming := l.link.incoming ++ events }, double := double }

/-- Writes a ping. A double that has hung up takes none. -/
def write (now : Nat) (l : Line) : Bool × Line :=
  let hungUp := l.double.gone.any (· ≤ now)
  let link := if hungUp then { l.link with writer := l.link.writer.sever } else l.link
  match link.write with
  | (.error _, link) => (false, { l with link := link })
  | (.ok (), link) =>
    (true, { l with link := link, double := { l.double with unread := l.double.unread ++ [link.seq] } })

/-- Leaves every role with its last line; the links of the others are given up. -/
def enlist (lines : List Line) : List Line :=
  lines.zipIdx.map fun (l, place) => { l with current := !(lines.drop (place + 1)).any (·.role = l.role) }

end Line

/-! ### The stage -/

inductive Event where
  | publish (e : Entry)
  | withdraw (e : Entry)
  | reset
  | failRefresh (on : Bool)
  | failPublish (on : Bool)
  | failWithdraw (on : Bool)
  | cancel
  deriving DecidableEq, Repr

structure Stage where
  now : Nat
  listing : Listing
  refusesRefresh : Bool
  refusesPublish : Bool
  refusesWithdraw : Bool
  refusesKill : Bool
  cancelled : Bool
  events : List (Nat × Event)
  lines : List Line
  kills : List (Nat × List Entry)

namespace Stage

def new (listing : Listing) (events : List (Nat × Event)) (lines : List Line) : Stage :=
  ⟨0, listing, false, false, false, false, false, events, lines, []⟩

def happen (e : Event) (s : Stage) : Stage :=
  match e with
  | .publish e => { s with listing := s.listing.publish e }
  | .withdraw e => { s with listing := (s.listing.withdraw e).2 }
  | .reset => { s with listing := [] }
  | .failRefresh on => { s with refusesRefresh := on }
  | .failPublish on => { s with refusesPublish := on }
  | .failWithdraw on => { s with refusesWithdraw := on }
  | .cancel => { s with cancelled := true }

/-- Lets everything happen that is due up to a moment, and moves the clock there. -/
def moveTo (moment : Nat) (s : Stage) : Stage :=
  let due := s.events.takeWhile fun e => e.1 ≤ moment
  let s := due.foldl (fun s e => s.happen e.2) { s with events := s.events.drop due.length }
  { s with now := max s.now moment }

def settle (s : Stage) : Stage := { s with lines := s.lines.map (Line.settle s.now) }

/-- Sleeps; a sleep of no length gives nobody else a turn. -/
def sleep (millis : Nat) (s : Stage) : Stage := if millis = 0 then s else s.settle.moveTo (s.now + millis)

def refused (operation : String) : SystemError := .malformed (.refused operation)

def refresh (s : Stage) : Except SystemError (List Entry) :=
  if s.refusesRefresh then .error (refused "refresh") else .ok s.listing

def publish (e : Entry) (s : Stage) : Except SystemError Unit × Stage :=
  if s.refusesPublish then (.error (refused "publish"), s) else (.ok (), s.happen (.publish e))

def withdraw (e : Entry) (s : Stage) : Except SystemError Bool × Stage :=
  if s.refusesWithdraw then (.error (refused "withdraw"), s)
  else (.ok (s.listing.contains e), s.happen (.withdraw e))

def line? (role : Role) (s : Stage) : Option (Line × Nat) :=
  s.lines.zipIdx.find? fun l => l.1.role = role ∧ l.1.current

def setLine (place : Nat) (l : Line) (s : Stage) : Stage := { s with lines := s.lines.set place l }

/-- Probes a role. What has come in before is read first; then the doubles get their turn. -/
def probe (role : Role) (timeout : Nat) (s : Stage) : Heartbeat.Outcome × Stage :=
  match s.line? role with
  | none => (.unreachable, s)
  | some (l, place) =>
    match l.write s.now with
    | (false, l) => (.disconnected, s.setLine place l)
    | (true, l) =>
      let (outcome, _, link) := l.link.wait s.now s.now
      let s := s.setLine place { l with link := link }
      if outcome ≠ .timedOut ∨ timeout = 0 then (outcome, s)
      else
        let s := s.settle
        match s.lines[place]? with
        | none => (.unreachable, s)
        | some l =>
          let (outcome, moment, link) := l.link.wait s.now (s.now + timeout)
          (outcome, (s.setLine place { l with link := link }).moveTo moment)

def cancelMoment (s : Stage) : Option Nat := (s.events.find? fun e => e.2 = .cancel).map Prod.fst

def pause (millis : Nat) (s : Stage) : Bool × Stage :=
  if s.cancelled then (true, s)
  else match s.cancelMoment with
    | some moment =>
      if moment < s.now + millis then (true, s.settle.moveTo moment) else (false, s.sleep millis)
    | none => (false, s.sleep millis)

def kill (members : List Entry) (s : Stage) : Except SystemError Unit × Stage :=
  let s := { s with kills := s.kills ++ [(s.now, members)] }
  (if s.refusesKill then .error (refused "kill") else .ok (), s)

def surroundings : Detector.Surroundings Stage where
  publish := publish
  withdraw := withdraw
  refresh s := (s.refresh, s)
  probe := probe
  pause := pause
  kill := kill
  now := Stage.now

def lookout : Lookout Stage where
  lookup role s := (s.refresh.map (Registry.find? role), s)
  pause := sleep
  now := Stage.now

def pings (s : Stage) : List Nat := s.lines.map fun l => l.double.pings s.now

end Stage

/-! ### Plays -/

/-- No play lasts longer than this many milliseconds. -/
def limit : Nat := 600000

/-- More steps than a play has before the limit. -/
def patience : Nat := 4000000

def detect (d : Detector) (s : Stage) : Detector × Stage := Detector.runUntil Stage.surroundings limit patience d s

/-- Looks for a role, and gives up at the limit. -/
def find (role : Role) (backoff : Nat) (s : Stage) : Option Pid × Stage :=
  discover Stage.lookout role backoff limit patience s

/-- Joins the registry: the supervisor found and the outcome of publishing. -/
def join (e : Entry) (backoff : Nat) (s : Stage) : Option (Except SystemError Pid) × Stage :=
  match find .supervisor backoff s with
  | (none, s) => (none, s)
  | (some supervisor, s) =>
    let (answer, s) := s.publish e
    (some (answer.map fun () => supervisor), s)

end Rehearsal
end GridFlight
