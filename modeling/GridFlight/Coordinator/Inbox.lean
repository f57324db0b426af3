import GridFlight.Channel

/-! The inbound channels of the coordinator. They stand in a line and are asked from its front. A channel that yields
    something goes to the back; one that has ended says so once, and is given up when it is asked again; one that
    has nothing leaves the line until something arrives for it. -/

namespace GridFlight

inductive Inbound where
  | item (role : Role) (item : Except FrameError Frame)
  | closed (role : Role)

namespace Inbox

inductive Standing where
  | heard
  /-- Its end has been told, and its reading end is gone. -/
  | told
  | removed
  deriving DecidableEq, Repr

structure Channel where
  role : Role
  reader : Frame.Reader
  standing : Standing

inductive Offer where
  | event (event : Inbound)
  | pending
  | exhausted

end Inbox

structure Inbox where
  channels : List Inbox.Channel
  /-- The numbers of the channels in line. -/
  line : List Nat

namespace Inbox

/-- Fresh channels of these roles, all in line. -/
def ofRoles (roles : List Role) : Inbox := ⟨roles.map fun r => ⟨r, .empty, .heard⟩, List.range roles.length⟩

def size (b : Inbox) : Nat := b.channels.countP (·.standing ≠ .removed)

def set (n : Nat) (ch : Channel) (b : Inbox) : Inbox := { b with channels := b.channels.set n ch }

def ask : List Nat → Inbox → Offer × Inbox
  | [], b => (if b.size = 0 then .exhausted else .pending, { b with line := [] })
  | n :: line, b =>
    match b.channels[n]? with
    | none => ask line b
    | some ch =>
      let back := fun (ch : Channel) => { b.set n ch with line := line ++ [n] }
      match ch.standing with
      | .removed => ask line b
      | .told => ask line (b.set n { ch with standing := .removed })
      | .heard =>
        match ch.reader.poll with
        | (.frame f, reader) => (.event (.item ch.role (.ok f)), back { ch with reader := reader })
        | (.error e, reader) => (.event (.item ch.role (.error e)), back { ch with reader := reader })
        | (.ended, reader) => (.event (.closed ch.role), back { ch with reader := reader, standing := .told })
        | (.pending, _) => ask line b

def poll (b : Inbox) : Offer × Inbox := ask b.line b

def hears (b : Inbox) (n : Nat) : Bool := b.channels[n]?.any (·.standing = .heard)

/-- Something arrives for a channel, which brings it back into the line. -/
def arrive (n : Nat) (a : Arrival) (b : Inbox) : Inbox :=
  match b.channels[n]? with
  | none => b
  | some ch =>
    if ch.standing ≠ .heard ∨ a = .bytes [] then b
    else
      let b := b.set n { ch with reader := ch.reader.arrive a }
      if b.line.contains n then b else { b with line := b.line ++ [n] }

end Inbox
end GridFlight
