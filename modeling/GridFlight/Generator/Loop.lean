import GridFlight.Channel
import GridFlight.Generator

/-! A generator at work: it takes in the items of its channel in turn and writes its replies. -/

namespace GridFlight
namespace Generator

structure Loop where
  generator : Generator
  writer : Writer
  ending : Option (Except Fault Unit)

namespace Loop

def new (g : Generator) (w : Writer) : Loop := ⟨g, w, none⟩

/-- Takes in one item. A frame that is no message is passed over. -/
def take (l : Loop) (item : Except FrameError Frame) : Loop :=
  if l.ending.isSome then l
  else match Message.ofItem item with
    | .error e => { l with ending := some (.error (.frame e)) }
    | .ok (.error _) => l
    | .ok (.ok m) =>
      let (reply, generator) := l.generator.handle m
      let l := { l with generator := generator }
      match reply with
      | .stop => { l with ending := some (.ok ()) }
      | .silent => l
      | .send m =>
        match l.writer.send m with
        | (.ok (), writer) => { l with writer := writer }
        | (.error e, writer) => { l with writer := writer, ending := some (.error (.frame e)) }

/-- Takes in a whole stream. Its end is an end without a fault. -/
def run (items : List (Except FrameError Frame)) (l : Loop) : Except Fault Unit × Writer :=
  let l := items.foldl take l
  (l.ending.getD (.ok ()), l.writer)

end Loop
end Generator
end GridFlight
