import GridFlight.Registry.Disk
import GridFlight.Registry.Entry
import GridFlight.Text.Utf8

/-! A registry held in a file. An entry is appended under an exclusive lock. A withdrawal writes the file anew under
    an exclusive lock, and only if some line holds the entry; reading takes a shared lock. A file that cannot be
    opened for reading counts as empty. -/

namespace GridFlight
namespace Registry
namespace File

open Disk (Routine)
open Disk.Routine (attempt locked)

/-- Empties the registry, and makes the directory that it lies in. -/
def reset : Routine (Except SystemError Unit) :=
  attempt .makeParent (attempt .create (.done (.ok ())))

def publish (e : Entry) : Routine (Except SystemError Unit) :=
  attempt .openAppend (locked .lockExclusive
    (attempt (.append (Utf8.encode e.line)) (attempt .flush (.done (.ok ())))))

def without (e : Entry) (text : List Char) : List (List Char) :=
  (linesOf text).filter fun line => Entry.ofLine? line != some e

def holds (e : Entry) (text : List Char) : Bool := (linesOf text).any fun line => Entry.ofLine? line == some e

/-- Strikes an entry out of an open file. -/
def strike (e : Entry) (text : List Char) : Routine (Except SystemError Bool) :=
  if holds e text then
    let kept := Utf8.encode (String.ofList (without e text).flatten)
    attempt .truncate (attempt .rewind (attempt (.write kept) (attempt .flush (.done (.ok true)))))
  else .done (.ok false)

/-- Removes every line that holds the entry. The flag says whether there was one. -/
def withdraw (e : Entry) : Routine (Except SystemError Bool) :=
  .act .openReadWrite fun
    | .failed .noSuchFile => .done (.ok false)
    | .failed cause => .done (.error (.io cause))
    | _ => locked .lockExclusive <| .act .read fun
      | .failed cause => .done (.error (.io cause))
      | .done => strike e []
      | .content bytes =>
        match Utf8.decode? bytes with
        | none => .done (.error (.io .notUtf8))
        | some text => strike e text.toList

def refresh : Routine (Except SystemError (List Entry)) :=
  .act .openRead fun
    | .failed _ => .done (.ok [])
    | _ => locked .lockShared <| .act .read fun
      | .failed cause => .done (.error (.io cause))
      | .done => .done (.ok [])
      | .content bytes =>
        match Utf8.decode? bytes with
        | none => .done (.error (.io .notUtf8))
        | some text => .done (.ok (snapshot text))

def lookup (role : Role) (p : Disk.Place) : Except SystemError (Option Pid) :=
  (refresh.run p).1.map (find? role)

end File
end Registry
end GridFlight
