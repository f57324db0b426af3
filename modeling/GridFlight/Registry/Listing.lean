import GridFlight.Registry.Entry

/-! A registry held in memory: the entries in the order of their publication. -/

namespace GridFlight
namespace Registry

abbrev Listing := List Entry

namespace Listing

def publish (e : Entry) (l : Listing) : Listing := l ++ [e]

/-- Removes every copy of an entry. The flag says whether there was one. -/
def withdraw (e : Entry) (l : Listing) : Bool × Listing := (l.contains e, l.filter (· != e))

def text (l : Listing) : String := String.join (l.map Entry.line)

end Listing
end Registry
end GridFlight
