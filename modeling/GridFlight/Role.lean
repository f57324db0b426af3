/-! The parts that take part in a flight, with their names on the command line, in the registry and in documents. -/

namespace GridFlight

inductive Role where
  | supervisor
  | coordinator
  | physics
  | obstacles
  | targets
  | relay
  deriving DecidableEq, Repr

namespace Role

def all : List Role := [supervisor, coordinator, physics, obstacles, targets, relay]

theorem mem_all (r : Role) : r ∈ all := by cases r <;> decide

/-- The short name, which is also that of the log file. -/
def name : Role → String
  | supervisor => "supervisor"
  | coordinator => "coordinator"
  | physics => "physics"
  | obstacles => "obstacles"
  | targets => "targets"
  | relay => "relay"

/-- The tag in front of a registry line. -/
def tag : Role → String
  | supervisor => "SUPERVISOR_PID"
  | coordinator => "COORDINATOR_PID"
  | physics => "PHYSICS_PID"
  | obstacles => "OBSTACLE_PID"
  | targets => "TARGET_PID"
  | relay => "RELAY_PID"

/-- The name in documents. -/
def longName : Role → String
  | obstacles => "obstacle_generator"
  | targets => "target_generator"
  | r => r.name

def ofTag? (s : String) : Option Role := all.find? fun r => r.tag == s

def ofName? (s : String) : Option Role := all.find? fun r => r.name == s || r.tag == s

theorem ofTag?_tag (r : Role) : ofTag? r.tag = some r := by cases r <;> decide

theorem ofName?_name (r : Role) : ofName? r.name = some r := by cases r <;> decide

end Role
end GridFlight
