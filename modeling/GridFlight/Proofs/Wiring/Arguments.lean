import GridFlight.Proofs.Wiring.Handles
import Mathlib.Data.List.Basic

/-! The command lines that a session gives to its parts, read back. A value stands behind its option, and no option can
    be taken for a value, so a command line can be cut before every option and read piece by piece. The texts that the
    user chooses are values of options that concern no pipe. -/

namespace GridFlight
namespace Session

/-! ### Reading command lines -/

/-- The options whose values are handles. -/
def handleOptions : List String := ["--rx", "--tx", "--heartbeat-rx", "--heartbeat-tx", "--exit-rx", "--supervisor-tx"]

/-- The options whose values are links. -/
def linkOptions : List String := ["--link", "--control"]

/-- The options that concern no pipe. -/
def plainOptions : List String :=
  ["--registry", "--log-dir", "--seed", "--verbose", "--log-stderr", "--headless", "--probe-timeout-ms"]

/-- The words on a command line that are no values. -/
def names : List String := handleOptions ++ linkOptions ++ plainOptions ++ Role.all.map Role.name

section
variable {α : Type} {read : String → Option α} {option : String} {left right : List String} {a b : List α}

/-- The values of an option: the words behind it, as far as they can be read. -/
def valuesAfter (read : String → Option α) (option : String) : List String → List α
  | word :: value :: args =>
    (if word = option then (read value).toList else []) ++ valuesAfter read option (value :: args)
  | _ => []

/-- Arguments that begin with no value, and give these values to an option. -/
structure Yields (read : String → Option α) (option : String) (args : List String) (values : List α) : Prop where
  opens : ∀ word ∈ args.head?, read word = none
  values : valuesAfter read option args = values

/-- A command line can be cut before a word that is no value. -/
theorem valuesAfter_append (left : List String) (h : ∀ word ∈ right.head?, read word = none) :
    valuesAfter read option (left ++ right) = valuesAfter read option left ++ valuesAfter read option right := by
  induction left with
  | nil => rfl
  | cons word left ih =>
    cases left with
    | nil =>
      cases right with
      | nil => rfl
      | cons value right =>
        have hvalue : read value = none := h value rfl
        simp [valuesAfter, hvalue]
    | cons value left =>
      rw [List.cons_append, List.cons_append, valuesAfter, ← List.cons_append, ih, valuesAfter, List.append_assoc]

theorem Yields.append (hleft : Yields read option left a) (hright : Yields read option right b) :
    Yields read option (left ++ right) (a ++ b) := by
  refine ⟨?_, by rw [valuesAfter_append left hright.opens, hleft.values, hright.values]⟩
  cases left with
  | nil => exact hright.opens
  | cons word left => exact hleft.opens

variable (option)

theorem yields_nil : Yields read option [] [] := ⟨nofun, rfl⟩

theorem yields_word {name : String} (hname : read name = none) : Yields read option [name] [] := by
  refine ⟨?_, rfl⟩
  rintro _ ⟨⟩
  exact hname

theorem yields_pair {name : String} (hname : read name = none) (value : String) :
    Yields read option [name, value] (if name = option then (read value).toList else []) := by
  refine ⟨?_, List.append_nil _⟩
  rintro _ ⟨⟩
  exact hname

/-! ### Arguments -/

/-- No name can be taken for a value. -/
def RefusesNames (read : String → Option α) : Prop := ∀ name ∈ names, read name = none

theorem refusesNames_handle : RefusesNames fun s => (Handle.read s).toOption := by
  unfold RefusesNames
  decide

theorem refusesNames_link : RefusesNames fun s => (Link.read s).toOption := by
  unfold RefusesNames
  decide

variable (hread : RefusesNames read)
include hread

theorem yields_flag (name : String) (hname : name ∈ names) (p : Bool) :
    Yields read option (if p then [name] else []) [] := by
  cases p with
  | true => exact yields_word option (hread name hname)
  | false => exact yields_nil option

theorem yields_plain (name value : String) (hname : name ∈ plainOptions) (hoption : option ∉ plainOptions) :
    Yields read option [name, value] [] := by
  have hmem : name ∈ names := List.mem_append_left _ (List.mem_append_right _ hname)
  have hne : name ≠ option := fun heq => hoption (heq ▸ hname)
  have h := yields_pair option (hread name hmem) value
  rwa [if_neg hne] at h

/-- The options of the session name no handle, whatever the texts among them are. -/
theorem yields_options (hoption : option ∉ plainOptions) (o : Options) : Yields read option o.args [] := by
  have hregistry := yields_plain option hread "--registry" o.registry (by decide) hoption
  have hdirectory := yields_plain option hread "--log-dir" o.logDirectory (by decide) hoption
  have hseed := yields_plain option hread "--seed" o.seed.toNat.repr (by decide) hoption
  have hverbose := yields_flag option hread "--verbose" (by decide) o.verbose
  have hheadless := yields_flag option hread "--log-stderr" (by decide) o.headless
  exact (((hregistry.append hdirectory).append hseed).append hverbose).append hheadless

theorem yields_link (name : String) (hname : name ∈ linkOptions) (links : List (Role × Duplex)) :
    Yields read option (linkArgs name links)
      (if name = option then links.flatMap fun entry => (read (link entry.1 entry.2).text).toList else []) := by
  have hmem : name ∈ names :=
    List.mem_append_left _ (List.mem_append_left _ (List.mem_append_right _ hname))
  induction links with
  | nil => simpa [linkArgs] using yields_nil option
  | cons entry links ih =>
    have h := (yields_pair option (hread name hmem) (link entry.1 entry.2).text).append ih
    by_cases heq : name = option
    · simpa [linkArgs, heq] using h
    · simpa [linkArgs, heq] using h

theorem yields_heartbeat {w : Wiring} {role : Role} {rx tx : Handle} (h : heartbeat w role = some (rx, tx)) :
    Yields read option (heartbeatArgs w role)
      ((if "--heartbeat-rx" = option then (read rx.text).toList else []) ++
        if "--heartbeat-tx" = option then (read tx.text).toList else []) := by
  rw [heartbeatArgs, h]
  exact (yields_pair option (hread "--heartbeat-rx" (by decide)) rx.text).append
    (yields_pair option (hread "--heartbeat-tx" (by decide)) tx.text)

/-! ### Plans -/

theorem values_supervisorPlan (hoption : option ∉ plainOptions) (w : Wiring) (o : Options) :
    valuesAfter read option (supervisorPlan w o).args =
      (if "--exit-rx" = option then (read w.exit.read.text).toList else []) ++
        if "--control" = option then w.control.flatMap fun entry => (read (link entry.1 entry.2).text).toList
        else [] := by
  have hname : Yields read option ["supervisor"] [] := yields_word option (hread _ (by decide))
  have hexit := yields_pair option (hread "--exit-rx" (by decide)) w.exit.read.text
  have hcontrol := yields_link option hread "--control" (by decide) w.control
  have h (probe : List String) (hprobe : Yields read option probe []) :=
    ((((hname.append (yields_options option hread hoption o)).append hexit).append hprobe).append hcontrol).values
  refine (h _ ?_).trans (by simp)
  cases o.probeMillis with
  | none => exact yields_nil option
  | some n => exact yields_plain option hread "--probe-timeout-ms" n.repr (by decide) hoption

theorem values_coordinatorPlan (hoption : option ∉ plainOptions) {w : Wiring} {rx tx : Handle}
    (hheartbeat : heartbeat w .coordinator = some (rx, tx)) (o : Options) :
    valuesAfter read option (coordinatorPlan w o).args =
      (if "--supervisor-tx" = option then (read w.exit.write.text).toList else []) ++
        (if "--link" = option then w.data.flatMap fun entry => (read (link entry.1 entry.2).text).toList else []) ++
        ((if "--heartbeat-rx" = option then (read rx.text).toList else []) ++
          if "--heartbeat-tx" = option then (read tx.text).toList else []) := by
  have hname : Yields read option ["coordinator"] [] := yields_word option (hread _ (by decide))
  have hflag := yields_flag option hread "--headless" (by decide) o.headless
  have hexit := yields_pair option (hread "--supervisor-tx" (by decide)) w.exit.write.text
  have hdata := yields_link option hread "--link" (by decide) w.data
  have h := ((((hname.append (yields_options option hread hoption o)).append hflag).append hexit).append hdata).append
    (yields_heartbeat option hread hheartbeat)
  exact h.values.trans (by simp)

theorem values_dependentPlan (hoption : option ∉ plainOptions) {w : Wiring} {role : Role} {rx tx : Handle}
    (hheartbeat : heartbeat w role = some (rx, tx)) (o : Options) (d : Duplex) :
    valuesAfter read option (dependentPlan w o role d).args =
      ((if "--rx" = option then (read d.toPart.read.text).toList else []) ++
        if "--tx" = option then (read d.fromPart.write.text).toList else []) ++
        ((if "--heartbeat-rx" = option then (read rx.text).toList else []) ++
          if "--heartbeat-tx" = option then (read tx.text).toList else []) := by
  have hmem : role.name ∈ names := List.mem_append_right _ (List.mem_map_of_mem (Role.mem_all role))
  have hrx := yields_pair option (hread "--rx" (by decide)) d.toPart.read.text
  have htx := yields_pair option (hread "--tx" (by decide)) d.fromPart.write.text
  have h := (((yields_word option (hread _ hmem)).append (yields_options option hread hoption o)).append
    (hrx.append htx)).append (yields_heartbeat option hread hheartbeat)
  exact h.values

end

/-! ### Handles and links -/

def handlesAfter (option : String) (args : List String) : List Handle :=
  valuesAfter (fun s => (Handle.read s).toOption) option args

def linksAfter (option : String) (args : List String) : List Link :=
  valuesAfter (fun s => (Link.read s).toOption) option args

/-- All handles that a command line names, those inside links included. -/
def named (args : List String) : List Handle :=
  handleOptions.flatMap (handlesAfter · args) ++ (linkOptions.flatMap (linksAfter · args)).flatMap Link.handles

theorem named_eq {args : List String} {handles : String → List Handle} {links : String → List Link}
    (hhandles : ∀ option ∈ handleOptions, handlesAfter option args = handles option)
    (hlinks : ∀ option ∈ linkOptions, linksAfter option args = links option) :
    named args = handleOptions.flatMap handles ++ (linkOptions.flatMap links).flatMap Link.handles := by
  rw [named, List.flatMap_congr hhandles, List.flatMap_congr hlinks]

end Session
end GridFlight
