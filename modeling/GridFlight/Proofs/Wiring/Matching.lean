import GridFlight.Proofs.Wiring.Arguments
import Mathlib.Data.List.Nodup
import Mathlib.Data.List.Pairwise
import Mathlib.Data.List.Perm.Basic

/-! The wiring of a session as a matching. On the command line of each part stand the handles that the part is given,
    and no others, whatever else stands there. Each end of each pipe is given to one part, and the two ends of a pipe
    to the two parts that it joins. -/

namespace GridFlight

/-! ### Ends of pipes -/

def Duplex.ends (d : Duplex) : List Handle := [d.toPart.read, d.toPart.write, d.fromPart.read, d.fromPart.write]

namespace Wiring

variable (w : Wiring)

/-- All ends of all pipes. -/
def ends : List Handle := (w.data ++ w.control).flatMap (fun entry => entry.2.ends) ++ [w.exit.read, w.exit.write]

theorem data_roles : w.data.map Prod.fst = dependents := rfl

theorem control_roles : w.control.map Prod.fst = monitored := rfl

variable {w}

theorem exists_control {role : Role} (h : role ∈ monitored) : ∃ d, (role, d) ∈ w.control := by
  rw [← control_roles w] at h
  obtain ⟨⟨_, d⟩, hd, rfl⟩ := List.mem_map.mp h
  exact ⟨d, hd⟩

theorem exists_coordinator (w : Wiring) : ∃ d, (.coordinator, d) ∈ w.control := exists_control (by decide)

theorem exists_data {role : Role} (h : role ∈ dependents) : ∃ d, (role, d) ∈ w.data := by
  rw [← data_roles w] at h
  obtain ⟨⟨_, d⟩, hd, rfl⟩ := List.mem_map.mp h
  exact ⟨d, hd⟩

theorem monitored_of_data {role : Role} {d : Duplex} (h : (role, d) ∈ w.data) : role ∈ monitored := by
  have hrole : role ∈ w.data.map Prod.fst := List.mem_map_of_mem h
  rw [data_roles] at hrole
  exact List.mem_cons_of_mem _ hrole

theorem mem_ends_of_data {role : Role} {d : Duplex} (hd : (role, d) ∈ w.data) {h : Handle} (hh : h ∈ d.ends) :
    h ∈ w.ends :=
  List.mem_append_left _ (List.mem_flatMap.mpr ⟨(role, d), List.mem_append_left _ hd, hh⟩)

theorem mem_ends_of_control {role : Role} {d : Duplex} (hd : (role, d) ∈ w.control) {h : Handle} (hh : h ∈ d.ends) :
    h ∈ w.ends :=
  List.mem_append_left _ (List.mem_flatMap.mpr ⟨(role, d), List.mem_append_right _ hd, hh⟩)

end Wiring

namespace Session

/-- The ends that the parts themselves have. -/
def partHandles (links : List (Role × Duplex)) : List Handle :=
  links.flatMap fun entry => [entry.2.toPart.read, entry.2.fromPart.write]

/-- The part in the middle and the part at the other side share out the ends of their pipes. -/
theorem linkHandles_append_partHandles (links : List (Role × Duplex)) :
    (linkHandles links ++ partHandles links).Perm (links.flatMap fun entry => entry.2.ends) := by
  refine (List.flatMap_append_perm links _ _).trans (List.Perm.flatMap_left links fun entry _ => ?_)
  refine List.perm_iff_count.mpr fun h => ?_
  simp only [link, Link.handles, Duplex.ends, Option.toList_some, List.count_append, List.count_cons, List.count_nil]
  omega

/-- A role that has two pipes is found with them. -/
theorem find?_role {links : List (Role × Duplex)} (hnodup : (links.map Prod.fst).Nodup) {role : Role} {d : Duplex}
    (h : (role, d) ∈ links) : links.find? (fun entry => entry.1 = role) = some (role, d) := by
  induction links with
  | nil => cases h
  | cons entry links ih =>
    obtain ⟨hfresh, hnodup⟩ := List.nodup_cons.mp hnodup
    rcases List.mem_cons.mp h with rfl | hlater
    · exact List.find?_cons_of_pos (decide_eq_true rfl)
    · have hother : entry.1 ≠ role := by
        rintro rfl
        exact hfresh (List.mem_map.mpr ⟨(entry.1, d), hlater, rfl⟩)
      rw [List.find?_cons_of_neg (by simpa using hother)]
      exact ih hnodup hlater

variable {w : Wiring}

theorem heartbeat_of_mem {role : Role} {d : Duplex} (h : (role, d) ∈ w.control) :
    heartbeat w role = some (d.toPart.read, d.fromPart.write) := by
  have hnodup : (w.control.map Prod.fst).Nodup := by
    rw [Wiring.control_roles]
    decide
  rw [heartbeat, find?_role hnodup h]
  rfl

/-- The coordinator and its dependents are the monitored parts. -/
theorem heartbeatHandles_append (w : Wiring) :
    heartbeatHandles w .coordinator ++ w.data.flatMap (fun entry => heartbeatHandles w entry.1) =
      partHandles w.control := by
  calc heartbeatHandles w .coordinator ++ w.data.flatMap (fun entry => heartbeatHandles w entry.1)
      = (Role.coordinator :: w.data.map Prod.fst).flatMap (heartbeatHandles w) := by
        rw [List.flatMap_cons, List.flatMap_map]
    _ = (w.control.map Prod.fst).flatMap (heartbeatHandles w) := rfl
    _ = partHandles w.control := by
        rw [List.flatMap_map]
        refine List.flatMap_congr fun entry hentry => ?_
        rw [heartbeatHandles, heartbeat_of_mem hentry]

/-- The handles of all parts together are the ends of all pipes. -/
theorem handles_perm_ends (w : Wiring) (o : Options) : ((plans w o).flatMap Plan.handles).Perm w.ends := by
  have hdata := linkHandles_append_partHandles w.data
  have hcontrol := linkHandles_append_partHandles w.control
  have hheartbeat := heartbeatHandles_append w
  have hdependents : ((w.data.map fun entry => dependentPlan w o entry.1 entry.2).flatMap Plan.handles).Perm
      (partHandles w.data ++ w.data.flatMap fun entry => heartbeatHandles w entry.1) := by
    rw [List.flatMap_map]
    exact (List.flatMap_append_perm _ _ _).symm
  refine List.perm_iff_count.mpr fun h => ?_
  have hdata := hdata.count_eq h
  have hcontrol := hcontrol.count_eq h
  have hheartbeat := congrArg (List.count h) hheartbeat
  have hdependents := hdependents.count_eq h
  simp only [List.count_append] at hdata hcontrol hheartbeat hdependents
  simp only [plans, supervisorPlan, coordinatorPlan, Wiring.ends, List.flatMap_cons, List.flatMap_append,
    List.count_append, List.count_cons, List.count_nil]
  omega

/-! ### Handles and links on the command lines -/

theorem toList_read_text {h : Handle} (hnonneg : 0 ≤ h.val) : (Handle.read h.text).toOption.toList = [h] := by
  rw [Handle.read_text hnonneg]
  rfl

theorem flatMap_read_link {links : List (Role × Duplex)} (hnonneg : ∀ entry ∈ links, ∀ h ∈ entry.2.ends, 0 ≤ h.val) :
    links.flatMap (fun entry => (Link.read (link entry.1 entry.2).text).toOption.toList) =
      links.map fun entry => link entry.1 entry.2 := by
  rw [List.map_eq_flatMap]
  refine List.flatMap_congr fun entry hentry => ?_
  have hends : ∀ h ∈ (link entry.1 entry.2).handles, 0 ≤ h.val := by
    intro h hh
    refine hnonneg entry hentry h ?_
    simp only [link, Link.handles, Option.toList_some, List.singleton_append, List.mem_cons, List.not_mem_nil,
      or_false] at hh
    rcases hh with rfl | rfl <;> simp [Duplex.ends]
  have hsome : (link entry.1 entry.2).handles ≠ [] := List.cons_ne_nil _ _
  rw [Link.read_text hsome hends]
  rfl

section
variable (hnonneg : ∀ h ∈ w.ends, 0 ≤ h.val)
include hnonneg

theorem nonneg_of_data {role : Role} {d : Duplex} (hd : (role, d) ∈ w.data) : ∀ h ∈ d.ends, 0 ≤ h.val :=
  fun h hh => hnonneg h (Wiring.mem_ends_of_data hd hh)

theorem nonneg_of_control {role : Role} {d : Duplex} (hd : (role, d) ∈ w.control) : ∀ h ∈ d.ends, 0 ≤ h.val :=
  fun h hh => hnonneg h (Wiring.mem_ends_of_control hd hh)

theorem handlesAfter_supervisorPlan {option : String} (hoption : option ∈ handleOptions) (o : Options) :
    handlesAfter option (supervisorPlan w o).args = if "--exit-rx" = option then [w.exit.read] else [] := by
  have hother : ∀ name ∈ handleOptions, name ∉ plainOptions ∧ "--control" ≠ name := by decide
  obtain ⟨hplain, hcontrol⟩ := hother option hoption
  have hexit := toList_read_text (hnonneg w.exit.read (by simp [Wiring.ends]))
  rw [handlesAfter, values_supervisorPlan option refusesNames_handle hplain w o, hexit, if_neg hcontrol,
    List.append_nil]

theorem linksAfter_supervisorPlan {option : String} (hoption : option ∈ linkOptions) (o : Options) :
    linksAfter option (supervisorPlan w o).args =
      if "--control" = option then w.control.map fun entry => link entry.1 entry.2 else [] := by
  have hother : ∀ name ∈ linkOptions, name ∉ plainOptions ∧ "--exit-rx" ≠ name := by decide
  obtain ⟨hplain, hexit⟩ := hother option hoption
  have hlinks := flatMap_read_link fun entry hentry => nonneg_of_control hnonneg hentry
  rw [linksAfter, values_supervisorPlan option refusesNames_link hplain w o, hlinks, if_neg hexit, List.nil_append]

theorem named_supervisorPlan (o : Options) : named (supervisorPlan w o).args = (supervisorPlan w o).handles := by
  rw [named_eq (fun option hoption => handlesAfter_supervisorPlan hnonneg hoption o)
    fun option hoption => linksAfter_supervisorPlan hnonneg hoption o]
  simp [handleOptions, linkOptions, supervisorPlan, linkHandles, List.flatMap_map]

theorem handlesAfter_coordinatorPlan {d : Duplex} (hd : (.coordinator, d) ∈ w.control) {option : String}
    (hoption : option ∈ handleOptions) (o : Options) :
    handlesAfter option (coordinatorPlan w o).args =
      (if "--supervisor-tx" = option then [w.exit.write] else []) ++
        ((if "--heartbeat-rx" = option then [d.toPart.read] else []) ++
          if "--heartbeat-tx" = option then [d.fromPart.write] else []) := by
  have hother : ∀ name ∈ handleOptions, name ∉ plainOptions ∧ "--link" ≠ name := by decide
  obtain ⟨hplain, hlink⟩ := hother option hoption
  have hends := nonneg_of_control hnonneg hd
  have hexit := toList_read_text (hnonneg w.exit.write (by simp [Wiring.ends]))
  have hrx := toList_read_text (hends d.toPart.read (by simp [Duplex.ends]))
  have htx := toList_read_text (hends d.fromPart.write (by simp [Duplex.ends]))
  rw [handlesAfter, values_coordinatorPlan option refusesNames_handle hplain (heartbeat_of_mem hd) o, hexit, hrx, htx,
    if_neg hlink, List.append_nil]

theorem linksAfter_coordinatorPlan {d : Duplex} (hd : (.coordinator, d) ∈ w.control) {option : String}
    (hoption : option ∈ linkOptions) (o : Options) :
    linksAfter option (coordinatorPlan w o).args =
      if "--link" = option then w.data.map fun entry => link entry.1 entry.2 else [] := by
  have hother : ∀ name ∈ linkOptions, name ∉ plainOptions ∧ "--supervisor-tx" ≠ name ∧ "--heartbeat-rx" ≠ name ∧
      "--heartbeat-tx" ≠ name := by decide
  obtain ⟨hplain, hexit, hrx, htx⟩ := hother option hoption
  have hlinks := flatMap_read_link fun entry hentry => nonneg_of_data hnonneg hentry
  rw [linksAfter, values_coordinatorPlan option refusesNames_link hplain (heartbeat_of_mem hd) o, hlinks, if_neg hexit,
    if_neg hrx, if_neg htx, List.nil_append, List.append_nil, List.append_nil]

theorem named_coordinatorPlan {d : Duplex} (hd : (.coordinator, d) ∈ w.control) (o : Options) :
    (named (coordinatorPlan w o).args).Perm (coordinatorPlan w o).handles := by
  have hheartbeat : heartbeatHandles w .coordinator = [d.toPart.read, d.fromPart.write] := by
    rw [heartbeatHandles, heartbeat_of_mem hd]
  have hnamed : named (coordinatorPlan w o).args =
      heartbeatHandles w .coordinator ++ (w.exit.write :: linkHandles w.data) := by
    rw [named_eq (fun option hoption => handlesAfter_coordinatorPlan hnonneg hd hoption o)
      fun option hoption => linksAfter_coordinatorPlan hnonneg hd hoption o, hheartbeat]
    simp [handleOptions, linkOptions, linkHandles, List.flatMap_map]
  rw [hnamed]
  exact List.perm_append_comm

theorem handlesAfter_dependentPlan {role : Role} {d e : Duplex} (hd : (role, d) ∈ w.data) (he : (role, e) ∈ w.control)
    {option : String} (hoption : option ∈ handleOptions) (o : Options) :
    handlesAfter option (dependentPlan w o role d).args =
      ((if "--rx" = option then [d.toPart.read] else []) ++ if "--tx" = option then [d.fromPart.write] else []) ++
        ((if "--heartbeat-rx" = option then [e.toPart.read] else []) ++
          if "--heartbeat-tx" = option then [e.fromPart.write] else []) := by
  have hplain : ∀ name ∈ handleOptions, name ∉ plainOptions := by decide
  have hdata := nonneg_of_data hnonneg hd
  have hcontrol := nonneg_of_control hnonneg he
  rw [handlesAfter, values_dependentPlan option refusesNames_handle (hplain option hoption) (heartbeat_of_mem he) o d,
    toList_read_text (hdata d.toPart.read (by simp [Duplex.ends])),
    toList_read_text (hdata d.fromPart.write (by simp [Duplex.ends])),
    toList_read_text (hcontrol e.toPart.read (by simp [Duplex.ends])),
    toList_read_text (hcontrol e.fromPart.write (by simp [Duplex.ends]))]

theorem named_dependentPlan {role : Role} {d e : Duplex} (hd : (role, d) ∈ w.data) (he : (role, e) ∈ w.control)
    (o : Options) : named (dependentPlan w o role d).args = (dependentPlan w o role d).handles := by
  have hother : ∀ name ∈ linkOptions, name ∉ plainOptions ∧ "--rx" ≠ name ∧ "--tx" ≠ name ∧
      "--heartbeat-rx" ≠ name ∧ "--heartbeat-tx" ≠ name := by decide
  have hlinks : ∀ option ∈ linkOptions, linksAfter option (dependentPlan w o role d).args = [] := by
    intro option hoption
    obtain ⟨hplain, hrx, htx, hheartbeatRx, hheartbeatTx⟩ := hother option hoption
    rw [linksAfter, values_dependentPlan option refusesNames_link hplain (heartbeat_of_mem he) o d, if_neg hrx,
      if_neg htx, if_neg hheartbeatRx, if_neg hheartbeatTx]
    rfl
  rw [named_eq (fun option hoption => handlesAfter_dependentPlan hnonneg hd he hoption o) hlinks]
  simp [handleOptions, linkOptions, dependentPlan, heartbeatHandles, heartbeat_of_mem he]

end

/-! ### The matching -/

/-- The part in the middle has a link to a part under its role, and this part has the other ends of the two pipes. -/
def Joined (plans : List Plan) (middle : Role) (option rx tx : String) (role : Role) (d : Duplex) : Prop :=
  ∃ p ∈ plans, ∃ q ∈ plans, p.role = middle ∧ q.role = role ∧
    ⟨role, some d.fromPart.read, some d.toPart.write⟩ ∈ linksAfter option p.args ∧
    handlesAfter rx q.args = [d.toPart.read] ∧ handlesAfter tx q.args = [d.fromPart.write]

/-- The ends of the pipes are shared out among the parts, and the parts are told so. -/
structure Matched (w : Wiring) (plans : List Plan) : Prop where
  roles : plans.map Plan.role = [.supervisor, .coordinator, .physics, .obstacles, .targets]
  /-- The handles on the command line of a part are those that it is given. -/
  named : ∀ p ∈ plans, (named p.args).Perm p.handles
  /-- No handle is given away but the ends of pipes. -/
  ends : (plans.flatMap Plan.handles).Perm w.ends
  /-- Each end is given to one part. -/
  single : ∀ h ∈ w.ends, ∃! p, p ∈ plans ∧ h ∈ p.handles
  data : ∀ role d, (role, d) ∈ w.data → Joined plans .coordinator "--link" "--rx" "--tx" role d
  control : ∀ role d, (role, d) ∈ w.control →
    Joined plans .supervisor "--control" "--heartbeat-rx" "--heartbeat-tx" role d
  exit : ∃ p ∈ plans, ∃ q ∈ plans, p.role = .supervisor ∧ q.role = .coordinator ∧
    handlesAfter "--exit-rx" p.args = [w.exit.read] ∧ handlesAfter "--supervisor-tx" q.args = [w.exit.write]

theorem single_of_nodup {plans : List Plan} (hnodup : (plans.flatMap Plan.handles).Nodup) {h : Handle}
    (hh : h ∈ plans.flatMap Plan.handles) : ∃! p, p ∈ plans ∧ h ∈ p.handles := by
  obtain ⟨p, hp, hhp⟩ := List.mem_flatMap.mp hh
  refine ⟨p, ⟨hp, hhp⟩, fun q ⟨hq, hhq⟩ => ?_⟩
  have hdisjoint := (List.nodup_flatMap.mp hnodup).2
  have hsymm : Std.Symm (Function.onFun List.Disjoint Plan.handles) := ⟨fun _ _ hpq h hq hp => hpq hp hq⟩
  by_contra hne
  exact hdisjoint.forall hq hp hne hhq hhp

theorem mem_plans_of_data {role : Role} {d : Duplex} (h : (role, d) ∈ w.data) (o : Options) :
    dependentPlan w o role d ∈ plans w o :=
  List.mem_cons_of_mem _ (List.mem_cons_of_mem _ (List.mem_map.mpr ⟨(role, d), h, rfl⟩))

theorem named_perm (hnonneg : ∀ h ∈ w.ends, 0 ≤ h.val) (o : Options) {p : Plan} (hp : p ∈ plans w o) :
    (named p.args).Perm p.handles := by
  rcases List.mem_cons.mp hp with rfl | hp
  · rw [named_supervisorPlan hnonneg o]
  rcases List.mem_cons.mp hp with rfl | hp
  · obtain ⟨d, hd⟩ := Wiring.exists_coordinator w
    exact named_coordinatorPlan hnonneg hd o
  · obtain ⟨⟨role, d⟩, hd, rfl⟩ := List.mem_map.mp hp
    obtain ⟨e, he⟩ := Wiring.exists_control (Wiring.monitored_of_data hd)
    rw [named_dependentPlan hnonneg hd he o]

/-- The coordinator and a part that depends on it have the two ends of each pipe between them. -/
theorem joined_data (hnonneg : ∀ h ∈ w.ends, 0 ≤ h.val) (o : Options) {role : Role} {d : Duplex}
    (hd : (role, d) ∈ w.data) : Joined (plans w o) .coordinator "--link" "--rx" "--tx" role d := by
  obtain ⟨e, he⟩ := Wiring.exists_control (Wiring.monitored_of_data hd)
  obtain ⟨c, hc⟩ := Wiring.exists_coordinator w
  refine ⟨coordinatorPlan w o, List.mem_cons_of_mem _ List.mem_cons_self, dependentPlan w o role d,
    mem_plans_of_data hd o, rfl, rfl, ?_, ?_, ?_⟩
  · rw [linksAfter_coordinatorPlan hnonneg hc (by decide)]
    exact List.mem_map.mpr ⟨(role, d), hd, rfl⟩
  · rw [handlesAfter_dependentPlan hnonneg hd he (by decide)]
    rfl
  · rw [handlesAfter_dependentPlan hnonneg hd he (by decide)]
    rfl

/-- The supervisor and a part that it monitors have the two ends of each pipe between them. -/
theorem joined_control (hnonneg : ∀ h ∈ w.ends, 0 ≤ h.val) (o : Options) {role : Role} {d : Duplex}
    (hd : (role, d) ∈ w.control) :
    Joined (plans w o) .supervisor "--control" "--heartbeat-rx" "--heartbeat-tx" role d := by
  have hlink : link role d ∈ linksAfter "--control" (supervisorPlan w o).args := by
    rw [linksAfter_supervisorPlan hnonneg (by decide)]
    exact List.mem_map.mpr ⟨(role, d), hd, rfl⟩
  have hmonitored : role ∈ Wiring.monitored := Wiring.control_roles w ▸ List.mem_map_of_mem hd
  rcases List.mem_cons.mp hmonitored with rfl | hdependent
  · refine ⟨supervisorPlan w o, List.mem_cons_self, coordinatorPlan w o, List.mem_cons_of_mem _ List.mem_cons_self,
      rfl, rfl, hlink, ?_, ?_⟩
    · rw [handlesAfter_coordinatorPlan hnonneg hd (by decide)]
      rfl
    · rw [handlesAfter_coordinatorPlan hnonneg hd (by decide)]
      rfl
  · obtain ⟨e, he⟩ := Wiring.exists_data (w := w) hdependent
    refine ⟨supervisorPlan w o, List.mem_cons_self, dependentPlan w o role e, mem_plans_of_data he o, rfl, rfl, hlink,
      ?_, ?_⟩
    · rw [handlesAfter_dependentPlan hnonneg he hd (by decide)]
      rfl
    · rw [handlesAfter_dependentPlan hnonneg he hd (by decide)]
      rfl

/-- Whatever handles the ends of the pipes have and whatever the options of the session are, the wiring is a perfect
    matching. -/
theorem plans_matched (o : Options) (hnonneg : ∀ h ∈ w.ends, 0 ≤ h.val) (hnodup : w.ends.Nodup) :
    Matched w (plans w o) where
  roles := rfl
  named _ hp := named_perm hnonneg o hp
  ends := handles_perm_ends w o
  single h hh := by
    have hperm := handles_perm_ends w o
    exact single_of_nodup (hperm.nodup_iff.mpr hnodup) (hperm.mem_iff.mpr hh)
  data _ _ hd := joined_data hnonneg o hd
  control _ _ hd := joined_control hnonneg o hd
  exit := by
    obtain ⟨d, hd⟩ := Wiring.exists_coordinator w
    refine ⟨supervisorPlan w o, List.mem_cons_self, coordinatorPlan w o, List.mem_cons_of_mem _ List.mem_cons_self,
      rfl, rfl, ?_, ?_⟩
    · rw [handlesAfter_supervisorPlan hnonneg (by decide)]
      rfl
    · rw [handlesAfter_coordinatorPlan hnonneg hd (by decide)]
      rfl

/-- The registry and the logs of this session are called like options. -/
theorem plans_matched_counting : ∃ w : Wiring, ∃ o : Options, (∀ h ∈ w.ends, 0 ≤ h.val) ∧ w.ends.Nodup ∧
    o.args = ["--registry", "--rx", "--log-dir", "--link", "--seed", "7", "--log-stderr"] ∧
    (supervisorPlan w o).handles = [⟨31⟩, ⟨17⟩, ⟨16⟩, ⟨21⟩, ⟨20⟩, ⟨25⟩, ⟨24⟩, ⟨29⟩, ⟨28⟩] ∧ Matched w (plans w o) := by
  refine ⟨.ofHandles fun k => ⟨Int32.ofNat (k + 3)⟩, ⟨"--rx", "--link", 7, false, true, none⟩, by decide, by decide,
    by decide, by decide, plans_matched _ (by decide) (by decide)⟩

end Session
end GridFlight
