import GridFlight.Proofs.Registry.Crowd
import Mathlib.Data.Fintype.Basic
import Mathlib.Data.List.Nodup

/-! Calls on a registry in a file that are made at the same time. Whatever the order of their actions, they answer as if
    each had been served alone, one after the other, in the order in which they end; and while nobody holds the
    exclusive lock, the file has the text that they leave in that order. -/

namespace GridFlight
namespace Registry

open Disk (Action Caller Crowd Lock Place Routine)

variable {ι : Type} {call : ι → Request} {order : List ι} {i : ι} {p q : Place} {l m : Listing} {r : Request}
  {x : Caller Response}

/-! ### Calls in turn -/

/-- Calls that are served alone, one after the other: each with its response, and what they leave. -/
def inTurn {σ : Type} (serve : Request → σ → Response × σ) (call : ι → Request) (order : List ι) (s : σ) :
    List (ι × Response) × σ :=
  let (responses, s) := serveAll serve (order.map call) s
  (order.zip responses, s)

section
variable {σ : Type} {serve : Request → σ → Response × σ} {s : σ}

theorem length_serveAll (rs : List Request) (s : σ) : (serveAll serve rs s).1.length = rs.length := by
  induction rs generalizing s with
  | nil => rfl
  | cons r rs ih => simp [serveAll, ih]

theorem serveAll_concat (rs : List Request) (r : Request) (s : σ) :
    serveAll serve (rs ++ [r]) s =
      ((serveAll serve rs s).1 ++ [(serve r (serveAll serve rs s).2).1], (serve r (serveAll serve rs s).2).2) := by
  induction rs generalizing s with
  | nil => rfl
  | cons first rs ih => simp [serveAll, ih]

theorem inTurn_concat (order : List ι) (i : ι) :
    inTurn serve call (order ++ [i]) s =
      ((inTurn serve call order s).1 ++ [(i, (serve (call i) (inTurn serve call order s).2).1)],
        (serve (call i) (inTurn serve call order s).2).2) := by
  have hlength : order.length = (serveAll serve (order.map call) s).1.length := by
    rw [length_serveAll, List.length_map]
  simp only [inTurn, List.map_append, List.map_cons, List.map_nil, serveAll_concat, List.zip_append hlength,
    List.zip_cons_cons, List.zip_nil_left]

theorem map_fst_inTurn (order : List ι) : (inTurn serve call order s).1.map Prod.fst = order := by
  refine List.map_fst_zip ?_
  rw [length_serveAll, List.length_map]

/-- A call that is served once has one response. -/
theorem inTurn_unique (h : order.Nodup) {a b : Response} (ha : (i, a) ∈ (inTurn serve call order s).1)
    (hb : (i, b) ∈ (inTurn serve call order s).1) : a = b := by
  have hnodup : ((inTurn serve call order s).1.map Prod.fst).Nodup := by rwa [map_fst_inTurn]
  exact congrArg Prod.snd (List.inj_on_of_nodup_map hnodup ha hb rfl)

end

theorem Holds.inTurn (h : Holds p l) (call : ι → Request) (order : List ι) :
    (Registry.inTurn File.serve call order p).1 = (Registry.inTurn Listing.serve call order l).1 ∧
      Holds (Registry.inTurn File.serve call order p).2 (Registry.inTurn Listing.serve call order l).2 := by
  obtain ⟨hresponses, hholds⟩ := h.serveAll (order.map call)
  exact ⟨congrArg order.zip hresponses, hholds⟩

/-! ### One file, one listing -/

theorem Holds.unique (hl : Holds p l) (hm : Holds p m) : l = m := by
  have htext : l.text = m.text := Option.some.inj (hl.text?_eq.symm.trans hm.text?_eq)
  rw [← Listing.snapshot_text l, htext, Listing.snapshot_text]

theorem Holds.of_absent (h : Holds p l) (habsent : p.node = .absent) : p = ⟨true, .absent⟩ ∧ l = [] := by
  obtain ⟨parent, node⟩ := p
  obtain rfl : parent = true := h.parent
  obtain rfl : node = .absent := habsent
  refine ⟨rfl, ?_⟩
  rcases h.node with ⟨-, hl⟩ | hfile
  · exact hl
  · cases hfile

theorem Holds.absent_or_hasFile (h : Holds p l) : p.node = .absent ∨ p.HasFile :=
  h.node.imp And.left fun hfile => ⟨_, hfile⟩

theorem Entry.isWhole_line (e : Entry) : isWhole e.line.toList = true := by
  rw [isWhole, toList_line, List.getLast?_concat]
  rfl

/-! ### Where a call stands -/

/-- Left alone at this place, a caller answers the request as the listing does, and leaves the file with the listing. -/
def Serves (x : Caller Response) (r : Request) (p : Place) (l : Listing) : Prop :=
  (x.routine.runFrom ⟨p, x.position⟩).1 = (Listing.serve r l).1 ∧
    Holds (x.routine.runFrom ⟨p, x.position⟩).2.place (Listing.serve r l).2

theorem Holds.serves (h : Holds p l) (r : Request) : Serves ⟨r.routine, 0, none⟩ r p l := by
  have hserve := h.serve r
  rw [serve_eq_run] at hserve
  exact hserve

/-- A call that has not ended. Before it has its lock it would serve any listing; with the lock it serves the one that
    the file held when it got the lock. -/
inductive Standing (r : Request) (p : Place) (l : Listing) : Caller Response → Prop where
  | opening {routine : Routine Response} {position : Nat} (hroutine : routine.Opening)
    (hserves : ∀ q m, Holds q m → Serves ⟨routine, position, none⟩ r q m) :
    Standing r p l ⟨routine, position, none⟩
  | waiting {routine : Routine Response} {position : Nat} (hroutine : routine.Waiting) (hfile : p.HasFile)
    (hserves : ∀ q m, Holds q m → q.HasFile → Serves ⟨routine, position, none⟩ r q m) :
    Standing r p l ⟨routine, position, none⟩
  | holding {routine : Routine Response} {position : Nat} {lock : Lock} (hroutine : routine.Holding lock)
    (hfile : p.HasFile) (hserves : Serves ⟨routine, position, some lock⟩ r p l) :
    Standing r p l ⟨routine, position, some lock⟩

theorem Standing.ne_done (h : Standing r p l x) (response : Response) : x.routine ≠ .done response := by
  cases h with
  | opening hroutine | waiting hroutine | holding hroutine => cases hroutine <;> exact nofun

/-- A call without a lock does not mind what happens to the file, as long as it stays there. -/
theorem Standing.elsewhere (h : Standing r p l x) (hlock : x.lock = none) (hfile : p.HasFile → q.HasFile) :
    Standing r q m x := by
  cases h with
  | opening hroutine hserves => exact .opening hroutine hserves
  | waiting hroutine hp hserves => exact .waiting hroutine (hfile hp) hserves
  | holding => cases hlock

theorem Standing.of_absent (h : Standing r p l x) (habsent : p.node = .absent) : x.lock = none := by
  have hnofile : ¬ p.HasFile := by
    rintro ⟨bytes, hfile⟩
    rw [habsent] at hfile
    cases hfile
  cases h with
  | opening => rfl
  | waiting _ hfile | holding _ hfile => exact absurd hfile hnofile

theorem Standing.hasFile (h : Standing r p l x) {lock : Lock} (hlock : x.lock = some lock) : p.HasFile := by
  cases h with
  | opening | waiting => cases hlock
  | holding _ hfile => exact hfile

/-- What a caller serves, it still serves after its next action. -/
theorem Serves.take {action : Action} {next : Disk.Outcome → Routine Response} {position : Nat} {lock : Option Lock}
    (h : Serves ⟨.act action next, position, lock⟩ r p l) {outcome : Disk.Outcome} {o : Disk.Open}
    (hperform : Disk.perform action ⟨p, position⟩ = (outcome, o)) (later : Option Lock) :
    Serves ⟨next outcome, o.position, later⟩ r o.place l := by
  simpa only [Serves, Routine.runFrom, hperform] using h

/-! ### The invariant -/

/-- The calls that have ended did so in this order, with the responses that they have when they are served in turn. -/
structure InOrder (call : ι → Request) (order : List ι) (c : Crowd ι Response) : Prop where
  nodup : order.Nodup
  ended : ∀ i ∈ order, ∃ response position, c.callers i = ⟨.done response, position, none⟩ ∧
    (i, response) ∈ (inTurn Listing.serve call order []).1
  standing : ∀ i, i ∉ order → Standing (call i) c.place (inTurn Listing.serve call order []).2 (c.callers i)
  holds : (∀ i, (c.callers i).lock ≠ some .exclusive) → Holds c.place (inTurn Listing.serve call order []).2
  alone : c.Alone

namespace InOrder

variable {c d : Crowd ι Response}

theorem hasFile (h : InOrder call order c) {lock : Lock} (hlock : (c.callers i).lock = some lock) :
    c.place.HasFile := by
  by_cases hi : i ∈ order
  · obtain ⟨response, position, hcaller, -⟩ := h.ended i hi
    rw [hcaller] at hlock
    cases hlock
  · exact (h.standing i hi).hasFile hlock

theorem absent_or_hasFile (h : InOrder call order c) :
    c.place = ⟨true, .absent⟩ ∧ (inTurn Listing.serve call order []).2 = [] ∨ c.place.HasFile := by
  by_cases hnone : ∀ i, (c.callers i).lock ≠ some .exclusive
  · have hholds := h.holds hnone
    exact hholds.absent_or_hasFile.imp_left hholds.of_absent
  · simp only [ne_eq, not_forall, not_not] at hnone
    obtain ⟨i, hlock⟩ := hnone
    exact Or.inr (h.hasFile hlock)

/-- A caller takes an action that is not its last. -/
theorem go_on (h : InOrder call order c) (hothers : ∀ j, j ≠ i → d.callers j = c.callers j) (halone : d.Alone)
    (hi : i ∉ order) (hcaller : Standing (call i) d.place (inTurn Listing.serve call order []).2 (d.callers i))
    (hrest : ∀ j, j ≠ i → j ∉ order →
      Standing (call j) d.place (inTurn Listing.serve call order []).2 (c.callers j))
    (hholds : (∀ j, (d.callers j).lock ≠ some .exclusive) →
      Holds d.place (inTurn Listing.serve call order []).2) : InOrder call order d where
  nodup := h.nodup
  ended j hj := by
    rw [hothers j fun heq => hi (heq ▸ hj)]
    exact h.ended j hj
  standing j hj := by
    by_cases hji : j = i
    · exact hji ▸ hcaller
    · rw [hothers j hji]
      exact hrest j hji hj
  holds := hholds
  alone := halone

/-- A caller takes its last action, and is the next in the order. -/
theorem finish (h : InOrder call order c) (hothers : ∀ j, j ≠ i → d.callers j = c.callers j) (halone : d.Alone)
    (hi : i ∉ order) {response : Response} {position : Nat} (hcaller : d.callers i = ⟨.done response, position, none⟩)
    (hserves : Serves ⟨.done response, position, none⟩ (call i) d.place (inTurn Listing.serve call order []).2)
    (hrest : ∀ j, j ≠ i → j ∉ order →
      Standing (call j) d.place (Listing.serve (call i) (inTurn Listing.serve call order []).2).2 (c.callers j)) :
    InOrder call (order ++ [i]) d where
  nodup := by
    refine List.nodup_append.mpr ⟨h.nodup, List.nodup_cons.mpr ⟨List.not_mem_nil, List.nodup_nil⟩, fun j hj k hk => ?_⟩
    rintro rfl
    exact hi (List.mem_singleton.mp hk ▸ hj)
  ended j hj := by
    rw [inTurn_concat]
    by_cases hji : j = i
    · subst hji
      refine ⟨response, position, hcaller, List.mem_append_right _ ?_⟩
      rw [← hserves.1]
      exact List.mem_singleton_self _
    · have hold : j ∈ order := (List.mem_append.mp hj).resolve_right fun hj => hji (List.mem_singleton.mp hj)
      obtain ⟨response', position', hcaller', hmem⟩ := h.ended j hold
      exact ⟨response', position', (hothers j hji).trans hcaller', List.mem_append_left _ hmem⟩
  standing j hj := by
    have hji : j ≠ i := fun heq => hj (List.mem_append_right _ (List.mem_singleton.mpr heq))
    rw [inTurn_concat, hothers j hji]
    exact hrest j hji fun hmem => hj (List.mem_append_left _ hmem)
  holds _ := by
    rw [inTurn_concat]
    exact hserves.2
  alone := halone

/-! ### One action -/

section
variable [DecidableEq ι] {action : Action} {next : Disk.Outcome → Routine Response} {position : Nat} {lock : Lock}

theorem take_opening (h : InOrder call order c) (halone : (c.take i action next).Alone) (hi : i ∉ order)
    (hcaller : c.callers i = ⟨.act action next, position, none⟩) (hroutine : (Routine.act action next).Opening)
    (hserves : ∀ q m, Holds q m → Serves ⟨.act action next, position, none⟩ (call i) q m) :
    ∃ later, InOrder call (order ++ later) (c.take i action next) := by
  obtain @⟨_, _, hopens, hopened, hrefused⟩ := hroutine
  have hothers := fun j (hj : j ≠ i) => c.take_other hj action next
  have hlock := Disk.lockAfter_of_opens hopens none
  -- Once the file is open, the call waits for its lock.
  have hwaits : ∀ q, q.HasFile → Standing (call i) q (inTurn Listing.serve call order []).2 ⟨next .done, 0, none⟩ :=
    fun q hq => .waiting hopened hq fun q' m hholds hfile =>
      (hserves q' m hholds).take (Disk.perform_of_opens hopens hfile) none
  rcases h.absent_or_hasFile with ⟨hplace, hnil⟩ | hfile
  · have hholds : Holds c.place (inTurn Listing.serve call order []).2 := by
      rw [hplace, hnil]
      exact ⟨rfl, Or.inl ⟨rfl, rfl⟩⟩
    -- Without a file nobody has come further than this.
    have hrest : ∀ q m j, j ∉ order → Standing (call j) q m (c.callers j) := by
      intro q m j hj
      refine (h.standing j hj).elsewhere ((h.standing j hj).of_absent (by rw [hplace])) ?_
      rintro ⟨bytes, hbytes⟩
      rw [hplace] at hbytes
      cases hbytes
    rcases Disk.perform_of_opens_absent hopens with hperform | hperform
    · obtain ⟨hafter, hself⟩ := Crowd.take_eq hcaller (hplace ▸ hperform) next
      rw [hlock] at hself
      have hmade : Holds (c.take i action next).place (inTurn Listing.serve call order []).2 := by
        rw [hafter, hnil]
        exact ⟨rfl, Or.inr rfl⟩
      refine ⟨[], (List.append_nil order).symm ▸ h.go_on hothers halone hi ?_ (fun j _ => hrest _ _ j) fun _ => hmade⟩
      rw [hself, hafter]
      exact hwaits _ ⟨[], rfl⟩
    · obtain ⟨hafter, hself⟩ := Crowd.take_eq hcaller (hplace ▸ hperform) next
      obtain ⟨response, hdone⟩ := hrefused .noSuchFile
      rw [hlock, hdone] at hself
      have hserved := (hserves _ _ hholds).take (hplace ▸ hperform) none
      rw [hdone, ← hafter] at hserved
      exact ⟨[i], h.finish hothers halone hi hself hserved fun j _ => hrest _ _ j⟩
  · obtain ⟨hafter, hself⟩ := Crowd.take_eq hcaller (Disk.perform_of_opens hopens hfile) next
    rw [hlock] at hself
    refine ⟨[], (List.append_nil order).symm ▸ h.go_on hothers halone hi ?_ (fun j _ hj => ?_) fun hnone => ?_⟩
    · rw [hself, hafter]
      exact hwaits _ hfile
    · rw [hafter]
      exact h.standing j hj
    · rw [hafter]
      refine h.holds fun j => ?_
      by_cases hji : j = i
      · rw [hji, hcaller]
        exact nofun
      · exact hothers j hji ▸ hnone j

theorem take_lock (h : InOrder call order c) (halone : (c.take i lock.taking next).Alone)
    (hgrants : c.Grants i lock.taking) (hi : i ∉ order)
    (hcaller : c.callers i = ⟨.act lock.taking next, position, none⟩) (hnext : (next .done).Holding lock)
    (hfile : c.place.HasFile)
    (hserves : ∀ q m, Holds q m → q.HasFile → Serves ⟨.act lock.taking next, position, none⟩ (call i) q m) :
    InOrder call order (c.take i lock.taking next) := by
  have hnone : ∀ j, (c.callers j).lock ≠ some .exclusive := by
    intro j
    by_cases hji : j = i
    · rw [hji, hcaller]
      exact nofun
    · cases lock with
      | shared => exact Action.goesWith_shared (hgrants j hji)
      | exclusive =>
        rw [Action.goesWith_exclusive (hgrants j hji)]
        exact nofun
  have hholds := h.holds hnone
  have hperform := Disk.perform_taking lock ⟨c.place, position⟩
  obtain ⟨hafter, hself⟩ := Crowd.take_eq hcaller hperform next
  have hlock : lock.taking.lockAfter none = some lock := by cases lock <;> rfl
  refine h.go_on (fun j hj => c.take_other hj _ next) halone hi ?_ (fun j _ hj => ?_) fun _ => hafter ▸ hholds
  · rw [hself, hafter, hlock]
    exact .holding hnext hfile ((hserves _ _ hholds hfile).take hperform _)
  · rw [hafter]
    exact h.standing j hj

/-- A holder of the exclusive lock has the file for itself. Under a shared lock nobody changes it. -/
theorem take_allowed (h : InOrder call order c) (halone : (c.take i action next).Alone) (hi : i ∉ order)
    (hcaller : c.callers i = ⟨.act action next, position, some lock⟩) (hallows : lock.Allows action)
    (hnext : ∀ o, (next o).Holding lock)
    (hserves : Serves ⟨.act action next, position, some lock⟩ (call i) c.place
      (inTurn Listing.serve call order []).2) : InOrder call order (c.take i action next) := by
  have hfile : c.place.HasFile := h.hasFile (by rw [hcaller])
  obtain ⟨hafter, hself⟩ := Crowd.take_eq hcaller rfl next
  rw [Disk.lockAfter_of_allows hallows] at hself
  have hothers := fun j (hj : j ≠ i) => c.take_other hj action next
  have hkept : (Disk.perform action ⟨c.place, position⟩).2.place.HasFile := Disk.hasFile_perform hallows hfile
  have hshared : lock = .shared → (c.take i action next).place = c.place := by
    rintro rfl
    rw [hafter]
    exact Disk.place_perform_shared hallows hfile
  refine h.go_on hothers halone hi ?_ (fun j hji hj => ?_) fun hnone => ?_
  · rw [hself, hafter]
    exact .holding (hnext _) hkept (hserves.take rfl _)
  · cases lock with
    | shared =>
      rw [hshared rfl]
      exact h.standing j hj
    | exclusive =>
      refine (h.standing j hj).elsewhere (h.alone i j hji (by rw [hcaller])) fun _ => ?_
      rw [hafter]
      exact hkept
  · cases lock with
    | shared =>
      rw [hshared rfl]
      refine h.holds fun j => ?_
      by_cases hji : j = i
      · rw [hji, hcaller]
        exact nofun
      · exact hothers j hji ▸ hnone j
    | exclusive => exact absurd (by rw [hself]) (hnone i)

theorem take_unlock (h : InOrder call order c) {response : Response}
    (halone : (c.take i .unlock fun _ => .done response).Alone) (hi : i ∉ order)
    (hcaller : c.callers i = ⟨.act .unlock fun _ => .done response, position, some lock⟩)
    (hserves : Serves ⟨.act .unlock fun _ => .done response, position, some lock⟩ (call i) c.place
      (inTurn Listing.serve call order []).2) :
    InOrder call (order ++ [i]) (c.take i .unlock fun _ => .done response) := by
  obtain ⟨hafter, hself⟩ := Crowd.take_eq hcaller rfl fun _ => .done response
  have hserved := hserves.take rfl none
  refine h.finish (fun j hj => c.take_other hj _ _) halone hi hself ?_ fun j hji hj => ?_
  · rw [hafter]
    exact hserved
  · rw [hafter]
    cases hlock : (c.callers j).lock with
    | none => exact (h.standing j hj).elsewhere hlock id
    | some held =>
      -- Another lock beside this one: both are shared, and the file has not changed.
      have hnone : ∀ k, (c.callers k).lock ≠ some .exclusive := by
        intro k hk
        by_cases hki : k = i
        · have hfree := h.alone k j (hki ▸ hji) hk
          rw [hlock] at hfree
          cases hfree
        · have hfree := h.alone k i (Ne.symm hki) hk
          rw [hcaller] at hfree
          cases hfree
      rw [← (h.holds hnone).unique hserved.2]
      exact h.standing j hj

/-- Every action keeps the order of the calls that have ended, and adds the one that ends with it. -/
theorem step (h : InOrder call order c) (hstep : c.Step d) : ∃ later, InOrder call (order ++ later) d := by
  obtain @⟨i, action, next, hnext, hgrants⟩ := hstep
  have hi : i ∉ order := fun hmem => by
    obtain ⟨response, position, hcaller, -⟩ := h.ended i hmem
    rw [hcaller] at hnext
    cases hnext
  have halone := h.alone.take hgrants next
  have hsame : ∀ {d}, InOrder call order d → ∃ later, InOrder call (order ++ later) d := fun hd =>
    ⟨[], (List.append_nil order).symm ▸ hd⟩
  have hstanding := h.standing i hi
  obtain ⟨caller, hcaller⟩ : ∃ caller, c.callers i = caller := ⟨_, rfl⟩
  rw [hcaller] at hstanding hnext
  cases hstanding with
  | opening hroutine hserves =>
    obtain rfl := hnext
    exact h.take_opening halone hi hcaller hroutine hserves
  | waiting hroutine hfile hserves =>
    obtain rfl := hnext
    cases hroutine with
    | lock hholding => exact hsame (h.take_lock halone hgrants hi hcaller hholding hfile hserves)
  | holding hroutine hfile hserves =>
    obtain rfl := hnext
    cases hroutine with
    | last response => exact ⟨[i], h.take_unlock halone hi hcaller hserves⟩
    | act hallows hholding => exact hsame (h.take_allowed halone hi hcaller hallows hholding hserves)

end

theorem initial (hcalls : ∀ i, call i ≠ .reset) (hp : Holds p []) :
    InOrder call [] ⟨p, fun i => ⟨(call i).routine, 0, none⟩⟩ where
  nodup := List.nodup_nil
  ended := nofun
  standing i _ := .opening (opening_routine (hcalls i)) fun _ _ hq => hq.serves (call i)
  holds _ := hp
  alone := nofun

end InOrder

/-! ### Any calls at the same time -/

section
variable [DecidableEq ι] {c : Crowd ι Response}

theorem exists_inOrder (hcalls : ∀ i, call i ≠ .reset) (hp : Holds p [])
    (h : Crowd.Reachable (fun i => (call i).routine) p c) : ∃ order, InOrder call order c := by
  induction h with
  | initial => exact ⟨[], .initial hcalls hp⟩
  | step _ hstep ih =>
    obtain ⟨order, horder⟩ := ih
    obtain ⟨later, hlater⟩ := horder.step hstep
    exact ⟨order ++ later, hlater⟩

/-- Publications, withdrawals and readings that are made at the same time on an absent or empty file. At every moment
    there is an order of the calls that have ended, such that each has the response that it has when they are served
    alone in that order. While nobody holds the exclusive lock the file has the text that they leave then, which is
    made of whole lines; and so it has once all have ended. -/
theorem calls_answer_in_turn (hcalls : ∀ i, call i ≠ .reset) (hstart : p = ⟨true, .absent⟩ ∨ p = ⟨true, .file []⟩)
    (h : Crowd.Reachable (fun i => (call i).routine) p c) :
    ∃ order : List ι, order.Nodup ∧
      (∀ i response, (c.callers i).routine = .done response ↔ (i, response) ∈ (inTurn File.serve call order p).1) ∧
      ((∀ i, (c.callers i).lock ≠ some .exclusive) → ∃ text, text? c.place = some text ∧
        text? (inTurn File.serve call order p).2 = some text ∧ ∀ line ∈ linesOf text.toList, isWhole line = true) ∧
      ((∀ i, ∃ response, (c.callers i).routine = .done response) →
        (∀ i, i ∈ order) ∧ text? c.place = text? (inTurn File.serve call order p).2) := by
  have hp : Holds p [] := by
    rcases hstart with rfl | rfl
    · exact ⟨rfl, Or.inl ⟨rfl, rfl⟩⟩
    · exact ⟨rfl, Or.inr rfl⟩
  obtain ⟨order, horder⟩ := exists_inOrder hcalls hp h
  obtain ⟨hresponses, hserved⟩ := hp.inTurn call order
  have hended : ∀ i, i ∈ order ↔ ∃ response, (c.callers i).routine = .done response := by
    intro i
    constructor
    · intro hi
      obtain ⟨response, position, hcaller, -⟩ := horder.ended i hi
      exact ⟨response, by rw [hcaller]⟩
    · rintro ⟨response, hdone⟩
      by_contra hi
      exact (horder.standing i hi).ne_done response hdone
  have htext : (∀ i, (c.callers i).lock ≠ some .exclusive) →
      text? c.place = some (inTurn Listing.serve call order []).2.text := fun hfree => (horder.holds hfree).text?_eq
  refine ⟨order, horder.nodup, fun i response => ?_, fun hfree => ?_, fun hall => ?_⟩
  · rw [hresponses]
    constructor
    · intro hdone
      obtain ⟨response', position, hcaller, hmem⟩ := horder.ended i ((hended i).mpr ⟨response, hdone⟩)
      rw [hcaller] at hdone
      exact Routine.done.inj hdone ▸ hmem
    · intro hmem
      have hi : i ∈ order := by
        have horder' : (inTurn Listing.serve call order []).1.map Prod.fst = order := map_fst_inTurn order
        rw [← horder']
        exact List.mem_map_of_mem hmem
      obtain ⟨response', position, hcaller, hmem'⟩ := horder.ended i hi
      rw [hcaller, inTurn_unique horder.nodup hmem hmem']
  · refine ⟨_, htext hfree, hserved.text?_eq, fun line hline => ?_⟩
    rw [Listing.linesOf_text] at hline
    obtain ⟨e, -, rfl⟩ := List.mem_map.mp hline
    exact e.isWhole_line
  · have hmem := fun i => (hended i).mpr (hall i)
    refine ⟨hmem, ?_⟩
    rw [hserved.text?_eq]
    refine htext fun i => ?_
    obtain ⟨response, position, hcaller, -⟩ := horder.ended i (hmem i)
    rw [hcaller]
    exact nofun

end

/-- A publication, the withdrawal of its entry, and a reading. -/
def threeCalls : Fin 3 → Request
  | 0 => .publish ⟨.physics, ⟨8⟩⟩
  | 1 => .withdraw ⟨.physics, ⟨8⟩⟩
  | 2 => .refresh

/-- All three have opened the file before the first of them has its lock. -/
theorem three_calls_answer_in_turn :
    ∃ c : Crowd (Fin 3) Response, Crowd.Reachable (fun i => (threeCalls i).routine) ⟨true, .absent⟩ c ∧
      ∃ order, order.Nodup ∧ (∀ i, i ∈ order) ∧
        (1, .ok (.withdrawn true)) ∈ (inTurn File.serve threeCalls order ⟨true, .absent⟩).1 ∧
        (2, .ok (.entries [])) ∈ (inTurn File.serve threeCalls order ⟨true, .absent⟩).1 ∧
        text? c.place = text? (inTurn File.serve threeCalls order ⟨true, .absent⟩).2 := by
  have h : Crowd.Reachable (fun i => (threeCalls i).routine) ⟨true, .absent⟩ _ := .initial
  have h := h.step (.act 0 rfl (by decide))
  have h := h.step (.act 1 rfl (by decide))
  have h := h.step (.act 2 rfl (by decide))
  -- The publication locks, appends, flushes and unlocks.
  have h := h.step (.act 0 rfl (by decide))
  have h := h.step (.act 0 rfl (by decide))
  have h := h.step (.act 0 rfl (by decide))
  have h := h.step (.act 0 rfl (by decide))
  -- The withdrawal locks, reads, empties and rewrites the file, and unlocks.
  have h := h.step (.act 1 rfl (by decide))
  have h := h.step (.act 1 rfl (by decide))
  have h := h.step (.act 1 rfl (by decide))
  have h := h.step (.act 1 rfl (by decide))
  have h := h.step (.act 1 rfl (by decide))
  have h := h.step (.act 1 rfl (by decide))
  have h := h.step (.act 1 rfl (by decide))
  have h := h.step (.act 2 rfl (by decide))
  have h := h.step (.act 2 rfl (by decide))
  have h := h.step (.act 2 rfl (by decide))
  have hcalls : ∀ i, threeCalls i ≠ .reset := by decide
  obtain ⟨order, hnodup, hended, -, hall⟩ := calls_answer_in_turn hcalls (Or.inl rfl) h
  obtain ⟨hmem, htext⟩ := hall fun
    | 0 => ⟨_, rfl⟩
    | 1 => ⟨_, rfl⟩
    | 2 => ⟨_, rfl⟩
  exact ⟨_, h, order, hnodup, hmem, (hended 1 _).mp rfl, (hended 2 _).mp rfl, htext⟩

end Registry
end GridFlight
