import GridFlight.Proofs.Coordinator.Updates

/-! The order in which the parts are served does not matter to the world. Where the messages of different parts concern
    different places, two orders that keep the order of every part lead to the same world, and what a part is sent
    because of another is the same. -/

namespace GridFlight

/-! ### Orders with the same parts -/

section Orders

variable {ι α σ : Type} [DecidableEq ι] {act : σ → ι × α → σ} {order other : List (ι × α)}

theorem mem_of_same_parts (h : ∀ i, order.filter (·.1 = i) = other.filter (·.1 = i)) {a : ι × α} (ha : a ∈ other) :
    a ∈ order := by
  have hpart : a ∈ order.filter (·.1 = a.1) := h a.1 ▸ List.mem_filter.mpr ⟨ha, decide_eq_true rfl⟩
  exact (List.mem_filter.mp hpart).1

omit [DecidableEq ι] in
/-- An action is moved behind actions with which it commutes. -/
theorem foldl_move_behind {a : ι × α} {before : List (ι × α)}
    (hcomm : ∀ b ∈ before, ∀ s, act (act s a) b = act (act s b) a) (s : σ) :
    before.foldl act (act s a) = act (before.foldl act s) a := by
  induction before generalizing s with
  | nil => rfl
  | cons b before ih =>
    obtain ⟨hb, hbefore⟩ := List.forall_mem_cons.mp hcomm
    rw [List.foldl_cons, hb s, ih hbefore, List.foldl_cons]

/-- Orders in which every part acts in the same order lead to the same state, where actions of different parts
    commute. -/
theorem foldl_eq_of_same_parts (h : ∀ i, order.filter (·.1 = i) = other.filter (·.1 = i))
    (hcomm : ∀ a ∈ order, ∀ b ∈ order, a.1 ≠ b.1 → ∀ s, act (act s a) b = act (act s b) a) (s : σ) :
    order.foldl act s = other.foldl act s := by
  -- The first action of one order is found in the other behind actions of other parts, and is moved in front.
  induction order generalizing other s with
  | nil =>
    have hnil : other = [] := List.eq_nil_iff_forall_not_mem.mpr fun a ha => by
      have hmem := mem_of_same_parts h ha
      cases hmem
    rw [hnil]
  | cons a order ih =>
    have hpart : other.filter (·.1 = a.1) = a :: order.filter (·.1 = a.1) := by
      rw [← h a.1, List.filter_cons_of_pos (by simp)]
    obtain ⟨before, after, rfl, hbefore, -, hafter⟩ := List.filter_eq_cons_iff.mp hpart
    have hothers : ∀ b ∈ before, a.1 ≠ b.1 := fun b hb heq => hbefore b hb (decide_eq_true heq.symm)
    have hrest : ∀ i, order.filter (·.1 = i) = (before ++ after).filter (·.1 = i) := by
      intro i
      by_cases hi : a.1 = i
      · subst hi
        rw [List.filter_append, hafter, List.filter_eq_nil_iff.mpr hbefore, List.nil_append]
      · have hwith := h i
        rw [List.filter_cons_of_neg (by simpa using hi), List.filter_append,
          List.filter_cons_of_neg (by simpa using hi), ← List.filter_append] at hwith
        exact hwith
    have hmove : ∀ b ∈ before, ∀ s, act (act s a) b = act (act s b) a := fun b hb s =>
      hcomm a List.mem_cons_self b (mem_of_same_parts h (List.mem_append_left _ hb)) (hothers b hb) s
    have hlater : ∀ b ∈ order, ∀ b' ∈ order, b.1 ≠ b'.1 → ∀ s, act (act s b) b' = act (act s b') b :=
      fun b hb b' hb' => hcomm b (List.mem_cons_of_mem a hb) b' (List.mem_cons_of_mem a hb')
    calc (a :: order).foldl act s = (before ++ after).foldl act (act s a) := ih hrest hlater (act s a)
      _ = after.foldl act (act (before.foldl act s) a) := by rw [List.foldl_append, foldl_move_behind hmove]
      _ = (before ++ a :: after).foldl act s := by rw [List.foldl_append, List.foldl_cons]

end Orders

namespace Coordinator

/-! ### Applying messages in turn -/

/-- Applies messages from the parts one after the other, as long as the coordinator goes on. -/
def applyAll : List (Role × Message) → Coordinator → Turnout
  | [], c => c.go
  | (sender, m) :: later, c =>
    match c.apply sender m with
    | (.ok .more, c) => applyAll later c
    | turnout => turnout

/-- The frames written to a part when messages of a source are applied. -/
def because (source r : Role) : List (Role × Message) → Coordinator → List Frame
  | [], _ => []
  | (sender, m) :: later, c =>
    (if sender = source then ((c.apply sender m).2.framesTo r).drop (c.framesTo r).length else []) ++
      match c.apply sender m with
      | (.ok .more, c) => because source r later c
      | _ => []

/-- All messages are applied, and every link that stood still stands. -/
def Undisturbed (order : List (Role × Message)) (c : Coordinator) : Prop :=
  ∃ d, applyAll order c = (.ok .more, d) ∧ ∀ r, c.connects r = true → d.connects r = true

/-- An order of these messages that keeps the order of each part. -/
def Interleaves (seqs : Role → List Message) (order : List (Role × Message)) : Prop :=
  ∀ r, (order.filter (·.1 = r)).map Prod.snd = seqs r

/-- The messages of different parts concern different places, none of them is an EXIT, and the drone is led onto no
    target. -/
structure Separate (seqs : Role → List Message) (targets : List Cell) : Prop where
  exit : ∀ r, .exit ∉ seqs r
  one : ∀ r s, ∀ m ∈ seqs r, ∀ n ∈ seqs s, m.kind = n.kind → m.kind ∈ [.obstacles, .targets, .size] → r = s
  force : ∀ r, ∀ m ∈ seqs r, m.kind = .force → r = .physics
  position : ∀ r, ∀ m ∈ seqs r, m.kind = .position → r = .physics ∨ r = .relay
  clear : ∀ p, .position p ∈ seqs .physics → Cell.ofPosition p ∉ targets ∧
    ∀ r cells, .targets cells ∈ seqs r → Cell.ofPosition p ∉ cells

variable {seqs : Role → List Message} {order other : List (Role × Message)} {c d : Coordinator} {targets : List Cell}

theorem Interleaves.mem (h : Interleaves seqs order) {a : Role × Message} (ha : a ∈ order) : a.2 ∈ seqs a.1 := by
  rw [← h a.1]
  exact List.mem_map.mpr ⟨a, List.mem_filter.mpr ⟨ha, decide_eq_true rfl⟩, rfl⟩

/-- The messages of a part with its name are the same in both orders. -/
theorem Interleaves.same_parts (h : Interleaves seqs order) (h' : Interleaves seqs other) (r : Role) :
    order.filter (·.1 = r) = other.filter (·.1 = r) := by
  have hnamed : ∀ order : List (Role × Message),
      order.filter (·.1 = r) = ((order.filter (·.1 = r)).map Prod.snd).map fun m => (r, m) := by
    intro order
    rw [List.map_map]
    refine ((List.map_congr_left fun a ha => ?_).trans (List.map_id _)).symm
    have hr : a.1 = r := of_decide_eq_true (List.mem_filter.mp ha).2
    exact Prod.ext hr.symm rfl
  rw [hnamed order, hnamed other, h r, h' r]

/-! ### The world -/

/-- Only one part has messages for a place. -/
theorem Separate.part (h : Separate seqs targets) {r s : Role} {m n : Message} {u v : World.Update} (hm : m ∈ seqs r)
    (hn : n ∈ seqs s) (hu : updateOf r m = some u) (hv : updateOf s n = some v) (hplace : u.place = v.place) : r = s := by
  have hr := concerns_of_updateOf hu
  have hs := concerns_of_updateOf hv
  rw [← hplace] at hs
  cases hp : u.place <;> rw [hp] at hr hs
  case forces => exact (h.force r m hm hr).trans (h.force s n hn hs).symm
  case obstacles | targets | window =>
    refine h.one r s m hm n hn (Eq.trans hr hs.symm) ?_
    rw [hr]
    simp
  case drone =>
    have hphysics := (h.position r m hm hr.1).resolve_right hr.2
    exact hphysics.trans ((h.position s n hn hs.1).resolve_right hs.2).symm
  case remote => exact hr.2.trans hs.2.symm

/-- Messages of different parts can be applied to the world in either order. -/
theorem Separate.comm (h : Separate seqs targets) {r s : Role} {m n : Message} (hm : m ∈ seqs r) (hn : n ∈ seqs s)
    (hrs : r ≠ s) (w : World) : updated (updated w r m) s n = updated (updated w s n) r m := by
  unfold updated
  cases hu : updateOf r m with
  | none => rfl
  | some u =>
    cases hv : updateOf s n with
    | none => rfl
    | some v => exact World.Update.act_comm (fun hplace => hrs (h.part hm hn hu hv hplace)) w

theorem targets_updated (w : World) (sender : Role) (m : Message) :
    (updated w sender m).targets = w.targets ∨ ∃ cells, m = .targets cells ∧ (updated w sender m).targets = cells := by
  cases m with
  | position p => by_cases hsender : sender = .relay <;> simp [updated, updateOf, hsender, World.Update.act]
  | targets cells => exact Or.inr ⟨cells, rfl, rfl⟩
  | _ => exact Or.inl rfl

/-- The drone is led onto no target by these messages. -/
structure Clear (targets : List Cell) (order : List (Role × Message)) : Prop where
  before : ∀ a ∈ order, Avoids targets a.1 a.2
  among : ∀ a ∈ order, ∀ r cells, (r, .targets cells) ∈ order → Avoids cells a.1 a.2

theorem Clear.later {sender : Role} {m : Message} {w : World} (h : Clear w.targets ((sender, m) :: order)) :
    Clear (updated w sender m).targets order where
  before a ha := by
    rcases targets_updated w sender m with hsame | ⟨cells, rfl, hcells⟩
    · rw [hsame]
      exact h.before a (List.mem_cons_of_mem _ ha)
    · rw [hcells]
      exact h.among a (List.mem_cons_of_mem _ ha) sender cells List.mem_cons_self
  among a ha r cells hcells := h.among a (List.mem_cons_of_mem _ ha) r cells (List.mem_cons_of_mem _ hcells)

theorem Separate.clear_order (h : Separate seqs targets) (horder : Interleaves seqs order) : Clear targets order := by
  have hclear : ∀ a ∈ order, ∀ p, a.2 = .position p → a.1 ≠ .relay → .position p ∈ seqs .physics := by
    intro a ha p hp hrelay
    have hmem := horder.mem ha
    have hphysics := (h.position a.1 a.2 hmem (by rw [hp]; rfl)).resolve_right hrelay
    rw [hphysics, hp] at hmem
    exact hmem
  exact ⟨fun a ha p hp hrelay => (h.clear p (hclear a ha p hp hrelay)).1,
    fun a ha r cells hcells p hp hrelay => (h.clear p (hclear a ha p hp hrelay)).2 r cells (horder.mem hcells)⟩

/-- What the messages do if the drone is led onto no target. -/
theorem applyAll_of_clear (order : List (Role × Message)) {c : Coordinator} (hclear : Clear c.world.targets order)
    (h : applyAll order c = (.ok .more, d)) :
    d.world = order.foldl (fun w a => updated w a.1 a.2) c.world ∧
      c.Sends d fun r => order.flatMap fun a => mailOf a.1 a.2 r := by
  induction order generalizing c with
  | nil =>
    obtain rfl : c = d := (Prod.mk.inj h).2
    exact ⟨rfl, sends_none rfl⟩
  | cons a order ih =>
    obtain ⟨sender, m⟩ := a
    rw [applyAll] at h
    split at h
    · next c' happly =>
      obtain ⟨hworld, hsends⟩ := updated_of_apply happly (hclear.before _ List.mem_cons_self)
      have hlater := hclear.later
      rw [← hworld] at hlater
      obtain ⟨hend, hmore⟩ := ih hlater h
      rw [hworld] at hend
      exact ⟨hend, hsends.trans hmore⟩
    · next t hstop => exact absurd h (hstop d)

/-! ### Frames -/

/-- What is written to a part because of a source is what the messages of the source make the coordinator send. -/
theorem because_of_clear (order : List (Role × Message)) {c : Coordinator} (hclear : Clear c.world.targets order)
    (h : applyAll order c = (.ok .more, d)) (source : Role) {r : Role} (hr : d.connects r = true) :
    because source r order c =
      ((order.filter (·.1 = source)).flatMap fun a => mailOf a.1 a.2 r).map Message.toFrame := by
  induction order generalizing c with
  | nil => rfl
  | cons a order ih =>
    obtain ⟨sender, m⟩ := a
    rw [applyAll] at h
    split at h
    · next c' happly =>
      obtain ⟨hworld, hsends⟩ := updated_of_apply happly (hclear.before _ List.mem_cons_self)
      have hlater := hclear.later
      rw [← hworld] at hlater
      have hconnects := (applyAll_of_clear order hlater h).2.connects hr
      have hwritten : (c'.framesTo r).drop (c.framesTo r).length = (mailOf sender m r).map Message.toFrame := by
        rw [hsends.framesTo hconnects, List.drop_left]
      simp only [because, happly, hwritten, ih hlater h]
      by_cases hsource : sender = source
      · simp [hsource]
      · simp [hsource]
    · next t hstop => exact absurd h (hstop d)

/-- Nothing is written to a part whose link does not stand. -/
theorem because_of_dropped (order : List (Role × Message)) {c : Coordinator} (hexit : ∀ a ∈ order, a.2 ≠ .exit)
    (source : Role) {r : Role} (hr : c.connects r = false) : because source r order c = [] := by
  induction order generalizing c with
  | nil => rfl
  | cons a order ih =>
    obtain ⟨sender, m⟩ := a
    obtain ⟨hm, hexit⟩ := List.forall_mem_cons.mp hexit
    obtain ⟨hframes, hdropped⟩ := (smooth_apply hm sender c).kept.framesTo hr
    rcases happly : c.apply sender m with ⟨e | _ | _, c'⟩ <;> rw [happly] at hframes hdropped <;>
      simp [because, happly, hframes, ih hexit, hdropped]

/-- A coordinator that is calm applies every message without an error. -/
theorem Calm.undisturbed (order : List (Role × Message)) {c : Coordinator} (hexit : ∀ a ∈ order, a.2 ≠ .exit)
    (h : c.Calm) : Undisturbed order c := by
  induction order generalizing c with
  | nil => exact ⟨c, rfl, fun _ => id⟩
  | cons a order ih =>
    obtain ⟨sender, m⟩ := a
    obtain ⟨hm, hexit⟩ := List.forall_mem_cons.mp hexit
    obtain ⟨hkept, hmore⟩ := smooth_apply hm sender c
    obtain ⟨hcalm, hstands⟩ := hkept.calm h
    obtain ⟨d, hd, hlater⟩ := ih hexit hcalm
    refine ⟨d, ?_, fun r hr => hlater r (hstands r hr)⟩
    have hgoes : c.apply sender m = go (c.apply sender m).2 := Prod.ext (hmore h.refusal) rfl
    rw [applyAll, hgoes]
    exact hd

/-! ### Orders do not matter -/

/-- The order in which the parts are served does not matter. Two orders of the same messages that keep the order of
    each part lead to the same world, and to the same frames for every part because of every source, if nothing cannot
    be drawn or written. That is so where the display refuses nothing and the links have no limit. -/
theorem order_is_immaterial (seqs : Role → List Message) (c : Coordinator) (h : Separate seqs c.world.targets)
    (order other : List (Role × Message)) (horder : Interleaves seqs order) (hother : Interleaves seqs other) :
    (Undisturbed order c → Undisturbed other c →
      (applyAll order c).2.world = (applyAll other c).2.world ∧
        ∀ source r, because source r order c = because source r other c) ∧
      (c.Calm → Undisturbed order c) := by
  have hexit : ∀ {order}, Interleaves seqs order → ∀ a ∈ order, a.2 ≠ .exit := fun horder a ha heq =>
    h.exit a.1 (heq ▸ horder.mem ha)
  have hparts := horder.same_parts hother
  refine ⟨?_, fun hcalm => hcalm.undisturbed order (hexit horder)⟩
  rintro ⟨d, hd, hstands⟩ ⟨d', hd', hstands'⟩
  have hclear := h.clear_order horder
  have hclear' := h.clear_order hother
  refine ⟨?_, fun source r => ?_⟩
  · rw [hd, hd', (applyAll_of_clear order hclear hd).1, (applyAll_of_clear other hclear' hd').1]
    refine foldl_eq_of_same_parts hparts (fun a ha b hb hab w => ?_) c.world
    exact h.comm (horder.mem ha) (horder.mem hb) hab w
  · cases hr : c.connects r with
    | true =>
      rw [because_of_clear order hclear hd source (hstands r hr),
        because_of_clear other hclear' hd' source (hstands' r hr), hparts source]
    | false =>
      rw [because_of_dropped order (hexit horder) source hr, because_of_dropped other (hexit hother) source hr]

/-- A drone, a target beside it and the drone of another flight, in two orders. -/
theorem order_of_three_parts :
    let p : Vec Float32 := ⟨zeroSingle, zeroSingle⟩
    let beside : Cell := ⟨(Cell.ofPosition p).x + 1, (Cell.ofPosition p).y⟩
    let order : List (Role × Message) :=
      [(.physics, .position p), (.targets, .targets [beside]), (.relay, .position p), (.physics, .force .zero)]
    let other : List (Role × Message) :=
      [(.relay, .position p), (.physics, .position p), (.physics, .force .zero), (.targets, .targets [beside])]
    let c := Coordinator.new .standard (.ofRoles []) (fun _ => some (.new .lasting)) none (.new fun _ _ => none)
      (.new fun _ => none) 0 0
    (applyAll order c).2.world = (applyAll other c).2.world ∧
      because .targets .physics order c = because .targets .physics other c := by
  intro p beside order other c
  have horder : Interleaves (fun r => (order.filter (·.1 = r)).map Prod.snd) order := fun _ => rfl
  have hother : Interleaves (fun r => (order.filter (·.1 = r)).map Prod.snd) other := fun r => by cases r <;> rfl
  have hbeside : Cell.ofPosition p ≠ beside := by
    intro heq
    have hx : (Cell.ofPosition p).x = (Cell.ofPosition p).x + 1 := congrArg Cell.x heq
    simp at hx
  have hmem : ∀ {r m}, m ∈ (order.filter (·.1 = r)).map Prod.snd → (r = .physics ∧ m = .position p) ∨
      (r = .targets ∧ m = .targets [beside]) ∨ (r = .relay ∧ m = .position p) ∨ (r = .physics ∧ m = .force .zero) := by
    intro r m hm
    obtain ⟨⟨r', m'⟩, ha, rfl⟩ := List.mem_map.mp hm
    obtain ⟨ha, hr⟩ := List.mem_filter.mp ha
    obtain rfl : r' = r := of_decide_eq_true hr
    simpa [order] using ha
  have htargets : ∀ {r m}, m ∈ (order.filter (·.1 = r)).map Prod.snd →
      m.kind ∈ [Frame.Kind.obstacles, .targets, .size] → r = .targets := by
    intro r m hm hkind
    rcases hmem hm with ⟨rfl, rfl⟩ | ⟨rfl, rfl⟩ | ⟨rfl, rfl⟩ | ⟨rfl, rfl⟩ <;> simp [Message.kind] at hkind ⊢
  have hseparate : Separate (fun r => (order.filter (·.1 = r)).map Prod.snd) c.world.targets := by
    refine ⟨fun r hexit => ?_, fun r s m hm n hn hsame hkind => ?_, fun r m hm hkind => ?_, fun r m hm hkind => ?_,
      fun q hq => ⟨List.not_mem_nil, fun r cells hcells => ?_⟩⟩
    · rcases hmem hexit with h | h | h | h <;> cases h.2
    · exact (htargets hm hkind).trans (htargets hn (hsame ▸ hkind)).symm
    · rcases hmem hm with ⟨rfl, rfl⟩ | ⟨rfl, rfl⟩ | ⟨rfl, rfl⟩ | ⟨rfl, rfl⟩ <;> simp [Message.kind] at hkind ⊢
    · rcases hmem hm with ⟨rfl, rfl⟩ | ⟨rfl, rfl⟩ | ⟨rfl, rfl⟩ | ⟨rfl, rfl⟩ <;> simp [Message.kind] at hkind ⊢
    · obtain rfl : q = p := by
        rcases hmem hq with ⟨-, h⟩ | ⟨-, h⟩ | ⟨-, h⟩ | ⟨-, h⟩ <;> first | exact Message.position.inj h | cases h
      obtain rfl : cells = [beside] := by
        rcases hmem hcells with ⟨-, h⟩ | ⟨-, h⟩ | ⟨-, h⟩ | ⟨-, h⟩ <;> first | exact Message.targets.inj h | cases h
      simpa using hbeside
  have hcalm : c.Calm := by
    refine ⟨fun _ _ => rfl, fun r o ho _ => ?_⟩
    obtain rfl := Option.some.inj ho
    rfl
  obtain ⟨hsame, hundisturbed⟩ := order_is_immaterial _ c hseparate order other horder hother
  obtain ⟨-, hundisturbed'⟩ := order_is_immaterial _ c hseparate other order hother horder
  obtain ⟨hworld, hframes⟩ := hsame (hundisturbed hcalm) (hundisturbed' hcalm)
  exact ⟨hworld, hframes .targets .physics⟩

end Coordinator
end GridFlight
