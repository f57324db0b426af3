import GridFlight.Proofs.Registry.Lines
import GridFlight.Registry.File

/-! A registry in a file answers as a registry in memory does. Whatever is asked of both, one request after the other,
    the answers are the same, and the file holds the lines of the entries in memory, in their order. -/

namespace GridFlight
namespace Registry

/-! ### Requests -/

/-- What can be asked of a registry. -/
inductive Request where
  | reset
  | publish (e : Entry)
  | withdraw (e : Entry)
  | refresh
  | lookup (role : Role)
  deriving DecidableEq, Repr

inductive Answer where
  | done
  /-- Whether the entry was there. -/
  | withdrawn (present : Bool)
  | entries (entries : List Entry)
  | identity (pid : Option Pid)
  deriving DecidableEq, Repr

abbrev Response := Except SystemError Answer

def File.serve (r : Request) (p : Disk.Place) : Response × Disk.Place :=
  match r with
  | .reset => ((File.reset.run p).1.map fun () => .done, (File.reset.run p).2)
  | .publish e => (((File.publish e).run p).1.map fun () => .done, ((File.publish e).run p).2)
  | .withdraw e => (((File.withdraw e).run p).1.map .withdrawn, ((File.withdraw e).run p).2)
  | .refresh => ((File.refresh.run p).1.map .entries, (File.refresh.run p).2)
  | .lookup role => ((File.lookup role p).map .identity, (File.refresh.run p).2)

def Listing.serve (r : Request) (l : Listing) : Response × Listing :=
  match r with
  | .reset => (.ok .done, [])
  | .publish e => (.ok .done, l.publish e)
  | .withdraw e => (.ok (.withdrawn (l.withdraw e).1), (l.withdraw e).2)
  | .refresh => (.ok (.entries l), l)
  | .lookup role => (.ok (.identity (find? role l)), l)

/-- Puts requests in turn. The responses are in the same order. -/
def serveAll {σ : Type} (serve : Request → σ → Response × σ) : List Request → σ → List Response × σ
  | [], s => ([], s)
  | r :: rs, s =>
    let (response, s) := serve r s
    let (responses, s) := serveAll serve rs s
    (response :: responses, s)

/-! ### What the file holds -/

/-- The text at a place. A file that is not there holds no more than an empty one. -/
def text? (p : Disk.Place) : Option String :=
  match p.node with
  | .absent => some ""
  | .file bytes => Utf8.decode? bytes
  | .directory => none

/-- A place holds a listing: its file has the lines of the entries and nothing else. -/
structure Holds (p : Disk.Place) (l : Listing) : Prop where
  parent : p.parent = true
  node : p.node = .absent ∧ l = [] ∨ p.node = .file (Utf8.encode l.text)

variable {p : Disk.Place} {l : Listing}

theorem Holds.text?_eq (h : Holds p l) : text? p = some l.text := by
  rcases h.node with ⟨hnode, rfl⟩ | hnode
  · rw [text?, hnode]
    rfl
  · rw [text?, hnode]
    exact Utf8.decode?_encode l.text

theorem withdrawn_flatten (e : Entry) (l : Listing) :
    String.ofList (File.without e l.text.toList).flatten = (l.withdraw e).2.text := by
  have hlines : File.without e l.text.toList = (l.filter (· != e)).map fun e => e.line.toList := by
    rw [File.without, Listing.linesOf_text, List.filter_map]
    refine congrArg (List.map _) (List.filter_congr fun f _ => ?_)
    simp [Entry.ofLine?_line, bne]
  rw [hlines, ← List.flatMap_def, ← Listing.toList_text, String.ofList_toList]
  rfl

theorem holds_text (e : Entry) (l : Listing) : File.holds e l.text.toList = (l.withdraw e).1 := by
  rw [Bool.eq_iff_iff, File.holds, Listing.linesOf_text, List.any_map]
  simp [Listing.withdraw, Entry.ofLine?_line]

/-! ### Each request -/

open Disk.Routine (runFrom attempt locked finish)

theorem Holds.refresh (h : Holds p l) : File.refresh.run p = (.ok l, p) := by
  obtain ⟨parent, node⟩ := p
  rcases h.node with ⟨hnode, rfl⟩ | hnode
  · obtain rfl : node = .absent := hnode
    rfl
  · obtain rfl : node = .file (Utf8.encode l.text) := hnode
    simp [File.refresh, Disk.Routine.run, runFrom, locked, finish, Disk.perform, Utf8.decode?_encode,
      Listing.snapshot_text]

theorem Holds.publish (h : Holds p l) (e : Entry) :
    ∃ q, (File.publish e).run p = (.ok (), q) ∧ Holds q (l.publish e) := by
  obtain ⟨parent, node⟩ := p
  obtain rfl : parent = true := h.parent
  have hrun : ∀ bytes, (node = .absent ∧ bytes = [] ∨ node = .file bytes) →
      (File.publish e).run ⟨true, node⟩ = (.ok (), ⟨true, .file (bytes ++ Utf8.encode e.line)⟩) := by
    intro bytes hbytes
    rcases hbytes with ⟨rfl, rfl⟩ | rfl <;>
      simp [File.publish, Disk.Routine.run, runFrom, attempt, locked, finish, Disk.perform]
  refine ⟨_, hrun (Utf8.encode l.text) ?_, rfl, Or.inr ?_⟩
  · rcases h.node with ⟨hnode, rfl⟩ | hnode
    · exact Or.inl ⟨hnode, rfl⟩
    · exact Or.inr hnode
  · rw [Listing.text_publish, Utf8.encode_append]

theorem Holds.withdraw (h : Holds p l) (e : Entry) :
    ∃ q, (File.withdraw e).run p = (.ok (l.withdraw e).1, q) ∧ Holds q (l.withdraw e).2 := by
  obtain ⟨parent, node⟩ := p
  obtain rfl : parent = true := h.parent
  rcases h.node with ⟨hnode, rfl⟩ | hnode
  · obtain rfl : node = .absent := hnode
    exact ⟨_, rfl, rfl, Or.inl ⟨rfl, rfl⟩⟩
  · obtain rfl : node = .file (Utf8.encode l.text) := hnode
    have hheld := holds_text e l
    cases hpresent : (l.withdraw e).1 with
    | false =>
      -- The file is left alone, and there is nothing to take out of the listing either.
      have hkept : (l.withdraw e).2 = l := by
        simp only [Listing.withdraw, List.contains_eq_mem, decide_eq_false_iff_not] at hpresent ⊢
        exact List.filter_eq_self.mpr fun f hf => by
          simp only [bne_iff_ne, ne_eq]
          rintro rfl
          exact hpresent hf
      rw [hpresent] at hheld
      refine ⟨⟨true, .file (Utf8.encode l.text)⟩, ?_, rfl, Or.inr (by rw [hkept])⟩
      simp [File.withdraw, Disk.Routine.run, runFrom, locked, finish, Disk.perform, Utf8.decode?_encode, File.strike,
        hheld]
    | true =>
      rw [hpresent] at hheld
      refine ⟨⟨true, .file (Utf8.encode (l.withdraw e).2.text)⟩, ?_, rfl, Or.inr rfl⟩
      simp [File.withdraw, Disk.Routine.run, runFrom, attempt, locked, finish, Disk.perform, Utf8.decode?_encode,
        File.strike, hheld, withdrawn_flatten, Disk.overwrite]

theorem Holds.reset (h : Holds p l) : ∃ q, File.reset.run p = (.ok (), q) ∧ Holds q [] := by
  obtain ⟨parent, node⟩ := p
  obtain rfl : parent = true := h.parent
  refine ⟨⟨true, .file []⟩, ?_, rfl, Or.inr rfl⟩
  rcases h.node with ⟨hnode, -⟩ | hnode
  · obtain rfl : node = .absent := hnode
    rfl
  · obtain rfl : node = .file (Utf8.encode l.text) := hnode
    rfl

/-! ### Any requests -/

/-- One request is answered alike, and leaves the file with the listing. -/
theorem Holds.serve (h : Holds p l) (r : Request) :
    (File.serve r p).1 = (Listing.serve r l).1 ∧ Holds (File.serve r p).2 (Listing.serve r l).2 := by
  cases r with
  | reset =>
    obtain ⟨q, hrun, hq⟩ := h.reset
    simp only [File.serve, Listing.serve, hrun]
    exact ⟨rfl, hq⟩
  | publish e =>
    obtain ⟨q, hrun, hq⟩ := h.publish e
    simp only [File.serve, Listing.serve, hrun]
    exact ⟨rfl, hq⟩
  | withdraw e =>
    obtain ⟨q, hrun, hq⟩ := h.withdraw e
    simp only [File.serve, Listing.serve, hrun]
    exact ⟨rfl, hq⟩
  | refresh =>
    simp only [File.serve, Listing.serve, h.refresh]
    exact ⟨rfl, h⟩
  | lookup role =>
    simp only [File.serve, Listing.serve, File.lookup, h.refresh]
    exact ⟨rfl, h⟩

theorem Holds.serveAll (h : Holds p l) (rs : List Request) :
    (serveAll File.serve rs p).1 = (Registry.serveAll Listing.serve rs l).1 ∧
      Holds (Registry.serveAll File.serve rs p).2 (Registry.serveAll Listing.serve rs l).2 := by
  induction rs generalizing p l with
  | nil => exact ⟨rfl, h⟩
  | cons r rs ih =>
    obtain ⟨hresponse, hnext⟩ := h.serve r
    obtain ⟨hresponses, hlast⟩ := ih hnext
    simp only [Registry.serveAll]
    exact ⟨by rw [hresponse, hresponses], hlast⟩

/-- From a file that is not there yet on, a registry in the file and one in memory give the same responses to any
    requests, and after them the file holds the text of the listing. -/
theorem file_answers_as_listing (rs : List Request) :
    (serveAll File.serve rs ⟨true, .absent⟩).1 = (serveAll Listing.serve rs []).1 ∧
      text? (serveAll File.serve rs ⟨true, .absent⟩).2 = some (serveAll Listing.serve rs []).2.text := by
  have h : Holds ⟨true, .absent⟩ [] := ⟨rfl, Or.inl ⟨rfl, rfl⟩⟩
  obtain ⟨hresponses, hholds⟩ := h.serveAll rs
  exact ⟨hresponses, hholds.text?_eq⟩

end Registry
end GridFlight
