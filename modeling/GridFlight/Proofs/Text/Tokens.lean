import GridFlight.Proofs.Frame.Payload

/-! Tokens: texts of printing characters without a blank. A token is as many bytes as characters, and tokens with blanks
    between them are the fields of the text that they make. -/

namespace GridFlight
namespace Text

/-- The printing characters of ASCII other than the blank. -/
def isVisible (c : Char) : Bool := 33 ≤ c.toNat && c.toNat ≤ 126

section

variable {c : Char}

theorem isVisible_iff : isVisible c = true ↔ 33 ≤ c.toNat ∧ c.toNat ≤ 126 := by
  simp [isVisible]

theorem isVisible_of_isDigit (h : c.isDigit = true) : isVisible c = true := by
  rw [Char.isDigit_iff_toNat] at h
  have hzero : '0'.toNat = 48 := rfl
  have hnine : '9'.toNat = 57 := rfl
  rw [isVisible_iff]
  omega

theorem isBlank_of_isVisible (h : isVisible c = true) : isBlank c = false := by
  rw [isVisible_iff] at h
  simp only [isBlank, List.contains_eq_mem, decide_eq_false_iff_not]
  intro hmem
  simp only [blankCodes, List.mem_cons, List.not_mem_nil, or_false] at hmem
  omega

theorem utf8Size_of_isVisible (h : isVisible c = true) : c.utf8Size = 1 := by
  rw [isVisible_iff] at h
  rw [Char.utf8Size_eq_one_iff, UInt32.le_iff_toNat_le]
  exact Nat.le_trans h.2 (by decide)

end

structure Token (s : String) : Prop where
  nonempty : s.toList ≠ []
  visible : ∀ c ∈ s.toList, isVisible c = true

namespace Token

variable {s : String}

theorem unblank (h : Token s) : ∀ c ∈ s.toList, isBlank c = false := fun c hc => isBlank_of_isVisible (h.visible c hc)

theorem length_encode (h : Token s) : (Utf8.encode s).length = s.length :=
  Utf8.length_encode_of_narrow fun c hc => utf8Size_of_isVisible (h.visible c hc)

end Token

/-! ### Tokens in a row -/

section

variable {tokens : List String}

theorem mem_intercalate {c : Char} (h : c ∈ (" ".intercalate tokens).toList) :
    c = ' ' ∨ ∃ s ∈ tokens, c ∈ s.toList := by
  induction tokens with
  | nil => simp at h
  | cons s tokens ih =>
    cases tokens with
    | nil =>
      rw [String.intercalate_singleton] at h
      exact Or.inr ⟨s, List.mem_cons_self, h⟩
    | cons t tokens =>
      rw [String.intercalate_cons_cons, String.toList_append, String.toList_append, List.mem_append,
        List.mem_append] at h
      rcases h with (hfirst | hblank) | hrest
      · exact Or.inr ⟨s, List.mem_cons_self, hfirst⟩
      · exact Or.inl (List.mem_singleton.mp hblank)
      · exact (ih hrest).imp_right fun ⟨u, hu, hc⟩ => ⟨u, List.mem_cons_of_mem s hu, hc⟩

theorem zero_notMem_intercalate (h : ∀ s ∈ tokens, Token s) : '\x00' ∉ (" ".intercalate tokens).toList := by
  intro hzero
  rcases mem_intercalate hzero with hblank | ⟨s, hs, hmem⟩
  · cases hblank
  · exact absurd ((h s hs).visible _ hmem) (by decide)

/-- Tokens of at most `width` bytes, and a blank behind each but the last. -/
theorem length_encode_intercalate_le {width : Nat} (h : ∀ s ∈ tokens, (Utf8.encode s).length ≤ width) :
    (Utf8.encode (" ".intercalate tokens)).length ≤ tokens.length * (width + 1) - 1 := by
  induction tokens with
  | nil => exact Nat.zero_le _
  | cons s tokens ih =>
    have hs := h s List.mem_cons_self
    have hrest := ih fun t ht => h t (List.mem_cons_of_mem s ht)
    cases tokens with
    | nil =>
      rw [String.intercalate_singleton, List.length_singleton]
      omega
    | cons t tokens =>
      have hblank : (Utf8.encode " ").length = 1 := rfl
      rw [List.length_cons, Nat.add_mul] at hrest
      rw [String.intercalate_cons_cons, Utf8.encode_append, Utf8.encode_append, List.length_append, List.length_append,
        List.length_cons, List.length_cons, Nat.add_mul, Nat.add_mul]
      omega

/-- Tokens with blanks between them are the fields of their text. -/
theorem fields_intercalate (h : ∀ s ∈ tokens, Token s) : fields (" ".intercalate tokens) = tokens := by
  induction tokens with
  | nil => rfl
  | cons s tokens ih =>
    have hs := h s List.mem_cons_self
    have hrest := ih fun t ht => h t (List.mem_cons_of_mem s ht)
    cases tokens with
    | nil =>
      rw [String.intercalate_singleton]
      exact fields_of_unblank hs.nonempty hs.unblank
    | cons t tokens =>
      have htext : (s ++ " " ++ " ".intercalate (t :: tokens)).toList =
          s.toList ++ ' ' :: (" ".intercalate (t :: tokens)).toList := by simp
      rw [fields] at hrest
      rw [String.intercalate_cons_cons, fields, htext, fieldsOf_append_cons hs.nonempty hs.unblank rfl, List.map_cons,
        hrest, String.ofList_toList]

end

end Text
end GridFlight
