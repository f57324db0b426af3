import GridFlight.Proofs.Registry.Lines

/-! Signed decimals. An integer is written as its digits, behind a minus sign where it is negative, and reads back as
    itself; what is written holds no blank. -/

namespace GridFlight
namespace Number

theorem writeInt_of_neg {n : Int} (h : n < 0) : writeInt n = "-" ++ n.natAbs.repr := if_pos h

theorem writeInt_of_nonneg {n : Int} (h : 0 ≤ n) : writeInt n = n.natAbs.repr := if_neg (Int.not_lt.mpr h)

theorem mem_writeInt {n : Int} {c : Char} (h : c ∈ (writeInt n).toList) : c = '-' ∨ c.isDigit = true := by
  rcases Int.lt_or_le n 0 with hneg | hnonneg
  · rw [writeInt_of_neg hneg, String.toList_append, List.mem_append] at h
    rcases h with hsign | hdigit
    · exact Or.inl (List.mem_singleton.mp hsign)
    · exact Or.inr (isDigit_of_mem_repr hdigit)
  · rw [writeInt_of_nonneg hnonneg] at h
    exact Or.inr (isDigit_of_mem_repr h)

theorem toList_writeInt_ne_nil (n : Int) : (writeInt n).toList ≠ [] := by
  rcases Int.lt_or_le n 0 with hneg | hnonneg
  · rw [writeInt_of_neg hneg, String.toList_append]
    exact List.append_ne_nil_of_right_ne_nil _ (toList_repr_ne_nil _)
  · rw [writeInt_of_nonneg hnonneg]
    exact toList_repr_ne_nil _

theorem writeInt_unblank (n : Int) : ∀ c ∈ (writeInt n).toList, Text.isBlank c = false := by
  intro c hc
  rcases mem_writeInt hc with rfl | hdigit
  · rfl
  · exact Text.isBlank_of_isDigit hdigit

theorem zero_notMem_writeInt (n : Int) : '\x00' ∉ (writeInt n).toList := by
  intro h
  rcases mem_writeInt h with hsign | hdigit
  · exact absurd hsign (by decide)
  · cases hdigit

theorem length_encode_writeInt_le (n : Int32) : (Utf8.encode (writeInt n.toInt)).length ≤ 21 := by
  have hlow := n.le_toInt
  have hhigh := n.toInt_lt
  have hsize : UInt64.size = 18446744073709551616 := rfl
  have hdigits : (Utf8.encode n.toInt.natAbs.repr).length ≤ 20 := length_encode_repr_le (by omega)
  rcases Int.lt_or_le n.toInt 0 with hneg | hnonneg
  · have hsign : (Utf8.encode "-").length = 1 := rfl
    rw [writeInt_of_neg hneg, Utf8.encode_append, List.length_append, hsign]
    omega
  · rw [writeInt_of_nonneg hnonneg]
    omega

/-! ### Reading -/

theorem readInt?_writeInt (n : Int) : readInt? (writeInt n).toList = some n := by
  rcases Int.lt_or_le n 0 with hneg | hnonneg
  · have hread : readInt? ('-' :: n.natAbs.repr.toList) = some (-(n.natAbs : Int)) := by
      rw [readInt?, readDigits?_repr]
      rfl
    rw [writeInt_of_neg hneg, String.toList_append]
    exact hread.trans (congrArg some (by omega))
  · rw [writeInt_of_nonneg hnonneg, readInt?_repr, Int.natAbs_of_nonneg hnonneg]

theorem readInt32?_writeInt (n : Int32) : readInt32? (writeInt n.toInt) = some n := by
  have hlow := n.le_toInt
  have hhigh := n.toInt_lt
  rw [readInt32?, readInt?_writeInt, Option.bind_some, if_pos (by omega), Int32.ofInt_toInt]

theorem trim_writeInt (n : Int) : Text.trim (writeInt n) = writeInt n := by
  rw [Text.trim, Text.trimOf_of_unblank (writeInt_unblank n)]
  exact String.ofList_toList

/-- Two integers with a blank between them are two fields. -/
theorem fields_writeInt_pair (m n : Int) :
    Text.fields (writeInt m ++ " " ++ writeInt n) = [writeInt m, writeInt n] := by
  have hspace : Text.isBlank ' ' = true := rfl
  have hlast : Text.fields (writeInt n) = [writeInt n] :=
    Text.fields_of_unblank (toList_writeInt_ne_nil n) (writeInt_unblank n)
  have htext : (writeInt m ++ " " ++ writeInt n).toList = (writeInt m).toList ++ ' ' :: (writeInt n).toList := by simp
  rw [Text.fields, htext, Text.fieldsOf_append_cons (toList_writeInt_ne_nil m) (writeInt_unblank m) hspace,
    List.map_cons, String.ofList_toList]
  exact congrArg (writeInt m :: ·) hlast

end Number
end GridFlight
