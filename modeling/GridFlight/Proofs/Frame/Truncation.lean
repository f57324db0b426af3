import GridFlight.Proofs.Frame.Payload
import Mathlib.Order.Bounds.Basic

/-! Texts that are too long for a payload. The end of such a text is cut off between two characters, by stepping back
    byte by byte from where the room ends; no longer beginning of the text could have been stored. -/

namespace GridFlight

/-! ### Boundaries between characters -/

namespace Utf8

/-- Whether a byte of a text is the first one of a character. Bytes from 128 to 191 go on with one. -/
def begins (b : UInt8) : Bool := b < 0x80 || 0xC0 ≤ b

/-- Whether a text can be cut in front of one of its bytes, or behind the last one. -/
def isBoundary (bytes : List UInt8) (index : Nat) : Bool :=
  if index = 0 then true
  else match bytes[index]? with
    | some b => begins b
    | none => index == bytes.length

/-- Bytes above 247 are in no text; of the others just these begin a character. -/
theorem begins_iff_of_lt {b : UInt8} (h : b.toNat < 0xF8) : begins b = true ↔ b.IsUTF8FirstByte := by
  have hall : ∀ n < 0xF8, begins (UInt8.ofNat n) = true ↔ (UInt8.ofNat n).IsUTF8FirstByte := by decide +kernel
  have hb := hall b.toNat h
  rwa [UInt8.ofNat_toNat] at hb

theorem lt_of_mem_encode {b : UInt8} {s : String} (h : b ∈ encode s) : b.toNat < 0xF8 := by
  rw [encode_eq_flatMap] at h
  obtain ⟨c, -, hb⟩ := List.mem_flatMap.mp h
  rcases toNat_of_mem_encodeChar hb with ⟨hval, hnarrow⟩ | ⟨-, hlt⟩
  · omega
  · exact hlt

/-- One byte is enough to tell where a text can be cut. -/
theorem isBoundary_encode {s : String} {k : Nat} :
    isBoundary (encode s) k = true ↔ String.Pos.Raw.IsValid s ⟨k⟩ := by
  unfold isBoundary
  split
  · next hk =>
    subst hk
    exact iff_of_true rfl String.Pos.Raw.isValid_zero
  · rw [String.Pos.Raw.isValid_iff_isUTF8FirstByte, String.Pos.Raw.ext_iff]
    split
    · next b hb =>
      obtain ⟨hlt, hget⟩ := List.getElem?_eq_some_iff.mp hb
      have hinside : (⟨k⟩ : String.Pos.Raw) < s.rawEndPos := hlt
      have hbyte : s.getUTF8Byte ⟨k⟩ hinside = b := hget
      rw [begins_iff_of_lt (lt_of_mem_encode (List.mem_of_getElem? hb)), ← hbyte]
      exact ⟨fun h => Or.inr ⟨hinside, h⟩, fun h => h.elim (fun hend => absurd hend (Nat.ne_of_lt hlt)) (·.2)⟩
    · next hb =>
      have houtside : ¬(⟨k⟩ : String.Pos.Raw) < s.rawEndPos := Nat.not_lt.mpr (List.getElem?_eq_none_iff.mp hb)
      rw [beq_iff_eq]
      exact ⟨Or.inl, fun h => h.elim id fun hinside => absurd hinside.1 houtside⟩

/-! ### The longest beginning -/

theorem exists_fit_append (room : Nat) (s : String) : ∃ dropped, s = fit room s ++ dropped := by
  obtain ⟨rest, hrest⟩ := fitOf_isPrefix room s.toList
  refine ⟨String.ofList rest, ?_⟩
  rw [fit, ← String.ofList_append, hrest, String.ofList_toList]

theorem length_encode_fit_le (room : Nat) (s : String) : (encode (fit room s)).length ≤ room := by
  rw [encode_eq_flatMap, fit, String.toList_ofList]
  exact length_fitOf_le room s.toList

/-- No boundary within the room lies behind the text that is left. -/
theorem isGreatest_fit (room : Nat) (s : String) :
    IsGreatest {k | k ≤ room ∧ String.Pos.Raw.IsValid s ⟨k⟩} (encode (fit room s)).length := by
  refine ⟨⟨length_encode_fit_le room s, ?_⟩, fun k ⟨hroom, hvalid⟩ => ?_⟩
  · obtain ⟨dropped, hs⟩ := exists_fit_append room s
    exact String.Pos.Raw.isValid_iff_exists_append.mpr ⟨_, dropped, hs, rfl⟩
  · obtain ⟨front, rest, rfl, hk⟩ := String.Pos.Raw.isValid_iff_exists_append.mp hvalid
    obtain rfl : k = (encode front).length := congrArg String.Pos.Raw.byteIdx hk
    have hfront : front.toList <+: fitOf room (front ++ rest).toList := by
      rw [encode_eq_flatMap] at hroom
      refine isPrefix_fitOf ?_ hroom
      rw [String.toList_append]
      exact List.prefix_append _ _
    obtain ⟨later, hlater⟩ := hfront
    rw [fit, ← hlater, String.ofList_append, encode_append, String.ofList_toList, List.length_append]
    exact Nat.le_add_right _ _

end Utf8

namespace Frame

/-! ### Checked work -/

/-- Why the work on a frame would be broken off where subtractions and ranges are checked. -/
inductive Halt where
  | underflow
  | badRange
  deriving DecidableEq, Repr

namespace Checked

def sub (m n : Nat) : Except Halt Nat := if n ≤ m then .ok (m - n) else .error .underflow

/-- Steps back from an index until it is a boundary. -/
def stepBack (bytes : List UInt8) (index : Nat) : Except Halt Nat :=
  if Utf8.isBoundary bytes index then .ok index
  else match index with
    | 0 => .error .underflow
    | n + 1 => stepBack bytes n

/-- The number of bytes behind the first ones, if there are more. -/
def countBehind (bytes : List UInt8) (length : Nat) : Except Halt (Option Nat) :=
  if length < bytes.length then (sub bytes.length length).map some else .ok none

def front (bytes : List UInt8) (length : Nat) : Except Halt (List UInt8) :=
  if length ≤ bytes.length then .ok (bytes.take length) else .error .badRange

/-- Copies bytes to the beginning of a payload, into a range of the same length. -/
def overwrite (p : Payload) (length : Nat) (bytes : List UInt8) : Except Halt Payload :=
  if h : length ≤ payloadSize ∧ bytes.length = length then
    .ok ⟨bytes ++ p.bytes.drop length, by
      rw [List.length_append, List.length_drop, p.length_bytes, h.2, Nat.add_sub_cancel' h.1]⟩
  else .error .badRange

/-- A frame with the text up to the last boundary that leaves room for a zero byte, and how many bytes are dropped, if
    any are. -/
def ofText (kind : Kind) (text : String) (bulk : List Cell) : Except Halt (Frame × Option Nat) := do
  let bytes := Utf8.encode text
  let length ← stepBack bytes (min bytes.length (payloadSize - 1))
  let dropped ← countBehind bytes length
  let stored ← front bytes length
  let payload ← overwrite (.pad []) length stored
  .ok (⟨kind.code, payload, bulk⟩, dropped)

/-- The beginning is a boundary, so no step is made in front of it, and the first boundary met is the last there is. -/
theorem exists_stepBack (bytes : List UInt8) (index : Nat) : ∃ k,
    stepBack bytes index = .ok k ∧ IsGreatest {k | k ≤ index ∧ Utf8.isBoundary bytes k = true} k := by
  induction index with
  | zero => exact ⟨0, rfl, ⟨Nat.le_refl 0, rfl⟩, fun k hk => hk.1⟩
  | succ n ih =>
    rw [stepBack]
    by_cases hboundary : Utf8.isBoundary bytes (n + 1) = true
    · exact ⟨n + 1, if_pos hboundary, ⟨Nat.le_refl _, hboundary⟩, fun k hk => hk.1⟩
    · obtain ⟨k, hk, ⟨hle, htrue⟩, hgreatest⟩ := ih
      refine ⟨k, (if_neg hboundary).trans hk, ⟨Nat.le_succ_of_le hle, htrue⟩, fun j ⟨hj, hj'⟩ => ?_⟩
      have hne : j ≠ n + 1 := fun e => hboundary (e ▸ hj')
      exact hgreatest ⟨by omega, hj'⟩

theorem stepBack_encode (room : Nat) (text : String) :
    stepBack (Utf8.encode text) (min (Utf8.encode text).length room) =
      .ok (Utf8.encode (Utf8.fit room text)).length := by
  obtain ⟨k, hk, hgreatest⟩ := exists_stepBack (Utf8.encode text) (min (Utf8.encode text).length room)
  have hsame : {k | k ≤ min (Utf8.encode text).length room ∧ Utf8.isBoundary (Utf8.encode text) k = true} =
      {k | k ≤ room ∧ String.Pos.Raw.IsValid text ⟨k⟩} := by
    ext j
    rw [Set.mem_ofPred_eq, Set.mem_ofPred_eq, Utf8.isBoundary_encode]
    -- A boundary is never behind the end, so the length of the text sets no further limit.
    refine and_congr_left fun hvalid => ?_
    have hle : j ≤ (Utf8.encode text).length := hvalid.le_utf8ByteSize
    omega
  rw [hsame] at hgreatest
  rw [hk, hgreatest.unique (Utf8.isGreatest_fit room text)]

theorem overwrite_zeros {bytes : List UInt8} (h : bytes.length ≤ payloadSize) :
    overwrite (.pad []) bytes.length bytes = .ok (.pad bytes) := by
  rw [overwrite, dif_pos ⟨h, rfl⟩, Except.ok.injEq, Payload.mk.injEq, Payload.bytes_pad (Nat.zero_le _),
    List.nil_append, List.drop_replicate]
  exact (Payload.bytes_pad h).symm

theorem countBehind_append (bytes rest : List UInt8) :
    countBehind (bytes ++ rest) bytes.length = .ok (if rest = [] then none else some rest.length) := by
  rw [countBehind, sub, List.length_append]
  by_cases hrest : rest = []
  · subst hrest
    rw [if_neg (by simp), if_pos rfl]
  · have hpos := List.length_pos_iff.mpr hrest
    rw [if_pos (by omega), if_pos (by omega), if_neg hrest, Nat.add_sub_cancel_left]
    rfl

theorem front_append (bytes rest : List UInt8) : front (bytes ++ rest) bytes.length = .ok bytes := by
  rw [front, if_pos (by simp), List.take_left]

/-- Checks find nothing wrong with the cut. -/
theorem ofText_eq (kind : Kind) {text dropped : String} (bulk : List Cell)
    (h : text = Utf8.fit (payloadSize - 1) text ++ dropped) :
    ofText kind text bulk =
      .ok (Frame.ofText kind text bulk, if dropped = "" then none else some (Utf8.encode dropped).length) := by
  have hbytes : Utf8.encode text = Utf8.encode (Utf8.fit (payloadSize - 1) text) ++ Utf8.encode dropped := by
    rw [← Utf8.encode_append, ← h]
  have hcount := countBehind_append (Utf8.encode (Utf8.fit (payloadSize - 1) text)) (Utf8.encode dropped)
  have hfront := front_append (Utf8.encode (Utf8.fit (payloadSize - 1) text)) (Utf8.encode dropped)
  have hcopy := overwrite_zeros (Nat.le_trans (Utf8.length_encode_fit_le (payloadSize - 1) text) (Nat.sub_le _ _))
  rw [← hbytes] at hcount hfront
  simp only [ofText, stepBack_encode, hcount, hfront, hcopy, bind, Except.bind, Utf8.encode_eq_nil_iff]
  rfl

end Checked

/-! ### Texts in payloads -/

/-- A text is written without a fault, whatever its length and its characters. Of the text there stands in the payload
    the longest beginning of at most seventy-nine bytes that ends between two characters, with nothing but zeros
    behind. The payload can always be read, and what is read is that beginning up to its first zero character. -/
theorem longest_beginning_stored (kind : Kind) (text : String) (bulk : List Cell) : ∃ stored dropped,
    text = stored ++ dropped ∧
      IsGreatest {k | k ≤ 79 ∧ String.Pos.Raw.IsValid text ⟨k⟩} (Utf8.encode stored).length ∧
      Checked.ofText kind text bulk =
        .ok (ofText kind text bulk, if dropped = "" then none else some (Utf8.encode dropped).length) ∧
      (ofText kind text bulk).payload.bytes =
        Utf8.encode stored ++ List.replicate (80 - (Utf8.encode stored).length) 0 ∧
      (ofText kind text bulk).payload.text? = some (String.ofList (stored.toList.takeWhile (· ≠ '\x00'))) := by
  obtain ⟨dropped, htext⟩ := Utf8.exists_fit_append (payloadSize - 1) text
  have hroom : (Utf8.encode (Utf8.fit (payloadSize - 1) text)).length < payloadSize :=
    Nat.lt_succ_of_le (Utf8.length_encode_fit_le (payloadSize - 1) text)
  exact ⟨Utf8.fit (payloadSize - 1) text, dropped, htext, Utf8.isGreatest_fit (payloadSize - 1) text,
    Checked.ofText_eq kind bulk htext, Payload.bytes_pad (Nat.le_of_lt hroom), Payload.text?_pad hroom⟩

/-- The byte at the end of the room is the first of two, and one of the characters before is zero. -/
example : (Payload.ofText (String.ofList ('a' :: '\x00' :: List.replicate 60 'é'))).text? = some "a" := by
  decide +kernel

end Frame
end GridFlight
