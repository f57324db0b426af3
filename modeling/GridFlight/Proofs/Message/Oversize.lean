import GridFlight.Proofs.Message.RoundTrip
import Mathlib.Algebra.Group.Nat.Defs

/-! Sets of cells beyond the limit of a frame. A frame announces the number of its cells, and a reader refuses a number
    above the limit; a writer announces any number. So a channel carries everything that is sent up to the first set
    beyond the limit, and nothing from there on. -/

namespace GridFlight

/-! ### Numbers that are cut -/

namespace Utf8

theorem fitOf_eq_take {room : Nat} {cs : List Char} (h : ∀ c ∈ cs, c.utf8Size = 1) : fitOf room cs = cs.take room := by
  induction cs generalizing room with
  | nil => simp [fitOf]
  | cons c cs ih =>
    have hcs : ∀ d ∈ cs, d.utf8Size = 1 := fun d hd => h d (List.mem_cons_of_mem c hd)
    rw [fitOf, h c List.mem_cons_self]
    cases room with
    | zero => rfl
    | succ room => rw [if_pos (by omega), Nat.add_sub_cancel, ih hcs, List.take_succ_cons]

end Utf8

namespace Number

/-- The leading digits of a number are a number again, and no smaller than their count allows. -/
theorem exists_take_toDigits {k : Nat} (hk : 0 < k) (n : Nat) :
    ∃ m, (Nat.toDigits 10 n).take (k + 1) = Nat.toDigits 10 m ∧ m < 10 ^ (k + 1) ∧ (n < 10 ^ (k + 1) → m = n) ∧
      (10 ^ (k + 1) ≤ n → 10 ^ k ≤ m) := by
  -- Whatever is too long loses its last digit and is divided by ten.
  induction n using Nat.strongRecOn with
  | _ n ih =>
    by_cases hn : n < 10 ^ (k + 1)
    · have hlength := (Nat.length_toDigits_le_iff (by decide) (Nat.succ_pos k)).mpr hn
      exact ⟨n, List.take_of_length_le hlength, hn, fun _ => rfl, fun hle => absurd hn (Nat.not_lt.mpr hle)⟩
    · have hpow : 10 ^ (k + 1) = 10 ^ k * 10 := Nat.pow_succ ..
      have hpos : 0 < 10 ^ k := Nat.pow_pos (by decide)
      have hdiv : 10 ^ k ≤ n / 10 := by omega
      have hlength : k < (Nat.toDigits 10 (n / 10)).length := by
        rw [← Nat.not_le, Nat.length_toDigits_le_iff (by decide) hk]
        exact Nat.not_lt.mpr hdiv
      obtain ⟨m, htake, hshort, hsame, hlarge⟩ := ih (n / 10) (by omega)
      refine ⟨m, ?_, hshort, fun hlt => absurd hlt hn, fun _ => ?_⟩
      · rw [Nat.toDigits_of_base_le (by decide) (by omega), List.take_append_of_le_length hlength, htake]
      · by_cases hfits : n / 10 < 10 ^ (k + 1)
        · rw [hsame hfits]
          exact hdiv
        · exact hlarge (Nat.not_lt.mp hfits)

/-- A number is written into a payload with all its digits, or with its first seventy-nine. -/
theorem exists_fit_repr (n : Nat) : ∃ m, Utf8.fit (Frame.payloadSize - 1) n.repr = m.repr ∧ m < 10 ^ 79 ∧
    (n < 10 ^ 79 → m = n) ∧ (10 ^ 79 ≤ n → 10 ^ 78 ≤ m) := by
  obtain ⟨m, htake, hrest⟩ := exists_take_toDigits (k := 78) (by decide) n
  refine ⟨m, ?_, hrest⟩
  have hdigits : ∀ c ∈ n.repr.toList, c.utf8Size = 1 := fun _ hc => utf8Size_of_isDigit (isDigit_of_mem_repr hc)
  rw [Utf8.fit, Utf8.fitOf_eq_take hdigits, Nat.toList_repr]
  exact (congrArg String.ofList htake).trans Nat.repr_eq_ofList_toDigits.symm

end Number

/-! ### Counts beyond the limit -/

namespace Frame

/-- The error about a number of cells beyond the limit: one of more than 64 bits is not read at all. -/
def countFault (count : Nat) : FrameError :=
  if count ≤ 9223372036854775807 then .bulkTooLarge count
  else .badCount (Utf8.fit (payloadSize - 1) count.repr)

theorem bulkCount_repr_of_lt {n : Nat} (h : maxBulk < n) : bulkCount (.ofText n.repr) = .error (countFault n) := by
  have hmax : maxBulk = 65536 := rfl
  obtain ⟨m, hfit, hshort, hsame, hlarge⟩ := Number.exists_fit_repr n
  have hlength : (Utf8.encode m.repr).length < payloadSize := by
    rw [Number.length_encode_repr]
    exact Nat.lt_succ_of_le ((Nat.length_repr_le_iff (by decide)).mpr hshort)
  have htext : (Payload.ofText n.repr).text? = some m.repr := by
    rw [Payload.ofText, hfit, Payload.text?_pad_of_notMem hlength (Number.zero_notMem_repr m)]
  have hfield : (Text.fields m.repr).headD "" = m.repr := by
    rw [Number.fields_repr]
    rfl
  unfold bulkCount
  rw [htext]
  dsimp only
  rw [hfield]
  by_cases hword : n ≤ 9223372036854775807
  · obtain rfl := hsame (by omega)
    rw [Number.readInt64?_repr hword]
    dsimp only
    rw [if_neg (by omega), Int.toNat_natCast, if_pos h, countFault, if_pos hword]
  · have hread : Number.readInt64? m.repr = none := by
      rw [Number.readInt64?, Number.readInt?_repr, Option.bind_some, if_neg (by omega)]
    have htrim : Text.trim m.repr = m.repr := by
      rw [Text.trim, Text.trimOf_of_unblank fun _ hc => Text.isBlank_of_isDigit (Number.isDigit_of_mem_repr hc)]
      exact String.ofList_toList
    rw [hread, countFault, if_neg hword, hfit]
    dsimp only
    rw [htrim]

end Frame

/-! ### Messages -/

namespace Message

/-- The message has no more cells than a reader takes. -/
def within (m : Message) : Bool := m.cells.length ≤ Frame.maxBulk

theorem decode_of_within {m : Message} (h : m.within = true) (more : List UInt8) :
    Frame.decode (m.encode ++ more) = (.ok (some m.toFrame), more) :=
  Frame.decode_eq_frame_iff.mpr ⟨wellFormed_toFrame (of_decide_eq_true h), rfl⟩

theorem decode_of_beyond {m : Message} (h : m.within = false) (more : List UInt8) :
    Frame.decode (m.encode ++ more) = (.error (Frame.countFault m.cells.length), m.encode ++ more) := by
  have hbeyond : Frame.maxBulk < m.cells.length := Nat.not_le.mp (of_decide_eq_false h)
  have hannounced : Frame.announced m.toFrame.code m.toFrame.payload = .error (Frame.countFault m.cells.length) := by
    cases m with
    | obstacles cells | targets cells =>
      rw [Frame.announced_of_carriesBulk (by simp [toFrame, Frame.ofText, kind])]
      exact Frame.bulkCount_repr_of_lt hbeyond
    | _ => exact absurd hbeyond (Nat.not_lt_zero _)
  refine Frame.decode_eq_error_iff.mpr ⟨rfl, _, _, Cell.encodeAll m.toFrame.bulk ++ more, ?_, hannounced⟩
  rw [encode, Frame.encode, List.append_assoc]

/-- What a reader makes of everything that was sent on a channel. -/
theorem decodeAll_sent (sent : List Message) : Frame.decodeAll (sent.flatMap encode) =
    ⟨(sent.takeWhile within).map toFrame,
      ((sent.dropWhile within).head?).map fun m => Frame.countFault m.cells.length,
      (sent.dropWhile within).flatMap encode⟩ := by
  induction sent with
  | nil => exact Frame.decodeAll_nil
  | cons m sent ih =>
    cases hm : m.within with
    | true =>
      have hdecode := decode_of_within hm (sent.flatMap encode)
      rw [List.flatMap_cons, Frame.decodeAll_of_frame hdecode, ih, List.takeWhile_cons_of_pos hm,
        List.dropWhile_cons_of_pos hm, List.map_cons]
    | false =>
      have hbeyond : ¬m.within = true := by simp [hm]
      have hdecode := decode_of_beyond hm (sent.flatMap encode)
      rw [List.flatMap_cons, Frame.decodeAll_of_error hdecode, List.takeWhile_cons_of_neg hbeyond,
        List.dropWhile_cons_of_neg hbeyond]
      rfl

/-- A reader takes a message out of the bytes that were written for it exactly when it has no more cells than the
    limit. Any larger set is an error, and neither it nor anything sent after it on the channel is ever taken. -/
theorem taken_up_to_first_beyond_limit (m : Message) (more : List UInt8) (sent : List Message) :
    (Frame.decode (m.encode ++ more) =
      if m.cells.length ≤ 65536 then (.ok (some m.toFrame), more)
      else (.error (Frame.countFault m.cells.length), m.encode ++ more)) ∧
      Frame.decodeAll (sent.flatMap encode) =
        ⟨(sent.takeWhile within).map toFrame,
          ((sent.dropWhile within).head?).map fun m => Frame.countFault m.cells.length,
          (sent.dropWhile within).flatMap encode⟩ := by
  refine ⟨?_, decodeAll_sent sent⟩
  split
  · next h => exact decode_of_within (decide_eq_true h) more
  · next h => exact decode_of_beyond (decide_eq_false h) more

/-- One cell more than the limit. -/
theorem one_cell_beyond_limit :
    let m := obstacles (List.replicate 65537 ⟨1, 1⟩)
    Frame.decode m.encode = (.error (.bulkTooLarge 65537), m.encode) := by
  intro m
  have hcells : m.cells.length = 65537 := List.length_replicate
  have hbeyond : m.within = false := decide_eq_false (by rw [hcells]; decide)
  have hdecode := decode_of_beyond hbeyond []
  rw [List.append_nil, hcells] at hdecode
  exact hdecode

end Message
end GridFlight
