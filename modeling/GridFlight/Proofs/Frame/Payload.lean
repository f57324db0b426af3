import GridFlight.Frame.Codec
import Mathlib.Data.List.TakeWhile

/-! Texts in payloads. What is stored of a text is its longest beginning that fits, and what is read back ends at the
    first zero character; so a text that fits and has no zero character comes back unchanged, and so does a number. -/

namespace GridFlight

/-! ### Encoded text -/

namespace Utf8

theorem encode_eq_flatMap (s : String) : encode s = s.toList.flatMap String.utf8EncodeChar := by
  rw [encode, ← String.utf8Encode_toList, List.utf8Encode]
  simp

theorem encode_append (s t : String) : encode (s ++ t) = encode s ++ encode t := by
  simp [encode_eq_flatMap]

theorem encode_inj {s t : String} : encode s = encode t ↔ s = t := by
  refine ⟨fun h => ?_, congrArg encode⟩
  have hread := decode?_encode s
  rw [h, decode?_encode] at hread
  exact (Option.some.inj hread).symm

theorem encode_eq_nil_iff {s : String} : encode s = [] ↔ s = "" := by
  rw [← List.length_eq_zero_iff]
  exact String.utf8ByteSize_eq_zero_iff

/-- The one byte of a narrow character is its number, and the bytes of a wider one are all from 128 to 247. -/
theorem toNat_of_mem_encodeChar {b : UInt8} {c : Char} (h : b ∈ String.utf8EncodeChar c) :
    b.toNat = c.toNat ∧ c.toNat < 0x80 ∨ 0x80 ≤ b.toNat ∧ b.toNat < 0xF8 := by
  have hc : c.val.toNat = c.toNat := rfl
  simp only [String.utf8EncodeChar] at h
  split at h
  · rw [List.mem_singleton.mp h, UInt8.toNat_ofNat']
    omega
  · right
    split at h
    · simp only [List.mem_cons, List.not_mem_nil, or_false] at h
      rcases h with rfl | rfl <;> rw [UInt8.toNat_ofNat'] <;> omega
    · split at h <;> simp only [List.mem_cons, List.not_mem_nil, or_false] at h
      · rcases h with rfl | rfl | rfl <;> rw [UInt8.toNat_ofNat'] <;> omega
      · rcases h with rfl | rfl | rfl | rfl <;> rw [UInt8.toNat_ofNat'] <;> omega

/-- Only the zero character has a zero byte. -/
theorem eq_zero_of_zero_mem {c : Char} (h : 0 ∈ String.utf8EncodeChar c) : c = '\x00' := by
  rcases toNat_of_mem_encodeChar h with ⟨hval, -⟩ | ⟨hlow, -⟩
  · exact Char.toNat_inj.mp hval.symm
  · cases hlow

/-- The bytes of a text in front of the first zero byte are those of its characters in front of the first zero. -/
theorem takeWhile_encode (s : String) :
    (encode s).takeWhile (· != 0) = encode (String.ofList (s.toList.takeWhile (· ≠ '\x00'))) := by
  rw [encode_eq_flatMap, encode_eq_flatMap, String.toList_ofList]
  induction s.toList with
  | nil => rfl
  | cons c cs ih =>
    rw [List.flatMap_cons]
    by_cases hc : c = '\x00'
    · subst hc
      rfl
    · have hnonzero : ∀ b ∈ String.utf8EncodeChar c, (b != 0) = true := fun b hb => by
        rw [bne_iff_ne]
        rintro rfl
        exact hc (eq_zero_of_zero_mem hb)
      rw [List.takeWhile_append_of_pos hnonzero, ih, List.takeWhile_cons_of_pos (by simpa using hc), List.flatMap_cons]

/-- A text of characters of one byte each is as many bytes as characters. -/
theorem length_encode_of_narrow {s : String} (h : ∀ c ∈ s.toList, c.utf8Size = 1) : (encode s).length = s.length := by
  rw [encode_eq_flatMap, ← String.length_toList]
  generalize s.toList = cs at h
  induction cs with
  | nil => rfl
  | cons c cs ih =>
    rw [List.flatMap_cons, List.length_append, String.length_utf8EncodeChar, List.length_cons,
      h c List.mem_cons_self, ih fun d hd => h d (List.mem_cons_of_mem c hd)]
    exact Nat.add_comm 1 cs.length

/-! ### Texts within a limit -/

theorem fitOf_isPrefix (room : Nat) (cs : List Char) : fitOf room cs <+: cs := by
  induction cs generalizing room with
  | nil => exact List.nil_prefix
  | cons c cs ih =>
    rw [fitOf]
    split
    · exact (List.prefix_cons_inj c).mpr (ih _)
    · exact List.nil_prefix

theorem length_fitOf_le (room : Nat) (cs : List Char) :
    ((fitOf room cs).flatMap String.utf8EncodeChar).length ≤ room := by
  induction cs generalizing room with
  | nil => exact Nat.zero_le room
  | cons c cs ih =>
    rw [fitOf]
    split
    · have hrest := ih (room - c.utf8Size)
      rw [List.flatMap_cons, List.length_append, String.length_utf8EncodeChar]
      omega
    · exact Nat.zero_le room

/-- No beginning that fits goes on behind the one that is taken. -/
theorem isPrefix_fitOf {room : Nat} {cs ds : List Char} (hfront : ds <+: cs)
    (hroom : (ds.flatMap String.utf8EncodeChar).length ≤ room) : ds <+: fitOf room cs := by
  induction ds generalizing room cs with
  | nil => exact List.nil_prefix
  | cons d ds ih =>
    obtain ⟨rest, rfl⟩ := hfront
    rw [List.flatMap_cons, List.length_append, String.length_utf8EncodeChar] at hroom
    rw [List.cons_append, fitOf, if_pos (by omega)]
    exact (List.prefix_cons_inj d).mpr (ih (List.prefix_append ds rest) (by omega))

theorem fitOf_of_le {room : Nat} {cs : List Char} (h : (cs.flatMap String.utf8EncodeChar).length ≤ room) :
    fitOf room cs = cs :=
  (fitOf_isPrefix room cs).eq_of_length_le (isPrefix_fitOf (List.prefix_refl cs) h).length_le

theorem fit_of_le {room : Nat} {s : String} (h : (encode s).length ≤ room) : fit room s = s := by
  rw [encode_eq_flatMap] at h
  rw [fit, fitOf_of_le h, String.ofList_toList]

end Utf8

/-! ### Payloads -/

namespace Frame.Payload

theorem bytes_pad {bytes : List UInt8} (h : bytes.length ≤ payloadSize) :
    (pad bytes).bytes = bytes ++ List.replicate (payloadSize - bytes.length) 0 := by
  simp only [pad]
  rw [List.take_append, List.take_of_length_le h, List.take_replicate, Nat.min_eq_left (by omega)]

theorem textBytes_pad {bytes : List UInt8} (h : bytes.length < payloadSize) :
    (pad bytes).textBytes = bytes.takeWhile (· != 0) := by
  obtain ⟨n, hn⟩ : ∃ n, payloadSize - bytes.length = n + 1 := ⟨payloadSize - bytes.length - 1, by omega⟩
  rw [textBytes, bytes_pad (by omega), hn, List.replicate_succ, List.takeWhile_append,
    List.takeWhile_cons_of_neg (by simp), List.append_nil]
  split
  · next hlength =>
    have hfront : bytes.takeWhile (· != 0) <+: bytes := List.takeWhile_prefix _
    exact (hfront.eq_of_length hlength).symm
  · rfl

/-- A text in a payload is read up to its first zero character. -/
theorem text?_pad {s : String} (h : (Utf8.encode s).length < payloadSize) :
    (pad (Utf8.encode s)).text? = some (String.ofList (s.toList.takeWhile (· ≠ '\x00'))) := by
  rw [text?, textBytes_pad h, Utf8.takeWhile_encode, Utf8.decode?_encode]

theorem text?_pad_of_notMem {s : String} (h : (Utf8.encode s).length < payloadSize) (hzero : '\x00' ∉ s.toList) :
    (pad (Utf8.encode s)).text? = some s := by
  have hall : ∀ c ∈ s.toList, decide (c ≠ '\x00') = true := fun c hc => decide_eq_true fun e => hzero (e ▸ hc)
  rw [text?_pad h, List.takeWhile_eq_self_iff.mpr hall, String.ofList_toList]

theorem text?_ofText {s : String} (h : (Utf8.encode s).length < payloadSize) (hzero : '\x00' ∉ s.toList) :
    (ofText s).text? = some s := by
  rw [ofText, Utf8.fit_of_le (by omega), text?_pad_of_notMem h hzero]

end Frame.Payload

/-! ### One field -/

namespace Text

theorem isBlank_of_isDigit {c : Char} (h : c.isDigit = true) : isBlank c = false := by
  rw [Char.isDigit_iff_toNat] at h
  have hzero : '0'.toNat = 48 := rfl
  have hnine : '9'.toNat = 57 := rfl
  simp only [isBlank, List.contains_eq_mem, decide_eq_false_iff_not]
  intro hmem
  simp only [blankCodes, List.mem_cons, List.not_mem_nil, or_false] at hmem
  omega

theorem fieldsOf_of_unblank {cs : List Char} (hcs : cs ≠ []) (hc : ∀ c ∈ cs, isBlank c = false) :
    fieldsOf cs = [cs] := by
  rw [fieldsOf, List.splitOnP_eq_singleton hc, List.filter_cons_of_pos (by simpa using hcs), List.filter_nil]

theorem fields_of_unblank {s : String} (h : s.toList ≠ []) (hblank : ∀ c ∈ s.toList, isBlank c = false) :
    fields s = [s] := by
  rw [fields, fieldsOf_of_unblank h hblank]
  exact congrArg (· :: []) String.ofList_toList

/-- No field goes over a blank. -/
theorem fieldsOf_append_blank (cs : List Char) {a : Char} (ha : isBlank a = true) (rest : List Char) :
    fieldsOf (cs ++ a :: rest) = fieldsOf cs ++ fieldsOf rest := by
  rw [fieldsOf, List.splitOnP_append_cons cs rest ha, List.filter_append, fieldsOf, fieldsOf]

/-- A field in front of a blank, and the fields behind it. -/
theorem fieldsOf_append_cons {cs : List Char} (hcs : cs ≠ []) (hc : ∀ c ∈ cs, isBlank c = false) {a : Char}
    (ha : isBlank a = true) (rest : List Char) : fieldsOf (cs ++ a :: rest) = cs :: fieldsOf rest := by
  rw [fieldsOf_append_blank cs ha, fieldsOf_of_unblank hcs hc, List.singleton_append]

end Text

/-! ### Decimals -/

namespace Number

theorem digitsValue_eq_ofDigitChars (cs : List Char) : digitsValue cs = Nat.ofDigitChars 10 cs 0 := by
  simp only [Nat.ofDigitChars_eq_foldl, digitsValue, digitValue, Nat.mul_comm]

theorem isDigit_of_mem_repr {n : Nat} {c : Char} (h : c ∈ n.repr.toList) : c.isDigit = true := by
  rw [Nat.toList_repr] at h
  exact Nat.isDigit_of_mem_toDigits (by decide) (by decide) h

theorem toList_repr_ne_nil (n : Nat) : n.repr.toList ≠ [] := by
  rw [Nat.toList_repr]
  exact Nat.toDigits_ne_nil

theorem readDigits?_repr (n : Nat) : readDigits? n.repr.toList = some n := by
  have hdigits : n.repr.toList.all Char.isDigit = true := List.all_eq_true.mpr fun c hc => isDigit_of_mem_repr hc
  rw [readDigits?, if_neg (by simp), if_pos hdigits, digitsValue_eq_ofDigitChars, Nat.toList_repr,
    Nat.ofDigitChars_ten_toDigits]

theorem readNat?_repr (n : Nat) : readNat? n.repr.toList = some n := by
  have hread := readDigits?_repr n
  unfold readNat?
  split
  · next digits h =>
    have hplus : Char.isDigit '+' = true := isDigit_of_mem_repr (n := n) (by rw [h]; exact List.mem_cons_self)
    cases hplus
  · exact hread

theorem readInt?_repr (n : Nat) : readInt? n.repr.toList = some (n : Int) := by
  have hread := readDigits?_repr n
  unfold readInt?
  split
  · next digits h =>
    have hminus : Char.isDigit '-' = true := isDigit_of_mem_repr (n := n) (by rw [h]; exact List.mem_cons_self)
    cases hminus
  · next digits h =>
    have hplus : Char.isDigit '+' = true := isDigit_of_mem_repr (n := n) (by rw [h]; exact List.mem_cons_self)
    cases hplus
  · rw [hread]
    rfl

theorem readInt64?_repr {n : Nat} (h : n ≤ 9223372036854775807) : readInt64? n.repr = some (n : Int) := by
  rw [readInt64?, readInt?_repr, Option.bind_some, if_pos (by omega)]

theorem readUInt64?_repr (n : UInt64) : readUInt64? n.toNat.repr = some n := by
  have hlt : n.toNat < Nat.pow 2 64 := n.toNat_lt
  rw [readUInt64?, readNat?_repr, Option.bind_some, if_pos hlt, UInt64.ofNat_toNat]

theorem fields_repr (n : Nat) : Text.fields n.repr = [n.repr] :=
  Text.fields_of_unblank (toList_repr_ne_nil n) fun _ hc => Text.isBlank_of_isDigit (isDigit_of_mem_repr hc)

theorem utf8Size_of_isDigit {c : Char} (h : c.isDigit = true) : c.utf8Size = 1 := by
  rw [Char.isDigit_iff_toNat] at h
  have hnine : '9'.toNat = 57 := rfl
  rw [Char.utf8Size_eq_one_iff, UInt32.le_iff_toNat_le]
  exact Nat.le_trans h.2 (by rw [hnine]; decide)

/-- The digits of a number are as many bytes. -/
theorem length_encode_repr (n : Nat) : (Utf8.encode n.repr).length = n.repr.length :=
  Utf8.length_encode_of_narrow fun _ hc => utf8Size_of_isDigit (isDigit_of_mem_repr hc)

theorem length_encode_repr_le {n : Nat} (h : n < UInt64.size) : (Utf8.encode n.repr).length ≤ 20 := by
  have hsize : UInt64.size < 10 ^ 20 := by decide
  rw [length_encode_repr, Nat.length_repr_le_iff (by decide)]
  exact Nat.lt_trans h hsize

theorem zero_notMem_repr (n : Nat) : '\x00' ∉ n.repr.toList := fun h => by
  have hzero : Char.isDigit '\x00' = true := isDigit_of_mem_repr h
  cases hzero

end Number

/-! ### Numbers in payloads -/

namespace Frame

theorem Payload.text?_repr {n : Nat} (h : n < Nat.pow 2 64) : (Payload.ofText n.repr).text? = some n.repr :=
  Payload.text?_ofText (Nat.lt_of_le_of_lt (Number.length_encode_repr_le h) (by decide)) (Number.zero_notMem_repr n)

theorem bulkCount_repr {n : Nat} (h : n ≤ maxBulk) : bulkCount (.ofText n.repr) = .ok n := by
  have hmax : maxBulk = 65536 := rfl
  have hpow : Nat.pow 2 64 = 18446744073709551616 := rfl
  have htext : (Payload.ofText n.repr).text? = some n.repr := Payload.text?_repr (by omega)
  have hread : Number.readInt64? ((Text.fields n.repr).headD "") = some (n : Int) := by
    rw [Number.fields_repr]
    exact Number.readInt64?_repr (by omega)
  unfold bulkCount
  rw [htext]
  dsimp only
  rw [hread]
  dsimp only
  rcases Nat.eq_zero_or_pos n with rfl | hpos
  · rfl
  · rw [if_neg (by omega), Int.toNat_natCast, if_neg (by omega)]

end Frame
end GridFlight
