import GridFlight.Proofs.Frame.Stream
import GridFlight.Proofs.Message.Control
import GridFlight.Proofs.Number.Signed

/-! Messages that come back as they were sent. The text of such a message fits into its payload whole, so its bytes are
    taken for one frame, whatever follows them, and the frame is read as that message. The numbers of a position
    or of forces are rounded when they are written, and are left out here. -/

namespace GridFlight

namespace Message

/-! ### Sizes -/

/-- The text of a size fits into a payload, whatever its sides are. -/
theorem fits_size (width height : Int32) :
    (Utf8.encode (size width height).payloadText).length < Frame.payloadSize ∧
      '\x00' ∉ (size width height).payloadText.toList := by
  have hwidth := Number.length_encode_writeInt_le width
  have hheight := Number.length_encode_writeInt_le height
  have hspace : (Utf8.encode " ").length = 1 := rfl
  simp only [payloadText, Utf8.encode_append, List.length_append, String.toList_append, List.mem_append,
    Frame.payloadSize]
  refine ⟨by omega, ?_⟩
  rintro ((hzero | hzero) | hzero)
  · exact Number.zero_notMem_writeInt _ hzero
  · revert hzero
    decide
  · exact Number.zero_notMem_writeInt _ hzero

theorem ofText_size (width height : Int32) :
    ofText .size (size width height).payloadText [] =
      if width ≤ 0 ∨ height ≤ 0 then .error (.badSize (size width height).payloadText)
      else .ok (size width height) := by
  have hpair : pair Number.readInt32? [Number.writeInt width.toInt, Number.writeInt height.toInt] =
      .ok (width, height) := by
    simp only [pair, field, Number.readInt32?_writeInt, bind, Except.bind, pure, Except.pure]
  simp only [ofText, payloadText, Number.fields_writeInt_pair, hpair]
  rfl

/-! ### Messages -/

/-- Sizes of positive sides, sets of at most 65536 cells, keys other than the zero character, and everything that says
    no more than a number or nothing at all. -/
def Exact : Message → Prop
  | size width height => 0 < width ∧ 0 < height
  | obstacles cells | targets cells => cells.length ≤ 65536
  | input key => key ≠ '\x00'
  | exit | pid _ | ping _ | pong _ => True
  | position _ | force _ => False

variable {m : Message}

/-- The text fits into a payload, with room for a zero byte behind it. -/
theorem Exact.fits (h : m.Exact) :
    (Utf8.encode m.payloadText).length < Frame.payloadSize ∧ '\x00' ∉ m.payloadText.toList := by
  have hnumber : ∀ n : Nat, n < UInt64.size →
      (Utf8.encode n.repr).length < Frame.payloadSize ∧ '\x00' ∉ n.repr.toList := fun n hn =>
    ⟨Nat.lt_of_le_of_lt (Number.length_encode_repr_le hn) (by decide), Number.zero_notMem_repr n⟩
  have hsize : UInt64.size = 18446744073709551616 := rfl
  cases m with
  | size width height => exact fits_size width height
  | obstacles cells | targets cells =>
    have hcells : cells.length ≤ 65536 := h
    exact hnumber cells.length (by omega)
  | input key =>
    have hkey : key ≠ '\x00' := h
    refine ⟨?_, by simpa [payloadText] using hkey.symm⟩
    have hlength : (Utf8.encode (String.singleton key)).length = key.utf8Size := by
      simp [Utf8.encode_eq_flatMap]
    have hsize := key.utf8Size_le_four
    simp only [payloadText, hlength, Frame.payloadSize]
    omega
  | exit => exact ⟨by decide, by decide⟩
  | pid p =>
    have hp := p.val.toNat_lt
    exact hnumber p.val.toNat (by omega)
  | ping seq | pong seq => exact hnumber seq.toNat seq.toNat_lt
  | position p | force report => exact h.elim

/-- The payload announces as many cells as follow it, if they are not too many. -/
theorem wellFormed_toFrame (h : m.cells.length ≤ Frame.maxBulk) : m.toFrame.WellFormed := by
  cases m with
  | obstacles cells | targets cells =>
    rw [Frame.wellFormed_iff, Frame.announced_of_carriesBulk (by simp [toFrame, Frame.ofText, kind])]
    exact Frame.bulkCount_repr h
  | _ => exact Frame.wellFormed_iff.mpr rfl

theorem Exact.wellFormed (h : m.Exact) : m.toFrame.WellFormed := by
  refine wellFormed_toFrame ?_
  cases m with
  | obstacles cells | targets cells => exact h
  | _ => exact Nat.zero_le _

theorem ofText_pid (p : Pid) : ofText .pid p.text [] = .ok (pid p) := by
  have hfields : Text.fields p.text = [p.text] := Number.fields_repr p.val.toNat
  simp only [ofText, hfields, single, field, Pid.read?_text, Except.map]

theorem Exact.ofFrame_toFrame (h : m.Exact) : ofFrame m.toFrame = .ok m := by
  have hread := Message.ofFrame_toFrame m (Frame.Payload.text?_ofText h.fits.1 h.fits.2)
  have hof : ofText m.kind m.payloadText m.cells = .ok m := by
    cases m with
    | size width height =>
      have hproper : ¬(width ≤ 0 ∨ height ≤ 0) := by
        rw [not_or, Int32.not_le, Int32.not_le]
        exact h
      exact (ofText_size width height).trans (if_neg hproper)
    | input key => simp [ofText, kind, payloadText]
    | pid p => exact ofText_pid p
    | ping seq | pong seq => simp only [ofText, kind, payloadText, single_repr, Except.map]
    | obstacles | targets | exit => rfl
    | position p | force report => exact h.elim
  rw [hread, hof]
  rfl

/-- The text of such a message stands whole in the payload, with nothing but zeros behind it. From the bytes of the
    message, with any bytes behind them, its frame is taken out and just those bytes are left; and it is read as the
    message. -/
theorem comes_back_as_sent (m : Message) (h : m.Exact) (more : List UInt8) :
    (Utf8.fit (Frame.payloadSize - 1) m.payloadText = m.payloadText ∧
      ∃ zeros, m.toFrame.payload.bytes = Utf8.encode m.payloadText ++ List.replicate (zeros + 1) 0) ∧
    Frame.decode (m.encode ++ more) = (.ok (some m.toFrame), more) ∧
    ofFrame m.toFrame = .ok m := by
  have hfits := h.fits.1
  have hwhole : Utf8.fit (Frame.payloadSize - 1) m.payloadText = m.payloadText := Utf8.fit_of_le (by omega)
  refine ⟨⟨hwhole, Frame.payloadSize - (Utf8.encode m.payloadText).length - 1, ?_⟩,
    Frame.decode_eq_frame_iff.mpr ⟨h.wellFormed, rfl⟩, h.ofFrame_toFrame⟩
  have hroom : (Utf8.encode m.payloadText).length ≤ Frame.payloadSize := by omega
  have hbytes := Frame.Payload.bytes_pad hroom
  rw [Nat.sub_add_cancel (by omega), ← hbytes, toFrame, Frame.ofText, Frame.Payload.ofText, hwhole]

/-- A blank key of three bytes, with the beginning of another frame behind it. -/
theorem blank_key_comes_back :
    (input '\u3000').Exact ∧
      Frame.decode ((input '\u3000').encode ++ [4, 0, 0]) = (.ok (some (input '\u3000').toFrame), [4, 0, 0]) ∧
      ofFrame (input '\u3000').toFrame = .ok (input '\u3000') := by
  have hexact : (input '\u3000').Exact := show '\u3000' ≠ '\x00' by decide
  exact ⟨hexact, (comes_back_as_sent (input '\u3000') hexact [4, 0, 0]).2⟩

end Message
end GridFlight
