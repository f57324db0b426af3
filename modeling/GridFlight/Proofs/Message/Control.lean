import GridFlight.Frame.Reader
import GridFlight.Proofs.Frame.Payload

/-! The messages between the supervisor and the parts are read back from their frames. Whatever is read from a frame is
    of the kind of the frame and has its cells. -/

namespace GridFlight
namespace Message

/-- A frame reads as its text does, if the text fits. -/
theorem ofFrame_toFrame (m : Message) (h : (Frame.Payload.ofText m.payloadText).text? = some m.payloadText) :
    ofFrame m.toFrame = (ofText m.kind m.payloadText m.cells).mapError (.payload m.kind.name) := by
  simp only [ofFrame, toFrame, Frame.ofText, Frame.kind?, Frame.Kind.ofCode?_code, h]

theorem single_repr (seq : UInt64) : single Number.readUInt64? (Text.fields seq.toNat.repr) = .ok seq := by
  rw [Number.fields_repr, single, field, Number.readUInt64?_repr]
  rfl

theorem ofFrame_ping (seq : UInt64) : ofFrame (ping seq).toFrame = .ok (.ping seq) := by
  have htext := Frame.Payload.text?_repr seq.toNat_lt
  have hread : ofText (ping seq).kind (ping seq).payloadText (ping seq).cells = .ok (ping seq) := by
    simp only [ofText, kind, payloadText, single_repr, Except.map]
  rw [ofFrame_toFrame (ping seq) htext, hread]
  rfl

theorem ofFrame_pong (seq : UInt64) : ofFrame (pong seq).toFrame = .ok (.pong seq) := by
  have htext := Frame.Payload.text?_repr seq.toNat_lt
  have hread : ofText (pong seq).kind (pong seq).payloadText (pong seq).cells = .ok (pong seq) := by
    simp only [ofText, kind, payloadText, single_repr, Except.map]
  rw [ofFrame_toFrame (pong seq) htext, hread]
  rfl

theorem ofFrame_exit : ofFrame exit.toFrame = .ok .exit := by
  rw [ofFrame_toFrame exit (Frame.Payload.text?_ofText (by decide) (by decide))]
  rfl

/-! ### Kinds and cells -/

theorem exists_of_map_eq_ok {α β ε : Type} {x : Except ε α} {g : α → β} {b : β} (h : x.map g = .ok b) :
    ∃ a, x = .ok a ∧ g a = b := by
  cases x with
  | error e => cases h
  | ok a => exact ⟨a, rfl, Except.ok.inj h⟩

theorem kind_of_ofText {kind : Frame.Kind} {text : String} {bulk : List Cell} {m : Message}
    (h : ofText kind text bulk = .ok m) : m.kind = kind := by
  cases kind with
  | size =>
    rcases hpair : pair Number.readInt32? (Text.fields text) with e | ⟨width, height⟩
    · simp [ofText, hpair, bind, Except.bind] at h
    · by_cases hsize : width ≤ 0 ∨ height ≤ 0
      · simp [ofText, hpair, hsize, bind, Except.bind] at h
      · simp only [ofText, hpair, hsize, bind, Except.bind] at h
        cases h
        rfl
  | obstacles | targets | exit =>
    cases h
    rfl
  | input =>
    simp only [ofText] at h
    split at h
    · cases h
    · cases h
      rfl
  | position | force | pid | ping | pong =>
    obtain ⟨a, -, rfl⟩ := exists_of_map_eq_ok h
    rfl

theorem exists_ofText {f : Frame} {m : Message} (h : ofFrame f = .ok m) :
    ∃ kind text, f.code = kind.code ∧ ofText kind text f.bulk = .ok m := by
  unfold ofFrame at h
  split at h
  · cases h
  · next kind hkind =>
    have hcode : kind.code = f.code := by simpa using List.find?_some hkind
    split at h
    · cases h
    · next text htext =>
      rcases hread : ofText kind text f.bulk with e | m'
      · rw [hread] at h
        cases h
      · rw [hread] at h
        cases h
        exact ⟨kind, text, hcode.symm, hread⟩

/-- A message is of the kind of its frame. -/
theorem code_of_ofFrame {f : Frame} {m : Message} (h : ofFrame f = .ok m) : f.code = m.kind.code := by
  obtain ⟨kind, text, hcode, hread⟩ := exists_ofText h
  rw [kind_of_ofText hread, hcode]

/-- The cells of a message are those of its frame. -/
theorem cells_of_ofFrame {f : Frame} {m : Message} (h : ofFrame f = .ok m) (hbulk : m.kind.carriesBulk = true) :
    m.cells = f.bulk := by
  obtain ⟨kind, text, -, hread⟩ := exists_ofText h
  obtain rfl := kind_of_ofText hread
  cases m with
  | obstacles | targets =>
    cases hread
    rfl
  | _ => cases hbulk

end Message
end GridFlight
