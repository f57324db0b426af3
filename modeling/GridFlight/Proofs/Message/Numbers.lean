import GridFlight.Proofs.Message.Control
import GridFlight.Proofs.Number.Places

/-! Numbers in payloads. Whatever the numbers of a position or of forces are, their text fits into a payload with a zero
    byte behind it, and has one token for each of them that reads back. So no frame of such a message is refused. -/

namespace GridFlight

open Number (Form)

/-! ### The form of a text -/

namespace Number.Form

/-- The tokens of numbers in a form. -/
def tokens (f : Form) (values : List Float32) : List String := values.map fun x => f.write (single x)

def text (f : Form) (values : List Float32) : String := " ".intercalate (f.tokens values)

def fits (f : Form) (values : List Float32) : Bool := (f.text values).utf8ByteSize < Frame.payloadSize

/-- The forms with at most so many places, the one with the most first. -/
def upTo : Nat → List Form
  | 0 => [places 0]
  | fewer + 1 => places (fewer + 1) :: upTo fewer

/-- The form of a text: the most places that fit, and the exponent where none do. -/
def chosen (values : List Float32) : Form := ((upTo 6).find? (·.fits values)).getD exponent

/-- What a number is after it was written and read. -/
def carry (f : Form) (x : Float32) : Float32 :=
  Float32.ofBits (UInt32.ofNat (((single x).rounded f.digits).round Layout.single))

theorem readSingle?_write (f : Form) (x : Float32) : readSingle? (f.write (single x)) = some (f.carry x) := by
  rw [readSingle?, read?_write]
  rfl

section

variable {f : Form} {values : List Float32} {s : String}

theorem exists_of_mem_tokens (h : s ∈ f.tokens values) : ∃ x, f.write (single x) = s := by
  obtain ⟨x, -, hx⟩ := List.mem_map.mp h
  exact ⟨x, hx⟩

theorem token_of_mem_tokens (h : s ∈ f.tokens values) : Text.Token s := by
  obtain ⟨x, rfl⟩ := exists_of_mem_tokens h
  exact f.token_write (single x)

/-- With exponents eight numbers are at most nine bytes each, and seven blanks. -/
theorem length_exponent_le (h : values.length ≤ 8) : (Utf8.encode (exponent.text values)).length ≤ 79 := by
  have htokens : ∀ s ∈ exponent.tokens values, (Utf8.encode s).length ≤ 9 := fun s hs => by
    obtain ⟨x, rfl⟩ := exists_of_mem_tokens hs
    rw [(token_write exponent (single x)).length_encode]
    exact length_write_exponent (Datum.withinSingle_datum x.toBits.toNat)
  have hlength := Text.length_encode_intercalate_le htokens
  rw [tokens, List.length_map] at hlength
  rw [text, tokens]
  omega

/-- Up to eight numbers fit in the form that is chosen for them. -/
theorem length_chosen_le (h : values.length ≤ 8) : (Utf8.encode ((chosen values).text values)).length ≤ 79 := by
  unfold chosen
  cases hfound : (upTo 6).find? (·.fits values) with
  | none => exact length_exponent_le h
  | some f =>
    have hfits : f.fits values = true := by simpa using List.find?_some hfound
    exact Nat.le_of_lt_succ (of_decide_eq_true hfits)

end

end Number.Form

theorem fixedFitting?_eq (values : List Float32) (places : Nat) :
    fixedFitting? (values.map Number.single) places =
      ((Form.upTo places).find? (·.fits values)).map (·.text values) := by
  have htext : ∀ count, " ".intercalate ((values.map Number.single).map (Number.Datum.fixed count)) =
      (Form.places count).text values := fun count => by rw [List.map_map]; rfl
  have hfits : ∀ f : Form, (f.text values).utf8ByteSize < Frame.payloadSize ↔ f.fits values = true := fun f =>
    decide_eq_true_iff.symm
  induction places with
  | zero =>
    simp only [fixedFitting?, htext, hfits, Form.upTo, List.find?]
    cases (Form.places 0).fits values <;> rfl
  | succ fewer ih =>
    simp only [fixedFitting?, htext, hfits, ih, Form.upTo, List.find?]
    cases (Form.places (fewer + 1)).fits values <;> rfl

/-- All numbers of a text have one form. -/
theorem numbersText_eq (values : List Float32) : numbersText values = (Form.chosen values).text values := by
  rw [numbersText, fixedFitting?_eq, Form.chosen]
  cases (Form.upTo 6).find? (·.fits values) with
  | none =>
    rw [Option.map_none, Option.getD_none, Option.getD_none, List.map_map]
    rfl
  | some f => rfl

/-- Eight of the negative numbers next to zero take all 79 bytes. -/
example : (Utf8.encode (numbersText (List.replicate 8 (Float32.ofBits 0x80000001)))).length = 79 := by decide +kernel

/-! ### Messages -/

namespace Message

/-- The text of the message is at most 79 bytes and stands whole in the payload, with nothing but zeros behind it, at
    least one. Its fields are these tokens, and each of them is a literal. -/
structure Carries (m : Message) (tokens : List String) : Prop where
  short : (Utf8.encode m.payloadText).length ≤ 79
  whole : Utf8.fit (Frame.payloadSize - 1) m.payloadText = m.payloadText
  terminated : ∃ zeros, m.toFrame.payload.bytes = Utf8.encode m.payloadText ++ List.replicate (zeros + 1) 0
  spaced : m.payloadText = " ".intercalate tokens
  fields : Text.fields m.payloadText = tokens
  accepted : ∀ token ∈ tokens, ∃ literal, Number.Literal.read? token.toList = some literal

section

variable {m : Message} {values : List Float32}

theorem carries_chosen (htext : m.payloadText = numbersText values) (h : values.length ≤ 8) :
    m.Carries ((Form.chosen values).tokens values) := by
  rw [numbersText_eq] at htext
  have hshort : (Utf8.encode m.payloadText).length ≤ 79 := htext ▸ Form.length_chosen_le h
  have hwhole : Utf8.fit (Frame.payloadSize - 1) m.payloadText = m.payloadText := Utf8.fit_of_le hshort
  have hsize : Frame.payloadSize = 80 := rfl
  refine ⟨hshort, hwhole, ⟨79 - (Utf8.encode m.payloadText).length, ?_⟩, htext, ?_, fun token htoken => ?_⟩
  · have hbytes := Frame.Payload.bytes_pad (Nat.le_succ_of_le hshort)
    rw [hsize, Nat.succ_sub hshort] at hbytes
    rw [← hbytes, toFrame, Frame.ofText, Frame.Payload.ofText, hwhole]
  · rw [htext]
    exact Text.fields_intercalate fun s hs => Form.token_of_mem_tokens hs
  · obtain ⟨x, rfl⟩ := Form.exists_of_mem_tokens htoken
    exact ⟨_, Form.read?_write _ (Number.single x)⟩

/-- The message is read from the tokens. -/
theorem Carries.ofFrame_toFrame {f : Form} (h : m.Carries (f.tokens values)) :
    ofFrame m.toFrame = (ofText m.kind m.payloadText m.cells).mapError (.payload m.kind.name) := by
  have hzero : '\x00' ∉ m.payloadText.toList := by
    rw [h.spaced]
    exact Text.zero_notMem_intercalate fun s hs => Form.token_of_mem_tokens hs
  exact Message.ofFrame_toFrame m (Frame.Payload.text?_ofText (Nat.lt_succ_of_le h.short) hzero)

end

theorem pair_tokens (f : Form) (x y : Float32) :
    pair Number.readSingle? (f.tokens [x, y]) = .ok (f.carry x, f.carry y) := by
  simp only [Form.tokens, List.map_cons, List.map_nil, pair, field, f.readSingle?_write, bind, Except.bind, pure,
    Except.pure]

theorem readComponents_tokens (f : Form) {room : Nat} {values : List Float32} (h : values.length ≤ room) :
    ForceReport.readComponents room (f.tokens values) = .ok (values.map f.carry) := by
  induction values generalizing room with
  | nil => cases room <;> rfl
  | cons x values ih =>
    cases room with
    | zero => cases h
    | succ room =>
      have hrest := ih (Nat.le_of_succ_le_succ h)
      simp only [Form.tokens, List.map_cons, ForceReport.readComponents, f.readSingle?_write]
      rw [← Form.tokens, hrest]
      rfl

/-- One to eight components are read. -/
theorem read_tokens {f : Form} {values : List Float32} {text : String} (hfields : Text.fields text = f.tokens values)
    (hsome : values ≠ []) (h : values.length ≤ 8) :
    ForceReport.read text = .ok (.ofValues (values.map f.carry)) := by
  have hcomponents : ForceReport.readComponents 8 (f.tokens values) = .ok (values.map f.carry) :=
    readComponents_tokens f h
  rw [ForceReport.read, hfields]
  split
  · next hnone => exact absurd (List.map_eq_nil_iff.mp hnone) hsome
  · rw [hcomponents]
    rfl

/-- The numbers of a position and the components of forces always fit: their text is at most 79 bytes and consists of
    two tokens, or of eight, which read back. So the frame of such a message is always read as a message of its kind,
    and each number in it is what became of the one that was sent. -/
theorem numbers_always_carried :
    (∀ p : Vec Float32,
      let values := [p.x, p.y]
      let f := Form.chosen values
      (f.tokens values).length = 2 ∧ (position p).Carries (f.tokens values) ∧
        ofFrame (position p).toFrame = .ok (.position (p.map f.carry))) ∧
    ∀ r : ForceReport,
      let f := Form.chosen r.values
      (f.tokens r.values).length = 8 ∧ (force r).Carries (f.tokens r.values) ∧
        ofFrame (force r).toFrame = .ok (.force (.ofValues (r.values.map f.carry))) := by
  constructor
  · intro p values f
    have h : (position p).Carries (f.tokens values) := carries_chosen rfl (show 2 ≤ 8 by decide)
    refine ⟨rfl, h, ?_⟩
    rw [h.ofFrame_toFrame, kind, ofText, h.fields, pair_tokens]
    rfl
  · intro r f
    have h : (force r).Carries (f.tokens r.values) := carries_chosen rfl (Nat.le_refl 8)
    refine ⟨rfl, h, ?_⟩
    rw [h.ofFrame_toFrame, kind, ofText, read_tokens h.fields (List.cons_ne_nil _ _) (Nat.le_refl 8)]
    rfl

end Message
end GridFlight
