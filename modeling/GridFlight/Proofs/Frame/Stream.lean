import GridFlight.Proofs.Frame.Payload

/-! Frames taken out of a stream of bytes. A buffer yields a frame exactly when it begins with the encoding of a
    well-formed one, and what it has said is not changed by bytes that arrive later; so a stream decodes to the same
    frames and the same error however it is cut. -/

namespace GridFlight
namespace Frame

/-! ### Headers and cells -/

theorem header?_eq_some_iff {buffer body : List UInt8} {code : Int32} {p : Payload} :
    header? buffer = some (code, p, body) ↔ buffer = Bytes.ofInt32 code ++ p.bytes ++ body := by
  constructor
  · intro h
    unfold header? at h
    split at h
    · split at h
      · next hp =>
        cases h
        rw [Bytes.ofInt32_toInt32]
        simp
      · cases h
    · cases h
  · rintro rfl
    obtain ⟨a, b, c, d, hcode, hword⟩ := Bytes.exists_ofInt32 code
    have htake : (p.bytes ++ body).take payloadSize = p.bytes := by
      rw [← p.length_bytes, List.take_left]
    have hdrop : (p.bytes ++ body).drop payloadSize = body := by
      rw [← p.length_bytes, List.drop_left]
    rw [hcode, List.append_assoc]
    simp only [header?, List.cons_append, List.nil_append, htake, hdrop, p.length_bytes, ↓reduceDIte, hword]

theorem body?_eq_some_iff {count : Nat} {bytes rest : List UInt8} {cells : List Cell} :
    body? count bytes = some (cells, rest) ↔ cells.length = count ∧ bytes = Cell.encodeAll cells ++ rest := by
  constructor
  · intro h
    simp only [body?] at h
    split at h
    · next hlen =>
      cases h
      obtain ⟨hcount, hbytes⟩ := Cell.encodeAll_decodeAll hlen
      exact ⟨hcount, by rw [hbytes, List.take_append_drop]⟩
    · cases h
  · rintro ⟨rfl, rfl⟩
    have htake : (Cell.encodeAll cells ++ rest).take (cells.length * Cell.wireSize) = Cell.encodeAll cells := by
      rw [← Cell.length_encodeAll, List.take_left]
    have hdrop : (Cell.encodeAll cells ++ rest).drop (cells.length * Cell.wireSize) = rest := by
      rw [← Cell.length_encodeAll, List.drop_left]
    simp only [body?, htake, hdrop, Cell.length_encodeAll, ↓reduceIte, Cell.decodeAll_encodeAll]

/-! ### Well-formed frames -/

/-- A frame of obstacles or targets has as many cells as its payload announces; any other frame has none. -/
def WellFormed (f : Frame) : Prop :=
  if f.code = Kind.obstacles.code ∨ f.code = Kind.targets.code then bulkCount f.payload = .ok f.bulk.length
  else f.bulk = []

theorem announced_of_carriesBulk {code : Int32} {p : Payload}
    (h : code = Kind.obstacles.code ∨ code = Kind.targets.code) : announced code p = bulkCount p := by
  rcases h with rfl | rfl <;> rfl

theorem announced_of_not_carriesBulk {code : Int32} {p : Payload}
    (h : ¬(code = Kind.obstacles.code ∨ code = Kind.targets.code)) : announced code p = .ok 0 := by
  unfold announced
  split
  · next kind hk =>
    have hcode : kind.code = code := by simpa using List.find?_some hk
    cases kind <;> first | rfl | (exfalso; exact h (hcode ▸ by decide))
  · rfl

theorem wellFormed_iff {f : Frame} : f.WellFormed ↔ announced f.code f.payload = .ok f.bulk.length := by
  unfold WellFormed
  split
  · next h => rw [announced_of_carriesBulk h]
  · next h =>
    rw [announced_of_not_carriesBulk h]
    constructor
    · intro hb
      rw [hb]
      rfl
    · intro hb
      exact List.length_eq_zero_iff.mp (Except.ok.inj hb).symm

/-! ### One request -/

theorem decode_eq_frame_iff {buffer rest : List UInt8} {f : Frame} :
    decode buffer = (.ok (some f), rest) ↔ f.WellFormed ∧ buffer = f.encode ++ rest := by
  rw [wellFormed_iff]
  constructor
  · intro h
    unfold decode at h
    split at h
    · cases h
    · next code p bytes hh =>
      split at h
      · cases h
      · next count hc =>
        split at h
        · cases h
        · next cells tail hb =>
          cases h
          obtain ⟨rfl, rfl⟩ := body?_eq_some_iff.mp hb
          refine ⟨hc, ?_⟩
          rw [header?_eq_some_iff.mp hh, encode]
          simp only [List.append_assoc]
  · rintro ⟨hc, rfl⟩
    have hh : header? (f.encode ++ rest) = some (f.code, f.payload, Cell.encodeAll f.bulk ++ rest) := by
      rw [header?_eq_some_iff, encode]
      simp only [List.append_assoc]
    have hb : body? f.bulk.length (Cell.encodeAll f.bulk ++ rest) = some (f.bulk, rest) :=
      body?_eq_some_iff.mpr ⟨rfl, rfl⟩
    simp only [decode, hh, hc, hb]

theorem decode_eq_error_iff {buffer rest : List UInt8} {e : FrameError} :
    decode buffer = (.error e, rest) ↔
      rest = buffer ∧
        ∃ code p body, buffer = Bytes.ofInt32 code ++ p.bytes ++ body ∧ announced code p = .error e := by
  constructor
  · intro h
    unfold decode at h
    split at h
    · cases h
    · next code p bytes hh =>
      split at h
      · next e' he =>
        cases h
        exact ⟨rfl, code, p, bytes, header?_eq_some_iff.mp hh, he⟩
      · split at h <;> cases h
  · rintro ⟨rfl, code, p, body, hbuffer, he⟩
    simp only [decode, header?_eq_some_iff.mpr hbuffer, he]

theorem decode_nothing {buffer rest : List UInt8} (h : decode buffer = (.ok none, rest)) : rest = buffer := by
  unfold decode at h
  split at h
  · cases h; rfl
  · split at h
    · cases h
    · split at h
      · cases h; rfl
      · cases h

/-- Whatever a buffer does not answer with a frame leaves it as it was. -/
theorem decode_keeps {buffer rest : List UInt8} {answer : Except FrameError (Option Frame)}
    (h : decode buffer = (answer, rest)) (hanswer : answer = .ok none ∨ ∃ e, answer = .error e) :
    rest = buffer := by
  rcases hanswer with rfl | ⟨e, rfl⟩
  · exact decode_nothing h
  · exact (decode_eq_error_iff.mp h).1

/-! ### More bytes -/

theorem decode_append_of_frame {buffer rest : List UInt8} {f : Frame} (h : decode buffer = (.ok (some f), rest))
    (more : List UInt8) : decode (buffer ++ more) = (.ok (some f), rest ++ more) := by
  obtain ⟨hf, rfl⟩ := decode_eq_frame_iff.mp h
  exact decode_eq_frame_iff.mpr ⟨hf, List.append_assoc _ _ _⟩

theorem decode_append_of_error {buffer rest : List UInt8} {e : FrameError} (h : decode buffer = (.error e, rest))
    (more : List UInt8) : decode (buffer ++ more) = (.error e, buffer ++ more) := by
  obtain ⟨-, code, p, body, hbuffer, he⟩ := decode_eq_error_iff.mp h
  refine decode_eq_error_iff.mpr ⟨rfl, code, p, body ++ more, ?_, he⟩
  rw [hbuffer, List.append_assoc]

/-! ### Whole buffers -/

theorem decodeAll_of_frame {buffer rest : List UInt8} {f : Frame} (h : decode buffer = (.ok (some f), rest)) :
    decodeAll buffer = { decodeAll rest with frames := f :: (decodeAll rest).frames } := by
  rw [decodeAll]
  split
  · next e left heq => rw [h] at heq; cases heq
  · next left heq => rw [h] at heq; cases heq
  · next g tail heq =>
    rw [h] at heq
    cases heq
    rfl

theorem decodeAll_of_nothing {buffer rest : List UInt8} (h : decode buffer = (.ok none, rest)) :
    decodeAll buffer = ⟨[], none, buffer⟩ := by
  obtain rfl := decode_nothing h
  rw [decodeAll]
  split
  · next e left heq => rw [h] at heq; cases heq
  · next left heq =>
    rw [h] at heq
    cases heq
    rfl
  · next g tail heq => rw [h] at heq; cases heq

theorem decodeAll_of_error {buffer rest : List UInt8} {e : FrameError} (h : decode buffer = (.error e, rest)) :
    decodeAll buffer = ⟨[], some e, buffer⟩ := by
  obtain rfl := (decode_eq_error_iff.mp h).1
  rw [decodeAll]
  split
  · next e' left heq =>
    rw [h] at heq
    cases heq
    rfl
  · next left heq => rw [h] at heq; cases heq
  · next g tail heq => rw [h] at heq; cases heq

/-- The frames of a buffer are well-formed, and their encodings and the bytes that are left make up the buffer. -/
theorem decodeAll_exact (buffer : List UInt8) :
    (∀ f ∈ (decodeAll buffer).frames, f.WellFormed) ∧
      (decodeAll buffer).frames.flatMap encode ++ (decodeAll buffer).left = buffer := by
  -- A frame takes bytes out of the buffer, so the induction is on its length.
  induction hn : buffer.length using Nat.strongRecOn generalizing buffer with
  | _ n ih =>
    match h : decode buffer with
    | (.error e, rest) =>
      rw [decodeAll_of_error h]
      exact ⟨by simp, rfl⟩
    | (.ok none, rest) =>
      rw [decodeAll_of_nothing h]
      exact ⟨by simp, rfl⟩
    | (.ok (some f), rest) =>
      rw [decodeAll_of_frame h]
      obtain ⟨hall, hrest⟩ := ih rest.length (hn ▸ length_lt_of_decode h) rest rfl
      obtain ⟨hf, hbuffer⟩ := decode_eq_frame_iff.mp h
      refine ⟨List.forall_mem_cons.mpr ⟨hf, hall⟩, ?_⟩
      rw [List.flatMap_cons, List.append_assoc, hrest, hbuffer]

theorem decodeAll_nil : decodeAll [] = ⟨[], none, []⟩ := by
  have h : decode [] = (.ok none, []) := rfl
  exact decodeAll_of_nothing h

theorem decodeAll_flatMap_encode {frames : List Frame} (h : ∀ f ∈ frames, f.WellFormed) :
    decodeAll (frames.flatMap encode) = ⟨frames, none, []⟩ := by
  induction frames with
  | nil => exact decodeAll_nil
  | cons f frames ih =>
    obtain ⟨hf, hframes⟩ := List.forall_mem_cons.mp h
    have hfirst : decode ((f :: frames).flatMap encode) = (.ok (some f), frames.flatMap encode) :=
      decode_eq_frame_iff.mpr ⟨hf, rfl⟩
    rw [decodeAll_of_frame hfirst, ih hframes]

/-! ### Streams in chunks -/

/-- More bytes come behind those that are left, and frames are taken out again. The first error stands. -/
def Decoded.feed (d : Decoded) (chunk : List UInt8) : Decoded :=
  let more := decodeAll (d.left ++ chunk)
  ⟨d.frames ++ more.frames, d.error.or more.error, more.left⟩

/-- What has come out of a stream that arrived in these chunks. -/
def decodeChunks (chunks : List (List UInt8)) : Decoded := chunks.foldl Decoded.feed ⟨[], none, []⟩

theorem feed_decodeAll (buffer chunk : List UInt8) : (decodeAll buffer).feed chunk = decodeAll (buffer ++ chunk) := by
  induction hn : buffer.length using Nat.strongRecOn generalizing buffer with
  | _ n ih =>
    match h : decode buffer with
    | (.error e, rest) =>
      rw [decodeAll_of_error h, decodeAll_of_error (decode_append_of_error h chunk), Decoded.feed,
        decodeAll_of_error (decode_append_of_error h chunk)]
      rfl
    | (.ok none, rest) =>
      rw [decodeAll_of_nothing h]
      rfl
    | (.ok (some f), rest) =>
      rw [decodeAll_of_frame h, decodeAll_of_frame (decode_append_of_frame h chunk),
        ← ih rest.length (hn ▸ length_lt_of_decode h) rest rfl]
      rfl

theorem decodeChunks_eq (chunks : List (List UInt8)) : decodeChunks chunks = decodeAll chunks.flatten := by
  have hfold : ∀ (chunks : List (List UInt8)) (seen : List UInt8),
      chunks.foldl Decoded.feed (decodeAll seen) = decodeAll (seen ++ chunks.flatten) := by
    intro chunks
    induction chunks with
    | nil => simp
    | cons chunk chunks ih =>
      intro seen
      rw [List.foldl_cons, feed_decodeAll, ih, List.flatten_cons, List.append_assoc]
  rw [decodeChunks, ← decodeAll_nil, hfold, List.nil_append]

/-- A stream yields the same in any chunks. What it yields are well-formed frames, each of which encodes to the very
    bytes that were taken out for it; what yields no frame is left in the buffer; and well-formed frames come out of
    their encodings again. -/
theorem frames_of_any_chunks :
    (∀ chunks : List (List UInt8), decodeChunks chunks = decodeAll chunks.flatten) ∧
      (∀ chunks : List (List UInt8), (∀ f ∈ (decodeChunks chunks).frames, f.WellFormed) ∧
        (decodeChunks chunks).frames.flatMap encode ++ (decodeChunks chunks).left = chunks.flatten) ∧
      (∀ buffer f rest, decode buffer = (.ok (some f), rest) → f.WellFormed ∧ f.encode ++ rest = buffer) ∧
      (∀ buffer answer rest, decode buffer = (answer, rest) → (answer = .ok none ∨ ∃ e, answer = .error e) →
        rest = buffer) ∧
      ∀ frames : List Frame, (∀ f ∈ frames, f.WellFormed) → ∀ chunks : List (List UInt8),
        chunks.flatten = frames.flatMap encode → decodeChunks chunks = ⟨frames, none, []⟩ := by
  refine ⟨decodeChunks_eq, fun chunks => ?_, fun buffer f rest h => ?_, fun buffer answer rest h => decode_keeps h,
    fun frames hframes chunks hchunks => ?_⟩
  · rw [decodeChunks_eq]
    exact decodeAll_exact chunks.flatten
  · obtain ⟨hf, hbuffer⟩ := decode_eq_frame_iff.mp h
    exact ⟨hf, hbuffer.symm⟩
  · rw [decodeChunks_eq, hchunks]
    exact decodeAll_flatMap_encode hframes

/-- One target and a frame of an unknown kind, cut inside the header and inside the cell of the first. -/
theorem frames_of_three_chunks :
    let target : Frame := ofText .targets (Nat.repr 1) [⟨3, -4⟩]
    let unknown : Frame := ⟨77, .pad [57, 57], []⟩
    let stream := [target, unknown].flatMap encode
    decodeChunks [stream.take 10, (stream.drop 10).take 77, (stream.drop 10).drop 77] =
      ⟨[target, unknown], none, []⟩ := by
  intro target unknown stream
  have htarget : target.WellFormed := by
    have hcode : target.code = Kind.obstacles.code ∨ target.code = Kind.targets.code := Or.inr rfl
    rw [WellFormed, if_pos hcode]
    exact bulkCount_repr (by decide)
  have hunknown : unknown.WellFormed := wellFormed_iff.mpr rfl
  refine frames_of_any_chunks.2.2.2.2 [target, unknown] ?_ _ ?_
  · exact List.forall_mem_cons.mpr ⟨htarget, List.forall_mem_singleton.mpr hunknown⟩
  · simp only [List.flatten_cons, List.flatten_nil, List.append_nil, List.take_append_drop]
    rfl

end Frame
end GridFlight
