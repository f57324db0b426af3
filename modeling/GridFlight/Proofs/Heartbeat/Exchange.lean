import GridFlight.Proofs.Flight.Line

/-! Pings and their answers on one control channel. The link numbers its pings, and the responder answers each with the
    same number, as it reads them. Either end may be slow or stop, a ping may be given up in its write or in its wait,
    and what was written stays on its way. Numbers only grow, so a ping is acknowledged by nothing but its own answer. -/

namespace GridFlight
namespace Heartbeat

/-! ### The two halves of an answer -/

namespace Responder

/-- What a responder does with what it reads, up to a write: the ping that it is going to answer. -/
def hear (r : Responder) (item : Except FrameError Frame) : Option UInt64 × Responder :=
  if r.stopped then (none, r)
  else match Message.ofItem item with
    | .error _ => (none, { r with stopped := true })
    | .ok (.ok (.ping seq)) => (some seq, r)
    | .ok (.ok .exit) => (none, { r with stopped := true })
    | .ok _ => (none, r)

/-- The write of an answer. -/
def answer (r : Responder) (seq : UInt64) : Except FrameError Unit × Responder :=
  match r.writer.send (.pong seq) with
  | (.ok (), writer) => (.ok (), { r with writer := writer, answered := r.answered + 1 })
  | (.error e, writer) => (.error e, { r with writer := writer, stopped := true })

/-- To take an item is to hear it and to answer it at once. -/
theorem take_eq_answer (r : Responder) (item : Except FrameError Frame) :
    r.take item = match r.hear item with
      | (some seq, r) => (r.answer seq).2
      | (none, r) => r := by
  cases hstopped : r.stopped with
  | true => simp [take, hear, hstopped]
  | false =>
    rcases hitem : Message.ofItem item with e | e | m
    · simp [take, hear, hstopped, hitem]
    · simp [take, hear, hstopped, hitem]
    · cases m with
      | ping seq =>
        simp only [take, hear, answer, hstopped, hitem, Bool.false_eq_true, if_false]
        rcases r.writer.send (.pong seq) with ⟨_ | _, writer⟩ <;> rfl
      | _ => simp [take, hear, hstopped, hitem]

theorem hear_ping {r : Responder} (h : r.stopped = false) (seq : UInt64) :
    r.hear (.ok (Message.ping seq).toFrame) = (some seq, r) := by
  simp [hear, h, Message.ofItem, Except.map, Message.ofFrame_ping]

theorem answer_ok {r r' : Responder} {seq : UInt64} (h : r.answer seq = (.ok (), r')) :
    r'.writer.frames = r.writer.frames ++ [(Message.pong seq).toFrame] ∧ r'.answered = r.answered + 1 ∧
      r'.stopped = r.stopped := by
  unfold answer Writer.send at h
  split at h
  · next w hwrite =>
    obtain rfl := (Prod.mk.inj h).2
    exact ⟨(write_ok hwrite).1, rfl, rfl⟩
  · cases h

theorem answer_error {r r' : Responder} {seq : UInt64} {e : FrameError} (h : r.answer seq = (.error e, r')) :
    r'.writer.frames = r.writer.frames ∧ r'.answered = r.answered ∧ r'.stopped = true := by
  unfold answer Writer.send at h
  split at h
  · cases h
  · next e' w hwrite =>
    obtain rfl := (Prod.mk.inj h).2
    exact ⟨congrArg Writer.frames (write_error hwrite).2, rfl, rfl⟩

theorem take_error (r : Responder) (e : FrameError) : r.take (.error e) = { r with stopped := true } := by
  obtain ⟨writer, answered, stopped⟩ := r
  cases stopped <;> rfl

end Responder

/-! ### The wait for an answer -/

/-- What acknowledges a ping came in, and is the pong with its number. -/
theorem pong_of_await {seq : UInt64} {start deadline moment millis : Nat} {incoming rest : Incoming}
    {reading : Reading} (h : await seq start deadline incoming = (.acknowledged millis, moment, reading, rest)) :
    ∃ at' f, (at', .item (.ok f)) ∈ incoming ∧ Message.ofFrame f = .ok (.pong seq) := by
  induction incoming with
  | nil => cases h
  | cons first incoming ih =>
    obtain ⟨at', event⟩ := first
    unfold await at h
    split at h
    · split at h
      · next outcome hverdict =>
        obtain rfl : outcome = .acknowledged millis := (Prod.mk.inj h).1
        match event, hverdict with
        | .item (.ok f), hverdict =>
          refine ⟨at', f, List.mem_cons_self, ?_⟩
          simp only [verdict] at hverdict
          split at hverdict
          · next answer hpong =>
            split at hverdict
            · next hsame => rw [hpong, hsame]
            · cases hverdict
          · cases hverdict
      · obtain ⟨at'', f, hmem, hpong⟩ := ih h
        exact ⟨at'', f, List.mem_cons_of_mem _ hmem, hpong⟩
    · cases h

theorem mem_of_mem_await {seq : UInt64} {start deadline : Nat} {incoming : Incoming} {x : Nat × ChannelEvent}
    (h : x ∈ (await seq start deadline incoming).2.2.2) : x ∈ incoming := by
  induction incoming with
  | nil => cases h
  | cons first incoming ih =>
    obtain ⟨at', event⟩ := first
    unfold await at h
    split at h
    · split at h
      · exact List.mem_cons_of_mem _ h
      · exact List.mem_cons_of_mem _ (ih h)
    · exact h

namespace ControlLink

variable {l l' : ControlLink} {start deadline moment : Nat} {outcome : Outcome}

theorem pong_of_wait {millis : Nat} (h : l.wait start deadline = (.acknowledged millis, moment, l')) :
    ∃ at' f, (at', .item (.ok f)) ∈ l.incoming ∧ Message.ofFrame f = .ok (.pong l.seq) := by
  unfold wait at h
  split at h
  · exact pong_of_await (Prod.ext (Prod.mk.inj h).1 rfl)
  · cases h
  · cases h

/-- A wait takes things out of what has come in, and that is all. -/
theorem wait_keeps (h : l.wait start deadline = (outcome, moment, l')) :
    l'.writer = l.writer ∧ l'.seq = l.seq ∧ ∀ x ∈ l'.incoming, x ∈ l.incoming := by
  unfold wait at h
  split at h
  · obtain rfl := (Prod.mk.inj (Prod.mk.inj h).2).2
    exact ⟨rfl, rfl, fun x hx => mem_of_mem_await hx⟩
  · obtain rfl := (Prod.mk.inj (Prod.mk.inj h).2).2
    exact ⟨rfl, rfl, fun x hx => hx⟩
  · obtain rfl := (Prod.mk.inj (Prod.mk.inj h).2).2
    exact ⟨rfl, rfl, fun x hx => hx⟩

/-- A write numbers the ping, and puts it into the channel if it succeeds. -/
theorem write_cases (l : ControlLink) : l.write.2.seq = l.seq + 1 ∧ l.write.2.incoming = l.incoming ∧
    (l.write.2.writer.frames = l.writer.frames ∨
      l.write.2.writer.frames = l.writer.frames ++ [(Message.ping (l.seq + 1)).toFrame]) := by
  unfold write Writer.send
  dsimp only
  rcases hwrite : l.writer.write (Message.ping (l.seq + 1)).toFrame with ⟨e | _, w⟩
  · exact ⟨rfl, rfl, Or.inl (congrArg Writer.frames (write_error hwrite).2)⟩
  · exact ⟨rfl, rfl, Or.inr (write_ok hwrite).1⟩

end ControlLink

/-! ### Exchanges -/

/-- A control channel at work: its two ends, whether the link waits for an answer, and the ping that the responder has
    read and not answered yet. -/
structure Exchange where
  line : Line
  waiting : Bool
  answering : Option UInt64

namespace Exchange

inductive Deed where
  | issue
  | read
  | answer
  /-- An answer could not be written. -/
  | fail
  | outcome (outcome : Outcome)
  deriving DecidableEq

/-- Something done about a ping. -/
structure Act where
  deed : Deed
  seq : UInt64

/-- The numbers of the pings about which this was done, in order. -/
def numbers (d : Deed) (acts : List Act) : List UInt64 := (acts.filter fun a => a.deed = d).map Act.seq

def withLink (e : Exchange) (link : ControlLink) : Exchange := { e with line := { e.line with link := link } }

def withResponder (e : Exchange) (r : Responder) : Exchange := { e with line := { e.line with responder := r } }

/-- Something comes in for the link, to be read at this moment. -/
def comeIn (e : Exchange) (moment : Nat) (event : ChannelEvent) : Exchange :=
  e.withLink { e.line.link with incoming := e.line.link.incoming ++ [(moment, event)] }

/-- What can have happened on a control channel, and how it stands then. The link and the responder take their steps in
    any order, and moments are arbitrary. -/
inductive Course : List Act → Exchange → Prop where
  | begin : Course [] ⟨.new, false, none⟩
  | issue {acts : List Act} {e : Exchange} {link : ControlLink} (h : Course acts e) (hfree : e.waiting = false)
    (hwrite : e.line.link.write = (.ok (), link)) :
    Course (acts ++ [⟨.issue, link.seq⟩]) { e.withLink link with waiting := true }
  /-- Time runs out during the write, or the write fails; the ping has gone into the channel or not. -/
  | abandon {acts : List Act} {e : Exchange} {link : ControlLink} {outcome : Outcome} (h : Course acts e)
    (hfree : e.waiting = false)
    (hlink : link = e.line.link.write.2 ∨ link = { e.line.link with seq := e.line.link.seq + 1 })
    (houtcome : outcome = .timedOut ∨ outcome = .disconnected) :
    Course (acts ++ [⟨.issue, link.seq⟩, ⟨.outcome outcome, link.seq⟩]) (e.withLink link)
  | read {acts : List Act} {e : Exchange} {f : Frame} {rest : List Frame} (h : Course acts e)
    (hrunning : e.line.responder.stopped = false) (hfree : e.answering = none) (hpings : e.line.pings = f :: rest) :
    Course (acts ++ (e.line.responder.hear (.ok f)).1.toList.map (Act.mk .read))
      ⟨{ e.line with responder := (e.line.responder.hear (.ok f)).2, read := e.line.read + 1 }, e.waiting,
        (e.line.responder.hear (.ok f)).1⟩
  | answer {acts : List Act} {e : Exchange} {seq : UInt64} {r : Responder} (h : Course acts e)
    (hanswering : e.answering = some seq) (hwrite : e.line.responder.answer seq = (.ok (), r)) :
    Course (acts ++ [⟨.answer, seq⟩]) { e.withResponder r with answering := none }
  | fail {acts : List Act} {e : Exchange} {seq : UInt64} {r : Responder} {fault : FrameError} (h : Course acts e)
    (hanswering : e.answering = some seq) (hwrite : e.line.responder.answer seq = (.error fault, r)) :
    Course (acts ++ [⟨.fail, seq⟩]) { e.withResponder r with answering := none }
  /-- The pings become unreadable or end. -/
  | stop {acts : List Act} {e : Exchange} (h : Course acts e) (hfree : e.answering = none) (fault : FrameError) :
    Course acts (e.withResponder (e.line.responder.take (.error fault)))
  | comeIn {acts : List Act} {e : Exchange} {f : Frame} {rest : List Frame} (h : Course acts e)
    (hanswers : e.line.answers = f :: rest) (moment : Nat) :
    Course acts { (e.comeIn moment (.item (.ok f))) with line := (e.comeIn moment (.item (.ok f))).line.hear }
  /-- The answers become unreadable or end. -/
  | breakOff {acts : List Act} {e : Exchange} {event : ChannelEvent} (h : Course acts e)
    (hevent : event = .ended ∨ ∃ fault, event = .item (.error fault)) (moment : Nat) :
    Course acts (e.comeIn moment event)
  /-- The link's way to the responder breaks. -/
  | hangUp {acts : List Act} {e : Exchange} (h : Course acts e) : Course acts { e with line := e.line.hangUp }
  /-- The responder's way to the link breaks. -/
  | cutOff {acts : List Act} {e : Exchange} (h : Course acts e) :
    Course acts (e.withResponder { e.line.responder with writer := e.line.responder.writer.sever })
  | outcome {acts : List Act} {e : Exchange} {link : ControlLink} {outcome : Outcome} {start deadline moment : Nat}
    (h : Course acts e) (hwaiting : e.waiting = true)
    (hwait : e.line.link.wait start deadline = (outcome, moment, link)) :
    Course (acts ++ [⟨.outcome outcome, e.line.link.seq⟩]) { e.withLink link with waiting := false }

/-- A ping from its beginning to its end, with nothing done in between. -/
theorem Course.ping {acts : List Act} {e : Exchange} {link : ControlLink} {outcome : Outcome}
    {start timeout moment : Nat} (h : Course acts e) (hfree : e.waiting = false)
    (hping : e.line.link.ping start timeout = (outcome, moment, link)) :
    Course (acts ++ [⟨.issue, e.line.link.seq + 1⟩, ⟨.outcome outcome, e.line.link.seq + 1⟩]) (e.withLink link) := by
  have hseq := e.line.link.write_cases.1
  unfold ControlLink.ping at hping
  split at hping
  · next fault failed hwrite =>
    obtain ⟨rfl, -, rfl⟩ : .disconnected = outcome ∧ start = moment ∧ failed = link := by simpa using hping
    rw [hwrite] at hseq
    rw [← hseq]
    exact h.abandon hfree (Or.inl (by rw [hwrite])) (Or.inr rfl)
  · next issued hwrite =>
    rw [hwrite] at hseq
    have hended := (h.issue hfree hwrite).outcome rfl hping
    have hback : e.withLink link = { e with line := { e.line with link := link }, waiting := false } := by
      rw [← hfree]
      rfl
    rw [List.append_assoc] at hended
    rw [← hseq, hback]
    exact hended

/-- A responder that answers at once what it reads. -/
theorem Course.respond {acts : List Act} {e : Exchange} {f : Frame} {rest : List Frame} (h : Course acts e)
    (hrunning : e.line.responder.stopped = false) (hfree : e.answering = none) (hpings : e.line.pings = f :: rest) :
    ∃ later, Course (acts ++ later) ⟨e.line.respond f, e.waiting, none⟩ := by
  have hread := h.read hrunning hfree hpings
  have htake := e.line.responder.take_eq_answer (.ok f)
  unfold Line.respond
  rcases hhear : e.line.responder.hear (.ok f) with ⟨_ | seq, r⟩ <;> rw [hhear] at hread htake <;> rw [htake]
  · exact ⟨[], hread⟩
  · rcases hwrite : r.answer seq with ⟨fault | _, r'⟩ <;> simp only [hwrite]
    · have hfailed := hread.fail rfl hwrite
      rw [List.append_assoc] at hfailed
      exact ⟨[⟨.read, seq⟩, ⟨.fail, seq⟩], hfailed⟩
    · have hanswered := hread.answer rfl hwrite
      rw [List.append_assoc] at hanswered
      exact ⟨[⟨.read, seq⟩, ⟨.answer, seq⟩], hanswered⟩

/-! ### Causes -/

/-- What has gone before an act: a ping is issued before it is read, read before it is answered, and answered before it
    is acknowledged. -/
def Caused (before : List Act) (act : Act) : Prop :=
  match act.deed with
  | .read => ⟨.issue, act.seq⟩ ∈ before
  | .answer => ⟨.read, act.seq⟩ ∈ before
  | .outcome (.acknowledged _) => ⟨.answer, act.seq⟩ ∈ before
  | _ => True

def Causal (acts : List Act) : Prop := ∀ before act after, acts = before ++ act :: after → Caused before act

variable {acts : List Act} {e : Exchange}

theorem Causal.concat (h : Causal acts) {act : Act} (hact : Caused acts act) : Causal (acts ++ [act]) := by
  intro before a after hsplit
  rcases List.eq_nil_or_concat after with rfl | ⟨later, last, rfl⟩
  · obtain ⟨rfl, hlast⟩ := List.append_inj' hsplit rfl
    obtain rfl : act = a := by simpa using hlast
    exact hact
  · have hsplit' : acts ++ [act] = (before ++ a :: later) ++ [last] := by simpa using hsplit
    exact h before a later (List.append_inj' hsplit' rfl).1

/-- An acknowledged ping was issued, then read, then answered. -/
theorem Causal.acknowledged (h : Causal acts) {before after : List Act} {seq : UInt64} {millis : Nat}
    (hsplit : acts = before ++ ⟨.outcome (.acknowledged millis), seq⟩ :: after) :
    ∃ a b c d, before = a ++ ⟨.issue, seq⟩ :: b ++ ⟨.read, seq⟩ :: c ++ ⟨.answer, seq⟩ :: d := by
  have hanswer : ⟨.answer, seq⟩ ∈ before := h before _ after hsplit
  obtain ⟨before', d, rfl⟩ := List.append_of_mem hanswer
  have hread : ⟨.read, seq⟩ ∈ before' := h before' ⟨.answer, seq⟩ _ (by rw [hsplit, List.append_assoc]; rfl)
  obtain ⟨before'', c, rfl⟩ := List.append_of_mem hread
  have hissue : ⟨.issue, seq⟩ ∈ before'' :=
    h before'' ⟨.read, seq⟩ _ (by rw [hsplit]; simp only [List.append_assoc]; rfl)
  obtain ⟨a, b, rfl⟩ := List.append_of_mem hissue
  exact ⟨a, b, c, d, rfl⟩

theorem mem_numbers {d : Deed} {seq : UInt64} : seq ∈ numbers d acts ↔ ⟨d, seq⟩ ∈ acts := by
  simp only [numbers, List.mem_map, List.mem_filter, decide_eq_true_eq]
  constructor
  · rintro ⟨act, ⟨hact, rfl⟩, rfl⟩
    exact hact
  · exact fun h => ⟨_, ⟨h, rfl⟩, rfl⟩

@[simp] theorem numbers_append (d : Deed) (acts later : List Act) :
    numbers d (acts ++ later) = numbers d acts ++ numbers d later := by simp [numbers]

@[simp] theorem numbers_nil (d : Deed) : numbers d [] = [] := rfl

@[simp] theorem numbers_cons (d : Deed) (act : Act) (acts : List Act) :
    numbers d (act :: acts) = (if act.deed = d then [act.seq] else []) ++ numbers d acts := by
  by_cases h : act.deed = d <;> simp [numbers, h]

/-! ### Pings on their way -/

/-- The pings are numbered from one on. Some of them go into the channel, in their order, and are read from its front. -/
structure Outward (acts : List Act) (link : ControlLink) (read : Nat) : Prop where
  numbered : numbers .issue acts = (List.range' 1 (numbers .issue acts).length).map UInt64.ofNat
  seq : link.seq = UInt64.ofNat (numbers .issue acts).length
  pings : ∃ sent : List UInt64, sent.Sublist (numbers .issue acts) ∧
    link.writer.frames = sent.map (fun seq => (Message.ping seq).toFrame) ∧ numbers .read acts = sent.take read
  length : (numbers .read acts).length = read

variable {link link' : ControlLink} {n : Nat}

theorem Outward.congr {acts' : List Act} (h : Outward acts link n) (hissues : numbers .issue acts' = numbers .issue acts)
    (hreads : numbers .read acts' = numbers .read acts) (hseq : link'.seq = link.seq)
    (hframes : link'.writer.frames = link.writer.frames) : Outward acts' link' n where
  numbered := by rw [hissues]; exact h.numbered
  seq := by rw [hseq, hissues]; exact h.seq
  pings := by rw [hissues, hreads, hframes]; exact h.pings
  length := by rw [hreads]; exact h.length

/-- A ping is begun, and goes into the channel or does not. -/
theorem Outward.issue (h : Outward acts link n) (hseq : link'.seq = link.seq + 1)
    (hframes : link'.writer.frames = link.writer.frames ∨
      link'.writer.frames = link.writer.frames ++ [(Message.ping (link.seq + 1)).toFrame]) :
    Outward (acts ++ [⟨.issue, link'.seq⟩]) link' n := by
  have hissues : numbers .issue (acts ++ [⟨.issue, link'.seq⟩]) = numbers .issue acts ++ [link.seq + 1] := by
    simp [hseq]
  have hreads : numbers .read (acts ++ [⟨.issue, link'.seq⟩]) = numbers .read acts := by simp
  have hnext : link.seq + 1 = UInt64.ofNat ((numbers .issue acts).length + 1) := by rw [h.seq, UInt64.ofNat_add]; rfl
  obtain ⟨sent, hsent, hwritten, hread⟩ := h.pings
  refine ⟨?_, ?_, ?_, by rw [hreads]; exact h.length⟩
  · rw [hissues, List.length_append, List.length_singleton, List.range'_concat, List.map_append, ← h.numbered, hnext]
    simp [Nat.add_comm]
  · rw [hissues, hseq, hnext, List.length_append, List.length_singleton]
  · rw [hissues, hreads]
    rcases hframes with hframes | hframes
    · exact ⟨sent, hsent.trans (List.sublist_append_left _ _), by rw [hframes, hwritten], hread⟩
    · refine ⟨sent ++ [link.seq + 1], hsent.append (List.Sublist.refl _), by rw [hframes, hwritten]; simp, ?_⟩
      -- The new ping stands behind all that has been read.
      have hle : n ≤ sent.length := by
        have hlength := h.length
        rw [hread, List.length_take] at hlength
        omega
      rw [hread, List.take_append_of_le_length hle]

/-- What is read next is a ping that was issued. -/
theorem Outward.read (h : Outward acts link n) {f : Frame} {rest : List Frame}
    (hnext : link.writer.frames.drop n = f :: rest) :
    ∃ seq, f = (Message.ping seq).toFrame ∧ ⟨.issue, seq⟩ ∈ acts ∧ Outward (acts ++ [⟨.read, seq⟩]) link (n + 1) := by
  obtain ⟨sent, hsent, hwritten, hread⟩ := h.pings
  rw [hwritten, ← List.map_drop] at hnext
  obtain ⟨seq, later, hdrop, rfl, -⟩ := List.map_eq_cons_iff.mp hnext
  have hget : sent[n]? = some seq := by rw [← List.head?_drop, hdrop]; rfl
  refine ⟨seq, rfl, mem_numbers.mp (hsent.subset (List.mem_of_getElem? hget)), ?_⟩
  refine ⟨by simpa using h.numbered, by simpa using h.seq, ⟨sent, by simpa using hsent, hwritten, ?_⟩, ?_⟩
  · simp [hread, List.take_add_one, hget]
  · simp [h.length]

/-! ### Answers on their way back -/

/-- What was read has been answered in its order, but for a last ping: one that is being answered, or whose answer could
    not be written. -/
structure Homeward (acts : List Act) (r : Responder) (answering : Option UInt64) : Prop where
  pairs : numbers .read acts = numbers .answer acts ++ numbers .fail acts ++ answering.toList
  pongs : r.writer.frames = (numbers .answer acts).map fun seq => (Message.pong seq).toFrame
  answered : r.answered = (numbers .answer acts).length
  running : r.stopped = false → numbers .fail acts = []
  stopped : r.stopped = true → answering = none ∧ (numbers .fail acts).length ≤ 1

variable {r r' : Responder} {answering : Option UInt64} {seq : UInt64}

theorem Homeward.congr {acts' : List Act} (h : Homeward acts r answering)
    (hacts : ∀ d ∈ [Deed.read, .answer, .fail], numbers d acts' = numbers d acts) : Homeward acts' r answering where
  pairs := by rw [hacts .read (by simp), hacts .answer (by simp), hacts .fail (by simp)]; exact h.pairs
  pongs := by rw [hacts .answer (by simp)]; exact h.pongs
  answered := by rw [hacts .answer (by simp)]; exact h.answered
  running := by rw [hacts .fail (by simp)]; exact h.running
  stopped := by rw [hacts .fail (by simp)]; exact h.stopped

theorem Homeward.read (h : Homeward acts r none) (hrunning : r.stopped = false) (seq : UInt64) :
    Homeward (acts ++ [⟨.read, seq⟩]) r (some seq) where
  pairs := by simp [h.pairs]
  pongs := by simp [h.pongs]
  answered := by simp [h.answered]
  running hrunning := by simp [h.running hrunning]
  stopped hstopped := by rw [hrunning] at hstopped; cases hstopped

theorem Homeward.running_of_answering (h : Homeward acts r (some seq)) : r.stopped = false := by
  cases hstopped : r.stopped with
  | false => rfl
  | true => cases (h.stopped hstopped).1

theorem Homeward.read_of_answering (h : Homeward acts r (some seq)) : ⟨.read, seq⟩ ∈ acts := by
  rw [← mem_numbers, h.pairs]
  exact List.mem_append_right _ (List.mem_singleton_self seq)

theorem Homeward.answer (h : Homeward acts r (some seq)) (hwrite : r.answer seq = (.ok (), r')) :
    Homeward (acts ++ [⟨.answer, seq⟩]) r' none := by
  obtain ⟨hframes, hanswered, hstopped⟩ := Responder.answer_ok hwrite
  have hfail := h.running h.running_of_answering
  refine ⟨by simp [h.pairs, hfail], by simp [hframes, h.pongs], by simp [hanswered, h.answered], ?_, ?_⟩
  · intro
    simp [hfail]
  · intro
    simp [hfail]

theorem Homeward.fail {fault : FrameError} (h : Homeward acts r (some seq))
    (hwrite : r.answer seq = (.error fault, r')) : Homeward (acts ++ [⟨.fail, seq⟩]) r' none := by
  obtain ⟨hframes, hanswered, hstopped⟩ := Responder.answer_error hwrite
  have hfail := h.running h.running_of_answering
  refine ⟨by simp [h.pairs, hfail], by simp [hframes, h.pongs], by simp [hanswered, h.answered], ?_, ?_⟩
  · rw [hstopped]
    exact nofun
  · intro
    simp [hfail]

theorem Homeward.stop (h : Homeward acts r none) : Homeward acts { r with stopped := true } none where
  pairs := h.pairs
  pongs := h.pongs
  answered := h.answered
  running := nofun
  stopped _ := by
    refine ⟨rfl, ?_⟩
    cases hstopped : r.stopped with
    | false => simp [h.running hstopped]
    | true => exact (h.stopped hstopped).2

/-! ### What every exchange keeps -/

structure Sound (acts : List Act) (e : Exchange) : Prop where
  outward : Outward acts e.line.link e.line.read
  homeward : Homeward acts e.line.responder e.answering
  incoming : ∀ moment f, (moment, .item (.ok f)) ∈ e.line.link.incoming → ∃ seq, f = (Message.pong seq).toFrame ∧
    ⟨.answer, seq⟩ ∈ acts
  causal : Causal acts

theorem sound_begin : Sound [] ⟨.new, false, none⟩ where
  outward := ⟨rfl, rfl, ⟨[], List.Sublist.refl [], rfl, rfl⟩, rfl⟩
  homeward := ⟨rfl, rfl, rfl, fun _ => rfl, nofun⟩
  incoming := nofun
  causal := by
    intro before act after h
    cases before <;> cases h

/-- An act that has its cause leaves what has come in accounted for. -/
theorem Sound.incoming_append (h : Sound acts e) (later : List Act) (moment : Nat) (f : Frame)
    (hmem : (moment, .item (.ok f)) ∈ e.line.link.incoming) :
    ∃ seq, f = (Message.pong seq).toFrame ∧ ⟨.answer, seq⟩ ∈ acts ++ later := by
  obtain ⟨seq, hf, hact⟩ := h.incoming moment f hmem
  exact ⟨seq, hf, List.mem_append_left later hact⟩

/-- A ping is begun. -/
theorem Sound.issue (h : Sound acts e) (hseq : link.seq = e.line.link.seq + 1)
    (hincoming : link.incoming = e.line.link.incoming)
    (hframes : link.writer.frames = e.line.link.writer.frames ∨
      link.writer.frames = e.line.link.writer.frames ++ [(Message.ping (e.line.link.seq + 1)).toFrame]) :
    Sound (acts ++ [⟨.issue, link.seq⟩]) (e.withLink link) where
  outward := h.outward.issue hseq hframes
  homeward := h.homeward.congr (by simp)
  incoming moment f hmem := h.incoming_append _ moment f (hincoming ▸ hmem)
  causal := h.causal.concat trivial

/-- A ping comes to its end. -/
theorem Sound.outcome (h : Sound acts e) (outcome : Outcome) (seq : UInt64)
    (hcause : ∀ millis, outcome = .acknowledged millis → ⟨.answer, seq⟩ ∈ acts) :
    Sound (acts ++ [⟨.outcome outcome, seq⟩]) e where
  outward := h.outward.congr (by simp) (by simp) rfl rfl
  homeward := h.homeward.congr (by simp)
  incoming := h.incoming_append _
  causal := by
    refine h.causal.concat ?_
    cases outcome with
    | acknowledged millis => exact hcause millis rfl
    | _ => trivial

/-- Something comes in for the link. -/
theorem Sound.comeIn (h : Sound acts e) {moment : Nat} {event : ChannelEvent}
    (hevent : ∀ f, event = .item (.ok f) → f ∈ e.line.responder.writer.frames) : Sound acts (e.comeIn moment event) where
  outward := h.outward.congr rfl rfl rfl rfl
  homeward := h.homeward
  incoming moment' f hmem := by
    rcases List.mem_append.mp hmem with hmem | hmem
    · exact h.incoming moment' f hmem
    · obtain ⟨-, rfl⟩ := Prod.mk.inj (List.mem_singleton.mp hmem)
      have hf := hevent f rfl
      rw [h.homeward.pongs] at hf
      obtain ⟨seq, hseq, rfl⟩ := List.mem_map.mp hf
      exact ⟨seq, rfl, mem_numbers.mp hseq⟩
  causal := h.causal

/-- A ping that is acknowledged has been answered. -/
theorem Sound.answered (h : Sound acts e) {start deadline moment millis : Nat}
    (hwait : e.line.link.wait start deadline = (.acknowledged millis, moment, link)) :
    ⟨.answer, e.line.link.seq⟩ ∈ acts := by
  obtain ⟨at', f, hmem, hpong⟩ := ControlLink.pong_of_wait hwait
  obtain ⟨seq, rfl, hact⟩ := h.incoming at' f hmem
  rw [Message.ofFrame_pong] at hpong
  obtain rfl := Message.pong.inj (Except.ok.inj hpong)
  exact hact

theorem Course.sound (h : Course acts e) : Sound acts e := by
  induction h with
  | begin => exact sound_begin
  | @issue acts e link _ _ hwrite ih =>
    obtain ⟨hseq, hincoming, hframes⟩ := e.line.link.write_cases
    rw [hwrite] at hseq hincoming hframes
    have hissued := ih.issue hseq hincoming hframes
    exact ⟨hissued.outward, hissued.homeward, hissued.incoming, hissued.causal⟩
  | @abandon acts e link outcome _ _ hlink houtcome ih =>
    have hissued : Sound (acts ++ [⟨.issue, link.seq⟩]) (e.withLink link) := by
      rcases hlink with rfl | rfl
      · obtain ⟨hseq, hincoming, hframes⟩ := e.line.link.write_cases
        exact ih.issue hseq hincoming hframes
      · exact ih.issue rfl rfl (Or.inl rfl)
    have hended := hissued.outcome outcome link.seq (by rcases houtcome with rfl | rfl <;> exact nofun)
    rwa [List.append_assoc] at hended
  | @read acts e f rest _ hrunning hfree hpings ih =>
    obtain ⟨seq, rfl, hissue, houtward⟩ := ih.outward.read hpings
    have hhomeward := ih.homeward
    rw [hfree] at hhomeward
    rw [Responder.hear_ping hrunning]
    exact ⟨houtward, hhomeward.read hrunning seq, ih.incoming_append _, ih.causal.concat hissue⟩
  | @answer acts e seq r _ hanswering hwrite ih =>
    have hhomeward := ih.homeward
    rw [hanswering] at hhomeward
    exact ⟨ih.outward.congr (by simp) (by simp) rfl rfl, hhomeward.answer hwrite, ih.incoming_append _,
      ih.causal.concat hhomeward.read_of_answering⟩
  | @fail acts e seq r fault _ hanswering hwrite ih =>
    have hhomeward := ih.homeward
    rw [hanswering] at hhomeward
    exact ⟨ih.outward.congr (by simp) (by simp) rfl rfl, hhomeward.fail hwrite, ih.incoming_append _,
      ih.causal.concat trivial⟩
  | @stop acts e _ hfree fault ih =>
    have hhomeward := ih.homeward
    rw [hfree] at hhomeward
    refine ⟨ih.outward, ?_, ih.incoming, ih.causal⟩
    simp only [withResponder, Responder.take_error, hfree]
    exact hhomeward.stop
  | @comeIn acts e f rest _ hanswers moment ih =>
    have hin : Sound acts (e.comeIn moment (.item (.ok f))) := by
      refine ih.comeIn fun g hg => ?_
      obtain rfl : f = g := by simpa using hg
      exact List.mem_of_mem_drop (hanswers ▸ List.mem_cons_self)
    exact ⟨hin.outward, hin.homeward, hin.incoming, hin.causal⟩
  | breakOff _ hevent moment ih => exact ih.comeIn fun f hf => by rcases hevent with rfl | ⟨fault, rfl⟩ <;> cases hf
  | hangUp _ ih => exact ⟨ih.outward.congr rfl rfl rfl rfl, ih.homeward, ih.incoming, ih.causal⟩
  | cutOff _ ih =>
    have hhomeward := ih.homeward
    exact ⟨ih.outward, ⟨hhomeward.pairs, hhomeward.pongs, hhomeward.answered, hhomeward.running, hhomeward.stopped⟩,
      ih.incoming, ih.causal⟩
  | @outcome acts e link outcome start deadline moment _ _ hwait ih =>
    obtain ⟨hwriter, hseq, hincoming⟩ := ControlLink.wait_keeps hwait
    have hended := ih.outcome outcome e.line.link.seq fun millis hmillis => by
      rw [hmillis] at hwait
      exact ih.answered hwait
    exact ⟨hended.outward.congr rfl rfl hseq (congrArg Writer.frames hwriter), hended.homeward,
      fun moment' f hmem => hended.incoming moment' f (hincoming _ hmem), hended.causal⟩

/-! ### Echoes -/

/-- Fewer pings than there are numbers carry the numbers from one on. -/
theorem Outward.toNat_numbers (h : Outward acts link n) (hfew : (numbers .issue acts).length < UInt64.size) :
    (numbers .issue acts).map UInt64.toNat = List.range' 1 (numbers .issue acts).length := by
  rw [h.numbered, List.map_map, List.length_map, List.length_range']
  refine (List.map_congr_left fun k hk => ?_).trans (List.map_id _)
  have hk := List.mem_range'_1.mp hk
  exact UInt64.toNat_ofNat_of_lt' (by omega)

/-- The pings of a link, fewer than there are numbers, are numbered from one on. The responder answers what it reads,
    each ping once and in their order, but for a last one that it is still answering or could not answer; and it counts
    its answers. A ping that is acknowledged was issued, then read, then answered. Whatever else comes in for the
    link, late answers to other pings among it, does not acknowledge a ping. -/
theorem answered_in_turn (h : Course acts e) (hfew : (numbers .issue acts).length < UInt64.size) :
    (numbers .issue acts).map UInt64.toNat = List.range' 1 (numbers .issue acts).length ∧
    (e.line.link.writer.frames.take e.line.read = (numbers .read acts).map (fun seq => (Message.ping seq).toFrame) ∧
      e.line.responder.writer.frames = (numbers .answer acts).map fun seq => (Message.pong seq).toFrame) ∧
    ((numbers .read acts).Nodup ∧
      numbers .read acts = numbers .answer acts ++ (numbers .fail acts ++ e.answering.toList) ∧
      (numbers .fail acts ++ e.answering.toList).length ≤ 1) ∧
    e.line.responder.answered = e.line.responder.writer.frames.length ∧
    (∀ before seq millis after, acts = before ++ ⟨.outcome (.acknowledged millis), seq⟩ :: after →
      ∃ a b c d, before = a ++ ⟨.issue, seq⟩ :: b ++ ⟨.read, seq⟩ :: c ++ ⟨.answer, seq⟩ :: d) ∧
    ∀ start deadline, (∀ moment f, (moment, .item (.ok f)) ∈ e.line.link.incoming →
        ∃ seq, seq ≠ e.line.link.seq ∧ f = (Message.pong seq).toFrame) →
      (e.line.link.wait start deadline).1.isAlive = false := by
  have hsound := h.sound
  have hhomeward := hsound.homeward
  have hnumbers := hsound.outward.toNat_numbers hfew
  obtain ⟨sent, hsent, hwritten, hread⟩ := hsound.outward.pings
  have hnodup : (numbers .issue acts).Nodup := by
    have hnaturals : ((numbers .issue acts).map UInt64.toNat).Nodup := hnumbers ▸ List.nodup_range'
    exact (List.pairwise_map.mp hnaturals).imp fun hne heq => hne (congrArg UInt64.toNat heq)
  refine ⟨hnumbers, ⟨?_, hhomeward.pongs⟩, ⟨?_, ?_, ?_⟩, ?_, fun before seq millis after => hsound.causal.acknowledged,
    fun start deadline hothers => ?_⟩
  · rw [hwritten, hread, List.map_take]
  · rw [hread]
    exact (hnodup.sublist hsent).sublist (List.take_sublist _ _)
  · rw [hhomeward.pairs, List.append_assoc]
  · cases hstopped : e.line.responder.stopped with
    | false =>
      rw [hhomeward.running hstopped]
      exact Option.length_toList_le
    | true =>
      obtain ⟨hfree, hfail⟩ := hhomeward.stopped hstopped
      simpa [hfree] using hfail
  · rw [hhomeward.answered, hhomeward.pongs, List.length_map]
  · rcases hwait : e.line.link.wait start deadline with ⟨outcome, moment, link⟩
    cases outcome with
    | acknowledged millis =>
      obtain ⟨at', f, hmem, hpong⟩ := ControlLink.pong_of_wait hwait
      obtain ⟨seq, hseq, rfl⟩ := hothers at' f hmem
      rw [Message.ofFrame_pong] at hpong
      exact absurd (Message.pong.inj (Except.ok.inj hpong)) hseq
    | _ => rfl

/-- A channel on which nothing has been lost, by what went over it. -/
def unharmed (pings pongs : Array Frame) (incoming : Incoming) (read heard : Nat) (waiting : Bool)
    (answering : Option UInt64) : Exchange :=
  ⟨⟨⟨⟨pings, none⟩, incoming, .steady, UInt64.ofNat pings.size⟩, ⟨⟨pongs, none⟩, pongs.size, false⟩, read, heard⟩,
    waiting, answering⟩

/-- Two pings that are answered, the first of them after the link has given it up. -/
def twoPings : List Act :=
  [⟨.issue, 1⟩, ⟨.outcome .timedOut, 1⟩, ⟨.read, 1⟩, ⟨.answer, 1⟩, ⟨.issue, 2⟩, ⟨.read, 2⟩, ⟨.answer, 2⟩]

/-- The late answer is passed over, and the second ping is acknowledged by its own. -/
theorem second_ping_acknowledged :
    ∃ e, Course (twoPings ++ [⟨.outcome (.acknowledged 7), 2⟩]) e ∧
      (numbers .issue (twoPings ++ [⟨.outcome (.acknowledged 7), 2⟩])).length < UInt64.size ∧
      e.line.responder.answered = e.line.responder.writer.frames.length ∧
      ∃ a b c d, twoPings = a ++ ⟨.issue, 2⟩ :: b ++ ⟨.read, 2⟩ :: c ++ ⟨.answer, 2⟩ :: d := by
  let ping : UInt64 → Frame := fun seq => (Message.ping seq).toFrame
  let pong : UInt64 → Frame := fun seq => (Message.pong seq).toFrame
  let late : Nat × ChannelEvent := (3, .item (.ok (pong 1)))
  let own : Nat × ChannelEvent := (7, .item (.ok (pong 2)))
  have h₁ : Course (twoPings.take 2) (unharmed #[ping 1] #[] [] 0 0 false none) :=
    Course.begin.abandon rfl (Or.inl rfl) (Or.inl rfl)
  have h₂ : Course (twoPings.take 3) (unharmed #[ping 1] #[] [] 1 0 false (some 1)) := by
    have hpings : (unharmed #[ping 1] #[] [] 0 0 false none).line.pings = [ping 1] := rfl
    have h := h₁.read rfl rfl hpings
    rwa [Responder.hear_ping rfl] at h
  have h₃ : Course (twoPings.take 4) (unharmed #[ping 1] #[pong 1] [] 1 0 false none) := h₂.answer rfl rfl
  have h₄ : Course (twoPings.take 4) (unharmed #[ping 1] #[pong 1] [late] 1 1 false none) := by
    have hanswers : (unharmed #[ping 1] #[pong 1] [] 1 0 false none).line.answers = [pong 1] := rfl
    exact h₃.comeIn hanswers 3
  have h₅ : Course (twoPings.take 5) (unharmed #[ping 1, ping 2] #[pong 1] [late] 1 1 true none) := h₄.issue rfl rfl
  have h₆ : Course (twoPings.take 6) (unharmed #[ping 1, ping 2] #[pong 1] [late] 2 1 true (some 2)) := by
    have hpings : (unharmed #[ping 1, ping 2] #[pong 1] [late] 1 1 true none).line.pings = [ping 2] := rfl
    have h := h₅.read rfl rfl hpings
    rwa [Responder.hear_ping rfl] at h
  have h₇ : Course (twoPings.take 7) (unharmed #[ping 1, ping 2] #[pong 1, pong 2] [late] 2 1 true none) := h₆.answer rfl rfl
  have h₈ : Course (twoPings.take 7) (unharmed #[ping 1, ping 2] #[pong 1, pong 2] [late, own] 2 2 true none) := by
    have hanswers : (unharmed #[ping 1, ping 2] #[pong 1, pong 2] [late] 2 1 true none).line.answers = [pong 2] := rfl
    exact h₇.comeIn hanswers 7
  have hwait : (unharmed #[ping 1, ping 2] #[pong 1, pong 2] [late, own] 2 2 true none).line.link.wait 0 100 =
      (.acknowledged 7, 7, (unharmed #[ping 1, ping 2] #[pong 1, pong 2] [] 2 2 false none).line.link) := by
    simp [unharmed, ControlLink.wait, await, verdict, Reading.behind, late, own, pong, Message.ofFrame_pong]
  have h₉ : Course (twoPings ++ [⟨.outcome (.acknowledged 7), 2⟩])
      (unharmed #[ping 1, ping 2] #[pong 1, pong 2] [] 2 2 false none) := h₈.outcome rfl hwait
  have hfew : (numbers .issue (twoPings ++ [⟨.outcome (.acknowledged 7), 2⟩])).length < UInt64.size :=
    show 2 < UInt64.size by decide
  obtain ⟨-, -, -, hcount, hacknowledged, -⟩ := answered_in_turn h₉ hfew
  exact ⟨_, h₉, hfew, hcount, hacknowledged twoPings 2 7 [] rfl⟩

end Exchange
end Heartbeat
end GridFlight
