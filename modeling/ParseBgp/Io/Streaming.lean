import ParseBgp.Core.WholeInput
import ParseBgp.Io.ReaderSteps

/-!
# Streaming and whole-input decoding

A client that calls `message` and then `decode_one` and `message` in turn should
see the messages that decoding the whole content of the stream gives.  This
module relates the two: at every message boundary the bytes the reader holds and
the stream has left are exactly the undecoded rest of the content, as long as no
call of `decode_one` has to grow the buffer.
-/

namespace ParseBgp.Io.Reader

open Loop WholeInput

variable {σ ς Opts Content τ : Type}

/-- The client loop: `message`, then `decode_one` and `message` until the
result is an error.  At most `calls` messages are asked for. -/
def readAll (env : ReaderEnv σ ς Opts Content) (fuel : ℕ) :
    ℕ → Reader σ ς Opts Content →
      Outcome Fault
        (List (Message Content) × ReaderStatus ς × Reader σ ς Opts Content)
  | 0, _ => .outOfFuel
  | calls + 1, reader =>
      (message env identityTransform fuel reader).bind fun (reader, ret) =>
        match ret with
        | .error status => .ok ([], status, reader)
        | .ok msg =>
            (decodeOne env fuel reader).bind fun reader =>
              (readAll env fuel calls reader).bind fun rest =>
                .ok (msg :: rest.1, rest.2)

/-- The status in which a run ends that ends like the reference run. -/
def statusOf : End Error → ReaderStatus ς
  | .finished => .ofValue .finished
  | .failed error => .ofDecoder error

/-- The states in which the client loop on `fresh` calls `decode_one`, the
first time inside `message`. -/
inductive DecodePoint (env : ReaderEnv σ ς Opts Content) (fuel : ℕ)
    (fresh : Reader σ ς Opts Content) : Reader σ ς Opts Content → Prop
  | first {reader : Reader σ ς Opts Content} :
      fillBuffer env { fresh with started := true } = .ok reader →
        reader.status.notFinished = true → DecodePoint env fuel fresh reader
  | next {reader after : Reader σ ς Opts Content} :
      DecodePoint env fuel fresh reader → decodeOne env fuel reader = .ok after →
        after.status.notFinished = true → DecodePoint env fuel fresh after

/-- A `decode_one` from this state does not grow the buffer: the stream has
ended, or the unread bytes decide, or they do together with one refill, or that
refill meets the end of the stream. -/
def OneRefillSuffices (env : ReaderEnv σ ς Opts Content) (opts : Opts)
    (reader : Reader σ ς Opts Content) : Prop :=
  reader.status.isStreamFinished = true ∨
    env.answer opts reader.buffer.unread ≠ .error .partialMsg ∨
    env.stream.good (refilled env reader) = false ∨
    env.answer opts (reader.buffer.unread ++ refill env reader) ≠
      .error .partialMsg

/-- `bytes` is what the reader still has to decode: its unread bytes and what
the stream has left. -/
structure Synced (Left : σ → List UInt8 → Prop) (opts : Opts)
    (bytes : List UInt8) (reader : Reader σ ς Opts Content) : Prop where
  live : reader.Live opts
  started : reader.started = true
  source : (reader.status.isOk = true ∧ ∃ left, Left reader.stream left ∧
      bytes = reader.buffer.unread ++ left) ∨
    (reader.status.isStreamFinished = true ∧ bytes = reader.buffer.unread)

/-- The reader after a `decode_one` at the boundary before `bytes`: it holds
the next message of the reference run, or its final status. -/
inductive Decoded (env : ReaderEnv σ ς Opts Content)
    (Left : σ → List UInt8 → Prop) (opts : Opts) (bytes : List UInt8)
    (after : Reader σ ς Opts Content) : Prop
  | message {len : ℕ} {content : Content} :
      env.answer opts bytes = .ok (len, content) →
        after.message_ = some content → after.status.notFinished = true →
          Synced Left opts (bytes.drop len) after →
            Decoded env Left opts bytes after
  | final : (reference (env.answer opts) bytes).1 = [] →
      after.status = statusOf (reference (env.answer opts) bytes).2 →
        after.started = true → Decoded env Left opts bytes after

variable {env : ReaderEnv σ ς Opts Content} {opts : Opts}
variable {Left : σ → List UInt8 → Prop} {bytes : List UInt8}
variable {reader after : Reader σ ς Opts Content}

theorem Synced.notFinished (hsynced : Synced Left opts bytes reader) :
    reader.status.notFinished = true := by
  rcases hsynced.source with ⟨hok, -⟩ | ⟨hfinished, -⟩
  · simp [ReaderStatus.notFinished, hok]
  · simp [ReaderStatus.notFinished, hfinished]

/-- The unread bytes are a prefix of what is left to decode. -/
theorem Synced.unread_prefix (hsynced : Synced Left opts bytes reader) :
    reader.buffer.unread <+: bytes := by
  rcases hsynced.source with ⟨-, left, -, hbytes⟩ | ⟨-, hbytes⟩
  · exact ⟨left, hbytes.symm⟩
  · rw [hbytes]

theorem Synced.bytes_eq_unread (hsynced : Synced Left opts bytes reader)
    (hfinished : reader.status.isStreamFinished = true) :
    bytes = reader.buffer.unread := by
  rcases hsynced.source with ⟨hok, -⟩ | ⟨-, hbytes⟩
  · rw [ReaderStatus.isOk_eq_false_of_isStreamFinished hfinished] at hok
    simp at hok
  · exact hbytes

/-- Committing a message of the unread bytes keeps the reader in step. -/
theorem Synced.commit (hsynced : Synced Left opts bytes reader)
    {buffer : MirroredRingBuffer} {len : ℕ} (content : Content)
    (hvalid : buffer.Valid) (hlen : len ≤ reader.buffer.unread.length)
    (hunread : buffer.unread = reader.buffer.unread.drop len) :
    Synced Left opts (bytes.drop len)
      { reader with message_ := some content, buffer := buffer } where
  live := ⟨hvalid, hsynced.live.options_eq, rfl⟩
  started := hsynced.started
  source := by
    rcases hsynced.source with ⟨hok, left, hleft, hbytes⟩ | ⟨hfinished, hbytes⟩
    · refine Or.inl ⟨hok, left, hleft, ?_⟩
      rw [hbytes, List.drop_append_of_le_length hlen, ← hunread]
    · exact Or.inr ⟨hfinished, by rw [hbytes, ← hunread]⟩

section Lawful

variable (hlawful : Lawful (env.answer opts) .partialMsg)
include hlawful

/-- The status with which an error ends the run is that of the reference run,
if the error is final or the unread bytes are all that is left. -/
theorem endStatus_eq_reference {unread : List UInt8} {error : Error}
    (hwindow : unread <+: bytes)
    (hanswer : env.answer opts unread = .error error)
    (hsettled : error ≠ .partialMsg ∨ bytes = unread) :
    (reference (env.answer opts) bytes).1 = [] ∧
      (endStatus unread error : ReaderStatus ς) =
        statusOf (reference (env.answer opts) bytes).2 := by
  by_cases hnil : bytes = []
  · -- nothing is left: the decoder answers that it needs more bytes
    subst hnil
    obtain rfl := List.prefix_nil.mp hwindow
    rw [hlawful.empty] at hanswer
    obtain rfl := Except.error.inj hanswer
    exact ⟨rfl, rfl⟩
  have hwhole : env.answer opts bytes = .error error := by
    rcases hsettled with hne | hall
    · have hdecides : env.answer opts unread ≠ .error .partialMsg := by
        simpa [hanswer] using hne
      exact (hlawful.answer_of_prefix hwindow hdecides).trans hanswer
    · rwa [hall]
  rw [Lawful.reference_of_error hnil hwhole]
  refine ⟨rfl, ?_⟩
  rcases hsettled with hne | hall
  · exact endStatus_of_ne hne
  · rw [hall] at hnil
    simp [endStatus, hnil, statusOf]

/-- One iteration at a boundary where the unread bytes decide, or the stream
has ended. -/
theorem decodeIteration_decoded {state : DecodeState σ ς Opts Content}
    (hready : state.Ready opts) (hsynced : Synced Left opts bytes state.reader)
    (hsettled : env.answer opts state.reader.buffer.unread ≠
        .error .partialMsg ∨
      state.reader.status.isStreamFinished = true) :
    ∃ after, decodeIteration env state = .ok (.done after) ∧
      after.buffer.capacity = state.reader.buffer.capacity ∧
      Decoded env Left opts bytes after := by
  cases hanswer : env.answer opts state.reader.buffer.unread with
  | ok result =>
      obtain ⟨len, content⟩ := result
      have hlen := (hlawful.consumes hanswer).2
      have hdecides : env.answer opts state.reader.buffer.unread ≠
          .error .partialMsg := by
        simp [hanswer]
      have hwhole := hlawful.answer_of_prefix hsynced.unread_prefix hdecides
      obtain ⟨buffer, hiteration, hbuffer, hcapacity, hunread⟩ :=
        decodeIteration_of_ok hready hanswer hlen
      refine ⟨_, hiteration, hcapacity, ?_⟩
      exact .message (hwhole.trans hanswer) rfl hsynced.notFinished
        (hsynced.commit content hbuffer hlen hunread)
  | error error =>
      have hfinal : error ≠ .partialMsg ∨
          state.reader.status.isStreamFinished = true := by
        rw [hanswer] at hsettled
        simpa using hsettled
      obtain ⟨content, hiteration⟩ :=
        decodeIteration_of_error hready hanswer hfinal
      obtain ⟨hnone, hstatus⟩ := endStatus_eq_reference hlawful
        hsynced.unread_prefix hanswer (hfinal.imp_right hsynced.bytes_eq_unread)
      exact ⟨_, hiteration, rfl, .final hnone hstatus hsynced.started⟩

omit hlawful in
/-- A refill keeps the reader in step, and leaves a state in which the unread
bytes decide or the stream has ended. -/
theorem fillBuffer_synced (hsynced : Synced Left opts bytes reader)
    (hok : reader.status.isOk = true)
    (hdelivers : ∀ left, Left reader.stream left →
      env.stream.Delivers Left reader.stream left
        reader.buffer.availableWrite) :
    ∃ after, fillBuffer env reader = .ok after ∧
      after.buffer.capacity = reader.buffer.capacity ∧
      Synced Left opts bytes after ∧
      after.buffer.unread = reader.buffer.unread ++ refill env reader ∧
      (after.status.isStreamFinished = true ∨
        env.stream.good (refilled env reader) = true) := by
  obtain ⟨left, hleft, hbytes⟩ : ∃ left, Left reader.stream left ∧
      bytes = reader.buffer.unread ++ left := by
    rcases hsynced.source with ⟨-, hsource⟩ | ⟨hfinished, -⟩
    · exact hsource
    · rw [ReaderStatus.isOk_eq_false_of_isStreamFinished hfinished] at hok
      simp at hok
  obtain ⟨rest, hsplit, hlength, hcases⟩ := hdelivers left hleft
  rcases hcases with ⟨hgood, hrest⟩ | ⟨hgood, heof, hrest⟩
  · obtain ⟨buffer, hfill, hvalid, hcapacity, hunread⟩ :=
      fillBuffer_of_good hsynced.live.valid hok hlength hgood
    refine ⟨_, hfill, hcapacity, ⟨⟨hvalid, hsynced.live.options_eq,
      hsynced.live.message_isSome⟩, hsynced.started, Or.inl ⟨hok, rest, hrest,
      ?_⟩⟩, hunread, Or.inr hgood⟩
    rw [afterRead_buffer, hunread, List.append_assoc, hbytes, hsplit]
    rfl
  · obtain ⟨buffer, hfill, hvalid, hcapacity, hunread⟩ :=
      fillBuffer_of_eof hsynced.live.valid hok hlength hgood heof
    refine ⟨_, hfill, hcapacity, ⟨⟨hvalid, hsynced.live.options_eq,
      hsynced.live.message_isSome⟩, hsynced.started, Or.inr ⟨rfl, ?_⟩⟩,
      hunread, Or.inl rfl⟩
    rw [afterRead_buffer, hunread, hbytes, hsplit, hrest, List.append_nil]
    rfl

/-- A `decode_one` that needs at most one refill returns the next message of
the reference run, or its end. -/
theorem decodeOne_decoded (hchunked : env.stream.ChunkedReads Left)
    (hsynced : Synced Left opts bytes reader)
    (hrefill : OneRefillSuffices env opts reader) {fuel : ℕ}
    (hfuel : 2 ≤ fuel) :
    ∃ after, decodeOne env fuel reader = .ok after ∧
      after.buffer.capacity = reader.buffer.capacity ∧
      Decoded env Left opts bytes after := by
  obtain ⟨fuel, rfl⟩ := Nat.exists_eq_add_of_le' hfuel
  rw [decodeOne, if_pos hsynced.notFinished]
  by_cases hsettled : env.answer opts reader.buffer.unread ≠
      .error .partialMsg ∨ reader.status.isStreamFinished = true
  · obtain ⟨after, hiteration, hcapacity, hdecoded⟩ :=
      decodeIteration_decoded hlawful (hsynced.live.ready false) hsynced
        hsettled
    exact ⟨after, run_succ_of_done hiteration, hcapacity, hdecoded⟩
  · obtain ⟨hmore, hstatus⟩ := not_or.mp hsettled
    rw [not_not] at hmore
    rw [Bool.not_eq_true] at hstatus
    have hok := ReaderStatus.isOk_of_notFinished hsynced.notFinished hstatus
    obtain ⟨content, hiteration⟩ :=
      decodeIteration_refill hsynced.live hmore hstatus
    have hsynced' : Synced Left opts bytes
        { reader with message_ := some content } :=
      ⟨⟨hsynced.live.valid, hsynced.live.options_eq, rfl⟩, hsynced.started,
        hsynced.source⟩
    obtain ⟨filled, hfill, hcapacity, hfilled, hunread, hended⟩ :=
      fillBuffer_synced hsynced' hok fun _ hleft => hchunked.delivers hleft _
    rw [hfill, Outcome.ok_bind] at hiteration
    have hsettled' : env.answer opts filled.buffer.unread ≠
        .error .partialMsg ∨ filled.status.isStreamFinished = true := by
      rcases hended with hended | hgood
      · exact Or.inr hended
      · rcases hrefill with h | h | h | h
        · exact absurd h (by simp [hstatus])
        · exact absurd hmore h
        · exact absurd (hgood.symm.trans h) (by simp)
        · exact Or.inl (by rw [hunread]; exact h)
    obtain ⟨after, hdone, hcapacity', hdecoded⟩ :=
      decodeIteration_decoded hlawful (hfilled.live.ready true) hfilled
        hsettled'
    refine ⟨after, ?_, hcapacity'.trans hcapacity, hdecoded⟩
    rw [run_succ_of_again hiteration, run_succ_of_done hdone]

end Lawful

/-! ## The client loop -/

/-- Once started, `message` only looks at the state. -/
theorem message_of_started (transformer : TransformInput ς Content → τ)
    {fuel : ℕ} (hstarted : reader.started = true) :
    message env transformer fuel reader =
      .ok (reader, transformer reader.current) := by
  simp [message, start, hstarted]

theorem readAll_of_start {fuel calls : ℕ}
    (hstart : start env fuel reader = .ok after)
    (hstarted : after.started = true) :
    readAll env fuel calls reader = readAll env fuel calls after := by
  cases calls with
  | zero => rfl
  | succ calls =>
      simp only [readAll, message_of_started identityTransform hstarted]
      simp only [message, hstart, Outcome.ok_bind]

theorem DecodePoint.started {fuel : ℕ} {fresh : Reader σ ς Opts Content}
    (hpoint : DecodePoint env fuel fresh reader) : reader.started = true := by
  induction hpoint with
  | first hfill _ => exact fillBuffer_started hfill
  | next _ hdecode _ ih => exact (decodeOne_started hdecode).trans ih

/-- A started reader whose run has ended ends the client loop. -/
theorem readAll_of_ended {fuel : ℕ} (calls : ℕ)
    (hstarted : reader.started = true)
    (hended : reader.status.notFinished = false) :
    readAll env fuel (calls + 1) reader = .ok ([], reader.status, reader) := by
  simp only [readAll, message_of_started identityTransform hstarted,
    Outcome.ok_bind, current, identityTransform, hended, Bool.false_eq_true,
    if_false]

/-- A started reader that holds a message is asked for the next one. -/
theorem readAll_of_notFinished {fuel : ℕ} (calls : ℕ)
    (hstarted : reader.started = true)
    (hnot : reader.status.notFinished = true) :
    readAll env fuel (calls + 1) reader =
      (decodeOne env fuel reader).bind fun next =>
        (readAll env fuel calls next).bind fun rest =>
          .ok (reader.message_ :: rest.1, rest.2) := by
  simp only [readAll, message_of_started identityTransform hstarted,
    Outcome.ok_bind, current, identityTransform, hnot, if_true]

/-- A client loop that returns on a started reader sees its end, or goes on with
the next `decode_one`. -/
theorem readAll_cases {fuel calls : ℕ} {final : Reader σ ς Opts Content}
    {messages : List (Message Content)} {status : ReaderStatus ς}
    (hstarted : reader.started = true)
    (hread : readAll env fuel calls reader = .ok (messages, status, final)) :
    (reader.status.notFinished = false ∧ messages = [] ∧
        status = reader.status ∧ final = reader) ∨
      (reader.status.notFinished = true ∧ ∃ next more rest,
        calls = more + 1 ∧ decodeOne env fuel reader = .ok next ∧
          messages = reader.message_ :: rest ∧
            readAll env fuel more next = .ok (rest, status, final)) := by
  cases calls with
  | zero => simp [readAll] at hread
  | succ calls =>
      cases hnot : reader.status.notFinished with
      | false =>
          rw [readAll_of_ended calls hstarted hnot] at hread
          obtain ⟨rfl, rfl, rfl⟩ := by
            simpa only [Outcome.ok.injEq, Prod.mk.injEq] using hread
          exact Or.inl ⟨rfl, rfl, rfl, rfl⟩
      | true =>
          rw [readAll_of_notFinished calls hstarted hnot] at hread
          obtain ⟨next, hnext, hrest⟩ := Outcome.bind_eq_ok_iff.mp hread
          obtain ⟨⟨rest, last⟩, hmore, hpair⟩ :=
            Outcome.bind_ok_eq_ok_iff.mp hrest
          obtain ⟨rfl, rfl⟩ := Prod.mk.inj hpair
          exact Or.inr ⟨rfl, next, calls, rest, rfl, hnext, rfl, hmore⟩

/-- A client loop that returns has started the reader, and goes on from
there. -/
theorem readAll_start {fuel calls : ℕ}
    {result : List (Message Content) × ReaderStatus ς × Reader σ ς Opts Content}
    (hread : readAll env fuel calls reader = .ok result) :
    ∃ after, start env fuel reader = .ok after ∧ after.started = true ∧
      readAll env fuel calls after = .ok result := by
  cases calls with
  | zero => simp [readAll] at hread
  | succ calls =>
      have hmessage := hread
      rw [readAll, message, Outcome.bind_assoc] at hmessage
      obtain ⟨after, hstart, -⟩ := Outcome.bind_eq_ok_iff.mp hmessage
      have hstarted := start_started hstart
      rw [readAll_of_start hstart hstarted] at hread
      exact ⟨after, hstart, hstarted, hread⟩

/-- A client loop that returns has returned from the `decode_one` at each of
its decode points, and went on from there. -/
theorem DecodePoint.readAll_ok {fuel calls : ℕ}
    {fresh final : Reader σ ς Opts Content}
    {messages : List (Message Content)} {status : ReaderStatus ς}
    (hpoint : DecodePoint env fuel fresh reader)
    (hfresh : fresh.started = false)
    (hread : readAll env fuel calls fresh = .ok (messages, status, final)) :
    ∃ after more rest, decodeOne env fuel reader = .ok after ∧
      readAll env fuel more after = .ok (rest, status, final) := by
  induction hpoint with
  | @first reader hfill hnot =>
      have hstart : start env fuel fresh = decodeOne env fuel reader := by
        rw [start, if_neg (by simp [hfresh]), hfill, Outcome.ok_bind,
          if_pos hnot]
      obtain ⟨after, hafter, -, hrest⟩ := readAll_start hread
      exact ⟨after, calls, messages, hstart.symm.trans hafter, hrest⟩
  | @next reader after hpoint hdecode hnot ih =>
      obtain ⟨after', more, rest, hdecode', hrest⟩ := ih
      obtain rfl := Outcome.ok.inj (hdecode.symm.trans hdecode')
      have hstarted : after.started = true :=
        (decodeOne_started hdecode).trans hpoint.started
      rcases readAll_cases hstarted hrest with
        ⟨hended, -⟩ | ⟨-, next, more, messages, -, hnext, -, hmore⟩
      · exact absurd (hnot.symm.trans hended) (by simp)
      · exact ⟨next, more, messages, hnext, hmore⟩

theorem notFinished_statusOf (ending : End Error) :
    (statusOf ending : ReaderStatus ς).notFinished = false := by
  cases ending <;> rfl

theorem isDecoderError_statusOf (ending : End Error) :
    (statusOf ending : ReaderStatus ς).isDecoderError = true ↔
      ending ≠ .finished := by
  cases ending <;> simp [statusOf, ReaderStatus.isDecoderError,
    ReaderStatus.ofValue, ReaderStatus.ofDecoder]

/-- From a reader that holds the next message of the reference run on, the
client loop yields the rest of that run. -/
theorem readAll_decoded (hlawful : Lawful (env.answer opts) .partialMsg)
    (hchunked : env.stream.ChunkedReads Left) {fuel : ℕ} (hfuel : 2 ≤ fuel)
    {fresh : Reader σ ς Opts Content}
    (hrefill : ∀ reader, DecodePoint env fuel fresh reader →
      OneRefillSuffices env opts reader)
    {calls : ℕ} (hcalls : bytes.length < calls)
    (hdecoded : Decoded env Left opts bytes after)
    (hpoint : after.status.notFinished = true →
      DecodePoint env fuel fresh after) :
    ∃ final, readAll env fuel calls after =
      .ok ((reference (env.answer opts) bytes).1.map some,
        statusOf (reference (env.answer opts) bytes).2, final) := by
  induction calls generalizing bytes after with
  | zero => simp at hcalls
  | succ calls ih =>
      cases hdecoded with
      | final hnone hstatus hstarted =>
          have hended : after.status.notFinished = false := by
            rw [hstatus, notFinished_statusOf]
          refine ⟨after, ?_⟩
          rw [readAll_of_ended calls hstarted hended, hnone, hstatus,
            List.map_nil]
      | @message len content hanswer hmessage hnot hsynced =>
          obtain ⟨next, hnext, -, hdecoded⟩ :=
            decodeOne_decoded hlawful hchunked hsynced
              (hrefill after (hpoint hnot)) hfuel
          have hlen := hlawful.consumes hanswer
          have hrest : (bytes.drop len).length < calls := by
            rw [List.length_drop]
            omega
          obtain ⟨final, hread⟩ := ih hrest hdecoded
            fun hnot' => .next (hpoint hnot) hnext hnot'
          refine ⟨final, ?_⟩
          rw [readAll_of_notFinished calls hsynced.started hnot, hnext,
            Outcome.ok_bind, hread, Outcome.ok_bind, hmessage,
            hlawful.reference_of_ok hanswer, List.map_cons]

theorem create_isOk (opts : Opts) (stream : σ) (content : Content)
    {bufferSize : ℕ}
    {block : MirroredMemory.Block UInt8}
    (hcreate : env.mirrors.create 0 bufferSize = some block) :
    (create env stream (some opts) (some content) bufferSize).status.isOk =
      true := by
  have hvalid := (MirroredRingBuffer.create_valid hcreate).1
  simp [create, hvalid.isNull_eq, ReaderStatus.isOk, ReaderStatus.ofValue]

theorem create_of_isOk {stream : σ} {options : Option Opts}
    {message_ : Message Content} {bufferSize : ℕ}
    (hok : (create env stream options message_ bufferSize).status.isOk =
      true) :
    ∃ block, env.mirrors.create 0 bufferSize = some block := by
  cases hcreate : env.mirrors.create 0 bufferSize with
  | none =>
      simp [create, MirroredRingBuffer.create_eq_null hcreate,
        ReaderStatus.isOk, ReaderStatus.ofValue] at hok
  | some block => exact ⟨block, rfl⟩

/-- A successfully constructed reader over a stream with `input` left is in
step with `input` as soon as it is started. -/
theorem create_synced (opts : Opts) {stream : σ} (content : Content)
    {bufferSize : ℕ} {block : MirroredMemory.Block UInt8}
    (hcreate : env.mirrors.create 0 bufferSize = some block)
    {input : List UInt8} (hleft : Left stream input) :
    (create env stream (some opts) (some content) bufferSize).status.isOk =
        true ∧
      (create env stream (some opts) (some content)
        bufferSize).buffer.capacity = block.capacity ∧
      Synced Left opts input
        { create env stream (some opts) (some content) bufferSize with
          started := true } := by
  obtain ⟨hvalid, hcapacity, hunread⟩ :=
    MirroredRingBuffer.create_valid hcreate
  have hok := create_isOk opts stream content hcreate
  refine ⟨hok, hcapacity, ⟨hvalid, rfl, rfl⟩, rfl,
    Or.inl ⟨hok, input, hleft, ?_⟩⟩
  change input = (MirroredRingBuffer.create env.mirrors 0 bufferSize).unread ++
    input
  rw [hunread, List.nil_append]

section Fresh

variable (hlawful : Lawful (env.answer opts) .partialMsg)
variable (hchunked : env.stream.ChunkedReads Left)
variable {stream : σ} {content : Content} {bufferSize : ℕ}
variable {block : MirroredMemory.Block UInt8}
variable (hcreate : env.mirrors.create 0 bufferSize = some block)
variable {input : List UInt8} (hleft : Left stream input)
variable {fuel : ℕ} (hfuel : 2 ≤ fuel)
include hlawful hchunked hcreate hleft hfuel

/-- If no call of `decode_one` has to grow the buffer, the client loop on a
fresh reader yields the reference run over the content of the stream. -/
theorem readAll_create
    (hrefill : ∀ reader, DecodePoint env fuel
        (create env stream (some opts) (some content) bufferSize) reader →
      OneRefillSuffices env opts reader)
    {calls : ℕ} (hcalls : input.length < calls) :
    ∃ final, readAll env fuel calls
        (create env stream (some opts) (some content) bufferSize) =
      .ok ((reference (env.answer opts) input).1.map some,
        statusOf (reference (env.answer opts) input).2, final) := by
  obtain ⟨hok, -, hsynced⟩ :=
    create_synced opts content hcreate hleft
  obtain ⟨filled, hfill, -, hfilled, -, -⟩ :=
    fillBuffer_synced hsynced hok fun _ hleft => hchunked.delivers hleft _
  have hpoint : DecodePoint env fuel
      (create env stream (some opts) (some content) bufferSize) filled :=
    .first hfill hfilled.notFinished
  obtain ⟨after, hdecode, -, hdecoded⟩ :=
    decodeOne_decoded hlawful hchunked hfilled (hrefill filled hpoint) hfuel
  have hstarted : after.started = true := by
    cases hdecoded with
    | message _ _ _ hafter => exact hafter.started
    | final _ _ hafter => exact hafter
  have hstart : start env fuel
      (create env stream (some opts) (some content) bufferSize) =
        .ok after := by
    rw [start, if_neg (by simp [create]), hfill, Outcome.ok_bind,
      if_pos hfilled.notFinished, hdecode]
  obtain ⟨final, hread⟩ := readAll_decoded hlawful hchunked hfuel hrefill
    hcalls hdecoded fun hnot => .next hpoint hdecode hnot
  exact ⟨final, (readAll_of_start hstart hstarted).trans hread⟩

/-- In a run that never grows the buffer, every `decode_one` starts at a
message boundary of the reference run and with the initial capacity. -/
theorem DecodePoint.synced
    (hrefill : ∀ bytes reader, Boundary (env.answer opts) input bytes →
      Synced Left opts bytes reader →
        reader.buffer.capacity = block.capacity →
          OneRefillSuffices env opts reader)
    {reader : Reader σ ς Opts Content}
    (hpoint : DecodePoint env fuel
      (create env stream (some opts) (some content) bufferSize) reader) :
    ∃ bytes, Boundary (env.answer opts) input bytes ∧
      Synced Left opts bytes reader ∧
        reader.buffer.capacity = block.capacity := by
  induction hpoint with
  | first hfill _ =>
      obtain ⟨hok, hcapacity, hsynced⟩ :=
        create_synced opts content hcreate hleft
      obtain ⟨filled, hfill', hcapacity', hfilled, -, -⟩ :=
        fillBuffer_synced hsynced hok fun _ hleft => hchunked.delivers hleft _
      rw [hfill] at hfill'
      obtain rfl := Outcome.ok.inj hfill'
      exact ⟨input, .start, hfilled, hcapacity'.trans hcapacity⟩
  | next _ hdecode hnot ih =>
      obtain ⟨bytes, hboundary, hsynced, hcapacity⟩ := ih
      obtain ⟨after, hdecode', hcapacity', hdecoded⟩ :=
        decodeOne_decoded hlawful hchunked hsynced
          (hrefill bytes _ hboundary hsynced hcapacity) hfuel
      rw [hdecode] at hdecode'
      obtain rfl := Outcome.ok.inj hdecode'
      cases hdecoded with
      | message hanswer _ _ hafter =>
          exact ⟨_, hboundary.next hanswer, hafter,
            hcapacity'.trans hcapacity⟩
      | final _ hstatus _ =>
          rw [hstatus, notFinished_statusOf] at hnot
          simp at hnot

end Fresh

end ParseBgp.Io.Reader
