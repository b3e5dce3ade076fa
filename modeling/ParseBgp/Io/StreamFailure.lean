import ParseBgp.Io.CallOrder
import ParseBgp.Io.Streaming

/-!
# Streams that fail

`fill_buffer` stores the status of a stream that fails.  `message` looks at the
status after its initial fill, but the loop of `decode_one` does not look at it
after a refill: it decodes the same bytes again, gets the same answer and calls
`fill_buffer` with a status that is not `OK`.
-/

namespace ParseBgp.Io.Reader

open Loop WholeInput

variable {σ ς Opts Content : Type}

/-- The reader right after a read that failed, in the initial fill or in a
refill of `decode_one`. -/
inductive AfterFailure (env : ReaderEnv σ ς Opts Content) (fuel : ℕ)
    (fresh : Reader σ ς Opts Content) : Reader σ ς Opts Content → Prop
  | initial {reader : Reader σ ς Opts Content} :
      fillBuffer env { fresh with started := true } = .ok reader →
        env.stream.bad reader.stream = true → AfterFailure env fuel fresh reader
  | refill {point : Reader σ ς Opts Content}
      {state : DecodeState σ ς Opts Content} :
      DecodePoint env fuel fresh point →
        Reaches (decodeIteration env) (.enter point false) state →
          env.stream.bad state.reader.stream = true →
            AfterFailure env fuel fresh state.reader

/-- No refill inside a `decode_one` of the client loop meets the failure. -/
def NoRefillFails (env : ReaderEnv σ ς Opts Content) (fuel : ℕ)
    (fresh : Reader σ ς Opts Content) : Prop :=
  ∀ point, DecodePoint env fuel fresh point → ∀ state,
    Reaches (decodeIteration env) (.enter point false) state →
      env.stream.bad state.reader.stream = false

/-- The promise after a read failed: the client loop ends with the status of
the stream and has yielded the messages of the delivered bytes, the stream is
not read again, and later calls only report the status. -/
def ReportsFailure (env : ReaderEnv σ ς Opts Content) (opts : Opts) (fuel : ℕ)
    (fresh : Reader σ ς Opts Content) (delivered : List UInt8)
    (failed : Reader σ ς Opts Content) : Prop :=
  ∃ calls final, readAll env fuel calls fresh =
      .ok ((reference (env.answer opts) delivered).1.map some,
        .ofStream (env.stream.status failed.stream), final) ∧
    final.reads = failed.reads ∧
    ∀ later, ∃ returned,
      runCalls env identityTransform fuel later final =
          .ok (final, returned) ∧
        ∀ value ∈ returned,
          value = .error (.ofStream (env.stream.status failed.stream))

/-- While the stream has not failed: the status is `OK`, since a failing stream
never signals its end. -/
structure Feeding (Left : σ → List UInt8 → Prop) (opts : Opts)
    (reader : Reader σ ς Opts Content) : Prop where
  live : reader.Live opts
  isOk : reader.status.isOk = true
  left : ∃ bytes, Left reader.stream bytes

/-- After a refill that failed: the decoder is going to be shown bytes on which
it does not succeed. -/
structure Refused (env : ReaderEnv σ ς Opts Content) (opts : Opts)
    (reader : Reader σ ς Opts Content) : Prop where
  live : reader.Live opts
  status_eq : reader.status = .ofStream (env.stream.status reader.stream)
  not_ok : ∀ result, env.answer opts reader.buffer.unread ≠ .ok result

variable {env : ReaderEnv σ ς Opts Content} {opts : Opts}
variable {Left : σ → List UInt8 → Prop} {fuel : ℕ}
variable {reader after fresh : Reader σ ς Opts Content}

/-! ## Fills -/

/-- A fill either goes on feeding or stores the status of the failed stream,
and then the stream had nothing left. -/
theorem fillBuffer_feeding (hfailing : env.stream.FailingReads Left)
    (hlive : reader.Live opts) (hok : reader.status.isOk = true)
    {bytes : List UInt8} (hleft : Left reader.stream bytes) :
    ∃ after, fillBuffer env reader = .ok after ∧
      after.started = reader.started ∧ after.Live opts ∧
        (Feeding Left opts after ∨
          (bytes = [] ∧ after.buffer.unread = reader.buffer.unread ∧
            after.status = .ofStream (env.stream.status after.stream))) := by
  rcases hfailing.read reader.buffer.availableWrite hleft with
    ⟨rest, -, hlength, hgood, hrest, -⟩ | ⟨hnil, hfails⟩
  · obtain ⟨buffer, hfill, hbuffer, -, -⟩ :=
      fillBuffer_of_good hlive.valid hok hlength hgood
    have hafter : (reader.afterRead env buffer reader.status).Live opts :=
      ⟨hbuffer, hlive.options_eq, hlive.message_isSome⟩
    exact ⟨_, hfill, rfl, hafter, Or.inl ⟨hafter, hok, rest, hrest⟩⟩
  · obtain ⟨buffer, hfill, hbuffer, hunread⟩ :=
      fillBuffer_of_fails hlive.valid hok hfails
    exact ⟨_, hfill, rfl, ⟨hbuffer, hlive.options_eq, hlive.message_isSome⟩,
      Or.inr ⟨hnil, hunread, rfl⟩⟩

/-! ## The loop of `decode_one` -/

section Iteration

variable {state : DecodeState σ ς Opts Content} (hready : state.Ready opts)
include hready

/-- An iteration before the failure that continues goes on feeding or meets the
failure. -/
theorem Feeding.again (hfailing : env.stream.FailingReads Left)
    (hnothing : ∀ result, env.answer opts [] ≠ .ok result)
    (hfeeding : Feeding Left opts state.reader)
    {next : DecodeState σ ς Opts Content}
    (hiteration : decodeIteration env state = .ok (.again next)) :
    next.Ready opts ∧
      (Feeding Left opts next.reader ∨ Refused env opts next.reader) := by
  obtain ⟨bytes, hleft⟩ := hfeeding.left
  have hstatus := ReaderStatus.isStreamFinished_of_isOk hfeeding.isOk
  have hanswer := decodeIteration_again_answer hready hiteration
  obtain ⟨before, hlive, hrefills, hunread, hrefill⟩ :=
    decodeIteration_of_partial hready hanswer hstatus
  rw [← hrefills.stream_eq] at hleft
  obtain ⟨filled, hfill, -, hfilled, hcases⟩ :=
    fillBuffer_feeding hfailing hlive (hrefills.status_eq ▸ hfeeding.isOk) hleft
  rw [hrefill, hfill, Outcome.ok_bind] at hiteration
  obtain rfl := Step.again.inj (Outcome.ok.inj hiteration)
  refine ⟨hfilled.ready true, hcases.imp_right ?_⟩
  rintro ⟨-, hkept, hfailed⟩
  refine ⟨hfilled, hfailed, ?_⟩
  intro result hresult
  -- the same bytes are as incomplete as before the refill
  change env.answer opts filled.buffer.unread = .ok result at hresult
  rcases hunread with hsame | hlost
  · rw [hkept, hsame, hanswer] at hresult
    simp at hresult
  · rw [hkept, hlost] at hresult
    exact hnothing result hresult

/-- An iteration before the failure that ends the loop has a message or a
decoder error. -/
theorem Feeding.done (hfeeding : Feeding Left opts state.reader)
    (hiteration : decodeIteration env state = .ok (.done after)) :
    Feeding Left opts after ∨ ∃ error, after.status = .ofDecoder error := by
  rcases decodeIteration_done_cases hready hiteration with
    ⟨len, content, buffer, -, -, hbuffer, -, rfl⟩ |
      ⟨error, content, -, hfinal, rfl⟩
  · exact Or.inl ⟨⟨hbuffer, hready.live.options_eq, rfl⟩, hfeeding.isOk,
      hfeeding.left⟩
  · have hstatus := ReaderStatus.isStreamFinished_of_isOk hfeeding.isOk
    have hne : error ≠ .partialMsg :=
      hfinal.resolve_right (Bool.eq_false_iff.mp hstatus)
    exact Or.inr ⟨error, endStatus_of_ne hne⟩

omit hready in
theorem Refused.isStreamFinished_eq (hrefused : Refused env opts reader) :
    reader.status.isStreamFinished = false := by
  rw [hrefused.status_eq]
  rfl

/-- The iteration after a failed refill does not continue: an incomplete
message makes it fault in `fill_buffer`. -/
theorem Refused.not_again (hrefused : Refused env opts state.reader)
    (next : DecodeState σ ς Opts Content) :
    decodeIteration env state ≠ .ok (.again next) := by
  intro hiteration
  have hanswer := decodeIteration_again_answer hready hiteration
  obtain ⟨before, -, hrefills, -, hrefill⟩ :=
    decodeIteration_of_partial hready hanswer hrefused.isStreamFinished_eq
  have hnot : before.status.isOk = false := by
    rw [hrefills.status_eq, hrefused.status_eq]
    rfl
  rw [hrefill, fillBuffer_of_not_ok hnot, Outcome.fault_bind] at hiteration
  simp at hiteration

/-- If it ends the loop, the status of the stream is replaced by a decoder
error. -/
theorem Refused.done (hrefused : Refused env opts state.reader)
    (hiteration : decodeIteration env state = .ok (.done after)) :
    ∃ error, after.status = .ofDecoder error := by
  rcases decodeIteration_done_cases hready hiteration with
    ⟨len, content, buffer, hanswer, -⟩ | ⟨error, content, -, hfinal, rfl⟩
  · exact absurd hanswer (hrefused.not_ok _)
  · have hne : error ≠ .partialMsg := hfinal.resolve_right
      (Bool.eq_false_iff.mp hrefused.isStreamFinished_eq)
    exact ⟨error, endStatus_of_ne hne⟩

end Iteration

/-- What holds at the head of the loop of `decode_one`, before and after the
failure. -/
def LoopInv (env : ReaderEnv σ ς Opts Content) (Left : σ → List UInt8 → Prop)
    (opts : Opts) (state : DecodeState σ ς Opts Content) : Prop :=
  state.Ready opts ∧
    (Feeding Left opts state.reader ∨ Refused env opts state.reader)

theorem LoopInv.again (hfailing : env.stream.FailingReads Left)
    (hnothing : ∀ result, env.answer opts [] ≠ .ok result)
    {state next : DecodeState σ ς Opts Content}
    (hinv : LoopInv env Left opts state)
    (hiteration : decodeIteration env state = .ok (.again next)) :
    LoopInv env Left opts next := by
  obtain ⟨hready, hfeeding | hrefused⟩ := hinv
  · exact hfeeding.again hready hfailing hnothing hiteration
  · exact absurd hiteration (hrefused.not_again hready next)

theorem LoopInv.done
    {state : DecodeState σ ς Opts Content} {result : Reader σ ς Opts Content}
    (hinv : LoopInv env Left opts state)
    (hiteration : decodeIteration env state = .ok (.done result)) :
    Feeding Left opts result ∨ ∃ error, result.status = .ofDecoder error := by
  obtain ⟨hready, hfeeding | hrefused⟩ := hinv
  · exact hfeeding.done hready hiteration
  · exact Or.inr (hrefused.done hready hiteration)

section Run

variable (hfailing : env.stream.FailingReads Left)
variable (hnothing : ∀ result, env.answer opts [] ≠ .ok result)
include hfailing hnothing

theorem decodeOne_feeding (hfeeding : Feeding Left opts reader)
    (hdecode : decodeOne env fuel reader = .ok after) :
    Feeding Left opts after ∨ ∃ error, after.status = .ofDecoder error := by
  rw [decodeOne, if_pos (ReaderStatus.notFinished_of_isOk hfeeding.isOk)]
    at hdecode
  have hinv : LoopInv env Left opts (.enter reader false) :=
    ⟨hfeeding.live.ready false, Or.inl hfeeding⟩
  have hdone : ∀ state result, LoopInv env Left opts state →
      decodeIteration env state = .ok (.done result) →
        Feeding Left opts result ∨
          ∃ error, result.status = .ofDecoder error :=
    fun _ _ hstate => hstate.done
  exact run_ok_of_invariant (fun _ _ hstate => hstate.again hfailing hnothing)
    hdone hinv hdecode

/-- A call of `decode_one` whose loop meets the failure does not return the
status of the stream. -/
theorem decodeOne_of_reaches_failure (hfeeding : Feeding Left opts reader)
    {state : DecodeState σ ς Opts Content}
    (hreach : Reaches (decodeIteration env) (.enter reader false) state)
    (hbad : env.stream.bad state.reader.stream = true)
    (hdecode : decodeOne env fuel reader = .ok after) :
    ∃ error, after.status = .ofDecoder error := by
  have hinv : LoopInv env Left opts state :=
    hreach.invariant (fun _ _ hstate => hstate.again hfailing hnothing)
      ⟨hfeeding.live.ready false, Or.inl hfeeding⟩
  obtain ⟨hready, ⟨-, -, bytes, hleft⟩ | hrefused⟩ := hinv
  · exact absurd (hbad.symm.trans (hfailing.not_bad hleft)) (by simp)
  rw [decodeOne, if_pos (ReaderStatus.notFinished_of_isOk hfeeding.isOk)]
    at hdecode
  obtain ⟨rest, hrest⟩ := hreach.run_ok hdecode
  rcases run_ok_cases hrest with hiteration | ⟨next, -, hiteration, -⟩
  · exact hrefused.done hready hiteration
  · exact absurd hiteration (hrefused.not_again hready next)

/-- Every `decode_one` of the client loop starts before the failure. -/
theorem DecodePoint.feeding {stream : σ} {content : Content} {bufferSize : ℕ}
    {block : MirroredMemory.Block UInt8}
    (hcreate : env.mirrors.create 0 bufferSize = some block)
    {input : List UInt8} (hleft : Left stream input)
    (hpoint : DecodePoint env fuel
      (create env stream (some opts) (some content) bufferSize) reader) :
    Feeding Left opts reader := by
  induction hpoint with
  | first hfill hnot =>
      obtain ⟨hok, -, hsynced⟩ := create_synced opts content hcreate hleft
      obtain ⟨filled, hfill', -, -, hfeeding | ⟨-, -, hfailed⟩⟩ :=
        fillBuffer_feeding hfailing hsynced.live hok hleft
      · rw [Outcome.ok.inj (hfill.symm.trans hfill')]
        exact hfeeding
      · rw [Outcome.ok.inj (hfill.symm.trans hfill'), hfailed] at hnot
        simp at hnot
  | next _ hdecode hnot ih =>
      rcases decodeOne_feeding hfailing hnothing ih hdecode with
        hfeeding | ⟨error, herror⟩
      · exact hfeeding
      · rw [herror] at hnot
        simp at hnot

end Run

/-! ## Failures that are reported -/

/-- A failure of the initial fill is reported; the stream then delivered
nothing. -/
theorem reportsFailure_initial (hfailing : env.stream.FailingReads Left)
    {stream : σ} {content : Content} {bufferSize : ℕ}
    {block : MirroredMemory.Block UInt8}
    (hcreate : env.mirrors.create 0 bufferSize = some block)
    {input : List UInt8} (hleft : Left stream input)
    (hfill : fillBuffer env
      { create env stream (some opts) (some content) bufferSize with
        started := true } = .ok reader)
    (hbad : env.stream.bad reader.stream = true) :
    ReportsFailure env opts fuel
      (create env stream (some opts) (some content) bufferSize) input
      reader := by
  obtain ⟨hok, -, hsynced⟩ := create_synced opts content hcreate hleft
  obtain ⟨filled, hfill', hstarted, -,
    ⟨-, -, bytes, hfed⟩ | ⟨hnil, -, hfailed⟩⟩ :=
      fillBuffer_feeding hfailing hsynced.live hok hleft
  · obtain rfl := Outcome.ok.inj (hfill.symm.trans hfill')
    exact absurd (hbad.symm.trans (hfailing.not_bad hfed)) (by simp)
  obtain rfl := Outcome.ok.inj (hfill.symm.trans hfill')
  have hended : reader.status.notFinished = false := by
    rw [hfailed]
    exact ReaderStatus.notFinished_ofStream _
  have hstart : start env fuel
      (create env stream (some opts) (some content) bufferSize) =
        .ok reader := by
    rw [start, if_neg (by simp [create]), hfill, Outcome.ok_bind,
      if_neg (by simp [hended])]
  refine ⟨1, reader, ?_, rfl, ?_⟩
  · rw [readAll_of_start hstart hstarted, readAll_of_ended 0 hstarted hended,
      hnil, Lawful.reference_nil, hfailed]
    rfl
  · intro later
    rw [← hfailed]
    exact runCalls_of_ended env identityTransform fuel hended
      fun _ _ _ => hstarted

/-- A stream failure is reported whenever no refill inside `decode_one` meets
it, so when it is met by the initial fill.  For a decoder that does not succeed
on no bytes at all, no other failure is reported. -/
theorem reportsFailure_iff_not_in_refill
    (hfailing : env.stream.FailingReads Left) (stream : σ) (content : Content)
    (bufferSize : ℕ) (block : MirroredMemory.Block UInt8)
    (hcreate : env.mirrors.create 0 bufferSize = some block)
    (input : List UInt8) (hleft : Left stream input) (fuel : ℕ) :
    (NoRefillFails env fuel
        (create env stream (some opts) (some content) bufferSize) →
      ∀ failed, AfterFailure env fuel
        (create env stream (some opts) (some content) bufferSize) failed →
          ReportsFailure env opts fuel
            (create env stream (some opts) (some content) bufferSize) input
            failed) ∧
    ((∀ result, env.answer opts [] ≠ .ok result) →
      (∀ failed, AfterFailure env fuel
        (create env stream (some opts) (some content) bufferSize) failed →
          ReportsFailure env opts fuel
            (create env stream (some opts) (some content) bufferSize) input
            failed) →
      NoRefillFails env fuel
        (create env stream (some opts) (some content) bufferSize)) := by
  constructor
  · intro hnever failed hfailed
    cases hfailed with
    | initial hfill hbad =>
        exact reportsFailure_initial hfailing hcreate hleft hfill hbad
    | @refill point state hpoint hreach hbad =>
        exact absurd (hbad.symm.trans (hnever point hpoint state hreach))
          (by simp)
  · intro hnothing hreports point hpoint state hreach
    by_contra hgood
    have hbad : env.stream.bad state.reader.stream = true :=
      Bool.not_eq_false _ |>.mp hgood
    obtain ⟨calls, final, hread, -, -⟩ :=
      hreports _ (.refill hpoint hreach hbad)
    obtain ⟨after, more, rest, hdecode, hrest⟩ := hpoint.readAll_ok rfl hread
    have hfeeding := hpoint.feeding hfailing hnothing hcreate hleft
    obtain ⟨error, herror⟩ := decodeOne_of_reaches_failure hfailing hnothing
      hfeeding hreach hbad hdecode
    have hended : after.status.notFinished = false := by
      rw [herror]
      exact ReaderStatus.notFinished_ofDecoder _
    have hstarted : after.started = true :=
      (decodeOne_started hdecode).trans hpoint.started
    rcases readAll_cases hstarted hrest with ⟨-, -, hstatus, -⟩ | ⟨hopen, -⟩
    · rw [herror] at hstatus
      simp [ReaderStatus.ofDecoder, ReaderStatus.ofStream] at hstatus
    · exact absurd (hopen.symm.trans hended) (by simp)

/-! ## A stream that fails in the middle of a message -/

/-- An in-memory stream that fails when it has nothing left. -/
def brokenStream : ByteStream ListStream Unit where
  read state count :=
    if state.ended then ([], state)
    else (state.rest.take count,
      { rest := state.rest.drop count, ended := state.rest.isEmpty })
  good state := !state.ended
  eof _ := false
  bad state := state.ended
  status _ := ()

theorem brokenStream_failingReads :
    brokenStream.FailingReads fun state bytes => state = ⟨bytes, false⟩ where
  not_bad := by
    rintro _ bytes rfl
    rfl
  read := by
    rintro _ bytes count rfl
    by_cases hnil : bytes = []
    · subst hnil
      exact Or.inr ⟨rfl, by constructor <;> simp [brokenStream]⟩
    · refine Or.inl ⟨bytes.drop count, ?_⟩
      have hpos := List.length_pos_iff.mpr hnil
      simp [brokenStream, hnil]
      omega
  failed := by
    intro state count hbad
    have hended : state.ended = true := hbad
    constructor <;> simp [brokenStream, hended]

def brokenEnv : ReaderEnv ListStream Unit Unit (List UInt8) where
  stream := brokenStream
  library := prefixedLibrary
  mirrors := exactMirrors
  messageType := .mrt

/-- A stream that fails at its first read. -/
theorem reportsFailure_iff_not_in_refill_empty :
    ∃ failed, AfterFailure brokenEnv 2
        (create brokenEnv ⟨[], false⟩ (some ()) (some []) 4) failed ∧
      ReportsFailure brokenEnv () 2
        (create brokenEnv ⟨[], false⟩ (some ()) (some []) 4) [] failed := by
  obtain ⟨failed, hfailed⟩ : ∃ failed, AfterFailure brokenEnv 2
      (create brokenEnv ⟨[], false⟩ (some ()) (some []) 4) failed :=
    ⟨_, .initial rfl rfl⟩
  refine ⟨failed, hfailed, ?_⟩
  apply (reportsFailure_iff_not_in_refill brokenStream_failingReads
    (⟨[], false⟩ : ListStream) [] 4 ⟨4, fun _ => 0, by decide⟩ rfl [] rfl 2).1
    ?_ failed hfailed
  intro point hpoint
  have hnone : ∀ reader, ¬ DecodePoint brokenEnv 2
      (create brokenEnv ⟨[], false⟩ (some ()) (some []) 4) reader := by
    intro reader hreader
    induction hreader with
    | first hfill hnot =>
        obtain rfl := Outcome.ok.inj hfill
        exact absurd hnot (by decide)
    | next _ _ _ ih => exact ih
  exact absurd hpoint (hnone point)

/-- A stream that fails after the first byte of a message: the refill in
`decode_one` meets the failure, and the call stops at the assertion. -/
theorem not_reportsFailure_refill :
    runCalls brokenEnv identityTransform 4 [.message]
        (create brokenEnv ⟨[2], false⟩ (some ()) (some []) 4) =
      .fault .fillBufferStatus ∧
    ∃ failed, AfterFailure brokenEnv 4
        (create brokenEnv ⟨[2], false⟩ (some ()) (some []) 4) failed ∧
      ¬ ReportsFailure brokenEnv () 4
        (create brokenEnv ⟨[2], false⟩ (some ()) (some []) 4) [2] failed := by
  obtain ⟨point, state, hfill, hnot, hiteration, hbad⟩ : ∃ point state,
      fillBuffer brokenEnv
        { create brokenEnv ⟨[2], false⟩ (some ()) (some []) 4 with
          started := true } = .ok point ∧
      point.status.notFinished = true ∧
      decodeIteration brokenEnv (.enter point false) = .ok (.again state) ∧
      brokenStream.bad state.reader.stream = true :=
    ⟨_, _, rfl, rfl, rfl, rfl⟩
  refine ⟨rfl, state.reader,
    .refill (.first hfill hnot) (.tail .refl hiteration) hbad, ?_⟩
  rintro ⟨calls, final, hread, -⟩
  cases calls with
  | zero => simp [readAll] at hread
  | succ calls =>
      have hfault : readAll brokenEnv 4 (calls + 1)
          (create brokenEnv ⟨[2], false⟩ (some ()) (some []) 4) =
            .fault .fillBufferStatus := rfl
      exact absurd (hfault.symm.trans hread) (by simp)

end ParseBgp.Io.Reader
