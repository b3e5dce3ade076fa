import ParseBgp.Io.BufferContract

/-!
# What the status says

The status of a reader is all a client sees of the stream, the buffer and the
decoder.  After any calls it carries the error that belongs to its value, the
stream is in the state that it names, and the unread bytes are those it speaks
of.
-/

namespace ParseBgp.Io.Reader

open Loop

variable {σ ς Opts Content τ : Type}

/-- The last read has signalled the end of the stream. -/
structure AtEnd (env : ReaderEnv σ ς Opts Content) (stream : σ) : Prop where
  not_good : env.stream.good stream = false
  eof : env.stream.eof stream = true

/-- What each status says about the stream and the unread bytes. -/
inductive Explains (env : ReaderEnv σ ς Opts Content) (opts : Opts)
    (stream : σ) (unread : List UInt8) : ReaderStatus ς → Prop
  | ok : Explains env opts stream unread (.ofValue .ok)
  | streamFinished : AtEnd env stream →
      Explains env opts stream unread (.ofValue .streamFinished)
  | finished : AtEnd env stream → unread = [] →
      env.answer opts unread = .error .partialMsg →
      Explains env opts stream unread (.ofValue .finished)
  | streamError : env.stream.good stream = false →
      env.stream.eof stream = false → env.stream.bad stream = true →
      Explains env opts stream unread
        (.ofStream (env.stream.status stream))
  | decoderError {error : Error} : env.answer opts unread = .error error →
      error ≠ .ok →
      (error = .partialMsg → AtEnd env stream ∧ unread ≠ []) →
      Explains env opts stream unread (.ofDecoder error)

/-- A live reader whose status is explained. -/
structure Explained (env : ReaderEnv σ ς Opts Content) (opts : Opts)
    (reader : Reader σ ς Opts Content) : Prop where
  live : reader.Live opts
  explains : Explains env opts reader.stream reader.buffer.unread reader.status

variable {env : ReaderEnv σ ς Opts Content} {opts : Opts}
variable {stream : σ} {unread : List UInt8} {status : ReaderStatus ς}
variable {reader after : Reader σ ς Opts Content}

theorem Explains.eq_ok (hexplains : Explains env opts stream unread status)
    (hok : status.isOk = true) : status = .ofValue .ok := by
  cases hexplains <;>
    simp_all [ReaderStatus.isOk, ReaderStatus.ofValue, ReaderStatus.ofStream,
      ReaderStatus.ofDecoder]

theorem Explains.atEnd (hexplains : Explains env opts stream unread status)
    (hfinished : status.isStreamFinished = true) : AtEnd env stream := by
  cases hexplains with
  | streamFinished hend => exact hend
  | _ =>
      simp [ReaderStatus.isStreamFinished, ReaderStatus.ofValue,
        ReaderStatus.ofStream, ReaderStatus.ofDecoder] at hfinished

/-- `decode_one` has not ended the run. -/
def Undecided (status : ReaderStatus ς) : Prop :=
  (status.isFinished || status.isDecoderError) = false

theorem undecided_of_notFinished (hnot : status.notFinished = true) :
    Undecided status := by
  by_contra hfinal
  rw [Undecided, Bool.not_eq_false] at hfinal
  rw [ReaderStatus.notFinished_of_final hfinal] at hnot
  simp at hnot

/-- Until then the status does not speak of the unread bytes. -/
theorem Explains.of_undecided
    (hexplains : Explains env opts stream unread status)
    (hundecided : Undecided status) (left : List UInt8) :
    Explains env opts stream left status := by
  cases hexplains with
  | ok => exact .ok
  | streamFinished hend => exact .streamFinished hend
  | finished _ _ _ => exact absurd hundecided (by simp [Undecided,
      ReaderStatus.isFinished, ReaderStatus.ofValue])
  | streamError hgood heof hbad => exact .streamError hgood heof hbad
  | decoderError _ _ _ => exact absurd hundecided (by simp [Undecided,
      ReaderStatus.isDecoderError, ReaderStatus.ofDecoder])

/-- The code `OK` is no error. -/
theorem answer_ne_error_ok : env.answer opts unread ≠ .error .ok := by
  intro hanswer
  simp only [ReaderEnv.answer, Library.answer] at hanswer
  split at hanswer
  · simp at hanswer
  · next hnot => simp [Error.isOk, Except.error.inj hanswer] at hnot

/-- The status with which `decode_one` ends a run speaks of the bytes it could
not decode. -/
theorem explains_endStatus {error : Error}
    (hanswer : env.answer opts unread = .error error)
    (hend : error = .partialMsg → AtEnd env stream) :
    Explains env opts stream unread (endStatus unread error) := by
  unfold endStatus
  split
  · next hempty =>
    rw [Bool.and_eq_true, decide_eq_true_eq] at hempty
    have hmore : error = .partialMsg := by
      simpa [Error.isPartialMsg] using hempty.1
    rw [hmore] at hanswer
    exact .finished (hend hmore) (List.length_eq_zero_iff.mp hempty.2) hanswer
  · next hnot =>
    refine .decoderError hanswer ?_ fun hmore => ⟨hend hmore, ?_⟩
    · rintro rfl
      exact answer_ne_error_ok hanswer
    · intro hnil
      simp [hmore, hnil, Error.isPartialMsg] at hnot

/-! ## Steps -/

/-- The head of the loop of `decode_one`: the status is explained, and it is
still undecided. -/
structure Deciding (env : ReaderEnv σ ς Opts Content) (opts : Opts)
    (state : DecodeState σ ς Opts Content) : Prop where
  head : AtHead (Explained env opts) state
  undecided : Undecided state.reader.status

variable {state : DecodeState σ ς Opts Content}

theorem Deciding.ready (hdeciding : Deciding env opts state) :
    state.Ready opts :=
  ⟨hdeciding.head.inv.live, hdeciding.head.out_eq⟩

theorem Deciding.done (hdeciding : Deciding env opts state)
    (hiteration : decodeIteration env state = .ok (.done after)) :
    Explained env opts after := by
  have hready := hdeciding.ready
  have hexplains := hdeciding.head.inv.explains
  have hoptions := hready.live.options_eq
  rcases decodeIteration_done_cases hready hiteration with
    ⟨len, content, buffer, -, -, hbuffer, -, rfl⟩ |
      ⟨error, content, hanswer, hfinal, rfl⟩
  · exact ⟨⟨hbuffer, hoptions, rfl⟩,
      hexplains.of_undecided hdeciding.undecided _⟩
  · refine ⟨⟨hready.live.valid, hoptions, rfl⟩, ?_⟩
    apply explains_endStatus hanswer
    intro hmore
    rcases hfinal with hne | hended
    · exact absurd hmore hne
    · exact hexplains.atEnd hended

section Bounded

variable (hreads : env.stream.BoundedReads)
include hreads

theorem Explained.fillBuffer (hexplained : Explained env opts reader)
    (hfill : Reader.fillBuffer env reader = .ok after) :
    Explained env opts after ∧ Undecided after.status := by
  have hvalid := (fillBuffer_meets hreads hexplained.live.valid).of_ok hfill
  have hok := fillBuffer_ok_isOk hfill
  have hstatus := hexplained.explains.eq_ok hok
  have hlive : after.Live opts := by
    refine ⟨hvalid, ?_, ?_⟩
    · obtain ⟨buffer, ⟨-, rfl⟩ | ⟨-, -, rfl⟩ | ⟨-, -, -, rfl⟩⟩ :=
        fillBuffer_cases hfill <;> exact hexplained.live.options_eq
    · obtain ⟨buffer, ⟨-, rfl⟩ | ⟨-, -, rfl⟩ | ⟨-, -, -, rfl⟩⟩ :=
        fillBuffer_cases hfill <;> exact hexplained.live.message_isSome
  obtain ⟨buffer, ⟨-, rfl⟩ | ⟨hgood, heof, rfl⟩ | ⟨hgood, heof, hbad, rfl⟩⟩ :=
    fillBuffer_cases hfill
  · have hafter : (reader.afterRead env buffer reader.status).status =
        .ofValue .ok := hstatus
    refine ⟨⟨hlive, ?_⟩, ?_⟩
    · rw [hafter]
      exact .ok
    · rw [hafter]
      rfl
  · exact ⟨⟨hlive, .streamFinished ⟨hgood, heof⟩⟩, rfl⟩
  · exact ⟨⟨hlive, .streamError hgood heof hbad⟩, rfl⟩

theorem Deciding.again (hdeciding : Deciding env opts state)
    {next : DecodeState σ ς Opts Content}
    (hiteration : decodeIteration env state = .ok (.again next)) :
    Deciding env opts next := by
  have hready := hdeciding.ready
  obtain ⟨_, hrefills, -, -⟩ := decodeIteration_again hiteration
  have hanswer := decodeIteration_again_answer hready hiteration
  obtain ⟨before, hlive, hbefore, -, hrefill⟩ :=
    decodeIteration_of_partial hready hanswer hrefills.not_streamFinished
  rw [hrefill] at hiteration
  obtain ⟨filled, hfill, hstep⟩ := Outcome.bind_ok_eq_ok_iff.mp hiteration
  obtain rfl := Step.again.inj hstep
  have hkept : Explained env opts before := by
    refine ⟨hlive, ?_⟩
    rw [hbefore.status_eq, hbefore.stream_eq]
    exact hdeciding.head.inv.explains.of_undecided hdeciding.undecided _
  obtain ⟨hfilled, hundecided⟩ := hkept.fillBuffer hreads hfill
  exact ⟨⟨hfilled, rfl⟩, hundecided⟩

theorem Explained.decodeOne (hexplained : Explained env opts reader)
    {fuel : ℕ} (hdecode : Reader.decodeOne env fuel reader = .ok after) :
    Explained env opts after := by
  unfold Reader.decodeOne at hdecode
  split at hdecode
  · next hnot =>
    have hstart : Deciding env opts (.enter reader false) :=
      ⟨⟨hexplained, rfl⟩, undecided_of_notFinished hnot⟩
    exact run_ok_of_invariant
      (fun _ _ hdeciding => hdeciding.again hreads)
      (fun _ _ hdeciding => hdeciding.done) hstart hdecode
  · rwa [← Outcome.ok.inj hdecode]

/-- What the status says stays true through any calls. -/
theorem explained_callInvariant :
    CallInvariant env (Explained env opts) fun _ => True where
  started := fun hexplained =>
    ⟨⟨hexplained.live.valid, hexplained.live.options_eq,
      hexplained.live.message_isSome⟩, hexplained.explains⟩
  fillBuffer := fun hexplained =>
    Outcome.meets_of_forall_ok fun _ hfill =>
      (hexplained.fillBuffer hreads hfill).1
  decodeOne := fun _ _ hexplained =>
    Outcome.meets_of_forall_ok fun _ hdecode =>
      hexplained.decodeOne hreads hdecode

end Bounded

/-- After any calls on a new reader that return, whatever the stream and the
decoder do within their bounds, the status says what has happened. -/
theorem runCalls_explains (hreads : env.stream.BoundedReads) (stream : σ)
    (content : Content) {bufferSize : ℕ}
    {block : MirroredMemory.Block UInt8}
    (hcreate : env.mirrors.create 0 bufferSize = some block)
    (transformer : TransformInput ς Content → τ) (fuel : ℕ)
    (calls : List Call) (after : Reader σ ς Opts Content) (returned : List τ)
    (hrun : runCalls env transformer fuel calls
      (create env stream (some opts) (some content) bufferSize) =
        .ok (after, returned)) :
    Explains env opts after.stream after.buffer.unread after.status := by
  have hvalid := (MirroredRingBuffer.create_valid hcreate).1
  have hfresh : Explained env opts
      (create env stream (some opts) (some content) bufferSize) := by
    refine ⟨⟨hvalid, rfl, rfl⟩, ?_⟩
    have hstatus : (create env stream (some opts) (some content)
        bufferSize).status = .ofValue .ok := by
      simp [create, hvalid.isNull_eq]
    rw [hstatus]
    exact .ok
  exact (((explained_callInvariant hreads).runCalls fuel calls hfresh).of_ok
    hrun).explains

/-- A message, and one that is cut off after its first byte. -/
theorem runCalls_explains_cut :
    ∃ after returned, runCalls prefixedEnv identityTransform 4
        [.message, .decodeOne, .message]
        (create prefixedEnv ⟨[2, 7, 3], false⟩ (some ()) (some []) 4) =
          .ok (after, returned) ∧ after.status = .ofDecoder .partialMsg ∧
      Explains prefixedEnv () after.stream after.buffer.unread
        after.status := by
  obtain ⟨after, returned, hrun, hstatus⟩ : ∃ after returned,
      runCalls prefixedEnv identityTransform 4 [.message, .decodeOne, .message]
        (create prefixedEnv ⟨[2, 7, 3], false⟩ (some ()) (some []) 4) =
          .ok (after, returned) ∧ after.status = .ofDecoder .partialMsg :=
    ⟨_, _, rfl, rfl⟩
  have hcreate : prefixedEnv.mirrors.create 0 4 =
      some ⟨4, fun _ => 0, by decide⟩ := rfl
  exact ⟨after, returned, hrun, hstatus, runCalls_explains
    listStream_boundedReads _ [] hcreate identityTransform 4 _ after returned
    hrun⟩

end ParseBgp.Io.Reader
