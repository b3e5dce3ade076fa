import ParseBgp.Io.BufferContract

/-!
# Does `decode_one` return?

The loop of `decode_one` has no counter.  While growing the buffer succeeds,
every iteration after the first refill reads into an empty buffer, so the bytes
left in the stream bound the iterations.  The loop ignores a `reserve` that
fails, and then nothing bounds them.
-/

namespace ParseBgp.Io.Reader

open Loop ReaderStatus

variable {σ ς Opts Content τ : Type}

/-- A `reserve` that a `decode_one` on `reader` calls on `buffer` returns
`false`; `index` counts its call of `mirror_create`. -/
def ReserveFails (env : ReaderEnv σ ς Opts Content)
    (reader : Reader σ ς Opts Content) (buffer : MirroredRingBuffer)
    (index : ℕ) : Prop :=
  ∃ state newCapacity after,
    Reaches (decodeIteration env) (.enter reader false) state ∧
      IterationCalls env state buffer (.reserve index newCapacity) ∧
        buffer.reserve env.mirrors index newCapacity = .ok (false, after)

variable {env : ReaderEnv σ ς Opts Content} {opts : Opts}
variable {reader after : Reader σ ς Opts Content}
variable {state next : DecodeState σ ς Opts Content}

/-! ## Error-free streams -/

/-- The status values of a run without stream or memory errors. -/
def regularValues : List StatusValue :=
  [.ok, .streamFinished, .finished, .decoderError]

/-- The reader owns its objects, has seen no error but one of the decoder, and
the stream has bytes left as long as the status is `OK`. -/
structure Steady (Left : σ → List UInt8 → Prop) (opts : Opts)
    (reader : Reader σ ς Opts Content) : Prop where
  live : reader.Live opts
  regular : reader.status.value ∈ regularValues
  left : reader.status.isOk = true → ∃ bytes, Left reader.stream bytes

theorem endStatus_regular (unread : List UInt8) (error : Error) :
    (endStatus unread error : ReaderStatus ς).value ∈ regularValues := by
  unfold endStatus
  split <;> simp [regularValues, ofValue, ReaderStatus.ofDecoder]

/-- A new reader with a buffer over an error-free stream. -/
theorem create_steady {Left : σ → List UInt8 → Prop} {stream : σ}
    {content : Content} {bufferSize : ℕ}
    (hcreate : env.mirrors.create 0 bufferSize ≠ none) {input : List UInt8}
    (hleft : Left stream input) :
    (create env stream (some opts) (some content) bufferSize).Steady Left
      opts := by
  obtain ⟨block, hblock⟩ := Option.ne_none_iff_exists'.mp hcreate
  have hvalid := (MirroredRingBuffer.create_valid hblock).1
  exact {
    live := ⟨hvalid, rfl, rfl⟩
    regular := by
      simp [create, hvalid.isNull_eq, regularValues, ofValue]
    left := fun _ => ⟨input, hleft⟩ }

section ErrorFree

variable {Left : σ → List UInt8 → Prop}
variable (hchunked : env.stream.ChunkedReads Left)
include hchunked

/-- A refill hands out some of the bytes left, at least one if there is room,
or meets the end of the stream. -/
theorem fillBuffer_chunk (hlive : reader.Live opts)
    (hok : reader.status.isOk = true) {bytes : List UInt8}
    (hleft : Left reader.stream bytes) :
    ∃ filled, fillBuffer env reader = .ok filled ∧ filled.Steady Left opts ∧
      filled.status.notFinished = true ∧
      (filled.status.isOk = true → ∃ rest, Left filled.stream rest ∧
        rest.length ≤ bytes.length ∧
        (0 < reader.buffer.availableWrite → rest.length < bytes.length)) := by
  obtain ⟨rest, hsplit, hlength, hcases⟩ :=
    hchunked.read reader.buffer.availableWrite hleft
  have hbytes : bytes.length = (refill env reader).length + rest.length := by
    rw [← List.length_append]
    exact congrArg List.length hsplit
  rcases hcases with ⟨hgood, hrest, hnonempty⟩ | ⟨hgood, heof, -⟩
  · obtain ⟨buffer, hfill, hbuffer, -⟩ :=
      fillBuffer_of_good hlive.valid hok hlength hgood
    refine ⟨_, hfill, ?_, ReaderStatus.notFinished_of_isOk hok, ?_⟩
    · exact {
        live := ⟨hbuffer, hlive.options_eq, hlive.message_isSome⟩
        regular := by
          rw [afterRead_status, ReaderStatus.value_of_isOk hok]
          simp [regularValues]
        left := fun _ => ⟨rest, hrest⟩ }
    · intro _
      refine ⟨rest, hrest, by omega, fun hroom => ?_⟩
      have hread : 0 < (refill env reader).length :=
        List.length_pos_iff.mpr (hnonempty hroom)
      omega
  · obtain ⟨buffer, hfill, hbuffer, -⟩ :=
      fillBuffer_of_eof hlive.valid hok hlength hgood heof
    refine ⟨_, hfill, ?_, rfl, fun hnot => ?_⟩
    · exact {
        live := ⟨hbuffer, hlive.options_eq, hlive.message_isSome⟩
        regular := by
          rw [afterRead_status]
          simp [regularValues, ofValue]
        left := fun hnot => by simp [ReaderStatus.isOk, ofValue] at hnot }
    · simp [ReaderStatus.isOk, ofValue] at hnot

theorem fillBuffer_steady (hsteady : reader.Steady Left opts)
    (hfill : fillBuffer env reader = .ok after) :
    after.Steady Left opts ∧ after.status.notFinished = true := by
  have hok := fillBuffer_ok_isOk hfill
  obtain ⟨bytes, hleft⟩ := hsteady.left hok
  obtain ⟨filled, hfilled, hafter, hnot, -⟩ :=
    fillBuffer_chunk hchunked hsteady.live hok hleft
  obtain rfl := Outcome.ok.inj (hfilled.symm.trans hfill)
  exact ⟨hafter, hnot⟩

omit hchunked in
/-- An iteration that ends the loop leaves a steady reader. -/
theorem decodeIteration_done_steady (hready : state.Ready opts)
    (hsteady : state.reader.Steady Left opts)
    (hiteration : decodeIteration env state = .ok (.done after)) :
    after.Steady Left opts := by
  rcases decodeIteration_done_cases hready hiteration with
    ⟨len, content, buffer, -, -, hbuffer, -, rfl⟩ |
      ⟨error, content, -, -, rfl⟩
  · exact {
      live := ⟨hbuffer, hready.live.options_eq, rfl⟩
      regular := hsteady.regular
      left := hsteady.left }
  · exact {
      live := ⟨hready.live.valid, hready.live.options_eq, rfl⟩
      regular := endStatus_regular _ _
      left := fun hok => by
        have hnot := notFinished_of_isOk hok
        rw [notFinished_endStatus] at hnot
        simp at hnot }

/-- An iteration that refills the buffer leaves a steady reader. -/
theorem decodeIteration_again_steady (hready : state.Ready opts)
    (hsteady : state.reader.Steady Left opts)
    (hiteration : decodeIteration env state = .ok (.again next)) :
    next.Ready opts ∧ next.reader.Steady Left opts ∧
      next.reader.status.notFinished = true := by
  have hanswer := decodeIteration_again_answer hready hiteration
  obtain ⟨_, hrefills, -⟩ := decodeIteration_again hiteration
  obtain ⟨before, hlive, hbefore, -, heq⟩ := decodeIteration_of_partial hready
    hanswer hrefills.not_streamFinished
  rw [hiteration] at heq
  obtain ⟨filled, hfill, hnext⟩ := Outcome.bind_ok_eq_ok_iff.mp heq.symm
  obtain rfl := Step.again.inj hnext
  have hsteady' : before.Steady Left opts := {
    live := hlive
    regular := by
      rw [hbefore.status_eq]
      exact hsteady.regular
    left := by
      rw [hbefore.status_eq, hbefore.stream_eq]
      exact hsteady.left }
  obtain ⟨hfilled, hnot⟩ := fillBuffer_steady hchunked hsteady' hfill
  exact ⟨hfilled.live.ready true, hfilled, hnot⟩

/-- Every call keeps a reader steady; what stops it is not said here. -/
theorem steady_readerInvariant :
    ReaderInvariant env (Steady Left opts) fun _ => True where
  started := fun hsteady =>
    ⟨⟨hsteady.live.valid, hsteady.live.options_eq, hsteady.live.message_isSome⟩,
      hsteady.regular, hsteady.left⟩
  fillBuffer := fun hsteady => Outcome.meets_of_forall_ok fun _ hfill =>
    (fillBuffer_steady hchunked hsteady hfill).1
  iteration := by
    intro state hstate
    have hready : state.Ready opts := ⟨hstate.inv.live, hstate.out_eq⟩
    apply Outcome.meets_of_forall_ok
    intro step hiteration
    cases step with
    | again next =>
        obtain ⟨hnext, hsteady, -⟩ := decodeIteration_again_steady hchunked
          hready hstate.inv hiteration
        exact ⟨hsteady, hnext.out_eq⟩
    | done result =>
        exact decodeIteration_done_steady hready hstate.inv hiteration

end ErrorFree

/-! ## Termination while growth succeeds -/

/-- A `reserve` that returns true on a full-size request has moved to an empty
buffer with room for at least one byte. -/
theorem grow_of_succeeds (hvalid : reader.buffer.Valid)
    (hsucceeds : ∀ buffer, reader.buffer.reserve env.mirrors reader.mirrored
      (reader.buffer.capacity * 2) ≠ .ok (false, buffer)) :
    ∃ buffer, grow env reader =
        .ok { reader with buffer := buffer, mirrored := reader.mirrored + 1 } ∧
      buffer.Valid ∧ 0 < buffer.availableWrite := by
  cases hcreate : env.mirrors.create reader.mirrored
      (reader.buffer.capacity * 2) with
  | none =>
      have hcapacity : reader.buffer.capacity < reader.buffer.capacity * 2 := by
        have hpos := hvalid.capacity_pos
        omega
      have hnull := MirroredRingBuffer.create_eq_null hcreate
      have hreserve : reader.buffer.reserve env.mirrors reader.mirrored
          (reader.buffer.capacity * 2) = .ok (false, reader.buffer) := by
        simp [MirroredRingBuffer.reserve, hcapacity, hnull]
      exact absurd hreserve (hsucceeds reader.buffer)
  | some block =>
      obtain ⟨buffer, hgrow, hbuffer, -, hunread⟩ := grow_of_some hvalid hcreate
      refine ⟨buffer, hgrow, hbuffer, ?_⟩
      rw [hbuffer.availableWrite_eq, hunread]
      exact hbuffer.capacity_pos

/-- The reader that the refill of an iteration starts from has room, unless it
is the first refill of the call. -/
theorem exists_refill (hready : state.Ready opts)
    (hanswer : env.answer opts state.reader.buffer.unread =
      .error .partialMsg)
    (hstatus : state.reader.status.isStreamFinished = false)
    (hsucceeds : ∀ buffer index newCapacity after,
      IterationCalls env state buffer (.reserve index newCapacity) →
        buffer.reserve env.mirrors index newCapacity ≠ .ok (false, after)) :
    ∃ before, before.Live opts ∧ before.stream = state.reader.stream ∧
      before.status = state.reader.status ∧
      (state.alreadyGotPartial = true → 0 < before.buffer.availableWrite) ∧
      decodeIteration env state = (fillBuffer env before).bind fun reader =>
        .ok (.again (.enter reader true)) := by
  obtain ⟨content, hasks⟩ := hready.asksForMore hanswer hstatus
  have hiteration := hasks.decodeIteration_eq
  have hlive := hready.live
  cases hgot : state.alreadyGotPartial with
  | false =>
      rw [if_neg (by simp [hgot]), Outcome.ok_bind] at hiteration
      exact ⟨{ state.reader with message_ := some content },
        ⟨hlive.valid, hlive.options_eq, rfl⟩, rfl, rfl, by simp, hiteration⟩
  | true =>
      have hvalid : { state.reader with
          message_ := some content }.buffer.Valid := hlive.valid
      obtain ⟨buffer, hgrow, hbuffer, hroom⟩ := grow_of_succeeds hvalid
        fun buffer => hsucceeds _ _ _ buffer (.reserve hasks hgot)
      rw [if_pos hgot, hgrow, Outcome.ok_bind] at hiteration
      exact ⟨{ state.reader with
          message_ := some content
          buffer := buffer
          mirrored := state.reader.mirrored + 1 },
        ⟨hbuffer, hlive.options_eq, rfl⟩, rfl, rfl, fun _ => hroom, hiteration⟩

/-- What bounds the iterations from a state on: the bytes left in the stream,
and one more for a first refill, which may find the buffer full.  After the end
of the stream no iteration continues. -/
def Bounded (Left : σ → List UInt8 → Prop) (bound : ℕ)
    (state : DecodeState σ ς Opts Content) : Prop :=
  state.reader.status.isOk = true → ∃ bytes, Left state.reader.stream bytes ∧
    bytes.length + (if state.alreadyGotPartial then 1 else 2) ≤ bound

/-- One iteration ends the loop or goes on below its bound. -/
theorem decodeIteration_bounded {Left : σ → List UInt8 → Prop}
    (hchunked : env.stream.ChunkedReads Left) (hreports : ReportsGiven env)
    (hready : state.Ready opts)
    (hnot : state.reader.status.notFinished = true) {bound : ℕ}
    (hbounded : Bounded Left bound state)
    (hsucceeds : ∀ buffer index newCapacity after,
      IterationCalls env state buffer (.reserve index newCapacity) →
        buffer.reserve env.mirrors index newCapacity ≠ .ok (false, after)) :
    (∃ result, decodeIteration env state = .ok (.done result)) ∨
      ∃ next smaller, decodeIteration env state = .ok (.again next) ∧
        smaller < bound ∧ Bounded Left smaller next := by
  cases hanswer : env.answer opts state.reader.buffer.unread with
  | ok answer =>
      obtain ⟨len, content⟩ := answer
      obtain ⟨buffer, hdone, -⟩ :=
        decodeIteration_of_ok hready hanswer (hreports hanswer)
      exact Or.inl ⟨_, hdone⟩
  | error error =>
      by_cases hfinal : error ≠ .partialMsg ∨
          state.reader.status.isStreamFinished = true
      · obtain ⟨content, hdone⟩ :=
          decodeIteration_of_error hready hanswer hfinal
        exact Or.inl ⟨_, hdone⟩
      obtain ⟨hmore, hstatus⟩ := not_or.mp hfinal
      rw [not_not] at hmore
      rw [Bool.not_eq_true] at hstatus
      rw [hmore] at hanswer
      have hok := isOk_of_notFinished hnot hstatus
      obtain ⟨bytes, hleft, hbytes⟩ := hbounded hok
      obtain ⟨before, hlive, hstream, hbefore, hroom, hiteration⟩ :=
        exists_refill hready hanswer hstatus hsucceeds
      rw [← hbefore] at hok
      rw [← hstream] at hleft
      obtain ⟨filled, hfill, -, -, hrest⟩ :=
        fillBuffer_chunk hchunked hlive hok hleft
      rw [hfill, Outcome.ok_bind] at hiteration
      refine Or.inr ⟨_, bound - 1, hiteration, ?_, ?_⟩
      · split at hbytes <;> omega
      · intro hfilled
        obtain ⟨rest, hleft', hle, hlt⟩ := hrest hfilled
        refine ⟨rest, hleft', ?_⟩
        change rest.length + 1 ≤ bound - 1
        cases hgot : state.alreadyGotPartial with
        | false =>
            simp only [hgot, Bool.false_eq_true, if_false] at hbytes
            omega
        | true =>
            have hless := hlt (hroom hgot)
            simp only [hgot, if_true] at hbytes
            omega

/-- A loop state of a `decode_one` on `reader` over an error-free stream, with a
bound for the iterations to come. -/
structure Running (env : ReaderEnv σ ς Opts Content)
    (Left : σ → List UInt8 → Prop) (opts : Opts)
    (reader : Reader σ ς Opts Content) (bound : ℕ)
    (state : DecodeState σ ς Opts Content) : Prop where
  reaches : Reaches (decodeIteration env) (.enter reader false) state
  ready : state.Ready opts
  steady : state.reader.Steady Left opts
  notFinished : state.reader.status.notFinished = true
  bounded : Bounded Left bound state

/-- The loop is entered with a bound on its iterations. -/
theorem Steady.running {Left : σ → List UInt8 → Prop}
    (hsteady : reader.Steady Left opts)
    (hnot : reader.status.notFinished = true) {bound : ℕ}
    (hbounded : Bounded Left bound (.enter reader false)) :
    Running env Left opts reader bound (.enter reader false) where
  reaches := .refl
  ready := hsteady.live.ready false
  steady := hsteady
  notFinished := hnot
  bounded := hbounded

theorem exists_running {Left : σ → List UInt8 → Prop}
    (hsteady : reader.Steady Left opts)
    (hnot : reader.status.notFinished = true) :
    ∃ bound, Running env Left opts reader bound (.enter reader false) := by
  by_cases hok : reader.status.isOk = true
  · obtain ⟨bytes, hbytes⟩ := hsteady.left hok
    exact ⟨bytes.length + 2,
      hsteady.running hnot fun _ => ⟨bytes, hbytes, le_rfl⟩⟩
  · exact ⟨0, hsteady.running hnot fun hisOk => absurd hisOk hok⟩

/-- One iteration ends the loop or runs on below its bound. -/
theorem Running.step {Left : σ → List UInt8 → Prop}
    (hchunked : env.stream.ChunkedReads Left) (hreports : ReportsGiven env)
    (hsucceeds : ∀ buffer index, ¬ ReserveFails env reader buffer index)
    {bound : ℕ} (hrunning : Running env Left opts reader bound state) :
    (∃ result, decodeIteration env state = .ok (.done result) ∧
        result.Steady Left opts) ∨
      ∃ next smaller, decodeIteration env state = .ok (.again next) ∧
        smaller < bound ∧ Running env Left opts reader smaller next := by
  have hgrows : ∀ buffer index newCapacity after,
      IterationCalls env state buffer (.reserve index newCapacity) →
        buffer.reserve env.mirrors index newCapacity ≠ .ok (false, after) := by
    intro buffer index newCapacity after hcall hfails
    exact hsucceeds buffer index
      ⟨state, newCapacity, after, hrunning.reaches, hcall, hfails⟩
  rcases decodeIteration_bounded hchunked hreports hrunning.ready
    hrunning.notFinished hrunning.bounded hgrows with
    ⟨result, hdone⟩ | ⟨next, smaller, hagain, hlt, hbounded⟩
  · exact Or.inl ⟨result, hdone,
      decodeIteration_done_steady hrunning.ready hrunning.steady hdone⟩
  · obtain ⟨hready, hsteady, hnot⟩ := decodeIteration_again_steady hchunked
      hrunning.ready hrunning.steady hagain
    exact Or.inr ⟨next, smaller, hagain, hlt, {
      reaches := hrunning.reaches.tail hagain
      ready := hready
      steady := hsteady
      notFinished := hnot
      bounded := hbounded }⟩

/-- While growing the buffer succeeds, every `decode_one` of a run over an
error-free stream returns, with the status `OK` or with one of the three ends of
a run. -/
theorem decodeOne_returns {Left : σ → List UInt8 → Prop}
    (hchunked : env.stream.ChunkedReads Left) (hreports : ReportsGiven env)
    (transformer : TransformInput ς Content → τ) {stream : σ}
    {input : List UInt8} (hleft : Left stream input) (opts : Opts)
    (content : Content) {bufferSize : ℕ}
    (hcreate : env.mirrors.create 0 bufferSize ≠ none)
    (hreached : Reached env transformer
      (create env stream (some opts) (some content) bufferSize) reader)
    (hsucceeds : ∀ buffer index, ¬ ReserveFails env reader buffer index) :
    ∃ fuel after, decodeOne env fuel reader = .ok after ∧
      after.status.value ∈ regularValues := by
  have hsteady := (steady_readerInvariant hchunked).reached
    (create_steady hcreate hleft) hreached
  cases hnot : reader.status.notFinished with
  | false =>
      exact ⟨0, reader, decodeOne_of_ended hnot, hsteady.regular⟩
  | true =>
      obtain ⟨bound, hrunning⟩ := exists_running hsteady hnot
      obtain ⟨fuel, after, hrun, hafter⟩ := run_returns_of_variant
        (fun _ _ => Running.step hchunked hreports hsucceeds) hrunning
      refine ⟨fuel, after, ?_, hafter.regular⟩
      rw [decodeOne, if_pos hnot, hrun]

/-- A message of three bytes, read through a buffer that starts with one. -/
theorem decodeOne_returns_grown :
    ∃ fuel after, decodeOne prefixedEnv fuel
        (create prefixedEnv ⟨[3, 8, 9], false⟩ (some ()) (some []) 1) =
          .ok after ∧ after.status.value ∈ regularValues := by
  have hpositive : ∀ buffer index, ¬ ReserveFails prefixedEnv
      (create prefixedEnv ⟨[3, 8, 9], false⟩ (some ()) (some []) 1)
      buffer index := by
    rintro buffer index ⟨state, newCapacity, after, -, -, hfails⟩
    obtain ⟨hcapacity, hnone⟩ :=
      MirroredRingBuffer.create_eq_none_of_reserve hfails
    have hpos : 0 < newCapacity := Nat.zero_lt_of_lt hcapacity
    simp [prefixedEnv, exactMirrors, hpos] at hnone
  exact decodeOne_returns listStream_exactReads.chunked prefixedEnv_reportsGiven
    identityTransform rfl () [] (by simp [prefixedEnv, exactMirrors])
    (.calls (rfl : runCalls prefixedEnv identityTransform 0 [] _ = _))
    hpositive

/-! ## Growth that fails -/

/-- A `reserve` of a `decode_one` on `reader` returns `false`, and no larger
mapping can be created any more. -/
def GrowthFails (env : ReaderEnv σ ς Opts Content)
    (reader : Reader σ ς Opts Content) : Prop :=
  reader.status.notFinished = true ∧ ∃ buffer index,
    ReserveFails env reader buffer index ∧
      ∀ later, index ≤ later → ∀ request, buffer.capacity < request →
        env.mirrors.create later request = none

/-- A failed growth ends the call with `MEMORY_FAILURE`. -/
def StopsOnFailedGrowth (env : ReaderEnv σ ς Opts Content)
    (reader : Reader σ ς Opts Content) : Prop :=
  GrowthFails env reader → ∃ fuel after,
    decodeOne env fuel reader = .ok after ∧
      after.status.isMemoryFailure = true

/-- Only the constructor sets `MEMORY_FAILURE`. -/
theorem memoryFailure_statusInvariant :
    StatusInvariant env fun value _ => value ≠ .memoryFailure where
  good := fun _ h _ => h
  eof := by simp
  bad := by simp
  finished := by simp
  failed := by simp

theorem decodeOne_not_memoryFailure {fuel : ℕ}
    (hnot : reader.status.notFinished = true)
    (hdecode : decodeOne env fuel reader = .ok after) :
    after.status.isMemoryFailure = false := by
  have hvalue : reader.status.value ≠ .memoryFailure := by
    intro hvalue
    simp [notFinished, isOk, isStreamFinished, hvalue] at hnot
  have hafter : after.status.value ≠ .memoryFailure :=
    memoryFailure_statusInvariant.decodeOne hvalue hdecode
  simpa [isMemoryFailure] using hafter

/-- A failed growth never ends a call of `decode_one` as it should: the promise
holds exactly for the calls in which growing the buffer does not fail. -/
theorem stopsOnFailedGrowth_iff (env : ReaderEnv σ ς Opts Content)
    (reader : Reader σ ς Opts Content) :
    StopsOnFailedGrowth env reader ↔ ¬ GrowthFails env reader := by
  constructor
  · intro hstops hfails
    obtain ⟨fuel, after, hdecode, hfailure⟩ := hstops hfails
    rw [decodeOne_not_memoryFailure hfails.1 hdecode] at hfailure
    simp at hfailure
  · intro hgrows hfails
    exact absurd hfails hgrows

/-- The loop is stuck: the buffer is full, cannot grow and holds an incomplete
message, and reads of no bytes leave the stream good. -/
structure Stuck (env : ReaderEnv σ ς Opts Content) (Idle : σ → Prop)
    (opts : Opts) (state : DecodeState σ ς Opts Content) : Prop where
  ready : state.Ready opts
  grows : state.alreadyGotPartial = true
  isOk : state.reader.status.isOk = true
  full : state.reader.buffer.availableWrite = 0
  incomplete : env.answer opts state.reader.buffer.unread = .error .partialMsg
  idle : Idle state.reader.stream
  exhausted : ∀ later, state.reader.mirrored ≤ later → ∀ request,
    state.reader.buffer.capacity < request →
      env.mirrors.create later request = none

/-- A stream whose reads of no bytes succeed and return nothing. -/
def IdleReads (stream : ByteStream σ ς) (Idle : σ → Prop) : Prop :=
  ∀ {state}, Idle state → (stream.read state 0).1 = [] ∧
    stream.good (stream.read state 0).2 = true ∧ Idle (stream.read state 0).2

theorem Stuck.growthFails {Idle : σ → Prop}
    (hnot : reader.status.notFinished = true)
    (hreaches : Reaches (decodeIteration env) (.enter reader false) state)
    (hstuck : Stuck env Idle opts state) : GrowthFails env reader := by
  have hpos := hstuck.ready.live.valid.capacity_pos
  obtain ⟨content, hasks⟩ := hstuck.ready.asksForMore hstuck.incomplete
    (isStreamFinished_of_isOk hstuck.isOk)
  have hcapacity : state.reader.buffer.capacity <
      state.reader.buffer.capacity * 2 := by omega
  have hnull := MirroredRingBuffer.create_eq_null
    (hstuck.exhausted _ le_rfl _ hcapacity)
  have hcall := IterationCalls.reserve hasks hstuck.grows
  refine ⟨hnot, state.reader.buffer, state.reader.mirrored, ?_,
    hstuck.exhausted⟩
  refine ⟨state, state.reader.buffer.capacity * 2, state.reader.buffer,
    hreaches, hcall, ?_⟩
  simp [MirroredRingBuffer.reserve, hcapacity, hnull]

/-- A refill of a full buffer reads no bytes and changes nothing in it. -/
theorem fillBuffer_of_full {Idle : σ → Prop}
    (hidle : IdleReads env.stream Idle) (hvalid : reader.buffer.Valid)
    (hok : reader.status.isOk = true)
    (hfull : reader.buffer.availableWrite = 0) (hstate : Idle reader.stream) :
    ∃ buffer, fillBuffer env reader =
        .ok (reader.afterRead env buffer reader.status) ∧
      Idle (refilled env reader) ∧ buffer.Valid ∧
      buffer.capacity = reader.buffer.capacity ∧
      buffer.unread = reader.buffer.unread := by
  obtain ⟨hnothing, hgood, hnext⟩ := hidle hstate
  rw [← hfull] at hnothing hgood hnext
  have hlength : (refill env reader).length ≤ reader.buffer.availableWrite := by
    rw [refill, hnothing]
    exact Nat.zero_le _
  obtain ⟨buffer, hfill, hbuffer, hcapacity, hunread⟩ :=
    fillBuffer_of_good hvalid hok hlength hgood
  rw [refill, hnothing, List.append_nil] at hunread
  exact ⟨buffer, hfill, hnext, hbuffer, hcapacity, hunread⟩

/-- An iteration from a stuck state asks for no bytes and ends up there
again. -/
theorem Stuck.again {Idle : σ → Prop} (hidle : IdleReads env.stream Idle)
    (hstuck : Stuck env Idle opts state) :
    ∃ next, decodeIteration env state = .ok (.again next) ∧
      Stuck env Idle opts next := by
  have hvalid := hstuck.ready.live.valid
  have hpos := hvalid.capacity_pos
  obtain ⟨content, hasks⟩ := hstuck.ready.asksForMore hstuck.incomplete
    (isStreamFinished_of_isOk hstuck.isOk)
  have hcreate : env.mirrors.create state.reader.mirrored
      (state.reader.buffer.capacity * 2) = none :=
    hstuck.exhausted _ le_rfl _ (by omega)
  let before : Reader σ ς Opts Content := { state.reader with
    message_ := some content
    mirrored := state.reader.mirrored + 1 }
  have hgrow : grow env { state.reader with message_ := some content } =
      .ok before := grow_of_none hcreate
  have hbefore : before.buffer.Valid := hvalid
  obtain ⟨buffer, hfill, hnext, hbuffer, hcapacity, hunread⟩ :=
    fillBuffer_of_full hidle hbefore hstuck.isOk hstuck.full hstuck.idle
  refine ⟨.enter (before.afterRead env buffer before.status) true, ?_, ?_⟩
  · rw [hasks.decodeIteration_eq, if_pos hstuck.grows, hgrow, Outcome.ok_bind,
      hfill, Outcome.ok_bind]
  · exact {
      ready := ⟨⟨hbuffer, hstuck.ready.live.options_eq, rfl⟩, rfl⟩
      grows := rfl
      isOk := hstuck.isOk
      full := by
        have hfull := hstuck.full
        rw [hvalid.availableWrite_eq] at hfull
        calc
          buffer.availableWrite = buffer.capacity - buffer.unread.length :=
            hbuffer.availableWrite_eq
          _ = before.buffer.capacity - before.buffer.unread.length := by
            rw [hcapacity, hunread]
          _ = 0 := hfull
      incomplete := (congrArg (env.answer opts) hunread).trans
        hstuck.incomplete
      idle := hnext
      exhausted := fun later hlater request hrequest =>
        hstuck.exhausted later (Nat.le_of_succ_le hlater) request
          (hcapacity ▸ hrequest) }

/-- A call of `decode_one` that gets stuck never returns. -/
theorem decodeOne_of_stuck {Idle : σ → Prop} (hidle : IdleReads env.stream Idle)
    (hnot : reader.status.notFinished = true)
    (hreaches : Reaches (decodeIteration env) (.enter reader false) state)
    (hstuck : Stuck env Idle opts state) (fuel : ℕ) :
    decodeOne env fuel reader = .outOfFuel := by
  rw [decodeOne, if_pos hnot]
  apply hreaches.run_outOfFuel
  intro rest
  exact run_outOfFuel_of_invariant (fun _ => Stuck.again hidle) rest hstuck

def singleEnv : ReaderEnv ListStream Unit Unit (List UInt8) :=
  { prefixedEnv with mirrors := singleMirror }

/-- A new reader with a buffer of two bytes over a message of nine. -/
def narrowReader : Reader ListStream Unit Unit (List UInt8) :=
  create singleEnv ⟨[9, 1, 2, 3, 4, 5, 6, 7, 8], false⟩ (some ()) (some []) 2

theorem listStream_idleReads :
    IdleReads listStream fun state => state.ended = false := by
  intro state _
  simp [listStream]

/-- The growth of the buffer fails, and `decode_one` asks the full buffer for
more bytes for ever. -/
theorem not_stopsOnFailedGrowth_narrow :
    Reached singleEnv identityTransform narrowReader narrowReader ∧
      GrowthFails singleEnv narrowReader ∧
      ¬ StopsOnFailedGrowth singleEnv narrowReader ∧
      ∀ fuel, decodeOne singleEnv fuel narrowReader = .outOfFuel := by
  obtain ⟨state, hagain, hstuck⟩ : ∃ state,
      decodeIteration singleEnv (.enter narrowReader false) =
        .ok (.again state) ∧
      Stuck singleEnv (fun state => state.ended = false) () state := by
    refine ⟨_, rfl, ?_⟩
    exact {
      ready := ⟨⟨⟨rfl, by decide, by decide, by decide⟩, rfl, rfl⟩, rfl⟩
      grows := rfl
      isOk := rfl
      full := rfl
      incomplete := rfl
      idle := rfl
      exhausted := fun later hlater request _ =>
        if_neg (Nat.ne_zero_of_lt hlater) }
  have hreaches := Reaches.refl.tail hagain
  have hfails := hstuck.growthFails rfl hreaches
  have hforever := decodeOne_of_stuck listStream_idleReads rfl hreaches hstuck
  refine ⟨.calls (rfl : runCalls singleEnv identityTransform 0 [] _ = _),
    hfails, ?_, hforever⟩
  intro hstops
  obtain ⟨fuel, after, hdecode, -⟩ := hstops hfails
  rw [hforever fuel] at hdecode
  simp at hdecode

end ParseBgp.Io.Reader
