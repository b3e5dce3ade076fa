import ParseBgp.Io.Reader

/-!
# Effects of the reader's member functions

One lemma for each way in which `fill_buffer`, the growth of the buffer and one
iteration of the loop of `decode_one` can go, in terms of the unread bytes
instead of pointers.  Later modules use these and do not unfold the functions.
-/

namespace ParseBgp.Io

open Loop

variable {σ ς Opts Content τ : Type}

namespace Reader

/-- The reader owns a mapping, an options object and a message object. -/
structure Live (opts : Opts) (reader : Reader σ ς Opts Content) : Prop where
  valid : reader.buffer.Valid
  options_eq : reader.options = some opts
  message_isSome : reader.message_.isSome = true

/-- The bytes `fill_buffer` gets from the stream. -/
def refill (env : ReaderEnv σ ς Opts Content)
    (reader : Reader σ ς Opts Content) : List UInt8 :=
  (env.stream.read reader.stream reader.buffer.availableWrite).1

/-- The stream after the read of `fill_buffer`. -/
def refilled (env : ReaderEnv σ ς Opts Content)
    (reader : Reader σ ς Opts Content) : σ :=
  (env.stream.read reader.stream reader.buffer.availableWrite).2

/-- The reader right after the read of `fill_buffer`, with the buffer and the
status it goes on with. -/
def afterRead (reader : Reader σ ς Opts Content)
    (env : ReaderEnv σ ς Opts Content) (buffer : MirroredRingBuffer)
    (status : ReaderStatus ς) : Reader σ ς Opts Content :=
  { reader with
    stream := refilled env reader
    buffer := buffer
    status := status
    reads := reader.reads + 1 }

variable {env : ReaderEnv σ ς Opts Content} {opts : Opts}
variable {reader after : Reader σ ς Opts Content}

section AfterRead

variable (buffer : MirroredRingBuffer) (status : ReaderStatus ς)

@[simp]
theorem afterRead_buffer :
    (reader.afterRead env buffer status).buffer = buffer := rfl

@[simp]
theorem afterRead_status :
    (reader.afterRead env buffer status).status = status := rfl

end AfterRead

/-! ## `fill_buffer` -/

theorem fillBuffer_of_not_ok (hstatus : reader.status.isOk = false) :
    fillBuffer env reader = .fault .fillBufferStatus := by
  simp [fillBuffer, hstatus]

section Fill

variable (hvalid : reader.buffer.Valid) (hok : reader.status.isOk = true)
variable (hlength : (refill env reader).length ≤ reader.buffer.availableWrite)
include hvalid hok hlength

theorem fillBuffer_of_good (hgood : env.stream.good (refilled env reader) = true) :
    ∃ buffer, fillBuffer env reader =
        .ok (reader.afterRead env buffer reader.status) ∧
      buffer.Valid ∧ buffer.capacity = reader.buffer.capacity ∧
      buffer.unread = reader.buffer.unread ++ refill env reader := by
  obtain ⟨filled, buffer, hfill, hcommit, hbuffer, hcapacity, hunread⟩ :=
    hvalid.fill_commitWrite_ok hlength le_rfl
  rw [List.take_length] at hunread
  refine ⟨buffer, ?_, hbuffer, hcapacity, hunread⟩
  simp only [refill, refilled] at hfill hcommit hgood
  simp only [fillBuffer, hok, if_true, MirroredRingBuffer.prepareWrite,
    hgood] at hfill ⊢
  simp only [hfill, Outcome.ok_bind, hcommit]
  rfl

theorem fillBuffer_of_eof
    (hgood : env.stream.good (refilled env reader) = false)
    (heof : env.stream.eof (refilled env reader) = true) :
    ∃ buffer, fillBuffer env reader =
        .ok (reader.afterRead env buffer (.ofValue .streamFinished)) ∧
      buffer.Valid ∧ buffer.capacity = reader.buffer.capacity ∧
      buffer.unread = reader.buffer.unread ++ refill env reader := by
  obtain ⟨filled, buffer, hfill, hcommit, hbuffer, hcapacity, hunread⟩ :=
    hvalid.fill_commitWrite_ok hlength le_rfl
  rw [List.take_length] at hunread
  refine ⟨buffer, ?_, hbuffer, hcapacity, hunread⟩
  simp only [refill, refilled] at hfill hcommit hgood heof
  simp only [fillBuffer, hok, if_true, MirroredRingBuffer.prepareWrite,
    hgood, heof, Bool.false_eq_true, if_false] at hfill ⊢
  simp only [hfill, Outcome.ok_bind, hcommit]
  rfl

end Fill

/-- A failing read writes nothing that gets committed and stores the stream's
status. -/
theorem fillBuffer_of_fails (hvalid : reader.buffer.Valid)
    (hok : reader.status.isOk = true)
    (hfails : env.stream.FailsAt reader.stream
      reader.buffer.availableWrite) :
    ∃ buffer, fillBuffer env reader = .ok (reader.afterRead env buffer
        (.ofStream (env.stream.status (refilled env reader)))) ∧
      buffer.Valid ∧ buffer.unread = reader.buffer.unread := by
  obtain ⟨hnothing, hgood, heof, hbad⟩ := hfails
  have hstart : 0 + (env.stream.read reader.stream
      reader.buffer.availableWrite).1.length ≤
        reader.buffer.availableWrite := by
    simp [hnothing]
  obtain ⟨buffer, hfill, hbuffer, -, -, -, -, hunread, -⟩ :=
    hvalid.fill_ok hstart
  refine ⟨buffer, ?_, hbuffer, hunread⟩
  simp only [fillBuffer, hok, if_true, MirroredRingBuffer.prepareWrite,
    hgood, heof, hbad, Bool.false_eq_true, if_false] at hfill ⊢
  simp only [hfill, Outcome.ok_bind]
  rfl

/-! ## Growth -/

/-- When no larger mapping can be created, growing changes nothing. -/
theorem grow_of_none
    (hcreate : env.mirrors.create reader.mirrored
      (reader.buffer.capacity * 2) = none) :
    grow env reader = .ok { reader with mirrored := reader.mirrored + 1 } := by
  obtain ⟨result, hreserve⟩ :=
    reader.buffer.reserve_of_none hcreate
  simp only [grow, hreserve, Outcome.ok_bind]

/-- When a larger mapping is created, the unread bytes are lost. -/
theorem grow_of_some (hvalid : reader.buffer.Valid)
    {block : MirroredMemory.Block UInt8}
    (hcreate : env.mirrors.create reader.mirrored
      (reader.buffer.capacity * 2) = some block) :
    ∃ buffer, grow env reader =
        .ok { reader with buffer := buffer, mirrored := reader.mirrored + 1 } ∧
      buffer.Valid ∧ buffer.capacity = block.capacity ∧
      buffer.unread = [] := by
  have hpos := hvalid.capacity_pos
  obtain ⟨buffer, hreserve, hbuffer, hcapacity, hunread⟩ :=
    hvalid.reserve_of_some (by omega) hcreate
  refine ⟨buffer, ?_, hbuffer, hcapacity, hunread⟩
  simp only [grow, hreserve, Outcome.ok_bind]

/-- Growing never faults and leaves everything but the buffer. -/
theorem grow_ok (env : ReaderEnv σ ς Opts Content)
    (hvalid : reader.buffer.Valid) :
    ∃ buffer, grow env reader =
        .ok { reader with buffer := buffer, mirrored := reader.mirrored + 1 } ∧
      buffer.Valid ∧
      (buffer = reader.buffer ∨ buffer.unread = []) := by
  cases hcreate : env.mirrors.create reader.mirrored
      (reader.buffer.capacity * 2) with
  | none => exact ⟨reader.buffer, grow_of_none hcreate, hvalid, Or.inl rfl⟩
  | some block =>
      obtain ⟨buffer, hgrow, hbuffer, -, hunread⟩ :=
        grow_of_some hvalid hcreate
      exact ⟨buffer, hgrow, hbuffer, Or.inr hunread⟩

/-! ## One iteration of `decode_one` -/

/-- The loop state is live and `out` is the current readable span. -/
structure DecodeState.Ready (opts : Opts)
    (state : DecodeState σ ς Opts Content) : Prop where
  live : state.reader.Live opts
  out_eq : state.out = state.reader.buffer.prepareRead

theorem Live.ready (hlive : reader.Live opts) (alreadyGotPartial : Bool) :
    (DecodeState.enter reader alreadyGotPartial).Ready opts where
  live := hlive
  out_eq := rfl

variable {state : DecodeState σ ς Opts Content}

/-- The decoder is shown the unread bytes, and the iteration goes on with its
return value. -/
theorem decodeIteration_eq (env : ReaderEnv σ ς Opts Content)
    (hready : state.Ready opts) :
    ∃ content,
      (∀ len result, env.answer opts state.reader.buffer.unread =
        .ok (len, result) → content = result) ∧
      decodeIteration env state =
        match env.answer opts state.reader.buffer.unread with
        | .ok (len, _) =>
            (state.reader.buffer.commitRead len).bind fun buffer =>
              .ok (.done { state.reader with
                message_ := some content, buffer := buffer })
        | .error error =>
            if error.isPartialMsg && !state.reader.status.isStreamFinished then
              (if state.alreadyGotPartial then
                  grow env { state.reader with message_ := some content }
                else .ok { state.reader with message_ := some content }).bind
                fun reader => (fillBuffer env reader).bind fun reader =>
                  .ok (.again (.enter reader true))
            else if error.isPartialMsg &&
                state.reader.buffer.unread.length = 0 then
              .ok (.done { state.reader with
                message_ := some content, status := .ofValue .finished })
            else
              .ok (.done { state.reader with
                message_ := some content, status := .ofDecoder error }) := by
  obtain ⟨⟨hvalid, hoptions, hmessage⟩, hout⟩ := hready
  obtain ⟨before, hbefore⟩ := Option.isSome_iff_exists.mp hmessage
  obtain ⟨content, hdecode, hcontent⟩ := Message.decode_clear env.library opts
    env.messageType before state.reader.buffer.unread
  refine ⟨content, hcontent, ?_⟩
  have hsize : state.reader.buffer.prepareRead.size =
      state.reader.buffer.unread.length :=
    hvalid.availableRead_eq_length
  simp only [decodeIteration, hbefore, hoptions, hout, hsize,
    hvalid.view_prepareRead, Outcome.ok_bind, hdecode]
  cases hanswer : env.answer opts state.reader.buffer.unread with
  | ok result =>
      simp only [ReaderEnv.answer] at hanswer
      simp only [hanswer, Except.map]
  | error error =>
      simp only [ReaderEnv.answer] at hanswer
      simp only [hanswer, Except.map]

/-- A decoded message is committed and ends the loop. -/
theorem decodeIteration_of_ok (hready : state.Ready opts) {len : ℕ}
    {content : Content}
    (hanswer : env.answer opts state.reader.buffer.unread = .ok (len, content))
    (hlen : len ≤ state.reader.buffer.unread.length) :
    ∃ buffer, decodeIteration env state =
        .ok (.done { state.reader with
          message_ := some content, buffer := buffer }) ∧
      buffer.Valid ∧ buffer.capacity = state.reader.buffer.capacity ∧
      buffer.unread = state.reader.buffer.unread.drop len := by
  obtain ⟨after, hafter, hiteration⟩ := decodeIteration_eq env hready
  obtain ⟨buffer, hcommit, hbuffer, hbuf, hunread⟩ :=
    hready.live.valid.commitRead_ok hlen
  refine ⟨buffer, ?_, hbuffer, ?_, hunread⟩
  · rw [hiteration, hanswer, hafter len content hanswer]
    simp only [hcommit, Outcome.ok_bind]
  · rw [MirroredRingBuffer.capacity, MirroredRingBuffer.capacity, hbuf]

/-- A decoder that claims more bytes than it was shown violates the assertion
of `commit_read`. -/
theorem decodeIteration_of_overrun (hready : state.Ready opts) {len : ℕ}
    {content : Content}
    (hanswer : env.answer opts state.reader.buffer.unread = .ok (len, content))
    (hlen : state.reader.buffer.unread.length < len) :
    decodeIteration env state = .fault .commitRead := by
  obtain ⟨after, -, hiteration⟩ := decodeIteration_eq env hready
  rw [hiteration, hanswer]
  simp only [hready.live.valid.commitRead_fault hlen, Outcome.fault_bind]

/-- The first incomplete message of a call, before the end of the stream, asks
for more bytes. -/
theorem decodeIteration_refill (hlive : reader.Live opts)
    (hanswer : env.answer opts reader.buffer.unread = .error .partialMsg)
    (hstatus : reader.status.isStreamFinished = false) :
    ∃ content, decodeIteration env (.enter reader false) =
      (fillBuffer env { reader with message_ := some content }).bind
        fun reader => .ok (.again (.enter reader true)) := by
  obtain ⟨content, -, hiteration⟩ := decodeIteration_eq env (hlive.ready false)
  refine ⟨content, ?_⟩
  simp only [DecodeState.enter] at hiteration ⊢
  rw [hiteration, hanswer]
  simp [Error.isPartialMsg, hstatus]

/-- The status with which an error of the decoder ends a run that has no more
bytes to read. -/
def endStatus (unread : List UInt8) (error : Error) : ReaderStatus ς :=
  if error.isPartialMsg && unread.length = 0 then .ofValue .finished
  else .ofDecoder error

theorem endStatus_of_ne {unread : List UInt8} {error : Error}
    (hne : error ≠ .partialMsg) :
    (endStatus unread error : ReaderStatus ς) = .ofDecoder error := by
  simp [endStatus, Error.isPartialMsg, hne]

theorem notFinished_endStatus (unread : List UInt8) (error : Error) :
    (endStatus unread error : ReaderStatus ς).notFinished = false := by
  unfold endStatus
  split
  · rfl
  · rfl

/-- Any other error, or an incomplete message at the end of the stream, ends
the loop without touching the buffer or the stream. -/
theorem decodeIteration_of_error (hready : state.Ready opts) {error : Error}
    (hanswer : env.answer opts state.reader.buffer.unread = .error error)
    (hfinal : error ≠ .partialMsg ∨
      state.reader.status.isStreamFinished = true) :
    ∃ content, decodeIteration env state =
      .ok (.done { state.reader with
        message_ := some content
        status := endStatus state.reader.buffer.unread error }) := by
  obtain ⟨content, -, hiteration⟩ := decodeIteration_eq env hready
  refine ⟨content, ?_⟩
  have hagain : (error.isPartialMsg &&
      !state.reader.status.isStreamFinished) = false := by
    rcases hfinal with hne | hfinished
    · simp [Error.isPartialMsg, hne]
    · simp [hfinished]
  rw [hiteration, hanswer]
  simp only [hagain, Bool.false_eq_true, if_false, endStatus]
  split <;> rfl

/-! ## Inversion

What a call that returned, or faulted in `fill_buffer`, must have done,
whatever the state it started from. -/

/-- `fill_buffer` keeps the reader, sees the end of the stream or a failure;
only the stream, the buffer and the status change. -/
theorem fillBuffer_cases (hfill : fillBuffer env reader = .ok after) :
    ∃ buffer,
      (env.stream.good (refilled env reader) = true ∧
        after = reader.afterRead env buffer reader.status) ∨
      (env.stream.good (refilled env reader) = false ∧
        env.stream.eof (refilled env reader) = true ∧
        after = reader.afterRead env buffer (.ofValue .streamFinished)) ∨
      (env.stream.good (refilled env reader) = false ∧
        env.stream.eof (refilled env reader) = false ∧
        env.stream.bad (refilled env reader) = true ∧
        after = reader.afterRead env buffer
          (.ofStream (env.stream.status (refilled env reader)))) := by
  unfold fillBuffer at hfill
  dsimp only at hfill
  split at hfill
  · rw [Outcome.bind_eq_ok_iff] at hfill
    obtain ⟨filled, -, hrest⟩ := hfill
    split_ifs at hrest with hgood heof hbad
    · obtain ⟨buffer, -, hafter⟩ := Outcome.bind_eq_ok_iff.mp hrest
      exact ⟨buffer, Or.inl ⟨hgood, (Outcome.ok.inj hafter).symm⟩⟩
    · obtain ⟨buffer, -, hafter⟩ := Outcome.bind_eq_ok_iff.mp hrest
      exact ⟨buffer, Or.inr (Or.inl
        ⟨Bool.eq_false_iff.mpr hgood, heof, (Outcome.ok.inj hafter).symm⟩)⟩
    · exact ⟨filled, Or.inr (Or.inr ⟨Bool.eq_false_iff.mpr hgood,
        Bool.eq_false_iff.mpr heof, hbad, (Outcome.ok.inj hrest).symm⟩)⟩
  · simp at hfill

theorem fillBuffer_ok_isOk (hfill : fillBuffer env reader = .ok after) :
    reader.status.isOk = true := by
  by_contra hnot
  rw [fillBuffer_of_not_ok (Bool.eq_false_iff.mpr hnot)] at hfill
  simp at hfill

/-- A fill ends in one of three statuses. -/
theorem fillBuffer_value (hfill : fillBuffer env reader = .ok after) :
    after.status.value ∈
      [StatusValue.ok, .streamFinished, .streamError] := by
  have hok := ReaderStatus.value_of_isOk (fillBuffer_ok_isOk hfill)
  obtain ⟨buffer, ⟨-, rfl⟩ | ⟨-, -, rfl⟩ | ⟨-, -, -, rfl⟩⟩ :=
    fillBuffer_cases hfill
  · simp [hok]
  · simp [ReaderStatus.ofValue]
  · simp [ReaderStatus.ofStream]

theorem fillBuffer_ne_fault_status (hok : reader.status.isOk = true) :
    fillBuffer env reader ≠ .fault .fillBufferStatus := by
  intro hfill
  unfold fillBuffer at hfill
  dsimp only at hfill
  rw [if_pos hok, Outcome.bind_eq_fault_iff] at hfill
  rcases hfill with hwrite | ⟨filled, -, hrest⟩
  · exact absurd (MirroredRingBuffer.fill_fault hwrite) (by simp)
  · split_ifs at hrest
    · rcases Outcome.bind_eq_fault_iff.mp hrest with hcommit | ⟨_, -, hdone⟩
      · exact absurd (MirroredRingBuffer.commitWrite_fault hcommit) (by simp)
      · simp at hdone
    · rcases Outcome.bind_eq_fault_iff.mp hrest with hcommit | ⟨_, -, hdone⟩
      · exact absurd (MirroredRingBuffer.commitWrite_fault hcommit) (by simp)
      · simp at hdone
    · simp at hrest

theorem grow_cases (hgrow : grow env reader = .ok after) :
    ∃ buffer, after =
      { reader with buffer := buffer, mirrored := reader.mirrored + 1 } := by
  obtain ⟨result, -, hafter⟩ := Outcome.bind_eq_ok_iff.mp hgrow
  exact ⟨result.2, (Outcome.ok.inj hafter).symm⟩

theorem grow_ne_fault_status :
    grow env reader ≠ .fault .fillBufferStatus := by
  intro hgrow
  rcases Outcome.bind_eq_fault_iff.mp hgrow with hreserve | ⟨_, -, hdone⟩
  · rcases MirroredRingBuffer.reserve_fault hreserve with h | h <;> simp at h
  · simp at hdone

/-- The reader `fill_buffer` is called on in one iteration differs from the
one at the loop head in its message and buffer only. -/
structure RefillsFrom (reader before : Reader σ ς Opts Content) : Prop where
  started_eq : before.started = reader.started
  stream_eq : before.stream = reader.stream
  status_eq : before.status = reader.status
  not_streamFinished : reader.status.isStreamFinished = false

/-- The guard of the refill branch. -/
theorem RefillsFrom.of_guard {before : Reader σ ς Opts Content} {error : Error}
    (hagain : (error.isPartialMsg && !reader.status.isStreamFinished) = true)
    (hstarted : before.started = reader.started)
    (hstream : before.stream = reader.stream)
    (hstatus : before.status = reader.status) : RefillsFrom reader before where
  started_eq := hstarted
  stream_eq := hstream
  status_eq := hstatus
  not_streamFinished := by
    simp only [Bool.and_eq_true, Bool.not_eq_true'] at hagain
    exact hagain.2

/-- An incomplete message before the end of the stream is refilled, into the same
buffer or, if there was a refill before, an empty one of about twice its
size. -/
theorem decodeIteration_of_partial_grown (hready : state.Ready opts)
    (hanswer : env.answer opts state.reader.buffer.unread =
      .error .partialMsg)
    (hstatus : state.reader.status.isStreamFinished = false) :
    ∃ before, before.Live opts ∧ RefillsFrom state.reader before ∧
      decodeIteration env state = (fillBuffer env before).bind (fun reader =>
        .ok (.again (.enter reader true))) ∧
      (before.buffer = state.reader.buffer ∨
        (state.alreadyGotPartial = true ∧ before.buffer.unread = [] ∧
          ∃ block, env.mirrors.create state.reader.mirrored
              (state.reader.buffer.capacity * 2) = some block ∧
            before.buffer.capacity = block.capacity)) := by
  obtain ⟨content, -, hiteration⟩ := decodeIteration_eq env hready
  obtain ⟨hvalid, hoptions, -⟩ := hready.live
  have hagain : (Error.partialMsg.isPartialMsg &&
      !state.reader.status.isStreamFinished) = true := by
    rw [hstatus]
    rfl
  rw [hanswer] at hiteration
  simp only [if_pos hagain] at hiteration
  let decoded : Reader σ ς Opts Content :=
    { state.reader with message_ := some content }
  cases hmore : state.alreadyGotPartial with
  | false =>
      refine ⟨decoded, ⟨hvalid, hoptions, rfl⟩, .of_guard hagain rfl rfl rfl, ?_,
        Or.inl rfl⟩
      rw [hiteration, if_neg (by simp [hmore]), Outcome.ok_bind]
  | true =>
      cases hcreate : env.mirrors.create state.reader.mirrored
          (state.reader.buffer.capacity * 2) with
      | none =>
          have hgrow : grow env decoded =
              .ok { decoded with mirrored := decoded.mirrored + 1 } :=
            grow_of_none hcreate
          refine ⟨{ decoded with mirrored := decoded.mirrored + 1 },
            ⟨hvalid, hoptions, rfl⟩, .of_guard hagain rfl rfl rfl, ?_,
            Or.inl rfl⟩
          rw [hiteration, if_pos hmore, hgrow, Outcome.ok_bind]
      | some block =>
          have hvalid' : decoded.buffer.Valid := hvalid
          obtain ⟨buffer, hgrow, hbuffer, hcapacity, hunread⟩ :=
            grow_of_some hvalid' hcreate
          refine ⟨{ decoded with
              buffer := buffer
              mirrored := decoded.mirrored + 1 },
            ⟨hbuffer, hoptions, rfl⟩, .of_guard hagain rfl rfl rfl, ?_,
            Or.inr ⟨rfl, hunread, block, rfl, hcapacity⟩⟩
          rw [hiteration, if_pos hmore, hgrow, Outcome.ok_bind]

/-- So the unread bytes are kept or, if the buffer has grown, lost. -/
theorem decodeIteration_of_partial (hready : state.Ready opts)
    (hanswer : env.answer opts state.reader.buffer.unread =
      .error .partialMsg)
    (hstatus : state.reader.status.isStreamFinished = false) :
    ∃ before, before.Live opts ∧ RefillsFrom state.reader before ∧
      (before.buffer.unread = state.reader.buffer.unread ∨
        before.buffer.unread = []) ∧
      decodeIteration env state = (fillBuffer env before).bind fun reader =>
        .ok (.again (.enter reader true)) := by
  obtain ⟨before, hlive, hrefills, hiteration, hbuffer⟩ :=
    decodeIteration_of_partial_grown hready hanswer hstatus
  refine ⟨before, hlive, hrefills, ?_, hiteration⟩
  rcases hbuffer with hsame | ⟨-, hlost, -⟩
  · exact Or.inl (congrArg MirroredRingBuffer.unread hsame)
  · exact Or.inr hlost

/-- An iteration that continues has refilled the buffer. -/
theorem decodeIteration_again {next : DecodeState σ ς Opts Content}
    (hiteration : decodeIteration env state = .ok (.again next)) :
    ∃ before, RefillsFrom state.reader before ∧
      fillBuffer env before = .ok next.reader ∧
      next = .enter next.reader true := by
  unfold decodeIteration at hiteration
  obtain ⟨bytes, -, hrest⟩ := Outcome.bind_eq_ok_iff.mp hiteration
  obtain ⟨⟨ret, message⟩, -, hrest⟩ := Outcome.bind_eq_ok_iff.mp hrest
  cases ret with
  | ok len =>
      obtain ⟨buffer, -, hdone⟩ := Outcome.bind_eq_ok_iff.mp hrest
      simp at hdone
  | error error =>
      dsimp only at hrest
      split_ifs at hrest with hagain hgrow
      · obtain ⟨grown, hgrown, hrest⟩ := Outcome.bind_eq_ok_iff.mp hrest
        obtain ⟨buffer, rfl⟩ := grow_cases hgrown
        obtain ⟨filled, hfill, hnext⟩ := Outcome.bind_eq_ok_iff.mp hrest
        obtain rfl := Step.again.inj (Outcome.ok.inj hnext)
        refine ⟨_, ?_, hfill, rfl⟩
        exact .of_guard hagain rfl rfl rfl
      · rw [Outcome.ok_bind] at hrest
        obtain ⟨filled, hfill, hnext⟩ := Outcome.bind_eq_ok_iff.mp hrest
        obtain rfl := Step.again.inj (Outcome.ok.inj hnext)
        refine ⟨_, ?_, hfill, rfl⟩
        exact .of_guard hagain rfl rfl rfl
      · simp at hrest
      · simp at hrest

/-- Only an incomplete message makes the loop continue. -/
theorem decodeIteration_again_answer (hready : state.Ready opts)
    {next : DecodeState σ ς Opts Content}
    (hiteration : decodeIteration env state = .ok (.again next)) :
    env.answer opts state.reader.buffer.unread = .error .partialMsg := by
  obtain ⟨content, -, heq⟩ := decodeIteration_eq env hready
  rw [hiteration] at heq
  cases hanswer : env.answer opts state.reader.buffer.unread with
  | ok result =>
      rw [hanswer] at heq
      obtain ⟨buffer, -, hdone⟩ := Outcome.bind_ok_eq_ok_iff.mp heq.symm
      simp at hdone
  | error error =>
      rw [hanswer] at heq
      dsimp only at heq
      by_cases hmore : error = .partialMsg
      · rw [hmore]
      · have hnot : error.isPartialMsg = false := by
          simpa [Error.isPartialMsg] using hmore
        simp [hnot] at heq

/-- An iteration ends the loop with a message that was committed, or with an
error that no refill can mend. -/
theorem decodeIteration_done_cases (hready : state.Ready opts)
    {result : Reader σ ς Opts Content}
    (hiteration : decodeIteration env state = .ok (.done result)) :
    (∃ len content buffer,
      env.answer opts state.reader.buffer.unread = .ok (len, content) ∧
        len ≤ state.reader.buffer.unread.length ∧ buffer.Valid ∧
        buffer.unread = state.reader.buffer.unread.drop len ∧
        result = { state.reader with
          message_ := some content, buffer := buffer }) ∨
    (∃ error content,
      env.answer opts state.reader.buffer.unread = .error error ∧
        (error ≠ .partialMsg ∨
          state.reader.status.isStreamFinished = true) ∧
        result = { state.reader with
          message_ := some content
          status := endStatus state.reader.buffer.unread error }) := by
  cases hanswer : env.answer opts state.reader.buffer.unread with
  | ok answer =>
      obtain ⟨len, content⟩ := answer
      by_cases hlen : len ≤ state.reader.buffer.unread.length
      · obtain ⟨buffer, hdone, hbuffer, -, hunread⟩ :=
          decodeIteration_of_ok hready hanswer hlen
        have hresult := Step.done.inj
          (Outcome.ok.inj (hiteration.symm.trans hdone))
        exact Or.inl ⟨len, content, buffer, rfl, hlen, hbuffer, hunread,
          hresult⟩
      · rw [decodeIteration_of_overrun hready hanswer (not_le.mp hlen)]
          at hiteration
        simp at hiteration
  | error error =>
      by_cases hfinal : error ≠ .partialMsg ∨
          state.reader.status.isStreamFinished = true
      · obtain ⟨content, hdone⟩ :=
          decodeIteration_of_error hready hanswer hfinal
        have hresult := Step.done.inj
          (Outcome.ok.inj (hiteration.symm.trans hdone))
        exact Or.inr ⟨error, content, rfl, hfinal, hresult⟩
      · obtain ⟨hmore, hstatus⟩ := not_or.mp hfinal
        rw [not_not] at hmore
        rw [Bool.not_eq_true] at hstatus
        rw [hmore] at hanswer
        obtain ⟨before, -, -, -, hagain⟩ :=
          decodeIteration_of_partial hready hanswer hstatus
        rw [hagain] at hiteration
        obtain ⟨filled, -, hnext⟩ := Outcome.bind_ok_eq_ok_iff.mp hiteration
        simp at hnext

/-- An iteration that ends the loop has not touched the stream, and has left the
status or ended the run. -/
theorem decodeIteration_done {result : Reader σ ς Opts Content}
    (hiteration : decodeIteration env state = .ok (.done result)) :
    result.started = state.reader.started ∧
      result.stream = state.reader.stream ∧
      result.reads = state.reader.reads ∧
      (result.status = state.reader.status ∨
        (result.status = .ofValue .finished ∧
          state.reader.status.isStreamFinished = true) ∨
        ∃ error, result.status = .ofDecoder error ∧
          (error = .partialMsg →
            state.reader.status.isStreamFinished = true)) := by
  unfold decodeIteration at hiteration
  obtain ⟨bytes, -, hrest⟩ := Outcome.bind_eq_ok_iff.mp hiteration
  obtain ⟨⟨ret, message⟩, -, hrest⟩ := Outcome.bind_eq_ok_iff.mp hrest
  cases ret with
  | ok len =>
      obtain ⟨buffer, -, hdone⟩ := Outcome.bind_eq_ok_iff.mp hrest
      obtain rfl := Step.done.inj (Outcome.ok.inj hdone)
      exact ⟨rfl, rfl, rfl, Or.inl rfl⟩
  | error error =>
      dsimp only at hrest
      split_ifs at hrest with hagain hgrow hempty
      · obtain ⟨grown, -, hrest⟩ := Outcome.bind_eq_ok_iff.mp hrest
        obtain ⟨filled, -, hnext⟩ := Outcome.bind_eq_ok_iff.mp hrest
        simp at hnext
      · rw [Outcome.ok_bind] at hrest
        obtain ⟨filled, -, hnext⟩ := Outcome.bind_eq_ok_iff.mp hrest
        simp at hnext
      · obtain rfl := Step.done.inj (Outcome.ok.inj hrest)
        have hended : state.reader.status.isStreamFinished = true := by
          rw [Bool.and_eq_true] at hempty
          simpa [hempty.1] using hagain
        exact ⟨rfl, rfl, rfl, Or.inr (Or.inl ⟨rfl, hended⟩)⟩
      · obtain rfl := Step.done.inj (Outcome.ok.inj hrest)
        refine ⟨rfl, rfl, rfl, Or.inr (Or.inr ⟨error, rfl, ?_⟩)⟩
        rintro rfl
        simpa [Error.isPartialMsg] using hagain

/-- The assertion on the status can only fail in a refill of the loop. -/
theorem decodeIteration_fault_status
    (hiteration : decodeIteration env state = .fault .fillBufferStatus) :
    ∃ before, RefillsFrom state.reader before ∧
      fillBuffer env before = .fault .fillBufferStatus := by
  unfold decodeIteration at hiteration
  rcases Outcome.bind_eq_fault_iff.mp hiteration with hview | ⟨bytes, -, hrest⟩
  · exact absurd (MirroredRingBuffer.view_fault hview) (by simp)
  rcases Outcome.bind_eq_fault_iff.mp hrest with
    hdecode | ⟨⟨ret, message⟩, -, hrest⟩
  · rcases Message.decode_fault hdecode with h | h <;> simp at h
  cases ret with
  | ok len =>
      rcases Outcome.bind_eq_fault_iff.mp hrest with hcommit | ⟨_, -, hdone⟩
      · exact absurd (MirroredRingBuffer.commitRead_fault_eq hcommit) (by simp)
      · simp at hdone
  | error error =>
      dsimp only at hrest
      split_ifs at hrest with hagain hgrow
      · rcases Outcome.bind_eq_fault_iff.mp hrest with
          hfault | ⟨grown, hgrown, hrest⟩
        · exact absurd hfault grow_ne_fault_status
        obtain ⟨buffer, rfl⟩ := grow_cases hgrown
        rcases Outcome.bind_eq_fault_iff.mp hrest with hfill | ⟨_, -, hdone⟩
        · refine ⟨_, ?_, hfill⟩
          exact .of_guard hagain rfl rfl rfl
        · simp at hdone
      · rw [Outcome.ok_bind] at hrest
        rcases Outcome.bind_eq_fault_iff.mp hrest with hfill | ⟨_, -, hdone⟩
        · refine ⟨_, ?_, hfill⟩
          exact .of_guard hagain rfl rfl rfl
        · simp at hdone

theorem fillBuffer_started (hfill : fillBuffer env reader = .ok after) :
    after.started = reader.started := by
  obtain ⟨buffer, ⟨-, rfl⟩ | ⟨-, -, rfl⟩ | ⟨-, -, -, rfl⟩⟩ :=
    fillBuffer_cases hfill
  · rfl
  · rfl
  · rfl

/-- `decode_one` does nothing once the run has ended. -/
theorem decodeOne_of_ended {fuel : ℕ}
    (hended : reader.status.notFinished = false) :
    decodeOne env fuel reader = .ok reader := by
  simp [decodeOne, hended]

theorem decodeOne_started {fuel : ℕ}
    (hdecode : decodeOne env fuel reader = .ok after) :
    after.started = reader.started := by
  unfold decodeOne at hdecode
  split at hdecode
  · let Inv (state : DecodeState σ ς Opts Content) : Prop :=
      state.reader.started = reader.started
    have hagain : ∀ state next, Inv state →
        decodeIteration env state = .ok (.again next) → Inv next := by
      intro state next hinv hiteration
      obtain ⟨before, hrefills, hfill, -⟩ := decodeIteration_again hiteration
      exact (fillBuffer_started hfill).trans (hrefills.started_eq.trans hinv)
    have hdone : ∀ state result, Inv state →
        decodeIteration env state = .ok (.done result) →
          result.started = reader.started := by
      intro state result hinv hiteration
      exact (decodeIteration_done hiteration).1.trans hinv
    exact run_ok_of_invariant hagain hdone (rfl : Inv _) hdecode
  · rw [Outcome.ok.inj hdecode]

theorem start_started {fuel : ℕ} (hstart : start env fuel reader = .ok after) :
    after.started = true := by
  unfold start at hstart
  split at hstart
  · next hstarted => rwa [← Outcome.ok.inj hstart]
  · obtain ⟨filled, hfill, hrest⟩ := Outcome.bind_eq_ok_iff.mp hstart
    have hfilled : filled.started = true := fillBuffer_started hfill
    split at hrest
    · exact (decodeOne_started hrest).trans hfilled
    · rwa [← Outcome.ok.inj hrest]

end Reader

end ParseBgp.Io
