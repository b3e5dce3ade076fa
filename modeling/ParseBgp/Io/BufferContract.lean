import ParseBgp.Io.CallOrder
import ParseBgp.Io.CommitGuards

/-!
# The reader and the contract of its buffer

`decode_one` keeps a span of the readable bytes across its iterations, while
refills and `reserve` move the pointers or replace the mapping under it, and
takes the amounts it commits from the stream and from the decoder.  This module
lists the calls that a run makes on the buffer and shows that each of them is
permitted in the state it is made in.  That the list is exact, neither too short
nor too long, is shown in `ParseBgp.Io.CallLog`.
-/

namespace ParseBgp

open Loop Io

/-- The faults of the buffer: its assertions, and an access through a span that
does not lie in its mapping. -/
def Fault.ofBuffer : Fault → Bool
  | commitRead | commitWrite | reserve | invalidSpan => true
  | _ => false

namespace Io

/-- What a reader asks of its buffer, and the spans of it that it hands to the
decoder and to the stream. -/
inductive BufferCall where
  | decode (window : Span)
  | read (window : Span) (bytes : List UInt8)
  | commitRead (bytes : ℕ)
  | commitWrite (bytes : ℕ)
  | reserve (index newCapacity : ℕ)

/-- The contract of the buffer for one call: spans are the current ones, commits
ask for at most the available bytes, assertions hold, and the buffer is as
documented afterwards. -/
def BufferCall.Permitted (mirrors : MirrorSource)
    (buffer : MirroredRingBuffer) : BufferCall → Prop
  | decode window =>
      window = buffer.prepareRead ∧ buffer.view window = .ok buffer.unread
  | read window bytes =>
      window = buffer.prepareWrite ∧ bytes.length ≤ window.size ∧
        ∃ after, buffer.fill window 0 bytes = .ok after ∧ after.Documented
  | commitRead bytes =>
      bytes ≤ buffer.availableRead ∧
        ∃ after, buffer.commitRead bytes = .ok after ∧ after.Documented
  | commitWrite bytes =>
      bytes ≤ buffer.availableWrite ∧
        ∃ after, buffer.commitWrite bytes = .ok after ∧ after.Documented
  | reserve index newCapacity =>
      (buffer.capacity < newCapacity →
        (MirroredRingBuffer.create mirrors index newCapacity).isNull = false →
          buffer.prepareRead.size ≤ (MirroredRingBuffer.create mirrors index
            newCapacity).prepareWrite.size) ∧
        ∃ result after, buffer.reserve mirrors index newCapacity =
          .ok (result, after) ∧ after.Documented

namespace Reader

variable {σ ς Opts Content τ : Type}

/-! ## The calls of a run -/

/-- The calls that `fill_buffer` makes: the stream reads into the writable span,
and unless it failed what it read is committed. -/
inductive FillCalls (env : ReaderEnv σ ς Opts Content)
    (reader : Reader σ ς Opts Content) :
    MirroredRingBuffer → BufferCall → Prop
  | read : reader.status.isOk = true →
      FillCalls env reader reader.buffer
        (.read reader.buffer.prepareWrite (refill env reader))
  | commitWrite {filled : MirroredRingBuffer} : reader.status.isOk = true →
      reader.buffer.fill reader.buffer.prepareWrite 0 (refill env reader) =
        .ok filled →
      (env.stream.good (refilled env reader) ||
        env.stream.eof (refilled env reader)) = true →
      FillCalls env reader filled (.commitWrite (refill env reader).length)

/-- What the decoder answers in an iteration, and the reader after it. -/
def Decodes (env : ReaderEnv σ ς Opts Content)
    (state : DecodeState σ ς Opts Content) (ret : Except Error ℕ)
    (decoded : Reader σ ς Opts Content) : Prop :=
  ∃ bytes message, state.reader.buffer.view state.out = .ok bytes ∧
    Message.decode env.library state.reader.options env.messageType
      (state.reader.message_.clear env.library) bytes = .ok (ret, message) ∧
    decoded = { state.reader with message_ := message }

/-- The iteration goes on to refill the buffer of `decoded`. -/
def AsksForMore (env : ReaderEnv σ ς Opts Content)
    (state : DecodeState σ ς Opts Content)
    (decoded : Reader σ ς Opts Content) : Prop :=
  ∃ error, Decodes env state (.error error) decoded ∧
    (error.isPartialMsg && !decoded.status.isStreamFinished) = true

/-- The calls that one iteration of `decode_one` makes. -/
inductive IterationCalls (env : ReaderEnv σ ς Opts Content)
    (state : DecodeState σ ς Opts Content) :
    MirroredRingBuffer → BufferCall → Prop
  | decode : IterationCalls env state state.reader.buffer (.decode state.out)
  | commitRead {len : ℕ} {decoded : Reader σ ς Opts Content} :
      Decodes env state (.ok len) decoded →
      IterationCalls env state decoded.buffer (.commitRead len)
  | reserve {decoded : Reader σ ς Opts Content} :
      AsksForMore env state decoded → state.alreadyGotPartial = true →
      IterationCalls env state decoded.buffer
        (.reserve decoded.mirrored (decoded.buffer.capacity * 2))
  | refill {decoded before : Reader σ ς Opts Content}
      {buffer : MirroredRingBuffer} {call : BufferCall} :
      AsksForMore env state decoded →
      (if state.alreadyGotPartial then grow env decoded else .ok decoded) =
        .ok before →
      FillCalls env before buffer call → IterationCalls env state buffer call

/-- The states in which a run on `fresh` can call `decode_one`: after any calls,
and after the initial fill of `message`. -/
inductive Reached (env : ReaderEnv σ ς Opts Content)
    (transformer : TransformInput ς Content → τ)
    (fresh : Reader σ ς Opts Content) : Reader σ ς Opts Content → Prop
  | calls {fuel : ℕ} {calls : List Call} {reader : Reader σ ς Opts Content}
      {returned : List τ} :
      runCalls env transformer fuel calls fresh = .ok (reader, returned) →
      Reached env transformer fresh reader
  | filled {before reader : Reader σ ς Opts Content} :
      Reached env transformer fresh before → before.started = false →
      fillBuffer env { before with started := true } = .ok reader →
      Reached env transformer fresh reader

/-- The calls that the runs on `fresh` make, each with the buffer it is made
on, up to any point inside a call. -/
inductive Makes (env : ReaderEnv σ ς Opts Content)
    (transformer : TransformInput ς Content → τ)
    (fresh : Reader σ ς Opts Content) :
    MirroredRingBuffer → BufferCall → Prop
  | initialFill {before : Reader σ ς Opts Content}
      {buffer : MirroredRingBuffer} {call : BufferCall} :
      Reached env transformer fresh before → before.started = false →
      FillCalls env { before with started := true } buffer call →
      Makes env transformer fresh buffer call
  | iteration {reader : Reader σ ς Opts Content}
      {state : DecodeState σ ς Opts Content} {buffer : MirroredRingBuffer}
      {call : BufferCall} :
      Reached env transformer fresh reader →
      reader.status.notFinished = true →
      Reaches (decodeIteration env) (.enter reader false) state →
      IterationCalls env state buffer call →
      Makes env transformer fresh buffer call

/-! ## Every call is permitted -/

/-- The successes of the decoder report at most the bytes it was given. -/
def ReportsGiven (env : ReaderEnv σ ς Opts Content) : Prop :=
  ∀ {opts : Opts} {bytes : List UInt8} {len : ℕ} {content : Content},
    env.answer opts bytes = .ok (len, content) → len ≤ bytes.length

variable {env : ReaderEnv σ ς Opts Content}
variable {reader decoded : Reader σ ς Opts Content}
variable {state : DecodeState σ ς Opts Content}
variable {buffer : MirroredRingBuffer} {call : BufferCall}

def BufferValid (reader : Reader σ ς Opts Content) : Prop :=
  reader.buffer.Valid

section Bounded

variable (hreads : env.stream.BoundedReads)
include hreads

theorem length_refill_le (reader : Reader σ ς Opts Content) :
    (refill env reader).length ≤ reader.buffer.availableWrite :=
  hreads.length_le _ _

theorem FillCalls.permitted (hvalid : reader.buffer.Valid)
    (hcall : FillCalls env reader buffer call) :
    buffer.Documented ∧ call.Permitted env.mirrors buffer := by
  have hlength : 0 + (refill env reader).length ≤
      reader.buffer.availableWrite := by
    rw [Nat.zero_add]
    exact length_refill_le hreads reader
  obtain ⟨written, hwritten, hvalid', -, -, hcapacity, -, hunread, -⟩ :=
    hvalid.fill_ok hlength
  cases hcall with
  | read =>
      exact ⟨hvalid.documented, rfl, length_refill_le hreads reader, written,
        hwritten, hvalid'.documented⟩
  | commitWrite _ hfill =>
      obtain rfl := Outcome.ok.inj (hwritten.symm.trans hfill)
      have hroom : (refill env reader).length ≤ written.availableWrite := by
        rw [hvalid'.availableWrite_eq, hcapacity, hunread,
          ← hvalid.availableWrite_eq]
        exact length_refill_le hreads reader
      obtain ⟨after, hcommit, hafter, -⟩ := hvalid'.commitWrite_ok hroom
      exact ⟨hvalid'.documented, hroom, after, hcommit, hafter.documented⟩

/-- `fill_buffer` keeps the buffer valid; it faults only in the assertions about
the status and the stream. -/
theorem fillBuffer_meets (hvalid : reader.buffer.Valid) :
    (fillBuffer env reader).Meets BufferValid
      (fun fault => fault.ofBuffer = false) := by
  have hlength : 0 + (refill env reader).length ≤
      reader.buffer.availableWrite := by
    rw [Nat.zero_add]
    exact length_refill_le hreads reader
  obtain ⟨written, hwritten, hvalid', -⟩ := hvalid.fill_ok hlength
  obtain ⟨filled, after, hfill, hcommit, hafter, -, -⟩ :=
    hvalid.fill_commitWrite_ok (length_refill_le hreads reader) le_rfl
  obtain rfl := Outcome.ok.inj (hwritten.symm.trans hfill)
  have hok : (reader.buffer.fill reader.buffer.prepareWrite 0
      (env.stream.read reader.stream reader.buffer.prepareWrite.size).1) =
        .ok written := hfill
  have hcommitted : written.commitWrite
      (env.stream.read reader.stream reader.buffer.prepareWrite.size).1.length =
        .ok after := hcommit
  unfold fillBuffer
  split
  · simp only [hok, Outcome.ok_bind, hcommitted]
    split_ifs
    · exact hafter
    · exact hafter
    · exact hvalid'
    · rfl
  · rfl

end Bounded

theorem grow_meets (hvalid : reader.buffer.Valid) :
    (grow env reader).Meets BufferValid
      (fun fault => fault.ofBuffer = false) := by
  obtain ⟨buffer, hgrow, hbuffer, -⟩ := grow_ok env hvalid
  rw [hgrow]
  exact hbuffer

/-- Decoding changes the message only. -/
theorem Decodes.buffer_eq {ret : Except Error ℕ}
    (hdecodes : Decodes env state ret decoded) :
    decoded.buffer = state.reader.buffer := by
  obtain ⟨bytes, message, -, -, rfl⟩ := hdecodes
  rfl

/-- A success comes from an answer of the library. -/
theorem decode_ok_answer {opts : Option Opts} {before after : Message Content}
    {bytes : List UInt8} {len : ℕ}
    (hdecode : Message.decode env.library opts env.messageType
      (before.clear env.library) bytes = .ok (.ok len, after)) :
    ∃ opts content, env.answer opts bytes = .ok (len, content) := by
  cases opts with
  | none => simp [Message.decode] at hdecode
  | some opts =>
      cases before with
      | none => simp [Message.decode, Message.clear] at hdecode
      | some before =>
          obtain ⟨content, hanswer, -⟩ := Message.decode_clear env.library opts
            env.messageType before bytes
          rw [hdecode] at hanswer
          have hret := (Prod.mk.inj (Outcome.ok.inj hanswer)).1
          cases hlibrary : env.library.answer opts env.messageType bytes with
          | ok result =>
              rw [hlibrary] at hret
              obtain rfl := Except.ok.inj hret
              exact ⟨opts, result.2, hlibrary⟩
          | error error =>
              rw [hlibrary] at hret
              simp [Except.map] at hret

theorem Decodes.len_le (hreports : ReportsGiven env)
    (hcurrent : AtHead BufferValid state) {len : ℕ}
    (hdecodes : Decodes env state (.ok len) decoded) :
    len ≤ state.reader.buffer.unread.length := by
  obtain ⟨bytes, message, hview, hdecode, -⟩ := hdecodes
  obtain ⟨opts, content, hanswer⟩ := decode_ok_answer hdecode
  rw [hcurrent.out_eq, hcurrent.inv.view_prepareRead] at hview
  obtain rfl := Outcome.ok.inj hview
  exact hreports hanswer

/-- What the two halves of the refill branch leave is valid. -/
theorem AsksForMore.valid (hcurrent : AtHead BufferValid state)
    {before : Reader σ ς Opts Content} (hasks : AsksForMore env state decoded)
    (hbefore : (if state.alreadyGotPartial then grow env decoded
      else .ok decoded) = .ok before) : before.buffer.Valid := by
  obtain ⟨error, hdecodes, -⟩ := hasks
  have hdecoded : decoded.buffer.Valid := by
    rw [hdecodes.buffer_eq]
    exact hcurrent.inv
  split at hbefore
  · exact (grow_meets hdecoded).of_ok hbefore
  · obtain rfl := Outcome.ok.inj hbefore
    exact hdecoded

/-- An iteration that asks for more bytes grows the buffer if it is not the
first one to do so, and refills it. -/
theorem AsksForMore.decodeIteration_eq
    (hasks : AsksForMore env state decoded) :
    decodeIteration env state =
      (if state.alreadyGotPartial then grow env decoded
        else .ok decoded).bind fun before =>
        (fillBuffer env before).bind fun reader =>
          .ok (.again (.enter reader true)) := by
  obtain ⟨error, ⟨bytes, message, hview, hdecode, rfl⟩, hguard⟩ := hasks
  simp only [decodeIteration, hview, Outcome.ok_bind, hdecode]
  rw [if_pos hguard]

/-- The decoder asks for more when it is shown an incomplete message before the
end of the stream. -/
theorem DecodeState.Ready.asksForMore {opts : Opts}
    (hready : state.Ready opts)
    (hanswer : env.answer opts state.reader.buffer.unread =
      .error .partialMsg)
    (hstatus : state.reader.status.isStreamFinished = false) :
    ∃ content, AsksForMore env state
      { state.reader with message_ := some content } := by
  obtain ⟨⟨hvalid, hoptions, hmessage⟩, hout⟩ := hready
  obtain ⟨before, hbefore⟩ := Option.isSome_iff_exists.mp hmessage
  obtain ⟨content, hdecode, -⟩ := Message.decode_clear env.library opts
    env.messageType before state.reader.buffer.unread
  have hlibrary : env.library.answer opts env.messageType
      state.reader.buffer.unread = .error .partialMsg := hanswer
  rw [hlibrary, ← hoptions, ← hbefore] at hdecode
  have hview : state.reader.buffer.view state.out =
      .ok state.reader.buffer.unread := by
    rw [hout]
    exact hvalid.view_prepareRead
  refine ⟨content, .partialMsg, ⟨_, _, hview, hdecode, rfl⟩, ?_⟩
  rw [hstatus]
  rfl

section Contract

variable (hreads : env.stream.BoundedReads) (hreports : ReportsGiven env)
include hreads hreports

theorem IterationCalls.permitted (hcurrent : AtHead BufferValid state)
    (hcall : IterationCalls env state buffer call) :
    buffer.Documented ∧ call.Permitted env.mirrors buffer := by
  cases hcall with
  | decode =>
      refine ⟨hcurrent.inv.documented, hcurrent.out_eq, ?_⟩
      rw [hcurrent.out_eq]
      exact hcurrent.inv.view_prepareRead
  | @commitRead len decoded hdecodes =>
      have hlen := hdecodes.len_le hreports hcurrent
      have hvalid := hcurrent.inv
      rw [hdecodes.buffer_eq]
      obtain ⟨after, hcommit, hafter, -⟩ := hvalid.commitRead_ok hlen
      rw [← hvalid.availableRead_eq_length] at hlen
      exact ⟨hvalid.documented, hlen, after, hcommit, hafter.documented⟩
  | @reserve decoded hasks _ =>
      obtain ⟨error, hdecodes, -⟩ := hasks
      have hvalid : decoded.buffer.Valid := by
        rw [hdecodes.buffer_eq]
        exact hcurrent.inv
      obtain ⟨result, after, hreserve, hafter⟩ := hvalid.reserve_valid
        env.mirrors decoded.mirrored (decoded.buffer.capacity * 2)
      refine ⟨hvalid.documented, ?_, result, after, hreserve,
        hafter.documented⟩
      intro hcapacity hnull
      exact (MirroredRingBuffer.reserve_parts hcapacity hnull hreserve).1
  | @refill decoded before buffer call hasks hbefore hfill =>
      exact hfill.permitted hreads
        (hasks.valid hcurrent hbefore)

/-- One iteration keeps `out` current and the buffer valid. -/
theorem decodeIteration_meets (hcurrent : AtHead BufferValid state) :
    (decodeIteration env state).Meets
      (Step.Meets (AtHead BufferValid) BufferValid)
      (fun fault => fault.ofBuffer = false) := by
  have hvalid := hcurrent.inv
  have hview : state.reader.buffer.view state.out =
      .ok state.reader.buffer.unread := by
    rw [hcurrent.out_eq]
    exact hvalid.view_prepareRead
  have hrefill : ∀ before : Reader σ ς Opts Content, before.buffer.Valid →
      ((fillBuffer env before).bind fun reader =>
        .ok (.again (.enter reader true))).Meets
          (Step.Meets (AtHead BufferValid)
            fun result : Reader σ ς Opts Content => result.BufferValid)
          (fun fault => fault.ofBuffer = false) := by
    intro before hbefore
    apply (fillBuffer_meets hreads hbefore).bind
    intro filled hfilled
    exact ⟨hfilled, rfl⟩
  unfold decodeIteration
  dsimp only
  rw [hview, Outcome.ok_bind]
  cases hdecode : Message.decode env.library state.reader.options
      env.messageType (state.reader.message_.clear env.library)
      state.reader.buffer.unread with
  | fault fault =>
      rcases Message.decode_fault hdecode with rfl | rfl
      · rfl
      · rfl
  | outOfFuel => trivial
  | ok result =>
      obtain ⟨ret, message⟩ := result
      cases ret with
      | ok len =>
          have hdecodes : Decodes env state (.ok len)
              { state.reader with message_ := message } :=
            ⟨_, message, hview, hdecode, rfl⟩
          obtain ⟨after, hcommit, hafter, -⟩ :=
            hvalid.commitRead_ok (hdecodes.len_le hreports hcurrent)
          simp only [Outcome.ok_bind, hcommit]
          exact hafter
      | error error =>
          simp only [Outcome.ok_bind]
          split_ifs
          · have hdecoded : { state.reader with
                message_ := message }.buffer.Valid := hvalid
            exact (grow_meets hdecoded).bind hrefill
          · exact hrefill _ hvalid
          · exact hvalid
          · exact hvalid

theorem valid_readerInvariant :
    ReaderInvariant env BufferValid (fun fault => fault.ofBuffer = false) where
  started := fun hvalid => hvalid
  fillBuffer := fillBuffer_meets hreads
  iteration := decodeIteration_meets hreads hreports

end Contract

/-- An invariant of the reader holds whenever `decode_one` can be called. -/
theorem ReaderInvariant.reached {Inv : Reader σ ς Opts Content → Prop}
    {allowed : Fault → Prop} (hinvariant : ReaderInvariant env Inv allowed)
    {transformer : TransformInput ς Content → τ}
    {fresh : Reader σ ς Opts Content} (hfresh : Inv fresh)
    (hreached : Reached env transformer fresh reader) : Inv reader := by
  induction hreached with
  | @calls fuel calls reader returned hcalls =>
      exact (hinvariant.callInvariant.runCalls fuel calls hfresh).of_ok hcalls
  | filled _ _ hfill ih =>
      exact (hinvariant.fillBuffer (hinvariant.started ih)).of_ok hfill

/-- Whatever the stream, the decoder and the creation of mappings do within
their bounds, every call that a run makes on the buffer finds it as documented
and is permitted, and no run stops at an assertion of the buffer. -/
theorem makes_permitted (hreads : env.stream.BoundedReads)
    (hreports : ReportsGiven env) {bufferSize : ℕ}
    (hcreate : env.mirrors.create 0 bufferSize ≠ none)
    (transformer : TransformInput ς Content → τ) (stream : σ)
    (options : Option Opts) (message_ : Message Content) :
    (∀ buffer call, Makes env transformer
        (create env stream options message_ bufferSize) buffer call →
      buffer.Documented ∧ call.Permitted env.mirrors buffer) ∧
    ∀ fuel calls fault, runCalls env transformer fuel calls
        (create env stream options message_ bufferSize) = .fault fault →
      fault.ofBuffer = false := by
  obtain ⟨block, hblock⟩ := Option.ne_none_iff_exists'.mp hcreate
  have hvalid : BufferValid
      (create env stream options message_ bufferSize) :=
    (MirroredRingBuffer.create_valid hblock).1
  have hinvariant := valid_readerInvariant hreads hreports
  refine ⟨?_, ?_⟩
  · intro buffer call hmakes
    cases hmakes with
    | initialFill hreached _ hfill =>
        have hbefore := hinvariant.reached hvalid hreached
        exact hfill.permitted hreads (hinvariant.started hbefore)
    | iteration hreached _ hreaches hiteration =>
        have hreader := hinvariant.reached hvalid hreached
        have hstate := hinvariant.reaches hreader hreaches
        exact hiteration.permitted hreads hreports hstate
  · intro fuel calls fault hfault
    exact (hinvariant.callInvariant.runCalls fuel calls hvalid).of_fault hfault

theorem prefixedEnv_reportsGiven : ReportsGiven prefixedEnv :=
  fun hanswer => (prefixedEnv_lawful.consumes hanswer).2

theorem listStream_boundedReads : listStream.BoundedReads where
  length_le _ _ := List.length_take_le _ _

/-- Two messages through a buffer that is smaller than both together. -/
theorem makes_permitted_three :
    (∀ buffer call, Makes prefixedEnv identityTransform
        (create prefixedEnv ⟨[2, 7, 3, 8, 9], false⟩ (some ()) (some []) 3)
        buffer call →
      buffer.Documented ∧ call.Permitted exactMirrors buffer) ∧
    ∀ fuel calls fault, runCalls prefixedEnv identityTransform fuel calls
        (create prefixedEnv ⟨[2, 7, 3, 8, 9], false⟩ (some ()) (some []) 3) =
          .fault fault →
      fault.ofBuffer = false :=
  makes_permitted listStream_boundedReads prefixedEnv_reportsGiven
    (by simp [prefixedEnv, exactMirrors]) identityTransform _ _ _

end Reader

end Io

end ParseBgp
