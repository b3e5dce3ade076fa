import ParseBgp.Io.DecodeTermination
import ParseBgp.Io.ReadCounts
import ParseBgp.Io.ReadLengths

/-!
# Streams that never signal their end

A `Bzip2Stream` stays good when a read comes up short.  A reader over such a
stream decodes the messages of its content and reports an invalid one as it
should, but behind the last message `decode_one` asks for more bytes for ever,
or until a read of the grown buffer fails.
-/

namespace ParseBgp.Io

open Loop WholeInput

variable {σ ς Opts Content : Type}

/-- Reads of at most `bound` bytes hand out the next bytes and leave the stream
good, also when they come up short.  Larger reads may fail behind the end. -/
structure ByteStream.SilentUpTo (stream : ByteStream σ ς) (bound : ℕ)
    (Left : σ → List UInt8 → Prop) : Prop where
  read : ∀ {state : σ} {bytes : List UInt8} {count : ℕ}, Left state bytes →
    count ≤ bound →
      (stream.read state count).1 = bytes.take count ∧
        stream.good (stream.read state count).2 = true ∧
        Left (stream.read state count).2 (bytes.drop count)
  beyond : ∀ {state : σ} (count : ℕ), Left state [] →
    ((stream.read state count).1 = [] ∧
        stream.good (stream.read state count).2 = true ∧
        Left (stream.read state count).2 []) ∨
      stream.FailsAt state count

/-- A stream error is neither success nor an end. -/
theorem ReaderStatus.of_isStreamError {status : ReaderStatus ς}
    (herror : status.isStreamError = true) :
    status.isOk = false ∧ status.isStreamFinished = false := by
  simp only [isStreamError, decide_eq_true_eq] at herror
  simp [isOk, isStreamFinished, herror]

/-- Some mapping is larger than `bound`. -/
def MirrorSource.Oversized (mirrors : MirrorSource) (bound : ℕ) : Prop :=
  ∃ index request block, mirrors.create index request = some block ∧
    bound < block.capacity

namespace Reader

/-- A reader in step with `bytes` that has seen no end, whose buffer asks for at
most `bound` bytes. -/
structure Open (Left : σ → List UInt8 → Prop) (opts : Opts) (bound : ℕ)
    (bytes : List UInt8) (reader : Reader σ ς Opts Content) : Prop where
  synced : Synced Left opts bytes reader
  isOk : reader.status.isOk = true
  capacity_le : reader.buffer.capacity ≤ bound

/-- The loop of `decode_one` has shown the decoder all there is.  A failed read
is still to be noticed by the next one. -/
structure Starved (env : ReaderEnv σ ς Opts Content)
    (Left : σ → List UInt8 → Prop) (opts : Opts) (bound : ℕ)
    (state : DecodeState σ ς Opts Content) : Prop where
  ready : state.Ready opts
  incomplete : env.answer opts state.reader.buffer.unread = .error .partialMsg
  capacity_le : state.reader.buffer.capacity ≤ bound ∨
    env.mirrors.Oversized bound
  source : (state.reader.status.isOk = true ∧ Left state.reader.stream []) ∨
    (state.reader.status.isStreamError = true ∧ env.mirrors.Oversized bound)

/-- The loop does not return: a read that failed before stops it, if anything
does, and this takes a mapping of more than `bound` bytes. -/
def NeverReturns (env : ReaderEnv σ ς Opts Content) (bound : ℕ) {α : Type}
    (outcome : Outcome Fault α) : Prop :=
  outcome.Meets (fun _ => False) fun fault =>
    fault = .fillBufferStatus ∧ env.mirrors.Oversized bound

/-- A decoder error that more bytes would not mend. -/
def Fails (ending : End Error) : Prop :=
  ∃ error, error ≠ .partialMsg ∧ ending = .failed error

variable {env : ReaderEnv σ ς Opts Content} {opts : Opts} {bound : ℕ}
variable {Left : σ → List UInt8 → Prop} {bytes : List UInt8}
variable {reader : Reader σ ς Opts Content}

theorem Open.source (hopen : Open Left opts bound bytes reader) :
    ∃ left, Left reader.stream left ∧ bytes = reader.buffer.unread ++ left := by
  rcases hopen.synced.source with ⟨-, hsource⟩ | ⟨hfinished, -⟩
  · exact hsource
  · have hok := ReaderStatus.isOk_eq_false_of_isStreamFinished hfinished
    exact absurd (hopen.isOk.symm.trans hok) (by simp)

theorem Open.setMessage (hopen : Open Left opts bound bytes reader)
    (content : Content) :
    Open Left opts bound bytes { reader with message_ := some content } where
  synced := ⟨⟨hopen.synced.live.valid, hopen.synced.live.options_eq, rfl⟩,
    hopen.synced.started, hopen.synced.source⟩
  isOk := hopen.isOk
  capacity_le := hopen.capacity_le

/-- A client loop starts the reader and goes on from there. -/
theorem readAll_eq_start {fuel calls : ℕ} (hcalls : calls ≠ 0) :
    readAll env fuel calls reader =
      (start env fuel reader).bind (readAll env fuel calls) := by
  obtain ⟨calls, rfl⟩ := Nat.exists_eq_succ_of_ne_zero hcalls
  cases hstart : start env fuel reader with
  | ok after =>
      rw [Outcome.ok_bind, readAll_of_start hstart (start_started hstart)]
  | fault error =>
      rw [readAll, message, hstart, Outcome.fault_bind, Outcome.fault_bind,
        Outcome.fault_bind]
  | outOfFuel =>
      rw [readAll, message, hstart, Outcome.outOfFuel_bind,
        Outcome.outOfFuel_bind, Outcome.outOfFuel_bind]

/-- A refill of a live reader from a stream that stays good. -/
theorem fillBuffer_silent (hlive : reader.Live opts)
    (hok : reader.status.isOk = true) {left : List UInt8}
    (hread : (env.stream.read reader.stream
      reader.buffer.availableWrite).1 = left.take reader.buffer.availableWrite)
    (hgood : env.stream.good (env.stream.read reader.stream
      reader.buffer.availableWrite).2 = true) :
    ∃ filled, fillBuffer env reader = .ok filled ∧ filled.Live opts ∧
      filled.started = reader.started ∧ filled.status = reader.status ∧
      filled.buffer.capacity = reader.buffer.capacity ∧
      filled.buffer.unread = reader.buffer.unread ++
        left.take reader.buffer.availableWrite ∧
      filled.stream = (env.stream.read reader.stream
        reader.buffer.availableWrite).2 := by
  have hrefill : refill env reader = left.take reader.buffer.availableWrite :=
    hread
  have hlength : (refill env reader).length ≤ reader.buffer.availableWrite := by
    rw [hrefill]
    exact List.length_take_le _ _
  obtain ⟨buffer, hfill, hbuffer, hsame, hunread⟩ :=
    fillBuffer_of_good hlive.valid hok hlength hgood
  rw [hrefill] at hunread
  exact ⟨_, hfill, ⟨hbuffer, hlive.options_eq, hlive.message_isSome⟩, rfl, rfl,
    hsame, hunread, rfl⟩

/-- An iteration that ends the loop and not the run leaves the status. -/
theorem isOk_of_done {state : DecodeState σ ς Opts Content}
    {after : Reader σ ς Opts Content} (hok : state.reader.status.isOk = true)
    (hiteration : decodeIteration env state = .ok (.done after))
    (hnot : after.status.notFinished = true) : after.status.isOk = true := by
  rcases (decodeIteration_done hiteration).2.2.2 with
    hsame | ⟨hfinished, -⟩ | ⟨error, herror, -⟩
  · rw [hsame]
    exact hok
  · rw [hfinished] at hnot
    exact absurd hnot (by simp [ReaderStatus.notFinished, ReaderStatus.isOk,
      ReaderStatus.isStreamFinished, ReaderStatus.ofValue])
  · rw [herror] at hnot
    simp at hnot

section Silent

variable (hsilent : env.stream.SilentUpTo bound Left)
include hsilent

/-- A refill of an open reader shows as many of the bytes left as the buffer
holds. -/
theorem Open.fillBuffer (hopen : Open Left opts bound bytes reader) :
    ∃ filled, Reader.fillBuffer env reader = .ok filled ∧
      Open Left opts bound bytes filled ∧
      filled.buffer.capacity = reader.buffer.capacity ∧
      filled.buffer.unread = bytes.take reader.buffer.capacity ∧
      Left filled.stream (bytes.drop reader.buffer.capacity) := by
  obtain ⟨left, hleft, hbytes⟩ := hopen.source
  have hvalid := hopen.synced.live.valid
  have hcount : reader.buffer.availableWrite ≤ bound := by
    have hcapacity := hopen.capacity_le
    rw [hvalid.availableWrite_eq]
    omega
  obtain ⟨hread, hgood, hnext⟩ := hsilent.read hleft hcount
  obtain ⟨filled, hfill, hlive, hstarted, hstatus, hcapacity, hunread,
    hstream⟩ := fillBuffer_silent hopen.synced.live hopen.isOk hread hgood
  rw [← hstream] at hnext
  have hfits := hvalid.length_unread_le
  rw [hvalid.availableWrite_eq] at hunread hnext
  have hok : filled.status.isOk = true := by
    rw [hstatus]
    exact hopen.isOk
  have hshown : filled.buffer.unread = bytes.take reader.buffer.capacity := by
    rw [hunread, hbytes, List.take_append, List.take_of_length_le hfits]
  have hrest : bytes.drop reader.buffer.capacity =
      left.drop (reader.buffer.capacity - reader.buffer.unread.length) := by
    rw [hbytes, List.drop_append, List.drop_eq_nil_of_le hfits, List.nil_append]
  refine ⟨filled, hfill, ⟨⟨hlive, hstarted.trans hopen.synced.started,
    Or.inl ⟨hok, _, hnext, ?_⟩⟩, hok, hcapacity.trans_le hopen.capacity_le⟩,
    hcapacity, hshown, ?_⟩
  · rw [hshown, ← hrest, List.take_append_drop]
  · rw [hrest]
    exact hnext

variable (hlawful : Lawful (env.answer opts) .partialMsg)
include hlawful

/-- Where the bytes left decide and fit the buffer, `decode_one` returns the next
message of the reference run, or its error. -/
theorem Open.decodeOne_decides (hopen : Open Left opts bound bytes reader)
    (hanswer : env.answer opts bytes ≠ .error .partialMsg)
    (hfits : reader.buffer.capacity ≤ bytes.length →
      env.answer opts (bytes.take reader.buffer.capacity) ≠
        .error .partialMsg) {fuel : ℕ} (hfuel : 2 ≤ fuel) :
    ∃ after, decodeOne env fuel reader = .ok after ∧
      after.buffer.capacity = reader.buffer.capacity ∧
      Decoded env Left opts bytes after ∧
      (after.status.notFinished = true → after.status.isOk = true) := by
  obtain ⟨fuel, rfl⟩ := Nat.exists_eq_add_of_le' hfuel
  rw [decodeOne, if_pos hopen.synced.notFinished]
  by_cases hsettled : env.answer opts reader.buffer.unread ≠ .error .partialMsg
  · obtain ⟨after, hiteration, hcapacity, hdecoded⟩ :=
      decodeIteration_decoded hlawful (hopen.synced.live.ready false)
        hopen.synced (Or.inl hsettled)
    exact ⟨after, run_succ_of_done hiteration, hcapacity, hdecoded,
      isOk_of_done hopen.isOk hiteration⟩
  · rw [not_not] at hsettled
    obtain ⟨content, hiteration⟩ := decodeIteration_refill
      hopen.synced.live hsettled
      (ReaderStatus.isStreamFinished_of_isOk hopen.isOk)
    obtain ⟨filled, hfill, hfilled, hcapacity, hunread, -⟩ :=
      (hopen.setMessage content).fillBuffer hsilent
    rw [hfill, Outcome.ok_bind] at hiteration
    have hdecides : env.answer opts filled.buffer.unread ≠
        .error .partialMsg := by
      rw [hunread]
      by_cases hlong : reader.buffer.capacity ≤ bytes.length
      · exact hfits hlong
      · change env.answer opts (bytes.take reader.buffer.capacity) ≠ _
        rwa [List.take_of_length_le (not_le.mp hlong).le]
    obtain ⟨after, hdone, hcapacity', hdecoded⟩ :=
      decodeIteration_decoded hlawful (hfilled.synced.live.ready true)
        hfilled.synced (Or.inl hdecides)
    refine ⟨after, ?_, hcapacity'.trans hcapacity, hdecoded,
      isOk_of_done hfilled.isOk hdone⟩
    rw [run_succ_of_again hiteration, run_succ_of_done hdone]

omit hlawful in
/-- A refill adds nothing, fails, or meets the failure of the one before. -/
theorem fillBuffer_starved (hlive : reader.Live opts)
    (hanswer : env.answer opts reader.buffer.unread = .error .partialMsg)
    (hcapacity : reader.buffer.capacity ≤ bound ∨ env.mirrors.Oversized bound)
    (hsource : (reader.status.isOk = true ∧ Left reader.stream []) ∨
      (reader.status.isStreamError = true ∧ env.mirrors.Oversized bound)) :
    (fillBuffer env reader).Meets
      (fun filled => Starved env Left opts bound (.enter filled true))
      fun fault => fault = .fillBufferStatus ∧ env.mirrors.Oversized bound := by
  rcases hsource with ⟨hok, hleft⟩ | ⟨herror, hover⟩
  · rcases hsilent.beyond reader.buffer.availableWrite hleft with
      ⟨hread, hgood, hnext⟩ | hfails
    · obtain ⟨filled, hfill, hfilled, -, hsame, hsize, hunread, hrest⟩ :=
        fillBuffer_silent hlive hok (hread.trans List.take_nil.symm) hgood
      rw [List.take_nil, List.append_nil] at hunread
      rw [hfill]
      exact {
        ready := hfilled.ready true
        incomplete := by
          change env.answer opts filled.buffer.unread = _
          rw [hunread, hanswer]
        capacity_le := by
          change filled.buffer.capacity ≤ bound ∨ _
          rwa [hsize]
        source := by
          refine Or.inl ⟨?_, ?_⟩
          · change filled.status.isOk = true
            rwa [hsame]
          · change Left filled.stream []
            rwa [hrest] }
    · obtain ⟨buffer, hfill, hbuffer, hunread⟩ :=
        fillBuffer_of_fails hlive.valid hok hfails
      -- reads up to the bound do not fail
      have hover : env.mirrors.Oversized bound := by
        refine hcapacity.resolve_left fun hbound => ?_
        have hcount : reader.buffer.availableWrite ≤ bound := by
          rw [hlive.valid.availableWrite_eq]
          omega
        have hgood := (hsilent.read hleft hcount).2.1
        rw [hfails.not_good] at hgood
        exact absurd hgood (by simp)
      have hfailed : (reader.afterRead env buffer (.ofStream
          (env.stream.status (refilled env reader)))).Live opts :=
        ⟨hbuffer, hlive.options_eq, hlive.message_isSome⟩
      rw [hfill]
      exact {
        ready := hfailed.ready true
        incomplete := by
          change env.answer opts buffer.unread = _
          rw [hunread, hanswer]
        capacity_le := Or.inr hover
        source := Or.inr ⟨rfl, hover⟩ }
  · rw [fillBuffer_of_not_ok (ReaderStatus.of_isStreamError herror).1]
    exact ⟨rfl, hover⟩

/-- A starved loop shows the decoder the same bytes again, or none. -/
theorem Starved.iteration {state : DecodeState σ ς Opts Content}
    (hstarved : Starved env Left opts bound state) :
    (decodeIteration env state).Meets
      (Step.Meets (Starved env Left opts bound) fun _ => False) fun fault =>
        fault = .fillBufferStatus ∧ env.mirrors.Oversized bound := by
  have hunfinished : state.reader.status.isStreamFinished = false := by
    rcases hstarved.source with ⟨hok, -⟩ | ⟨herror, -⟩
    · exact ReaderStatus.isStreamFinished_of_isOk hok
    · exact (ReaderStatus.of_isStreamError herror).2
  obtain ⟨before, hbefore, hfrom, hiteration, hgrown⟩ :=
    decodeIteration_of_partial_grown hstarved.ready hstarved.incomplete
      hunfinished
  have hanswer : env.answer opts before.buffer.unread = .error .partialMsg := by
    rcases hgrown with hsame | ⟨-, hnil, -⟩
    · rw [hsame]
      exact hstarved.incomplete
    · rw [hnil]
      exact hlawful.empty
  have hcapacity : before.buffer.capacity ≤ bound ∨
      env.mirrors.Oversized bound := by
    rcases hgrown with hsame | ⟨-, -, block, hcreate, hsize⟩
    · rw [hsame]
      exact hstarved.capacity_le
    · by_cases hbound : block.capacity ≤ bound
      · exact Or.inl (hsize.trans_le hbound)
      · exact Or.inr ⟨_, _, block, hcreate, not_le.mp hbound⟩
  have hsource := hstarved.source
  rw [← hfrom.status_eq, ← hfrom.stream_eq] at hsource
  rw [hiteration]
  exact (fillBuffer_starved hsilent hbefore hanswer hcapacity hsource).bind
    fun _ hfilled => hfilled

/-- Where all bytes left are an incomplete message, or none, `decode_one` does
not return. -/
theorem Open.decodeOne_starves (hopen : Open Left opts bound bytes reader)
    (hanswer : env.answer opts bytes = .error .partialMsg)
    (hfits : reader.buffer.capacity ≤ bytes.length →
      env.answer opts (bytes.take reader.buffer.capacity) ≠
        .error .partialMsg) (fuel : ℕ) :
    NeverReturns env bound (decodeOne env fuel reader) := by
  have hincomplete : ∀ window, window <+: bytes →
      env.answer opts window = .error .partialMsg := by
    intro window hwindow
    by_contra hdecides
    rw [hlawful.answer_of_prefix hwindow hdecides] at hanswer
    exact hdecides hanswer
  have hshort : bytes.length < reader.buffer.capacity := by
    by_contra hlong
    exact hfits (not_lt.mp hlong) (hincomplete _ (List.take_prefix _ _))
  rw [decodeOne, if_pos hopen.synced.notFinished]
  cases fuel with
  | zero => trivial
  | succ fuel =>
      obtain ⟨content, hiteration⟩ := decodeIteration_refill
        hopen.synced.live (hincomplete _ hopen.synced.unread_prefix)
        (ReaderStatus.isStreamFinished_of_isOk hopen.isOk)
      obtain ⟨filled, hfill, hfilled, -, hunread, hnext⟩ :=
        (hopen.setMessage content).fillBuffer hsilent
      rw [hfill, Outcome.ok_bind] at hiteration
      have hstarved : Starved env Left opts bound (.enter filled true) := {
        ready := hfilled.synced.live.ready true
        incomplete := by
          change env.answer opts filled.buffer.unread = _
          rw [hunread]
          exact hincomplete _ (List.take_prefix _ _)
        capacity_le := Or.inl hfilled.capacity_le
        source := by
          rw [List.drop_eq_nil_of_le hshort.le] at hnext
          exact Or.inl ⟨hfilled.isOk, hnext⟩ }
      rw [run_succ_of_again hiteration]
      exact run_meets_of_invariant
        (fun _ hinv => hinv.iteration hsilent hlawful) fuel hstarved

/-! ## The client loop -/

/-- One `decode_one` of a run: it returns the next message or the error that
ends the reference run, or it does not return. -/
inductive Advance (env : ReaderEnv σ ς Opts Content)
    (Left : σ → List UInt8 → Prop) (opts : Opts) (bound fuel : ℕ)
    (bytes : List UInt8) (reader : Reader σ ς Opts Content) : Prop
  | message {len : ℕ} {content : Content} {after : Reader σ ς Opts Content} :
      env.answer opts bytes = .ok (len, content) →
        decodeOne env fuel reader = .ok after →
          after.message_ = some content →
            Open Left opts bound (bytes.drop len) after →
              Fits (env.answer opts) .partialMsg after.buffer.capacity
                  (bytes.drop len) →
                Advance env Left opts bound fuel bytes reader
  | fails {error : Error} {after : Reader σ ς Opts Content} :
      error ≠ .partialMsg →
        reference (env.answer opts) bytes = ([], .failed error) →
          decodeOne env fuel reader = .ok after → after.started = true →
            after.status = .ofDecoder error →
              Advance env Left opts bound fuel bytes reader
  | starves : ¬ Fails (reference (env.answer opts) bytes).2 →
      NeverReturns env bound (decodeOne env fuel reader) →
        Advance env Left opts bound fuel bytes reader

theorem Open.advance (hopen : Open Left opts bound bytes reader)
    (hfits : Fits (env.answer opts) .partialMsg reader.buffer.capacity bytes)
    {fuel : ℕ} (hfuel : 2 ≤ fuel) :
    Advance env Left opts bound fuel bytes reader := by
  have hhere := hfits bytes .start
  cases hanswer : env.answer opts bytes with
  | ok result =>
      obtain ⟨len, content⟩ := result
      obtain ⟨after, hdecode, hcapacity, hdecoded, hok⟩ :=
        hopen.decodeOne_decides hsilent hlawful (by simp [hanswer]) hhere hfuel
      have hreference := hlawful.reference_of_ok hanswer
      cases hdecoded with
      | @message len' content' hanswer' hmessage hnot hsynced =>
          rw [hanswer] at hanswer'
          obtain ⟨rfl, rfl⟩ := Prod.mk.inj (Except.ok.inj hanswer')
          refine .message hanswer hdecode hmessage
            ⟨hsynced, hok hnot, hcapacity.trans_le hopen.capacity_le⟩ ?_
          intro later hboundary
          rw [hcapacity]
          exact hfits later ((Boundary.start.next hanswer).trans hboundary)
      | final hnone _ _ =>
          rw [hreference] at hnone
          simp at hnone
  | error error =>
      by_cases hmore : error = .partialMsg
      · rw [hmore] at hanswer
        refine .starves ?_ (hopen.decodeOne_starves hsilent hlawful
          hanswer hhere fuel)
        rintro ⟨last, hne, hend⟩
        by_cases hnil : bytes = []
        · rw [hnil, Lawful.reference_nil] at hend
          simp at hend
        · rw [Lawful.reference_of_error hnil hanswer] at hend
          exact hne (End.failed.inj hend).symm
      · have hnil : bytes ≠ [] := by
          rintro rfl
          rw [hlawful.empty] at hanswer
          exact hmore (Except.error.inj hanswer).symm
        obtain ⟨after, hdecode, -, hdecoded, -⟩ :=
          hopen.decodeOne_decides hsilent hlawful (by simpa [hanswer]) hhere
            hfuel
        have hreference := Lawful.reference_of_error hnil hanswer
        cases hdecoded with
        | message hanswer' _ _ _ =>
            rw [hanswer] at hanswer'
            simp at hanswer'
        | final _ hstatus hstarted =>
            rw [hreference] at hstatus
            exact .fails hmore hreference hdecode hstarted hstatus

/-- A run that ends in an invalid message is the reference run. -/
theorem Open.readAll_of_fails (hopen : Open Left opts bound bytes reader)
    (hfits : Fits (env.answer opts) .partialMsg reader.buffer.capacity bytes)
    {fuel : ℕ} (hfuel : 2 ≤ fuel)
    (hfails : Fails (reference (env.answer opts) bytes).2) {calls : ℕ}
    (hcalls : bytes.length < calls) :
    ∃ final, (decodeOne env fuel reader).bind (readAll env fuel calls) =
      .ok ((reference (env.answer opts) bytes).1.map some,
        statusOf (reference (env.answer opts) bytes).2, final) := by
  induction calls generalizing bytes reader with
  | zero => simp at hcalls
  | succ calls ih =>
      cases hopen.advance hsilent hlawful hfits hfuel with
      | @message len content after hanswer hdecode hmessage hnext hrest =>
          have hlen := hlawful.consumes hanswer
          have hreference := hlawful.reference_of_ok hanswer
          rw [hreference] at hfails
          have hshorter : (bytes.drop len).length < calls := by
            rw [List.length_drop]
            omega
          obtain ⟨final, hread⟩ := ih hnext hrest hfails hshorter
          refine ⟨final, ?_⟩
          rw [hdecode, Outcome.ok_bind, readAll_of_notFinished calls
            hnext.synced.started hnext.synced.notFinished,
            ← Outcome.bind_assoc, hread, Outcome.ok_bind, hmessage,
            hreference, List.map_cons]
      | @fails error after hne hreference hdecode hstarted hstatus =>
          refine ⟨after, ?_⟩
          have hended : after.status.notFinished = false := by
            rw [hstatus]
            rfl
          rw [hdecode, Outcome.ok_bind, readAll_of_ended calls hstarted hended,
            hstatus, hreference]
          rfl
      | starves hnot _ => exact absurd hfails hnot

/-- Any other run does not return. -/
theorem Open.readAll_of_not_fails (hopen : Open Left opts bound bytes reader)
    (hfits : Fits (env.answer opts) .partialMsg reader.buffer.capacity bytes)
    {fuel : ℕ} (hfuel : 2 ≤ fuel)
    (hnot : ¬ Fails (reference (env.answer opts) bytes).2) (calls : ℕ) :
    NeverReturns env bound
      ((decodeOne env fuel reader).bind (readAll env fuel calls)) := by
  induction calls generalizing bytes reader with
  | zero =>
      cases hopen.advance hsilent hlawful hfits hfuel with
      | message _ hdecode _ _ _ =>
          rw [hdecode, Outcome.ok_bind, readAll]
          trivial
      | fails _ _ hdecode _ _ =>
          rw [hdecode, Outcome.ok_bind, readAll]
          trivial
      | starves _ hdecode => exact hdecode.bind (fun _ => False.elim)
  | succ calls ih =>
      cases hopen.advance hsilent hlawful hfits hfuel with
      | @message len content after hanswer hdecode hmessage hnext hrest =>
          rw [hlawful.reference_of_ok hanswer] at hnot
          have hforever := ih hnext hrest hnot
          rw [hdecode, Outcome.ok_bind, readAll_of_notFinished calls
            hnext.synced.started hnext.synced.notFinished,
            ← Outcome.bind_assoc]
          exact hforever.bind (fun _ => False.elim)
      | fails hne hreference _ _ _ =>
          exact absurd ⟨_, hne, by rw [hreference]⟩ hnot
      | starves _ hdecode => exact hdecode.bind (fun _ => False.elim)

/-- The client loop on a fresh reader. -/
theorem readAll_silent {stream : σ} (content : Content) {bufferSize : ℕ}
    {block : MirroredMemory.Block UInt8}
    (hcreate : env.mirrors.create 0 bufferSize = some block)
    (hbound : block.capacity ≤ bound) {input : List UInt8}
    (hleft : Left stream input)
    (hfits : Fits (env.answer opts) .partialMsg block.capacity input)
    {fuel : ℕ} (hfuel : 2 ≤ fuel) :
    (Fails (reference (env.answer opts) input).2 →
      ∀ calls, input.length < calls → ∃ final, readAll env fuel calls
          (create env stream (some opts) (some content) bufferSize) =
        .ok ((reference (env.answer opts) input).1.map some,
          statusOf (reference (env.answer opts) input).2, final)) ∧
    (¬ Fails (reference (env.answer opts) input).2 →
      ∀ calls, NeverReturns env bound (readAll env fuel calls
        (create env stream (some opts) (some content) bufferSize))) := by
  obtain ⟨hok, hcapacity, hsynced⟩ := create_synced opts content hcreate hleft
  have hopen : Open Left opts bound input
      { create env stream (some opts) (some content) bufferSize with
        started := true } :=
    ⟨hsynced, hok, hcapacity.trans_le hbound⟩
  obtain ⟨filled, hfill, hfilled, hsame, -, -⟩ := hopen.fillBuffer hsilent
  have hfits' : Fits (env.answer opts) .partialMsg filled.buffer.capacity
      input := by
    rw [hsame]
    change Fits _ _ (create env stream (some opts) (some content)
      bufferSize).buffer.capacity input
    rw [hcapacity]
    exact hfits
  have hstart : start env fuel
      (create env stream (some opts) (some content) bufferSize) =
        decodeOne env fuel filled := by
    rw [start, if_neg (by simp [create]), hfill, Outcome.ok_bind,
      if_pos hfilled.synced.notFinished]
  constructor
  · intro hfails calls hcalls
    obtain ⟨final, hread⟩ := hfilled.readAll_of_fails hsilent hlawful
      hfits' hfuel hfails hcalls
    refine ⟨final, ?_⟩
    rw [readAll_eq_start (Nat.ne_zero_of_lt hcalls), hstart, hread]
  · intro hnot calls
    cases calls with
    | zero => trivial
    | succ calls =>
        rw [readAll_eq_start (Nat.succ_ne_zero calls), hstart]
        exact hfilled.readAll_of_not_fails hsilent hlawful hfits' hfuel
          hnot (calls + 1)

end Silent

end Reader

/-! ## `Bzip2Stream` -/

/-- A reader over a `Bzip2Stream`. -/
def bzip2Env {File : Type} (bzlib : Bzlib File)
    (library : Library Opts Content) (mirrors : MirrorSource)
    (messageType : MessageType) :
    ReaderEnv (Bzip2Stream File) Bzip2Status Opts Content where
  stream := bzip2Stream bzlib
  library := library
  mirrors := mirrors
  messageType := messageType

variable {File : Type} {bzlib : Bzlib File} {Left : File → List UInt8 → Prop}

/-- Behind the end a negative count is answered with 0 if a read has met the
end, and with a parameter error if none has. -/
structure Bzlib.EndContract {File : Type} (bzlib : Bzlib File)
    (Left : File → List UInt8 → Prop) : Prop
    extends bzlib.LengthContract Left where
  behind : ∀ {file : File} {count : ℤ}, Left file [] → count < 0 →
    (∃ after, bzlib.bzread (some file) count = (0, [], some after) ∧
        Left after []) ∨
      ∃ after, bzlib.bzread (some file) count = (-1, [], some after) ∧
        bzlib.bzerror (some after) = bzParamError

theorem Bzip2Stream.Opened.after_read (hbzlib : bzlib.LengthContract Left)
    {stream : Bzip2Stream File} {bytes : List UInt8} {length : ℕ}
    (hopened : Bzip2Stream.Opened Left stream bytes)
    (hlength : length % 2 ^ 32 ≤ intMax) :
    Bzip2Stream.Opened Left (stream.read bzlib length).2
      (bytes.drop (length % 2 ^ 32)) := by
  obtain ⟨file, hfile, hleft⟩ := hopened
  obtain ⟨after, hread, hafter⟩ := hbzlib.bzread_of_le hleft hlength
  refine ⟨after, ?_, hafter⟩
  simp only [Bzip2Stream.read, hfile, toInt_of_mod_le hlength, hread,
    Int.natCast_nonneg, if_true]

/-- A read of a length up to `INT_MAX`, or behind the end, keeps a stream
good. -/
theorem Bzip2Stream.Healthy.read (hbzlib : bzlib.LengthContract Left)
    {stream : Bzip2Stream File} {bytes : List UInt8} {length : ℕ}
    (hhealthy : stream.Healthy Left bytes)
    (hlength : length % 2 ^ 32 ≤ intMax)
    (hrange : length % 2 ^ 32 = length ∨ bytes = []) :
    (stream.read bzlib length).1 = bytes.take length ∧
      (stream.read bzlib length).2.good = true ∧
      (stream.read bzlib length).2.Healthy Left (bytes.drop length) := by
  have htake : bytes.take (length % 2 ^ 32) = bytes.take length := by
    rcases hrange with hsame | rfl
    · rw [hsame]
    · rw [List.take_nil, List.take_nil]
  have hdrop : bytes.drop (length % 2 ^ 32) = bytes.drop length := by
    rcases hrange with hsame | rfl
    · rw [hsame]
    · rw [List.drop_nil, List.drop_nil]
  obtain ⟨hread, hstatus⟩ := hhealthy.opened.read_mod hbzlib hlength
  have hafter := hhealthy.opened.after_read hbzlib hlength
  rw [htake] at hread hstatus
  rw [hdrop] at hafter
  have hend := hhealthy.status_read hbzlib hlength
  refine ⟨hread, ?_, hafter, ?_⟩
  · rw [Bzip2Stream.good, Bzip2Stream.eof_of_status hend,
      Bzip2Stream.bad_of_status hend]
    rfl
  · rw [hstatus]
    split_ifs with hshort
    · rw [List.length_take] at hshort
      exact Or.inr ⟨rfl, List.drop_eq_nil_of_le (by omega)⟩
    · refine hhealthy.status.imp_right fun hended => ⟨hended.1, ?_⟩
      rw [hended.2, List.drop_nil]

/-- Behind the end a stream stays good, or fails at a count that is negative as
an `int`. -/
theorem Bzip2Stream.Healthy.read_behind (hbzlib : bzlib.EndContract Left)
    {stream : Bzip2Stream File} (hhealthy : stream.Healthy Left [])
    (length : ℕ) :
    ((stream.read bzlib length).1 = [] ∧
        (stream.read bzlib length).2.good = true ∧
        (stream.read bzlib length).2.Healthy Left []) ∨
      (bzip2Stream bzlib).FailsAt stream length := by
  by_cases hlength : length % 2 ^ 32 ≤ intMax
  · have hread := hhealthy.read hbzlib.toLengthContract hlength (Or.inr rfl)
    rw [List.take_nil, List.drop_nil] at hread
    exact Or.inl hread
  obtain ⟨file, hfile, hleft⟩ := hhealthy.opened
  rcases hbzlib.behind hleft (toInt_neg (not_le.mp hlength)) with
    ⟨after, hread, hafter⟩ | ⟨after, hread, herror⟩
  · have hpos : 0 < length := by
      by_contra hzero
      rw [Nat.eq_zero_of_not_pos hzero] at hlength
      simp at hlength
    have hresult : stream.read bzlib length =
        ([], ⟨some after, .streamEnd⟩) := by
      rw [Bzip2Stream.read, hfile, hread]
      simp only [le_refl, if_true, Int.toNat_zero, List.take_nil, if_pos hpos]
      rfl
    rw [hresult]
    exact Or.inl ⟨rfl, rfl, ⟨after, rfl, hafter⟩, Or.inr ⟨rfl, rfl⟩⟩
  · exact Or.inr (Bzip2Stream.failsAt_of_refused hfile hread herror)

theorem bzip2Stream_silentUpTo (hbzlib : bzlib.EndContract Left) :
    (bzip2Stream bzlib).SilentUpTo intMax
      fun stream bytes => stream.Healthy Left bytes where
  read := by
    intro stream bytes count hhealthy hcount
    have hmod := mod_of_le_intMax hcount
    exact hhealthy.read hbzlib.toLengthContract (hmod.trans_le hcount)
      (Or.inl hmod)
  beyond := by
    intro stream count hhealthy
    exact hhealthy.read_behind hbzlib count

/-- A bzip2 file that is already in memory: the content that is left, and
whether a read has met its end. -/
structure BzFile where
  rest : List UInt8
  met : Bool
  deriving DecidableEq, Repr

def BzFile.HandsOut (file : BzFile) (bytes : List UInt8) : Prop :=
  file.rest = bytes ∧ (file.met = true → bytes = [])

def endingBzlib : Bzlib BzFile where
  bzread file count :=
    match file with
    | none => (-1, [], none)
    | some file =>
        if file.met then (0, [], some file)
        else if count < 0 then (-1, [], some file)
        else
          (((file.rest.take count.toNat).length : ℤ),
            file.rest.take count.toNat,
            some
              { rest := file.rest.drop count.toNat
                met := decide (file.rest.length < count.toNat) })
  bzerror _ := bzParamError

theorem endingBzlib_contract : endingBzlib.EndContract BzFile.HandsOut where
  bzread := by
    rintro ⟨rest, met⟩ _ count ⟨rfl, hmet⟩ - -
    have hcount : ¬ (count : ℤ) < 0 := not_lt.mpr (Int.natCast_nonneg count)
    cases met with
    | true =>
        obtain rfl : rest = [] := hmet rfl
        exact ⟨⟨[], true⟩, by simp [endingBzlib], by simp, by simp⟩
    | false =>
        refine ⟨⟨rest.drop count, decide (rest.length < count)⟩, ?_, rfl, ?_⟩
        · simp [endingBzlib, hcount]
        · intro hshort
          exact List.drop_eq_nil_of_le (of_decide_eq_true hshort).le
  zero := by
    rintro ⟨rest, met⟩ _ ⟨rfl, hmet⟩
    cases met with
    | true => exact ⟨_, rfl, rfl, hmet⟩
    | false => exact ⟨_, rfl, rfl, by simp⟩
  behind := by
    rintro ⟨rest, met⟩ count ⟨rfl, hmet⟩ hcount
    cases met with
    | true => exact Or.inl ⟨⟨[], true⟩, rfl, rfl, fun _ => rfl⟩
    | false =>
        refine Or.inr ⟨⟨[], false⟩, ?_, rfl⟩
        simp [endingBzlib, hcount]

end ParseBgp.Io
