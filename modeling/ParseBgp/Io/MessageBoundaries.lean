import ParseBgp.Io.StatusInvariant
import ParseBgp.Io.Streaming

/-!
# Message boundaries of any decoder

Nothing is assumed about the decoder here, and the stream may fail.  A call of
`decode_one` that returns without having grown the buffer has advanced from one
message boundary of the content to the next, and the run is `FINISHED` only at
the end of the content.
-/

namespace ParseBgp.Io.Reader

open Loop WholeInput

variable {σ ς Opts Content : Type}

/-- The reader after a `decode_one` that returned at the boundary before
`bytes`: it has decoded a message from a window of them, or the run has
ended. -/
inductive Advanced (env : ReaderEnv σ ς Opts Content)
    (Left : σ → List UInt8 → Prop) (opts : Opts) (bytes : List UInt8)
    (after : Reader σ ς Opts Content) : Prop
  | message {window : List UInt8} {len : ℕ} {content : Content} :
      window <+: bytes → env.answer opts window = .ok (len, content) →
        len ≤ window.length → Synced Left opts (bytes.drop len) after →
          Advanced env Left opts bytes after
  | final : after.status.notFinished = false →
      (after.status.isFinished = true → bytes = []) →
        Advanced env Left opts bytes after

variable {env : ReaderEnv σ ς Opts Content} {opts : Opts}
variable {Left : σ → List UInt8 → Prop} {bytes : List UInt8} {fuel : ℕ}
variable {reader after fresh final : Reader σ ς Opts Content}

/-- `FINISHED` is the end status of an incomplete message without bytes. -/
theorem isFinished_endStatus {unread : List UInt8} {error : Error}
    (hfinished : (endStatus unread error : ReaderStatus ς).isFinished =
      true) :
    error = .partialMsg ∧ unread = [] := by
  unfold endStatus at hfinished
  split at hfinished
  · next hend => simpa [Error.isPartialMsg] using hend
  · simp [ReaderStatus.isFinished, ReaderStatus.ofDecoder] at hfinished

/-- An iteration that ends the loop at a boundary has advanced. -/
theorem decodeIteration_advanced {state : DecodeState σ ς Opts Content}
    (hready : state.Ready opts) (hsynced : Synced Left opts bytes state.reader)
    (hiteration : decodeIteration env state = .ok (.done after)) :
    Advanced env Left opts bytes after := by
  rcases decodeIteration_done_cases hready hiteration with
    ⟨len, content, buffer, hanswer, hlen, hbuffer, hunread, rfl⟩ |
      ⟨error, content, -, hfinal, rfl⟩
  · exact .message hsynced.unread_prefix hanswer hlen
      (hsynced.commit content hbuffer hlen hunread)
  · refine .final (notFinished_endStatus _ _) ?_
    intro hfinished
    obtain ⟨hmore, hnil⟩ := isFinished_endStatus hfinished
    have hended : state.reader.status.isStreamFinished = true :=
      hfinal.resolve_left (not_not.mpr hmore)
    rw [hsynced.bytes_eq_unread hended, hnil]

/-- A fill at a boundary keeps the reader in step, or stores the status of the
stream that failed. -/
theorem fillBuffer_sound (hsound : env.stream.SoundReads Left)
    (hsynced : Synced Left opts bytes reader)
    (hfill : fillBuffer env reader = .ok after) :
    (Synced Left opts bytes after ∧
        after.buffer.unread = reader.buffer.unread ++ refill env reader ∧
        (after.status.isStreamFinished = true ∨
          env.stream.good (refilled env reader) = true)) ∨
      (after.Live opts ∧ after.buffer.unread = reader.buffer.unread ∧
        after.status.isOk = false ∧
        after.status.isStreamFinished = false) := by
  have hok := fillBuffer_ok_isOk hfill
  by_cases hfails : env.stream.FailsAt reader.stream
      reader.buffer.availableWrite
  · obtain ⟨buffer, hfill', hbuffer, hunread⟩ :=
      fillBuffer_of_fails hsynced.live.valid hok hfails
    rw [Outcome.ok.inj (hfill.symm.trans hfill')]
    exact Or.inr ⟨⟨hbuffer, hsynced.live.options_eq,
      hsynced.live.message_isSome⟩, hunread, rfl, rfl⟩
  · obtain ⟨after', hfill', -, hfilled⟩ :=
      fillBuffer_synced hsynced hok fun _ hleft =>
        (hsound.read _ hleft).resolve_right hfails
    rw [Outcome.ok.inj (hfill.symm.trans hfill')]
    exact Or.inl hfilled

theorem fillBuffer_not_isFinished (hfill : fillBuffer env reader = .ok after) :
    ¬ after.status.isFinished = true := by
  intro hfinished
  have hvalue : after.status.value = .finished := by
    simpa [ReaderStatus.isFinished] using hfinished
  have hfilled := fillBuffer_value hfill
  simp [hvalue] at hfilled

/-- After a refill that failed, the loop decodes the same incomplete bytes
again and does not return. -/
theorem run_ne_ok_of_failed {state : DecodeState σ ς Opts Content}
    (hready : state.Ready opts)
    (hanswer : env.answer opts state.reader.buffer.unread =
      .error .partialMsg)
    (hok : state.reader.status.isOk = false)
    (hstatus : state.reader.status.isStreamFinished = false) :
    run (decodeIteration env) fuel state ≠ .ok after := by
  cases fuel with
  | zero => simp
  | succ fuel =>
      obtain ⟨before, -, hrefills, -, hiteration⟩ :=
        decodeIteration_of_partial hready hanswer hstatus
      rw [← hrefills.status_eq] at hok
      rw [fillBuffer_of_not_ok hok, Outcome.fault_bind] at hiteration
      rw [run_succ_of_fault hiteration]
      simp

/-- A `decode_one` that returned and needed at most one refill has advanced. -/
theorem decodeOne_advanced (hsound : env.stream.SoundReads Left)
    (hsynced : Synced Left opts bytes reader)
    (hrefill : OneRefillSuffices env opts reader)
    (hdecode : decodeOne env fuel reader = .ok after) :
    Advanced env Left opts bytes after := by
  rw [decodeOne, if_pos hsynced.notFinished] at hdecode
  have hready := hsynced.live.ready false
  rcases run_ok_cases hdecode with hdone | ⟨next, rest, hagain, hrest⟩
  · exact decodeIteration_advanced hready hsynced hdone
  have hanswer := decodeIteration_again_answer hready hagain
  obtain ⟨before, hrefills, -⟩ := decodeIteration_again hagain
  have hstatus := hrefills.not_streamFinished
  obtain ⟨content, hiteration⟩ :=
    decodeIteration_refill hsynced.live hanswer hstatus
  have hcleared : Synced Left opts bytes
      { reader with message_ := some content } :=
    ⟨⟨hsynced.live.valid, hsynced.live.options_eq, rfl⟩, hsynced.started,
      hsynced.source⟩
  obtain ⟨filled, hfill, hnext⟩ :=
    Outcome.bind_ok_eq_ok_iff.mp (hiteration.symm.trans hagain)
  obtain rfl := Step.again.inj hnext
  rcases fillBuffer_sound hsound hcleared hfill with
    ⟨hfilled, hunread, hended⟩ | ⟨hfilled, hunread, hok, hopen⟩
  · have hready' := hfilled.live.ready true
    rcases run_ok_cases hrest with hdone | ⟨last, more, hagain', -⟩
    · exact decodeIteration_advanced hready' hfilled hdone
    -- a second incomplete answer contradicts the condition on the refill
    exfalso
    have hanswer' := decodeIteration_again_answer hready' hagain'
    obtain ⟨before', hrefills', -⟩ := decodeIteration_again hagain'
    have hstatus' := hrefills'.not_streamFinished
    have hgood := hended.resolve_left (Bool.eq_false_iff.mp hstatus')
    rcases hrefill with h | h | h | h
    · exact absurd h (Bool.eq_false_iff.mp hstatus)
    · exact h hanswer
    · exact absurd (hgood.symm.trans h) (by simp)
    · exact h (hunread ▸ hanswer')
  · have hsame : env.answer opts filled.buffer.unread =
        .error .partialMsg := by
      rw [hunread]
      exact hanswer
    exact absurd hrest
      (run_ne_ok_of_failed (hfilled.ready true) hsame hok hopen)

/-! ## The client loop -/

/-- A client loop that goes on after a `decode_one` ends with the status left
by the last `decode_one`. -/
theorem readAll_last {calls : ℕ} {messages : List (Message Content)}
    {status : ReaderStatus ς} (hpoint : DecodePoint env fuel fresh reader)
    (hdecode : decodeOne env fuel reader = .ok after)
    (hread : readAll env fuel calls after = .ok (messages, status, final)) :
    status = final.status ∧ ∃ point, DecodePoint env fuel fresh point ∧
      decodeOne env fuel point = .ok final := by
  induction calls generalizing reader after messages with
  | zero => simp [readAll] at hread
  | succ calls ih =>
      have hstarted : after.started = true :=
        (decodeOne_started hdecode).trans hpoint.started
      rcases readAll_cases hstarted hread with
        ⟨-, -, rfl, rfl⟩ | ⟨hnot, next, more, rest, hcalls, hnext, -, hmore⟩
      · exact ⟨rfl, reader, hpoint, hdecode⟩
      · obtain rfl := Nat.succ.inj hcalls
        exact ih (hpoint.next hdecode hnot) hnext hmore

/-- A client loop on a fresh reader ends with its initial fill or with some
`decode_one`. -/
theorem readAll_final {calls : ℕ} {messages : List (Message Content)}
    {status : ReaderStatus ς} (hfresh : fresh.started = false)
    (hread : readAll env fuel calls fresh = .ok (messages, status, final)) :
    status = final.status ∧
      ((fillBuffer env { fresh with started := true } = .ok final ∧
          final.status.notFinished = false) ∨
        ∃ point, DecodePoint env fuel fresh point ∧
          decodeOne env fuel point = .ok final) := by
  obtain ⟨after, hstart, hstarted, hrest⟩ := readAll_start hread
  rw [start, if_neg (by simp [hfresh])] at hstart
  obtain ⟨filled, hfill, hdecode⟩ := Outcome.bind_eq_ok_iff.mp hstart
  cases hnot : filled.status.notFinished with
  | true =>
      rw [if_pos hnot] at hdecode
      obtain ⟨hstatus, hlast⟩ := readAll_last (.first hfill hnot) hdecode hrest
      exact ⟨hstatus, Or.inr hlast⟩
  | false =>
      rw [if_neg (by simp [hnot])] at hdecode
      obtain rfl := Outcome.ok.inj hdecode
      rcases readAll_cases hstarted hrest with
        ⟨-, -, rfl, rfl⟩ | ⟨hopen, -⟩
      · exact ⟨rfl, Or.inl ⟨hfill, hnot⟩⟩
      · exact absurd (hopen.symm.trans hnot) (by simp)

theorem DecodePoint.isOk (hpoint : DecodePoint env fuel fresh reader) :
    fresh.status.isOk = true := by
  induction hpoint with
  | first hfill _ =>
      have hok := fillBuffer_ok_isOk hfill
      exact hok
  | next _ _ _ ih => exact ih

/-- A client loop that returns was called on a reader in status `OK`. -/
theorem readAll_isOk {calls : ℕ} {messages : List (Message Content)}
    {status : ReaderStatus ς} (hfresh : fresh.started = false)
    (hread : readAll env fuel calls fresh = .ok (messages, status, final)) :
    fresh.status.isOk = true := by
  obtain ⟨-, ⟨hfill, -⟩ | ⟨point, hpoint, -⟩⟩ := readAll_final hfresh hread
  · have hok := fillBuffer_ok_isOk hfill
    exact hok
  · exact hpoint.isOk

/-- An invariant of status and stream holds at every decode point. -/
theorem StatusInvariant.decodePoint {Inv : StatusValue → σ → Prop}
    (hinvariant : StatusInvariant env Inv) (hinv : fresh.Satisfies Inv)
    (hpoint : DecodePoint env fuel fresh reader) : reader.Satisfies Inv := by
  induction hpoint with
  | first hfill _ =>
      have hstarted : { fresh with started := true }.Satisfies Inv := hinv
      exact hinvariant.fillBuffer hstarted hfill
  | next _ hdecode _ ih => exact hinvariant.decodeOne ih hdecode

/-- An invariant of status and stream holds at the end of the client loop. -/
theorem StatusInvariant.readAll {Inv : StatusValue → σ → Prop}
    (hinvariant : StatusInvariant env Inv) (hinv : fresh.Satisfies Inv)
    (hfresh : fresh.started = false) {calls : ℕ}
    {messages : List (Message Content)} {status : ReaderStatus ς}
    (hread : Reader.readAll env fuel calls fresh =
      .ok (messages, status, final)) : final.Satisfies Inv := by
  have hstarted : { fresh with started := true }.Satisfies Inv := hinv
  obtain ⟨-, ⟨hfill, -⟩ | ⟨point, hpoint, hdecode⟩⟩ :=
    readAll_final hfresh hread
  · exact hinvariant.fillBuffer hstarted hfill
  · exact hinvariant.decodeOne (hinvariant.decodePoint hinv hpoint) hdecode

theorem DecodePoint.notFinished (hpoint : DecodePoint env fuel fresh reader) :
    reader.status.notFinished = true := by
  cases hpoint with
  | first _ hnot => exact hnot
  | next _ _ hnot => exact hnot

/-- A client loop ends in an incomplete message only behind the end of the
stream. -/
theorem StatusInvariant.readAll_incomplete {Inv : StatusValue → σ → Prop}
    (hinvariant : StatusInvariant env Inv) (hinv : fresh.Satisfies Inv)
    (hfresh : fresh.started = false) {calls : ℕ}
    {messages : List (Message Content)} {status : ReaderStatus ς}
    (hread : Reader.readAll env fuel calls fresh =
      .ok (messages, status, final))
    (hincomplete : status = .ofDecoder .partialMsg) :
    Inv .streamFinished final.stream := by
  obtain ⟨rfl, ⟨hfill, -⟩ | ⟨point, hpoint, hdecode⟩⟩ :=
    readAll_final hfresh hread
  · have hfilled := fillBuffer_value hfill
    simp [hincomplete, ReaderStatus.ofDecoder] at hfilled
  · exact hinvariant.decodeOne_incomplete (hinvariant.decodePoint hinv hpoint)
      hpoint.notFinished hdecode hincomplete

section Fresh

variable (hsound : env.stream.SoundReads Left) {input : List UInt8}
variable (hsynced : Synced Left opts input { fresh with started := true })
include hsound hsynced

/-- In a run that never grows the buffer, every `decode_one` starts at a
message boundary. -/
theorem DecodePoint.windowBoundary
    (hrefill : ∀ reader, DecodePoint env fuel fresh reader →
      OneRefillSuffices env opts reader)
    (hpoint : DecodePoint env fuel fresh reader) :
    ∃ bytes, WindowBoundary (env.answer opts) input bytes ∧
      Synced Left opts bytes reader := by
  induction hpoint with
  | first hfill hnot =>
      rcases fillBuffer_sound hsound hsynced hfill with
        ⟨hfilled, -⟩ | ⟨-, -, hok, hopen⟩
      · exact ⟨input, .start, hfilled⟩
      · simp [ReaderStatus.notFinished, hok, hopen] at hnot
  | @next reader after hpoint hdecode hnot ih =>
      obtain ⟨bytes, hboundary, hpart⟩ := ih
      cases decodeOne_advanced hsound hpart (hrefill _ hpoint) hdecode with
      | message hwindow hanswer hlen hafter =>
          exact ⟨_, hboundary.next hwindow hanswer hlen, hafter⟩
      | final hended _ => exact absurd (hnot.symm.trans hended) (by simp)

/-- A run that never grows the buffer is `FINISHED` only if the content is a
concatenation of whole messages. -/
theorem wholeMessages_of_isFinished (hfresh : fresh.started = false)
    {calls : ℕ} {messages : List (Message Content)} {status : ReaderStatus ς}
    (hrefill : ∀ reader, DecodePoint env fuel fresh reader →
      OneRefillSuffices env opts reader)
    (hread : readAll env fuel calls fresh = .ok (messages, status, final))
    (hfinished : status.isFinished = true) :
    WholeMessages (env.answer opts) input := by
  obtain ⟨rfl, ⟨hfill, -⟩ | ⟨point, hpoint, hdecode⟩⟩ :=
    readAll_final hfresh hread
  · exact absurd hfinished (fillBuffer_not_isFinished hfill)
  · obtain ⟨bytes, hboundary, hpart⟩ :=
      hpoint.windowBoundary hsound hsynced hrefill
    cases decodeOne_advanced hsound hpart (hrefill _ hpoint) hdecode with
    | message _ _ _ hafter =>
        have hnot := hafter.notFinished
        rw [ReaderStatus.notFinished_of_final (by simp [hfinished])] at hnot
        simp at hnot
    | final _ hnil =>
        rw [WholeMessages, ← hnil hfinished]
        exact hboundary

end Fresh

end ParseBgp.Io.Reader
