import ParseBgp.Core.Pieces
import ParseBgp.Io.Instances
import ParseBgp.Io.MessageBoundaries

/-!
# Messages in the order of the stream

Growing the buffer drops its unread bytes, and a decoder may answer whatever it
wants.  Even so the reader never goes back: what it shows to the decoder always
starts what is left of the stream, possibly after bytes that it has dropped, so
no byte becomes part of two messages and the messages come in the order of the
stream.
-/

namespace ParseBgp.Io.Reader

open Loop WholeInput

variable {σ ς Opts Content : Type}

/-- `bytes` starts with the unread bytes, and as long as the status is `OK` the
stream has the rest of them. -/
structure Ahead (Left : σ → List UInt8 → Prop) (opts : Opts)
    (bytes : List UInt8) (reader : Reader σ ς Opts Content) : Prop where
  live : reader.Live opts
  unread_prefix : reader.buffer.unread <+: bytes
  source : reader.status.isOk = true →
    ∃ left, Left reader.stream left ∧ bytes = reader.buffer.unread ++ left

/-- The reader has dropped a start of `input` and is ahead of the rest. -/
def Within (Left : σ → List UInt8 → Prop) (opts : Opts) (input : List UInt8)
    (reader : Reader σ ς Opts Content) : Prop :=
  ∃ skipped bytes, input = skipped ++ bytes ∧ Ahead Left opts bytes reader

/-- A `decode_one` on a reader within `input` has taken a message from it, or
the run has ended. -/
inductive Taken (env : ReaderEnv σ ς Opts Content)
    (Left : σ → List UInt8 → Prop) (opts : Opts) (input : List UInt8)
    (after : Reader σ ς Opts Content) : Prop
  | message {skipped bytes window : List UInt8} {len : ℕ} {content : Content} :
      input = skipped ++ bytes → window <+: bytes →
        env.answer opts window = .ok (len, content) → len ≤ window.length →
          after.message_ = some content →
            Within Left opts (bytes.drop len) after →
              Taken env Left opts input after
  | final : after.status.notFinished = false → Taken env Left opts input after

variable {env : ReaderEnv σ ς Opts Content} {opts : Opts}
variable {Left : σ → List UInt8 → Prop} {input bytes : List UInt8} {fuel : ℕ}
variable {reader before after final : Reader σ ς Opts Content}

theorem Ahead.within (hahead : Ahead Left opts bytes reader) :
    Within Left opts bytes reader :=
  ⟨[], bytes, rfl, hahead⟩

/-- A fill keeps the reader ahead of the same bytes. -/
theorem fillBuffer_ahead (hsound : env.stream.SoundReads Left)
    (hahead : Ahead Left opts bytes reader)
    (hfill : fillBuffer env reader = .ok after) :
    Ahead Left opts bytes after := by
  obtain ⟨⟨hvalid, hoptions, hmessage⟩, hprefix, hsource⟩ := hahead
  have hok := fillBuffer_ok_isOk hfill
  obtain ⟨left, hleft, rfl⟩ := hsource hok
  rcases hsound.read reader.buffer.availableWrite hleft with
    ⟨rest, hsplit, hlength, hcases⟩ | hfails
  · have happend : reader.buffer.unread ++ left =
        (reader.buffer.unread ++ refill env reader) ++ rest := by
      rw [List.append_assoc, hsplit]
      rfl
    rcases hcases with ⟨hgood, hrest⟩ | ⟨hgood, heof, hnil⟩
    · obtain ⟨buffer, hfill', hbuffer, -, hunread⟩ :=
        fillBuffer_of_good hvalid hok hlength hgood
      obtain rfl := Outcome.ok.inj (hfill.symm.trans hfill')
      rw [happend, ← hunread]
      exact ⟨⟨hbuffer, hoptions, hmessage⟩, List.prefix_append _ _,
        fun _ => ⟨rest, hrest, rfl⟩⟩
    · obtain ⟨buffer, hfill', hbuffer, -, hunread⟩ :=
        fillBuffer_of_eof hvalid hok hlength hgood heof
      obtain rfl := Outcome.ok.inj (hfill.symm.trans hfill')
      rw [happend, ← hunread]
      exact ⟨⟨hbuffer, hoptions, hmessage⟩, List.prefix_append _ _,
        fun hopen => absurd hopen (by simp [ReaderStatus.isOk,
          ReaderStatus.ofValue])⟩
  · obtain ⟨buffer, hfill', hbuffer, hunread⟩ :=
      fillBuffer_of_fails hvalid hok hfails
    obtain rfl := Outcome.ok.inj (hfill.symm.trans hfill')
    refine ⟨⟨hbuffer, hoptions, hmessage⟩, ?_, fun hopen => absurd hopen
      (by simp [ReaderStatus.isOk, ReaderStatus.ofStream])⟩
    rw [afterRead_buffer, hunread]
    exact hprefix

/-- The reader that is refilled still has its unread bytes, or has dropped them
for a larger buffer. -/
theorem Ahead.refillsFrom (hahead : Ahead Left opts bytes reader)
    (hlive : before.Live opts) (hrefills : RefillsFrom reader before)
    (hunread : before.buffer.unread = reader.buffer.unread ∨
      before.buffer.unread = []) : Within Left opts bytes before := by
  obtain ⟨-, ⟨rest, hrest⟩, hsource⟩ := hahead
  rcases hunread with hsame | hlost
  · refine ⟨[], bytes, rfl, hlive, hsame ▸ ⟨rest, hrest⟩, ?_⟩
    rw [hrefills.status_eq, hrefills.stream_eq, hsame]
    exact hsource
  · refine ⟨reader.buffer.unread, rest, hrest.symm, hlive,
      hlost ▸ List.nil_prefix, ?_⟩
    rw [hrefills.status_eq, hrefills.stream_eq, hlost]
    intro hok
    obtain ⟨left, hleft, hbytes⟩ := hsource hok
    rw [← hrest] at hbytes
    exact ⟨left, hleft, List.append_cancel_left hbytes⟩

/-- One iteration that continues stays within the input. -/
theorem decodeIteration_within (hsound : env.stream.SoundReads Left)
    {state next : DecodeState σ ς Opts Content} (hready : state.Ready opts)
    (hwithin : Within Left opts input state.reader)
    (hagain : decodeIteration env state = .ok (.again next)) :
    next.Ready opts ∧ Within Left opts input next.reader := by
  obtain ⟨skipped, bytes, rfl, hahead⟩ := hwithin
  have hanswer := decodeIteration_again_answer hready hagain
  obtain ⟨_, hrefills, -⟩ := decodeIteration_again hagain
  obtain ⟨before, hlive, hrefills, hunread, hiteration⟩ :=
    decodeIteration_of_partial hready hanswer hrefills.not_streamFinished
  obtain ⟨filled, hfill, hnext⟩ :=
    Outcome.bind_ok_eq_ok_iff.mp (hiteration.symm.trans hagain)
  obtain rfl := Step.again.inj hnext
  obtain ⟨dropped, rest, rfl, hbefore⟩ :=
    hahead.refillsFrom hlive hrefills hunread
  have hfilled := fillBuffer_ahead hsound hbefore hfill
  refine ⟨hfilled.live.ready true, skipped ++ dropped, rest, ?_, hfilled⟩
  rw [List.append_assoc]

/-- One iteration that ends the loop takes a message or ends the run. -/
theorem decodeIteration_taken {state : DecodeState σ ς Opts Content}
    (hready : state.Ready opts)
    (hwithin : Within Left opts input state.reader)
    (hdone : decodeIteration env state = .ok (.done after)) :
    Taken env Left opts input after := by
  obtain ⟨skipped, bytes, hinput, hahead⟩ := hwithin
  rcases decodeIteration_done_cases hready hdone with
    ⟨len, content, buffer, hanswer, hlen, hbuffer, hunread, rfl⟩ |
      ⟨error, content, -, -, rfl⟩
  · refine .message hinput hahead.unread_prefix hanswer hlen rfl ?_
    have hrest : Ahead Left opts (bytes.drop len)
        { state.reader with message_ := some content, buffer := buffer } := by
      refine ⟨⟨hbuffer, hahead.live.options_eq, rfl⟩, ?_, ?_⟩
      · rw [hunread]
        exact hahead.unread_prefix.drop len
      · intro hok
        obtain ⟨left, hleft, hbytes⟩ := hahead.source hok
        refine ⟨left, hleft, ?_⟩
        rw [hbytes, List.drop_append_of_le_length hlen, ← hunread]
    exact hrest.within
  · exact .final (notFinished_endStatus _ _)

/-- A `decode_one` that returns takes at most one message, from the bytes the
reader has not passed yet. -/
theorem decodeOne_taken (hsound : env.stream.SoundReads Left)
    (hwithin : Within Left opts input reader)
    (hdecode : decodeOne env fuel reader = .ok after) :
    Taken env Left opts input after := by
  unfold decodeOne at hdecode
  split at hdecode
  · let Inv (state : DecodeState σ ς Opts Content) : Prop :=
      state.Ready opts ∧ Within Left opts input state.reader
    have hagain : ∀ state next, Inv state →
        decodeIteration env state = .ok (.again next) → Inv next :=
      fun _ _ hinv => decodeIteration_within hsound hinv.1 hinv.2
    have hdone : ∀ state result, Inv state →
        decodeIteration env state = .ok (.done result) →
          Taken env Left opts input result :=
      fun _ _ hinv => decodeIteration_taken hinv.1 hinv.2
    obtain ⟨skipped, bytes, hinput, hahead⟩ := hwithin
    have hstart : Inv (.enter reader false) :=
      ⟨hahead.live.ready false, skipped, bytes, hinput, hahead⟩
    exact run_ok_of_invariant hagain hdone hstart hdecode
  · next hended =>
    obtain rfl := Outcome.ok.inj hdecode
    exact .final (Bool.not_eq_true _ ▸ hended)

/-- From a reader that has taken its message on, the client loop yields messages
from pieces of the input. -/
theorem readAll_taken (hsound : env.stream.SoundReads Left) {calls : ℕ}
    {messages : List (Message Content)} {status : ReaderStatus ς}
    (htaken : Taken env Left opts input reader)
    (hstarted : reader.started = true)
    (hread : readAll env fuel calls reader = .ok (messages, status, final)) :
    ∃ pieces contents, messages = contents.map some ∧
      DecodedFrom (env.answer opts) input pieces contents := by
  induction calls generalizing input reader messages with
  | zero => simp [readAll] at hread
  | succ calls ih =>
      rcases readAll_cases hstarted hread with
        ⟨-, rfl, -, -⟩ | ⟨hnot, next, more, rest, hcalls, hnext, rfl, hmore⟩
      · exact ⟨[], [], rfl, .nil⟩
      obtain rfl := Nat.succ.inj hcalls
      cases htaken with
      | final hended => exact absurd (hnot.symm.trans hended) (by simp)
      | @message skipped bytes window len content hinput hwindow hanswer hlen
          hmessage hwithin =>
          obtain ⟨pieces, contents, rfl, hpieces⟩ :=
            ih (decodeOne_taken hsound hwithin hnext)
              ((decodeOne_started hnext).trans hstarted) hmore
          refine ⟨window.take len :: pieces, content :: contents, ?_, ?_⟩
          · rw [hmessage, List.map_cons]
          · rw [hinput]
            exact .cons hwindow hanswer hlen hpieces

/-- A new reader is ahead of the whole content. -/
theorem create_ahead (opts : Opts) {stream : σ} (content : Content)
    {bufferSize : ℕ} {block : MirroredMemory.Block UInt8}
    (hcreate : env.mirrors.create 0 bufferSize = some block)
    (hleft : Left stream input) :
    Ahead Left opts input
      { create env stream (some opts) (some content) bufferSize with
        started := true } := by
  obtain ⟨hvalid, -, hunread⟩ := MirroredRingBuffer.create_valid hcreate
  refine ⟨⟨hvalid, rfl, rfl⟩, ?_, fun _ => ⟨input, hleft, ?_⟩⟩
  · change (MirroredRingBuffer.create env.mirrors 0 bufferSize).unread <+: _
    rw [hunread]
    exact List.nil_prefix
  · change input =
      (MirroredRingBuffer.create env.mirrors 0 bufferSize).unread ++ input
    rw [hunread, List.nil_append]

/-- Whatever the decoder answers, however the stream cuts its content into reads
or fails, and however often the buffer grows: the messages of a run that returns
were decoded from the content in order, and no byte of it is part of two of
them. -/
theorem readAll_decodedFrom (hsound : env.stream.SoundReads Left)
    (stream : σ) (content : Content) (bufferSize : ℕ) (input : List UInt8)
    (hleft : Left stream input) (fuel calls : ℕ)
    (messages : List (Message Content)) (status : ReaderStatus ς)
    (final : Reader σ ς Opts Content)
    (hread : readAll env fuel calls
        (create env stream (some opts) (some content) bufferSize) =
      .ok (messages, status, final)) :
    ∃ pieces contents, messages = contents.map some ∧
      DecodedFrom (env.answer opts) input pieces contents ∧
      pieces.flatten.Sublist input := by
  suffices hpieces : ∃ pieces contents, messages = contents.map some ∧
      DecodedFrom (env.answer opts) input pieces contents by
    obtain ⟨pieces, contents, hmessages, hdecoded⟩ := hpieces
    exact ⟨pieces, contents, hmessages, hdecoded, hdecoded.flatten_sublist⟩
  obtain ⟨block, hcreate⟩ := create_of_isOk (readAll_isOk rfl hread)
  have hahead := create_ahead opts content hcreate hleft
  obtain ⟨after, hstart, hstarted, hrest⟩ := readAll_start hread
  rw [start, if_neg (by simp [create])] at hstart
  obtain ⟨filled, hfill, hdecode⟩ := Outcome.bind_eq_ok_iff.mp hstart
  have hfilled := fillBuffer_ahead hsound hahead hfill
  refine readAll_taken hsound ?_ hstarted hrest
  split at hdecode
  · exact decodeOne_taken hsound hfilled.within hdecode
  · next hended =>
    obtain rfl := Outcome.ok.inj hdecode
    exact .final (Bool.not_eq_true _ ▸ hended)

/-- The buffer grows once and drops the first byte; the other two are decoded as
two messages. -/
theorem readAll_decodedFrom_grown :
    ∃ pieces contents,
      [some [1], some [1]] = contents.map (some (α := List UInt8)) ∧
      DecodedFrom (prefixedEnv.answer ()) [4, 1, 1] pieces contents ∧
      pieces.flatten.Sublist [4, 1, 1] :=
  readAll_decodedFrom listStream_exactReads.chunked.soundReads ⟨_, false⟩ [] 1
    [4, 1, 1] rfl 4 3 _ (.ofValue .finished) _
    (rfl : readAll prefixedEnv 4 3
      (create prefixedEnv ⟨[4, 1, 1], false⟩ (some ()) (some []) 1) = _)

end ParseBgp.Io.Reader
