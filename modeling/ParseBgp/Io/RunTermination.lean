import ParseBgp.Io.DecodeTermination
import ParseBgp.Io.MessageOrder

/-!
# Does a run return?

A client asks for messages until the result is an error.  While growing the
buffer succeeds, the content bounds both loops of such a run: the bytes left in
the stream bound the iterations of every `decode_one`, and the bytes that no
message has taken yet bound the calls.
-/

namespace ParseBgp.Io.Reader

open Loop WholeInput

variable {σ ς Opts Content : Type}

/-- The successes of the decoder report at least one byte. -/
def ReportsProgress (env : ReaderEnv σ ς Opts Content) (opts : Opts) : Prop :=
  ∀ {bytes : List UInt8} {len : ℕ} {content : Content},
    env.answer opts bytes = .ok (len, content) → 0 < len

/-- No `reserve` of a client loop on `fresh` fails. -/
def GrowthSucceeds (env : ReaderEnv σ ς Opts Content) (fuel : ℕ)
    (fresh : Reader σ ς Opts Content) : Prop :=
  ∀ reader, DecodePoint env fuel fresh reader →
    ∀ buffer index, ¬ ReserveFails env reader buffer index

variable {env : ReaderEnv σ ς Opts Content} {opts : Opts}
variable {Left : σ → List UInt8 → Prop} {input : List UInt8} {fuel : ℕ}
variable {reader after fresh : Reader σ ς Opts Content}

/-- Where every mapping of at least one byte can be created no `reserve`
fails. -/
theorem growthSucceeds_of_positive
    (hmirrors : ∀ index request, 0 < request →
      env.mirrors.create index request ≠ none) :
    GrowthSucceeds env fuel fresh := by
  rintro reader - buffer index ⟨state, newCapacity, after, -, -, hfails⟩
  obtain ⟨hcapacity, hnone⟩ :=
    MirroredRingBuffer.create_eq_none_of_reserve hfails
  exact hmirrors index newCapacity (Nat.zero_lt_of_lt hcapacity) hnone

/-- The stream has no more bytes left than the reader has not passed yet. -/
theorem Within.bounded (hwithin : Within Left opts input reader) :
    Bounded Left (input.length + 2)
      (.enter reader false : DecodeState σ ς Opts Content) := by
  obtain ⟨skipped, bytes, rfl, hahead⟩ := hwithin
  intro hok
  obtain ⟨left, hleft, rfl⟩ := hahead.source hok
  refine ⟨left, hleft, ?_⟩
  simp only [DecodeState.enter, Bool.false_eq_true, if_false,
    List.length_append]
  omega

/-- A `decode_one` returns after at most two iterations more than there are
bytes that the reader has not passed yet. -/
theorem Steady.exists_decodeOne (hchunked : env.stream.ChunkedReads Left)
    (hreports : ReportsGiven env) (hsteady : reader.Steady Left opts)
    (hwithin : Within Left opts input reader)
    (hnot : reader.status.notFinished = true)
    (hsucceeds : ∀ buffer index, ¬ ReserveFails env reader buffer index)
    (hfuel : input.length + 2 < fuel) :
    ∃ after, decodeOne env fuel reader = .ok after ∧
      after.Steady Left opts := by
  have hrunning : Running env Left opts reader (input.length + 2)
      (.enter reader false) := hsteady.running hnot hwithin.bounded
  obtain ⟨after, hrun, hafter⟩ := run_returns_within
    (fun _ _ => Running.step hchunked hreports hsucceeds) hfuel hrunning
  exact ⟨after, by rw [decodeOne, if_pos hnot, hrun], hafter⟩

/-- A run over an error-free stream ends at its end or in the decoder. -/
theorem Steady.value_of_ended (hsteady : reader.Steady Left opts)
    (hended : reader.status.notFinished = false) :
    reader.status.value = .finished ∨ reader.status.value = .decoderError := by
  have hregular := hsteady.regular
  cases hvalue : reader.status.value <;>
    simp_all [regularValues, ReaderStatus.notFinished, ReaderStatus.isOk,
      ReaderStatus.isStreamFinished]

section Run

variable (hchunked : env.stream.ChunkedReads Left)
variable (hreports : ReportsGiven env)
variable (hprogress : ReportsProgress env opts)
variable (hgrows : GrowthSucceeds env fuel fresh)
include hchunked hreports hprogress hgrows

/-- From a reader that has taken its message on, the client loop returns: every
further message takes at least one byte. -/
theorem Taken.exists_readAll (htaken : Taken env Left opts input reader)
    (hsteady : reader.Steady Left opts) (hstarted : reader.started = true)
    (hpoint : reader.status.notFinished = true →
      DecodePoint env fuel fresh reader)
    (hfuel : input.length + 2 < fuel) {calls : ℕ}
    (hcalls : input.length < calls) :
    ∃ messages final,
      readAll env fuel calls reader = .ok (messages, final.status, final) ∧
        final.Steady Left opts ∧ final.status.notFinished = false := by
  induction calls generalizing input reader with
  | zero => simp at hcalls
  | succ calls ih =>
      cases hnot : reader.status.notFinished with
      | false =>
          exact ⟨[], reader, readAll_of_ended calls hstarted hnot, hsteady, hnot⟩
      | true =>
          cases htaken with
          | final hended => exact absurd (hnot.symm.trans hended) (by simp)
          | @message skipped bytes window len content hinput hwindow hanswer
              hlen hmessage hwithin =>
              have hpos := hprogress hanswer
              have hbytes := hwindow.length_le
              have hshorter : (bytes.drop len).length < input.length := by
                rw [hinput, List.length_append, List.length_drop]
                omega
              have hhere := hpoint hnot
              obtain ⟨next, hdecode, hnext⟩ := hsteady.exists_decodeOne
                hchunked hreports hwithin hnot (hgrows reader hhere)
                (by omega : (bytes.drop len).length + 2 < fuel)
              obtain ⟨messages, final, hread, hfinal⟩ :=
                ih (decodeOne_taken hchunked.soundReads hwithin hdecode) hnext
                  ((decodeOne_started hdecode).trans hstarted)
                  (.next hhere hdecode) (by omega) (by omega)
              refine ⟨reader.message_ :: messages, final, ?_, hfinal⟩
              rw [readAll_of_notFinished calls hstarted hnot, hdecode,
                Outcome.ok_bind, hread, Outcome.ok_bind]

end Run

/-- While growing the buffer succeeds, the client loop on a new reader over an
error-free stream returns, whatever the decoder answers as long as its messages
are not empty: it ends `FINISHED` or with an error of the decoder, and its
messages were decoded from the content in order. -/
theorem readAll_returns (hchunked : env.stream.ChunkedReads Left)
    (hreports : ReportsGiven env) (hprogress : ReportsProgress env opts)
    (stream : σ) (content : Content) (bufferSize : ℕ)
    (hcreate : env.mirrors.create 0 bufferSize ≠ none) (input : List UInt8)
    (hleft : Left stream input) (fuel calls : ℕ)
    (hgrows : GrowthSucceeds env fuel
      (create env stream (some opts) (some content) bufferSize))
    (hfuel : input.length + 2 < fuel) (hcalls : input.length < calls) :
    ∃ pieces contents final,
      readAll env fuel calls
          (create env stream (some opts) (some content) bufferSize) =
        .ok (contents.map some, final.status, final) ∧
      (final.status.value = .finished ∨
        final.status.value = .decoderError) ∧
      DecodedFrom (env.answer opts) input pieces contents := by
  obtain ⟨block, hblock⟩ := Option.ne_none_iff_exists'.mp hcreate
  let fresh := create env stream (some opts) (some content) bufferSize
  have hsteady : { fresh with started := true }.Steady Left opts :=
    (steady_readerInvariant hchunked).started (create_steady hcreate hleft)
  have hahead : Ahead Left opts input { fresh with started := true } :=
    create_ahead opts content hblock hleft
  have hok : { fresh with started := true }.status.isOk = true :=
    create_isOk opts stream content hblock
  obtain ⟨filled, hfill, hfilled, hnot, -⟩ :=
    fillBuffer_chunk hchunked hsteady.live hok hleft
  have hwithin :=
    (fillBuffer_ahead hchunked.soundReads hahead hfill).within
  have hpoint : DecodePoint env fuel fresh filled := .first hfill hnot
  obtain ⟨after, hdecode, hafter⟩ := hfilled.exists_decodeOne hchunked
    hreports hwithin hnot (hgrows filled hpoint) hfuel
  have hstart : start env fuel fresh = .ok after := by
    rw [start, if_neg (by simp [fresh, create]), hfill, Outcome.ok_bind,
      if_pos hnot, hdecode]
  have hstarted := start_started hstart
  have htaken := decodeOne_taken hchunked.soundReads hwithin hdecode
  obtain ⟨messages, final, hread, hfinal, hended⟩ := htaken.exists_readAll
    hchunked hreports hprogress hgrows hafter hstarted (.next hpoint hdecode)
    hfuel hcalls
  obtain ⟨pieces, contents, rfl, hdecoded⟩ :=
    readAll_taken hchunked.soundReads htaken hstarted hread
  exact ⟨pieces, contents, final, (readAll_of_start hstart hstarted).trans hread,
    hfinal.value_of_ended hended, hdecoded⟩

/-- The buffer grows once and drops the first byte; the run still returns. -/
theorem readAll_returns_grown :
    ∃ pieces contents final,
      readAll prefixedEnv 6 4
          (create prefixedEnv ⟨[4, 1, 1], false⟩ (some ()) (some []) 1) =
        .ok (contents.map some, final.status, final) ∧
      (final.status.value = .finished ∨
        final.status.value = .decoderError) ∧
      DecodedFrom (prefixedEnv.answer ()) [4, 1, 1] pieces contents :=
  readAll_returns listStream_exactReads.chunked prefixedEnv_reportsGiven
    (fun hanswer => (prefixedEnv_lawful.consumes hanswer).1) _ [] 1
    (by simp [prefixedEnv, exactMirrors]) [4, 1, 1] rfl 6 4
    (growthSucceeds_of_positive fun _ _ hpositive => by
      simp [prefixedEnv, exactMirrors, hpositive])
    (by decide) (by decide)

end ParseBgp.Io.Reader
