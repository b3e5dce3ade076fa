import ParseBgp.Io.Instances
import ParseBgp.Io.Streaming

/-!
# Range-for over a reader

`for (auto msg : reader)` tests the status, dereferences the iterator, runs the
body and increments the iterator.  The first dereference decodes the first
message, the increments decode all others, and the test against the sentinel
sees the status before the body can see the error of an increment.
-/

namespace ParseBgp.Io.Reader

open Loop WholeInput

variable {σ ς Opts Content τ : Type}

/-- The loop, at most `rounds` tests of its condition: the elements its body is
run on, and the reader afterwards. -/
def rangeFor (env : ReaderEnv σ ς Opts Content)
    (transformer : TransformInput ς Content → τ) (fuel : ℕ) :
    ℕ → Reader σ ς Opts Content →
      Outcome Fault (List τ × Reader σ ς Opts Content)
  | 0, _ => .outOfFuel
  | rounds + 1, reader =>
      if reader.notAtEnd then
        (dereference env transformer fuel reader).bind fun (reader, msg) =>
          (increment env fuel reader).bind fun reader =>
            (rangeFor env transformer fuel rounds reader).bind fun rest =>
              .ok (msg :: rest.1, rest.2)
      else .ok ([], reader)

/-- The promise of the loop, given the messages and the final status of a run
of the reader: the body sees each message once, in order, and after them the
status if and only if it is a decoder error. -/
def ShowsEachOnce (env : ReaderEnv σ ς Opts Content) (fuel rounds : ℕ)
    (reader : Reader σ ς Opts Content) (messages : List (Message Content))
    (status : ReaderStatus ς) : Prop :=
  ∃ last, rangeFor env identityTransform fuel rounds reader =
      .ok (messages.map .ok ++
        (if status.isDecoderError then [.error status] else []), last) ∧
    last.status = status

variable {env : ReaderEnv σ ς Opts Content} {opts : Opts} {fuel : ℕ}
variable {reader after final : Reader σ ς Opts Content}
variable {messages : List (Message Content)} {status : ReaderStatus ς}

theorem rangeFor_of_ended {rounds : ℕ}
    (transformer : TransformInput ς Content → τ)
    (hended : reader.status.notFinished = false) :
    rangeFor env transformer fuel (rounds + 1) reader = .ok ([], reader) := by
  simp [rangeFor, notAtEnd, hended]

/-- Once the reader is started, the body sees the messages that the client loop
yields from there on, and nothing else. -/
theorem rangeFor_of_started {calls rounds : ℕ}
    (hstarted : reader.started = true) (hrounds : calls ≤ rounds)
    (hread : readAll env fuel calls reader = .ok (messages, status, final)) :
    rangeFor env identityTransform fuel rounds reader =
        .ok (messages.map .ok, final) ∧
      final.status = status := by
  induction calls generalizing reader messages rounds with
  | zero => simp [readAll] at hread
  | succ calls ih =>
      obtain ⟨rounds, rfl⟩ := Nat.exists_eq_add_of_le' (Nat.one_le_of_lt hrounds)
      rcases readAll_cases hstarted hread with
        ⟨hended, rfl, rfl, rfl⟩ |
          ⟨hnot, next, more, rest, hcalls, hnext, rfl, hmore⟩
      · exact ⟨rangeFor_of_ended identityTransform hended, rfl⟩
      · obtain rfl := Nat.succ.inj hcalls
        have hstarted' : next.started = true :=
          (decodeOne_started hnext).trans hstarted
        obtain ⟨hshown, hstatus⟩ :=
          ih hstarted' (Nat.le_of_succ_le_succ hrounds) hmore
        refine ⟨?_, hstatus⟩
        simp only [rangeFor, notAtEnd, hnot, if_true, dereference,
          message_of_started identityTransform hstarted, Outcome.ok_bind,
          current, identityTransform, increment, hnext, hshown, List.map_cons]

/-- A first dereference that delivers a message leaves the loop as if the
reader had been started before it. -/
theorem rangeFor_of_start {rounds : ℕ}
    (transformer : TransformInput ς Content → τ)
    (hnot : reader.status.notFinished = true)
    (hstart : start env fuel reader = .ok after)
    (hnot' : after.status.notFinished = true) :
    rangeFor env transformer fuel rounds reader =
      rangeFor env transformer fuel rounds after := by
  cases rounds with
  | zero => rfl
  | succ rounds =>
      simp only [rangeFor, notAtEnd, hnot, hnot', if_true, dereference,
        message_of_started transformer (start_started hstart)]
      simp only [message, hstart, Outcome.ok_bind]

/-- What the body of the loop sees: the messages of the run, and the final
status if there are none. -/
theorem rangeFor_of_readAll {calls rounds : ℕ}
    (hnot : reader.status.notFinished = true) (hrounds : calls < rounds)
    (hread : readAll env fuel calls reader = .ok (messages, status, final)) :
    rangeFor env identityTransform fuel rounds reader =
        .ok (messages.map .ok ++
          (if messages = [] then [.error status] else []), final) ∧
      final.status = status := by
  obtain ⟨after, hstart, hstarted, hrest⟩ := readAll_start hread
  rcases readAll_cases hstarted hrest with
    ⟨hended, rfl, rfl, rfl⟩ | ⟨hopen, next, more, rest, rfl, -, rfl, -⟩
  · -- the first dereference shows the status, and the increment after it does
    -- nothing
    cases calls with
    | zero => simp [readAll] at hread
    | succ calls =>
        obtain ⟨rounds, rfl⟩ :=
          Nat.exists_eq_add_of_le' (by omega : 2 ≤ rounds)
        refine ⟨?_, rfl⟩
        simp only [rangeFor, notAtEnd, hnot, if_true, dereference, message,
          hstart, Outcome.ok_bind, current, identityTransform, hended,
          Bool.false_eq_true, if_false, increment,
          decodeOne_of_ended hended, List.map_nil, List.nil_append]
  · obtain ⟨hshown, hstatus⟩ :=
      rangeFor_of_started hstarted (Nat.le_of_lt hrounds) hrest
    refine ⟨?_, hstatus⟩
    rw [rangeFor_of_start identityTransform hnot hstart hopen, hshown,
      if_neg (by simp), List.append_nil]

/-- The loop keeps its promise exactly if the run has no messages or does not
fail, but not both. -/
theorem showsEachOnce_of_readAll {calls rounds : ℕ}
    (hnot : reader.status.notFinished = true) (hrounds : calls < rounds)
    (hread : readAll env fuel calls reader = .ok (messages, status, final)) :
    ShowsEachOnce env fuel rounds reader messages status ↔
      (messages = [] ↔ status.isDecoderError = true) := by
  obtain ⟨hshown, hstatus⟩ := rangeFor_of_readAll hnot hrounds hread
  have hextra : ShowsEachOnce env fuel rounds reader messages status ↔
      (if messages = [] then [(.error status : TransformInput ς Content)]
        else []) =
      (if status.isDecoderError then [.error status] else []) := by
    constructor
    · rintro ⟨last, hrun, -⟩
      rw [hshown] at hrun
      have hlists := (Prod.mk.inj (Outcome.ok.inj hrun)).1
      exact List.append_cancel_left hlists
    · intro hlists
      exact ⟨final, by rw [hshown, hlists], hstatus⟩
  rw [hextra]
  by_cases hnil : messages = [] <;>
    cases herror : status.isDecoderError <;> simp [hnil]

/-- A range-for over a new reader shows each message and each error exactly
once if and only if either a message was decoded and the run did not fail, or
none was decoded and it failed.  Over a whole content: if it is empty the body
sees an error that is none, and if a message comes before the one that cannot be
decoded the error is not seen. -/
theorem rangeFor_shows_each_once_iff (stream : σ) (content : Content)
    (bufferSize : ℕ) (block : MirroredMemory.Block UInt8)
    (hcreate : env.mirrors.create 0 bufferSize = some block) (fuel : ℕ) :
    (∀ calls rounds messages status final, calls < rounds →
      readAll env fuel calls
          (create env stream (some opts) (some content) bufferSize) =
        .ok (messages, status, final) →
      (ShowsEachOnce env fuel rounds
          (create env stream (some opts) (some content) bufferSize)
          messages status ↔
        (messages = [] ↔ status.isDecoderError = true))) ∧
    (∀ (Left : σ → List UInt8 → Prop) (input : List UInt8) (rounds : ℕ),
      Lawful (env.answer opts) .partialMsg → env.stream.ChunkedReads Left →
      Left stream input → 2 ≤ fuel →
      (∀ reader, DecodePoint env fuel
          (create env stream (some opts) (some content) bufferSize) reader →
        OneRefillSuffices env opts reader) →
      input.length + 1 < rounds →
      (ShowsEachOnce env fuel rounds
          (create env stream (some opts) (some content) bufferSize)
          ((reference (env.answer opts) input).1.map some)
          (statusOf (reference (env.answer opts) input).2) ↔
        ((reference (env.answer opts) input).1 = [] ↔
          (reference (env.answer opts) input).2 ≠ .finished))) := by
  have hnot : (create env stream (some opts) (some content)
      bufferSize).status.notFinished = true :=
    ReaderStatus.notFinished_of_isOk (create_isOk opts stream content hcreate)
  constructor
  · intro calls rounds messages status final hrounds hread
    exact showsEachOnce_of_readAll hnot hrounds hread
  · intro Left input rounds hlawful hchunked hleft hfuel hrefill hrounds
    obtain ⟨final, hread⟩ := readAll_create hlawful hchunked hcreate hleft
      hfuel hrefill (Nat.lt_succ_self input.length)
    rw [showsEachOnce_of_readAll hnot hrounds hread, List.map_eq_nil_iff,
      isDecoderError_statusOf]

/-- A stream of two messages, of which the second is refilled behind `++`. -/
theorem rangeFor_shows_each_once_iff_two :
    ShowsEachOnce prefixedEnv 2 5
      (create prefixedEnv ⟨[2, 7, 3, 8, 9], false⟩ (some ()) (some []) 4)
      [some [2, 7], some [3, 8, 9]] (.ofValue .finished) := by
  have hcreate : prefixedEnv.mirrors.create 0 4 =
      some ⟨4, fun _ => 0, by decide⟩ := rfl
  obtain ⟨final, hread⟩ : ∃ final, readAll prefixedEnv 2 4
      (create prefixedEnv ⟨[2, 7, 3, 8, 9], false⟩ (some ()) (some []) 4) =
        .ok ([some [2, 7], some [3, 8, 9]], .ofValue .finished, final) :=
    ⟨_, rfl⟩
  exact ((rangeFor_shows_each_once_iff _ _ _ _ hcreate 2).1 4 5 _ _ _
    (by decide) hread).mpr (by decide)

/-- The body sees an unexpected `FINISHED` on an empty stream, and does not see
the error that follows a first message. -/
theorem not_showsEachOnce :
    (∃ final, readAll prefixedEnv 2 2
        (create prefixedEnv ⟨[], false⟩ (some ()) (some []) 4) =
          .ok ([], .ofValue .finished, final) ∧
      rangeFor prefixedEnv identityTransform 2 4
        (create prefixedEnv ⟨[], false⟩ (some ()) (some []) 4) =
          .ok ([.error (.ofValue .finished)], final) ∧
      ¬ ShowsEachOnce prefixedEnv 2 4
        (create prefixedEnv ⟨[], false⟩ (some ()) (some []) 4)
        [] (.ofValue .finished)) ∧
    (∃ final, readAll prefixedEnv 2 3
        (create prefixedEnv ⟨[2, 7, 0], false⟩ (some ()) (some []) 4) =
          .ok ([some [2, 7]], .ofDecoder .invalidMsg, final) ∧
      rangeFor prefixedEnv identityTransform 2 4
        (create prefixedEnv ⟨[2, 7, 0], false⟩ (some ()) (some []) 4) =
          .ok ([.ok (some [2, 7])], final) ∧
      ¬ ShowsEachOnce prefixedEnv 2 4
        (create prefixedEnv ⟨[2, 7, 0], false⟩ (some ()) (some []) 4)
        [some [2, 7]] (.ofDecoder .invalidMsg)) := by
  constructor
  · obtain ⟨final, hread, hshown⟩ : ∃ final, readAll prefixedEnv 2 2
          (create prefixedEnv ⟨[], false⟩ (some ()) (some []) 4) =
            .ok ([], .ofValue .finished, final) ∧
        rangeFor prefixedEnv identityTransform 2 4
          (create prefixedEnv ⟨[], false⟩ (some ()) (some []) 4) =
            .ok ([.error (.ofValue .finished)], final) := ⟨_, rfl, rfl⟩
    refine ⟨final, hread, hshown, ?_⟩
    rintro ⟨last, hrun, -⟩
    rw [hshown] at hrun
    simp [ReaderStatus.isDecoderError, ReaderStatus.ofValue] at hrun
  · obtain ⟨final, hread, hshown⟩ : ∃ final, readAll prefixedEnv 2 3
          (create prefixedEnv ⟨[2, 7, 0], false⟩ (some ()) (some []) 4) =
            .ok ([some [2, 7]], .ofDecoder .invalidMsg, final) ∧
        rangeFor prefixedEnv identityTransform 2 4
          (create prefixedEnv ⟨[2, 7, 0], false⟩ (some ()) (some []) 4) =
            .ok ([.ok (some [2, 7])], final) := ⟨_, rfl, rfl⟩
    refine ⟨final, hread, hshown, ?_⟩
    rintro ⟨last, hrun, -⟩
    rw [hshown] at hrun
    simp [ReaderStatus.isDecoderError, ReaderStatus.ofDecoder] at hrun

end ParseBgp.Io.Reader
