import ParseBgp.Io.ReaderSteps

/-!
# Invariants of a reader

What `fill_buffer` and one iteration of the loop of `decode_one` keep is kept by
`decode_one`, and faults that neither raises are not raised there.  The reader
reads its stream only while the status is `OK`, and every other status is a
consequence of the last read; a relation between status and stream that holds
across one read, and across the end of the loop, is therefore such an
invariant.
-/

namespace ParseBgp.Io.Reader

open Loop

variable {σ ς Opts Content : Type}

/-- A loop head at which the reader satisfies `Inv` and `out` is the current
readable span. -/
structure AtHead (Inv : Reader σ ς Opts Content → Prop)
    (state : DecodeState σ ς Opts Content) : Prop where
  inv : Inv state.reader
  out_eq : state.out = state.reader.buffer.prepareRead

/-- `Inv` holds after every `fill_buffer` and after every iteration that is
entered with the current readable span; faults are `allowed`. -/
structure ReaderInvariant (env : ReaderEnv σ ς Opts Content)
    (Inv : Reader σ ς Opts Content → Prop) (allowed : Fault → Prop) :
    Prop where
  started : ∀ {reader}, Inv reader → Inv { reader with started := true }
  fillBuffer : ∀ {reader}, Inv reader →
    (Reader.fillBuffer env reader).Meets Inv allowed
  iteration : ∀ {state}, AtHead Inv state →
    (decodeIteration env state).Meets (Step.Meets (AtHead Inv) Inv) allowed

namespace ReaderInvariant

variable {env : ReaderEnv σ ς Opts Content}
variable {Inv : Reader σ ς Opts Content → Prop} {allowed : Fault → Prop}
variable {reader : Reader σ ς Opts Content}

theorem decodeOne (hinvariant : ReaderInvariant env Inv allowed) (fuel : ℕ)
    (hinv : Inv reader) :
    (Reader.decodeOne env fuel reader).Meets Inv allowed := by
  unfold Reader.decodeOne
  split
  · have hstart : AtHead Inv (.enter reader false) := ⟨hinv, rfl⟩
    exact run_meets_of_invariant (fun _ => hinvariant.iteration) fuel hstart
  · exact hinv

theorem reaches (hinvariant : ReaderInvariant env Inv allowed)
    (hinv : Inv reader) {state : DecodeState σ ς Opts Content}
    (hreaches : Reaches (decodeIteration env) (.enter reader false) state) :
    AtHead Inv state := by
  have hstart : AtHead Inv (.enter reader false) := ⟨hinv, rfl⟩
  apply hreaches.invariant ?_ hstart
  intro state next hstate hagain
  exact (hinvariant.iteration hstate).of_ok hagain

end ReaderInvariant

/-- `Inv value state` is kept by a read of `fill_buffer` and by the two ways in
which `decode_one` ends a run. -/
structure StatusInvariant (env : ReaderEnv σ ς Opts Content)
    (Inv : StatusValue → σ → Prop) : Prop where
  good : ∀ {state : σ} (count : ℕ), Inv .ok state →
    env.stream.good (env.stream.read state count).2 = true →
      Inv .ok (env.stream.read state count).2
  eof : ∀ {state : σ} (count : ℕ), Inv .ok state →
    env.stream.good (env.stream.read state count).2 = false →
      env.stream.eof (env.stream.read state count).2 = true →
        Inv .streamFinished (env.stream.read state count).2
  bad : ∀ {state : σ} (count : ℕ), Inv .ok state →
    env.stream.good (env.stream.read state count).2 = false →
      env.stream.eof (env.stream.read state count).2 = false →
        env.stream.bad (env.stream.read state count).2 = true →
          Inv .streamError (env.stream.read state count).2
  finished : ∀ {state : σ}, Inv .streamFinished state → Inv .finished state
  failed : ∀ {value : StatusValue} {state : σ}, Inv value state →
    Inv .decoderError state

variable {env : ReaderEnv σ ς Opts Content} {fuel : ℕ}
variable {reader after : Reader σ ς Opts Content}
variable {Inv : StatusValue → σ → Prop}

/-- The invariant in a state of the reader. -/
def Satisfies (Inv : StatusValue → σ → Prop)
    (reader : Reader σ ς Opts Content) : Prop :=
  Inv reader.status.value reader.stream

namespace StatusInvariant

variable (hinvariant : StatusInvariant env Inv)
include hinvariant

theorem fillBuffer (hinv : reader.Satisfies Inv)
    (hfill : Reader.fillBuffer env reader = .ok after) :
    after.Satisfies Inv := by
  have hok := fillBuffer_ok_isOk hfill
  rw [Satisfies, ReaderStatus.value_of_isOk hok] at hinv
  obtain ⟨buffer, ⟨hgood, rfl⟩ | ⟨hgood, heof, rfl⟩ |
    ⟨hgood, heof, hbad, rfl⟩⟩ := fillBuffer_cases hfill
  · rw [Satisfies, afterRead_status, ReaderStatus.value_of_isOk hok]
    exact hinvariant.good _ hinv hgood
  · exact hinvariant.eof _ hinv hgood heof
  · exact hinvariant.bad _ hinv hgood heof hbad

theorem again {state next : DecodeState σ ς Opts Content}
    (hinv : state.reader.Satisfies Inv)
    (hiteration : decodeIteration env state = .ok (.again next)) :
    next.reader.Satisfies Inv := by
  obtain ⟨before, hrefills, hfill, -⟩ := decodeIteration_again hiteration
  apply hinvariant.fillBuffer ?_ hfill
  rw [Satisfies, hrefills.status_eq, hrefills.stream_eq]
  exact hinv

theorem done {state : DecodeState σ ς Opts Content}
    (hinv : state.reader.Satisfies Inv)
    (hiteration : decodeIteration env state = .ok (.done after)) :
    after.Satisfies Inv := by
  obtain ⟨-, hstream, -, hstatus⟩ := decodeIteration_done hiteration
  rcases hstatus with hsame | ⟨hfinished, hended⟩ | ⟨error, hfailed, -⟩
  · rw [Satisfies, hsame, hstream]
    exact hinv
  · rw [Satisfies, ReaderStatus.value_of_isStreamFinished hended] at hinv
    rw [Satisfies, hfinished, hstream]
    exact hinvariant.finished hinv
  · rw [Satisfies, hfailed, hstream]
    exact hinvariant.failed hinv

theorem readerInvariant :
    ReaderInvariant env (Satisfies Inv) fun _ => True where
  started := fun hinv => hinv
  fillBuffer := fun hinv => Outcome.meets_of_forall_ok fun _ hfill =>
    hinvariant.fillBuffer hinv hfill
  iteration := by
    intro state hstate
    apply Outcome.meets_of_forall_ok
    intro step hiteration
    cases step with
    | again next =>
        obtain ⟨_, -, -, hnext⟩ := decodeIteration_again hiteration
        refine ⟨hinvariant.again hstate.inv hiteration, ?_⟩
        rw [hnext]
        rfl
    | done result => exact hinvariant.done hstate.inv hiteration

theorem decodeOne (hinv : reader.Satisfies Inv)
    (hdecode : Reader.decodeOne env fuel reader = .ok after) :
    after.Satisfies Inv :=
  (hinvariant.readerInvariant.decodeOne fuel hinv).of_ok hdecode

/-- A `decode_one` reports an incomplete message only behind the end of the
stream. -/
theorem decodeOne_incomplete (hinv : reader.Satisfies Inv)
    (hnot : reader.status.notFinished = true)
    (hdecode : Reader.decodeOne env fuel reader = .ok after)
    (hincomplete : after.status = .ofDecoder .partialMsg) :
    Inv .streamFinished after.stream := by
  let Keeps (state : DecodeState σ ς Opts Content) : Prop :=
    state.reader.Satisfies Inv ∧ state.reader.status.value ≠ .decoderError
  have hagain : ∀ state next, Keeps state →
      decodeIteration env state = .ok (.again next) → Keeps next := by
    intro state next hkeeps hiteration
    obtain ⟨before, -, hfill, -⟩ := decodeIteration_again hiteration
    refine ⟨hinvariant.again hkeeps.1 hiteration, ?_⟩
    intro hvalue
    have hfilled := fillBuffer_value hfill
    simp [hvalue] at hfilled
  have hdone : ∀ state result, Keeps state →
      decodeIteration env state = .ok (.done result) →
        result.status = .ofDecoder .partialMsg →
          Inv .streamFinished result.stream := by
    intro state result hkeeps hiteration hstatus
    obtain ⟨-, hstream, -, hcases⟩ := decodeIteration_done hiteration
    have hended : state.reader.status.isStreamFinished = true := by
      rcases hcases with hsame | ⟨hfinished, -⟩ | ⟨error, hfailed, hlast⟩
      · rw [hsame] at hstatus
        exact absurd (congrArg ReaderStatus.value hstatus) hkeeps.2
      · rw [hfinished] at hstatus
        simp [ReaderStatus.ofValue, ReaderStatus.ofDecoder] at hstatus
      · rw [hfailed] at hstatus
        apply hlast
        simpa [ReaderStatus.ofDecoder] using hstatus
    have hlast := hkeeps.1
    rw [Satisfies, ReaderStatus.value_of_isStreamFinished hended] at hlast
    rw [hstream]
    exact hlast
  have hstart : Keeps (.enter reader false) := by
    refine ⟨hinv, ?_⟩
    intro hvalue
    simp [DecodeState.enter] at hvalue
    simp [ReaderStatus.notFinished, ReaderStatus.isOk,
      ReaderStatus.isStreamFinished, hvalue] at hnot
  rw [Reader.decodeOne, if_pos hnot] at hdecode
  exact run_ok_of_invariant hagain hdone hstart hdecode hincomplete

end StatusInvariant

end ParseBgp.Io.Reader
