import ParseBgp.Io.Instances
import ParseBgp.Io.StatusInvariant

/-!
# Calls in any order

The public entry points of a reader can be called in any order.  `started_` and
`status_` are two independent members: `message` fills the buffer on its first
call, whatever `decode_one` has made of the status before.
-/

namespace ParseBgp.Io.Reader

open Loop

variable {σ ς Opts Content τ : Type}

/-- The calls that a client can make on a reader and its iterator. -/
inductive Call where
  | message
  | decodeOne
  | increment
  | dereference
  deriving DecidableEq, Repr

namespace Call

/-- The calls that fill the buffer if they are the first of their kind. -/
def starts : Call → Bool
  | message | dereference => true
  | decodeOne | increment => false

/-- One call: the reader afterwards and what the call returned. -/
def run (env : ReaderEnv σ ς Opts Content)
    (transformer : TransformInput ς Content → τ) (fuel : ℕ) (call : Call)
    (reader : Reader σ ς Opts Content) :
    Outcome Fault (Reader σ ς Opts Content × List τ) :=
  match call with
  | message =>
      (Reader.message env transformer fuel reader).bind fun result =>
        .ok (result.1, [result.2])
  | decodeOne =>
      (Reader.decodeOne env fuel reader).bind fun after => .ok (after, [])
  | increment =>
      (Reader.increment env fuel reader).bind fun after => .ok (after, [])
  | dereference =>
      (Reader.dereference env transformer fuel reader).bind fun result =>
        .ok (result.1, [result.2])

end Call

/-- A sequence of calls: the reader afterwards and all returned values. -/
def runCalls (env : ReaderEnv σ ς Opts Content)
    (transformer : TransformInput ς Content → τ) (fuel : ℕ) :
    List Call → Reader σ ς Opts Content →
      Outcome Fault (Reader σ ς Opts Content × List τ)
  | [], reader => .ok (reader, [])
  | call :: rest, reader =>
      (call.run env transformer fuel reader).bind fun first =>
        (runCalls env transformer fuel rest first.1).bind fun last =>
          .ok (last.1, first.2 ++ last.2)

variable {env : ReaderEnv σ ς Opts Content}
variable {transformer : TransformInput ς Content → τ} {fuel : ℕ}
variable {reader after : Reader σ ς Opts Content}

namespace Call

theorem run_of_starts {call : Call} (hstarts : call.starts = true) :
    call.run env transformer fuel reader =
      (start env fuel reader).bind fun after =>
        .ok (after, [transformer after.current]) := by
  cases call with
  | message => exact Outcome.bind_assoc _ _ _
  | dereference => exact Outcome.bind_assoc _ _ _
  | decodeOne => simp [starts] at hstarts
  | increment => simp [starts] at hstarts

theorem run_of_not_starts {call : Call} (hstarts : call.starts = false) :
    call.run env transformer fuel reader =
      (Reader.decodeOne env fuel reader).bind fun after => .ok (after, []) := by
  cases call with
  | message => simp [starts] at hstarts
  | dereference => simp [starts] at hstarts
  | decodeOne => rfl
  | increment => rfl

end Call

/-- A run of a concatenation goes through the state between the two parts. -/
theorem runCalls_append (before rest : List Call) :
    runCalls env transformer fuel (before ++ rest) reader =
      (runCalls env transformer fuel before reader).bind fun first =>
        (runCalls env transformer fuel rest first.1).bind fun last =>
          .ok (last.1, first.2 ++ last.2) := by
  induction before generalizing reader with
  | nil =>
      cases hrest : runCalls env transformer fuel rest reader <;>
        simp [runCalls, hrest]
  | cons call before ih =>
      simp only [List.cons_append, runCalls, Outcome.bind_assoc, ih,
        Outcome.ok_bind, List.append_assoc]

/-! ## Final states -/

/-- A call on a reader whose run has ended does nothing, unless it is the first
one to start the reader. -/
theorem Call.run_of_ended (env : ReaderEnv σ ς Opts Content)
    (transformer : TransformInput ς Content → τ) (fuel : ℕ) (call : Call)
    (hended : reader.status.notFinished = false)
    (hstarted : call.starts = true → reader.started = true) :
    ∃ returned, call.run env transformer fuel reader =
        .ok (reader, returned) ∧
      ∀ value ∈ returned, value = transformer (.error reader.status) := by
  cases hstarts : call.starts with
  | true =>
      have hcurrent : reader.current = .error reader.status := by
        simp [current, hended]
      refine ⟨[transformer reader.current], ?_, ?_⟩
      · rw [Call.run_of_starts hstarts, start, if_pos (hstarted hstarts),
          Outcome.ok_bind]
      · intro value hvalue
        rw [List.mem_singleton.mp hvalue, hcurrent]
  | false =>
      refine ⟨[], ?_, by simp⟩
      rw [Call.run_of_not_starts hstarts, decodeOne_of_ended hended,
        Outcome.ok_bind]

/-- So no sequence of calls changes a reader whose run has ended, unless one of
them is the first to start it. -/
theorem runCalls_of_ended (env : ReaderEnv σ ς Opts Content)
    (transformer : TransformInput ς Content → τ) (fuel : ℕ)
    (hended : reader.status.notFinished = false) {calls : List Call}
    (hstarted : ∀ call ∈ calls, call.starts = true → reader.started = true) :
    ∃ returned, runCalls env transformer fuel calls reader =
        .ok (reader, returned) ∧
      ∀ value ∈ returned, value = transformer (.error reader.status) := by
  induction calls with
  | nil => exact ⟨[], rfl, by simp⟩
  | cons call rest ih =>
      rw [List.forall_mem_cons] at hstarted
      obtain ⟨returned, hcall, hvalues⟩ :=
        call.run_of_ended env transformer fuel hended hstarted.1
      obtain ⟨more, hrest, hmore⟩ := ih hstarted.2
      refine ⟨returned ++ more, ?_, ?_⟩
      · rw [runCalls, hcall, Outcome.ok_bind, hrest, Outcome.ok_bind]
      · intro value hvalue
        rcases List.mem_append.mp hvalue with hvalue | hvalue
        · exact hvalues value hvalue
        · exact hmore value hvalue

/-- A first `message` on a reader whose status is not `OK` violates the
assertion of `fill_buffer`. -/
theorem Call.run_of_late_start {call : Call} (hstarts : call.starts = true)
    (hfresh : reader.started = false) (hstatus : reader.status.isOk = false) :
    call.run env transformer fuel reader = .fault .fillBufferStatus := by
  have hfill : fillBuffer env { reader with started := true } =
      .fault .fillBufferStatus :=
    fillBuffer_of_not_ok hstatus
  rw [Call.run_of_starts hstarts, start, if_neg (by simp [hfresh]), hfill,
    Outcome.fault_bind, Outcome.fault_bind]

/-- `Inv` holds after every `fill_buffer` and every `decode_one`, whatever holds
inside the loop. -/
structure CallInvariant (env : ReaderEnv σ ς Opts Content)
    (Inv : Reader σ ς Opts Content → Prop) (allowed : Fault → Prop) :
    Prop where
  started : ∀ {reader}, Inv reader → Inv { reader with started := true }
  fillBuffer : ∀ {reader}, Inv reader →
    (Reader.fillBuffer env reader).Meets Inv allowed
  decodeOne : ∀ (fuel : ℕ) {reader}, Inv reader →
    (Reader.decodeOne env fuel reader).Meets Inv allowed

namespace CallInvariant

variable {Inv : Reader σ ς Opts Content → Prop} {allowed : Fault → Prop}
variable (hinvariant : CallInvariant env Inv allowed)
include hinvariant

theorem start (fuel : ℕ) (hinv : Inv reader) :
    (Reader.start env fuel reader).Meets Inv allowed := by
  unfold Reader.start
  split
  · exact hinv
  · apply (hinvariant.fillBuffer (hinvariant.started hinv)).bind
    intro filled hfilled
    split
    · exact hinvariant.decodeOne fuel hfilled
    · exact hfilled

theorem call (fuel : ℕ) (call : Call) (hinv : Inv reader) :
    (call.run env transformer fuel reader).Meets (fun result => Inv result.1)
      allowed := by
  cases hstarts : call.starts with
  | true =>
      rw [Call.run_of_starts hstarts]
      exact (hinvariant.start fuel hinv).bind fun _ hafter => hafter
  | false =>
      rw [Call.run_of_not_starts hstarts]
      exact (hinvariant.decodeOne fuel hinv).bind fun _ hafter => hafter

theorem runCalls (fuel : ℕ) (calls : List Call) (hinv : Inv reader) :
    (Reader.runCalls env transformer fuel calls reader).Meets
      (fun result => Inv result.1) allowed := by
  induction calls generalizing reader with
  | nil => exact hinv
  | cons call rest ih =>
      apply (hinvariant.call fuel call hinv).bind
      intro first hfirst
      exact (ih hfirst).bind fun _ hlast => hlast

end CallInvariant

/-- What the iterations of the loop keep is kept by every call. -/
theorem ReaderInvariant.callInvariant {Inv : Reader σ ς Opts Content → Prop}
    {allowed : Fault → Prop} (hinvariant : ReaderInvariant env Inv allowed) :
    CallInvariant env Inv allowed where
  started := hinvariant.started
  fillBuffer := hinvariant.fillBuffer
  decodeOne := fun fuel _ hinv => hinvariant.decodeOne fuel hinv

/-- Once started, a reader stays started. -/
theorem started_callInvariant :
    CallInvariant env (fun reader => reader.started = true)
      fun _ => True where
  started := fun _ => rfl
  fillBuffer := fun hstarted => Outcome.meets_of_forall_ok fun _ hfill =>
    (fillBuffer_started hfill).trans hstarted
  decodeOne := fun _ _ hstarted => Outcome.meets_of_forall_ok fun _ hdecode =>
    (decodeOne_started hdecode).trans hstarted

theorem StatusInvariant.call {Inv : StatusValue → σ → Prop}
    (hinvariant : StatusInvariant env Inv) {call : Call} {returned : List τ}
    (hinv : reader.Satisfies Inv)
    (hcall : call.run env transformer fuel reader = .ok (after, returned)) :
    after.Satisfies Inv :=
  (hinvariant.readerInvariant.callInvariant.call fuel call hinv).of_ok hcall

/-! ## Error-free streams -/

/-- As long as the status is `OK` the stream has not come to its end, and it
never fails. -/
def ErrorFreeInv (Healthy : σ → Prop) : StatusValue → σ → Prop
  | .ok, state => Healthy state
  | .streamError, _ => False
  | _, _ => True

section ErrorFree

variable {Healthy : σ → Prop} (herrors : env.stream.ErrorFree Healthy)
include herrors

theorem errorFree_statusInvariant :
    StatusInvariant env (ErrorFreeInv Healthy) where
  good := by
    intro state count hhealthy hgood
    rcases herrors.read count hhealthy with ⟨-, hnext⟩ | ⟨hnot, -⟩
    · exact hnext
    · exact absurd (hgood.symm.trans hnot) (by simp)
  eof := fun _ _ _ _ => trivial
  bad := by
    intro state count hhealthy hnot hnoteof _
    rcases herrors.read count hhealthy with ⟨hgood, -⟩ | ⟨-, heof⟩
    · exact absurd (hgood.symm.trans hnot) (by simp)
    · exact absurd (heof.symm.trans hnoteof) (by simp)
  finished := fun _ => trivial
  failed := fun _ => trivial

/-- A fill of the buffer does not end the run. -/
theorem fillBuffer_notFinished
    (hinv : reader.Satisfies (ErrorFreeInv Healthy))
    (hfill : fillBuffer env reader = .ok after) :
    after.status.notFinished = true := by
  have hok := fillBuffer_ok_isOk hfill
  have hafter := (errorFree_statusInvariant herrors).fillBuffer hinv hfill
  obtain ⟨buffer, ⟨-, rfl⟩ | ⟨-, -, rfl⟩ | ⟨-, -, -, rfl⟩⟩ :=
    fillBuffer_cases hfill
  · exact ReaderStatus.notFinished_of_isOk hok
  · rfl
  · exact hafter.elim

/-- The loop of `decode_one` never calls `fill_buffer` with a status other than
`OK`. -/
theorem decodeOne_ne_fault_status (fuel : ℕ)
    (hinv : reader.Satisfies (ErrorFreeInv Healthy)) :
    decodeOne env fuel reader ≠ .fault .fillBufferStatus := by
  unfold decodeOne
  split
  · next hnot =>
    let Keeps (state : DecodeState σ ς Opts Content) : Prop :=
      state.reader.status.notFinished = true ∧
        state.reader.Satisfies (ErrorFreeInv Healthy)
    have hagain : ∀ state next, Keeps state →
        decodeIteration env state = .ok (.again next) → Keeps next := by
      intro state next hkeeps hiteration
      obtain ⟨before, hrefills, hfill, -⟩ := decodeIteration_again hiteration
      have hbefore : before.Satisfies (ErrorFreeInv Healthy) := by
        rw [Satisfies, hrefills.status_eq, hrefills.stream_eq]
        exact hkeeps.2
      exact ⟨fillBuffer_notFinished herrors hbefore hfill,
        (errorFree_statusInvariant herrors).fillBuffer hbefore hfill⟩
    apply run_ne_fault_of_invariant hagain ?_ (⟨hnot, hinv⟩ : Keeps _)
    intro state hkeeps hiteration
    obtain ⟨before, hrefills, hfill⟩ :=
      decodeIteration_fault_status hiteration
    have hok : before.status.isOk = true := by
      rw [hrefills.status_eq]
      exact ReaderStatus.isOk_of_notFinished hkeeps.1
        hrefills.not_streamFinished
    exact fillBuffer_ne_fault_status hok hfill
  · simp

theorem start_ne_fault_status (fuel : ℕ)
    (hinv : reader.Satisfies (ErrorFreeInv Healthy))
    (hstart : reader.started = false → reader.status.isOk = true) :
    start env fuel reader ≠ .fault .fillBufferStatus := by
  cases hstarted : reader.started with
  | true => simp [start, hstarted]
  | false =>
      have hok := hstart hstarted
      have hfresh : { reader with started := true }.Satisfies
          (ErrorFreeInv Healthy) := hinv
      rw [start, if_neg (by simp [hstarted])]
      intro hfault
      rcases Outcome.bind_eq_fault_iff.mp hfault with
        hfill | ⟨filled, hfill, hrest⟩
      · exact absurd hfill (fillBuffer_ne_fault_status hok)
      · rw [if_pos (fillBuffer_notFinished herrors hfresh hfill)] at hrest
        have hfilled :=
          (errorFree_statusInvariant herrors).fillBuffer hfresh hfill
        exact decodeOne_ne_fault_status herrors fuel hfilled hrest

/-- A call that does not start the reader too late keeps the assertion of
`fill_buffer`. -/
theorem Call.run_ne_fault_status (transformer : TransformInput ς Content → τ)
    (fuel : ℕ) {call : Call} (hinv : reader.Satisfies (ErrorFreeInv Healthy))
    (hstart : call.starts = true → reader.started = false →
      reader.status.isOk = true) :
    call.run env transformer fuel reader ≠ .fault .fillBufferStatus := by
  cases hstarts : call.starts with
  | true =>
      rw [Call.run_of_starts hstarts, ne_eq, Outcome.bind_ok_eq_fault_iff]
      exact start_ne_fault_status herrors fuel hinv (hstart hstarts)
  | false =>
      rw [Call.run_of_not_starts hstarts, ne_eq, Outcome.bind_ok_eq_fault_iff]
      exact decodeOne_ne_fault_status herrors fuel hinv

end ErrorFree

/-! ## Every order of calls -/

/-- The promise that any order of calls is safe: no call violates the assertion
of `fill_buffer`, and once the run is `FINISHED` or ended in a decoder error no
later call changes the status, reads from the stream or alters the buffer. -/
structure SafeCalls (env : ReaderEnv σ ς Opts Content)
    (transformer : TransformInput ς Content → τ) (fuel : ℕ)
    (reader : Reader σ ς Opts Content) (calls : List Call) : Prop where
  assertion : runCalls env transformer fuel calls reader ≠
    .fault .fillBufferStatus
  final : ∀ before rest, before ++ rest = calls → ∀ state returned,
    runCalls env transformer fuel before reader = .ok (state, returned) →
      (state.status.isFinished || state.status.isDecoderError) = true →
        ∀ later more,
          runCalls env transformer fuel rest state = .ok (later, more) →
            later.status = state.status ∧ later.reads = state.reads ∧
              later.stream = state.stream ∧ later.buffer = state.buffer

/-- Every call of `message` or `*` that finds the reader not yet started finds
the status `OK`: no earlier `decode_one` or `++` has met the end of the stream
or ended the run. -/
def StartsInTime (env : ReaderEnv σ ς Opts Content)
    (transformer : TransformInput ς Content → τ) (fuel : ℕ)
    (reader : Reader σ ς Opts Content) (calls : List Call) : Prop :=
  ∀ before call rest, before ++ call :: rest = calls → ∀ state returned,
    runCalls env transformer fuel before reader = .ok (state, returned) →
      call.starts = true → state.started = false → state.status.isOk = true

theorem StartsInTime.head {call : Call} {rest : List Call}
    (hstarts : StartsInTime env transformer fuel reader (call :: rest)) :
    call.starts = true → reader.started = false →
      reader.status.isOk = true :=
  hstarts [] call rest rfl reader [] rfl

theorem StartsInTime.append {before rest : List Call} {returned : List τ}
    (hstarts : StartsInTime env transformer fuel reader (before ++ rest))
    (hrun : runCalls env transformer fuel before reader =
      .ok (after, returned)) :
    StartsInTime env transformer fuel after rest := by
  intro first call last hsplit state more hstate
  apply hstarts (before ++ first) call last (by simp [← hsplit]) state
    (returned ++ more)
  rw [runCalls_append, hrun, Outcome.ok_bind, hstate, Outcome.ok_bind]

theorem StartsInTime.tail {call : Call} {rest : List Call}
    {returned : List τ}
    (hstarts : StartsInTime env transformer fuel reader (call :: rest))
    (hcall : call.run env transformer fuel reader = .ok (after, returned)) :
    StartsInTime env transformer fuel after rest := by
  have hsplit : StartsInTime env transformer fuel reader ([call] ++ rest) :=
    hstarts
  have hrun : runCalls env transformer fuel [call] reader =
      .ok (after, returned) := by
    rw [runCalls, hcall, Outcome.ok_bind, runCalls, Outcome.ok_bind,
      List.append_nil]
  exact hsplit.append hrun

/-- Calls that begin with `message` or `*` start the reader in time. -/
theorem startsInTime_of_head {call : Call} {rest : List Call}
    (hok : reader.status.isOk = true) (hstarts : call.starts = true) :
    StartsInTime env transformer fuel reader (call :: rest) := by
  intro before next last hsplit state returned hrun _ hfresh
  cases before with
  | nil =>
      obtain ⟨rfl, -⟩ := Prod.mk.inj (Outcome.ok.inj hrun)
      exact hok
  | cons first before =>
      obtain ⟨rfl, -⟩ := List.cons.inj hsplit
      rw [runCalls, Call.run_of_starts hstarts] at hrun
      obtain ⟨⟨after, _⟩, hfirst, hmore⟩ := Outcome.bind_eq_ok_iff.mp hrun
      obtain ⟨⟨_, _⟩, hrest, hpair⟩ := Outcome.bind_ok_eq_ok_iff.mp hmore
      obtain ⟨rfl, -⟩ := Prod.mk.inj hpair
      obtain ⟨started, hstart, hsame⟩ := Outcome.bind_ok_eq_ok_iff.mp hfirst
      obtain ⟨rfl, -⟩ := Prod.mk.inj hsame
      have hstarted := (started_callInvariant.runCalls fuel before
        (start_started hstart)).of_ok hrest
      exact absurd (hfresh.symm.trans hstarted) (by simp)

/-- After the end of the run only a started reader is still asked for
messages. -/
theorem StartsInTime.started_of_ended {calls : List Call}
    (hstarts : StartsInTime env transformer fuel reader calls)
    (hended : reader.status.notFinished = false) :
    ∀ call ∈ calls, call.starts = true → reader.started = true := by
  have hnot : reader.status.isOk = false := by
    by_contra hok
    rw [Bool.not_eq_false] at hok
    rw [ReaderStatus.notFinished_of_isOk hok] at hended
    simp at hended
  induction calls with
  | nil => simp
  | cons call rest ih =>
      have hhead : call.starts = true → reader.started = true := by
        intro hcall
        by_contra hfresh
        rw [hstarts.head hcall (Bool.eq_false_iff.mpr hfresh)] at hnot
        simp at hnot
      obtain ⟨returned, hcall, -⟩ :=
        call.run_of_ended env transformer fuel hended hhead
      rw [List.forall_mem_cons]
      exact ⟨hhead, ih (hstarts.tail hcall)⟩

/-- Calls that start the reader in time do not violate the assertion. -/
theorem StartsInTime.runCalls_ne_fault {Healthy : σ → Prop}
    (herrors : env.stream.ErrorFree Healthy) {calls : List Call}
    (hinv : reader.Satisfies (ErrorFreeInv Healthy))
    (hstarts : StartsInTime env transformer fuel reader calls) :
    runCalls env transformer fuel calls reader ≠
      .fault .fillBufferStatus := by
  induction calls generalizing reader with
  | nil => simp [runCalls]
  | cons call rest ih =>
      have hsafe :=
        call.run_ne_fault_status herrors transformer fuel hinv hstarts.head
      intro hfault
      rw [runCalls] at hfault
      rcases Outcome.bind_eq_fault_iff.mp hfault with
        hcall | ⟨⟨next, returned⟩, hcall, hrest⟩
      · exact hsafe hcall
      · rw [Outcome.bind_ok_eq_fault_iff] at hrest
        have hnext := (errorFree_statusInvariant herrors).call hinv hcall
        exact ih hnext (hstarts.tail hcall) hrest

theorem create_satisfies {Healthy : σ → Prop} {stream : σ}
    (hhealthy : Healthy stream) {options : Option Opts}
    {message_ : Message Content} {bufferSize : ℕ} :
    (create env stream options message_ bufferSize).Satisfies
      (ErrorFreeInv Healthy) := by
  cases hnull : (MirroredRingBuffer.create env.mirrors 0 bufferSize).isNull <;>
    simp [Satisfies, create, hnull, ErrorFreeInv, ReaderStatus.ofValue,
      hhealthy]

/-- Over an error-free stream, a run of calls on a new reader is safe exactly
when it starts the reader in time. -/
theorem safeCalls_iff_startsInTime {Healthy : σ → Prop}
    (herrors : env.stream.ErrorFree Healthy) {stream : σ}
    (hhealthy : Healthy stream) (options : Option Opts)
    (message_ : Message Content) (bufferSize : ℕ)
    (transformer : TransformInput ς Content → τ) (fuel : ℕ)
    (calls : List Call) :
    SafeCalls env transformer fuel
        (create env stream options message_ bufferSize) calls ↔
      StartsInTime env transformer fuel
        (create env stream options message_ bufferSize) calls := by
  constructor
  · intro hsafe before call rest hsplit state returned hrun hcall hfresh
    by_contra hnot
    apply hsafe.assertion
    rw [← hsplit, runCalls_append, hrun, Outcome.ok_bind, runCalls,
      Call.run_of_late_start hcall hfresh (Bool.eq_false_iff.mpr hnot),
      Outcome.fault_bind, Outcome.fault_bind]
  · intro hstarts
    have hinv : (create env stream options message_ bufferSize).Satisfies
        (ErrorFreeInv Healthy) := create_satisfies hhealthy
    refine ⟨hstarts.runCalls_ne_fault herrors hinv, ?_⟩
    intro before rest hsplit state returned hrun hfinal later more hlater
    have hended : state.status.notFinished = false :=
      ReaderStatus.notFinished_of_final hfinal
    rw [← hsplit] at hstarts
    have hstarted := (hstarts.append hrun).started_of_ended hended
    obtain ⟨values, hrest, -⟩ :=
      runCalls_of_ended env transformer fuel hended hstarted
    rw [hrest] at hlater
    obtain ⟨rfl, -⟩ := Prod.mk.inj (Outcome.ok.inj hlater)
    exact ⟨rfl, rfl, rfl, rfl⟩

/-- Reading two messages from an in-memory stream in the usual order. -/
theorem safeCalls_iff_startsInTime_two :
    SafeCalls prefixedEnv identityTransform 4
      (create prefixedEnv ⟨[2, 7, 3, 8, 9], false⟩ (some ()) (some []) 3)
      [.message, .decodeOne, .message] :=
  (safeCalls_iff_startsInTime listStream_exactReads.chunked.errorFree
    ⟨_, rfl⟩ _ _ _ _ _ _).mpr (startsInTime_of_head rfl rfl)

/-- On an empty stream `decode_one` ends the run, and the first `message` after
it violates the assertion. -/
theorem not_safeCalls_decodeOne_message :
    ¬ SafeCalls prefixedEnv identityTransform 2
      (create prefixedEnv ⟨[], false⟩ (some ()) (some []) 4)
      [.decodeOne, .message] := by
  intro hsafe
  exact hsafe.assertion rfl

end ParseBgp.Io.Reader
