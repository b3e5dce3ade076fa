import ParseBgp.Io.CallOrder

/-!
# Allocation failures at construction

The constructor of `Reader` makes three allocations and looks at one of them,
the buffer.  A failed buffer is recorded in the status, which `message` does not
look at before its initial fill; a null message or null options are not
recorded at all.
-/

namespace ParseBgp.Io.Reader

open Loop

variable {σ ς Opts Content τ : Type}

/-- The promise that a failed allocation is reported and not acted upon: after
any part of the calls nothing has faulted, the stream was not read, the status
is `MEMORY_FAILURE`, and every result is the unexpected `MEMORY_FAILURE`. -/
def ReportsMemoryFailure (env : ReaderEnv σ ς Opts Content)
    (transformer : TransformInput ς Content → τ) (fuel : ℕ)
    (reader : Reader σ ς Opts Content) (calls : List Call) : Prop :=
  ∀ before, before <+: calls → ∃ state returned,
    runCalls env transformer fuel before reader = .ok (state, returned) ∧
      state.status = .ofValue .memoryFailure ∧ state.reads = 0 ∧
        ∀ value ∈ returned,
          value = transformer (.error (.ofValue .memoryFailure))

variable {env : ReaderEnv σ ς Opts Content}
variable {transformer : TransformInput ς Content → τ} {fuel : ℕ}
variable {reader : Reader σ ς Opts Content} {calls : List Call}

/-- The status shows the failure of the buffer only. -/
theorem create_status_iff (env : ReaderEnv σ ς Opts Content) (stream : σ)
    (options : Option Opts) (message_ : Message Content) (bufferSize : ℕ) :
    (create env stream options message_ bufferSize).status =
        .ofValue .memoryFailure ↔
      env.mirrors.create 0 bufferSize = none := by
  cases hcreate : env.mirrors.create 0 bufferSize with
  | none => simp [create, MirroredRingBuffer.create_eq_null hcreate]
  | some block =>
      have hvalid := (MirroredRingBuffer.create_valid hcreate).1
      simp [create, hvalid.isNull_eq, ReaderStatus.ofValue]

/-- A reader with a recorded failure keeps reporting it as long as nothing asks
it for a message. -/
theorem reportsMemoryFailure_of_not_starts
    (hstatus : reader.status = .ofValue .memoryFailure)
    (hreads : reader.reads = 0)
    (hcalls : ∀ call ∈ calls, call.starts = false) :
    ReportsMemoryFailure env transformer fuel reader calls := by
  intro before hwindow
  have hended : reader.status.notFinished = false := by
    rw [hstatus]
    rfl
  have hstarted : ∀ call ∈ before, call.starts = true →
      reader.started = true := by
    intro call hcall hstarts
    rw [hcalls call (hwindow.subset hcall)] at hstarts
    simp at hstarts
  obtain ⟨returned, hrun, hvalues⟩ :=
    runCalls_of_ended env transformer fuel hended hstarted
  rw [hstatus] at hvalues
  exact ⟨reader, returned, hrun, hstatus, hreads, hvalues⟩

/-- The first request for a message stops at the assertion of `fill_buffer`. -/
theorem ReportsMemoryFailure.not_starts
    (hreports : ReportsMemoryFailure env transformer fuel reader calls)
    (hstatus : reader.status = .ofValue .memoryFailure)
    (hfresh : reader.started = false) :
    ∀ call ∈ calls, call.starts = false := by
  have hnot : reader.status.isOk = false := by
    rw [hstatus]
    rfl
  have hended : reader.status.notFinished = false := by
    rw [hstatus]
    rfl
  induction calls with
  | nil => simp
  | cons call rest ih =>
      have hhead : call.starts = false := by
        by_contra hstarts
        rw [Bool.not_eq_false] at hstarts
        obtain ⟨state, returned, hrun, -⟩ :=
          hreports [call] ⟨rest, rfl⟩
        rw [runCalls, Call.run_of_late_start hstarts hfresh hnot] at hrun
        simp at hrun
      rw [List.forall_mem_cons]
      refine ⟨hhead, ih ?_⟩
      intro before hwindow
      obtain ⟨state, returned, hrun, hrest⟩ :=
        hreports (call :: before) (List.cons_prefix_cons.mpr ⟨rfl, hwindow⟩)
      rw [runCalls, Call.run_of_not_starts hhead, decodeOne_of_ended hended,
        Outcome.ok_bind, Outcome.ok_bind] at hrun
      obtain ⟨⟨state', returned'⟩, hrun', hpair⟩ :=
        Outcome.bind_ok_eq_ok_iff.mp hrun
      obtain ⟨rfl, rfl⟩ := Prod.mk.inj hpair
      exact ⟨state', returned', hrun', hrest⟩

/-- Failed allocations are reported and not acted upon exactly when the buffer
is the one that failed and the reader is never asked for a message. -/
theorem reportsMemoryFailure_iff (env : ReaderEnv σ ς Opts Content)
    (transformer : TransformInput ς Content → τ) (fuel : ℕ) (stream : σ)
    (options : Option Opts) (message_ : Message Content) (bufferSize : ℕ)
    (calls : List Call) :
    ReportsMemoryFailure env transformer fuel
        (create env stream options message_ bufferSize) calls ↔
      env.mirrors.create 0 bufferSize = none ∧
        ∀ call ∈ calls, call.starts = false := by
  constructor
  · intro hreports
    obtain ⟨state, returned, hrun, hstatus, -⟩ :=
      hreports [] List.nil_prefix
    obtain ⟨rfl, -⟩ := Prod.mk.inj (Outcome.ok.inj hrun)
    exact ⟨(create_status_iff env stream options message_ bufferSize).mp
      hstatus, hreports.not_starts hstatus rfl⟩
  · rintro ⟨hcreate, hcalls⟩
    have hstatus := (create_status_iff env stream options message_
      bufferSize).mpr hcreate
    exact reportsMemoryFailure_of_not_starts hstatus rfl hcalls

/-- A reader without a buffer stops at the assertion when it is asked for its
first message; a reader without a message is reported as `OK` and hands the null
pointer to the decoder. -/
theorem not_reportsMemoryFailure_message :
    (¬ ReportsMemoryFailure prefixedEnv identityTransform 2
      (create prefixedEnv ⟨[2, 7], false⟩ (some ()) (some []) 0)
      [.message]) ∧
    (create prefixedEnv ⟨[2, 7], false⟩ (some ()) none 4).status =
      .ofValue .ok ∧
    runCalls prefixedEnv identityTransform 2 [.message]
      (create prefixedEnv ⟨[2, 7], false⟩ (some ()) none 4) =
        .fault .nullMessage := by
  refine ⟨?_, rfl, rfl⟩
  intro hreports
  obtain ⟨state, returned, hrun, -⟩ := hreports [.message] List.prefix_rfl
  have hfault : runCalls prefixedEnv identityTransform 2 [.message]
      (create prefixedEnv ⟨[2, 7], false⟩ (some ()) (some []) 0) =
        .fault .fillBufferStatus := rfl
  exact absurd (hfault.symm.trans hrun) (by simp)

end ParseBgp.Io.Reader
