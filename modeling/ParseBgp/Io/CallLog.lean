import ParseBgp.Core.Logged
import ParseBgp.Io.BufferContract

/-!
# The calls a run logs

The functions of the reader once more, with every use of the buffer made
through an operation that logs it.  They return what the functions without a
log return, and log exactly the calls of `FillCalls`, `IterationCalls` and
`Makes`.
-/

namespace ParseBgp.Io

open Loop

/-- A computation that logs its calls, each with the buffer it is made on. -/
abbrev Calling (α : Type) : Type :=
  Logged (MirroredRingBuffer × BufferCall) Fault α

namespace MirroredRingBuffer

/-- The decoder reads the bytes of `window`. -/
def viewLogged (buffer : MirroredRingBuffer) (window : Span) :
    Calling (List UInt8) :=
  .record (buffer, .decode window) (buffer.view window)

/-- The stream writes `bytes` into `window`. -/
def fillLogged (buffer : MirroredRingBuffer) (window : Span)
    (bytes : List UInt8) : Calling MirroredRingBuffer :=
  .record (buffer, .read window bytes) (buffer.fill window 0 bytes)

def commitReadLogged (buffer : MirroredRingBuffer) (bytes : ℕ) :
    Calling MirroredRingBuffer :=
  .record (buffer, .commitRead bytes) (buffer.commitRead bytes)

def commitWriteLogged (buffer : MirroredRingBuffer) (bytes : ℕ) :
    Calling MirroredRingBuffer :=
  .record (buffer, .commitWrite bytes) (buffer.commitWrite bytes)

def reserveLogged (buffer : MirroredRingBuffer) (mirrors : MirrorSource)
    (index newCapacity : ℕ) : Calling (Bool × MirroredRingBuffer) :=
  .record (buffer, .reserve index newCapacity)
    (buffer.reserve mirrors index newCapacity)

end MirroredRingBuffer

namespace Reader

variable {σ ς Opts Content τ : Type}

def fillBufferLogged (env : ReaderEnv σ ς Opts Content)
    (reader : Reader σ ς Opts Content) : Calling (Reader σ ς Opts Content) :=
  if reader.status.isOk then
    let input := reader.buffer.prepareWrite
    let (bytes, stream) := env.stream.read reader.stream input.size
    let reader := { reader with stream := stream, reads := reader.reads + 1 }
    (reader.buffer.fillLogged input bytes).bind fun filled =>
      if env.stream.good stream then
        (filled.commitWriteLogged bytes.length).bind fun buffer =>
          .silent (.ok { reader with buffer := buffer })
      else if env.stream.eof stream then
        (filled.commitWriteLogged bytes.length).bind fun buffer =>
          .silent (.ok { reader with
            buffer := buffer
            status := .ofValue .streamFinished })
      else if env.stream.bad stream then
        .silent (.ok { reader with
          buffer := filled
          status := .ofStream (env.stream.status stream) })
      else .silent (.fault .fillBufferBad)
  else .silent (.fault .fillBufferStatus)

def growLogged (env : ReaderEnv σ ς Opts Content)
    (reader : Reader σ ς Opts Content) : Calling (Reader σ ς Opts Content) :=
  (reader.buffer.reserveLogged env.mirrors reader.mirrored
      (reader.buffer.capacity * 2)).bind fun result =>
    .silent (.ok
      { reader with buffer := result.2, mirrored := reader.mirrored + 1 })

def decodeIterationLogged (env : ReaderEnv σ ς Opts Content)
    (state : DecodeState σ ς Opts Content) :
    Calling (Step (DecodeState σ ς Opts Content) (Reader σ ς Opts Content)) :=
  let cleared := state.reader.message_.clear env.library
  (state.reader.buffer.viewLogged state.out).bind fun bytes =>
    (Logged.silent (Message.decode env.library state.reader.options
        env.messageType cleared bytes)).bind fun (ret, message) =>
      let reader := { state.reader with message_ := message }
      match ret with
      | .ok len =>
          (reader.buffer.commitReadLogged len).bind fun buffer =>
            .silent (.ok (.done { reader with buffer := buffer }))
      | .error error =>
          if error.isPartialMsg && !reader.status.isStreamFinished then
            (if state.alreadyGotPartial then growLogged env reader
              else .silent (.ok reader)).bind fun reader =>
              (fillBufferLogged env reader).bind fun reader =>
                .silent (.ok (.again (.enter reader true)))
          else if error.isPartialMsg && state.out.size = 0 then
            .silent (.ok (.done { reader with status := .ofValue .finished }))
          else .silent (.ok (.done { reader with status := .ofDecoder error }))

def decodeOneLogged (env : ReaderEnv σ ς Opts Content) (fuel : ℕ)
    (reader : Reader σ ς Opts Content) : Calling (Reader σ ς Opts Content) :=
  if reader.status.notFinished then
    .run (decodeIterationLogged env) fuel (.enter reader false)
  else .silent (.ok reader)

def startLogged (env : ReaderEnv σ ς Opts Content) (fuel : ℕ)
    (reader : Reader σ ς Opts Content) : Calling (Reader σ ς Opts Content) :=
  if reader.started then .silent (.ok reader)
  else
    (fillBufferLogged env { reader with started := true }).bind fun reader =>
      if reader.status.notFinished then decodeOneLogged env fuel reader
      else .silent (.ok reader)

def Call.runLogged (env : ReaderEnv σ ς Opts Content)
    (transformer : TransformInput ς Content → τ) (fuel : ℕ) (call : Call)
    (reader : Reader σ ς Opts Content) :
    Calling (Reader σ ς Opts Content × List τ) :=
  if call.starts then
    (startLogged env fuel reader).bind fun after =>
      .silent (.ok (after, [transformer after.current]))
  else
    (decodeOneLogged env fuel reader).bind fun after =>
      .silent (.ok (after, []))

variable {env : ReaderEnv σ ς Opts Content}
variable {transformer : TransformInput ς Content → τ} {fuel : ℕ}
variable {reader : Reader σ ς Opts Content}
variable {state : DecodeState σ ς Opts Content}
variable {buffer : MirroredRingBuffer} {call : BufferCall}

/-! ## Logging changes nothing -/

theorem fillBufferLogged_outcome (env : ReaderEnv σ ς Opts Content)
    (reader : Reader σ ς Opts Content) :
    (fillBufferLogged env reader).outcome = fillBuffer env reader := by
  unfold fillBufferLogged fillBuffer
  split
  · simp only [Logged.outcome_bind, MirroredRingBuffer.fillLogged,
      Logged.outcome_record]
    congr 1
    funext filled
    split_ifs <;> simp [MirroredRingBuffer.commitWriteLogged]
  · rfl

theorem growLogged_outcome (env : ReaderEnv σ ς Opts Content)
    (reader : Reader σ ς Opts Content) :
    (growLogged env reader).outcome = grow env reader :=
  Logged.outcome_bind _ _

theorem decodeIterationLogged_outcome (env : ReaderEnv σ ς Opts Content)
    (state : DecodeState σ ς Opts Content) :
    (decodeIterationLogged env state).outcome = decodeIteration env state := by
  unfold decodeIterationLogged decodeIteration
  simp only [Logged.outcome_bind, MirroredRingBuffer.viewLogged,
    Logged.outcome_record, Logged.outcome_silent]
  congr 1
  funext bytes
  congr 1
  funext result
  obtain ⟨ret, message⟩ := result
  cases ret with
  | ok len => simp [MirroredRingBuffer.commitReadLogged]
  | error error =>
      dsimp only
      split_ifs <;>
        simp [growLogged_outcome, fillBufferLogged_outcome]

theorem decodeOneLogged_outcome (env : ReaderEnv σ ς Opts Content) (fuel : ℕ)
    (reader : Reader σ ς Opts Content) :
    (decodeOneLogged env fuel reader).outcome = decodeOne env fuel reader := by
  unfold decodeOneLogged decodeOne
  split
  · rw [Logged.outcome_run]
    congr 1
    funext state
    exact decodeIterationLogged_outcome env state
  · rfl

theorem startLogged_outcome (env : ReaderEnv σ ς Opts Content) (fuel : ℕ)
    (reader : Reader σ ς Opts Content) :
    (startLogged env fuel reader).outcome = start env fuel reader := by
  unfold startLogged start
  split
  · rfl
  · rw [Logged.outcome_bind, fillBufferLogged_outcome]
    congr 1
    funext filled
    split
    · exact decodeOneLogged_outcome env fuel filled
    · rfl

/-- A call with a log does to the reader, and returns, what the call does. -/
theorem Call.runLogged_outcome (env : ReaderEnv σ ς Opts Content)
    (transformer : TransformInput ς Content → τ) (fuel : ℕ) (call : Call)
    (reader : Reader σ ς Opts Content) :
    (call.runLogged env transformer fuel reader).outcome =
      call.run env transformer fuel reader := by
  unfold Call.runLogged
  split
  · next hstarts =>
      rw [Call.run_of_starts hstarts, Logged.outcome_bind,
        startLogged_outcome]
      rfl
  · next hstarts =>
      rw [Call.run_of_not_starts (by simpa using hstarts),
        Logged.outcome_bind, decodeOneLogged_outcome]
      rfl

/-! ## The log is the listed calls -/

theorem mem_fillBufferLogged_iff :
    (buffer, call) ∈ (fillBufferLogged env reader).events ↔
      FillCalls env reader buffer call := by
  have hread : env.stream.read reader.stream reader.buffer.prepareWrite.size =
      (refill env reader, refilled env reader) := rfl
  constructor
  · intro hevent
    cases hok : reader.status.isOk with
    | false => simp [fillBufferLogged, hok] at hevent
    | true =>
        simp only [fillBufferLogged, hok, if_true, hread,
          Logged.mem_events_bind] at hevent
        obtain hevent | ⟨filled, hfill, hevent⟩ := hevent
        · obtain ⟨rfl, rfl⟩ := Prod.mk.inj (List.mem_singleton.mp hevent)
          exact .read hok
        -- only a stream that is good or at its end has its bytes committed
        split_ifs at hevent with hgood heof hbad
        · rw [Logged.events_bind_silent] at hevent
          obtain ⟨rfl, rfl⟩ := Prod.mk.inj (List.mem_singleton.mp hevent)
          exact .commitWrite hok hfill (by rw [hgood, Bool.true_or])
        · rw [Logged.events_bind_silent] at hevent
          obtain ⟨rfl, rfl⟩ := Prod.mk.inj (List.mem_singleton.mp hevent)
          exact .commitWrite hok hfill (by rw [heof, Bool.or_true])
        · simp at hevent
        · simp at hevent
  · intro hcall
    cases hcall with
    | read hok =>
        simp only [fillBufferLogged, hok, if_true, hread,
          Logged.mem_events_bind]
        exact Or.inl (List.mem_singleton.mpr rfl)
    | commitWrite hok hfill hguard =>
        simp only [fillBufferLogged, hok, if_true, hread,
          Logged.mem_events_bind]
        refine Or.inr ⟨buffer, hfill, ?_⟩
        split_ifs with hgood heof hbad
        · rw [Logged.events_bind_silent]
          exact List.mem_singleton.mpr rfl
        · rw [Logged.events_bind_silent]
          exact List.mem_singleton.mpr rfl
        · simp [hgood, heof] at hguard
        · simp [hgood, heof] at hguard

/-- The log of the refill branch of an iteration. -/
theorem mem_refillLogged_iff {α : Type} {decoded : Reader σ ς Opts Content}
    {alreadyGotPartial : Bool}
    {next : Reader σ ς Opts Content → Outcome Fault α} :
    (buffer, call) ∈ ((if alreadyGotPartial then growLogged env decoded
        else .silent (.ok decoded)).bind fun before =>
      (fillBufferLogged env before).bind fun filled =>
        .silent (next filled)).events ↔
      (alreadyGotPartial = true ∧ buffer = decoded.buffer ∧
        call = .reserve decoded.mirrored (decoded.buffer.capacity * 2)) ∨
      ∃ before, (if alreadyGotPartial then grow env decoded
          else .ok decoded) = .ok before ∧
        FillCalls env before buffer call := by
  rw [Logged.mem_events_bind]
  simp only [Logged.events_bind_silent, mem_fillBufferLogged_iff]
  cases alreadyGotPartial with
  | false => simp
  | true =>
      simp only [if_true, growLogged_outcome, true_and]
      apply or_congr_left
      rw [growLogged, Logged.events_bind_silent]
      simp [MirroredRingBuffer.reserveLogged]

/-- The log of an iteration in which a message decodes. -/
theorem Decodes.mem_events_iff {len : ℕ} {decoded : Reader σ ς Opts Content}
    (hdecodes : Decodes env state (.ok len) decoded) :
    (buffer, call) ∈ (decodeIterationLogged env state).events ↔
      (buffer = state.reader.buffer ∧ call = .decode state.out) ∨
        (buffer = decoded.buffer ∧ call = .commitRead len) := by
  obtain ⟨bytes, message, hview, hdecode, rfl⟩ := hdecodes
  have hlogged : (state.reader.buffer.viewLogged state.out).outcome =
      .ok bytes := hview
  simp only [decodeIterationLogged]
  rw [Logged.mem_events_bind_of_ok hlogged, hdecode, Logged.silent_ok_bind]
  simp [MirroredRingBuffer.viewLogged, MirroredRingBuffer.commitReadLogged]

/-- The log of an iteration that asks for more bytes. -/
theorem AsksForMore.mem_events_iff {decoded : Reader σ ς Opts Content}
    (hasks : AsksForMore env state decoded) :
    (buffer, call) ∈ (decodeIterationLogged env state).events ↔
      (buffer = state.reader.buffer ∧ call = .decode state.out) ∨
        (state.alreadyGotPartial = true ∧ buffer = decoded.buffer ∧
          call = .reserve decoded.mirrored (decoded.buffer.capacity * 2)) ∨
        ∃ before, (if state.alreadyGotPartial then grow env decoded
            else .ok decoded) = .ok before ∧
          FillCalls env before buffer call := by
  obtain ⟨error, ⟨bytes, message, hview, hdecode, rfl⟩, hguard⟩ := hasks
  have hlogged : (state.reader.buffer.viewLogged state.out).outcome =
      .ok bytes := hview
  simp only [decodeIterationLogged]
  rw [Logged.mem_events_bind_of_ok hlogged, hdecode, Logged.silent_ok_bind]
  dsimp only
  rw [if_pos hguard, mem_refillLogged_iff]
  simp [MirroredRingBuffer.viewLogged]

/-- An iteration that neither decodes a message nor asks for more bytes hands
its span to the decoder and makes no other call. -/
theorem mem_decodeIterationLogged_cases
    (hevent : (buffer, call) ∈ (decodeIterationLogged env state).events) :
    (buffer = state.reader.buffer ∧ call = .decode state.out) ∨
      (∃ len decoded, Decodes env state (.ok len) decoded) ∨
        ∃ decoded, AsksForMore env state decoded := by
  simp only [decodeIterationLogged, Logged.mem_events_bind] at hevent
  obtain hevent | ⟨bytes, hview, hevent | ⟨⟨ret, message⟩, hdecode, hevent⟩⟩ :=
    hevent
  · exact Or.inl (Prod.mk.inj (List.mem_singleton.mp hevent))
  · simp at hevent
  have hdecodes : Decodes env state ret
      { state.reader with message_ := message } :=
    ⟨bytes, message, hview, hdecode, rfl⟩
  cases ret with
  | ok len => exact Or.inr (Or.inl ⟨len, _, hdecodes⟩)
  | error error =>
      by_cases hguard :
          (error.isPartialMsg && !state.reader.status.isStreamFinished) = true
      · exact Or.inr (Or.inr ⟨_, error, hdecodes, hguard⟩)
      · dsimp only at hevent
        rw [if_neg hguard] at hevent
        split at hevent
        · simp at hevent
        · simp at hevent

theorem mem_decodeIterationLogged_iff :
    (buffer, call) ∈ (decodeIterationLogged env state).events ↔
      IterationCalls env state buffer call := by
  constructor
  · intro hevent
    obtain ⟨rfl, rfl⟩ | ⟨len, decoded, hdecodes⟩ | ⟨decoded, hasks⟩ :=
      mem_decodeIterationLogged_cases hevent
    · exact .decode
    · obtain ⟨rfl, rfl⟩ | ⟨rfl, rfl⟩ := hdecodes.mem_events_iff.mp hevent
      · exact .decode
      · exact .commitRead hdecodes
    · obtain ⟨rfl, rfl⟩ | ⟨hgrows, rfl, rfl⟩ | ⟨before, hbefore, hfill⟩ :=
        hasks.mem_events_iff.mp hevent
      · exact .decode
      · exact .reserve hasks hgrows
      · exact .refill hasks hbefore hfill
  · intro hcall
    cases hcall with
    | decode =>
        simp only [decodeIterationLogged, Logged.mem_events_bind]
        exact Or.inl (List.mem_singleton.mpr rfl)
    | commitRead hdecodes =>
        exact hdecodes.mem_events_iff.mpr (Or.inr ⟨rfl, rfl⟩)
    | reserve hasks hgrows =>
        exact hasks.mem_events_iff.mpr (Or.inr (Or.inl ⟨hgrows, rfl, rfl⟩))
    | refill hasks hbefore hfill =>
        exact hasks.mem_events_iff.mpr (Or.inr (Or.inr ⟨_, hbefore, hfill⟩))

/-- The calls of the `while (true)` of `decode_one`. -/
theorem exists_mem_decodeOneLogged_iff :
    (∃ fuel, (buffer, call) ∈ (decodeOneLogged env fuel reader).events) ↔
      reader.status.notFinished = true ∧
        ∃ state, Reaches (decodeIteration env) (.enter reader false) state ∧
          IterationCalls env state buffer call := by
  unfold decodeOneLogged
  cases hstatus : reader.status.notFinished with
  | false => simp
  | true =>
      have herased : (fun state => (decodeIterationLogged env state).outcome) =
          decodeIteration env := by
        funext state
        exact decodeIterationLogged_outcome env state
      simp only [if_true, true_and]
      rw [Logged.exists_mem_events_run_iff, herased]
      simp only [mem_decodeIterationLogged_iff]

/-- The calls of `message`: those of the initial fill, and of `decode_one` on
what it leaves. -/
theorem exists_mem_startLogged_iff :
    (∃ fuel, (buffer, call) ∈ (startLogged env fuel reader).events) ↔
      reader.started = false ∧
        (FillCalls env { reader with started := true } buffer call ∨
          ∃ filled, fillBuffer env { reader with started := true } =
              .ok filled ∧
            ∃ fuel, (buffer, call) ∈
              (decodeOneLogged env fuel filled).events) := by
  have hstart : ∀ fuel, reader.started = false →
      ((buffer, call) ∈ (startLogged env fuel reader).events ↔
        FillCalls env { reader with started := true } buffer call ∨
          ∃ filled, fillBuffer env { reader with started := true } =
              .ok filled ∧
            (buffer, call) ∈ (decodeOneLogged env fuel filled).events) := by
    intro fuel hstarted
    simp only [startLogged, hstarted, Bool.false_eq_true, if_false,
      Logged.mem_events_bind, mem_fillBufferLogged_iff,
      fillBufferLogged_outcome]
    refine or_congr_right
      (exists_congr fun filled => and_congr_right fun _ => ?_)
    split
    · rfl
    · next hstatus => simp [decodeOneLogged, hstatus]
  constructor
  · rintro ⟨fuel, hevent⟩
    cases hstarted : reader.started with
    | true => simp [startLogged, hstarted] at hevent
    | false =>
        obtain hfill | ⟨filled, hfill, hdecode⟩ :=
          (hstart fuel hstarted).mp hevent
        · exact ⟨rfl, Or.inl hfill⟩
        · exact ⟨rfl, Or.inr ⟨filled, hfill, fuel, hdecode⟩⟩
  · rintro ⟨hstarted, hfill | ⟨filled, hfill, fuel, hdecode⟩⟩
    · exact ⟨0, (hstart 0 hstarted).mpr (Or.inl hfill)⟩
    · exact ⟨fuel, (hstart fuel hstarted).mpr
        (Or.inr ⟨filled, hfill, hdecode⟩)⟩

theorem mem_runLogged_of_starts {method : Call}
    (hstarts : method.starts = true) :
    (buffer, call) ∈ (method.runLogged env transformer fuel reader).events ↔
      (buffer, call) ∈ (startLogged env fuel reader).events := by
  rw [Call.runLogged, if_pos hstarts, Logged.events_bind_silent]

theorem mem_runLogged_of_not_starts {method : Call}
    (hstarts : method.starts = false) :
    (buffer, call) ∈ (method.runLogged env transformer fuel reader).events ↔
      (buffer, call) ∈ (decodeOneLogged env fuel reader).events := by
  rw [Call.runLogged, if_neg (by simp [hstarts]), Logged.events_bind_silent]

/-- A reader that has not started has been left by a sequence of calls. -/
theorem Reached.runCalls_eq_ok {fresh : Reader σ ς Opts Content}
    (hreached : Reached env transformer fresh reader)
    (hstarted : reader.started = false) :
    ∃ fuel calls returned,
      runCalls env transformer fuel calls fresh = .ok (reader, returned) := by
  cases hreached with
  | @calls fuel calls reader returned hcalls =>
      exact ⟨fuel, calls, returned, hcalls⟩
  | filled _ _ hfill =>
      rw [fillBuffer_started hfill] at hstarted
      simp at hstarted

/-- One more call of the client, on a reader that a sequence of calls has left,
logs `call`. -/
def Logs (env : ReaderEnv σ ς Opts Content)
    (transformer : TransformInput ς Content → τ)
    (fresh : Reader σ ς Opts Content) (buffer : MirroredRingBuffer)
    (call : BufferCall) : Prop :=
  ∃ fuel calls reader returned,
    runCalls env transformer fuel calls fresh = .ok (reader, returned) ∧
      ∃ more method, (buffer, call) ∈
        (Call.runLogged env transformer more method reader).events

variable {fresh : Reader σ ς Opts Content}

/-- `message` logs what the initial fill and the `decode_one` behind it do. -/
theorem Reached.logs_of_start (hreached : Reached env transformer fresh reader)
    (hstarted : reader.started = false)
    (hfirst : FillCalls env { reader with started := true } buffer call ∨
      ∃ filled, fillBuffer env { reader with started := true } = .ok filled ∧
        ∃ fuel, (buffer, call) ∈ (decodeOneLogged env fuel filled).events) :
    Logs env transformer fresh buffer call := by
  obtain ⟨fuel, calls, returned, hcalls⟩ := hreached.runCalls_eq_ok hstarted
  obtain ⟨more, hevent⟩ := exists_mem_startLogged_iff.mpr ⟨hstarted, hfirst⟩
  exact ⟨fuel, calls, reader, returned, hcalls, more, .message,
    (mem_runLogged_of_starts rfl).mpr hevent⟩

theorem Reached.logs_of_decodeOne
    (hreached : Reached env transformer fresh reader)
    (hdecode : ∃ fuel,
      (buffer, call) ∈ (decodeOneLogged env fuel reader).events) :
    Logs env transformer fresh buffer call := by
  cases hreached with
  | @calls fuel calls reader returned hcalls =>
      obtain ⟨more, hevent⟩ := hdecode
      exact ⟨fuel, calls, reader, returned, hcalls, more, .decodeOne,
        (mem_runLogged_of_not_starts rfl).mpr hevent⟩
  | filled hbefore hstarted hfill =>
      exact hbefore.logs_of_start hstarted (Or.inr ⟨reader, hfill, hdecode⟩)

theorem Reached.makes_of_decodeOne
    (hreached : Reached env transformer fresh reader)
    (hevent : (buffer, call) ∈ (decodeOneLogged env fuel reader).events) :
    Makes env transformer fresh buffer call := by
  obtain ⟨hstatus, state, hreaches, hcall⟩ :=
    exists_mem_decodeOneLogged_iff.mp ⟨fuel, hevent⟩
  exact .iteration hreached hstatus hreaches hcall

/-- The listed calls are exactly those that the runs log. -/
theorem makes_iff_logs :
    Makes env transformer fresh buffer call ↔
      Logs env transformer fresh buffer call := by
  constructor
  · intro hmakes
    cases hmakes with
    | initialFill hreached hstarted hfill =>
        exact hreached.logs_of_start hstarted (Or.inl hfill)
    | iteration hreached hstatus hreaches hcall =>
        exact hreached.logs_of_decodeOne
          (exists_mem_decodeOneLogged_iff.mpr ⟨hstatus, _, hreaches, hcall⟩)
  · rintro ⟨fuel, calls, reader, returned, hcalls, more, method, hevent⟩
    have hreached : Reached env transformer fresh reader := .calls hcalls
    cases hstarts : method.starts with
    | false =>
        rw [mem_runLogged_of_not_starts hstarts] at hevent
        exact hreached.makes_of_decodeOne hevent
    | true =>
        rw [mem_runLogged_of_starts hstarts] at hevent
        obtain ⟨hstarted, hfill | ⟨filled, hfill, steps, hdecode⟩⟩ :=
          exists_mem_startLogged_iff.mp ⟨more, hevent⟩
        · exact .initialFill hreached hstarted hfill
        · have hfilled : Reached env transformer fresh filled :=
            .filled hreached hstarted hfill
          exact hfilled.makes_of_decodeOne hdecode

end Reader

end ParseBgp.Io
