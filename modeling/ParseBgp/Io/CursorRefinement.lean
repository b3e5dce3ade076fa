import ParseBgp.Core.Cursor
import ParseBgp.Io.CallOrder
import ParseBgp.Io.SplitInput

/-!
# The reader as a cursor

A reader whose client loop yields certain messages and a status behaves, under
any mixture of `message`, `*`, `decode_one` and `++`, like a cursor over these
messages: looking twice shows the same message, each decode moves by one, and
behind the last message every look shows the same status.
-/

namespace ParseBgp.Io.Reader

open Loop WholeInput

variable {σ ς Opts Content τ : Type}

/-- A started reader is at the cursor: the client loop yields what the cursor
has left, and leaves the reader as `final`. -/
structure Follows (env : ReaderEnv σ ς Opts Content) (fuel : ℕ)
    (final reader : Reader σ ς Opts Content)
    (cursor : Cursor (Message Content) (ReaderStatus ς)) : Prop where
  started : reader.started = true
  rest : ∃ calls, readAll env fuel calls reader =
    .ok (cursor.remaining, cursor.ending, final)

/-- What one call does on a cursor. -/
def Call.runCursor (transformer : TransformInput ς Content → τ) (call : Call)
    (cursor : Cursor (Message Content) (ReaderStatus ς)) :
    Cursor (Message Content) (ReaderStatus ς) × List τ :=
  if call.starts then (cursor, [transformer cursor.current])
  else (cursor.advance, [])

/-- A sequence of calls on a cursor: where it is afterwards and all returned
values. -/
def runCursor (transformer : TransformInput ς Content → τ) :
    List Call → Cursor (Message Content) (ReaderStatus ς) →
      Cursor (Message Content) (ReaderStatus ς) × List τ
  | [], cursor => (cursor, [])
  | call :: rest, cursor =>
      let first := call.runCursor transformer cursor
      let last := runCursor transformer rest first.1
      (last.1, first.2 ++ last.2)

variable {env : ReaderEnv σ ς Opts Content} {opts : Opts} {fuel : ℕ}
variable {final reader : Reader σ ς Opts Content}
variable {cursor : Cursor (Message Content) (ReaderStatus ς)}

/-! ## Steps -/

namespace Follows

/-- A reader shows what its cursor shows. -/
theorem current_eq (hfollows : Follows env fuel final reader cursor) :
    reader.current = cursor.current := by
  obtain ⟨calls, hread⟩ := hfollows.rest
  obtain ⟨remaining, ending⟩ := cursor
  rcases readAll_cases hfollows.started hread with
    ⟨hended, hnone, hstatus, -⟩ | ⟨hnot, next, more, rest, -, -, hcons, -⟩
  · simp only at hnone hstatus
    rw [hnone, hstatus, current, Cursor.current_nil, hended]
    rfl
  · simp only at hcons
    rw [hcons, current, Cursor.current_cons, hnot]
    rfl

theorem notAtEnd_eq (hfollows : Follows env fuel final reader cursor) :
    reader.notAtEnd = !cursor.atEnd := by
  obtain ⟨calls, hread⟩ := hfollows.rest
  rcases readAll_cases hfollows.started hread with
    ⟨hended, hnone, -, -⟩ | ⟨hnot, next, more, rest, -, -, hcons, -⟩
  · rw [notAtEnd, hended, Cursor.atEnd, hnone]
    rfl
  · rw [notAtEnd, hnot, Cursor.atEnd, hcons]
    rfl

/-- `message` looks at the cursor and leaves the reader as it is. -/
theorem message (hfollows : Follows env fuel final reader cursor)
    (transformer : TransformInput ς Content → τ) :
    Reader.message env transformer fuel reader =
      .ok (reader, transformer cursor.current) := by
  rw [message_of_started transformer hfollows.started, hfollows.current_eq]

/-- `decode_one` moves the reader and the cursor by one. -/
theorem decodeOne (hfollows : Follows env fuel final reader cursor) :
    ∃ after, Reader.decodeOne env fuel reader = .ok after ∧
      Follows env fuel final after cursor.advance := by
  obtain ⟨calls, hread⟩ := hfollows.rest
  obtain ⟨remaining, ending⟩ := cursor
  rcases readAll_cases hfollows.started hread with
    ⟨hended, hnone, -, -⟩ | ⟨-, next, more, rest, -, hnext, hcons, hmore⟩
  · simp only at hnone
    subst hnone
    exact ⟨reader, decodeOne_of_ended hended, hfollows⟩
  · simp only at hcons
    subst hcons
    refine ⟨next, hnext, ?_, more, hmore⟩
    exact (decodeOne_started hnext).trans hfollows.started

/-- Behind the last message the reader is the one that the client loop
leaves. -/
theorem eq_final {status : ReaderStatus ς}
    (hfollows : Follows env fuel final reader ⟨[], status⟩) :
    reader = final ∧ final.status = status := by
  obtain ⟨calls, hread⟩ := hfollows.rest
  rcases readAll_cases hfollows.started hread with
    ⟨-, -, hstatus, hfinal⟩ | ⟨-, next, more, rest, -, -, hcons, -⟩
  · exact ⟨hfinal.symm, by rw [hfinal, ← hstatus]⟩
  · simp at hcons

/-- One call on a reader does what it does on the cursor. -/
theorem call (hfollows : Follows env fuel final reader cursor)
    (transformer : TransformInput ς Content → τ) (call : Call) :
    ∃ after, call.run env transformer fuel reader =
        .ok (after, (call.runCursor transformer cursor).2) ∧
      Follows env fuel final after (call.runCursor transformer cursor).1 := by
  cases hstarts : call.starts with
  | true =>
      refine ⟨reader, ?_, ?_⟩
      · rw [Call.run_of_starts hstarts, start, if_pos hfollows.started,
          Outcome.ok_bind, hfollows.current_eq, Call.runCursor, if_pos hstarts]
      · rw [Call.runCursor, if_pos hstarts]
        exact hfollows
  | false =>
      obtain ⟨after, hdecode, hafter⟩ := hfollows.decodeOne
      refine ⟨after, ?_, ?_⟩
      · rw [Call.run_of_not_starts hstarts, hdecode, Outcome.ok_bind,
          Call.runCursor, if_neg (by simp [hstarts])]
      · rw [Call.runCursor, if_neg (by simp [hstarts])]
        exact hafter

/-- A sequence of calls on a reader does what it does on the cursor. -/
theorem runCalls (hfollows : Follows env fuel final reader cursor)
    (transformer : TransformInput ς Content → τ) (calls : List Call) :
    ∃ after, Reader.runCalls env transformer fuel calls reader =
        .ok (after, (runCursor transformer calls cursor).2) ∧
      Follows env fuel final after (runCursor transformer calls cursor).1 := by
  induction calls generalizing reader cursor with
  | nil => exact ⟨reader, rfl, hfollows⟩
  | cons call rest ih =>
      obtain ⟨first, hcall, hfirst⟩ := hfollows.call transformer call
      obtain ⟨last, hrest, hlast⟩ := ih hfirst
      refine ⟨last, ?_, hlast⟩
      rw [Reader.runCalls, hcall, Outcome.ok_bind, hrest, Outcome.ok_bind]
      rfl

end Follows

/-! ## Runs from a new reader -/

/-- A reader that has not been started follows the cursor over the messages of
its client loop as soon as it is. -/
theorem follows_of_readAll {calls : ℕ} {messages : List (Message Content)}
    {status : ReaderStatus ς}
    (hread : readAll env fuel calls reader = .ok (messages, status, final)) :
    ∃ after, start env fuel reader = .ok after ∧
      Follows env fuel final after ⟨messages, status⟩ := by
  obtain ⟨after, hstart, hstarted, hrest⟩ := readAll_start hread
  exact ⟨after, hstart, hstarted, calls, hrest⟩

/-- A sequence of calls whose first is `message` or `*` goes on as on the
reader that this call has started. -/
theorem runCalls_of_start {after : Reader σ ς Opts Content}
    (transformer : TransformInput ς Content → τ) {call : Call}
    (hstarts : call.starts = true) (rest : List Call)
    (hstart : start env fuel reader = .ok after) :
    runCalls env transformer fuel (call :: rest) reader =
      runCalls env transformer fuel (call :: rest) after := by
  have hagain : start env fuel after = .ok after := by
    rw [start, if_pos (start_started hstart)]
  rw [runCalls, runCalls, Call.run_of_starts hstarts,
    Call.run_of_starts hstarts, hstart, hagain]

/-- Over a stream that hands out `input` exactly, with messages that fit the
buffer, every sequence of calls that begins with `message` or `*` returns, and
what it returns is what a cursor over the reference run of `input` shows. -/
theorem runCalls_refines_cursor
    (hlawful : Lawful (env.answer opts) .partialMsg)
    {Left : σ → List UInt8 → Prop} {bound : ℕ}
    (hexact : env.stream.ExactUpTo bound Left)
    (stream : σ) (content : Content) {bufferSize : ℕ}
    {block : MirroredMemory.Block UInt8}
    (hcreate : env.mirrors.create 0 bufferSize = some block)
    (hbound : block.capacity ≤ bound)
    (input : List UInt8) (hleft : Left stream input)
    (hfits : Fits (env.answer opts) .partialMsg block.capacity input)
    (hfuel : 2 ≤ fuel) (transformer : TransformInput ς Content → τ)
    (call : Call) (hstarts : call.starts = true) (rest : List Call) :
    ∃ after, runCalls env transformer fuel (call :: rest)
        (create env stream (some opts) (some content) bufferSize) =
      .ok (after, (runCursor transformer (call :: rest)
        ⟨(reference (env.answer opts) input).1.map some,
          statusOf (reference (env.answer opts) input).2⟩).2) := by
  obtain ⟨final, hread⟩ := readAll_of_fits hlawful hexact hcreate hbound hleft
    hfits hfuel (Nat.lt_succ_self input.length)
  obtain ⟨started, hstart, hfollows⟩ := follows_of_readAll hread
  obtain ⟨after, hrun, -⟩ := hfollows.runCalls transformer (call :: rest)
  refine ⟨after, ?_⟩
  rw [runCalls_of_start transformer hstarts rest hstart, hrun]

/-- Looking twice at the first of two messages, then past the end. -/
theorem runCalls_refines_cursor_two :
    ∃ after, runCalls prefixedEnv identityTransform 2
        [.message, .dereference, .decodeOne, .message, .increment, .increment,
          .message]
        (create prefixedEnv ⟨[2, 7, 3, 8, 9], false⟩ (some ()) (some []) 255) =
      .ok (after, [.ok (some [2, 7]), .ok (some [2, 7]), .ok (some [3, 8, 9]),
        .error (.ofValue .finished)]) := by
  have hcreate : prefixedEnv.mirrors.create 0 255 =
      some ⟨255, fun _ => 0, by decide⟩ := rfl
  exact runCalls_refines_cursor prefixedEnv_lawful
    (listStream_exactReads.upTo 255) _ [] hcreate le_rfl [2, 7, 3, 8, 9] rfl
    (prefixedEnv_fits _) le_rfl identityTransform .message rfl _

end ParseBgp.Io.Reader
