import ParseBgp.Core.ListLoop
import ParseBgp.Io.CursorRefinement
import ParseBgp.Io.RangeFor

/-!
# Range-for loops that act and break

The body of a range-for over a reader has effects of its own and may break.
Iterators hold nothing but the address of the reader, so a loop that broke
leaves the reader at the message it broke at, and the next loop begins with that
message.
-/

namespace ParseBgp.Io.Reader

open Loop WholeInput

variable {σ ς Opts Content τ ε S : Type}

/-- `for (auto msg : reader) { body }`, at most `rounds` tests of its
condition: the state of the body and the reader afterwards.  `seen` is how the
caller sees a fault of the reader. -/
def forEach (env : ReaderEnv σ ς Opts Content)
    (transformer : TransformInput ς Content → τ) (fuel : ℕ)
    (seen : Fault → ε) (body : S → τ → Outcome ε (Flow S)) :
    ℕ → S → Reader σ ς Opts Content →
      Outcome ε (S × Reader σ ς Opts Content)
  | 0, _, _ => .outOfFuel
  | rounds + 1, state, reader =>
      if reader.notAtEnd then
        ((dereference env transformer fuel reader).mapFault seen).bind
          fun (reader, msg) =>
            (body state msg).bind fun
              | .leave state => .ok (state, reader)
              | .next state =>
                  ((increment env fuel reader).mapFault seen).bind
                    fun reader =>
                      forEach env transformer fuel seen body rounds state reader
      else .ok (state, reader)

/-- Several loops in a row over one reader. -/
def forEachAll (env : ReaderEnv σ ς Opts Content)
    (transformer : TransformInput ς Content → τ) (fuel : ℕ)
    (seen : Fault → ε) (rounds : ℕ) :
    List (S → τ → Outcome ε (Flow S)) → S → Reader σ ς Opts Content →
      Outcome ε (S × Reader σ ς Opts Content)
  | [], state, reader => .ok (state, reader)
  | body :: rest, state, reader =>
      (forEach env transformer fuel seen body rounds state reader).bind
        fun (state, reader) =>
          forEachAll env transformer fuel seen rounds rest state reader

variable {env : ReaderEnv σ ς Opts Content} {opts : Opts}
variable {transformer : TransformInput ς Content → τ} {fuel rounds : ℕ}
variable {seen : Fault → ε} {body : S → τ → Outcome ε (Flow S)}
variable {reader after final : Reader σ ς Opts Content} {state : S}
variable {messages : List (Message Content)} {status : ReaderStatus ς}

/-- The loop of `rangeFor` is the one whose body collects what it is shown. -/
theorem forEach_collect (shown : List τ) :
    forEach env transformer fuel id (fun shown msg => .ok (.next (shown ++ [msg])))
        rounds shown reader =
      (rangeFor env transformer fuel rounds reader).bind fun result =>
        .ok (shown ++ result.1, result.2) := by
  induction rounds generalizing shown reader with
  | zero => rfl
  | succ rounds ih =>
      rw [forEach, rangeFor]
      split
      · cases dereference env transformer fuel reader with
        | fault error => rfl
        | outOfFuel => rfl
        | ok result =>
            obtain ⟨looked, msg⟩ := result
            simp only [Outcome.ok_mapFault, Outcome.ok_bind]
            cases increment env fuel looked with
            | fault error => rfl
            | outOfFuel => rfl
            | ok moved =>
                simp only [Outcome.ok_mapFault, Outcome.ok_bind,
                  Outcome.bind_assoc, ih]
                simp
      · simp

/-- The body, as it runs on a message. -/
def onMessage (transformer : TransformInput ς Content → τ)
    (body : S → τ → Outcome ε (Flow S)) (state : S) (msg : Message Content) :
    Outcome ε (Flow S) :=
  body state (transformer (.ok msg))

/-- After a loop: the state is that of the loop over the list, and the client
loop yields the messages that are left. -/
def LeftAt (env : ReaderEnv σ ς Opts Content) (fuel : ℕ)
    (status : ReaderStatus ς) (result : S × Reader σ ς Opts Content)
    (spec : S × List (Message Content)) : Prop :=
  result.1 = spec.1 ∧ ∃ calls final, readAll env fuel calls result.2 =
    .ok (spec.2, status, final)

/-- On a started reader a range-for is the loop over the messages that are
left, and stays at the message it breaks at. -/
theorem Follows.forEach
    (hfollows : Follows env fuel final reader ⟨messages, status⟩)
    (hrounds : messages.length < rounds) :
    Outcome.Rel
      (fun result spec => result.1 = spec.1 ∧
        Follows env fuel final result.2 ⟨spec.2, status⟩)
      (Reader.forEach env transformer fuel seen body rounds state reader)
      (forList (onMessage transformer body) messages state) := by
  induction messages generalizing reader state rounds with
  | nil =>
      obtain ⟨rounds, rfl⟩ := Nat.exists_eq_succ_of_ne_zero hrounds.ne'
      rw [Reader.forEach, hfollows.notAtEnd_eq]
      exact .ok ⟨rfl, hfollows⟩
  | cons msg rest ih =>
      obtain ⟨rounds, rfl⟩ := Nat.exists_eq_succ_of_ne_zero
        (Nat.ne_zero_of_lt hrounds)
      have hmore : rest.length < rounds := by simpa using hrounds
      rw [Reader.forEach, hfollows.notAtEnd_eq, dereference,
        hfollows.message transformer, forList]
      apply (Outcome.Rel.refl (fun _ => rfl) _).bind
      rintro flow _ rfl
      cases flow with
      | leave state => exact .ok ⟨rfl, hfollows⟩
      | next state =>
          obtain ⟨moved, hmoved, hafter⟩ := hfollows.decodeOne
          simp only [increment, hmoved, Outcome.ok_mapFault, Outcome.ok_bind]
          exact ih hafter hmore

/-- A first dereference that delivers a message leaves the loop as if the
reader had been started before it. -/
theorem forEach_of_start (hnot : reader.status.notFinished = true)
    (hstart : start env fuel reader = .ok after)
    (hnot' : after.status.notFinished = true) :
    forEach env transformer fuel seen body rounds state reader =
      forEach env transformer fuel seen body rounds state after := by
  cases rounds with
  | zero => rfl
  | succ rounds =>
      simp only [forEach, notAtEnd, hnot, hnot', if_true, dereference,
        message_of_started transformer (start_started hstart)]
      simp only [message, hstart, Outcome.ok_bind]

theorem Follows.notFinished_of_ne_nil
    (hfollows : Follows env fuel final reader ⟨messages, status⟩)
    (hsome : messages ≠ []) : reader.status.notFinished = true := by
  have hend := hfollows.notAtEnd_eq
  rw [notAtEnd] at hend
  rw [hend, Cursor.atEnd, Bool.not_eq_true', List.isEmpty_eq_false_iff]
  exact hsome

/-- A range-for on a reader whose client loop yields messages is the loop over
them. -/
theorem forEach_of_readAll {calls : ℕ}
    (hnot : reader.status.notFinished = true)
    (hread : readAll env fuel calls reader = .ok (messages, status, final))
    (hsome : messages ≠ []) (hrounds : messages.length < rounds) :
    Outcome.Rel
      (fun result spec => result.1 = spec.1 ∧
        Follows env fuel final result.2 ⟨spec.2, status⟩)
      (forEach env transformer fuel seen body rounds state reader)
      (forList (onMessage transformer body) messages state) := by
  obtain ⟨after, hstart, hfollows⟩ := follows_of_readAll hread
  have hnot' := hfollows.notFinished_of_ne_nil hsome
  rw [forEach_of_start hnot hstart hnot']
  exact hfollows.forEach hrounds

/-- A range-for whose body appends to its state collects what it appends for
each message, and leaves the reader as the client loop does. -/
theorem forEach_collect_of_readAll {P : Type} {calls : ℕ}
    {produce : Message Content → Outcome ε (List P)}
    {body : List P → τ → Outcome ε (Flow (List P))}
    (hbody : ∀ out msg, onMessage transformer body out msg =
      (produce msg).bind fun more => .ok (.next (out ++ more)))
    (hnot : reader.status.notFinished = true)
    (hread : readAll env fuel calls reader = .ok (messages, status, final))
    (hsome : messages ≠ []) (hrounds : messages.length < rounds)
    (out : List P) :
    forEach env transformer fuel seen body rounds out reader =
      (collect produce messages).bind fun more => .ok (out ++ more, final) := by
  have hloop : Outcome.Rel
      (fun result spec => result.1 = spec.1 ∧
        Follows env fuel final result.2 ⟨spec.2, status⟩)
      (forEach env transformer fuel seen body rounds out reader)
      (forList (onMessage transformer body) messages out) :=
    forEach_of_readAll hnot hread hsome hrounds
  have hlist := forList_collect hbody messages out
  have hthrough : ∀ spec : List P × List (Message Content),
      forList (onMessage transformer body) messages out = .ok spec →
        spec.2 = [] := by
    intro spec hspec
    rw [hlist] at hspec
    obtain ⟨more, -, hmore⟩ := Outcome.bind_eq_ok_iff.mp hspec
    rw [← Outcome.ok.inj hmore]
  have hall : Outcome.Rel
      (fun result (spec : List P × List (Message Content)) =>
        result = (spec.1, final))
      (forEach env transformer fuel seen body rounds out reader)
      (forList (onMessage transformer body) messages out) := by
    apply (hloop.and_right hthrough).mono
    rintro ⟨shown, last⟩ ⟨_, _⟩ ⟨⟨rfl, hfollows⟩, rfl⟩
    exact congrArg (Prod.mk shown) hfollows.eq_final.1
  rw [hall.eq_bind, hlist, Outcome.bind_assoc]
  simp only [Outcome.ok_bind]

/-- A range-for on a reader whose client loop yields no message shows its
status to the body, once. -/
theorem forEach_of_readAll_nil {calls : ℕ}
    (hnot : reader.status.notFinished = true)
    (hread : readAll env fuel calls reader = .ok ([], status, final))
    (hrounds : 2 ≤ rounds) :
    Outcome.Rel (fun result spec => result.1 = spec.1)
      (forEach env transformer fuel seen body rounds state reader)
      (forList (fun state (_ : Unit) =>
        body state (transformer (.error status))) [()] state) := by
  obtain ⟨rounds, rfl⟩ := Nat.exists_eq_add_of_le' hrounds
  obtain ⟨after, hstart, hfollows⟩ := follows_of_readAll hread
  have hended : after.notAtEnd = false := hfollows.notAtEnd_eq
  have hlook : message env transformer fuel reader =
      .ok (after, transformer (.error status)) := by
    rw [message, hstart, Outcome.ok_bind, hfollows.current_eq]
    rfl
  have hmove : decodeOne env fuel after = .ok after :=
    decodeOne_of_ended hended
  rw [forEach, notAtEnd, if_pos hnot, dereference, hlook,
    Outcome.ok_mapFault, Outcome.ok_bind, forList]
  apply (Outcome.Rel.refl (fun _ => rfl) _).bind
  rintro flow _ rfl
  cases flow with
  | leave state => exact .ok rfl
  | next state =>
      simp only [increment, hmove, Outcome.ok_mapFault, Outcome.ok_bind,
        forEach, hended, Bool.false_eq_true, if_false]
      exact .ok rfl

/-- A client loop whose first read fails yields the status of the stream. -/
theorem readAll_of_unreadable {calls : ℕ} (hvalid : reader.buffer.Valid)
    (hok : reader.status.isOk = true) (hstarted : reader.started = false)
    (hfails : env.stream.FailsAt reader.stream
      reader.buffer.availableWrite) :
    ∃ final, readAll env fuel (calls + 1) reader =
      .ok ([], .ofStream (env.stream.status (refilled env reader)), final) := by
  let ready : Reader σ ς Opts Content := { reader with started := true }
  have hvalid' : ready.buffer.Valid := hvalid
  obtain ⟨buffer, hfill, -⟩ := fillBuffer_of_fails hvalid' hok hfails
  have hstart : start env fuel reader = .ok (ready.afterRead env buffer
      (.ofStream (env.stream.status (refilled env ready)))) := by
    rw [start, hstarted, if_neg Bool.false_ne_true]
    change (fillBuffer env ready).bind _ = _
    rw [hfill]
    rfl
  exact ⟨_, (readAll_of_start hstart rfl).trans
    (readAll_of_ended calls rfl rfl)⟩

/-- Loops in a row on a started reader. -/
theorem Follows.forEachAll
    (hfollows : Follows env fuel final reader ⟨messages, status⟩)
    (hrounds : messages.length < rounds)
    (bodies : List (S → τ → Outcome ε (Flow S))) :
    Outcome.Rel (LeftAt env fuel status)
      (Reader.forEachAll env transformer fuel seen rounds bodies state reader)
      (forListAll (bodies.map (onMessage transformer)) messages state) := by
  induction bodies generalizing reader messages state with
  | nil =>
      obtain ⟨calls, hread⟩ := hfollows.rest
      exact .ok ⟨rfl, calls, final, hread⟩
  | cons body rest ih =>
      rw [Reader.forEachAll, List.map_cons, forListAll]
      have hfirst : Outcome.Rel _
          (Reader.forEach env transformer fuel seen body rounds state reader)
          (forList (onMessage transformer body) messages state) :=
        hfollows.forEach hrounds
      apply (hfirst.and_right
        fun _ hloop => (forList_suffix hloop).length_le).bind
      rintro ⟨state', stopped⟩ ⟨_, left⟩ ⟨⟨rfl, hleft⟩, hshorter⟩
      exact ih hleft (lt_of_le_of_lt hshorter hrounds)

/-- Loops in a row on a reader whose client loop yields messages. -/
theorem forEachAll_of_readAll {calls : ℕ}
    (hnot : reader.status.notFinished = true)
    (hread : readAll env fuel calls reader = .ok (messages, status, final))
    (hsome : messages ≠ []) (hrounds : messages.length < rounds)
    (bodies : List (S → τ → Outcome ε (Flow S))) :
    Outcome.Rel (LeftAt env fuel status)
      (forEachAll env transformer fuel seen rounds bodies state reader)
      (forListAll (bodies.map (onMessage transformer)) messages state) := by
  cases bodies with
  | nil => exact .ok ⟨rfl, calls, final, hread⟩
  | cons body rest =>
      obtain ⟨after, hstart, hfollows⟩ := follows_of_readAll hread
      have hnot' : after.status.notFinished = true :=
        hfollows.notFinished_of_ne_nil hsome
      have hsame : forEachAll env transformer fuel seen rounds (body :: rest)
          state reader =
            forEachAll env transformer fuel seen rounds (body :: rest) state
              after := by
        rw [forEachAll, forEachAll, forEach_of_start hnot hstart hnot']
      rw [hsame]
      exact hfollows.forEachAll hrounds (body :: rest)

/-- Range-for loops over one reader that break resume where the one before them
stopped: over a stream with exact reads, whose content starts with a message and
fits the buffer, any number of loops in a row, whatever their bodies do, are
loops in a row over the list of the messages of the reference run, and the
client loop yields the messages that they leave. -/
theorem forEachAll_refines_list
    (hlawful : Lawful (env.answer opts) .partialMsg)
    {Left : σ → List UInt8 → Prop} {bound : ℕ}
    (hexact : env.stream.ExactUpTo bound Left)
    (stream : σ) (content : Content) {bufferSize : ℕ}
    {block : MirroredMemory.Block UInt8}
    (hcreate : env.mirrors.create 0 bufferSize = some block)
    (hbound : block.capacity ≤ bound)
    (input : List UInt8) (hleft : Left stream input)
    (hfits : Fits (env.answer opts) .partialMsg block.capacity input)
    (hfuel : 2 ≤ fuel) (hsome : (reference (env.answer opts) input).1 ≠ [])
    (hrounds : (reference (env.answer opts) input).1.length < rounds)
    (transformer : TransformInput ς Content → τ) (seen : Fault → ε)
    (bodies : List (S → τ → Outcome ε (Flow S))) (state : S) :
    Outcome.Rel
      (LeftAt env fuel (statusOf (reference (env.answer opts) input).2))
      (forEachAll env transformer fuel seen rounds bodies state
        (create env stream (some opts) (some content) bufferSize))
      (forListAll (bodies.map (onMessage transformer))
        ((reference (env.answer opts) input).1.map some) state) := by
  obtain ⟨final, hread⟩ := readAll_of_fits hlawful hexact hcreate hbound hleft
    hfits hfuel (Nat.lt_succ_self input.length)
  apply forEachAll_of_readAll _ hread
  · simpa using hsome
  · simpa using hrounds
  · exact ReaderStatus.notFinished_of_isOk
      (create_isOk opts stream content hcreate)

/-- Two loops that break at their first message: both see the same one. -/
theorem forEachAll_refines_list_two :
    Outcome.Rel (LeftAt prefixedEnv 2 (.ofValue .finished))
      (forEachAll prefixedEnv identityTransform 2 id 3
        [fun shown msg => .ok (.leave (shown ++ [msg])),
          fun shown msg => .ok (.leave (shown ++ [msg]))] []
        (create prefixedEnv ⟨[2, 7, 3, 8, 9], false⟩ (some ()) (some []) 255))
      (.ok ([.ok (some [2, 7]), .ok (some [2, 7])],
        [some [2, 7], some [3, 8, 9]])) := by
  have hcreate : prefixedEnv.mirrors.create 0 255 =
      some ⟨255, fun _ => 0, by decide⟩ := rfl
  exact forEachAll_refines_list prefixedEnv_lawful
    (listStream_exactReads.upTo 255) _ [] hcreate le_rfl [2, 7, 3, 8, 9] rfl
    (prefixedEnv_fits _) le_rfl (by decide) (by decide) identityTransform id _ []

end ParseBgp.Io.Reader
