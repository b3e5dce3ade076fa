import ParseBgp.Core.InputSplit
import ParseBgp.Io.GzipReader
import ParseBgp.Io.WholeInputRefinement

/-!
# Streams that refuse large reads

`gzread` takes an `unsigned` and refuses counts above `INT_MAX`, so a
`GzipStream` hands out exactly what it is asked for up to a bound only.  As long
as the buffer does not grow beyond the bound, a reader cannot tell such a stream
from one that serves large reads in parts.
-/

namespace ParseBgp.Io

open Loop WholeInput

variable {σ ς Opts Content : Type}

namespace ByteStream

/-- Reads of at most `bound` bytes hand out exactly what they are asked for, and
the end is signalled by the first of them that comes up short. -/
structure ExactUpTo (stream : ByteStream σ ς) (bound : ℕ)
    (Left : σ → List UInt8 → Prop) : Prop where
  full : ∀ {state : σ} {bytes : List UInt8} {count : ℕ}, Left state bytes →
    count ≤ bound → count ≤ bytes.length →
      (stream.read state count).1 = bytes.take count ∧
        stream.good (stream.read state count).2 = true ∧
        Left (stream.read state count).2 (bytes.drop count)
  short : ∀ {state : σ} {bytes : List UInt8} {count : ℕ}, Left state bytes →
    count ≤ bound → bytes.length < count →
      (stream.read state count).1 = bytes ∧
        stream.good (stream.read state count).2 = false ∧
        stream.eof (stream.read state count).2 = true

/-- A read of any count, in parts of at most `bound` bytes. -/
def readInParts (stream : ByteStream σ ς) (bound : ℕ) (state : σ)
    (count : ℕ) : List UInt8 × σ :=
  if count ≤ bound ∨ bound = 0 then stream.read state count
  else
    let first := stream.read state bound
    if stream.good first.2 then
      let rest := stream.readInParts bound first.2 (count - bound)
      (first.1 ++ rest.1, rest.2)
    else first
termination_by count

/-- The stream, with large reads served in parts. -/
def inParts (stream : ByteStream σ ς) (bound : ℕ) : ByteStream σ ς :=
  { stream with read := stream.readInParts bound }

variable {stream : ByteStream σ ς} {bound : ℕ}
variable {Left : σ → List UInt8 → Prop}

theorem readInParts_of_le {count : ℕ} (hcount : count ≤ bound) (state : σ) :
    stream.readInParts bound state count = stream.read state count := by
  rw [readInParts, if_pos (Or.inl hcount)]

theorem ExactReads.upTo (hexact : stream.ExactReads Left) (bound : ℕ) :
    stream.ExactUpTo bound Left where
  full := fun hleft _ hcount => hexact.full hleft hcount
  short := fun hleft _ hcount => hexact.short hleft hcount

section Parts

variable (hexact : stream.ExactUpTo bound Left) (hbound : 0 < bound)
include hexact hbound

/-- A large read goes on behind its first part, or ends in it. -/
theorem ExactUpTo.readInParts_cases {state : σ} {bytes : List UInt8}
    {count : ℕ} (hleft : Left state bytes) (hcount : bound < count) :
    (bound ≤ bytes.length ∧ ∃ next, Left next (bytes.drop bound) ∧
      stream.readInParts bound state count =
        (bytes.take bound ++
            (stream.readInParts bound next (count - bound)).1,
          (stream.readInParts bound next (count - bound)).2)) ∨
    (bytes.length < bound ∧
      stream.readInParts bound state count = stream.read state bound) := by
  have hlarge : ¬ (count ≤ bound ∨ bound = 0) := by omega
  by_cases hbytes : bound ≤ bytes.length
  · obtain ⟨hread, hgood, hnext⟩ := hexact.full hleft le_rfl hbytes
    refine Or.inl ⟨hbytes, _, hnext, ?_⟩
    rw [readInParts, if_neg hlarge]
    simp only [hgood, if_true, hread]
  · obtain ⟨-, hgood, -⟩ := hexact.short hleft le_rfl (not_le.mp hbytes)
    refine Or.inr ⟨not_le.mp hbytes, ?_⟩
    rw [readInParts, if_neg hlarge]
    simp only [hgood, Bool.false_eq_true, if_false]

/-- Served in parts, reads of any count are exact. -/
theorem ExactUpTo.inParts : (stream.inParts bound).ExactReads Left where
  full := by
    intro state bytes count
    induction count using Nat.strong_induction_on generalizing state bytes with
    | _ count ih =>
        intro hleft hcount
        change (stream.readInParts bound state count).1 = bytes.take count ∧
          stream.good (stream.readInParts bound state count).2 = true ∧
          Left (stream.readInParts bound state count).2 (bytes.drop count)
        by_cases hsmall : count ≤ bound
        · rw [readInParts_of_le hsmall]
          exact hexact.full hleft hsmall hcount
        rcases hexact.readInParts_cases hbound hleft (not_le.mp hsmall) with
          ⟨-, next, hnext, hparts⟩ | ⟨hshort, -⟩
        · have hrest : count - bound ≤ (bytes.drop bound).length := by
            rw [List.length_drop]
            omega
          obtain ⟨hread, hgood, hlast⟩ :=
            ih (count - bound) (by omega) hnext hrest
          rw [List.drop_drop, show bound + (count - bound) = count by omega]
            at hlast
          rw [hparts]
          refine ⟨?_, hgood, hlast⟩
          change bytes.take bound ++
            (stream.readInParts bound next (count - bound)).1 = bytes.take count
          change (stream.readInParts bound next (count - bound)).1 = _ at hread
          rw [hread, ← List.take_add, show bound + (count - bound) = count by
            omega]
        · omega
  short := by
    intro state bytes count
    induction count using Nat.strong_induction_on generalizing state bytes with
    | _ count ih =>
        intro hleft hcount
        change (stream.readInParts bound state count).1 = bytes ∧
          stream.good (stream.readInParts bound state count).2 = false ∧
          stream.eof (stream.readInParts bound state count).2 = true
        by_cases hsmall : count ≤ bound
        · rw [readInParts_of_le hsmall]
          exact hexact.short hleft hsmall hcount
        rcases hexact.readInParts_cases hbound hleft (not_le.mp hsmall) with
          ⟨hlong, next, hnext, hparts⟩ | ⟨hshort, hparts⟩
        · have hrest : (bytes.drop bound).length < count - bound := by
            rw [List.length_drop]
            omega
          obtain ⟨hread, hgood, heof⟩ :=
            ih (count - bound) (by omega) hnext hrest
          rw [hparts]
          refine ⟨?_, hgood, heof⟩
          change bytes.take bound ++
            (stream.readInParts bound next (count - bound)).1 = bytes
          change (stream.readInParts bound next (count - bound)).1 = _ at hread
          rw [hread, List.take_append_drop]
        · rw [hparts]
          exact hexact.short hleft le_rfl hshort

end Parts

end ByteStream

/-- The instantiation with the stream that serves large reads in parts. -/
def ReaderEnv.inParts (env : ReaderEnv σ ς Opts Content) (bound : ℕ) :
    ReaderEnv σ ς Opts Content :=
  { env with stream := env.stream.inParts bound }

namespace Reader

variable {env : ReaderEnv σ ς Opts Content} {opts : Opts} {bound : ℕ}
variable {Left : σ → List UInt8 → Prop} {bytes : List UInt8}
variable {reader : Reader σ ς Opts Content}

theorem fillBuffer_inParts (hvalid : reader.buffer.Valid)
    (hbound : reader.buffer.capacity ≤ bound) :
    fillBuffer (env.inParts bound) reader = fillBuffer env reader := by
  have hcount : reader.buffer.availableWrite ≤ bound := by
    rw [hvalid.availableWrite_eq]
    exact (Nat.sub_le _ _).trans hbound
  have hread : (env.inParts bound).stream.read reader.stream
      reader.buffer.availableWrite =
        env.stream.read reader.stream reader.buffer.availableWrite :=
    ByteStream.readInParts_of_le hcount _
  simp only [fillBuffer, MirroredRingBuffer.prepareWrite, hread]
  rfl

/-- The unread bytes decide, or there is no more to read. -/
def Settled (env : ReaderEnv σ ς Opts Content) (opts : Opts)
    (reader : Reader σ ς Opts Content) : Prop :=
  env.answer opts reader.buffer.unread ≠ .error .partialMsg ∨
    reader.status.isStreamFinished = true

/-- An iteration that does not grow the buffer does the same on both
streams. -/
theorem decodeIteration_inParts {state : DecodeState σ ς Opts Content}
    (hready : state.Ready opts)
    (hbound : state.reader.buffer.capacity ≤ bound)
    (hsettled : state.alreadyGotPartial = true →
      Settled env opts state.reader) :
    decodeIteration (env.inParts bound) state = decodeIteration env state := by
  obtain ⟨⟨hvalid, hoptions, hmessage⟩, hout⟩ := hready
  obtain ⟨before, hbefore⟩ := Option.isSome_iff_exists.mp hmessage
  obtain ⟨content, hdecode, -⟩ := Message.decode_clear env.library opts
    env.messageType before state.reader.buffer.unread
  have hfill : ∀ before : Reader σ ς Opts Content,
      before.buffer = state.reader.buffer →
        fillBuffer (env.inParts bound) before = fillBuffer env before := by
    intro before hsame
    rw [← hsame] at hvalid hbound
    exact fillBuffer_inParts hvalid hbound
  simp only [decodeIteration, hbefore, hoptions, hout, hvalid.view_prepareRead,
    Outcome.ok_bind]
  simp only [ReaderEnv.inParts] at hfill ⊢
  simp only [hdecode, Outcome.ok_bind]
  cases hanswer : env.library.answer opts env.messageType
      state.reader.buffer.unread with
  | ok result => rfl
  | error error =>
      simp only [Except.map]
      cases hagain : error.isPartialMsg &&
          !state.reader.status.isStreamFinished with
      | false => rfl
      | true =>
          cases hmore : state.alreadyGotPartial with
          | false =>
              simp only [if_true, Bool.false_eq_true, if_false, Outcome.ok_bind]
              rw [hfill]
              rfl
          | true =>
              rw [Bool.and_eq_true] at hagain
              rcases hsettled hmore with hdecides | hended
              · have hpart : error = .partialMsg := by
                  simpa [Error.isPartialMsg] using hagain.1
                rw [hpart] at hanswer
                exact absurd hanswer hdecides
              · rw [hended] at hagain
                simp at hagain

/-- A settled iteration does not ask for more bytes. -/
theorem Settled.not_again {state next : DecodeState σ ς Opts Content}
    (hsettled : Settled env opts state.reader) (hready : state.Ready opts) :
    decodeIteration env state ≠ .ok (.again next) := by
  intro hiteration
  obtain ⟨_, hrefills, -, -⟩ := decodeIteration_again hiteration
  rcases hsettled with hdecides | hended
  · exact hdecides (decodeIteration_again_answer hready hiteration)
  · exact absurd (hended.symm.trans hrefills.not_streamFinished) (by simp)

/-- Where one refill suffices, the iteration after it is settled. -/
theorem Synced.again_settled (hchunked : env.stream.ChunkedReads Left)
    (hsynced : Synced Left opts bytes reader)
    (hrefill : OneRefillSuffices env opts reader)
    {next : DecodeState σ ς Opts Content}
    (hiteration : decodeIteration env (.enter reader false) =
      .ok (.again next)) :
    next.Ready opts ∧ next.reader.buffer.capacity = reader.buffer.capacity ∧
      Settled env opts next.reader := by
  have hready := hsynced.live.ready false
  have hmore : env.answer opts reader.buffer.unread = .error .partialMsg :=
    decodeIteration_again_answer hready hiteration
  obtain ⟨_, hrefills, -, -⟩ := decodeIteration_again hiteration
  have hstatus : reader.status.isStreamFinished = false :=
    hrefills.not_streamFinished
  obtain ⟨content, hrefilled⟩ :=
    decodeIteration_refill hsynced.live hmore hstatus
  have hsynced' : Synced Left opts bytes
      { reader with message_ := some content } :=
    ⟨⟨hsynced.live.valid, hsynced.live.options_eq, rfl⟩, hsynced.started,
      hsynced.source⟩
  have hok := ReaderStatus.isOk_of_notFinished hsynced.notFinished hstatus
  obtain ⟨filled, hfill, hcapacity, hfilled, hunread, hended⟩ :=
    fillBuffer_synced hsynced' hok fun _ hleft => hchunked.delivers hleft _
  rw [hfill, Outcome.ok_bind, hiteration] at hrefilled
  obtain rfl := Step.again.inj (Outcome.ok.inj hrefilled)
  refine ⟨hfilled.live.ready true, hcapacity, ?_⟩
  rcases hended with hended | hgood
  · exact Or.inr hended
  · rcases hrefill with h | h | h | h
    · exact absurd h (by simp [hstatus])
    · exact absurd hmore h
    · exact absurd (hgood.symm.trans h) (by simp)
    · exact Or.inl (by rw [DecodeState.enter, hunread]; exact h)

section Agree

variable {fuel : ℕ}

/-- A `decode_one` that needs one refill at most does the same on both
streams. -/
theorem decodeOne_inParts
    (hchunked : (env.inParts bound).stream.ChunkedReads Left)
    (hsynced : Synced Left opts bytes reader)
    (hrefill : OneRefillSuffices (env.inParts bound) opts reader)
    (hbound : reader.buffer.capacity ≤ bound) :
    decodeOne (env.inParts bound) fuel reader = decodeOne env fuel reader := by
  unfold decodeOne
  split
  · have hfirst : decodeIteration (env.inParts bound) (.enter reader false) =
        decodeIteration env (.enter reader false) :=
      decodeIteration_inParts (hsynced.live.ready false) hbound
        fun hfalse => absurd hfalse (by simp [DecodeState.enter])
    cases fuel with
    | zero => rw [run_zero, run_zero]
    | succ fuel =>
        rw [run, run, ← hfirst]
        cases hiteration : decodeIteration (env.inParts bound)
            (.enter reader false) with
        | fault error => simp only [Outcome.fault_bind]
        | outOfFuel => simp only [Outcome.outOfFuel_bind]
        | ok step =>
            cases step with
            | done result => simp only [Outcome.ok_bind]
            | again next =>
                obtain ⟨hready, hcapacity, hsettled⟩ :=
                  hsynced.again_settled hchunked hrefill hiteration
                have hsecond : decodeIteration (env.inParts bound) next =
                    decodeIteration env next :=
                  decodeIteration_inParts hready (hcapacity.trans_le hbound)
                    fun _ => hsettled
                simp only [Outcome.ok_bind]
                cases fuel with
                | zero => rw [run_zero, run_zero]
                | succ fuel =>
                    rw [run, run, ← hsecond]
                    cases hstep : decodeIteration (env.inParts bound) next with
                    | fault error => simp only [Outcome.fault_bind]
                    | outOfFuel => simp only [Outcome.outOfFuel_bind]
                    | ok step =>
                        cases step with
                        | done result => simp only [Outcome.ok_bind]
                        | again last =>
                            exact absurd hstep (hsettled.not_again hready)
  · rfl

variable (hlawful : Lawful (env.answer opts) .partialMsg)
variable (hexact : env.stream.ExactUpTo bound Left)
variable {stream : σ} {content : Content} {bufferSize : ℕ}
variable {block : MirroredMemory.Block UInt8}
variable (hcreate : env.mirrors.create 0 bufferSize = some block)
variable (hbound : block.capacity ≤ bound)
variable {input : List UInt8} (hleft : Left stream input)
variable (hfits : Fits (env.answer opts) .partialMsg block.capacity input)
variable (hfuel : 2 ≤ fuel)
include hlawful hexact hcreate hbound hleft hfits hfuel

/-- A decode point of a run whose messages fit the buffer. -/
theorem DecodePoint.inParts
    (hpoint : DecodePoint (env.inParts bound) fuel
      (create env stream (some opts) (some content) bufferSize) reader) :
    decodeOne (env.inParts bound) fuel reader = decodeOne env fuel reader := by
  have hpos : 0 < bound := block.capacity_pos.trans_le hbound
  have hparts : (env.inParts bound).stream.ExactReads Left :=
    hexact.inParts hpos
  have hlawful' : Lawful ((env.inParts bound).answer opts) .partialMsg :=
    hlawful
  have hcreate' : (env.inParts bound).mirrors.create 0 bufferSize =
      some block := hcreate
  have hrefill : ∀ bytes reader,
      Boundary ((env.inParts bound).answer opts) input bytes →
        Synced Left opts bytes reader →
          reader.buffer.capacity = block.capacity →
            OneRefillSuffices (env.inParts bound) opts reader := by
    intro bytes reader hboundary hsynced hcapacity
    apply hsynced.oneRefillSuffices hparts
    rw [hcapacity]
    exact hfits bytes hboundary
  obtain ⟨bytes, hboundary, hsynced, hcapacity⟩ :=
    DecodePoint.synced hlawful' hparts.chunked hcreate' hleft hfuel hrefill
      hpoint
  exact decodeOne_inParts hparts.chunked hsynced
    (hrefill bytes reader hboundary hsynced hcapacity)
    (hcapacity.trans_le hbound)

/-- A client loop whose messages fit the buffer does the same on both
streams. -/
theorem readAll_inParts_of_started {calls : ℕ}
    (hstarted : reader.started = true)
    (hpoint : reader.status.notFinished = true →
      DecodePoint (env.inParts bound) fuel
        (create env stream (some opts) (some content) bufferSize) reader) :
    readAll (env.inParts bound) fuel calls reader =
      readAll env fuel calls reader := by
  induction calls generalizing reader with
  | zero => simp only [readAll]
  | succ calls ih =>
      cases hnot : reader.status.notFinished with
      | false =>
          rw [readAll_of_ended calls hstarted hnot,
            readAll_of_ended calls hstarted hnot]
      | true =>
          have hsame := (hpoint hnot).inParts hlawful hexact hcreate hbound
            hleft hfits hfuel
          rw [readAll_of_notFinished calls hstarted hnot,
            readAll_of_notFinished calls hstarted hnot, ← hsame]
          cases hnext : decodeOne (env.inParts bound) fuel reader with
          | fault error => simp only [Outcome.fault_bind]
          | outOfFuel => simp only [Outcome.outOfFuel_bind]
          | ok next =>
              rw [Outcome.ok_bind, Outcome.ok_bind,
                ih ((decodeOne_started hnext).trans hstarted)
                  fun hmore => (hpoint hnot).next hnext hmore]

theorem start_inParts :
    start (env.inParts bound) fuel
        (create env stream (some opts) (some content) bufferSize) =
      start env fuel
        (create env stream (some opts) (some content) bufferSize) := by
  let fresh := create env stream (some opts) (some content) bufferSize
  obtain ⟨hvalid, hcapacity, -⟩ := MirroredRingBuffer.create_valid hcreate
  have hfill : fillBuffer (env.inParts bound) { fresh with started := true } =
      fillBuffer env { fresh with started := true } :=
    fillBuffer_inParts hvalid (hcapacity.trans_le hbound)
  change start (env.inParts bound) fuel fresh = start env fuel fresh
  rw [start, start, ← hfill]
  cases hfilled : fillBuffer (env.inParts bound)
      { fresh with started := true } with
  | fault error => simp only [Outcome.fault_bind]
  | outOfFuel => simp only [Outcome.outOfFuel_bind]
  | ok filled =>
      cases hnot : filled.status.notFinished with
      | false => simp [hnot]
      | true =>
          have hpoint : DecodePoint (env.inParts bound) fuel fresh filled :=
            .first hfilled hnot
          have hsame := hpoint.inParts hlawful hexact hcreate hbound hleft
            hfits hfuel
          simp [hnot, hsame]

/-- The client loop on a fresh reader over a stream that is exact up to a
bound, with messages that fit a buffer within that bound. -/
theorem readAll_of_fits {calls : ℕ} (hcalls : input.length < calls) :
    ∃ final, readAll env fuel calls
        (create env stream (some opts) (some content) bufferSize) =
      .ok ((reference (env.answer opts) input).1.map some,
        statusOf (reference (env.answer opts) input).2, final) := by
  let fresh := create env stream (some opts) (some content) bufferSize
  have hpos : 0 < bound := block.capacity_pos.trans_le hbound
  have hparts : (env.inParts bound).stream.ExactReads Left :=
    hexact.inParts hpos
  have hlawful' : Lawful ((env.inParts bound).answer opts) .partialMsg :=
    hlawful
  have hcreate' : (env.inParts bound).mirrors.create 0 bufferSize =
      some block := hcreate
  have hrefill : ∀ reader, DecodePoint (env.inParts bound) fuel fresh reader →
      OneRefillSuffices (env.inParts bound) opts reader := by
    intro reader hpoint
    exact DecodePoint.oneRefillSuffices hlawful' hparts hcreate' hleft hfits
      hfuel hpoint
  obtain ⟨final, hread⟩ := readAll_create hlawful' hparts.chunked hcreate'
    hleft hfuel hrefill hcalls
  obtain ⟨after, hstart, hstarted, hrest⟩ := readAll_start hread
  have hpoint : after.status.notFinished = true →
      DecodePoint (env.inParts bound) fuel fresh after := by
    intro hnot
    change start (env.inParts bound) fuel fresh = .ok after at hstart
    rw [start, if_neg (by simp [fresh, create])] at hstart
    obtain ⟨filled, hfill, hdecode⟩ := Outcome.bind_eq_ok_iff.mp hstart
    split at hdecode
    · next hopen => exact .next (.first hfill hopen) hdecode hnot
    · next hclosed =>
      rw [Outcome.ok.inj hdecode] at hclosed
      exact absurd hnot hclosed
  have hsame : start env fuel fresh = .ok after :=
    (start_inParts hlawful hexact hcreate hbound hleft hfits
      hfuel).symm.trans hstart
  rw [readAll_inParts_of_started hlawful hexact hcreate hbound hleft hfits
    hfuel hstarted hpoint] at hrest
  exact ⟨final, (readAll_of_start hsame hstarted).trans hrest⟩

end Agree

end Reader

/-! ## `GzipStream` -/

/-- Messages that start with their length fit 255 bytes. -/
theorem prefixedEnv_fits (input : List UInt8) :
    Fits (prefixedEnv.answer ()) .partialMsg 255 input := by
  intro bytes _ hlength
  have hshown : (bytes.take 255).length = 255 := List.length_take_of_le hlength
  change prefixedLibrary.answer () .mrt (bytes.take 255) ≠ .error .partialMsg
  cases hbytes : bytes.take 255 with
  | nil =>
      rw [hbytes] at hshown
      simp at hshown
  | cons len rest =>
      have hlen := UInt8.toNat_lt len
      rw [hbytes] at hshown
      rw [prefixed_answer_cons, if_neg (by omega : ¬ _ < len.toNat)]
      split_ifs <;> simp

section Gzip

variable {File : Type} {zlib : Zlib File} {complete : Bool}
variable {Left : File → List UInt8 → Bool → Prop}

/-- An opened `GzipStream` is exact up to `INT_MAX`. -/
theorem gzipStream_exactUpTo (hzlib : zlib.Contract complete Left) :
    (gzipStream zlib).ExactUpTo intMax (GzipStream.Opened Left false) where
  full := by
    intro stream bytes count hopened hcount hbytes
    obtain ⟨hread, hafter⟩ := hopened.read_of_le hzlib hcount
    rw [decide_eq_false (not_lt.mpr hbytes)] at hafter
    exact ⟨hread, hafter.good hzlib, hafter⟩
  short := by
    intro stream bytes count hopened hcount hbytes
    obtain ⟨hread, hafter⟩ := hopened.read_of_le hzlib hcount
    rw [decide_eq_true hbytes] at hafter
    refine ⟨hread.trans (List.take_of_length_le hbytes.le), ?_, ?_⟩
    · exact hafter.good hzlib
    · exact hafter.eof hzlib

variable {Opts Content : Type} {opts : Opts}

/-- Over a gzip file that zlib reads as documented, with messages that fit a
buffer of at most `INT_MAX` bytes, the client loop yields the messages of the
reference run over the decompressed content and ends with its status.  The
stream then closes cleanly if the file is complete; if it is truncated at a
message boundary, closing it violates the assertion. -/
theorem gzip_readAll_refines_reference (hzlib : zlib.Contract complete Left)
    (library : Library Opts Content) (mirrors : MirrorSource)
    (messageType : MessageType)
    (hlawful : Lawful (library.answer opts messageType) .partialMsg)
    {stream : GzipStream File} (content : Content) {bufferSize : ℕ}
    {block : MirroredMemory.Block UInt8}
    (hcreate : mirrors.create 0 bufferSize = some block)
    (hbound : block.capacity ≤ intMax) {input : List UInt8}
    (hopened : GzipStream.Opened Left false stream input)
    (hfits : Fits (library.answer opts messageType) .partialMsg block.capacity
      input) {fuel calls : ℕ} (hfuel : 2 ≤ fuel)
    (hcalls : input.length < calls) :
    ∃ final, Reader.readAll (gzipEnv zlib library mirrors messageType) fuel
        calls (.create (gzipEnv zlib library mirrors messageType) stream
          (some opts) (some content) bufferSize) =
        .ok ((reference (library.answer opts messageType) input).1.map some,
          Reader.statusOf
            (reference (library.answer opts messageType) input).2, final) ∧
      (complete = true → final.stream.destroy zlib = .ok ()) ∧
      (complete = false →
        (reference (library.answer opts messageType) input).2 = .finished →
          final.stream.destroy zlib = .fault .gzclose) := by
  let env := gzipEnv zlib library mirrors messageType
  have hlawful' : Lawful (env.answer opts) .partialMsg := hlawful
  have hexact : env.stream.ExactUpTo intMax (GzipStream.Opened Left false) :=
    gzipStream_exactUpTo hzlib
  have hcreate' : env.mirrors.create 0 bufferSize = some block := hcreate
  obtain ⟨final, hread⟩ : ∃ final, Reader.readAll env fuel calls
      (.create env stream (some opts) (some content) bufferSize) =
        .ok ((reference (env.answer opts) input).1.map some,
          Reader.statusOf (reference (env.answer opts) input).2, final) :=
    Reader.readAll_of_fits hlawful' hexact hcreate' hbound hopened hfits hfuel
      hcalls
  have hinv := gzipInv_of_readAll hzlib hopened hread
  refine ⟨final, hread, hinv.closes.of_complete, ?_⟩
  intro htruncated hend
  apply hinv.closes.of_truncated htruncated
  apply hinv.ended
  change (reference (env.answer opts) input).2 = .finished at hend
  rw [hend]
  exact Or.inr rfl

/-- A file that is truncated behind its second message. -/
theorem gzip_readAll_refines_reference_two :
    ∃ final, Reader.readAll gzFileEnv 2 6
        (gzFileReader [2, 7, 3, 8, 9] false 255) =
        .ok ([some [2, 7], some [3, 8, 9]], .ofValue .finished, final) ∧
      final.stream.destroy listZlib = .fault .gzclose := by
  have hcreate : exactMirrors.create 0 255 =
      some ⟨255, fun _ => 0, by decide⟩ := rfl
  have hreference : reference (prefixedLibrary.answer () .mrt)
      [2, 7, 3, 8, 9] = ([[2, 7], [3, 8, 9]], .finished) := rfl
  obtain ⟨final, hread, -, hcloses⟩ := gzip_readAll_refines_reference
    (listZlib_contract false) prefixedLibrary exactMirrors .mrt
    (prefixed_lawful .mrt) [] hcreate (by decide) ⟨_, rfl, rfl⟩
    (prefixedEnv_fits [2, 7, 3, 8, 9]) (le_refl 2)
    (by decide : [2, 7, 3, 8, 9].length < 6)
  rw [hreference] at hread hcloses
  exact ⟨final, hread, hcloses rfl rfl⟩

end Gzip

end ParseBgp.Io
