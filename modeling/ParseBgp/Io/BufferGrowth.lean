import ParseBgp.Io.CallOrder
import ParseBgp.Io.MirrorCreation
import ParseBgp.Io.ReadCounts

/-!
# How far the buffer grows

`decode_one` doubles the buffer whenever a refilled one does not hold a whole
message, and nothing in it limits how often.  Over a stream that stays good only
if reads are met in full it is the content of the stream that does: a buffer that
is doubled is full of it.
-/

namespace ParseBgp.Io

open Loop

/-- Multiples of `unit` bytes are mapped as they are. -/
def MirrorSource.MapsMultiples (mirrors : MirrorSource) (unit : ℕ) : Prop :=
  ∀ {index count : ℕ} {block : MirroredMemory.Block UInt8},
    mirrors.create index (unit * count) = some block →
      block.capacity = unit * count

theorem ceilToPage_dvd {pageSize : ℕ} (hpage : pageSize ∣ 2 ^ 64)
    (request : ℕ) : pageSize ∣ ceilToPage pageSize request := by
  have hpos : 0 < pageSize := Nat.pos_of_dvd_of_pos hpage (by norm_num)
  have hleast := (isLeast_ceil hpos request).1.1
  unfold ceilToPage
  split
  · next hmod => exact Nat.dvd_of_mod_eq_zero hmod
  · next hmod =>
    rw [if_neg hmod] at hleast
    exact (Nat.dvd_mod_iff hpage).mpr hleast

section MirrorSource

variable {ndebug : Bool} {pageSize : ℕ} {hpage : pageSize ∣ 2 ^ 64}
variable {outcomes : ℕ → SystemCalls} {index request : ℕ}
variable {block : MirroredMemory.Block UInt8}

theorem mirrorSource_capacity
    (hcreate : (mirrorSource ndebug pageSize hpage outcomes).create index
      request = some block) :
    block.capacity = ceilToPage pageSize request := by
  simp only [mirrorSource] at hcreate
  split at hcreate
  · split at hcreate
    · exact congrArg _ (Option.some.inj hcreate).symm
    · simp at hcreate
  · simp at hcreate

/-- A mapping has whole pages, and so have the multiples of its size. -/
theorem mirrorSource_mapsMultiples
    (hcreate : (mirrorSource ndebug pageSize hpage outcomes).create index
      request = some block) :
    (mirrorSource ndebug pageSize hpage outcomes).MapsMultiples
      block.capacity := by
  intro later count double hdouble
  have hunit : pageSize ∣ block.capacity := by
    rw [mirrorSource_capacity hcreate]
    exact ceilToPage_dvd hpage request
  have hmod : block.capacity * count % pageSize = 0 :=
    Nat.mod_eq_zero_of_dvd (hunit.mul_right count)
  rw [mirrorSource_capacity hdouble, ceilToPage, if_pos hmod]

end MirrorSource

namespace ByteStream

variable {σ ς : Type}

/-- Reads above the bound fail, as far as a doubling of the bound reaches. -/
structure ExactBelow (stream : ByteStream σ ς) (bound : ℕ)
    (Left : σ → List UInt8 → Prop) : Prop extends
    stream.ExactUpTo bound Left where
  refused : ∀ {state : σ} {bytes : List UInt8} {count : ℕ}, Left state bytes →
    bound < count → count ≤ 2 * bound → stream.FailsAt state count

end ByteStream

/-! ## The buffer itself -/

namespace MirroredRingBuffer

variable {buffer after : MirroredRingBuffer}

theorem fill_capacity {span : Span} {start : ℕ} {bytes : List UInt8}
    (hfill : buffer.fill span start bytes = .ok after) :
    after.capacity = buffer.capacity := by
  unfold fill at hfill
  split at hfill
  · next mapping hbuf =>
    split at hfill
    · obtain rfl := Outcome.ok.inj hfill
      simp only [capacity, hbuf]
      exact MirroredMemory.capacity_store _ _ _
    · simp at hfill
  · split at hfill
    · rw [Outcome.ok.inj hfill]
    · simp at hfill

theorem commitWrite_capacity {bytes : ℕ}
    (hcommit : buffer.commitWrite bytes = .ok after) :
    after.capacity = buffer.capacity := by
  unfold commitWrite at hcommit
  split at hcommit
  · rw [← Outcome.ok.inj hcommit]
    rfl
  · simp at hcommit

end MirroredRingBuffer

namespace Reader

variable {σ ς Opts Content τ : Type}
variable {env : ReaderEnv σ ς Opts Content} {opts : Opts}
variable {reader after : Reader σ ς Opts Content}
variable {Left : σ → List UInt8 → Prop} {bound unit total : ℕ}

theorem fillBuffer_capacity (hfill : fillBuffer env reader = .ok after) :
    after.buffer.capacity = reader.buffer.capacity := by
  unfold fillBuffer at hfill
  dsimp only at hfill
  split at hfill
  · obtain ⟨filled, hwritten, hrest⟩ := Outcome.bind_eq_ok_iff.mp hfill
    have hsame := MirroredRingBuffer.fill_capacity hwritten
    split_ifs at hrest
    · obtain ⟨buffer, hcommit, hafter⟩ := Outcome.bind_eq_ok_iff.mp hrest
      rw [← Outcome.ok.inj hafter]
      exact (MirroredRingBuffer.commitWrite_capacity hcommit).trans hsame
    · obtain ⟨buffer, hcommit, hafter⟩ := Outcome.bind_eq_ok_iff.mp hrest
      rw [← Outcome.ok.inj hafter]
      exact (MirroredRingBuffer.commitWrite_capacity hcommit).trans hsame
    · rw [← Outcome.ok.inj hrest]
      exact hsame
  · simp at hfill

/-! ## Doubling -/

/-- The buffer has grown from `unit` bytes, over a stream that had `total` bytes
left.  Of those that are still to be decoded some are in the buffer and the
others in the stream. -/
structure Sized (Left : σ → List UInt8 → Prop) (opts : Opts)
    (bound unit total : ℕ) (reader : Reader σ ς Opts Content) : Prop where
  live : reader.Live opts
  doubled : ∃ times, reader.buffer.capacity = unit * 2 ^ times
  capacity_le : reader.buffer.capacity ≤ max unit (2 * total)
  within : reader.status.isOk = true → reader.buffer.capacity ≤ bound
  source : reader.status.isOk = true → ∃ left, Left reader.stream left ∧
    reader.buffer.unread.length + left.length ≤ total

/-- At the head of the loop: a refill that did not end the stream has filled the
buffer. -/
structure Growing (Left : σ → List UInt8 → Prop) (opts : Opts)
    (bound unit total : ℕ) (state : DecodeState σ ς Opts Content) : Prop where
  sized : Sized Left opts bound unit total state.reader
  out_eq : state.out = state.reader.buffer.prepareRead
  full : state.alreadyGotPartial = true → state.reader.status.isOk = true →
    state.reader.buffer.unread.length = state.reader.buffer.capacity

/-- A buffer that was just doubled is empty, and its size may be above the
bound. -/
structure Refillable (Left : σ → List UInt8 → Prop) (opts : Opts)
    (bound unit total : ℕ) (reader : Reader σ ς Opts Content) : Prop where
  live : reader.Live opts
  doubled : ∃ times, reader.buffer.capacity = unit * 2 ^ times
  capacity_le : reader.buffer.capacity ≤ max unit (2 * total)
  within : reader.buffer.capacity ≤ bound ∨
    (reader.buffer.unread = [] ∧ reader.buffer.capacity ≤ 2 * bound)
  source : ∃ left, Left reader.stream left ∧
    reader.buffer.unread.length + left.length ≤ total

theorem Sized.refillable (hsized : Sized Left opts bound unit total reader)
    (hok : reader.status.isOk = true) :
    Refillable Left opts bound unit total reader where
  live := hsized.live
  doubled := hsized.doubled
  capacity_le := hsized.capacity_le
  within := Or.inl (hsized.within hok)
  source := hsized.source hok

/-- Committed bytes leave the buffer. -/
theorem Sized.commit (hsized : Sized Left opts bound unit total reader)
    {buffer : MirroredRingBuffer} (hbuffer : buffer.Valid)
    (hcapacity : buffer.capacity = reader.buffer.capacity) {len : ℕ}
    (hunread : buffer.unread = reader.buffer.unread.drop len)
    (content : Content) :
    Sized Left opts bound unit total
      { reader with message_ := some content, buffer := buffer } where
  live := ⟨hbuffer, hsized.live.options_eq, rfl⟩
  doubled := by
    obtain ⟨times, htimes⟩ := hsized.doubled
    exact ⟨times, hcapacity.trans htimes⟩
  capacity_le := hcapacity.trans_le hsized.capacity_le
  within := fun hok => hcapacity.trans_le (hsized.within hok)
  source := by
    intro hok
    obtain ⟨left, hleft, htotal⟩ := hsized.source hok
    refine ⟨left, hleft, ?_⟩
    change buffer.unread.length + _ ≤ _
    rw [hunread, List.length_drop]
    omega

/-- Behind the end of a run nothing is asked of the stream. -/
theorem Sized.end (hsized : Sized Left opts bound unit total reader)
    (content : Content) {status : ReaderStatus ς}
    (hended : status.notFinished = false) :
    Sized Left opts bound unit total
      { reader with message_ := some content, status := status } := by
  have hnot : status.isOk ≠ true := fun hok =>
    absurd (ReaderStatus.notFinished_of_isOk hok) (by simp [hended])
  exact {
    live := ⟨hsized.live.valid, hsized.live.options_eq, rfl⟩
    doubled := hsized.doubled
    capacity_le := hsized.capacity_le
    within := fun hok => absurd hok hnot
    source := fun hok => absurd hok hnot }

/-- Without a further read the stream does not matter. -/
theorem Refillable.ended
    (hrefillable : Refillable Left opts bound unit total reader)
    (hlive : after.Live opts)
    (hcapacity : after.buffer.capacity = reader.buffer.capacity)
    (hended : after.status.isOk = false) :
    Sized Left opts bound unit total after where
  live := hlive
  doubled := by
    rw [hcapacity]
    exact hrefillable.doubled
  capacity_le := hcapacity.trans_le hrefillable.capacity_le
  within := fun hok => absurd (hok.symm.trans hended) (by simp)
  source := fun hok => absurd (hok.symm.trans hended) (by simp)

/-- A refill that fills the buffer, from a stream that has enough left. -/
theorem Refillable.filled
    (hrefillable : Refillable Left opts bound unit total reader)
    (hlive : after.Live opts)
    (hcapacity : after.buffer.capacity = reader.buffer.capacity)
    (hcount : reader.buffer.availableWrite ≤ bound) {left : List UInt8}
    (htotal : reader.buffer.unread.length + left.length ≤ total)
    (hlong : reader.buffer.availableWrite ≤ left.length)
    (hnext : Left after.stream (left.drop reader.buffer.availableWrite))
    (hfull : after.buffer.unread.length = after.buffer.capacity) :
    Sized Left opts bound unit total after := by
  have hwrite := hrefillable.live.valid.availableWrite_eq
  have hunread := hrefillable.live.valid.length_unread_le
  rw [hcapacity] at hfull
  exact {
    live := hlive
    doubled := by
      rw [hcapacity]
      exact hrefillable.doubled
    capacity_le := hcapacity.trans_le hrefillable.capacity_le
    within := fun _ => by
      rw [hcapacity]
      rcases hrefillable.within with hwithin | ⟨hnil, -⟩
      · exact hwithin
      · rw [hnil, List.length_nil] at hwrite
        omega
    source := fun _ => ⟨_, hnext, by
      rw [hfull, List.length_drop]
      omega⟩ }

section Exact

variable (hexact : env.stream.ExactBelow bound Left)
include hexact

/-- A refill fills the buffer, or the status is no longer `OK`. -/
theorem Refillable.fillBuffer
    (hrefillable : Refillable Left opts bound unit total reader)
    (hfill : Reader.fillBuffer env reader = .ok after) :
    Sized Left opts bound unit total after ∧
      (after.status.isOk = true →
        after.buffer.unread.length = after.buffer.capacity) := by
  have hok := fillBuffer_ok_isOk hfill
  have hvalid := hrefillable.live.valid
  have hcapacity := fillBuffer_capacity hfill
  have hwrite := hvalid.availableWrite_eq
  have hunread := hvalid.length_unread_le
  obtain ⟨left, hleft, htotal⟩ := hrefillable.source
  by_cases hcount : reader.buffer.availableWrite ≤ bound
  · by_cases hlong : reader.buffer.availableWrite ≤ left.length
    · obtain ⟨hread, hgood, hnext⟩ := hexact.full hleft hcount hlong
      have hlength : (refill env reader).length =
          reader.buffer.availableWrite := by
        rw [show refill env reader = _ from hread, List.length_take,
          min_eq_left hlong]
      obtain ⟨buffer, hfilled, hbuffer, hsize, hshown⟩ :=
        fillBuffer_of_good hvalid hok hlength.le hgood
      obtain rfl := Outcome.ok.inj (hfill.symm.trans hfilled)
      have hfull : buffer.unread.length = buffer.capacity := by
        rw [hshown, List.length_append, hlength, hsize]
        omega
      exact ⟨hrefillable.filled ⟨hbuffer, hrefillable.live.options_eq,
        hrefillable.live.message_isSome⟩ hcapacity hcount htotal hlong hnext
        hfull, fun _ => hfull⟩
    · obtain ⟨hread, hgood, heof⟩ :=
        hexact.short hleft hcount (not_le.mp hlong)
      have hlength : (refill env reader).length ≤
          reader.buffer.availableWrite := by
        rw [show refill env reader = left from hread]
        omega
      obtain ⟨buffer, hfilled, hbuffer, -⟩ :=
        fillBuffer_of_eof hvalid hok hlength hgood heof
      obtain rfl := Outcome.ok.inj (hfill.symm.trans hfilled)
      exact ⟨hrefillable.ended ⟨hbuffer, hrefillable.live.options_eq,
        hrefillable.live.message_isSome⟩ hcapacity rfl, by
          simp [ReaderStatus.isOk, ReaderStatus.ofValue]⟩
  · -- only an empty buffer may be larger than the bound
    have hlarge : reader.buffer.availableWrite ≤ 2 * bound := by
      rcases hrefillable.within with hwithin | ⟨-, hwithin⟩
      · omega
      · omega
    obtain ⟨buffer, hfilled, hbuffer, -⟩ := fillBuffer_of_fails hvalid hok
      (hexact.refused hleft (not_le.mp hcount) hlarge)
    obtain rfl := Outcome.ok.inj (hfill.symm.trans hfilled)
    exact ⟨hrefillable.ended ⟨hbuffer, hrefillable.live.options_eq,
      hrefillable.live.message_isSome⟩ hcapacity rfl, by
        simp [ReaderStatus.isOk, ReaderStatus.ofStream]⟩

variable (hmultiples : env.mirrors.MapsMultiples unit)
include hmultiples

omit hexact in
/-- A full buffer is doubled, and it is full of bytes of the stream. -/
theorem Growing.refillable {state : DecodeState σ ς Opts Content}
    (hgrowing : Growing Left opts bound unit total state)
    (hlive : reader.Live opts) (hok : state.reader.status.isOk = true)
    (hstream : reader.stream = state.reader.stream)
    (hbuffer : reader.buffer = state.reader.buffer ∨
      (state.alreadyGotPartial = true ∧ reader.buffer.unread = [] ∧
        ∃ block, env.mirrors.create state.reader.mirrored
            (state.reader.buffer.capacity * 2) = some block ∧
          reader.buffer.capacity = block.capacity)) :
    Refillable Left opts bound unit total reader := by
  have hsized := hgrowing.sized
  have hwithin := hsized.within hok
  obtain ⟨left, hleft, htotal⟩ := hsized.source hok
  rw [← hstream] at hleft
  rcases hbuffer with hsame | ⟨hagain, hnil, block, hcreate, hblock⟩
  · exact {
      live := hlive
      doubled := by rw [hsame]; exact hsized.doubled
      capacity_le := by rw [hsame]; exact hsized.capacity_le
      within := by rw [hsame]; exact Or.inl hwithin
      source := ⟨left, hleft, by rwa [hsame]⟩ }
  · have hfull := hgrowing.full hagain hok
    obtain ⟨times, htimes⟩ := hsized.doubled
    rw [htimes, Nat.mul_assoc] at hcreate
    have hdouble : reader.buffer.capacity =
        state.reader.buffer.capacity * 2 := by
      rw [hblock, hmultiples hcreate, htimes, Nat.mul_assoc]
    exact {
      live := hlive
      doubled := ⟨times + 1, by
        rw [hdouble, htimes, Nat.pow_succ, Nat.mul_assoc]⟩
      capacity_le := by
        rw [hdouble]
        exact le_max_of_le_right (by omega)
      within := Or.inr ⟨hnil, by omega⟩
      source := ⟨left, hleft, by
        rw [hnil, List.length_nil]
        omega⟩ }

/-- One iteration of `decode_one` keeps the buffer within its bounds. -/
theorem Growing.iteration {state : DecodeState σ ς Opts Content}
    (hgrowing : Growing Left opts bound unit total state) :
    (decodeIteration env state).Meets (Step.Meets
      (Growing Left opts bound unit total)
      (Sized Left opts bound unit total)) fun _ => True := by
  have hsized := hgrowing.sized
  have hready : state.Ready opts := ⟨hsized.live, hgrowing.out_eq⟩
  cases hanswer : env.answer opts state.reader.buffer.unread with
  | ok result =>
      obtain ⟨len, content⟩ := result
      by_cases hlen : len ≤ state.reader.buffer.unread.length
      · obtain ⟨buffer, hdone, hbuffer, hcapacity, hunread⟩ :=
          decodeIteration_of_ok hready hanswer hlen
        rw [hdone]
        exact hsized.commit hbuffer hcapacity hunread content
      · rw [decodeIteration_of_overrun hready hanswer (not_le.mp hlen)]
        trivial
  | error error =>
      by_cases hfinal : error ≠ .partialMsg ∨
          state.reader.status.isStreamFinished = true
      · obtain ⟨content, hdone⟩ :=
          decodeIteration_of_error hready hanswer hfinal
        rw [hdone]
        exact hsized.end content (notFinished_endStatus _ _)
      · obtain ⟨hmore, hstatus⟩ := not_or.mp hfinal
        rw [not_not] at hmore
        rw [Bool.not_eq_true] at hstatus
        rw [hmore] at hanswer
        obtain ⟨before, hlive, hfrom, hiteration, hgrown⟩ :=
          decodeIteration_of_partial_grown hready hanswer hstatus
        rw [hiteration]
        apply Outcome.meets_of_forall_ok
        intro step hstep
        obtain ⟨filled, hfill, rfl⟩ := Outcome.bind_ok_eq_ok_iff.mp hstep
        have hok : state.reader.status.isOk = true := by
          rw [← hfrom.status_eq]
          exact fillBuffer_ok_isOk hfill
        have hrefillable :=
          hgrowing.refillable hmultiples hlive hok hfrom.stream_eq hgrown
        obtain ⟨hfilled, hfull⟩ := hrefillable.fillBuffer hexact hfill
        exact ⟨hfilled, rfl, fun _ => hfull⟩

/-- So do the calls of a client. -/
theorem sized_callInvariant :
    CallInvariant env (Sized Left opts bound unit total) fun _ => True where
  started := fun hsized => {
    live := ⟨hsized.live.valid, hsized.live.options_eq,
      hsized.live.message_isSome⟩
    doubled := hsized.doubled
    capacity_le := hsized.capacity_le
    within := hsized.within
    source := hsized.source }
  fillBuffer := fun hsized => Outcome.meets_of_forall_ok fun _ hfill =>
    ((hsized.refillable (fillBuffer_ok_isOk hfill)).fillBuffer hexact hfill).1
  decodeOne := by
    intro fuel reader hsized
    unfold Reader.decodeOne
    split
    · have hstart : Growing Left opts bound unit total (.enter reader false) :=
        ⟨hsized, rfl, by simp [DecodeState.enter]⟩
      exact run_meets_of_invariant
        (fun _ hgrowing => hgrowing.iteration hexact hmultiples) fuel hstart
    · exact hsized

end Exact

end Reader

/-! ## gzip files -/

section Gzip

variable {File : Type} {zlib : Zlib File} {complete : Bool}
variable {Left : File → List UInt8 → Bool → Prop}

theorem gzipStream_exactBelow (hzlib : zlib.Contract complete Left) :
    (gzipStream zlib).ExactBelow intMax (GzipStream.Opened Left false) where
  toExactUpTo := gzipStream_exactUpTo hzlib
  refused := by
    intro stream bytes count hopened hlow hhigh
    have hmod : count % 2 ^ 32 = count :=
      Nat.mod_eq_of_lt (by unfold intMax at hhigh; omega)
    exact (hopened.read_refused hzlib (hmod.symm ▸ hlow)).1

variable {Opts Content τ : Type} {opts : Opts}

/-- Whatever the decoder answers, whatever the client calls and whichever
mappings fail, the buffer of a reader over a gzip file has the size of the first
mapping, doubled a number of times, and it exceeds that size only as long as it
has at most twice the size of the decompressed content. -/
theorem gzip_runCalls_capacity (hzlib : zlib.Contract complete Left)
    (library : Library Opts Content) (ndebug : Bool) {pageSize : ℕ}
    (hpage : pageSize ∣ 2 ^ 64) (outcomes : ℕ → SystemCalls)
    (messageType : MessageType) {stream : GzipStream File} {input : List UInt8}
    (hopened : GzipStream.Opened Left false stream input) (content : Content)
    {bufferSize : ℕ} {block : MirroredMemory.Block UInt8}
    (hcreate : (mirrorSource ndebug pageSize hpage outcomes).create 0
      bufferSize = some block) (hbound : block.capacity ≤ intMax)
    (transformer : TransformInput GzipStatus Content → τ) (fuel : ℕ)
    (calls : List Reader.Call)
    (after : Reader (GzipStream File) GzipStatus Opts Content)
    (returned : List τ)
    (hrun : Reader.runCalls (gzipEnv zlib library
        (mirrorSource ndebug pageSize hpage outcomes) messageType) transformer
      fuel calls (.create (gzipEnv zlib library
          (mirrorSource ndebug pageSize hpage outcomes) messageType) stream
        (some opts) (some content) bufferSize) = .ok (after, returned)) :
    (∃ times, after.buffer.capacity =
        ceilToPage pageSize bufferSize * 2 ^ times) ∧
      after.buffer.capacity ≤
        max (ceilToPage pageSize bufferSize) (2 * input.length) := by
  let env := gzipEnv zlib library
    (mirrorSource ndebug pageSize hpage outcomes) messageType
  have hexact : env.stream.ExactBelow intMax (GzipStream.Opened Left false) :=
    gzipStream_exactBelow hzlib
  have hmultiples : env.mirrors.MapsMultiples block.capacity :=
    mirrorSource_mapsMultiples hcreate
  obtain ⟨hvalid, hcapacity, hunread⟩ :=
    MirroredRingBuffer.create_valid hcreate
  have hfresh : Reader.Sized (GzipStream.Opened Left false) opts intMax
      block.capacity input.length
      (.create env stream (some opts) (some content) bufferSize) := {
    live := ⟨hvalid, rfl, rfl⟩
    doubled := ⟨0, by rw [Nat.pow_zero, Nat.mul_one]; exact hcapacity⟩
    capacity_le := le_max_of_le_left hcapacity.le
    within := fun _ => hcapacity.trans_le hbound
    source := fun _ => ⟨input, hopened, by
      have hnothing : (MirroredRingBuffer.create env.mirrors 0
          bufferSize).unread = [] := hunread
      change (MirroredRingBuffer.create env.mirrors 0
        bufferSize).unread.length + _ ≤ _
      rw [hnothing, List.length_nil, Nat.zero_add]⟩ }
  have hsized := ((Reader.sized_callInvariant hexact hmultiples).runCalls fuel
    calls hfresh).of_ok hrun
  rw [← mirrorSource_capacity hcreate]
  exact ⟨hsized.doubled, hsized.capacity_le⟩

/-- A process whose system calls all succeed, on pages of two bytes. -/
def pagedEnv : ReaderEnv (GzipStream GzFile) GzipStatus Unit (List UInt8) :=
  gzipEnv listZlib prefixedLibrary
    (mirrorSource false 2 ⟨2 ^ 63, rfl⟩ fun _ =>
      ⟨true, true, true, true, true, true⟩) .mrt

/-- A message of five bytes and a buffer of two. -/
theorem gzip_runCalls_capacity_five :
    ∃ after returned, Reader.runCalls pagedEnv identityTransform 10
        [.message, .decodeOne] (.create pagedEnv
          ⟨some ⟨[5, 6, 7, 8, 9], false, true⟩, .ok⟩ (some ()) (some []) 2) =
        .ok (after, returned) ∧ after.buffer.capacity = 4 ∧
      after.buffer.capacity ≤ max (ceilToPage 2 2) (2 * 5) := by
  have hopened : GzipStream.Opened
      (fun file bytes past => file = (⟨bytes, past, true⟩ : GzFile)) false
      ⟨some ⟨[5, 6, 7, 8, 9], false, true⟩, .ok⟩ [5, 6, 7, 8, 9] :=
    ⟨_, rfl, rfl⟩
  have hcreate : (mirrorSource false 2 ⟨2 ^ 63, rfl⟩ fun _ =>
      ⟨true, true, true, true, true, true⟩).create 0 2 =
        some ⟨2, fun _ => 0, by decide⟩ := rfl
  obtain ⟨after, returned, hrun, hgrown⟩ : ∃ after returned,
      Reader.runCalls pagedEnv identityTransform 10 [.message, .decodeOne]
        (.create pagedEnv ⟨some ⟨[5, 6, 7, 8, 9], false, true⟩, .ok⟩
          (some ()) (some []) 2) = .ok (after, returned) ∧
        after.buffer.capacity = 4 :=
    ⟨_, _, rfl, rfl⟩
  exact ⟨after, returned, hrun, hgrown, (gzip_runCalls_capacity
    (listZlib_contract true) prefixedLibrary false ⟨2 ^ 63, rfl⟩
    (fun _ => ⟨true, true, true, true, true, true⟩) .mrt hopened [] hcreate
    (by decide) identityTransform 10 _ after returned hrun).2⟩

end Gzip

end ParseBgp.Io
