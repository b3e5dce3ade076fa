import ParseBgp.Core.Loop
import ParseBgp.Fault
import ParseBgp.Io.MirrorMapping

/-!
# The mirrored ring buffer

`MirroredRingBuffer` keeps the address range `buf_` of a mirrored mapping and
two pointers `left_` and `right_` into it.  The pointers are modelled by their
distance from `buf_.data()`.  Spans remember which mapping they point into, so
that using a span after its mapping was replaced is a visible fault.
-/

namespace ParseBgp.Io

open Loop MirroredMemory

/-- Subtraction of `size_t` values, which wraps when it would be negative. -/
def sizeSub (left right : ℕ) : ℕ :=
  if right ≤ left then left - right else 2 ^ 64 - (right - left)

theorem sizeSub_of_le {left right : ℕ} (hle : right ≤ left) :
    sizeSub left right = left - right :=
  if_pos hle

/-- A live mirrored mapping; `id` is the index of the `mirror_create` call
that made it. -/
structure Mapping where
  id : ℕ
  block : Block UInt8

/-- `span<uint8_t>`: `size` bytes from `offset` on in the mapping `mapping`,
which is `none` for a null `data()`. -/
structure Span where
  mapping : Option ℕ
  offset : ℕ
  size : ℕ
  deriving DecidableEq, Repr

structure MirroredRingBuffer where
  /-- `buf_`, `none` when `buf_.data()` is null -/
  buf : Option Mapping
  /-- `left_ - buf_.data()` -/
  left : ℕ
  /-- `right_ - buf_.data()` -/
  right : ℕ

namespace MirroredRingBuffer

/-- The moved-from state: empty `buf_` and null pointers. -/
def null : MirroredRingBuffer where
  buf := none
  left := 0
  right := 0

/-- The constructor; `index` counts the calls of `mirror_create`. -/
def create (mirrors : MirrorSource) (index capacity : ℕ) :
    MirroredRingBuffer where
  buf := (mirrors.create index capacity).map (Mapping.mk index)
  left := 0
  right := 0

def isNull (buffer : MirroredRingBuffer) : Bool :=
  buffer.buf.isNone

@[simp]
theorem isNull_null : null.isNull = true := rfl

def capacity (buffer : MirroredRingBuffer) : ℕ :=
  match buffer.buf with
  | some mapping => mapping.block.capacity
  | none => 0

def mappingId (buffer : MirroredRingBuffer) : Option ℕ :=
  buffer.buf.map Mapping.id

/-- Move assignment: the new values of `*this` and of `other`. -/
def moveAssign (_this other : MirroredRingBuffer) :
    MirroredRingBuffer × MirroredRingBuffer :=
  (other, null)

/-- The bytes a span shows. -/
def view (buffer : MirroredRingBuffer) (span : Span) :
    Outcome Fault (List UInt8) :=
  match buffer.buf with
  | some mapping =>
      if span.mapping = some mapping.id ∧
          span.offset + span.size ≤ 2 * mapping.block.capacity then
        .ok (slice mapping.block span.offset span.size)
      else .fault .invalidSpan
  | none =>
      if span.mapping = none ∧ span.size = 0 then .ok []
      else .fault .invalidSpan

/-- Write bytes into a span, starting at its `start`-th byte. -/
def fill (buffer : MirroredRingBuffer) (span : Span) (start : ℕ)
    (bytes : List UInt8) : Outcome Fault MirroredRingBuffer :=
  match buffer.buf with
  | some mapping =>
      if span.mapping = some mapping.id ∧
          span.offset + span.size ≤ 2 * mapping.block.capacity ∧
          start + bytes.length ≤ span.size then
        .ok { buffer with
          buf := some { mapping with
            block := store mapping.block (span.offset + start) bytes } }
      else .fault .invalidSpan
  | none =>
      if span.mapping = none ∧ start + bytes.length ≤ span.size ∧
          span.size = 0 then .ok buffer
      else .fault .invalidSpan

def availableRead (buffer : MirroredRingBuffer) : ℕ :=
  sizeSub buffer.right buffer.left

def prepareRead (buffer : MirroredRingBuffer) : Span where
  mapping := buffer.mappingId
  offset := buffer.left
  size := buffer.availableRead

def commitRead (buffer : MirroredRingBuffer) (bytes : ℕ) :
    Outcome Fault MirroredRingBuffer :=
  if buffer.left + bytes ≤ buffer.right then
    let left := buffer.left + bytes
    if buffer.capacity ≤ left then
      .ok { buffer with
        left := left - buffer.capacity
        right := buffer.right - buffer.capacity }
    else .ok { buffer with left := left }
  else .fault .commitRead

def availableWrite (buffer : MirroredRingBuffer) : ℕ :=
  sizeSub buffer.capacity buffer.availableRead

def prepareWrite (buffer : MirroredRingBuffer) : Span where
  mapping := buffer.mappingId
  offset := buffer.right
  size := buffer.availableWrite

def commitWrite (buffer : MirroredRingBuffer) (bytes : ℕ) :
    Outcome Fault MirroredRingBuffer :=
  if buffer.right + bytes < 2 * buffer.capacity then
    .ok { buffer with right := buffer.right + bytes }
  else .fault .commitWrite

/-- `reserve`: whether it succeeded, and the buffer after the call.  The copy
fills the new mapping, but nothing is committed to `new_buf`. -/
def reserve (mirrors : MirrorSource) (index : ℕ) (buffer : MirroredRingBuffer)
    (newCapacity : ℕ) : Outcome Fault (Bool × MirroredRingBuffer) :=
  if buffer.capacity < newCapacity then
    let newBuf := create mirrors index newCapacity
    if newBuf.isNull then .ok (false, buffer)
    else
      let source := buffer.prepareRead
      let target := newBuf.prepareWrite
      if source.size ≤ target.size then
        (buffer.view source).bind fun bytes =>
          (newBuf.fill target 0 bytes).bind fun filled =>
            .ok (true, (moveAssign buffer filled).1)
      else .fault .reserve
  else .ok (true, buffer)

/-! ## The documented invariants -/

/-- The invariants of the comment above the class, for a buffer that owns a
mapping. -/
structure Valid (buffer : MirroredRingBuffer) : Prop where
  isNull_eq : buffer.isNull = false
  left_lt : buffer.left < buffer.capacity
  left_le : buffer.left ≤ buffer.right
  right_le : buffer.right ≤ buffer.left + buffer.capacity

/-- The bytes committed by writes and not yet by reads. -/
def unread (buffer : MirroredRingBuffer) : List UInt8 :=
  match buffer.buf with
  | some mapping => slice mapping.block buffer.left (buffer.right - buffer.left)
  | none => []

variable {buffer : MirroredRingBuffer}

theorem Valid.exists_mapping (hvalid : buffer.Valid) :
    ∃ mapping, buffer.buf = some mapping := by
  have hnull := hvalid.isNull_eq
  rw [isNull, Option.isNone_eq_false_iff, Option.isSome_iff_exists] at hnull
  exact hnull

theorem Valid.capacity_pos (hvalid : buffer.Valid) : 0 < buffer.capacity :=
  Nat.zero_lt_of_lt hvalid.left_lt

theorem Valid.right_lt (hvalid : buffer.Valid) :
    buffer.right < 2 * buffer.capacity := by
  have hleft := hvalid.left_lt
  have hright := hvalid.right_le
  omega

theorem Valid.availableRead_eq (hvalid : buffer.Valid) :
    buffer.availableRead = buffer.right - buffer.left :=
  sizeSub_of_le hvalid.left_le

theorem Valid.length_unread (hvalid : buffer.Valid) :
    buffer.unread.length = buffer.right - buffer.left := by
  obtain ⟨mapping, hbuf⟩ := hvalid.exists_mapping
  simp [unread, hbuf]

theorem Valid.length_unread_le (hvalid : buffer.Valid) :
    buffer.unread.length ≤ buffer.capacity := by
  have hright := hvalid.right_le
  rw [hvalid.length_unread]
  omega

theorem Valid.availableRead_eq_length (hvalid : buffer.Valid) :
    buffer.availableRead = buffer.unread.length := by
  rw [hvalid.availableRead_eq, hvalid.length_unread]

theorem Valid.availableWrite_eq (hvalid : buffer.Valid) :
    buffer.availableWrite = buffer.capacity - buffer.unread.length := by
  rw [availableWrite, hvalid.availableRead_eq_length,
    sizeSub_of_le hvalid.length_unread_le]

/-- The readable span lies in the mapping and shows the unread bytes. -/
theorem Valid.view_prepareRead (hvalid : buffer.Valid) :
    buffer.view buffer.prepareRead = .ok buffer.unread := by
  obtain ⟨mapping, hbuf⟩ := hvalid.exists_mapping
  have hcapacity : buffer.capacity = mapping.block.capacity := by
    simp [capacity, hbuf]
  have hread := hvalid.availableRead_eq
  have hleft := hvalid.left_le
  have hright := hvalid.right_lt
  have hin : buffer.left + (buffer.right - buffer.left) ≤
      2 * mapping.block.capacity := by omega
  simp [view, hbuf, prepareRead, mappingId, hread, hin, unread]

/-! ## Effects of the operations -/

theorem create_valid {mirrors : MirrorSource} {index request : ℕ}
    {block : Block UInt8} (hcreate : mirrors.create index request = some block) :
    (create mirrors index request).Valid ∧
      (create mirrors index request).capacity = block.capacity ∧
      (create mirrors index request).unread = [] := by
  have hcapacity : (create mirrors index request).capacity =
      block.capacity := by
    simp [create, capacity, hcreate]
  refine ⟨⟨by simp [create, isNull, hcreate], ?_, le_rfl, by simp [create]⟩,
    hcapacity, by simp [create, unread, hcreate]⟩
  rw [hcapacity]
  exact block.capacity_pos

theorem create_eq_null {mirrors : MirrorSource} {index request : ℕ}
    (hcreate : mirrors.create index request = none) :
    create mirrors index request = null := by
  simp [create, null, hcreate]

/-- `commit_read` of at most the readable bytes removes them from the front,
also when the read pointer passes the end of the first copy. -/
theorem Valid.commitRead_ok (hvalid : buffer.Valid) {bytes : ℕ}
    (hbytes : bytes ≤ buffer.unread.length) :
    ∃ after, buffer.commitRead bytes = .ok after ∧ after.Valid ∧
      after.buf = buffer.buf ∧ after.unread = buffer.unread.drop bytes := by
  obtain ⟨mapping, hbuf⟩ := hvalid.exists_mapping
  have hcapacity : buffer.capacity = mapping.block.capacity := by
    simp [capacity, hbuf]
  rw [hvalid.length_unread] at hbytes
  have hleft := hvalid.left_le
  have hright := hvalid.right_le
  have hright' := hvalid.right_lt
  have hguard : buffer.left + bytes ≤ buffer.right := by omega
  have hrest : buffer.right - buffer.left - bytes =
      buffer.right - (buffer.left + bytes) := by omega
  have hdrop : buffer.unread.drop bytes = slice mapping.block
      (buffer.left + bytes) (buffer.right - (buffer.left + bytes)) := by
    simp only [unread, hbuf]
    rw [drop_slice _ _ hbytes, hrest]
  by_cases hwrap : buffer.capacity ≤ buffer.left + bytes
  · refine ⟨{ buffer with
      left := buffer.left + bytes - buffer.capacity
      right := buffer.right - buffer.capacity }, ?_, ⟨?_, ?_, ?_, ?_⟩, rfl, ?_⟩
    · simp [commitRead, hguard, hwrap]
    · exact hvalid.isNull_eq
    · change buffer.left + bytes - buffer.capacity < buffer.capacity
      omega
    · change buffer.left + bytes - buffer.capacity ≤
        buffer.right - buffer.capacity
      omega
    · change buffer.right - buffer.capacity ≤
        buffer.left + bytes - buffer.capacity + buffer.capacity
      omega
    · -- both copies show the same bytes, so the wrapped span shows the rest
      have hcount : buffer.right - buffer.capacity -
          (buffer.left + bytes - buffer.capacity) =
            buffer.right - (buffer.left + bytes) := by omega
      simp only [unread, hbuf] at hdrop ⊢
      rw [hdrop, hcount, hcapacity]
      exact slice_sub_capacity _ (hcapacity ▸ hwrap) _
  · refine ⟨{ buffer with left := buffer.left + bytes }, ?_, ⟨?_, ?_, ?_, ?_⟩,
      rfl, ?_⟩
    · simp [commitRead, hguard, hwrap]
    · exact hvalid.isNull_eq
    · exact not_le.mp hwrap
    · exact hguard
    · change buffer.right ≤ buffer.left + bytes + buffer.capacity
      omega
    · simp only [unread, hbuf] at hdrop ⊢
      exact hdrop.symm

/-- `commit_read` faults exactly when it is asked for more than the readable
bytes. -/
theorem Valid.commitRead_fault (hvalid : buffer.Valid) {bytes : ℕ}
    (hbytes : buffer.unread.length < bytes) :
    buffer.commitRead bytes = .fault .commitRead := by
  have hleft := hvalid.left_le
  rw [hvalid.length_unread] at hbytes
  have hguard : ¬ buffer.left + bytes ≤ buffer.right := by omega
  simp [commitRead, hguard]

/-- Writing into the writable span succeeds and leaves the pointers, the
capacity and the unread bytes as they are. -/
theorem Valid.fill_ok (hvalid : buffer.Valid) {start : ℕ} {bytes : List UInt8}
    (hbytes : start + bytes.length ≤ buffer.availableWrite) :
    ∃ after, buffer.fill buffer.prepareWrite start bytes = .ok after ∧
      after.Valid ∧ after.left = buffer.left ∧ after.right = buffer.right ∧
      after.capacity = buffer.capacity ∧ after.mappingId = buffer.mappingId ∧
      after.unread = buffer.unread ∧
      ∀ mapping, after.buf = some mapping →
        slice mapping.block (buffer.right + start) bytes.length = bytes := by
  obtain ⟨mapping, hbuf⟩ := hvalid.exists_mapping
  have hcapacity : buffer.capacity = mapping.block.capacity := by
    simp [capacity, hbuf]
  have hleft := hvalid.left_le
  have hleft' := hvalid.left_lt
  have hright := hvalid.right_le
  have hwrite := hvalid.availableWrite_eq
  rw [hvalid.length_unread] at hwrite
  have hid : buffer.mappingId = some mapping.id := by simp [mappingId, hbuf]
  have hin : buffer.right + buffer.availableWrite ≤
      2 * mapping.block.capacity := by omega
  have hstart : buffer.left + (buffer.right - buffer.left) ≤
      buffer.right + start := by omega
  have hfit : buffer.right + start + bytes.length ≤
      buffer.left + mapping.block.capacity := by omega
  let after : MirroredRingBuffer := { buffer with
    buf := some { mapping with
      block := store mapping.block (buffer.right + start) bytes } }
  have hafter : after.capacity = buffer.capacity := by
    rw [hcapacity]
    exact capacity_store _ _ _
  refine ⟨after, ?_, ⟨rfl, ?_, hleft, ?_⟩, rfl, rfl, hafter, ?_, ?_, ?_⟩
  · simp only [fill, hbuf, prepareWrite, hid]
    rw [if_pos ⟨trivial, hin, hbytes⟩]
  · rw [hafter]
    exact hvalid.left_lt
  · rw [hafter]
    exact hright
  · rw [hid]
    rfl
  · simp only [unread, hbuf]
    exact slice_store_of_le _ _ hstart hfit
  · intro stored hstored
    obtain rfl := Option.some.inj hstored
    exact slice_store_self _ _ _ (by omega)

/-- Committing bytes that the writable span shows appends them to the unread
bytes. -/
theorem Valid.commitWrite_ok (hvalid : buffer.Valid) {bytes : ℕ}
    (hbytes : bytes ≤ buffer.availableWrite) :
    ∃ after, buffer.commitWrite bytes = .ok after ∧ after.Valid ∧
      after.buf = buffer.buf ∧
      ∀ mapping, buffer.buf = some mapping → after.unread =
        buffer.unread ++ slice mapping.block buffer.right bytes := by
  have hleft := hvalid.left_le
  have hleft' := hvalid.left_lt
  have hright := hvalid.right_le
  have hwrite := hvalid.availableWrite_eq
  rw [hvalid.length_unread] at hwrite
  have hguard : buffer.right + bytes < 2 * buffer.capacity := by omega
  refine ⟨{ buffer with right := buffer.right + bytes }, ?_, ⟨?_, ?_, ?_, ?_⟩,
    rfl, ?_⟩
  · simp [commitWrite, hguard]
  · exact hvalid.isNull_eq
  · exact hleft'
  · change buffer.left ≤ buffer.right + bytes
    omega
  · change buffer.right + bytes ≤ buffer.left + buffer.capacity
    omega
  · intro mapping hbuf
    have hcount : buffer.right + bytes - buffer.left =
        (buffer.right - buffer.left) + bytes := by omega
    have hback : buffer.left + (buffer.right - buffer.left) =
        buffer.right := by omega
    simp only [unread, hbuf]
    rw [hcount, slice_add, hback]

/-- Writing bytes into the writable span and committing the first `count` of
them appends these to the unread bytes. -/
theorem Valid.fill_commitWrite_ok (hvalid : buffer.Valid) {bytes : List UInt8}
    {count : ℕ} (hbytes : bytes.length ≤ buffer.availableWrite)
    (hcount : count ≤ bytes.length) :
    ∃ filled after, buffer.fill buffer.prepareWrite 0 bytes = .ok filled ∧
      filled.commitWrite count = .ok after ∧ after.Valid ∧
      after.capacity = buffer.capacity ∧
      after.unread = buffer.unread ++ bytes.take count := by
  have hstart : 0 + bytes.length ≤ buffer.availableWrite := by
    rwa [Nat.zero_add]
  obtain ⟨filled, hfill, hfilled, -, hright, hcapacity, -, hunread, hslice⟩ :=
    hvalid.fill_ok hstart
  have hwrite : filled.availableWrite = buffer.availableWrite := by
    rw [hfilled.availableWrite_eq, hvalid.availableWrite_eq, hcapacity, hunread]
  have hcommits : count ≤ filled.availableWrite := by
    rw [hwrite]
    exact hcount.trans hbytes
  obtain ⟨after, hcommit, hafter, hbuf, happend⟩ :=
    hfilled.commitWrite_ok hcommits
  obtain ⟨mapping, hmapping⟩ := hfilled.exists_mapping
  have hstored := hslice mapping hmapping
  rw [Nat.add_zero, ← hright] at hstored
  have hcommitted : slice mapping.block filled.right count =
      bytes.take count := by
    calc
      slice mapping.block filled.right count =
          (slice mapping.block filled.right bytes.length).take count :=
        (take_slice _ _ hcount).symm
      _ = bytes.take count := by rw [hstored]
  refine ⟨filled, after, hfill, hcommit, hafter, ?_, ?_⟩
  · rw [← hcapacity, capacity, capacity, hbuf]
  · rw [happend mapping hmapping, hcommitted, hunread]

/-- A `reserve` that creates no new mapping leaves the buffer as it is. -/
theorem reserve_of_none (buffer : MirroredRingBuffer)
    {mirrors : MirrorSource} {index newCapacity : ℕ}
    (hcreate : mirrors.create index newCapacity = none) :
    ∃ result, buffer.reserve mirrors index newCapacity =
      .ok (result, buffer) := by
  by_cases hcapacity : buffer.capacity < newCapacity
  · exact ⟨false, by simp [reserve, hcapacity, create_eq_null hcreate]⟩
  · exact ⟨true, by simp [reserve, hcapacity]⟩

/-- A `reserve` that moves to a new mapping copies the unread bytes into it,
but the buffer it installs has nothing committed. -/
theorem Valid.reserve_of_some (hvalid : buffer.Valid) {mirrors : MirrorSource}
    {index newCapacity : ℕ} {block : Block UInt8}
    (hcapacity : buffer.capacity < newCapacity)
    (hcreate : mirrors.create index newCapacity = some block) :
    ∃ after, buffer.reserve mirrors index newCapacity = .ok (true, after) ∧
      after.Valid ∧ after.capacity = block.capacity ∧ after.unread = [] := by
  obtain ⟨hnew, hcap, hempty⟩ := create_valid hcreate
  have hcovers := mirrors.covers hcreate
  have hlength := hvalid.length_unread_le
  have hwrite : (create mirrors index newCapacity).availableWrite =
      block.capacity := by
    rw [hnew.availableWrite_eq, hcap, hempty]
    rfl
  have hfits : buffer.prepareRead.size ≤
      (create mirrors index newCapacity).prepareWrite.size := by
    change buffer.availableRead ≤
      (create mirrors index newCapacity).availableWrite
    rw [hvalid.availableRead_eq_length, hwrite]
    omega
  have hroom : 0 + buffer.unread.length ≤
      (create mirrors index newCapacity).availableWrite := by
    rw [hwrite]
    omega
  obtain ⟨after, hfill, hafter, -, -, hcapacity', -, hunread, -⟩ :=
    hnew.fill_ok hroom
  refine ⟨after, ?_, hafter, by rw [hcapacity', hcap], by rw [hunread, hempty]⟩
  simp only [reserve, if_pos hcapacity, hnew.isNull_eq, Bool.false_eq_true,
    if_false, if_pos hfits, hvalid.view_prepareRead, Outcome.ok_bind, hfill,
    moveAssign]

/-! ## Faults of the operations -/

theorem view_fault {span : Span} {fault : Fault}
    (hview : buffer.view span = .fault fault) : fault = .invalidSpan := by
  unfold view at hview
  split at hview <;> split at hview <;> simp_all

theorem fill_fault {span : Span} {start : ℕ} {bytes : List UInt8}
    {fault : Fault} (hfill : buffer.fill span start bytes = .fault fault) :
    fault = .invalidSpan := by
  unfold fill at hfill
  split at hfill <;> split at hfill <;> simp_all

theorem commitRead_fault_eq {bytes : ℕ} {fault : Fault}
    (hcommit : buffer.commitRead bytes = .fault fault) :
    fault = .commitRead := by
  unfold commitRead at hcommit
  dsimp only at hcommit
  split_ifs at hcommit
  exact (Outcome.fault.inj hcommit).symm

theorem commitWrite_fault {bytes : ℕ} {fault : Fault}
    (hcommit : buffer.commitWrite bytes = .fault fault) :
    fault = .commitWrite := by
  unfold commitWrite at hcommit
  split_ifs at hcommit
  exact (Outcome.fault.inj hcommit).symm

theorem reserve_fault {mirrors : MirrorSource} {index newCapacity : ℕ}
    {fault : Fault}
    (hreserve : buffer.reserve mirrors index newCapacity = .fault fault) :
    fault = .invalidSpan ∨ fault = .reserve := by
  unfold reserve at hreserve
  dsimp only at hreserve
  split_ifs at hreserve
  · rw [Outcome.bind_eq_fault_iff] at hreserve
    rcases hreserve with hview | ⟨bytes, -, hrest⟩
    · exact Or.inl (view_fault hview)
    · rw [Outcome.bind_eq_fault_iff] at hrest
      rcases hrest with hfill | ⟨filled, -, hdone⟩
      · exact Or.inl (fill_fault hfill)
      · simp at hdone
  · exact Or.inr (Outcome.fault.inj hreserve).symm

end MirroredRingBuffer

end ParseBgp.Io
