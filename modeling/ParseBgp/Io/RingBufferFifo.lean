import ParseBgp.Core.BoundedFifo
import ParseBgp.Io.MirroredRingBuffer

/-!
# The ring buffer is a bounded FIFO of bytes

A user of `MirroredRingBuffer` writes into the span of `prepare_write`, commits
some of it, and commits reads.  Every permitted sequence of such operations
runs without a violated assertion and simulates the same sequence of pushes
and pops on a bounded queue.
-/

namespace ParseBgp.Io.MirroredRingBuffer

open Loop MirroredMemory BoundedFifo

/-- One use of the buffer.  `write bytes count` puts `bytes` into the whole
writable span and commits the first `count` of them; a byte the user leaves
alone is one written with its old value. -/
inductive BufferOp where
  | write (bytes : List UInt8) (count : ℕ)
  | read (count : ℕ)

namespace BufferOp

def Permitted (buffer : MirroredRingBuffer) : BufferOp → Prop
  | write bytes count =>
      bytes.length = buffer.availableWrite ∧ count ≤ buffer.availableWrite
  | read count => count ≤ buffer.availableRead

instance (buffer : MirroredRingBuffer) (op : BufferOp) :
    Decidable (op.Permitted buffer) :=
  match op with
  | write bytes count => inferInstanceAs (Decidable
      (bytes.length = buffer.availableWrite ∧ count ≤ buffer.availableWrite))
  | read count => inferInstanceAs (Decidable (count ≤ buffer.availableRead))

def apply (buffer : MirroredRingBuffer) :
    BufferOp → Outcome Fault MirroredRingBuffer
  | write bytes count =>
      (buffer.fill buffer.prepareWrite 0 bytes).bind fun filled =>
        filled.commitWrite count
  | read count => buffer.commitRead count

/-- The bytes an operation commits as written. -/
def committed : BufferOp → List UInt8
  | write bytes count => bytes.take count
  | read _ => []

/-- The number of bytes an operation commits as read. -/
def consumed : BufferOp → ℕ
  | write _ _ => 0
  | read count => count

end BufferOp

def runOps : List BufferOp → MirroredRingBuffer →
    Outcome Fault MirroredRingBuffer
  | [], buffer => .ok buffer
  | op :: ops, buffer => (op.apply buffer).bind (runOps ops)

/-- Every operation is permitted in the state the earlier ones lead to. -/
def PermittedRun : List BufferOp → MirroredRingBuffer → Prop
  | [], _ => True
  | op :: ops, buffer =>
      op.Permitted buffer ∧
        ∀ after, op.apply buffer = .ok after → PermittedRun ops after

def committed (ops : List BufferOp) : List UInt8 :=
  ops.flatMap BufferOp.committed

def consumed (ops : List BufferOp) : ℕ :=
  (ops.map BufferOp.consumed).sum

/-- The queue a valid buffer stands for. -/
def toFifo (buffer : MirroredRingBuffer) (hvalid : buffer.Valid) :
    Fifo UInt8 where
  capacity := buffer.capacity
  contents := buffer.unread
  bounded := hvalid.length_unread_le

variable {buffer : MirroredRingBuffer}

/-- A permitted write runs without a fault and is a push. -/
theorem write_simulates (hvalid : buffer.Valid) {bytes : List UInt8}
    {count : ℕ} (hlength : bytes.length = buffer.availableWrite)
    (hcount : count ≤ buffer.availableWrite) :
    ∃ after, (BufferOp.write bytes count).apply buffer = .ok after ∧
      ∃ (hafter : after.Valid)
        (hfree : (bytes.take count).length ≤ (buffer.toFifo hvalid).free),
        after.toFifo hafter =
          (buffer.toFifo hvalid).push (bytes.take count) hfree := by
  have hcommits : count ≤ bytes.length := by rwa [hlength]
  obtain ⟨filled, after, hfill, hcommit, hafter, hcapacity, hunread⟩ :=
    hvalid.fill_commitWrite_ok hlength.le hcommits
  have hfree : (bytes.take count).length ≤ (buffer.toFifo hvalid).free := by
    calc
      (bytes.take count).length ≤ count := List.length_take_le _ _
      _ ≤ buffer.capacity - buffer.unread.length := by
        rwa [← hvalid.availableWrite_eq]
  refine ⟨after, ?_, hafter, hfree, ?_⟩
  · simp only [BufferOp.apply, hfill, Outcome.ok_bind, hcommit]
  · simp only [toFifo, Fifo.push, hcapacity, hunread]

/-- A permitted read runs without a fault and is a pop. -/
theorem read_simulates (hvalid : buffer.Valid) {count : ℕ}
    (hcount : count ≤ buffer.unread.length) :
    ∃ after, (BufferOp.read count).apply buffer = .ok after ∧
      ∃ hafter : after.Valid,
        after.toFifo hafter = (buffer.toFifo hvalid).pop count := by
  obtain ⟨after, hcommit, hafter, hbuf, hunread⟩ := hvalid.commitRead_ok hcount
  have hcapacity : after.capacity = buffer.capacity := by
    rw [capacity, capacity, hbuf]
  refine ⟨after, hcommit, hafter, ?_⟩
  simp only [toFifo, Fifo.pop, hcapacity, hunread]

/-- One permitted operation runs without a fault and is the corresponding push
or pop of the queue. -/
theorem apply_simulates (hvalid : buffer.Valid) {op : BufferOp}
    (hop : op.Permitted buffer) {start : Fifo UInt8} {pushed : List UInt8}
    {popped : ℕ}
    (hexchange : Exchange start pushed popped (buffer.toFifo hvalid)) :
    ∃ after, op.apply buffer = .ok after ∧ ∃ hafter : after.Valid,
      Exchange start (pushed ++ op.committed) (popped + op.consumed)
        (after.toFifo hafter) := by
  cases op with
  | write bytes count =>
      obtain ⟨after, happly, hafter, hfree, hpush⟩ :=
        write_simulates hvalid hop.1 hop.2
      refine ⟨after, happly, hafter, ?_⟩
      rw [hpush]
      exact hexchange.push _ hfree
  | read count =>
      have hcount : count ≤ buffer.unread.length := by
        rw [← hvalid.availableRead_eq_length]
        exact hop
      obtain ⟨after, happly, hafter, hpop⟩ := read_simulates hvalid hcount
      refine ⟨after, happly, hafter, ?_⟩
      rw [hpop, BufferOp.committed, List.append_nil]
      exact hexchange.pop count hcount

/-- Every permitted sequence of operations runs without a fault and is an
exchange of the queue. -/
theorem runOps_simulates (hvalid : buffer.Valid) {ops : List BufferOp}
    (hops : PermittedRun ops buffer) {start : Fifo UInt8}
    {pushed : List UInt8} {popped : ℕ}
    (hexchange : Exchange start pushed popped (buffer.toFifo hvalid)) :
    ∃ final, runOps ops buffer = .ok final ∧ ∃ hfinal : final.Valid,
      Exchange start (pushed ++ committed ops) (popped + consumed ops)
        (final.toFifo hfinal) := by
  induction ops generalizing buffer pushed popped with
  | nil =>
      refine ⟨buffer, rfl, hvalid, ?_⟩
      simpa [committed, consumed] using hexchange
  | cons op ops ih =>
      obtain ⟨hop, hrest⟩ := hops
      obtain ⟨after, happly, hafter, hstep⟩ :=
        apply_simulates hvalid hop hexchange
      obtain ⟨final, hrun, hfinal, hfifo⟩ :=
        ih hafter (hrest after happly) hstep
      refine ⟨final, by rw [runOps, happly, Outcome.ok_bind, hrun], hfinal, ?_⟩
      simpa [committed, consumed, List.append_assoc, Nat.add_assoc] using hfifo

/-- The mirrored ring buffer is a bounded FIFO of bytes: from construction on,
after every permitted sequence of operations no assertion has failed, the
documented invariants hold, both spans lie inside the mapping, and the readable
span shows exactly the bytes committed by writes and not yet by reads, whatever
is written into the writable span without being committed. -/
theorem ringBuffer_refines_fifo (mirrors : MirrorSource) (index request : ℕ)
    (block : Block UInt8) (hcreate : mirrors.create index request = some block)
    (ops : List BufferOp)
    (hops : PermittedRun ops (create mirrors index request)) :
    ∃ final, runOps ops (create mirrors index request) = .ok final ∧
      final.capacity = block.capacity ∧
      (final.left < block.capacity ∧ final.left ≤ final.right ∧
        final.right < 2 * block.capacity) ∧
      (final.right - final.left ≤ block.capacity ∧
        final.availableRead = final.right - final.left ∧
        final.availableWrite =
          block.capacity - (final.right - final.left)) ∧
      (final.prepareRead.offset + final.prepareRead.size ≤
          2 * block.capacity ∧
        final.prepareWrite.offset + final.prepareWrite.size ≤
          2 * block.capacity) ∧
      final.view final.prepareRead =
        .ok ((committed ops).drop (consumed ops)) ∧
      ∀ (start : ℕ) (bytes : List UInt8),
        start + bytes.length ≤ final.availableWrite →
          ∃ scribbled,
            final.fill final.prepareWrite start bytes = .ok scribbled ∧
              scribbled.view scribbled.prepareRead =
                .ok ((committed ops).drop (consumed ops)) := by
  obtain ⟨hvalid, hcapacity, hempty⟩ := create_valid hcreate
  obtain ⟨final, hrun, hfinal, hexchange⟩ := runOps_simulates hvalid hops .refl
  have hcapacity' : final.capacity = block.capacity :=
    hexchange.capacity_eq.trans hcapacity
  have hcontents : final.unread = (committed ops).drop (consumed ops) := by
    have hfifo := hexchange.contents_eq
    simpa [toFifo, hempty] using hfifo
  have hleft := hfinal.left_lt
  have hle := hfinal.left_le
  have hright := hfinal.right_le
  have hread := hfinal.availableRead_eq
  have hwrite := hfinal.availableWrite_eq
  rw [hfinal.length_unread] at hwrite
  rw [hcapacity'] at hleft hright hwrite
  refine ⟨final, hrun, hcapacity', ⟨hleft, hle, by omega⟩,
    ⟨by omega, hread, hwrite⟩, ⟨?_, ?_⟩, ?_, ?_⟩
  · simp only [prepareRead, hread]
    omega
  · simp only [prepareWrite, hwrite]
    omega
  · rw [hfinal.view_prepareRead, hcontents]
  · intro start bytes hbytes
    obtain ⟨scribbled, hfill, hscribbled, -, -, -, -, hunread, -⟩ :=
      hfinal.fill_ok hbytes
    refine ⟨scribbled, hfill, ?_⟩
    rw [hscribbled.view_prepareRead, hunread, hcontents]

/-- Three bytes go through two cells in order: the third is written into the
cell the first one left. -/
theorem ringBuffer_refines_fifo_wrap :
    ∃ final, runOps [.write [7, 8] 2, .read 1, .write [9] 1]
        (create exactMirrors 0 2) = .ok final ∧
      final.view final.prepareRead = .ok [8, 9] := by
  obtain ⟨final, hrun, -, -, -, -, hview, -⟩ :=
    ringBuffer_refines_fifo exactMirrors 0 2 ⟨2, fun _ => 0, by decide⟩ rfl
      [.write [7, 8] 2, .read 1, .write [9] 1]
      (by
        refine ⟨⟨rfl, le_rfl⟩, fun first hfirst => ?_⟩
        obtain rfl := Outcome.ok.inj hfirst
        refine ⟨by decide, fun second hsecond => ?_⟩
        obtain rfl := Outcome.ok.inj hsecond
        exact ⟨⟨rfl, le_rfl⟩, fun _ _ => trivial⟩)
  exact ⟨final, hrun, hview⟩

end ParseBgp.Io.MirroredRingBuffer
