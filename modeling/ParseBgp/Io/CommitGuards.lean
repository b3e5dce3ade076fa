import ParseBgp.Io.ReserveContents

/-!
# The assertions of the two commits

`commit_read` compares the new read pointer with the write pointer, which is
the invariant it has to protect.  `commit_write` compares the new write pointer
with the end of the second copy, which lies beyond `left_ + C` unless the read
pointer is at the last byte of the first copy.
-/

namespace ParseBgp.Io.MirroredRingBuffer

open Loop

/-- One operation that changes the buffer; `reserve` brings the outcome of its
call of `mirror_create` with it. -/
inductive Operation where
  | commitRead (bytes : ℕ)
  | commitWrite (bytes : ℕ)
  | reserve (mirrors : MirrorSource) (index newCapacity : ℕ)

namespace Operation

def apply (buffer : MirroredRingBuffer) :
    Operation → Outcome Fault MirroredRingBuffer
  | commitRead bytes => buffer.commitRead bytes
  | commitWrite bytes => buffer.commitWrite bytes
  | reserve mirrors index newCapacity =>
      (buffer.reserve mirrors index newCapacity).bind fun result =>
        .ok result.2

/-- A `commit_write` asks for at most the writable bytes. -/
def FitsSpace (buffer : MirroredRingBuffer) : Operation → Prop
  | commitWrite bytes => bytes ≤ buffer.availableWrite
  | _ => True

end Operation

/-- The comment above the class, with neither of the two counts wrapped. -/
structure Documented (buffer : MirroredRingBuffer) : Prop where
  valid : buffer.Valid
  availableRead_le : buffer.availableRead ≤ buffer.capacity
  availableWrite_add :
    buffer.availableWrite + buffer.availableRead = buffer.capacity

/-- As long as the assertions pass, every state is as documented. -/
def KeepsDocumented : List Operation → MirroredRingBuffer → Prop
  | [], _ => True
  | operation :: operations, buffer =>
      ∀ after, operation.apply buffer = .ok after →
        after.Documented ∧ KeepsDocumented operations after

/-- As long as the assertions pass, every `commit_write` fits. -/
def WritesFit : List Operation → MirroredRingBuffer → Prop
  | [], _ => True
  | operation :: operations, buffer =>
      ∀ after, operation.apply buffer = .ok after →
        operation.FitsSpace buffer ∧ WritesFit operations after

variable {buffer after : MirroredRingBuffer}

theorem Valid.documented (hvalid : buffer.Valid) : buffer.Documented where
  valid := hvalid
  availableRead_le := by
    rw [hvalid.availableRead_eq_length]
    exact hvalid.length_unread_le
  availableWrite_add := by
    have hle := hvalid.length_unread_le
    rw [hvalid.availableWrite_eq, hvalid.availableRead_eq_length]
    omega

theorem commitWrite_eq_ok {bytes : ℕ}
    (hcommit : buffer.commitWrite bytes = .ok after) :
    after = { buffer with right := buffer.right + bytes } := by
  unfold commitWrite at hcommit
  split_ifs at hcommit
  exact (Outcome.ok.inj hcommit).symm

/-- The assertion of `commit_read` is exactly the bound it needs. -/
theorem Valid.commitRead_valid (hvalid : buffer.Valid) {bytes : ℕ}
    (hcommit : buffer.commitRead bytes = .ok after) : after.Valid := by
  by_cases hbytes : bytes ≤ buffer.unread.length
  · obtain ⟨after', hcommit', hafter, -⟩ := hvalid.commitRead_ok hbytes
    rw [hcommit] at hcommit'
    obtain rfl := Outcome.ok.inj hcommit'
    exact hafter
  · rw [hvalid.commitRead_fault (not_le.mp hbytes)] at hcommit
    simp at hcommit

/-- A `commit_write` whose assertion passes keeps the invariants exactly when
it asked for at most the writable bytes. -/
theorem Valid.commitWrite_valid_iff (hvalid : buffer.Valid) {bytes : ℕ}
    (hcommit : buffer.commitWrite bytes = .ok after) :
    after.Valid ↔ bytes ≤ buffer.availableWrite := by
  constructor
  · intro hafter
    have hright := hafter.right_le
    have hleft := hvalid.left_le
    have hspace := hvalid.availableWrite_eq
    rw [hvalid.length_unread] at hspace
    rw [commitWrite_eq_ok hcommit] at hright
    change buffer.right + bytes ≤ buffer.left + buffer.capacity at hright
    omega
  · intro hbytes
    obtain ⟨after', hcommit', hafter, -⟩ := hvalid.commitWrite_ok hbytes
    rw [hcommit] at hcommit'
    obtain rfl := Outcome.ok.inj hcommit'
    exact hafter

/-- One operation whose assertion passes keeps what is documented exactly when
it fits. -/
theorem Valid.apply_documented_iff (hvalid : buffer.Valid)
    {operation : Operation} (happly : operation.apply buffer = .ok after) :
    after.Documented ↔ operation.FitsSpace buffer := by
  cases operation with
  | commitRead bytes =>
      exact iff_of_true (hvalid.commitRead_valid happly).documented trivial
  | commitWrite bytes =>
      rw [Operation.FitsSpace, ← hvalid.commitWrite_valid_iff happly]
      exact ⟨Documented.valid, Valid.documented⟩
  | reserve mirrors index newCapacity =>
      obtain ⟨result, reserved, hreserve, hreserved⟩ :=
        hvalid.reserve_valid mirrors index newCapacity
      rw [Operation.apply, hreserve, Outcome.ok_bind] at happly
      obtain rfl := Outcome.ok.inj happly
      exact iff_of_true hreserved.documented trivial

/-- The assertions protect the documented invariants over a sequence of
operations exactly as long as no `commit_write` asks for more than
`available_write`: the weaker bound it asserts lets the write pointer run more
than a capacity ahead of the read pointer. -/
theorem keepsDocumented_iff_writesFit (hvalid : buffer.Valid)
    (operations : List Operation) :
    KeepsDocumented operations buffer ↔ WritesFit operations buffer := by
  induction operations generalizing buffer with
  | nil => exact Iff.rfl
  | cons operation operations ih =>
      constructor
      · intro hkeeps after happly
        obtain ⟨hafter, hrest⟩ := hkeeps after happly
        exact ⟨(hvalid.apply_documented_iff happly).mp hafter,
          (ih hafter.valid).mp hrest⟩
      · intro hfits after happly
        obtain ⟨hfit, hrest⟩ := hfits after happly
        have hafter := (hvalid.apply_documented_iff happly).mpr hfit
        exact ⟨hafter, (ih hafter.valid).mpr hrest⟩

/-- Filling a buffer of two cells to the brim. -/
theorem keepsDocumented_iff_writesFit_full :
    KeepsDocumented [.commitWrite 2] (create exactMirrors 0 2) := by
  have hcreate : exactMirrors.create 0 2 = some ⟨2, fun _ => 0, by decide⟩ :=
    rfl
  refine (keepsDocumented_iff_writesFit (create_valid hcreate).1 _).mpr ?_
  intro after happly
  exact ⟨le_rfl, trivial⟩

/-- Committing three bytes into a buffer of two cells passes the assertion. -/
theorem not_keepsDocumented_three :
    (create exactMirrors 0 2).Valid ∧
      ¬ KeepsDocumented [.commitWrite 3] (create exactMirrors 0 2) := by
  have hcreate : exactMirrors.create 0 2 = some ⟨2, fun _ => 0, by decide⟩ :=
    rfl
  refine ⟨(create_valid hcreate).1, fun hkeeps => ?_⟩
  have hcommit : (Operation.commitWrite 3).apply (create exactMirrors 0 2) =
      .ok { create exactMirrors 0 2 with right := 3 } := rfl
  have hread := (hkeeps _ hcommit).1.availableRead_le
  exact absurd hread (by decide)

end ParseBgp.Io.MirroredRingBuffer
