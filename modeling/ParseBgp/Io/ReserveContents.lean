import ParseBgp.Io.RingBufferFifo

/-!
# What `reserve` keeps

`reserve` promises a buffer that is at least as large and shows the same unread
bytes.  It copies these bytes into the new mapping but does not commit them
there, so the promise holds exactly when no new mapping is installed or there is
nothing to keep.
-/

namespace ParseBgp.Io.MirroredRingBuffer

open Loop MirroredMemory BoundedFifo

/-- The buffers that construction, permitted uses and calls of `reserve` lead
to. -/
inductive Reachable (mirrors : MirrorSource) : MirroredRingBuffer → Prop
  | create {index capacity : ℕ} {block : Block UInt8}
      (hcreate : mirrors.create index capacity = some block) :
      Reachable mirrors (create mirrors index capacity)
  | use {buffer after : MirroredRingBuffer} {op : BufferOp}
      (hbuffer : Reachable mirrors buffer) (hop : op.Permitted buffer)
      (happly : op.apply buffer = .ok after) : Reachable mirrors after
  | reserve {buffer after : MirroredRingBuffer} {index newCapacity : ℕ}
      {result : Bool} (hbuffer : Reachable mirrors buffer)
      (hreserve : buffer.reserve mirrors index newCapacity =
        .ok (result, after)) : Reachable mirrors after

/-- What a call of `reserve` promises of its result and of the buffer it
leaves, for a call that finds the buffer `buffer`. -/
structure KeepsUnread (buffer : MirroredRingBuffer) (newCapacity : ℕ)
    (result : Bool × MirroredRingBuffer) : Prop where
  capacity_le : result.1 = true →
    max buffer.capacity newCapacity ≤ result.2.capacity
  view_eq : result.1 = true →
    result.2.view result.2.prepareRead = buffer.view buffer.prepareRead
  availableWrite_eq : result.1 = true →
    result.2.availableWrite = result.2.capacity - result.2.availableRead
  /-- later commits continue the queue of the unread bytes -/
  continues : result.1 = true → ∀ ops, PermittedRun ops result.2 →
    ∃ final, runOps ops result.2 = .ok final ∧
      final.view final.prepareRead =
        .ok ((buffer.unread ++ committed ops).drop (consumed ops))
  unchanged : result.1 = false → result.2 = buffer

variable {mirrors : MirrorSource} {buffer : MirroredRingBuffer}

/-- From any valid buffer on, the readable span shows the unread bytes followed
by what was committed since, less what was consumed since. -/
theorem Valid.runOps_view (hvalid : buffer.Valid) {ops : List BufferOp}
    (hops : PermittedRun ops buffer) :
    ∃ final, runOps ops buffer = .ok final ∧
      final.view final.prepareRead =
        .ok ((buffer.unread ++ committed ops).drop (consumed ops)) := by
  obtain ⟨final, hrun, hfinal, hexchange⟩ := runOps_simulates hvalid hops .refl
  refine ⟨final, hrun, ?_⟩
  have hcontents : final.unread =
      (buffer.unread ++ committed ops).drop (consumed ops) := by
    simpa [toFifo] using hexchange.contents_eq
  rw [hfinal.view_prepareRead, hcontents]

theorem Valid.availableWrite_eq_sub (hvalid : buffer.Valid) :
    buffer.availableWrite = buffer.capacity - buffer.availableRead := by
  rw [hvalid.availableWrite_eq, hvalid.availableRead_eq_length]

theorem Valid.apply_valid (hvalid : buffer.Valid) {op : BufferOp}
    (hop : op.Permitted buffer) {after : MirroredRingBuffer}
    (happly : op.apply buffer = .ok after) : after.Valid := by
  obtain ⟨after', happly', hafter, -⟩ := apply_simulates hvalid hop .refl
  rw [happly] at happly'
  obtain rfl := Outcome.ok.inj happly'
  exact hafter

theorem Valid.reserve_cases (hvalid : buffer.Valid) (mirrors : MirrorSource)
    (index newCapacity : ℕ) :
    (newCapacity ≤ buffer.capacity ∧
        buffer.reserve mirrors index newCapacity = .ok (true, buffer)) ∨
      (buffer.capacity < newCapacity ∧
        mirrors.create index newCapacity = none ∧
        buffer.reserve mirrors index newCapacity = .ok (false, buffer)) ∨
      (buffer.capacity < newCapacity ∧ ∃ block after,
        mirrors.create index newCapacity = some block ∧
        buffer.reserve mirrors index newCapacity = .ok (true, after) ∧
        after.Valid ∧ after.capacity = block.capacity ∧
        after.unread = []) := by
  by_cases hcapacity : buffer.capacity < newCapacity
  · cases hcreate : mirrors.create index newCapacity with
    | none =>
        refine Or.inr (Or.inl ⟨hcapacity, rfl, ?_⟩)
        simp [reserve, hcapacity, create_eq_null hcreate]
    | some block =>
        obtain ⟨after, hreserve, hafter⟩ :=
          hvalid.reserve_of_some hcapacity hcreate
        exact Or.inr (Or.inr ⟨hcapacity, block, after, rfl, hreserve, hafter⟩)
  · refine Or.inl ⟨not_lt.mp hcapacity, ?_⟩
    simp [reserve, hcapacity]

/-- `reserve` on a valid buffer runs without a fault and leaves a valid
buffer, whatever becomes of the bytes. -/
theorem Valid.reserve_valid (hvalid : buffer.Valid) (mirrors : MirrorSource)
    (index newCapacity : ℕ) :
    ∃ result after, buffer.reserve mirrors index newCapacity =
      .ok (result, after) ∧ after.Valid := by
  rcases hvalid.reserve_cases mirrors index newCapacity with
    ⟨-, hreserve⟩ | ⟨-, -, hreserve⟩ | ⟨-, block, after, -, hreserve, hafter, -⟩
  · exact ⟨true, buffer, hreserve, hvalid⟩
  · exact ⟨false, buffer, hreserve, hvalid⟩
  · exact ⟨true, after, hreserve, hafter⟩

/-- `reserve` returns `false` only if no larger mapping was created. -/
theorem create_eq_none_of_reserve {after : MirroredRingBuffer}
    {index newCapacity : ℕ}
    (hreserve : buffer.reserve mirrors index newCapacity =
      .ok (false, after)) :
    buffer.capacity < newCapacity ∧ mirrors.create index newCapacity = none := by
  unfold reserve at hreserve
  dsimp only at hreserve
  split_ifs at hreserve with hcapacity hnull hfits
  · refine ⟨hcapacity, ?_⟩
    rw [isNull, Option.isNone_iff_eq_none] at hnull
    exact Option.map_eq_none_iff.mp hnull
  · obtain ⟨bytes, -, hrest⟩ := Outcome.bind_eq_ok_iff.mp hreserve
    obtain ⟨filled, -, hdone⟩ := Outcome.bind_eq_ok_iff.mp hrest
    simp at hdone
  · simp at hreserve

/-- The parts of a growing `reserve`. -/
theorem reserve_parts {after : MirroredRingBuffer} {index newCapacity : ℕ}
    {result : Bool} (hcapacity : buffer.capacity < newCapacity)
    (hnull : (create mirrors index newCapacity).isNull = false)
    (hreserve : buffer.reserve mirrors index newCapacity =
      .ok (result, after)) :
    buffer.prepareRead.size ≤
        (create mirrors index newCapacity).prepareWrite.size ∧
      ∃ bytes, buffer.view buffer.prepareRead = .ok bytes ∧
        (create mirrors index newCapacity).fill
          (create mirrors index newCapacity).prepareWrite 0 bytes =
            .ok after := by
  simp only [reserve, if_pos hcapacity, hnull, Bool.false_eq_true,
    if_false] at hreserve
  split_ifs at hreserve with hfits
  obtain ⟨bytes, hview, hrest⟩ := Outcome.bind_eq_ok_iff.mp hreserve
  obtain ⟨filled, hfill, hdone⟩ := Outcome.bind_eq_ok_iff.mp hrest
  have hafter : filled = after := (Prod.mk.inj (Outcome.ok.inj hdone)).2
  exact ⟨hfits, bytes, hview, hafter ▸ hfill⟩

theorem Reachable.valid (hreachable : Reachable mirrors buffer) :
    buffer.Valid := by
  induction hreachable with
  | create hcreate => exact (create_valid hcreate).1
  | use _ hop happly ih => exact ih.apply_valid hop happly
  | @reserve buffer after index newCapacity result _ hreserve ih =>
      obtain ⟨result', after', hreserve', hafter⟩ :=
        ih.reserve_valid mirrors index newCapacity
      rw [hreserve] at hreserve'
      obtain ⟨-, rfl⟩ := Prod.mk.inj (Outcome.ok.inj hreserve')
      exact hafter

/-! ## When the promise is kept -/

theorem Valid.keepsUnread_self (hvalid : buffer.Valid) {newCapacity : ℕ}
    (hcapacity : newCapacity ≤ buffer.capacity) :
    KeepsUnread buffer newCapacity (true, buffer) where
  capacity_le := fun _ => max_le le_rfl hcapacity
  view_eq := fun _ => rfl
  availableWrite_eq := fun _ => hvalid.availableWrite_eq_sub
  continues := fun _ _ hops => hvalid.runOps_view hops
  unchanged := by simp

theorem keepsUnread_failed (buffer : MirroredRingBuffer) (newCapacity : ℕ) :
    KeepsUnread buffer newCapacity (false, buffer) where
  capacity_le := by simp
  view_eq := by simp
  availableWrite_eq := by simp
  continues := by simp
  unchanged := fun _ => rfl

/-- A larger buffer that shows nothing keeps the promise only if there was
nothing to keep. -/
theorem Valid.keepsUnread_empty_iff (hvalid : buffer.Valid) {newCapacity : ℕ}
    {after : MirroredRingBuffer} (hafter : after.Valid)
    (hcapacity : buffer.capacity < newCapacity)
    (hcovers : newCapacity ≤ after.capacity) (hempty : after.unread = []) :
    KeepsUnread buffer newCapacity (true, after) ↔ buffer.unread = [] := by
  constructor
  · intro hkeeps
    have hview := hkeeps.view_eq rfl
    rw [hafter.view_prepareRead, hvalid.view_prepareRead, hempty] at hview
    exact (Outcome.ok.inj hview).symm
  · intro hunread
    exact {
      capacity_le := fun _ => max_le (hcapacity.le.trans hcovers) hcovers
      view_eq := fun _ => by
        rw [hafter.view_prepareRead, hvalid.view_prepareRead, hempty, hunread]
      availableWrite_eq := fun _ => hafter.availableWrite_eq_sub
      continues := fun _ _ hops => by
        rw [hunread, ← hempty]
        exact hafter.runOps_view hops
      unchanged := by simp }

/-- `reserve` keeps the unread bytes exactly when it installs no new mapping or
there are no unread bytes. -/
theorem keepsUnread_iff (hreachable : Reachable mirrors buffer)
    (index newCapacity : ℕ) :
    ∃ result, buffer.reserve mirrors index newCapacity = .ok result ∧
      (KeepsUnread buffer newCapacity result ↔
        newCapacity ≤ buffer.capacity ∨
          mirrors.create index newCapacity = none ∨
          buffer.availableRead = 0) := by
  have hvalid := hreachable.valid
  rcases hvalid.reserve_cases mirrors index newCapacity with
    ⟨hcapacity, hreserve⟩ | ⟨-, hcreate, hreserve⟩ |
      ⟨hcapacity, block, after, hcreate, hreserve, hafter, hblock, hempty⟩
  · refine ⟨_, hreserve, ?_⟩
    exact iff_of_true (hvalid.keepsUnread_self hcapacity) (Or.inl hcapacity)
  · refine ⟨_, hreserve, ?_⟩
    exact iff_of_true (keepsUnread_failed buffer newCapacity)
      (Or.inr (Or.inl hcreate))
  · refine ⟨_, hreserve, ?_⟩
    have hcovers : newCapacity ≤ after.capacity := by
      rw [hblock]
      exact mirrors.covers hcreate
    rw [hvalid.keepsUnread_empty_iff hafter hcapacity hcovers hempty,
      hvalid.availableRead_eq_length, List.length_eq_zero_iff]
    simp [not_le.mpr hcapacity, hcreate]

/-- A buffer of two cells with two unread bytes. -/
private theorem exists_two_unread {block : Block UInt8}
    (hcreate : mirrors.create 0 2 = some block) (hblock : block.capacity = 2) :
    ∃ buffer, Reachable mirrors buffer ∧ buffer.unread = [7, 8] ∧
      buffer.capacity = 2 := by
  obtain ⟨hvalid, hcapacity, hempty⟩ := create_valid hcreate
  have hwrite : (create mirrors 0 2).availableWrite = 2 := by
    rw [hvalid.availableWrite_eq, hempty, hcapacity, hblock]
    rfl
  have hop : (BufferOp.write [7, 8] 2).Permitted (create mirrors 0 2) :=
    ⟨hwrite.symm, hwrite.ge⟩
  obtain ⟨buffer, happly, hafter, hexchange⟩ :=
    apply_simulates hvalid hop .refl
  have hunread : buffer.unread = [7, 8] := by
    simpa [toFifo, hempty, BufferOp.committed, BufferOp.consumed]
      using hexchange.contents_eq
  have hcells : buffer.capacity = (create mirrors 0 2).capacity :=
    hexchange.capacity_eq
  refine ⟨buffer, .use (.create hcreate) hop happly, hunread, ?_⟩
  rw [hcells, hcapacity, hblock]

/-- Two unread bytes are kept when the larger mapping cannot be created. -/
theorem keepsUnread_iff_failed :
    ∃ buffer result, Reachable singleMirror buffer ∧
      buffer.view buffer.prepareRead = .ok [7, 8] ∧
      buffer.reserve singleMirror 1 4 = .ok result ∧
      KeepsUnread buffer 4 result := by
  have hcreate : singleMirror.create 0 2 = some ⟨2, fun _ => 0, by decide⟩ :=
    rfl
  obtain ⟨buffer, hreachable, hunread, -⟩ := exists_two_unread hcreate rfl
  obtain ⟨result, hreserve, hkeeps⟩ := keepsUnread_iff hreachable 1 4
  refine ⟨buffer, result, hreachable, ?_, hreserve,
    hkeeps.mpr (Or.inr (Or.inl rfl))⟩
  rw [hreachable.valid.view_prepareRead, hunread]

/-- Two unread bytes in a buffer of two cells are gone after growing to four. -/
theorem not_keepsUnread_two :
    ∃ buffer result, Reachable exactMirrors buffer ∧
      buffer.view buffer.prepareRead = .ok [7, 8] ∧
      buffer.reserve exactMirrors 1 4 = .ok (true, result) ∧
      result.view result.prepareRead = .ok [] ∧
      ¬ KeepsUnread buffer 4 (true, result) := by
  have hcreate : exactMirrors.create 0 2 = some ⟨2, fun _ => 0, by decide⟩ :=
    rfl
  obtain ⟨buffer, hreachable, hunread, hcapacity⟩ :=
    exists_two_unread hcreate rfl
  have hvalid := hreachable.valid
  have hgrow : buffer.capacity < 4 := by omega
  have hlarger : exactMirrors.create 1 4 = some ⟨4, fun _ => 0, by decide⟩ :=
    rfl
  obtain ⟨result, hreserve, hafter, hblock, hempty⟩ :=
    hvalid.reserve_of_some hgrow hlarger
  refine ⟨buffer, result, hreachable, ?_, hreserve, ?_, ?_⟩
  · rw [hvalid.view_prepareRead, hunread]
  · rw [hafter.view_prepareRead, hempty]
  · rw [hvalid.keepsUnread_empty_iff hafter hgrow hblock.ge hempty, hunread]
    simp

end ParseBgp.Io.MirroredRingBuffer
