import ParseBgp.Core.Loop
import ParseBgp.Core.MirroredMemory
import ParseBgp.Fault

/-!
# Creating a mirrored mapping

`MirroredRingBuffer::mirror_create` rounds the requested capacity up to a
multiple of the page size, creates an anonymous file of that size and maps it
twice in a row.  All arithmetic is on 64-bit `size_t` values.
-/

namespace ParseBgp.Io

open Loop MirroredMemory

/-- Which of the system calls made by one `mirror_create` succeed. -/
structure SystemCalls where
  memfdCreate : Bool
  ftruncate : Bool
  mmapReserve : Bool
  mmapLower : Bool
  mmapUpper : Bool
  close : Bool

/-- A system call with its arguments and whether it succeeded. -/
inductive SystemEvent where
  | memfdCreate (ok : Bool)
  | ftruncate (length : ℕ) (ok : Bool)
  /-- `mmap(nullptr, length, PROT_NONE, MAP_ANONYMOUS | MAP_PRIVATE, -1, 0)` -/
  | mmapReserve (length : ℕ) (ok : Bool)
  /-- `mmap(addr + offset, length, .., MAP_FIXED | MAP_SHARED, fd, start)` -/
  | mmapFile (offset length start : ℕ) (ok : Bool)
  | close (ok : Bool)
  | munmap (length : ℕ)
  deriving DecidableEq, Repr

/-- `capacity += page_size - capacity % page_size` unless already a
multiple. -/
def ceilToPage (pageSize capacity : ℕ) : ℕ :=
  if capacity % pageSize = 0 then capacity
  else (capacity + (pageSize - capacity % pageSize)) % 2 ^ 64

/-- The code at the label `fail`, after the system calls `before`: close the
descriptor if it is still open and unmap the reserved range if there is one.
The assertion on the result of `close` is compiled out under `ndebug`; unmapping
the reserved range does not fail. -/
def mirrorFail (ndebug : Bool) (calls : SystemCalls)
    (before : List SystemEvent) (fd : Bool) (addr : Option ℕ) :
    Outcome Fault (Option ℕ) × List SystemEvent :=
  let unmapped : List SystemEvent := (addr.map SystemEvent.munmap).toList
  if fd then
    if calls.close || ndebug then
      (.ok none, before ++ SystemEvent.close calls.close :: unmapped)
    else (.fault .mirrorClose, before ++ [SystemEvent.close false])
  else (.ok none, before ++ unmapped)

/-- `mirror_create`: the size of the resulting span, `none` for the empty one,
and the system calls made on the way. -/
def mirrorCreate (ndebug : Bool) (pageSize : ℕ) (calls : SystemCalls)
    (request : ℕ) : Outcome Fault (Option ℕ) × List SystemEvent :=
  let capacity : ℕ := ceilToPage pageSize request
  let twice : ℕ := 2 * capacity % 2 ^ 64
  if twice ≤ capacity then (.ok none, [])
  else if !calls.memfdCreate then (.ok none, [.memfdCreate false])
  else
    let truncated : List SystemEvent :=
      [.memfdCreate true, .ftruncate capacity calls.ftruncate]
    if !calls.ftruncate then mirrorFail ndebug calls truncated true none
    else
      let reserved : List SystemEvent :=
        truncated ++ [SystemEvent.mmapReserve twice calls.mmapReserve]
      if !calls.mmapReserve then mirrorFail ndebug calls reserved true none
      else
        let lower : List SystemEvent :=
          reserved ++ [SystemEvent.mmapFile 0 capacity 0 calls.mmapLower]
        if !calls.mmapLower then
          mirrorFail ndebug calls lower true (some twice)
        else
          let upper : List SystemEvent := lower ++
            [SystemEvent.mmapFile capacity capacity 0 calls.mmapUpper]
          if !calls.mmapUpper then
            mirrorFail ndebug calls upper true (some twice)
          else
            let closed : List SystemEvent :=
              upper ++ [SystemEvent.close calls.close]
            if !calls.close then
              mirrorFail ndebug calls closed false (some twice)
            else (.ok (some twice), closed)

/-- What the buffer relies on: the `index`-th creation either fails or gives a
mirrored block that covers the request. -/
structure MirrorSource where
  create : ℕ → ℕ → Option (Block UInt8)
  covers : ∀ {index request : ℕ} {block : Block UInt8},
    create index request = some block → request ≤ block.capacity

theorem ceilToPage_lt (pageSize : ℕ) {request : ℕ}
    (hrequest : request < 2 ^ 64) :
    ceilToPage pageSize request < 2 ^ 64 := by
  unfold ceilToPage
  split
  · exact hrequest
  · exact Nat.mod_lt _ (by norm_num)

/-- Rounding up covers the request unless it wraps, and then it gives zero. -/
theorem ceilToPage_eq_zero_or_le {pageSize request : ℕ}
    (hpage : pageSize ∣ 2 ^ 64) (hrequest : request < 2 ^ 64) :
    ceilToPage pageSize request = 0 ∨
      request ≤ ceilToPage pageSize request := by
  have hpos : 0 < pageSize := Nat.pos_of_dvd_of_pos hpage (by norm_num)
  have hlt : request % pageSize < pageSize := Nat.mod_lt _ hpos
  have hdiv := Nat.div_add_mod request pageSize
  unfold ceilToPage
  split
  · exact Or.inr le_rfl
  · by_cases hwrap : request + (pageSize - request % pageSize) < 2 ^ 64
    · rw [Nat.mod_eq_of_lt hwrap]
      exact Or.inr (by omega)
    · -- the next multiple of the page is at most `2 ^ 64`, itself a multiple
      left
      have hnext : request + (pageSize - request % pageSize) =
          pageSize * (request / pageSize + 1) := by
        rw [Nat.mul_add, Nat.mul_one]
        omega
      obtain ⟨pages, hpages⟩ := hpage
      have hquot : request / pageSize < pages := by
        by_contra hmore
        have hmul := Nat.mul_le_mul_left pageSize (not_lt.mp hmore)
        omega
      have htop := Nat.mul_le_mul_left pageSize hquot
      have heq : request + (pageSize - request % pageSize) = 2 ^ 64 := by
        simp only [Nat.succ_eq_add_one] at htop
        omega
      rw [heq, Nat.mod_self]

theorem mirrorFail_ne_some (ndebug : Bool) (calls : SystemCalls)
    (before : List SystemEvent) (fd : Bool) (addr : Option ℕ) (size : ℕ) :
    (mirrorFail ndebug calls before fd addr).1 ≠ .ok (some size) := by
  unfold mirrorFail
  dsimp only
  split_ifs <;> simp

/-- A nonempty result passed the overflow guard and is the doubled
capacity. -/
theorem mirrorCreate_eq_some {ndebug : Bool} {pageSize : ℕ}
    {calls : SystemCalls} {request size : ℕ}
    (hcreate : (mirrorCreate ndebug pageSize calls request).1 =
      .ok (some size)) :
    ¬ 2 * ceilToPage pageSize request % 2 ^ 64 ≤ ceilToPage pageSize request ∧
      size = 2 * ceilToPage pageSize request % 2 ^ 64 := by
  unfold mirrorCreate at hcreate
  dsimp only at hcreate
  generalize 2 * ceilToPage pageSize request % 2 ^ 64 = twice at hcreate ⊢
  by_cases hguard : twice ≤ ceilToPage pageSize request
  · simp [if_pos hguard] at hcreate
  · rw [if_neg hguard] at hcreate
    split_ifs at hcreate <;>
      first
      | exact absurd hcreate (mirrorFail_ne_some _ _ _ _ _ _)
      | simp at hcreate
    exact ⟨hguard, hcreate.symm⟩

/-- A nonempty result of `mirror_create` has a positive capacity of at least
the request, and its size is twice that capacity without wrapping. -/
theorem mirrorCreate_covers {ndebug : Bool} {pageSize : ℕ}
    {calls : SystemCalls} {request size : ℕ} (hpage : pageSize ∣ 2 ^ 64)
    (hrequest : request < 2 ^ 64)
    (hcreate : (mirrorCreate ndebug pageSize calls request).1 =
      .ok (some size)) :
    size = 2 * ceilToPage pageSize request ∧
      0 < ceilToPage pageSize request ∧
      request ≤ ceilToPage pageSize request := by
  obtain ⟨hguard, hsize⟩ := mirrorCreate_eq_some hcreate
  have hcovers := ceilToPage_eq_zero_or_le hpage hrequest
  have hlt := ceilToPage_lt pageSize hrequest
  omega

/-- The mappings a process gets from `mirror_create` when the outcomes of the
system calls of its `index`-th call are `calls index`. -/
def mirrorSource (ndebug : Bool) (pageSize : ℕ) (hpage : pageSize ∣ 2 ^ 64)
    (calls : ℕ → SystemCalls) : MirrorSource where
  create index request :=
    if hrequest : request < 2 ^ 64 then
      match hcreate :
          (mirrorCreate ndebug pageSize (calls index) request).1 with
      | .ok (some _) => some
          { capacity := ceilToPage pageSize request
            -- a fresh file reads as zeros
            cell := fun _ => 0
            capacity_pos := (mirrorCreate_covers hpage hrequest hcreate).2.1 }
      | _ => none
    else none
  covers := by
    intro index request block hblock
    split at hblock
    · next hrequest =>
      split at hblock
      · next size hcreate =>
        obtain rfl := Option.some.inj hblock
        exact (mirrorCreate_covers hpage hrequest hcreate).2.2
      · simp at hblock
    · simp at hblock

/-- Mappings without pages: every nonempty request is met exactly. -/
def exactMirrors : MirrorSource where
  create _ request :=
    if hpos : 0 < request then
      some { capacity := request, cell := fun _ => 0, capacity_pos := hpos }
    else none
  covers := by
    intro index request block hblock
    split at hblock
    · obtain rfl := Option.some.inj hblock
      exact le_rfl
    · simp at hblock

/-- Only the first mapping can be created. -/
def singleMirror : MirrorSource where
  create index request :=
    if index = 0 then exactMirrors.create index request else none
  covers := by
    intro index request block hblock
    split at hblock
    · exact exactMirrors.covers hblock
    · simp at hblock

end ParseBgp.Io
