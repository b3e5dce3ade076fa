import Mathlib.Order.Bounds.Basic
import ParseBgp.Io.MirrorMapping

/-!
# `mirror_create` is exact and leak-free

The one comparison after rounding up and doubling catches both ways in which
the 64-bit arithmetic can wrap.  Every way through the system calls either
returns the doubled capacity or gives back what it has acquired.
-/

namespace ParseBgp.Io

open Loop

namespace SystemEvent

@[simp]
def succeeded : SystemEvent → Bool
  | memfdCreate ok => ok
  | ftruncate _ ok => ok
  | mmapReserve _ ok => ok
  | mmapFile _ _ _ ok => ok
  | close ok => ok
  | munmap _ => true

/-- A closed descriptor; one whose `close` failed counts as closed. -/
def isClose : SystemEvent → Bool
  | close _ => true
  | _ => false

/-- The length of an address range that was reserved. -/
def reserved : SystemEvent → Option ℕ
  | mmapReserve length true => some length
  | _ => none

/-- The length of an address range that was unmapped. -/
def unmapped : SystemEvent → Option ℕ
  | munmap length => some length
  | _ => none

end SystemEvent

namespace SystemCalls

/-- How the system call of an event comes out.  The halves of the range are told
apart by their offsets; unmapping does not fail. -/
@[simp]
def outcome (calls : SystemCalls) : SystemEvent → Bool
  | .memfdCreate _ => calls.memfdCreate
  | .ftruncate _ _ => calls.ftruncate
  | .mmapReserve _ _ => calls.mmapReserve
  | .mmapFile offset _ _ _ =>
      if offset = 0 then calls.mmapLower else calls.mmapUpper
  | .close _ => calls.close
  | .munmap _ => true

def allSucceed (calls : SystemCalls) : Bool :=
  calls.memfdCreate && calls.ftruncate && calls.mmapReserve &&
    calls.mmapLower && calls.mmapUpper && calls.close

/-- The outcomes that `events` tell are those of `calls`. -/
def Tells (calls : SystemCalls) (events : List SystemEvent) : Prop :=
  ∀ event ∈ events, event.succeeded = calls.outcome event

theorem allSucceed_of_outcome {calls : SystemCalls} {event : SystemEvent}
    (hfailed : calls.outcome event = false) : calls.allSucceed = false := by
  cases event <;> simp only [outcome] at hfailed
  case mmapFile => split at hfailed <;> simp [allSucceed, hfailed]
  all_goals simp_all [allSucceed]

@[simp]
theorem tells_nil (calls : SystemCalls) : calls.Tells [] := by
  simp [Tells]

@[simp]
theorem tells_cons {calls : SystemCalls} {event : SystemEvent}
    {events : List SystemEvent} :
    calls.Tells (event :: events) ↔
      event.succeeded = calls.outcome event ∧ calls.Tells events :=
  List.forall_mem_cons

@[simp]
theorem tells_append {calls : SystemCalls} {before after : List SystemEvent} :
    calls.Tells (before ++ after) ↔
      calls.Tells before ∧ calls.Tells after :=
  List.forall_mem_append

/-- A failure among the events is one of the system calls. -/
theorem Tells.allSucceed {calls : SystemCalls} {events : List SystemEvent}
    (htells : calls.Tells events)
    (hfailed : ∃ event ∈ events, event.succeeded = false) :
    calls.allSucceed = false := by
  obtain ⟨event, hevent, hfailed⟩ := hfailed
  rw [htells event hevent] at hfailed
  exact allSucceed_of_outcome hfailed

end SystemCalls

/-- At most one descriptor was opened and at most one address range reserved,
each of them closed or unmapped exactly once, the range with its full length. -/
structure CleanedUp (events : List SystemEvent) : Prop where
  opened_le : events.count (.memfdCreate true) ≤ 1
  closed_eq : events.countP SystemEvent.isClose =
    events.count (.memfdCreate true)
  reserved_le : (events.filterMap SystemEvent.reserved).length ≤ 1
  unmapped_eq : events.filterMap SystemEvent.unmapped =
    events.filterMap SystemEvent.reserved

/-- The system calls of a successful run for a file of `capacity` bytes: both
halves map the file from its start. -/
def mirroredEvents (capacity : ℕ) : List SystemEvent :=
  [.memfdCreate true, .ftruncate capacity true,
    .mmapReserve (2 * capacity) true, .mmapFile 0 capacity 0 true,
    .mmapFile capacity capacity 0 true, .close true]

/-! ## The arithmetic -/

/-- The next multiple of the page size, over the natural numbers. -/
theorem isLeast_ceil {pageSize : ℕ} (hpos : 0 < pageSize) (request : ℕ) :
    IsLeast {c | pageSize ∣ c ∧ request ≤ c}
      (if request % pageSize = 0 then request
        else request + (pageSize - request % pageSize)) := by
  have hlt : request % pageSize < pageSize := Nat.mod_lt _ hpos
  have hdiv := Nat.div_add_mod request pageSize
  split
  · next hmod =>
    constructor
    · exact ⟨Nat.dvd_of_mod_eq_zero hmod, le_rfl⟩
    · intro c hc
      exact hc.2
  · next hmod =>
    have hnext : request + (pageSize - request % pageSize) =
        pageSize * (request / pageSize + 1) := by
      rw [Nat.mul_add, Nat.mul_one]
      omega
    constructor
    · rw [hnext]
      exact ⟨Nat.dvd_mul_right _ _, by omega⟩
    · rintro c ⟨⟨pages, rfl⟩, hle⟩
      -- a multiple above the request has more pages than fit below it
      have hpages : request / pageSize < pages := by
        by_contra hfew
        have hmul := Nat.mul_le_mul_left pageSize (not_lt.mp hfew)
        omega
      rw [hnext]
      exact Nat.mul_le_mul_left pageSize hpages

/-- Rounding up computes the least multiple modulo `2 ^ 64`. -/
theorem ceilToPage_eq_mod {pageSize request capacity : ℕ}
    (hpos : 0 < pageSize) (hrequest : request < 2 ^ 64)
    (hleast : IsLeast {c | pageSize ∣ c ∧ request ≤ c} capacity) :
    ceilToPage pageSize request = capacity % 2 ^ 64 := by
  have hcapacity := hleast.unique (isLeast_ceil hpos request)
  unfold ceilToPage
  split
  · next hmod =>
    rw [if_pos hmod] at hcapacity
    rw [hcapacity, Nat.mod_eq_of_lt hrequest]
  · next hmod =>
    rw [if_neg hmod] at hcapacity
    rw [hcapacity]

/-- The comparison fails for zero and for every capacity whose double does not
fit, also for the one capacity that has itself wrapped. -/
theorem guard_iff {capacity : ℕ} (hcapacity : capacity ≤ 2 ^ 64) :
    2 * (capacity % 2 ^ 64) % 2 ^ 64 ≤ capacity % 2 ^ 64 ↔
      capacity = 0 ∨ 2 ^ 64 ≤ 2 * capacity := by
  omega

/-! ## The ways through the system calls -/

/-- What the calls before a jump to `fail` have acquired is what `fd` and `addr`
say, and one of them failed. -/
structure Abandoned (calls : SystemCalls) (before : List SystemEvent)
    (fd : Bool) (addr : Option ℕ) : Prop where
  tells : calls.Tells before
  opened : before.count (.memfdCreate true) = 1
  closed : before.countP SystemEvent.isClose = if fd then 0 else 1
  reserved : before.filterMap SystemEvent.reserved = addr.toList
  unmapped : before.filterMap SystemEvent.unmapped = []
  failed : ∃ event ∈ before, event.succeeded = false

/-- `mirror_create` gives up before it has acquired anything, jumps to `fail`,
or succeeds. -/
theorem mirrorCreate_cases (ndebug : Bool) (pageSize : ℕ) (calls : SystemCalls)
    (request : ℕ) {capacity twice : ℕ}
    (hcapacity : ceilToPage pageSize request = capacity)
    (htwice : 2 * capacity % 2 ^ 64 = twice) :
    (twice ≤ capacity ∧
        mirrorCreate ndebug pageSize calls request = (.ok none, [])) ∨
      (capacity < twice ∧ calls.memfdCreate = false ∧
        mirrorCreate ndebug pageSize calls request =
          (.ok none, [.memfdCreate false])) ∨
      (capacity < twice ∧ ∃ before fd addr, Abandoned calls before fd addr ∧
        mirrorCreate ndebug pageSize calls request =
          mirrorFail ndebug calls before fd addr) ∨
      (capacity < twice ∧ calls.allSucceed = true ∧
        mirrorCreate ndebug pageSize calls request = (.ok (some twice),
          [.memfdCreate true, .ftruncate capacity true,
            .mmapReserve twice true, .mmapFile 0 capacity 0 true,
            .mmapFile capacity capacity 0 true, .close true])) := by
  unfold mirrorCreate
  dsimp only
  rw [hcapacity, htwice]
  by_cases hguard : twice ≤ capacity
  case pos => exact Or.inl ⟨hguard, if_pos hguard⟩
  have hlt : capacity < twice := not_le.mp hguard
  have hpos : capacity ≠ 0 := by omega
  rw [if_neg hguard]
  right
  cases hmemfd : calls.memfdCreate
  case false => exact Or.inl ⟨hlt, rfl, rfl⟩
  right
  cases htruncate : calls.ftruncate
  case false =>
    exact Or.inl ⟨hlt, [.memfdCreate true, .ftruncate capacity false], true,
      none, ⟨by simp [hmemfd, htruncate], rfl, rfl, rfl, rfl,
        .ftruncate capacity false, by simp, rfl⟩, rfl⟩
  cases hreserve : calls.mmapReserve
  case false =>
    exact Or.inl ⟨hlt, [.memfdCreate true, .ftruncate capacity true,
      .mmapReserve twice false], true, none,
      ⟨by simp [hmemfd, htruncate, hreserve], rfl, rfl, rfl, rfl,
        .mmapReserve twice false, by simp, rfl⟩, rfl⟩
  cases hlower : calls.mmapLower
  case false =>
    exact Or.inl ⟨hlt, [.memfdCreate true, .ftruncate capacity true,
      .mmapReserve twice true, .mmapFile 0 capacity 0 false], true, some twice,
      ⟨by simp [hmemfd, htruncate, hreserve, hlower], rfl, rfl, rfl, rfl,
        .mmapFile 0 capacity 0 false, by simp, rfl⟩, rfl⟩
  cases hupper : calls.mmapUpper
  case false =>
    exact Or.inl ⟨hlt, [.memfdCreate true, .ftruncate capacity true,
      .mmapReserve twice true, .mmapFile 0 capacity 0 true,
      .mmapFile capacity capacity 0 false], true, some twice,
      ⟨by simp [hmemfd, htruncate, hreserve, hlower, hpos, hupper], rfl, rfl,
        rfl, rfl, .mmapFile capacity capacity 0 false, by simp, rfl⟩, rfl⟩
  cases hclose : calls.close
  case false =>
    exact Or.inl ⟨hlt, [.memfdCreate true, .ftruncate capacity true,
      .mmapReserve twice true, .mmapFile 0 capacity 0 true,
      .mmapFile capacity capacity 0 true, .close false], false, some twice,
      ⟨by simp [hmemfd, htruncate, hreserve, hlower, hpos, hupper, hclose],
        rfl, rfl, rfl, rfl, .close false, by simp, rfl⟩, rfl⟩
  refine Or.inr ⟨hlt, ?_, rfl⟩
  simp [SystemCalls.allSucceed, hmemfd, htruncate, hreserve, hlower, hupper,
    hclose]

/-- What was acquired before a jump to `fail` is given back after it. -/
theorem Abandoned.cleanedUp_append {calls : SystemCalls}
    {before after : List SystemEvent} {fd : Bool} {addr : Option ℕ}
    (habandoned : Abandoned calls before fd addr)
    (hopened : after.count (.memfdCreate true) = 0)
    (hclosed : after.countP SystemEvent.isClose = if fd then 1 else 0)
    (hreserved : after.filterMap SystemEvent.reserved = [])
    (hunmapped : after.filterMap SystemEvent.unmapped = addr.toList) :
    CleanedUp (before ++ after) where
  opened_le := by
    rw [List.count_append, habandoned.opened, hopened]
  closed_eq := by
    rw [List.count_append, List.countP_append, habandoned.opened, hopened,
      habandoned.closed, hclosed]
    cases fd <;> rfl
  reserved_le := by
    rw [List.filterMap_append, habandoned.reserved, hreserved, List.append_nil]
    cases addr <;> simp
  unmapped_eq := by
    rw [List.filterMap_append, List.filterMap_append, habandoned.reserved,
      habandoned.unmapped, hreserved, hunmapped, List.append_nil,
      List.nil_append]

/-- The code at `fail` gives back what was acquired, unless the assertion stops
it. -/
theorem Abandoned.cleanedUp {calls : SystemCalls} {before : List SystemEvent}
    {fd : Bool} {addr : Option ℕ}
    (habandoned : Abandoned calls before fd addr) {ndebug : Bool}
    (hnone : (mirrorFail ndebug calls before fd addr).1 = .ok none) :
    CleanedUp (mirrorFail ndebug calls before fd addr).2 ∧
      ∃ event ∈ (mirrorFail ndebug calls before fd addr).2,
        event.succeeded = false := by
  obtain ⟨event, hevent, hfailed⟩ := habandoned.failed
  unfold mirrorFail at hnone ⊢
  dsimp only at hnone ⊢
  cases fd with
  | true =>
      rw [if_pos rfl] at hnone ⊢
      split_ifs at hnone ⊢
      refine ⟨?_, event, List.mem_append_left _ hevent, hfailed⟩
      apply habandoned.cleanedUp_append
      · cases addr <;> rfl
      · cases addr <;> rfl
      · cases addr <;> rfl
      · cases addr <;> rfl
  | false =>
      refine ⟨?_, event, List.mem_append_left _ hevent, hfailed⟩
      apply habandoned.cleanedUp_append
      · cases addr <;> rfl
      · cases addr <;> rfl
      · cases addr <;> rfl
      · cases addr <;> rfl

/-- The code at `fail` adds the outcome of its own `close`. -/
theorem tells_mirrorFail {ndebug : Bool} {calls : SystemCalls}
    {before : List SystemEvent} {fd : Bool} {addr : Option ℕ}
    (hbefore : calls.Tells before) :
    calls.Tells (mirrorFail ndebug calls before fd addr).2 := by
  unfold mirrorFail
  dsimp only
  split_ifs with hfd hclose
  · cases addr <;> simpa using hbefore
  · rw [Bool.not_eq_true, Bool.or_eq_false_iff] at hclose
    simpa [hclose.1] using hbefore
  · cases addr <;> simpa using hbefore

theorem mirrorFail_fault {ndebug : Bool} {calls : SystemCalls}
    {before : List SystemEvent} {fd : Bool} {addr : Option ℕ} {fault : Fault}
    (hfault : (mirrorFail ndebug calls before fd addr).1 = .fault fault) :
    fault = .mirrorClose ∧ ndebug = false ∧ calls.close = false := by
  unfold mirrorFail at hfault
  dsimp only at hfault
  split_ifs at hfault with hfd hclose
  rw [Bool.not_eq_true, Bool.or_eq_false_iff] at hclose
  exact ⟨(Outcome.fault.inj hfault).symm, hclose.2, hclose.1⟩

theorem mirrorFail_ne_outOfFuel (ndebug : Bool) (calls : SystemCalls)
    (before : List SystemEvent) (fd : Bool) (addr : Option ℕ) :
    (mirrorFail ndebug calls before fd addr).1 ≠ .outOfFuel := by
  unfold mirrorFail
  dsimp only
  split_ifs <;> simp

/-- `mirror_create` returns a mapping of exactly twice the least multiple of
the page size that covers the request, made of two views of one file of half
that size, and then every system call has succeeded; or it returns nothing, for
a reason, and nothing it acquired remains.  With assertions on it stops only at
a `close` that fails while it gives up.  The events tell how the system calls
come out. -/
theorem mirrorCreate_exact (ndebug : Bool) (k : ℕ) (hk : k < 64)
    (calls : SystemCalls) (request : ℕ) (hrequest : request < 2 ^ 64)
    (capacity : ℕ)
    (hleast : IsLeast {c | 2 ^ k ∣ c ∧ request ≤ c} capacity) :
    (∀ size, (mirrorCreate ndebug (2 ^ k) calls request).1 = .ok (some size) →
      (0 < capacity ∧ 2 * capacity < 2 ^ 64 ∧ size = 2 * capacity) ∧
        (mirrorCreate ndebug (2 ^ k) calls request).2 =
          mirroredEvents capacity ∧
        capacity < 2 ^ 63 ∧ calls.allSucceed = true) ∧
      ((mirrorCreate ndebug (2 ^ k) calls request).1 = .ok none →
        (capacity = 0 ∨ 2 ^ 64 ≤ 2 * capacity ∨
          (∃ event ∈ (mirrorCreate ndebug (2 ^ k) calls request).2,
            event.succeeded = false) ∧ calls.allSucceed = false) ∧
        CleanedUp (mirrorCreate ndebug (2 ^ k) calls request).2) ∧
      (∀ fault, (mirrorCreate ndebug (2 ^ k) calls request).1 = .fault fault →
        fault = .mirrorClose ∧ ndebug = false ∧ calls.close = false) ∧
      (mirrorCreate ndebug (2 ^ k) calls request).1 ≠ .outOfFuel ∧
      ∀ event ∈ (mirrorCreate ndebug (2 ^ k) calls request).2,
        event.succeeded = calls.outcome event := by
  have hpos : 0 < 2 ^ k := Nat.two_pow_pos k
  have hdvd : 2 ^ k ∣ 2 ^ 64 := pow_dvd_pow 2 hk.le
  have htop : capacity ≤ 2 ^ 64 := hleast.2 ⟨hdvd, hrequest.le⟩
  have hceil := ceilToPage_eq_mod hpos hrequest hleast
  have hguard := guard_iff htop
  obtain ⟨hle, hcreate⟩ | ⟨hlt, hmemfd, hcreate⟩ |
      ⟨hlt, before, fd, addr, habandoned, hcreate⟩ |
      ⟨hlt, hall, hcreate⟩ :=
    mirrorCreate_cases ndebug (2 ^ k) calls request hceil rfl
  · rw [hcreate]
    refine ⟨by simp, fun _ => ⟨?_, ?_⟩, by simp, by simp, by simp⟩
    · exact (hguard.mp hle).imp_right Or.inl
    · constructor <;> decide
  · rw [hcreate]
    refine ⟨by simp, fun _ => ⟨?_, ?_⟩, by simp, by simp, by simp [hmemfd]⟩
    · exact Or.inr (Or.inr ⟨⟨.memfdCreate false, by simp, rfl⟩,
        by simp [SystemCalls.allSucceed, hmemfd]⟩)
    · constructor <;> decide
  · have htells : calls.Tells (mirrorFail ndebug calls before fd addr).2 :=
      tells_mirrorFail habandoned.tells
    rw [hcreate]
    refine ⟨?_, fun hnone => ?_, fun _ => mirrorFail_fault,
      mirrorFail_ne_outOfFuel _ _ _ _ _, htells⟩
    · intro size hsize
      exact absurd hsize (mirrorFail_ne_some _ _ _ _ _ _)
    · obtain ⟨hcleaned, hfailed⟩ := habandoned.cleanedUp hnone
      exact ⟨Or.inr (Or.inr ⟨hfailed, htells.allSucceed hfailed⟩), hcleaned⟩
  · have hfits : ¬ (capacity = 0 ∨ 2 ^ 64 ≤ 2 * capacity) := by
      rw [← hguard]
      exact not_le.mpr hlt
    rw [not_or, not_le] at hfits
    have hcapacity : capacity % 2 ^ 64 = capacity :=
      Nat.mod_eq_of_lt (by omega)
    rw [hcapacity, Nat.mod_eq_of_lt hfits.2] at hcreate
    rw [hcreate]
    refine ⟨?_, by simp, by simp, by simp, ?_⟩
    · intro size hsize
      obtain rfl : 2 * capacity = size := by simpa using hsize
      exact ⟨⟨Nat.pos_of_ne_zero hfits.1, hfits.2, rfl⟩, rfl, by omega, hall⟩
    · simp only [SystemCalls.allSucceed, Bool.and_eq_true] at hall
      simp [hall]

/-- One byte is rounded up to a page of 4096; if the upper half cannot be mapped
the result is empty and everything is given back. -/
theorem mirrorCreate_exact_page :
    (mirrorCreate false (2 ^ 12) ⟨true, true, true, true, true, true⟩ 1).1 =
        .ok (some 8192) ∧
      CleanedUp
        (mirrorCreate false (2 ^ 12) ⟨true, true, true, true, false, true⟩
          1).2 := by
  have hleast : IsLeast {c | 2 ^ 12 ∣ c ∧ 1 ≤ c} 4096 :=
    isLeast_ceil (by decide) 1
  constructor
  · rfl
  · exact ((mirrorCreate_exact false 12 (by decide)
      ⟨true, true, true, true, false, true⟩ 1 (by decide) 4096 hleast).2.1
        rfl).2

end ParseBgp.Io
