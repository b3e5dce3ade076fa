import ParseBgp.Core.Loop
import ParseBgp.Core.Pointer

/-!
# Views of C arrays as ranges

`CPtrRange` makes a range with random-access iterators out of a view that
provides the address and the number of its elements.  The operators of the
iterator are defined through one another and through three static functions of
the view.
-/

namespace ParseBgp.Utils

open Loop

/-- Ways a use of an iterator goes wrong: `operator*` does not compile, or it
reads through a pointer outside its array. -/
inductive RangeFault where
  | illFormed
  | invalidPointer
  deriving DecidableEq, Repr

/-- What a view class gives to `CPtrRange`: the conversion from `ElementCPtr`
to `Element` in `return { cptr() }`, if there is one, and the three static
functions, which have to be the arithmetic of pointers. -/
structure RangeClass (α β : Type*) where
  element : Option (Pointer α → Option β)
  rangeAdd : Pointer α → ℤ → Pointer α
  rangeSubtract : Pointer α → ℤ → Pointer α
  rangeDifference : Pointer α → Pointer α → ℤ
  rangeAdd_eq : ∀ ptr n, rangeAdd ptr n = ptr.add n
  rangeSubtract_eq : ∀ ptr n, rangeSubtract ptr n = ptr.sub n
  rangeDifference_eq : ∀ lhs rhs, rangeDifference lhs rhs = lhs.diff rhs

/-- `range_add` as `ptr + n`, `range_subtract` as `ptr - n` and
`range_difference` as `lhs - rhs`. -/
def RangeClass.ofPointer {α β : Type*}
    (element : Option (Pointer α → Option β)) : RangeClass α β where
  element := element
  rangeAdd ptr n := ptr.add n
  rangeSubtract ptr n := ptr.sub n
  rangeDifference lhs rhs := lhs.diff rhs
  rangeAdd_eq _ _ := rfl
  rangeSubtract_eq _ _ := rfl
  rangeDifference_eq _ _ := rfl

variable {α β : Type*} {view : RangeClass α β}

@[ext]
structure Iterator (view : RangeClass α β) where
  cptr : Pointer α

namespace Iterator

/-- `operator*` -/
def deref (it : Iterator view) : Outcome RangeFault β :=
  match view.element with
  | none => .fault .illFormed
  | some element =>
      match element it.cptr with
      | some value => .ok value
      | none => .fault .invalidPointer

/-- `operator+` -/
def add (it : Iterator view) (n : ℤ) : Iterator view where
  cptr := view.rangeAdd it.cptr n

/-- `operator-` with an offset -/
def sub (it : Iterator view) (n : ℤ) : Iterator view where
  cptr := view.rangeSubtract it.cptr n

/-- `operator+=`, the new value of `*this` -/
def addAssign (it : Iterator view) (_n : ℤ) : Iterator view :=
  it.add 1

/-- `operator-=`, the new value of `*this` -/
def subAssign (it : Iterator view) (_n : ℤ) : Iterator view :=
  it.sub 1

/-- prefix `operator++` -/
def increment (it : Iterator view) : Iterator view :=
  it.addAssign 1

/-- prefix `operator--` -/
def decrement (it : Iterator view) : Iterator view :=
  it.subAssign 1

/-- `operator-` with an iterator -/
def difference (it rhs : Iterator view) : ℤ :=
  view.rangeDifference it.cptr rhs.cptr

/-- `operator[]` -/
def index (it : Iterator view) (n : ℤ) : Outcome RangeFault β :=
  (it.add n).deref

/-- `operator<` -/
def less (it rhs : Iterator view) : Prop :=
  it.cptr.less rhs.cptr

/-- `std::advance` for a random-access iterator: the new value of `it`. -/
def advance (it : Iterator view) (n : ℤ) : Iterator view :=
  it.addAssign n

end Iterator

/-- A range: what `range_data` and `range_size` return. -/
structure CPtrRange (view : RangeClass α β) where
  rangeData : Pointer α
  rangeSize : ℕ

namespace CPtrRange

def begin (range : CPtrRange view) : Iterator view where
  cptr := range.rangeData

def size (range : CPtrRange view) : ℕ :=
  range.rangeSize

/-- `end()` -/
def beyond (range : CPtrRange view) : Iterator view :=
  range.begin.add range.size

/-- `operator[]` -/
def index (range : CPtrRange view) (i : ℤ) : Outcome RangeFault β :=
  range.begin.index i

/-- The positions from `begin()` to `end()`. -/
structure Within (range : CPtrRange view) (it : Iterator view) : Prop where
  array_eq : it.cptr.array = range.rangeData.array
  begin_le : range.rangeData.position ≤ it.cptr.position
  le_end : it.cptr.position ≤ range.rangeData.position + range.size

end CPtrRange

/-! ## Random access -/

/-- The laws of a random-access iterator for the offsets `n` and `m`, each for
positions inside the range only. -/
structure IteratorLaws (range : CPtrRange view) (it : Iterator view)
    (n m : ℤ) : Prop where
  addAssign_eq : range.Within (it.add n) → it.addAssign n = it.add n
  subAssign_eq : range.Within (it.sub n) → it.subAssign n = it.sub n
  advance_eq : range.Within (it.add n) → it.advance n = it.add n
  add_add : range.Within (it.add n) → range.Within (it.add (n + m)) →
    (it.add n).add m = it.add (n + m)
  add_sub : range.Within (it.add n) → (it.add n).sub n = it
  add_difference : range.Within (it.add n) → (it.add n).difference it = n
  index_eq : range.Within (it.add n) → it.index n = (it.add n).deref
  increments_eq : ∀ steps : ℕ, n = steps → range.Within (it.add n) →
    Iterator.increment^[steps] it = it.addAssign n
  decrement_increment : range.Within (it.add 1) → it.increment.decrement = it
  increment_decrement : range.Within (it.sub 1) → it.decrement.increment = it
  less_iff : ∀ other, range.Within other →
    (it.less other ↔ 0 < other.difference it)

namespace Iterator

theorem difference_eq (it rhs : Iterator view) :
    it.difference rhs = it.cptr.diff rhs.cptr :=
  view.rangeDifference_eq _ _

@[simp]
theorem cptr_add (it : Iterator view) (n : ℤ) :
    (it.add n).cptr = it.cptr.add n :=
  view.rangeAdd_eq _ _

@[simp]
theorem cptr_sub (it : Iterator view) (n : ℤ) :
    (it.sub n).cptr = it.cptr.sub n :=
  view.rangeSubtract_eq _ _

theorem add_zero (it : Iterator view) : it.add 0 = it := by
  ext1
  rw [cptr_add, Pointer.add_zero]

theorem add_add (it : Iterator view) (n m : ℤ) :
    (it.add n).add m = it.add (n + m) := by
  ext1
  rw [cptr_add, cptr_add, cptr_add, Pointer.add_add]

theorem add_sub_cancel (it : Iterator view) (n : ℤ) :
    (it.add n).sub n = it := by
  ext1
  rw [cptr_sub, cptr_add, Pointer.add_sub_cancel]

theorem sub_add_cancel (it : Iterator view) (n : ℤ) :
    (it.sub n).add n = it := by
  ext1
  rw [cptr_add, cptr_sub, Pointer.sub_add_cancel]

theorem add_injective (it : Iterator view) : Function.Injective it.add := by
  intro n m heq
  apply it.cptr.add_injective
  rw [← cptr_add, ← cptr_add, heq]

theorem sub_injective (it : Iterator view) : Function.Injective it.sub := by
  intro n m heq
  apply it.cptr.sub_injective
  rw [← cptr_sub, ← cptr_sub, heq]

/-- The compound operators ignore their offset. -/
theorem addAssign_eq_add_iff (it : Iterator view) (n : ℤ) :
    it.addAssign n = it.add n ↔ n = 1 := by
  rw [addAssign, it.add_injective.eq_iff]
  exact eq_comm

theorem subAssign_eq_sub_iff (it : Iterator view) (n : ℤ) :
    it.subAssign n = it.sub n ↔ n = 1 := by
  rw [subAssign, it.sub_injective.eq_iff]
  exact eq_comm

/-- Single steps are right: `++` moves by one element. -/
theorem iterate_increment (it : Iterator view) (steps : ℕ) :
    increment^[steps] it = it.add steps := by
  induction steps with
  | zero => exact it.add_zero.symm
  | succ steps ih =>
      calc
        increment^[steps + 1] it = (increment^[steps] it).increment :=
          Function.iterate_succ_apply' _ _ _
        _ = (it.add steps).add 1 := by
          rw [ih]
          rfl
        _ = it.add (steps + 1 : ℕ) := by
          rw [add_add]
          rfl

theorem less_iff_difference_pos (it other : Iterator view) :
    it.less other ↔ 0 < other.difference it := by
  rw [difference_eq]
  exact Pointer.less_iff_diff_pos _ _

end Iterator

/-- The laws of random access hold of every range exactly for the offset one,
the only one that `operator+=` and `operator-=` add or subtract; for any other
offset they fail as soon as one of the two positions it leads to lies in the
range. -/
theorem iteratorLaws_iff (range : CPtrRange view) (it : Iterator view)
    (n m : ℤ) :
    IteratorLaws range it n m ↔
      n = 1 ∨ (¬ range.Within (it.add n) ∧ ¬ range.Within (it.sub n)) := by
  constructor
  · intro hlaws
    by_cases hadd : range.Within (it.add n)
    · exact Or.inl ((it.addAssign_eq_add_iff n).mp (hlaws.addAssign_eq hadd))
    · by_cases hsub : range.Within (it.sub n)
      · exact Or.inl ((it.subAssign_eq_sub_iff n).mp (hlaws.subAssign_eq hsub))
      · exact Or.inr ⟨hadd, hsub⟩
  · intro hoffset
    have hone : range.Within (it.add n) → n = 1 := by
      intro hadd
      apply hoffset.resolve_right
      intro hout
      exact hout.1 hadd
    have hone' : range.Within (it.sub n) → n = 1 := by
      intro hsub
      apply hoffset.resolve_right
      intro hout
      exact hout.2 hsub
    exact {
      addAssign_eq := fun hadd => (it.addAssign_eq_add_iff n).mpr (hone hadd)
      subAssign_eq := fun hsub => (it.subAssign_eq_sub_iff n).mpr (hone' hsub)
      advance_eq := fun hadd => (it.addAssign_eq_add_iff n).mpr (hone hadd)
      add_add := fun _ _ => it.add_add n m
      add_sub := fun _ => it.add_sub_cancel n
      add_difference := fun _ => by
        rw [Iterator.difference_eq, Iterator.cptr_add, Pointer.diff_add_self]
      index_eq := fun _ => rfl
      increments_eq := fun steps hsteps hadd => by
        rw [Iterator.iterate_increment, ← hsteps]
        exact ((it.addAssign_eq_add_iff n).mpr (hone hadd)).symm
      decrement_increment := fun _ => it.add_sub_cancel 1
      increment_decrement := fun _ => it.sub_add_cancel 1
      less_iff := fun other _ => it.less_iff_difference_pos other }

/-- In a range of three elements, `it += 2` from the first one reaches the
second. -/
theorem not_iteratorLaws_two :
    ∃ (view : RangeClass ℕ ℕ) (range : CPtrRange view),
      range.size = 3 ∧ range.Within range.begin ∧
        range.Within (range.begin.add 2) ∧
        ¬ IteratorLaws range range.begin 2 0 := by
  let view : RangeClass ℕ ℕ := .ofPointer (some Pointer.load)
  let range : CPtrRange view := ⟨⟨[10, 20, 30], 0⟩, 3⟩
  refine ⟨view, range, rfl, ⟨rfl, by decide, by decide⟩,
    ⟨rfl, by decide, by decide⟩, ?_⟩
  intro hlaws
  have hmoved := hlaws.addAssign_eq ⟨rfl, by decide, by decide⟩
  have hposition := congrArg (fun it => it.cptr.position) hmoved
  exact absurd hposition (by decide)

/-! ## Range-based for -/

namespace CPtrRange

/-- The state of `for (auto element : range)`: the iterator and the elements
the body was shown so far. -/
abbrev Visit (view : RangeClass α β) := Iterator view × List β

def visitNext [DecidableEq α] (range : CPtrRange view) (state : Visit view) :
    Outcome RangeFault (Step (Visit view) (List β)) :=
  if state.1.cptr = range.beyond.cptr then .ok (.done state.2)
  else state.1.deref.bind fun element =>
    .ok (.again (state.1.increment, state.2 ++ [element]))

/-- The elements a range-based for loop shows to its body; it does not compile
when `operator*` does not. -/
def visit [DecidableEq α] (range : CPtrRange view) (fuel : ℕ) :
    Outcome RangeFault (List β) :=
  match view.element with
  | none => .fault .illFormed
  | some _ => run range.visitNext fuel (range.begin, [])

/-- The range stands for the list `elements`: its size is the length, and each
position shows the element of the list. -/
structure Shows (range : CPtrRange view) (elements : List β) : Prop where
  wellFormed : view.element.isSome
  size_eq : range.size = elements.length
  index_eq : ∀ (i : ℕ) (hi : i < elements.length),
    range.index i = .ok elements[i]

variable [DecidableEq α] {range : CPtrRange view} {elements : List β}

theorem visitNext_of_lt (hshows : range.Shows elements) {seen : ℕ}
    (hseen : seen < elements.length) (shown : List β) :
    range.visitNext (range.begin.add seen, shown) =
      .ok (.again (range.begin.add (seen + 1 : ℕ),
        shown ++ [elements[seen]])) := by
  have hbefore : (range.begin.add seen).cptr ≠ range.beyond.cptr := by
    intro heq
    have hoffset := range.begin.add_injective (Iterator.ext heq)
    rw [hshows.size_eq] at hoffset
    omega
  have hderef : (range.begin.add seen).deref = .ok elements[seen] :=
    hshows.index_eq seen hseen
  have hnext : (range.begin.add seen).increment =
      range.begin.add (seen + 1 : ℕ) := by
    rw [← Iterator.iterate_increment, ← Iterator.iterate_increment]
    exact (Function.iterate_succ_apply' _ _ _).symm
  simp only [visitNext, if_neg hbefore, hderef, Outcome.ok_bind, hnext]

theorem visitNext_end (hshows : range.Shows elements) (shown : List β) :
    range.visitNext (range.begin.add elements.length, shown) =
      .ok (.done shown) := by
  have hend : (range.begin.add elements.length).cptr = range.beyond.cptr := by
    rw [beyond, hshows.size_eq]
  simp only [visitNext, if_pos hend]

/-- From any position of the range on, the loop shows the rest of the list. -/
theorem run_visitNext (hshows : range.Shows elements) (rest : ℕ) {seen : ℕ}
    (hrest : seen + rest = elements.length) {fuel : ℕ} (hfuel : rest < fuel) :
    run range.visitNext fuel (range.begin.add seen, elements.take seen) =
      .ok elements := by
  induction rest generalizing seen fuel with
  | zero =>
      obtain ⟨fuel, rfl⟩ := Nat.exists_eq_succ_of_ne_zero hfuel.ne'
      obtain rfl : seen = elements.length := hrest
      rw [List.take_length]
      exact run_succ_of_done (visitNext_end hshows elements)
  | succ rest ih =>
      obtain ⟨fuel, rfl⟩ :=
        Nat.exists_eq_succ_of_ne_zero (Nat.ne_zero_of_lt hfuel)
      have hseen : seen < elements.length := by omega
      have htake : elements.take seen ++ [elements[seen]] =
          elements.take (seen + 1) :=
        List.take_append_getElem hseen
      rw [run_succ_of_again (visitNext_of_lt hshows hseen _), htake]
      exact ih (by omega) (by omega)

/-- A range-based for loop shows every element of the list once and in
order. -/
theorem visit_of_shows (hshows : range.Shows elements) {fuel : ℕ}
    (hfuel : elements.length < fuel) : range.visit fuel = .ok elements := by
  obtain ⟨element, helement⟩ := Option.isSome_iff_exists.mp hshows.wellFormed
  have hrun := run_visitNext hshows elements.length (Nat.zero_add _) hfuel
  rw [Nat.cast_zero, Iterator.add_zero, List.take_zero] at hrun
  simp only [visit, helement, hrun]

end CPtrRange

end ParseBgp.Utils
