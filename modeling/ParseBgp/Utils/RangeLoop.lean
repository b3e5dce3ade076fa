import ParseBgp.Core.ListLoop
import ParseBgp.Utils.CPtrRange

/-!
# Range-for loops that act on a C array

`for (auto element : range) { body }` over a `CPtrRange`, whose body has effects
of its own and may break or fault.  Where the range stands for a list, the loop
is the loop over this list.
-/

namespace ParseBgp.Utils.CPtrRange

open Loop

variable {α β ε S : Type*} {view : RangeClass α β}

/-- One test of the condition and one round of the loop.  Two iterators of one
range are compared by their positions in its array. -/
def forNext (range : CPtrRange view) (seen : RangeFault → ε)
    (body : S → β → Outcome ε (Flow S)) (state : Iterator view × S) :
    Outcome ε (Step (Iterator view × S) S) :=
  if state.1.cptr.position = range.beyond.cptr.position then
    .ok (.done state.2)
  else
    (state.1.deref.mapFault seen).bind fun element =>
      (body state.2 element).bind fun
        | .next after => .ok (.again (state.1.increment, after))
        | .leave after => .ok (.done after)

/-- The loop, at most `fuel` tests of its condition: the state of the body
afterwards. -/
def forEach (range : CPtrRange view) (seen : RangeFault → ε)
    (body : S → β → Outcome ε (Flow S)) (fuel : ℕ) (state : S) : Outcome ε S :=
  run (range.forNext seen body) fuel (range.begin, state)

variable {range : CPtrRange view} {elements : List β}
variable {seen : RangeFault → ε} {body : S → β → Outcome ε (Flow S)}

theorem forNext_end (hshows : range.Shows elements) (state : S) :
    range.forNext seen body (range.begin.add elements.length, state) =
      .ok (.done state) := by
  have hend : (range.begin.add elements.length).cptr.position =
      range.beyond.cptr.position := by
    rw [beyond, hshows.size_eq]
  simp only [forNext, if_pos hend]

theorem forNext_of_lt (hshows : range.Shows elements) {passed : ℕ}
    (hpassed : passed < elements.length) (state : S) :
    range.forNext seen body (range.begin.add passed, state) =
      (body state elements[passed]).bind fun
        | .next after =>
            .ok (.again (range.begin.add (passed + 1 : ℕ), after))
        | .leave after => .ok (.done after) := by
  have hbefore : (range.begin.add passed).cptr.position ≠
      range.beyond.cptr.position := by
    rw [beyond, hshows.size_eq, Iterator.cptr_add, Iterator.cptr_add,
      Pointer.add_position, Pointer.add_position]
    omega
  have hderef : (range.begin.add passed).deref = .ok elements[passed] :=
    hshows.index_eq passed hpassed
  have hnext : (range.begin.add passed).increment =
      range.begin.add (passed + 1 : ℕ) := by
    rw [← Iterator.iterate_increment, ← Iterator.iterate_increment]
    exact (Function.iterate_succ_apply' _ _ _).symm
  simp only [forNext, if_neg hbefore, hderef, Outcome.ok_mapFault,
    Outcome.ok_bind, hnext]

/-- From any position of the range on, the loop is the one over the rest of the
list. -/
theorem run_forNext (hshows : range.Shows elements) (rest : ℕ) {passed : ℕ}
    (hrest : passed + rest = elements.length) {fuel : ℕ} (hfuel : rest < fuel)
    (state : S) :
    run (range.forNext seen body) fuel (range.begin.add passed, state) =
      (forList body (elements.drop passed) state).bind fun result =>
        .ok result.1 := by
  induction rest generalizing passed fuel state with
  | zero =>
      obtain ⟨fuel, rfl⟩ := Nat.exists_eq_succ_of_ne_zero hfuel.ne'
      obtain rfl : passed = elements.length := hrest
      rw [run_succ_of_done (forNext_end hshows state), List.drop_length,
        forList, Outcome.ok_bind]
  | succ rest ih =>
      obtain ⟨fuel, rfl⟩ :=
        Nat.exists_eq_succ_of_ne_zero (Nat.ne_zero_of_lt hfuel)
      have hpassed : passed < elements.length := by omega
      rw [run, forNext_of_lt hshows hpassed, List.drop_eq_getElem_cons hpassed,
        forList, Outcome.bind_assoc, Outcome.bind_assoc]
      congr 1
      funext flow
      cases flow with
      | next after => exact ih (by omega) (by omega) after
      | leave after => rfl

/-- Over a range that stands for a list, the loop is the loop over the list. -/
theorem forEach_of_shows (hshows : range.Shows elements) {fuel : ℕ}
    (hfuel : elements.length < fuel) (state : S) :
    range.forEach seen body fuel state =
      (forList body elements state).bind fun result => .ok result.1 := by
  have hbegin : range.begin = range.begin.add (0 : ℕ) := by
    rw [Nat.cast_zero, Iterator.add_zero]
  rw [forEach, hbegin, run_forNext hshows elements.length (Nat.zero_add _) hfuel,
    List.drop_zero]

/-- A loop whose body appends to its state collects what it appends. -/
theorem forEach_collect {P : Type*} (hshows : range.Shows elements)
    {produce : β → Outcome ε (List P)}
    {body : List P → β → Outcome ε (Flow (List P))}
    (hbody : ∀ out element, body out element =
      (produce element).bind fun more => .ok (.next (out ++ more)))
    {fuel : ℕ} (hfuel : elements.length < fuel) (out : List P) :
    range.forEach seen body fuel out =
      (collect produce elements).bind fun more => .ok (out ++ more) := by
  rw [forEach_of_shows hshows hfuel, forList_collect hbody,
    Outcome.bind_assoc]
  simp only [Outcome.ok_bind]

/-- A view that reads its elements through their pointers stands for the list
of its array. -/
theorem shows_of_load {element : Pointer α → Option β} {value : α → β}
    (helement : ∀ {ptr entry}, ptr.load = some entry →
      element ptr = some (value entry)) (values : CArray α) :
    Shows (⟨values.data, values.count⟩ :
      CPtrRange (.ofPointer (some element))) (values.toList.map value) where
  wellFormed := rfl
  size_eq := by
    rw [List.length_map, CArray.length_toList]
    rfl
  index_eq := by
    intro i hi
    have hinside : i < values.toList.length := by rwa [List.length_map] at hi
    have hload := helement (values.load_add i hinside)
    rw [List.getElem_map]
    simp only [index, begin, Iterator.index, Iterator.deref, Iterator.add,
      RangeClass.ofPointer, hload]

theorem shows_load (values : CArray α) :
    Shows (⟨values.data, values.count⟩ :
      CPtrRange (.ofPointer (some Pointer.load))) values.toList := by
  have hload : ∀ {ptr : Pointer α} {entry}, ptr.load = some entry →
      ptr.load = some (id entry) := fun hload => hload
  have hshows := shows_of_load hload values
  rwa [List.map_id] at hshows

end ParseBgp.Utils.CPtrRange
