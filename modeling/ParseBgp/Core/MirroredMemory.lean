import Mathlib.Data.List.Basic
import Mathlib.Tactic

/-!
# Memory mapped twice in a row

One block of physical cells is mapped at two adjacent virtual ranges, so a
virtual offset and the same offset one capacity further name the same cell.
The lemmas below are the laws every user of such a block needs: what was
stored is read back, a store does not disturb an arc of cells it does not
reach, and the contents of an arc do not depend on the copy they are read
through.
-/

namespace ParseBgp.MirroredMemory

/-- A nonempty block of cells.  Only `cell index` with `index < capacity` is
ever addressed. -/
structure Block (α : Type*) where
  capacity : ℕ
  cell : ℕ → α
  capacity_pos : 0 < capacity

variable {α : Type*}

def load (block : Block α) (offset : ℕ) : α :=
  block.cell (offset % block.capacity)

/-- The contents of `count` consecutive virtual cells. -/
def slice (block : Block α) (offset count : ℕ) : List α :=
  (List.range' offset count).map (load block)

def storeCell (block : Block α) (offset : ℕ) (value : α) : Block α :=
  { block with
    cell := Function.update block.cell (offset % block.capacity) value }

/-- Store consecutive values from a virtual offset on. -/
def store (block : Block α) (offset : ℕ) : List α → Block α
  | [] => block
  | value :: values => store (storeCell block offset value) (offset + 1) values

/-! ## Addresses -/

/-- Two offsets less than one capacity apart name different cells. -/
theorem mod_ne_mod_of_lt {left right capacity : ℕ} (hlt : left < right)
    (hclose : right < left + capacity) :
    left % capacity ≠ right % capacity := by
  intro heq
  have hdvd : capacity ∣ right - left :=
    (Nat.modEq_iff_dvd' hlt.le).mp heq
  have hle : capacity ≤ right - left :=
    Nat.le_of_dvd (by omega) hdvd
  omega

/-! ## Slices -/

@[simp]
theorem length_slice (block : Block α) (offset count : ℕ) :
    (slice block offset count).length = count := by
  simp [slice]

@[simp]
theorem slice_zero (block : Block α) (offset : ℕ) :
    slice block offset 0 = [] := rfl

theorem slice_succ (block : Block α) (offset count : ℕ) :
    slice block offset (count + 1) =
      load block offset :: slice block (offset + 1) count := by
  simp [slice, List.range'_succ]

theorem slice_add (block : Block α) (offset first second : ℕ) :
    slice block offset (first + second) =
      slice block offset first ++ slice block (offset + first) second := by
  simp only [slice, ← List.map_append, List.range'_append_1]

theorem slice_congr {left right : Block α} {leftOffset rightOffset count : ℕ}
    (hload : ∀ index < count,
      load left (leftOffset + index) = load right (rightOffset + index)) :
    slice left leftOffset count = slice right rightOffset count := by
  apply List.ext_getElem
  · simp
  · intro index hleft hright
    simpa [slice] using hload index (by simpa using hleft)

@[simp]
theorem load_add_capacity (block : Block α) (offset : ℕ) :
    load block (offset + block.capacity) = load block offset := by
  simp [load]

/-- Both copies of an arc show the same contents. -/
@[simp]
theorem slice_add_capacity (block : Block α) (offset count : ℕ) :
    slice block (offset + block.capacity) count = slice block offset count := by
  apply slice_congr
  intro index _
  rw [Nat.add_right_comm, load_add_capacity]

/-- An arc that starts in the second copy is the arc one capacity below it. -/
theorem slice_sub_capacity (block : Block α) {offset : ℕ}
    (hle : block.capacity ≤ offset) (count : ℕ) :
    slice block (offset - block.capacity) count = slice block offset count := by
  calc
    slice block (offset - block.capacity) count =
        slice block (offset - block.capacity + block.capacity) count :=
      (slice_add_capacity block _ count).symm
    _ = slice block offset count := by rw [Nat.sub_add_cancel hle]

theorem take_slice (block : Block α) (offset : ℕ) {first count : ℕ}
    (hle : first ≤ count) :
    (slice block offset count).take first = slice block offset first := by
  obtain ⟨rest, rfl⟩ := Nat.exists_eq_add_of_le hle
  rw [slice_add, List.take_left' (length_slice _ _ _)]

theorem drop_slice (block : Block α) (offset : ℕ) {first count : ℕ}
    (hle : first ≤ count) :
    (slice block offset count).drop first =
      slice block (offset + first) (count - first) := by
  obtain ⟨rest, rfl⟩ := Nat.exists_eq_add_of_le hle
  rw [slice_add, List.drop_left' (length_slice _ _ _), Nat.add_sub_cancel_left]

/-! ## Stores -/

@[simp]
theorem capacity_storeCell (block : Block α) (offset : ℕ) (value : α) :
    (storeCell block offset value).capacity = block.capacity := rfl

@[simp]
theorem capacity_store (block : Block α) (offset : ℕ) (values : List α) :
    (store block offset values).capacity = block.capacity := by
  induction values generalizing block offset with
  | nil => rfl
  | cons value values ih => rw [store, ih, capacity_storeCell]

theorem load_storeCell_self (block : Block α) (offset : ℕ) (value : α) :
    load (storeCell block offset value) offset = value := by
  simp [load, storeCell]

theorem load_storeCell_of_ne (block : Block α) {offset target : ℕ} (value : α)
    (hne : offset % block.capacity ≠ target % block.capacity) :
    load (storeCell block offset value) target = load block target := by
  simp [load, storeCell, Function.update_of_ne hne.symm]

/-- A store leaves every cell outside its arc unchanged. -/
theorem load_store_of_ne (block : Block α) {offset target : ℕ}
    (values : List α)
    (hne : ∀ index < values.length,
      (offset + index) % block.capacity ≠ target % block.capacity) :
    load (store block offset values) target = load block target := by
  induction values generalizing block offset with
  | nil => rfl
  | cons value values ih =>
      have hhead : offset % block.capacity ≠ target % block.capacity := by
        simpa using hne 0 (by simp)
      rw [store, ih, load_storeCell_of_ne block value hhead]
      intro index hindex
      have htail := hne (index + 1) (by simpa using hindex)
      rwa [capacity_storeCell, Nat.add_assoc, Nat.add_comm 1 index]

/-- What is stored in at most one turn of the block is read back. -/
theorem slice_store_self (block : Block α) (offset : ℕ) (values : List α)
    (hfit : values.length ≤ block.capacity) :
    slice (store block offset values) offset values.length = values := by
  induction values generalizing block offset with
  | nil => rfl
  | cons value values ih =>
      simp only [List.length_cons] at hfit
      have htail : slice (store (storeCell block offset value) (offset + 1)
          values) (offset + 1) values.length = values :=
        ih _ _ (by simp only [capacity_storeCell]; omega)
      have hhead : load (store (storeCell block offset value) (offset + 1)
          values) offset = value := by
        rw [load_store_of_ne, load_storeCell_self]
        intro index hindex
        exact (mod_ne_mod_of_lt (by omega)
          (by simp only [capacity_storeCell]; omega)).symm
      rw [List.length_cons, slice_succ, store, htail, hhead]

/-- A store into the arc from `right` on leaves the arc from `left` to
`right` unchanged, as long as both together fill at most one turn. -/
theorem slice_store_of_le (block : Block α) {left count right : ℕ}
    (values : List α) (hstart : left + count ≤ right)
    (hfit : right + values.length ≤ left + block.capacity) :
    slice (store block right values) left count = slice block left count := by
  apply slice_congr
  intro index hindex
  apply load_store_of_ne
  intro position hposition
  exact (mod_ne_mod_of_lt (by omega) (by omega)).symm

end ParseBgp.MirroredMemory
