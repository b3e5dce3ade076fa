import Mathlib.Tactic

/-!
# Pointers into constant arrays

A pointer is an array together with a position in it.  Positions are integers:
a pointer may be moved past either end of its array, but only a load inside
gives a value.  A `CArray` is the pair of a pointer and a count that a C
interface uses for a list; that all of its elements are inside the array is a
field.
-/

namespace ParseBgp

@[ext]
structure Pointer (α : Type*) where
  array : List α
  position : ℤ
  deriving DecidableEq, Repr

namespace Pointer

variable {α : Type*}

/-- The null pointer points into no array. -/
def null : Pointer α where
  array := []
  position := 0

def isNull (ptr : Pointer α) : Bool :=
  ptr.array.isEmpty

def add (ptr : Pointer α) (n : ℤ) : Pointer α where
  array := ptr.array
  position := ptr.position + n

def sub (ptr : Pointer α) (n : ℤ) : Pointer α where
  array := ptr.array
  position := ptr.position - n

/-- The distance of two pointers into one array. -/
def diff (left right : Pointer α) : ℤ :=
  left.position - right.position

/-- The order of two pointers into one array. -/
def less (left right : Pointer α) : Prop :=
  left.position < right.position

instance (left right : Pointer α) : Decidable (left.less right) :=
  inferInstanceAs (Decidable (left.position < right.position))

def load (ptr : Pointer α) : Option α :=
  if ptr.position < 0 then none else ptr.array[ptr.position.toNat]?

@[simp]
theorem add_position (ptr : Pointer α) (n : ℤ) :
    (ptr.add n).position = ptr.position + n := rfl

@[simp]
theorem sub_position (ptr : Pointer α) (n : ℤ) :
    (ptr.sub n).position = ptr.position - n := rfl

theorem add_zero (ptr : Pointer α) : ptr.add 0 = ptr := by
  ext1
  · rfl
  · exact Int.add_zero _

theorem add_add (ptr : Pointer α) (n m : ℤ) :
    (ptr.add n).add m = ptr.add (n + m) := by
  ext1
  · rfl
  · exact Int.add_assoc _ _ _

theorem add_sub_cancel (ptr : Pointer α) (n : ℤ) :
    (ptr.add n).sub n = ptr := by
  ext1
  · rfl
  · exact Int.add_sub_cancel _ _

theorem sub_add_cancel (ptr : Pointer α) (n : ℤ) :
    (ptr.sub n).add n = ptr := by
  ext1
  · rfl
  · exact Int.sub_add_cancel _ _

theorem diff_add_self (ptr : Pointer α) (n : ℤ) :
    (ptr.add n).diff ptr = n :=
  add_sub_cancel_left _ _

theorem less_iff_diff_pos (left right : Pointer α) :
    left.less right ↔ 0 < right.diff left :=
  Int.sub_pos.symm

theorem add_injective (ptr : Pointer α) : Function.Injective ptr.add := by
  intro n m heq
  have hposition := congrArg Pointer.position heq
  simpa using hposition

theorem sub_injective (ptr : Pointer α) : Function.Injective ptr.sub := by
  intro n m heq
  have hposition := congrArg Pointer.position heq
  simpa using hposition

end Pointer

/-- A pointer and a count, all of whose elements are in the array. -/
structure CArray (α : Type*) where
  data : Pointer α
  count : ℕ
  position_nonneg : 0 ≤ data.position
  fits : data.position + count ≤ data.array.length
  deriving DecidableEq

namespace CArray

variable {α : Type*}

/-- An array from its first element on. -/
def ofList (elements : List α) : CArray α where
  data := ⟨elements, 0⟩
  count := elements.length
  position_nonneg := le_rfl
  fits := by simp

/-- The elements the pair stands for. -/
def toList (values : CArray α) : List α :=
  (values.data.array.drop values.data.position.toNat).take values.count

@[simp]
theorem length_toList (values : CArray α) :
    values.toList.length = values.count := by
  have hstart := values.position_nonneg
  have hfits := values.fits
  rw [toList, List.length_take, List.length_drop]
  omega

/-- The element at an offset inside the count is found by a load there. -/
theorem load_add (values : CArray α) (offset : ℕ)
    (hoffset : offset < values.toList.length) :
    (values.data.add offset).load = some values.toList[offset] := by
  have hstart := values.position_nonneg
  have hposition : ¬ values.data.position + offset < 0 := by omega
  have htoNat : (values.data.position + offset).toNat =
      values.data.position.toNat + offset := by omega
  have hcount : offset < values.count := by
    rwa [length_toList] at hoffset
  calc
    (values.data.add offset).load =
        values.data.array[values.data.position.toNat + offset]? := by
      rw [Pointer.load, Pointer.add_position, if_neg hposition, htoNat]
      rfl
    _ = values.toList[offset]? := by
      rw [toList, List.getElem?_take_of_lt hcount, List.getElem?_drop]
    _ = some values.toList[offset] := List.getElem?_eq_getElem hoffset

end CArray

end ParseBgp
