import Mathlib.Data.List.Basic
import Mathlib.Tactic

/-!
# Bounded first-in first-out queues

The abstract value of a ring buffer: a queue that holds at most `capacity`
elements.  Elements are pushed in runs and popped by count, as byte streams
are.  The bound is a field, so a queue that overflows cannot be built.
-/

namespace ParseBgp.BoundedFifo

structure Fifo (α : Type*) where
  capacity : ℕ
  contents : List α
  bounded : contents.length ≤ capacity

variable {α : Type*}

def Fifo.free (fifo : Fifo α) : ℕ :=
  fifo.capacity - fifo.contents.length

def Fifo.push (fifo : Fifo α) (values : List α)
    (hfree : values.length ≤ fifo.free) : Fifo α where
  capacity := fifo.capacity
  contents := fifo.contents ++ values
  bounded := by
    have hbounded := fifo.bounded
    simp only [Fifo.free] at hfree
    rw [List.length_append]
    omega

def Fifo.pop (fifo : Fifo α) (count : ℕ) : Fifo α where
  capacity := fifo.capacity
  contents := fifo.contents.drop count
  bounded := by
    have hbounded := fifo.bounded
    rw [List.length_drop]
    omega

/-- `Exchange start pushed popped final`: some sequence of permitted pushes
and pops leads from `start` to `final`, pushes `pushed` in total and pops
`popped` elements. -/
inductive Exchange (start : Fifo α) : List α → ℕ → Fifo α → Prop
  | refl : Exchange start [] 0 start
  | push {pushed : List α} {popped : ℕ} {fifo : Fifo α} (values : List α)
      (hfree : values.length ≤ fifo.free) :
      Exchange start pushed popped fifo →
        Exchange start (pushed ++ values) popped (fifo.push values hfree)
  | pop {pushed : List α} {popped : ℕ} {fifo : Fifo α} (count : ℕ)
      (hcount : count ≤ fifo.contents.length) :
      Exchange start pushed popped fifo →
        Exchange start pushed (popped + count) (fifo.pop count)

theorem Exchange.capacity_eq {start final : Fifo α} {pushed : List α}
    {popped : ℕ} (h : Exchange start pushed popped final) :
    final.capacity = start.capacity := by
  induction h with
  | refl => rfl
  | push _ _ _ ih => exact ih
  | pop _ _ _ ih => exact ih

/-- Nothing is popped that was not pushed. -/
theorem Exchange.popped_le {start final : Fifo α} {pushed : List α}
    {popped : ℕ} (h : Exchange start pushed popped final) :
    popped + final.contents.length =
      start.contents.length + pushed.length := by
  induction h with
  | refl => simp
  | push values _ _ ih =>
      simp only [Fifo.push, List.length_append]
      omega
  | pop count hcount _ ih =>
      simp only [Fifo.pop, List.length_drop]
      omega

/-- The queue holds what was pushed and not yet popped, in order. -/
theorem Exchange.contents_eq {start final : Fifo α} {pushed : List α}
    {popped : ℕ} (h : Exchange start pushed popped final) :
    final.contents = (start.contents ++ pushed).drop popped := by
  induction h with
  | refl => simp
  | @push pushed popped fifo values hfree h ih =>
      have hle := h.popped_le
      have hbound : popped ≤ (start.contents ++ pushed).length := by
        rw [List.length_append]
        omega
      rw [← List.append_assoc, List.drop_append_of_le_length hbound, ← ih]
      rfl
  | pop count _ _ ih =>
      simp only [Fifo.pop, ih, List.drop_drop]

end ParseBgp.BoundedFifo
