import Mathlib.Data.List.Basic
import Mathlib.Tactic

/-!
# Cursors

What a client sees of a source that hands out items one at a time and then ends:
a position in the list of the items, and behind them the reason for the end.
Looking does not move the cursor, and moving it past the end leaves it there.
-/

namespace ParseBgp

variable {M S : Type*}

@[ext]
structure Cursor (M S : Type*) where
  remaining : List M
  ending : S
  deriving DecidableEq, Repr

namespace Cursor

/-- The item at the cursor, or the reason for the end. -/
def current (cursor : Cursor M S) : Except S M :=
  match cursor.remaining with
  | item :: _ => .ok item
  | [] => .error cursor.ending

def advance (cursor : Cursor M S) : Cursor M S where
  remaining := cursor.remaining.tail
  ending := cursor.ending

def atEnd (cursor : Cursor M S) : Bool :=
  cursor.remaining.isEmpty

@[simp]
theorem current_nil (ending : S) :
    (⟨[], ending⟩ : Cursor M S).current = .error ending := rfl

@[simp]
theorem current_cons (item : M) (rest : List M) (ending : S) :
    (⟨item :: rest, ending⟩ : Cursor M S).current = .ok item := rfl

@[simp]
theorem advance_nil (ending : S) :
    (⟨[], ending⟩ : Cursor M S).advance = ⟨[], ending⟩ := rfl

@[simp]
theorem advance_cons (item : M) (rest : List M) (ending : S) :
    (⟨item :: rest, ending⟩ : Cursor M S).advance = ⟨rest, ending⟩ := rfl

end Cursor

end ParseBgp
