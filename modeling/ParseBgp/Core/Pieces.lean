import ParseBgp.Core.WholeInput

/-!
# Messages from pieces of an input

A reader that skips bytes, for whatever reason, still should not decode a byte
twice or deliver messages out of order.  `DecodedFrom` says so of a list of
messages: each was decoded from a window of what the messages before it have
left, after some skipped bytes, and takes a start of its window.
-/

namespace ParseBgp.WholeInput

variable {β ε M : Type*} {answer : List β → Except ε (ℕ × M)}

/-- `messages` were decoded one after the other from `input`, and `pieces` are
the bytes they took. -/
inductive DecodedFrom (answer : List β → Except ε (ℕ × M)) :
    List β → List (List β) → List M → Prop
  | nil {input : List β} : DecodedFrom answer input [] []
  | cons {skipped bytes window : List β} {len : ℕ} {message : M}
      {pieces : List (List β)} {messages : List M} :
      window <+: bytes → answer window = .ok (len, message) →
        len ≤ window.length →
          DecodedFrom answer (bytes.drop len) pieces messages →
            DecodedFrom answer (skipped ++ bytes) (window.take len :: pieces)
              (message :: messages)

namespace DecodedFrom

variable {input : List β} {pieces : List (List β)} {messages : List M}

/-- A start of a window is a start of the bytes the window is taken from. -/
theorem take_window {bytes window : List β} (hwindow : window <+: bytes)
    {len : ℕ} (hlen : len ≤ window.length) :
    window.take len = bytes.take len := by
  obtain ⟨more, rfl⟩ := hwindow
  rw [List.take_append_of_le_length hlen]

/-- The pieces follow one another in the input without an overlap. -/
theorem flatten_sublist (hdecoded : DecodedFrom answer input pieces messages) :
    pieces.flatten.Sublist input := by
  induction hdecoded with
  | nil => exact List.nil_sublist _
  | @cons skipped bytes window len message pieces messages hwindow _ hlen _
      ih =>
      rw [List.flatten_cons, take_window hwindow hlen]
      have hparts : (bytes.take len ++ pieces.flatten).Sublist bytes := by
        conv_rhs => rw [← List.take_append_drop len bytes]
        exact ih.append_left _
      exact hparts.trans (List.sublist_append_right _ _)

end DecodedFrom

end ParseBgp.WholeInput
