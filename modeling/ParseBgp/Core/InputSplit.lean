import ParseBgp.Core.WholeInput

/-!
# Reference runs over parts of an input

How the reference run over an input continues that over a start of it.  A start
that consists of whole messages is decoded as it is alone, and the rest follows.
A start that is cut in the middle of a message shows the messages before the
cut.  An error other than the incomplete message is final.
-/

namespace ParseBgp.WholeInput

variable {β ε M : Type*} {answer : List β → Except ε (ℕ × M)} {incomplete : ε}

/-- At every message boundary with at least `capacity` bytes left, the first
`capacity` of them decide. -/
def Fits (answer : List β → Except ε (ℕ × M)) (incomplete : ε)
    (capacity : ℕ) (input : List β) : Prop :=
  ∀ bytes, Boundary answer input bytes → capacity ≤ bytes.length →
    answer (bytes.take capacity) ≠ .error incomplete

theorem Boundary.trans {input middle bytes : List β}
    (hmiddle : Boundary answer input middle)
    (hbytes : Boundary answer middle bytes) : Boundary answer input bytes := by
  induction hbytes with
  | start => exact hmiddle
  | next _ hanswer ih => exact ih.next hanswer

theorem Boundary.suffix {input bytes : List β}
    (hboundary : Boundary answer input bytes) : bytes <:+ input := by
  induction hboundary with
  | start => exact List.suffix_refl _
  | next _ _ ih => exact (List.drop_suffix _ _).trans ih

/-- An input that is shorter than the capacity fits. -/
theorem fits_of_length_lt {capacity : ℕ} {input : List β}
    (hlength : input.length < capacity) :
    Fits answer incomplete capacity input := by
  intro bytes hboundary hcapacity
  have hshorter := hboundary.suffix.length_le
  omega

/-- A decoder whose messages are looked at through a function. -/
theorem Lawful.map {N : Type*} (hlawful : Lawful answer incomplete)
    (look : M → N) :
    Lawful (fun bytes => (answer bytes).map (Prod.map id look)) incomplete where
  consumes := by
    intro bytes len message hanswer
    cases hbytes : answer bytes with
    | error error => simp [hbytes, Except.map] at hanswer
    | ok result =>
        simp only [hbytes, Except.map, Except.ok.injEq] at hanswer
        obtain ⟨rfl, -⟩ := Prod.mk.inj hanswer
        exact hlawful.consumes hbytes
  stable := by
    intro bytes hanswer more
    have hdecides : answer bytes ≠ .error incomplete := by
      intro herror
      rw [herror] at hanswer
      exact hanswer rfl
    simp only [hlawful.stable hdecides more]
  empty := by
    rw [hlawful.empty]
    rfl

namespace Lawful

variable (hlawful : Lawful answer incomplete)
include hlawful

/-- A message that decodes is decoded alike with more bytes behind it. -/
theorem answer_append {bytes : List β} {len : ℕ} {message : M}
    (hanswer : answer bytes = .ok (len, message)) (more : List β) :
    answer (bytes ++ more) = .ok (len, message) := by
  rw [← hanswer]
  exact hlawful.stable (by simp [hanswer]) more

theorem drop_append_of_ok {bytes : List β} {len : ℕ} {message : M}
    (hanswer : answer bytes = .ok (len, message)) (more : List β) :
    (bytes ++ more).drop len = bytes.drop len ++ more :=
  List.drop_append_of_le_length (hlawful.consumes hanswer).2

/-- A run over a longer input decodes the same first message. -/
theorem reference_append_of_ok {bytes : List β} {len : ℕ} {message : M}
    (hanswer : answer bytes = .ok (len, message)) (more : List β) :
    reference answer (bytes ++ more) =
      (message :: (reference answer (bytes.drop len ++ more)).1,
        (reference answer (bytes.drop len ++ more)).2) := by
  rw [hlawful.reference_of_ok (hlawful.answer_append hanswer more),
    hlawful.drop_append_of_ok hanswer]

/-- Whole messages are decoded as they are alone, and then the rest is. -/
theorem reference_append_of_finished {first : List β}
    (hend : (reference answer first).2 = .finished) (second : List β) :
    reference answer (first ++ second) =
      ((reference answer first).1 ++ (reference answer second).1,
        (reference answer second).2) := by
  induction hlength : first.length using Nat.strong_induction_on
    generalizing first with
  | _ length ih =>
      by_cases hne : first = []
      · subst hne
        rfl
      cases hanswer : answer first with
      | error error =>
          rw [reference_of_error hne hanswer] at hend
          simp at hend
      | ok result =>
          obtain ⟨len, message⟩ := result
          have hlen := hlawful.consumes hanswer
          have hshorter : (first.drop len).length < length := by
            rw [List.length_drop]
            omega
          rw [hlawful.reference_of_ok hanswer] at hend ⊢
          rw [hlawful.reference_append_of_ok hanswer,
            ih _ hshorter hend rfl]
          rfl

/-- An error that more bytes cannot mend ends the run over any longer input. -/
theorem reference_append_of_failed {first : List β} {error : ε}
    (hend : (reference answer first).2 = .failed error)
    (hne : error ≠ incomplete) (second : List β) :
    reference answer (first ++ second) = reference answer first := by
  induction hlength : first.length using Nat.strong_induction_on
    generalizing first with
  | _ length ih =>
      by_cases hnil : first = []
      · rw [hnil, reference_nil] at hend
        simp at hend
      cases hanswer : answer first with
      | error error' =>
          rw [reference_of_error hnil hanswer] at hend
          obtain rfl : error' = error := End.failed.inj hend
          have hdecides : answer first ≠ .error incomplete := by
            simpa [hanswer] using hne
          have hlonger := (hlawful.stable hdecides second).trans hanswer
          rw [reference_of_error (by simp [hnil]) hlonger,
            reference_of_error hnil hanswer]
      | ok result =>
          obtain ⟨len, message⟩ := result
          have hlen := hlawful.consumes hanswer
          have hshorter : (first.drop len).length < length := by
            rw [List.length_drop]
            omega
          rw [hlawful.reference_of_ok hanswer] at hend ⊢
          rw [hlawful.reference_append_of_ok hanswer,
            ih _ hshorter hend rfl]

/-- More bytes only add messages behind those of a shorter input. -/
theorem messages_prefix (first second : List β) :
    (reference answer first).1 <+: (reference answer (first ++ second)).1 := by
  induction hlength : first.length using Nat.strong_induction_on
    generalizing first with
  | _ length ih =>
      by_cases hnil : first = []
      · rw [hnil]
        exact List.nil_prefix
      cases hanswer : answer first with
      | error error =>
          rw [reference_of_error hnil hanswer]
          exact List.nil_prefix
      | ok result =>
          obtain ⟨len, message⟩ := result
          have hlen := hlawful.consumes hanswer
          have hshorter : (first.drop len).length < length := by
            rw [List.length_drop]
            omega
          rw [hlawful.reference_of_ok hanswer,
            hlawful.reference_append_of_ok hanswer]
          exact (List.prefix_cons_inj message).mpr (ih _ hshorter _ rfl)

/-- The boundaries of a start of the input are boundaries of the input. -/
theorem boundary_append {first bytes : List β}
    (hboundary : Boundary answer first bytes) (second : List β) :
    Boundary answer (first ++ second) (bytes ++ second) := by
  induction hboundary with
  | start => exact .start
  | next _ hanswer ih =>
      rw [← hlawful.drop_append_of_ok hanswer]
      exact ih.next (hlawful.answer_append hanswer second)

/-- The rest behind whole messages starts at a boundary. -/
theorem boundary_of_finished {first : List β}
    (hend : (reference answer first).2 = .finished) (second : List β) :
    Boundary answer (first ++ second) second :=
  hlawful.boundary_append (hlawful.boundary_nil_of_finished hend .start) second

theorem fits_left {capacity : ℕ} {first second : List β}
    (hfits : Fits answer incomplete capacity (first ++ second)) :
    Fits answer incomplete capacity first := by
  intro bytes hboundary hlength
  have hlonger := hfits _ (hlawful.boundary_append hboundary second)
    (hlength.trans (by simp))
  rwa [List.take_append_of_le_length hlength] at hlonger

theorem fits_right {capacity : ℕ} {first second : List β}
    (hend : (reference answer first).2 = .finished)
    (hfits : Fits answer incomplete capacity (first ++ second)) :
    Fits answer incomplete capacity second := by
  intro bytes hboundary
  exact hfits bytes ((hlawful.boundary_of_finished hend second).trans hboundary)

end Lawful

end ParseBgp.WholeInput
