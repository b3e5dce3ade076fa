import Mathlib.Data.List.Basic
import Mathlib.Tactic

/-!
# Decoding a whole input

The reference behaviour of an incremental decoder: decode the input from its
start, emit each message and advance by its length, until nothing is left or
the decoder reports an error.  The decoder is any function from the bytes it is
shown to a consumed length with a message, or an error; one error means that
more bytes are needed.
-/

namespace ParseBgp.WholeInput

variable {β ε M : Type*}

/-- How a run over an input ends. -/
inductive End (ε : Type*) where
  | finished
  | failed (error : ε)
  deriving DecidableEq, Repr

/-- The contract of an incremental decoder. -/
structure Lawful (answer : List β → Except ε (ℕ × M)) (incomplete : ε) :
    Prop where
  consumes : ∀ {bytes : List β} {len : ℕ} {message : M},
    answer bytes = .ok (len, message) → 0 < len ∧ len ≤ bytes.length
  stable : ∀ {bytes : List β}, answer bytes ≠ .error incomplete →
    ∀ more, answer (bytes ++ more) = answer bytes
  empty : answer [] = .error incomplete

/-- Decode at most `fuel` messages from `bytes` and look how the run ends. -/
def decodeAll (answer : List β → Except ε (ℕ × M)) :
    ℕ → List β → List M × End ε
  | 0, _ => ([], .finished)
  | fuel + 1, bytes =>
      if bytes.isEmpty then ([], .finished)
      else
        match answer bytes with
        | .error error => ([], .failed error)
        | .ok (len, message) =>
            let rest := decodeAll answer fuel (bytes.drop len)
            (message :: rest.1, rest.2)

/-- The reference run: every message takes at least one byte, so the length of
the input bounds their number. -/
def reference (answer : List β → Except ε (ℕ × M)) (input : List β) :
    List M × End ε :=
  decodeAll answer input.length input

/-- The suffixes of the input at which the reference run starts a message or
ends. -/
inductive Boundary (answer : List β → Except ε (ℕ × M)) (input : List β) :
    List β → Prop
  | start : Boundary answer input input
  | next {bytes : List β} {len : ℕ} {message : M} :
      Boundary answer input bytes → answer bytes = .ok (len, message) →
        Boundary answer input (bytes.drop len)

/-- The suffixes of the input at which a message starts or the input ends, when
each message is decoded from some window of the bytes that are left. -/
inductive WindowBoundary (answer : List β → Except ε (ℕ × M))
    (input : List β) : List β → Prop
  | start : WindowBoundary answer input input
  | next {bytes window : List β} {len : ℕ} {message : M} :
      WindowBoundary answer input bytes → window <+: bytes →
        answer window = .ok (len, message) → len ≤ window.length →
          WindowBoundary answer input (bytes.drop len)

/-- The input is a concatenation of whole messages. -/
def WholeMessages (answer : List β → Except ε (ℕ × M)) (input : List β) :
    Prop :=
  WindowBoundary answer input []

variable {answer : List β → Except ε (ℕ × M)} {incomplete : ε}

theorem decodeAll_of_error {fuel : ℕ} {bytes : List β} {error : ε}
    (hne : bytes ≠ []) (hanswer : answer bytes = .error error) :
    decodeAll answer (fuel + 1) bytes = ([], .failed error) := by
  simp [decodeAll, hne, hanswer]

theorem decodeAll_of_ok {fuel : ℕ} {bytes : List β} {len : ℕ} {message : M}
    (hne : bytes ≠ []) (hanswer : answer bytes = .ok (len, message)) :
    decodeAll answer (fuel + 1) bytes =
      (message :: (decodeAll answer fuel (bytes.drop len)).1,
        (decodeAll answer fuel (bytes.drop len)).2) := by
  simp [decodeAll, hne, hanswer]

namespace Lawful

variable (hlawful : Lawful answer incomplete)
include hlawful

theorem ne_nil_of_ok {bytes : List β} {len : ℕ} {message : M}
    (hanswer : answer bytes = .ok (len, message)) : bytes ≠ [] := by
  intro hnil
  rw [hnil, hlawful.empty] at hanswer
  simp at hanswer

/-- A result other than `incomplete` on a prefix is the result on the whole. -/
theorem answer_of_prefix {window bytes : List β}
    (hwindow : window <+: bytes)
    (hanswer : answer window ≠ .error incomplete) :
    answer bytes = answer window := by
  obtain ⟨more, rfl⟩ := hwindow
  exact hlawful.stable hanswer more

/-- Any fuel that covers the input gives the reference run. -/
theorem decodeAll_eq_reference {fuel : ℕ} {bytes : List β}
    (hfuel : bytes.length ≤ fuel) :
    decodeAll answer fuel bytes = reference answer bytes := by
  suffices hstep : ∀ (fuel : ℕ) (bytes : List β), bytes.length ≤ fuel →
      decodeAll answer (fuel + 1) bytes = decodeAll answer fuel bytes by
    induction fuel, hfuel using Nat.le_induction with
    | base => rfl
    | succ fuel hle ih => rw [hstep fuel bytes hle, ih]
  intro fuel
  induction fuel with
  | zero =>
      intro bytes hle
      obtain rfl : bytes = [] := List.eq_nil_of_length_eq_zero (by omega)
      rfl
  | succ fuel ih =>
      intro bytes hle
      by_cases hne : bytes = []
      · subst hne
        rfl
      cases hanswer : answer bytes with
      | error error =>
          rw [decodeAll_of_error hne hanswer, decodeAll_of_error hne hanswer]
      | ok result =>
          obtain ⟨len, message⟩ := result
          have hlen := hlawful.consumes hanswer
          have hrest : (bytes.drop len).length ≤ fuel := by
            rw [List.length_drop]
            omega
          rw [decodeAll_of_ok hne hanswer, ih _ hrest,
            decodeAll_of_ok hne hanswer]

omit hlawful in
theorem reference_nil :
    reference answer ([] : List β) = ([], .finished) := rfl

omit hlawful in
theorem reference_of_error {bytes : List β} {error : ε} (hne : bytes ≠ [])
    (hanswer : answer bytes = .error error) :
    reference answer bytes = ([], .failed error) := by
  obtain ⟨fuel, hfuel⟩ := Nat.exists_eq_add_of_le'
    (List.length_pos_iff.mpr hne)
  rw [reference, hfuel, decodeAll_of_error hne hanswer]

theorem reference_of_ok {bytes : List β} {len : ℕ} {message : M}
    (hanswer : answer bytes = .ok (len, message)) :
    reference answer bytes =
      (message :: (reference answer (bytes.drop len)).1,
        (reference answer (bytes.drop len)).2) := by
  have hne := hlawful.ne_nil_of_ok hanswer
  have hlen := hlawful.consumes hanswer
  obtain ⟨fuel, hfuel⟩ := Nat.exists_eq_add_of_le'
    (List.length_pos_iff.mpr hne)
  have hrest : (bytes.drop len).length ≤ fuel := by
    rw [List.length_drop]
    omega
  rw [reference, hfuel, decodeAll_of_ok hne hanswer,
    hlawful.decodeAll_eq_reference hrest]

/-- A message is decoded alike from every window that is long enough. -/
theorem boundary_of_window {input bytes : List β}
    (hwindow : WindowBoundary answer input bytes) :
    Boundary answer input bytes := by
  induction hwindow with
  | start => exact .start
  | @next bytes window len message _ hpart hanswer _ ih =>
      have hdecides : answer window ≠ .error incomplete := by
        simp [hanswer]
      exact .next ih
        ((hlawful.answer_of_prefix hpart hdecides).trans hanswer)

theorem window_of_boundary {input bytes : List β}
    (hboundary : Boundary answer input bytes) :
    WindowBoundary answer input bytes := by
  induction hboundary with
  | start => exact .start
  | next _ hanswer ih =>
      exact .next ih List.prefix_rfl hanswer (hlawful.consumes hanswer).2

/-- The reference run ends alike from every message boundary on. -/
theorem reference_end_of_boundary {input bytes : List β}
    (hboundary : Boundary answer input bytes) :
    (reference answer input).2 = (reference answer bytes).2 := by
  induction hboundary with
  | start => rfl
  | next _ hanswer ih => rw [ih, hlawful.reference_of_ok hanswer]

/-- A reference run that is finished reaches the end from any boundary. -/
theorem boundary_nil_of_finished {input bytes : List β}
    (hend : (reference answer input).2 = .finished)
    (hboundary : Boundary answer input bytes) :
    Boundary answer input [] := by
  induction hlength : bytes.length using Nat.strong_induction_on
    generalizing bytes with
  | _ length ih =>
      by_cases hne : bytes = []
      · rwa [hne] at hboundary
      cases hanswer : answer bytes with
      | error error =>
          rw [hlawful.reference_end_of_boundary hboundary,
            reference_of_error hne hanswer] at hend
          simp at hend
      | ok result =>
          obtain ⟨len, message⟩ := result
          have hlen := hlawful.consumes hanswer
          have hshorter : (bytes.drop len).length < length := by
            rw [List.length_drop]
            omega
          exact ih _ hshorter (.next hboundary hanswer) rfl

/-- The reference run is finished exactly on the concatenations of whole
messages. -/
theorem wholeMessages_iff {input : List β} :
    WholeMessages answer input ↔ (reference answer input).2 = .finished := by
  constructor
  · intro hwhole
    have hboundary := hlawful.boundary_of_window hwhole
    rw [hlawful.reference_end_of_boundary hboundary, reference_nil]
  · intro hend
    exact hlawful.window_of_boundary
      (hlawful.boundary_nil_of_finished hend .start)

end Lawful

end ParseBgp.WholeInput
