import Mathlib.Tactic

/-!
# Loops that may fault or run forever

A call of an imperative function returns a value, stops at a violated
assertion, or does not return.  `Outcome` is the result of such a call after a
bounded number of loop iterations; `run` executes the loop
`while (true) { body }`, whose body either continues with a new state or breaks
with a result.  The rules below are those of a Hoare logic for such loops:
an invariant rule for results, one for faults and one for both, a variant rule
for termination, an invariant rule for loops that run forever, and the replay of
a loop from a state it reaches.
-/

namespace ParseBgp.Loop

/-- Result of running a function with a bounded number of loop iterations. -/
inductive Outcome (ε α : Type*) where
  | ok (value : α)
  | fault (error : ε)
  | outOfFuel
  deriving DecidableEq, Repr

namespace Outcome

variable {ε α β : Type*}

def bind (first : Outcome ε α) (next : α → Outcome ε β) : Outcome ε β :=
  match first with
  | ok value => next value
  | fault error => fault error
  | outOfFuel => outOfFuel

@[simp]
theorem ok_bind (value : α) (next : α → Outcome ε β) :
    (ok value : Outcome ε α).bind next = next value := rfl

@[simp]
theorem fault_bind (error : ε) (next : α → Outcome ε β) :
    (fault error : Outcome ε α).bind next = fault error := rfl

@[simp]
theorem outOfFuel_bind (next : α → Outcome ε β) :
    (outOfFuel : Outcome ε α).bind next = outOfFuel := rfl

theorem bind_eq_ok_iff {first : Outcome ε α} {next : α → Outcome ε β}
    {result : β} :
    first.bind next = ok result ↔
      ∃ value, first = ok value ∧ next value = ok result := by
  cases first <;> simp

theorem bind_eq_fault_iff {first : Outcome ε α} {next : α → Outcome ε β}
    {error : ε} :
    first.bind next = fault error ↔
      first = fault error ∨
        ∃ value, first = ok value ∧ next value = fault error := by
  cases first <;> simp

theorem bind_ok_eq_ok_iff {first : Outcome ε α} {value : α → β} {result : β} :
    (first.bind fun before => ok (value before)) = ok result ↔
      ∃ before, first = ok before ∧ value before = result := by
  cases first <;> simp

theorem bind_ok_eq_fault_iff {first : Outcome ε α} {value : α → β}
    {error : ε} :
    (first.bind fun before => ok (value before)) = fault error ↔
      first = fault error := by
  cases first <;> simp

theorem bind_assoc {γ : Type*} (first : Outcome ε α) (next : α → Outcome ε β)
    (last : β → Outcome ε γ) :
    (first.bind next).bind last =
      first.bind fun value => (next value).bind last := by
  cases first <;> rfl

/-- A value satisfies `post` and a fault satisfies `allowed`. -/
def Meets (post : α → Prop) (allowed : ε → Prop) : Outcome ε α → Prop
  | ok value => post value
  | fault error => allowed error
  | outOfFuel => True

theorem Meets.bind {post : α → Prop} {later : β → Prop} {allowed : ε → Prop}
    {first : Outcome ε α} {next : α → Outcome ε β}
    (hfirst : first.Meets post allowed)
    (hnext : ∀ value, post value → (next value).Meets later allowed) :
    (first.bind next).Meets later allowed := by
  cases first with
  | ok value => exact hnext value hfirst
  | fault error => exact hfirst
  | outOfFuel => trivial

theorem meets_of_forall_ok {post : α → Prop} {first : Outcome ε α}
    (hok : ∀ value, first = ok value → post value) :
    first.Meets post fun _ => True := by
  cases first with
  | ok value => exact hok value rfl
  | fault error => trivial
  | outOfFuel => trivial

theorem Meets.of_ok {post : α → Prop} {allowed : ε → Prop}
    {first : Outcome ε α} {value : α} (hmeets : first.Meets post allowed)
    (hfirst : first = ok value) : post value := by
  rw [hfirst] at hmeets
  exact hmeets

theorem Meets.of_fault {post : α → Prop} {allowed : ε → Prop}
    {first : Outcome ε α} {error : ε} (hmeets : first.Meets post allowed)
    (hfirst : first = fault error) : allowed error := by
  rw [hfirst] at hmeets
  exact hmeets

end Outcome

/-- What one execution of a loop body decides. -/
inductive Step (α β : Type*) where
  | again (state : α)
  | done (result : β)

variable {ε α β : Type*}

/-- `while (true)` around `body`, stopped after `fuel` iterations. -/
def run (body : α → Outcome ε (Step α β)) : ℕ → α → Outcome ε β
  | 0, _ => .outOfFuel
  | fuel + 1, state =>
      (body state).bind fun
        | .again next => run body fuel next
        | .done result => .ok result

/-- `Reaches body start state`: some number of iterations lead from `start`
to `state`, all of them continuing. -/
inductive Reaches (body : α → Outcome ε (Step α β)) (start : α) : α → Prop
  | refl : Reaches body start start
  | tail {state next : α} :
      Reaches body start state → body state = .ok (.again next) →
        Reaches body start next

variable {body : α → Outcome ε (Step α β)}

@[simp]
theorem run_zero (state : α) : run body 0 state = .outOfFuel := rfl

theorem run_succ_of_again {fuel : ℕ} {state next : α}
    (hbody : body state = .ok (.again next)) :
    run body (fuel + 1) state = run body fuel next := by
  rw [run, hbody, Outcome.ok_bind]

theorem run_succ_of_done {fuel : ℕ} {state : α} {result : β}
    (hbody : body state = .ok (.done result)) :
    run body (fuel + 1) state = .ok result := by
  rw [run, hbody, Outcome.ok_bind]

theorem run_succ_of_fault {fuel : ℕ} {state : α} {error : ε}
    (hbody : body state = .fault error) :
    run body (fuel + 1) state = .fault error := by
  rw [run, hbody, Outcome.fault_bind]

/-- A run that returns ends with the first iteration or goes on from it. -/
theorem run_ok_cases {fuel : ℕ} {state : α} {result : β}
    (hrun : run body fuel state = .ok result) :
    body state = .ok (.done result) ∨
      ∃ next rest, body state = .ok (.again next) ∧
        run body rest next = .ok result := by
  cases fuel with
  | zero => simp at hrun
  | succ fuel =>
      obtain ⟨step, hbody, hrest⟩ := Outcome.bind_eq_ok_iff.mp hrun
      cases step with
      | again next => exact Or.inr ⟨next, fuel, hbody, hrest⟩
      | done value =>
          obtain rfl : value = result := by simpa using hrest
          exact Or.inl hbody

/-- Partial correctness: an invariant of the continuing iterations gives the
postcondition of the breaking one to every result. -/
theorem run_ok_of_invariant {Inv : α → Prop} {Post : β → Prop}
    (hagain : ∀ state next, Inv state → body state = .ok (.again next) →
      Inv next)
    (hdone : ∀ state result, Inv state → body state = .ok (.done result) →
      Post result)
    {fuel : ℕ} {state : α} {result : β} (hinv : Inv state)
    (hrun : run body fuel state = .ok result) : Post result := by
  induction fuel generalizing state with
  | zero => simp at hrun
  | succ fuel ih =>
      rw [run, Outcome.bind_eq_ok_iff] at hrun
      obtain ⟨step, hbody, hrest⟩ := hrun
      cases step with
      | again next => exact ih (hagain state next hinv hbody) hrest
      | done value =>
          obtain rfl : value = result := by simpa using hrest
          exact hdone state value hinv hbody

/-- Safety: a fault that no invariant state raises is not raised by a run. -/
theorem run_ne_fault_of_invariant {Inv : α → Prop} {error : ε}
    (hagain : ∀ state next, Inv state → body state = .ok (.again next) →
      Inv next)
    (hsafe : ∀ state, Inv state → body state ≠ .fault error)
    {fuel : ℕ} {state : α} (hinv : Inv state) :
    run body fuel state ≠ .fault error := by
  induction fuel generalizing state with
  | zero => simp
  | succ fuel ih =>
      intro hrun
      rw [run, Outcome.bind_eq_fault_iff] at hrun
      obtain hbody | ⟨step, hbody, hrest⟩ := hrun
      · exact hsafe state hinv hbody
      · cases step with
        | again next => exact ih (hagain state next hinv hbody) hrest
        | done value => simp at hrest

/-- What a body does to an invariant state: it continues with another one or
breaks with the postcondition. -/
def Step.Meets (Inv : α → Prop) (Post : β → Prop) : Step α β → Prop
  | .again next => Inv next
  | .done result => Post result

/-- Partial correctness and safety in one: the postcondition of a body gives
the one of the loop. -/
theorem run_meets_of_invariant {Inv : α → Prop} {Post : β → Prop}
    {allowed : ε → Prop}
    (hbody : ∀ state, Inv state →
      (body state).Meets (Step.Meets Inv Post) allowed)
    (fuel : ℕ) {state : α} (hinv : Inv state) :
    (run body fuel state).Meets Post allowed := by
  induction fuel generalizing state with
  | zero => trivial
  | succ fuel ih =>
      apply (hbody state hinv).bind
      intro step hstep
      cases step with
      | again next => exact ih hstep
      | done result => exact hstep

/-- Total correctness: if each iteration breaks with the postcondition or
continues below a natural number that bounds it, more iterations than that
number suffice. -/
theorem run_returns_within {Inv : ℕ → α → Prop} {Post : β → Prop}
    (hbody : ∀ bound state, Inv bound state →
      (∃ result, body state = .ok (.done result) ∧ Post result) ∨
        ∃ next smaller, body state = .ok (.again next) ∧ smaller < bound ∧
          Inv smaller next)
    {bound fuel : ℕ} (hfuel : bound < fuel) {state : α}
    (hinv : Inv bound state) :
    ∃ result, run body fuel state = .ok result ∧ Post result := by
  induction fuel generalizing bound state with
  | zero => simp at hfuel
  | succ fuel ih =>
      rcases hbody bound state hinv with
        ⟨result, hdone, hpost⟩ | ⟨next, smaller, hagain, hlt, hnext⟩
      · exact ⟨result, run_succ_of_done hdone, hpost⟩
      · rw [run_succ_of_again hagain]
        exact ih (by omega) hnext

/-- Total correctness, for some number of iterations. -/
theorem run_returns_of_variant {Inv : ℕ → α → Prop} {Post : β → Prop}
    (hbody : ∀ bound state, Inv bound state →
      (∃ result, body state = .ok (.done result) ∧ Post result) ∨
        ∃ next smaller, body state = .ok (.again next) ∧ smaller < bound ∧
          Inv smaller next)
    {bound : ℕ} {state : α} (hinv : Inv bound state) :
    ∃ fuel result, run body fuel state = .ok result ∧ Post result :=
  ⟨bound + 1, run_returns_within hbody (Nat.lt_succ_self bound) hinv⟩

/-- Divergence: a loop that continues from every invariant state to another one
never returns. -/
theorem run_outOfFuel_of_invariant {Inv : α → Prop}
    (hagain : ∀ state, Inv state →
      ∃ next, body state = .ok (.again next) ∧ Inv next)
    (fuel : ℕ) {state : α} (hinv : Inv state) :
    run body fuel state = .outOfFuel := by
  induction fuel generalizing state with
  | zero => rfl
  | succ fuel ih =>
      obtain ⟨next, hbody, hnext⟩ := hagain state hinv
      rw [run_succ_of_again hbody, ih hnext]

theorem Reaches.head {start next state : α}
    (hbody : body start = .ok (.again next))
    (hreach : Reaches body next state) : Reaches body start state := by
  induction hreach with
  | refl => exact .tail .refl hbody
  | tail _ hlast ih => exact .tail ih hlast

/-- An invariant of the continuing iterations holds in every state reached. -/
theorem Reaches.invariant {Inv : α → Prop}
    (hagain : ∀ state next, Inv state → body state = .ok (.again next) →
      Inv next)
    {start state : α} (hreach : Reaches body start state) (hinv : Inv start) :
    Inv state := by
  induction hreach with
  | refl => exact hinv
  | tail _ hbody ih => exact hagain _ _ ih hbody

/-- A run that returns goes through every state the loop reaches. -/
theorem Reaches.run_ok {start state : α} (hreach : Reaches body start state)
    {fuel : ℕ} {result : β} (hrun : run body fuel start = .ok result) :
    ∃ rest, run body rest state = .ok result := by
  induction hreach with
  | refl => exact ⟨fuel, hrun⟩
  | tail _ hbody ih =>
      obtain ⟨rest, hrest⟩ := ih
      cases rest with
      | zero => simp at hrest
      | succ rest => exact ⟨rest, by rwa [run_succ_of_again hbody] at hrest⟩

/-- A loop that reaches a state from which it never returns never returns. -/
theorem Reaches.run_outOfFuel {start state : α}
    (hreach : Reaches body start state)
    (hstuck : ∀ fuel, run body fuel state = .outOfFuel) (fuel : ℕ) :
    run body fuel start = .outOfFuel := by
  induction hreach generalizing fuel with
  | refl => exact hstuck fuel
  | tail _ hbody ih =>
      refine ih (fun fuel => ?_) fuel
      cases fuel with
      | zero => rfl
      | succ fuel => rw [run_succ_of_again hbody, hstuck fuel]

end ParseBgp.Loop
