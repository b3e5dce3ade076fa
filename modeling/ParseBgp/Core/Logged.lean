import ParseBgp.Core.Loop

/-!
# Computations that log what they do

A `Logged` computation keeps the events that happen in it, in their order, also
when it stops at a fault.  Its outcome is that of the computation without the
log, and the events of a loop are those of the states that the loop reaches.
-/

namespace ParseBgp.Loop

/-- The events of a computation up to its end or its fault, and its outcome. -/
structure Logged (κ ε α : Type*) where
  events : List κ
  outcome : Outcome ε α

namespace Logged

variable {κ ε α β : Type*}

/-- A computation in which nothing is logged. -/
def silent (outcome : Outcome ε α) : Logged κ ε α where
  events := []
  outcome := outcome

/-- A computation that is itself one event. -/
def record (event : κ) (outcome : Outcome ε α) : Logged κ ε α where
  events := [event]
  outcome := outcome

def bind (first : Logged κ ε α) (next : α → Logged κ ε β) : Logged κ ε β :=
  match first.outcome with
  | .ok value => ⟨first.events ++ (next value).events, (next value).outcome⟩
  | .fault error => ⟨first.events, .fault error⟩
  | .outOfFuel => ⟨first.events, .outOfFuel⟩

/-- `while (true)` around a body that logs. -/
def run (body : α → Logged κ ε (Step α β)) : ℕ → α → Logged κ ε β
  | 0, _ => silent .outOfFuel
  | fuel + 1, state =>
      (body state).bind fun
        | .again next => run body fuel next
        | .done result => silent (.ok result)

@[simp]
theorem outcome_silent (outcome : Outcome ε α) :
    (silent outcome : Logged κ ε α).outcome = outcome := rfl

@[simp]
theorem events_silent (outcome : Outcome ε α) :
    (silent outcome : Logged κ ε α).events = [] := rfl

@[simp]
theorem outcome_record (event : κ) (outcome : Outcome ε α) :
    (record event outcome).outcome = outcome := rfl

@[simp]
theorem events_record (event : κ) (outcome : Outcome ε α) :
    (record event outcome).events = [event] := rfl

@[simp]
theorem outcome_bind (first : Logged κ ε α) (next : α → Logged κ ε β) :
    (first.bind next).outcome =
      first.outcome.bind fun value => (next value).outcome := by
  unfold bind
  cases first.outcome <;> rfl

@[simp]
theorem mem_events_bind {first : Logged κ ε α} {next : α → Logged κ ε β}
    {event : κ} :
    event ∈ (first.bind next).events ↔
      event ∈ first.events ∨
        ∃ value, first.outcome = .ok value ∧ event ∈ (next value).events := by
  unfold bind
  cases first.outcome <;> simp

theorem mem_events_bind_of_ok {first : Logged κ ε α}
    {next : α → Logged κ ε β} {value : α} {event : κ}
    (hfirst : first.outcome = .ok value) :
    event ∈ (first.bind next).events ↔
      event ∈ first.events ∨ event ∈ (next value).events := by
  simp [hfirst]

theorem silent_ok_bind (value : α) (next : α → Logged κ ε β) :
    (silent (.ok value)).bind next = next value := rfl

/-- A computation that goes on without logging has logged all its events. -/
theorem events_bind_silent (first : Logged κ ε α) (next : α → Outcome ε β) :
    (first.bind fun value => silent (next value)).events = first.events := by
  unfold bind
  cases first.outcome <;> simp

/-! ## Loops -/

variable {body : α → Logged κ ε (Step α β)} {event : κ}

/-- Logging does not change what a loop returns. -/
theorem outcome_run (fuel : ℕ) (state : α) :
    (run body fuel state).outcome =
      Loop.run (fun state => (body state).outcome) fuel state := by
  induction fuel generalizing state with
  | zero => rfl
  | succ fuel ih =>
      rw [run, outcome_bind, Loop.run]
      congr 1
      funext step
      cases step with
      | again next => exact ih next
      | done result => rfl

theorem mem_events_run_of_again {fuel : ℕ} {state next : α}
    (hbody : (body state).outcome = .ok (.again next))
    (hevent : event ∈ (run body fuel next).events) :
    event ∈ (run body (fuel + 1) state).events := by
  rw [run, mem_events_bind]
  exact Or.inr ⟨.again next, hbody, hevent⟩

theorem exists_mem_events_run_of_reaches {start state : α}
    (hreaches : Reaches (fun state => (body state).outcome) start state)
    {fuel : ℕ} (hevent : event ∈ (run body fuel state).events) :
    ∃ more, event ∈ (run body more start).events := by
  induction hreaches generalizing fuel with
  | refl => exact ⟨fuel, hevent⟩
  | tail _ hbody ih => exact ih (mem_events_run_of_again hbody hevent)

theorem exists_reaches_of_mem_events_run {fuel : ℕ} {start : α}
    (hevent : event ∈ (run body fuel start).events) :
    ∃ state, Reaches (fun state => (body state).outcome) start state ∧
      event ∈ (body state).events := by
  induction fuel generalizing start with
  | zero => simp [run] at hevent
  | succ fuel ih =>
      rw [run, mem_events_bind] at hevent
      obtain hbody | ⟨step, hstep, hrest⟩ := hevent
      · exact ⟨start, .refl, hbody⟩
      · cases step with
        | done result => simp at hrest
        | again next =>
            obtain ⟨state, hreaches, hstate⟩ := ih hrest
            exact ⟨state, hreaches.head hstep, hstate⟩

/-- The events of a loop are those of its body in the states it reaches. -/
theorem exists_mem_events_run_iff {start : α} :
    (∃ fuel, event ∈ (run body fuel start).events) ↔
      ∃ state, Reaches (fun state => (body state).outcome) start state ∧
        event ∈ (body state).events := by
  constructor
  · rintro ⟨fuel, hevent⟩
    exact exists_reaches_of_mem_events_run hevent
  · rintro ⟨state, hreaches, hstate⟩
    have hone : event ∈ (run body 1 state).events := by
      rw [run, mem_events_bind]
      exact Or.inl hstate
    exact exists_mem_events_run_of_reaches hreaches hone

end Logged

end ParseBgp.Loop
