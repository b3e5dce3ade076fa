import ParseBgp.Core.Ownership

/-!
# Handles on C objects

`Message`, `Options`, `GzipStream` and `Bzip2Stream` own a C object through the
pointer of their base class `CPtrView`.  Their constructors create the object,
their destructors release it, and their move operations are those of
`CPtrView`.  A program is a sequence of such operations on variables of one
handle type.
-/

namespace ParseBgp.Utils

/-- `cptr_`; the C objects are numbered in the order of their creation, and a
null pointer is `none`. -/
structure CPtrView where
  cptr : Option ℕ
  deriving DecidableEq, Repr

/-- The variables that are alive, the number of objects created and the objects
passed to the release function so far. -/
structure Program (V : Type) where
  handles : V → Option CPtrView
  created : ℕ
  released : List ℕ

/-- The operations on variables of one owning handle type. -/
inductive HandleOp (V : Type) where
  | construct (self : V)
  | moveConstruct (self other : V)
  | moveAssign (self other : V)
  | destroy (self : V)
  deriving DecidableEq, Repr

namespace Program

variable {V : Type}

def start : Program V where
  handles _ := none
  created := 0
  released := []

section Steps

variable [DecidableEq V]

/-- `cptr_ = other.cptr_; other.cptr_ = nullptr`; the second assignment comes
last also when both sides are the same variable. -/
def movePointer (program : Program V) (self other : V) (view : CPtrView) :
    Program V :=
  { program with
    handles := Function.update
      (Function.update program.handles self (some view)) other
        (some ⟨none⟩) }

/-- One operation; `none` when it names a variable that is not alive, or
constructs one that is. -/
def step (program : Program V) : HandleOp V → Option (Program V)
  | .construct self =>
      match program.handles self with
      | some _ => none
      | none => some
          { program with
            handles := Function.update program.handles self
              (some ⟨some program.created⟩)
            created := program.created + 1 }
  | .moveConstruct self other =>
      match program.handles self, program.handles other with
      | none, some view => some (program.movePointer self other view)
      | _, _ => none
  | .moveAssign self other =>
      match program.handles self, program.handles other with
      | some _, some view => some (program.movePointer self other view)
      | _, _ => none
  | .destroy self =>
      match program.handles self with
      | none => none
      | some view => some
          { program with
            handles := Function.update program.handles self none
            -- releasing a null pointer does nothing
            released := program.released ++ view.cptr.toList }

/-- A sequence of operations. -/
def run : List (HandleOp V) → Program V → Option (Program V)
  | [], program => some program
  | op :: rest, program => (program.step op).bind (run rest)

end Steps

/-! ## The ledger of a program -/

/-- Which variable holds which object, forgetting which variables are alive. -/
def ledger (program : Program V) : Ledger V where
  holds self := (program.handles self).bind CPtrView.cptr
  acquired := program.created
  released := program.released

variable [DecidableEq V] {program next : Program V} {self other : V}

theorem run_append (before rest : List (HandleOp V)) (program : Program V) :
    run (before ++ rest) program = (run before program).bind (run rest) := by
  induction before generalizing program with
  | nil => rfl
  | cons op before ih =>
      rw [List.cons_append, run, run, Option.bind_assoc]
      congr 1
      funext next
      exact ih next

theorem ledger_movePointer {view : CPtrView}
    (hother : program.handles other = some view) :
    (program.movePointer self other view).ledger =
      (program.ledger.forget self).transfer self other := by
  have hholds : (fun holder =>
      ((program.movePointer self other view).handles holder).bind
        CPtrView.cptr) =
      ((program.ledger.forget self).transfer self other).holds := by
    funext holder
    by_cases hsource : holder = other
    · subst hsource
      simp [movePointer, Ledger.transfer]
    by_cases htarget : holder = self
    · subst htarget
      simp [movePointer, Ledger.transfer, Ledger.forget, ledger, hsource,
        Ne.symm hsource, hother]
    · simp [movePointer, Ledger.transfer, Ledger.forget, ledger, hsource,
        htarget]
  rw [ledger, hholds]
  rfl

theorem ledger_construct (hself : program.handles self = none)
    (hstep : program.step (.construct self) = some next) :
    next.ledger = program.ledger.acquire self := by
  simp only [step, hself, Option.some.injEq] at hstep
  subst hstep
  simp only [ledger, Ledger.acquire, Ledger.mk.injEq, and_true]
  funext holder
  by_cases htarget : holder = self <;> simp [htarget]

theorem ledger_destroy {view : CPtrView}
    (hself : program.handles self = some view)
    (hstep : program.step (.destroy self) = some next) :
    next.ledger = program.ledger.release self := by
  simp only [step, hself, Option.some.injEq] at hstep
  subst hstep
  simp only [ledger, Ledger.release, hself, Option.bind_some, Ledger.mk.injEq,
    and_true]
  funext holder
  by_cases htarget : holder = self <;> simp [htarget]

/-- What one operation does to the ledger.  A variable can only lose an object
as the target of a move assignment. -/
theorem step_ledger {op : HandleOp V} (hstep : program.step op = some next) :
    (∃ self, program.ledger.holds self = none ∧
      next.ledger = program.ledger.acquire self) ∨
    (∃ self other,
      (op = .moveAssign self other ∨ program.ledger.holds self = none) ∧
        next.ledger =
          (program.ledger.forget self).transfer self other) ∨
    (∃ self, next.ledger = program.ledger.release self) := by
  cases op with
  | construct self =>
      cases hself : program.handles self with
      | some view => simp [step, hself] at hstep
      | none =>
          exact Or.inl ⟨self, by simp [ledger, hself],
            ledger_construct hself hstep⟩
  | moveConstruct self other =>
      cases hself : program.handles self with
      | some view => simp [step, hself] at hstep
      | none =>
          cases hother : program.handles other with
          | none => simp [step, hself, hother] at hstep
          | some view =>
              simp only [step, hself, hother, Option.some.injEq] at hstep
              subst hstep
              exact Or.inr (Or.inl ⟨self, other,
                Or.inr (by simp [ledger, hself]), ledger_movePointer hother⟩)
  | moveAssign self other =>
      cases hself : program.handles self with
      | none => simp [step, hself] at hstep
      | some current =>
          cases hother : program.handles other with
          | none => simp [step, hself, hother] at hstep
          | some view =>
              simp only [step, hself, hother, Option.some.injEq] at hstep
              subst hstep
              exact Or.inr (Or.inl ⟨self, other, Or.inl rfl,
                ledger_movePointer hother⟩)
  | destroy self =>
      cases hself : program.handles self with
      | none => simp [step, hself] at hstep
      | some view => exact Or.inr (Or.inr ⟨self, ledger_destroy hself hstep⟩)

/-! ## Runs -/

theorem step_sole {op : HandleOp V} (hsole : program.ledger.Sole)
    (hstep : program.step op = some next) : next.ledger.Sole := by
  rcases step_ledger hstep with
    ⟨self, hfree, hnext⟩ | ⟨self, other, -, hnext⟩ | ⟨self, hnext⟩
  · rw [hnext]
    exact hsole.acquire hfree
  · rw [hnext]
    exact (hsole.forget self).transfer Ledger.forget_holds_self other
  · rw [hnext]
    exact hsole.release self

theorem step_lost {op : HandleOp V} {resource : ℕ}
    (hlost : program.ledger.Lost resource)
    (hstep : program.step op = some next) : next.ledger.Lost resource := by
  rcases step_ledger hstep with
    ⟨self, hfree, hnext⟩ | ⟨self, other, -, hnext⟩ | ⟨self, hnext⟩
  · rw [hnext]
    exact hlost.acquire hfree
  · rw [hnext]
    exact (hlost.forget self).transfer Ledger.forget_holds_self other
  · rw [hnext]
    exact hlost.release self

theorem step_complete {op : HandleOp V} (hcomplete : program.ledger.Complete)
    (hkeeps : ∀ self other, op = .moveAssign self other →
      program.ledger.holds self = none)
    (hstep : program.step op = some next) : next.ledger.Complete := by
  rcases step_ledger hstep with
    ⟨self, hfree, hnext⟩ | ⟨self, other, hmove, hnext⟩ | ⟨self, hnext⟩
  · rw [hnext]
    exact hcomplete.acquire hfree
  · have hfree : program.ledger.holds self = none := by
      rcases hmove with hassign | hfree
      · exact hkeeps self other hassign
      · exact hfree
    rw [hnext]
    exact (hcomplete.forget hfree).transfer Ledger.forget_holds_self other
  · rw [hnext]
    exact hcomplete.release self

theorem run_invariant {Inv : Program V → Prop}
    (hkept : ∀ program next op, Inv program → step program op = some next →
      Inv next)
    {ops : List (HandleOp V)} (hinv : Inv program)
    (hrun : run ops program = some next) : Inv next := by
  induction ops generalizing program with
  | nil =>
      obtain rfl := Option.some.inj hrun
      exact hinv
  | cons op rest ih =>
      obtain ⟨middle, hstep, hrest⟩ := Option.bind_eq_some_iff.mp hrun
      exact ih (hkept program middle op hinv hstep) hrest

theorem run_sole {ops : List (HandleOp V)} (hsole : program.ledger.Sole)
    (hrun : run ops program = some next) : next.ledger.Sole :=
  run_invariant (fun _ _ _ => step_sole) hsole hrun

theorem run_lost {ops : List (HandleOp V)} {resource : ℕ}
    (hlost : program.ledger.Lost resource)
    (hrun : run ops program = some next) : next.ledger.Lost resource :=
  run_invariant (fun _ _ _ => step_lost) hlost hrun

/-- No move assignment of the run has a target that holds an object at that
moment. -/
def NoOverwrite (program : Program V) (ops : List (HandleOp V)) : Prop :=
  ∀ before self other rest, before ++ .moveAssign self other :: rest = ops →
    ∀ middle, run before program = some middle →
      ∀ view, middle.handles self = some view → view.cptr = none

theorem NoOverwrite.head {op : HandleOp V} {rest : List (HandleOp V)}
    (hno : NoOverwrite program (op :: rest)) :
    ∀ self other, op = .moveAssign self other →
      program.ledger.holds self = none := by
  rintro self other rfl
  cases hself : program.handles self with
  | none => simp [ledger, hself]
  | some view =>
      have hnull := hno [] self other rest rfl program rfl view hself
      simp [ledger, hself, hnull]

theorem NoOverwrite.tail {op : HandleOp V} {rest : List (HandleOp V)}
    (hno : NoOverwrite program (op :: rest))
    (hstep : program.step op = some next) : NoOverwrite next rest := by
  intro before self other last hsplit middle hmiddle
  apply hno (op :: before) self other last (by rw [List.cons_append, hsplit])
  rw [run, hstep, Option.bind_some, hmiddle]

theorem NoOverwrite.nil : NoOverwrite program [] := by
  intro before self other rest hsplit
  simp at hsplit

theorem NoOverwrite.cons {op : HandleOp V} {rest : List (HandleOp V)}
    (hkeeps : ∀ self other, op = .moveAssign self other →
      program.ledger.holds self = none)
    (hstep : program.step op = some next) (hno : NoOverwrite next rest) :
    NoOverwrite program (op :: rest) := by
  intro before self other last hsplit middle hmiddle view hself
  cases before with
  | nil =>
      obtain ⟨rfl, rfl⟩ := List.cons.inj hsplit
      obtain rfl := Option.some.inj hmiddle
      simpa [ledger, hself] using hkeeps self other rfl
  | cons first before =>
      rw [List.cons_append] at hsplit
      obtain ⟨rfl, rfl⟩ := List.cons.inj hsplit
      rw [run, hstep, Option.bind_some] at hmiddle
      exact hno before self other last rfl middle hmiddle view hself

theorem run_complete {ops : List (HandleOp V)}
    (hcomplete : program.ledger.Complete) (hno : NoOverwrite program ops)
    (hrun : run ops program = some next) : next.ledger.Complete := by
  induction ops generalizing program with
  | nil =>
      obtain rfl := Option.some.inj hrun
      exact hcomplete
  | cons op rest ih =>
      obtain ⟨middle, hstep, hrest⟩ := Option.bind_eq_some_iff.mp hrun
      exact ih (step_complete hcomplete hno.head hstep) (hno.tail hstep) hrest

/-! ## Every object is released exactly once -/

/-- The promise of the owning handles: in the run of `ops` that ends in `final`
every created object was released exactly once, and none was released while
another variable held it. -/
structure ReleasedOnce (ops : List (HandleOp V)) (final : Program V) :
    Prop where
  once : ∀ object < final.created, final.released.count object = 1
  not_held : ∀ before self rest, before ++ .destroy self :: rest = ops →
    ∀ middle, run before start = some middle →
      ∀ object, middle.handles self = some ⟨some object⟩ →
        ∀ other, other ≠ self → middle.handles other ≠ some ⟨some object⟩

omit [DecidableEq V] in
theorem start_sole : (start : Program V).ledger.Sole :=
  Ledger.empty_sole

omit [DecidableEq V] in
theorem start_complete : (start : Program V).ledger.Complete :=
  Ledger.empty_complete

/-- The target of a move assignment forgets its object, which nobody holds from
then on. -/
theorem moveAssign_lost {object : ℕ} (hsole : program.ledger.Sole)
    (hholds : program.ledger.holds self = some object)
    (hstep : program.step (.moveAssign self other) = some next) :
    next.ledger.Lost object := by
  cases hself : program.handles self with
  | none => simp [step, hself] at hstep
  | some current =>
      cases hother : program.handles other with
      | none => simp [step, hself, hother] at hstep
      | some view =>
          have hnext : program.movePointer self other view = next := by
            simpa [step, hself, hother] using hstep
          rw [← hnext, ledger_movePointer hother]
          exact (hsole.lost_forget hholds).transfer Ledger.forget_holds_self
            other

/-- In a run that destroys all its variables, every object is released exactly
once if and only if no move assignment overwrites a handle that owns one. -/
theorem releasedOnce_iff_noOverwrite (ops : List (HandleOp V))
    (final : Program V) (hrun : run ops start = some final)
    (hdestroyed : ∀ self, final.handles self = none) :
    ReleasedOnce ops final ↔ NoOverwrite start ops := by
  constructor
  · intro honce before self other rest hsplit middle hmiddle view hself
    by_contra hnull
    obtain ⟨object, hobject⟩ := Option.ne_none_iff_exists'.mp hnull
    have hholds : middle.ledger.holds self = some object := by
      simp [ledger, hself, hobject]
    have hsole := run_sole start_sole hmiddle
    rw [← hsplit, run_append, hmiddle, Option.bind_some] at hrun
    obtain ⟨next, hstep, hrest⟩ := Option.bind_eq_some_iff.mp hrun
    have hlost := moveAssign_lost hsole hholds hstep
    have hfinal := run_lost hlost hrest
    have hzero : final.released.count object = 0 := hfinal.count_released
    rw [honce.once object hfinal.lt_acquired] at hzero
    simp at hzero
  · intro hno
    have hsole := run_sole start_sole hrun
    have hcomplete := run_complete start_complete hno hrun
    have hnone : ∀ holder, final.ledger.holds holder = none := by
      intro holder
      simp [ledger, hdestroyed holder]
    refine ⟨?_, ?_⟩
    · intro object hobject
      exact hsole.count_released hcomplete hnone hobject
    · intro before self rest hsplit middle hmiddle object hself other hne hother
      have hmiddle' := run_sole start_sole hmiddle
      have hheld : middle.ledger.holds self = some object := by
        simp [ledger, hself]
      have hheld' : middle.ledger.holds other = some object := by
        simp [ledger, hother]
      exact hne (hmiddle'.holder_eq hheld' hheld)

/-- An object that moves from one variable to another and back is released
once. -/
theorem releasedOnce_iff_noOverwrite_moves :
    ∃ final, run [.construct true, .moveConstruct false true,
        .moveAssign true false, .destroy false, .destroy true] start =
          some final ∧
      ReleasedOnce [.construct true, .moveConstruct false true,
        .moveAssign true false, .destroy false, .destroy true] final := by
  refine ⟨_, rfl, (releasedOnce_iff_noOverwrite _ _ rfl (by decide)).mpr ?_⟩
  refine .cons (by simp) rfl (.cons (by simp) rfl (.cons ?_ rfl
    (.cons (by simp) rfl (.cons (by simp) rfl .nil))))
  -- at the assignment the object is with the other variable
  rintro self other ⟨⟩
  rfl

/-- Assigning to a handle that owns an object loses that object, and so does
assigning a handle to itself. -/
theorem not_releasedOnce_overwrite :
    (∃ final, run [.construct true, .construct false, .moveAssign true false,
        .destroy true, .destroy false] start = some final ∧
      (∀ self, final.handles self = none) ∧
      ¬ ReleasedOnce [.construct true, .construct false,
        .moveAssign true false, .destroy true, .destroy false] final) ∧
    (∃ final, run [.construct true, .moveAssign true true,
        .destroy true] start = some final ∧
      (∀ self, final.handles self = none) ∧
      ¬ ReleasedOnce [.construct true, .moveAssign true true,
        .destroy true] final) := by
  refine ⟨⟨_, rfl, by decide, ?_⟩, ⟨_, rfl, by decide, ?_⟩⟩
  · intro honce
    exact absurd (honce.once 0 (by decide)) (by decide)
  · intro honce
    exact absurd (honce.once 0 (by decide)) (by decide)

end Program

end ParseBgp.Utils
