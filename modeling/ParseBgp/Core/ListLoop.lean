import ParseBgp.Core.Loop

/-!
# Loops over lists

A range-based for loop runs its body on one item after the other; the body may
break, and it may fault.  `forList` is this loop over a list.  Loops over other
sources are compared with it through `Outcome.Rel`: both fault alike, or both
return related results.
-/

namespace ParseBgp.Loop

variable {ε ε' α β M S : Type*}

namespace Outcome

/-- The outcome of a call with its faults seen by a caller. -/
def mapFault (seen : ε → ε') : Outcome ε α → Outcome ε' α
  | ok value => ok value
  | fault error => fault (seen error)
  | outOfFuel => outOfFuel

@[simp]
theorem ok_mapFault (seen : ε → ε') (value : α) :
    (ok value : Outcome ε α).mapFault seen = ok value := rfl

@[simp]
theorem fault_mapFault (seen : ε → ε') (error : ε) :
    (fault error : Outcome ε α).mapFault seen = fault (seen error) := rfl

@[simp]
theorem outOfFuel_mapFault (seen : ε → ε') :
    (outOfFuel : Outcome ε α).mapFault seen = outOfFuel := rfl

/-- Two outcomes with the same fault, or with related values. -/
inductive Rel (R : α → β → Prop) : Outcome ε α → Outcome ε β → Prop
  | ok {left : α} {right : β} : R left right → Rel R (ok left) (ok right)
  | fault (error : ε) : Rel R (fault error) (fault error)
  | outOfFuel : Rel R outOfFuel outOfFuel

namespace Rel

variable {γ δ : Type*} {R : α → β → Prop} {R' : γ → δ → Prop}
variable {left : Outcome ε α} {right : Outcome ε β}

theorem bind {next : α → Outcome ε γ} {next' : β → Outcome ε δ}
    (hrel : Rel R left right)
    (hnext : ∀ value value', R value value' →
      Rel R' (next value) (next' value')) :
    Rel R' (left.bind next) (right.bind next') := by
  cases hrel with
  | ok hvalues => exact hnext _ _ hvalues
  | fault error => exact .fault error
  | outOfFuel => exact .outOfFuel

/-- An outcome with the values of another one, changed by a function. -/
theorem eq_bind {change : β → α}
    (hrel : Rel (fun value value' => value = change value') left right) :
    left = right.bind fun value' => .ok (change value') := by
  cases hrel with
  | ok hvalues => exact congrArg Outcome.ok hvalues
  | fault error => rfl
  | outOfFuel => rfl

theorem mono {weaker : α → β → Prop} (hrel : Rel R left right)
    (himp : ∀ value value', R value value' → weaker value value') :
    Rel weaker left right := by
  cases hrel with
  | ok hvalues => exact .ok (himp _ _ hvalues)
  | fault error => exact .fault error
  | outOfFuel => exact .outOfFuel

theorem refl {R : α → α → Prop} (hrefl : ∀ value, R value value)
    (outcome : Outcome ε α) : Rel R outcome outcome := by
  cases outcome with
  | ok value => exact .ok (hrefl value)
  | fault error => exact .fault error
  | outOfFuel => exact .outOfFuel

theorem and_right {P : β → Prop} (hrel : Rel R left right)
    (hright : ∀ value', right = .ok value' → P value') :
    Rel (fun value value' => R value value' ∧ P value') left right := by
  cases hrel with
  | ok hvalues => exact .ok ⟨hvalues, hright _ rfl⟩
  | fault error => exact .fault error
  | outOfFuel => exact .outOfFuel

theorem eq_fault {error : ε}
    (hrel : Rel R left (Outcome.fault error)) : left = Outcome.fault error := by
  cases hrel
  rfl

end Rel

end Outcome

/-- What the body of a loop over items decides: to go on, or to break. -/
inductive Flow (S : Type*) where
  | next (state : S)
  | leave (state : S)
  deriving DecidableEq, Repr

/-- A loop over a list: the state afterwards and the items that are left, from
the one on at which it broke. -/
def forList (body : S → M → Outcome ε (Flow S)) :
    List M → S → Outcome ε (S × List M)
  | [], state => .ok (state, [])
  | item :: rest, state =>
      (body state item).bind fun
        | .next state => forList body rest state
        | .leave state => .ok (state, item :: rest)

/-- Several loops in a row over one list, each from where the one before it
stopped. -/
def forListAll :
    List (S → M → Outcome ε (Flow S)) → List M → S → Outcome ε (S × List M)
  | [], items, state => .ok (state, items)
  | body :: rest, items, state =>
      (forList body items state).bind fun (state, left) =>
        forListAll rest left state

/-- The lists produced for each item, one after the other. -/
def collect {P : Type*} (produce : M → Outcome ε (List P)) :
    List M → Outcome ε (List P)
  | [] => .ok []
  | item :: rest =>
      (produce item).bind fun first =>
        (collect produce rest).bind fun more => .ok (first ++ more)

/-- A loop whose body appends to its state collects what it appends. -/
theorem forList_collect {P : Type*} {produce : M → Outcome ε (List P)}
    {body : List P → M → Outcome ε (Flow (List P))}
    (hbody : ∀ out item, body out item =
      (produce item).bind fun more => .ok (.next (out ++ more)))
    (items : List M) (out : List P) :
    forList body items out =
      (collect produce items).bind fun more => .ok (out ++ more, []) := by
  induction items generalizing out with
  | nil => simp [forList, collect]
  | cons item rest ih =>
      rw [forList, collect, hbody, Outcome.bind_assoc, Outcome.bind_assoc]
      congr 1
      funext first
      simp only [Outcome.ok_bind, ih, Outcome.bind_assoc, List.append_assoc]

theorem collect_ok {P : Type*} (produce : M → List P) (items : List M) :
    collect (ε := ε) (fun item => .ok (produce item)) items =
      .ok (items.flatMap produce) := by
  induction items with
  | nil => rfl
  | cons item rest ih =>
      rw [collect, Outcome.ok_bind, ih, Outcome.ok_bind, List.flatMap_cons]

theorem collect_map {P N : Type*} (produce : M → Outcome ε (List P))
    (item : N → M) (items : List N) :
    collect produce (items.map item) =
      collect (fun value => produce (item value)) items := by
  induction items with
  | nil => rfl
  | cons value rest ih => rw [List.map_cons, collect, collect, ih]

/-- Nothing goes wrong exactly if nothing goes wrong for any item. -/
theorem exists_collect_eq_ok_iff {P : Type*}
    {produce : M → Outcome ε (List P)} {items : List M} :
    (∃ out, collect produce items = .ok out) ↔
      ∀ item ∈ items, ∃ out, produce item = .ok out := by
  induction items with
  | nil => simp [collect]
  | cons item rest ih =>
      rw [List.forall_mem_cons, ← ih, collect]
      constructor
      · rintro ⟨out, hout⟩
        obtain ⟨first, hfirst, hrest⟩ := Outcome.bind_eq_ok_iff.mp hout
        obtain ⟨more, hmore, -⟩ := Outcome.bind_eq_ok_iff.mp hrest
        exact ⟨⟨first, hfirst⟩, more, hmore⟩
      · rintro ⟨⟨first, hfirst⟩, more, hmore⟩
        exact ⟨first ++ more, by rw [hfirst, Outcome.ok_bind, hmore,
          Outcome.ok_bind]⟩

/-- A loop breaks at one of its items or goes through all of them. -/
theorem forList_suffix {body : S → M → Outcome ε (Flow S)} {items left : List M}
    {state after : S} (hloop : forList body items state = .ok (after, left)) :
    left <:+ items := by
  induction items generalizing state with
  | nil =>
      obtain ⟨-, rfl⟩ := Prod.mk.inj (Outcome.ok.inj hloop)
      exact List.suffix_refl _
  | cons item rest ih =>
      obtain ⟨flow, -, hrest⟩ := Outcome.bind_eq_ok_iff.mp hloop
      cases flow with
      | next state => exact (ih hrest).trans (List.suffix_cons _ _)
      | leave state =>
          obtain ⟨-, rfl⟩ := Prod.mk.inj (Outcome.ok.inj hrest)
          exact List.suffix_refl _

end ParseBgp.Loop
