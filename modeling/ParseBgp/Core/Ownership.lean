import Mathlib.Tactic

/-!
# Ledgers of owned resources

A ledger says which variable holds which resource, how many resources were
acquired so far and which ones were released.  Resources are numbered in the
order of their acquisition.  Four elementary steps change a ledger: a variable
acquires a new resource, releases the one it holds, forgets it without
releasing it, or receives the one another variable holds.
-/

namespace ParseBgp

@[ext]
structure Ledger (V : Type*) where
  holds : V → Option ℕ
  acquired : ℕ
  released : List ℕ

namespace Ledger

variable {V : Type*}

/-- The ledger before anything was acquired. -/
def empty : Ledger V where
  holds _ := none
  acquired := 0
  released := []

section Steps

variable [DecidableEq V]

def acquire (ledger : Ledger V) (target : V) : Ledger V where
  holds := Function.update ledger.holds target (some ledger.acquired)
  acquired := ledger.acquired + 1
  released := ledger.released

def release (ledger : Ledger V) (target : V) : Ledger V where
  holds := Function.update ledger.holds target none
  acquired := ledger.acquired
  released := ledger.released ++ (ledger.holds target).toList

def forget (ledger : Ledger V) (target : V) : Ledger V where
  holds := Function.update ledger.holds target none
  acquired := ledger.acquired
  released := ledger.released

def transfer (ledger : Ledger V) (target source : V) : Ledger V where
  holds := Function.update
    (Function.update ledger.holds target (ledger.holds source)) source none
  acquired := ledger.acquired
  released := ledger.released

end Steps

/-- Every held resource has one holder and is not released, and no resource was
released twice. -/
structure Sole (ledger : Ledger V) : Prop where
  holder_eq : ∀ {first second resource}, ledger.holds first = some resource →
    ledger.holds second = some resource → first = second
  held_lt : ∀ {holder resource}, ledger.holds holder = some resource →
    resource < ledger.acquired
  not_released : ∀ {holder resource}, ledger.holds holder = some resource →
    resource ∉ ledger.released
  released_lt : ∀ {resource}, resource ∈ ledger.released →
    resource < ledger.acquired
  nodup : ledger.released.Nodup

/-- Every acquired resource is still held or was released. -/
def Complete (ledger : Ledger V) : Prop :=
  ∀ resource < ledger.acquired,
    (∃ holder, ledger.holds holder = some resource) ∨
      resource ∈ ledger.released

/-- A resource that nobody holds and nobody released. -/
structure Lost (ledger : Ledger V) (resource : ℕ) : Prop where
  lt_acquired : resource < ledger.acquired
  not_held : ∀ holder, ledger.holds holder ≠ some resource
  not_released : resource ∉ ledger.released

theorem empty_sole : (empty : Ledger V).Sole where
  holder_eq := by simp [empty]
  held_lt := by simp [empty]
  not_released := by simp [empty]
  released_lt := by simp [empty]
  nodup := by simp [empty]

theorem empty_complete : (empty : Ledger V).Complete := by
  simp [empty, Complete]

variable {ledger : Ledger V}

/-- Once nothing is held any more, a complete ledger has released every
resource exactly once. -/
theorem Sole.count_released (hsole : ledger.Sole)
    (hcomplete : ledger.Complete) (hnone : ∀ holder, ledger.holds holder = none)
    {resource : ℕ} (hresource : resource < ledger.acquired) :
    ledger.released.count resource = 1 := by
  rcases hcomplete resource hresource with ⟨holder, hholds⟩ | hreleased
  · rw [hnone holder] at hholds
    simp at hholds
  · exact List.count_eq_one_of_mem hsole.nodup hreleased

theorem Lost.count_released {resource : ℕ} (hlost : ledger.Lost resource) :
    ledger.released.count resource = 0 :=
  List.count_eq_zero_of_not_mem hlost.not_released

section Steps

variable [DecidableEq V] {target source holder : V} {resource : ℕ}

theorem acquire_holds_iff (hfree : ledger.holds target = none) :
    (ledger.acquire target).holds holder = some resource ↔
      (holder = target ∧ resource = ledger.acquired) ∨
        ledger.holds holder = some resource := by
  by_cases htarget : holder = target
  · subst htarget
    simp [acquire, hfree, eq_comm]
  · simp [acquire, htarget]

theorem release_holds_iff :
    (ledger.release target).holds holder = some resource ↔
      holder ≠ target ∧ ledger.holds holder = some resource := by
  by_cases htarget : holder = target
  · simp [release, htarget]
  · simp [release, htarget]

theorem forget_holds_iff :
    (ledger.forget target).holds holder = some resource ↔
      holder ≠ target ∧ ledger.holds holder = some resource :=
  release_holds_iff

theorem forget_holds_self : (ledger.forget target).holds target = none :=
  Function.update_self _ _ _

theorem transfer_holds_iff (hfree : ledger.holds target = none) :
    (ledger.transfer target source).holds holder = some resource ↔
      (holder = target ∧ target ≠ source ∧
          ledger.holds source = some resource) ∨
        (holder ≠ source ∧ ledger.holds holder = some resource) := by
  by_cases hsource : holder = source
  · subst hsource
    have hnone : (ledger.transfer target holder).holds holder = none := by
      simp [transfer]
    rw [hnone]
    constructor
    · intro hholds
      simp at hholds
    · rintro (⟨heq, hne, -⟩ | ⟨hne, -⟩)
      · exact absurd heq.symm hne
      · exact absurd rfl hne
  · by_cases htarget : holder = target
    · subst htarget
      simp [transfer, hsource, hfree]
    · simp [transfer, hsource, htarget]

theorem mem_release_released :
    resource ∈ (ledger.release target).released ↔
      resource ∈ ledger.released ∨ ledger.holds target = some resource := by
  simp [release]

/-! ## The steps keep sole ownership -/

theorem Sole.acquire (hsole : ledger.Sole)
    (hfree : ledger.holds target = none) : (ledger.acquire target).Sole where
  holder_eq := by
    intro first second resource hfirst hsecond
    rw [acquire_holds_iff hfree] at hfirst hsecond
    rcases hfirst with ⟨rfl, rfl⟩ | hfirst
    · rcases hsecond with ⟨rfl, -⟩ | hsecond
      · rfl
      · exact absurd (hsole.held_lt hsecond) (lt_irrefl _)
    · rcases hsecond with ⟨-, rfl⟩ | hsecond
      · exact absurd (hsole.held_lt hfirst) (lt_irrefl _)
      · exact hsole.holder_eq hfirst hsecond
  held_lt := by
    intro holder resource hholds
    rw [acquire_holds_iff hfree] at hholds
    rcases hholds with ⟨-, rfl⟩ | hholds
    · exact Nat.lt_succ_self _
    · exact Nat.lt_succ_of_lt (hsole.held_lt hholds)
  not_released := by
    intro holder resource hholds hreleased
    rw [acquire_holds_iff hfree] at hholds
    rcases hholds with ⟨-, rfl⟩ | hholds
    · exact absurd (hsole.released_lt hreleased) (lt_irrefl _)
    · exact hsole.not_released hholds hreleased
  released_lt := by
    intro resource hreleased
    exact Nat.lt_succ_of_lt (hsole.released_lt hreleased)
  nodup := hsole.nodup

theorem Sole.release (hsole : ledger.Sole) (target : V) :
    (ledger.release target).Sole where
  holder_eq := by
    intro first second resource hfirst hsecond
    rw [release_holds_iff] at hfirst hsecond
    exact hsole.holder_eq hfirst.2 hsecond.2
  held_lt := by
    intro holder resource hholds
    exact hsole.held_lt (release_holds_iff.mp hholds).2
  not_released := by
    intro holder resource hholds hreleased
    rw [release_holds_iff] at hholds
    rcases mem_release_released.mp hreleased with hreleased | htarget
    · exact hsole.not_released hholds.2 hreleased
    · exact hholds.1 (hsole.holder_eq hholds.2 htarget)
  released_lt := by
    intro resource hreleased
    rcases mem_release_released.mp hreleased with hreleased | htarget
    · exact hsole.released_lt hreleased
    · exact hsole.held_lt htarget
  nodup := by
    cases hholds : ledger.holds target with
    | none => simpa [Ledger.release, hholds] using hsole.nodup
    | some resource =>
        have hfresh := hsole.not_released hholds
        have hconcat := List.Nodup.concat hfresh hsole.nodup
        rw [List.concat_eq_append] at hconcat
        rw [Ledger.release, hholds]
        exact hconcat

theorem Sole.forget (hsole : ledger.Sole) (target : V) :
    (ledger.forget target).Sole where
  holder_eq := by
    intro first second resource hfirst hsecond
    rw [forget_holds_iff] at hfirst hsecond
    exact hsole.holder_eq hfirst.2 hsecond.2
  held_lt := by
    intro holder resource hholds
    exact hsole.held_lt (forget_holds_iff.mp hholds).2
  not_released := by
    intro holder resource hholds
    exact hsole.not_released (forget_holds_iff.mp hholds).2
  released_lt := hsole.released_lt
  nodup := hsole.nodup

theorem Sole.transfer (hsole : ledger.Sole)
    (hfree : ledger.holds target = none) (source : V) :
    (ledger.transfer target source).Sole where
  holder_eq := by
    intro first second resource hfirst hsecond
    rw [transfer_holds_iff hfree] at hfirst hsecond
    rcases hfirst with ⟨rfl, -, hfirst⟩ | ⟨hne, hfirst⟩
    · rcases hsecond with ⟨rfl, -, -⟩ | ⟨hne, hsecond⟩
      · rfl
      · exact absurd (hsole.holder_eq hsecond hfirst) hne
    · rcases hsecond with ⟨-, -, hsecond⟩ | ⟨-, hsecond⟩
      · exact absurd (hsole.holder_eq hfirst hsecond) hne
      · exact hsole.holder_eq hfirst hsecond
  held_lt := by
    intro holder resource hholds
    rcases (transfer_holds_iff hfree).mp hholds with ⟨-, -, hheld⟩ | ⟨-, hheld⟩
    · exact hsole.held_lt hheld
    · exact hsole.held_lt hheld
  not_released := by
    intro holder resource hholds
    rcases (transfer_holds_iff hfree).mp hholds with ⟨-, -, hheld⟩ | ⟨-, hheld⟩
    · exact hsole.not_released hheld
    · exact hsole.not_released hheld
  released_lt := hsole.released_lt
  nodup := hsole.nodup

/-! ## Complete ledgers and lost resources -/

theorem Complete.acquire (hcomplete : ledger.Complete)
    (hfree : ledger.holds target = none) :
    (ledger.acquire target).Complete := by
  intro resource hresource
  rcases Nat.lt_succ_iff_lt_or_eq.mp hresource with hlt | rfl
  · rcases hcomplete resource hlt with ⟨holder, hholds⟩ | hreleased
    · exact Or.inl ⟨holder, (acquire_holds_iff hfree).mpr (Or.inr hholds)⟩
    · exact Or.inr hreleased
  · exact Or.inl ⟨target, (acquire_holds_iff hfree).mpr (Or.inl ⟨rfl, rfl⟩)⟩

theorem Complete.release (hcomplete : ledger.Complete) (target : V) :
    (ledger.release target).Complete := by
  intro resource hresource
  rw [mem_release_released]
  rcases hcomplete resource hresource with ⟨holder, hholds⟩ | hreleased
  · by_cases htarget : holder = target
    · exact Or.inr (Or.inr (htarget ▸ hholds))
    · exact Or.inl ⟨holder, release_holds_iff.mpr ⟨htarget, hholds⟩⟩
  · exact Or.inr (Or.inl hreleased)

theorem Complete.forget (hcomplete : ledger.Complete)
    (hfree : ledger.holds target = none) :
    (ledger.forget target).Complete := by
  intro resource hresource
  rcases hcomplete resource hresource with ⟨holder, hholds⟩ | hreleased
  · refine Or.inl ⟨holder, forget_holds_iff.mpr ⟨?_, hholds⟩⟩
    rintro rfl
    rw [hfree] at hholds
    simp at hholds
  · exact Or.inr hreleased

theorem Complete.transfer (hcomplete : ledger.Complete)
    (hfree : ledger.holds target = none) (source : V) :
    (ledger.transfer target source).Complete := by
  intro resource hresource
  rcases hcomplete resource hresource with ⟨holder, hholds⟩ | hreleased
  · left
    by_cases hsource : holder = source
    · subst hsource
      refine ⟨target, (transfer_holds_iff hfree).mpr
        (Or.inl ⟨rfl, ?_, hholds⟩)⟩
      rintro rfl
      rw [hfree] at hholds
      simp at hholds
    · exact ⟨holder, (transfer_holds_iff hfree).mpr
        (Or.inr ⟨hsource, hholds⟩)⟩
  · exact Or.inr hreleased

/-- Forgetting a resource loses it. -/
theorem Sole.lost_forget (hsole : ledger.Sole)
    (hholds : ledger.holds target = some resource) :
    (ledger.forget target).Lost resource where
  lt_acquired := hsole.held_lt hholds
  not_held := by
    intro holder hholder
    obtain ⟨hne, hheld⟩ := forget_holds_iff.mp hholder
    exact hne (hsole.holder_eq hheld hholds)
  not_released := hsole.not_released hholds

theorem Lost.acquire (hlost : ledger.Lost resource)
    (hfree : ledger.holds target = none) :
    (ledger.acquire target).Lost resource where
  lt_acquired := Nat.lt_succ_of_lt hlost.lt_acquired
  not_held := by
    intro holder hholds
    rcases (acquire_holds_iff hfree).mp hholds with ⟨-, rfl⟩ | hheld
    · exact absurd hlost.lt_acquired (lt_irrefl _)
    · exact hlost.not_held holder hheld
  not_released := hlost.not_released

theorem Lost.release (hlost : ledger.Lost resource) (target : V) :
    (ledger.release target).Lost resource where
  lt_acquired := hlost.lt_acquired
  not_held := by
    intro holder hholds
    exact hlost.not_held holder (release_holds_iff.mp hholds).2
  not_released := by
    rw [mem_release_released]
    rintro (hreleased | hholds)
    · exact hlost.not_released hreleased
    · exact hlost.not_held target hholds

theorem Lost.forget (hlost : ledger.Lost resource) (target : V) :
    (ledger.forget target).Lost resource where
  lt_acquired := hlost.lt_acquired
  not_held := by
    intro holder hholds
    exact hlost.not_held holder (forget_holds_iff.mp hholds).2
  not_released := hlost.not_released

theorem Lost.transfer (hlost : ledger.Lost resource)
    (hfree : ledger.holds target = none) (source : V) :
    (ledger.transfer target source).Lost resource where
  lt_acquired := hlost.lt_acquired
  not_held := by
    intro holder hholds
    rcases (transfer_holds_iff hfree).mp hholds with ⟨-, -, hheld⟩ | ⟨-, hheld⟩
    · exact hlost.not_held source hheld
    · exact hlost.not_held holder hheld
  not_released := hlost.not_released

end Steps

end Ledger

end ParseBgp
