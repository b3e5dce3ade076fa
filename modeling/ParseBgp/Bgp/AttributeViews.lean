import ParseBgp.Bgp.Update

/-!
# What the path-attribute views show

A view should show the payload of the record it is built on.  Five of the
seven range views do.  `MpUnreach` reads the member `mp_reach` of its record,
and `ClusterList` has an `operator*` that does not compile.
-/

namespace ParseBgp.Bgp.PathAttributes

open Loop Utils

/-- A range-based for loop over the range shows exactly `elements`, each once
and in order, `size()` is their number and `operator[]` finds each of them. -/
def Displays {α β : Type*} [DecidableEq α] {view : RangeClass α β}
    (range : Option (CPtrRange view)) (elements : List β) : Prop :=
  ∃ own, range = some own ∧ own.size = elements.length ∧
    (∀ fuel, elements.length < fuel → own.visit fuel = .ok elements) ∧
    ∀ (i : ℕ) (hi : i < elements.length), own.index i = .ok elements[i]

/-- The views of an attribute table, each built on the record of its type,
show the payload that the member named after the type points to. -/
structure ViewsShowPayload (cptr : PathAttrs) : Prop where
  asPath : ∀ {attr payload}, record cptr .asPath = some attr →
    attr.data.asPath = some payload →
      Displays (AsPath.range attr) payload.segs.toList ∧
        ∀ seg ∈ payload.segs.toList,
          Displays (AsPathSegment.range seg) seg.asns.toList
  communities : ∀ {attr payload}, record cptr .communities = some attr →
    attr.data.communities = some payload →
      Displays (Communities.range attr) payload.communities.toList
  clusterList : ∀ {attr payload}, record cptr .clusterList = some attr →
    attr.data.clusterList = some payload →
      Displays (ClusterList.range attr) payload.clusterIds.toList
  mpReach : ∀ {attr payload}, record cptr .mpReachNlri = some attr →
    attr.data.mpReach = some payload →
      MpReach.afiType attr = some payload.afi ∧
        MpReach.safiType attr = some payload.safi ∧
        Displays (MpReach.range attr) payload.nlris.toList
  mpUnreach : ∀ {attr payload}, record cptr .mpUnreachNlri = some attr →
    attr.data.mpUnreach = some payload →
      MpUnreach.afiType attr = some payload.afi ∧
        MpUnreach.safiType attr = some payload.safi ∧
        Displays (MpUnreach.range attr) payload.withdrawnNlris.toList
  largeCommunities : ∀ {attr payload},
    record cptr .largeCommunities = some attr →
    attr.data.largeCommunities = some payload →
      Displays (LargeCommunities.range attr)
        (payload.communities.toList.map LargeCommunity.ofRecord)

/-- The record's member `mp_reach` happens to describe the same prefixes as
its payload does. -/
def ReachCoincides (attr : PathAttrRecord) (payload : MpUnreachRecord) : Prop :=
  ∃ reach, attr.data.mpReach = some reach ∧ reach.afi = payload.afi ∧
    reach.safi = payload.safi ∧
    reach.nlris.toList = payload.withdrawnNlris.toList

section Displays

variable {α β : Type*} [DecidableEq α] {view : RangeClass α β}

theorem displays_of_shows {range : CPtrRange view} {elements : List β}
    (hshows : range.Shows elements) : Displays (some range) elements :=
  ⟨range, rfl, hshows.size_eq,
    fun _ hfuel => CPtrRange.visit_of_shows hshows hfuel, hshows.index_eq⟩

/-- A range displays one list only. -/
theorem Displays.unique {range : Option (CPtrRange view)}
    {first second : List β} (hfirst : Displays range first)
    (hsecond : Displays range second) : first = second := by
  obtain ⟨own, hown, -, hvisit, -⟩ := hfirst
  obtain ⟨own', hown', -, hvisit', -⟩ := hsecond
  rw [hown] at hown'
  obtain rfl := Option.some.inj hown'
  have hshown := hvisit (first.length + second.length + 1) (by omega)
  have hshown' := hvisit' (first.length + second.length + 1) (by omega)
  rw [hshown] at hshown'
  exact Outcome.ok.inj hshown'

/-- A range whose `operator*` does not compile displays nothing, not even an
empty list. -/
theorem not_displays_of_illFormed (hview : view.element = none)
    (range : Option (CPtrRange view)) (elements : List β) :
    ¬ Displays range elements := by
  rintro ⟨own, -, -, hvisit, -⟩
  have hshown := hvisit (elements.length + 1) (Nat.lt_succ_self _)
  simp [CPtrRange.visit, hview] at hshown

/-- A view that reads its elements through their pointers displays the list
that its pointer and count stand for. -/
theorem displays_rangeOf {element : Pointer α → Option β} {value : α → β}
    (helement : ∀ {ptr entry}, ptr.load = some entry →
      element ptr = some (value entry)) (values : CArray α) :
    Displays
      (rangeOf (.ofPointer (some element)) (some values.data)
        (some values.count))
      (values.toList.map value) := by
  refine displays_of_shows ⟨rfl, ?_, ?_⟩
  · rw [List.length_map, CArray.length_toList]
    rfl
  · intro i hi
    have hinside : i < values.toList.length := by rwa [List.length_map] at hi
    have hload := helement (values.load_add i hinside)
    rw [List.getElem_map]
    simp only [CPtrRange.index, CPtrRange.begin, Iterator.index, Iterator.deref,
      Iterator.add, RangeClass.ofPointer, hload]

theorem displays_load (values : CArray α) :
    Displays
      (rangeOf (.ofPointer (some Pointer.load)) (some values.data)
        (some values.count)) values.toList := by
  have hload : ∀ {ptr : Pointer α} {entry}, ptr.load = some entry →
      ptr.load = some (id entry) := fun hload => hload
  have hdisplays := displays_rangeOf hload values
  rwa [List.map_id] at hdisplays

end Displays

/-! ## The views -/

theorem AsPathSegment.displays (seg : AsPathSegRecord) :
    Displays (range seg) seg.asns.toList := by
  have hasn : ∀ {ptr : Pointer UInt32} {entry}, ptr.load = some entry →
      asn ptr = some (id entry) := by
    intro ptr entry hload
    have hnull : ptr.isNull = false := by
      -- a load from an empty array gives nothing
      cases harray : ptr.array with
      | nil => simp [Pointer.load, harray] at hload
      | cons _ _ => simp [Pointer.isNull, harray]
    simp [asn, hnull, hload]
  have hdisplays := displays_rangeOf hasn seg.asns
  rwa [List.map_id] at hdisplays

theorem AsPath.displays {attr : PathAttrRecord} {payload : AsPathRecord}
    (hpayload : attr.data.asPath = some payload) :
    Displays (range attr) payload.segs.toList := by
  rw [range, rangeData, rangeSize, hpayload]
  exact displays_load payload.segs

theorem Communities.displays {attr : PathAttrRecord}
    {payload : CommunitiesRecord}
    (hpayload : attr.data.communities = some payload) :
    Displays (range attr) payload.communities.toList := by
  rw [range, rangeData, rangeSize, hpayload]
  exact displays_load payload.communities

theorem MpReach.displays {attr : PathAttrRecord} {payload : MpReachRecord}
    (hpayload : attr.data.mpReach = some payload) :
    Displays (range attr) payload.nlris.toList := by
  rw [range, rangeData, rangeSize, hpayload]
  exact displays_load payload.nlris

/-- The unreachable prefixes of a view are the reachable ones of its
record. -/
theorem MpUnreach.displays {attr : PathAttrRecord} {reach : MpReachRecord}
    (hreach : attr.data.mpReach = some reach) :
    Displays (range attr) reach.nlris.toList :=
  MpReach.displays hreach

theorem LargeCommunities.displays {attr : PathAttrRecord}
    {payload : LargeCommunitiesRecord}
    (hpayload : attr.data.largeCommunities = some payload) :
    Displays (range attr)
      (payload.communities.toList.map LargeCommunity.ofRecord) := by
  rw [range, rangeData, rangeSize, hpayload]
  apply displays_rangeOf
  intro ptr entry hload
  rw [hload]
  rfl

theorem ClusterList.not_displays (attr : PathAttrRecord)
    (elements : List UInt32) : ¬ Displays (range attr) elements :=
  not_displays_of_illFormed rfl _ _

/-- An `MpUnreach` shows its own payload exactly when the member `mp_reach` of
its record describes the same prefixes. -/
theorem MpUnreach.shows_payload_iff (attr : PathAttrRecord)
    (payload : MpUnreachRecord) :
    (afiType attr = some payload.afi ∧ safiType attr = some payload.safi ∧
        Displays (range attr) payload.withdrawnNlris.toList) ↔
      ReachCoincides attr payload := by
  constructor
  · rintro ⟨hafi, hsafi, hdisplays⟩
    obtain ⟨reach, hreach, hafi⟩ := Option.map_eq_some_iff.mp hafi
    obtain ⟨reach', hreach', hsafi⟩ := Option.map_eq_some_iff.mp hsafi
    rw [hreach] at hreach'
    obtain rfl := Option.some.inj hreach'
    exact ⟨reach, hreach, hafi, hsafi,
      (MpUnreach.displays hreach).unique hdisplays⟩
  · rintro ⟨reach, hreach, hafi, hsafi, hlist⟩
    refine ⟨?_, ?_, ?_⟩
    · rw [afiType, hreach, Option.map_some, hafi]
    · rw [safiType, hreach, Option.map_some, hsafi]
    · rw [← hlist]
      exact MpUnreach.displays hreach

/-- The views show exactly the decoded payloads, for lists of any length and
nested AS paths, if and only if the table has no cluster list and the record of
the unreachable prefixes, if there is one, describes the same prefixes under
`mp_reach`. -/
theorem viewsShowPayload_iff (cptr : PathAttrs) :
    ViewsShowPayload cptr ↔
      (∀ attr, record cptr .clusterList = some attr →
          attr.data.clusterList = none) ∧
        ∀ attr payload, record cptr .mpUnreachNlri = some attr →
          attr.data.mpUnreach = some payload →
            ReachCoincides attr payload := by
  constructor
  · intro hshows
    constructor
    · intro attr hattr
      cases hpayload : attr.data.clusterList with
      | none => rfl
      | some payload =>
          have hdisplays := hshows.clusterList hattr hpayload
          exact absurd hdisplays (ClusterList.not_displays _ _)
    · intro attr payload hattr hpayload
      apply (MpUnreach.shows_payload_iff attr payload).mp
      exact hshows.mpUnreach hattr hpayload
  · rintro ⟨hcluster, hunreach⟩
    exact {
      asPath := fun _ hpayload =>
        ⟨AsPath.displays hpayload, fun seg _ => AsPathSegment.displays seg⟩
      communities := fun _ hpayload => Communities.displays hpayload
      clusterList := fun hattr hpayload => by
        rw [hcluster _ hattr] at hpayload
        simp at hpayload
      mpReach := fun _ hpayload => by
        refine ⟨?_, ?_, MpReach.displays hpayload⟩
        · rw [MpReach.afiType, hpayload, Option.map_some]
        · rw [MpReach.safiType, hpayload, Option.map_some]
      mpUnreach := fun hattr hpayload =>
        (MpUnreach.shows_payload_iff _ _).mpr (hunreach _ _ hattr hpayload)
      largeCommunities := fun _ hpayload =>
        LargeCommunities.displays hpayload }

/-- A table whose only attribute withdraws one IPv6 prefix. -/
def withdrawal : PathAttrs where
  attrs index :=
    { type := if index = 15 then 15 else 0
      data :=
        { asPath := none
          communities := none
          clusterList := none
          mpReach := none
          mpUnreach := some
            { afi := 2
              safi := 1
              withdrawnNlris := .ofList [⟨2, 2, 1, [32, 1, 13, 184], 32⟩] }
          largeCommunities := none } }

/-- The record of the unreachable prefixes has no `mp_reach` to read. -/
theorem not_viewsShowPayload_withdrawal : ¬ ViewsShowPayload withdrawal := by
  intro hshows
  have hrecord : record withdrawal .mpUnreachNlri =
      some (withdrawal.attrs 15) := rfl
  have hafi := (hshows.mpUnreach hrecord rfl).1
  exact absurd hafi (by decide)

end ParseBgp.Bgp.PathAttributes
