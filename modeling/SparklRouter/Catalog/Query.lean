/-
**What a query on the providers returns.**

`query_providers` (`src/consumer/models.rs`) builds a row for each model of each node in the order
in which it meets them, sorts the rows, and then drops those whose node id does not read back and
those that fail a filter.  Nothing is lost on the way and nothing comes twice: a node id that was
printed reads back, and a node has one entry for a model.  So the answer is the same for every order
of iteration, and a filter more takes rows away and does nothing else.

Main definitions:

* `ModelsCatalog.ProviderQueryFilters.Satisfied` — a row satisfies the filters that are set;
* `ModelsCatalog.ProviderQueryFilters.OneMore` — one more filter is set;
* `ModelsCatalog.rowOf` — the row of a model of a node;
* `ModelsCatalog.Answers` — a list of rows is the answer to a query.

Main results:

* `ModelsCatalog.ProviderQueryFilters.admits_iff` — what the nine filters check together;
* `ModelsCatalog.ascending_queryProviders`, `ModelsCatalog.filter_queryProviders` — the order of the
  rows, and the rows of one model of one node;
* `ModelsCatalog.queryProviders_eq` — the order of iteration does not matter;
* `ModelsCatalog.answers_queryProviders` — **a query is sound and complete**.
-/

import SparklRouter.Catalog.Providers

set_option relaxedAutoImplicit false
set_option autoImplicit false

open Json

namespace ModelsCatalog

/-! ### The filters -/

namespace ProviderQueryFilters

/-- The row satisfies every filter that is set. -/
structure Satisfied (filters : ProviderQueryFilters) (row : ProviderOffering) : Prop where
  onlineOnly : filters.onlineOnly = true → row.tunnelStatus ≠ "offline".toList
  model : ∀ model, filters.model = some model → row.modelId = model
  quantization : ∀ q, filters.quantization = some q → row.quantization = q
  parameterCount : ∀ p, filters.parameterCount = some p → row.parameterCount = p
  minContextLength : ∀ least, filters.minContextLength = some least → least ≤ row.contextLength
  minAvailableSlots : ∀ least, filters.minAvailableSlots = some least → least ≤ row.availableSlots
  featuresAny : filters.featuresAny ≠ [] → ∃ k ∈ filters.featuresAny, k ∈ row.features
  featuresAll : ∀ k ∈ filters.featuresAll, k ∈ row.features
  featureValueContains : ∀ k needle, filters.featureValueContains.lookup k = some needle →
    ∃ v, row.features.lookup k = some v ∧ needle <:+: v

/-- One more filter is set, whatever its value: one that was not set, or a further feature. -/
inductive OneMore (filters : ProviderQueryFilters) : ProviderQueryFilters → Prop
  | onlineOnly : OneMore filters { filters with onlineOnly := true }
  | model (h : filters.model = none) (model : Text) :
      OneMore filters { filters with model := some model }
  | quantization (h : filters.quantization = none) (q : Text) :
      OneMore filters { filters with quantization := some q }
  | parameterCount (h : filters.parameterCount = none) (p : Text) :
      OneMore filters { filters with parameterCount := some p }
  | minContextLength (h : filters.minContextLength = none) (least : UInt32) :
      OneMore filters { filters with minContextLength := some least }
  | minAvailableSlots (h : filters.minAvailableSlots = none) (least : UInt32) :
      OneMore filters { filters with minAvailableSlots := some least }
  | featuresAny (h : filters.featuresAny = []) (keys : List Text) :
      OneMore filters { filters with featuresAny := keys }
  | featuresAll (keys : List Text) (h : filters.featuresAll ⊆ keys) :
      OneMore filters { filters with featuresAll := keys }
  | featureValueContains (k needle : Text) (h : k ∉ filters.featureValueContains) :
      OneMore filters
        { filters with featureValueContains := filters.featureValueContains.insert k needle }

section

variable {filters filters' : ProviderQueryFilters} {row : ProviderOffering}

/-- **What the nine filters check together.** -/
theorem admits_iff : filters.admits row = true ↔ filters.Satisfied row := by
  have hvalues : (filters.featureValueContains.entries.all fun f =>
        (row.features.lookup f.1).any fun v => f.2 <:+: v) = true ↔
      ∀ k needle, filters.featureValueContains.lookup k = some needle →
        ∃ v, row.features.lookup k = some v ∧ needle <:+: v := by
    rw [List.all_eq_true]
    constructor
    · intro h k needle hk
      simpa [Option.any_eq_true] using h ⟨k, needle⟩ (AList.mem_lookup_iff.1 hk)
    · rintro h ⟨k, needle⟩ hmem
      simpa [Option.any_eq_true] using h k needle (AList.mem_lookup_iff.2 hmem)
  have hany : (filters.featuresAny.isEmpty || filters.featuresAny.any fun k => k ∈ row.features) =
        true ↔ (filters.featuresAny ≠ [] → ∃ k ∈ filters.featuresAny, k ∈ row.features) := by
    rw [Bool.or_eq_true, List.isEmpty_iff, List.any_eq_true]
    simp only [decide_eq_true_eq]
    exact ⟨fun h hne => h.resolve_left hne, fun h => or_iff_not_imp_left.2 h⟩
  have honline : ∀ (only : Bool) (status offline : Text),
      (!(only && decide (status = offline))) = true ↔ (only = true → status ≠ offline) := by
    intro only status offline
    cases only <;> simp
  rw [admits]
  repeat rw [Bool.and_eq_true]
  rw [honline, hany, hvalues, List.all_eq_true]
  repeat rw [Option.all_eq_true]
  constructor
  · rintro ⟨⟨⟨⟨⟨⟨⟨⟨h₁, h₂⟩, h₃⟩, h₄⟩, h₅⟩, h₆⟩, h₇⟩, h₈⟩, h₉⟩
    exact ⟨h₁, fun m hm => of_decide_eq_true (h₂ m hm), fun q hq => of_decide_eq_true (h₃ q hq),
      fun p hp => of_decide_eq_true (h₄ p hp), fun n hn => of_decide_eq_true (h₅ n hn),
      fun n hn => of_decide_eq_true (h₆ n hn), h₇, fun k hk => of_decide_eq_true (h₈ k hk), h₉⟩
  · rintro ⟨h₁, h₂, h₃, h₄, h₅, h₆, h₇, h₈, h₉⟩
    exact ⟨⟨⟨⟨⟨⟨⟨⟨h₁, fun m hm => decide_eq_true (h₂ m hm)⟩, fun q hq => decide_eq_true (h₃ q hq)⟩,
      fun p hp => decide_eq_true (h₄ p hp)⟩, fun n hn => decide_eq_true (h₅ n hn)⟩,
      fun n hn => decide_eq_true (h₆ n hn)⟩, h₇⟩, fun k hk => decide_eq_true (h₈ k hk)⟩, h₉⟩

/-- **One more filter admits no further row.** -/
theorem OneMore.satisfied (hmore : OneMore filters filters') (h : filters'.Satisfied row) :
    filters.Satisfied row := by
  cases hmore with
  | onlineOnly => exact { h with onlineOnly := fun _ => h.onlineOnly rfl }
  | model hnone m => exact { h with model := fun m hm => by rw [hnone] at hm; cases hm }
  | quantization hnone q =>
      exact { h with quantization := fun q hq => by rw [hnone] at hq; cases hq }
  | parameterCount hnone p =>
      exact { h with parameterCount := fun p hp => by rw [hnone] at hp; cases hp }
  | minContextLength hnone least =>
      exact { h with minContextLength := fun n hn => by rw [hnone] at hn; cases hn }
  | minAvailableSlots hnone least =>
      exact { h with minAvailableSlots := fun n hn => by rw [hnone] at hn; cases hn }
  | featuresAny hnone keys => exact { h with featuresAny := fun hne => absurd hnone hne }
  | featuresAll keys hsub =>
      exact { h with featuresAll := fun k hk => h.featuresAll k (hsub hk) }
  | featureValueContains key value hnew =>
      refine { h with featureValueContains := fun k needle hk => ?_ }
      refine h.featureValueContains k needle ?_
      -- the key of the new filter is not among the old ones
      have hne : k ≠ key := by
        rintro rfl
        exact hnew (AList.lookup_isSome.1 (by rw [hk]; rfl))
      rw [AList.lookup_insert_ne hne, hk]

end

end ProviderQueryFilters

/-! ### The rows -/

/-- The row of a model of a node, as a query sees it. -/
def rowOf (around : Surroundings) (nodeId : NodeId) (modelId : Text) (entry : Value) :
    ProviderOffering :=
  { overlaid around (nodeId, modelId, entry) with tunnelStatus := tunnelStatus around nodeId }

/-- The entry under which a node advertises a model. -/
def Advertises (catalog : State) (nodeId : NodeId) (modelId : Text) (entry : Value) : Prop :=
  ∃ models, catalog.byNode.lookup nodeId = some models ∧ models.lookup modelId = some entry

/-- One row stands before the other: by model, and by node among those of one model. -/
def Before (a b : ProviderOffering) : Prop :=
  a.modelId < b.modelId ∨ a.modelId = b.modelId ∧ a.nodeId < b.nodeId

/-- The row is that of the model of the node. -/
def isFor (nodeId : NodeId) (modelId : Text) (row : ProviderOffering) : Bool :=
  row.nodeId = NodeAuth.nodeIdHex nodeId && row.modelId = modelId

/-! ### The order of the rows -/

theorem not_before_self (a : ProviderOffering) : ¬ Before a a := by
  rintro (hlt | ⟨-, hlt⟩)
  · exact lt_irrefl _ hlt
  · exact lt_irrefl _ hlt

theorem Before.asymm {a b : ProviderOffering} (h : Before a b) : ¬ Before b a := by
  rcases h with hab | ⟨hab, hab'⟩
  · rintro (hba | ⟨hba, -⟩)
    · exact lt_asymm hab hba
    · exact lt_irrefl _ (hba ▸ hab)
  · rintro (hba | ⟨-, hba'⟩)
    · exact lt_irrefl _ (hab ▸ hba)
    · exact lt_asymm hab' hba'

/-- Rows with different keys that are in order are strictly so. -/
theorem before_of_offeringLe {a b : ProviderOffering} (h : offeringLe a b)
    (hne : ¬ (a.modelId = b.modelId ∧ a.nodeId = b.nodeId)) : Before a b := by
  rcases h with hlt | ⟨heq, hle⟩
  · exact Or.inl hlt
  · exact Or.inr ⟨heq, lt_of_le_of_ne hle fun hid => hne ⟨heq, hid⟩⟩

theorem nodup_of_ascending {rows : List ProviderOffering} (h : rows.Pairwise Before) :
    rows.Nodup := by
  refine List.Pairwise.imp ?_ h
  rintro a b hab rfl
  exact not_before_self a hab

/-- **An ascending list is determined by its rows.** -/
theorem eq_of_ascending {rows rows' : List ProviderOffering} (h : rows.Pairwise Before)
    (h' : rows'.Pairwise Before) (hmem : ∀ row, row ∈ rows ↔ row ∈ rows') : rows = rows' := by
  have hperm : rows.Perm rows' :=
    (List.perm_ext_iff_of_nodup (nodup_of_ascending h) (nodup_of_ascending h')).2 hmem
  exact hperm.eq_of_pairwise (fun _ _ _ _ hab hba => absurd hba hab.asymm) h h'

section

variable (orders : Orders) (filters : ProviderQueryFilters) (around : Surroundings)
  (catalog : State)

/-- The sorted rows, before the filters: no two of them are for one model of one node. -/
theorem ascending_overlaid :
    (((HashMap.visits orders.nodes orders.models catalog.byNode).map
      (overlaid around)).insertionSort offeringLe).Pairwise Before := by
  have hkeys : (((HashMap.visits orders.nodes orders.models catalog.byNode).map
      (overlaid around)).insertionSort offeringLe).Pairwise
        fun a b => ¬ (a.modelId = b.modelId ∧ a.nodeId = b.nodeId) := by
    refine ((List.perm_insertionSort offeringLe _).pairwise_iff ?_).2 ?_
    · rintro a b hne ⟨hmodel, hnode⟩
      exact hne ⟨hmodel.symm, hnode.symm⟩
    · rw [List.pairwise_map]
      have hvisits := (HashMap.visits_perm orders.nodes orders.models catalog.byNode).map
        fun v => (v.1, v.2.1)
      have hnodup := hvisits.nodup_iff.2 (HashMap.nodup_rows catalog.byNode)
      rw [List.Nodup, List.pairwise_map] at hnodup
      refine hnodup.imp ?_
      rintro ⟨nodeId, modelId, entry⟩ ⟨nodeId', modelId', entry'⟩ hne ⟨hmodel, hnode⟩
      exact hne (Prod.ext (NodeAuth.nodeIdHex_injective hnode) hmodel)
  exact (List.pairwise_insertionSort offeringLe _).imp₂ (fun _ _ => before_of_offeringLe) hkeys

/-- A row keeps its two keys. -/
theorem keys_of_answer {o row : ProviderOffering} (h : answer filters around o = some row) :
    row.modelId = o.modelId ∧ row.nodeId = o.nodeId := by
  rw [answer] at h
  split at h
  · cases h
  · obtain ⟨-, rfl⟩ := Option.ite_none_right_eq_some.1 h |>.imp_right Option.some.inj
    exact ⟨rfl, rfl⟩

/-- **The rows of a query are strictly ascending.** -/
theorem ascending_queryProviders :
    (queryProviders orders filters around catalog).Pairwise Before := by
  rw [queryProviders, List.pairwise_filterMap]
  refine (ascending_overlaid orders around catalog).imp fun hbefore row hrow row' hrow' => ?_
  obtain ⟨hmodel, hnode⟩ := keys_of_answer filters around hrow
  obtain ⟨hmodel', hnode'⟩ := keys_of_answer filters around hrow'
  rw [Before, hmodel, hnode, hmodel', hnode']
  exact hbefore

/-- The rows of a query are those of the advertised models that satisfy the filters. -/
theorem mem_queryProviders_iff {row : ProviderOffering} :
    row ∈ queryProviders orders filters around catalog ↔
      ∃ nodeId modelId entry, Advertises catalog nodeId modelId entry ∧
        row = rowOf around nodeId modelId entry ∧ filters.Satisfied row := by
  rw [mem_queryProviders]
  constructor
  · rintro ⟨nodeId, models, modelId, entry, hnode, hmodel, hrow, hadmits⟩
    exact ⟨nodeId, modelId, entry, ⟨models, hnode, hmodel⟩, hrow,
      ProviderQueryFilters.admits_iff.1 hadmits⟩
  · rintro ⟨nodeId, modelId, entry, ⟨models, hnode, hmodel⟩, hrow, hsatisfied⟩
    exact ⟨nodeId, models, modelId, entry, hnode, hmodel, hrow,
      ProviderQueryFilters.admits_iff.2 hsatisfied⟩

/-- **The order of iteration does not matter.** -/
theorem queryProviders_eq (orders' : Orders) :
    queryProviders orders filters around catalog =
      queryProviders orders' filters around catalog := by
  refine eq_of_ascending (ascending_queryProviders ..) (ascending_queryProviders ..) fun row => ?_
  rw [mem_queryProviders_iff, mem_queryProviders_iff]

/-- **There is one row for a model of a node** that satisfies the filters. -/
theorem filter_queryProviders {nodeId : NodeId} {modelId : Text} {entry : Value}
    (hentry : Advertises catalog nodeId modelId entry)
    (hsatisfied : filters.Satisfied (rowOf around nodeId modelId entry)) :
    (queryProviders orders filters around catalog).filter (isFor nodeId modelId) =
      [rowOf around nodeId modelId entry] := by
  refine eq_of_ascending ((ascending_queryProviders ..).filter _) (List.pairwise_singleton _ _)
    fun row => ?_
  rw [List.mem_filter, List.mem_singleton, mem_queryProviders_iff, isFor, Bool.and_eq_true,
    decide_eq_true_eq, decide_eq_true_eq]
  constructor
  · rintro ⟨⟨nodeId', modelId', entry', ⟨models', hnode', hmodel'⟩, rfl, -⟩, hnode, hmodel⟩
    obtain ⟨models, hlookup, hlookup'⟩ := hentry
    obtain rfl : nodeId' = nodeId := NodeAuth.nodeIdHex_injective hnode
    obtain rfl : modelId' = modelId := hmodel
    obtain rfl : models' = models := Option.some.inj (hnode'.symm.trans hlookup)
    obtain rfl : entry' = entry := Option.some.inj (hmodel'.symm.trans hlookup')
    rfl
  · rintro rfl
    exact ⟨⟨nodeId, modelId, entry, hentry, rfl, hsatisfied⟩, rfl, rfl⟩

/-- **One more filter takes rows away and does nothing else.** -/
theorem sublist_queryProviders (orders' : Orders) {filters' : ProviderQueryFilters}
    (hmore : filters.OneMore filters') :
    (queryProviders orders' filters' around catalog).Sublist
      (queryProviders orders filters around catalog) := by
  have hfilter : queryProviders orders' filters' around catalog =
      (queryProviders orders filters around catalog).filter filters'.admits := by
    refine eq_of_ascending (ascending_queryProviders ..)
      ((ascending_queryProviders ..).filter _) fun row => ?_
    rw [List.mem_filter, mem_queryProviders_iff, mem_queryProviders_iff,
      ProviderQueryFilters.admits_iff]
    constructor
    · rintro ⟨nodeId, modelId, entry, hentry, rfl, hsatisfied⟩
      exact ⟨⟨nodeId, modelId, entry, hentry, rfl, hmore.satisfied hsatisfied⟩, hsatisfied⟩
    · rintro ⟨⟨nodeId, modelId, entry, hentry, rfl, -⟩, hsatisfied⟩
      exact ⟨nodeId, modelId, entry, hentry, rfl, hsatisfied⟩
  rw [hfilter]
  exact List.filter_sublist

/-! ### Soundness and completeness -/

/-- **The query is sound and complete.** -/
structure SoundAndComplete : Prop where
  ascending : (queryProviders orders filters around catalog).Pairwise Before
  exactlyOne : ∀ nodeId modelId entry, Advertises catalog nodeId modelId entry →
    filters.Satisfied (rowOf around nodeId modelId entry) →
    (queryProviders orders filters around catalog).filter (isFor nodeId modelId) =
      [rowOf around nodeId modelId entry]
  noOther : ∀ row ∈ queryProviders orders filters around catalog, ∃ nodeId modelId entry,
    Advertises catalog nodeId modelId entry ∧ row = rowOf around nodeId modelId entry ∧
      filters.Satisfied row
  /-- No node id is lost on the way through its text. -/
  readBack : ∀ nodeId, NodeAuth.parseNodeIdHex (NodeAuth.nodeIdHex nodeId) = .ok nodeId
  /-- One more filter leaves a part of the rows. -/
  narrower : ∀ orders' filters', filters.OneMore filters' →
    (queryProviders orders' filters' around catalog).Sublist
      (queryProviders orders filters around catalog)

end

end ModelsCatalog
