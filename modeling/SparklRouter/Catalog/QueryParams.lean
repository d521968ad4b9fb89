/-
**What the parameters of a provider query ask for.**

`list_providers` (`src/consumer/catalog.rs`) reads nine filters out of the parameters of a request and
lets the catalog answer the query.  The parameters are a hash map: `from_query_map` looks seven of them
up, takes `online_only` for set unless it is switched off, ignores a number that does not read, and
goes over the whole map for the ones whose names begin with `feature_`, in whatever order.

The response is what the request spells out.  It has a row for a model of a node exactly when the node
advertises the model and the row has what each parameter, as it is written, asks for; the orders in
which the maps are iterated do not show.  And a request with more parameters gets a part of the rows
of the one with fewer, as long as it does not switch `online_only` off.

Main definitions:

* `ModelsCatalog.splitCsv`, `ModelsCatalog.parseU32` — the lists and the numbers among the parameters;
* `ModelsCatalog.ProviderQueryFilters.fromQueryMap` — the filters of a request;
* `ModelsCatalog.listProviders` — the response;
* `ModelsCatalog.Asked` — a row has what the parameters ask for.

Main results:

* `ModelsCatalog.satisfied_fromQueryMap_iff` — the filters of a request check what it spells out;
* `ModelsCatalog.listProviders_asked` — **the response has the rows the parameters ask for**;
* `ModelsCatalog.listProviders_narrows` — **further parameters take rows away and do nothing else**.
-/

import SparklRouter.Catalog.Query
import SparklRouter.Catalog.Load
import SparklRouter.Text.Split
import SparklRouter.Text.Radix

set_option relaxedAutoImplicit false
set_option autoImplicit false

open Json

namespace ModelsCatalog

/-! ### The parameters -/

/-- `str::parse::<u32>`, where it succeeds: the number reads, and 32 bits hold it. -/
def parseU32 (t : Text) : Option UInt32 :=
  match Radix.parseU64 t with
  | .ok n => if n.toNat < 2 ^ 32 then some n.toUInt32 else none
  | .error _ => none

def splitCsv (s : Option Text) : List Text :=
  (s.map fun t =>
    ((Split.pieces [','] t).map Text.trim).filter fun x => !x.isEmpty).getD []

/-- The feature whose value a parameter asks for. -/
def featureKey (k : Text) : Option Text :=
  (Text.stripPrefix "feature_".toList k).filter fun key => !key.isEmpty

def ProviderQueryFilters.fromQueryMap (order : IterOrder Text Text) (query : HashMap Text Text) :
    ProviderQueryFilters where
  model := query.lookup "model".toList
  featuresAny := splitCsv (query.lookup "features_any".toList)
  featuresAll := splitCsv (query.lookup "features_all".toList)
  featureValueContains := HashMap.collect featureKey (order.iter query)
  quantization := query.lookup "quantization".toList
  parameterCount := query.lookup "parameter_count".toList
  minContextLength := (query.lookup "min_context_length".toList).bind parseU32
  minAvailableSlots := (query.lookup "min_available_slots".toList).bind parseU32
  onlineOnly :=
    ((query.lookup "online_only".toList).map fun s =>
      s ≠ "false".toList && s ≠ "0".toList).getD true

/-! ### The response -/

/-- A row as the response shows it. -/
def offeringValue (o : ProviderOffering) : Value :=
  .object
    [⟨"node_id".toList, .string o.nodeId⟩,
      ⟨"model_id".toList, .string o.modelId⟩,
      ⟨"tunnel_status".toList, .string o.tunnelStatus⟩,
      ⟨"context_length".toList, ofU32 o.contextLength⟩,
      ⟨"quantization".toList, .string o.quantization⟩,
      ⟨"parameter_count".toList, .string o.parameterCount⟩,
      ⟨"source_url".toList, .string o.sourceUrl⟩,
      ⟨"features".toList, featuresValue o.features⟩,
      ⟨"concurrency".toList, ofU32 o.concurrency⟩,
      ⟨"active_requests".toList, ofU32 o.activeRequests⟩,
      ⟨"queued_requests".toList, ofU32 o.queuedRequests⟩,
      ⟨"active_sessions".toList, ofU32 o.activeSessions⟩,
      ⟨"available_slots".toList, ofU32 o.availableSlots⟩]

def providerList (providers : List ProviderOffering) : Value :=
  .object
    [⟨"object".toList, .string "provider_list".toList⟩,
      ⟨"data".toList, .array (providers.map offeringValue)⟩]

def listProviders (orders : Orders) (order : IterOrder Text Text) (around : Surroundings)
    (catalog : State) (query : HashMap Text Text) : Value :=
  providerList
    (queryProviders orders (ProviderQueryFilters.fromQueryMap order query) around catalog)

/-- The rows of a response. -/
def dataOf (response : Value) : List Value :=
  ((response.get "data".toList).bind Value.asArray).getD []

@[simp] theorem dataOf_providerList (providers : List ProviderOffering) :
    dataOf (providerList providers) = providers.map offeringValue := rfl

/-! ### What the parameters ask for -/

/-- A piece of a list that names something. -/
def Names (list piece : Text) : Prop := piece ∈ (Split.pieces [','] list).map Text.trim ∧ piece ≠ []

/-- The row has what each of the parameters, as it is written, asks for. -/
structure Asked (query : HashMap Text Text) (row : ProviderOffering) : Prop where
  /-- A node that is offline shows only to those who switch `online_only` off. -/
  online : row.tunnelStatus = "offline".toList → ∃ v, query.lookup "online_only".toList = some v ∧
    (v = "false".toList ∨ v = "0".toList)
  model : ∀ v, query.lookup "model".toList = some v → row.modelId = v
  quantization : ∀ v, query.lookup "quantization".toList = some v → row.quantization = v
  parameterCount : ∀ v, query.lookup "parameter_count".toList = some v → row.parameterCount = v
  contextLength : ∀ v least, query.lookup "min_context_length".toList = some v →
    parseU32 v = some least → least ≤ row.contextLength
  availableSlots : ∀ v least, query.lookup "min_available_slots".toList = some v →
    parseU32 v = some least → least ≤ row.availableSlots
  /-- A list that names nothing asks for nothing. -/
  featuresAny : ∀ v, query.lookup "features_any".toList = some v → (∃ k, Names v k) →
    ∃ k, Names v k ∧ k ∈ row.features
  featuresAll : ∀ v, query.lookup "features_all".toList = some v → ∀ k, Names v k →
    k ∈ row.features
  featureValues : ∀ k needle, k ≠ [] → query.lookup ("feature_".toList ++ k) = some needle →
    ∃ v, row.features.lookup k = some v ∧ needle <:+: v

theorem mem_splitCsv_iff {s : Option Text} {k : Text} :
    k ∈ splitCsv s ↔ ∃ v, s = some v ∧ Names v k := by
  cases s with
  | none => simp [splitCsv]
  | some t =>
      rw [splitCsv, Option.map_some, Option.getD_some, List.mem_filter]
      simp [Names]

/-- The name of the parameter for a feature. -/
theorem featureKey_eq_some_iff {k key : Text} :
    featureKey k = some key ↔ k = "feature_".toList ++ key ∧ key ≠ [] := by
  rw [featureKey, Option.filter_eq_some_iff, Text.stripPrefix]
  simp only [Option.ite_none_right_eq_some, Option.some.injEq, List.isPrefixOf_iff_prefix,
    Bool.not_eq_true', List.isEmpty_eq_false_iff]
  constructor
  · rintro ⟨⟨⟨rest, rfl⟩, rfl⟩, hne⟩
    rw [List.drop_left] at hne ⊢
    exact ⟨rfl, hne⟩
  · rintro ⟨rfl, hne⟩
    exact ⟨⟨⟨key, rfl⟩, List.drop_left⟩, hne⟩

/-- Two parameters do not ask for the value of one feature. -/
theorem featureKey_injective {k k' key : Text} (h : featureKey k = some key)
    (h' : featureKey k' = some key) : k = k' := by
  obtain ⟨rfl, -⟩ := featureKey_eq_some_iff.1 h
  obtain ⟨rfl, -⟩ := featureKey_eq_some_iff.1 h'
  rfl

section

variable {order : IterOrder Text Text} {query query' : HashMap Text Text} {row : ProviderOffering}

theorem lookup_featureValueContains {key needle : Text} :
    (ProviderQueryFilters.fromQueryMap order query).featureValueContains.lookup key = some needle ↔
      key ≠ [] ∧ query.lookup ("feature_".toList ++ key) = some needle := by
  rw [ProviderQueryFilters.fromQueryMap,
    HashMap.lookup_collect (fun h h' => featureKey_injective h h')]
  constructor
  · rintro ⟨k, hk, hlookup⟩
    obtain ⟨rfl, hne⟩ := featureKey_eq_some_iff.1 hk
    exact ⟨hne, hlookup⟩
  · rintro ⟨hne, hlookup⟩
    exact ⟨_, featureKey_eq_some_iff.2 ⟨rfl, hne⟩, hlookup⟩

theorem onlineOnly_eq_false_iff (order : IterOrder Text Text) :
    (ProviderQueryFilters.fromQueryMap order query).onlineOnly = false ↔
      ∃ v, query.lookup "online_only".toList = some v ∧
        (v = "false".toList ∨ v = "0".toList) := by
  simp only [ProviderQueryFilters.fromQueryMap]
  cases query.lookup "online_only".toList with
  | none => simp
  | some v =>
      simp only [Option.map_some, Option.getD_some, Option.some.injEq, exists_eq_left',
        Bool.and_eq_false_iff, decide_eq_false_iff_not, not_not]

/-- **The filters of a request check what it spells out.** -/
theorem satisfied_fromQueryMap_iff :
    (ProviderQueryFilters.fromQueryMap order query).Satisfied row ↔ Asked query row := by
  constructor
  · intro h
    refine
      { online := fun hoffline => ?_
        model := h.model
        quantization := h.quantization
        parameterCount := h.parameterCount
        contextLength := fun v least hv hleast => h.minContextLength least ?_
        availableSlots := fun v least hv hleast => h.minAvailableSlots least ?_
        featuresAny := fun v hv => ?_
        featuresAll := fun v hv k hk => h.featuresAll k (mem_splitCsv_iff.2 ⟨v, hv, hk⟩)
        featureValues := fun k needle hne hk =>
          h.featureValueContains k needle (lookup_featureValueContains.2 ⟨hne, hk⟩) }
    · refine (onlineOnly_eq_false_iff order).1 ?_
      by_contra honline
      exact h.onlineOnly (Bool.not_eq_false _ ▸ honline) hoffline
    · simp only [ProviderQueryFilters.fromQueryMap, hv, Option.bind_some, hleast]
    · simp only [ProviderQueryFilters.fromQueryMap, hv, Option.bind_some, hleast]
    · rintro ⟨k, hk⟩
      have hlisted : k ∈ (ProviderQueryFilters.fromQueryMap order query).featuresAny :=
        mem_splitCsv_iff.2 ⟨v, hv, hk⟩
      obtain ⟨k', hk', hfeature⟩ := h.featuresAny (List.ne_nil_of_mem hlisted)
      obtain ⟨v', hv', hnames⟩ := mem_splitCsv_iff.1 hk'
      obtain rfl : v = v' := Option.some.inj (hv.symm.trans hv')
      exact ⟨k', hnames, hfeature⟩
  · intro h
    refine
      { onlineOnly := fun honline hoffline => ?_
        model := h.model
        quantization := h.quantization
        parameterCount := h.parameterCount
        minContextLength := fun least hleast => ?_
        minAvailableSlots := fun least hleast => ?_
        featuresAny := fun hne => ?_
        featuresAll := fun k hk => ?_
        featureValueContains := fun k needle hk => ?_ }
    · rw [(onlineOnly_eq_false_iff order).2 (h.online hoffline)] at honline
      cases honline
    · obtain ⟨v, hv, hleast⟩ := Option.bind_eq_some_iff.1 hleast
      exact h.contextLength v least hv hleast
    · obtain ⟨v, hv, hleast⟩ := Option.bind_eq_some_iff.1 hleast
      exact h.availableSlots v least hv hleast
    · obtain ⟨k, hk⟩ := List.exists_mem_of_ne_nil _ hne
      obtain ⟨v, hv, hnames⟩ := mem_splitCsv_iff.1 hk
      obtain ⟨k', hnames', hfeature⟩ := h.featuresAny v hv ⟨k, hnames⟩
      exact ⟨k', mem_splitCsv_iff.2 ⟨v, hv, hnames'⟩, hfeature⟩
    · obtain ⟨v, hv, hnames⟩ := mem_splitCsv_iff.1 hk
      exact h.featuresAll v hv k hnames
    · obtain ⟨hne, hlookup⟩ := lookup_featureValueContains.1 hk
      exact h.featureValues k needle hne hlookup

/-- More parameters ask for more, unless they switch `online_only` off. -/
theorem Asked.of_subset (h : Asked query' row)
    (hsub : ∀ k v, query.lookup k = some v → query'.lookup k = some v)
    (honline : ∀ v, query'.lookup "online_only".toList = some v →
      query.lookup "online_only".toList = some v ∨ v ≠ "false".toList ∧ v ≠ "0".toList) :
    Asked query row where
  online hoffline := by
    obtain ⟨v, hv, hoff⟩ := h.online hoffline
    rcases honline v hv with hsame | ⟨hfalse, hzero⟩
    · exact ⟨v, hsame, hoff⟩
    · exact absurd hoff (not_or.2 ⟨hfalse, hzero⟩)
  model v hv := h.model v (hsub _ v hv)
  quantization v hv := h.quantization v (hsub _ v hv)
  parameterCount v hv := h.parameterCount v (hsub _ v hv)
  contextLength v least hv := h.contextLength v least (hsub _ v hv)
  availableSlots v least hv := h.availableSlots v least (hsub _ v hv)
  featuresAny v hv := h.featuresAny v (hsub _ v hv)
  featuresAll v hv := h.featuresAll v (hsub _ v hv)
  featureValues k needle hne hk := h.featureValues k needle hne (hsub _ needle hk)

end

/-! ### The rows of the response -/

section

variable (around : Surroundings) (catalog : State) {query query' : HashMap Text Text}

theorem mem_listed_iff {orders : Orders} {order : IterOrder Text Text} {row : ProviderOffering} :
    row ∈ queryProviders orders (ProviderQueryFilters.fromQueryMap order query) around catalog ↔
      ∃ nodeId modelId entry, Advertises catalog nodeId modelId entry ∧
        row = rowOf around nodeId modelId entry ∧ Asked query row := by
  rw [mem_queryProviders_iff]
  simp only [satisfied_fromQueryMap_iff]

/-- **The response has the rows the parameters ask for**, in ascending order and no other, whatever
the orders in which the maps are iterated. -/
theorem listProviders_asked (query : HashMap Text Text) :
    ∃ rows : List ProviderOffering, rows.Pairwise Before ∧
      (∀ row, row ∈ rows ↔ ∃ nodeId modelId entry, Advertises catalog nodeId modelId entry ∧
        row = rowOf around nodeId modelId entry ∧ Asked query row) ∧
      ∀ orders order, listProviders orders order around catalog query = providerList rows := by
  refine ⟨queryProviders storedOrders
    (ProviderQueryFilters.fromQueryMap (IterOrder.stored _ _) query) around catalog,
    ascending_queryProviders .., fun row => mem_listed_iff around catalog, ?_⟩
  intro orders order
  rw [listProviders]
  congr 1
  refine eq_of_ascending (ascending_queryProviders ..) (ascending_queryProviders ..) fun row => ?_
  rw [mem_listed_iff, mem_listed_iff]

/-- **Further parameters take rows away and do nothing else**, as long as they do not switch
`online_only` off. -/
theorem listProviders_narrows (orders orders' : Orders) (order order' : IterOrder Text Text)
    (hsub : ∀ k v, query.lookup k = some v → query'.lookup k = some v)
    (honline : ∀ v, query'.lookup "online_only".toList = some v →
      query.lookup "online_only".toList = some v ∨ v ≠ "false".toList ∧ v ≠ "0".toList) :
    (dataOf (listProviders orders' order' around catalog query')).Sublist
      (dataOf (listProviders orders order around catalog query)) := by
  have hfilter :
      queryProviders orders' (ProviderQueryFilters.fromQueryMap order' query') around catalog =
        (queryProviders orders (ProviderQueryFilters.fromQueryMap order query) around
          catalog).filter (ProviderQueryFilters.fromQueryMap order' query').admits := by
    refine eq_of_ascending (ascending_queryProviders ..)
      ((ascending_queryProviders ..).filter _) fun row => ?_
    rw [List.mem_filter, mem_listed_iff, mem_listed_iff, ProviderQueryFilters.admits_iff,
      satisfied_fromQueryMap_iff]
    constructor
    · rintro ⟨nodeId, modelId, entry, hentry, rfl, hasked⟩
      exact ⟨⟨nodeId, modelId, entry, hentry, rfl, hasked.of_subset hsub honline⟩, hasked⟩
    · rintro ⟨⟨nodeId, modelId, entry, hentry, rfl, -⟩, hasked⟩
      exact ⟨nodeId, modelId, entry, hentry, rfl, hasked⟩
  rw [listProviders, listProviders, dataOf_providerList, dataOf_providerList, hfilter]
  exact List.filter_sublist.map _

end

/-- The two nodes, without a tunnel and with one request at the first of them. -/
def sampleSurroundings : Surroundings where
  now := 0
  staleThresholdSecs := 90
  tunnels _ := none
  snapshot key := if key.nodeId = List.Vector.replicate 32 1 then ⟨8, 0, 8⟩ else ⟨0, 0, 8⟩

/-- Every provider, whether a tunnel of it is connected or not. -/
def everyone : HashMap Text Text := AList.singleton "online_only".toList "0".toList

/-- Those among them with a free place; the number of the tokens does not read. -/
def withPlaces : HashMap Text Text :=
  ((everyone.insert "min_available_slots".toList "1".toList).insert "min_context_length".toList
    "many".toList).insert "features_any".toList " , ".toList

theorem listProviders_narrows_withPlaces :
    (dataOf (listProviders storedOrders (IterOrder.stored _ _) sampleSurroundings
        { new with byNode := sampleByNode } everyone)).length = 2 ∧
      (dataOf (listProviders storedOrders (IterOrder.stored _ _) sampleSurroundings
        { new with byNode := sampleByNode } withPlaces)).length = 1 ∧
      (dataOf (listProviders storedOrders (IterOrder.stored _ _) sampleSurroundings
        { new with byNode := sampleByNode } withPlaces)).Sublist
      (dataOf (listProviders storedOrders (IterOrder.stored _ _) sampleSurroundings
        { new with byNode := sampleByNode } everyone)) := by
  refine ⟨by decide +kernel, by decide +kernel, listProviders_narrows sampleSurroundings
    { new with byNode := sampleByNode } storedOrders storedOrders (IterOrder.stored _ _)
    (IterOrder.stored _ _) ?_ ?_⟩
  · intro k v hk
    have hkey : k = "online_only".toList := by
      have hmem : k ∈ everyone := AList.lookup_isSome.1 (Option.isSome_of_eq_some hk)
      rwa [everyone, AList.mem_keys, AList.keys_singleton, List.mem_singleton] at hmem
    subst hkey
    rw [← hk]
    decide +kernel
  · intro v hv
    refine Or.inl ?_
    rw [← hv]
    decide +kernel

end ModelsCatalog
