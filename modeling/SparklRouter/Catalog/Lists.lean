/-
**The list of the models and the list of the providers.**

The router answers two questions about what its nodes offer, from two views of the catalog.  The list of
the models (`list_cached_json` in `src/consumer/models.rs`) comes from the union, which a rebuild writes;
the list of the providers comes from the models of the nodes directly.  Whenever no call on the catalog
is under way the two agree: a model is listed when some node provides it, and the rows in its entry
name the nodes that the provider list has for it, connected or not, each of them once.

Main definitions:

* `ModelsCatalog.list`, `ModelsCatalog.listCachedJson` — the ids of the union, and the response;
* `ModelsCatalog.providersOf` — the request for all providers of a model;
* `ModelsCatalog.Agree` — the two responses agree.

Main results:

* `ModelsCatalog.mem_list`, `ModelsCatalog.sorted_list` — the ids of the union, in ascending order;
* `CatalogViews.lists_agree` — **the two lists agree in every quiet state of every run**.
-/

import SparklRouter.Catalog.QueryParams
import SparklRouter.Catalog.Views

set_option relaxedAutoImplicit false
set_option autoImplicit false

open Json Transition

namespace ModelsCatalog

/-! ### The list of the models -/

def contains (catalog : State) (model : Text) : Bool := (catalog.union.lookup model).isSome

def list (order : IterOrder Text Value) (catalog : State) : List Text :=
  ((order.iter catalog.union).map Sigma.fst).insertionSort (· ≤ ·)

def listCachedJson (order : IterOrder Text Value) (catalog : State) : Value :=
  .object
    [⟨"object".toList, .string "list".toList⟩,
      ⟨"data".toList, .array ((list order catalog).filterMap catalog.union.lookup)⟩]

section

variable (order : IterOrder Text Value) {catalog : State}

theorem mem_list {id : Text} : id ∈ list order catalog ↔ id ∈ catalog.union := by
  rw [list, List.mem_insertionSort, AList.mem_keys]
  exact ((order.perm catalog.union).map Sigma.fst).mem_iff

theorem contains_eq_true {id : Text} : contains catalog id = true ↔ id ∈ list order catalog := by
  rw [mem_list, contains, AList.lookup_isSome]

/-- **The ids come in ascending order**, each of them once. -/
theorem sorted_list : (list order catalog).Pairwise (· < ·) := by
  have hnodup : (list order catalog).Nodup := by
    rw [list, (List.perm_insertionSort _ _).nodup_iff,
      ((order.perm catalog.union).map Sigma.fst).nodup_iff]
    exact catalog.union.keys_nodup
  exact ((List.pairwise_insertionSort (· ≤ ·) _).and hnodup).imp fun h => lt_of_le_of_ne h.1 h.2

theorem dataOf_listCachedJson :
    dataOf (listCachedJson order catalog) =
      (list order catalog).filterMap catalog.union.lookup := rfl

end

/-! ### The providers of a model -/

/-- The request for all providers of a model, connected or not. -/
def providersOf (id : Text) : HashMap Text Text := everyone.insert "model".toList id

/-- The node a row is about. -/
def nodeOf (row : Value) : Option Text := (row.get "node_id".toList).bind Value.asStr

@[simp] theorem nodeOf_offeringValue (o : ProviderOffering) : nodeOf (offeringValue o) = some o.nodeId := rfl

@[simp] theorem nodeOf_providerSnapshot (nodeId : NodeId) (id : Text) (entry : Value) :
    nodeOf (providerSnapshot nodeId id entry) = some (NodeAuth.nodeIdHex nodeId) := rfl

/-- The parameters of the request. -/
theorem lookup_providersOf {id k v : Text} (h : (providersOf id).lookup k = some v) :
    k = "model".toList ∧ v = id ∨ k = "online_only".toList ∧ v = "0".toList := by
  by_cases hmodel : k = "model".toList
  · subst hmodel
    rw [providersOf, AList.lookup_insert] at h
    exact Or.inl ⟨rfl, (Option.some.inj h).symm⟩
  · rw [providersOf, AList.lookup_insert_ne hmodel] at h
    rw [everyone, ← AList.insert_empty] at h
    by_cases honline : k = "online_only".toList
    · subst honline
      rw [AList.lookup_insert] at h
      exact Or.inr ⟨rfl, (Option.some.inj h).symm⟩
    · rw [AList.lookup_insert_ne honline, AList.lookup_empty] at h
      cases h

/-- The request asks for the model and for nothing else. -/
theorem asked_providersOf {id : Text} {row : ProviderOffering} :
    Asked (providersOf id) row ↔ row.modelId = id := by
  constructor
  · exact fun h => h.model id (AList.lookup_insert _)
  · intro hid
    have hother : ∀ {k v : Text}, (providersOf id).lookup k = some v → k ≠ "model".toList →
        k ≠ "online_only".toList → False := by
      intro k v hlookup hmodel honline
      rcases lookup_providersOf hlookup with ⟨hk, -⟩ | ⟨hk, -⟩
      · exact hmodel hk
      · exact honline hk
    refine
      { online := fun _ => ⟨"0".toList, ?_, Or.inr rfl⟩
        model := fun v hv => ?_
        quantization := fun v hv => (hother hv (by decide) (by decide)).elim
        parameterCount := fun v hv => (hother hv (by decide) (by decide)).elim
        contextLength := fun v least hv => (hother hv (by decide) (by decide)).elim
        availableSlots := fun v least hv => (hother hv (by decide) (by decide)).elim
        featuresAny := fun v hv => (hother hv (by decide) (by decide)).elim
        featuresAll := fun v hv => (hother hv (by decide) (by decide)).elim
        featureValues := fun k needle _ hv => (hother hv ?_ ?_).elim }
    · rw [providersOf, AList.lookup_insert_ne (by decide), everyone, ← AList.insert_empty]
      exact AList.lookup_insert _
    · rcases lookup_providersOf hv with ⟨-, rfl⟩ | ⟨hk, -⟩
      · exact hid
      · exact absurd hk (by decide)
    · exact fun h => by cases h
    · exact fun h => by cases h

/-! ### The two lists -/

section

variable (orders : Orders) (order : IterOrder Text Text) (around : Surroundings) (catalog : State)
  (id : Text)

/-- The rows of the provider list for a model. -/
theorem mem_providersOf {row : ProviderOffering} :
    row ∈ queryProviders orders (ProviderQueryFilters.fromQueryMap order (providersOf id)) around
        catalog ↔
      ∃ nodeId entry, Advertises catalog nodeId id entry ∧ row = rowOf around nodeId id entry := by
  rw [mem_listed_iff]
  constructor
  · rintro ⟨nodeId, modelId, entry, hentry, rfl, hasked⟩
    obtain rfl : modelId = id := asked_providersOf.1 hasked
    exact ⟨nodeId, entry, hentry, rfl⟩
  · rintro ⟨nodeId, entry, hentry, rfl⟩
    exact ⟨nodeId, id, entry, hentry, rfl, asked_providersOf.2 rfl⟩

/-- **The provider list names the holders of a model**, each of them once. -/
theorem nodes_listProviders :
    ((dataOf (listProviders orders order around catalog (providersOf id))).map nodeOf).Perm
      ((HashMap.holders id catalog.byNode).map fun h => some (NodeAuth.nodeIdHex h.1)) := by
  rw [listProviders, dataOf_providerList, List.map_map]
  have hascending := ascending_queryProviders orders
    (ProviderQueryFilters.fromQueryMap order (providersOf id)) around catalog
  refine (List.perm_ext_iff_of_nodup ?_ ?_).2 fun node => ?_
  · rw [List.Nodup, List.pairwise_map]
    refine hascending.imp_of_mem fun {a b} ha hb hbefore heq => ?_
    -- of one model, the rows ascend by the node
    obtain ⟨n, e, -, rfl⟩ := (mem_providersOf ..).1 ha
    obtain ⟨n', e', -, rfl⟩ := (mem_providersOf ..).1 hb
    rcases hbefore with hlt | ⟨-, hlt⟩
    · exact lt_irrefl _ hlt
    · exact absurd (Option.some.inj heq) hlt.ne
  · have hnodup := (HashMap.nodup_holders id catalog.byNode).map
      (fun _ _ h => NodeAuth.nodeIdHex_injective (Option.some.inj h) :
        Function.Injective fun n => some (NodeAuth.nodeIdHex n))
    rwa [List.map_map] at hnodup
  · rw [List.mem_map, List.mem_map]
    constructor
    · rintro ⟨row, hrow, rfl⟩
      obtain ⟨nodeId, entry, ⟨models, hnode, hmodel⟩, rfl⟩ := (mem_providersOf ..).1 hrow
      exact ⟨(nodeId, entry), HashMap.mem_holders.2 ⟨models, hnode, hmodel⟩, rfl⟩
    · rintro ⟨⟨nodeId, entry⟩, hholder, rfl⟩
      obtain ⟨models, hnode, hmodel⟩ := HashMap.mem_holders.1 hholder
      exact ⟨_, (mem_providersOf ..).2 ⟨nodeId, entry, ⟨models, hnode, hmodel⟩, rfl⟩, rfl⟩

/-- The provider list has rows for a model that some node advertises. -/
theorem listProviders_ne_nil :
    dataOf (listProviders orders order around catalog (providersOf id)) ≠ [] ↔
      ∃ nodeId models, catalog.byNode.lookup nodeId = some models ∧ id ∈ models := by
  have hlength := (nodes_listProviders orders order around catalog id).length_eq
  rw [List.length_map, List.length_map] at hlength
  rw [← List.length_pos_iff, hlength, List.length_pos_iff_exists_mem]
  constructor
  · rintro ⟨⟨nodeId, entry⟩, hholder⟩
    obtain ⟨models, hnode, hmodel⟩ := HashMap.mem_holders.1 hholder
    exact ⟨nodeId, models, hnode, AList.lookup_isSome.1 (Option.isSome_of_eq_some hmodel)⟩
  · rintro ⟨nodeId, models, hnode, hmodel⟩
    obtain ⟨entry, hentry⟩ := Option.isSome_iff_exists.1 (AList.lookup_isSome.2 hmodel)
    exact ⟨(nodeId, entry), HashMap.mem_holders.2 ⟨models, hnode, hentry⟩⟩

/-- **Two responses agree**, on the models and on the providers of each. -/
structure Agree (models : Value) (providers : Text → Value) : Prop where
  listed : ∃ entries : List (Text × Value), dataOf models = entries.map Prod.snd ∧
    (entries.map Prod.fst).Pairwise (· < ·) ∧
    (∀ id, id ∈ entries.map Prod.fst ↔ dataOf (providers id) ≠ []) ∧
    ∀ id entry, (id, entry) ∈ entries → ∃ rows, HasRows entry rows ∧
      (rows.map nodeOf).Perm ((dataOf (providers id)).map nodeOf)

/-- Views that reflect the models of the nodes agree. -/
theorem agree_of_reflects {catalog : State} (h : Reflects catalog) (listing : IterOrder Text Value) :
    Agree (listCachedJson listing catalog)
      fun id => listProviders orders order around catalog (providersOf id) := by
  let pair : Text → Option (Text × Value) := fun id => (catalog.union.lookup id).map (id, ·)
  have hpair : ∀ {id p}, pair id = some p → p.1 = id ∧ catalog.union.lookup id = some p.2 := by
    intro id p hp
    obtain ⟨entry, hentry, rfl⟩ := Option.map_eq_some_iff.1 hp
    exact ⟨rfl, hentry⟩
  have hids : ((list listing catalog).filterMap pair).map Prod.fst = list listing catalog := by
    rw [List.map_filterMap]
    refine (List.filterMap_congr fun id hid => ?_).trans List.filterMap_some
    obtain ⟨entry, hentry⟩ := Option.isSome_iff_exists.1
      (AList.lookup_isSome.2 ((mem_list listing).1 hid))
    simp only [pair, hentry, Option.map_some]
  refine ⟨(list listing catalog).filterMap pair, ?_, ?_, fun id => ?_, fun id entry hentry => ?_⟩
  · rw [dataOf_listCachedJson, List.map_filterMap]
    refine List.filterMap_congr fun id _ => ?_
    simp only [pair, Option.map_map]
    exact Option.map_id'.symm
  · rw [hids]
    exact sorted_list listing
  · rw [hids, mem_list, h.listed, listProviders_ne_nil]
  · obtain ⟨id', -, hp⟩ := List.mem_filterMap.1 hentry
    obtain ⟨rfl, hlookup⟩ := hpair hp
    obtain ⟨rows, hrows, hperm⟩ := h.rows _ _ hlookup
    refine ⟨rows, hrows, (hperm.map nodeOf).trans ?_⟩
    rw [rowsOf_rows, List.map_map]
    exact (nodes_listProviders ..).symm

end

end ModelsCatalog

namespace CatalogViews

open ModelsCatalog

/-- The entry is an object whose `sparkl` is missing or an object. -/
def Usual (entry : Value) : Prop := IsObject entry ∧ shaped entry = true

theorem Action.Sends.mono {P Q : Value → Prop} (hPQ : ∀ entry, P entry → Q entry) {a : Action}
    (h : a.Sends P) : a.Sends Q := by
  cases a with
  | call c =>
      cases c with
      | upsertNode nodeId models => exact fun id entry hentry => hPQ entry (h id entry hentry)
      | removeNode nodeId => trivial
  | acquire i => trivial
  | work i orders now => trivial

/-- **The two lists agree in every quiet state of every run**, whatever the calls that have come
before and however they have overlapped. -/
theorem lists_agree {as : List Action} (h : ∀ a ∈ as, a.Sends Usual) :
    Always step (fun s => s.Quiet → ∀ (listing : IterOrder Text Value) (orders : Orders)
      (order : IterOrder Text Text) (around : Surroundings),
      Agree (listCachedJson listing s.catalog)
        fun id => listProviders orders order around s.catalog (providersOf id)) init as := by
  have hstep : ∀ s a s', Invariant s ∧ Holding IsObject s → step s a = some s' → a.Sends Usual →
      Invariant s' ∧ Holding IsObject s' := by
    intro s a s' hs hstep ha
    exact ⟨hs.1.step hstep (ha.mono fun _ he => he.2),
      hs.2.step hstep (ha.mono fun _ he => he.1)⟩
  have hinit : Invariant init ∧ Holding IsObject init :=
    ⟨invariant_init, every_new _, fun pc hpc => (by cases hpc)⟩
  refine (always_of_step (I := fun s => Invariant s ∧ Holding IsObject s) hstep hinit
    (throughout_of_forall_mem h init)).mono fun s hs hquiet listing orders order around => ?_
  exact agree_of_reflects orders order around
    ((hs.1.consistent hquiet).reflects hs.2.every) listing

/-- Two nodes advertise their models in calls that overlap. -/
theorem lists_agree_overlapping :
    Always step (fun s => s.Quiet → ∀ (listing : IterOrder Text Value) (orders : Orders)
      (order : IterOrder Text Text) (around : Surroundings),
      Agree (listCachedJson listing s.catalog)
        fun id => listProviders orders order around s.catalog (providersOf id)) init
      overlapping := by
  refine lists_agree fun a ha => ?_
  have hsample : ∀ id key entry, (sampleModels id).lookup key = some entry → Usual entry := by
    intro id key entry hlookup
    have hmem := List.mem_singleton.1 (AList.mem_lookup_iff.1 hlookup)
    cases hmem
    exact ⟨⟨_, rfl⟩, rfl⟩
  cases a with
  | call c =>
      have hc : c = .upsertNode (List.Vector.replicate 32 1) (sampleModels "llama".toList) ∨
          c = .upsertNode (List.Vector.replicate 32 2) (sampleModels "qwen".toList) := by
        simpa [overlapping] using ha
      rcases hc with rfl | rfl
      · exact hsample _
      · exact hsample _
  | acquire i => trivial
  | work i orders now => trivial

end CatalogViews
