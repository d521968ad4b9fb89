/-
**The queries on the catalog.**

Clients ask for the providers of a model (`query_providers` in `src/consumer/models.rs`): one row for
each model of each node, with the requests the router itself has at the node, the state of the
node's tunnel, and only the rows that pass the filters of the query.  The status stream asks for the
load of every model (`model_capacity_events`).  Neither writes to the catalog; a clock, the registry
of the tunnels and the counters of the tracker are read as they are.

Main definitions:

* `ModelsCatalog.tunnelStatusForPong` — what the last `pong` says about a tunnel;
* `ModelsCatalog.ProviderQueryFilters`, `ModelsCatalog.ProviderQueryFilters.admits` — the filters of
  a query, and the rows that pass them;
* `ModelsCatalog.queryProviders`, `ModelsCatalog.modelCapacityEvents` — the two queries.

Main results:

* `ModelsCatalog.mem_queryProviders` — **a query returns the rows that pass its filters**;
* `ModelsCatalog.mem_modelCapacityEvents` — there is an event for each model of each node.
-/

import SparklRouter.Capacity.Tracker
import SparklRouter.Catalog.Models

set_option relaxedAutoImplicit false
set_option autoImplicit false

open Capacity Json

/-- Subtraction that stops at the least and at the greatest value. -/
def Int64.saturatingSub (a b : Int64) : Int64 :=
  if a.toInt - b.toInt < Int64.minValue.toInt then Int64.minValue
  else if Int64.maxValue.toInt < a.toInt - b.toInt then Int64.maxValue
  else a - b

namespace ModelsCatalog

/-! ### Providers -/

/-- The state of a tunnel whose last `pong` came at the given time. -/
def tunnelStatusForPong (now lastPong : Int64) (staleSecs : UInt64) : Text :=
  let age := now.saturatingSub lastPong
  if age ≤ staleSecs.toInt64 then "online".toList
  else if age ≤ (staleSecs * 2).toInt64 then "degraded".toList
  else "offline".toList

structure ProviderQueryFilters where
  model : Option Text
  featuresAny : List Text
  featuresAll : List Text
  featureValueContains : HashMap Text Text
  quantization : Option Text
  parameterCount : Option Text
  minContextLength : Option UInt32
  minAvailableSlots : Option UInt32
  onlineOnly : Bool

/-- What a query reads besides the catalog: the clock, the threshold of the portal, the last `pong`
of each connected node, and the counters of the tracker. -/
structure Surroundings where
  now : Int64
  staleThresholdSecs : UInt64
  tunnels : NodeId → Option Int64
  snapshot : ModelCapacityKey → CapacitySnapshot

/-- The offering with the router's own counts. -/
def overlaid (around : Surroundings) (v : NodeId × Text × Value) : ProviderOffering :=
  let snap := around.snapshot ⟨v.1, v.2.1⟩
  buildOfferingWithLoad v.1 v.2.1 v.2.2 "unknown".toList (some snap.activeRequests)
    (some snap.queuedRequests)

def tunnelStatus (around : Surroundings) (nodeId : NodeId) : Text :=
  match around.tunnels nodeId with
  | some lastPong => tunnelStatusForPong around.now lastPong around.staleThresholdSecs
  | none => "offline".toList

/-- The row passes the filters. -/
def ProviderQueryFilters.admits (filters : ProviderQueryFilters) (o : ProviderOffering) : Bool :=
  !(filters.onlineOnly && o.tunnelStatus = "offline".toList) &&
  filters.model.all (fun model => o.modelId = model) &&
  filters.quantization.all (fun q => o.quantization = q) &&
  filters.parameterCount.all (fun p => o.parameterCount = p) &&
  filters.minContextLength.all (fun least => least ≤ o.contextLength) &&
  filters.minAvailableSlots.all (fun least => least ≤ o.availableSlots) &&
  (filters.featuresAny.isEmpty || filters.featuresAny.any fun k => k ∈ o.features) &&
  filters.featuresAll.all (fun k => k ∈ o.features) &&
  filters.featureValueContains.entries.all fun f =>
    (o.features.lookup f.1).any fun v => f.2 <:+: v

/-- The row as the query returns it, if its node id reads back and the filters admit it. -/
def answer (filters : ProviderQueryFilters) (around : Surroundings) (o : ProviderOffering) :
    Option ProviderOffering :=
  match NodeAuth.parseNodeIdHex o.nodeId with
  | .error _ => none
  | .ok nodeBytes =>
      let row := { o with tunnelStatus := tunnelStatus around nodeBytes }
      if filters.admits row then some row else none

def queryProviders (orders : Orders) (filters : ProviderQueryFilters) (around : Surroundings)
    (catalog : State) : List ProviderOffering :=
  (((HashMap.visits orders.nodes orders.models catalog.byNode).map
    (overlaid around)).insertionSort offeringLe).filterMap (answer filters around)

/-! ### Load -/

structure ModelCapacityEvent where
  nodeId : Text
  modelId : Text
  activeRequests : UInt32
  queuedRequests : UInt32
  concurrency : UInt32

def eventLe (a b : ModelCapacityEvent) : Prop :=
  a.modelId < b.modelId ∨ a.modelId = b.modelId ∧ a.nodeId ≤ b.nodeId

instance : DecidableRel eventLe := fun a b =>
  inferInstanceAs (Decidable (a.modelId < b.modelId ∨ a.modelId = b.modelId ∧ a.nodeId ≤ b.nodeId))

/-- The event of one model of a node, with the counts of `trackerSnap` if it has them. -/
def capacityEvent (trackerSnap : ModelCapacityKey → Option (UInt32 × UInt32))
    (snapshot : ModelCapacityKey → CapacitySnapshot) (nodeId : NodeId) (models : Models)
    (modelId : Text) : ModelCapacityEvent :=
  let key : ModelCapacityKey := ⟨nodeId, modelId⟩
  let counts := (trackerSnap key).getD
    ((snapshot key).activeRequests, (snapshot key).queuedRequests)
  { nodeId := NodeAuth.nodeIdHex nodeId
    modelId
    activeRequests := counts.1
    queuedRequests := counts.2
    concurrency := numberOr0 ((models.lookup modelId).bind fun entry =>
      entry.pointer ["sparkl".toList, "concurrency".toList]) }

def modelCapacityEvents (orders : Orders)
    (trackerSnap : ModelCapacityKey → Option (UInt32 × UInt32))
    (snapshot : ModelCapacityKey → CapacitySnapshot) (catalog : State) : List ModelCapacityEvent :=
  ((orders.nodes.iter catalog.byNode).flatMap fun node =>
    ((orders.models node.1).iter node.2).map fun model =>
      capacityEvent trackerSnap snapshot node.1 node.2 model.1).insertionSort eventLe

/-! ### What the queries return -/

section

variable {orders : Orders} {catalog : State}

/-- **A query returns the rows that pass its filters**: one for each model of each node. -/
theorem mem_queryProviders {filters : ProviderQueryFilters} {around : Surroundings}
    {row : ProviderOffering} :
    row ∈ queryProviders orders filters around catalog ↔
      ∃ nodeId models modelId entry, catalog.byNode.lookup nodeId = some models ∧
        models.lookup modelId = some entry ∧
        row = { overlaid around (nodeId, modelId, entry) with
          tunnelStatus := tunnelStatus around nodeId } ∧
        filters.admits row = true := by
  have hanswer : ∀ v : NodeId × Text × Value, answer filters around (overlaid around v) = some row ↔
      row = { overlaid around v with tunnelStatus := tunnelStatus around v.1 } ∧
        filters.admits row = true := by
    intro v
    have hid : (overlaid around v).nodeId = NodeAuth.nodeIdHex v.1 := rfl
    rw [answer, hid, NodeAuth.parseNodeIdHex_nodeIdHex]
    simp only [Option.ite_none_right_eq_some, Option.some.injEq]
    constructor
    · rintro ⟨hadmits, rfl⟩
      exact ⟨rfl, hadmits⟩
    · rintro ⟨rfl, hadmits⟩
      exact ⟨hadmits, rfl⟩
  rw [queryProviders, List.mem_filterMap]
  constructor
  · rintro ⟨o, ho, hrow⟩
    rw [(List.perm_insertionSort _ _).mem_iff, List.mem_map] at ho
    obtain ⟨⟨nodeId, modelId, entry⟩, hv, rfl⟩ := ho
    rw [(HashMap.visits_perm _ _ _).mem_iff, HashMap.mem_rows] at hv
    obtain ⟨models, hmodels, hentry⟩ := hv
    obtain ⟨hrow, hadmits⟩ := (hanswer _).1 hrow
    exact ⟨nodeId, models, modelId, entry, hmodels, hentry, hrow, hadmits⟩
  · rintro ⟨nodeId, models, modelId, entry, hmodels, hentry, hrow, hadmits⟩
    refine ⟨overlaid around (nodeId, modelId, entry), ?_, (hanswer _).2 ⟨hrow, hadmits⟩⟩
    rw [(List.perm_insertionSort _ _).mem_iff, List.mem_map]
    refine ⟨_, ?_, rfl⟩
    rw [(HashMap.visits_perm _ _ _).mem_iff, HashMap.mem_rows]
    exact ⟨models, hmodels, hentry⟩

/-- There is an event for each model of each node. -/
theorem mem_modelCapacityEvents {trackerSnap : ModelCapacityKey → Option (UInt32 × UInt32)}
    {snapshot : ModelCapacityKey → CapacitySnapshot} {event : ModelCapacityEvent} :
    event ∈ modelCapacityEvents orders trackerSnap snapshot catalog ↔
      ∃ nodeId models modelId, catalog.byNode.lookup nodeId = some models ∧ modelId ∈ models ∧
        event = capacityEvent trackerSnap snapshot nodeId models modelId := by
  rw [modelCapacityEvents, (List.perm_insertionSort _ _).mem_iff, List.mem_flatMap]
  constructor
  · rintro ⟨⟨nodeId, models⟩, hnode, hevent⟩
    obtain ⟨⟨modelId, entry⟩, hmodel, rfl⟩ := List.mem_map.1 hevent
    rw [(orders.nodes.perm _).mem_iff] at hnode
    rw [((orders.models nodeId).perm _).mem_iff] at hmodel
    exact ⟨nodeId, models, modelId, AList.mem_lookup_iff.2 hnode,
      AList.mem_keys.2 (List.mem_map.2 ⟨_, hmodel, rfl⟩), rfl⟩
  · rintro ⟨nodeId, models, modelId, hnode, hmodel, rfl⟩
    obtain ⟨entry, hentry⟩ := Option.isSome_iff_exists.1 (AList.lookup_isSome.2 hmodel)
    refine ⟨⟨nodeId, models⟩, ?_, List.mem_map.2 ⟨⟨modelId, entry⟩, ?_, rfl⟩⟩
    · rw [(orders.nodes.perm _).mem_iff]
      exact AList.mem_lookup_iff.1 hnode
    · rw [((orders.models nodeId).perm _).mem_iff]
      exact AList.mem_lookup_iff.1 hentry

end

end ModelsCatalog
