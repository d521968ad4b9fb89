/-
**The load of a model in the union.**

An entry of the union carries, next to the rows of its providers, the load they add up to
(`apply_aggregated_load` in `src/consumer/models.rs`): the requests in progress at all of them, and
the free slots at those that declare a concurrency.  The load is computed anew from the stored rows
whenever a row is added, and the entry it is written into is whatever the first node met has sent.
What comes out has nothing of that: it is a sum over the nodes that advertise the model.

Main definitions:

* `ModelsCatalog.Loaded` — the load of an entry is the load of its rows;
* `ModelsCatalog.offersOf` — what the nodes offer of a model;
* `ModelsCatalog.Summarises` — the union has one row for each provider, and the sums over them.

Main results:

* `ModelsCatalog.loaded_mergeVisits` — every merge leaves loaded entries;
* `ModelsCatalog.toNat_totalActive`, `ModelsCatalog.toNat_totalAvailable` — the load of rows is a
  sum that saturates once, at the end;
* `ModelsCatalog.summarises_mergeVisits` — **the union summarises the models of the nodes**,
  whatever the order of the iteration.
-/

import SparklRouter.Catalog.Poisoning
import SparklRouter.Numeric.Width

set_option relaxedAutoImplicit false
set_option autoImplicit false

open Json

theorem UInt64.toNat_saturatingAdd (a b : UInt64) :
    (a.saturatingAdd b).toNat = Width.cap 64 (a.toNat + b.toNat) := by
  unfold UInt64.saturatingAdd Width.cap
  split
  · rename_i h
    rw [UInt64.toNat_add, Nat.mod_eq_of_lt h]
    omega
  · rename_i h
    have hmax : (UInt64.ofNat (2 ^ 64 - 1)).toNat = 2 ^ 64 - 1 := rfl
    omega

theorem UInt64.toNat_saturatingSub (a b : UInt64) :
    (a.saturatingSub b).toNat = a.toNat - b.toNat := by
  unfold UInt64.saturatingSub
  split
  · rename_i h
    exact UInt64.toNat_sub_of_le _ _ h
  · rename_i h
    rw [UInt64.le_iff_toNat_le] at h
    simp only [UInt64.toNat_zero]
    omega

theorem UInt64.saturatingAdd_zero (a : UInt64) : a.saturatingAdd 0 = a := by
  rw [← UInt64.toNat_inj, UInt64.toNat_saturatingAdd, UInt64.toNat_zero, Nat.add_zero]
  exact Width.cap_of_lt a.toNat_lt

namespace ModelsCatalog

def activeRequestsKey : Text := "active_requests".toList

def activeSessionsKey : Text := "active_sessions".toList

def availableSlotsKey : Text := "available_slots".toList

/-! ### The load is written with the rows -/

/-- **The load of an entry is the load of its rows.**  The free slots are only written if some row
declares a concurrency. -/
structure Loaded (sparkl : Fields) (rows : List Value) : Prop where
  requests : sparkl.member activeRequestsKey = some (.ofU64 (totalActive rows))
  sessions : sparkl.member activeSessionsKey = some (.ofU64 (totalActive rows))
  slots : (∃ p ∈ rows, 0 < concurrencyOf p) →
    sparkl.member availableSlotsKey = some (.ofU64 (totalAvailable rows))

theorem loaded_applyAggregatedLoad (sparkl : Fields) (rows : List Value) :
    Loaded (applyAggregatedLoad sparkl rows) rows := by
  have hsessions : activeRequestsKey ≠ "active_sessions".toList := by decide
  have hrequests : activeRequestsKey ≠ "available_slots".toList := by decide
  have hslots : activeSessionsKey ≠ "available_slots".toList := by decide
  simp only [applyAggregatedLoad]
  split
  · refine ⟨?_, ?_, fun _ => Fields.member_put _ _ _⟩
    · rw [Fields.member_put_ne _ _ hrequests, Fields.member_put_ne _ _ hsessions]
      exact Fields.member_put _ _ _
    · rw [Fields.member_put_ne _ _ hslots]
      exact Fields.member_put _ _ _
  · rename_i hnone
    refine ⟨?_, Fields.member_put _ _ _, ?_⟩
    · rw [Fields.member_put_ne _ _ hsessions]
      exact Fields.member_put _ _ _
    · rintro ⟨p, hp, hpos⟩
      refine absurd ?_ hnone
      rw [Bool.or_eq_true, List.any_eq_true]
      exact Or.inr ⟨p, hp, by simpa using hpos⟩

/-- The entry of the union has these rows and their load. -/
def HasLoad (entry : Value) (rows : List Value) : Prop :=
  ∃ sparkl : Fields, entry.get sparklKey = some (.object sparkl) ∧
    sparkl.member providersKey = some (.array rows) ∧ Loaded sparkl rows

theorem hasLoad_withProviders (obj sparkl : Fields) (rows : List Value) :
    HasLoad (withProviders obj sparkl rows) rows := by
  refine ⟨_, Fields.member_put obj sparklKey _, ?_, loaded_applyAggregatedLoad _ rows⟩
  rw [member_applyAggregatedLoad, Fields.member_put]

/-- The rows of an entry are what its load is about. -/
theorem HasLoad.of_hasRows {entry : Value} {rows rows' : List Value} (h : HasLoad entry rows)
    (hrows : HasRows entry rows') : HasLoad entry rows' := by
  obtain ⟨sparkl, hsparkl, hproviders, hloaded⟩ := h
  obtain ⟨sparkl', hsparkl', hproviders'⟩ := hrows
  rw [hsparkl, Option.some.injEq, Value.object.injEq] at hsparkl'
  subst hsparkl'
  rw [hproviders, Option.some.injEq, Value.array.injEq] at hproviders'
  subst hproviders'
  exact ⟨sparkl, hsparkl, hproviders, hloaded⟩

/-- Every entry of the union has rows and their load. -/
def AllLoaded (merged : HashMap Text Value) : Prop :=
  ∀ id entry, merged.lookup id = some entry → ∃ rows, HasLoad entry rows

section

variable {merged merged' : HashMap Text Value}

theorem AllLoaded.insert (h : AllLoaded merged) (id : Text) {entry : Value} {rows : List Value}
    (hentry : HasLoad entry rows) : AllLoaded (merged.insert id entry) := by
  intro id' entry' hlookup
  by_cases hid : id' = id
  · subst hid
    rw [AList.lookup_insert, Option.some.injEq] at hlookup
    exact ⟨rows, hlookup ▸ hentry⟩
  · rw [AList.lookup_insert_ne hid] at hlookup
    exact h id' entry' hlookup

/-- **One merge** writes the load whichever entry of the model it meets. -/
theorem AllLoaded.mergeModelEntry (h : AllLoaded merged) {id : Text} {nodeId : NodeId}
    {entry : Value} (hobj : IsObject entry)
    (hok : ModelsCatalog.mergeModelEntry merged id nodeId entry = .ok merged') :
    AllLoaded merged' := by
  obtain ⟨obj, rfl⟩ := hobj
  unfold ModelsCatalog.mergeModelEntry at hok
  cases hlookup : merged.lookup id with
  | none =>
      simp only [hlookup] at hok
      cases hsparkl : sparklObject obj with
      | error panic =>
          rw [hsparkl] at hok
          cases hok
      | ok sparkl =>
          rw [hsparkl] at hok
          cases hok
          exact h.insert id (hasLoad_withProviders obj sparkl _)
  | some listed =>
      -- what is listed is loaded, so both `expect`s find what they expect
      obtain ⟨rows, sparkl, hsparkl, hproviders, -⟩ := h id listed hlookup
      obtain ⟨obj', rfl, hobj'⟩ := Value.exists_fields_of_get hsparkl
      simp only [hlookup, sparklObject, hobj', Option.getD_some] at hok
      simp only [bind, Except.bind, providersArray, hproviders, Option.getD_some,
        Except.ok.injEq] at hok
      subst hok
      exact h.insert id (hasLoad_withProviders obj' sparkl _)

/-- **Every merge leaves loaded entries.** -/
theorem loaded_mergeVisits {visits : Visits} (hobjects : Objects visits) (h : AllLoaded merged)
    (hok : mergeVisits visits merged = .ok merged') : AllLoaded merged' := by
  induction visits generalizing merged with
  | nil =>
      cases hok
      exact h
  | cons v visits ih =>
      rw [mergeVisits, List.foldlM_cons] at hok
      cases hv : ModelsCatalog.mergeModelEntry merged v.2.1 v.1 v.2.2 with
      | error panic =>
          rw [hv] at hok
          cases hok
      | ok next =>
          rw [hv] at hok
          refine ih (fun w hw => hobjects w (List.mem_cons_of_mem v hw)) ?_ hok
          exact h.mergeModelEntry (hobjects v List.mem_cons_self) hv

end

/-! ### The load of rows is a sum -/

/-- The free slots a row declares: none without a concurrency. -/
def freeOf (p : Value) : UInt64 :=
  if 0 < concurrencyOf p then (concurrencyOf p).saturatingSub (activeOf p) else 0

theorem totalAvailable_eq (rows : List Value) :
    totalAvailable rows = rows.foldl (fun total p => total.saturatingAdd (freeOf p)) 0 := by
  unfold totalAvailable freeOf
  congr 1
  funext total p
  split
  · rfl
  · rw [UInt64.saturatingAdd_zero]

theorem toNat_totalActive (rows : List Value) :
    (totalActive rows).toNat = Width.cap 64 (rows.map fun p => (activeOf p).toNat).sum := by
  have hsum := Width.foldl_add UInt64.toNat_saturatingAdd activeOf rows (b := 0) (by decide)
  rw [UInt64.toNat_zero, Nat.zero_add] at hsum
  exact hsum

theorem toNat_totalAvailable (rows : List Value) :
    (totalAvailable rows).toNat = Width.cap 64 (rows.map fun p => (freeOf p).toNat).sum := by
  have hsum := Width.foldl_add UInt64.toNat_saturatingAdd freeOf rows (b := 0) (by decide)
  rw [UInt64.toNat_zero, Nat.zero_add] at hsum
  rw [totalAvailable_eq]
  exact hsum

/-! ### The rows and the offerings -/

/-- A row declares what the offering of its entry has. -/
theorem activeOf_providerSnapshot (v : NodeId × Text × Value) :
    activeOf (providerSnapshot v.1 v.2.1 v.2.2) = (offeringOf v).activeRequests.toUInt64 := rfl

theorem concurrencyOf_providerSnapshot (v : NodeId × Text × Value) :
    concurrencyOf (providerSnapshot v.1 v.2.1 v.2.2) = (offeringOf v).concurrency.toUInt64 := rfl

/-- The slots of an offering that are free, none if it has no concurrency. -/
def freeSlots (o : ProviderOffering) : ℕ := o.concurrency.toNat - o.activeRequests.toNat

theorem toNat_freeOf (v : NodeId × Text × Value) :
    (freeOf (providerSnapshot v.1 v.2.1 v.2.2)).toNat = freeSlots (offeringOf v) := by
  rw [freeOf, freeSlots, concurrencyOf_providerSnapshot, activeOf_providerSnapshot]
  split
  · rw [UInt64.toNat_saturatingSub, UInt32.toNat_toUInt64, UInt32.toNat_toUInt64]
  · rename_i hzero
    rw [UInt64.lt_iff_toNat_lt, UInt32.toNat_toUInt64, UInt64.toNat_zero] at hzero
    rw [UInt64.toNat_zero]
    omega

/-! ### The union -/

/-- What the nodes that advertise a model offer of it, one offering for each node. -/
def offersOf (id : Text) (byNode : HashMap NodeId Models) : List ProviderOffering :=
  (HashMap.holders id byNode).map fun h => offeringOf (h.1, id, h.2)

/-- A count in the `sparkl` of an entry. -/
def loadOf (key : Text) (entry : Value) : Option ℕ :=
  (((entry.get sparklKey).bind fun sparkl => sparkl.get key).bind Value.asU64).map UInt64.toNat

/-- The requests in progress at all providers. -/
def activeSum (offers : List ProviderOffering) : ℕ :=
  Width.cap 64 (offers.map fun o => o.activeRequests.toNat).sum

/-- The free slots at the providers that declare a concurrency. -/
def slotsSum (offers : List ProviderOffering) : ℕ :=
  Width.cap 64 ((offers.filter fun o => 0 < o.concurrency).map freeSlots).sum

/-- **The union has one row for each provider, and the sums over them.** -/
structure Summarises (byNode : HashMap NodeId Models) (union : HashMap Text Value) : Prop where
  listed : ∀ id, id ∈ union ↔ ∃ nodeId models, byNode.lookup nodeId = some models ∧ id ∈ models
  rows : ∀ id entry, union.lookup id = some entry → ∃ rows, HasRows entry rows ∧
    rows.Perm ((HashMap.holders id byNode).map fun h => providerSnapshot h.1 id h.2)
  requests : ∀ id entry, union.lookup id = some entry →
    loadOf activeRequestsKey entry = some (activeSum (offersOf id byNode))
  sessions : ∀ id entry, union.lookup id = some entry →
    loadOf activeSessionsKey entry = some (activeSum (offersOf id byNode))
  slots : ∀ id entry, union.lookup id = some entry →
    (∃ o ∈ offersOf id byNode, 0 < o.concurrency) →
    loadOf availableSlotsKey entry = some (slotsSum (offersOf id byNode))

/-- A provider without a concurrency has no free slots to count. -/
theorem sum_freeSlots_filter (offers : List ProviderOffering) :
    ((offers.filter fun o => 0 < o.concurrency).map freeSlots).sum =
      (offers.map freeSlots).sum := by
  induction offers with
  | nil => rfl
  | cons o offers ih =>
      by_cases hpos : 0 < o.concurrency
      · rw [List.filter_cons_of_pos (by simpa using hpos), List.map_cons, List.sum_cons, ih,
          List.map_cons, List.sum_cons]
      · have hzero : freeSlots o = 0 := by
          rw [UInt32.lt_iff_toNat_lt, UInt32.toNat_zero] at hpos
          unfold freeSlots
          omega
        rw [List.filter_cons_of_neg (by simpa using hpos), ih, List.map_cons, List.sum_cons, hzero,
          Nat.zero_add]

theorem sum_freeSlots_lt (offers : List ProviderOffering) :
    (offers.map freeSlots).sum ≤ offers.length * (2 ^ 32 - 1) := by
  induction offers with
  | nil => simp
  | cons o offers ih =>
      have hlt := o.concurrency.toNat_lt
      have hfree : freeSlots o ≤ 2 ^ 32 - 1 := by
        unfold freeSlots
        omega
      rw [List.map_cons, List.sum_cons, List.length_cons, Nat.add_mul]
      omega

/-- Up to `2 ^ 32` providers, the free slots are added up without a loss. -/
theorem slotsSum_eq {offers : List ProviderOffering} (h : offers.length ≤ 2 ^ 32) :
    slotsSum offers = ((offers.filter fun o => 0 < o.concurrency).map freeSlots).sum := by
  refine Width.cap_of_lt ?_
  rw [sum_freeSlots_filter]
  have hle := sum_freeSlots_lt offers
  omega

section

variable {byNode : HashMap NodeId Models}

theorem rowsOf_rows (id : Text) (byNode : HashMap NodeId Models) :
    rowsOf id (HashMap.rows byNode) =
      (HashMap.holders id byNode).map fun h => providerSnapshot h.1 id h.2 := by
  rw [rowsOf, HashMap.filter_rows, List.map_map]
  rfl

/-- The load of a model's rows, in any order, is the sum over the nodes. -/
theorem totalActive_of_perm {id : Text} {rows : List Value}
    (h : rows.Perm ((HashMap.holders id byNode).map fun h => providerSnapshot h.1 id h.2)) :
    (totalActive rows).toNat = activeSum (offersOf id byNode) := by
  rw [toNat_totalActive, (h.map _).sum_eq, activeSum, offersOf, List.map_map, List.map_map]
  refine congrArg (fun ns => Width.cap 64 ns.sum) (List.map_congr_left fun v _ => ?_)
  exact (congrArg UInt64.toNat (activeOf_providerSnapshot (v.1, id, v.2))).trans
    (UInt32.toNat_toUInt64 _)

theorem totalAvailable_of_perm {id : Text} {rows : List Value}
    (h : rows.Perm ((HashMap.holders id byNode).map fun h => providerSnapshot h.1 id h.2)) :
    (totalAvailable rows).toNat = slotsSum (offersOf id byNode) := by
  rw [toNat_totalAvailable, (h.map _).sum_eq, slotsSum, sum_freeSlots_filter, offersOf,
    List.map_map, List.map_map]
  refine congrArg (fun ns => Width.cap 64 ns.sum) (List.map_congr_left fun v _ => ?_)
  exact toNat_freeOf (v.1, id, v.2)

theorem loadOf_of_member {entry : Value} {sparkl : Fields} {key : Text} {n : UInt64}
    (hsparkl : entry.get sparklKey = some (.object sparkl))
    (hmember : sparkl.member key = some (.ofU64 n)) : loadOf key entry = some n.toNat := by
  rw [loadOf, hsparkl, Option.bind_some, Value.get_object, hmember]
  rfl

/-- A union made of all entries summarises them. -/
theorem summarises_of_merged {visits : Visits} {union : HashMap Text Value}
    (hperm : visits.Perm (HashMap.rows byNode)) (hmerged : Merged visits union)
    (hloaded : AllLoaded union) : Summarises byNode union := by
  have hreflects := reflects_of_merged (s := ⟨byNode, union, _, []⟩) hperm hmerged rfl
  have hrows : ∀ id entry, union.lookup id = some entry → ∃ rows, HasLoad entry rows ∧
      rows.Perm ((HashMap.holders id byNode).map fun h => providerSnapshot h.1 id h.2) := by
    intro id entry hentry
    obtain ⟨rows, hrows, hrowsPerm⟩ := hreflects.rows id entry hentry
    obtain ⟨rows', hload⟩ := hloaded id entry hentry
    exact ⟨rows, hload.of_hasRows hrows, rowsOf_rows id byNode ▸ hrowsPerm⟩
  refine ⟨hreflects.listed, ?_, ?_, ?_, ?_⟩
  · intro id entry hentry
    obtain ⟨rows, ⟨sparkl, hsparkl, hproviders, -⟩, hrowsPerm⟩ := hrows id entry hentry
    exact ⟨rows, ⟨sparkl, hsparkl, hproviders⟩, hrowsPerm⟩
  · intro id entry hentry
    obtain ⟨rows, ⟨sparkl, hsparkl, -, hload⟩, hrowsPerm⟩ := hrows id entry hentry
    rw [loadOf_of_member hsparkl hload.requests, totalActive_of_perm hrowsPerm]
  · intro id entry hentry
    obtain ⟨rows, ⟨sparkl, hsparkl, -, hload⟩, hrowsPerm⟩ := hrows id entry hentry
    rw [loadOf_of_member hsparkl hload.sessions, totalActive_of_perm hrowsPerm]
  · rintro id entry hentry ⟨o, ho, hpos⟩
    obtain ⟨rows, ⟨sparkl, hsparkl, -, hload⟩, hrowsPerm⟩ := hrows id entry hentry
    obtain ⟨v, hv, rfl⟩ := List.mem_map.1 ho
    -- the row of that provider has the concurrency too
    have hrow : providerSnapshot v.1 id v.2 ∈ rows :=
      hrowsPerm.mem_iff.2 (List.mem_map.2 ⟨v, hv, rfl⟩)
    have hconcurrency : 0 < concurrencyOf (providerSnapshot v.1 id v.2) := by
      rw [concurrencyOf_providerSnapshot (v.1, id, v.2), UInt64.lt_iff_toNat_lt,
        UInt32.toNat_toUInt64]
      exact UInt32.lt_iff_toNat_lt.1 hpos
    rw [loadOf_of_member hsparkl (hload.slots ⟨_, hrow, hconcurrency⟩),
      totalAvailable_of_perm hrowsPerm]

/-- Two summaries of the same models carry the same load. -/
theorem Summarises.load_eq {union union' : HashMap Text Value} (h : Summarises byNode union)
    (h' : Summarises byNode union') {id : Text} {entry entry' : Value}
    (hentry : union.lookup id = some entry) (hentry' : union'.lookup id = some entry') :
    loadOf activeRequestsKey entry = loadOf activeRequestsKey entry' ∧
      loadOf activeSessionsKey entry = loadOf activeSessionsKey entry' ∧
      ((∃ o ∈ offersOf id byNode, 0 < o.concurrency) →
        loadOf availableSlotsKey entry = loadOf availableSlotsKey entry') := by
  refine ⟨?_, ?_, fun hpos => ?_⟩
  · rw [h.requests id entry hentry, h'.requests id entry' hentry']
  · rw [h.sessions id entry hentry, h'.sessions id entry' hentry']
  · rw [h.slots id entry hentry hpos, h'.slots id entry' hentry' hpos]

/-- **The union summarises the models of the nodes, whatever the order of the iteration**: it lists
the models that are advertised, each with one row for each node that advertises it and with the sums
over these nodes; and another order gives the same sums. -/
theorem summarises_mergeVisits
    (hentries : ∀ v ∈ HashMap.rows byNode, IsObject v.2.2 ∧ shaped v.2.2 = true)
    (orders : Orders) :
    ∃ union, mergeVisits (HashMap.visits orders.nodes orders.models byNode) ∅ = .ok union ∧
      Summarises byNode union ∧
      (∀ id, ((HashMap.holders id byNode).map Prod.fst).Nodup ∧
        ((HashMap.holders id byNode).length ≤ 2 ^ 32 → slotsSum (offersOf id byNode) =
          (((offersOf id byNode).filter fun o => 0 < o.concurrency).map freeSlots).sum)) ∧
      ∀ (orders' : Orders) (union' : HashMap Text Value),
        mergeVisits (HashMap.visits orders'.nodes orders'.models byNode) ∅ = .ok union' →
        ∀ id entry entry', union.lookup id = some entry → union'.lookup id = some entry' →
          loadOf activeRequestsKey entry = loadOf activeRequestsKey entry' ∧
            loadOf activeSessionsKey entry = loadOf activeSessionsKey entry' ∧
            ((∃ o ∈ offersOf id byNode, 0 < o.concurrency) →
              loadOf availableSlotsKey entry = loadOf availableSlotsKey entry') := by
  have hmerge : ∀ orders : Orders, ∃ union,
      mergeVisits (HashMap.visits orders.nodes orders.models byNode) ∅ = .ok union ∧
        Summarises byNode union := by
    intro orders
    have hperm := HashMap.visits_perm orders.nodes orders.models byNode
    have hobjects : Objects (HashMap.visits orders.nodes orders.models byNode) := fun v hv =>
      (hentries v (hperm.mem_iff.1 hv)).1
    rcases Merged.nil.visits hobjects with ⟨-, union, hok, hmerged⟩ | ⟨hfirst, -⟩
    · refine ⟨union, hok, summarises_of_merged hperm hmerged (loaded_mergeVisits hobjects ?_ hok)⟩
      intro id entry hentry
      cases hentry
    · refine absurd (fun id v hv _ => ?_) hfirst
      exact (hentries v (hperm.mem_iff.1 (List.mem_of_find?_eq_some hv))).2
  obtain ⟨union, hok, hsummary⟩ := hmerge orders
  refine ⟨union, hok, hsummary, fun id => ⟨HashMap.nodup_holders id byNode, fun hlen => ?_⟩, ?_⟩
  · exact slotsSum_eq (by rwa [offersOf, List.length_map])
  · intro orders' union' hok' id entry entry' hentry hentry'
    obtain ⟨union'', hok'', hsummary'⟩ := hmerge orders'
    obtain rfl : union'' = union' := Except.ok.inj (hok''.symm.trans hok')
    exact hsummary.load_eq hsummary' hentry hentry'

end

/-! ### Two nodes that provide one model -/

/-- A model with its load. -/
def sampleModel (active concurrency : UInt64) : Value :=
  .object [⟨"id".toList, .string "shared".toList⟩,
    ⟨sparklKey, .object [⟨activeSessionsKey, .ofU64 active⟩,
      ⟨"concurrency".toList, .ofU64 concurrency⟩]⟩]

def sampleByNode : HashMap NodeId Models :=
  (AList.singleton (List.Vector.replicate 32 2)
    (AList.singleton "shared".toList (sampleModel 1 8))).insert (List.Vector.replicate 32 1)
      (AList.singleton "shared".toList (sampleModel 2 8))

/-- What the first node sent. -/
theorem lookup_sampleByNode : sampleByNode.lookup (List.Vector.replicate 32 1) =
    some (AList.singleton "shared".toList (sampleModel 2 8)) :=
  AList.lookup_insert _

theorem summarises_sampleByNode :
    ∃ union entry, union.lookup "shared".toList = some entry ∧ Summarises sampleByNode union ∧
      loadOf activeSessionsKey entry = some 3 ∧ loadOf availableSlotsKey entry = some 13 := by
  have hrows : HashMap.rows sampleByNode =
      [(List.Vector.replicate 32 1, "shared".toList, sampleModel 2 8),
        (List.Vector.replicate 32 2, "shared".toList, sampleModel 1 8)] := by rfl
  have hentries : ∀ v ∈ HashMap.rows sampleByNode, IsObject v.2.2 ∧ shaped v.2.2 = true := by
    intro v hv
    rw [hrows] at hv
    rcases List.mem_pair.1 hv with rfl | rfl
    · exact ⟨⟨_, rfl⟩, rfl⟩
    · exact ⟨⟨_, rfl⟩, rfl⟩
  obtain ⟨union, -, hsummary, -⟩ := summarises_mergeVisits hentries storedOrders
  have hlisted : "shared".toList ∈ union :=
    (hsummary.listed _).2 ⟨_, _, lookup_sampleByNode, by decide⟩
  obtain ⟨entry, hentry⟩ := Option.isSome_iff_exists.1 (AList.lookup_isSome.2 hlisted)
  have hoffer : offeringOf (List.Vector.replicate 32 1, "shared".toList, sampleModel 2 8) ∈
      offersOf "shared".toList sampleByNode :=
    List.mem_map.2 ⟨(_, sampleModel 2 8),
      HashMap.mem_holders.2 ⟨_, lookup_sampleByNode, by rfl⟩, rfl⟩
  refine ⟨union, entry, hentry, hsummary, ?_, ?_⟩
  · rw [hsummary.sessions _ entry hentry]
    decide +kernel
  · rw [hsummary.slots _ entry hentry ⟨_, hoffer, by decide +kernel⟩]
    decide +kernel

end ModelsCatalog
