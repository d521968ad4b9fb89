/-
**What is left of a declared limit in 32 bits.**

A node declares the concurrency of a model, its load and its context length as numbers of 64 bits,
and the router works with 32: `concurrency_for` for the admission, `model_capacity_events` for the
status stream and `build_offering_with_load` for the offerings each cut the declared number to its
last 32 bits.  The numbers are limits, and zero stands for no limit at all, so what a limit should
become is the largest number that fits; a cut number is smaller than that, and may be zero.

Main definitions:

* `ModelsCatalog.declaredActive`, `ModelsCatalog.declaredContext` — the load and the context length
  an entry declares;
* `ModelsCatalog.Survives` — the declared numbers of an entry are used as the capped numbers, with
  what follows from that for the admission and for the queries;
* `ModelsCatalog.FitsDeclared` — the condition on an entry.

Main results:

* `ModelsCatalog.survives_iff` — **the declared numbers of an entry survive exactly when each is
  below `2 ^ 32` or ends in 32 ones**;
* `ModelsCatalog.survives_breaks` — a concurrency of `2 ^ 32` is no limit.
-/

import SparklRouter.Catalog.Providers
import SparklRouter.Consumer.ChatCompletions
import SparklRouter.Numeric.Width

set_option relaxedAutoImplicit false
set_option autoImplicit false

open Capacity ChatCompletions Json

namespace ModelsCatalog

/-! ### The declared numbers -/

/-- The active requests an entry declares; zero if it declares none. -/
def declaredActive (entry : Value) : UInt64 :=
  (((entry.pointer ["sparkl".toList, "active_requests".toList]).or
    (entry.pointer ["sparkl".toList, "active_sessions".toList])).bind Value.asU64).getD 0

/-- The context length an entry declares; zero if it declares none. -/
def declaredContext (entry : Value) : UInt64 :=
  ((entry.get "context_length".toList).bind Value.asU64).getD 0

/-- A declared number as it should be used: capped at the largest of 32 bits. -/
def capped (n : UInt64) : ℕ := Width.cap 32 n.toNat

/-- The number survives being cut to 32 bits. -/
def FitsU32 (n : UInt64) : Prop := Width.Fits 32 n.toNat

/-- **Cutting caps the numbers that fit**, and no others. -/
theorem toNat_toUInt32_eq_capped_iff {n : UInt64} : n.toUInt32.toNat = capped n ↔ FitsU32 n := by
  rw [UInt64.toNat_toUInt32]
  exact Width.mod_eq_cap_iff

theorem toNat_toUInt32_le_capped (n : UInt64) : n.toUInt32.toNat ≤ capped n := by
  rw [UInt64.toNat_toUInt32]
  exact Width.mod_le_cap 32 n.toNat

/-- A number that fits is the largest that a smaller one can become. -/
theorem FitsU32.toUInt32_le {m n : UInt64} (h : FitsU32 n) (hle : m ≤ n) :
    m.toUInt32 ≤ n.toUInt32 := by
  rw [UInt32.le_iff_toNat_le, toNat_toUInt32_eq_capped_iff.2 h]
  exact (toNat_toUInt32_le_capped m).trans (Width.cap_mono (UInt64.le_iff_toNat_le.1 hle))

theorem FitsU32.toUInt32_ne_zero {n : UInt64} (h : FitsU32 n) (hpos : 0 < n) :
    n.toUInt32 ≠ 0 := by
  intro hzero
  have hcapped := toNat_toUInt32_eq_capped_iff.2 h
  have hcap : 0 < capped n := Width.cap_pos (by decide) (UInt64.lt_iff_toNat_lt.1 hpos)
  rw [hzero, UInt32.toNat_zero] at hcapped
  omega

/-! ### Where they are used -/

/-- **The declared numbers of an entry are used as the capped numbers.** -/
structure Survives (catalog : State) (nodeId : NodeId) (modelId : Text) (entry : Value) :
    Prop where
  limit : (concurrencyFor catalog nodeId modelId).toNat = capped (declared entry)
  event : ∀ orders trackerSnap snapshot,
    ∀ e ∈ modelCapacityEvents orders trackerSnap snapshot catalog,
      e.nodeId = NodeAuth.nodeIdHex nodeId → e.modelId = modelId →
      e.concurrency.toNat = capped (declared entry)
  offering : ∀ tunnelStatus routerActive routerQueued,
    let o := buildOfferingWithLoad nodeId modelId entry tunnelStatus routerActive routerQueued
    o.concurrency.toNat = capped (declared entry) ∧
      o.contextLength.toNat = capped (declaredContext entry)
  load : ∀ tunnelStatus routerQueued,
    let o := buildOfferingWithLoad nodeId modelId entry tunnelStatus none routerQueued
    o.activeRequests.toNat = capped (declaredActive entry) ∧
      o.activeSessions.toNat = capped (declaredActive entry)
  /-- A declared concurrency is a limit: the guard of an admitted request is tracked. -/
  tracked : 0 < declared entry → ∀ maxQueue failure guard,
    ChatCompletions.acquire
      ⟨⟨nodeId, modelId⟩, concurrencyFor catalog nodeId modelId, maxQueue⟩ failure = .ok guard →
    guard.unlimited = false
  /-- A smaller declaration, of any model of any node, has no larger limit. -/
  larger : ∀ catalog' nodeId' modelId' entry', entryOf catalog' nodeId' modelId' = some entry' →
    declared entry' ≤ declared entry →
    concurrencyFor catalog' nodeId' modelId' ≤ concurrencyFor catalog nodeId modelId
  /-- A smaller declaration has no larger context length. -/
  longer : ∀ nodeId' modelId' entry' tunnelStatus, declaredContext entry' ≤ declaredContext entry →
    (buildOfferingWithLoad nodeId' modelId' entry' tunnelStatus none none).contextLength ≤
      (buildOfferingWithLoad nodeId modelId entry tunnelStatus none none).contextLength
  /-- A least context length that the declaration meets takes no row out of an answer. -/
  kept : ∀ (orders : Orders) (filters : ProviderQueryFilters) (around : Surroundings)
    (least : UInt32), least.toUInt64 ≤ declaredContext entry →
    ∀ row ∈ queryProviders orders { filters with minContextLength := none } around catalog,
      row.nodeId = NodeAuth.nodeIdHex nodeId → row.modelId = modelId →
      row ∈ queryProviders orders { filters with minContextLength := some least } around catalog

/-- Each declared number of the entry is below `2 ^ 32` or ends in 32 ones. -/
def FitsDeclared (entry : Value) : Prop :=
  FitsU32 (declared entry) ∧ FitsU32 (declaredActive entry) ∧ FitsU32 (declaredContext entry)

section

variable {catalog : State} {nodeId : NodeId} {modelId : Text} {entry : Value}

/-- A least context length that a row has changes nothing about it. -/
theorem admits_minContextLength {filters : ProviderQueryFilters} {o : ProviderOffering}
    {least : UInt32} (hleast : least ≤ o.contextLength)
    (h : ({ filters with minContextLength := none } : ProviderQueryFilters).admits o = true) :
    ({ filters with minContextLength := some least } : ProviderQueryFilters).admits o = true := by
  have hmet : (some least).all (fun least => least ≤ o.contextLength) = true := by simpa using hleast
  have hnone : (none : Option UInt32).all (fun least => least ≤ o.contextLength) = true := rfl
  unfold ProviderQueryFilters.admits at h ⊢
  rw [hmet]
  rwa [hnone] at h

/-- A context length that fits is not lost on a query. -/
theorem mem_queryProviders_minContextLength (h : entryOf catalog nodeId modelId = some entry)
    (hfits : FitsU32 (declaredContext entry)) {orders : Orders} {filters : ProviderQueryFilters}
    {around : Surroundings} {least : UInt32} (hleast : least.toUInt64 ≤ declaredContext entry)
    {row : ProviderOffering}
    (hrow : row ∈ queryProviders orders { filters with minContextLength := none } around catalog)
    (hnode : row.nodeId = NodeAuth.nodeIdHex nodeId) (hmodel : row.modelId = modelId) :
    row ∈ queryProviders orders { filters with minContextLength := some least } around catalog := by
  obtain ⟨nodeId', models, modelId', entry', hmodels, hentry, rfl, hadmits⟩ :=
    mem_queryProviders.1 hrow
  obtain rfl : nodeId' = nodeId := NodeAuth.nodeIdHex_injective hnode
  obtain rfl : modelId' = modelId := hmodel
  -- the row is the one of this entry
  have hsame : entry' = entry := by
    rw [entryOf, hmodels, Option.bind_some, hentry] at h
    exact Option.some.inj h
  subst hsame
  refine mem_queryProviders.2 ⟨nodeId', models, modelId', entry', hmodels, hentry, rfl, ?_⟩
  refine admits_minContextLength ?_ hadmits
  have hle : least.toUInt64.toUInt32 ≤ (declaredContext entry').toUInt32 := hfits.toUInt32_le hleast
  rwa [UInt32.toUInt32_toUInt64] at hle

/-- **The declared numbers of an entry survive exactly when each is below `2 ^ 32` or ends in 32
ones.** -/
theorem survives_iff (h : entryOf catalog nodeId modelId = some entry) :
    Survives catalog nodeId modelId entry ↔ FitsDeclared entry := by
  have hlimit : concurrencyFor catalog nodeId modelId = (declared entry).toUInt32 :=
    concurrencyFor_of_entry h
  constructor
  · intro hs
    have hlimit' := hs.limit
    rw [hlimit] at hlimit'
    exact ⟨toNat_toUInt32_eq_capped_iff.1 hlimit',
      toNat_toUInt32_eq_capped_iff.1 (hs.load [] none).1,
      toNat_toUInt32_eq_capped_iff.1 (hs.offering [] none none).2⟩
  · rintro ⟨hconcurrency, hactive, hcontext⟩
    have hcapped := toNat_toUInt32_eq_capped_iff.2 hconcurrency
    refine ⟨by rw [hlimit, hcapped], ?_, ?_, ?_, ?_, ?_, ?_, ?_⟩
    · intro orders trackerSnap snapshot e he hnode hmodel
      obtain ⟨nodeId', models, modelId', hmodels, -, rfl⟩ := mem_modelCapacityEvents.1 he
      obtain rfl : nodeId' = nodeId := NodeAuth.nodeIdHex_injective hnode
      obtain rfl : modelId' = modelId := hmodel
      rw [entryOf, hmodels, Option.bind_some] at h
      rw [capacityEvent, h]
      exact hcapped
    · exact fun tunnelStatus routerActive routerQueued =>
        ⟨hcapped, toNat_toUInt32_eq_capped_iff.2 hcontext⟩
    · exact fun tunnelStatus routerQueued =>
        ⟨toNat_toUInt32_eq_capped_iff.2 hactive, toNat_toUInt32_eq_capped_iff.2 hactive⟩
    · intro hpos maxQueue failure guard hguard
      refine (acquire_ok hguard).2 ?_
      rw [hlimit]
      exact hconcurrency.toUInt32_ne_zero hpos
    · intro catalog' nodeId' modelId' entry' h' hle
      rw [hlimit, concurrencyFor_of_entry h']
      exact hconcurrency.toUInt32_le hle
    · exact fun nodeId' modelId' entry' tunnelStatus hle => hcontext.toUInt32_le hle
    · exact fun orders filters around least hleast row hrow hnode hmodel =>
        mem_queryProviders_minContextLength h hcontext hleast hrow hnode hmodel

end

/-! ### A limit that is none -/

/-- A node that advertises one model with these numbers. -/
def declaring (concurrency active context : UInt64) : Value :=
  .object [⟨"id".toList, .string "llama".toList⟩, ⟨"context_length".toList, .ofU64 context⟩,
    ⟨sparklKey, .object [⟨"concurrency".toList, .ofU64 concurrency⟩,
      ⟨"active_requests".toList, .ofU64 active⟩]⟩]

def declaringCatalog (entry : Value) : State where
  byNode := AList.singleton (List.Vector.replicate 32 1) (AList.singleton "llama".toList entry)
  union := ∅
  offerings := []
  panics := []

/-- The load is `2 ^ 33 - 1`: its last 32 bits are all ones. -/
theorem survives_sampleDeclaring :
    Survives (declaringCatalog (declaring 8 8589934591 131072)) (List.Vector.replicate 32 1)
      "llama".toList (declaring 8 8589934591 131072) := by
  refine (survives_iff (by rfl)).2 ⟨?_, ?_, ?_⟩
  · exact Or.inl (by decide +kernel)
  · exact Or.inr (by decide +kernel)
  · exact Or.inl (by decide +kernel)

/-- **A concurrency of `2 ^ 32` is no limit.** -/
theorem survives_breaks :
    ¬ ∀ (catalog : State) (nodeId : NodeId) (modelId : Text) (entry : Value),
      entryOf catalog nodeId modelId = some entry → Survives catalog nodeId modelId entry := by
  intro h
  have hs := h (declaringCatalog (declaring (2 ^ 32) 0 131072)) (List.Vector.replicate 32 1)
    "llama".toList (declaring (2 ^ 32) 0 131072) (by rfl)
  have htracked := hs.tracked (by decide +kernel) 0 none
    ⟨⟨List.Vector.replicate 32 1, "llama".toList⟩, true⟩ (by decide +kernel)
  cases htracked

end ModelsCatalog
