/-
**The shared catalog of models.**

The router keeps, for each connected node, the models it advertises, and publishes two summaries of
them: the union, one entry for each model id with a row for each node that provides it, and the
sorted list of offerings (`src/consumer/models.rs`).  Both are computed anew from the models of all
nodes whenever one node's models change.  The maps are hash maps, so the union is built in an order
nothing fixes; every operation takes the order of its own iteration as a parameter.  An `expect`
that fails ends the operation in a panic and leaves what it has written so far.

Main definitions:

* `ModelsCatalog.parseModelEntries` — the models in the body a node sends;
* `ModelsCatalog.mergeModelEntry`, `ModelsCatalog.applyAggregatedLoad` — one entry goes into the
  union;
* `ModelsCatalog.State`, `ModelsCatalog.rebuildUnion`, `ModelsCatalog.step` — the catalog and its
  operations;
* `ModelsCatalog.HasRows`, `ModelsCatalog.Merged` — the rows of an entry of the union, and what the
  union is when some entries have been merged.

Main results:

* `ModelsCatalog.mergeModelEntry_fresh`, `ModelsCatalog.mergeModelEntry_listed` — what merging one
  entry does, the panics included;
* `ModelsCatalog.Merged.visits` — **an entry of the union has a row for each entry merged into
  it**;
* `ModelsCatalog.mergeVisits_ok_iff` — **the merge panics exactly when the first entry met of some
  model has a `sparkl` that is not an object**.
-/

import Mathlib.Data.Char
import Mathlib.Data.List.Lex
import Mathlib.Data.List.Sort
import SparklRouter.Catalog.Offerings
import SparklRouter.Concurrency.Transition

set_option relaxedAutoImplicit false
set_option autoImplicit false

open Json

/-- Addition and subtraction that stop at the largest value and at zero. -/
def UInt64.saturatingAdd (a b : UInt64) : UInt64 :=
  if a.toNat + b.toNat < 2 ^ 64 then a + b else UInt64.ofNat (2 ^ 64 - 1)

def UInt64.saturatingSub (a b : UInt64) : UInt64 := if b ≤ a then a - b else 0

namespace ModelsCatalog

/-! ### Merging -/

/-- The `expect`s of the merge. -/
inductive Panic
  | sparklObject
  | providersArray
deriving DecidableEq

def sparklKey : Text := "sparkl".toList

def providersKey : Text := "providers".toList

/-- A number of 32 bits as a value. -/
def ofU32 (n : UInt32) : Value := Value.ofU64 n.toUInt64

/-- The features as an object. -/
def featuresValue (features : HashMap Text Text) : Value :=
  .object (features.entries.map fun f => ⟨f.1, .string f.2⟩)

def providerSnapshot (nodeId : NodeId) (modelId : Text) (entry : Value) : Value :=
  let o := buildOfferingWithLoad nodeId modelId entry "unknown".toList none none
  .object
    [⟨"node_id".toList, .string o.nodeId⟩,
      ⟨"model_id".toList, .string o.modelId⟩,
      ⟨"context_length".toList, ofU32 o.contextLength⟩,
      ⟨"quantization".toList, .string o.quantization⟩,
      ⟨"parameter_count".toList, .string o.parameterCount⟩,
      ⟨"source_url".toList, .string o.sourceUrl⟩,
      ⟨"features".toList, featuresValue o.features⟩,
      ⟨"active_requests".toList, ofU32 o.activeRequests⟩,
      ⟨"active_sessions".toList, ofU32 o.activeSessions⟩,
      ⟨"queued_requests".toList, ofU32 o.queuedRequests⟩,
      ⟨"concurrency".toList, ofU32 o.concurrency⟩,
      ⟨"available_slots".toList, ofU32 o.availableSlots⟩]

/-- The active requests a row declares. -/
def activeOf (p : Value) : UInt64 :=
  (((p.get "active_requests".toList).or (p.get "active_sessions".toList)).bind
    Value.asU64).getD 0

/-- The concurrency a row declares. -/
def concurrencyOf (p : Value) : UInt64 := ((p.get "concurrency".toList).bind Value.asU64).getD 0

def totalActive (providers : List Value) : UInt64 :=
  providers.foldl (fun total p => total.saturatingAdd (activeOf p)) 0

def totalAvailable (providers : List Value) : UInt64 :=
  providers.foldl (fun total p =>
    if 0 < concurrencyOf p then
      total.saturatingAdd ((concurrencyOf p).saturatingSub (activeOf p))
    else total) 0

def applyAggregatedLoad (sparkl : Fields) (providers : List Value) : Fields :=
  let counted := (sparkl.put "active_requests".toList (.ofU64 (totalActive providers))).put
    "active_sessions".toList (.ofU64 (totalActive providers))
  if 0 < totalAvailable providers || providers.any fun p => 0 < concurrencyOf p then
    counted.put "available_slots".toList (.ofU64 (totalAvailable providers))
  else counted

/-- The member `sparkl` of an entry, an empty object if there is none; the `expect` fails on
anything but an object. -/
def sparklObject (obj : Fields) : Except Panic Fields :=
  match (obj.member sparklKey).getD (.object []) with
  | .object sparkl => .ok sparkl
  | _ => .error .sparklObject

/-- The member `providers` of `sparkl`, an empty array if there is none. -/
def providersArray (sparkl : Fields) : Except Panic (List Value) :=
  match (sparkl.member providersKey).getD (.array []) with
  | .array providers => .ok providers
  | _ => .error .providersArray

/-- `sparkl` with these rows and the load they add up to. -/
def withProviders (obj sparkl : Fields) (providers : List Value) : Value :=
  .object (obj.put sparklKey
    (.object (applyAggregatedLoad (sparkl.put providersKey (.array providers)) providers)))

def mergeModelEntry (merged : HashMap Text Value) (id : Text) (nodeId : NodeId) (entry : Value) :
    Except Panic (HashMap Text Value) :=
  let provider := providerSnapshot nodeId id entry
  match merged.lookup id with
  | none =>
      match entry with
      | .object obj => do
          let sparkl ← sparklObject obj
          .ok (merged.insert id (withProviders obj sparkl [provider]))
      | out => .ok (merged.insert id out)
  | some (.object obj) => do
      let sparkl ← sparklObject obj
      let providers ← providersArray sparkl
      .ok (merged.insert id (withProviders obj sparkl (providers ++ [provider])))
  | some _ => .ok merged

/-! ### What one merge does -/

/-- The entry of the union has these rows. -/
def HasRows (entry : Value) (rows : List Value) : Prop :=
  ∃ sparkl : Fields, entry.get sparklKey = some (.object sparkl) ∧
    sparkl.member providersKey = some (.array rows)

/-- The member `sparkl` of the entry is missing or an object. -/
def shaped (entry : Value) : Bool :=
  match entry.get sparklKey with
  | none => true
  | some (.object _) => true
  | some _ => false

theorem sparklObject_of_shaped {obj : Fields} (h : shaped (.object obj) = true) :
    ∃ sparkl, sparklObject obj = .ok sparkl := by
  rw [shaped, Value.get_object] at h
  unfold sparklObject
  cases hm : obj.member sparklKey with
  | none => exact ⟨[], rfl⟩
  | some v =>
      rw [hm] at h
      cases v with
      | object sparkl => exact ⟨sparkl, rfl⟩
      | null => cases h
      | bool b => cases h
      | number n => cases h
      | string t => cases h
      | array items => cases h

theorem sparklObject_of_not_shaped {obj : Fields} (h : shaped (.object obj) = false) :
    sparklObject obj = .error .sparklObject := by
  rw [shaped, Value.get_object] at h
  unfold sparklObject
  cases hm : obj.member sparklKey with
  | none =>
      rw [hm] at h
      cases h
  | some v =>
      rw [hm] at h
      cases v with
      | object sparkl => cases h
      | null => rfl
      | bool b => rfl
      | number n => rfl
      | string t => rfl
      | array items => rfl

/-- The load is written next to the rows. -/
theorem member_applyAggregatedLoad (sparkl : Fields) (providers : List Value) :
    (applyAggregatedLoad sparkl providers).member providersKey = sparkl.member providersKey := by
  have hactive : providersKey ≠ "active_requests".toList := by decide
  have hsessions : providersKey ≠ "active_sessions".toList := by decide
  have hslots : providersKey ≠ "available_slots".toList := by decide
  simp only [applyAggregatedLoad]
  split
  · rw [Fields.member_put_ne _ _ hslots, Fields.member_put_ne _ _ hsessions,
      Fields.member_put_ne _ _ hactive]
  · rw [Fields.member_put_ne _ _ hsessions, Fields.member_put_ne _ _ hactive]

theorem hasRows_withProviders (obj sparkl : Fields) (providers : List Value) :
    HasRows (withProviders obj sparkl providers) providers := by
  refine ⟨_, Fields.member_put obj sparklKey _, ?_⟩
  rw [member_applyAggregatedLoad, Fields.member_put]

section

variable {merged : HashMap Text Value} {id : Text}

/-- **The first entry of a model** is merged if its `sparkl` is missing or an object. -/
theorem mergeModelEntry_fresh (nodeId : NodeId) (obj : Fields) (h : merged.lookup id = none)
    (hshaped : shaped (.object obj) = true) :
    ∃ entry, mergeModelEntry merged id nodeId (.object obj) = .ok (merged.insert id entry) ∧
      HasRows entry [providerSnapshot nodeId id (.object obj)] := by
  obtain ⟨sparkl, hsparkl⟩ := sparklObject_of_shaped hshaped
  refine ⟨_, ?_, hasRows_withProviders obj sparkl _⟩
  simp only [mergeModelEntry, h, hsparkl]
  rfl

/-- **The first entry of a model** ends in a panic otherwise. -/
theorem mergeModelEntry_panics (nodeId : NodeId) (obj : Fields) (h : merged.lookup id = none)
    (hshaped : shaped (.object obj) = false) :
    mergeModelEntry merged id nodeId (.object obj) = .error .sparklObject := by
  simp only [mergeModelEntry, h, sparklObject_of_not_shaped hshaped]
  rfl

/-- **A further entry of a model** adds its row, whatever its `sparkl` is. -/
theorem mergeModelEntry_listed (nodeId : NodeId) (entry : Value) {listed : Value}
    {rows : List Value} (h : merged.lookup id = some listed) (hrows : HasRows listed rows) :
    ∃ entry', mergeModelEntry merged id nodeId entry = .ok (merged.insert id entry') ∧
      HasRows entry' (rows ++ [providerSnapshot nodeId id entry]) := by
  obtain ⟨sparkl, hsparkl, hproviders⟩ := hrows
  obtain ⟨obj, rfl, hobj⟩ := Value.exists_fields_of_get hsparkl
  have hok : sparklObject obj = .ok sparkl := by
    rw [sparklObject, hobj]
    rfl
  have hrows : providersArray sparkl = .ok rows := by
    rw [providersArray, hproviders]
    rfl
  refine ⟨_, ?_, hasRows_withProviders obj sparkl _⟩
  simp only [mergeModelEntry, h, hok]
  change (providersArray sparkl >>= _) = _
  rw [hrows]
  rfl

end

/-! ### The catalog -/

/-- The models of a node. -/
abbrev Models := HashMap Text Value

/-- The orders in which one operation meets the nodes and the models of each node. -/
structure Orders where
  nodes : IterOrder NodeId Models
  models : NodeId → IterOrder Text Value

/-- The catalog, with the panics its operations have ended in. -/
structure State where
  byNode : HashMap NodeId Models
  union : HashMap Text Value
  offerings : List ProviderOffering
  panics : List Panic

/-- The catalog a router starts with. -/
def new : State := ⟨∅, ∅, [], []⟩

/-- The entries of a map of models, in the order of an iteration. -/
abbrev Visits := List (NodeId × Text × Value)

/-- The entries are merged one after the other. -/
def mergeVisits (visits : Visits) (merged : HashMap Text Value) :
    Except Panic (HashMap Text Value) :=
  visits.foldlM (fun merged v => mergeModelEntry merged v.2.1 v.1 v.2.2) merged

/-- The rows of one model. -/
def rowsOf (id : Text) (visits : Visits) : List Value :=
  (visits.filter fun v => v.2.1 = id).map fun v => providerSnapshot v.1 v.2.1 v.2.2

/-- The union after some entries: what it has of a model are the rows of the model. -/
def Merged (seen : Visits) (merged : HashMap Text Value) : Prop :=
  ∀ id, (merged.lookup id = none ∧ rowsOf id seen = []) ∨
    ∃ entry, merged.lookup id = some entry ∧ HasRows entry (rowsOf id seen) ∧ rowsOf id seen ≠ []

/-- Every entry is an object. -/
def Objects (visits : Visits) : Prop := ∀ v ∈ visits, ∃ obj, v.2.2 = .object obj

/-- When the entries `seen` have been merged, the first entry met of each further model has a
`sparkl` that is missing or an object. -/
def FirstShaped (seen visits : Visits) : Prop :=
  ∀ id v, visits.find? (fun v => v.2.1 = id) = some v → rowsOf id seen = [] → shaped v.2.2 = true

/-! ### What the merge of all entries does -/

theorem rowsOf_concat_self (seen : Visits) (v : NodeId × Text × Value) :
    rowsOf v.2.1 (seen ++ [v]) =
      rowsOf v.2.1 seen ++ [providerSnapshot v.1 v.2.1 v.2.2] := by
  simp [rowsOf]

theorem rowsOf_concat_of_ne (seen : Visits) {v : NodeId × Text × Value} {id : Text}
    (h : id ≠ v.2.1) : rowsOf id (seen ++ [v]) = rowsOf id seen := by
  simp [rowsOf, h.symm]

theorem firstShaped_cons {seen visits : Visits} {v : NodeId × Text × Value} :
    FirstShaped seen (v :: visits) ↔
      (rowsOf v.2.1 seen = [] → shaped v.2.2 = true) ∧ FirstShaped (seen ++ [v]) visits := by
  constructor
  · intro h
    refine ⟨h v.2.1 v (by simp), fun id w hw hnone => ?_⟩
    by_cases hid : id = v.2.1
    · subst hid
      simp [rowsOf_concat_self] at hnone
    · rw [rowsOf_concat_of_ne seen hid] at hnone
      refine h id w ?_ hnone
      rw [List.find?_cons_of_neg (by simpa using Ne.symm hid)]
      exact hw
  · rintro ⟨hv, hrest⟩ id w hw hnone
    by_cases hid : id = v.2.1
    · subst hid
      rw [List.find?_cons_of_pos (by simp)] at hw
      cases hw
      exact hv hnone
    · rw [List.find?_cons_of_neg (by simpa using Ne.symm hid)] at hw
      exact hrest id w hw (by rwa [rowsOf_concat_of_ne seen hid])

theorem Merged.nil : Merged [] ∅ := fun _ => Or.inl ⟨rfl, rfl⟩

section

variable {seen : Visits} {merged : HashMap Text Value}

theorem Merged.insert (h : Merged seen merged) {v : NodeId × Text × Value} {entry : Value}
    (hrows : HasRows entry (rowsOf v.2.1 (seen ++ [v]))) :
    Merged (seen ++ [v]) (merged.insert v.2.1 entry) := by
  intro id
  by_cases hid : id = v.2.1
  · subst hid
    refine Or.inr ⟨entry, AList.lookup_insert merged, hrows, ?_⟩
    simp [rowsOf_concat_self]
  · rw [AList.lookup_insert_ne hid, rowsOf_concat_of_ne seen hid]
    exact h id

/-- **One entry is merged**, unless it is the first of its model and its `sparkl` is neither missing
nor an object. -/
theorem Merged.mergeModelEntry (h : Merged seen merged) {v : NodeId × Text × Value} {obj : Fields}
    (hobj : v.2.2 = .object obj) (hshaped : rowsOf v.2.1 seen = [] → shaped v.2.2 = true) :
    ∃ merged', ModelsCatalog.mergeModelEntry merged v.2.1 v.1 v.2.2 = .ok merged' ∧
      Merged (seen ++ [v]) merged' := by
  rcases h v.2.1 with ⟨hlookup, hnone⟩ | ⟨listed, hlookup, hrows, -⟩
  · have hv := hshaped hnone
    rw [hobj] at hv ⊢
    obtain ⟨entry, hok, hentry⟩ := mergeModelEntry_fresh v.1 obj hlookup hv
    refine ⟨_, hok, h.insert ?_⟩
    rwa [rowsOf_concat_self, hnone, List.nil_append, hobj]
  · obtain ⟨entry, hok, hentry⟩ := mergeModelEntry_listed v.1 v.2.2 hlookup hrows
    refine ⟨_, hok, h.insert ?_⟩
    rwa [rowsOf_concat_self]

/-- **An entry of the union has a row for each entry merged into it**, and the merge ends in a
panic exactly when the first entry met of some model has a `sparkl` that is neither missing nor an
object. -/
theorem Merged.visits (h : Merged seen merged) {visits : Visits} (hobjects : Objects visits) :
    (FirstShaped seen visits ∧
      ∃ out, mergeVisits visits merged = .ok out ∧ Merged (seen ++ visits) out) ∨
    (¬ FirstShaped seen visits ∧ ∃ panic, mergeVisits visits merged = .error panic) := by
  induction visits generalizing seen merged with
  | nil =>
      refine Or.inl ⟨fun _ _ hv => (by cases hv), merged, rfl, ?_⟩
      rwa [List.append_nil]
  | cons v visits ih =>
      obtain ⟨obj, hobj⟩ := hobjects v List.mem_cons_self
      have hrest : Objects visits := fun w hw => hobjects w (List.mem_cons_of_mem v hw)
      by_cases hshaped : rowsOf v.2.1 seen = [] → shaped v.2.2 = true
      · obtain ⟨merged', hok, hmerged⟩ := h.mergeModelEntry hobj hshaped
        have hcons : mergeVisits (v :: visits) merged = mergeVisits visits merged' := by
          rw [mergeVisits, List.foldlM_cons, hok]
          rfl
        have hsplit : seen ++ [v] ++ visits = seen ++ v :: visits := by simp
        rw [firstShaped_cons, hcons]
        rcases ih hmerged hrest with ⟨hfirst, out, hout, hfinal⟩ | ⟨hfirst, hpanic⟩
        · exact Or.inl ⟨⟨hshaped, hfirst⟩, out, hout, hsplit ▸ hfinal⟩
        · exact Or.inr ⟨fun hboth => hfirst hboth.2, hpanic⟩
      · refine Or.inr ⟨fun hfirst => hshaped (firstShaped_cons.1 hfirst).1, .sparklObject, ?_⟩
        obtain ⟨hnone, hbad⟩ := Classical.not_imp.1 hshaped
        -- no row means that the model is not listed yet, so this entry is the first of it
        rcases h v.2.1 with ⟨hlookup, -⟩ | ⟨-, -, -, hsome⟩
        · rw [hobj, Bool.not_eq_true] at hbad
          rw [mergeVisits, List.foldlM_cons, hobj, mergeModelEntry_panics v.1 obj hlookup hbad]
          rfl
        · exact absurd hnone hsome

theorem mergeVisits_ok_iff {visits : Visits} (hobjects : Objects visits) :
    (∃ out, mergeVisits visits ∅ = .ok out) ↔ FirstShaped [] visits := by
  rcases Merged.nil.visits hobjects with ⟨hfirst, out, hout, -⟩ | ⟨hfirst, panic, hpanic⟩
  · exact ⟨fun _ => hfirst, fun _ => ⟨out, hout⟩⟩
  · refine ⟨fun ⟨out, hout⟩ => ?_, fun h => absurd h hfirst⟩
    rw [hpanic] at hout
    cases hout

end

/-- The order the offerings are published in: by model, and by node among those of one model. -/
def offeringLe (a b : ProviderOffering) : Prop :=
  a.modelId < b.modelId ∨ a.modelId = b.modelId ∧ a.nodeId ≤ b.nodeId

instance : DecidableRel offeringLe := fun a b =>
  inferInstanceAs (Decidable (a.modelId < b.modelId ∨ a.modelId = b.modelId ∧ a.nodeId ≤ b.nodeId))

instance : Std.Total offeringLe := ⟨fun a b => by
  rcases lt_trichotomy a.modelId b.modelId with h | h | h
  · exact Or.inl (Or.inl h)
  · rcases le_total a.nodeId b.nodeId with hn | hn
    · exact Or.inl (Or.inr ⟨h, hn⟩)
    · exact Or.inr (Or.inr ⟨h.symm, hn⟩)
  · exact Or.inr (Or.inl h)⟩

instance : IsTrans ProviderOffering offeringLe := ⟨fun a b c hab hbc => by
  rcases hab with hab | ⟨hab, hn⟩
  · rcases hbc with hbc | ⟨hbc, -⟩
    · exact Or.inl (hab.trans hbc)
    · exact Or.inl (hbc ▸ hab)
  · rcases hbc with hbc | ⟨hbc, hn'⟩
    · exact Or.inl (hab ▸ hbc)
    · exact Or.inr ⟨hab.trans hbc, hn.trans hn'⟩⟩

/-- The offering of an entry as it is published. -/
def offeringOf (v : NodeId × Text × Value) : ProviderOffering :=
  buildOfferingWithLoad v.1 v.2.1 v.2.2 "unknown".toList none none

def rebuildUnion (orders : Orders) (s : State) : State :=
  let visits := HashMap.visits orders.nodes orders.models s.byNode
  match mergeVisits visits ∅ with
  | .error panic => { s with panics := s.panics ++ [panic] }
  | .ok merged =>
      { s with
        union := merged
        offerings := (visits.map offeringOf).insertionSort offeringLe }

/-! ### Parsing -/

inductive ParseError
  | json
  | invalidModelsResponse
deriving DecidableEq

/-- An item goes into the map under its `id`, if that is a text. -/
def insertItem (out : Models) (item : Value) : Models :=
  match (item.get "id".toList).bind Value.asStr with
  | some id => out.insert id item
  | none => out

/-- The models in the body of a node's answer.  `fromStr` is the JSON parser. -/
def parseModelEntries (fromStr : Text → Option Value) (body : Text) : Except ParseError Models :=
  match fromStr body with
  | none => .error .json
  | some v =>
      match (v.get "data".toList).bind Value.asArray with
      | none => .error .invalidModelsResponse
      | some data => .ok (data.foldl insertItem ∅)

/-- Models as a node advertises them: those read off a body it sent. -/
structure Advertised (fromStr : Text → Option Value) where
  body : Text
  models : Models
  parsed : parseModelEntries fromStr body = .ok models

/-! ### Operations -/

inductive Op (fromStr : Text → Option Value)
  | upsertNode (nodeId : NodeId) (advertised : Advertised fromStr) (orders : Orders)
  | removeNode (nodeId : NodeId) (orders : Orders)
  | rebuildUnion (orders : Orders)

variable {fromStr : Text → Option Value}

/-- The catalog when the operation has written to the models of the nodes. -/
def written (s : State) : Op fromStr → State
  | .upsertNode nodeId advertised _ =>
      { s with byNode := s.byNode.insert nodeId advertised.models }
  | .removeNode nodeId _ => { s with byNode := s.byNode.erase nodeId }
  | .rebuildUnion _ => s

/-- The order of the rebuild an operation makes, if it makes one. -/
def rebuilds (s : State) : Op fromStr → Option Orders
  | .upsertNode _ _ orders => some orders
  | .removeNode nodeId orders => if nodeId ∈ s.byNode then some orders else none
  | .rebuildUnion orders => some orders

/-- One operation. -/
def apply (s : State) (op : Op fromStr) : State :=
  match rebuilds s op with
  | some orders => rebuildUnion orders (written s op)
  | none => written s op

/-- One operation after the other. -/
def step (s : State) (op : Op fromStr) : Option State := some (apply s op)

end ModelsCatalog
