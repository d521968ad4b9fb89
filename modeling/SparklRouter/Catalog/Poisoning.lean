/-
**What one node's models do to the shared catalog.**

The union is rebuilt from the models of all nodes by code that expects the member `sparkl` of an
entry to be an object.  A node decides on its entries alone, and what it sends is stored before the
union is rebuilt; so an entry whose `sparkl` is a number or `null` makes the rebuild panic, and
every later rebuild too, for whichever node it is made.  The panic depends on the order of the
iteration: only the first entry met of each model is looked at in this way.

Main definitions:

* `ModelsCatalog.Reflects` — the published summaries agree with the models of the nodes;
* `ModelsCatalog.Mergeable` — the condition on one operation.

Main results:

* `ModelsCatalog.reflects_iff` — **the catalog works as long as every rebuild meets, first of each
  model, an entry whose `sparkl` is missing or an object**, and only then;
* `ModelsCatalog.reflects_of_shaped` — nodes that send only such entries do no harm, in any order;
* `ModelsCatalog.reflects_breaks` — one entry of one node takes the models of another out of the
  catalog.
-/

import SparklRouter.Catalog.Models

set_option relaxedAutoImplicit false
set_option autoImplicit false

open Json Transition

namespace ModelsCatalog

variable {fromStr : Text → Option Value}

/-! ### The invariant -/

/-- **The published summaries agree with the models of the nodes.** -/
structure Reflects (s : State) : Prop where
  /-- The union lists the models that some node advertises. -/
  listed : ∀ id, id ∈ s.union ↔
    ∃ nodeId models, s.byNode.lookup nodeId = some models ∧ id ∈ models
  /-- An entry of the union has one row for each node that advertises the model. -/
  rows : ∀ id entry, s.union.lookup id = some entry →
    ∃ rows, HasRows entry rows ∧ rows.Perm (rowsOf id (HashMap.rows s.byNode))
  /-- The offerings are the models of all nodes. -/
  offerings : s.offerings.Perm ((HashMap.rows s.byNode).map offeringOf)
  sorted : s.offerings.Pairwise offeringLe

/-- The operation's rebuild, if it makes one, meets the entries in an order in which the first entry
of each model has a `sparkl` that is missing or an object. -/
def Mergeable (s : State) (op : Op fromStr) : Prop :=
  ∀ orders, rebuilds s op = some orders →
    FirstShaped [] (HashMap.visits orders.nodes orders.models (written s op).byNode)

theorem rowsOf_ne_nil_iff {id : Text} {visits : Visits} :
    rowsOf id visits ≠ [] ↔ ∃ nodeId entry, (nodeId, id, entry) ∈ visits := by
  rw [rowsOf, Ne, List.map_eq_nil_iff, List.filter_eq_nil_iff]
  constructor
  · intro h
    simp only [not_forall, not_not] at h
    obtain ⟨⟨nodeId, id', entry⟩, hmem, hid⟩ := h
    obtain rfl : id' = id := by simpa using hid
    exact ⟨nodeId, entry, hmem⟩
  · rintro ⟨nodeId, entry, hmem⟩ hall
    exact hall _ hmem (by simp)

/-- Every entry of every node satisfies `P`. -/
def Every (P : Value → Prop) (s : State) : Prop := ∀ v ∈ HashMap.rows s.byNode, P v.2.2

/-- Every entry that comes in with the operation satisfies `P`. -/
def Op.Sends (P : Value → Prop) : Op fromStr → Prop
  | .upsertNode _ advertised _ => ∀ id entry, advertised.models.lookup id = some entry → P entry
  | .removeNode _ _ => True
  | .rebuildUnion _ => True

/-- The entry is an object. -/
def IsObject (entry : Value) : Prop := ∃ obj, entry = .object obj

/-- What goes into the map of models is an object: anything else has no `id`. -/
theorem lookup_insertItem {out : Models} {item : Value} {id : Text} {entry : Value}
    (h : (insertItem out item).lookup id = some entry) :
    out.lookup id = some entry ∨ ∃ obj, entry = .object obj := by
  unfold insertItem at h
  split at h
  · rename_i key hkey
    by_cases hid : id = key
    · subst hid
      rw [AList.lookup_insert, Option.some.injEq] at h
      obtain ⟨v, hv, -⟩ := Option.bind_eq_some_iff.1 hkey
      obtain ⟨obj, hobj, -⟩ := Value.exists_fields_of_get hv
      exact Or.inr ⟨obj, h ▸ hobj⟩
    · rw [AList.lookup_insert_ne hid] at h
      exact Or.inl h
  · exact Or.inl h

theorem lookup_foldl_insertItem {data : List Value} {out : Models} {id : Text} {entry : Value}
    (h : (data.foldl insertItem out).lookup id = some entry) :
    out.lookup id = some entry ∨ ∃ obj, entry = .object obj := by
  induction data generalizing out with
  | nil => exact Or.inl h
  | cons item data ih =>
      rcases ih h with hout | hobj
      · exact lookup_insertItem hout
      · exact Or.inr hobj

/-- What a node advertises are objects. -/
theorem Advertised.object (advertised : Advertised fromStr) {id : Text} {entry : Value}
    (h : advertised.models.lookup id = some entry) : ∃ obj, entry = .object obj := by
  obtain ⟨body, models, hparsed⟩ := advertised
  unfold parseModelEntries at hparsed
  split at hparsed
  · cases hparsed
  · split at hparsed
    · cases hparsed
    · cases hparsed
      rcases lookup_foldl_insertItem h with hnone | hobj
      · cases hnone
      · exact hobj

theorem Op.sends_isObject (op : Op fromStr) : op.Sends IsObject := by
  cases op with
  | upsertNode nodeId advertised orders => exact fun id entry h => advertised.object h
  | removeNode nodeId orders => trivial
  | rebuildUnion orders => trivial

theorem Every.written {P : Value → Prop} {s : State} (h : Every P s) {op : Op fromStr}
    (hop : op.Sends P) : Every P (written s op) := by
  rintro ⟨nodeId, id, entry⟩ hmem
  obtain ⟨models, hmodels, hentry⟩ := HashMap.mem_rows.1 hmem
  have hold : s.byNode.lookup nodeId = some models → P entry := fun hlookup =>
    h (nodeId, id, entry) (HashMap.mem_rows.2 ⟨models, hlookup, hentry⟩)
  cases op with
  | upsertNode nodeId' advertised orders =>
      by_cases hid : nodeId = nodeId'
      · subst hid
        simp only [ModelsCatalog.written, AList.lookup_insert, Option.some.injEq] at hmodels
        subst hmodels
        exact hop id entry hentry
      · simp only [ModelsCatalog.written, AList.lookup_insert_ne hid] at hmodels
        exact hold hmodels
  | removeNode nodeId' orders =>
      by_cases hid : nodeId = nodeId'
      · subst hid
        simp only [ModelsCatalog.written, AList.lookup_erase] at hmodels
        cases hmodels
      · simp only [ModelsCatalog.written, AList.lookup_erase_ne hid] at hmodels
        exact hold hmodels
  | rebuildUnion orders => exact hold hmodels

@[simp] theorem byNode_rebuildUnion (orders : Orders) (s : State) :
    (rebuildUnion orders s).byNode = s.byNode := by
  simp only [rebuildUnion]
  split <;> rfl

theorem Every.apply {P : Value → Prop} {s : State} (h : Every P s) {op : Op fromStr}
    (hop : op.Sends P) : Every P (apply s op) := by
  have hwritten := h.written hop
  unfold ModelsCatalog.apply
  split
  · rwa [Every, byNode_rebuildUnion]
  · exact hwritten

theorem every_new (P : Value → Prop) : Every P new := fun v hv => by cases hv

/-! ### One rebuild -/

/-- A union made of all entries reflects them. -/
theorem reflects_of_merged {s : State} {visits : Visits}
    (hperm : visits.Perm (HashMap.rows s.byNode)) (hmerged : Merged visits s.union)
    (hofferings : s.offerings = (visits.map offeringOf).insertionSort offeringLe) : Reflects s where
  listed id := by
    have hmem : (∃ nodeId entry, (nodeId, id, entry) ∈ visits) ↔
        ∃ nodeId models, s.byNode.lookup nodeId = some models ∧ id ∈ models := by
      refine exists_congr fun nodeId => ?_
      simp only [hperm.mem_iff, HashMap.mem_rows]
      constructor
      · rintro ⟨entry, models, hmodels, hentry⟩
        exact ⟨models, hmodels, AList.lookup_isSome.1 (by rw [hentry]; rfl)⟩
      · rintro ⟨models, hmodels, hid⟩
        obtain ⟨entry, hentry⟩ := Option.isSome_iff_exists.1 (AList.lookup_isSome.2 hid)
        exact ⟨entry, models, hmodels, hentry⟩
    rw [← hmem, ← rowsOf_ne_nil_iff, ← AList.lookup_isSome]
    rcases hmerged id with ⟨hlookup, hnone⟩ | ⟨entry, hlookup, -, hsome⟩
    · simp [hlookup, hnone]
    · simp [hlookup, hsome]
  rows id entry hentry := by
    rcases hmerged id with ⟨hlookup, -⟩ | ⟨entry', hlookup, hrows, -⟩
    · rw [hlookup] at hentry
      cases hentry
    · obtain rfl : entry' = entry := Option.some.inj (hlookup.symm.trans hentry)
      exact ⟨_, hrows, (hperm.filter _).map _⟩
  offerings := by
    rw [hofferings]
    exact (List.perm_insertionSort _ _).trans (hperm.map _)
  sorted := by
    rw [hofferings]
    exact List.pairwise_insertionSort _ _

/-- **A rebuild** reflects the models of the nodes or ends in a panic, according to the entries it
meets first. -/
theorem rebuildUnion_cases {s : State} (h : Every IsObject s) (orders : Orders) :
    (FirstShaped [] (HashMap.visits orders.nodes orders.models s.byNode) ∧
      (rebuildUnion orders s).panics = s.panics ∧ Reflects (rebuildUnion orders s)) ∨
    (¬ FirstShaped [] (HashMap.visits orders.nodes orders.models s.byNode) ∧
      (rebuildUnion orders s).panics ≠ []) := by
  have hperm := HashMap.visits_perm orders.nodes orders.models s.byNode
  have hobjects : Objects (HashMap.visits orders.nodes orders.models s.byNode) := fun v hv =>
    h v (hperm.mem_iff.1 hv)
  rcases Merged.nil.visits hobjects with ⟨hfirst, out, hout, hmerged⟩ | ⟨hfirst, panic, hpanic⟩
  · refine Or.inl ⟨hfirst, ?_⟩
    simp only [rebuildUnion, hout]
    exact ⟨trivial, reflects_of_merged hperm hmerged rfl⟩
  · refine Or.inr ⟨hfirst, ?_⟩
    simp only [rebuildUnion, hpanic]
    exact List.append_ne_nil_of_right_ne_nil _ (List.cons_ne_nil _ _)

/-- Removing a node that is not there changes nothing. -/
theorem written_of_rebuilds_none {s : State} {op : Op fromStr} (h : rebuilds s op = none) :
    written s op = s := by
  cases op with
  | removeNode nodeId orders =>
      have habsent : nodeId ∉ s.byNode := by
        intro hmem
        rw [rebuilds, if_pos hmem] at h
        cases h
      have herase : s.byNode.erase nodeId = s.byNode :=
        AList.ext (List.kerase_of_notMem_keys habsent)
      rw [written, herase]
  | upsertNode nodeId advertised orders => cases h
  | rebuildUnion orders => cases h

@[simp] theorem panics_written (s : State) (op : Op fromStr) :
    (written s op).panics = s.panics := by
  cases op <;> rfl

/-- **One operation** keeps the catalog in order exactly when its rebuild meets no bad entry
first. -/
theorem apply_iff {s : State} (hobjects : Every IsObject s) (hpanics : s.panics = [])
    (hreflects : Reflects s) (op : Op fromStr) :
    ((apply s op).panics = [] ∧ Reflects (apply s op)) ↔ Mergeable s op := by
  have hwritten := hobjects.written op.sends_isObject
  cases hop : rebuilds s op with
  | none =>
      have happly : apply s op = s := by
        rw [apply, hop]
        exact written_of_rebuilds_none hop
      rw [happly]
      refine ⟨fun _ orders horders => ?_, fun _ => ⟨hpanics, hreflects⟩⟩
      rw [hop] at horders
      cases horders
  | some orders =>
      have happly : apply s op = rebuildUnion orders (written s op) := by rw [apply, hop]
      rw [happly]
      rcases rebuildUnion_cases hwritten orders with ⟨hfirst, hkept, hafter⟩ | ⟨hfirst, hpanic⟩
      · refine ⟨fun _ orders' horders => ?_, fun _ => ⟨?_, hafter⟩⟩
        · rw [hop] at horders
          cases horders
          exact hfirst
        · rw [hkept, panics_written, hpanics]
      · exact ⟨fun hok => absurd hok.1 hpanic, fun hall => absurd (hall orders hop) hfirst⟩

/-! ### Every sequence of operations -/

theorem reflects_new : Reflects new where
  listed id := by simp [new]
  rows id entry h := by cases h
  offerings := List.Perm.refl _
  sorted := List.Pairwise.nil

/-- **The shared catalog works exactly as long as every rebuild meets, first of each model, an entry
whose `sparkl` is missing or an object**: no operation panics, and after each of them the union and
the offerings are those of the models the nodes advertise. -/
theorem reflects_iff (fromStr : Text → Option Value) (ops : List (Op fromStr)) :
    Always step (fun s => s.panics = [] ∧ Reflects s) new ops ↔
      Throughout step (fun s op _ => Mergeable s op) new ops := by
  constructor
  · refine throughout_of_always (I := Every IsObject) ?_ ?_ (every_new IsObject)
    · rintro s op s' hobjects hs
      cases hs
      exact hobjects.apply op.sends_isObject
    · rintro s op s' hobjects hs ⟨hpanics, hreflects⟩ hafter
      cases hs
      exact (apply_iff hobjects hpanics hreflects op).1 hafter
  · intro h
    refine (always_of_step (I := fun s => Every IsObject s ∧ s.panics = [] ∧ Reflects s) ?_
      ⟨every_new IsObject, rfl, reflects_new⟩ h).mono fun s hs => hs.2
    rintro s op s' ⟨hobjects, hpanics, hreflects⟩ hs hmergeable
    cases hs
    exact ⟨hobjects.apply op.sends_isObject,
      (apply_iff hobjects hpanics hreflects op).2 hmergeable⟩

/-- **Nodes that send only entries whose `sparkl` is missing or an object do no harm**, whatever the
orders of the iterations are. -/
theorem reflects_of_shaped {ops : List (Op fromStr)}
    (h : ∀ op ∈ ops, op.Sends fun entry => shaped entry = true) :
    Always step (fun s => s.panics = [] ∧ Reflects s) new ops := by
  rw [reflects_iff]
  refine throughout_of_step (I := Every fun entry => shaped entry = true) ?_ ?_ (every_new _)
    (throughout_of_forall_mem h new)
  · rintro s op s' hshaped hs hop
    cases hs
    exact hshaped.apply hop
  · rintro s op s' hshaped hs hop orders - id v hv -
    have hmem := List.mem_of_find?_eq_some hv
    exact hshaped.written hop v ((HashMap.visits_perm _ _ _).mem_iff.1 hmem)

/-! ### A node that takes the models of another out of the catalog -/

def badItem : Value :=
  .object [⟨"id".toList, .string "m".toList⟩, ⟨sparklKey, .ofU64 1⟩]

def goodItem : Value := .object [⟨"id".toList, .string "llama".toList⟩]

def badBody : Text := "\x7b\"data\":[\x7b\"id\":\"m\",\"sparkl\":1\x7d]\x7d".toList

def goodBody : Text := "\x7b\"data\":[\x7b\"id\":\"llama\"\x7d]\x7d".toList

/-- The parser on the two bodies. -/
def parsesBoth (body : Text) : Option Value :=
  if body = badBody then some (.object [⟨"data".toList, .array [badItem]⟩])
  else if body = goodBody then some (.object [⟨"data".toList, .array [goodItem]⟩])
  else none

def bad : Advertised parsesBoth where
  body := badBody
  models := AList.singleton "m".toList badItem
  parsed := by rfl

def good : Advertised parsesBoth where
  body := goodBody
  models := AList.singleton "llama".toList goodItem
  parsed := by rfl

def storedOrders : Orders := ⟨IterOrder.stored _ _, fun _ => IterOrder.stored _ _⟩

/-- The second node comes after the first has sent an entry whose `sparkl` is a number. -/
def poisoned : List (Op parsesBoth) :=
  [.upsertNode (List.Vector.replicate 32 1) bad storedOrders,
    .upsertNode (List.Vector.replicate 32 2) good storedOrders]

/-- The second node's model is stored and not listed. -/
theorem observe_poisoned :
    (run step new poisoned).map (fun s =>
      (s.panics, (s.byNode.lookup (List.Vector.replicate 32 2)).map (·.keys), s.union.keys)) =
      some ([.sparklObject, .sparklObject], some ["llama".toList], []) := by
  decide +kernel

/-- **One entry of one node takes the models of another out of the catalog.** -/
theorem reflects_breaks :
    ¬ ∀ (fromStr : Text → Option Value) (ops : List (Op fromStr)),
      Always step (fun s => s.panics = [] ∧ Reflects s) new ops := by
  intro h
  obtain ⟨s, ⟨hpanics, -⟩, hobs⟩ := (h parsesBoth poisoned).observe observe_poisoned
  have hlog := congrArg Prod.fst hobs
  rw [hpanics] at hlog
  cases hlog

end ModelsCatalog
