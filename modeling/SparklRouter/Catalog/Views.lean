/-
**The published views of the catalog, lock by lock.**

`upsert_node` and `remove_node` (`src/consumer/models.rs`) write to the models of the nodes under
one lock, and `rebuild_union` then computes the union and the offerings and writes each under a lock
of its own, and the time of the refresh under a fourth.  This module runs any number of these calls
at once: a call can be held up wherever it asks for a lock, and the scheduler gives a lock to
whichever call it likes, as far as the lock allows.

A rebuild holds the lock of the models of the nodes, as a reader, from its first read to its last
write.  That alone makes the views agree with the models whenever nobody is in between: what a
rebuild writes late is still computed from models that nobody has been able to change.

Main definitions:

* `CatalogViews.Pc`, `CatalogViews.State`, `CatalogViews.step` — where a call stands, and the calls
  on one catalog;
* `CatalogViews.State.Quiet` — no call is between its write and the end of its rebuild;
* `CatalogViews.Consistent` — the views are what a rebuild would make of the models.

Main results:

* `CatalogViews.offeringsOf_eq` — the offerings do not depend on the order of the iteration;
* `CatalogViews.exists_unionOf_of_shaped` — entries whose `sparkl` is missing or an object make
  no rebuild panic;
* `CatalogViews.consistent_of_shaped` — **the views are consistent in every quiet state of every
  run**;
* `CatalogViews.Consistent.reflects` — consistent views reflect the models the nodes advertise.
-/

import SparklRouter.Catalog.Refresh
import SparklRouter.Concurrency.RwLock

set_option relaxedAutoImplicit false
set_option autoImplicit false

open Json Transition

namespace CatalogViews

open ModelsCatalog

/-! ### The calls -/

abbrev CallId := ℕ

/-- A time. -/
abbrev Instant := ℕ

/-- The locks of the catalog. -/
inductive Lock
  | byNode
  | union
  | offerings
  | lastRefresh
deriving DecidableEq

inductive Call
  | upsertNode (nodeId : NodeId) (models : Models)
  | removeNode (nodeId : NodeId)

/-- Where a call stands: in `upsert_node`, in `remove_node`, and then in `rebuild_union`. -/
inductive Pc
  /-- Asks for the lock of the models, to write. -/
  | upserting (nodeId : NodeId) (models : Models)
  | inserting (nodeId : NodeId) (models : Models)
  | removing (nodeId : NodeId)
  | erasing (nodeId : NodeId)
  /-- Asks for the lock of the models, to read. -/
  | rebuilding
  | merging
  /-- Asks for the lock of the union. -/
  | publishing (merged : HashMap Text Value)
  | writingUnion (merged : HashMap Text Value)
  /-- Asks for the lock of the offerings. -/
  | listing (flat : List ProviderOffering)
  | writingOfferings (flat : List ProviderOffering)
  /-- Asks for the lock of the time. -/
  | stamping
  | writingLastRefresh
  | returned
  | panicked

def Call.start : Call → Pc
  | .upsertNode nodeId models => .upserting nodeId models
  | .removeNode nodeId => .removing nodeId

/-- The lock a call asks for, and where it stands once it has it. -/
def Pc.request : Pc → Option (Lock × LockMode × Pc)
  | .upserting nodeId models => some (.byNode, .write, .inserting nodeId models)
  | .removing nodeId => some (.byNode, .write, .erasing nodeId)
  | .rebuilding => some (.byNode, .read, .merging)
  | .publishing merged => some (.union, .write, .writingUnion merged)
  | .listing flat => some (.offerings, .write, .writingOfferings flat)
  | .stamping => some (.lastRefresh, .write, .writingLastRefresh)
  | _ => none

/-- The catalog with its locks and the calls on it. -/
structure State where
  catalog : ModelsCatalog.State
  lastRefresh : Option Instant
  locks : Lock → RwLock CallId
  calls : List Pc

def init : State := ⟨ModelsCatalog.new, none, fun _ => RwLock.free, []⟩

def State.goTo (s : State) (i : CallId) (pc : Pc) : State := { s with calls := s.calls.set i pc }

def State.setLock (s : State) (l : Lock) (lock : RwLock CallId) : State :=
  { s with locks := Function.update s.locks l lock }

def State.release (s : State) (i : CallId) (l : Lock) (mode : LockMode) : State :=
  s.setLock l ((s.locks l).release i mode)

/-- The union of the models of the nodes, met in the given order. -/
def unionOf (orders : Orders) (byNode : HashMap NodeId Models) :
    Except Panic (HashMap Text Value) :=
  mergeVisits (HashMap.visits orders.nodes orders.models byNode) ∅

/-- The offerings of the models of the nodes. -/
def offeringsOf (orders : Orders) (byNode : HashMap NodeId Models) : List ProviderOffering :=
  ((HashMap.visits orders.nodes orders.models byNode).map offeringOf).insertionSort offeringLe

/-- What the scheduler can do. -/
inductive Action
  | call (c : Call)
  /-- A call gets the lock it asks for. -/
  | acquire (i : CallId)
  /-- A call does what it holds the lock for.  The orders are those of an iteration, the time is
  that of the clock. -/
  | work (i : CallId) (orders : Orders) (now : Instant)

/-- What a call does under a lock. -/
def State.work (s : State) (i : CallId) (orders : Orders) (now : Instant) : Pc → Option State
  | .inserting nodeId models =>
      some (({ s with catalog := ModelsRefresh.insertModels s.catalog nodeId models }.release i
        .byNode .write).goTo i .rebuilding)
  | .erasing nodeId =>
      some (({ s with catalog := ModelsRefresh.eraseModels s.catalog nodeId }.release i
        .byNode .write).goTo i (if nodeId ∈ s.catalog.byNode then .rebuilding else .returned))
  | .merging =>
      match unionOf orders s.catalog.byNode with
      | .ok merged => some (s.goTo i (.publishing merged))
      -- the panic drops the guard
      | .error panic =>
          some (({ s with catalog := { s.catalog with
            panics := s.catalog.panics ++ [panic] } }.release i .byNode .read).goTo i .panicked)
  | .writingUnion merged =>
      some (({ s with catalog := { s.catalog with union := merged } }.release i .union .write).goTo i
        (.listing (offeringsOf orders s.catalog.byNode)))
  | .writingOfferings flat =>
      some (({ s with catalog := { s.catalog with offerings := flat } }.release i
        .offerings .write).goTo i .stamping)
  -- the guard of the models is dropped at the end of the rebuild
  | .writingLastRefresh =>
      some ((({ s with lastRefresh := some now }.release i .lastRefresh .write).release i
        .byNode .read).goTo i .returned)
  | _ => none

/-- **The transition function of the calls on one catalog.** -/
def step (s : State) : Action → Option State
  | .call c => some { s with calls := s.calls ++ [c.start] }
  | .acquire i =>
      (s.calls[i]?).bind fun pc => pc.request.bind fun r =>
        ((s.locks r.1).acquire i r.2.1).map fun lock => (s.setLock r.1 lock).goTo i r.2.2
  | .work i orders now => (s.calls[i]?).bind (s.work i orders now)

/-! ### Consistency -/

/-- The call has written and its rebuild has not ended. -/
def Pc.busy : Pc → Bool
  | .rebuilding | .merging | .publishing _ | .writingUnion _ | .listing _ | .writingOfferings _
  | .stamping | .writingLastRefresh => true
  | _ => false

/-- No call is between its write to the models of the nodes and the end of its rebuild. -/
def State.Quiet (s : State) : Prop := ∀ pc ∈ s.calls, pc.busy = false

/-- No rebuild has panicked, and the views are what a rebuild makes of the models of the nodes. -/
structure Consistent (catalog : ModelsCatalog.State) : Prop where
  panics : catalog.panics = []
  rebuilt : ∃ orders, rebuildUnion orders catalog = catalog

/-- Every entry that comes in with the call satisfies `P`. -/
def Call.Sends (P : Value → Prop) : Call → Prop
  | .upsertNode _ models => ∀ id entry, models.lookup id = some entry → P entry
  | .removeNode _ => True

def Action.Sends (P : Value → Prop) : Action → Prop
  | .call c => c.Sends P
  | .acquire _ => True
  | .work _ _ _ => True

/-! ### What a rebuild computes -/

/-- Two offerings of one node's model are the same offering. -/
theorem visit_eq {byNode : HashMap NodeId Models} {v w : NodeId × Text × Value}
    (hv : v ∈ HashMap.rows byNode) (hw : w ∈ HashMap.rows byNode) (hnode : v.1 = w.1)
    (hmodel : v.2.1 = w.2.1) : v = w := by
  obtain ⟨nodeId, id, entry⟩ := v
  obtain ⟨nodeId', id', entry'⟩ := w
  obtain rfl : nodeId = nodeId' := hnode
  obtain rfl : id = id' := hmodel
  obtain ⟨models, hmodels, hentry⟩ := HashMap.mem_rows.1 hv
  obtain ⟨models', hmodels', hentry'⟩ := HashMap.mem_rows.1 hw
  obtain rfl : models = models' := Option.some.inj (hmodels.symm.trans hmodels')
  obtain rfl : entry = entry' := Option.some.inj (hentry.symm.trans hentry')
  rfl

/-- **The offerings do not depend on the order of the iteration.** -/
theorem offeringsOf_eq (orders orders' : Orders) (byNode : HashMap NodeId Models) :
    offeringsOf orders byNode = offeringsOf orders' byNode := by
  have hperm := HashMap.visits_perm orders.nodes orders.models byNode
  have hperm' := HashMap.visits_perm orders'.nodes orders'.models byNode
  refine List.Perm.eq_of_pairwise ?_ (List.pairwise_insertionSort offeringLe _)
    (List.pairwise_insertionSort offeringLe _)
    ((List.perm_insertionSort _ _).trans (((hperm.trans hperm'.symm).map offeringOf).trans
      (List.perm_insertionSort _ _).symm))
  intro a b ha hb hab hba
  rw [offeringsOf, List.mem_insertionSort, List.mem_map] at ha hb
  obtain ⟨v, hv, rfl⟩ := ha
  obtain ⟨w, hw, rfl⟩ := hb
  have hmodel : v.2.1 = w.2.1 := by
    rcases hab with hlt | ⟨heq, -⟩
    · rcases hba with hgt | ⟨heq, -⟩
      · exact absurd hlt (lt_asymm hgt)
      · exact heq.symm
    · exact heq
  have hnode : NodeAuth.nodeIdHex v.1 = NodeAuth.nodeIdHex w.1 := by
    rcases hab with hlt | ⟨-, hle⟩
    · exact absurd (show v.2.1 < w.2.1 from hlt) (hmodel ▸ lt_irrefl v.2.1)
    · rcases hba with hgt | ⟨-, hge⟩
      · exact absurd (show w.2.1 < v.2.1 from hgt) (hmodel ▸ lt_irrefl v.2.1)
      · exact le_antisymm hle hge
  rw [visit_eq (hperm.mem_iff.1 hv) (hperm'.mem_iff.1 hw) (NodeAuth.nodeIdHex_injective hnode)
    hmodel]

/-- The entries of a union that are objects have rows, so the `expect`s on them do not fail. -/
def Usable (merged : HashMap Text Value) : Prop :=
  ∀ id obj, merged.lookup id = some (.object obj) → ∃ rows, HasRows (.object obj) rows

theorem Usable.insert {merged : HashMap Text Value} (h : Usable merged) (id : Text) {entry : Value}
    (hentry : IsObject entry → ∃ rows, HasRows entry rows) : Usable (merged.insert id entry) := by
  intro id' obj hlookup
  by_cases hid : id' = id
  · subst hid
    rw [AList.lookup_insert, Option.some.injEq] at hlookup
    exact hlookup ▸ hentry ⟨obj, hlookup⟩
  · rw [AList.lookup_insert_ne hid] at hlookup
    exact h id' obj hlookup

/-- Merging an entry whose `sparkl` is missing or an object. -/
theorem Usable.mergeModelEntry {merged : HashMap Text Value} (h : Usable merged) (id : Text)
    (nodeId : NodeId) {entry : Value} (hshaped : shaped entry = true) :
    ∃ merged', ModelsCatalog.mergeModelEntry merged id nodeId entry = .ok merged' ∧
      Usable merged' := by
  cases hlookup : merged.lookup id with
  | none =>
      by_cases hobj : IsObject entry
      · obtain ⟨obj, rfl⟩ := hobj
        obtain ⟨entry', hok, hrows⟩ := mergeModelEntry_fresh nodeId obj hlookup hshaped
        exact ⟨_, hok, h.insert id fun _ => ⟨_, hrows⟩⟩
      · refine ⟨merged.insert id entry, ?_, h.insert id fun hobject => absurd hobject hobj⟩
        cases entry with
        | object obj => exact absurd ⟨obj, rfl⟩ hobj
        | null => simp only [ModelsCatalog.mergeModelEntry, hlookup]
        | bool b => simp only [ModelsCatalog.mergeModelEntry, hlookup]
        | number n => simp only [ModelsCatalog.mergeModelEntry, hlookup]
        | string t => simp only [ModelsCatalog.mergeModelEntry, hlookup]
        | array items => simp only [ModelsCatalog.mergeModelEntry, hlookup]
  | some listed =>
      by_cases hobj : IsObject listed
      · obtain ⟨obj, rfl⟩ := hobj
        obtain ⟨rows, hrows⟩ := h id obj hlookup
        obtain ⟨entry', hok, hrows'⟩ := mergeModelEntry_listed nodeId entry hlookup hrows
        exact ⟨_, hok, h.insert id fun _ => ⟨_, hrows'⟩⟩
      · refine ⟨merged, ?_, h⟩
        cases listed with
        | object obj => exact absurd ⟨obj, rfl⟩ hobj
        | null => simp only [ModelsCatalog.mergeModelEntry, hlookup]
        | bool b => simp only [ModelsCatalog.mergeModelEntry, hlookup]
        | number n => simp only [ModelsCatalog.mergeModelEntry, hlookup]
        | string t => simp only [ModelsCatalog.mergeModelEntry, hlookup]
        | array items => simp only [ModelsCatalog.mergeModelEntry, hlookup]

/-- **Entries whose `sparkl` is missing or an object make no rebuild panic**, in any order. -/
theorem exists_unionOf_of_shaped {catalog : ModelsCatalog.State}
    (h : Every (fun entry => shaped entry = true) catalog) (orders : Orders) :
    ∃ merged, unionOf orders catalog.byNode = .ok merged := by
  have hshaped : ∀ v ∈ HashMap.visits orders.nodes orders.models catalog.byNode,
      shaped v.2.2 = true := fun v hv => h v ((HashMap.visits_perm _ _ _).mem_iff.1 hv)
  have hempty : Usable ∅ := fun id obj hlookup => by cases hlookup
  unfold unionOf
  generalize HashMap.visits orders.nodes orders.models catalog.byNode = visits at hshaped ⊢
  generalize (∅ : HashMap Text Value) = merged at hempty ⊢
  induction visits generalizing merged with
  | nil => exact ⟨merged, rfl⟩
  | cons v visits ih =>
      obtain ⟨merged', hok, husable⟩ :=
        hempty.mergeModelEntry v.2.1 v.1 (hshaped v List.mem_cons_self)
      have hrest := ih (fun w hw => hshaped w (List.mem_cons_of_mem v hw)) merged' husable
      rw [mergeVisits, List.foldlM_cons, hok]
      exact hrest

/-- A rebuild publishes what it computes. -/
theorem rebuildUnion_of_unionOf {catalog : ModelsCatalog.State} {orders : Orders}
    {merged : HashMap Text Value} (h : unionOf orders catalog.byNode = .ok merged) :
    rebuildUnion orders catalog =
      { catalog with union := merged, offerings := offeringsOf orders catalog.byNode } := by
  unfold unionOf at h
  simp only [rebuildUnion, h]
  rfl

/-! ### The invariant -/

/-- The call reads the models of the nodes. -/
def Pc.reads : Pc → Bool
  | .merging | .publishing _ | .writingUnion _ | .listing _ | .writingOfferings _ | .stamping
  | .writingLastRefresh => true
  | _ => false

/-- The call writes to the models of the nodes. -/
def Pc.writes : Pc → Bool
  | .inserting _ _ | .erasing _ => true
  | _ => false

/-- The call has yet to write the union. -/
def Pc.unionAhead : Pc → Bool
  | .rebuilding | .merging | .publishing _ | .writingUnion _ => true
  | _ => false

/-- The call has yet to write the offerings. -/
def Pc.offeringsAhead : Pc → Bool
  | .listing _ | .writingOfferings _ => true
  | pc => pc.unionAhead

/-- What the call is about to publish is computed from these models. -/
def Pc.Current (byNode : HashMap NodeId Models) : Pc → Prop
  | .publishing merged | .writingUnion merged => ∃ orders, unionOf orders byNode = .ok merged
  | .listing flat | .writingOfferings flat => ∃ orders, flat = offeringsOf orders byNode
  | _ => True

/-- The models a call is about to store. -/
def Pc.Sends (P : Value → Prop) : Pc → Prop
  | .upserting _ models | .inserting _ models =>
      ∀ id entry, models.lookup id = some entry → P entry
  | _ => True

/-- Some call stands where `p` holds. -/
def State.Has (s : State) (p : Pc → Bool) : Prop := ∃ pc ∈ s.calls, p pc = true

/-- **Who reads or writes the models holds their lock.** -/
structure Locked (s : State) : Prop where
  reading : ∀ i pc, s.calls[i]? = some pc → pc.reads = true → (s.locks .byNode).Holds i .read
  writing : ∀ i pc, s.calls[i]? = some pc → pc.writes = true → (s.locks .byNode).Holds i .write

/-- **The views are those of the models, or some call has yet to write them**; and what a call
is about to write is computed from the models as they are. -/
structure Published (s : State) : Prop where
  current : ∀ pc ∈ s.calls, pc.Current s.catalog.byNode
  union : (∃ orders, unionOf orders s.catalog.byNode = .ok s.catalog.union) ∨
    s.Has Pc.unionAhead
  offerings : (∃ orders, s.catalog.offerings = offeringsOf orders s.catalog.byNode) ∨
    s.Has Pc.offeringsAhead

/-- The entries the nodes have sent satisfy `P`, those on their way to the catalog included. -/
structure Holding (P : Value → Prop) (s : State) : Prop where
  every : Every P s.catalog
  sends : ∀ pc ∈ s.calls, pc.Sends P

/-! ### One step -/

/-- **What a step does**: it adds a call, gives a lock to a call, or lets a call work. -/
theorem step_cases {s s' : State} {a : Action} (h : step s a = some s') :
    (∃ c, a = .call c ∧ s' = { s with calls := s.calls ++ [c.start] }) ∨
      (∃ i pc l mode pc' lock, a = .acquire i ∧ s.calls[i]? = some pc ∧
        pc.request = some (l, mode, pc') ∧ (s.locks l).acquire i mode = some lock ∧
        s' = (s.setLock l lock).goTo i pc') ∨
      ∃ i orders now pc, a = .work i orders now ∧ s.calls[i]? = some pc ∧
        s.work i orders now pc = some s' := by
  cases a with
  | call c => exact Or.inl ⟨c, rfl, (Option.some.inj h).symm⟩
  | acquire i =>
      obtain ⟨pc, hpc, h⟩ := Option.bind_eq_some_iff.1 h
      obtain ⟨⟨l, mode, pc'⟩, hrequest, h⟩ := Option.bind_eq_some_iff.1 h
      obtain ⟨lock, hlock, rfl⟩ := Option.map_eq_some_iff.1 h
      exact Or.inr (Or.inl ⟨i, pc, l, mode, pc', lock, rfl, hpc, hrequest, hlock, rfl⟩)
  | work i orders now =>
      obtain ⟨pc, hpc, h⟩ := Option.bind_eq_some_iff.1 h
      exact Or.inr (Or.inr ⟨i, orders, now, pc, rfl, hpc, h⟩)

/-- A call moves on, and the others keep what they hold. -/
theorem Locked.set {s s' : State} (h : Locked s) {i : CallId} {pc' : Pc}
    (hcalls : s'.calls = s.calls.set i pc')
    (hothers : ∀ j mode, j ≠ i → (s.locks .byNode).Holds j mode →
      (s'.locks .byNode).Holds j mode)
    (hreads : pc'.reads = true → (s'.locks .byNode).Holds i .read)
    (hwrites : pc'.writes = true → (s'.locks .byNode).Holds i .write) : Locked s' where
  reading j pc hj hpc := by
    rw [hcalls] at hj
    rcases TaskPool.getElem?_set_cases hj with ⟨rfl, rfl⟩ | ⟨hij, hj⟩
    · exact hreads hpc
    · exact hothers j .read (Ne.symm hij) (h.reading j pc hj hpc)
  writing j pc hj hpc := by
    rw [hcalls] at hj
    rcases TaskPool.getElem?_set_cases hj with ⟨rfl, rfl⟩ | ⟨hij, hj⟩
    · exact hwrites hpc
    · exact hothers j .write (Ne.symm hij) (h.writing j pc hj hpc)

theorem locks_setLock (s : State) (l l' : Lock) (lock : RwLock CallId) :
    (s.setLock l lock).locks l' = if l' = l then lock else s.locks l' := by
  simp [State.setLock, Function.update_apply]

/-- What a call gives back, the others keep. -/
theorem holds_release {s : State} {i j : CallId} {l l' : Lock} {mode mode' : LockMode}
    (h : (s.locks l').Holds j mode) (hij : j ≠ i) :
    ((s.release i l mode').locks l').Holds j mode := by
  rw [State.release, locks_setLock]
  split
  · rename_i hl
    exact hl ▸ h.release hij mode'
  · exact h

/-- A lock of one view is none of the models'. -/
theorem byNode_release {s : State} {i : CallId} {l : Lock} (hl : l ≠ .byNode) (mode : LockMode) :
    (s.release i l mode).locks .byNode = s.locks .byNode := by
  rw [State.release, locks_setLock, if_neg hl.symm]

theorem Locked.acquire {s : State} (h : Locked s) {i : CallId} {pc pc' : Pc} {l : Lock}
    {mode : LockMode} {lock : RwLock CallId} (hpc : s.calls[i]? = some pc)
    (hrequest : pc.request = some (l, mode, pc')) (hlock : (s.locks l).acquire i mode = some lock) :
    Locked ((s.setLock l lock).goTo i pc') := by
  have hkept : ∀ j mode', (s.locks .byNode).Holds j mode' →
      ((s.setLock l lock).locks .byNode).Holds j mode' := by
    intro j mode' hj
    rw [locks_setLock]
    split
    · rename_i hl
      subst hl
      exact hj.acquire hlock
    · exact hj
  have hgot : ((s.setLock l lock).locks l).Holds i mode := by
    rw [locks_setLock, if_pos rfl]
    exact RwLock.holds_acquire hlock
  refine h.set rfl (fun j mode' _ => hkept j mode') ?_ ?_
  · intro hreads
    cases pc with
    | rebuilding =>
        cases hrequest
        exact hgot
    | publishing merged =>
        cases hrequest
        exact hkept i .read (h.reading i _ hpc rfl)
    | listing flat =>
        cases hrequest
        exact hkept i .read (h.reading i _ hpc rfl)
    | stamping =>
        cases hrequest
        exact hkept i .read (h.reading i _ hpc rfl)
    | upserting nodeId models =>
        cases hrequest
        cases hreads
    | removing nodeId =>
        cases hrequest
        cases hreads
    | _ => cases hrequest
  · intro hwrites
    cases pc with
    | upserting nodeId models =>
        cases hrequest
        exact hgot
    | removing nodeId =>
        cases hrequest
        exact hgot
    | rebuilding =>
        cases hrequest
        cases hwrites
    | publishing merged =>
        cases hrequest
        cases hwrites
    | listing flat =>
        cases hrequest
        cases hwrites
    | stamping =>
        cases hrequest
        cases hwrites
    | _ => cases hrequest

theorem Locked.work {s s' : State} (h : Locked s) {i : CallId} {pc : Pc} {orders : Orders}
    {now : Instant} (hpc : s.calls[i]? = some pc) (hwork : s.work i orders now pc = some s') :
    Locked s' := by
  cases pc with
  | inserting nodeId models =>
      obtain rfl := Option.some.inj hwork
      exact h.set rfl (fun j mode hij hj => holds_release (s := { s with catalog := _ }) hj hij)
        (fun hreads => by cases hreads) (fun hwrites => by cases hwrites)
  | erasing nodeId =>
      obtain rfl := Option.some.inj hwork
      refine h.set rfl (fun j mode hij hj => holds_release (s := { s with catalog := _ }) hj hij)
        (fun hreads => ?_) (fun hwrites => ?_)
      · split at hreads <;> cases hreads
      · split at hwrites <;> cases hwrites
  | merging =>
      rw [State.work] at hwork
      split at hwork
      · obtain rfl := Option.some.inj hwork
        exact h.set rfl (fun j mode _ hj => hj) (fun _ => h.reading i _ hpc rfl)
          (fun hwrites => by cases hwrites)
      · obtain rfl := Option.some.inj hwork
        exact h.set rfl (fun j mode hij hj => holds_release (s := { s with catalog := _ }) hj hij)
          (fun hreads => by cases hreads) (fun hwrites => by cases hwrites)
  | writingUnion merged =>
      obtain rfl := Option.some.inj hwork
      have hlock := byNode_release (s := { s with catalog := { s.catalog with union := merged } })
        (i := i) (show Lock.union ≠ .byNode by decide) .write
      exact h.set rfl (fun j mode _ hj => hlock ▸ hj) (fun _ => hlock ▸ h.reading i _ hpc rfl)
        (fun hwrites => by cases hwrites)
  | writingOfferings flat =>
      obtain rfl := Option.some.inj hwork
      have hlock := byNode_release (s := { s with catalog := { s.catalog with offerings := flat } })
        (i := i) (show Lock.offerings ≠ .byNode by decide) .write
      exact h.set rfl (fun j mode _ hj => hlock ▸ hj) (fun _ => hlock ▸ h.reading i _ hpc rfl)
        (fun hwrites => by cases hwrites)
  | writingLastRefresh =>
      obtain rfl := Option.some.inj hwork
      have hlock := byNode_release (s := { s with lastRefresh := some now }) (i := i)
        (show Lock.lastRefresh ≠ .byNode by decide) .write
      exact h.set rfl (fun j mode hij hj => holds_release (hlock ▸ hj) hij)
        (fun hreads => by cases hreads) (fun hwrites => by cases hwrites)
  | _ => cases hwork

theorem Locked.step {s s' : State} (h : Locked s) {a : Action} (hs : step s a = some s') :
    Locked s' := by
  rcases step_cases hs with ⟨c, -, rfl⟩ | ⟨i, pc, l, mode, pc', lock, -, hpc, hrequest, hlock, rfl⟩ |
    ⟨i, orders, now, pc, -, hpc, hwork⟩
  · refine ⟨fun j pc hj hpc => ?_, fun j pc hj hpc => ?_⟩
    · rcases TaskPool.getElem?_append_cases hj with ⟨-, rfl⟩ | hj
      · cases c <;> cases hpc
      · exact h.reading j pc hj hpc
    · rcases TaskPool.getElem?_append_cases hj with ⟨-, rfl⟩ | hj
      · cases c <;> cases hpc
      · exact h.writing j pc hj hpc
  · exact h.acquire hpc hrequest hlock
  · exact h.work hpc hwork

/-- **Nobody reads the models while somebody writes to them.** -/
theorem Locked.alone {s : State} (h : Locked s) {i : CallId} {pc : Pc}
    (hpc : s.calls[i]? = some pc) (hwrites : pc.writes = true) :
    ∀ pc' ∈ s.calls, pc'.reads = false := by
  intro pc' hmem
  obtain ⟨j, hj⟩ := List.getElem?_of_mem hmem
  cases hreads : pc'.reads with
  | false => rfl
  | true =>
      obtain ⟨hmode, -⟩ := (h.writing i pc hpc hwrites).alone (h.reading j pc' hj hreads)
      cases hmode

/-- Who does not read the models is not about to publish anything. -/
theorem Pc.current_of_not_reads {pc : Pc} (h : pc.reads = false) (byNode : HashMap NodeId Models) :
    pc.Current byNode := by
  cases pc with
  | publishing merged => cases h
  | writingUnion merged => cases h
  | listing flat => cases h
  | writingOfferings flat => cases h
  | _ => trivial

theorem State.Has.set {s s' : State} {p : Pc → Bool} (h : s.Has p) {i : CallId} {pc pc' : Pc}
    (hpc : s.calls[i]? = some pc) (hcalls : s'.calls = s.calls.set i pc')
    (hp : p pc = true → p pc' = true) : s'.Has p := by
  obtain ⟨pc₁, hmem, hp₁⟩ := h
  obtain ⟨j, hj⟩ := List.getElem?_of_mem hmem
  rw [State.Has, hcalls]
  rcases eq_or_ne i j with rfl | hij
  · obtain rfl : pc = pc₁ := Option.some.inj (hpc.symm.trans hj)
    exact ⟨pc', List.mem_of_getElem? (TaskPool.getElem?_set_self hpc pc'), hp hp₁⟩
  · exact ⟨pc₁, List.mem_of_getElem? ((List.getElem?_set_ne hij).trans hj), hp₁⟩

theorem has_set_self {s s' : State} {p : Pc → Bool} {i : CallId} {pc pc' : Pc}
    (hpc : s.calls[i]? = some pc) (hcalls : s'.calls = s.calls.set i pc') (hp : p pc' = true) :
    s'.Has p :=
  ⟨pc', hcalls ▸ List.mem_of_getElem? (TaskPool.getElem?_set_self hpc pc'), hp⟩

/-- A call moves on and the catalog stays as it is. -/
theorem Published.keep {s s' : State} (h : Published s) {i : CallId} {pc pc' : Pc}
    (hpc : s.calls[i]? = some pc) (hcalls : s'.calls = s.calls.set i pc')
    (hcatalog : s'.catalog = s.catalog) (hcurrent : pc'.Current s.catalog.byNode)
    (hunion : pc.unionAhead = true → pc'.unionAhead = true)
    (hofferings : pc.offeringsAhead = true → pc'.offeringsAhead = true) : Published s' where
  current pc₁ hmem := by
    rw [hcalls] at hmem
    rw [hcatalog]
    rcases List.mem_or_eq_of_mem_set hmem with hmem | rfl
    · exact h.current pc₁ hmem
    · exact hcurrent
  union := by
    rw [hcatalog]
    exact h.union.imp_right fun hhas => hhas.set hpc hcalls hunion
  offerings := by
    rw [hcatalog]
    exact h.offerings.imp_right fun hhas => hhas.set hpc hcalls hofferings

/-- The models are written to, and the call has a rebuild ahead. -/
theorem Published.overwrite {s s' : State} (hlocked : Locked s) {i : CallId} {pc : Pc}
    (hpc : s.calls[i]? = some pc) (hwrites : pc.writes = true)
    (hcalls : s'.calls = s.calls.set i .rebuilding) : Published s' where
  current pc₁ hmem := by
    rw [hcalls] at hmem
    rcases List.mem_or_eq_of_mem_set hmem with hmem | rfl
    · exact Pc.current_of_not_reads (hlocked.alone hpc hwrites pc₁ hmem) _
    · trivial
  union := Or.inr (has_set_self hpc hcalls rfl)
  offerings := Or.inr (has_set_self hpc hcalls rfl)

/-- Removing a node that is not there changes nothing. -/
theorem eraseModels_of_notMem {catalog : ModelsCatalog.State} {nodeId : NodeId}
    (h : nodeId ∉ catalog.byNode) : ModelsRefresh.eraseModels catalog nodeId = catalog := by
  rw [ModelsRefresh.eraseModels]
  have herase : catalog.byNode.erase nodeId = catalog.byNode :=
    AList.ext (List.kerase_of_notMem_keys h)
  rw [herase]

theorem Published.work {s s' : State} (h : Published s) (hlocked : Locked s)
    (hholding : Holding (fun entry => shaped entry = true) s) {i : CallId} {pc : Pc}
    {orders : Orders} {now : Instant} (hpc : s.calls[i]? = some pc)
    (hwork : s.work i orders now pc = some s') : Published s' := by
  have hcurrent := h.current pc (List.mem_of_getElem? hpc)
  cases pc with
  | inserting nodeId models =>
      obtain rfl := Option.some.inj hwork
      exact Published.overwrite hlocked hpc rfl rfl
  | erasing nodeId =>
      obtain rfl := Option.some.inj hwork
      by_cases hmem : nodeId ∈ s.catalog.byNode
      · exact Published.overwrite hlocked hpc rfl (by rw [if_pos hmem]; rfl)
      · have hcalls : s.calls.set i (if nodeId ∈ s.catalog.byNode then .rebuilding else .returned)
            = s.calls.set i .returned := by
          rw [if_neg hmem]
        exact h.keep hpc hcalls (eraseModels_of_notMem hmem) trivial (fun hp => (by cases hp))
          (fun hp => (by cases hp))
  | merging =>
      obtain ⟨merged, hmerged⟩ := exists_unionOf_of_shaped hholding.every orders
      rw [State.work, hmerged] at hwork
      obtain rfl := Option.some.inj hwork
      exact h.keep hpc rfl rfl ⟨orders, hmerged⟩ id id
  | writingUnion merged =>
      obtain rfl := Option.some.inj hwork
      refine ⟨fun pc₁ hmem => ?_, Or.inl hcurrent, ?_⟩
      · rcases List.mem_or_eq_of_mem_set hmem with hmem | rfl
        · exact h.current pc₁ hmem
        · exact ⟨orders, rfl⟩
      · exact h.offerings.imp_right fun hhas => hhas.set hpc rfl fun _ => rfl
  | writingOfferings flat =>
      obtain rfl := Option.some.inj hwork
      refine ⟨fun pc₁ hmem => ?_, ?_, Or.inl hcurrent⟩
      · rcases List.mem_or_eq_of_mem_set hmem with hmem | rfl
        · exact h.current pc₁ hmem
        · trivial
      · exact h.union.imp_right fun hhas => hhas.set hpc rfl fun hp => by cases hp
  | writingLastRefresh =>
      obtain rfl := Option.some.inj hwork
      exact h.keep hpc rfl rfl trivial (fun hp => by cases hp) (fun hp => by cases hp)
  | _ => cases hwork

theorem Published.acquire {s : State} (h : Published s) {i : CallId} {pc pc' : Pc} {l : Lock}
    {mode : LockMode} (lock : RwLock CallId) (hpc : s.calls[i]? = some pc)
    (hrequest : pc.request = some (l, mode, pc')) : Published ((s.setLock l lock).goTo i pc') := by
  have hcurrent := h.current pc (List.mem_of_getElem? hpc)
  cases pc with
  | upserting nodeId models =>
      cases hrequest
      exact h.keep hpc rfl rfl trivial id id
  | removing nodeId =>
      cases hrequest
      exact h.keep hpc rfl rfl trivial id id
  | rebuilding =>
      cases hrequest
      exact h.keep hpc rfl rfl trivial id id
  | publishing merged =>
      cases hrequest
      exact h.keep hpc rfl rfl hcurrent id id
  | listing flat =>
      cases hrequest
      exact h.keep hpc rfl rfl hcurrent id id
  | stamping =>
      cases hrequest
      exact h.keep hpc rfl rfl trivial id id
  | _ => cases hrequest

theorem Published.call {s : State} (h : Published s) (c : Call) :
    Published { s with calls := s.calls ++ [c.start] } where
  current pc hmem := by
    rcases List.mem_append.1 hmem with hmem | hmem
    · exact h.current pc hmem
    · obtain rfl := List.mem_singleton.1 hmem
      cases c <;> trivial
  union := h.union.imp_right fun ⟨pc, hmem, hp⟩ => ⟨pc, List.mem_append_left _ hmem, hp⟩
  offerings := h.offerings.imp_right fun ⟨pc, hmem, hp⟩ => ⟨pc, List.mem_append_left _ hmem, hp⟩

/-! ### What the nodes send -/

section

variable {P : Value → Prop}

theorem Holding.set {s s' : State} (h : Holding P s) {i : CallId} {pc' : Pc}
    (hcalls : s'.calls = s.calls.set i pc') (hevery : Every P s'.catalog) (hpc' : pc'.Sends P) :
    Holding P s' where
  every := hevery
  sends pc hmem := by
    rw [hcalls] at hmem
    rcases List.mem_or_eq_of_mem_set hmem with hmem | rfl
    · exact h.sends pc hmem
    · exact hpc'

theorem every_insertModels {catalog : ModelsCatalog.State} (h : Every P catalog) (nodeId : NodeId)
    {models : Models} (hmodels : ∀ id entry, models.lookup id = some entry → P entry) :
    Every P (ModelsRefresh.insertModels catalog nodeId models) := by
  rintro ⟨nodeId', id, entry⟩ hmem
  obtain ⟨models', hlookup, hentry⟩ := HashMap.mem_rows.1 hmem
  by_cases hid : nodeId' = nodeId
  · subst hid
    simp only [ModelsRefresh.insertModels, AList.lookup_insert, Option.some.injEq] at hlookup
    subst hlookup
    exact hmodels id entry hentry
  · simp only [ModelsRefresh.insertModels, AList.lookup_insert_ne hid] at hlookup
    exact h (nodeId', id, entry) (HashMap.mem_rows.2 ⟨models', hlookup, hentry⟩)

theorem every_eraseModels {catalog : ModelsCatalog.State} (h : Every P catalog) (nodeId : NodeId) :
    Every P (ModelsRefresh.eraseModels catalog nodeId) := by
  rintro ⟨nodeId', id, entry⟩ hmem
  obtain ⟨models', hlookup, hentry⟩ := HashMap.mem_rows.1 hmem
  by_cases hid : nodeId' = nodeId
  · subst hid
    simp only [ModelsRefresh.eraseModels, AList.lookup_erase] at hlookup
    cases hlookup
  · simp only [ModelsRefresh.eraseModels, AList.lookup_erase_ne hid] at hlookup
    exact h (nodeId', id, entry) (HashMap.mem_rows.2 ⟨models', hlookup, hentry⟩)

theorem Holding.step {s s' : State} (h : Holding P s) {a : Action} (hs : step s a = some s')
    (ha : a.Sends P) : Holding P s' := by
  rcases step_cases hs with ⟨c, rfl, rfl⟩ | ⟨i, pc, l, mode, pc', lock, -, hpc, hrequest, -, rfl⟩ |
    ⟨i, orders, now, pc, -, hpc, hwork⟩
  · refine ⟨h.every, fun pc hmem => ?_⟩
    rcases List.mem_append.1 hmem with hmem | hmem
    · exact h.sends pc hmem
    · obtain rfl := List.mem_singleton.1 hmem
      cases c with
      | upsertNode nodeId models => exact ha
      | removeNode nodeId => trivial
  · have hsends := h.sends pc (List.mem_of_getElem? hpc)
    refine h.set rfl h.every ?_
    cases pc with
    | upserting nodeId models =>
        cases hrequest
        exact hsends
    | removing nodeId =>
        cases hrequest
        trivial
    | rebuilding =>
        cases hrequest
        trivial
    | publishing merged =>
        cases hrequest
        trivial
    | listing flat =>
        cases hrequest
        trivial
    | stamping =>
        cases hrequest
        trivial
    | _ => cases hrequest
  · have hsends := h.sends pc (List.mem_of_getElem? hpc)
    cases pc with
    | inserting nodeId models =>
        obtain rfl := Option.some.inj hwork
        exact h.set rfl (every_insertModels h.every nodeId hsends) trivial
    | erasing nodeId =>
        obtain rfl := Option.some.inj hwork
        refine h.set rfl (every_eraseModels h.every nodeId) ?_
        split <;> trivial
    | merging =>
        rw [State.work] at hwork
        split at hwork
        · obtain rfl := Option.some.inj hwork
          exact h.set rfl h.every trivial
        · obtain rfl := Option.some.inj hwork
          exact h.set rfl h.every trivial
    | writingUnion merged =>
        obtain rfl := Option.some.inj hwork
        exact h.set rfl h.every trivial
    | writingOfferings flat =>
        obtain rfl := Option.some.inj hwork
        exact h.set rfl h.every trivial
    | writingLastRefresh =>
        obtain rfl := Option.some.inj hwork
        exact h.set rfl h.every trivial
    | _ => cases hwork

end

/-! ### Every run -/

/-- No rebuild panics on shaped entries. -/
theorem panics_step {s s' : State} (h : Holding (fun entry => shaped entry = true) s) {a : Action}
    (hs : step s a = some s') : s'.catalog.panics = s.catalog.panics := by
  rcases step_cases hs with ⟨c, rfl, rfl⟩ | ⟨i, pc, l, mode, pc', lock, -, hpc, hrequest, -, rfl⟩ |
    ⟨i, orders, now, pc, -, hpc, hwork⟩
  · rfl
  · rfl
  · cases pc with
    | merging =>
        obtain ⟨merged, hmerged⟩ := exists_unionOf_of_shaped h.every orders
        rw [State.work, hmerged] at hwork
        obtain rfl := Option.some.inj hwork
        rfl
    | inserting nodeId models => exact Option.some.inj hwork ▸ rfl
    | erasing nodeId => exact Option.some.inj hwork ▸ rfl
    | writingUnion merged => exact Option.some.inj hwork ▸ rfl
    | writingOfferings flat => exact Option.some.inj hwork ▸ rfl
    | writingLastRefresh => exact Option.some.inj hwork ▸ rfl
    | _ => cases hwork

/-- What holds in every state of a run on shaped entries. -/
structure Invariant (s : State) : Prop where
  locked : Locked s
  published : Published s
  holding : Holding (fun entry => shaped entry = true) s
  panics : s.catalog.panics = []

theorem invariant_init : Invariant init where
  locked := ⟨fun i pc h => (by cases h), fun i pc h => (by cases h)⟩
  published := ⟨fun pc h => (by cases h), Or.inl ⟨storedOrders, rfl⟩, Or.inl ⟨storedOrders, rfl⟩⟩
  holding := ⟨every_new _, fun pc h => (by cases h)⟩
  panics := rfl

theorem Invariant.step {s s' : State} (h : Invariant s) {a : Action} (hs : step s a = some s')
    (ha : a.Sends fun entry => shaped entry = true) : Invariant s' where
  locked := h.locked.step hs
  published := by
    rcases step_cases hs with ⟨c, -, rfl⟩ | ⟨i, pc, l, mode, pc', lock, -, hpc, hrequest, -, rfl⟩ |
      ⟨i, orders, now, pc, -, hpc, hwork⟩
    · exact h.published.call c
    · exact h.published.acquire lock hpc hrequest
    · exact h.published.work h.locked h.holding hpc hwork
  holding := h.holding.step hs ha
  panics := (panics_step h.holding hs).trans h.panics

theorem Pc.busy_of_unionAhead {pc : Pc} (h : pc.unionAhead = true) : pc.busy = true := by
  cases pc <;> first | rfl | cases h

theorem Pc.busy_of_offeringsAhead {pc : Pc} (h : pc.offeringsAhead = true) : pc.busy = true := by
  cases pc <;> first | rfl | cases h

theorem State.Quiet.not_has {s : State} (h : s.Quiet) {p : Pc → Bool}
    (hp : ∀ {pc}, p pc = true → pc.busy = true) : ¬ s.Has p := by
  rintro ⟨pc, hmem, hpc⟩
  have hbusy := hp hpc
  rw [h pc hmem] at hbusy
  cases hbusy

theorem Invariant.consistent {s : State} (h : Invariant s) (hquiet : s.Quiet) :
    Consistent s.catalog where
  panics := h.panics
  rebuilt := by
    have hunion : ¬ s.Has Pc.unionAhead := hquiet.not_has Pc.busy_of_unionAhead
    have hofferings : ¬ s.Has Pc.offeringsAhead := hquiet.not_has Pc.busy_of_offeringsAhead
    obtain ⟨orders, hmerged⟩ := h.published.union.resolve_right hunion
    obtain ⟨orders', hflat⟩ := h.published.offerings.resolve_right hofferings
    refine ⟨orders, ?_⟩
    rw [rebuildUnion_of_unionOf hmerged, offeringsOf_eq orders orders', ← hflat]

/-- **The views are consistent in every quiet state of every run** of calls whose entries have a
`sparkl` that is missing or an object: no rebuild has panicked, and the union and the offerings are
what a rebuild makes of the models as they are. -/
theorem consistent_of_shaped {as : List Action}
    (h : ∀ a ∈ as, a.Sends fun entry => shaped entry = true) :
    Always step (fun s => s.Quiet → Consistent s.catalog) init as := by
  refine (always_of_step (I := Invariant) (fun s a s' hinv hs ha => hinv.step hs ha) invariant_init
    (throughout_of_forall_mem h init)).mono fun s hinv => hinv.consistent

/-- **Consistent views reflect the models the nodes advertise**, if these are objects. -/
theorem Consistent.reflects {catalog : ModelsCatalog.State} (h : Consistent catalog)
    (hobjects : Every IsObject catalog) : Reflects catalog := by
  obtain ⟨orders, hrebuilt⟩ := h.rebuilt
  rcases rebuildUnion_cases hobjects orders with ⟨-, -, hreflects⟩ | ⟨-, hpanics⟩
  · rwa [hrebuilt] at hreflects
  · rw [hrebuilt, h.panics] at hpanics
    exact absurd rfl hpanics

/-! ### Two rebuilds that overlap -/

/-- One model, listed without a `sparkl`. -/
def sampleModels (id : Text) : Models := AList.singleton id (.object [⟨"id".toList, .string id⟩])

/-- Two calls insert one after the other, then read the models together, and write the union in
turn. -/
def overlapping : List Action :=
  [.call (.upsertNode (List.Vector.replicate 32 1) (sampleModels "llama".toList)),
    .call (.upsertNode (List.Vector.replicate 32 2) (sampleModels "qwen".toList)),
    .acquire 0, .work 0 storedOrders 0, .acquire 1, .work 1 storedOrders 0, .acquire 0, .acquire 1,
    .work 0 storedOrders 0, .work 1 storedOrders 0, .acquire 1, .work 1 storedOrders 0, .acquire 1,
    .work 1 storedOrders 0, .acquire 1, .work 1 storedOrders 7, .acquire 0, .work 0 storedOrders 0,
    .acquire 0, .work 0 storedOrders 0, .acquire 0, .work 0 storedOrders 8]

/-- Both calls return, and both models are listed. -/
example :
    (run step init overlapping).map (fun s =>
      (s.calls.map Pc.busy, s.catalog.union.keys, s.lastRefresh)) =
      some ([false, false], ["llama".toList, "qwen".toList], some 8) := by
  decide +kernel

theorem consistent_overlapping :
    Always step (fun s => s.Quiet → Consistent s.catalog) init overlapping := by
  refine consistent_of_shaped fun a ha => ?_
  have hsample : ∀ id key entry, (sampleModels id).lookup key = some entry →
      shaped entry = true := by
    intro id key entry hlookup
    have hmem := List.mem_singleton.1 (AList.mem_lookup_iff.1 hlookup)
    cases hmem
    rfl
  cases a with
  | call c =>
      have hc : c = .upsertNode (List.Vector.replicate 32 1) (sampleModels "llama".toList) ∨
          c = .upsertNode (List.Vector.replicate 32 2) (sampleModels "qwen".toList) := by
        simpa [overlapping] using ha
      rcases hc with rfl | rfl
      · exact hsample _
      · exact hsample _
  | acquire i => trivial
  | work i orders now => trivial

end CatalogViews
