/-
**Models of a node that is gone.**

The teardown of a tunnel removes the models of its node from the catalog.  A refresh that has its
answer from the node writes it to the catalog all the same: nothing ties its `upsert_node` to the
connection it was spawned for.  If that write comes after the `remove_node` of the last connection
of the node, the models stay in the catalog, in the union and in the offerings, and no later step
takes them out.  They also stay when the last handler of the node returns without `remove_node`,
after a failed `ready`, and the models came in while it was still in its handshake.  This module
proves that there is nothing else.

The summaries lag behind the models of the nodes, between the write of an operation and its rebuild.
So what is kept by every step is that a node whose models they show has models in the catalog, or is
one whose teardown has its rebuild ahead.

Main definitions:

* `ModelsRefresh.Quiet`, `ModelsRefresh.Absent`, `ModelsRefresh.NoGhosts` — a node that is gone, and
  a catalog without it;
* `ModelsRefresh.tidy` — the condition on one step;
* `ModelsRefresh.Effect` — what a step does to the router, the catalog and the teardowns.

Main results:

* `ModelsRefresh.effect_of_step` — **every step has one of the listed effects**;
* `ModelsRefresh.Published.effect`, `ModelsRefresh.Owed.effect` — what every step keeps, and what a
  tidy one keeps besides;
* `ModelsRefresh.noGhosts_of_tidy` — **in a run of tidy steps the catalog has no models of a node
  that is gone**;
* `ModelsRefresh.stays_of_late` — **a refresh that writes when nobody is left to remove its node
  leaves the node's models in the catalog for good**;
* `ModelsRefresh.noGhosts_breaks` — a refresh that writes behind the teardown leaves them there.
-/

import SparklRouter.Catalog.Refresh
import SparklRouter.Tunnel.Watch

set_option relaxedAutoImplicit false
set_option autoImplicit false

namespace ModelsRefresh

open ModelsCatalog (Every HasRows IsObject Merged Orders offeringOf rebuildUnion rowsOf)
open NodeAuth (nodeIdHex)
open Transition
open Tunnel (ConnId Uuid)

variable {fromStr : Text → Option Json.Value} {crypto : NodeAuth.Crypto} {uuids : Sharding Uuid}
  {minIntervalSecs : UInt64}

/-! ### No ghosts -/

/-- Every connection of the node is torn down, and every refresh of the node has ended. -/
def Quiet (s : State fromStr) (n : NodeId) : Prop :=
  (∀ c p, s.router.standing c = some (n, p) → p = .closed) ∧
    ∀ r ∈ s.refreshes, r.nodeId = n → r.pc.running = false

/-- The catalog has nothing of the node. -/
structure Absent (catalog : ModelsCatalog.State) (n : NodeId) : Prop where
  entry : n ∉ catalog.byNode
  /-- A model that the union lists has providers, and the node is none of them. -/
  union : ∀ id entry, catalog.union.lookup id = some entry → ∃ rows, HasRows entry rows ∧
    rows ≠ [] ∧ ∀ row ∈ rows, row.get "node_id".toList ≠ some (.string (nodeIdHex n))
  offerings : ∀ o ∈ catalog.offerings, o.nodeId ≠ nodeIdHex n

/-- **The catalog has nothing of a node that is gone.** -/
def NoGhosts (s : State fromStr) : Prop := ∀ n, Quiet s n → Absent s.catalog n

/-! ### The condition -/

/-- The handler has not returned, and it is not past `remove_node`. -/
def owesRemoval : Tunnel.Phase → Bool
  | .goingOffline | .closed => false
  | _ => true

/-- The connection is one of the node, and the write of its `remove_node` is ahead, unless its
`ready` fails. -/
def State.owes (s : State fromStr) (n : NodeId) (c : ConnId) : Bool :=
  (s.router.standing c).any (fun x => decide (x.1 = n) && owesRemoval x.2) &&
    decide (s.removals c = .pending)

/-- Some connection that passes the test still owes the node its `remove_node`. -/
def State.owed (s : State fromStr) (n : NodeId) (p : ConnId → Bool) : Bool :=
  (List.range s.router.conns.length).any fun c => p c && s.owes n c

/-- A refresh writes while some connection of its node still owes a `remove_node`, and a handler
returns after a failed `ready` while another does, or while the node has no models in the catalog.
-/
def tidy (s : State fromStr) : Action → Bool
  | .refresh i .upsert => (s.refreshes[i]?).all fun r => s.owed r.nodeId fun _ => true
  | .router (.step c) => (s.router.standing c).all fun x =>
      !decide (x.2 = .withdrawing) || !decide (x.1 ∈ s.catalog.byNode) ||
        s.owed x.1 fun d => !decide (d = c)
  | _ => true

theorem owes_iff {s : State fromStr} {n : NodeId} {c : ConnId} : s.owes n c = true ↔
    (∃ p, s.router.standing c = some (n, p) ∧ owesRemoval p = true) ∧ s.removals c = .pending := by
  rw [State.owes, Bool.and_eq_true, decide_eq_true_eq, Option.any_eq_true]
  refine and_congr_left fun _ => ⟨?_, ?_⟩
  · rintro ⟨⟨m, p⟩, hat, hx⟩
    obtain ⟨hm, hp⟩ := Bool.and_eq_true_iff.1 hx
    obtain rfl := of_decide_eq_true hm
    exact ⟨p, hat, hp⟩
  · rintro ⟨p, hat, hp⟩
    exact ⟨(n, p), hat, by rw [hp, decide_eq_true rfl, Bool.and_true]⟩

theorem owed_iff {s : State fromStr} {n : NodeId} {p : ConnId → Bool} :
    s.owed n p = true ↔ ∃ c, p c = true ∧ s.owes n c = true := by
  rw [State.owed, List.any_eq_true]
  constructor
  · rintro ⟨c, -, hc⟩
    exact ⟨c, Bool.and_eq_true_iff.1 hc⟩
  · rintro ⟨c, hp, hc⟩
    refine ⟨c, List.mem_range.2 ?_, Bool.and_eq_true_iff.2 ⟨hp, hc⟩⟩
    -- a connection that owes something is one of the router
    obtain ⟨⟨q, hat, -⟩, -⟩ := owes_iff.1 hc
    obtain ⟨conn, hconn, -⟩ := Option.map_eq_some_iff.1 hat
    exact (List.getElem?_eq_some_iff.1 hconn).1

/-! ### What a step does -/

/-- What a step of the system does, apart from the refreshes themselves: a step of the router, a
step of a refresh that keeps to itself, or one half of an operation of the catalog. -/
inductive Effect (crypto : NodeAuth.Crypto) (uuids : Sharding Uuid) (s : State fromStr) :
    Action → State fromStr → Prop
  | route {act : Action} {s' : State fromStr} {a : Tunnel.Action}
      (hrouter : Tunnel.step crypto uuids s.router a = some s'.router)
      (hact : ∀ c, a = .step c → act = .router a)
      (hreturned : ∀ c n, a = .step c → s.router.standing c = some (n, .removingModels) →
        s.removals c = .returned)
      (hcatalog : s'.catalog = s.catalog) (hremovals : s'.removals = s.removals) :
      Effect crypto uuids s act s'
  | still {act : Action} {s' : State fromStr} (hrouter : s'.router = s.router)
      (hcatalog : s'.catalog = s.catalog) (hremovals : s'.removals = s.removals) :
      Effect crypto uuids s act s'
  | erase {act : Action} {s' : State fromStr} {c : ConnId} {n : NodeId}
      (hat : s.router.standing c = some (n, .removingModels)) (hpending : s.removals c = .pending)
      (hrouter : s'.router = s.router) (hcatalog : s'.catalog = eraseModels s.catalog n)
      (hremovals : s'.removals = Function.update s.removals c
        (if n ∈ s.catalog.byNode then .rebuilding else .returned)) :
      Effect crypto uuids s act s'
  | rebuildErased {act : Action} {s' : State fromStr} {c : ConnId} {orders : Orders}
      (hrebuilding : s.removals c = .rebuilding) (hrouter : s'.router = s.router)
      (hcatalog : s'.catalog = rebuildUnion orders s.catalog)
      (hremovals : s'.removals = Function.update s.removals c
        (if rebuildPanics orders s.catalog then .panicked else .returned)) :
      Effect crypto uuids s act s'
  | upsert {i : ℕ} {r : Refresh fromStr} {s' : State fromStr}
      {advertised : ModelsCatalog.Advertised fromStr} (hr : s.refreshes[i]? = some r)
      (hrouter : s'.router = s.router)
      (hcatalog : s'.catalog = insertModels s.catalog r.nodeId advertised.models)
      (hremovals : s'.removals = s.removals) : Effect crypto uuids s (.refresh i .upsert) s'
  | rebuild {act : Action} {s' : State fromStr} {orders : Orders} (hrouter : s'.router = s.router)
      (hcatalog : s'.catalog = rebuildUnion orders s.catalog)
      (hremovals : s'.removals = s.removals) : Effect crypto uuids s act s'

theorem route_some {s s' : State fromStr} {a : Tunnel.Action}
    (h : s.route crypto uuids a = some s') :
    Tunnel.step crypto uuids s.router a = some s'.router ∧ s' = { s with router := s'.router } := by
  obtain ⟨router, hstep, rfl⟩ := Option.map_eq_some_iff.1 h
  exact ⟨hstep, rfl⟩

/-- A step of the router that is no step of a handler, with something that only the refreshes see.
-/
theorem Effect.of_route {s s₁ s' : State fromStr} {act : Action} {a : Tunnel.Action}
    (hroute : s.route crypto uuids a = some s₁) (ha : ∀ c, a ≠ .step c)
    (hrouter : s'.router = s₁.router) (hcatalog : s'.catalog = s₁.catalog)
    (hremovals : s'.removals = s₁.removals) : Effect crypto uuids s act s' := by
  obtain ⟨hstep, hs₁⟩ := route_some hroute
  refine Effect.route (hrouter ▸ hstep) (fun c hc => absurd hc (ha c))
    (fun c _ hc => absurd hc (ha c)) ?_ ?_
  · rw [hcatalog, hs₁]
  · rw [hremovals, hs₁]

/-- A refresh uses its request, and goes on. -/
theorem Effect.of_request {s s' : State fromStr} {act : Action} {c : ConnId} {op : Tunnel.RequestOp}
    {i : ℕ} {pc : RefreshPc fromStr}
    (h : (s.route crypto uuids (.request c op)).map (fun s₁ => s₁.goTo i pc) = some s') :
    Effect crypto uuids s act s' := by
  obtain ⟨s₁, hroute, rfl⟩ := Option.map_eq_some_iff.1 h
  exact Effect.of_route hroute (fun _ hc => by cases hc) rfl rfl rfl

theorem effect_of_advance {s s' : State fromStr} {c : ConnId}
    (h : s.advance crypto uuids c = some s') :
    Effect crypto uuids s (.router (.step c)) s' := by
  obtain ⟨conn, hconn, hphase⟩ := Option.bind_eq_some_iff.1 h
  have hstanding := Tunnel.standing_of hconn
  -- what a handler does apart from `remove_node`, whatever it spawns
  have hplain : ∀ {s₁ : State fromStr}, s.route crypto uuids (.step c) = some s₁ →
      s'.router = s₁.router → s'.catalog = s₁.catalog → s'.removals = s₁.removals →
      (conn.phase = .removingModels → s.removals c = .returned) →
      Effect crypto uuids s (.router (.step c)) s' := by
    intro s₁ hroute hrouter hcatalog hremovals hreturned
    obtain ⟨hstep, hs₁⟩ := route_some hroute
    refine Effect.route (a := .step c) (hrouter ▸ hstep) (fun _ _ => rfl) ?_ ?_ ?_
    · intro d n hd hat
      obtain rfl := Tunnel.Action.step.inj hd
      rw [hstanding, Option.some.injEq, Prod.mk.injEq] at hat
      exact hreturned hat.2
    · rw [hcatalog, hs₁]
    · rw [hremovals, hs₁]
  cases hp : conn.phase with
  | announcing =>
      rw [hp] at hphase
      obtain ⟨s₁, hroute, rfl⟩ := Option.map_eq_some_iff.1 hphase
      exact hplain hroute rfl rfl rfl fun hq => by rw [hp] at hq; cases hq
  | removingModels =>
      rw [hp] at hphase
      obtain ⟨hreturned, hroute⟩ := Option.ite_none_right_eq_some.1 hphase
      exact hplain hroute rfl rfl rfl fun _ => hreturned
  | _ =>
      rw [hp] at hphase
      exact hplain hphase rfl rfl rfl fun hq => by rw [hp] at hq; cases hq

theorem effect_of_refresh {s s' : State fromStr} {i : ℕ} {r : Refresh fromStr} {op : RefreshOp}
    (hr : s.refreshes[i]? = some r) (h : s.refresh crypto uuids i r r.pc op = some s') :
    Effect crypto uuids s (.refresh i op) s' := by
  unfold State.refresh at h
  split at h
  · obtain ⟨conn, -, hrequest⟩ := Option.bind_eq_some_iff.1 h
    exact Effect.of_request hrequest
  · obtain rfl := Option.some.inj h
    exact Effect.still rfl rfl rfl
  · obtain ⟨conn, -, hrecv⟩ := Option.bind_eq_some_iff.1 h
    obtain ⟨got, -, hrequest⟩ := Option.bind_eq_some_iff.1 hrecv
    exact Effect.of_request hrequest
  · obtain rfl := Option.some.inj h
    exact Effect.still rfl rfl rfl
  · exact Effect.of_request h
  · exact Effect.of_request h
  · obtain rfl := Option.some.inj h
    exact Effect.upsert hr rfl rfl rfl
  · obtain rfl := Option.some.inj h
    exact Effect.rebuild rfl rfl rfl
  · cases h

/-- **Every step has one of the listed effects.** -/
theorem effect_of_step {s s' : State fromStr} {act : Action}
    (h : step crypto uuids minIntervalSecs s act = some s') : Effect crypto uuids s act s' := by
  cases act with
  | router a =>
      cases a with
      | step c => exact effect_of_advance h
      | _ => exact Effect.of_route h (fun _ hc => by cases hc) rfl rfl rfl
  | pong c now =>
      obtain ⟨conn, -, hpong⟩ := Option.bind_eq_some_iff.1 h
      obtain ⟨-, hpong⟩ := Option.ite_none_right_eq_some.1 hpong
      obtain rfl := Option.some.inj hpong
      unfold State.maybeRefreshOnPong
      dsimp only
      split <;> exact Effect.still rfl rfl rfl
  | erase c =>
      obtain ⟨conn, hconn, herase⟩ := Option.bind_eq_some_iff.1 h
      obtain ⟨⟨hphase, hpending⟩, herase⟩ := Option.ite_none_right_eq_some.1 herase
      obtain rfl := Option.some.inj herase
      exact Effect.erase (hphase ▸ Tunnel.standing_of hconn) hpending rfl rfl rfl
  | rebuildErased c orders =>
      obtain ⟨hrebuilding, hrebuild⟩ := Option.ite_none_right_eq_some.1 h
      obtain rfl := Option.some.inj hrebuild
      exact Effect.rebuildErased hrebuilding rfl rfl rfl
  | refresh i op =>
      obtain ⟨r, hr, hrefresh⟩ := Option.bind_eq_some_iff.1 h
      exact effect_of_refresh hr hrefresh

/-! ### The phases of a connection -/

section

variable {s s' : Tunnel.State} {a : Tunnel.Action} {c : ConnId} {n : NodeId} {p : Tunnel.Phase}

/-- A step of the router leaves a connection where it is, or moves it on; it is the connection's own
step unless `ready` was being sent or the loop ends. -/
theorem standing_step (h : Tunnel.step crypto uuids s a = some s')
    (hat : s.standing c = some (n, p)) : s'.standing c = some (n, p) ∨
      ∃ p' registry registry' g g', s'.standing c = some (n, p') ∧
        Tunnel.Moves registry g c n p p' registry' g' ∧
        (a = .step c ∨ p = .sendingReady ∨ p = .live) := by
  have hwatch : Tunnel.watch crypto uuids ⟨s, [], [], [], []⟩ a = some ⟨s', _⟩ :=
    Option.map_eq_some_iff.2 ⟨s', h, rfl⟩
  cases Tunnel.stride_of_watch hwatch with
  | still _ hstanding => exact Or.inl ((hstanding c).trans hat)
  | join _ hfresh hstanding =>
      refine Or.inl ((hstanding c).trans ?_)
      rw [if_neg, hat]
      rintro rfl
      cases hfresh.symm.trans hat
  | @move d m q q' hact hd hstanding hmove =>
      by_cases hcd : c = d
      · subst hcd
        obtain ⟨rfl, rfl⟩ := Prod.mk.inj (Option.some.inj (hd.symm.trans hat))
        refine Or.inr ⟨q', _, _, _, _, ?_, hmove, hact.imp_right And.right⟩
        rw [hstanding, if_pos rfl]
      · refine Or.inl ((hstanding c).trans ?_)
        rw [if_neg hcd, hat]

/-- A handler that owes a `remove_node` goes on owing it until it is past `remove_node`, or returns
after a failed `ready`. -/
theorem owesRemoval_step (h : Tunnel.step crypto uuids s a = some s')
    (hat : s.standing c = some (n, p)) (hp : owesRemoval p = true) :
    (∃ p', s'.standing c = some (n, p') ∧ owesRemoval p' = true) ∨
      a = .step c ∧ (p = .removingModels ∨ p = .withdrawing) := by
  rcases standing_step h hat with hsame | ⟨p', _, _, _, _, hat', hmove, hact⟩
  · exact Or.inl ⟨p, hsame, hp⟩
  · cases hmove with
    | removeModels => exact Or.inr ⟨hact.resolve_right (by simp), Or.inl rfl⟩
    | withdraw => exact Or.inr ⟨hact.resolve_right (by simp), Or.inr rfl⟩
    | goOffline => cases hp
    | _ => exact Or.inl ⟨_, hat', rfl⟩

/-- A handler leaves `remove_node` by a step of its own. -/
theorem removingModels_step (h : Tunnel.step crypto uuids s a = some s')
    (hat : s.standing c = some (n, .removingModels)) :
    s'.standing c = some (n, .removingModels) ∨ a = .step c := by
  rcases standing_step h hat with hsame | ⟨p', _, _, _, _, -, -, hact⟩
  · exact Or.inl hsame
  · exact Or.inr (hact.resolve_right (by simp))

end

/-! ### What every step keeps -/

/-- The models of the node are removed, and the rebuild of its teardown is ahead, or has panicked.
-/
def State.Lagging (s : State fromStr) (n : NodeId) : Prop :=
  ∃ c, s.router.standing c = some (n, .removingModels) ∧
    (s.removals c = .rebuilding ∨ s.removals c = .panicked)

/-- **The summaries are those of some models**, each of a node that has models in the catalog or is
lagging. -/
def Published (s : State fromStr) : Prop :=
  ∃ visits, Merged visits s.catalog.union ∧
    (∀ o ∈ s.catalog.offerings, ∃ v ∈ visits, o = offeringOf v) ∧
    ∀ v ∈ visits, v.1 ∈ s.catalog.byNode ∨ s.Lagging v.1

/-- A rebuild publishes the models of the nodes, or panics and changes neither summary. -/
theorem rebuildUnion_publishes {catalog : ModelsCatalog.State} (h : Every IsObject catalog)
    (orders : Orders) :
    (rebuildPanics orders catalog = false ∧ ∃ visits,
      Merged visits (rebuildUnion orders catalog).union ∧
      (∀ o ∈ (rebuildUnion orders catalog).offerings, ∃ v ∈ visits, o = offeringOf v) ∧
      ∀ v ∈ visits, v.1 ∈ catalog.byNode) ∨
    (rebuildPanics orders catalog = true ∧
      (rebuildUnion orders catalog).union = catalog.union ∧
      (rebuildUnion orders catalog).offerings = catalog.offerings) := by
  have hperm := HashMap.visits_perm orders.nodes orders.models catalog.byNode
  have hobjects : ModelsCatalog.Objects
      (HashMap.visits orders.nodes orders.models catalog.byNode) := fun v hv =>
    h v (hperm.mem_iff.1 hv)
  rcases Merged.nil.visits hobjects with ⟨-, out, hout, hmerged⟩ | ⟨-, panic, hpanic⟩
  · refine Or.inl ⟨by rw [rebuildPanics, hout],
      HashMap.visits orders.nodes orders.models catalog.byNode, ?_, ?_, ?_⟩
    · simp only [rebuildUnion, hout]
      exact hmerged
    · intro o ho
      simp only [rebuildUnion, hout, List.mem_insertionSort] at ho
      obtain ⟨v, hv, rfl⟩ := List.mem_map.1 ho
      exact ⟨v, hv, rfl⟩
    · rintro ⟨n, id, entry⟩ hv
      obtain ⟨models, hmodels, -⟩ := HashMap.mem_rows.1 (hperm.mem_iff.1 hv)
      exact AList.lookup_isSome.1 (by rw [hmodels]; rfl)
  · refine Or.inr ⟨by rw [rebuildPanics, hpanic], ?_, ?_⟩
    · simp only [rebuildUnion, hpanic]
    · simp only [rebuildUnion, hpanic]

/-- The summaries stay as they are, and no node is forgotten. -/
theorem Published.keep {s s' : State fromStr} (h : Published s)
    (hunion : s'.catalog.union = s.catalog.union)
    (hofferings : s'.catalog.offerings = s.catalog.offerings)
    (hnodes : ∀ n ∈ s.catalog.byNode, n ∈ s'.catalog.byNode ∨ s'.Lagging n)
    (hlagging : ∀ n, s.Lagging n → s'.Lagging n) : Published s' := by
  obtain ⟨visits, hmerged, hoffered, hknown⟩ := h
  refine ⟨visits, hunion ▸ hmerged, hofferings ▸ hoffered, fun v hv => ?_⟩
  rcases hknown v hv with hmem | hlag
  · exact hnodes v.1 hmem
  · exact Or.inr (hlagging v.1 hlag)

/-- A rebuild keeps the summaries in order, if one that panics forgets no lagging node. -/
theorem Published.rebuild {s s' : State fromStr} {orders : Orders} (h : Published s)
    (hobjects : Every IsObject s.catalog)
    (hcatalog : s'.catalog = rebuildUnion orders s.catalog)
    (hlagging : rebuildPanics orders s.catalog = true → ∀ n, s.Lagging n → s'.Lagging n) :
    Published s' := by
  have hnodes : s'.catalog.byNode = s.catalog.byNode := by
    rw [hcatalog, ModelsCatalog.byNode_rebuildUnion]
  rcases rebuildUnion_publishes hobjects orders with
    ⟨-, visits, hmerged, hoffered, hknown⟩ | ⟨hpanics, hunion, hofferings⟩
  · refine ⟨visits, hcatalog ▸ hmerged, hcatalog ▸ hoffered, fun v hv => Or.inl ?_⟩
    rw [hnodes]
    exact hknown v hv
  · refine h.keep (hcatalog ▸ hunion) (hcatalog ▸ hofferings) (fun n hn => Or.inl ?_)
      (hlagging hpanics)
    rwa [hnodes]

/-- What a teardown's own progress, away from the lagging ones, leaves. -/
theorem lagging_of_update {s s' : State fromStr} {c : ConnId} {r : Removal}
    (hrouter : s'.router = s.router) (hremovals : s'.removals = Function.update s.removals c r)
    (hc : (s.removals c = .rebuilding ∨ s.removals c = .panicked) →
      r = .rebuilding ∨ r = .panicked) {n : NodeId} (h : s.Lagging n) : s'.Lagging n := by
  obtain ⟨d, hat, hlag⟩ := h
  refine ⟨d, hrouter ▸ hat, ?_⟩
  rw [hremovals]
  by_cases hd : d = c
  · subst hd
    rw [Function.update_self]
    exact hc hlag
  · rwa [Function.update_of_ne hd]

section

variable {s s' : State fromStr} {act : Action}

theorem everyObject_effect (h : Every IsObject s.catalog) (he : Effect crypto uuids s act s') :
    Every IsObject s'.catalog := by
  -- the order of a rebuild does not matter here
  have hwritten := fun op : ModelsCatalog.Op fromStr => h.written op.sends_isObject
  cases he with
  | route _ _ _ hcatalog => rwa [hcatalog]
  | still _ hcatalog => rwa [hcatalog]
  | @erase _ _ c n _ _ _ hcatalog =>
      rw [hcatalog]
      exact hwritten (.removeNode n ModelsCatalog.storedOrders)
  | rebuildErased _ _ hcatalog =>
      rw [hcatalog, Every, ModelsCatalog.byNode_rebuildUnion]
      exact h
  | @upsert i r _ advertised _ _ hcatalog =>
      rw [hcatalog]
      exact hwritten (.upsertNode r.nodeId advertised ModelsCatalog.storedOrders)
  | rebuild _ hcatalog =>
      rw [hcatalog, Every, ModelsCatalog.byNode_rebuildUnion]
      exact h

/-- **Every step keeps the summaries in order.** -/
theorem Published.effect (h : Published s) (hobjects : Every IsObject s.catalog)
    (he : Effect crypto uuids s act s') : Published s' := by
  cases he with
  | route hrouter _ hreturned hcatalog hremovals =>
      refine h.keep (by rw [hcatalog]) (by rw [hcatalog]) (fun n hn => Or.inl (hcatalog ▸ hn)) ?_
      rintro n ⟨c, hat, hlag⟩
      rcases removingModels_step hrouter hat with hsame | hstep
      · exact ⟨c, hsame, hremovals ▸ hlag⟩
      · -- the handler goes on only when `remove_node` has returned
        rw [hreturned c n hstep hat] at hlag
        rcases hlag with hlag | hlag <;> cases hlag
  | still hrouter hcatalog hremovals =>
      refine h.keep (by rw [hcatalog]) (by rw [hcatalog]) (fun n hn => Or.inl (hcatalog ▸ hn)) ?_
      rintro n ⟨c, hat, hlag⟩
      exact ⟨c, hrouter ▸ hat, hremovals ▸ hlag⟩
  | @erase _ _ c n hat hpending hrouter hcatalog hremovals =>
      refine h.keep (by rw [hcatalog]; rfl) (by rw [hcatalog]; rfl) (fun m hm => ?_)
        fun m hlag => ?_
      · by_cases hmn : m = n
        · -- the node's models leave the catalog: its teardown is lagging now
          subst hmn
          refine Or.inr ⟨c, hrouter ▸ hat, Or.inl ?_⟩
          rw [hremovals, Function.update_self, if_pos hm]
        · left
          rw [hcatalog]
          exact AList.mem_erase.2 ⟨hmn, hm⟩
      · refine lagging_of_update hrouter hremovals (fun hc => ?_) hlag
        rw [hpending] at hc
        rcases hc with hc | hc <;> cases hc
  | rebuildErased hrebuilding hrouter hcatalog hremovals =>
      refine h.rebuild hobjects hcatalog fun hpanics n hlag => ?_
      refine lagging_of_update hrouter hremovals (fun _ => Or.inr ?_) hlag
      rw [if_pos hpanics]
  | upsert _ hrouter hcatalog hremovals =>
      refine h.keep (by rw [hcatalog]; rfl) (by rw [hcatalog]; rfl) (fun m hm => Or.inl ?_) ?_
      · rw [hcatalog]
        exact (AList.mem_insert _).2 (Or.inr hm)
      · rintro n ⟨c, hat, hlag⟩
        exact ⟨c, hrouter ▸ hat, hremovals ▸ hlag⟩
  | rebuild hrouter hcatalog hremovals =>
      refine h.rebuild hobjects hcatalog fun _ n hlag => ?_
      obtain ⟨c, hat, hlag⟩ := hlag
      exact ⟨c, hrouter ▸ hat, hremovals ▸ hlag⟩

end

/-! ### What a tidy step keeps -/

/-- **Of a node with models in the catalog, some connection owes a `remove_node`.** -/
def Owed (s : State fromStr) : Prop := ∀ n ∈ s.catalog.byNode, ∃ c, s.owes n c = true

section

variable {s s' : State fromStr} {act : Action}

/-- A `remove_node` that is owed stays so while the handlers and their teardowns stay where they
are. -/
theorem owes_of_still {n : NodeId} {c : ConnId} (hrouter : s'.router = s.router)
    (hremoval : s'.removals c = s.removals c) (h : s.owes n c = true) : s'.owes n c = true := by
  rw [owes_iff] at h ⊢
  rwa [hrouter, hremoval]

/-- A step of the router leaves what is owed, but for a handler that returns after a failed
`ready`. -/
theorem owes_of_route {n : NodeId} {c : ConnId} {a : Tunnel.Action}
    (hrouter : Tunnel.step crypto uuids s.router a = some s'.router)
    (hreturned : ∀ c n, a = .step c → s.router.standing c = some (n, .removingModels) →
      s.removals c = .returned)
    (hremovals : s'.removals = s.removals) (h : s.owes n c = true) :
    s'.owes n c = true ∨ a = .step c ∧ s.router.standing c = some (n, .withdrawing) := by
  obtain ⟨⟨p, hat, hp⟩, hpending⟩ := owes_iff.1 h
  rcases owesRemoval_step hrouter hat hp with hafter | ⟨ha, rfl | rfl⟩
  · exact Or.inl (owes_iff.2 ⟨hafter, by rw [hremovals, hpending]⟩)
  · -- the handler would be past a `remove_node` that is still ahead
    rw [hreturned c n ha hat] at hpending
    cases hpending
  · exact Or.inr ⟨ha, hat⟩

/-- The progress of one teardown leaves what others owe. -/
theorem owes_of_update {n : NodeId} {c d : ConnId} {r : Removal} (hrouter : s'.router = s.router)
    (hremovals : s'.removals = Function.update s.removals d r) (hcd : c ≠ d)
    (h : s.owes n c = true) : s'.owes n c = true :=
  owes_of_still hrouter (by rw [hremovals, Function.update_of_ne hcd]) h

/-- **A tidy step keeps a `remove_node` owed** for every node with models in the catalog. -/
theorem Owed.effect (h : Owed s) (he : Effect crypto uuids s act s') (htidy : tidy s act = true) :
    Owed s' := by
  intro n hn
  cases he with
  | @route _ _ a hrouter hact hreturned hcatalog hremovals =>
      rw [hcatalog] at hn
      obtain ⟨c, hc⟩ := h n hn
      rcases owes_of_route hrouter hreturned hremovals hc with hafter | ⟨ha, hat⟩
      · exact ⟨c, hafter⟩
      · -- the handler of `c` returns: somebody else owes the node a `remove_node`
        obtain rfl := hact c ha
        subst ha
        simp only [tidy, hat, Option.all_some, decide_true, Bool.not_true, Bool.false_or,
          hn] at htidy
        obtain ⟨d, hdc, hd⟩ := owed_iff.1 htidy
        have hne : d ≠ c := by simpa using hdc
        rcases owes_of_route hrouter hreturned hremovals hd with hafter | ⟨hstep, -⟩
        · exact ⟨d, hafter⟩
        · exact absurd (Tunnel.Action.step.inj hstep).symm hne
  | still hrouter hcatalog hremovals =>
      rw [hcatalog] at hn
      obtain ⟨c, hc⟩ := h n hn
      exact ⟨c, owes_of_still hrouter (by rw [hremovals]) hc⟩
  | @erase _ _ d m hat hpending hrouter hcatalog hremovals =>
      rw [hcatalog] at hn
      obtain ⟨hnm, hn⟩ := AList.mem_erase.1 hn
      obtain ⟨c, hc⟩ := h n hn
      refine ⟨c, owes_of_update hrouter hremovals ?_ hc⟩
      -- the teardown is that of a connection of another node
      rintro rfl
      obtain ⟨⟨p, hat', -⟩, -⟩ := owes_iff.1 hc
      rw [hat, Option.some.injEq, Prod.mk.injEq] at hat'
      exact hnm hat'.1.symm
  | @rebuildErased _ _ d orders hrebuilding hrouter hcatalog hremovals =>
      rw [hcatalog, ModelsCatalog.byNode_rebuildUnion] at hn
      obtain ⟨c, hc⟩ := h n hn
      refine ⟨c, owes_of_update hrouter hremovals ?_ hc⟩
      rintro rfl
      rw [(owes_iff.1 hc).2] at hrebuilding
      cases hrebuilding
  | @upsert i r _ advertised hr hrouter hcatalog hremovals =>
      have hold : (∃ c, s.owes n c = true) → ∃ c, s'.owes n c = true := fun ⟨c, hc⟩ =>
        ⟨c, owes_of_still hrouter (by rw [hremovals]) hc⟩
      rw [hcatalog] at hn
      rcases (AList.mem_insert _).1 hn with rfl | hn
      · rw [tidy, hr] at htidy
        obtain ⟨c, -, hc⟩ := owed_iff.1 htidy
        exact hold ⟨c, hc⟩
      · exact hold (h n hn)
  | rebuild hrouter hcatalog hremovals =>
      rw [hcatalog, ModelsCatalog.byNode_rebuildUnion] at hn
      obtain ⟨c, hc⟩ := h n hn
      exact ⟨c, owes_of_still hrouter (by rw [hremovals]) hc⟩

end

/-! ### Every run -/

/-- The node id of a row. -/
theorem nodeId_providerSnapshot (n : NodeId) (id : Text) (entry : Json.Value) :
    (ModelsCatalog.providerSnapshot n id entry).get "node_id".toList =
      some (.string (nodeIdHex n)) := rfl

/-- Summaries without the node are the summaries of other nodes. -/
theorem absent_of_published {s : State fromStr} {n : NodeId} (h : Published s)
    (hentry : n ∉ s.catalog.byNode) (hlagging : ¬ s.Lagging n) : Absent s.catalog n := by
  obtain ⟨visits, hmerged, hoffered, hknown⟩ := h
  have hother : ∀ v ∈ visits, v.1 ≠ n := by
    rintro v hv rfl
    exact (hknown v hv).elim hentry hlagging
  refine ⟨hentry, fun id entry hlookup => ?_, fun o ho => ?_⟩
  · rcases hmerged id with ⟨hnone, -⟩ | ⟨entry', hsome, hrows, hne⟩
    · rw [hnone] at hlookup
      cases hlookup
    · obtain rfl := Option.some.inj (hsome.symm.trans hlookup)
      refine ⟨rowsOf id visits, hrows, hne, fun row hrow hid => ?_⟩
      obtain ⟨v, hv, rfl⟩ := List.mem_map.1 hrow
      rw [nodeId_providerSnapshot, Option.some.injEq, Json.Value.string.injEq] at hid
      exact hother v (List.mem_of_mem_filter hv) (NodeAuth.nodeIdHex_injective hid)
  · obtain ⟨v, hv, rfl⟩ := hoffered o ho
    exact fun hid => hother v hv (NodeAuth.nodeIdHex_injective hid)

/-- **A node that is gone owes no `remove_node`, and has none in progress**, so the catalog has
nothing of it. -/
theorem noGhosts_of_owed {s : State fromStr} (hpublished : Published s) (howed : Owed s) :
    NoGhosts s := by
  intro n hquiet
  refine absent_of_published hpublished (fun hn => ?_) ?_
  · obtain ⟨c, hc⟩ := howed n hn
    obtain ⟨⟨p, hat, hp⟩, -⟩ := owes_iff.1 hc
    rw [hquiet.1 c p hat] at hp
    cases hp
  · rintro ⟨c, hat, -⟩
    cases hquiet.1 c _ hat

theorem published_init : Published (init : State fromStr) :=
  ⟨[], Merged.nil, fun _ ho => (by cases ho), fun _ hv => (by cases hv)⟩

theorem owed_init : Owed (init : State fromStr) := fun _ hn => (by cases hn)

/-- **No ghost models, in a run of tidy steps**: when every connection of a node is torn down and
every refresh of it has ended, the catalog has no entry of the node, the union lists no model that
only this node provided, and no offering is one of the node. -/
theorem noGhosts_of_tidy (fromStr : Text → Option Json.Value) (crypto : NodeAuth.Crypto)
    (uuids : Sharding Uuid) (minIntervalSecs : UInt64) (as : List Action)
    (h : Throughout (step crypto uuids minIntervalSecs) (fun s act _ => tidy s act = true)
      (init : State fromStr) as) :
    Always (step crypto uuids minIntervalSecs) NoGhosts (init : State fromStr) as := by
  refine (always_of_step (I := fun s => Every IsObject s.catalog ∧ Published s ∧ Owed s) ?_
    ⟨ModelsCatalog.every_new IsObject, published_init, owed_init⟩ h).mono fun s hs =>
      noGhosts_of_owed hs.2.1 hs.2.2
  rintro s act s' ⟨hobjects, hpublished, howed⟩ hstep htidy
  have he := effect_of_step hstep
  exact ⟨everyObject_effect hobjects he, hpublished.effect hobjects he, howed.effect he htidy⟩

/-! ### What comes of a step that is not tidy

A step outside the condition leaves models that no connection will remove, and they stay until the
node connects again. -/

/-- The node has models in the catalog, and no connection owes it a `remove_node`. -/
structure Abandoned (s : State fromStr) (n : NodeId) : Prop where
  entry : n ∈ s.catalog.byNode
  nobody : ∀ c, s.owes n c = false

/-- A connection was there before a step that starts none, and what it owes it owed before. -/
theorem standing_back {s s' : Tunnel.State} {a : Tunnel.Action} {c : ConnId} {n : NodeId}
    {p' : Tunnel.Phase} (h : Tunnel.step crypto uuids s a = some s')
    (hlength : s'.conns.length = s.conns.length) (hat' : s'.standing c = some (n, p')) :
    ∃ p, s.standing c = some (n, p) ∧ (owesRemoval p' = true → owesRemoval p = true) := by
  obtain ⟨conn', hconn', -⟩ := Option.map_eq_some_iff.1 hat'
  have hlt : c < s.conns.length := hlength ▸ (List.getElem?_eq_some_iff.1 hconn').1
  have hat := Tunnel.standing_of (List.getElem?_eq_getElem hlt)
  rcases standing_step h hat with hsame | ⟨p'', _, _, _, _, hmoved, hmove, -⟩
  · obtain ⟨rfl, rfl⟩ := Prod.mk.inj (Option.some.inj (hsame.symm.trans hat'))
    exact ⟨_, hat, id⟩
  · obtain ⟨rfl, rfl⟩ := Prod.mk.inj (Option.some.inj (hmoved.symm.trans hat'))
    refine ⟨_, hat, fun hp' => ?_⟩
    generalize s.conns[c].phase = p at hmove
    cases hmove with
    | withdraw => rfl
    | goOffline => cases hp'
    | _ => rfl

section

variable {s s' : State fromStr} {act : Action} {n : NodeId}

/-- Nobody comes to owe anything while the router stays as it is. -/
theorem nobody_of_still (hrouter : s'.router = s.router)
    (hremovals : ∀ c, s'.removals c = .pending → s.removals c = .pending)
    (h : ∀ c, s.owes n c = false) (c : ConnId) : s'.owes n c = false := by
  rw [Bool.eq_false_iff]
  intro hc
  obtain ⟨hat, hpending⟩ := owes_iff.1 hc
  rw [hrouter] at hat
  exact Bool.eq_false_iff.1 (h c) (owes_iff.2 ⟨hat, hremovals c hpending⟩)

/-- A teardown that has begun its `remove_node` does not go back. -/
theorem pending_of_update {c d : ConnId} {r : Removal} (hr : r ≠ .pending)
    (hremovals : s'.removals = Function.update s.removals d r) (h : s'.removals c = .pending) :
    s.removals c = .pending := by
  rw [hremovals] at h
  by_cases hcd : c = d
  · subst hcd
    rw [Function.update_self] at h
    exact absurd h hr
  · rwa [Function.update_of_ne hcd] at h

/-- **Abandoned models stay**, whatever is done, until the node connects again. -/
theorem Abandoned.effect (h : Abandoned s n) (he : Effect crypto uuids s act s')
    (hlength : s'.router.conns.length = s.router.conns.length) : Abandoned s' n := by
  cases he with
  | route hrouter _ _ hcatalog hremovals =>
      refine ⟨hcatalog ▸ h.entry, fun c => Bool.eq_false_iff.2 fun hc => ?_⟩
      obtain ⟨⟨p', hat', hp'⟩, hpending⟩ := owes_iff.1 hc
      obtain ⟨p, hat, hback⟩ := standing_back hrouter hlength hat'
      rw [hremovals] at hpending
      exact Bool.eq_false_iff.1 (h.nobody c) (owes_iff.2 ⟨⟨p, hat, hback hp'⟩, hpending⟩)
  | still hrouter hcatalog hremovals =>
      exact ⟨hcatalog ▸ h.entry, nobody_of_still hrouter (fun c hc => hremovals ▸ hc) h.nobody⟩
  | @erase _ _ d m hat hpending hrouter hcatalog hremovals =>
      refine ⟨?_, nobody_of_still hrouter (fun c => pending_of_update ?_ hremovals) h.nobody⟩
      · -- the teardown that erases owes its own node a `remove_node`
        have hmn : n ≠ m := by
          rintro rfl
          exact Bool.eq_false_iff.1 (h.nobody d) (owes_iff.2 ⟨⟨_, hat, rfl⟩, hpending⟩)
        rw [hcatalog]
        exact AList.mem_erase.2 ⟨hmn, h.entry⟩
      · split <;> exact Removal.noConfusion
  | rebuildErased _ hrouter hcatalog hremovals =>
      refine ⟨?_, nobody_of_still hrouter (fun c => pending_of_update ?_ hremovals) h.nobody⟩
      · rw [hcatalog, ModelsCatalog.byNode_rebuildUnion]
        exact h.entry
      · split <;> exact Removal.noConfusion
  | upsert _ hrouter hcatalog hremovals =>
      refine ⟨?_, nobody_of_still hrouter (fun c hc => hremovals ▸ hc) h.nobody⟩
      rw [hcatalog]
      exact (AList.mem_insert _).2 (Or.inr h.entry)
  | rebuild hrouter hcatalog hremovals =>
      refine ⟨?_, nobody_of_still hrouter (fun c hc => hremovals ▸ hc) h.nobody⟩
      rw [hcatalog, ModelsCatalog.byNode_rebuildUnion]
      exact h.entry

/-- A write that is not tidy abandons the models it writes. -/
theorem abandoned_of_upsert {i : ℕ} {r : Refresh fromStr} (hr : s.refreshes[i]? = some r)
    (hstep : step crypto uuids minIntervalSecs s (.refresh i .upsert) = some s')
    (huntidy : tidy s (.refresh i .upsert) = false) : Abandoned s' r.nodeId := by
  obtain ⟨r', hr', hrefresh⟩ := Option.bind_eq_some_iff.1 hstep
  obtain rfl := Option.some.inj (hr.symm.trans hr')
  have hnobody : ∀ c, s.owes r.nodeId c = false := by
    intro c
    rw [Bool.eq_false_iff]
    intro hc
    rw [tidy, hr, Option.all_some, owed_iff.2 ⟨c, rfl, hc⟩] at huntidy
    cases huntidy
  cases hpc : r.pc with
  | upserting advertised =>
      rw [hpc] at hrefresh
      obtain rfl := Option.some.inj hrefresh
      exact ⟨(AList.mem_insert _).2 (Or.inl rfl), hnobody⟩
  | _ =>
      rw [hpc] at hrefresh
      cases hrefresh

end

/-- **A refresh that writes when nobody owes its node a `remove_node` leaves the node's models in
the catalog for good**: in every run from there that starts no connection. -/
theorem stays_of_late {s s' : State fromStr} {i : ℕ} {r : Refresh fromStr}
    (hr : s.refreshes[i]? = some r)
    (hstep : step crypto uuids minIntervalSecs s (.refresh i .upsert) = some s')
    (huntidy : tidy s (.refresh i .upsert) = false) {as : List Action}
    (h : Throughout (step crypto uuids minIntervalSecs)
      (fun t _ t' => t'.router.conns.length = t.router.conns.length) s' as) :
    Always (step crypto uuids minIntervalSecs) (fun t => r.nodeId ∈ t.catalog.byNode) s' as :=
  (always_of_step (fun _ _ _ habandoned hstep hlength =>
      Abandoned.effect habandoned (effect_of_step hstep) hlength)
    (abandoned_of_upsert hr hstep huntidy) h).mono fun _ habandoned => habandoned.entry

/-! ### A refresh that comes late -/

open NodeAuth (challenge7 sampleCrypto sampleNodeId)
open Tunnel (sampleUuids)

/-- The node connects, and its refresh has the whole answer. -/
def fetched : List Action :=
  [.router (.connect (challenge7.handshake sampleNodeId)), .router (.step 0), .router (.step 0),
    .router (.ready 0 true), .router (.step 0), .refresh 0 (.register 7), .refresh 0 (.sent true),
    .router (.inbound 0 7 (.response 200 [])),
    .router (.inbound 0 7 (.chunk ModelsCatalog.goodBody)),
    .router (.inbound 0 7 (.endFrame 200)), .router (.reader 0), .router (.reader 0),
    .refresh 0 .recv, .refresh 0 .recv, .refresh 0 .recv, .refresh 0 .dropRx, .refresh 0 .cleanup]

/-- The socket closes, and the handler goes on to `remove_node`. -/
def disconnected : List Action :=
  [.router (.socketClosed 0), .router (.step 0), .router (.step 0), .router (.step 0),
    .router (.step 0), .router (.step 0), .erase 0]

/-- The refresh writes what it has. -/
def upserted : List Action := [.refresh 0 .upsert, .refresh 0 (.rebuild ModelsCatalog.storedOrders)]

/-- The handler returns. -/
def returned : List Action := [.router (.step 0), .router (.step 0)]

/-- The refresh writes before the node disconnects. -/
def inTime : List Action :=
  fetched ++ upserted ++ disconnected ++
    .rebuildErased 0 ModelsCatalog.storedOrders :: returned

/-- The refresh writes when the teardown is over. -/
def late : List Action := fetched ++ disconnected ++ returned ++ upserted

theorem tidy_inTime : checkThroughout (step sampleCrypto sampleUuids 60) tidy
    (init : State ModelsCatalog.parsesBoth) inTime = true := by
  decide +kernel

/-- A node whose models came in time leaves none behind. -/
theorem noGhosts_inTime : Always (step sampleCrypto sampleUuids 60) NoGhosts
    (init : State ModelsCatalog.parsesBoth) inTime :=
  noGhosts_of_tidy ModelsCatalog.parsesBoth sampleCrypto sampleUuids 60 inTime
    (throughout_of_check tidy_inTime)

/-- The phases of the connections, which refreshes run, and whether the node is in the catalog and
its model in the union. -/
def observeGhosts (s : State fromStr) : List Tunnel.Phase × List Bool × Bool × Bool :=
  (s.router.conns.map Tunnel.Conn.phase, s.refreshes.map fun r => r.pc.running,
    decide (sampleNodeId ∈ s.catalog.byNode), decide ("llama".toList ∈ s.catalog.union))

theorem observe_late : (run (step sampleCrypto sampleUuids 60)
    (init : State ModelsCatalog.parsesBoth) late).map observeGhosts =
      some ([.closed], [false], true, true) := by
  decide +kernel

/-- **A refresh that writes behind the teardown leaves the models of a node that is gone**: nobody
takes them out of the catalog and of the union. -/
theorem noGhosts_breaks : ¬ ∀ (fromStr : Text → Option Json.Value) (crypto : NodeAuth.Crypto)
    (uuids : Sharding Uuid) (minIntervalSecs : UInt64) (as : List Action),
    Always (step crypto uuids minIntervalSecs) NoGhosts (init : State fromStr) as := by
  intro h
  obtain ⟨s, hs, hobs⟩ :=
    (h ModelsCatalog.parsesBoth sampleCrypto sampleUuids 60 late).observe observe_late
  simp only [observeGhosts, Prod.mk.injEq] at hobs
  obtain ⟨hphases, hrunning, hentry, -⟩ := hobs
  have hquiet : Quiet s sampleNodeId := by
    refine ⟨fun c p hat => ?_, fun r hr _ => ?_⟩
    · obtain ⟨conn, hconn, hpair⟩ := Option.map_eq_some_iff.1 hat
      have hmem := List.mem_map_of_mem (f := Tunnel.Conn.phase) (List.mem_of_getElem? hconn)
      rw [hphases, List.mem_singleton] at hmem
      exact (congrArg Prod.snd hpair).symm.trans hmem
    · have hmem := List.mem_map_of_mem (f := fun r => RefreshPc.running r.pc) hr
      rw [hrunning, List.mem_singleton] at hmem
      exact hmem
  exact (hs sampleNodeId hquiet).entry (of_decide_eq_true hentry)

end ModelsRefresh
