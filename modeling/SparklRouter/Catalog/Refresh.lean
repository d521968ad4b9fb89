/-
**The refreshes of the model catalog, among the connections of the router.**

When a tunnel is live, and again on its pongs, a detached task fetches `/v1/models` through the
tunnel and writes what the node answers into the catalog (`spawn_tunnel_models_refresh`,
`maybe_refresh_on_pong` and `refresh_tunnel` in `src/consumer/models.rs`); the teardown of the
tunnel takes the models of the node out again (`remove_node` in `run_tunnel_lifecycle`).  This
module runs the router of `Tunnel.Connect` together with these tasks.  A refresh is cut where
another task can step in between: at every frame it waits for, and between its write to the models
of the nodes and the rebuild of the summaries.  So is `remove_node`, at the same place.

A rebuild holds the lock of the models of the nodes from its first read to its last write, and so it
is one step: two rebuilds that overlap write the same summaries.  How the tunnel's outbound channel
takes the request, the clock, and what other requests do with the tunnel, are left to the scheduler.

Main definitions:

* `ModelsRefresh.onFrame`, `ModelsRefresh.parse` — what `fetch_models_from_tunnel` makes of an
  answer;
* `ModelsRefresh.Refresh`, `ModelsRefresh.RefreshPc` — a refresh, and where it stands;
* `ModelsRefresh.State`, `ModelsRefresh.step` — the router with its refreshes and its catalog.

Main results:

* `ModelsRefresh.apply_upsertNode`, `ModelsRefresh.apply_removeNode` — a write and the rebuild after
  it are the operation of the catalog.
-/

import Mathlib.Logic.Function.Basic
import SparklRouter.Catalog.Poisoning
import SparklRouter.Tunnel.Connect

set_option relaxedAutoImplicit false
set_option autoImplicit false

namespace ModelsRefresh

open ModelsCatalog (Advertised Models Orders ParseError)
open Tunnel (ConnId InboundFrame LineId Uuid)

variable {fromStr : Text → Option Json.Value}

/-! ### Fetching -/

/-- The errors of `fetch_models_from_tunnel`, which only the log shows. -/
inductive FetchError
  | failedToSend
  | returnedStatus (status : UInt16)
  | endStatus (status : UInt16)
  | error (message : Text)
  | timedOut
  | parse (e : ParseError)
deriving DecidableEq

/-- What the fetching loop does after a frame. -/
inductive Received
  | more (body : Text)
  | done (body : Text)
  | failed (e : FetchError)
deriving DecidableEq

/-- The loop of `fetch_models_from_tunnel` on what `rx.recv()` returns.  The end of the stream ends
the loop like a good `End`: the body so far is parsed. -/
def onFrame (body : Text) : Option InboundFrame → Received
  | none => .done body
  | some (.response status _) =>
      if status ≠ 200 then .failed (.returnedStatus status) else .more body
  | some (.chunk data) => .more (body ++ data)
  | some (.endFrame status) => if status = 200 then .done body else .failed (.endStatus status)
  | some (.error _ message) => .failed (.error message)
  | some (.activateResponse _) => .more body

/-- What a fetch returns. -/
abbrev Fetched (fromStr : Text → Option Json.Value) := Except FetchError (Advertised fromStr)

/-- The body as a whole is parsed. -/
def parse (fromStr : Text → Option Json.Value) (body : Text) : Fetched fromStr :=
  match h : ModelsCatalog.parseModelEntries fromStr body with
  | .ok models => .ok ⟨body, models, h⟩
  | .error e => .error (.parse e)

/-! ### The two halves of a catalog operation -/

/-- The write of `upsert_node`. -/
def insertModels (catalog : ModelsCatalog.State) (nodeId : NodeId) (models : Models) :
    ModelsCatalog.State :=
  { catalog with byNode := catalog.byNode.insert nodeId models }

/-- The write of `remove_node`. -/
def eraseModels (catalog : ModelsCatalog.State) (nodeId : NodeId) : ModelsCatalog.State :=
  { catalog with byNode := catalog.byNode.erase nodeId }

/-- The rebuild ends in a panic. -/
def rebuildPanics (orders : Orders) (catalog : ModelsCatalog.State) : Bool :=
  match ModelsCatalog.mergeVisits
      (HashMap.visits orders.nodes orders.models catalog.byNode) ∅ with
  | .ok _ => false
  | .error _ => true

/-- **`upsert_node` with nobody in between** is the operation of the catalog. -/
theorem apply_upsertNode (catalog : ModelsCatalog.State) (nodeId : NodeId)
    (advertised : Advertised fromStr) (orders : Orders) :
    ModelsCatalog.apply catalog (.upsertNode nodeId advertised orders) =
      ModelsCatalog.rebuildUnion orders (insertModels catalog nodeId advertised.models) :=
  rfl

/-- **`remove_node` with nobody in between** is the operation of the catalog. -/
theorem apply_removeNode (catalog : ModelsCatalog.State) (nodeId : NodeId) (orders : Orders) :
    ModelsCatalog.apply catalog (.removeNode nodeId orders : ModelsCatalog.Op fromStr) =
      if nodeId ∈ catalog.byNode then
        ModelsCatalog.rebuildUnion orders (eraseModels catalog nodeId)
      else eraseModels catalog nodeId := by
  by_cases hmem : nodeId ∈ catalog.byNode
  · rw [if_pos hmem, ModelsCatalog.apply, ModelsCatalog.rebuilds, if_pos hmem]
    rfl
  · rw [if_neg hmem, ModelsCatalog.apply, ModelsCatalog.rebuilds, if_neg hmem]
    rfl

/-! ### The system -/

/-- Where a refresh stands. -/
inductive RefreshPc (fromStr : Text → Option Json.Value)
  | registering
  /-- The request is registered; `send_frame` has not returned. -/
  | sending (rid : Uuid) (l : LineId)
  | receiving (rid : Uuid) (l : LineId) (body : Text)
  /-- The result is there; the receiver of the request is about to be dropped. -/
  | dropping (rid : Uuid) (l : LineId) (fetched : Fetched fromStr)
  /-- The entry of the request is about to be removed. -/
  | cleaning (rid : Uuid) (fetched : Fetched fromStr)
  /-- Within `upsert_node`, before its write. -/
  | upserting (advertised : Advertised fromStr)
  /-- Within `upsert_node`, after its write. -/
  | rebuilding
  | ended

/-- The task has not ended. -/
def RefreshPc.running : RefreshPc fromStr → Bool
  | .ended => false
  | _ => true

/-- A refresh: the tunnel and the node id it was spawned with. -/
structure Refresh (fromStr : Text → Option Json.Value) where
  tunnel : ConnId
  nodeId : NodeId
  pc : RefreshPc fromStr

/-- Where the teardown of a connection stands with `remove_node`. -/
inductive Removal
  | pending
  /-- The models of the node were there and are removed; the rebuild is to follow. -/
  | rebuilding
  /-- The rebuild has panicked, and the handler with it. -/
  | panicked
  | returned
deriving DecidableEq

/-- The router, its refreshes and its catalog; the last two are data of the connections. -/
structure State (fromStr : Text → Option Json.Value) where
  router : Tunnel.State
  refreshes : List (Refresh fromStr)
  catalog : ModelsCatalog.State
  removals : ConnId → Removal
  lastModelsRefreshAt : ConnId → Int64

def init : State fromStr :=
  ⟨Tunnel.init, [], ModelsCatalog.new, fun _ => .pending, fun _ => 0⟩

/-- The task of a refresh goes on. -/
def State.goTo (s : State fromStr) (i : ℕ) (pc : RefreshPc fromStr) : State fromStr :=
  { s with refreshes := s.refreshes.modify i fun r => { r with pc := pc } }

/-- `spawn_tunnel_models_refresh`, and the spawn in `maybe_refresh_on_pong`. -/
def State.spawn (s : State fromStr) (c : ConnId) (nodeId : NodeId) : State fromStr :=
  { s with refreshes := s.refreshes ++ [⟨c, nodeId, .registering⟩] }

def State.setRemoval (s : State fromStr) (c : ConnId) (r : Removal) : State fromStr :=
  { s with removals := Function.update s.removals c r }

/-- `maybe_refresh_on_pong` at the given time. -/
def State.maybeRefreshOnPong (s : State fromStr) (c : ConnId) (nodeId : NodeId) (now : Int64)
    (minIntervalSecs : UInt64) : State fromStr :=
  let last := s.lastModelsRefreshAt c
  if last > 0 ∧ now - last < minIntervalSecs.toInt64 then s
  else { s with lastModelsRefreshAt := Function.update s.lastModelsRefreshAt c now }.spawn c nodeId

/-- What a refresh does next, as far as it does not decide this itself. -/
inductive RefreshOp
  | register (rid : Uuid)
  /-- The send of the request succeeds or fails. -/
  | sent (ok : Bool)
  | recv
  | timeout
  | dropRx
  | cleanup
  | upsert
  | rebuild (orders : Orders)

/-- What the scheduler can do. -/
inductive Action
  /-- A step of the router that is not one of those below. -/
  | router (a : Tunnel.Action)
  /-- The loop of a live connection takes a pong off the socket. -/
  | pong (c : ConnId) (now : Int64)
  /-- The write of the `remove_node` of a teardown. -/
  | erase (c : ConnId)
  /-- The rebuild of the `remove_node` of a teardown. -/
  | rebuildErased (c : ConnId) (orders : Orders)
  | refresh (i : ℕ) (op : RefreshOp)

section

variable (crypto : NodeAuth.Crypto) (uuids : Sharding Uuid) (minIntervalSecs : UInt64)

/-- A step of the router. -/
def State.route (s : State fromStr) (a : Tunnel.Action) : Option (State fromStr) :=
  (Tunnel.step crypto uuids s.router a).map fun router => { s with router := router }

/-- The next step of the handler of a connection.  It spawns a refresh when it has announced the
tunnel, and it goes on from `remove_node` when that has returned. -/
def State.advance (s : State fromStr) (c : ConnId) : Option (State fromStr) :=
  (s.router.conns[c]?).bind fun conn =>
    match conn.phase with
    | .announcing => (s.route crypto uuids (.step c)).map fun s' => s'.spawn c conn.nodeId
    | .removingModels =>
        if s.removals c = .returned then s.route crypto uuids (.step c) else none
    | _ => s.route crypto uuids (.step c)

/-- The next step of a refresh. -/
def State.refresh (s : State fromStr) (i : ℕ) (r : Refresh fromStr) :
    RefreshPc fromStr → RefreshOp → Option (State fromStr)
  | .registering, .register rid =>
      (s.router.conns[r.tunnel]?).bind fun conn =>
        (s.route crypto uuids (.request r.tunnel (.register rid))).map fun s' =>
          s'.goTo i (.sending rid conn.dispatch.lines.length)
  | .sending rid l, .sent ok =>
      some (s.goTo i
        (if ok then .receiving rid l [] else .dropping rid l (.error .failedToSend)))
  | .receiving rid l body, .recv =>
      (s.router.conns[r.tunnel]?).bind fun conn => (conn.dispatch.recv l).bind fun got =>
        (s.route crypto uuids (.request r.tunnel (.recv l))).map fun s' =>
          s'.goTo i (match onFrame body got.1 with
            | .more body => .receiving rid l body
            | .done body => .dropping rid l (parse fromStr body)
            | .failed e => .dropping rid l (.error e))
  | .receiving rid l _, .timeout => some (s.goTo i (.dropping rid l (.error .timedOut)))
  | .dropping rid l fetched, .dropRx =>
      (s.route crypto uuids (.request r.tunnel (.dropRx l))).map fun s' =>
        s'.goTo i (.cleaning rid fetched)
  | .cleaning rid fetched, .cleanup =>
      (s.route crypto uuids (.request r.tunnel (.cleanup rid))).map fun s' =>
        s'.goTo i (match fetched with
          | .ok advertised => .upserting advertised
          | .error _ => .ended)
  | .upserting advertised, .upsert =>
      some ({ s with catalog := insertModels s.catalog r.nodeId advertised.models }.goTo i
        .rebuilding)
  -- a panic of the rebuild ends the task as well
  | .rebuilding, .rebuild orders =>
      some ({ s with catalog := ModelsCatalog.rebuildUnion orders s.catalog }.goTo i .ended)
  | _, _ => none

/-- **The transition function of the router with its refreshes.** -/
def step (s : State fromStr) : Action → Option (State fromStr)
  | .router (.step c) => s.advance crypto uuids c
  | .router a => s.route crypto uuids a
  | .pong c now =>
      (s.router.conns[c]?).bind fun conn =>
        if conn.phase = .live ∧ conn.reader = .idle then
          some (s.maybeRefreshOnPong c conn.nodeId now minIntervalSecs)
        else none
  | .erase c =>
      (s.router.conns[c]?).bind fun conn =>
        if conn.phase = .removingModels ∧ s.removals c = .pending then
          some ({ s with catalog := eraseModels s.catalog conn.nodeId }.setRemoval c
            (if conn.nodeId ∈ s.catalog.byNode then .rebuilding else .returned))
        else none
  | .rebuildErased c orders =>
      if s.removals c = .rebuilding then
        some ({ s with catalog := ModelsCatalog.rebuildUnion orders s.catalog }.setRemoval c
          (if rebuildPanics orders s.catalog then .panicked else .returned))
      else none
  | .refresh i op => (s.refreshes[i]?).bind fun r => s.refresh crypto uuids i r r.pc op

end

end ModelsRefresh
