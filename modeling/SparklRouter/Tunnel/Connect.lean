/-
**Connections and the tunnel registry as a system of interleaved tasks.**

Every web-socket connection of a node is a task of its own: after the handshake it takes the tunnel
that is registered under the node id out of the registry and closes it, registers its own tunnel,
sends `ready`, serves the tunnel until its shutdown channel or its socket ends the loop, and tears
the tunnel down (`handle_node_connect` in `src/tunnel/connect.rs`, `run_tunnel_lifecycle` in
`src/tunnel/lifecycle.rs`).  This module gives each of these tasks as a sequence of steps, cut where
another task can step in between, and the router as the transition system in which the scheduler
interleaves any number of them with the requests that go through their tunnels.

A tunnel is named by the connection that created it.  `State.log` is not data of the program: it is
the history of what the connections did to the registry and of their calls into the capacity
tracker, the model catalog and the telemetry.  The exchange before the first step of a connection
touches nothing shared, so a connection starts when its handshake has been accepted.

Main definitions:

* `Tunnel.Conn`, `Tunnel.Phase` — a connection with its tunnel, and where its task stands;
* `Tunnel.State` — the connections, the registry and the history;
* `Tunnel.step` — the transition function.
-/

import SparklRouter.NodeAuth
import SparklRouter.Concurrency.Transition
import SparklRouter.Tunnel.Dispatch

set_option relaxedAutoImplicit false
set_option autoImplicit false

namespace Tunnel

open NodeAuth

/-- The name of a connection and of its tunnel: its position among the accepted connections. -/
abbrev ConnId := ℕ

/-- Where the task of a connection stands. -/
inductive Phase
  /-- About to take the tunnel registered under the node id out of the registry. -/
  | replacing
  /-- About to signal the shutdown of the tunnel taken out. -/
  | signalling (old : ConnId)
  /-- Within `fail_all_pending` of the tunnel taken out, about to lock the given shard. -/
  | failingOld (old : ConnId) (shard : ℕ)
  | inserting
  | sendingReady
  /-- Sending `ready` failed; about to take the tunnel out of the registry. -/
  | withdrawing
  | announcing
  | live
  /-- Within `fail_all_pending` of the own tunnel. -/
  | failingOwn (shard : ℕ)
  | clearing
  | unregistering
  | removingModels
  | goingOffline
  | closed
deriving DecidableEq

/-- What a connection does to the registry, and its calls into other parts of the router. -/
inductive Event
  | replaced (c : ConnId) (nodeId : NodeId)
  | inserted (c : ConnId) (nodeId : NodeId)
  | dropped (c : ConnId) (nodeId : NodeId)
  | clearNode (nodeId : NodeId)
  | removeNode (nodeId : NodeId)
  | nodeStatus (nodeId : NodeId) (moniker : Option Text) (online : Bool)
  | modelsRefresh (c : ConnId)
deriving DecidableEq

/-- Whether the tunnel of the connection exists. -/
def Phase.created : Phase → Bool
  | .replacing | .signalling _ | .failingOld _ _ | .inserting => false
  | _ => true

/-- A connection whose handshake was accepted, with its tunnel. -/
structure Conn where
  handshake : Handshake
  accepted : Accepted
  phase : Phase
  shutdown : Channel 1 Unit
  dispatch : Dispatch
  reader : ReaderPc

/-- The connections, the registry, and the history with its newest event first. -/
structure State where
  conns : List Conn
  registry : ShardMap NodeId ConnId
  log : List Event

def init : State := ⟨[], ShardMap.empty, []⟩

/-- The connection as it starts; its channels are those of the tunnel it is going to register. -/
def Conn.start (h : Handshake) (a : Accepted) : Conn :=
  ⟨h, a, .replacing, Channel.new, Dispatch.empty, .idle⟩

def Conn.nodeId (c : Conn) : NodeId := c.accepted.nodeId

/-- `signal_shutdown`: the send does not wait, and a signal that finds the channel full is one that
was given already. -/
def Conn.signalShutdown (c : Conn) : Conn := { c with shutdown := (c.shutdown.trySend ()).1 }

/-- One connection changes. -/
def State.modify (s : State) (c : ConnId) (f : Conn → Conn) : State :=
  { s with conns := s.conns.modify c f }

def State.goTo (s : State) (c : ConnId) (p : Phase) : State := s.modify c fun x => { x with phase := p }

def State.record (s : State) (e : Event) : State := { s with log := e :: s.log }

/-- What a request in flight, or one about to be, does with a tunnel it holds. -/
inductive RequestOp
  | register (rid : Uuid)
  | recv (l : LineId)
  | dropRx (l : LineId)
  | cleanup (rid : Uuid)
deriving DecidableEq

def RequestOp.apply (d : Dispatch) : RequestOp → Option Dispatch
  | .register rid => if d.Fresh rid then some (d.registerPending rid) else none
  | .recv l => (d.recv l).map Prod.snd
  | .dropRx l => some (d.dropRx l)
  | .cleanup rid => some (d.removePending rid)

/-- What the scheduler can do. -/
inductive Action
  | connect (h : Handshake)
  /-- The task takes its next step. -/
  | step (c : ConnId)
  /-- Sending `ready` succeeds or fails. -/
  | ready (c : ConnId) (ok : Bool)
  /-- The loop receives the shutdown signal. -/
  | shutdown (c : ConnId)
  /-- The socket closes or fails. -/
  | socketClosed (c : ConnId)
  /-- The pinger of a live tunnel finds that pongs are overdue. -/
  | pongTimeout (c : ConnId)
  /-- The loop takes a frame off the socket. -/
  | inbound (c : ConnId) (rid : Uuid) (frame : InboundFrame)
  /-- The loop goes on with `route_inbound`. -/
  | reader (c : ConnId)
  | request (c : ConnId) (op : RequestOp)

variable (crypto : Crypto) (uuids : Sharding Uuid)

/-- The next step of a connection that does not wait for its socket. -/
def advance (s : State) (c : ConnId) (conn : Conn) : Phase → Option State
  | .replacing =>
      let next := match s.registry.get conn.nodeId with
        | some old => .signalling old
        | none => .inserting
      some (({ s with registry := s.registry.remove conn.nodeId }.record
        (.replaced c conn.nodeId)).goTo c next)
  | .signalling old => some ((s.modify old Conn.signalShutdown).goTo c (.failingOld old 0))
  | .failingOld old i =>
      if i < uuids.shards then
        some ((s.modify old fun x => { x with dispatch := x.dispatch.failShard uuids.shard i }).goTo c
          (.failingOld old (i + 1)))
      else some (s.goTo c .inserting)
  | .inserting =>
      some (({ s with registry := s.registry.insert conn.nodeId c }.record
        (.inserted c conn.nodeId)).goTo c .sendingReady)
  | .withdrawing =>
      some (({ s with registry := s.registry.remove conn.nodeId }.record
        (.dropped c conn.nodeId)).goTo c .closed)
  | .announcing =>
      some (((s.record (.nodeStatus conn.nodeId conn.accepted.moniker true)).record
        (.modelsRefresh c)).goTo c .live)
  | .failingOwn i =>
      if i < uuids.shards then
        some ((s.modify c fun x => { x with dispatch := x.dispatch.failShard uuids.shard i }).goTo c
          (.failingOwn (i + 1)))
      else some (s.goTo c .clearing)
  | .clearing => some ((s.record (.clearNode conn.nodeId)).goTo c .unregistering)
  | .unregistering =>
      some (({ s with registry := s.registry.remove conn.nodeId }.record
        (.dropped c conn.nodeId)).goTo c .removingModels)
  | .removingModels => some ((s.record (.removeNode conn.nodeId)).goTo c .goingOffline)
  | .goingOffline =>
      some ((s.record (.nodeStatus conn.nodeId conn.accepted.moniker false)).goTo c .closed)
  | _ => none

/-- **The transition function of the router.** -/
def step (s : State) : Action → Option State
  | .connect h =>
      match handshake crypto h with
      | .ok a => some { s with conns := s.conns ++ [Conn.start h a] }
      | .error _ => some s
  | .step c => (s.conns[c]?).bind fun conn => advance uuids s c conn conn.phase
  | .ready c ok =>
      (s.conns[c]?).bind fun conn =>
        if conn.phase = .sendingReady then
          some (s.goTo c (if ok then .announcing else .withdrawing))
        else none
  | .shutdown c =>
      (s.conns[c]?).bind fun conn =>
        if conn.phase = .live ∧ conn.reader = .idle then
          (conn.shutdown.recv).map fun got =>
            (s.modify c fun x => { x with shutdown := got.2 }).goTo c (.failingOwn 0)
        else none
  | .socketClosed c =>
      (s.conns[c]?).bind fun conn =>
        if conn.phase = .live ∧ conn.reader = .idle then some (s.goTo c (.failingOwn 0)) else none
  | .pongTimeout c =>
      (s.conns[c]?).bind fun conn =>
        if conn.phase = .live then some (s.modify c Conn.signalShutdown) else none
  | .inbound c rid frame =>
      (s.conns[c]?).bind fun conn =>
        if conn.phase = .live ∧ conn.reader = .idle then
          let routed := conn.dispatch.routeInbound rid frame
          some (s.modify c fun x => { x with dispatch := routed.1, reader := routed.2 })
        else none
  | .reader c =>
      (s.conns[c]?).bind fun conn =>
        (conn.dispatch.readerStep conn.reader).map fun next =>
          s.modify c fun x => { x with dispatch := next.1, reader := next.2 }
  | .request c op =>
      (s.conns[c]?).bind fun conn =>
        if conn.phase.created then
          (op.apply conn.dispatch).map fun d => s.modify c fun x => { x with dispatch := d }
        else none

end Tunnel
