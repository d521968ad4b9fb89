/-
**A tunnel with the requests sent through it, up to its end.**

`forward_http_request` and `forward_activate` register a request and then send its frame through the
outbound channel of the tunnel; the send waits while the channel is full and fails once its
receiver is gone.  The receiver belongs to the handler of the connection until the lifecycle starts,
and then to the writer task.  A connection ends in two ways.  When `ready` cannot be sent, the
handler removes the node id and returns, and the receiver is dropped with its other variables
(`handle_node_connect`).  Otherwise the loop of `run_tunnel_lifecycle` breaks: the writer and the
pinger are aborted, which stops each of them some time later, and `fail_all_pending` runs in the
meantime.

This module puts the two together with the dispatcher of the tunnel and the holders of its requests.
Who may forward a request is left open: a caller holds the tunnel itself, registered or not.

Main definitions:

* `Disconnect.Call`, `Disconnect.Sending` — a forwarded request, and where its send stands;
* `Disconnect.State`, `Disconnect.step` — the tunnel with its tasks.

Main results:

* `Disconnect.tunnel_step` — **a step of the connection is a step of the tunnel, or none**;
* `Disconnect.Wired.step` — what holds of the tasks in every run;
* `Disconnect.inOrder_of_connection` — the order of the frames holds up to the end.
-/

import SparklRouter.Text.Json
import SparklRouter.Tunnel.Multiplex

set_option relaxedAutoImplicit false
set_option autoImplicit false

namespace Disconnect

open Tunnel Tunnel.Dispatch Transition

/-! ### Requests -/

/-- The frames that go through the outbound channel. -/
inductive RouterToNodeFrame
  | request (rid : Uuid) (method path : Text) (headers : Json.Value) (body : Option Text)
  | activateRequest (rid : Uuid) (sessionId signature : Text) (blockNumber : UInt64)
      (message : Option Text)
  | ping

/-- A call of `forward_http_request` or of `forward_activate`; their time limits are not used. -/
inductive Call
  | forwardHttpRequest (method path : Text) (headers : Json.Value) (body : Option Text)
  | forwardActivate (sessionId signature : Text) (blockNumber : UInt64) (message : Option Text)

def Call.frame (rid : Uuid) : Call → RouterToNodeFrame
  | .forwardHttpRequest method path headers body => .request rid method path headers body
  | .forwardActivate sessionId signature blockNumber message =>
      .activateRequest rid sessionId signature blockNumber message

/-- Where the call that has registered a request stands. -/
inductive Sending
  /-- Within `send_frame`. -/
  | waiting (frame : RouterToNodeFrame)
  /-- The send failed; the `PendingRequest` is dropped and the call returns the error. -/
  | failed
  /-- The call has returned the `PendingRequest`. -/
  | sent

/-- Whether the call has returned the `PendingRequest`. -/
def Sending.isSent : Sending → Bool
  | .sent => true
  | _ => false

/-- Whether the call has returned an error. -/
def Sending.isFailed : Sending → Bool
  | .failed => true
  | _ => false

/-! ### The tasks of the connection -/

/-- A spawned task; an aborted one stops at its next suspension. -/
inductive TaskState
  | unspawned | running | aborting | stopped
deriving DecidableEq

def TaskState.alive : TaskState → Bool
  | .running | .aborting => true
  | _ => false

def TaskState.abort : TaskState → TaskState
  | .running => .aborting
  | t => t

/-- Where the handler of the connection stands, from the registration of the tunnel on. -/
inductive Handler
  | sendingReady
  /-- Sending `ready` failed: the handler is about to remove the node id and to return. -/
  | withdrawing
  /-- `ready` was sent; the lifecycle is about to spawn its tasks. -/
  | starting
  | serving
  /-- The loop has ended and the tasks are aborted; about to call `fail_all_pending`. -/
  | ending
  /-- Within its own `fail_all_pending`, which is the given one among the calls on the tunnel. -/
  | failing (call : ℕ)
  /-- The rest of the teardown, which does not touch the tunnel. -/
  | cleaning
  | returned
deriving DecidableEq

structure State where
  tunnel : Multiplex.State
  sends : List Sending
  /-- The outbound channel. -/
  frames : Channel 256 RouterToNodeFrame
  handler : Handler
  writer : TaskState
  pinger : TaskState

def init : State := ⟨Multiplex.init, [], Channel.new, .sendingReady, .unspawned, .unspawned⟩

/-- What the scheduler can do. -/
inductive Action
  | forward (rid : Uuid) (call : Call)
  /-- The send of a request goes on. -/
  | send (l : LineId)
  /-- The holder of a request, the reader of a frame, or another handler's `fail_all_pending` takes
  a step on the tunnel. -/
  | tunnel (act : Multiplex.Action)
  /-- Sending `ready` succeeds or fails. -/
  | ready (ok : Bool)
  /-- The handler takes its next step. -/
  | handler
  /-- The shutdown signal or the end of the socket breaks the loop. -/
  | leave
  /-- The writer takes a frame off the channel. -/
  | writerTakes
  /-- The writer is gone: it was aborted, or the socket has failed. -/
  | writerStops
  /-- The pinger sends a `Ping`. -/
  | ping
  | pingerStops

/-- The steps on the tunnel that are not the handler's own.  Frames are read in the loop, and only a
caller that has its `PendingRequest` receives. -/
def State.permits (s : State) : Multiplex.Action → Bool
  | .registerPending _ => false
  | .handleInbound _ => decide (s.handler = .serving)
  | .failShard i => decide (s.handler ≠ .failing i)
  | .recv l => (s.sends[l]?).any Sending.isSent
  | _ => true

variable (uuids : Sharding Uuid)

/-- The next step of the handler. -/
def advance (s : State) : Handler → Option State
  | .withdrawing => some { s with handler := .returned, frames := s.frames.dropReceiver }
  | .starting => some { s with handler := .serving, writer := .running, pinger := .running }
  | .ending =>
      (Multiplex.step uuids s.tunnel .failAllPending).map fun t =>
        { s with tunnel := t, handler := .failing s.tunnel.failing.length }
  | .failing call =>
      if s.tunnel.failing[call]? = some uuids.shards then some { s with handler := .cleaning }
      else (Multiplex.step uuids s.tunnel (.failShard call)).map fun t => { s with tunnel := t }
  | .cleaning => some { s with handler := .returned }
  | _ => none

/-- **The transition function of the connection.** -/
def step (s : State) : Action → Option State
  | .forward rid call =>
      (Multiplex.step uuids s.tunnel (.registerPending rid)).map fun t =>
        { s with tunnel := t, sends := s.sends ++ [.waiting (call.frame rid)] }
  | .send l =>
      (s.tunnel.requests[l]?).bind fun q =>
        match s.sends[l]? with
        | some (.waiting frame) =>
            if q.rx = false then none
            else if s.frames.receiver = false then
              some { s with sends := s.sends.set l .failed }
            else if s.frames.accepts then
              some { s with frames := (s.frames.trySend frame).1, sends := s.sends.set l .sent }
            else none
        | _ => none
  | .tunnel act =>
      if s.permits act then
        (Multiplex.step uuids s.tunnel act).map fun t => { s with tunnel := t }
      else none
  | .ready ok =>
      if s.handler = .sendingReady then
        some { s with handler := if ok then .starting else .withdrawing }
      else none
  | .handler => advance uuids s s.handler
  | .leave =>
      if s.handler = .serving ∧ s.tunnel.reader = .idle then
        some { s with handler := .ending, writer := s.writer.abort, pinger := s.pinger.abort }
      else none
  | .writerTakes =>
      if s.writer.alive then (s.frames.recv).map fun got => { s with frames := got.2 } else none
  | .writerStops =>
      if s.writer.alive then
        some { s with writer := .stopped, frames := s.frames.dropReceiver }
      else none
  | .ping =>
      if s.pinger.alive ∧ s.frames.accepts then
        some { s with frames := (s.frames.trySend .ping).1 }
      else none
  | .pingerStops => if s.pinger.alive then some { s with pinger := .stopped } else none

/-! ### A step of the connection, seen from its tunnel -/

section

variable {uuids : Sharding Uuid} {s s' : State} {act : Action}

/-- What a step does to the tunnel and to the sends.  A step of the handler that fails a shard is
told apart from the others by its call. -/
inductive Change (uuids : Sharding Uuid) (s : State) : Action → State → Prop
  | forward {rid : Uuid} {call : Call} {t : Multiplex.State}
      (ht : Multiplex.step uuids s.tunnel (.registerPending rid) = some t) :
      Change uuids s (.forward rid call)
        { s with tunnel := t, sends := s.sends ++ [.waiting (call.frame rid)] }
  | refuse {l : LineId} {frame : RouterToNodeFrame} (hl : s.sends[l]? = some (.waiting frame))
      (hclosed : s.frames.receiver = false) :
      Change uuids s (.send l) { s with sends := s.sends.set l .failed }
  | send {l : LineId} {frame : RouterToNodeFrame} (hl : s.sends[l]? = some (.waiting frame))
      (hopen : s.frames.receiver = true) : Change uuids s (.send l)
        { s with frames := (s.frames.trySend frame).1, sends := s.sends.set l .sent }
  | tunnel {a : Multiplex.Action} {t : Multiplex.State} (hpermits : s.permits a = true)
      (ht : Multiplex.step uuids s.tunnel a = some t) :
      Change uuids s (.tunnel a) { s with tunnel := t }
  | ready {ok : Bool} (hhandler : s.handler = .sendingReady) : Change uuids s (.ready ok)
      { s with handler := if ok then .starting else .withdrawing }
  | withdraw (hhandler : s.handler = .withdrawing) : Change uuids s .handler
      { s with handler := .returned, frames := s.frames.dropReceiver }
  | start (hhandler : s.handler = .starting) : Change uuids s .handler
      { s with handler := .serving, writer := .running, pinger := .running }
  | leave (hhandler : s.handler = .serving) (hidle : s.tunnel.reader = .idle) :
      Change uuids s .leave
        { s with handler := .ending, writer := s.writer.abort, pinger := s.pinger.abort }
  | failAll (hhandler : s.handler = .ending) : Change uuids s .handler
      { s with
        tunnel := { s.tunnel with failing := s.tunnel.failing ++ [0] }
        handler := .failing s.tunnel.failing.length }
  | failShard {call : ℕ} {t : Multiplex.State} (hhandler : s.handler = .failing call)
      (ht : Multiplex.step uuids s.tunnel (.failShard call) = some t) :
      Change uuids s .handler { s with tunnel := t }
  | failed {call : ℕ} (hhandler : s.handler = .failing call)
      (hdone : s.tunnel.failing[call]? = some uuids.shards) :
      Change uuids s .handler { s with handler := .cleaning }
  | clean (hhandler : s.handler = .cleaning) :
      Change uuids s .handler { s with handler := .returned }
  | writerTakes {got : Option RouterToNodeFrame × Channel 256 RouterToNodeFrame}
      (hgot : s.frames.recv = some got) : Change uuids s .writerTakes { s with frames := got.2 }
  | writerStops (halive : s.writer.alive = true) : Change uuids s .writerStops
      { s with writer := .stopped, frames := s.frames.dropReceiver }
  | ping : Change uuids s .ping { s with frames := (s.frames.trySend .ping).1 }
  | pingerStops : Change uuids s .pingerStops { s with pinger := .stopped }

theorem change_of_advance {p : Handler} (hp : s.handler = p) (h : advance uuids s p = some s') :
    Change uuids s .handler s' := by
  cases p with
  | withdrawing =>
      obtain rfl := Option.some.inj h
      exact Change.withdraw hp
  | starting =>
      obtain rfl := Option.some.inj h
      exact Change.start hp
  | ending =>
      obtain rfl := Option.some.inj h
      exact Change.failAll hp
  | failing call =>
      simp only [advance] at h
      split at h
      · rename_i hdone
        obtain rfl := Option.some.inj h
        exact Change.failed hp hdone
      · obtain ⟨t, ht, rfl⟩ := Option.map_eq_some_iff.1 h
        exact Change.failShard hp ht
  | cleaning =>
      obtain rfl := Option.some.inj h
      exact Change.clean hp
  | sendingReady => cases h
  | serving => cases h
  | returned => cases h

/-- **Every step of the connection is one of the listed changes.** -/
theorem change_of_step (h : step uuids s act = some s') : Change uuids s act s' := by
  cases act with
  | forward rid call =>
      obtain ⟨t, ht, rfl⟩ := Option.map_eq_some_iff.1 h
      exact Change.forward ht
  | send l =>
      obtain ⟨q, -, h⟩ := Option.bind_eq_some_iff.1 h
      split at h
      · rename_i frame hl
        split at h
        · cases h
        · split at h
          · rename_i hclosed
            obtain rfl := Option.some.inj h
            exact Change.refuse hl hclosed
          · rename_i hopen
            split at h
            · obtain rfl := Option.some.inj h
              exact Change.send hl (by simpa using hopen)
            · cases h
      · cases h
  | tunnel a =>
      simp only [step] at h
      split at h
      · rename_i hpermits
        obtain ⟨t, ht, rfl⟩ := Option.map_eq_some_iff.1 h
        exact Change.tunnel hpermits ht
      · cases h
  | ready ok =>
      simp only [step] at h
      split at h
      · rename_i hhandler
        obtain rfl := Option.some.inj h
        exact Change.ready hhandler
      · cases h
  | handler => exact change_of_advance rfl h
  | leave =>
      simp only [step] at h
      split at h
      · rename_i hleave
        obtain rfl := Option.some.inj h
        exact Change.leave hleave.1 hleave.2
      · cases h
  | writerTakes =>
      simp only [step] at h
      split at h
      · obtain ⟨got, hgot, rfl⟩ := Option.map_eq_some_iff.1 h
        exact Change.writerTakes hgot
      · cases h
  | writerStops =>
      simp only [step] at h
      split at h
      · rename_i halive
        obtain rfl := Option.some.inj h
        exact Change.writerStops halive
      · cases h
  | ping =>
      simp only [step] at h
      split at h
      · obtain rfl := Option.some.inj h
        exact Change.ping
      · cases h
  | pingerStops =>
      simp only [step] at h
      split at h
      · obtain rfl := Option.some.inj h
        exact Change.pingerStops
      · cases h

/-- **A step of the connection is a step of the tunnel, or leaves the tunnel alone.** -/
theorem tunnel_step (h : Change uuids s act s') : s'.tunnel = s.tunnel ∨
    ∃ a, Multiplex.step uuids s.tunnel a = some s'.tunnel := by
  cases h with
  | forward ht => exact Or.inr ⟨_, ht⟩
  | tunnel hpermits ht => exact Or.inr ⟨_, ht⟩
  | failAll hhandler => exact Or.inr ⟨.failAllPending, rfl⟩
  | failShard hhandler ht => exact Or.inr ⟨_, ht⟩
  | _ => exact Or.inl rfl

/-! ### The tasks -/

/-- Where the tasks of the connection can be: the reader works in the loop only; a writer that has
stopped has closed the outbound channel, and a handler that has returned without one as well. -/
structure Wired (s : State) : Prop where
  tunnel : Multiplex.Inv s.tunnel
  length : s.sends.length = s.tunnel.requests.length
  reading : s.tunnel.reader ≠ .idle → s.handler = .serving
  stopped : s.writer = .stopped → s.frames.receiver = false
  unspawned : s.writer = .unspawned → s.handler = .sendingReady ∨ s.handler = .withdrawing ∨
    s.handler = .starting ∨ (s.handler = .returned ∧ s.frames.receiver = false)

theorem wired_init : Wired init where
  tunnel := Multiplex.inv_init
  length := rfl
  reading h := absurd rfl h
  stopped h := by cases h
  unspawned _ := Or.inl rfl

/-- The number of requests that a step of the tunnel registers. -/
def registers : Multiplex.Action → ℕ
  | .registerPending _ => 1
  | _ => 0

/-- What a step of the tunnel does to the number of its requests, whose step makes the reader work,
and what becomes of the calls of `fail_all_pending`. -/
structure Shape (uuids : Sharding Uuid) (t : Multiplex.State) (a : Multiplex.Action)
    (t' : Multiplex.State) : Prop where
  requests : t'.requests.length = t.requests.length + registers a
  reader : t'.reader = t.reader ∨ (∃ node, a = .handleInbound node) ∨ t.reader ≠ .idle
  failing : t'.failing = t.failing ∨ (a = .failAllPending ∧ t'.failing = t.failing ++ [0]) ∨
    ∃ i shard, a = .failShard i ∧ t.failing[i]? = some shard ∧
      t'.failing = t.failing.set i (shard + 1)

theorem shape_step {t t' : Multiplex.State} {a : Multiplex.Action}
    (h : Multiplex.step uuids t a = some t') : Shape uuids t a t' := by
  cases a with
  | registerPending rid =>
      simp only [Multiplex.step] at h
      split at h
      · obtain rfl := Option.some.inj h
        exact ⟨List.length_append, Or.inl rfl, Or.inl rfl⟩
      · cases h
  | handleInbound node =>
      simp only [Multiplex.step] at h
      split at h
      · split at h
        · obtain rfl := Option.some.inj h
          exact ⟨rfl, Or.inr (Or.inl ⟨node, rfl⟩), Or.inl rfl⟩
        · obtain rfl := Option.some.inj h
          exact ⟨rfl, Or.inl rfl, Or.inl rfl⟩
      · cases h
  | reader =>
      obtain ⟨next, hnext, rfl⟩ := Option.map_eq_some_iff.1 h
      refine ⟨rfl, Or.inr (Or.inr fun hidle => ?_), Or.inl rfl⟩
      rw [hidle] at hnext
      cases hnext
  | failAllPending =>
      obtain rfl := Option.some.inj h
      exact ⟨rfl, Or.inl rfl, Or.inr (Or.inl ⟨rfl, rfl⟩)⟩
  | failShard i =>
      obtain ⟨shard, hshard, h⟩ := Option.bind_eq_some_iff.1 h
      split at h
      · obtain rfl := Option.some.inj h
        exact ⟨rfl, Or.inl rfl, Or.inr (Or.inr ⟨i, shard, rfl, hshard, rfl⟩)⟩
      · cases h
  | recv l =>
      obtain ⟨q, -, h⟩ := Option.bind_eq_some_iff.1 h
      split at h
      · obtain ⟨got, -, rfl⟩ := Option.map_eq_some_iff.1 h
        exact ⟨List.length_set, Or.inl rfl, Or.inl rfl⟩
      · cases h
  | dropRx l =>
      obtain ⟨q, -, h⟩ := Option.bind_eq_some_iff.1 h
      split at h
      · obtain rfl := Option.some.inj h
        exact ⟨List.length_set, Or.inl rfl, Or.inl rfl⟩
      · cases h
  | dropCleanup l =>
      obtain ⟨q, -, h⟩ := Option.bind_eq_some_iff.1 h
      obtain ⟨line, -, h⟩ := Option.bind_eq_some_iff.1 h
      split at h
      · obtain rfl := Option.some.inj h
        exact ⟨List.length_set, Or.inl rfl, Or.inl rfl⟩
      · cases h

/-- Only the call that forwards a request registers it. -/
theorem registers_of_permits {a : Multiplex.Action} (h : s.permits a = true) : registers a = 0 := by
  cases a with
  | registerPending rid => cases h
  | _ => rfl

/-- The handler has spawned the tasks of the lifecycle, and has not returned. -/
def Handler.inLifecycle : Handler → Bool
  | .serving | .ending | .failing _ | .cleaning => true
  | _ => false

/-- The reader works in the loop only. -/
theorem Wired.reader_idle (hwired : Wired s) (hne : s.handler ≠ .serving) :
    s.tunnel.reader = .idle := by
  by_contra hbusy
  exact hne (hwired.reading hbusy)

/-- The writer is spawned before the loop begins. -/
theorem Wired.spawned (hwired : Wired s) (hhandler : s.handler.inLifecycle = true) :
    s.writer ≠ .unspawned := by
  intro hunspawned
  rcases hwired.unspawned hunspawned with h | h | h | ⟨h, -⟩ <;> rw [h] at hhandler <;> cases hhandler

theorem TaskState.eq_of_abort {w x : TaskState} (h : w.abort = x)
    (hx : x = .stopped ∨ x = .unspawned) : w = x := by
  cases w with
  | running =>
      subst h
      rcases hx with hx | hx <;> cases hx
  | _ => exact h

/-- The handler goes on within the lifecycle, and the tasks stay what they are. -/
theorem Wired.handler_step (hwired : Wired s) (htunnel : Multiplex.Inv s'.tunnel)
    (hrequests : s'.tunnel.requests = s.tunnel.requests) (hreader : s'.tunnel.reader = s.tunnel.reader)
    (hsends : s'.sends = s.sends) (hframes : s'.frames = s.frames) (hwriter : s'.writer = s.writer)
    (hhandler : s.handler.inLifecycle = true) (hne : s.handler ≠ .serving) : Wired s' where
  tunnel := htunnel
  length := by rw [hsends, hrequests, hwired.length]
  reading hbusy := absurd (hreader.trans (hwired.reader_idle hne)) hbusy
  stopped h := by rw [hframes, hwired.stopped (hwriter ▸ h)]
  unspawned h := absurd (hwriter ▸ h) (hwired.spawned hhandler)

/-- **Every step keeps the tasks in order.** -/
theorem Wired.step (hwired : Wired s) (h : Change uuids s act s') : Wired s' := by
  have htunnel : Multiplex.Inv s'.tunnel := by
    rcases tunnel_step h with hsame | ⟨a, ht⟩
    · rw [hsame]
      exact hwired.tunnel
    · exact Multiplex.inv_step hwired.tunnel ht
  have hreading : ∀ {a t}, Multiplex.step uuids s.tunnel a = some t →
      (∀ node, a = .handleInbound node → s.handler = .serving) → t.reader ≠ .idle →
        s.handler = .serving := by
    intro a t ht hinbound hbusy
    rcases (shape_step ht).reader with hsame | ⟨node, rfl⟩ | hbusy
    · exact hwired.reading (hsame ▸ hbusy)
    · exact hinbound node rfl
    · exact hwired.reading hbusy
  -- a frame goes into the outbound channel
  have hsent : ∀ frame, s.writer = .unspawned → s.handler = .sendingReady ∨
      s.handler = .withdrawing ∨ s.handler = .starting ∨
        (s.handler = .returned ∧ (s.frames.trySend frame).1.receiver = false) := by
    intro frame hunspawned
    rw [Channel.receiver_trySend]
    exact hwired.unspawned hunspawned
  cases h with
  | forward ht =>
      refine ⟨htunnel, ?_, hreading ht fun _ h => (by cases h), hwired.stopped, hwired.unspawned⟩
      change (s.sends ++ [_]).length = _
      rw [(shape_step ht).requests, List.length_append, hwired.length]
      rfl
  | refuse hl hclosed =>
      exact ⟨htunnel, List.length_set.trans hwired.length, hwired.reading, hwired.stopped,
        hwired.unspawned⟩
  | @send l frame hl hopen =>
      refine ⟨htunnel, List.length_set.trans hwired.length, hwired.reading, fun hstopped => ?_,
        hsent frame⟩
      rw [Channel.receiver_trySend, hwired.stopped hstopped]
  | @tunnel a t hpermits ht =>
      refine ⟨htunnel, ?_, hreading ht fun node ha => ?_, hwired.stopped, hwired.unspawned⟩
      · change s.sends.length = t.requests.length
        rw [(shape_step ht).requests, registers_of_permits hpermits, hwired.length, Nat.add_zero]
      · subst ha
        exact of_decide_eq_true hpermits
  | ready hhandler =>
      have hidle := hwired.reader_idle fun h => by rw [h] at hhandler; cases hhandler
      refine ⟨htunnel, hwired.length, fun hbusy => absurd hidle hbusy, hwired.stopped, fun _ => ?_⟩
      split
      · exact Or.inr (Or.inr (Or.inl rfl))
      · exact Or.inr (Or.inl rfl)
  | withdraw hhandler =>
      have hidle := hwired.reader_idle fun h => by rw [h] at hhandler; cases hhandler
      exact ⟨htunnel, hwired.length, fun hbusy => absurd hidle hbusy, fun _ => rfl,
        fun _ => Or.inr (Or.inr (Or.inr ⟨rfl, rfl⟩))⟩
  | start hhandler =>
      exact ⟨htunnel, hwired.length, fun _ => rfl, fun h => (by cases h), fun h => (by cases h)⟩
  | leave hhandler hidle =>
      refine ⟨htunnel, hwired.length, fun hbusy => absurd hidle hbusy, fun hstopped => ?_,
        fun hunspawned => ?_⟩
      · exact hwired.stopped (TaskState.eq_of_abort hstopped (Or.inl rfl))
      · have hw : s.writer = .unspawned := TaskState.eq_of_abort hunspawned (Or.inr rfl)
        exact absurd hw (hwired.spawned (by rw [hhandler]; rfl))
  | failAll hhandler =>
      exact hwired.handler_step htunnel rfl rfl rfl rfl rfl (by rw [hhandler]; rfl)
        (by rw [hhandler]; exact Handler.noConfusion)
  | failShard hhandler ht =>
      refine ⟨htunnel, ?_, hreading ht fun _ h => (by cases h), hwired.stopped, hwired.unspawned⟩
      exact hwired.length.trans (shape_step ht).requests.symm
  | failed hhandler hdone =>
      exact hwired.handler_step htunnel rfl rfl rfl rfl rfl (by rw [hhandler]; rfl)
        (by rw [hhandler]; exact Handler.noConfusion)
  | clean hhandler =>
      exact hwired.handler_step htunnel rfl rfl rfl rfl rfl (by rw [hhandler]; rfl)
        (by rw [hhandler]; exact Handler.noConfusion)
  | writerTakes hgot =>
      have hsame := Channel.receiver_recv hgot
      refine ⟨htunnel, hwired.length, hwired.reading, fun hstopped => ?_, fun hunspawned => ?_⟩
      · rw [hsame, hwired.stopped hstopped]
      · rw [hsame]
        exact hwired.unspawned hunspawned
  | writerStops halive =>
      exact ⟨htunnel, hwired.length, hwired.reading, fun _ => rfl, fun h => (by cases h)⟩
  | ping =>
      refine ⟨htunnel, hwired.length, hwired.reading, fun hstopped => ?_, hsent .ping⟩
      rw [Channel.receiver_trySend, hwired.stopped hstopped]
  | pingerStops =>
      exact ⟨htunnel, hwired.length, hwired.reading, hwired.stopped, hwired.unspawned⟩

/-- **Whatever becomes of a connection, its requests receive their own frames in order.** -/
theorem inOrder_of_connection (uuids : Sharding Uuid) (as : List Action) :
    Always (Disconnect.step uuids) (fun s => Multiplex.InOrder s.tunnel) init as := by
  have hwired : Always (Disconnect.step uuids) Wired init as :=
    always_of_invariant (fun s act s' hs hstep => hs.step (change_of_step hstep)) wired_init as
  exact hwired.mono fun s hs => hs.tunnel.inOrder

end

end Disconnect
