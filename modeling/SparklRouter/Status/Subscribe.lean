/-
**The subscribers of the telemetry.**

A client of `/status/subscribe` gets a snapshot of all models first, and then every event of the bus
(`handle_subscribe` in `src/status/subscribe.rs`).  The receiver of the bus is made before the snapshot
is read, and the snapshot is read key by key, two loads a key, while requests go on: an event that is
older than the snapshot comes after it.  This module gives the subscribers over the requests and the
tracker, and the bus between them.

What the catalog, the tunnels and the other parts of the router contribute is left open: a snapshot is
made for any catalog and any tunnels, and the status of a node can be sent at any moment.

Main definitions:

* `Subscribe.TelemetryEvent` — what goes over the bus, and to a client;
* `Subscribe.Subscriber` — a client, from its subscription on;
* `Subscribe.step` — the transition function.

Main results:

* `Subscribe.turn_of_move` — **the inversion of a move**.
-/

import SparklRouter.Concurrency.Broadcast
import SparklRouter.Consumer.CapacitySettles

set_option relaxedAutoImplicit false
set_option autoImplicit false

namespace Subscribe

open Broadcast (Receiver)
open Capacity (CapacitySnapshot Caller ModelCapacityKey Slot Task TaskId)
open ModelsCatalog (ModelCapacityEvent Orders)

/-! ### Events -/

structure NodeStatusEvent where
  nodeId : Text
  moniker : Option Text
  status : Text
  inFlightRequests : UInt64
  modelCount : Int64

inductive TelemetryEvent
  | snapshot (nodes : List NodeStatusEvent) (models : List ModelCapacityEvent)
  | modelCapacity (event : ModelCapacityEvent)
  | nodeStatus (event : NodeStatusEvent)

namespace TelemetryEvent

/-- Only events of a model are sent by the requests. -/
def model? : TelemetryEvent → Option ModelCapacityEvent
  | modelCapacity event => some event
  | _ => none

def isSnapshot : TelemetryEvent → Bool
  | snapshot _ _ => true
  | _ => false

end TelemetryEvent

/-- `TELEMETRY_CHANNEL_CAPACITY`. -/
def telemetryChannelCapacity : ℕ := 256

/-! ### Subscribers -/

/-- The readings of `all_snapshots`. -/
abbrev TrackerSnap := List (ModelCapacityKey × UInt32 × UInt32)

inductive Phase
  /-- In `all_snapshots`, between two entries, or with the active counter of one. -/
  | counting (snaps : TrackerSnap) (half : Option (ModelCapacityKey × UInt32))
  /-- In `model_capacity_events`, with the keys that `snapshot` has been called for, and the call that
  is in progress. -/
  | looking (snaps : TrackerSnap) (looks : List (ModelCapacityKey × CapacitySnapshot))
      (call : Option (ModelCapacityKey × TaskId))
  /-- In the loop of `handle_subscribe`. -/
  | live
  /-- The handler has returned, and the receiver has been dropped. -/
  | gone

/-- Whether the receiver is there. -/
def Phase.subscribed : Phase → Bool
  | gone => false
  | _ => true

structure Subscriber where
  rx : Receiver TelemetryEvent
  phase : Phase
  /-- What has been sent to the client. -/
  told : List TelemetryEvent
  /-- The number of events the requests had sent before the subscription. -/
  seen : ℕ

/-! ### The system -/

/-- The requests and the tracker, what has been sent over the bus, and the subscribers. -/
structure State where
  base : CapacityTelemetry.State
  log : List TelemetryEvent
  subs : List Subscriber

def init : State := ⟨CapacityTelemetry.init, [], []⟩

/-- `TelemetryBus::emit`: without a receiver nothing is sent. -/
def State.emit (s : State) (events : List TelemetryEvent) : List TelemetryEvent :=
  if s.subs.any fun sub => sub.phase.subscribed then s.log ++ events else s.log

/-- What a subscriber does. -/
inductive Move
  /-- `all_snapshots` loads the active counter of an entry. -/
  | countActive (key : ModelCapacityKey)
  /-- `all_snapshots` loads the queued counter of the entry. -/
  | countQueued
  /-- The iteration of `all_snapshots` ends. -/
  | counted
  /-- `model_capacity_events` calls `snapshot` for a key that `all_snapshots` has not found. -/
  | look (key : ModelCapacityKey)
  /-- The call of `snapshot` goes on, or returns. -/
  | lookOn
  | sendSnapshot (nodes : List NodeStatusEvent) (orders : Orders) (catalog : ModelsCatalog.State)
  | recv
  /-- The socket is closed, or does not take a message. -/
  | leave

inductive Act
  | base (act : CapacityTelemetry.Act)
  /-- Another part of the router sends the status of a node. -/
  | nodeStatus (event : NodeStatusEvent)
  | subscribe
  | move (i : ℕ) (m : Move)

section

variable (cfg : Sharding ModelCapacityKey)

/-- The slot of a key. -/
def slotOf (tracker : Capacity.State) (k : ModelCapacityKey) : Option Slot :=
  (tracker.slots.get k).bind fun a => tracker.heap[a]?

/-- Every model of the catalog has been read. -/
def covers (snaps : TrackerSnap) (looks : List (ModelCapacityKey × CapacitySnapshot))
    (catalog : ModelsCatalog.State) : Bool :=
  catalog.byNode.entries.all fun node => node.2.entries.all fun model =>
    (snaps.lookup ⟨node.1, model.1⟩).isSome || (looks.lookup ⟨node.1, model.1⟩).isSome

/-- `model_capacity_events`, with what has been read. -/
def modelEvents (orders : Orders) (snaps : TrackerSnap)
    (looks : List (ModelCapacityKey × CapacitySnapshot)) (catalog : ModelsCatalog.State) :
    List ModelCapacityEvent :=
  ModelsCatalog.modelCapacityEvents orders (fun k => snaps.lookup k)
    (fun k => (looks.lookup k).getD ⟨0, 0, 0⟩) catalog

/-- The tracker and the subscriber after a move. -/
def Subscriber.turn (log : List TelemetryEvent) (tracker : Capacity.State) (sub : Subscriber) :
    Move → Option (Capacity.State × Subscriber)
  | .countActive k =>
      match sub.phase with
      | .counting snaps none =>
          -- an iteration comes to an entry once, and keeps its shard locked for both loads
          if snaps.lookup k = none then
            (slotOf tracker k).map fun slot =>
              (tracker, { sub with phase := .counting snaps (some (k, slot.active)) })
          else none
      | _ => none
  | .countQueued =>
      match sub.phase with
      | .counting snaps (some (k, active)) =>
          (slotOf tracker k).map fun slot =>
            (tracker, { sub with phase := .counting (snaps ++ [(k, active, slot.queued)]) none })
      | _ => none
  | .counted =>
      match sub.phase with
      | .counting snaps none => some (tracker, { sub with phase := .looking snaps [] none })
      | _ => none
  | .look k =>
      match sub.phase with
      | .looking snaps looks none =>
          if snaps.lookup k = none ∧ looks.lookup k = none then
            (Capacity.step cfg tracker (.call (.snapshotWithConcurrency k 0))).map fun tracker' =>
              (tracker', { sub with phase := .looking snaps looks (some (k, tracker.tasks.length)) })
          else none
      | _ => none
  | .lookOn =>
      match sub.phase with
      | .looking snaps looks (some (k, call)) =>
          match tracker.tasks[call]? with
          | some (.snapped snap) =>
              some (tracker, { sub with phase := .looking snaps (looks ++ [(k, snap)]) none })
          | _ => (Capacity.step cfg tracker (.step call)).map fun tracker' => (tracker', sub)
      | _ => none
  | .sendSnapshot nodes orders catalog =>
      match sub.phase with
      | .looking snaps looks none =>
          if covers snaps looks catalog then
            some (tracker, { sub with
              phase := .live
              told := [.snapshot nodes (modelEvents orders snaps looks catalog)] })
          else none
      | _ => none
  | .recv =>
      match sub.phase with
      | .live =>
          (sub.rx.recv telemetryChannelCapacity log).map fun got =>
            (tracker, { sub with
              rx := got.1
              told := sub.told ++ (got.2.filter fun event => !event.isSnapshot).toList })
      | _ => none
  | .leave => some (tracker, { sub with phase := .gone })

/-- **The transition function.** -/
def step (s : State) : Act → Option State
  | .base act =>
      (CapacityTelemetry.step cfg s.base act).map fun base =>
        { s with
          base
          log := s.emit ((base.events.drop s.base.events.length).map .modelCapacity) }
  | .nodeStatus event => some { s with log := s.emit [.nodeStatus event] }
  | .subscribe =>
      some { s with subs := s.subs ++
        [⟨Broadcast.subscribe s.log, .counting [] none, [], s.base.events.length⟩] }
  | .move i m =>
      (s.subs[i]?).bind fun sub => (sub.turn cfg s.log s.base.tracker m).map fun next =>
        { s with base := { s.base with tracker := next.1 }, subs := s.subs.set i next.2 }

end

/-! ### The inversion of a move -/

/-- What a move of a subscriber does. -/
inductive Turn (cfg : Sharding ModelCapacityKey) (log : List TelemetryEvent)
    (tracker : Capacity.State) (sub : Subscriber) : Capacity.State → Subscriber → Prop
  | half {snaps : TrackerSnap} {k : ModelCapacityKey} {slot : Slot}
      (hphase : sub.phase = .counting snaps none) (hslot : slotOf tracker k = some slot) :
      Turn cfg log tracker sub tracker
        { sub with phase := .counting snaps (some (k, slot.active)) }
  | full {snaps : TrackerSnap} {k : ModelCapacityKey} {active : UInt32} {slot : Slot}
      (hphase : sub.phase = .counting snaps (some (k, active)))
      (hslot : slotOf tracker k = some slot) :
      Turn cfg log tracker sub tracker
        { sub with phase := .counting (snaps ++ [(k, active, slot.queued)]) none }
  | counted {snaps : TrackerSnap} (hphase : sub.phase = .counting snaps none) :
      Turn cfg log tracker sub tracker { sub with phase := .looking snaps [] none }
  | look {snaps : TrackerSnap} {looks : List (ModelCapacityKey × CapacitySnapshot)}
      {k : ModelCapacityKey} {tracker' : Capacity.State}
      (hphase : sub.phase = .looking snaps looks none)
      (hstep : Capacity.step cfg tracker (.call (.snapshotWithConcurrency k 0)) = some tracker') :
      Turn cfg log tracker sub tracker'
        { sub with phase := .looking snaps looks (some (k, tracker.tasks.length)) }
  | looked {snaps : TrackerSnap} {looks : List (ModelCapacityKey × CapacitySnapshot)}
      {k : ModelCapacityKey} {call : TaskId} {snap : CapacitySnapshot}
      (hphase : sub.phase = .looking snaps looks (some (k, call)))
      (hcall : tracker.tasks[call]? = some (.snapped snap)) :
      Turn cfg log tracker sub tracker
        { sub with phase := .looking snaps (looks ++ [(k, snap)]) none }
  | lookOn {snaps : TrackerSnap} {looks : List (ModelCapacityKey × CapacitySnapshot)}
      {k : ModelCapacityKey} {call : TaskId} {tracker' : Capacity.State}
      (hphase : sub.phase = .looking snaps looks (some (k, call)))
      (hstep : Capacity.step cfg tracker (.step call) = some tracker') :
      Turn cfg log tracker sub tracker' sub
  | snapshot {snaps : TrackerSnap} {looks : List (ModelCapacityKey × CapacitySnapshot)}
      {nodes : List NodeStatusEvent} {orders : Orders} {catalog : ModelsCatalog.State}
      (hphase : sub.phase = .looking snaps looks none)
      (hcovers : covers snaps looks catalog = true) :
      Turn cfg log tracker sub tracker
        { sub with
          phase := .live
          told := [.snapshot nodes (modelEvents orders snaps looks catalog)] }
  | recv {rx : Receiver TelemetryEvent} {got : Option TelemetryEvent} (hphase : sub.phase = .live)
      (hrecv : sub.rx.recv telemetryChannelCapacity log = some (rx, got)) :
      Turn cfg log tracker sub tracker
        { sub with
          rx
          told := sub.told ++ (got.filter fun event => !event.isSnapshot).toList }
  | leave : Turn cfg log tracker sub tracker { sub with phase := .gone }

variable {cfg : Sharding ModelCapacityKey}

/-- **The inversion of a move.** -/
theorem turn_of_move {log : List TelemetryEvent} {tracker tracker' : Capacity.State}
    {sub sub' : Subscriber} {m : Move}
    (hturn : sub.turn cfg log tracker m = some (tracker', sub')) :
    Turn cfg log tracker sub tracker' sub' := by
  unfold Subscriber.turn at hturn
  split at hturn
  · split at hturn
    · rename_i hphase
      obtain ⟨-, hturn⟩ := Option.ite_none_right_eq_some.1 hturn
      obtain ⟨slot, hslot, heq⟩ := Option.map_eq_some_iff.1 hturn
      cases heq
      exact .half hphase hslot
    · cases hturn
  · split at hturn
    · rename_i hphase
      obtain ⟨slot, hslot, heq⟩ := Option.map_eq_some_iff.1 hturn
      cases heq
      exact .full hphase hslot
    · cases hturn
  · split at hturn
    · rename_i hphase
      cases hturn
      exact .counted hphase
    · cases hturn
  · split at hturn
    · rename_i hphase
      obtain ⟨-, hturn⟩ := Option.ite_none_right_eq_some.1 hturn
      obtain ⟨_, hstep, heq⟩ := Option.map_eq_some_iff.1 hturn
      cases heq
      exact .look hphase hstep
    · cases hturn
  · split at hturn
    · rename_i hphase
      split at hturn
      · rename_i hcall
        cases hturn
        exact .looked hphase hcall
      · obtain ⟨_, hstep, heq⟩ := Option.map_eq_some_iff.1 hturn
        cases heq
        exact .lookOn hphase hstep
    · cases hturn
  · split at hturn
    · rename_i hphase
      obtain ⟨hcovers, hturn⟩ := Option.ite_none_right_eq_some.1 hturn
      cases hturn
      exact .snapshot hphase hcovers
    · cases hturn
  · split at hturn
    · rename_i hphase
      obtain ⟨_, hrecv, heq⟩ := Option.map_eq_some_iff.1 hturn
      cases heq
      exact .recv hphase hrecv
    · cases hturn
  · cases hturn
    exact .leave

end Subscribe
