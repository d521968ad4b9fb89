/-
**The capacity tracker as a system of interleaved tasks.**

`CapacityTracker` (`src/capacity/mod.rs`) admits at most `concurrency` requests per model of a node
and lets a bounded number of further requests wait.  It has no lock of its own: the counters of a
slot are atomics that the tasks read and compare-and-swap, the map from keys to slots is a sharded
concurrent map, and a request waits on the slot's wake-up cell.  This module gives every function
of the tracker as a sequence of atomic steps — one load, one compare-exchange, one subtraction, one
map access, one operation on the wake-up cell — and the tracker as the transition system in which
the scheduler interleaves the steps of any number of calls.

A call of `acquire` and the guard it returns are one task: the task ends when the guard has been
dropped, when the call has failed, or when its future is dropped at its only await point.  The
`issued` slot of a guard is not stored by the program; it records the slot whose counter the call
incremented, which is what the accounting properties speak about.  The deadline of a call is left
to the scheduler: a waiting task may time out at any moment.

Main definitions:

* `Capacity.Slot`, `Capacity.State` — a slot with its counters, and the whole tracker: the map, the
  slots ever allocated, and the tasks;
* `Capacity.acquireStep` — one turn of the loop of `acquire`, step by step, on its slot;
* `Capacity.step` — the transition function;
* `Capacity.Task.live`, `Capacity.Task.inQueue`, `Capacity.Task.left` — whether a task counts as an
  unreleased guard of a slot, as a place in its queue, as a place left behind by a dropped future;
* `Capacity.Task.eager`, `Capacity.Task.seeks`, `Capacity.Task.tells` — whether a task goes for a
  free place of a slot, waits for one, or is about to announce one.
-/

import SparklRouter.NodeAuth
import SparklRouter.Concurrency.Transition
import SparklRouter.Concurrency.TaskPool
import SparklRouter.Concurrency.ShardMap
import SparklRouter.Concurrency.Sync

set_option relaxedAutoImplicit false
set_option autoImplicit false

namespace Capacity

/-! ### Data -/

structure ModelCapacityKey where
  nodeId : NodeId
  modelId : List Char
deriving DecidableEq

structure CapacitySnapshot where
  activeRequests : UInt32
  queuedRequests : UInt32
  concurrency : UInt32
deriving DecidableEq

inductive AcquireError
  | queueFull (active concurrency queued : UInt32)
  | waitTimeout (active concurrency queued : UInt32)
deriving DecidableEq

/-- The name of a task: its position among the tasks. -/
abbrev TaskId := ℕ

/-- The name of a slot: its position among the slots ever allocated (the `Arc` of the source). -/
abbrev SlotId := ℕ

/-- A slot: two atomic counters and the wake-up cell. -/
structure Slot where
  active : UInt32
  queued : UInt32
  notify : Notify TaskId

/-- The slot `slot_for` allocates. -/
def Slot.new : Slot := ⟨0, 0, Notify.new⟩

/-- The arguments of a call of `acquire`. -/
structure Request where
  key : ModelCapacityKey
  concurrency : UInt32
  maxQueue : UInt32
deriving DecidableEq

/-- The two callers of `slot_for`; `snapshot` is `snapshot_with_concurrency` with `concurrency`
zero. -/
inductive Caller
  | acquire (r : Request)
  | snapshotWithConcurrency (key : ModelCapacityKey) (concurrency : UInt32)
deriving DecidableEq

def Caller.key : Caller → ModelCapacityKey
  | .acquire r => r.key
  | .snapshotWithConcurrency k _ => k

/-! ### The loop of `acquire` -/

/-- Where a call of `acquire` stands once it has its slot.  The two points reached through a test
carry what the test found, so a call that tries to raise a counter has seen it below its limit. -/
inductive AcquirePc (r : Request)
  | loadActive
  | casActive (active : UInt32) (below : active < r.concurrency)
  | loadQueued (active : UInt32)
  | casQueued (active queued : UInt32) (below : queued < r.maxQueue)
  /-- The queue place is taken; the wait has not been polled yet. -/
  | notified
  | parked
  | woken
  /-- The wait is over, by a wake-up (`true`) or by the deadline (`false`). -/
  | leaveQueue (ok : Bool)
  | timeoutQueued
  | timeoutActive (queued : UInt32)
deriving DecidableEq

/-- What a step of `acquire` leads to. -/
inductive AcquireNext (r : Request)
  | at (pc : AcquirePc r)
  | admitted
  | failed (e : AcquireError)

/-- One step of the task `i` in the loop of `acquire` on its slot.  A parked task takes no step of
its own. -/
def acquireStep (i : TaskId) (r : Request) (slot : Slot) :
    AcquirePc r → Option (Slot × AcquireNext r)
  | .loadActive =>
      if h : slot.active < r.concurrency then some (slot, .at (.casActive slot.active h))
      else some (slot, .at (.loadQueued slot.active))
  | .casActive active _ =>
      if slot.active = active then some ({ slot with active := active + 1 }, .admitted)
      else some (slot, .at .loadActive)
  | .loadQueued active =>
      if h : r.maxQueue = 0 ∨ r.maxQueue ≤ slot.queued then
        some (slot, .failed (.queueFull active r.concurrency slot.queued))
      else some (slot, .at (.casQueued active slot.queued (UInt32.not_le.1 fun hle => h (Or.inr hle))))
  | .casQueued _ queued _ =>
      if slot.queued = queued then some ({ slot with queued := queued + 1 }, .at .notified)
      else some (slot, .at .loadActive)
  | .notified =>
      let polled := slot.notify.poll i
      some ({ slot with notify := polled.1 }, .at (if polled.2 then .leaveQueue true else .parked))
  | .parked => none
  | .woken => some (slot, .at (.leaveQueue true))
  | .leaveQueue ok =>
      some ({ slot with queued := slot.queued - 1 }, .at (if ok then .loadActive else .timeoutQueued))
  | .timeoutQueued => some (slot, .at (.timeoutActive slot.queued))
  | .timeoutActive queued =>
      some (slot, .failed (.waitTimeout slot.active r.concurrency queued))

/-- Whether a call at this point waits on the cell, and if so whether it has been woken. -/
def AcquirePc.waiting {r : Request} : AcquirePc r → Option Bool
  | .parked => some false
  | .woken => some true
  | _ => none

/-- Whether a call at this point goes on to the compare-exchange that admits it, unless it finds the
active counter at its limit. -/
def AcquirePc.eager {r : Request} : AcquirePc r → Bool
  | .loadActive | .casActive _ _ | .woken | .leaveQueue true => true
  | _ => false

/-- Whether a call at this point has found the active counter at its limit and is on its way to the
wait, or waits. -/
def AcquirePc.seeks {r : Request} : AcquirePc r → Bool
  | .loadQueued _ | .casQueued _ _ _ | .notified | .parked => true
  | _ => false

/-- Whether a call at this point holds a place in the queue: from its queue compare-exchange to the
matching subtraction. -/
def AcquirePc.inQueue {r : Request} : AcquirePc r → Bool
  | .notified | .parked | .woken | .leaveQueue _ => true
  | _ => false

/-! ### Tasks and the state of the tracker -/

/-- Where the drop of a guard stands.  From the lookup to the notification the entry's shard stays
read-locked. -/
inductive ReleasePc
  | get
  | fetchSub (target : SlotId)
  | notifyOne (target : SlotId)
deriving DecidableEq

inductive Task
  | enter (c : Caller)
  | slotGet (c : Caller)
  | slotEntry (c : Caller)
  | acquiring (r : Request) (slot : SlotId) (pc : AcquirePc r)
  /-- A guard with `unlimited` false, held by the caller of `acquire`. -/
  | guard (key : ModelCapacityKey) (issued : SlotId)
  /-- A guard with `unlimited` true. -/
  | unlimitedGuard (key : ModelCapacityKey)
  | releasing (key : ModelCapacityKey) (issued : SlotId) (pc : ReleasePc)
  | snapActive (key : ModelCapacityKey) (concurrency : UInt32) (slot : SlotId)
  | snapQueued (key : ModelCapacityKey) (concurrency : UInt32) (slot : SlotId) (active : UInt32)
  /-- `clear_node`, about to retain the given shard. -/
  | clearing (nodeId : NodeId) (shard : ℕ)
  | failed (e : AcquireError)
  | snapped (snap : CapacitySnapshot)
  | released
  | cleared
  /-- An `acquire` whose future was dropped while it waited on the slot. -/
  | cancelled (r : Request) (slot : SlotId)
deriving DecidableEq

structure State where
  slots : ShardMap ModelCapacityKey SlotId
  heap : List Slot
  tasks : List Task

/-- The tracker of `CapacityTracker::new`, before any call. -/
def init : State := ⟨ShardMap.empty, [], []⟩

/-- The task `i` moves on; nothing shared changes. -/
def State.put (s : State) (i : TaskId) (t : Task) : State := { s with tasks := s.tasks.set i t }

/-- The task `i` moves on and writes the slot `a`. -/
def State.write (s : State) (i : TaskId) (t : Task) (a : SlotId) (slot : Slot) : State :=
  { s with heap := s.heap.set a slot, tasks := s.tasks.set i t }

def State.spawn (s : State) (t : Task) : State := { s with tasks := s.tasks ++ [t] }

/-- The task a notification woke is resumed; a wake-up without a recipient changes nothing. -/
def State.wake (s : State) : Option TaskId → State
  | none => s
  | some j =>
      match s.tasks[j]? with
      | some (.acquiring r a .parked) => s.put j (.acquiring r a .woken)
      | _ => s

/-- The wait of the task `i` on its slot ends before the task has received its wake-up: a parked
task leaves the cell, and a task that was woken passes the wake-up on. -/
def Slot.endWait (slot : Slot) (i : TaskId) (woken : Bool) : Notify TaskId × Option TaskId :=
  if woken then slot.notify.notifyOne else (slot.notify.leave i, none)

/-- The task `i` moves on from its wait on the slot `a`. -/
def State.endWait (s : State) (i : TaskId) (t : Task) (a : SlotId) (slot : Slot) (woken : Bool) :
    State :=
  (s.write i t a { slot with notify := (slot.endWait i woken).1 }).wake (slot.endWait i woken).2

/-- The key whose entry a task keeps read-locked. -/
def Task.refKey : Task → Option ModelCapacityKey
  | .releasing k _ (.fetchSub _) => some k
  | .releasing k _ (.notifyOne _) => some k
  | _ => none

variable (cfg : Sharding ModelCapacityKey)

/-- Whether the shard can be locked for writing: no task keeps an entry of it read-locked. -/
def State.writable (s : State) (shard : ℕ) : Bool :=
  s.tasks.all fun t => t.refKey.all fun k => decide (cfg.shard k ≠ shard)

/-! ### The functions of the tracker, step by step -/

/-- What the caller of `slot_for` does with the slot. -/
def Caller.withSlot : Caller → SlotId → Task
  | .acquire r, a => .acquiring r a .loadActive
  | .snapshotWithConcurrency k c, a => .snapActive k c a

/-- The task that `acquire` has become. -/
def AcquireNext.task {r : Request} (a : SlotId) : AcquireNext r → Task
  | .at pc => .acquiring r a pc
  | .admitted => .guard r.key a
  | .failed e => .failed e

/-- The steps of `release_inner`. -/
def releaseStep (s : State) (i : TaskId) (k : ModelCapacityKey) (issued : SlotId) :
    ReleasePc → Option State
  | .get =>
      match s.slots.get k with
      | some a => some (s.put i (.releasing k issued (.fetchSub a)))
      | none => some (s.put i .released)
  | .fetchSub a =>
      (s.heap[a]?).map fun slot =>
        s.write i (.releasing k issued (.notifyOne a)) a { slot with active := slot.active - 1 }
  | .notifyOne a =>
      (s.heap[a]?).map fun slot =>
        (s.write i .released a { slot with notify := slot.notify.notifyOne.1 }).wake
          slot.notify.notifyOne.2

/-- The next step of the task `i`, which stands at the given point. -/
def advance (s : State) (i : TaskId) : Task → Option State
  | .enter (.acquire r) =>
      if r.concurrency = 0 then some (s.put i (.unlimitedGuard r.key))
      else some (s.put i (.slotGet (.acquire r)))
  | .enter c => some (s.put i (.slotGet c))
  | .slotGet c =>
      match s.slots.get c.key with
      | some a => some (s.put i (c.withSlot a))
      | none => some (s.put i (.slotEntry c))
  | .slotEntry c =>
      if s.writable cfg (cfg.shard c.key) then
        let entry := s.slots.entryOrInsert c.key s.heap.length
        some ⟨entry.2, s.heap ++ [Slot.new], s.tasks.set i (c.withSlot entry.1)⟩
      else none
  | .acquiring r a pc =>
      (s.heap[a]?).bind fun slot =>
        (acquireStep i r slot pc).map fun next => s.write i (next.2.task a) a next.1
  | .releasing k issued pc => releaseStep s i k issued pc
  | .snapActive k c a => (s.heap[a]?).map fun slot => s.put i (.snapQueued k c a slot.active)
  | .snapQueued _ c a active =>
      (s.heap[a]?).map fun slot => s.put i (.snapped ⟨active, slot.queued, c⟩)
  | .clearing n j =>
      if j < cfg.shards then
        if s.writable cfg j then
          some ⟨s.slots.retainShard cfg.shard j fun k => decide (k.nodeId ≠ n), s.heap,
            s.tasks.set i (.clearing n (j + 1))⟩
        else none
      else some (s.put i .cleared)
  | _ => none

/-- What the scheduler can do. -/
inductive Action
  | call (c : Caller)
  | clearNode (nodeId : NodeId)
  /-- The task takes its next step. -/
  | step (i : TaskId)
  /-- A weak compare-exchange of the task fails although the value is the expected one. -/
  | spurious (i : TaskId)
  /-- The deadline of a waiting task passes. -/
  | timeout (i : TaskId)
  /-- The future of a suspended `acquire` is dropped. -/
  | cancel (i : TaskId)
  | dropGuard (i : TaskId)
deriving DecidableEq

/-- A failed weak compare-exchange sends the loop back to its start. -/
def spuriousFailure {r : Request} : AcquirePc r → Option (AcquirePc r)
  | .casActive _ _ => some .loadActive
  | .casQueued _ _ _ => some .loadActive
  | _ => none

/-- **The transition function of the tracker.** -/
def step (s : State) : Action → Option State
  | .call c => some (s.spawn (.enter c))
  | .clearNode n => some (s.spawn (.clearing n 0))
  | .step i => (s.tasks[i]?).bind fun t => advance cfg s i t
  | .spurious i =>
      match s.tasks[i]? with
      | some (.acquiring r a pc) =>
          (spuriousFailure pc).map fun pc' => s.put i (.acquiring r a pc')
      | _ => none
  | .timeout i =>
      match s.tasks[i]? with
      | some (.acquiring r a pc) =>
          (pc.waiting).bind fun woken =>
            (s.heap[a]?).map fun slot => s.endWait i (.acquiring r a (.leaveQueue false)) a slot woken
      | _ => none
  | .cancel i =>
      match s.tasks[i]? with
      | some (.acquiring r a pc) =>
          (pc.waiting).bind fun woken =>
            (s.heap[a]?).map fun slot => s.endWait i (.cancelled r a) a slot woken
      | _ => none
  | .dropGuard i =>
      match s.tasks[i]? with
      | some (.guard k a) => some (s.put i (.releasing k a .get))
      | some (.unlimitedGuard _) => some (s.put i .released)
      | _ => none

/-! ### What a task counts as -/

/-- Whether the task is a guard issued from the slot `a` whose drop has not decremented a counter
yet. -/
def Task.live (a : SlotId) : Task → Bool
  | .guard _ b => decide (b = a)
  | .releasing _ b .get => decide (b = a)
  | .releasing _ b (.fetchSub _) => decide (b = a)
  | _ => false

/-- Whether the task is an `acquire` that holds a place in the queue of the slot `a`. -/
def Task.inQueue (a : SlotId) : Task → Bool
  | .acquiring _ b pc => decide (b = a) && pc.inQueue
  | _ => false

/-- Whether the task is an `acquire` dropped while it held a place in the queue of `a`. -/
def Task.left (a : SlotId) : Task → Bool
  | .cancelled _ b => decide (b = a)
  | _ => false

/-- Whether the task is an `acquire` that goes for a free place of the slot `a`. -/
def Task.eager (a : SlotId) : Task → Bool
  | .acquiring _ b pc => decide (b = a) && pc.eager
  | _ => false

/-- Whether the task is an `acquire` that waits on the slot `a` or is on its way to the wait. -/
def Task.seeks (a : SlotId) : Task → Bool
  | .acquiring _ b pc => decide (b = a) && pc.seeks
  | _ => false

/-- Whether the task is the drop of a guard between its subtraction from the active counter of the
slot `a` and its `notify_one`. -/
def Task.tells (a : SlotId) : Task → Bool
  | .releasing _ _ (.notifyOne b) => decide (b = a)
  | _ => false

/-- The request of an `acquire` in progress. -/
def Task.request : Task → Option Request
  | .enter (.acquire r) => some r
  | .slotGet (.acquire r) => some r
  | .slotEntry (.acquire r) => some r
  | .acquiring r _ _ => some r
  | _ => none

/-- The slots a task refers to, each with the key on whose behalf it does. -/
def Task.refs : Task → List (ModelCapacityKey × SlotId)
  | .acquiring r a _ => [(r.key, a)]
  | .guard k a => [(k, a)]
  | .releasing k a .get => [(k, a)]
  | .releasing k a (.fetchSub b) => [(k, a), (k, b)]
  | .releasing k a (.notifyOne b) => [(k, a), (k, b)]
  | .snapActive k _ a => [(k, a)]
  | .snapQueued k _ a _ => [(k, a)]
  | .cancelled r a => [(r.key, a)]
  | _ => []

/-- The number of tasks that satisfy `p`. -/
def State.count (s : State) (p : Task → Bool) : ℕ := TaskPool.total (TaskPool.indicator p) s.tasks

/-- The number of live tracked guards issued from the slot `a`. -/
def State.liveGuards (s : State) (a : SlotId) : ℕ := s.count (Task.live a)

/-- The number of calls that are in the queue of the slot `a`. -/
def State.queueLength (s : State) (a : SlotId) : ℕ := s.count (Task.inQueue a)

/-- The number of queue places of the slot `a` left behind by dropped futures. -/
def State.abandoned (s : State) (a : SlotId) : ℕ := s.count (Task.left a)

end Capacity
