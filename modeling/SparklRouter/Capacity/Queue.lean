/-
**The waiting queue and dropped futures.**

A call of `acquire` takes a queue place before its only await and gives it back by straight-line
code after it.  A future that is dropped at the await never reaches that code, and unlike an active
counter, which the drop of a guard takes back, nothing takes its place back.  So the counter of a
slot is the number of calls in its queue *plus* the number of places left behind, in every reachable
state; and it is the length of the queue for as long as no future is dropped.

Main definitions:

* `Capacity.QueueExact` — every queued counter is the number of calls in the queue of its slot.

Main results:

* `Capacity.occupied_step` — every step keeps each queued counter equal to the occupied places;
* `Capacity.queueExact_iff` — **in every run, the queued counters are exact exactly when no future
  is dropped at its await**;
* `Capacity.queueExact_breaks` — a run in which they are not.
-/

import SparklRouter.Capacity.Accounting

set_option relaxedAutoImplicit false
set_option autoImplicit false

namespace Capacity

open TaskPool Transition

variable {cfg : Sharding ModelCapacityKey}

/-- Every queued counter is the number of live calls in the queue of its slot. -/
def QueueExact (s : State) : Prop :=
  ∀ a slot, s.heap[a]? = some slot → slot.queued.toNat = s.queueLength a

/-- The step is not the drop of a waiting future. -/
def KeepsWaiting (_ : State) (act : Action) (_ : State) : Prop := ∀ i, act ≠ .cancel i

/-! ### Occupied places -/

/-- Whether the task occupies a place in the queue of the slot: it waits there, or it was dropped
while it did. -/
def Task.occupies (a : SlotId) (t : Task) : Bool := t.inQueue a || t.left a

theorem mem_refs_of_occupies {t : Task} {a : SlotId} (h : t.occupies a = true) :
    ∃ k, (k, a) ∈ t.refs := by
  rcases Bool.or_eq_true_iff.1 h with h | h
  · exact mem_refs_of_inQueue h
  · exact mem_refs_of_left h

/-- No task waits and is dropped at the same time. -/
theorem indicator_occupies (a : SlotId) (t : Task) :
    indicator (Task.occupies a) t = indicator (Task.inQueue a) t + indicator (Task.left a) t := by
  have hdisjoint : t.inQueue a = false ∨ t.left a = false := by
    cases t with
    | acquiring r b pc => exact Or.inr rfl
    | _ => exact Or.inl rfl
  rcases hdisjoint with h | h
  · simp [indicator, Task.occupies, h]
  · simp [indicator, Task.occupies, h]

/-- The occupied places of a slot are its queue and the places left behind. -/
theorem count_occupies (s : State) (a : SlotId) :
    s.count (Task.occupies a) = s.queueLength a + s.abandoned a := by
  have hsum : ∀ ts : List Task, total (indicator (Task.occupies a)) ts =
      total (indicator (Task.inQueue a)) ts + total (indicator (Task.left a)) ts := by
    intro ts
    induction ts with
    | nil => rfl
    | cons t ts ih =>
        simp only [total_cons, indicator_occupies, ih]
        omega
  exact hsum s.tasks

/-- A call that holds a place keeps the counter of its slot positive. -/
theorem queued_pos {s : State} (h : Counts Slot.queued Task.occupies s) {i : TaskId} {r : Request}
    {a : SlotId} {pc : AcquirePc r} {slot : Slot} (ht : s.tasks[i]? = some (.acquiring r a pc))
    (hslot : s.heap[a]? = some slot) (hin : pc.inQueue = true) : 1 ≤ slot.queued.toNat := by
  rw [h a slot hslot]
  have hle := le_total (w := indicator (Task.occupies a)) (List.mem_of_getElem? ht)
  rwa [indicator_of (by simp [Task.occupies, Task.inQueue, hin])] at hle

theorem occupies_acquiring {r : Request} (a b : SlotId) (pc : AcquirePc r) :
    Task.occupies b (.acquiring r a pc) = (decide (a = b) && pc.inQueue) := by
  simp [Task.occupies, Task.inQueue, Task.left]

/-- A call in the queue occupies its place as one that was dropped there does. -/
theorem occupies_of_inQueue {r : Request} {a : SlotId} {pc : AcquirePc r} (h : pc.inQueue = true)
    (b : SlotId) : Task.occupies b (.acquiring r a pc) = Task.occupies b (.cancelled r a) := by
  simp [Task.occupies, Task.inQueue, Task.left, h]

/-- What the loop of `acquire` does to the queued counter is what its task comes to occupy. -/
theorem counts_occupies_acquire {s : State} {i : TaskId} {r : Request} {a : SlotId}
    {pc : AcquirePc r} {slot slot' : Slot} {next : AcquireNext r}
    (h : Counts Slot.queued Task.occupies s) (ht : s.tasks[i]? = some (.acquiring r a pc))
    (hslot : s.heap[a]? = some slot) (hstep : acquireStep i r slot pc = some (slot', next)) :
    Counts Slot.queued Task.occupies (s.write i (next.task a) a slot') := by
  cases slotChange_of_acquireStep hstep with
  | raise below hout =>
      refine h.write ht hslot ?_ fun b hb => ?_
      · simp only [indicator, occupies_acquiring, hout, Bool.and_false]
        rfl
      · rw [occupies_acquiring, hout, Bool.and_false]
        rfl
  | enqueue below hout hin =>
      refine h.write ht hslot ?_ fun b hb => ?_
      · have hraise := toNat_raise below
        simp only [indicator, AcquireNext.task, occupies_acquiring, hout, hin, hraise]
        simp
      · simp [AcquireNext.task, occupies_acquiring, hb.symm]
  | dequeue hin hout =>
      have hpos := queued_pos h ht hslot hin
      refine h.write ht hslot ?_ fun b hb => ?_
      · have hlower := toNat_lower hpos
        simp only [indicator, AcquireNext.task, occupies_acquiring, hout, hin, hlower]
        simp only [decide_true, Bool.and_true, Bool.and_false, if_true, Bool.false_eq_true,
          if_false]
        omega
      · simp [AcquireNext.task, occupies_acquiring, hb.symm]
  | keep hactive hqueued hin =>
      refine h.write ht hslot ?_ fun b _ => ?_
      · simp only [indicator, AcquireNext.task, occupies_acquiring, hin, hqueued]
      · simp only [AcquireNext.task, occupies_acquiring, hin]
  | fail hout =>
      refine h.write ht hslot ?_ fun b hb => ?_
      · simp only [indicator, occupies_acquiring, hout, Bool.and_false]
        rfl
      · rw [occupies_acquiring, hout, Bool.and_false]
        rfl

theorem occupies_withSlot (c : Caller) (a b : SlotId) :
    (c.withSlot a).occupies b = (Task.slotEntry c).occupies b := by
  cases c with
  | acquire r => simp [Caller.withSlot, Task.occupies, Task.inQueue, Task.left, AcquirePc.inQueue]
  | snapshotWithConcurrency k c => rfl

/-- Every reference is in range, and every queued counter is the number of occupied places. -/
structure Occupied (s : State) : Prop where
  inRange : InRange s
  counts : Counts Slot.queued Task.occupies s

theorem occupied_init : Occupied init := ⟨inRange_init, fun a slot h => by simp [init] at h⟩

/-- **Every step keeps each queued counter equal to the number of occupied places.** -/
theorem occupied_step {s s' : State} {act : Action} (h : Occupied s)
    (hstep : step cfg s act = some s') : Occupied s' := by
  refine ⟨inRange_step h.inRange hstep, ?_⟩
  cases change_of_step hstep with
  | call c => exact h.counts.spawn fun _ => rfl
  | clearNode n => exact h.counts.spawn fun _ => rfl
  | move ht _ hfollows _ =>
      refine h.counts.put ht fun a => ?_
      simp only [Task.occupies, hfollows.inQueue, hfollows.left]
  | @slotEntry i c ht =>
      exact counts_alloc h.counts h.inRange (fun t a => mem_refs_of_occupies) ht rfl
        (occupies_withSlot c) _ _
  | acquire ht hslot hacq => exact counts_occupies_acquire h.counts ht hslot hacq
  | releaseFound ht hget => exact h.counts.put ht fun _ => rfl
  | releaseMissing ht hget => exact h.counts.put ht fun _ => rfl
  | fetchSub ht hslot => exact h.counts.write ht hslot rfl fun _ _ => rfl
  | notifyOne ht hslot =>
      refine Counts.wake ?_ (fun _ _ _ => rfl) _
      exact h.counts.write ht hslot rfl fun _ _ => rfl
  | @timeout i r a pc slot woken ht hwaits hslot =>
      -- the place stays taken until the call gives it back
      have hsame : ∀ b, Task.occupies b (.acquiring r a (.leaveQueue false)) =
          Task.occupies b (.acquiring r a pc) := fun b =>
        (occupies_of_inQueue rfl b).trans (occupies_of_inQueue (inQueue_of_waiting hwaits) b).symm
      refine Counts.wake ?_ (fun _ _ _ => rfl) _
      refine h.counts.write ht hslot ?_ fun b _ => hsame b
      simp only [indicator, hsame]
  | @cancel i r a pc slot woken ht hwaits hslot =>
      -- the place stays taken, by a task that will never give it back
      have hsame : ∀ b, Task.occupies b (.cancelled r a) = Task.occupies b (.acquiring r a pc) :=
        fun b => (occupies_of_inQueue (inQueue_of_waiting hwaits) b).symm
      refine Counts.wake ?_ (fun _ _ _ => rfl) _
      refine h.counts.write ht hslot ?_ fun b _ => hsame b
      simp only [indicator, hsame]
  | clearShard ht => exact h.counts.put ht fun _ => rfl

/-- In every reachable state a queued counter is the queue and the places left behind. -/
theorem Occupied.queued {s : State} (h : Occupied s) {a : SlotId} {slot : Slot}
    (hslot : s.heap[a]? = some slot) :
    slot.queued.toNat = s.queueLength a + s.abandoned a := by
  rw [h.counts a slot hslot, count_occupies]

/-! ### Places left behind -/

theorem count_put_eq {s : State} {i : TaskId} {t t' : Task} {p : Task → Bool}
    (ht : s.tasks[i]? = some t) (hp : p t' = p t) : (s.put i t').count p = s.count p := by
  have hcount := s.count_put ht t' p
  simp only [indicator, hp] at hcount
  omega

/-- Only the drop of a waiting future leaves a place behind. -/
theorem abandoned_step {s s' : State} {act : Action} (hstep : step cfg s act = some s')
    (hkeep : ∀ i, act ≠ .cancel i) (a : SlotId) : s'.abandoned a = s.abandoned a := by
  have hwake : ∀ r b, Task.left a (.acquiring r b .woken) = Task.left a (.acquiring r b .parked) :=
    fun _ _ => rfl
  cases change_of_step hstep with
  | call c => exact State.count_spawn _ _ _
  | clearNode n => exact State.count_spawn _ _ _
  | move ht _ hfollows _ => exact count_put_eq ht (hfollows.left a)
  | @slotEntry i c ht =>
      refine count_put_eq (p := Task.left a) ht ?_
      cases c with
      | acquire r => rfl
      | snapshotWithConcurrency k c => rfl
  | @acquire i r b pc slot slot' next ht hslot hacq =>
      refine count_put_eq (p := Task.left a) ht ?_
      cases next with
      | «at» pc' => rfl
      | admitted => rfl
      | failed e => rfl
  | releaseFound ht hget => exact count_put_eq ht rfl
  | releaseMissing ht hget => exact count_put_eq ht rfl
  | fetchSub ht hslot => exact count_put_eq (p := Task.left a) ht rfl
  | notifyOne ht hslot =>
      rw [State.abandoned, State.count_wake hwake]
      exact count_put_eq (p := Task.left a) ht rfl
  | timeout ht hwaits hslot =>
      rw [State.abandoned, State.endWait, State.count_wake hwake]
      exact count_put_eq (p := Task.left a) ht rfl
  | cancel ht hwaits hslot => exact absurd rfl (hkeep _)
  | clearShard ht => exact count_put_eq (p := Task.left a) ht rfl

/-- The drop of a waiting future leaves a place behind in the queue of an allocated slot. -/
theorem abandoned_of_cancel {s s' : State} {i : TaskId} (hstep : step cfg s (.cancel i) = some s') :
    ∃ a slot, s'.heap[a]? = some slot ∧ 1 ≤ s'.abandoned a := by
  have hwake : ∀ b r a,
      Task.left b (.acquiring r a .woken) = Task.left b (.acquiring r a .parked) :=
    fun _ _ _ => rfl
  cases change_of_step hstep with
  | move _ hact _ _ => exact absurd rfl (hact i)
  | @cancel i r a pc slot woken ht hwaits hslot =>
      have hheap := getElem?_set_self hslot { slot with notify := (slot.endWait i woken).1 }
      have hcount := s.count_write ht (.cancelled r a) a
        { slot with notify := (slot.endWait i woken).1 } (Task.left a)
      have hnew : indicator (Task.left a) (.cancelled r a) = 1 := indicator_of (by simp [Task.left])
      have hold : indicator (Task.left a) (.acquiring r a pc) = 0 := indicator_of_not rfl
      rw [hnew, hold] at hcount
      refine ⟨a, _, (congrArg (·[a]?) (State.heap_wake _ _)).trans hheap, ?_⟩
      rw [State.abandoned, State.endWait, State.count_wake (hwake a)]
      omega

/-! ### Runs -/

/-- With nothing left behind, the queued counters are exact. -/
theorem queueExact_of_occupied {s : State} (h : Occupied s) (hnone : ∀ a, s.abandoned a = 0) :
    QueueExact s := by
  intro a slot hslot
  rw [h.queued hslot, hnone a, Nat.add_zero]

/-- A step into a state with exact counters is not the drop of a waiting future. -/
theorem keepsWaiting_of_queueExact {s s' : State} {act : Action} (h : Occupied s)
    (hstep : step cfg s act = some s') (hexact : QueueExact s') : KeepsWaiting s act s' := by
  rintro i rfl
  obtain ⟨a, slot, hslot, hleft⟩ := abandoned_of_cancel hstep
  have hqueued := (occupied_step h hstep).queued hslot
  rw [hexact a slot hslot] at hqueued
  omega

/-- **The queue of a run.**  In every run of the tracker, the queued counter of every slot is the
number of live calls in its queue in every state, if and only if no waiting future is dropped. -/
theorem queueExact_iff (cfg : Sharding ModelCapacityKey) (as : List Action) :
    Always (step cfg) QueueExact init as ↔ Throughout (step cfg) KeepsWaiting init as := by
  constructor
  · intro h
    refine throughout_of_always (fun s act s' => occupied_step) ?_ occupied_init h
    intro s act s' hs hstep _ hexact
    exact keepsWaiting_of_queueExact hs hstep hexact
  · intro h
    have hinv : Always (step cfg) (fun s => Occupied s ∧ ∀ a, s.abandoned a = 0) init as := by
      refine always_of_step ?_ ⟨occupied_init, fun a => rfl⟩ h
      rintro s act s' ⟨hs, hnone⟩ hstep hkeep
      refine ⟨occupied_step hs hstep, fun a => ?_⟩
      rw [abandoned_step hstep hkeep, hnone a]
    exact hinv.mono fun s hs => queueExact_of_occupied hs.1 hs.2

/-- A request is admitted, a second one waits, and the client of the second one disconnects. -/
def droppedWaiter : List Action :=
  [.call (.acquire ⟨sampleKey, 1, 1⟩), .step 0, .step 0, .step 0, .step 0, .step 0,
    .call (.acquire ⟨sampleKey, 1, 1⟩), .step 1, .step 1, .step 1, .step 1, .step 1, .step 1,
    .cancel 1]

theorem observe_droppedWaiter :
    (run (step twoShards) init droppedWaiter).map
      (fun s => ((s.heap[0]?).map Slot.queued, s.queueLength 0)) = some (some 1, 0) := by
  decide

/-- **A dropped waiter does not leave the queue**: nobody waits and the counter is 1, so that the
next request with `max_queue` 1 is refused. -/
theorem queueExact_breaks : ¬ ∀ (cfg : Sharding ModelCapacityKey) (as : List Action),
    Always (step cfg) QueueExact init as := by
  intro h
  obtain ⟨s, hs, hobs⟩ := (h twoShards droppedWaiter).observe observe_droppedWaiter
  obtain ⟨hqueued, hlen⟩ := Prod.mk.inj hobs
  obtain ⟨slot, hslot, hone⟩ := Option.map_eq_some_iff.1 hqueued
  have hexact := hs 0 slot hslot
  rw [hone, hlen] at hexact
  exact absurd hexact (by decide)

end Capacity
