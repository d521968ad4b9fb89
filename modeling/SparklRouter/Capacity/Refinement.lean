/-
**The tracker is a bounded semaphore.**

The tracker admits by compare-exchanges in a loop, several calls at a time, and looks its slots up by
key whenever a guard is dropped.  What its users rely on is simpler: each key has a semaphore with a
bounded queue (`Semaphore`), and an operation on it is one step.  This module shows that as long as
no node is cleared the one implements the other: an admission is the compare-exchange on the active
counter, a place in the queue is taken by the one on the queued counter, and given back by the
subtraction; every other step changes nothing.  Futures may be dropped while they wait; their places
are the ones the semaphore loses.

Main definitions:

* `Capacity.State.semaphore` — the semaphore of a key;
* `Capacity.Accounted` — the invariant of the runs in which no node is cleared;
* `Capacity.From` — the limits of an operation are those of a call for the key.

Main results:

* `Capacity.Accounted.counts_for` — the counters of a key by its tasks;
* `Capacity.semaphore_step` — **a step of the tracker is one of the semaphore, or none**;
* `Capacity.refines` — **every run of the tracker is a run of the semaphore of each key**, whose
  counters are the sizes of its sets.
-/

import SparklRouter.Capacity.Readings
import SparklRouter.Concurrency.Semaphore

set_option relaxedAutoImplicit false
set_option autoImplicit false

namespace Capacity

open TaskPool Transition

variable {cfg : Sharding ModelCapacityKey}

/-! ### The semaphore of a slot -/

/-- The semaphore a slot stands for. -/
def State.semaphoreOf (s : State) (a : SlotId) : Semaphore.State TaskId where
  active := places (Task.live a) s.tasks
  waiting := places (Task.inQueue a) s.tasks
  gone := places (Task.left a) s.tasks

/-- The semaphore of a key; nobody has used that of a key without a slot. -/
def State.semaphore (s : State) (k : ModelCapacityKey) : Semaphore.State TaskId :=
  match s.slots.get k with
  | some a => s.semaphoreOf a
  | none => Semaphore.init

/-- The limits of an operation are those of a call for the key. -/
def From (R : Request → Prop) (k : ModelCapacityKey) : Semaphore.Act TaskId → Prop
  | .grant _ limit => ∃ r, R r ∧ r.key = k ∧ limit = r.concurrency.toNat
  | .enqueue _ limit => ∃ r, R r ∧ r.key = k ∧ limit = r.maxQueue.toNat
  | _ => True

section

variable {s s' : State} {i : TaskId} {t t' : Task} {a : SlotId} {k : ModelCapacityKey}

/-- A task that moves on and counts as what it was. -/
theorem semaphoreOf_set (ht : s.tasks[i]? = some t) (htasks : s'.tasks = s.tasks.set i t')
    (hlive : t'.live a = t.live a) (hwaits : t'.inQueue a = t.inQueue a)
    (hleft : t'.left a = t.left a) : s'.semaphoreOf a = s.semaphoreOf a := by
  unfold State.semaphoreOf
  rw [htasks, places_set_same ht hlive, places_set_same ht hwaits, places_set_same ht hleft]

/-- A task that comes to be active. -/
theorem semaphoreOf_active (ht : s.tasks[i]? = some t) (htasks : s'.tasks = s.tasks.set i t')
    (hlive : t'.live a = true) (hwaits : t'.inQueue a = t.inQueue a)
    (hleft : t'.left a = t.left a) :
    s'.semaphoreOf a =
      { s.semaphoreOf a with active := insert i (s.semaphoreOf a).active } := by
  unfold State.semaphoreOf
  rw [htasks, places_set_insert ht hlive, places_set_same ht hwaits, places_set_same ht hleft]

/-- A task that comes to wait. -/
theorem semaphoreOf_waiting (ht : s.tasks[i]? = some t) (htasks : s'.tasks = s.tasks.set i t')
    (hlive : t'.live a = t.live a) (hwaits : t'.inQueue a = true)
    (hleft : t'.left a = t.left a) :
    s'.semaphoreOf a =
      { s.semaphoreOf a with waiting := insert i (s.semaphoreOf a).waiting } := by
  unfold State.semaphoreOf
  rw [htasks, places_set_same ht hlive, places_set_insert ht hwaits, places_set_same ht hleft]

/-- A task that waits no more. -/
theorem semaphoreOf_left (ht : s.tasks[i]? = some t) (htasks : s'.tasks = s.tasks.set i t')
    (hlive : t'.live a = t.live a) (hwaits : t'.inQueue a = false)
    (hleft : t'.left a = t.left a) :
    s'.semaphoreOf a =
      { s.semaphoreOf a with waiting := (s.semaphoreOf a).waiting.erase i } := by
  unfold State.semaphoreOf
  rw [htasks, places_set_same ht hlive, places_set_erase ht hwaits, places_set_same ht hleft]

/-- A task that is gone from the queue. -/
theorem semaphoreOf_gone (ht : s.tasks[i]? = some t) (htasks : s'.tasks = s.tasks.set i t')
    (hlive : t'.live a = t.live a) (hwaits : t'.inQueue a = false) (hleft : t'.left a = true) :
    s'.semaphoreOf a =
      { s.semaphoreOf a with
        waiting := (s.semaphoreOf a).waiting.erase i
        gone := insert i (s.semaphoreOf a).gone } := by
  unfold State.semaphoreOf
  rw [htasks, places_set_same ht hlive, places_set_erase ht hwaits, places_set_insert ht hleft]

/-- A task that is active no more. -/
theorem semaphoreOf_released (ht : s.tasks[i]? = some t) (htasks : s'.tasks = s.tasks.set i t')
    (hlive : t'.live a = false) (hwaits : t'.inQueue a = t.inQueue a)
    (hleft : t'.left a = t.left a) :
    s'.semaphoreOf a =
      { s.semaphoreOf a with active := (s.semaphoreOf a).active.erase i } := by
  unfold State.semaphoreOf
  rw [htasks, places_set_erase ht hlive, places_set_same ht hwaits, places_set_same ht hleft]

/-- A task that is spawned counts as nothing. -/
theorem semaphoreOf_spawn (hidle : t.idle = true) : (s.spawn t).semaphoreOf a = s.semaphoreOf a := by
  obtain ⟨hlive, hwaits, hleft, -⟩ := Task.counts_of_idle hidle a
  unfold State.semaphoreOf State.spawn
  simp only [places_append_singleton, hlive, hwaits, hleft, Bool.false_eq_true, if_false]

/-- A task that is resumed counts as what it was. -/
@[simp] theorem semaphoreOf_wake (o : Option TaskId) : (s.wake o).semaphoreOf a = s.semaphoreOf a := by
  cases o with
  | none => rfl
  | some j =>
      simp only [State.wake]
      split
      · rename_i r b hj
        exact semaphoreOf_set hj rfl rfl rfl rfl
      · rfl

/-- A call that gets its slot counts as nothing still. -/
theorem semaphoreOf_slotEntry {c : Caller} {b : SlotId} (ht : s.tasks[i]? = some (.slotEntry c))
    (htasks : s'.tasks = s.tasks.set i (c.withSlot b)) (a : SlotId) :
    s'.semaphoreOf a = s.semaphoreOf a := by
  refine semaphoreOf_set ht htasks (live_withSlot c b a) ?_ ?_
  · cases c with
    | acquire r => simp [Caller.withSlot, Task.inQueue, AcquirePc.inQueue]
    | snapshotWithConcurrency j n => rfl
  · cases c with
    | acquire r => rfl
    | snapshotWithConcurrency j n => rfl

/-- The semaphore of a key whose slot stays is that of the slot. -/
theorem semaphore_of_get (hget : s.slots.get k = some a) : s.semaphore k = s.semaphoreOf a := by
  simp only [State.semaphore, hget]

/-- A task that is none of the three is outside of the semaphore. -/
theorem outside_of (ht : s.tasks[i]? = some t) (hlive : t.live a = false)
    (hwaits : t.inQueue a = false) (hleft : t.left a = false) : (s.semaphoreOf a).Outside i := by
  have hnot : ∀ p : Task → Bool, p t = false → i ∉ places p s.tasks := by
    intro p hp hmem
    obtain ⟨u, hu, hpu⟩ := mem_places.1 hmem
    obtain rfl := Option.some.inj (ht.symm.trans hu)
    rw [hp] at hpu
    cases hpu
  exact ⟨hnot _ hlive, hnot _ hwaits, hnot _ hleft⟩

end

/-! ### The invariant -/

/-- The counters of every slot are the sizes of the sets of its semaphore, tasks refer to the slot
the map holds for their key, and the requests in progress are those of calls. -/
structure Accounted (R : Request → Prop) (s : State) : Prop where
  exact : Exact s
  occupied : Occupied s
  mapped : Mapped s
  requests : ∀ t ∈ s.tasks, ∀ r, t.request = some r → R r

theorem accounted_init (R : Request → Prop) : Accounted R init where
  exact := exact_init
  occupied := occupied_init
  mapped := mapped_init
  requests _ ht := absurd ht List.not_mem_nil

section

variable {R : Request → Prop} {s s' : State} {act : Action} {k : ModelCapacityKey} {a : SlotId}

/-- Every drop finds its slot. -/
theorem Accounted.dropFindsSlot (h : Accounted R s) : DropFindsSlot s act s' := by
  rintro i k issued - ht
  exact h.mapped.refs _ (List.mem_of_getElem? ht) (k, issued) (List.mem_cons_self ..)

theorem Accounted.step (h : Accounted R s) (hclear : ∀ n, act ≠ .clearNode n)
    (hcall : ∀ r, act = .call (.acquire r) → R r) (hstep : Capacity.step cfg s act = some s') :
    Accounted R s' where
  exact := exact_step h.exact hstep h.dropFindsSlot
  occupied := occupied_step h.occupied hstep
  mapped := mapped_step h.mapped hstep hclear
  requests := requests_of_change h.requests hcall (change_of_step hstep)

theorem Accounted.card_active (h : Accounted R s) {slot : Slot} (hslot : s.heap[a]? = some slot) :
    (s.semaphoreOf a).active.card = slot.active.toNat := by
  rw [h.exact.counts a slot hslot]
  exact card_places _ _

theorem Accounted.occupied_eq (h : Accounted R s) {slot : Slot} (hslot : s.heap[a]? = some slot) :
    (s.semaphoreOf a).occupied = slot.queued.toNat := by
  rw [h.occupied.queued hslot]
  unfold Semaphore.State.occupied State.semaphoreOf
  rw [card_places, card_places]
  rfl

/-- The counters of a key are the sizes of the sets of its semaphore. -/
theorem Accounted.counts (h : Accounted R s) (k : ModelCapacityKey) :
    (s.counts k).1.toNat = (s.semaphore k).active.card ∧
      (s.counts k).2.toNat = (s.semaphore k).occupied := by
  cases hget : s.slots.get k with
  | none =>
      simp only [State.semaphore, hget, counts_of_none hget]
      exact ⟨rfl, rfl⟩
  | some a =>
      have hslot := List.getElem?_eq_getElem (h.exact.inRange.slots k a hget)
      rw [semaphore_of_get hget, counts_of_slot hget hslot, h.card_active hslot,
        h.occupied_eq hslot]
      exact ⟨rfl, rfl⟩

/-! ### The counters of a key, by its tasks -/

/-- Whether the task is an `acquire` for the key that was dropped while it held a place in the
queue. -/
def Task.leftFor (k : ModelCapacityKey) : Task → Bool
  | .cancelled r _ => decide (r.key = k)
  | _ => false

/-- A task that refers to the slot of a key works for the key. -/
theorem slot_eq_iff_key (h : Mapped s) {t : Task} (ht : t ∈ s.tasks) {l : ModelCapacityKey}
    {b : SlotId} (href : (l, b) ∈ t.refs) (hget : s.slots.get k = some a) : b = a ↔ l = k := by
  have hl := h.refs t ht (l, b) href
  constructor
  · rintro rfl
    exact h.unique l k b hl hget
  · rintro rfl
    exact Option.some.inj (hl.symm.trans hget)

/-- What a task counts as for the slot of a key is what it counts as for the key. -/
theorem counts_for_slot (h : Mapped s) {t : Task} (ht : t ∈ s.tasks)
    (hget : s.slots.get k = some a) :
    t.live a = t.liveFor k ∧ t.inQueue a = t.waitsFor k ∧ t.left a = t.leftFor k := by
  cases t with
  | acquiring r b pc =>
      have hiff := slot_eq_iff_key h ht (l := r.key) (b := b) (List.mem_cons_self ..) hget
      exact ⟨rfl, by simp only [Task.inQueue, Task.waitsFor, hiff], rfl⟩
  | guard l b =>
      have hiff := slot_eq_iff_key h ht (l := l) (b := b) (List.mem_cons_self ..) hget
      exact ⟨by simp only [Task.live, Task.liveFor, hiff], rfl, rfl⟩
  | releasing l b pc =>
      cases pc with
      | notifyOne c => exact ⟨rfl, rfl, rfl⟩
      | _ =>
          have hiff := slot_eq_iff_key h ht (l := l) (b := b) (List.mem_cons_self ..) hget
          exact ⟨by simp only [Task.live, Task.liveFor, hiff], rfl, rfl⟩
  | cancelled r b =>
      have hiff := slot_eq_iff_key h ht (l := r.key) (b := b) (List.mem_cons_self ..) hget
      exact ⟨rfl, rfl, by simp only [Task.left, Task.leftFor, hiff]⟩
  | _ => exact ⟨rfl, rfl, rfl⟩

/-- No task counts for a key without a slot. -/
theorem counts_for_none (h : Mapped s) {t : Task} (ht : t ∈ s.tasks)
    (hget : s.slots.get k = none) :
    t.liveFor k = false ∧ t.waitsFor k = false ∧ t.leftFor k = false := by
  have hnot : ∀ l b, (l, b) ∈ t.refs → decide (l = k) = false := by
    intro l b href
    refine decide_eq_false ?_
    rintro rfl
    rw [h.refs t ht (l, b) href] at hget
    cases hget
  cases t with
  | acquiring r b pc =>
      exact ⟨rfl, by rw [Task.waitsFor, hnot r.key b (List.mem_cons_self ..), Bool.false_and], rfl⟩
  | guard l b => exact ⟨hnot l b (List.mem_cons_self ..), rfl, rfl⟩
  | releasing l b pc =>
      cases pc with
      | notifyOne c => exact ⟨rfl, rfl, rfl⟩
      | _ => exact ⟨hnot l b (List.mem_cons_self ..), rfl, rfl⟩
  | cancelled r b => exact ⟨rfl, rfl, hnot r.key b (List.mem_cons_self ..)⟩
  | _ => exact ⟨rfl, rfl, rfl⟩

/-- **The counters of a key are its live guards, and the calls in its queue with those that were
dropped there.** -/
theorem Accounted.counts_for (h : Accounted R s) (k : ModelCapacityKey) :
    (s.counts k).1.toNat = s.count (Task.liveFor k) ∧
      (s.counts k).2.toNat = s.count (Task.waitsFor k) + s.count (Task.leftFor k) := by
  obtain ⟨hactive, hqueued⟩ := h.counts k
  rw [hactive, hqueued]
  cases hget : s.slots.get k with
  | none =>
      have hzero := fun t ht => counts_for_none h.mapped (t := t) ht hget
      have hlive : s.count (Task.liveFor k) = 0 :=
        total_eq_zero.2 fun t ht => indicator_of_not (hzero t ht).1
      have hwaits : s.count (Task.waitsFor k) = 0 :=
        total_eq_zero.2 fun t ht => indicator_of_not (hzero t ht).2.1
      have hleft : s.count (Task.leftFor k) = 0 :=
        total_eq_zero.2 fun t ht => indicator_of_not (hzero t ht).2.2
      simp only [State.semaphore, hget, hlive, hwaits, hleft]
      exact ⟨rfl, rfl⟩
  | some a =>
      have hsame := fun t ht => counts_for_slot h.mapped (t := t) ht hget
      have hlive : s.count (Task.live a) = s.count (Task.liveFor k) :=
        total_congr fun t ht => congrArg (fun b => if b then 1 else 0) (hsame t ht).1
      have hwaits : s.count (Task.inQueue a) = s.count (Task.waitsFor k) :=
        total_congr fun t ht => congrArg (fun b => if b then 1 else 0) (hsame t ht).2.1
      have hleft : s.count (Task.left a) = s.count (Task.leftFor k) :=
        total_congr fun t ht => congrArg (fun b => if b then 1 else 0) (hsame t ht).2.2
      rw [semaphore_of_get hget, ← hlive, ← hwaits, ← hleft]
      unfold Semaphore.State.occupied State.semaphoreOf
      simp only [card_places]
      exact ⟨rfl, rfl⟩

/-! ### A step of the tracker -/

/-- A step of the loop of `acquire`, seen from the semaphore of a slot. -/
theorem semaphoreOf_acquire (h : Accounted R s) {i : TaskId} {r : Request} {b : SlotId}
    {pc : AcquirePc r} {slot slot' : Slot} {next : AcquireNext r}
    (ht : s.tasks[i]? = some (.acquiring r b pc)) (hslot : s.heap[b]? = some slot)
    (hacq : acquireStep i r slot pc = some (slot', next)) (hget : s.slots.get k = some a) :
    (s.write i (next.task b) b slot').semaphoreOf a = s.semaphoreOf a ∨
      ∃ op, From R k op ∧ Semaphore.step (s.semaphoreOf a) op =
        some ((s.write i (next.task b) b slot').semaphoreOf a) := by
  have hchange := slotChange_of_acquireStep hacq
  by_cases hb : b = a
  · subst hb
    have hkey : r.key = k := h.mapped.key_eq ht (List.mem_cons_self ..) hget
    have hR : R r := h.requests _ (List.mem_of_getElem? ht) r rfl
    cases hchange with
    | raise below hout =>
        refine Or.inr ⟨.grant i r.concurrency.toNat, ⟨r, hR, hkey, rfl⟩, ?_⟩
        have houtside := outside_of (a := b) ht rfl (by simp [Task.inQueue, hout]) rfl
        have hlt : (s.semaphoreOf b).active.card < r.concurrency.toNat := by
          rw [h.card_active hslot]
          exact UInt32.lt_iff_toNat_lt.1 below
        rw [Semaphore.step, if_pos ⟨houtside, hlt⟩]
        refine congrArg some (Eq.symm ?_)
        exact semaphoreOf_active ht rfl (by simp [AcquireNext.task, Task.live])
          (by simp [AcquireNext.task, Task.inQueue, hout]) rfl
    | @enqueue pc' below hout hin =>
        refine Or.inr ⟨.enqueue i r.maxQueue.toNat, ⟨r, hR, hkey, rfl⟩, ?_⟩
        have houtside := outside_of (a := b) ht rfl (by simp [Task.inQueue, hout]) rfl
        have hlt : (s.semaphoreOf b).occupied < r.maxQueue.toNat := by
          rw [h.occupied_eq hslot]
          exact UInt32.lt_iff_toNat_lt.1 below
        rw [Semaphore.step, if_pos ⟨houtside, hlt⟩]
        refine congrArg some (Eq.symm ?_)
        exact semaphoreOf_waiting ht rfl rfl
          (by simp [AcquireNext.task, Task.inQueue, hin]) rfl
    | @dequeue pc' hin hout =>
        refine Or.inr ⟨.leave i, trivial, ?_⟩
        have hmem : i ∈ (s.semaphoreOf b).waiting :=
          mem_places.2 ⟨_, ht, by simp [Task.inQueue, hin]⟩
        rw [Semaphore.step, if_pos hmem]
        refine congrArg some (Eq.symm ?_)
        exact semaphoreOf_left ht rfl rfl
          (by simp [AcquireNext.task, Task.inQueue, hout]) rfl
    | keep hactive hqueued hin =>
        exact Or.inl (semaphoreOf_set ht rfl rfl (by simp [AcquireNext.task, Task.inQueue, hin]) rfl)
    | fail hout =>
        exact Or.inl (semaphoreOf_set ht rfl rfl
          (by simp [AcquireNext.task, Task.inQueue, hout]) rfl)
  · -- the slot of another key
    refine Or.inl ?_
    cases hchange with
    | raise below hout =>
        exact semaphoreOf_set ht rfl (by simp [AcquireNext.task, Task.live, hb])
          (by simp [AcquireNext.task, Task.inQueue, hb]) rfl
    | _ =>
        exact semaphoreOf_set ht rfl rfl (by simp [AcquireNext.task, Task.inQueue, hb]) rfl

/-- **A step of the tracker is one of the semaphore of a slot, or none.** -/
theorem semaphoreOf_step (h : Accounted R s) (hclear : ∀ n, act ≠ .clearNode n)
    (hchange : Change cfg s act s') (hget : s.slots.get k = some a) :
    s'.semaphoreOf a = s.semaphoreOf a ∨
      ∃ op, From R k op ∧ Semaphore.step (s.semaphoreOf a) op = some (s'.semaphoreOf a) := by
  cases hchange with
  | call c => exact Or.inl (semaphoreOf_spawn rfl)
  | clearNode n => exact absurd rfl (hclear n)
  | move ht _ hfollows _ =>
      exact Or.inl (semaphoreOf_set ht rfl (hfollows.live a) (hfollows.inQueue a) (hfollows.left a))
  | slotEntry ht => exact Or.inl (semaphoreOf_slotEntry ht rfl a)
  | acquire ht hslot hacq => exact semaphoreOf_acquire h ht hslot hacq hget
  | releaseFound ht hfound => exact Or.inl (semaphoreOf_set ht rfl rfl rfl rfl)
  | @releaseMissing i l issued ht hmissing =>
      have hfound := h.mapped.refs _ (List.mem_of_getElem? ht) (l, issued) (List.mem_cons_self ..)
      rw [hmissing] at hfound
      cases hfound
  | @fetchSub i l issued b slot ht hslot =>
      obtain rfl := h.exact.own _ (List.mem_of_getElem? ht) _ _ _ rfl
      by_cases hb : b = a
      · subst hb
        refine Or.inr ⟨.release i, trivial, ?_⟩
        have hmem : i ∈ (s.semaphoreOf b).active := mem_places.2 ⟨_, ht, by simp [Task.live]⟩
        rw [Semaphore.step, if_pos hmem]
        refine congrArg some (Eq.symm ?_)
        exact semaphoreOf_released ht rfl rfl rfl rfl
      · exact Or.inl (semaphoreOf_set ht rfl (by simp [Task.live, hb]) rfl rfl)
  | notifyOne ht hslot =>
      rw [semaphoreOf_wake]
      exact Or.inl (semaphoreOf_set ht rfl rfl rfl rfl)
  | @timeout i r b pc slot woken ht hwaits hslot =>
      have hin := inQueue_of_waiting hwaits
      rw [State.endWait, semaphoreOf_wake]
      refine Or.inl (semaphoreOf_set ht rfl rfl ?_ rfl)
      simp only [Task.inQueue, hin]
      rfl
  | @cancel i r b pc slot woken ht hwaits hslot =>
      have hin := inQueue_of_waiting hwaits
      rw [State.endWait, semaphoreOf_wake]
      by_cases hb : b = a
      · subst hb
        refine Or.inr ⟨.lose i, trivial, ?_⟩
        have hmem : i ∈ (s.semaphoreOf b).waiting :=
          mem_places.2 ⟨_, ht, by simp [Task.inQueue, hin]⟩
        rw [Semaphore.step, if_pos hmem]
        refine congrArg some (Eq.symm ?_)
        exact semaphoreOf_gone ht rfl rfl rfl (by simp [Task.left])
      · refine Or.inl (semaphoreOf_set ht rfl rfl ?_ ?_)
        · simp [Task.inQueue, hb]
        · simp [Task.left, hb]
  | clearShard ht => exact absurd rfl (h.mapped.noneClears _ (List.mem_of_getElem? ht) _ _)

/-- Nobody uses a slot that is not allocated yet. -/
theorem semaphoreOf_fresh (h : Accounted R s) : s.semaphoreOf s.heap.length = Semaphore.init := by
  have hempty : ∀ p : SlotId → Task → Bool,
      (∀ t a, p a t = true → ∃ k, (k, a) ∈ t.refs) → places (p s.heap.length) s.tasks = ∅ := by
    intro p hp
    rw [← Finset.card_eq_zero, card_places]
    exact count_fresh h.exact.inRange hp
  unfold State.semaphoreOf Semaphore.init
  rw [hempty Task.live fun t a => mem_refs_of_live, hempty Task.inQueue fun t a => mem_refs_of_inQueue,
    hempty Task.left fun t a => mem_refs_of_left]

/-- **A step of the tracker is one of the semaphore of a key, or none.** -/
theorem semaphore_step (h : Accounted R s) (hclear : ∀ n, act ≠ .clearNode n)
    (hstep : Capacity.step cfg s act = some s') (k : ModelCapacityKey) :
    s'.semaphore k = s.semaphore k ∨
      ∃ op, From R k op ∧ Semaphore.step (s.semaphore k) op = some (s'.semaphore k) := by
  have hchange := change_of_step hstep
  cases hget : s.slots.get k with
  | some a =>
      have hkept := slots_kept h.mapped.noneClears hchange k a hget
      rw [semaphore_of_get hget, semaphore_of_get hkept]
      exact semaphoreOf_step h hclear hchange hget
  | none =>
      refine Or.inl ?_
      have hbefore : s.semaphore k = Semaphore.init := by simp only [State.semaphore, hget]
      rw [hbefore]
      cases hget' : s'.slots.get k with
      | none => simp only [State.semaphore, hget']
      | some a =>
          -- the slot is new, and the call that allocated it counts as nothing
          rcases slots_of_change hchange hget' with hold | ⟨i, c, rfl, ht, rfl, rfl, -⟩
          · rw [hget] at hold
            cases hold
          · simp only [Capacity.step, ht, Option.bind_some, advance] at hstep
            split at hstep
            · obtain rfl := Option.some.inj hstep
              rw [semaphore_of_get hget', semaphoreOf_slotEntry ht rfl, semaphoreOf_fresh h]
            · cases hstep

end

/-! ### Runs -/

section

variable {acts : List Action} {s : State}

/-- What holds of the requests of a run. -/
theorem accounted_of_run (hrun : run (step cfg) init acts = some s)
    (hclear : ∀ n, .clearNode n ∉ acts) : Accounted (fun r => .call (.acquire r) ∈ acts) s :=
  (always_of_step (C := fun _ act _ => act ∈ acts)
    (fun _ _ _ h hstep hact => h.step (fun n hn => hclear n (hn ▸ hact)) (fun _ hr => hr ▸ hact) hstep)
    (accounted_init _) (throughout_of_forall_mem (fun _ h => h) init)).last hrun

theorem run_semaphore (hrun : run (step cfg) init acts = some s)
    (hclear : ∀ n, .clearNode n ∉ acts) (k : ModelCapacityKey) :
    ∃ ops, run Semaphore.step Semaphore.init ops = some (s.semaphore k) ∧
      ∀ op ∈ ops, From (fun r => .call (.acquire r) ∈ acts) k op :=
  run_of_simulation (fun s => s.semaphore k) (I := Accounted fun r => .call (.acquire r) ∈ acts)
    (C := fun act => act ∈ acts)
    (fun _ _ _ h hact hstep =>
      h.step (fun n hn => hclear n (hn ▸ hact)) (fun _ hr => hr ▸ hact) hstep)
    (fun _ _ _ h hact hstep => semaphore_step h (fun n hn => hclear n (hn ▸ hact)) hstep k)
    (accounted_init _) (fun _ h => h) hrun

end

/-- With one place, a request holds it and a second one is dropped while it waits. -/
def goneWaiter : List Action :=
  [.call (.acquire ⟨sampleKey, 1, 1⟩), .step 0, .step 0, .step 0, .step 0, .step 0,
    .call (.acquire ⟨sampleKey, 1, 1⟩), .step 1, .step 1, .step 1, .step 1, .step 1, .step 1,
    .cancel 1]

theorem observe_goneWaiter :
    (run (step twoShards) init goneWaiter).map
      (fun s => ((s.counts sampleKey).1.toNat, (s.counts sampleKey).2.toNat)) = some (1, 1) := by
  decide +kernel

end Capacity
