/-
**What the counters of a key say, and whose steps change them.**

A reading of a key is the two counters of its slot, or zeros where there is no slot yet.  As long as
no node is cleared, only a task that holds a guard for the key, or a place in its queue, changes them:
the step in which it comes to hold one, and the step in which it gives one up.  A task that is a call
stays that call, or what has become of it, whatever the others do.

Main definitions:

* `Capacity.State.counts` — the counters of a key;
* `Capacity.Task.holds` — the task is counted for the key;
* `Capacity.Task.Of` — the task is a call, or what has become of it.

Main results:

* `Capacity.counts_of_step` — **the counters of a key change only with a task that is counted for
  it**;
* `Capacity.of_step` — a task stays what it is;
* `Capacity.holds_of_step_other` — the steps of the others leave a task counted as it is.
-/

import SparklRouter.Capacity.Places

set_option relaxedAutoImplicit false
set_option autoImplicit false

namespace Capacity

open TaskPool

variable {cfg : Sharding ModelCapacityKey}

/-! ### The counters of a key -/

/-- The counters of a key; a reading of a key without a slot finds zeros. -/
def State.counts (s : State) (k : ModelCapacityKey) : UInt32 × UInt32 :=
  match (s.slots.get k).bind fun a => s.heap[a]? with
  | some slot => (slot.active, slot.queued)
  | none => (0, 0)

/-- The task is a live guard for the key, or a call in its queue. -/
def Task.holds (k : ModelCapacityKey) (t : Task) : Bool := t.liveFor k || t.waitsFor k

section

variable {s s' : State} {i j : TaskId} {t t' : Task} {act : Action} {k : ModelCapacityKey}

theorem counts_of_slot {a : SlotId} {slot : Slot} (hget : s.slots.get k = some a)
    (hslot : s.heap[a]? = some slot) : s.counts k = (slot.active, slot.queued) := by
  simp only [State.counts, hget, Option.bind_some, hslot]

theorem counts_of_none (hget : s.slots.get k = none) : s.counts k = (0, 0) := by
  simp only [State.counts, hget, Option.bind_none]

@[simp] theorem counts_wake (o : Option TaskId) : (s.wake o).counts k = s.counts k := by
  simp only [State.counts, State.slots_wake, State.heap_wake]

/-- A write that leaves the counters of the key's slot alone. -/
theorem counts_write {a : SlotId} {slot slot' : Slot} (hslot : s.heap[a]? = some slot)
    (hsame : s.slots.get k = some a → slot'.active = slot.active ∧ slot'.queued = slot.queued) :
    (s.write i t a slot').counts k = s.counts k := by
  cases hget : s.slots.get k with
  | none => rw [counts_of_none hget, counts_of_none (s := s.write i t a slot') hget]
  | some b =>
      have hget' : (s.write i t a slot').slots.get k = some b := hget
      by_cases hb : a = b
      · subst hb
        obtain ⟨hactive, hqueued⟩ := hsame hget
        rw [counts_of_slot hget hslot, counts_of_slot hget' (getElem?_set_self hslot slot'),
          hactive, hqueued]
      · have hheap : (s.write i t a slot').heap[b]? = s.heap[b]? := List.getElem?_set_ne hb
        simp only [State.counts, hget, hget', Option.bind_some, hheap]

/-- A slot that is allocated is one at zero. -/
theorem counts_slotEntry (h : Mapped s) (c : Caller) (ts : List Task) :
    State.counts ⟨(s.slots.entryOrInsert c.key s.heap.length).2, s.heap ++ [Slot.new], ts⟩ k =
      s.counts k := by
  cases hget : s.slots.get k with
  | some b =>
      have hlt := h.inRange.slots k b hget
      have hkept : (s.slots.entryOrInsert c.key s.heap.length).2.get k = some b := by
        cases hc : s.slots.get c.key with
        | some d =>
            rw [ShardMap.entryOrInsert_of_some hc]
            exact hget
        | none =>
            have hne : k ≠ c.key := fun heq => by rw [heq, hc] at hget; cases hget
            rw [ShardMap.entryOrInsert_of_none hc, ShardMap.get_insert_of_ne _ _ hne]
            exact hget
      simp only [State.counts, hget, hkept, Option.bind_some, List.getElem?_append_left hlt]
  | none =>
      rw [counts_of_none hget]
      cases hc : s.slots.get c.key with
      | some d =>
          refine counts_of_none ?_
          rw [ShardMap.entryOrInsert_of_some hc]
          exact hget
      | none =>
          rw [ShardMap.entryOrInsert_of_none hc]
          by_cases hk : k = c.key
          · subst hk
            have hnew : (s.heap ++ [Slot.new])[s.heap.length]? = some Slot.new := by simp
            exact counts_of_slot (s := ⟨_, s.heap ++ [Slot.new], ts⟩)
              (ShardMap.get_insert_self _ _ _) hnew
          · refine counts_of_none ?_
            rw [ShardMap.get_insert_of_ne _ _ hk]
            exact hget

/-- A task that works on the slot of a key works for the key. -/
theorem Mapped.key_eq (h : Mapped s) (ht : s.tasks[i]? = some t) {l : ModelCapacityKey} {a : SlotId}
    (href : (l, a) ∈ t.refs) (hget : s.slots.get k = some a) : l = k :=
  h.unique l k a (h.refs t (List.mem_of_getElem? ht) _ href) hget

/-- **The counters of a key change only with a task that is counted for it**, before its step or
after. -/
theorem counts_of_step (h : Mapped s) (hstep : step cfg s act = some s')
    (hclear : ∀ n, act ≠ .clearNode n)
    (hbefore : ∀ i t, act = .step i → s.tasks[i]? = some t → t.holds k = false)
    (hafter : ∀ i t, act = .step i → s'.tasks[i]? = some t → t.holds k = false) :
    s'.counts k = s.counts k := by
  cases change_of_step hstep with
  | call c => rfl
  | clearNode n => exact absurd rfl (hclear n)
  | move ht _ hfollows _ => rfl
  | slotEntry ht => exact counts_slotEntry h _ _
  | @acquire i r a pc slot slot' next ht hslot hacq =>
      refine counts_write hslot fun hget => ?_
      have hkey : r.key = k := h.key_eq ht (List.mem_cons_self ..) hget
      have hout := hbefore i _ rfl ht
      have hnext := hafter i _ rfl (getElem?_set_self ht _)
      rw [Task.holds, Bool.or_eq_false_iff] at hout hnext
      cases slotChange_of_acquireStep hacq with
      | raise below hin =>
          have hlive := hnext.1
          simp [AcquireNext.task, Task.liveFor, hkey] at hlive
      | enqueue below hpc hin =>
          have hwaits := hnext.2
          simp [AcquireNext.task, Task.waitsFor, hkey, hin] at hwaits
      | dequeue hin hpc =>
          have hwaits := hout.2
          simp [Task.waitsFor, hkey, hin] at hwaits
      | keep hactive hqueued hin => exact ⟨hactive, hqueued⟩
      | fail hin => exact ⟨rfl, rfl⟩
  | releaseFound ht hget => rfl
  | releaseMissing ht hget => rfl
  | @fetchSub i l issued a slot ht hslot =>
      refine counts_write hslot fun hget => ?_
      have hkey : l = k := h.key_eq ht (by simp [Task.refs]) hget
      have hlive := hbefore i _ rfl ht
      simp [Task.holds, Task.liveFor, hkey] at hlive
  | notifyOne ht hslot =>
      rw [counts_wake]
      exact counts_write hslot fun _ => ⟨rfl, rfl⟩
  | timeout ht hwaits hslot =>
      rw [State.endWait, counts_wake]
      exact counts_write hslot fun _ => ⟨rfl, rfl⟩
  | cancel ht hwaits hslot =>
      rw [State.endWait, counts_wake]
      exact counts_write hslot fun _ => ⟨rfl, rfl⟩
  | clearShard ht => exact absurd rfl (h.noneClears _ (List.mem_of_getElem? ht) _ _)

/-! ### The steps of the others -/

/-- What the others make of a task: it stays, or it is woken. -/
theorem task_of_step_other (ht : s.tasks[j]? = some t) (hact : act.actor ≠ some j)
    (hstep : step cfg s act = some s') :
    s'.tasks[j]? = some t ∨
      ∃ r a, t = .acquiring r a .parked ∧ s'.tasks[j]? = some (.acquiring r a .woken) := by
  by_cases hparked : ∃ r a, t = .acquiring r a .parked
  · obtain ⟨r, a, rfl⟩ := hparked
    rcases waiting_of_step_other ht hact hstep with h | h
    · exact Or.inl h
    · exact Or.inr ⟨r, a, rfl, h⟩
  · exact Or.inl (getElem?_of_step_other ht (fun r a heq => hparked ⟨r, a, heq⟩) hact hstep)

/-- **The steps of the others leave a task counted as it is**, and competing or not. -/
theorem holds_of_step_other (ht : s.tasks[j]? = some t) (hact : act.actor ≠ some j)
    (hstep : step cfg s act = some s') :
    ∃ t', s'.tasks[j]? = some t' ∧ t'.holds k = t.holds k ∧ t'.contends = t.contends := by
  rcases task_of_step_other ht hact hstep with h | ⟨r, a, rfl, h⟩
  · exact ⟨t, h, rfl, rfl⟩
  · exact ⟨_, h, rfl, rfl⟩

end

/-! ### What becomes of a call -/

/-- The call goes to the map: it is no `acquire` without a limit. -/
def Caller.limited : Caller → Prop
  | .acquire r => r.concurrency ≠ 0
  | .snapshotWithConcurrency _ _ => True

/-- The task is the call, or what has become of it. -/
def Task.Of (c : Caller) : Task → Prop
  | .enter d => d = c
  | .slotGet d | .slotEntry d => d = c ∧ c.limited
  | .acquiring r _ _ => c = .acquire r ∧ c.limited
  | .guard k _ | .releasing k _ _ => (∃ r, c = .acquire r) ∧ k = c.key ∧ c.limited
  | .unlimitedGuard k => (∃ r, c = .acquire r) ∧ k = c.key ∧ ¬ c.limited
  | .cancelled r _ => c = .acquire r ∧ c.limited
  | .failed _ => (∃ r, c = .acquire r) ∧ c.limited
  | .released => ∃ r, c = .acquire r
  | .snapActive k n _ | .snapQueued k n _ _ => c = .snapshotWithConcurrency k n
  | .snapped _ => ∃ k n, c = .snapshotWithConcurrency k n
  | .clearing _ _ | .cleared => False

section

variable {s s' : State} {j : TaskId} {t : Task} {act : Action} {c : Caller}

theorem of_withSlot {d : Caller} (a : SlotId) (hd : d = c) (hlimited : c.limited) :
    (d.withSlot a).Of c := by
  subst hd
  cases d with
  | acquire r => exact ⟨rfl, hlimited⟩
  | snapshotWithConcurrency k n => rfl

/-- A call that takes its next step. -/
theorem of_advance (ht : s.tasks[j]? = some t) (hof : t.Of c) (hstep : advance cfg s j t = some s') :
    ∃ t', s'.tasks[j]? = some t' ∧ t'.Of c := by
  have hself : ∀ t', (s.put j t').tasks[j]? = some t' := fun t' => getElem?_set_self ht t'
  cases t with
  | enter d =>
      obtain rfl : d = c := hof
      cases d with
      | acquire r =>
          simp only [advance] at hstep
          split at hstep
          · rename_i hzero
            obtain rfl := Option.some.inj hstep
            exact ⟨_, hself _, ⟨r, rfl⟩, rfl, not_not.2 hzero⟩
          · rename_i hlimit
            obtain rfl := Option.some.inj hstep
            exact ⟨_, hself _, rfl, hlimit⟩
      | snapshotWithConcurrency k n =>
          obtain rfl := Option.some.inj hstep
          exact ⟨_, hself _, rfl, trivial⟩
  | slotGet d =>
      simp only [advance] at hstep
      split at hstep
      · obtain rfl := Option.some.inj hstep
        exact ⟨_, hself _, of_withSlot _ hof.1 hof.2⟩
      · obtain rfl := Option.some.inj hstep
        exact ⟨_, hself _, hof⟩
  | slotEntry d =>
      simp only [advance] at hstep
      split at hstep
      · obtain rfl := Option.some.inj hstep
        exact ⟨_, hself _, of_withSlot _ hof.1 hof.2⟩
      · cases hstep
  | acquiring r a pc =>
      obtain ⟨slot, -, hstep⟩ := Option.bind_eq_some_iff.1 hstep
      obtain ⟨⟨slot', next⟩, -, rfl⟩ := Option.map_eq_some_iff.1 hstep
      refine ⟨_, hself _, ?_⟩
      obtain ⟨rfl, hlimited⟩ := hof
      cases next with
      | «at» pc' => exact ⟨rfl, hlimited⟩
      | admitted => exact ⟨⟨r, rfl⟩, rfl, hlimited⟩
      | failed e => exact ⟨⟨r, rfl⟩, hlimited⟩
  | releasing k issued pc =>
      cases pc with
      | get =>
          simp only [advance, releaseStep] at hstep
          split at hstep
          · obtain rfl := Option.some.inj hstep
            exact ⟨_, hself _, hof⟩
          · obtain rfl := Option.some.inj hstep
            exact ⟨_, hself _, hof.1⟩
      | fetchSub a =>
          obtain ⟨slot, -, rfl⟩ := Option.map_eq_some_iff.1 hstep
          exact ⟨_, hself _, hof⟩
      | notifyOne a =>
          obtain ⟨slot, -, rfl⟩ := Option.map_eq_some_iff.1 hstep
          have hreleased := getElem?_set_self ht Task.released
          exact ⟨.released, getElem?_wake hreleased (awake_of_dropSteps rfl) _, hof.1⟩
  | snapActive k n a =>
      obtain ⟨slot, -, rfl⟩ := Option.map_eq_some_iff.1 hstep
      exact ⟨_, hself _, hof⟩
  | snapQueued k n a active =>
      obtain ⟨slot, -, rfl⟩ := Option.map_eq_some_iff.1 hstep
      exact ⟨_, hself _, k, n, hof⟩
  | clearing n shard => exact hof.elim
  | _ => cases hstep

/-- **A task stays what it is**: the call, or what becomes of it. -/
theorem of_step (ht : s.tasks[j]? = some t) (hof : t.Of c) (hstep : step cfg s act = some s') :
    ∃ t', s'.tasks[j]? = some t' ∧ t'.Of c := by
  by_cases hact : act.actor = some j
  · cases act with
    | call d => cases hact
    | clearNode n => cases hact
    | step i =>
        obtain rfl := Option.some.inj hact
        rw [step, ht, Option.bind_some] at hstep
        exact of_advance ht hof hstep
    | spurious i =>
        obtain rfl := Option.some.inj hact
        obtain ⟨r, a, pc, pc', hi, -, rfl⟩ := exists_of_spurious hstep
        obtain rfl := Option.some.inj (ht.symm.trans hi)
        exact ⟨_, getElem?_set_self ht _, hof⟩
    | timeout i =>
        obtain rfl := Option.some.inj hact
        obtain ⟨r, a, pc, slot, woken, hi, -, -, rfl⟩ := exists_of_timeout hstep
        obtain rfl := Option.some.inj (ht.symm.trans hi)
        have hawake : (Task.acquiring r a (.leaveQueue false)).Awake := fun _ _ h => by cases h
        exact ⟨_, getElem?_endWait ht hawake a slot woken, hof⟩
    | cancel i =>
        obtain rfl := Option.some.inj hact
        obtain ⟨r, a, pc, slot, woken, hi, -, -, rfl⟩ := exists_of_cancel hstep
        obtain rfl := Option.some.inj (ht.symm.trans hi)
        have hawake : (Task.cancelled r a).Awake := fun _ _ h => by cases h
        exact ⟨_, getElem?_endWait ht hawake a slot woken, hof⟩
    | dropGuard i =>
        obtain rfl := Option.some.inj hact
        rcases exists_of_dropGuard hstep with ⟨k, a, hi, rfl⟩ | ⟨k, hi, rfl⟩
        · obtain rfl := Option.some.inj (ht.symm.trans hi)
          exact ⟨_, getElem?_set_self ht _, hof⟩
        · obtain rfl := Option.some.inj (ht.symm.trans hi)
          exact ⟨_, getElem?_set_self ht _, hof.1⟩
  · rcases task_of_step_other ht hact hstep with h | ⟨r, a, rfl, h⟩
    · exact ⟨t, h, hof⟩
    · exact ⟨_, h, hof⟩

end

/-- Only the tasks of an `acquire` with a limit are counted, and for its key. -/
theorem Task.Of.of_holds {t : Task} {c : Caller} {k : ModelCapacityKey} (hof : t.Of c)
    (h : t.holds k = true) : (∃ r, c = .acquire r) ∧ k = c.key ∧ c.limited := by
  cases t with
  | acquiring r a pc =>
      simp only [Task.holds, Task.liveFor, Task.waitsFor, Bool.false_or, Bool.and_eq_true,
        decide_eq_true_eq] at h
      obtain ⟨rfl, hlimited⟩ := hof
      exact ⟨⟨r, rfl⟩, h.1.symm, hlimited⟩
  | guard l a =>
      simp only [Task.holds, Task.liveFor, Task.waitsFor, Bool.or_false, decide_eq_true_eq] at h
      exact ⟨hof.1, h.symm.trans hof.2.1, hof.2.2⟩
  | releasing l a pc =>
      cases pc with
      | notifyOne b => cases h
      | _ =>
          simp only [Task.holds, Task.liveFor, Task.waitsFor, Bool.or_false,
            decide_eq_true_eq] at h
          exact ⟨hof.1, h.symm.trans hof.2.1, hof.2.2⟩
  | _ => cases h

end Capacity
