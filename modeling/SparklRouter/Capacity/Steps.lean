/-
**What one step of the capacity tracker can do.**

`Capacity.step` branches on the action and on the point at which the task stands.  This module says
once what the branches amount to (`Capacity.Change`), so that no invariant has to unfold the
transition function: most steps move one task and touch nothing shared, one allocates a slot, the
steps of `acquire` act on one slot through `Capacity.acquireStep`, and the drop of a guard, the end
of a wait and `clear_node` are listed one by one.

Main definitions:

* `Capacity.Change` — what a step can do;
* `Capacity.SlotChange` — what a step of `acquire` can do to its slot.

Main results:

* `Capacity.change_of_step`, `Capacity.slotChange_of_acquireStep` — **every step is one of these**;
* `Capacity.State.count_put`, `Capacity.State.count_write`, `Capacity.State.count_spawn`,
  `Capacity.State.count_wake` — how a count of tasks changes.
-/

import SparklRouter.Capacity.Tracker

set_option relaxedAutoImplicit false
set_option autoImplicit false

namespace Capacity

open TaskPool

variable {cfg : Sharding ModelCapacityKey}

/-! ### Counting tasks -/

theorem State.count_put {s : State} {i : TaskId} {t : Task} (ht : s.tasks[i]? = some t) (t' : Task)
    (p : Task → Bool) : (s.put i t').count p + indicator p t = s.count p + indicator p t' :=
  total_set _ ht t'

theorem State.count_write {s : State} {i : TaskId} {t : Task} (ht : s.tasks[i]? = some t)
    (t' : Task) (a : SlotId) (slot : Slot) (p : Task → Bool) :
    (s.write i t' a slot).count p + indicator p t = s.count p + indicator p t' :=
  total_set _ ht t'

@[simp] theorem State.count_spawn (s : State) (t : Task) (p : Task → Bool) :
    (s.spawn t).count p = s.count p + indicator p t := by
  simp [State.count, State.spawn]

/-- Resuming a parked task changes no count that does not tell a parked task from a woken one. -/
theorem State.count_wake {p : Task → Bool}
    (hp : ∀ r a, p (.acquiring r a .woken) = p (.acquiring r a .parked)) (s : State)
    (o : Option TaskId) : (s.wake o).count p = s.count p := by
  cases o with
  | none => rfl
  | some j =>
      simp only [State.wake]
      split
      · rename_i r a hj
        have hset := s.count_put hj (.acquiring r a .woken) p
        simp only [indicator, hp r a] at hset
        omega
      · rfl

theorem State.wake_parked {s : State} {j : TaskId} {r : Request} {a : SlotId}
    (hj : s.tasks[j]? = some (.acquiring r a .parked)) :
    s.wake (some j) = s.put j (.acquiring r a .woken) := by
  simp only [State.wake, hj]

@[simp] theorem State.heap_wake (s : State) (o : Option TaskId) : (s.wake o).heap = s.heap := by
  cases o with
  | none => rfl
  | some j =>
      simp only [State.wake]
      split <;> rfl

@[simp] theorem State.slots_wake (s : State) (o : Option TaskId) : (s.wake o).slots = s.slots := by
  cases o with
  | none => rfl
  | some j =>
      simp only [State.wake]
      split <;> rfl

/-- A task after a wake-up is a task from before it, or a parked task that is now woken. -/
theorem State.mem_wake {s : State} {o : Option TaskId} {t : Task} (h : t ∈ (s.wake o).tasks) :
    t ∈ s.tasks ∨ ∃ r a, t = .acquiring r a .woken ∧ .acquiring r a .parked ∈ s.tasks := by
  cases o with
  | none => exact Or.inl h
  | some j =>
      simp only [State.wake] at h
      split at h
      · rename_i r a hj
        rcases List.mem_or_eq_of_mem_set h with h | rfl
        · exact Or.inl h
        · exact Or.inr ⟨r, a, rfl, List.mem_of_getElem? hj⟩
      · exact Or.inl h

/-! ### Counters that count tasks -/

/-- A counter seen below a limit does not wrap when it is raised. -/
theorem toNat_raise {a limit : UInt32} (h : a < limit) : (a + 1).toNat = a.toNat + 1 := by
  have h' := UInt32.lt_iff_toNat_lt.1 h
  have hlimit := limit.toNat_lt
  rw [UInt32.toNat_add]
  simp only [UInt32.reduceToNat]
  omega

/-- A counter that is not zero does not wrap when it is lowered. -/
theorem toNat_lower {a : UInt32} (h : 1 ≤ a.toNat) : (a - 1).toNat = a.toNat - 1 := by
  rw [UInt32.toNat_sub_of_le _ _ (UInt32.le_iff_toNat_le.2 (by simpa using h))]
  rfl

/-- The counter `f` of every slot `a` is the number of tasks that satisfy `p a`. -/
def Counts (f : Slot → UInt32) (p : SlotId → Task → Bool) (s : State) : Prop :=
  ∀ a slot, s.heap[a]? = some slot → (f slot).toNat = s.count (p a)

section

variable {f : Slot → UInt32} {p : SlotId → Task → Bool} {s : State} {i : TaskId} {t t' : Task}

theorem Counts.put (h : Counts f p s) (ht : s.tasks[i]? = some t) (hp : ∀ a, p a t' = p a t) :
    Counts f p (s.put i t') := by
  intro a slot hslot
  have hcount := s.count_put ht t' (p a)
  have := h a slot hslot
  simp only [indicator, hp a] at hcount
  omega

/-- A write changes the counter of its slot by what the task counts as more or less, and the task
counts for no other slot. -/
theorem Counts.write (h : Counts f p s) (ht : s.tasks[i]? = some t) {a : SlotId} {slot slot' : Slot}
    (hslot : s.heap[a]? = some slot)
    (hown : (f slot').toNat + indicator (p a) t = (f slot).toNat + indicator (p a) t')
    (hother : ∀ b, b ≠ a → p b t' = p b t) : Counts f p (s.write i t' a slot') := by
  intro b slotb hb
  have hcount := s.count_write ht t' a slot' (p b)
  rcases getElem?_set_cases hb with ⟨rfl, rfl⟩ | ⟨hne, hb⟩
  · have := h a slot hslot
    omega
  · have := h b slotb hb
    simp only [indicator, hother b hne.symm] at hcount
    omega

theorem Counts.spawn (h : Counts f p s) (hp : ∀ a, p a t = false) : Counts f p (s.spawn t) := by
  intro a slot hslot
  rw [State.count_spawn, indicator_of_not (hp a)]
  exact h a slot hslot

theorem Counts.wake (h : Counts f p s)
    (hp : ∀ b r a, p b (.acquiring r a .woken) = p b (.acquiring r a .parked))
    (o : Option TaskId) : Counts f p (s.wake o) := by
  intro a slot hslot
  rw [State.heap_wake] at hslot
  rw [State.count_wake (hp a)]
  exact h a slot hslot

/-- A fresh slot starts at zero and no task counts for it. -/
theorem Counts.alloc (h : Counts f p s) (ht : s.tasks[i]? = some t) (hp : ∀ a, p a t' = p a t)
    (hnew : (f Slot.new).toNat = 0) (hfresh : s.count (p s.heap.length) = 0)
    (m : ShardMap ModelCapacityKey SlotId) :
    Counts f p ⟨m, s.heap ++ [Slot.new], s.tasks.set i t'⟩ := by
  intro a slot hslot
  have hput := h.put ht hp
  rcases getElem?_append_cases hslot with ⟨rfl, rfl⟩ | hslot
  · have hcount := s.count_put ht t' (p s.heap.length)
    simp only [indicator, hp] at hcount
    change (f Slot.new).toNat = (s.put i t').count (p s.heap.length)
    omega
  · exact hput a slot hslot

end

/-! ### The inversion of a step -/

/-- The task moves on from `t` to `t'` and counts as what it was, except that it may turn to go for
a free place.  An `acquire` in progress was one before and not parked, a drop is at its start, and
nothing starts to clear a node. -/
structure Follows (t t' : Task) : Prop where
  live : ∀ a, t'.live a = t.live a
  inQueue : ∀ a, t'.inQueue a = t.inQueue a
  left : ∀ a, t'.left a = t.left a
  eager : ∀ a, t.eager a = true → t'.eager a = true
  seeks : ∀ a, t'.seeks a = true → t.seeks a = true
  tells : ∀ a, t'.tells a = t.tells a
  request : ∀ r, t'.request = some r → t.request = some r
  drop : ∀ k a pc, t' = .releasing k a pc → pc = .get
  clear : ∀ n j, t' ≠ .clearing n j
  awake : ∀ r a, t ≠ .acquiring r a .parked

/-- What a step can do. -/
inductive Change (cfg : Sharding ModelCapacityKey) (s : State) : Action → State → Prop
  | call (c : Caller) : Change cfg s (.call c) (s.spawn (.enter c))
  | clearNode (n : NodeId) : Change cfg s (.clearNode n) (s.spawn (.clearing n 0))
  /-- The task moves on, and refers to no slot but the ones it knew or the one the map holds. -/
  | move {act : Action} {i : TaskId} {t t' : Task} (ht : s.tasks[i]? = some t)
      (hact : ∀ i, act ≠ .cancel i) (hfollows : Follows t t')
      (hrefs : ∀ p ∈ t'.refs, p ∈ t.refs ∨ s.slots.get p.1 = some p.2) : Change cfg s act (s.put i t')
  | slotEntry {i : TaskId} {c : Caller} (ht : s.tasks[i]? = some (.slotEntry c)) :
      Change cfg s (.step i) ⟨(s.slots.entryOrInsert c.key s.heap.length).2, s.heap ++ [Slot.new],
        s.tasks.set i (c.withSlot (s.slots.entryOrInsert c.key s.heap.length).1)⟩
  | acquire {i : TaskId} {r : Request} {a : SlotId} {pc : AcquirePc r} {slot slot' : Slot}
      {next : AcquireNext r} (ht : s.tasks[i]? = some (.acquiring r a pc))
      (hslot : s.heap[a]? = some slot) (hstep : acquireStep i r slot pc = some (slot', next)) :
      Change cfg s (.step i) (s.write i (next.task a) a slot')
  | releaseFound {i : TaskId} {k : ModelCapacityKey} {issued a : SlotId}
      (ht : s.tasks[i]? = some (.releasing k issued .get)) (hget : s.slots.get k = some a) :
      Change cfg s (.step i) (s.put i (.releasing k issued (.fetchSub a)))
  | releaseMissing {i : TaskId} {k : ModelCapacityKey} {issued : SlotId}
      (ht : s.tasks[i]? = some (.releasing k issued .get)) (hget : s.slots.get k = none) :
      Change cfg s (.step i) (s.put i .released)
  | fetchSub {i : TaskId} {k : ModelCapacityKey} {issued a : SlotId} {slot : Slot}
      (ht : s.tasks[i]? = some (.releasing k issued (.fetchSub a))) (hslot : s.heap[a]? = some slot) :
      Change cfg s (.step i)
        (s.write i (.releasing k issued (.notifyOne a)) a { slot with active := slot.active - 1 })
  | notifyOne {i : TaskId} {k : ModelCapacityKey} {issued a : SlotId} {slot : Slot}
      (ht : s.tasks[i]? = some (.releasing k issued (.notifyOne a)))
      (hslot : s.heap[a]? = some slot) :
      Change cfg s (.step i) ((s.write i .released a
        { slot with notify := slot.notify.notifyOne.1 }).wake slot.notify.notifyOne.2)
  | timeout {i : TaskId} {r : Request} {a : SlotId} {pc : AcquirePc r} {slot : Slot} {woken : Bool}
      (ht : s.tasks[i]? = some (.acquiring r a pc)) (hwaits : pc.waiting = some woken)
      (hslot : s.heap[a]? = some slot) :
      Change cfg s (.timeout i) (s.endWait i (.acquiring r a (.leaveQueue false)) a slot woken)
  | cancel {i : TaskId} {r : Request} {a : SlotId} {pc : AcquirePc r} {slot : Slot} {woken : Bool}
      (ht : s.tasks[i]? = some (.acquiring r a pc)) (hwaits : pc.waiting = some woken)
      (hslot : s.heap[a]? = some slot) :
      Change cfg s (.cancel i) (s.endWait i (.cancelled r a) a slot woken)
  | clearShard {i : TaskId} {n : NodeId} {j : ℕ} (ht : s.tasks[i]? = some (.clearing n j)) :
      Change cfg s (.step i) ⟨s.slots.retainShard cfg.shard j fun k => decide (k.nodeId ≠ n),
        s.heap, s.tasks.set i (.clearing n (j + 1))⟩

/-! ### The slot of a step of `acquire` -/

/-- What a step of `acquire` does to its slot: it admits the call, takes a queue place, gives one
back, or leaves the two counters alone. -/
inductive SlotChange {r : Request} (slot : Slot) (pc : AcquirePc r) : Slot → AcquireNext r → Prop
  | raise (below : slot.active < r.concurrency) (hout : pc.inQueue = false) :
      SlotChange slot pc { slot with active := slot.active + 1 } .admitted
  | enqueue {pc' : AcquirePc r} (below : slot.queued < r.maxQueue) (hout : pc.inQueue = false)
      (hin : pc'.inQueue = true) :
      SlotChange slot pc { slot with queued := slot.queued + 1 } (.at pc')
  | dequeue {pc' : AcquirePc r} (hin : pc.inQueue = true) (hout : pc'.inQueue = false) :
      SlotChange slot pc { slot with queued := slot.queued - 1 } (.at pc')
  | keep {pc' : AcquirePc r} {slot' : Slot} (hactive : slot'.active = slot.active)
      (hqueued : slot'.queued = slot.queued) (hin : pc'.inQueue = pc.inQueue) :
      SlotChange slot pc slot' (.at pc')
  | fail {e : AcquireError} (hout : pc.inQueue = false) : SlotChange slot pc slot (.failed e)

theorem slotChange_of_acquireStep {i : TaskId} {r : Request} {slot slot' : Slot} {pc : AcquirePc r}
    {next : AcquireNext r} (h : acquireStep i r slot pc = some (slot', next)) :
    SlotChange slot pc slot' next := by
  cases pc with
  | loadActive =>
      simp only [acquireStep] at h
      split at h <;> obtain ⟨rfl, rfl⟩ := Prod.mk.inj (Option.some.inj h) <;>
        exact SlotChange.keep rfl rfl rfl
  | casActive v hv =>
      simp only [acquireStep] at h
      split at h
      · rename_i heq
        obtain ⟨rfl, rfl⟩ := Prod.mk.inj (Option.some.inj h)
        subst heq
        exact SlotChange.raise hv rfl
      · obtain ⟨rfl, rfl⟩ := Prod.mk.inj (Option.some.inj h)
        exact SlotChange.keep rfl rfl rfl
  | loadQueued v =>
      simp only [acquireStep] at h
      split at h <;> obtain ⟨rfl, rfl⟩ := Prod.mk.inj (Option.some.inj h)
      · exact SlotChange.fail rfl
      · exact SlotChange.keep rfl rfl rfl
  | casQueued v q hq =>
      simp only [acquireStep] at h
      split at h
      · rename_i heq
        obtain ⟨rfl, rfl⟩ := Prod.mk.inj (Option.some.inj h)
        subst heq
        exact SlotChange.enqueue hq rfl rfl
      · obtain ⟨rfl, rfl⟩ := Prod.mk.inj (Option.some.inj h)
        exact SlotChange.keep rfl rfl rfl
  | notified =>
      obtain ⟨rfl, rfl⟩ := Prod.mk.inj (Option.some.inj h)
      refine SlotChange.keep rfl rfl ?_
      split <;> rfl
  | parked => cases h
  | woken =>
      obtain ⟨rfl, rfl⟩ := Prod.mk.inj (Option.some.inj h)
      exact SlotChange.keep rfl rfl rfl
  | leaveQueue ok =>
      obtain ⟨rfl, rfl⟩ := Prod.mk.inj (Option.some.inj h)
      refine SlotChange.dequeue rfl ?_
      split <;> rfl
  | timeoutQueued =>
      obtain ⟨rfl, rfl⟩ := Prod.mk.inj (Option.some.inj h)
      exact SlotChange.keep rfl rfl rfl
  | timeoutActive q =>
      obtain ⟨rfl, rfl⟩ := Prod.mk.inj (Option.some.inj h)
      exact SlotChange.fail rfl

/-- A call that waits is in the queue. -/
theorem inQueue_of_waiting {r : Request} {pc : AcquirePc r} {woken : Bool}
    (h : pc.waiting = some woken) : pc.inQueue = true := by
  cases pc with
  | parked => rfl
  | woken => rfl
  | _ => cases h

/-! ### The inversion, branch by branch -/

/-- The task counts as nothing. -/
def Task.idle : Task → Bool
  | .enter _ | .slotGet _ | .slotEntry _ | .unlimitedGuard _ | .snapActive _ _ _
  | .snapQueued _ _ _ _ | .clearing _ _ | .failed _ | .snapped _ | .released | .cleared => true
  | _ => false

theorem Task.counts_of_idle {t : Task} (h : t.idle = true) (a : SlotId) :
    t.live a = false ∧ t.inQueue a = false ∧ t.left a = false ∧ t.eager a = false ∧
      t.seeks a = false ∧ t.tells a = false := by
  cases t <;> first | exact ⟨rfl, rfl, rfl, rfl, rfl, rfl⟩ | cases h

/-- A task that counts as nothing moves on to one that counts as nothing. -/
theorem Follows.of_idle {t t' : Task} (h : t.idle = true) (h' : t'.idle = true)
    (hrequest : ∀ r, t'.request = some r → t.request = some r)
    (hclear : ∀ n j, t' ≠ .clearing n j) : Follows t t' := by
  have hcounts := fun a => Task.counts_of_idle h a
  have hcounts' := fun a => Task.counts_of_idle h' a
  refine ⟨fun a => ?_, fun a => ?_, fun a => ?_, fun a he => ?_, fun a hs => ?_, fun a => ?_,
    hrequest, fun k a pc hpc => ?_, hclear, fun r a hpc => ?_⟩
  · rw [(hcounts a).1, (hcounts' a).1]
  · rw [(hcounts a).2.1, (hcounts' a).2.1]
  · rw [(hcounts a).2.2.1, (hcounts' a).2.2.1]
  · rw [(hcounts a).2.2.2.1] at he
    cases he
  · rw [(hcounts' a).2.2.2.2.1] at hs
    cases hs
  · rw [(hcounts a).2.2.2.2.2, (hcounts' a).2.2.2.2.2]
  · subst hpc
    cases h'
  · subst hpc
    cases h

/-- The slot handed out by `slot_for` is the only one its caller refers to. -/
theorem refs_withSlot (c : Caller) (a : SlotId) : (c.withSlot a).refs = [(c.key, a)] := by
  cases c <;> rfl

theorem change_of_releaseStep {s s' : State} {i : TaskId} {k : ModelCapacityKey} {issued : SlotId}
    {pc : ReleasePc} (ht : s.tasks[i]? = some (.releasing k issued pc))
    (h : releaseStep s i k issued pc = some s') : Change cfg s (.step i) s' := by
  cases pc with
  | get =>
      simp only [releaseStep] at h
      split at h
      · rename_i a hget
        obtain rfl := Option.some.inj h
        exact Change.releaseFound ht hget
      · rename_i hget
        obtain rfl := Option.some.inj h
        exact Change.releaseMissing ht hget
  | fetchSub a =>
      obtain ⟨slot, hslot, rfl⟩ := Option.map_eq_some_iff.1 h
      exact Change.fetchSub ht hslot
  | notifyOne a =>
      obtain ⟨slot, hslot, rfl⟩ := Option.map_eq_some_iff.1 h
      exact Change.notifyOne ht hslot

/-- The caller of `slot_for` with its slot, at any point of the lookup, follows the caller. -/
theorem follows_withSlot (c : Caller) (a : SlotId) : Follows (.slotGet c) (c.withSlot a) := by
  cases c with
  | acquire r =>
      refine ⟨fun _ => rfl, fun b => ?_, fun _ => rfl, nofun, fun b hb => ?_, fun _ => rfl,
        fun _ h => h, nofun, nofun, nofun⟩
      · simp [Caller.withSlot, Task.inQueue, AcquirePc.inQueue]
      · simp [Caller.withSlot, Task.seeks, AcquirePc.seeks] at hb
  | snapshotWithConcurrency k n => exact Follows.of_idle rfl rfl nofun nofun

theorem change_of_advance {s s' : State} {i : TaskId} {t : Task} (ht : s.tasks[i]? = some t)
    (h : advance cfg s i t = some s') : Change cfg s (.step i) s' := by
  have hact : ∀ j, Action.step i ≠ .cancel j := nofun
  cases t with
  | enter c =>
      have hfollows : Follows (.enter c) (.slotGet c) := by
        refine Follows.of_idle rfl rfl (fun r hr => ?_) nofun
        cases c <;> exact hr
      cases c with
      | acquire r =>
          simp only [advance] at h
          split at h
          · obtain rfl := Option.some.inj h
            exact Change.move ht hact (Follows.of_idle rfl rfl nofun nofun) nofun
          · obtain rfl := Option.some.inj h
            exact Change.move ht hact hfollows nofun
      | snapshotWithConcurrency k n =>
          obtain rfl := Option.some.inj h
          exact Change.move ht hact hfollows nofun
  | slotGet c =>
      simp only [advance] at h
      split at h
      · rename_i a hget
        obtain rfl := Option.some.inj h
        refine Change.move ht hact (follows_withSlot c a) fun p hp => ?_
        rw [refs_withSlot, List.mem_singleton] at hp
        exact Or.inr (by rw [hp, hget])
      · obtain rfl := Option.some.inj h
        refine Change.move ht hact (Follows.of_idle rfl rfl (fun r hr => ?_) nofun) nofun
        cases c <;> exact hr
  | slotEntry c =>
      simp only [advance] at h
      split at h
      · obtain rfl := Option.some.inj h
        exact Change.slotEntry ht
      · cases h
  | acquiring r a pc =>
      obtain ⟨slot, hslot, h⟩ := Option.bind_eq_some_iff.1 h
      obtain ⟨⟨slot', next⟩, hstep, rfl⟩ := Option.map_eq_some_iff.1 h
      exact Change.acquire ht hslot hstep
  | releasing k issued pc => exact change_of_releaseStep ht h
  | snapActive k c a =>
      obtain ⟨slot, -, rfl⟩ := Option.map_eq_some_iff.1 h
      exact Change.move ht hact (Follows.of_idle rfl rfl nofun nofun) fun p hp => Or.inl hp
  | snapQueued k c a active =>
      obtain ⟨slot, -, rfl⟩ := Option.map_eq_some_iff.1 h
      exact Change.move ht hact (Follows.of_idle rfl rfl nofun nofun) nofun
  | clearing n j =>
      simp only [advance] at h
      split at h
      · split at h
        · obtain rfl := Option.some.inj h
          exact Change.clearShard ht
        · cases h
      · obtain rfl := Option.some.inj h
        exact Change.move ht hact (Follows.of_idle rfl rfl nofun nofun) nofun
  | guard k a => cases h
  | unlimitedGuard k => cases h
  | failed e => cases h
  | snapped snap => cases h
  | released => cases h
  | cleared => cases h
  | cancelled r a => cases h

/-! ### The other steps of a task -/

section

variable {s s' : State} {i : TaskId}

/-- A weak compare-exchange fails although the value is the expected one. -/
theorem exists_of_spurious (h : step cfg s (.spurious i) = some s') :
    ∃ (r : Request) (a : SlotId) (pc pc' : AcquirePc r),
      s.tasks[i]? = some (.acquiring r a pc) ∧ spuriousFailure pc = some pc' ∧
        s' = s.put i (.acquiring r a pc') := by
  simp only [step] at h
  split at h
  · rename_i r a pc ht
    obtain ⟨pc', hpc, rfl⟩ := Option.map_eq_some_iff.1 h
    exact ⟨r, a, pc, pc', ht, hpc, rfl⟩
  · cases h

/-- The deadline of a wait passes. -/
theorem exists_of_timeout (h : step cfg s (.timeout i) = some s') :
    ∃ (r : Request) (a : SlotId) (pc : AcquirePc r) (slot : Slot) (woken : Bool),
      s.tasks[i]? = some (.acquiring r a pc) ∧ pc.waiting = some woken ∧ s.heap[a]? = some slot ∧
        s' = s.endWait i (.acquiring r a (.leaveQueue false)) a slot woken := by
  simp only [step] at h
  split at h
  · rename_i r a pc ht
    obtain ⟨woken, hwaits, h⟩ := Option.bind_eq_some_iff.1 h
    obtain ⟨slot, hslot, rfl⟩ := Option.map_eq_some_iff.1 h
    exact ⟨r, a, pc, slot, woken, ht, hwaits, hslot, rfl⟩
  · cases h

/-- A call is dropped while it waits. -/
theorem exists_of_cancel (h : step cfg s (.cancel i) = some s') :
    ∃ (r : Request) (a : SlotId) (pc : AcquirePc r) (slot : Slot) (woken : Bool),
      s.tasks[i]? = some (.acquiring r a pc) ∧ pc.waiting = some woken ∧ s.heap[a]? = some slot ∧
        s' = s.endWait i (.cancelled r a) a slot woken := by
  simp only [step] at h
  split at h
  · rename_i r a pc ht
    obtain ⟨woken, hwaits, h⟩ := Option.bind_eq_some_iff.1 h
    obtain ⟨slot, hslot, rfl⟩ := Option.map_eq_some_iff.1 h
    exact ⟨r, a, pc, slot, woken, ht, hwaits, hslot, rfl⟩
  · cases h

/-- A guard is dropped. -/
theorem exists_of_dropGuard (h : step cfg s (.dropGuard i) = some s') :
    (∃ k a, s.tasks[i]? = some (.guard k a) ∧ s' = s.put i (.releasing k a .get)) ∨
      ∃ k, s.tasks[i]? = some (.unlimitedGuard k) ∧ s' = s.put i .released := by
  simp only [step] at h
  split at h
  · rename_i k a ht
    exact Or.inl ⟨k, a, ht, (Option.some.inj h).symm⟩
  · rename_i k ht
    exact Or.inr ⟨k, ht, (Option.some.inj h).symm⟩
  · cases h

end

/-- **Every step of the tracker is one of the listed changes.** -/
theorem change_of_step {s s' : State} {act : Action} (h : step cfg s act = some s') :
    Change cfg s act s' := by
  cases act with
  | call c =>
      obtain rfl := Option.some.inj h
      exact Change.call c
  | clearNode n =>
      obtain rfl := Option.some.inj h
      exact Change.clearNode n
  | step i =>
      obtain ⟨t, ht, h⟩ := Option.bind_eq_some_iff.1 h
      exact change_of_advance ht h
  | spurious i =>
      obtain ⟨r, a, pc, pc', ht, hpc, rfl⟩ := exists_of_spurious h
      -- both loops go back to the load of the active counter
      obtain ⟨rfl, hq⟩ : pc' = .loadActive ∧ pc.inQueue = false := by
        cases pc <;> simp [spuriousFailure] at hpc <;> exact ⟨hpc.symm, rfl⟩
      refine Change.move ht nofun ⟨fun _ => rfl, fun b => ?_, fun _ => rfl, fun b hb => ?_,
        fun b hb => ?_, fun _ => rfl, fun _ h => h, nofun, nofun, ?_⟩ fun p hp => Or.inl hp
      · simp only [Task.inQueue, hq]
        rfl
      · simp only [Task.eager, Bool.and_eq_true] at hb ⊢
        exact ⟨hb.1, rfl⟩
      · simp [Task.seeks, AcquirePc.seeks] at hb
      · rintro r' a' ⟨⟩
        cases hq
  | timeout i =>
      obtain ⟨r, a, pc, slot, woken, ht, hwaits, hslot, rfl⟩ := exists_of_timeout h
      exact Change.timeout ht hwaits hslot
  | cancel i =>
      obtain ⟨r, a, pc, slot, woken, ht, hwaits, hslot, rfl⟩ := exists_of_cancel h
      exact Change.cancel ht hwaits hslot
  | dropGuard i =>
      rcases exists_of_dropGuard h with ⟨k, a, ht, rfl⟩ | ⟨k, ht, rfl⟩
      · refine Change.move ht nofun
          ⟨fun _ => rfl, fun _ => rfl, fun _ => rfl, nofun, nofun, fun _ => rfl, nofun, ?_, nofun,
            nofun⟩
          fun p hp => Or.inl hp
        rintro _ _ _ ⟨⟩
        rfl
      · exact Change.move ht nofun (Follows.of_idle rfl rfl nofun nofun) nofun

end Capacity
