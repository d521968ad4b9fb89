/-
**Guards and the active counters.**

The drop of a guard looks its slot up by key (`release_inner`), and not by the slot the guard came
from.  As long as the map still holds that slot, the drop takes back exactly what `acquire` added,
and every active counter is the number of live guards issued from its slot.  `clear_node` breaks the
premise: it takes the slot out of the map while guards issued from it are alive, and any later
lookup, a mere snapshot included, puts a fresh slot under the key.  The late drop then subtracts
from the fresh slot, whose counter wraps.

Main definitions:

* `Capacity.CountsLive`, `Capacity.ReleaseExact` — the accounting of the states and of the steps;
* `Capacity.DropFindsSlot` — a guard drop finds its own slot under its key.

Main results:

* `Capacity.exact_step` — a step in which no drop misses its slot keeps the accounting;
* `Capacity.accounting_iff` — **in every run, the accounting is right exactly when every drop finds
  its slot**;
* `Capacity.accounting_breaks` — a run in which it is not.
-/

import SparklRouter.Capacity.References

set_option relaxedAutoImplicit false
set_option autoImplicit false

namespace Capacity

open TaskPool Transition

variable {cfg : Sharding ModelCapacityKey}

/-! ### The accounting -/

/-- The active counter of a slot in the map is the number of live guards issued from it. -/
def CountsLive (s : State) : Prop :=
  ∀ k a, s.slots.get k = some a →
    ∃ slot, s.heap[a]? = some slot ∧ slot.active.toNat = s.liveGuards a

/-- The drop of a guard issued from `issued` goes on to decrement `issued`, and its decrement acts
on that slot only and does not wrap. -/
structure ReleaseExact (s : State) (act : Action) (s' : State) : Prop where
  lookup : ∀ i k issued, act = .step i → s.tasks[i]? = some (.releasing k issued .get) →
    s'.tasks[i]? = some (.releasing k issued (.fetchSub issued))
  decrement : ∀ i k issued a, act = .step i →
    s.tasks[i]? = some (.releasing k issued (.fetchSub a)) →
    ∃ slot, s.heap[issued]? = some slot ∧ slot.active ≠ 0 ∧
      s'.heap = s.heap.set issued { slot with active := slot.active - 1 }

/-- A guard drop that looks its key up finds the slot the guard was issued from: no `clear_node` has
taken it out of the map. -/
def DropFindsSlot (s : State) (act : Action) (_ : State) : Prop :=
  ∀ i k issued, act = .step i → s.tasks[i]? = some (.releasing k issued .get) →
    s.slots.get k = some issued

/-! ### The invariant -/

/-- A guard drop past its lookup is about to decrement the slot of its guard. -/
def OwnTarget (t : Task) : Prop := ∀ k a b, t = .releasing k a (.fetchSub b) → b = a

/-- The accounting invariant: it speaks about every slot, in the map or not. -/
structure Exact (s : State) : Prop where
  inRange : InRange s
  counts : Counts Slot.active Task.live s
  own : ∀ t ∈ s.tasks, OwnTarget t

theorem exact_init : Exact init :=
  ⟨inRange_init, fun a slot h => by simp [init] at h, fun t ht => absurd ht List.not_mem_nil⟩

theorem Exact.countsLive {s : State} (h : Exact s) : CountsLive s := by
  intro k a hget
  have hlt := h.inRange.slots k a hget
  exact ⟨s.heap[a], List.getElem?_eq_getElem hlt, h.counts a _ (List.getElem?_eq_getElem hlt)⟩

/-- The active counter of the slot of a drop that is about to decrement it is positive. -/
theorem Exact.active_pos {s : State} (h : Exact s) {i : TaskId} {k : ModelCapacityKey} {a : SlotId}
    {slot : Slot} (ht : s.tasks[i]? = some (.releasing k a (.fetchSub a)))
    (hslot : s.heap[a]? = some slot) : 1 ≤ slot.active.toNat := by
  rw [h.counts a slot hslot]
  have hle := le_total (w := indicator (Task.live a)) (List.mem_of_getElem? ht)
  rwa [indicator_of (by simp [Task.live])] at hle

/-- What the loop of `acquire` does to the active counter is what its task comes to count as. -/
theorem counts_live_acquire {s : State} {i : TaskId} {r : Request} {a : SlotId} {pc : AcquirePc r}
    {slot slot' : Slot} {next : AcquireNext r} (h : Counts Slot.active Task.live s)
    (ht : s.tasks[i]? = some (.acquiring r a pc)) (hslot : s.heap[a]? = some slot)
    (hstep : acquireStep i r slot pc = some (slot', next)) :
    Counts Slot.active Task.live (s.write i (next.task a) a slot') := by
  cases slotChange_of_acquireStep hstep with
  | raise below hout =>
      refine h.write ht hslot ?_ fun b hb => ?_
      · have hraise := toNat_raise below
        simp only [indicator, AcquireNext.task, Task.live, decide_true, if_true, hraise]
        simp
      · simp [AcquireNext.task, Task.live, hb.symm]
  | enqueue below hout hin => exact h.write ht hslot rfl fun _ _ => rfl
  | dequeue hin hout => exact h.write ht hslot rfl fun _ _ => rfl
  | keep hactive hqueued hin =>
      refine h.write ht hslot ?_ fun _ _ => rfl
      rw [hactive]
      rfl
  | fail hout => exact h.write ht hslot rfl fun _ _ => rfl

/-- The decrement of a drop, with the task that ceases to count as live. -/
theorem counts_live_fetchSub {s : State} (h : Exact s) {i : TaskId} {k : ModelCapacityKey}
    {a : SlotId} {slot : Slot} (ht : s.tasks[i]? = some (.releasing k a (.fetchSub a)))
    (hslot : s.heap[a]? = some slot) :
    Counts Slot.active Task.live (s.write i (.releasing k a (.notifyOne a)) a
      { slot with active := slot.active - 1 }) := by
  have hpos := h.active_pos ht hslot
  refine h.counts.write ht hslot ?_ fun b hb => ?_
  · have hlower := toNat_lower hpos
    simp only [indicator, Task.live, decide_true, if_true, hlower]
    simp only [Bool.false_eq_true, if_false]
    omega
  · simp [Task.live, hb.symm]

/-- A slot allocated for a lookup starts with the right counters. -/
theorem counts_alloc {f : Slot → UInt32} {p : SlotId → Task → Bool} {s : State} (h : Counts f p s)
    (hrange : InRange s) (hp : ∀ t a, p a t = true → ∃ k, (k, a) ∈ t.refs) {i : TaskId} {c : Caller}
    (ht : s.tasks[i]? = some (.slotEntry c)) (hnew : (f Slot.new).toNat = 0)
    (hcaller : ∀ a b, p b (c.withSlot a) = p b (.slotEntry c))
    (m : ShardMap ModelCapacityKey SlotId) (a : SlotId) :
    Counts f p ⟨m, s.heap ++ [Slot.new], s.tasks.set i (c.withSlot a)⟩ :=
  h.alloc ht (hcaller a) hnew (count_fresh hrange hp) m

theorem live_withSlot (c : Caller) (a b : SlotId) :
    (c.withSlot a).live b = (Task.slotEntry c).live b := by
  cases c <;> rfl

/-- A step keeps every counter equal to the number of live guards. -/
theorem counts_live_step {s s' : State} {act : Action} (h : Exact s)
    (hchange : Change cfg s act s') (hfinds : DropFindsSlot s act s') :
    Counts Slot.active Task.live s' := by
  cases hchange with
  | call c => exact h.counts.spawn fun _ => rfl
  | clearNode n => exact h.counts.spawn fun _ => rfl
  | move ht _ hfollows _ => exact h.counts.put ht hfollows.live
  | @slotEntry i c ht =>
      exact counts_alloc h.counts h.inRange (fun t a => mem_refs_of_live) ht rfl (live_withSlot c)
        _ _
  | acquire ht hslot hacq => exact counts_live_acquire h.counts ht hslot hacq
  | releaseFound ht hget => exact h.counts.put ht fun _ => rfl
  | @releaseMissing i k issued ht hget =>
      -- the drop would end without a decrement, but it does find its slot
      have hfound := hfinds i k issued rfl ht
      rw [hget] at hfound
      cases hfound
  | fetchSub ht hslot =>
      obtain rfl := h.own _ (List.mem_of_getElem? ht) _ _ _ rfl
      exact counts_live_fetchSub h ht hslot
  | notifyOne ht hslot =>
      refine Counts.wake ?_ (fun _ _ _ => rfl) _
      exact h.counts.write ht hslot rfl fun _ _ => rfl
  | timeout ht hwaits hslot =>
      refine Counts.wake ?_ (fun _ _ _ => rfl) _
      exact h.counts.write ht hslot rfl fun _ _ => rfl
  | cancel ht hwaits hslot =>
      refine Counts.wake ?_ (fun _ _ _ => rfl) _
      exact h.counts.write ht hslot rfl fun _ _ => rfl
  | clearShard ht => exact h.counts.put ht fun _ => rfl

/-- A drop that finds its slot keeps it as its target. -/
theorem own_step {s s' : State} {act : Action} (h : ∀ t ∈ s.tasks, OwnTarget t)
    (hchange : Change cfg s act s') (hfinds : DropFindsSlot s act s') :
    ∀ t ∈ s'.tasks, OwnTarget t := by
  cases hchange with
  | call c => exact forall_spawn h nofun
  | clearNode n => exact forall_spawn h nofun
  | move ht _ hfollows _ =>
      refine forall_set h rfl ?_
      intro k a b hc
      cases hfollows.drop _ _ _ hc
  | @slotEntry i c ht =>
      refine forall_set h rfl ?_
      intro k a b hc
      cases c <;> cases hc
  | @acquire i r a pc slot slot' next ht hslot hacq =>
      refine forall_set h rfl ?_
      intro k b c hc
      cases next <;> cases hc
  | @releaseFound i k issued a ht hget =>
      refine forall_set h rfl ?_
      have hfound := hfinds i k issued rfl ht
      obtain rfl := Option.some.inj (hget.symm.trans hfound)
      rintro _ _ _ ⟨⟩
      rfl
  | releaseMissing ht hget => exact forall_set h rfl nofun
  | fetchSub ht hslot => exact forall_set h rfl nofun
  | notifyOne ht hslot =>
      refine forall_wake ?_ (fun _ _ _ => nofun) _
      exact forall_set h rfl nofun
  | timeout ht hwaits hslot =>
      refine forall_wake ?_ (fun _ _ _ => nofun) _
      exact forall_set h rfl nofun
  | cancel ht hwaits hslot =>
      refine forall_wake ?_ (fun _ _ _ => nofun) _
      exact forall_set h rfl nofun
  | clearShard ht => exact forall_set h rfl nofun

/-- **A step in which no drop misses its slot keeps the accounting.** -/
theorem exact_step {s s' : State} {act : Action} (h : Exact s) (hstep : step cfg s act = some s')
    (hfinds : DropFindsSlot s act s') : Exact s' :=
  have hchange := change_of_step hstep
  ⟨inRange_step h.inRange hstep, counts_live_step h hchange hfinds, own_step h.own hchange hfinds⟩

/-- The lookup of a drop that finds the slot `a`. -/
theorem step_release_get {s s' : State} {i : TaskId} {k : ModelCapacityKey} {issued a : SlotId}
    (ht : s.tasks[i]? = some (.releasing k issued .get)) (hget : s.slots.get k = some a)
    (hstep : step cfg s (.step i) = some s') :
    s'.tasks[i]? = some (.releasing k issued (.fetchSub a)) := by
  have hput : some (s.put i (.releasing k issued (.fetchSub a))) = some s' := by
    rw [← hstep]
    simp only [step, ht, Option.bind_some, advance, releaseStep, hget]
  obtain rfl := Option.some.inj hput
  exact getElem?_set_self ht _

/-- The decrement of a drop. -/
theorem step_release_fetchSub {s s' : State} {i : TaskId} {k : ModelCapacityKey}
    {issued a : SlotId} (ht : s.tasks[i]? = some (.releasing k issued (.fetchSub a)))
    (hstep : step cfg s (.step i) = some s') :
    ∃ slot, s.heap[a]? = some slot ∧
      s'.heap = s.heap.set a { slot with active := slot.active - 1 } := by
  simp only [step, ht, Option.bind_some, advance, releaseStep] at hstep
  obtain ⟨slot, hslot, rfl⟩ := Option.map_eq_some_iff.1 hstep
  exact ⟨slot, hslot, rfl⟩

theorem releaseExact_of_step {s s' : State} {act : Action} (h : Exact s)
    (hstep : step cfg s act = some s') (hfinds : DropFindsSlot s act s') :
    ReleaseExact s act s' where
  lookup := by
    rintro i k issued rfl ht
    exact step_release_get ht (hfinds i k issued rfl ht) hstep
  decrement := by
    rintro i k issued a rfl ht
    obtain rfl := h.own _ (List.mem_of_getElem? ht) _ _ _ rfl
    obtain ⟨slot, hslot, hheap⟩ := step_release_fetchSub ht hstep
    refine ⟨slot, hslot, ?_, hheap⟩
    intro hzero
    have hpos := h.active_pos ht hslot
    rw [hzero] at hpos
    exact absurd hpos (by decide)

/-- A drop whose lookup goes on to decrement its own slot has found that slot. -/
theorem dropFindsSlot_of_releaseExact {s s' : State} {act : Action}
    (hstep : step cfg s act = some s') (h : ReleaseExact s act s') : DropFindsSlot s act s' := by
  rintro i k issued rfl ht
  have htarget := h.lookup i k issued rfl ht
  cases hget : s.slots.get k with
  | some a =>
      have hfound := step_release_get ht hget hstep
      rw [htarget] at hfound
      obtain rfl : issued = a := by simpa using hfound
      rfl
  | none =>
      exfalso
      have hput : some (s.put i .released) = some s' := by
        rw [← hstep]
        simp only [step, ht, Option.bind_some, advance, releaseStep, hget]
      obtain rfl := Option.some.inj hput
      rw [State.put, getElem?_set_self ht] at htarget
      cases htarget

/-! ### Runs -/

/-- **The accounting of a run.**  In every run of the tracker, the active counters are right in
every state and every drop is exact, if and only if every drop finds under its key the slot its
guard was issued from. -/
theorem accounting_iff (cfg : Sharding ModelCapacityKey) (as : List Action) :
    (Always (step cfg) CountsLive init as ∧ Throughout (step cfg) ReleaseExact init as) ↔
      Throughout (step cfg) DropFindsSlot init as := by
  constructor
  · rintro ⟨-, hexact⟩
    refine hexact.of_step ?_
    intro s act s' hstep h
    exact dropFindsSlot_of_releaseExact hstep h
  · intro hfinds
    refine ⟨?_, ?_⟩
    · have hinv : Always (step cfg) Exact init as :=
        always_of_step (fun s a s' => exact_step) exact_init hfinds
      exact hinv.mono fun s => Exact.countsLive
    · exact throughout_of_step (fun s a s' => exact_step) (fun s a s' => releaseExact_of_step)
        exact_init hfinds

/-- The key of the run below. -/
def sampleKey : ModelCapacityKey := ⟨List.Vector.replicate 32 1, "test-model".toList⟩

/-- Two shards, with every key in the first. -/
def twoShards : Sharding ModelCapacityKey := ⟨2, fun _ => 0, fun _ => by decide⟩

/-- A request is admitted, its node disconnects and is cleared, a snapshot puts a fresh slot under
the key, and then the request ends. -/
def lateDrop : List Action :=
  [.call (.acquire ⟨sampleKey, 1, 1⟩), .step 0, .step 0, .step 0, .step 0, .step 0,
    .clearNode sampleKey.nodeId, .step 1, .step 1, .step 1,
    .call (.snapshotWithConcurrency sampleKey 1), .step 2, .step 2, .step 2, .step 2, .step 2,
    .dropGuard 0, .step 0, .step 0]

/-- The entry of the key, the counter of its slot, and the number of guards issued from it. -/
def observeSlot (s : State) : Option SlotId × Option UInt32 × ℕ :=
  (s.slots.get sampleKey, (s.heap[1]?).map Slot.active, s.liveGuards 1)

theorem observe_lateDrop :
    (run (step twoShards) init lateDrop).map observeSlot = some (some 1, some 4294967295, 0) := by
  decide

/-- **The accounting does not survive every disconnect**: after the late drop the counter of the
fresh slot, from which no guard was issued, is the largest value. -/
theorem accounting_breaks :
    ¬ ∀ (cfg : Sharding ModelCapacityKey) (as : List Action),
      Always (step cfg) CountsLive init as ∧ Throughout (step cfg) ReleaseExact init as := by
  intro h
  obtain ⟨s, hs, hobs⟩ := (h twoShards lateDrop).1.observe observe_lateDrop
  obtain ⟨hget, hactive, hlive⟩ : s.slots.get sampleKey = some 1 ∧
      (s.heap[1]?).map Slot.active = some 4294967295 ∧ s.liveGuards 1 = 0 := by
    simpa [observeSlot] using hobs
  obtain ⟨slot, hslot, hcount⟩ := hs sampleKey 1 hget
  have hmax : slot.active = 4294967295 := by simpa [hslot] using hactive
  rw [hlive, hmax] at hcount
  exact absurd hcount (by decide)

end Capacity
