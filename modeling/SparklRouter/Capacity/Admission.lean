/-
**Admission: what the tracker guarantees while no node is cleared and no future is dropped.**

The loop of `acquire` reads a counter, compares it with its own limit, and raises it by a
compare-exchange; the calls bring limits of their own, and a slot is created by whichever call comes
first.  As long as nothing takes a slot out of the map, all of it happens on one slot per key, and
the two counters of that slot are the live guards of the key and the calls in its queue.  The bounds
follow at the compare-exchange: a counter is raised only from a value seen below the limit.

Main definitions:

* `Capacity.KeyExact` — the counters of a key in one state;
* `Capacity.AdmitsWithin`, `Capacity.QueuedWithin` — the two bounds;
* `Capacity.Shared` — the invariant.

Main results:

* `Capacity.shared_step` — every step but those of `clear_node` and of a dropped future keeps the
  invariant;
* `Capacity.admission_bound` — **the bounds in every run without the two**.
-/

import SparklRouter.Capacity.Queue

set_option relaxedAutoImplicit false
set_option autoImplicit false

namespace Capacity

open TaskPool Transition

variable {cfg : Sharding ModelCapacityKey}

/-! ### The guarantees -/

/-- Whether the task is a tracked guard for the key whose drop has not decremented a counter yet. -/
def Task.liveFor (k : ModelCapacityKey) : Task → Bool
  | .guard j _ => decide (j = k)
  | .releasing j _ .get => decide (j = k)
  | .releasing j _ (.fetchSub _) => decide (j = k)
  | _ => false

/-- Whether the task is an `acquire` for the key between its queue compare-exchange and the matching
subtraction. -/
def Task.waitsFor (k : ModelCapacityKey) : Task → Bool
  | .acquiring r _ pc => decide (r.key = k) && pc.inQueue
  | _ => false

/-- Whether the task is an `acquire` for the key that has not returned, or a live guard for it. -/
def Task.busy (k : ModelCapacityKey) (t : Task) : Bool :=
  t.liveFor k || t.request.any fun r => decide (r.key = k)

/-- All that works on the key works on one slot, which belongs to no other key and counts the live
guards of the key and the calls in its queue; when nothing works on the key, both counters are 0. -/
structure KeyExact (s : State) (k : ModelCapacityKey) : Prop where
  shared : ∀ t ∈ s.tasks, ∀ a, (k, a) ∈ t.refs → s.slots.get k = some a
  unique : ∀ j a, s.slots.get k = some a → s.slots.get j = some a → j = k
  counters : ∀ a, s.slots.get k = some a → ∃ slot, s.heap[a]? = some slot ∧
    slot.active.toNat = s.count (Task.liveFor k) ∧ slot.queued.toNat = s.count (Task.waitsFor k)
  quiet : (∀ t ∈ s.tasks, t.busy k = false) → ∀ a, s.slots.get k = some a →
    ∃ slot, s.heap[a]? = some slot ∧ slot.active = 0 ∧ slot.queued = 0

/-- A call that returns a guard has at most as many live guards for its key as its `concurrency`,
its own included. -/
def AdmitsWithin (s : State) (act : Action) (s' : State) : Prop :=
  ∀ i r a (pc : AcquirePc r) b, act = .step i → s.tasks[i]? = some (.acquiring r a pc) →
    s'.tasks[i]? = some (.guard r.key b) → s'.count (Task.liveFor r.key) ≤ r.concurrency.toNat

/-- The slot of a key stays its slot. -/
def KeepsSlots (s : State) (_ : Action) (s' : State) : Prop :=
  ∀ k a, s.slots.get k = some a → s'.slots.get k = some a

/-- The queued counter of the key is at most `M`. -/
def QueuedWithin (k : ModelCapacityKey) (M : ℕ) (s : State) : Prop :=
  ∀ a slot, s.slots.get k = some a → s.heap[a]? = some slot → slot.queued.toNat ≤ M

/-- Neither a `clear_node` nor the drop of a waiting future. -/
def Action.calm : Action → Bool
  | .clearNode _ => false
  | .cancel _ => false
  | _ => true

/-! ### The invariant -/

/-- Every reference is the entry of its key in the map, distinct keys have distinct slots, and
nothing clears. -/
structure Mapped (s : State) : Prop where
  inRange : InRange s
  refs : ∀ t ∈ s.tasks, ∀ p ∈ t.refs, s.slots.get p.1 = some p.2
  unique : ∀ j k a, s.slots.get j = some a → s.slots.get k = some a → j = k
  noneClears : ∀ t ∈ s.tasks, ∀ n j, t ≠ .clearing n j

theorem mapped_init : Mapped init where
  inRange := inRange_init
  refs t ht := absurd ht List.not_mem_nil
  unique j k a h := by cases h
  noneClears t ht := absurd ht List.not_mem_nil

/-- Every reference is the entry of its key in the map, distinct keys have distinct slots, and the
counters are exact. -/
structure Shared (s : State) : Prop where
  exact : Exact s
  occupied : Occupied s
  refs : ∀ t ∈ s.tasks, ∀ p ∈ t.refs, s.slots.get p.1 = some p.2
  unique : ∀ j k a, s.slots.get j = some a → s.slots.get k = some a → j = k
  noneClears : ∀ t ∈ s.tasks, ∀ n j, t ≠ .clearing n j
  noneLeft : ∀ a, s.abandoned a = 0

theorem shared_init : Shared init where
  exact := exact_init
  occupied := occupied_init
  refs := mapped_init.refs
  unique := mapped_init.unique
  noneClears := mapped_init.noneClears
  noneLeft _ := rfl

theorem Shared.mapped {s : State} (h : Shared s) : Mapped s :=
  ⟨h.exact.inRange, h.refs, h.unique, h.noneClears⟩

/-- With nothing clearing, an entry of the map stays. -/
theorem slots_kept {s s' : State} {act : Action} (hclear : ∀ t ∈ s.tasks, ∀ n j, t ≠ .clearing n j)
    (hchange : Change cfg s act s') : KeepsSlots s act s' := by
  intro k a hget
  cases hchange with
  | @slotEntry i c ht =>
      cases hc : s.slots.get c.key with
      | some b =>
          rw [ShardMap.entryOrInsert_of_some hc]
          exact hget
      | none =>
          have hk : k ≠ c.key := by
            rintro rfl
            rw [hc] at hget
            cases hget
          rw [ShardMap.entryOrInsert_of_none hc, ShardMap.get_insert_of_ne _ _ hk]
          exact hget
  | clearShard ht => exact absurd rfl (hclear _ (List.mem_of_getElem? ht) _ _)
  | notifyOne ht hslot =>
      rw [State.slots_wake]
      exact hget
  | timeout ht hwaits hslot =>
      rw [State.endWait, State.slots_wake]
      exact hget
  | cancel ht hwaits hslot =>
      rw [State.endWait, State.slots_wake]
      exact hget
  | _ => exact hget

/-- Without `clear_node`, nothing starts to clear. -/
theorem noneClears_step {s s' : State} {act : Action}
    (h : ∀ t ∈ s.tasks, ∀ n j, t ≠ .clearing n j) (hact : ∀ n, act ≠ .clearNode n)
    (hchange : Change cfg s act s') : ∀ t ∈ s'.tasks, ∀ n j, t ≠ .clearing n j := by
  cases hchange with
  | call c => exact forall_spawn h nofun
  | clearNode n => exact absurd rfl (hact n)
  | move ht _ hfollows _ => exact forall_set h rfl hfollows.clear
  | @slotEntry i c ht =>
      refine forall_set h rfl ?_
      cases c <;> nofun
  | @acquire i r a pc slot slot' next ht hslot hacq =>
      refine forall_set h rfl ?_
      cases next <;> nofun
  | releaseFound ht hget => exact forall_set h rfl nofun
  | releaseMissing ht hget => exact forall_set h rfl nofun
  | fetchSub ht hslot => exact forall_set h rfl nofun
  | notifyOne ht hslot =>
      refine forall_wake ?_ (fun _ _ _ => nofun) _
      exact forall_set h rfl nofun
  | timeout ht hwaits hslot =>
      refine forall_wake ?_ (fun _ _ _ => nofun) _
      exact forall_set h rfl nofun
  | cancel ht hwaits hslot =>
      refine forall_wake ?_ (fun _ _ _ => nofun) _
      exact forall_set h rfl nofun
  | clearShard ht => exact absurd rfl (h _ (List.mem_of_getElem? ht) _ _)

/-- Every step but that of `clear_node` keeps the map. -/
theorem mapped_step {s s' : State} {act : Action} (h : Mapped s) (hstep : step cfg s act = some s')
    (hact : ∀ n, act ≠ .clearNode n) : Mapped s' := by
  have hchange := change_of_step hstep
  have hkept := slots_kept h.noneClears hchange
  refine ⟨inRange_step h.inRange hstep, ?_, ?_, noneClears_step h.noneClears hact hchange⟩
  · intro t' ht' p hp
    rcases refs_of_change hchange t' ht' p hp with ⟨t, ht, hp⟩ | hget
    · exact hkept _ _ (h.refs t ht p hp)
    · exact hget
  · intro j k a hj hk
    -- at most one of the two entries is new, and a new slot is not in the old map
    have hold : ∀ l, s.slots.get l = some a → a < s.heap.length := fun l => h.inRange.slots l a
    rcases slots_of_change hchange hj with hj | ⟨i, c, rfl, hc, rfl, hja, -⟩
    · rcases slots_of_change hchange hk with hk | ⟨i, c, -, -, -, hka, -⟩
      · exact h.unique j k a hj hk
      · exact absurd hka (Nat.ne_of_lt (hold j hj))
    · rcases slots_of_change hchange hk with hk | ⟨i', c', heq, hc', rfl, -, -⟩
      · exact absurd hja (Nat.ne_of_lt (hold k hk))
      · obtain rfl := Action.step.inj heq
        obtain ⟨rfl⟩ := hc.symm.trans hc'
        rfl

/-- Under the invariant every drop finds its slot. -/
theorem Shared.dropFindsSlot {s s' : State} {act : Action} (h : Shared s) :
    DropFindsSlot s act s' := by
  rintro i k issued - ht
  exact h.refs _ (List.mem_of_getElem? ht) (k, issued) (List.mem_cons_self ..)

/-- **Every step but those of `clear_node` and of a dropped future keeps the invariant.** -/
theorem shared_step {s s' : State} {act : Action} (h : Shared s) (hstep : step cfg s act = some s')
    (hcalm : act.calm = true) : Shared s' := by
  have hclear : ∀ n, act ≠ .clearNode n := by
    rintro n rfl
    cases hcalm
  have hmapped := mapped_step h.mapped hstep hclear
  refine ⟨exact_step h.exact hstep h.dropFindsSlot, occupied_step h.occupied hstep, hmapped.refs,
    hmapped.unique, hmapped.noneClears, fun a => ?_⟩
  rw [abandoned_step hstep ?_ a, h.noneLeft a]
  rintro i rfl
  cases hcalm

/-! ### The counters of a key -/

/-- Two entries of the map have the same slot exactly when they have the same key. -/
theorem Shared.slot_eq_iff {s : State} (h : Shared s) {j k : ModelCapacityKey} {a b : SlotId}
    (hj : s.slots.get j = some b) (hk : s.slots.get k = some a) : b = a ↔ j = k := by
  constructor
  · rintro rfl
    exact h.unique j k b hj hk
  · rintro rfl
    exact Option.some.inj (hj.symm.trans hk)

theorem Shared.live_eq_liveFor {s : State} (h : Shared s) {k : ModelCapacityKey} {a : SlotId}
    (hk : s.slots.get k = some a) {t : Task} (ht : t ∈ s.tasks) : t.live a = t.liveFor k := by
  have hrefs := h.refs t ht
  cases t with
  | guard j b =>
      have hj := hrefs (j, b) (List.mem_cons_self ..)
      simp only [Task.live, Task.liveFor, h.slot_eq_iff hj hk]
  | releasing j b pc =>
      cases pc with
      | get =>
          have hj := hrefs (j, b) (List.mem_cons_self ..)
          simp only [Task.live, Task.liveFor, h.slot_eq_iff hj hk]
      | fetchSub c =>
          have hj := hrefs (j, b) (List.mem_cons_self ..)
          simp only [Task.live, Task.liveFor, h.slot_eq_iff hj hk]
      | notifyOne c => rfl
  | _ => rfl

theorem Shared.inQueue_eq_waitsFor {s : State} (h : Shared s) {k : ModelCapacityKey} {a : SlotId}
    (hk : s.slots.get k = some a) {t : Task} (ht : t ∈ s.tasks) : t.inQueue a = t.waitsFor k := by
  have hrefs := h.refs t ht
  cases t with
  | acquiring r b pc =>
      have hj := hrefs (r.key, b) (List.mem_cons_self ..)
      simp only [Task.inQueue, Task.waitsFor, h.slot_eq_iff hj hk]
  | _ => rfl

/-- The counters of the slot of a key count the tasks of the key. -/
theorem Shared.counters {s : State} (h : Shared s) {k : ModelCapacityKey} {a : SlotId} {slot : Slot}
    (hk : s.slots.get k = some a) (hslot : s.heap[a]? = some slot) :
    slot.active.toNat = s.count (Task.liveFor k) ∧
      slot.queued.toNat = s.count (Task.waitsFor k) := by
  constructor
  · rw [h.exact.counts a slot hslot]
    refine total_congr fun t ht => ?_
    simp only [indicator, h.live_eq_liveFor hk ht]
  · rw [h.occupied.queued hslot, h.noneLeft a, Nat.add_zero]
    refine total_congr fun t ht => ?_
    simp only [indicator, h.inQueue_eq_waitsFor hk ht]

theorem waitsFor_request {k : ModelCapacityKey} {t : Task} (h : t.waitsFor k = true) :
    (t.request.any fun r => decide (r.key = k)) = true := by
  cases t with
  | acquiring r a pc =>
      simp only [Task.waitsFor, Bool.and_eq_true] at h
      exact h.1
  | _ => cases h

theorem Shared.keyExact {s : State} (h : Shared s) (k : ModelCapacityKey) : KeyExact s k := by
  have hslot : ∀ a, s.slots.get k = some a → ∃ slot, s.heap[a]? = some slot := fun a ha =>
    ⟨_, List.getElem?_eq_getElem (h.exact.inRange.slots k a ha)⟩
  refine ⟨fun t ht a hp => h.refs t ht _ hp, fun j a hk hj => h.unique j k a hj hk, ?_, ?_⟩
  · intro a ha
    obtain ⟨slot, hs⟩ := hslot a ha
    exact ⟨slot, hs, h.counters ha hs⟩
  · intro hquiet a ha
    obtain ⟨slot, hs⟩ := hslot a ha
    obtain ⟨hactive, hqueued⟩ := h.counters ha hs
    have hlive : s.count (Task.liveFor k) = 0 := by
      refine total_eq_zero.2 fun t ht => indicator_of_not ?_
      have hbusy := hquiet t ht
      simp only [Task.busy, Bool.or_eq_false_iff] at hbusy
      exact hbusy.1
    have hwaits : s.count (Task.waitsFor k) = 0 := by
      refine total_eq_zero.2 fun t ht => ?_
      cases hw : t.waitsFor k with
      | false => exact indicator_of_not hw
      | true =>
          exfalso
          have hbusy := hquiet t ht
          simp [Task.busy, waitsFor_request hw] at hbusy
    rw [hlive] at hactive
    rw [hwaits] at hqueued
    exact ⟨slot, hs, UInt32.toNat_inj.1 hactive, UInt32.toNat_inj.1 hqueued⟩

/-! ### The bounds -/

/-- The compare-exchange that admits a call raises the counter from below the call's limit. -/
theorem admitsWithin_of_step {s s' : State} {act : Action} (h : Shared s)
    (hstep : step cfg s act = some s') (hcalm : act.calm = true) : AdmitsWithin s act s' := by
  rintro i r a pc b rfl ht hguard
  have hshared := shared_step h hstep hcalm
  simp only [step, ht, Option.bind_some, advance] at hstep
  obtain ⟨slot, hslot, hstep⟩ := Option.bind_eq_some_iff.1 hstep
  obtain ⟨⟨slot', next⟩, hacq, rfl⟩ := Option.map_eq_some_iff.1 hstep
  have hnext : next.task a = .guard r.key b :=
    Option.some.inj ((getElem?_set_self ht _).symm.trans hguard)
  have hk : s.slots.get r.key = some a :=
    h.refs _ (List.mem_of_getElem? ht) _ (List.mem_cons_self ..)
  cases slotChange_of_acquireStep hacq with
  | raise below hout =>
      have hslot' := getElem?_set_self hslot { slot with active := slot.active + 1 }
      have hcount := (hshared.counters hk hslot').1
      have hbelow := UInt32.lt_iff_toNat_lt.1 below
      rw [← hcount, toNat_raise below]
      exact hbelow
  | _ => cases hnext

/-- Every request for the key that is in progress has a `max_queue` of at most `M`. -/
def RequestsWithin (k : ModelCapacityKey) (M : ℕ) (t : Task) : Prop :=
  ∀ r, t.request = some r → r.key = k → r.maxQueue.toNat ≤ M

/-- The calls of a schedule for the key bring a `max_queue` of at most `M`. -/
def Action.queueWithin (k : ModelCapacityKey) (M : ℕ) (act : Action) : Prop :=
  ∀ r, act = .call (.acquire r) → r.key = k → r.maxQueue.toNat ≤ M

/-- The limit on the requests in progress is that on the calls. -/
theorem requestsWithin_step {k : ModelCapacityKey} {M : ℕ} {s s' : State} {act : Action}
    (h : ∀ t ∈ s.tasks, RequestsWithin k M t) (hact : act.queueWithin k M)
    (hchange : Change cfg s act s') : ∀ t ∈ s'.tasks, RequestsWithin k M t :=
  requests_of_change h hact hchange

/-- Reading the slot of a key after one slot was written. -/
theorem queuedWithin_write {k : ModelCapacityKey} {M : ℕ} {s : State} {i : TaskId} {t : Task}
    {b : SlotId} {slot slot' : Slot} (h : QueuedWithin k M s) (hb : s.heap[b]? = some slot)
    (hle : s.slots.get k = some b → slot.queued.toNat ≤ M → slot'.queued.toNat ≤ M) :
    QueuedWithin k M (s.write i t b slot') := by
  intro a slot₁ hget hslot₁
  rcases getElem?_set_cases hslot₁ with ⟨rfl, rfl⟩ | ⟨-, hold⟩
  · exact hle hget (h b slot hget hb)
  · exact h a slot₁ hget hold

theorem queuedWithin_wake {k : ModelCapacityKey} {M : ℕ} {s : State} (h : QueuedWithin k M s)
    (o : Option TaskId) : QueuedWithin k M (s.wake o) := by
  intro a slot hget hslot
  rw [State.slots_wake] at hget
  rw [State.heap_wake] at hslot
  exact h a slot hget hslot

/-- A fresh slot has an empty queue, and the slots that were there keep theirs. -/
theorem queuedWithin_slotEntry {k : ModelCapacityKey} {M : ℕ} {s : State} (h : QueuedWithin k M s)
    (c : Caller) (tasks : List Task) :
    QueuedWithin k M ⟨(s.slots.entryOrInsert c.key s.heap.length).2, s.heap ++ [Slot.new], tasks⟩ := by
  intro a slot hget hslot
  rcases getElem?_append_cases hslot with ⟨rfl, rfl⟩ | hslot
  · exact Nat.zero_le M
  · have hlt : a < s.heap.length := (List.getElem?_eq_some_iff.1 hslot).1
    dsimp only at hget
    cases hc : s.slots.get c.key with
    | some b =>
        rw [ShardMap.entryOrInsert_of_some hc] at hget
        exact h a slot hget hslot
    | none =>
        rw [ShardMap.entryOrInsert_of_none hc, ShardMap.get_insert] at hget
        split at hget
        · exact absurd (Option.some.inj hget).symm (Nat.ne_of_lt hlt)
        · exact h a slot hget hslot

/-- **A step keeps the queued counter of a key within the largest limit of its requests.** -/
theorem queuedWithin_step {k : ModelCapacityKey} {M : ℕ} {s s' : State} {act : Action}
    (h : Shared s) (hrequests : ∀ t ∈ s.tasks, RequestsWithin k M t) (hM : QueuedWithin k M s)
    (hcalm : act.calm = true) (hchange : Change cfg s act s') : QueuedWithin k M s' := by
  cases hchange with
  | call c => exact hM
  | clearNode n => cases hcalm
  | move ht _ _ _ => exact hM
  | @slotEntry i c ht => exact queuedWithin_slotEntry hM c _
  | @acquire i r a pc slot slot' next ht hslot hacq =>
      refine queuedWithin_write hM hslot fun hget hold => ?_
      have hkey : r.key = k :=
        h.unique _ _ a (h.refs _ (List.mem_of_getElem? ht) _ (List.mem_cons_self ..)) hget
      cases slotChange_of_acquireStep hacq with
      | raise below hout => exact hold
      | enqueue below hout hin =>
          have hlimit := hrequests _ (List.mem_of_getElem? ht) r rfl hkey
          have hbelow := UInt32.lt_iff_toNat_lt.1 below
          rw [toNat_raise below]
          omega
      | dequeue hin hout =>
          rw [toNat_lower (queued_pos h.occupied.counts ht hslot hin)]
          omega
      | keep hactive hqueued hin =>
          rw [hqueued]
          exact hold
      | fail hout => exact hold
  | releaseFound ht hget => exact hM
  | releaseMissing ht hget => exact hM
  | fetchSub ht hslot => exact queuedWithin_write hM hslot fun _ hold => hold
  | notifyOne ht hslot =>
      refine queuedWithin_wake ?_ _
      exact queuedWithin_write hM hslot fun _ hold => hold
  | timeout ht hwaits hslot =>
      refine queuedWithin_wake ?_ _
      exact queuedWithin_write hM hslot fun _ hold => hold
  | cancel ht hwaits hslot => cases hcalm
  | clearShard ht => exact absurd rfl (h.noneClears _ (List.mem_of_getElem? ht) _ _)

/-! ### Runs -/

/-- **The admission bound.**  In every run without a `clear_node` and without a dropped future: all
that works on a key works on the one slot the map holds for it, the counters of the slot are the
live guards of the key and the calls in its queue, and both are 0 when nothing works on the key; a
call that returns a guard has at most `concurrency` live guards for its key; a slot stays the slot
of its key; and the queued counter of a key never exceeds a bound on the `max_queue` of its
calls. -/
theorem admission_bound (cfg : Sharding ModelCapacityKey) (as : List Action)
    (hcalm : ∀ act ∈ as, act.calm = true) :
    Always (step cfg) (fun s => ∀ k, KeyExact s k) init as ∧
      Throughout (step cfg) AdmitsWithin init as ∧
      Throughout (step cfg) KeepsSlots init as ∧
      ∀ k M, (∀ r, Action.call (.acquire r) ∈ as → r.key = k → r.maxQueue.toNat ≤ M) →
        Always (step cfg) (QueuedWithin k M) init as := by
  have hrun : Throughout (step cfg) (fun _ act _ => act.calm = true) init as :=
    throughout_of_forall_mem hcalm init
  refine ⟨?_, ?_, ?_, ?_⟩
  · have hinv : Always (step cfg) Shared init as :=
      always_of_step (fun s act s' => shared_step) shared_init hrun
    exact hinv.mono fun s hs k => hs.keyExact k
  · exact throughout_of_step (fun s act s' => shared_step) (fun s act s' => admitsWithin_of_step)
      shared_init hrun
  · refine throughout_of_step (fun s act s' => shared_step) ?_ shared_init hrun
    intro s act s' hs hstep _
    exact slots_kept hs.noneClears (change_of_step hstep)
  · intro k M hM
    have hlimits : Throughout (step cfg) (fun _ act _ => act.calm = true ∧ act.queueWithin k M)
        init as := by
      refine throughout_of_forall_mem (p := fun act : Action => act.calm = true ∧ act.queueWithin k M)
        ?_ init
      intro act hact
      refine ⟨hcalm act hact, ?_⟩
      rintro r rfl
      exact hM r hact
    have hinv : Always (step cfg)
        (fun s => Shared s ∧ (∀ t ∈ s.tasks, RequestsWithin k M t) ∧ QueuedWithin k M s) init as := by
      refine always_of_step ?_ ⟨shared_init, fun t ht => absurd ht List.not_mem_nil, ?_⟩ hlimits
      · rintro s act s' ⟨hs, hrequests, hqueued⟩ hstep ⟨hact, hlimit⟩
        have hchange := change_of_step hstep
        exact ⟨shared_step hs hstep hact, requestsWithin_step hrequests hlimit hchange,
          queuedWithin_step hs hrequests hqueued hact hchange⟩
      · intro a slot h
        cases h
    exact hinv.mono fun s hs => hs.2.2

/-- Two requests for one key, of which the second waits until the guard of the first is dropped. -/
def handOver : List Action :=
  [.call (.acquire ⟨sampleKey, 1, 1⟩), .step 0, .step 0, .step 0, .step 0, .step 0,
    .call (.acquire ⟨sampleKey, 1, 1⟩), .step 1, .step 1, .step 1, .step 1, .step 1, .step 1,
    .dropGuard 0, .step 0, .step 0, .step 0, .step 1, .step 1, .step 1, .step 1]

theorem handOver_maxQueue (r : Request) (h : Action.call (.acquire r) ∈ handOver) :
    r.maxQueue.toNat ≤ 1 := by
  obtain rfl : r = ⟨sampleKey, 1, 1⟩ := by simpa [handOver] using h
  decide

theorem admission_bound_handOver :
    Always (step twoShards) (fun s => ∀ k, KeyExact s k) init handOver ∧
      Throughout (step twoShards) AdmitsWithin init handOver ∧
      Throughout (step twoShards) KeepsSlots init handOver ∧
      Always (step twoShards) (QueuedWithin sampleKey 1) init handOver ∧
      (run (step twoShards) init handOver).map State.tasks =
        some [.released, .guard sampleKey 0] := by
  obtain ⟨hexact, hadmits, hslots, hqueued⟩ := admission_bound twoShards handOver (by decide)
  refine ⟨hexact, hadmits, hslots, ?_, by decide⟩
  exact hqueued sampleKey 1 fun r hr _ => handOver_maxQueue r hr

end Capacity
