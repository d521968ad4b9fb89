/-
**Who refers to which slot.**

A task of the capacity tracker reaches its slot through a reference it took when it looked the key
up, and keeps that reference whatever happens to the map afterwards.  The accounting of a slot rests
on two facts about references: a task that counts for a slot refers to it, and a step creates no
reference out of nothing.  From them follows that a freshly allocated slot is referred to by nobody,
which is why its counters may start at zero.

Main definitions:

* `Capacity.InRange` — every reference, of a task or of the map, is to an allocated slot.

Main results:

* `Capacity.refs_of_change`, `Capacity.slots_of_change`, `Capacity.requests_of_change` — **where
  references and requests come from**;
* `Capacity.inRange_step` — references stay in range;
* `Capacity.count_fresh` — nothing is counted for a slot that is about to be allocated.
-/

import SparklRouter.Capacity.Steps

set_option relaxedAutoImplicit false
set_option autoImplicit false

namespace Capacity

open TaskPool

variable {cfg : Sharding ModelCapacityKey}

/-! ### What counts for a slot refers to it -/

theorem mem_refs_of_live {t : Task} {a : SlotId} (h : t.live a = true) : ∃ k, (k, a) ∈ t.refs := by
  cases t with
  | guard k b =>
      obtain rfl : b = a := by simpa [Task.live] using h
      exact ⟨k, List.mem_cons_self ..⟩
  | releasing k b pc =>
      cases pc with
      | get =>
          obtain rfl : b = a := by simpa [Task.live] using h
          exact ⟨k, List.mem_cons_self ..⟩
      | fetchSub c =>
          obtain rfl : b = a := by simpa [Task.live] using h
          exact ⟨k, List.mem_cons_self ..⟩
      | notifyOne c => cases h
  | _ => cases h

theorem mem_refs_of_inQueue {t : Task} {a : SlotId} (h : t.inQueue a = true) :
    ∃ k, (k, a) ∈ t.refs := by
  cases t with
  | acquiring r b pc =>
      simp only [Task.inQueue, Bool.and_eq_true, decide_eq_true_eq] at h
      obtain ⟨rfl, -⟩ := h
      exact ⟨r.key, List.mem_cons_self ..⟩
  | _ => cases h

theorem mem_refs_of_left {t : Task} {a : SlotId} (h : t.left a = true) : ∃ k, (k, a) ∈ t.refs := by
  cases t with
  | cancelled r b =>
      obtain rfl : b = a := by simpa [Task.left] using h
      exact ⟨r.key, List.mem_cons_self ..⟩
  | _ => cases h

/-- A step of `acquire` refers to nothing new. -/
theorem mem_refs_next {r : Request} {a : SlotId} {next : AcquireNext r}
    {p : ModelCapacityKey × SlotId} (h : p ∈ (next.task a).refs) : p = (r.key, a) := by
  cases next with
  | «at» pc => exact List.mem_singleton.1 h
  | admitted => exact List.mem_singleton.1 h
  | failed e => cases h

/-! ### Properties of all tasks -/

section

variable {P : Task → Prop} {s s' : State}

theorem forall_set (h : ∀ t ∈ s.tasks, P t) {i : TaskId} {t' : Task}
    (htasks : s'.tasks = s.tasks.set i t') (ht' : P t') : ∀ t ∈ s'.tasks, P t := by
  intro t ht
  rw [htasks] at ht
  rcases List.mem_or_eq_of_mem_set ht with ht | rfl
  · exact h t ht
  · exact ht'

theorem forall_spawn (h : ∀ t ∈ s.tasks, P t) {t' : Task} (ht' : P t') :
    ∀ t ∈ (s.spawn t').tasks, P t := by
  intro t ht
  rcases List.mem_append.1 ht with ht | ht
  · exact h t ht
  · obtain rfl := List.mem_singleton.1 ht
    exact ht'

theorem forall_wake (h : ∀ t ∈ s.tasks, P t)
    (hwoken : ∀ r a, P (.acquiring r a .parked) → P (.acquiring r a .woken)) (o : Option TaskId) :
    ∀ t ∈ (s.wake o).tasks, P t := by
  intro t ht
  rcases State.mem_wake ht with ht | ⟨r, a, rfl, hparked⟩
  · exact h t ht
  · exact hwoken r a (h _ hparked)

end

/-! ### Where references come from -/

section

variable {s s' : State} {act : Action}

/-- The references of the tasks of `s'` are those of the tasks of `s` and entries of the map. -/
def RefsFrom (s s' : State) : Prop :=
  ∀ t' ∈ s'.tasks, ∀ p ∈ t'.refs,
    (∃ t ∈ s.tasks, p ∈ t.refs) ∨ s'.slots.get p.1 = some p.2

/-- The references of the tasks that were there are their own. -/
theorem refsFrom_self (s s' : State) : ∀ t ∈ s.tasks, ∀ p ∈ t.refs,
    (∃ t ∈ s.tasks, p ∈ t.refs) ∨ s'.slots.get p.1 = some p.2 :=
  fun t ht _ hp => Or.inl ⟨t, ht, hp⟩

/-- Writing a task whose references are known creates no reference. -/
theorem refsFrom_set {i : TaskId} {t' : Task} (htasks : s'.tasks = s.tasks.set i t')
    (h : ∀ p ∈ t'.refs, (∃ t ∈ s.tasks, p ∈ t.refs) ∨ s'.slots.get p.1 = some p.2) :
    RefsFrom s s' :=
  forall_set (refsFrom_self s s') htasks h

/-- A spawned task without references creates none. -/
theorem refsFrom_spawn {t : Task} (h : ∀ p, p ∉ t.refs) : RefsFrom s (s.spawn t) :=
  forall_spawn (refsFrom_self s _) fun p hp => absurd hp (h p)

/-- Waking a task creates no reference. -/
theorem refsFrom_wake (h : RefsFrom s s') (o : Option TaskId) : RefsFrom s (s'.wake o) := by
  refine forall_wake ?_ (fun _ _ hparked => hparked) o
  intro t ht p hp
  rw [State.slots_wake]
  exact h t ht p hp

theorem entryOrInsert_get {K V : Type} [DecidableEq K] (m : ShardMap K V) (k : K) (v : V) :
    (m.entryOrInsert k v).2.get k = some (m.entryOrInsert k v).1 := by
  cases hk : m.get k with
  | none => rw [ShardMap.entryOrInsert_of_none hk, ShardMap.get_insert_self]
  | some w => rw [ShardMap.entryOrInsert_of_some hk, hk]

/-- **A step creates a reference only by looking it up in the map.** -/
theorem refs_of_change (h : Change cfg s act s') : RefsFrom s s' := by
  cases h with
  | call c => exact refsFrom_spawn nofun
  | clearNode n => exact refsFrom_spawn nofun
  | move ht _ _ hrefs =>
      refine refsFrom_set rfl fun p hp => ?_
      rcases hrefs p hp with hp | hp
      · exact Or.inl ⟨_, List.mem_of_getElem? ht, hp⟩
      · exact Or.inr hp
  | slotEntry ht =>
      refine refsFrom_set rfl fun p hp => ?_
      rw [refs_withSlot, List.mem_singleton] at hp
      subst hp
      exact Or.inr (entryOrInsert_get _ _ _)
  | acquire ht hslot hstep =>
      refine refsFrom_set rfl fun p hp => ?_
      obtain rfl := mem_refs_next hp
      exact Or.inl ⟨_, List.mem_of_getElem? ht, List.mem_cons_self ..⟩
  | @releaseFound i k issued a ht hget =>
      refine refsFrom_set rfl fun p hp => ?_
      have hp : p = (k, issued) ∨ p = (k, a) := by simpa [Task.refs] using hp
      rcases hp with rfl | rfl
      · exact Or.inl ⟨_, List.mem_of_getElem? ht, List.mem_cons_self ..⟩
      · exact Or.inr hget
  | releaseMissing ht hget => exact refsFrom_set rfl fun p hp => by cases hp
  | fetchSub ht hslot =>
      exact refsFrom_set rfl fun p hp => Or.inl ⟨_, List.mem_of_getElem? ht, hp⟩
  | notifyOne ht hslot =>
      exact refsFrom_wake (refsFrom_set rfl fun p hp => by cases hp) _
  | timeout ht hwaits hslot =>
      refine refsFrom_wake (refsFrom_set rfl fun p hp => ?_) _
      exact Or.inl ⟨_, List.mem_of_getElem? ht, hp⟩
  | cancel ht hwaits hslot =>
      refine refsFrom_wake (refsFrom_set rfl fun p hp => ?_) _
      exact Or.inl ⟨_, List.mem_of_getElem? ht, hp⟩
  | clearShard ht => exact refsFrom_set rfl fun p hp => by cases hp

/-- **An entry of the map is an old one, or the slot just allocated for a key that had none.** -/
theorem slots_of_change (h : Change cfg s act s') {k : ModelCapacityKey} {a : SlotId}
    (hget : s'.slots.get k = some a) :
    s.slots.get k = some a ∨
      ∃ i c, act = .step i ∧ s.tasks[i]? = some (.slotEntry c) ∧ k = c.key ∧ a = s.heap.length ∧
        s'.heap = s.heap ++ [Slot.new] := by
  cases h with
  | @slotEntry i c ht =>
      cases hc : s.slots.get c.key with
      | some b =>
          rw [ShardMap.entryOrInsert_of_some hc] at hget
          exact Or.inl hget
      | none =>
          rw [ShardMap.entryOrInsert_of_none hc] at hget
          rcases eq_or_ne k c.key with rfl | hk
          · rw [ShardMap.get_insert_self] at hget
            exact Or.inr ⟨i, c, rfl, ht, rfl, (Option.some.inj hget).symm, rfl⟩
          · rw [ShardMap.get_insert_of_ne _ _ hk] at hget
            exact Or.inl hget
  | clearShard ht => exact Or.inl (ShardMap.get_of_get_retainShard hget)
  | notifyOne ht hslot =>
      rw [State.slots_wake] at hget
      exact Or.inl hget
  | timeout ht hwaits hslot =>
      rw [State.endWait, State.slots_wake] at hget
      exact Or.inl hget
  | cancel ht hwaits hslot =>
      rw [State.endWait, State.slots_wake] at hget
      exact Or.inl hget
  | _ => exact Or.inl hget

/-- **A request in progress is that of a call**: what all calls satisfy, all requests do. -/
theorem requests_of_change {P : Request → Prop} (h : ∀ t ∈ s.tasks, ∀ r, t.request = some r → P r)
    (hact : ∀ r, act = .call (.acquire r) → P r) (hchange : Change cfg s act s') :
    ∀ t ∈ s'.tasks, ∀ r, t.request = some r → P r := by
  cases hchange with
  | call c =>
      refine forall_spawn h ?_
      cases c with
      | acquire r =>
          rintro _ ⟨⟩
          exact hact r rfl
      | snapshotWithConcurrency j n => nofun
  | clearNode n => exact forall_spawn h nofun
  | move ht _ hfollows _ =>
      refine forall_set h rfl fun r hr => ?_
      exact h _ (List.mem_of_getElem? ht) r (hfollows.request r hr)
  | @slotEntry i c ht =>
      refine forall_set h rfl fun r hr => ?_
      refine h _ (List.mem_of_getElem? ht) r ?_
      cases c <;> exact hr
  | @acquire i r a pc slot slot' next ht hslot hacq =>
      refine forall_set h rfl fun r' hr => ?_
      cases next with
      | «at» pc' => exact h _ (List.mem_of_getElem? ht) r' hr
      | admitted => cases hr
      | failed e => cases hr
  | releaseFound ht hget => exact forall_set h rfl nofun
  | releaseMissing ht hget => exact forall_set h rfl nofun
  | fetchSub ht hslot => exact forall_set h rfl nofun
  | notifyOne ht hslot =>
      refine forall_wake ?_ (fun _ _ hparked => hparked) _
      exact forall_set h rfl nofun
  | timeout ht hwaits hslot =>
      refine forall_wake ?_ (fun _ _ hparked => hparked) _
      refine forall_set h rfl fun r hr => ?_
      exact h _ (List.mem_of_getElem? ht) r hr
  | cancel ht hwaits hslot =>
      refine forall_wake ?_ (fun _ _ hparked => hparked) _
      exact forall_set h rfl nofun
  | clearShard ht => exact forall_set h rfl nofun

/-- Slots are never freed. -/
theorem heap_length_of_change (h : Change cfg s act s') : s.heap.length ≤ s'.heap.length := by
  cases h with
  | slotEntry ht => simp
  | acquire ht hslot hstep => simp [State.write]
  | fetchSub ht hslot => simp [State.write]
  | notifyOne ht hslot => simp [State.write]
  | timeout ht hwaits hslot => simp [State.endWait, State.write]
  | cancel ht hwaits hslot => simp [State.endWait, State.write]
  | _ => exact le_refl _

end

/-! ### References are in range -/

/-- Every reference is to an allocated slot. -/
structure InRange (s : State) : Prop where
  tasks : ∀ t ∈ s.tasks, ∀ p ∈ t.refs, p.2 < s.heap.length
  slots : ∀ k a, s.slots.get k = some a → a < s.heap.length

theorem inRange_init : InRange init :=
  ⟨fun t ht => absurd ht (List.not_mem_nil), fun k a h => by cases h⟩

theorem inRange_step {s s' : State} {act : Action} (h : InRange s)
    (hstep : step cfg s act = some s') : InRange s' := by
  have hchange := change_of_step hstep
  have hlen := heap_length_of_change hchange
  have hslots : ∀ k a, s'.slots.get k = some a → a < s'.heap.length := by
    intro k a hget
    rcases slots_of_change hchange hget with hget | ⟨i, c, -, -, -, rfl, hheap⟩
    · exact lt_of_lt_of_le (h.slots k a hget) hlen
    · simp [hheap]
  refine ⟨fun t' ht' p hp => ?_, hslots⟩
  rcases refs_of_change hchange t' ht' p hp with ⟨t, ht, hp⟩ | hget
  · exact lt_of_lt_of_le (h.tasks t ht p hp) hlen
  · exact hslots p.1 p.2 hget

/-- **Nothing is counted for a slot that is not allocated yet.** -/
theorem count_fresh {s : State} (h : InRange s) {p : SlotId → Task → Bool}
    (hp : ∀ t a, p a t = true → ∃ k, (k, a) ∈ t.refs) : s.count (p s.heap.length) = 0 := by
  refine total_eq_zero.2 fun t ht => ?_
  cases hpt : p s.heap.length t with
  | false => exact indicator_of_not hpt
  | true =>
      exfalso
      obtain ⟨k, hk⟩ := hp t _ hpt
      exact Nat.lt_irrefl _ (h.tasks t ht _ hk)

end Capacity
