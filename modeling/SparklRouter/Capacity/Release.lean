/-
**The drop of one guard.**

Whoever owns a guard drops it with steps of its own, between which the other tasks of the tracker go
on.  What these do leaves the guard alone: the only task that is moved by others is one that waits.
So the drop of a guard, once begun, goes from its lookup to its subtraction and its notification and
comes to its end, with at most three steps of its own.

Main definitions:

* `Capacity.Action.actor` — the task whose step an action is;
* `Capacity.Task.isGuard`, `Capacity.Task.dropSteps` — a guard that is held, and how many steps the
  drop of one has ahead.

Main results:

* `Capacity.getElem?_of_step_other` — **the steps of the others leave a guard alone**;
* `Capacity.step_dropGuard`, `Capacity.step_of_dropSteps` — **the steps of the drop**, which are
  never blocked.
-/

import SparklRouter.Capacity.References

set_option relaxedAutoImplicit false
set_option autoImplicit false

namespace Capacity

open TaskPool

variable {cfg : Sharding ModelCapacityKey} {s s' : State} {i j : TaskId} {t : Task}

/-! ### The steps of the others -/

/-- The task whose step it is. -/
def Action.actor : Action → Option TaskId
  | .call _ | .clearNode _ => none
  | .step i | .spurious i | .timeout i | .cancel i | .dropGuard i => some i

/-- The task does not wait. -/
def Task.Awake (t : Task) : Prop := ∀ r a, t ≠ .acquiring r a .parked

theorem getElem?_put_of_ne (h : s.tasks[i]? = some t) (hne : j ≠ i) (t' : Task) :
    (s.put j t').tasks[i]? = some t := by
  rw [State.put, List.getElem?_set_ne hne]
  exact h

theorem getElem?_wake (h : s.tasks[i]? = some t) (hawake : t.Awake) (o : Option TaskId) :
    (s.wake o).tasks[i]? = some t := by
  cases o with
  | none => exact h
  | some k =>
      rw [State.wake]
      split
      · rename_i r a hparked
        refine getElem?_put_of_ne h (fun hk => ?_) _
        rw [hk, h] at hparked
        exact hawake r a (Option.some.inj hparked)
      · exact h

/-- The task whose wait ends. -/
theorem getElem?_endWait (h : s.tasks[i]? = some t) {t' : Task} (hawake : t'.Awake) (a : SlotId)
    (slot : Slot) (woken : Bool) : (s.endWait i t' a slot woken).tasks[i]? = some t' := by
  have hset : (s.tasks.set i t')[i]? = some t' := getElem?_set_self h t'
  exact getElem?_wake (s := s.write i t' a _) hset hawake _

theorem getElem?_advance_of_ne {u : Task} (h : s.tasks[i]? = some t) (hawake : t.Awake)
    (hne : j ≠ i) (hstep : advance cfg s j u = some s') : s'.tasks[i]? = some t := by
  have hset : ∀ t' : Task, (s.tasks.set j t')[i]? = some t := fun t' => getElem?_put_of_ne h hne t'
  cases u with
  | enter c =>
      cases c with
      | acquire r =>
          rw [advance] at hstep
          split at hstep
          · obtain rfl := Option.some.inj hstep
            exact hset _
          · obtain rfl := Option.some.inj hstep
            exact hset _
      | snapshotWithConcurrency key n =>
          obtain rfl := Option.some.inj hstep
          exact hset _
  | slotGet c =>
      rw [advance] at hstep
      split at hstep
      · obtain rfl := Option.some.inj hstep
        exact hset _
      · obtain rfl := Option.some.inj hstep
        exact hset _
  | slotEntry c =>
      rw [advance] at hstep
      split at hstep
      · obtain rfl := Option.some.inj hstep
        exact hset _
      · cases hstep
  | acquiring r a pc =>
      obtain ⟨slot, -, hstep⟩ := Option.bind_eq_some_iff.1 hstep
      obtain ⟨next, -, rfl⟩ := Option.map_eq_some_iff.1 hstep
      exact hset _
  | releasing key issued pc =>
      cases pc with
      | get =>
          rw [advance, releaseStep] at hstep
          split at hstep
          · obtain rfl := Option.some.inj hstep
            exact hset _
          · obtain rfl := Option.some.inj hstep
            exact hset _
      | fetchSub a =>
          obtain ⟨slot, -, rfl⟩ := Option.map_eq_some_iff.1 hstep
          exact hset _
      | notifyOne a =>
          obtain ⟨slot, -, rfl⟩ := Option.map_eq_some_iff.1 hstep
          refine getElem?_wake ?_ hawake _
          exact hset _
  | snapActive key n a =>
      obtain ⟨slot, -, rfl⟩ := Option.map_eq_some_iff.1 hstep
      exact hset _
  | snapQueued key n a active =>
      obtain ⟨slot, -, rfl⟩ := Option.map_eq_some_iff.1 hstep
      exact hset _
  | clearing n shard =>
      rw [advance] at hstep
      split at hstep
      · split at hstep
        · obtain rfl := Option.some.inj hstep
          exact hset _
        · cases hstep
      · obtain rfl := Option.some.inj hstep
        exact hset _
  | _ => cases hstep

/-- **The steps of the others leave a task alone**, unless it waits. -/
theorem getElem?_of_step_other {act : Action} (h : s.tasks[i]? = some t) (hawake : t.Awake)
    (hact : act.actor ≠ some i) (hstep : step cfg s act = some s') : s'.tasks[i]? = some t := by
  have hset : ∀ j, some j ≠ some i → ∀ t', (s.put j t').tasks[i]? = some t :=
    fun j hj t' => getElem?_put_of_ne h (fun heq => hj (heq ▸ rfl)) t'
  cases act with
  | call c =>
      obtain rfl := Option.some.inj hstep
      exact getElem?_append_of h
  | clearNode n =>
      obtain rfl := Option.some.inj hstep
      exact getElem?_append_of h
  | step j =>
      obtain ⟨u, -, hstep⟩ := Option.bind_eq_some_iff.1 hstep
      exact getElem?_advance_of_ne h hawake (fun heq => hact (heq ▸ rfl)) hstep
  | spurious j =>
      obtain ⟨r, a, pc, pc', -, -, rfl⟩ := exists_of_spurious hstep
      exact hset j hact _
  | timeout j =>
      obtain ⟨r, a, pc, slot, woken, -, -, -, rfl⟩ := exists_of_timeout hstep
      refine getElem?_wake ?_ hawake _
      exact hset j hact _
  | cancel j =>
      obtain ⟨r, a, pc, slot, woken, -, -, -, rfl⟩ := exists_of_cancel hstep
      refine getElem?_wake ?_ hawake _
      exact hset j hact _
  | dropGuard j =>
      rcases exists_of_dropGuard hstep with ⟨k, a, -, rfl⟩ | ⟨k, -, rfl⟩
      · exact hset j hact _
      · exact hset j hact _

/-! ### The steps of the drop -/

/-- A guard that is held. -/
def Task.isGuard : Task → Bool
  | .guard _ _ | .unlimitedGuard _ => true
  | _ => false

/-- The steps that the drop of a guard still has ahead. -/
def Task.dropSteps : Task → Option ℕ
  | .releasing _ _ .get => some 3
  | .releasing _ _ (.fetchSub _) => some 2
  | .releasing _ _ (.notifyOne _) => some 1
  | .released => some 0
  | _ => none

theorem awake_of_isGuard (h : t.isGuard = true) : t.Awake := by
  rintro r a rfl
  cases h

theorem awake_of_dropSteps {n : ℕ} (h : t.dropSteps = some n) : t.Awake := by
  rintro r a rfl
  cases h

theorem eq_released_of_dropSteps (h : t.dropSteps = some 0) : t = .released := by
  cases t with
  | released => rfl
  | releasing key issued pc => cases pc <;> cases h
  | _ => cases h

theorem dropSteps_le {n : ℕ} (h : t.dropSteps = some n) : n ≤ 3 := by
  cases t with
  | released =>
      obtain rfl := Option.some.inj h
      exact Nat.zero_le 3
  | releasing key issued pc =>
      cases pc <;> obtain rfl := Option.some.inj h <;> omega
  | _ => cases h

/-- A guard that is held can be dropped. -/
theorem step_dropGuard (cfg : Sharding ModelCapacityKey) (ht : s.tasks[i]? = some t)
    (h : t.isGuard = true) :
    ∃ s' t' n, step cfg s (.dropGuard i) = some s' ∧ s'.tasks[i]? = some t' ∧
      t'.dropSteps = some n := by
  cases t with
  | guard key a =>
      refine ⟨s.put i (.releasing key a .get), _, 3, ?_, getElem?_set_self ht _, rfl⟩
      rw [step, ht]
  | unlimitedGuard key =>
      refine ⟨s.put i .released, _, 0, ?_, getElem?_set_self ht _, rfl⟩
      rw [step, ht]
  | _ => cases h

/-- **The drop of a guard is never blocked**, and each of its steps brings it closer to its end. -/
theorem step_of_dropSteps (cfg : Sharding ModelCapacityKey) (hrange : InRange s)
    (ht : s.tasks[i]? = some t) {n : ℕ} (h : t.dropSteps = some (n + 1)) :
    ∃ s' t' m, step cfg s (.step i) = some s' ∧ s'.tasks[i]? = some t' ∧
      t'.dropSteps = some m ∧ m ≤ n := by
  have hslot : ∀ key a, (key, a) ∈ t.refs → ∃ slot, s.heap[a]? = some slot := by
    intro key a hmem
    have hlt := hrange.tasks t (List.mem_of_getElem? ht) _ hmem
    exact ⟨_, List.getElem?_eq_getElem hlt⟩
  have hstep : step cfg s (.step i) = advance cfg s i t := by
    rw [step, ht, Option.bind_some]
  cases t with
  | releasing key issued pc =>
      cases pc with
      | get =>
          obtain rfl : 2 = n := Nat.succ.inj (Option.some.inj h)
          cases hget : s.slots.get key with
          | some a =>
              refine ⟨s.put i (.releasing key issued (.fetchSub a)), _, 2, ?_,
                getElem?_set_self ht _, rfl, Nat.le_refl _⟩
              rw [hstep, advance, releaseStep, hget]
          | none =>
              refine ⟨s.put i .released, _, 0, ?_, getElem?_set_self ht _, rfl, by omega⟩
              rw [hstep, advance, releaseStep, hget]
      | fetchSub a =>
          obtain rfl : 1 = n := Nat.succ.inj (Option.some.inj h)
          obtain ⟨slot, hheap⟩ := hslot key a (by simp [Task.refs])
          refine ⟨s.write i (.releasing key issued (.notifyOne a)) a
            { slot with active := slot.active - 1 }, _, 1, ?_, getElem?_set_self ht _, rfl,
            Nat.le_refl _⟩
          rw [hstep, advance, releaseStep, hheap, Option.map_some]
      | notifyOne a =>
          obtain rfl : 0 = n := Nat.succ.inj (Option.some.inj h)
          obtain ⟨slot, hheap⟩ := hslot key a (by simp [Task.refs])
          refine ⟨(s.write i .released a { slot with notify := slot.notify.notifyOne.1 }).wake
            slot.notify.notifyOne.2, .released, 0, ?_, ?_, rfl, Nat.le_refl _⟩
          · rw [hstep, advance, releaseStep, hheap, Option.map_some]
          · exact getElem?_wake (getElem?_set_self ht _) (fun _ _ h => (by cases h)) _
  | _ => cases h

end Capacity
