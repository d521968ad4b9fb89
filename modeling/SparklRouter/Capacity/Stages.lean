/-
**The stages of an `acquire`.**

An `acquire` and the guard it leads to are one task of the tracker, which goes through three stages:
the call, the guard while it is held, and its drop.  What a task does next depends on its stage, and
only its own actions take it from one to the next; the actions of the others leave it at its stage.
The users of the tracker need no more than this.

Main definitions:

* `Capacity.Stage`, `Capacity.Task.stage` — the stages;
* `Capacity.Stage.Next` — where an action takes a task.

Main results:

* `Capacity.stage_of_own_step`, `Capacity.stage_of_step_other` — **the stage of a task after a step**;
* `Capacity.tasks_of_step` — only calls add tasks.
-/

import SparklRouter.Capacity.Readings

set_option relaxedAutoImplicit false
set_option autoImplicit false

namespace Capacity

open TaskPool

variable {cfg : Sharding ModelCapacityKey}

/-- What an `acquire` has come to; `gone` is that of all other tasks. -/
inductive Stage
  | calling
  | held
  | dropped
  | gone
deriving DecidableEq

def Task.stage : Task → Stage
  | .enter (.acquire _) | .slotGet (.acquire _) | .slotEntry (.acquire _)
  | .acquiring _ _ _ => .calling
  | .guard _ _ | .unlimitedGuard _ => .held
  | .releasing _ _ _ => .dropped
  | _ => .gone

theorem isGuard_of_held {t : Task} (h : t.stage = .held) : t.isGuard = true := by
  cases t with
  | guard k a => rfl
  | unlimitedGuard k => rfl
  | enter c => cases c <;> cases h
  | slotGet c => cases c <;> cases h
  | slotEntry c => cases c <;> cases h
  | _ => cases h

/-- Where an action of a task takes it. -/
def Stage.Next : Action → Stage → Stage → Prop
  | .step _, .calling, after => after ≠ .dropped
  | .step _, .dropped, after => after = .dropped ∨ after = .gone
  | .step _, .gone, after => after = .gone
  | .spurious _, before, after | .timeout _, before, after => before = .calling ∧ after = .calling
  | .cancel _, before, after => before = .calling ∧ after = .gone
  | .dropGuard _, before, after => before = .held ∧ (after = .dropped ∨ after = .gone)
  | _, _, _ => False

section

variable {s s' : State} {i : TaskId} {t : Task} {act : Action}

theorem stage_withSlot (c : Caller) (a : SlotId) : (c.withSlot a).stage = (Task.slotEntry c).stage := by
  cases c with
  | acquire r => rfl
  | snapshotWithConcurrency k n => rfl

/-- A task that takes its next step. -/
theorem stage_of_advance (ht : s.tasks[i]? = some t) (hstep : advance cfg s i t = some s') :
    ∃ t', s'.tasks[i]? = some t' ∧ Stage.Next (.step i) t.stage t'.stage := by
  have hself : ∀ t', (s.put i t').tasks[i]? = some t' := fun t' => getElem?_set_self ht t'
  cases t with
  | enter c =>
      cases c with
      | acquire r =>
          simp only [advance] at hstep
          split at hstep
          · obtain rfl := Option.some.inj hstep
            exact ⟨_, hself _, Stage.noConfusion⟩
          · obtain rfl := Option.some.inj hstep
            exact ⟨_, hself _, Stage.noConfusion⟩
      | snapshotWithConcurrency k n =>
          obtain rfl := Option.some.inj hstep
          exact ⟨_, hself _, rfl⟩
  | slotGet c =>
      simp only [advance] at hstep
      split at hstep
      · obtain rfl := Option.some.inj hstep
        refine ⟨_, hself _, ?_⟩
        rw [stage_withSlot]
        cases c with
        | acquire r => exact Stage.noConfusion
        | snapshotWithConcurrency k n => exact rfl
      · obtain rfl := Option.some.inj hstep
        refine ⟨_, hself _, ?_⟩
        cases c with
        | acquire r => exact Stage.noConfusion
        | snapshotWithConcurrency k n => exact rfl
  | slotEntry c =>
      simp only [advance] at hstep
      split at hstep
      · obtain rfl := Option.some.inj hstep
        refine ⟨_, getElem?_set_self ht _, ?_⟩
        rw [stage_withSlot]
        cases c with
        | acquire r => exact Stage.noConfusion
        | snapshotWithConcurrency k n => exact rfl
      · cases hstep
  | acquiring r a pc =>
      obtain ⟨slot, -, hstep⟩ := Option.bind_eq_some_iff.1 hstep
      obtain ⟨⟨slot', next⟩, -, rfl⟩ := Option.map_eq_some_iff.1 hstep
      refine ⟨_, hself _, ?_⟩
      cases next with
      | «at» pc' => exact Stage.noConfusion
      | admitted => exact Stage.noConfusion
      | failed e => exact Stage.noConfusion
  | releasing k issued pc =>
      cases pc with
      | get =>
          simp only [advance, releaseStep] at hstep
          split at hstep
          · obtain rfl := Option.some.inj hstep
            exact ⟨_, hself _, Or.inl rfl⟩
          · obtain rfl := Option.some.inj hstep
            exact ⟨_, hself _, Or.inr rfl⟩
      | fetchSub a =>
          obtain ⟨slot, -, rfl⟩ := Option.map_eq_some_iff.1 hstep
          exact ⟨_, hself _, Or.inl rfl⟩
      | notifyOne a =>
          obtain ⟨slot, -, rfl⟩ := Option.map_eq_some_iff.1 hstep
          have hreleased := getElem?_set_self ht Task.released
          exact ⟨.released, getElem?_wake hreleased (awake_of_dropSteps rfl) _, Or.inr rfl⟩
  | snapActive k n a =>
      obtain ⟨slot, -, rfl⟩ := Option.map_eq_some_iff.1 hstep
      exact ⟨_, hself _, rfl⟩
  | snapQueued k n a active =>
      obtain ⟨slot, -, rfl⟩ := Option.map_eq_some_iff.1 hstep
      exact ⟨_, hself _, rfl⟩
  | clearing n j =>
      simp only [advance] at hstep
      split at hstep
      · split at hstep
        · obtain rfl := Option.some.inj hstep
          exact ⟨_, getElem?_set_self ht _, rfl⟩
        · cases hstep
      · obtain rfl := Option.some.inj hstep
        exact ⟨_, hself _, rfl⟩
  | _ => cases hstep

/-- **The stage of a task after its own step.** -/
theorem stage_of_own_step (ht : s.tasks[i]? = some t) (hactor : act.actor = some i)
    (hstep : step cfg s act = some s') :
    ∃ t', s'.tasks[i]? = some t' ∧ Stage.Next act t.stage t'.stage := by
  cases act with
  | call d => cases hactor
  | clearNode n => cases hactor
  | step j =>
      obtain rfl := Option.some.inj hactor
      rw [step, ht, Option.bind_some] at hstep
      exact stage_of_advance ht hstep
  | spurious j =>
      obtain rfl := Option.some.inj hactor
      obtain ⟨r, a, pc, pc', hj, -, rfl⟩ := exists_of_spurious hstep
      obtain rfl := Option.some.inj (ht.symm.trans hj)
      exact ⟨_, getElem?_set_self ht _, rfl, rfl⟩
  | timeout j =>
      obtain rfl := Option.some.inj hactor
      obtain ⟨r, a, pc, slot, woken, hj, -, -, rfl⟩ := exists_of_timeout hstep
      obtain rfl := Option.some.inj (ht.symm.trans hj)
      have hawake : (Task.acquiring r a (.leaveQueue false)).Awake := fun _ _ h => by cases h
      exact ⟨_, getElem?_endWait ht hawake a slot woken, rfl, rfl⟩
  | cancel j =>
      obtain rfl := Option.some.inj hactor
      obtain ⟨r, a, pc, slot, woken, hj, -, -, rfl⟩ := exists_of_cancel hstep
      obtain rfl := Option.some.inj (ht.symm.trans hj)
      have hawake : (Task.cancelled r a).Awake := fun _ _ h => by cases h
      exact ⟨_, getElem?_endWait ht hawake a slot woken, rfl, rfl⟩
  | dropGuard j =>
      obtain rfl := Option.some.inj hactor
      rcases exists_of_dropGuard hstep with ⟨k, a, hj, rfl⟩ | ⟨k, hj, rfl⟩
      · obtain rfl := Option.some.inj (ht.symm.trans hj)
        exact ⟨_, getElem?_set_self ht _, rfl, Or.inl rfl⟩
      · obtain rfl := Option.some.inj (ht.symm.trans hj)
        exact ⟨_, getElem?_set_self ht _, rfl, Or.inr rfl⟩

/-- **The actions of the others leave a task at its stage.** -/
theorem stage_of_step_other (ht : s.tasks[i]? = some t) (hactor : act.actor ≠ some i)
    (hstep : step cfg s act = some s') :
    ∃ t', s'.tasks[i]? = some t' ∧ t'.stage = t.stage := by
  rcases task_of_step_other ht hactor hstep with h | ⟨r, a, rfl, h⟩
  · exact ⟨t, h, rfl⟩
  · exact ⟨_, h, rfl⟩

theorem length_wake (s : State) (o : Option TaskId) :
    (s.wake o).tasks.length = s.tasks.length := by
  cases o with
  | none => rfl
  | some j =>
      simp only [State.wake]
      split
      · exact List.length_set
      · rfl

/-- Only calls add tasks: a task after a step was there before, or is that of the call. -/
theorem tasks_of_step (hstep : step cfg s act = some s') {t' : Task} (ht' : s'.tasks[i]? = some t') :
    (∃ t, s.tasks[i]? = some t) ∨
      (∃ c, act = .call c ∧ i = s.tasks.length ∧ t' = .enter c) ∨ t'.stage = .gone := by
  have hsame : s'.tasks.length = s.tasks.length → ∃ t, s.tasks[i]? = some t := by
    intro hlen
    have hi := (List.getElem?_eq_some_iff.1 ht').1
    rw [hlen] at hi
    exact ⟨_, List.getElem?_eq_getElem hi⟩
  cases change_of_step hstep with
  | call c =>
      rcases getElem?_append_cases ht' with ⟨rfl, rfl⟩ | hold
      · exact Or.inr (Or.inl ⟨c, rfl, rfl, rfl⟩)
      · exact Or.inl ⟨_, hold⟩
  | clearNode n =>
      rcases getElem?_append_cases ht' with ⟨rfl, rfl⟩ | hold
      · exact Or.inr (Or.inr rfl)
      · exact Or.inl ⟨_, hold⟩
  | move ht _ hfollows _ => exact Or.inl (hsame List.length_set)
  | slotEntry ht => exact Or.inl (hsame List.length_set)
  | acquire ht hslot hacq => exact Or.inl (hsame List.length_set)
  | releaseFound ht hget => exact Or.inl (hsame List.length_set)
  | releaseMissing ht hget => exact Or.inl (hsame List.length_set)
  | fetchSub ht hslot => exact Or.inl (hsame List.length_set)
  | notifyOne ht hslot => exact Or.inl (hsame ((length_wake _ _).trans List.length_set))
  | timeout ht hwaits hslot => exact Or.inl (hsame ((length_wake _ _).trans List.length_set))
  | cancel ht hwaits hslot => exact Or.inl (hsame ((length_wake _ _).trans List.length_set))
  | clearShard ht => exact Or.inl (hsame List.length_set)

end

end Capacity
