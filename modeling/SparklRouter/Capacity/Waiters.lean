/-
**Waiting requests and free places.**

A call of `acquire` that finds the active counter at its limit takes a queue place and then waits on
the wake-up cell of the slot; the drop of a guard lowers the counter and then notifies the cell.  A
notification that finds nobody registered leaves a permit, and a notification that finds a permit is
lost.  So two drops that fall between the check of two calls and their registration leave one permit
for two free places: one call takes the permit and a place, and the other one sleeps next to a free
place with nobody left to wake it.

What keeps a slot from this is a balance.  Every free place is answered for by somebody — a call
that is about to go for a place, a drop that is about to notify, the stored permit — or every call
that waits or is on its way to the wait is answered for by a notification.  A lost notification is
the only thing that can upset it.

Main definitions:

* `Capacity.Stranded` — a call sleeps next to a free place and nobody is left to wake it;
* `Capacity.Covered`, `Capacity.Answered` — the balance, on numbers and in a state;
* `Capacity.State.heeds` — a notification that finds a permit stored leaves the balance intact;
* `Capacity.Listed` — the waiters of a cell are parked on its slot.

Main results:

* `Capacity.answered_step` — every step that heeds the stored permit keeps the balance;
* `Capacity.noneStranded_of_heeds` — **no call is stranded in a run whose steps all do**;
* `Capacity.noneStranded_of_single` — with a limit of one place every step does;
* `Capacity.stranded_of_lostPermit` — a run with a stranded call.
-/

import SparklRouter.Capacity.Admission

set_option relaxedAutoImplicit false
set_option autoImplicit false

namespace Capacity

open TaskPool Transition

variable {cfg : Sharding ModelCapacityKey}

/-! ### Stranded calls -/

/-- A call for the key is parked although a place of its slot is free under the limit `c`, with no
permit stored, no drop about to notify, and every other call on the slot parked as well. -/
def Stranded (k : ModelCapacityKey) (c : UInt32) (s : State) : Prop :=
  ∃ (i : TaskId) (r : Request) (a : SlotId) (slot : Slot),
    s.tasks[i]? = some (.acquiring r a .parked) ∧ r.key = k ∧ s.heap[a]? = some slot ∧
      slot.active < c ∧ slot.notify.permit = false ∧
      (∀ t ∈ s.tasks, ∀ k' b, t ≠ .releasing k' b (.notifyOne a)) ∧
      ∀ t ∈ s.tasks, ∀ r' pc, t = .acquiring r' a pc → pc = .parked

/-- The action clears no node, and a call for the key brings the limit `c`. -/
def Action.oneLimit (k : ModelCapacityKey) (c : UInt32) : Action → Bool
  | .clearNode _ => false
  | .call (.acquire r) => decide (r.key = k → r.concurrency = c)
  | _ => true

/-! ### The balance of a slot -/

/-- The free places under the limit `c` are no more than the calls that go for one, the drops about
to notify and the stored permit; or the calls that wait or are on their way to the wait are no more
than the drops about to notify and the stored permit. -/
def Covered (c active eager tells seeks stored : ℕ) : Prop :=
  c ≤ active + eager + tells + stored ∨ seeks ≤ tells + stored

instance (c active eager tells seeks stored : ℕ) :
    Decidable (Covered c active eager tells seeks stored) :=
  inferInstanceAs (Decidable (_ ∨ _))

/-- The balance of the slot `a`. -/
def Answered (c : UInt32) (a : SlotId) (s : State) : Prop :=
  ∀ slot, s.heap[a]? = some slot →
    Covered c.toNat slot.active.toNat (s.count (Task.eager a)) (s.count (Task.tells a))
      (s.count (Task.seeks a)) slot.notify.permit.toNat

/-- The slot on which the action runs `notify_one`: the last step of a drop, or a wait that ends
after it was woken and passes its wake-up on.  With it come the calls that go for a place and the
drops about to notify, the task of the action not counted. -/
def State.notice (s : State) : Action → Option (SlotId × ℕ × ℕ)
  | .step i =>
      match s.tasks[i]? with
      | some (.releasing _ _ (.notifyOne a)) =>
          some (a, s.count (Task.eager a), s.count (Task.tells a) - 1)
      | _ => none
  | .timeout i | .cancel i =>
      match s.tasks[i]? with
      | some (.acquiring _ a .woken) =>
          some (a, s.count (Task.eager a) - 1, s.count (Task.tells a))
      | _ => none
  | _ => none

/-- A notification on the slot of the key that finds a permit already stored leaves the balance
intact. -/
def State.heeds (k : ModelCapacityKey) (c : UInt32) (s : State) (act : Action) : Bool :=
  match s.notice act with
  | none => true
  | some (a, eager, tells) =>
      match s.heap[a]? with
      | none => true
      | some slot =>
          !(decide (s.slots.get k = some a) && slot.notify.permit) ||
            decide (Covered c.toNat slot.active.toNat eager tells (s.count (Task.seeks a)) 1)

/-! ### The waiters of a cell -/

/-- The waiters of every cell are distinct and parked on its slot. -/
def Listed (s : State) : Prop :=
  ∀ (a : SlotId) (slot : Slot), s.heap[a]? = some slot → slot.notify.waiters.Nodup ∧
    ∀ j ∈ slot.notify.waiters, ∃ r, s.tasks[j]? = some (.acquiring r a .parked)

theorem listed_init : Listed init := by
  intro a slot h
  simp [init] at h

section

variable {s : State} {i : TaskId} {t t' : Task}

/-- A task that is not parked is in no list. -/
theorem Listed.notMem (h : Listed s) (ht : s.tasks[i]? = some t)
    (hparked : ∀ r a, t ≠ .acquiring r a .parked) {a : SlotId} {slot : Slot}
    (hslot : s.heap[a]? = some slot) : i ∉ slot.notify.waiters := by
  intro hi
  obtain ⟨r, hr⟩ := (h a slot hslot).2 i hi
  exact hparked r a (Option.some.inj (ht.symm.trans hr))

/-- The step of a task that is in no list. -/
theorem Listed.put (h : Listed s)
    (hnot : ∀ (a : SlotId) (slot : Slot), s.heap[a]? = some slot → i ∉ slot.notify.waiters) :
    Listed (s.put i t') := by
  intro a slot hslot
  refine ⟨(h a slot hslot).1, fun j hj => ?_⟩
  have hne : i ≠ j := by
    rintro rfl
    exact hnot a slot hslot hj
  obtain ⟨r, hr⟩ := (h a slot hslot).2 j hj
  exact ⟨r, by rw [State.put, List.getElem?_set_ne hne, hr]⟩

theorem Listed.spawn (h : Listed s) : Listed (s.spawn t) := by
  intro a slot hslot
  refine ⟨(h a slot hslot).1, fun j hj => ?_⟩
  obtain ⟨r, hr⟩ := (h a slot hslot).2 j hj
  exact ⟨r, getElem?_append_of hr⟩

/-- A task moves and its slot is written: the new list is without repetition, its members but for
the task itself were in the old one, and the task is in it only if it is parked there. -/
theorem Listed.write (h : Listed s) {a : SlotId} {slot slot' : Slot}
    (hslot : s.heap[a]? = some slot) (ht : s.tasks[i]? = some t)
    (hother : ∀ r b, t = .acquiring r b .parked → b = a) (hnodup : slot'.notify.waiters.Nodup)
    (hmem : ∀ j ∈ slot'.notify.waiters, j ≠ i → j ∈ slot.notify.waiters)
    (hself : i ∈ slot'.notify.waiters → ∃ r, t' = .acquiring r a .parked) :
    Listed (s.write i t' a slot') := by
  intro b slotb hb
  rcases getElem?_set_cases hb with ⟨rfl, rfl⟩ | ⟨hne, hb⟩
  · refine ⟨hnodup, fun j hj => ?_⟩
    rcases eq_or_ne j i with rfl | hji
    · obtain ⟨r, rfl⟩ := hself hj
      exact ⟨r, getElem?_set_self ht _⟩
    · obtain ⟨r, hr⟩ := (h a slot hslot).2 j (hmem j hj hji)
      exact ⟨r, by rw [State.write, List.getElem?_set_ne hji.symm, hr]⟩
  · refine ⟨(h b slotb hb).1, fun j hj => ?_⟩
    obtain ⟨r, hr⟩ := (h b slotb hb).2 j hj
    have hji : j ≠ i := by
      rintro rfl
      exact hne (hother r b (Option.some.inj (ht.symm.trans hr))).symm
    exact ⟨r, by rw [State.write, List.getElem?_set_ne hji.symm, hr]⟩

/-- The step of a task that is not parked, which leaves the list of its slot alone. -/
theorem Listed.write_same (h : Listed s) {a : SlotId} {slot slot' : Slot}
    (hslot : s.heap[a]? = some slot) (ht : s.tasks[i]? = some t)
    (hparked : ∀ r a, t ≠ .acquiring r a .parked)
    (hsame : slot'.notify.waiters = slot.notify.waiters) : Listed (s.write i t' a slot') := by
  refine h.write hslot ht (fun r b hp => absurd hp (hparked r b)) ?_ ?_ ?_
  · rw [hsame]
    exact (h a slot hslot).1
  · intro j hj _
    rwa [hsame] at hj
  · intro hi
    rw [hsame] at hi
    exact absurd hi (h.notMem ht hparked hslot)

/-- A notification takes the task it wakes out of the list. -/
theorem Listed.notify (h : Listed s) {a : SlotId} {slot slot' : Slot}
    (hslot : s.heap[a]? = some slot) (ht : s.tasks[i]? = some t)
    (hparked : ∀ r a, t ≠ .acquiring r a .parked) (hnew : slot'.notify = slot.notify.notifyOne.1) :
    Listed ((s.write i t' a slot').wake slot.notify.notifyOne.2) := by
  have hi := h.notMem ht hparked hslot
  obtain ⟨hnodup, hmem⟩ := h a slot hslot
  cases hw : slot.notify.waiters with
  | nil =>
      obtain ⟨-, hnil, hnone⟩ := Notify.notifyOne_of_nil hw
      rw [hnone]
      refine h.write_same hslot ht hparked ?_
      rw [hnew, hnil, hw]
  | cons j rest =>
      obtain ⟨-, hrest, hsome⟩ := Notify.notifyOne_of_cons hw
      rw [hw] at hi hnodup hmem
      obtain ⟨r, hr⟩ := hmem j List.mem_cons_self
      have hji : j ≠ i := fun hji => hi (hji ▸ List.mem_cons_self)
      have hwritten : Listed (s.write i t' a slot') := by
        refine h.write hslot ht (fun r b hp => absurd hp (hparked r b)) ?_ ?_ ?_
        · rw [hnew, hrest]
          exact hnodup.of_cons
        · intro l hl _
          rw [hnew, hrest] at hl
          rw [hw]
          exact List.mem_cons_of_mem j hl
        · intro hi'
          rw [hnew, hrest] at hi'
          exact absurd (List.mem_cons_of_mem j hi') hi
      have hj : (s.write i t' a slot').tasks[j]? = some (.acquiring r a .parked) := by
        rw [State.write, List.getElem?_set_ne hji.symm, hr]
      rw [hsome, State.wake_parked hj]
      -- the woken task is parked on this slot only, and it has left the list of this slot
      refine hwritten.put fun b slotb hb hjb => ?_
      obtain ⟨r', hr'⟩ := (hwritten b slotb hb).2 j hjb
      obtain ⟨-, rfl, -⟩ := Task.acquiring.inj (Option.some.inj (hj.symm.trans hr'))
      obtain rfl : slotb = slot' := Option.some.inj (hb.symm.trans (getElem?_set_self hslot _))
      rw [hnew, hrest] at hjb
      exact (List.nodup_cons.1 hnodup).1 hjb

end

/-- The loop of `acquire` registers its task with the cell when it parks it, and touches no list
otherwise. -/
theorem Listed.acquire {s : State} {i : TaskId} {r : Request} {a : SlotId} {pc : AcquirePc r}
    {slot slot' : Slot} {next : AcquireNext r} (h : Listed s)
    (ht : s.tasks[i]? = some (.acquiring r a pc)) (hslot : s.heap[a]? = some slot)
    (hstep : acquireStep i r slot pc = some (slot', next)) :
    Listed (s.write i (next.task a) a slot') := by
  have hparked : ∀ r' a', Task.acquiring r a pc ≠ .acquiring r' a' .parked := by
    rintro r' a' ⟨⟩
    cases hstep
  have hi := h.notMem ht hparked hslot
  cases pc with
  | notified =>
      obtain ⟨rfl, rfl⟩ := Prod.mk.inj (Option.some.inj hstep)
      cases hp : slot.notify.permit with
      | true =>
          refine h.write_same hslot ht hparked ?_
          simp [Notify.poll, hp]
      | false =>
          have hpoll : (slot.notify.poll i).1.waiters = slot.notify.waiters ++ [i] := by
            simp [Notify.poll, hp]
          refine h.write hslot ht (fun r b hb => absurd hb (hparked r b)) ?_ ?_ ?_
          · change (slot.notify.poll i).1.waiters.Nodup
            rw [hpoll]
            exact List.nodup_append.2 ⟨(h a slot hslot).1, List.nodup_singleton i,
              fun x hx y hy => by rintro rfl; exact hi ((List.mem_singleton.1 hy) ▸ hx)⟩
          · intro j hj hji
            have hj : j ∈ slot.notify.waiters ++ [i] := hpoll ▸ hj
            rcases List.mem_append.1 hj with hj | hj
            · exact hj
            · exact absurd (List.mem_singleton.1 hj) hji
          · intro _
            exact ⟨r, by simp [AcquireNext.task, Notify.poll, hp]⟩
  | parked => cases hstep
  | _ =>
      refine h.write_same hslot ht hparked ?_
      simp only [acquireStep] at hstep
      first
        | split at hstep <;> obtain ⟨rfl, -⟩ := Prod.mk.inj (Option.some.inj hstep) <;> rfl
        | obtain ⟨rfl, -⟩ := Prod.mk.inj (Option.some.inj hstep)
          rfl

/-- The end of a wait: a parked task leaves the list, and a woken one passes its wake-up on. -/
theorem Listed.endWait {s : State} {i : TaskId} {r : Request} {a : SlotId} {pc : AcquirePc r}
    {slot : Slot} {woken : Bool} {t' : Task} (h : Listed s)
    (ht : s.tasks[i]? = some (.acquiring r a pc)) (hwaits : pc.waiting = some woken)
    (hslot : s.heap[a]? = some slot) : Listed (s.endWait i t' a slot woken) := by
  cases pc with
  | parked =>
      obtain rfl : false = woken := Option.some.inj hwaits
      obtain ⟨hnodup, -⟩ := h a slot hslot
      refine h.write hslot ht ?_ ?_ ?_ ?_
      · intro r' b hb
        exact ((Task.acquiring.inj hb).2.1).symm
      · exact hnodup.erase i
      · intro j hj _
        exact List.mem_of_mem_erase hj
      · intro hi
        exact absurd rfl ((hnodup.mem_erase_iff).1 hi).1
  | woken =>
      obtain rfl : true = woken := Option.some.inj hwaits
      refine h.notify hslot ht ?_ rfl
      rintro r' b ⟨⟩
  | _ => cases hwaits

/-- Every step keeps the lists. -/
theorem listed_step {s s' : State} {act : Action} (h : Listed s)
    (hstep : step cfg s act = some s') :
    Listed s' := by
  cases change_of_step hstep with
  | call c => exact h.spawn
  | clearNode n => exact h.spawn
  | move ht _ hfollows _ => exact h.put fun a slot => h.notMem ht hfollows.awake
  | slotEntry ht =>
      intro a slot hslot
      rcases getElem?_append_cases hslot with ⟨rfl, rfl⟩ | hslot
      · exact ⟨List.nodup_nil, fun j hj => absurd hj List.not_mem_nil⟩
      · exact h.put (fun a slot => h.notMem ht nofun) a slot hslot
  | acquire ht hslot hacq => exact h.acquire ht hslot hacq
  | releaseFound ht hget => exact h.put fun a slot => h.notMem ht nofun
  | releaseMissing ht hget => exact h.put fun a slot => h.notMem ht nofun
  | fetchSub ht hslot => exact h.write_same hslot ht nofun rfl
  | notifyOne ht hslot => exact h.notify hslot ht nofun rfl
  | timeout ht hwaits hslot => exact h.endWait ht hwaits hslot
  | cancel ht hwaits hslot => exact h.endWait ht hwaits hslot
  | clearShard ht => exact h.put fun a slot => h.notMem ht nofun

/-! ### The balance, step by step -/

theorem indicator_eager {r : Request} (a : SlotId) (pc : AcquirePc r) :
    indicator (Task.eager a) (.acquiring r a pc) = pc.eager.toNat := by
  cases h : pc.eager <;> simp [indicator, Task.eager, h]

theorem indicator_seeks {r : Request} (a : SlotId) (pc : AcquirePc r) :
    indicator (Task.seeks a) (.acquiring r a pc) = pc.seeks.toNat := by
  cases h : pc.seeks <;> simp [indicator, Task.seeks, h]

theorem indicator_tells {r : Request} (a : SlotId) (pc : AcquirePc r) :
    indicator (Task.tells a) (.acquiring r a pc) = 0 := rfl

/-- Where a step of `acquire` leads to, as a call that goes for a place. -/
def AcquireNext.eager {r : Request} : AcquireNext r → Bool
  | .at pc => pc.eager
  | _ => false

/-- Where a step of `acquire` leads to, as a call that waits or is on its way to the wait. -/
def AcquireNext.seeks {r : Request} : AcquireNext r → Bool
  | .at pc => pc.seeks
  | _ => false

/-- **A step of `acquire` keeps the balance of its slot**: it gives up going for a place only when
it has taken one or found the counter at its limit, and it takes the permit only to go for a place.
-/
theorem covered_of_acquireStep {i : TaskId} {r : Request} {slot slot' : Slot} {pc : AcquirePc r}
    {next : AcquireNext r} {E T S : ℕ} (hstep : acquireStep i r slot pc = some (slot', next))
    (h : Covered r.concurrency.toNat slot.active.toNat (E + pc.eager.toNat) T
      (S + pc.seeks.toNat) slot.notify.permit.toNat) :
    Covered r.concurrency.toNat slot'.active.toNat (E + next.eager.toNat) T
      (S + next.seeks.toNat) slot'.notify.permit.toNat := by
  simp only [Covered] at h ⊢
  cases pc with
  | loadActive =>
      simp only [acquireStep] at hstep
      split at hstep
      · obtain ⟨rfl, rfl⟩ := Prod.mk.inj (Option.some.inj hstep)
        exact h
      · -- the counter is at its limit, so that no place is free
        rename_i hfull
        obtain ⟨rfl, rfl⟩ := Prod.mk.inj (Option.some.inj hstep)
        rw [UInt32.lt_iff_toNat_lt] at hfull
        left
        omega
  | casActive active below =>
      simp only [acquireStep] at hstep
      split at hstep
      · rename_i heq
        obtain ⟨rfl, rfl⟩ := Prod.mk.inj (Option.some.inj hstep)
        subst heq
        simp only [AcquirePc.eager, AcquirePc.seeks, AcquireNext.eager, AcquireNext.seeks,
          Bool.toNat_true, Bool.toNat_false, toNat_raise below] at h ⊢
        omega
      · obtain ⟨rfl, rfl⟩ := Prod.mk.inj (Option.some.inj hstep)
        exact h
  | loadQueued active =>
      simp only [acquireStep] at hstep
      split at hstep
      · obtain ⟨rfl, rfl⟩ := Prod.mk.inj (Option.some.inj hstep)
        simp only [AcquirePc.eager, AcquirePc.seeks, AcquireNext.eager, AcquireNext.seeks,
          Bool.toNat_true, Bool.toNat_false] at h ⊢
        omega
      · obtain ⟨rfl, rfl⟩ := Prod.mk.inj (Option.some.inj hstep)
        exact h
  | casQueued active queued below =>
      simp only [acquireStep] at hstep
      split at hstep
      · obtain ⟨rfl, rfl⟩ := Prod.mk.inj (Option.some.inj hstep)
        exact h
      · obtain ⟨rfl, rfl⟩ := Prod.mk.inj (Option.some.inj hstep)
        simp only [AcquirePc.eager, AcquirePc.seeks, AcquireNext.eager, AcquireNext.seeks,
          Bool.toNat_true, Bool.toNat_false] at h ⊢
        omega
  | notified =>
      obtain ⟨rfl, rfl⟩ := Prod.mk.inj (Option.some.inj hstep)
      cases hp : slot.notify.permit with
      | true =>
          simp only [Notify.poll, hp, if_true, AcquirePc.eager, AcquirePc.seeks,
            AcquireNext.eager, AcquireNext.seeks, Bool.toNat_true, Bool.toNat_false] at h ⊢
          omega
      | false =>
          simp only [Notify.poll, hp, Bool.false_eq_true, if_false, AcquireNext.eager,
            AcquireNext.seeks] at h ⊢
          exact h
  | parked => cases hstep
  | woken =>
      obtain ⟨rfl, rfl⟩ := Prod.mk.inj (Option.some.inj hstep)
      exact h
  | leaveQueue ok =>
      obtain ⟨rfl, rfl⟩ := Prod.mk.inj (Option.some.inj hstep)
      cases ok <;> exact h
  | timeoutQueued =>
      obtain ⟨rfl, rfl⟩ := Prod.mk.inj (Option.some.inj hstep)
      exact h
  | timeoutActive queued =>
      obtain ⟨rfl, rfl⟩ := Prod.mk.inj (Option.some.inj hstep)
      exact h

section

variable {c : UInt32} {a : SlotId} {s : State} {i : TaskId} {t : Task}

/-- A count is what the task `i` counts as and the rest, which a step of `i` does not change. -/
theorem exists_rest (ht : s.tasks[i]? = some t) (p : Task → Bool) :
    ∃ n, s.count p = n + indicator p t ∧
      ∀ t' slots heap, State.count ⟨slots, heap, s.tasks.set i t'⟩ p = n + indicator p t' := by
  have hle : indicator p t ≤ s.count p := le_total (List.mem_of_getElem? ht)
  refine ⟨s.count p - indicator p t, by omega, fun t' slots heap => ?_⟩
  have hset : State.count ⟨slots, heap, s.tasks.set i t'⟩ p + indicator p t =
      s.count p + indicator p t' := total_set _ ht t'
  omega

/-- A counting predicate that can only gain or only lose. -/
theorem indicator_le {p : Task → Bool} {t t' : Task} (h : p t = true → p t' = true) :
    indicator p t ≤ indicator p t' := by
  cases hp : p t with
  | false => simp [indicator, hp]
  | true => simp [indicator, hp, h hp]

/-- A task that moves on without writing its slot keeps the balance when it only gains as a call
that goes for a place and only loses as one that waits. -/
theorem Answered.put {t' : Task} (h : Answered c a s)
    (slots : ShardMap ModelCapacityKey SlotId) (ht : s.tasks[i]? = some t)
    (heager : t.eager a = true → t'.eager a = true)
    (hseeks : t'.seeks a = true → t.seeks a = true)
    (htells : t'.tells a = t.tells a) : Answered c a ⟨slots, s.heap, s.tasks.set i t'⟩ := by
  intro slot hslot
  have hcov := h slot hslot
  obtain ⟨E, hE, hE'⟩ := exists_rest ht (Task.eager a)
  obtain ⟨T, hT, hT'⟩ := exists_rest ht (Task.tells a)
  obtain ⟨S, hS, hS'⟩ := exists_rest ht (Task.seeks a)
  have hle := indicator_le heager
  have hge := indicator_le hseeks
  have htell : indicator (Task.tells a) t' = indicator (Task.tells a) t := by
    simp only [indicator, htells]
  rw [hE, hT, hS] at hcov
  rw [hE', hT', hS', htell]
  simp only [Covered] at hcov ⊢
  omega

theorem Answered.spawn {t' : Task} (h : Answered c a s) (heager : t'.eager a = false)
    (hseeks : t'.seeks a = false) (htells : t'.tells a = false) : Answered c a (s.spawn t') := by
  intro slot hslot
  have hcov := h slot hslot
  rw [State.count_spawn, State.count_spawn, State.count_spawn, indicator_of_not heager,
    indicator_of_not hseeks, indicator_of_not htells]
  exact hcov

/-- A task that writes its slot keeps the balance of every other slot, and of its own when the
numbers of the slot keep it. -/
theorem Answered.write {t' : Task} {b : SlotId} {slot slot' : Slot} (h : Answered c a s)
    (ht : s.tasks[i]? = some t) (hslot : s.heap[b]? = some slot)
    (hother : ∀ d, d ≠ b → t'.eager d = t.eager d ∧ t'.seeks d = t.seeks d ∧ t'.tells d = t.tells d)
    (hown : a = b → ∀ E T S,
      Covered c.toNat slot.active.toNat (E + indicator (Task.eager b) t)
        (T + indicator (Task.tells b) t) (S + indicator (Task.seeks b) t)
        slot.notify.permit.toNat →
      Covered c.toNat slot'.active.toNat (E + indicator (Task.eager b) t')
        (T + indicator (Task.tells b) t') (S + indicator (Task.seeks b) t')
        slot'.notify.permit.toNat) :
    Answered c a (s.write i t' b slot') := by
  rcases eq_or_ne a b with rfl | hab
  · intro slot₁ hslot₁
    obtain rfl : slot₁ = slot' :=
      Option.some.inj (hslot₁.symm.trans (getElem?_set_self hslot slot'))
    have hcov := h slot hslot
    obtain ⟨E, hE, hE'⟩ := exists_rest ht (Task.eager a)
    obtain ⟨T, hT, hT'⟩ := exists_rest ht (Task.tells a)
    obtain ⟨S, hS, hS'⟩ := exists_rest ht (Task.seeks a)
    rw [hE, hT, hS] at hcov
    rw [State.write, hE', hT', hS']
    exact hown rfl E T S hcov
  · obtain ⟨heager, hseeks, htells⟩ := hother a hab
    intro slot₁ hslot₁
    rcases getElem?_set_cases hslot₁ with ⟨hba, -⟩ | ⟨-, hold⟩
    · exact absurd hba.symm hab
    · exact h.put s.slots ht (fun he => heager.trans he) (fun hs => hseeks.symm.trans hs) htells
        slot₁
        hold

/-- The task holds one notification for the slot `b`: it is a drop about to notify, or a call that
has been woken. -/
structure Notifier (t : Task) (b : SlotId) : Prop where
  one : indicator (Task.eager b) t + indicator (Task.tells b) t = 1
  awake : ∀ d, t.seeks d = false
  other : ∀ d, d ≠ b → t.eager d = false ∧ t.tells d = false

theorem notifier_drop (k : ModelCapacityKey) (issued b : SlotId) :
    Notifier (.releasing k issued (.notifyOne b)) b where
  one := by simp [indicator, Task.eager, Task.tells]
  awake _ := rfl
  other d hd := ⟨rfl, by simp [Task.tells, hd.symm]⟩

theorem notifier_woken (r : Request) (b : SlotId) : Notifier (.acquiring r b .woken) b where
  one := by simp [indicator, Task.eager, Task.tells, AcquirePc.eager]
  awake d := by simp [Task.seeks, AcquirePc.seeks]
  other d hd := ⟨by simp [Task.eager, hd.symm], rfl⟩

/-- **A notification keeps the balance**: it turns a waiting call into one that goes for a place, or
it leaves a permit; and if a permit is stored already, the balance has to hold without it. -/
theorem Answered.notify {t' : Task} {b : SlotId} {slot slot' : Slot} (h : Answered c a s)
    (hlisted : Listed s) (ht : s.tasks[i]? = some t) (hslot : s.heap[b]? = some slot)
    (hparked : ∀ r d, t ≠ .acquiring r d .parked) (hold : Notifier t b)
    (hquiet : ∀ d, t'.eager d = false ∧ t'.seeks d = false ∧ t'.tells d = false)
    (hactive : slot'.active = slot.active) (hnew : slot'.notify = slot.notify.notifyOne.1)
    (hheeds : a = b → slot.notify.permit = true →
      Covered c.toNat slot.active.toNat (s.count (Task.eager a) - indicator (Task.eager a) t)
        (s.count (Task.tells a) - indicator (Task.tells a) t) (s.count (Task.seeks a)) 1) :
    Answered c a ((s.write i t' b slot').wake slot.notify.notifyOne.2) := by
  have hseeks : indicator (Task.seeks b) t = 0 := indicator_of_not (hold.awake b)
  have heager' : indicator (Task.eager b) t' = 0 := indicator_of_not (hquiet b).1
  have hseeks' : indicator (Task.seeks b) t' = 0 := indicator_of_not (hquiet b).2.1
  have htells' : indicator (Task.tells b) t' = 0 := indicator_of_not (hquiet b).2.2
  have hwake : ∀ j rest, slot.notify.waiters = j :: rest →
      ∃ r, (s.write i t' b slot').tasks[j]? = some (.acquiring r b .parked) := by
    intro j rest hw
    obtain ⟨r, hr⟩ := (hlisted b slot hslot).2 j (by simp [hw])
    have hij : i ≠ j := by
      rintro rfl
      exact hparked r b (Option.some.inj (ht.symm.trans hr))
    exact ⟨r, by rw [State.write, List.getElem?_set_ne hij, hr]⟩
  rcases eq_or_ne a b with rfl | hab
  · intro slot₁ hslot₁
    rw [State.heap_wake] at hslot₁
    obtain rfl : slot₁ = slot' :=
      Option.some.inj (hslot₁.symm.trans (getElem?_set_self hslot slot'))
    have hcov := h slot hslot
    have hone := hold.one
    obtain ⟨E, hE, hE'⟩ := exists_rest ht (Task.eager a)
    obtain ⟨T, hT, hT'⟩ := exists_rest ht (Task.tells a)
    obtain ⟨S, hS, hS'⟩ := exists_rest ht (Task.seeks a)
    rw [hE, hT, hS] at hcov hheeds
    cases hw : slot.notify.waiters with
    | nil =>
        obtain ⟨hpermit, -, hnone⟩ := Notify.notifyOne_of_nil hw
        rw [hnone, State.wake, State.write, hE', hT', hS', heager', hseeks', htells', hactive, hnew,
          hpermit]
        cases hstored : slot.notify.permit with
        | true =>
            have hkept := hheeds rfl hstored
            simp only [Covered, Bool.toNat_true] at hkept ⊢
            omega
        | false =>
            simp only [hstored, Covered, Bool.toNat_true, Bool.toNat_false] at hcov ⊢
            omega
    | cons j rest =>
        obtain ⟨hpermit, -, hsome⟩ := Notify.notifyOne_of_cons hw
        have hstored := Notify.permit_of_cons hw
        obtain ⟨r, hj⟩ := hwake j rest hw
        have hwE := State.count_put hj (.acquiring r a .woken) (Task.eager a)
        have hwT := State.count_put hj (.acquiring r a .woken) (Task.tells a)
        have hwS := State.count_put hj (.acquiring r a .woken) (Task.seeks a)
        rw [State.write, hE', heager', indicator_eager, indicator_eager] at hwE
        rw [State.write, hT', htells', indicator_tells, indicator_tells] at hwT
        rw [State.write, hS', hseeks', indicator_seeks, indicator_seeks] at hwS
        rw [hsome, State.wake_parked hj, State.write, hactive, hnew, hpermit]
        simp only [hstored, Covered, AcquirePc.eager, AcquirePc.seeks, Bool.toNat_true,
          Bool.toNat_false] at hcov hwE hwS ⊢
        omega
  · -- another slot: neither the task nor the one it wakes counts for this one
    have hother : ∀ d, d ≠ b →
        t'.eager d = t.eager d ∧ t'.seeks d = t.seeks d ∧ t'.tells d = t.tells d := by
      intro d hd
      obtain ⟨heager, hseeks, htells⟩ := hquiet d
      obtain ⟨hte, htt⟩ := hold.other d hd
      exact ⟨heager.trans hte.symm, hseeks.trans (hold.awake d).symm, htells.trans htt.symm⟩
    have hwritten : Answered c a (s.write i t' b slot') :=
      h.write ht hslot hother fun heq => absurd heq hab
    cases hw : slot.notify.waiters with
    | nil =>
        obtain ⟨-, -, hnone⟩ := Notify.notifyOne_of_nil hw
        rw [hnone]
        exact hwritten
    | cons j rest =>
        obtain ⟨-, -, hsome⟩ := Notify.notifyOne_of_cons hw
        obtain ⟨r, hj⟩ := hwake j rest hw
        rw [hsome, State.wake_parked hj]
        refine hwritten.put _ hj ?_ ?_ rfl
        · intro he
          simp [Task.eager, hab.symm] at he
        · intro hs
          simp [Task.seeks, hab.symm] at hs

/-- The end of a wait keeps the balance. -/
theorem Answered.endWait {t' : Task} {r : Request} {b : SlotId} {pc : AcquirePc r} {slot : Slot}
    {woken : Bool} (h : Answered c a s) (hlisted : Listed s)
    (ht : s.tasks[i]? = some (.acquiring r b pc)) (hwaits : pc.waiting = some woken)
    (hslot : s.heap[b]? = some slot)
    (hquiet : ∀ d, t'.eager d = false ∧ t'.seeks d = false ∧ t'.tells d = false)
    (hheeds : a = b → woken = true → slot.notify.permit = true →
      Covered c.toNat slot.active.toNat (s.count (Task.eager a) - 1) (s.count (Task.tells a))
        (s.count (Task.seeks a)) 1) :
    Answered c a (s.endWait i t' b slot woken) := by
  cases pc with
  | parked =>
      obtain rfl : false = woken := Option.some.inj hwaits
      refine h.write ht hslot ?_ ?_
      · intro d hd
        obtain ⟨heager, hseeks, htells⟩ := hquiet d
        refine ⟨heager.trans ?_, hseeks.trans ?_, htells⟩
        · simp [Task.eager, hd.symm]
        · simp [Task.seeks, hd.symm]
      · -- one call less waits, and the cell keeps its permit
        intro _ E T S hcov
        obtain ⟨heager, hseeks, htells⟩ := hquiet b
        rw [indicator_eager, indicator_seeks, indicator_tells] at hcov
        rw [indicator_of_not heager, indicator_of_not hseeks, indicator_of_not htells]
        simp only [Covered, AcquirePc.eager, AcquirePc.seeks, Bool.toNat_true, Bool.toNat_false,
          Slot.endWait, Notify.leave, Bool.false_eq_true, if_false] at hcov ⊢
        omega
  | woken =>
      obtain rfl : true = woken := Option.some.inj hwaits
      refine h.notify hlisted ht hslot ?_ (notifier_woken r b) hquiet rfl rfl ?_
      · rintro r' d ⟨⟩
      · rintro rfl hstored
        rw [indicator_eager, indicator_tells]
        exact hheeds rfl rfl hstored
  | _ => cases hwaits

end

/-- What heeding the stored permit says of a notification on the slot of the key. -/
theorem covered_of_heeds {k : ModelCapacityKey} {c : UInt32} {a : SlotId} {s : State} {act : Action}
    {slot : Slot} {eager tells : ℕ} (h : s.heeds k c act = true)
    (hnotice : s.notice act = some (a, eager, tells)) (hslot : s.heap[a]? = some slot)
    (hget : s.slots.get k = some a) (hpermit : slot.notify.permit = true) :
    Covered c.toNat slot.active.toNat eager tells (s.count (Task.seeks a)) 1 := by
  simpa [State.heeds, hnotice, hslot, hget, hpermit] using h

/-- The balance of the slot of a key. -/
def Balanced (k : ModelCapacityKey) (c : UInt32) (s : State) : Prop :=
  ∀ a, s.slots.get k = some a → Answered c a s

/-- Every request for the key that is in progress has the limit `c`. -/
def LimitOf (k : ModelCapacityKey) (c : UInt32) (s : State) : Prop :=
  ∀ t ∈ s.tasks, ∀ r, t.request = some r → r.key = k → r.concurrency = c

section

variable {k : ModelCapacityKey} {c : UInt32} {s : State} {i : TaskId}

/-- A slot that has just been allocated is balanced, since nobody waits on it, and the step changes
no other slot. -/
theorem Balanced.slotEntry {cl : Caller} (h : Balanced k c s)
    (cfg : Sharding ModelCapacityKey) (hrange : InRange s)
    (ht : s.tasks[i]? = some (.slotEntry cl)) :
    Balanced k c ⟨(s.slots.entryOrInsert cl.key s.heap.length).2, s.heap ++ [Slot.new],
      s.tasks.set i (cl.withSlot (s.slots.entryOrInsert cl.key s.heap.length).1)⟩ := by
  have hseeks : ∀ a b, Task.seeks a (cl.withSlot b) = false := by
    intro a b
    cases cl with
    | acquire r => simp [Caller.withSlot, Task.seeks, AcquirePc.seeks]
    | snapshotWithConcurrency j n => rfl
  have htells : ∀ a b, Task.tells a (cl.withSlot b) = false := by
    intro a b
    cases cl <;> rfl
  intro a hget slot hslot
  rcases getElem?_append_cases hslot with ⟨rfl, rfl⟩ | hold
  · have hfresh : s.count (Task.seeks s.heap.length) = 0 := by
      refine count_fresh hrange fun t a hta => ?_
      cases t with
      | acquiring r b pc =>
          simp only [Task.seeks, Bool.and_eq_true, decide_eq_true_eq] at hta
          obtain ⟨rfl, -⟩ := hta
          exact ⟨r.key, List.mem_cons_self⟩
      | _ => cases hta
    obtain ⟨S, hS, hS'⟩ := exists_rest ht (Task.seeks s.heap.length)
    right
    rw [hS', indicator_of_not (hseeks _ _)]
    omega
  · have hchange : Change cfg s (.step i) _ := Change.slotEntry ht
    rcases slots_of_change hchange hget with hget | ⟨-, -, -, -, -, rfl, -⟩
    · refine (h a hget).put (s.slots.entryOrInsert cl.key s.heap.length).2 ht ?_ ?_ (htells a _)
        slot hold
      · intro he
        cases he
      · intro hs
        rw [hseeks] at hs
        cases hs
    · rw [List.getElem?_eq_none (le_refl _)] at hold
      cases hold

/-- The loop of `acquire` keeps the balance of its slot, and counts for no other slot. -/
theorem Answered.acquire {a b : SlotId} {r : Request} {pc : AcquirePc r} {slot slot' : Slot}
    {next : AcquireNext r} (h : Answered c a s) (ht : s.tasks[i]? = some (.acquiring r b pc))
    (hslot : s.heap[b]? = some slot) (hstep : acquireStep i r slot pc = some (slot', next))
    (hlimit : a = b → r.concurrency = c) : Answered c a (s.write i (next.task b) b slot') := by
  have htells : ∀ d, Task.tells d (next.task b) = false := by
    intro d
    cases next <;> rfl
  have heager : indicator (Task.eager b) (next.task b) = next.eager.toNat := by
    cases next with
    | «at» pc' => exact indicator_eager b pc'
    | admitted => rfl
    | failed e => rfl
  have hseeks : indicator (Task.seeks b) (next.task b) = next.seeks.toNat := by
    cases next with
    | «at» pc' => exact indicator_seeks b pc'
    | admitted => rfl
    | failed e => rfl
  refine h.write ht hslot ?_ ?_
  · intro d hd
    refine ⟨?_, ?_, htells d⟩
    · cases next <;> simp [AcquireNext.task, Task.eager, hd.symm]
    · cases next <;> simp [AcquireNext.task, Task.seeks, hd.symm]
  · intro hab E T S hcov
    obtain rfl := hlimit hab
    rw [indicator_eager, indicator_seeks, indicator_tells] at hcov
    rw [heager, hseeks, indicator_of_not (htells b)]
    exact covered_of_acquireStep hstep hcov

/-- The place that a drop frees is answered for by the drop itself. -/
theorem Answered.fetchSub {a b : SlotId} {j : ModelCapacityKey} {issued : SlotId} {slot : Slot}
    (h : Answered c a s) (ht : s.tasks[i]? = some (.releasing j issued (.fetchSub b)))
    (hslot : s.heap[b]? = some slot) :
    Answered c a (s.write i (.releasing j issued (.notifyOne b)) b
      { slot with active := slot.active - 1 }) := by
  refine h.write ht hslot (fun d hd => ⟨rfl, rfl, by simp [Task.tells, hd.symm]⟩) ?_
  intro _ E T S hcov
  have htells : indicator (Task.tells b) (.releasing j issued (.notifyOne b)) = 1 :=
    indicator_of (by simp [Task.tells])
  have hlower : slot.active.toNat ≤ (slot.active - 1).toNat + 1 := by
    have hlt := slot.active.toNat_lt
    rw [UInt32.toNat_sub]
    simp only [UInt32.reduceToNat]
    omega
  rw [htells]
  simp only [Covered, indicator, Task.eager, Task.tells, Task.seeks, Bool.false_eq_true,
    if_false] at hcov ⊢
  omega

end

/-- **Every step that heeds the stored permit keeps the balance of the slot of the key.** -/
theorem answered_step {k : ModelCapacityKey} {c : UInt32} {s s' : State} {act : Action}
    (hbalanced : Balanced k c s) (hlisted : Listed s) (hmapped : Mapped s) (hlimit : LimitOf k c s)
    (hheeds : s.heeds k c act = true) (hstep : step cfg s act = some s') : Balanced k c s' := by
  cases change_of_step hstep with
  | call cl => exact fun a hget => (hbalanced a hget).spawn rfl rfl rfl
  | clearNode n => exact fun a hget => (hbalanced a hget).spawn rfl rfl rfl
  | move ht _ hfollows _ =>
      intro a hget
      exact (hbalanced a hget).put s.slots ht (hfollows.eager a) (hfollows.seeks a)
        (hfollows.tells a)
  | slotEntry ht => exact hbalanced.slotEntry cfg hmapped.inRange ht
  | @acquire i r b pc slot slot' next ht hslot hacq =>
      intro a hget
      refine (hbalanced a hget).acquire ht hslot hacq ?_
      rintro rfl
      have hmem := List.mem_of_getElem? ht
      have hrefs := hmapped.refs _ hmem (r.key, a) List.mem_cons_self
      exact hlimit _ hmem r rfl (hmapped.unique r.key k a hrefs hget)
  | releaseFound ht _ =>
      intro a hget
      exact (hbalanced a hget).put s.slots ht (fun he => by cases he) (fun hs => by cases hs) rfl
  | releaseMissing ht _ =>
      intro a hget
      exact (hbalanced a hget).put s.slots ht (fun he => by cases he) (fun hs => by cases hs) rfl
  | fetchSub ht hslot => exact fun a hget => (hbalanced a hget).fetchSub ht hslot
  | @notifyOne i j issued b slot ht hslot =>
      intro a hget
      rw [State.slots_wake] at hget
      refine (hbalanced a hget).notify hlisted ht hslot nofun (notifier_drop j issued b)
        (fun d => ⟨rfl, rfl, rfl⟩) rfl rfl ?_
      rintro rfl hpermit
      have hnotice : s.notice (.step i) =
          some (a, s.count (Task.eager a), s.count (Task.tells a) - 1) := by
        simp only [State.notice, ht]
      have htells : indicator (Task.tells a) (.releasing j issued (.notifyOne a)) = 1 :=
        indicator_of (by simp [Task.tells])
      have heager : indicator (Task.eager a) (.releasing j issued (.notifyOne a)) = 0 := rfl
      rw [htells, heager]
      exact covered_of_heeds hheeds hnotice hslot hget hpermit
  | @timeout i r b pc slot woken ht hwaits hslot =>
      intro a hget
      rw [State.endWait, State.slots_wake] at hget
      refine (hbalanced a hget).endWait hlisted ht hwaits hslot (fun d => ⟨?_, ?_, rfl⟩) ?_
      · simp [Task.eager, AcquirePc.eager]
      · simp [Task.seeks, AcquirePc.seeks]
      · rintro rfl rfl hpermit
        refine covered_of_heeds hheeds ?_ hslot hget hpermit
        cases pc <;> simp [AcquirePc.waiting] at hwaits
        simp only [State.notice, ht]
  | @cancel i r b pc slot woken ht hwaits hslot =>
      intro a hget
      rw [State.endWait, State.slots_wake] at hget
      refine (hbalanced a hget).endWait hlisted ht hwaits hslot (fun d => ⟨rfl, rfl, rfl⟩) ?_
      rintro rfl rfl hpermit
      refine covered_of_heeds hheeds ?_ hslot hget hpermit
      cases pc <;> simp [AcquirePc.waiting] at hwaits
      simp only [State.notice, ht]
  | clearShard ht => exact absurd rfl (hmapped.noneClears _ (List.mem_of_getElem? ht) _ _)

/-! ### Runs -/

/-- All that the balance of a key rests on. -/
structure Attended (k : ModelCapacityKey) (c : UInt32) (s : State) : Prop where
  mapped : Mapped s
  listed : Listed s
  limit : LimitOf k c s
  balanced : Balanced k c s

theorem attended_init (k : ModelCapacityKey) (c : UInt32) : Attended k c init where
  mapped := mapped_init
  listed := listed_init
  limit t ht := absurd ht List.not_mem_nil
  balanced a hget := by cases hget

theorem attended_step {k : ModelCapacityKey} {c : UInt32} {s s' : State} {act : Action}
    (h : Attended k c s) (hstep : step cfg s act = some s') (hact : act.oneLimit k c = true)
    (hheeds : s.heeds k c act = true) : Attended k c s' := by
  have hclear : ∀ n, act ≠ .clearNode n := by
    rintro n rfl
    cases hact
  have hcall : ∀ r, act = .call (.acquire r) → r.key = k → r.concurrency = c := by
    rintro r rfl
    exact of_decide_eq_true hact
  refine ⟨mapped_step h.mapped hstep hclear, listed_step h.listed hstep, ?_, ?_⟩
  · exact requests_of_change h.limit hcall (change_of_step hstep)
  · exact answered_step h.balanced h.listed h.mapped h.limit hheeds hstep

/-- In a balanced state nobody is stranded: with nobody left to go for a free place or to announce
one, there is no free place or nobody waits. -/
theorem not_stranded_of_attended {k : ModelCapacityKey} {c : UInt32} {s : State}
    (h : Attended k c s) : ¬ Stranded k c s := by
  rintro ⟨i, r, a, slot, ht, rfl, hslot, hfree, hpermit, hdrop, hparked⟩
  have hget : s.slots.get r.key = some a :=
    h.mapped.refs _ (List.mem_of_getElem? ht) (r.key, a) List.mem_cons_self
  have hcov := h.balanced a hget slot hslot
  have heager : s.count (Task.eager a) = 0 := by
    refine total_eq_zero.2 fun t hmem => ?_
    cases t with
    | acquiring r' b pc =>
        rcases eq_or_ne b a with rfl | hba
        · obtain rfl := hparked _ hmem r' pc rfl
          exact indicator_eager b _
        · exact indicator_of_not (by simp [Task.eager, hba])
    | _ => rfl
  have htells : s.count (Task.tells a) = 0 := by
    refine total_eq_zero.2 fun t hmem => indicator_of_not ?_
    cases t with
    | releasing j b pc =>
        cases pc with
        | notifyOne d =>
            rcases eq_or_ne d a with rfl | hda
            · exact absurd rfl (hdrop _ hmem j b)
            · simp [Task.tells, hda]
        | get => rfl
        | fetchSub d => rfl
    | _ => rfl
  have hseeks : 1 ≤ s.count (Task.seeks a) := by
    have hle := le_total (w := indicator (Task.seeks a)) (List.mem_of_getElem? ht)
    rwa [indicator_seeks] at hle
  rw [UInt32.lt_iff_toNat_lt] at hfree
  rw [heager, htells, hpermit] at hcov
  simp only [Covered, Bool.toNat_false] at hcov
  omega

/-- **No stranded waiter.**  For every key and every limit: in a run without `clear_node` in which
every call for the key brings this limit, and in which no notification that finds a permit stored
upsets the balance, no call for the key is ever stranded. -/
theorem noneStranded_of_heeds (cfg : Sharding ModelCapacityKey) (k : ModelCapacityKey) (c : UInt32)
    (as : List Action)
    (h : Throughout (step cfg) (fun s act _ => (act.oneLimit k c && s.heeds k c act) = true) init
      as) : Always (step cfg) (fun s => ¬ Stranded k c s) init as := by
  have hattended : Always (step cfg) (Attended k c) init as := by
    refine always_of_step ?_ (attended_init k c) h
    intro s act s' hs hstep hcond
    obtain ⟨hlimit, hheeds⟩ := (Bool.and_eq_true _ _).mp hcond
    exact attended_step hs hstep hlimit hheeds
  exact hattended.mono fun s => not_stranded_of_attended

/-- With a limit of one place a lost notification does no harm: the stored permit answers for the
place. -/
theorem heeds_of_single (k : ModelCapacityKey) (s : State) (act : Action) :
    s.heeds k 1 act = true := by
  unfold State.heeds
  split
  · rfl
  · split
    · rfl
    · rename_i a eager tells _ _ slot _
      have hcov : Covered (1 : UInt32).toNat slot.active.toNat eager tells
          (s.count (Task.seeks a)) 1 := Or.inl (Nat.le_add_left 1 _)
      rw [decide_eq_true hcov, Bool.or_true]

/-- **With one place nobody is ever stranded.** -/
theorem noneStranded_of_single (cfg : Sharding ModelCapacityKey) (k : ModelCapacityKey)
    (as : List Action) (h : ∀ act ∈ as, act.oneLimit k 1 = true) :
    Always (step cfg) (fun s => ¬ Stranded k 1 s) init as := by
  have hattended : Always (step cfg) (Attended k 1) init as := by
    refine always_of_step ?_ (attended_init k 1) (throughout_of_forall_mem h init)
    intro s act s' hs hstep hlimit
    exact attended_step hs hstep hlimit (heeds_of_single k s act)
  exact hattended.mono fun s => not_stranded_of_attended

/-- Two places are taken, two more calls take queue places, both guards are dropped before either
call has registered, and then the two calls go on. -/
def lostPermit : List Action :=
  let two : Action := .call (.acquire ⟨sampleKey, 2, 2⟩)
  [two, .step 0, .step 0, .step 0, .step 0, .step 0,
    two, .step 1, .step 1, .step 1, .step 1,
    two, .step 2, .step 2, .step 2, .step 2, .step 2,
    two, .step 3, .step 3, .step 3, .step 3, .step 3,
    .dropGuard 0, .step 0, .step 0, .step 0,
    .dropGuard 1, .step 1, .step 1, .step 1,
    .step 2, .step 3, .step 2, .step 2, .step 2]

theorem observe_lostPermit :
    (run (step twoShards) init lostPermit).map
      (fun s => (s.tasks, (s.heap[0]?).map fun slot => (slot.active, slot.notify.permit))) =
    some ([.released, .released, .guard sampleKey 0, .acquiring ⟨sampleKey, 2, 2⟩ 0 .parked],
      some (1, false)) := by
  decide

/-- **Two notifications for two calls that have not registered yet leave one permit**: one call
takes it and a place, and the other one sleeps next to a free place. -/
theorem stranded_of_lostPermit : ¬ ∀ (cfg : Sharding ModelCapacityKey) (k : ModelCapacityKey)
    (c : UInt32) (as : List Action), 0 < c → (∀ act ∈ as, act.oneLimit k c = true) →
      Always (step cfg) (fun s => ¬ Stranded k c s) init as := by
  intro h
  have halways := h twoShards sampleKey 2 lostPermit (by decide) (by decide)
  obtain ⟨s, hs, hobs⟩ := halways.observe observe_lostPermit
  obtain ⟨htasks, hheap⟩ := Prod.mk.inj hobs
  obtain ⟨slot, hslot, hnumbers⟩ := Option.map_eq_some_iff.1 hheap
  obtain ⟨hactive, hpermit⟩ := Prod.mk.inj hnumbers
  refine hs ⟨3, ⟨sampleKey, 2, 2⟩, 0, slot, ?_, rfl, hslot, ?_, hpermit, ?_, ?_⟩
  · rw [htasks]
    rfl
  · rw [hactive]
    decide
  · rw [htasks]
    intro t ht k' b hteq
    subst hteq
    simp at ht
  · rw [htasks]
    intro t ht r' pc hteq
    subst hteq
    simp only [List.mem_cons, reduceCtorEq, List.not_mem_nil, or_false, false_or] at ht
    obtain ⟨rfl, -, hpc⟩ := Task.acquiring.inj ht
    exact eq_of_heq hpc

/-- Two places are taken, a third call parks, and the first guard is dropped: the drop wakes the
third call, which takes the place. -/
def wokenInTime : List Action :=
  let two : Action := .call (.acquire ⟨sampleKey, 2, 2⟩)
  [two, .step 0, .step 0, .step 0, .step 0, .step 0,
    two, .step 1, .step 1, .step 1, .step 1,
    two, .step 2, .step 2, .step 2, .step 2, .step 2, .step 2,
    .dropGuard 0, .step 0, .step 0, .step 0, .step 2, .step 2, .step 2, .step 2]

theorem noneStranded_wokenInTime :
    Always (step twoShards) (fun s => ¬ Stranded sampleKey 2 s) init wokenInTime ∧
      (run (step twoShards) init wokenInTime).map State.tasks =
        some [.released, .guard sampleKey 0, .guard sampleKey 0] := by
  refine ⟨noneStranded_of_heeds twoShards sampleKey 2 wokenInTime ?_, by decide⟩
  exact throughout_of_check (by decide)

end Capacity
