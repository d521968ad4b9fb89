/-
**What becomes of a call that has waited in the queue.**

A call of `acquire` that finds the queue full returns `QueueFull` before it has waited, and a call
that has taken a queue place waits there for its turn.  The place does not see the call through,
though: a call that is woken gives its place up first, and only then competes for the free place of
the slot, from the start of the loop.  Between the two a newcomer can be admitted, and another one
can take the place; the woken call then finds the slot busy and the queue full, and is refused after
all.

The balance that prevents this counts the woken calls with the queue: as long as no newcomer takes a
queue place that a woken call may need back, the places taken and the woken calls together are at
most `max_queue`, so that a woken call which is not admitted finds a place again.

Main definitions:

* `Capacity.Places`, `Capacity.stepPlaces` — the tracker with the calls that have been in the queue;
* `Capacity.Places.returning` — how many of these compete again;
* `Capacity.Places.room` — a newcomer leaves enough queue places to the calls that compete again;
* `Capacity.Kept` — no call that has been in the queue is refused.

Main results:

* `Capacity.placesInv_step` — every step that leaves room keeps the balance;
* `Capacity.kept_of_room` — **no call that has been in the queue is refused in a run whose steps all
  leave room**;
* `Capacity.keptPlaces_breaks` — a run in which one is.
-/

import Mathlib.Data.Finset.Card
import SparklRouter.Capacity.Admission
import SparklRouter.Capacity.Release

set_option relaxedAutoImplicit false
set_option autoImplicit false

namespace Capacity

open TaskPool Transition

variable {cfg : Sharding ModelCapacityKey}

/-! ### The calls that have been in the queue -/

/-- The tracker, with the calls for one key that have once taken a queue place. -/
structure Places where
  tracker : State
  placed : Finset TaskId

/-- The call for the key whose compare-exchange on `queued` succeeds with this step. -/
def State.taken (k : ModelCapacityKey) (s : State) : Action → Option TaskId
  | .step i =>
      match s.tasks[i]? with
      | some (.acquiring r a (.casQueued _ queued _)) =>
          if r.key = k ∧ (s.heap[a]?).map Slot.queued = some queued then some i else none
      | _ => none
  | _ => none

def stepPlaces (cfg : Sharding ModelCapacityKey) (k : ModelCapacityKey) (p : Places)
    (act : Action) : Option Places :=
  (step cfg p.tracker act).map fun s =>
    match p.tracker.taken k act with
    | some i => ⟨s, insert i p.placed⟩
    | none => ⟨s, p.placed⟩

/-- Whether a call at this point competes for a place of the slot or of the queue. -/
def AcquirePc.contends {r : Request} : AcquirePc r → Bool
  | .loadActive | .casActive _ _ | .loadQueued _ | .casQueued _ _ _ => true
  | _ => false

def Task.contends : Task → Bool
  | .acquiring _ _ pc => pc.contends
  | _ => false

/-- Whether the task is a call that has returned `QueueFull`. -/
def Task.refused : Task → Bool
  | .failed (.queueFull _ _ _) => true
  | _ => false

def Places.competing (p : Places) (i : TaskId) : Bool := (p.tracker.tasks[i]?).any Task.contends

/-- The calls that have been in the queue and compete again. -/
def Places.returning (p : Places) : ℕ := (p.placed.filter fun i => p.competing i = true).card

/-- No call that has been in the queue is refused. -/
def Kept (p : Places) : Prop :=
  ∀ i ∈ p.placed, ∀ t, p.tracker.tasks[i]? = some t → t.refused = false

/-- The action clears no node, and a call for the key brings the limits `c` and `q`. -/
def Action.fixed (k : ModelCapacityKey) (c q : UInt32) : Action → Bool
  | .clearNode _ => false
  | .call (.acquire r) => decide (r.key = k → r.concurrency = c ∧ r.maxQueue = q)
  | _ => true

/-- A call that takes a queue place for the first time finds fewer than `q` places taken, the calls
that have been woken and compete again counted with them. -/
def Places.room (k : ModelCapacityKey) (q : UInt32) (p : Places) (act : Action) : Bool :=
  match p.tracker.taken k act with
  | none => true
  | some i =>
      decide (i ∈ p.placed) ||
        ((p.tracker.slots.get k).bind fun a => p.tracker.heap[a]?).all fun slot =>
          decide (slot.queued.toNat + p.returning < q.toNat)

/-! ### One call, step by step -/

/-- Whether the task is a call that has not got its slot yet. -/
def Task.entering : Task → Bool
  | .enter _ | .slotGet _ | .slotEntry _ => true
  | _ => false

section

variable {s s' : State} {i j : TaskId} {t : Task} {act : Action}

theorem getElem?_wake_parked {r : Request} {a : SlotId}
    (h : s.tasks[j]? = some (.acquiring r a .parked)) (o : Option TaskId) :
    (s.wake o).tasks[j]? = some (.acquiring r a .parked) ∨
      (s.wake o).tasks[j]? = some (.acquiring r a .woken) := by
  cases o with
  | none => exact Or.inl h
  | some m =>
      by_cases hm : m = j
      · subst hm
        rw [State.wake_parked h]
        exact Or.inr (getElem?_set_self h _)
      · left
        rw [State.wake]
        split
        · exact getElem?_put_of_ne h hm _
        · exact h

/-- A call that waits is at most woken by the steps of the others. -/
theorem waiting_of_step_other {r : Request} {a : SlotId}
    (h : s.tasks[j]? = some (.acquiring r a .parked)) (hact : act.actor ≠ some j)
    (hstep : step cfg s act = some s') :
    s'.tasks[j]? = some (.acquiring r a .parked) ∨ s'.tasks[j]? = some (.acquiring r a .woken) := by
  -- a task that moves on is not this one
  have hset : ∀ {i : TaskId} {u : Task}, s.tasks[i]? = some u → u ≠ .acquiring r a .parked →
      ∀ t', (s.put i t').tasks[j]? = some (.acquiring r a .parked) := by
    intro i u hu hne t'
    refine getElem?_put_of_ne h (fun hij => hne ?_) t'
    rw [hij, h] at hu
    exact (Option.some.inj hu).symm
  cases change_of_step hstep with
  | call c => exact Or.inl (getElem?_append_of h)
  | clearNode n => exact Or.inl (getElem?_append_of h)
  | move ht _ hfollows _ => exact Or.inl (hset ht (hfollows.awake r a) _)
  | slotEntry ht => exact Or.inl (hset ht (fun h => by cases h) _)
  | @acquire i r' a' pc slot slot' next ht hslot hacq =>
      refine Or.inl (hset ht (fun hparked => ?_) _)
      cases hparked
      cases hacq
  | releaseFound ht hget => exact Or.inl (hset ht (fun h => by cases h) _)
  | releaseMissing ht hget => exact Or.inl (hset ht (fun h => by cases h) _)
  | fetchSub ht hslot => exact Or.inl (hset ht (fun h => by cases h) _)
  | notifyOne ht hslot =>
      refine getElem?_wake_parked ?_ _
      exact hset ht (fun h => by cases h) _
  | @timeout i _ _ _ _ _ ht hwaits hslot =>
      refine getElem?_wake_parked ?_ _
      exact getElem?_put_of_ne h (fun hij => hact (congrArg some hij)) _
  | @cancel i _ _ _ _ _ ht hwaits hslot =>
      refine getElem?_wake_parked ?_ _
      exact getElem?_put_of_ne h (fun hij => hact (congrArg some hij)) _
  | clearShard ht => exact Or.inl (hset ht (fun h => by cases h) _)

/-- What the steps of the others may do to a task, and its own steps outside the loop. -/
structure Task.Goes (t t' : Task) : Prop where
  entering : t'.entering = false
  contends : t'.contends = true → t.contends = true
  refused : t'.refused = t.refused
  request : ∀ r, t'.request = some r → t.request = some r

theorem Task.Goes.refl (h : t.entering = false) : t.Goes t := ⟨h, id, rfl, fun _ h => h⟩

/-- A task that is no call of `acquire` any more. -/
theorem Task.Goes.of_idle {t' : Task} (hentering : t'.entering = false)
    (hcontends : t'.contends = false) (hrefused : t'.refused = t.refused)
    (hrequest : t'.request = none) : t.Goes t' := by
  refine ⟨hentering, fun hc => ?_, hrefused, fun r hr => ?_⟩
  · rw [hcontends] at hc
    cases hc
  · rw [hrequest] at hr
    cases hr

/-- **The steps of the others** do not make a call compete, and do not refuse it. -/
theorem goes_of_step_other (h : s.tasks[j]? = some t) (hentered : t.entering = false)
    (hact : act.actor ≠ some j) (hstep : step cfg s act = some s') :
    ∃ t', s'.tasks[j]? = some t' ∧ t.Goes t' ∧ t'.contends = t.contends := by
  by_cases hparked : ∃ r a, t = .acquiring r a .parked
  · obtain ⟨r, a, rfl⟩ := hparked
    rcases waiting_of_step_other h hact hstep with h' | h'
    · exact ⟨_, h', Task.Goes.refl rfl, rfl⟩
    · exact ⟨_, h', ⟨rfl, fun hc => (by cases hc), rfl, fun _ hr => hr⟩, rfl⟩
  · have hawake : t.Awake := fun r a heq => hparked ⟨r, a, heq⟩
    exact ⟨t, getElem?_of_step_other h hawake hact hstep, Task.Goes.refl hentered, rfl⟩

/-- The own steps of a task that is not an `acquire` in its loop. -/
theorem goes_of_advance (ht : s.tasks[i]? = some t) (hentered : t.entering = false)
    (hloop : ∀ r a pc, t ≠ .acquiring r a pc) (hstep : advance cfg s i t = some s') :
    ∃ t', s'.tasks[i]? = some t' ∧ t.Goes t' := by
  have hself : ∀ t', (s.put i t').tasks[i]? = some t' := fun t' => getElem?_set_self ht t'
  cases t with
  | enter c => cases hentered
  | slotGet c => cases hentered
  | slotEntry c => cases hentered
  | acquiring r a pc => exact absurd rfl (hloop r a pc)
  | releasing k issued pc =>
      cases pc with
      | get =>
          simp only [advance, releaseStep] at hstep
          split at hstep
          · obtain rfl := Option.some.inj hstep
            exact ⟨_, hself _, Task.Goes.of_idle rfl rfl rfl rfl⟩
          · obtain rfl := Option.some.inj hstep
            exact ⟨_, hself _, Task.Goes.of_idle rfl rfl rfl rfl⟩
      | fetchSub a =>
          obtain ⟨slot, -, rfl⟩ := Option.map_eq_some_iff.1 hstep
          exact ⟨_, hself _, Task.Goes.of_idle rfl rfl rfl rfl⟩
      | notifyOne a =>
          obtain ⟨slot, -, rfl⟩ := Option.map_eq_some_iff.1 hstep
          have hreleased := getElem?_set_self ht Task.released
          refine ⟨_, getElem?_wake hreleased (awake_of_dropSteps rfl) _, ?_⟩
          exact Task.Goes.of_idle rfl rfl rfl rfl
  | snapActive k c a =>
      obtain ⟨slot, -, rfl⟩ := Option.map_eq_some_iff.1 hstep
      exact ⟨_, hself _, Task.Goes.of_idle rfl rfl rfl rfl⟩
  | snapQueued k c a active =>
      obtain ⟨slot, -, rfl⟩ := Option.map_eq_some_iff.1 hstep
      exact ⟨_, hself _, Task.Goes.of_idle rfl rfl rfl rfl⟩
  | clearing n shard =>
      simp only [advance] at hstep
      split at hstep
      · split at hstep
        · obtain rfl := Option.some.inj hstep
          exact ⟨_, hself _, Task.Goes.of_idle rfl rfl rfl rfl⟩
        · cases hstep
      · obtain rfl := Option.some.inj hstep
        exact ⟨_, hself _, Task.Goes.of_idle rfl rfl rfl rfl⟩
  | _ => cases hstep

/-- **The own steps of a task that has got its slot**: a step of the loop of `acquire`, or one that
neither makes it compete nor refuses it. -/
theorem own_step_cases (ht : s.tasks[i]? = some t) (hentered : t.entering = false)
    (hact : act.actor = some i) (hstep : step cfg s act = some s') :
    (∃ (r : Request) (a : SlotId) (pc : AcquirePc r) (slot slot' : Slot) (next : AcquireNext r),
      act = .step i ∧ t = .acquiring r a pc ∧ s.heap[a]? = some slot ∧
        acquireStep i r slot pc = some (slot', next) ∧ s' = s.write i (next.task a) a slot') ∨
    ((∀ r a pc, t = .acquiring r a pc → act ≠ .step i) ∧
      ∃ t', s'.tasks[i]? = some t' ∧ t.Goes t') := by
  have hother : act ≠ .step i → ∀ r a pc, t = .acquiring r a pc → act ≠ .step i :=
    fun hne _ _ _ _ => hne
  cases act with
  | call c => cases hact
  | clearNode n => cases hact
  | step j =>
      obtain rfl := Option.some.inj hact
      rw [step, ht, Option.bind_some] at hstep
      by_cases hloop : ∃ r a pc, t = .acquiring r a pc
      · obtain ⟨r, a, pc, rfl⟩ := hloop
        obtain ⟨slot, hslot, hstep⟩ := Option.bind_eq_some_iff.1 hstep
        obtain ⟨⟨slot', next⟩, hacq, rfl⟩ := Option.map_eq_some_iff.1 hstep
        exact Or.inl ⟨r, a, pc, slot, slot', next, rfl, rfl, hslot, hacq, rfl⟩
      · have hnot : ∀ r a pc, t ≠ .acquiring r a pc := fun r a pc heq => hloop ⟨r, a, pc, heq⟩
        exact Or.inr ⟨fun r a pc heq => absurd heq (hnot r a pc),
          goes_of_advance ht hentered hnot hstep⟩
  | spurious j =>
      obtain rfl := Option.some.inj hact
      obtain ⟨r, a, pc, pc', hi, hpc, rfl⟩ := exists_of_spurious hstep
      obtain rfl := Option.some.inj (ht.symm.trans hi)
      refine Or.inr ⟨hother fun h => (by cases h), _, getElem?_set_self ht _, rfl, fun _ => ?_,
        rfl, fun _ hr => hr⟩
      -- both compare-exchanges compete
      cases pc <;> first | rfl | cases hpc
  | timeout j =>
      obtain rfl := Option.some.inj hact
      obtain ⟨r, a, pc, slot, woken, hi, -, -, rfl⟩ := exists_of_timeout hstep
      obtain rfl := Option.some.inj (ht.symm.trans hi)
      have hawake : (Task.acquiring r a (.leaveQueue false)).Awake := fun _ _ h => by cases h
      refine Or.inr ⟨hother fun h => (by cases h), _, getElem?_endWait ht hawake a slot woken, ?_⟩
      exact ⟨rfl, fun hc => (by cases hc), rfl, fun _ hr => hr⟩
  | cancel j =>
      obtain rfl := Option.some.inj hact
      obtain ⟨r, a, pc, slot, woken, hi, -, -, rfl⟩ := exists_of_cancel hstep
      obtain rfl := Option.some.inj (ht.symm.trans hi)
      have hawake : (Task.cancelled r a).Awake := fun _ _ h => by cases h
      refine Or.inr ⟨hother fun h => (by cases h), _, getElem?_endWait ht hawake a slot woken, ?_⟩
      exact Task.Goes.of_idle rfl rfl rfl rfl
  | dropGuard j =>
      obtain rfl := Option.some.inj hact
      rcases exists_of_dropGuard hstep with ⟨k, a, hi, rfl⟩ | ⟨k, hi, rfl⟩
      · obtain rfl := Option.some.inj (ht.symm.trans hi)
        refine Or.inr ⟨hother fun h => (by cases h), _, getElem?_set_self ht _, ?_⟩
        exact Task.Goes.of_idle rfl rfl rfl rfl
      · obtain rfl := Option.some.inj (ht.symm.trans hi)
        refine Or.inr ⟨hother fun h => (by cases h), _, getElem?_set_self ht _, ?_⟩
        exact Task.Goes.of_idle rfl rfl rfl rfl

end

/-! ### The queue places and the calls that compete, in one turn of the loop -/

/-- What a step of the loop does to the queued counter and to the call: it takes a queue place,
gives one back, refuses the call, or does none of these. -/
inductive Turn {r : Request} (slot : Slot) (pc : AcquirePc r) : Slot → AcquireNext r → Prop
  | take {active : UInt32} {below : slot.queued < r.maxQueue}
      (hpc : pc = .casQueued active slot.queued below) :
      Turn slot pc { slot with queued := slot.queued + 1 } (.at .notified)
  | give {pc' : AcquirePc r} (hin : pc.inQueue = true) (hpc : pc.contends = false) :
      Turn slot pc { slot with queued := slot.queued - 1 } (.at pc')
  | refuse {active : UInt32} (hpc : pc = .loadQueued active)
      (hfull : r.maxQueue = 0 ∨ r.maxQueue ≤ slot.queued) :
      Turn slot pc slot (.failed (.queueFull active r.concurrency slot.queued))
  | none {slot' : Slot} {next : AcquireNext r} (hqueued : slot'.queued = slot.queued)
      (hnext : ∀ a, (next.task a).refused = false)
      (hcontends : ∀ a, (next.task a).contends = true → pc.contends = true)
      (hpc : ∀ active queued below, pc = .casQueued active queued below → slot.queued ≠ queued) :
      Turn slot pc slot' next

theorem turn_of_acquireStep {i : TaskId} {r : Request} {slot slot' : Slot} {pc : AcquirePc r}
    {next : AcquireNext r} (h : acquireStep i r slot pc = some (slot', next)) :
    Turn slot pc slot' next := by
  cases pc with
  | loadActive =>
      simp only [acquireStep] at h
      split at h <;> obtain ⟨rfl, rfl⟩ := Prod.mk.inj (Option.some.inj h) <;>
        exact Turn.none rfl (fun _ => rfl) (fun _ _ => rfl) fun _ _ _ h => by cases h
  | casActive active below =>
      simp only [acquireStep] at h
      split at h <;> obtain ⟨rfl, rfl⟩ := Prod.mk.inj (Option.some.inj h) <;>
        exact Turn.none rfl (fun _ => rfl) (fun _ _ => rfl) fun _ _ _ h => by cases h
  | loadQueued active =>
      simp only [acquireStep] at h
      split at h <;> obtain ⟨rfl, rfl⟩ := Prod.mk.inj (Option.some.inj h)
      · rename_i hfull
        exact Turn.refuse rfl hfull
      · exact Turn.none rfl (fun _ => rfl) (fun _ _ => rfl) fun _ _ _ h => by cases h
  | casQueued active queued below =>
      simp only [acquireStep] at h
      split at h
      · rename_i heq
        obtain ⟨rfl, rfl⟩ := Prod.mk.inj (Option.some.inj h)
        subst heq
        exact Turn.take rfl
      · rename_i hne
        obtain ⟨rfl, rfl⟩ := Prod.mk.inj (Option.some.inj h)
        refine Turn.none rfl (fun _ => rfl) (fun _ _ => rfl) ?_
        rintro _ _ _ ⟨⟩
        exact hne
  | notified =>
      obtain ⟨rfl, rfl⟩ := Prod.mk.inj (Option.some.inj h)
      refine Turn.none rfl (fun _ => rfl) (fun _ hc => ?_) fun _ _ _ h => by cases h
      split at hc <;> cases hc
  | parked => cases h
  | woken =>
      obtain ⟨rfl, rfl⟩ := Prod.mk.inj (Option.some.inj h)
      exact Turn.none rfl (fun _ => rfl) (fun _ hc => by cases hc) fun _ _ _ h => by cases h
  | leaveQueue ok =>
      obtain ⟨rfl, rfl⟩ := Prod.mk.inj (Option.some.inj h)
      exact Turn.give rfl rfl
  | timeoutQueued =>
      obtain ⟨rfl, rfl⟩ := Prod.mk.inj (Option.some.inj h)
      exact Turn.none rfl (fun _ => rfl) (fun _ hc => by cases hc) fun _ _ _ h => by cases h
  | timeoutActive queued =>
      obtain ⟨rfl, rfl⟩ := Prod.mk.inj (Option.some.inj h)
      exact Turn.none rfl (fun _ => rfl) (fun _ hc => by cases hc) fun _ _ _ h => by cases h

/-! ### Counting the calls that compete again -/

/-- What the task counts as. -/
def Places.share (p : Places) (i : TaskId) : ℕ :=
  if i ∈ p.placed ∧ p.competing i = true then 1 else 0

section

variable {p p' : Places} {i : TaskId}

theorem returning_eq (p : Places) (i : TaskId) :
    p.returning = ((p.placed.erase i).filter fun j => p.competing j = true).card + p.share i := by
  unfold Places.returning Places.share
  rw [Finset.filter_erase]
  by_cases hi : i ∈ p.placed ∧ p.competing i = true
  · rw [if_pos hi, Finset.card_erase_add_one (Finset.mem_filter.2 hi)]
  · rw [if_neg hi, Finset.erase_eq_of_notMem fun h => hi (Finset.mem_filter.1 h)]
    rfl

/-- **A step of one task changes the number by what that task counts as.** -/
theorem returning_add_share (hplaced : p'.placed.erase i = p.placed.erase i)
    (hother : ∀ j ∈ p.placed, j ≠ i → p'.competing j = p.competing j) :
    p'.returning + p.share i = p.returning + p'.share i := by
  have hsame : (p'.placed.erase i).filter (fun j => p'.competing j = true) =
      (p.placed.erase i).filter fun j => p.competing j = true := by
    rw [hplaced]
    refine Finset.filter_congr fun j hj => ?_
    rw [hother j (Finset.mem_of_mem_erase hj) (Finset.ne_of_mem_erase hj)]
  have h := returning_eq p i
  have h' := returning_eq p' i
  rw [hsame] at h'
  omega

/-- A call that competes again is counted. -/
theorem returning_pos (hi : i ∈ p.placed) (hcompeting : p.competing i = true) :
    1 ≤ p.returning := by
  have h := returning_eq p i
  rw [Places.share, if_pos ⟨hi, hcompeting⟩] at h
  omega

theorem share_le_one (p : Places) (i : TaskId) : p.share i ≤ 1 := by
  unfold Places.share
  split <;> omega

theorem share_of_not_competing (h : p.competing i = false) : p.share i = 0 := by
  rw [Places.share, if_neg]
  rintro ⟨-, hc⟩
  rw [h] at hc
  cases hc

/-- A task that does not come to compete counts for no more than before. -/
theorem share_le_share (hplaced : i ∈ p'.placed → i ∈ p.placed)
    (hcompeting : i ∈ p.placed → p'.competing i = true → p.competing i = true) :
    p'.share i ≤ p.share i := by
  unfold Places.share
  split
  · rename_i h
    rw [if_pos ⟨hplaced h.1, hcompeting (hplaced h.1) h.2⟩]
  · exact Nat.zero_le _

end

/-! ### The balance -/

/-- A call of the key that has got its slot and is not refused. -/
def Task.Stays (k : ModelCapacityKey) (t : Task) : Prop :=
  t.entering = false ∧ t.refused = false ∧ ∀ r, t.request = some r → r.key = k

theorem Task.Goes.stays {k : ModelCapacityKey} {t t' : Task} (h : t.Goes t') (ht : t.Stays k) :
    t'.Stays k :=
  ⟨h.entering, h.refused.trans ht.2.1, fun r hr => ht.2.2 r (h.request r hr)⟩

/-- The calls that have been in the queue stay; the queue places taken and the calls that compete
again are at most `q`. -/
structure PlacesInv (k : ModelCapacityKey) (q : UInt32) (p : Places) : Prop where
  mapped : Mapped p.tracker
  occupied : Occupied p.tracker
  limits : ∀ t ∈ p.tracker.tasks, ∀ r, t.request = some r → r.key = k → r.maxQueue = q
  stays : ∀ i ∈ p.placed, ∃ t, p.tracker.tasks[i]? = some t ∧ t.Stays k
  within : ∃ M, QueuedWithin k M p.tracker ∧ M + p.returning ≤ q.toNat

theorem placesInv_init (k : ModelCapacityKey) (q : UInt32) : PlacesInv k q ⟨init, ∅⟩ where
  mapped := mapped_init
  occupied := occupied_init
  limits t ht := absurd ht List.not_mem_nil
  stays i hi := by simp at hi
  within := ⟨0, fun a slot h => (by cases h), Nat.zero_le _⟩

theorem PlacesInv.kept {k : ModelCapacityKey} {q : UInt32} {p : Places} (h : PlacesInv k q p) :
    Kept p := by
  intro i hi t ht
  obtain ⟨u, hu, hstays⟩ := h.stays i hi
  obtain rfl := Option.some.inj (ht.symm.trans hu)
  exact hstays.2.1

/-- A step outside the loop of `acquire` takes no queue place. -/
theorem queuedWithin_of_change {k : ModelCapacityKey} {M : ℕ} {s s' : State} {act : Action}
    (hclear : ∀ t ∈ s.tasks, ∀ n j, t ≠ .clearing n j) (hM : QueuedWithin k M s)
    (hchange : Change cfg s act s')
    (hloop : ∀ i r a pc, act = .step i → s.tasks[i]? ≠ some (.acquiring r a pc)) :
    QueuedWithin k M s' := by
  cases hchange with
  | slotEntry ht => exact queuedWithin_slotEntry hM _ _
  | acquire ht hslot hacq => exact absurd ht (hloop _ _ _ _ rfl)
  | fetchSub ht hslot => exact queuedWithin_write hM hslot fun _ hold => hold
  | notifyOne ht hslot =>
      refine queuedWithin_wake ?_ _
      exact queuedWithin_write hM hslot fun _ hold => hold
  | timeout ht hwaits hslot =>
      refine queuedWithin_wake ?_ _
      exact queuedWithin_write hM hslot fun _ hold => hold
  | cancel ht hwaits hslot =>
      refine queuedWithin_wake ?_ _
      exact queuedWithin_write hM hslot fun _ hold => hold
  | clearShard ht => exact absurd rfl (hclear _ (List.mem_of_getElem? ht) _ _)
  | _ => exact hM

section

variable {k : ModelCapacityKey} {c q : UInt32} {p p' : Places} {act : Action} {i : TaskId}

/-- The queue of the slot of the key, with the calls that compete again. -/
theorem PlacesInv.queued_le (h : PlacesInv k q p) {r : Request} {a : SlotId} {pc : AcquirePc r}
    {slot : Slot} (ht : p.tracker.tasks[i]? = some (.acquiring r a pc)) (hkey : r.key = k)
    (hslot : p.tracker.heap[a]? = some slot) : slot.queued.toNat + p.returning ≤ q.toNat := by
  obtain ⟨M, hM, hle⟩ := h.within
  have hget := h.mapped.refs _ (List.mem_of_getElem? ht) (r.key, a) (List.mem_cons_self ..)
  rw [hkey] at hget
  have := hM a slot hget hslot
  omega

/-- **A call that has been in the queue finds a place there again.** -/
theorem PlacesInv.not_full (h : PlacesInv k q p) {r : Request} {a : SlotId} {active : UInt32}
    {slot : Slot} (hi : i ∈ p.placed)
    (ht : p.tracker.tasks[i]? = some (.acquiring r a (.loadQueued active)))
    (hslot : p.tracker.heap[a]? = some slot) : ¬ (r.maxQueue = 0 ∨ r.maxQueue ≤ slot.queued) := by
  obtain ⟨t, ht', -, -, hkeys⟩ := h.stays i hi
  obtain rfl := Option.some.inj (ht.symm.trans ht')
  have hkey : r.key = k := hkeys r rfl
  have hlimit : r.maxQueue = q := h.limits _ (List.mem_of_getElem? ht) r rfl hkey
  have hle := h.queued_le ht hkey hslot
  have hpos := returning_pos hi (by rw [Places.competing, ht]; rfl)
  rw [hlimit]
  rintro (hzero | hfull)
  · rw [hzero] at hle
    simp only [UInt32.reduceToNat] at hle
    omega
  · have := UInt32.le_iff_toNat_le.1 hfull
    omega

/-! A step changes the calls that have been in the queue by the one that takes a place with it. -/

theorem stepPlaces_eq (h : stepPlaces cfg k p act = some p') :
    step cfg p.tracker act = some p'.tracker ∧
      p'.placed = match p.tracker.taken k act with
        | some i => insert i p.placed
        | none => p.placed := by
  obtain ⟨s, hs, rfl⟩ := Option.map_eq_some_iff.1 h
  cases p.tracker.taken k act with
  | none => exact ⟨hs, rfl⟩
  | some i => exact ⟨hs, rfl⟩

/-- The call that takes a place is the one whose step it is. -/
theorem taken_eq_some (h : p.tracker.taken k act = some i) :
    act = .step i ∧ ∃ r a pc, p.tracker.tasks[i]? = some (.acquiring r a pc) ∧ r.key = k := by
  unfold State.taken at h
  split at h
  · split at h
    · rename_i j r a active queued below ht
      split at h
      · rename_i hcond
        obtain rfl := Option.some.inj h
        exact ⟨rfl, r, a, _, ht, hcond.1⟩
      · cases h
    · cases h
  · cases h

theorem taken_eq_none (h : ∀ i r a pc, act = .step i →
    p.tracker.tasks[i]? ≠ some (.acquiring r a pc)) : p.tracker.taken k act = none := by
  cases htaken : p.tracker.taken k act with
  | none => rfl
  | some i =>
      obtain ⟨hact, r, a, pc, ht, -⟩ := taken_eq_some htaken
      exact absurd ht (h i r a pc hact)

/-- In the loop, a place is taken by the compare-exchange that finds the value it expects. -/
theorem taken_loop {r : Request} {a : SlotId} {pc : AcquirePc r} {slot : Slot}
    (ht : p.tracker.tasks[i]? = some (.acquiring r a pc)) (hslot : p.tracker.heap[a]? = some slot)
    (hpc : ∀ active queued below, pc = .casQueued active queued below → slot.queued ≠ queued) :
    p.tracker.taken k (.step i) = none := by
  simp only [State.taken, ht]
  split
  · rename_i r' a' active queued below heq
    cases heq
    refine if_neg fun hcond => ?_
    rw [hslot] at hcond
    exact hpc active queued below rfl (Option.some.inj hcond.2)
  · rfl

theorem placed_of_taken_none (htaken : p.tracker.taken k act = none)
    (h : stepPlaces cfg k p act = some p') : p'.placed = p.placed := by
  rw [(stepPlaces_eq h).2, htaken]

/-- A call that has been in the queue was there before, or takes its place with this step. -/
theorem mem_placed (h : stepPlaces cfg k p act = some p') (hi : i ∈ p'.placed) :
    i ∈ p.placed ∨ p.tracker.taken k act = some i := by
  rw [(stepPlaces_eq h).2] at hi
  split at hi
  · rename_i j htaken
    rcases Finset.mem_insert.1 hi with rfl | hi
    · exact Or.inr htaken
    · exact Or.inl hi
  · exact Or.inl hi

/-- The tasks other than the one whose step it is compete as before. -/
theorem competing_of_other (h : PlacesInv k q p) (hstep : stepPlaces cfg k p act = some p')
    (hi : i ∈ p.placed) (hact : act.actor ≠ some i) : p'.competing i = p.competing i := by
  obtain ⟨t, ht, hstays⟩ := h.stays i hi
  obtain ⟨t', ht', -, hcontends⟩ :=
    goes_of_step_other ht hstays.1 hact (stepPlaces_eq hstep).1
  rw [Places.competing, Places.competing, ht, ht', Option.any_some, Option.any_some, hcontends]

/-- What the step of the task `i` does to the calls that compete again is what it does to `i`. -/
theorem returning_of_step (h : PlacesInv k q p) (hstep : stepPlaces cfg k p act = some p')
    (hact : act.actor = some i) : p'.returning + p.share i = p.returning + p'.share i := by
  refine returning_add_share ?_ fun j hj hji => ?_
  · rw [(stepPlaces_eq hstep).2]
    split
    · rename_i j htaken
      obtain ⟨rfl, -⟩ := taken_eq_some htaken
      obtain rfl := Option.some.inj hact
      exact Finset.erase_insert_eq_erase _ _
    · rfl
  · refine competing_of_other h hstep hj fun hactor => hji ?_
    exact Option.some.inj (hactor.symm.trans hact)

/-- The queue of the key after its slot was written. -/
theorem PlacesInv.write {r : Request} {a : SlotId} {pc : AcquirePc r} {slot' : Slot} {t : Task}
    (h : PlacesInv k q p) (ht : p.tracker.tasks[i]? = some (.acquiring r a pc)) (hkey : r.key = k)
    (hle : slot'.queued.toNat + p'.returning ≤ q.toNat) :
    ∃ M, QueuedWithin k M (p.tracker.write i t a slot') ∧ M + p'.returning ≤ q.toNat := by
  refine ⟨slot'.queued.toNat, fun b slot₁ hb hslot₁ => ?_, hle⟩
  have hget := h.mapped.refs _ (List.mem_of_getElem? ht) (r.key, a) (List.mem_cons_self ..)
  rw [hkey] at hget
  obtain rfl : a = b := Option.some.inj (hget.symm.trans hb)
  rcases getElem?_set_cases hslot₁ with ⟨-, rfl⟩ | ⟨hne, -⟩
  · exact Nat.le_refl _
  · exact absurd rfl hne

/-- **A turn of the loop that leaves room keeps the balance.** -/
theorem within_of_loop {r : Request} {a : SlotId} {pc : AcquirePc r} {slot slot' : Slot}
    {next : AcquireNext r} (h : PlacesInv k q p) (hstep : stepPlaces cfg k p (.step i) = some p')
    (hroom : p.room k q (.step i) = true)
    (ht : p.tracker.tasks[i]? = some (.acquiring r a pc)) (hslot : p.tracker.heap[a]? = some slot)
    (hacq : acquireStep i r slot pc = some (slot', next))
    (hs : p'.tracker = p.tracker.write i (next.task a) a slot') :
    ∃ M, QueuedWithin k M p'.tracker ∧ M + p'.returning ≤ q.toNat := by
  have hret := returning_of_step (i := i) h hstep rfl
  have hget := h.mapped.refs _ (List.mem_of_getElem? ht) (r.key, a) (List.mem_cons_self ..)
  have hbefore : p.competing i = pc.contends := by
    rw [Places.competing, ht, Option.any_some]
    rfl
  have hafter : p'.competing i = (next.task a).contends := by
    rw [Places.competing, hs, State.write, getElem?_set_self ht, Option.any_some]
  by_cases hkey : r.key = k
  · have hle := h.queued_le ht hkey hslot
    rw [hs]
    refine h.write ht hkey ?_
    cases turn_of_acquireStep hacq with
    | @take active below hpc =>
        subst hpc
        have hraise := toNat_raise below
        have hnone : p'.share i = 0 := share_of_not_competing hafter
        by_cases hi : i ∈ p.placed
        · -- the call takes a place that was kept for it
          have hone : p.share i = 1 := if_pos ⟨hi, hbefore⟩
          dsimp only
          omega
        · have hzero : p.share i = 0 := if_neg fun hand => hi hand.1
          have htaken : p.tracker.taken k (.step i) = some i := by
            simp only [State.taken, ht]
            exact if_pos ⟨hkey, by rw [hslot, Option.map_some]⟩
          rw [hkey] at hget
          simp only [Places.room, htaken, hi, decide_false, Bool.false_or, hget, Option.bind_some,
            hslot, Option.all_some, decide_eq_true_eq] at hroom
          dsimp only
          omega
    | give hin hpc =>
        -- the place goes to the calls that compete again
        have hpos := queued_pos h.occupied.counts ht hslot hin
        have hlower := toNat_lower hpos
        have hzero : p.share i = 0 := share_of_not_competing (hbefore.trans hpc)
        have hone := share_le_one p' i
        dsimp only
        omega
    | refuse hpc hfull =>
        have hnone : p'.share i = 0 := share_of_not_competing hafter
        omega
    | none hqueued hnext hcontends hpc =>
        have hplaced := placed_of_taken_none (taken_loop ht hslot hpc) hstep
        have hshare : p'.share i ≤ p.share i := by
          refine share_le_share (fun hi => hplaced ▸ hi) fun _ hc => ?_
          rw [hafter] at hc
          rw [hbefore]
          exact hcontends a hc
        rw [hqueued]
        omega
  · -- a call for another key works on another slot
    obtain ⟨M, hM, hle⟩ := h.within
    have hnot : i ∉ p.placed := by
      intro hi
      obtain ⟨t, ht', -, -, hkeys⟩ := h.stays i hi
      obtain rfl := Option.some.inj (ht.symm.trans ht')
      exact hkey (hkeys r rfl)
    have hnot' : i ∉ p'.placed := by
      intro hi
      rcases mem_placed hstep hi with hi | htaken
      · exact hnot hi
      · obtain ⟨-, r', a', pc', ht', hkey'⟩ := taken_eq_some htaken
        cases ht.symm.trans ht'
        exact hkey hkey'
    have hzero : p.share i = 0 := if_neg fun hand => hnot hand.1
    have hzero' : p'.share i = 0 := if_neg fun hand => hnot' hand.1
    refine ⟨M, ?_, by omega⟩
    rw [hs]
    exact queuedWithin_write hM hslot fun hk => absurd (h.mapped.unique _ _ a hget hk) hkey

/-- A step outside the loop keeps the balance. -/
theorem within_of_other (h : PlacesInv k q p) (hstep : stepPlaces cfg k p act = some p')
    (hloop : ∀ i r a pc, act = .step i → p.tracker.tasks[i]? ≠ some (.acquiring r a pc)) :
    ∃ M, QueuedWithin k M p'.tracker ∧ M + p'.returning ≤ q.toNat := by
  obtain ⟨M, hM, hle⟩ := h.within
  obtain ⟨hs, -⟩ := stepPlaces_eq hstep
  have hplaced := placed_of_taken_none (taken_eq_none hloop) hstep
  refine ⟨M, queuedWithin_of_change h.mapped.noneClears hM (change_of_step hs) hloop, ?_⟩
  cases hact : act.actor with
  | none =>
      have hsame : p'.returning = p.returning := by
        unfold Places.returning
        rw [hplaced]
        refine congrArg Finset.card (Finset.filter_congr fun j hj => ?_)
        rw [competing_of_other h hstep hj (by rw [hact]; exact fun heq => by cases heq)]
      omega
  | some i =>
      have hret := returning_of_step h hstep hact
      have hshare : p'.share i ≤ p.share i := by
        refine share_le_share (fun hi => hplaced ▸ hi) fun hi hc => ?_
        obtain ⟨t, ht, hstays⟩ := h.stays i hi
        rcases own_step_cases ht hstays.1 hact hs with
          ⟨r, a, pc, -, -, -, rfl, rfl, -⟩ | ⟨-, t', ht', hgoes⟩
        · exact absurd ht (hloop i r a pc rfl)
        · rw [Places.competing, ht', Option.any_some] at hc
          rw [Places.competing, ht, Option.any_some]
          exact hgoes.contends hc
      omega

/-- **A call that has been in the queue stays.** -/
theorem stays_step (h : PlacesInv k q p) (hstep : stepPlaces cfg k p act = some p') :
    ∀ i ∈ p'.placed, ∃ t, p'.tracker.tasks[i]? = some t ∧ t.Stays k := by
  intro i hi
  obtain ⟨hs, -⟩ := stepPlaces_eq hstep
  have hcases := mem_placed hstep hi
  -- whether it was in the queue before or takes its place now, it is a call of the key
  obtain ⟨t, ht, hentered, hkeys⟩ : ∃ t, p.tracker.tasks[i]? = some t ∧ t.entering = false ∧
      ∀ r, t.request = some r → r.key = k := by
    rcases hcases with hi | htaken
    · obtain ⟨t, ht, hentered, -, hkeys⟩ := h.stays i hi
      exact ⟨t, ht, hentered, hkeys⟩
    · obtain ⟨-, r, a, pc, ht, hkey⟩ := taken_eq_some htaken
      refine ⟨_, ht, rfl, fun r' hr' => ?_⟩
      obtain rfl := Option.some.inj hr'
      exact hkey
  have hold : (∀ r a pc, t = .acquiring r a pc → act ≠ .step i) → t.Stays k := by
    intro hloop
    rcases hcases with hi | htaken
    · obtain ⟨u, hu, hstays⟩ := h.stays i hi
      obtain rfl := Option.some.inj (ht.symm.trans hu)
      exact hstays
    · obtain ⟨hact, r, a, pc, ht', -⟩ := taken_eq_some htaken
      exact absurd hact (hloop r a pc (Option.some.inj (ht.symm.trans ht')))
  by_cases hact : act.actor = some i
  · rcases own_step_cases ht hentered hact hs with
      ⟨r, a, pc, slot, slot', next, rfl, rfl, hslot, hacq, hs'⟩ | ⟨hloop, t', ht', hgoes⟩
    · have hkey : r.key = k := hkeys r rfl
      have hself : p'.tracker.tasks[i]? = some (next.task a) := by
        rw [hs', State.write, getElem?_set_self ht]
      have hentered' : (next.task a).entering = false := by cases next <;> rfl
      have hkeys' : ∀ r', (next.task a).request = some r' → r'.key = k := by
        intro r' hr'
        cases next <;> first | (obtain rfl := Option.some.inj hr'; exact hkey) | cases hr'
      refine ⟨_, hself, hentered', ?_, hkeys'⟩
      cases turn_of_acquireStep hacq with
      | take hpc => rfl
      | give hin hpc => rfl
      | refuse hpc hfull =>
          -- it has been in the queue, and the queue is not full for it
          subst hpc
          have hnone : p.tracker.taken k (.step i) = none :=
            taken_loop ht hslot fun _ _ _ h => by cases h
          rcases hcases with hi | htaken
          · exact absurd hfull (h.not_full hi ht hslot)
          · rw [hnone] at htaken
            cases htaken
      | none hqueued hnext hcontends hpc => exact hnext a
    · exact ⟨t', ht', hgoes.stays (hold hloop)⟩
  · obtain ⟨t', ht', hgoes, -⟩ := goes_of_step_other ht hentered hact hs
    refine ⟨t', ht', hgoes.stays (hold fun r a pc _ heq => hact ?_)⟩
    rw [heq]
    rfl

/-- **Every step that leaves room keeps the balance.** -/
theorem placesInv_step (h : PlacesInv k q p) (hstep : stepPlaces cfg k p act = some p')
    (hfixed : act.fixed k c q = true) (hroom : p.room k q act = true) : PlacesInv k q p' := by
  obtain ⟨hs, -⟩ := stepPlaces_eq hstep
  have hclear : ∀ n, act ≠ .clearNode n := by
    rintro n rfl
    cases hfixed
  have hlimit : ∀ r, act = .call (.acquire r) → r.key = k → r.maxQueue = q := by
    rintro r rfl hkey
    exact (of_decide_eq_true hfixed hkey).2
  refine ⟨mapped_step h.mapped hs hclear, occupied_step h.occupied hs,
    requests_of_change h.limits hlimit (change_of_step hs), stays_step h hstep, ?_⟩
  by_cases hloop : ∃ i r a pc, act = .step i ∧ p.tracker.tasks[i]? = some (.acquiring r a pc)
  · obtain ⟨i, r, a, pc, rfl, ht⟩ := hloop
    rcases own_step_cases ht rfl rfl hs with
      ⟨r', a', pc', slot, slot', next, -, heq, hslot, hacq, hs'⟩ | ⟨hnot, -⟩
    · cases heq
      exact within_of_loop h hstep hroom ht hslot hacq hs'
    · exact absurd rfl (hnot r a pc rfl)
  · exact within_of_other h hstep fun i r a pc hact ht => hloop ⟨i, r, a, pc, hact, ht⟩

end

/-! ### Runs -/

/-- **A place in the queue.**  In every run in which the calls for a key bring one `concurrency` and
one `max_queue` and no node is cleared: no call that has been in the queue is refused, if every call
that takes a queue place for the first time leaves room for the calls that have been woken and
compete again. -/
theorem kept_of_room (cfg : Sharding ModelCapacityKey) (k : ModelCapacityKey) (c q : UInt32)
    (as : List Action)
    (h : Throughout (stepPlaces cfg k) (fun p act _ => (act.fixed k c q && p.room k q act) = true)
      ⟨init, ∅⟩ as) :
    Always (stepPlaces cfg k) Kept ⟨init, ∅⟩ as := by
  have hinv : Always (stepPlaces cfg k) (PlacesInv k q) ⟨init, ∅⟩ as := by
    refine always_of_step (fun p act p' hp hstep hcond => ?_) (placesInv_init k q) h
    obtain ⟨hfixed, hroom⟩ := (Bool.and_eq_true _ _).mp hcond
    exact placesInv_step hp hstep hfixed hroom
  exact hinv.mono fun p hp => hp.kept

/-- The second request of `handOver` is woken, and a third one comes when it has been admitted. -/
def keptPlace : List Action :=
  handOver ++ [.call (.acquire ⟨sampleKey, 1, 1⟩), .step 2, .step 2, .step 2, .step 2, .step 2]

theorem kept_keptPlace :
    Always (stepPlaces twoShards sampleKey) Kept ⟨init, ∅⟩ keptPlace ∧
      (run (stepPlaces twoShards sampleKey) ⟨init, ∅⟩ keptPlace).map
        (fun p => (p.placed, p.tracker.tasks.map Task.contends)) =
          some ({1, 2}, [false, false, false]) := by
  refine ⟨?_, by decide⟩
  exact kept_of_room twoShards sampleKey 1 1 keptPlace (throughout_of_check (by decide))

/-- With one place and a queue of one, a second request waits and is woken by the drop of the first
guard; before it competes again, a third request takes the place and a fourth one the queue. -/
def lostPlace : List Action :=
  [.call (.acquire ⟨sampleKey, 1, 1⟩), .step 0, .step 0, .step 0, .step 0, .step 0,
    .call (.acquire ⟨sampleKey, 1, 1⟩), .step 1, .step 1, .step 1, .step 1, .step 1, .step 1,
    .dropGuard 0, .step 0, .step 0, .step 0, .step 1, .step 1,
    .call (.acquire ⟨sampleKey, 1, 1⟩), .step 2, .step 2, .step 2, .step 2,
    .call (.acquire ⟨sampleKey, 1, 1⟩), .step 3, .step 3, .step 3, .step 3, .step 3, .step 3,
    .step 1, .step 1]

theorem observe_lostPlace :
    (run (stepPlaces twoShards sampleKey) ⟨init, ∅⟩ lostPlace).map
      (fun p => (decide (1 ∈ p.placed), (p.tracker.tasks[1]?).map Task.refused)) =
        some (true, some true) := by
  decide

/-- **A call that has waited is refused**: newcomers take the place it was woken for and its place
in the queue. -/
theorem keptPlaces_breaks :
    ¬ ∀ (cfg : Sharding ModelCapacityKey) (k : ModelCapacityKey) (c q : UInt32) (as : List Action),
      0 < c → 0 < q → (∀ act ∈ as, act.fixed k c q = true) →
        Always (stepPlaces cfg k) Kept ⟨init, ∅⟩ as := by
  intro h
  have hrun := h twoShards sampleKey 1 1 lostPlace (by decide) (by decide) (by decide)
  obtain ⟨p, hp, hobs⟩ := hrun.observe observe_lostPlace
  obtain ⟨hplaced, hrefused⟩ := Prod.mk.inj hobs
  obtain ⟨t, ht, htrue⟩ := Option.map_eq_some_iff.1 hrefused
  have hkept := hp 1 (of_decide_eq_true hplaced) t ht
  rw [hkept] at htrue
  cases htrue

end Capacity
