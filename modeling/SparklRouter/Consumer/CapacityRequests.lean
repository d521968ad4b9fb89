/-
**The counters of a model and its requests.**

The tracker counts guards and calls of `acquire`; an operator cares about requests.  A request owns
the task of its `acquire` from its arrival until its guard has been dropped, whatever happens to it in
between: the handler may be dropped while it waits, while the tunnel takes the request, or while the
response is collected or streamed.  So no task is left without a request, and the counters are the
requests: those between admission and release, and those in the queue together with the ones that
were dropped there.

Main definitions:

* `CapacityTelemetry.Handler.active`, `CapacityTelemetry.Handler.queued` — the request has a place of
  its model, or one of its queue;
* `CapacityTelemetry.Placed` — every task of an `acquire` is that of a request that is at its stage.

Main results:

* `CapacityTelemetry.placed_step` — every step keeps the invariant;
* `CapacityTelemetry.counts_requests` — **the counters of a model are its requests**;
* `CapacityTelemetry.active_le` — **never more requests of a model between admission and release than
  its concurrency**.
-/

import SparklRouter.Capacity.Refinement
import SparklRouter.Capacity.Stages
import SparklRouter.Consumer.CapacityTelemetry

set_option relaxedAutoImplicit false
set_option autoImplicit false

namespace CapacityTelemetry

open Capacity (Accounted Action Caller ModelCapacityKey Request Stage Task TaskId)
open TaskPool Transition

/-! ### What a request counts as -/

/-- The task of the request's `acquire`, or of the guard it has led to. -/
def Phase.place : Phase → Option TaskId
  | .acquiring call _ => some call
  | .announcing guard _ | .forwarding guard | .responding guard | .dropping guard
  | .abandoned guard => some guard
  | .reporting _ | .ended => none

/-- The stages of this task in a phase. -/
def Phase.admits : Phase → Stage → Prop
  | .acquiring _ _, stage => stage ≠ .dropped
  | .announcing _ _, stage | .forwarding _, stage | .responding _, stage => stage = .held
  | .dropping _, stage | .abandoned _, stage => stage = .dropped ∨ stage = .gone
  | .reporting _, _ | .ended, _ => True

namespace Handler

/-- The request has been admitted, and its place has not been given back yet. -/
def active (tracker : Capacity.State) (k : ModelCapacityKey) (h : Handler) : Bool :=
  decide (h.request.key = k) && h.tracked &&
    match h.phase with
    | .acquiring call _ => (tracker.tasks[call]?).any Task.isGuard
    | .announcing _ _ | .forwarding _ | .responding _ => true
    | .dropping guard | .abandoned guard => (tracker.tasks[guard]?).any (Task.liveFor k)
    | .reporting _ | .ended => false

/-- The request waits for a place. -/
def queued (tracker : Capacity.State) (k : ModelCapacityKey) (h : Handler) : Bool :=
  match h.phase with
  | .acquiring call _ => (tracker.tasks[call]?).any (Task.waitsFor k)
  | _ => false

/-- The task of the request is at a stage of its phase. -/
def Stands (tracker : Capacity.State) (h : Handler) : Prop :=
  ∀ i t, h.phase.place = some i → tracker.tasks[i]? = some t → h.phase.admits t.stage

theorem mem_calls_of_place {h : Handler} {i : TaskId} (hplace : h.phase.place = some i) :
    (i, .acquire h.request) ∈ h.calls := by
  unfold calls
  cases hphase : h.phase with
  | reporting snap => rw [hphase] at hplace; cases hplace
  | ended => rw [hphase] at hplace; cases hplace
  | _ =>
      rw [hphase] at hplace
      obtain rfl := Option.some.inj hplace
      exact List.mem_cons_self

end Handler

/-! ### The invariant -/

/-- Every request is at the stage of its task, and every task of an `acquire` that is not over is
that of a request. -/
structure Placed (s : State) : Prop where
  stands : ∀ h ∈ s.handlers, h.Stands s.tracker
  covered : ∀ (i : TaskId) (t : Task), s.tracker.tasks[i]? = some t → t.stage ≠ .gone →
    ∃ h ∈ s.handlers, h.phase.place = some i

theorem placed_init : Placed init where
  stands _ hh := absurd hh List.not_mem_nil
  covered i t ht := by cases ht

section

variable {cfg : Sharding ModelCapacityKey} {s s' : State} {tracker tracker' : Capacity.State}
  {h : Handler} {m : Move} {e : Effect} {k : ModelCapacityKey}

/-- What an `acquire` has become is no reading. -/
theorem not_of_both {t : Task} {r : Request} {l : ModelCapacityKey} {n : UInt32}
    (hacquire : t.Of (.acquire r)) (hreading : t.Of (.snapshotWithConcurrency l n)) : False := by
  cases t with
  | enter c => cases hacquire.symm.trans hreading
  | slotGet c => cases hacquire.1.symm.trans hreading.1
  | slotEntry c => cases hacquire.1.symm.trans hreading.1
  | acquiring q a pc => cases hreading.1
  | cancelled q a => cases hreading.1
  | guard j a => exact hreading.1.elim fun q hq => by cases hq
  | unlimitedGuard j => exact hreading.1.elim fun q hq => by cases hq
  | releasing j a pc => exact hreading.1.elim fun q hq => by cases hq
  | failed err => exact hreading.1.elim fun q hq => by cases hq
  | released => exact hreading.elim fun q hq => by cases hq
  | snapActive j c a => cases hacquire
  | snapQueued j c a v => cases hacquire
  | snapped snap => exact hacquire.elim fun j hj => hj.elim fun c hc => by cases hc
  | clearing n j => exact hacquire
  | cleared => exact hacquire

/-- The readings of a request are not steps of the task of its `acquire`. -/
theorem place_ne_snap (howned : h.Owned tracker) {i snap : TaskId} (hplace : h.phase.place = some i)
    (hsnap : (snap, h.reading) ∈ h.calls) : snap ≠ i := by
  rintro rfl
  obtain ⟨t, ht, hof⟩ := howned _ (Handler.mem_calls_of_place hplace)
  obtain ⟨u, hu, hof'⟩ := howned _ hsnap
  obtain rfl := Option.some.inj (ht.symm.trans hu)
  exact not_of_both hof hof'

theorem ne_dropped_of_step {i : TaskId} {before after : Stage} (hbefore : before ≠ .dropped)
    (h : Stage.Next (.step i) before after) : after ≠ .dropped := by
  cases before with
  | calling => exact h
  | held => exact h.elim
  | dropped => exact absurd rfl hbefore
  | gone =>
      rintro rfl
      cases h

/-- A task that is over stays over. -/
theorem gone_of_next {act : Action} {after : Stage} (h : Stage.Next act .gone after) :
    after = .gone := by
  cases act with
  | step i => exact h
  | spurious i => cases h.1
  | timeout i => cases h.1
  | cancel i => cases h.1
  | dropGuard i => cases h.1
  | call c => exact h.elim
  | clearNode n => exact h.elim

theorem dropped_of_step {i : TaskId} {before after : Stage} (hbefore : before = .dropped ∨ before = .gone)
    (h : Stage.Next (.step i) before after) : after = .dropped ∨ after = .gone := by
  rcases hbefore with rfl | rfl
  · exact h
  · exact Or.inr h

/-- The task of a request after an action that is not its own. -/
theorem stage_of_perform_other {action : Option Action} (hperform : perform cfg tracker action = some tracker')
    {i : TaskId} {t : Task} (ht : tracker.tasks[i]? = some t)
    (hother : ∀ act, action = some act → act.actor ≠ some i) :
    ∃ t', tracker'.tasks[i]? = some t' ∧ t'.stage = t.stage := by
  cases action with
  | none =>
      obtain rfl := Option.some.inj hperform
      exact ⟨t, ht, rfl⟩
  | some act => exact Capacity.stage_of_step_other ht (hother act rfl) hperform

/-- A request reads the counters without a guard once the drop of its guard is over. -/
theorem released_of_next (hnext : h.next tracker m = some e) {guard snap : TaskId}
    (hphase : h.phase = .dropping guard) (hreports : e.phase = .reporting snap) :
    tracker.tasks[guard]? = some .released := by
  cases m with
  | go =>
      simp only [Handler.next, Handler.goes, hphase] at hnext
      split at hnext
      · rename_i ht
        exact ht
      · obtain rfl := Option.some.inj hnext
        cases hreports
      · cases hnext
  | _ => simp [Handler.next, Handler.cancelled, hphase] at hnext

/-- **The task of a request after its move**: it is at a stage of the next phase, or it is over and
the request has let go of it. -/
theorem place_of_turn (howned : h.Owned tracker) (hstands : h.Stands tracker)
    (hnext : h.next tracker m = some e) (hperform : perform cfg tracker e.action = some tracker')
    {i : TaskId} (hplace : h.phase.place = some i) :
    ∃ t', tracker'.tasks[i]? = some t' ∧
      ((e.phase.place = some i ∧ e.phase.admits t'.stage) ∨
        (e.phase.place = none ∧ t'.stage = .gone)) := by
  obtain ⟨t, ht, -⟩ := howned _ (Handler.mem_calls_of_place hplace)
  have hadmits := hstands i t hplace ht
  have hturn := turn_of_next hnext
  -- an action of another leaves the stage, and one of its own takes it on
  have hother : ∀ act', (∀ act, e.action = some act → act.actor = act') → act' ≠ some i →
      ∃ t', tracker'.tasks[i]? = some t' ∧ t'.stage = t.stage := fun act' hact hne =>
    stage_of_perform_other hperform ht fun act ha => (hact act ha).trans_ne hne
  have hown : ∀ act, e.action = some act → act.actor = some i →
      ∃ t', tracker'.tasks[i]? = some t' ∧ Stage.Next act t.stage t'.stage := by
    intro act hact hactor
    rw [hact] at hperform
    exact Capacity.stage_of_own_step ht hactor hperform
  cases hturn with
  | @admitted call queued u hphase hu hguard =>
      obtain rfl : call = i := by simpa [hphase, Phase.place] using hplace
      obtain rfl := Option.some.inj (hu.symm.trans ht)
      obtain ⟨t', ht', hsame⟩ := hother none (fun act ha => by cases ha; rfl) (fun h => by cases h)
      refine ⟨t', ht', Or.inl ⟨rfl, hsame.trans ?_⟩⟩
      cases u <;> first | rfl | cases hguard
  | @loop call queued r a pc hphase hu =>
      obtain rfl : call = i := by simpa [hphase, Phase.place] using hplace
      obtain ⟨t', ht', hstage⟩ := hown _ rfl rfl
      rw [hphase] at hadmits
      exact ⟨t', ht', Or.inl ⟨rfl, ne_dropped_of_step hadmits hstage⟩⟩
  | @entering call queued u hphase hu hentering =>
      obtain rfl : call = i := by simpa [hphase, Phase.place] using hplace
      obtain ⟨t', ht', hstage⟩ := hown _ rfl rfl
      rw [hphase] at hadmits
      exact ⟨t', ht', Or.inl ⟨rfl, ne_dropped_of_step hadmits hstage⟩⟩
  | @read snap hphase =>
      have hsnap : (snap, h.reading) ∈ h.calls := by
        unfold Handler.calls
        rcases hphase with hphase | ⟨guard, hphase⟩
        · simp [hphase, Phase.calls]
        · simp [hphase, Phase.calls]
      have hne := place_ne_snap howned hplace hsnap
      obtain ⟨t', ht', hsame⟩ := hother (some snap) (fun act ha => by cases ha; rfl)
        fun heq => hne (Option.some.inj heq)
      exact ⟨t', ht', Or.inl ⟨hplace, hsame ▸ hadmits⟩⟩
  | @announce guard snap reading hphase hu =>
      obtain rfl : guard = i := by simpa [hphase, Phase.place] using hplace
      obtain ⟨t', ht', hsame⟩ := hother none (fun _ h => by cases h) (fun h => by cases h)
      rw [hphase] at hadmits
      exact ⟨t', ht', Or.inl ⟨rfl, hsame.trans hadmits⟩⟩
  | @release guard hphase =>
      obtain rfl : guard = i := by simpa [hphase, Phase.place] using hplace
      obtain ⟨t', ht', hstage⟩ := hown _ rfl rfl
      rw [hphase] at hadmits
      exact ⟨t', ht', Or.inl ⟨rfl, dropped_of_step hadmits hstage⟩⟩
  | @released guard hphase =>
      obtain rfl : guard = i := by simpa [hphase, Phase.place] using hplace
      have hover := released_of_next hnext hphase rfl
      obtain rfl := Option.some.inj (ht.symm.trans hover)
      obtain ⟨t', ht', hsame⟩ := hother none (fun act ha => by cases ha; rfl) (fun h => by cases h)
      exact ⟨t', ht', Or.inr ⟨rfl, hsame⟩⟩
  | @report snap reading hphase hu => simp [hphase, Phase.place] at hplace
  | @unwind guard l issued pc hphase hu =>
      obtain rfl : guard = i := by simpa [hphase, Phase.place] using hplace
      obtain ⟨t', ht', hstage⟩ := hown _ rfl rfl
      rw [hphase] at hadmits
      exact ⟨t', ht', Or.inl ⟨rfl, dropped_of_step hadmits hstage⟩⟩
  | @spurious call queued hphase =>
      obtain rfl : call = i := by simpa [hphase, Phase.place] using hplace
      obtain ⟨t', ht', -, hstage⟩ := hown _ rfl rfl
      exact ⟨t', ht', Or.inl ⟨rfl, fun hdropped => by rw [hstage] at hdropped; cases hdropped⟩⟩
  | @timeout call queued hphase =>
      obtain rfl : call = i := by simpa [hphase, Phase.place] using hplace
      obtain ⟨t', ht', -, hstage⟩ := hown _ rfl rfl
      exact ⟨t', ht', Or.inl ⟨rfl, fun hdropped => by rw [hstage] at hdropped; cases hdropped⟩⟩
  | @forwarded guard hphase =>
      obtain rfl : guard = i := by simpa [hphase, Phase.place] using hplace
      obtain ⟨t', ht', hsame⟩ := hother none (fun _ h => by cases h) (fun h => by cases h)
      rw [hphase] at hadmits
      exact ⟨t', ht', Or.inl ⟨rfl, hsame.trans hadmits⟩⟩
  | @drop guard m hphase =>
      obtain rfl : guard = i := by
        rcases hphase with hphase | hphase
        · simpa [hphase, Phase.place] using hplace
        · simpa [hphase, Phase.place] using hplace
      obtain ⟨t', ht', -, hstage⟩ := hown _ rfl rfl
      exact ⟨t', ht', Or.inl ⟨rfl, hstage⟩⟩
  | @giveUp call queued hphase =>
      obtain rfl : call = i := by simpa [hphase, Phase.place] using hplace
      obtain ⟨t', ht', -, hstage⟩ := hown _ rfl rfl
      exact ⟨t', ht', Or.inr ⟨rfl, hstage⟩⟩
  | @abandon guard hphase =>
      obtain rfl : guard = i := by
        rcases hphase with hphase | hphase
        · simpa [hphase, Phase.place] using hplace
        · simpa [hphase, Phase.place] using hplace
      obtain ⟨t', ht', -, hstage⟩ := hown _ rfl rfl
      exact ⟨t', ht', Or.inl ⟨rfl, hstage⟩⟩

/-- A request gets no task by a move. -/
theorem place_of_next (hturn : Turn tracker h m e) {i : TaskId} (hplace : e.phase.place = some i) :
    h.phase.place = some i := by
  cases hturn with
  | admitted hphase => exact hphase ▸ hplace
  | loop hphase => exact hphase ▸ hplace
  | entering hphase => exact hphase ▸ hplace
  | read hphase => exact hplace
  | announce hphase => exact hphase ▸ hplace
  | release hphase => exact hphase ▸ hplace
  | released hphase => cases hplace
  | report hphase => cases hplace
  | unwind hphase => exact hphase ▸ hplace
  | spurious hphase => exact hphase ▸ hplace
  | timeout hphase => exact hphase ▸ hplace
  | forwarded hphase => exact hphase ▸ hplace
  | drop hphase =>
      rcases hphase with hphase | hphase
      · exact hphase ▸ hplace
      · exact hphase ▸ hplace
  | giveUp hphase => cases hplace
  | abandon hphase =>
      rcases hphase with hphase | hphase
      · exact hphase ▸ hplace
      · exact hphase ▸ hplace

/-- A new request with the task of its call. -/
theorem placed_request (hplaced : Placed s) (hinv : Inv s) {r : Request} {stream : Bool}
    (hstep : step cfg s (.request r stream) = some s') : Placed s' := by
  obtain rfl := Option.some.inj hstep
  constructor
  · intro h hh i t hplace ht
    rcases List.mem_append.1 hh with hold | hnew
    · rcases getElem?_append_cases ht with ⟨rfl, rfl⟩ | ht
      · have hlt := hinv.lt_of_mem_calls hold (Handler.mem_calls_of_place hplace)
        exact absurd hlt (Nat.lt_irrefl _)
      · exact hplaced.stands h hold i t hplace ht
    · obtain rfl := List.mem_singleton.1 hnew
      obtain rfl := Option.some.inj hplace
      have hnone : s.tracker.tasks[s.tracker.tasks.length]? = none :=
        List.getElem?_eq_none (Nat.le_refl _)
      rcases getElem?_append_cases ht with ⟨-, rfl⟩ | ht
      · exact Stage.noConfusion
      · rw [hnone] at ht
        cases ht
  · intro i t ht hstage
    rcases getElem?_append_cases ht with ⟨rfl, rfl⟩ | ht
    · exact ⟨_, List.mem_append_right _ (List.mem_singleton.2 rfl), rfl⟩
    · obtain ⟨h, hh, hplace⟩ := hplaced.covered i t ht hstage
      exact ⟨h, List.mem_append_left _ hh, hplace⟩

/-- The task of a request is not touched by the moves of the others. -/
theorem place_of_other (hinv : Inv s) {i j : ℕ} {h h' : Handler} (hi : s.handlers[i]? = some h)
    (hj : s.handlers[j]? = some h') (hij : i ≠ j) {m : Move} {e : Effect}
    (hturn : Turn s.tracker h m e) (hperform : perform cfg s.tracker e.action = some tracker')
    {a : TaskId} (hplace : h'.phase.place = some a) :
    ∃ t t', s.tracker.tasks[a]? = some t ∧ tracker'.tasks[a]? = some t' ∧ t'.stage = t.stage := by
  have hmem := Handler.mem_calls_of_place hplace
  obtain ⟨t, ht, -⟩ := hinv.owned h' (List.mem_of_getElem? hj) _ hmem
  obtain ⟨t', ht', hsame⟩ := stage_of_perform_other hperform ht fun act hact =>
    hinv.actor_ne hi hj hij hturn act hact a _ hmem
  exact ⟨t, t', ht, ht', hsame⟩

/-- A task after a move that has a stage had a request, or is not over any more. -/
theorem covered_of_move (hplaced : Placed s) (hturn : Turn s.tracker h m e)
    (hperform : perform cfg s.tracker e.action = some tracker') {a : TaskId} {t' : Task}
    (ht' : tracker'.tasks[a]? = some t') (hstage : t'.stage ≠ .gone) :
    ∃ h' ∈ s.handlers, h'.phase.place = some a := by
  cases hact : e.action with
  | none =>
      rw [hact] at hperform
      obtain rfl := Option.some.inj hperform
      exact hplaced.covered a t' ht' hstage
  | some act =>
      rw [hact] at hperform
      rcases Capacity.tasks_of_step hperform ht' with ⟨t, ht⟩ | ⟨c, rfl, -, rfl⟩ | hover
      · refine hplaced.covered a t ht fun hover => hstage ?_
        by_cases hactor : act.actor = some a
        · obtain ⟨u, hu, hnext⟩ := Capacity.stage_of_own_step ht hactor hperform
          obtain rfl := Option.some.inj (ht'.symm.trans hu)
          rw [hover] at hnext
          exact gone_of_next hnext
        · obtain ⟨u, hu, hsame⟩ := Capacity.stage_of_step_other ht hactor hperform
          obtain rfl := Option.some.inj (ht'.symm.trans hu)
          exact hsame.trans hover
      · -- the only calls of a move are readings
        rcases action_of_turn hturn hact with hcall | ⟨b, d, -, hactor⟩
        · cases hcall
          exact absurd rfl hstage
        · cases hactor
      · exact absurd hover hstage

theorem placed_move (hplaced : Placed s) (hinv : Inv s) {i : ℕ} {h : Handler}
    (hi : s.handlers[i]? = some h) {m : Move} {e : Effect} (hnext : h.next s.tracker m = some e)
    (hperform : perform cfg s.tracker e.action = some tracker') :
    Placed (s.moved i h e tracker') := by
  have hturn := turn_of_next hnext
  have hown := hinv.owned h (List.mem_of_getElem? hi)
  have hstands := hplaced.stands h (List.mem_of_getElem? hi)
  constructor
  · intro h' hh' a t ha ht
    obtain ⟨j, hj⟩ := List.getElem?_of_mem hh'
    rcases getElem?_set_cases hj with ⟨rfl, rfl⟩ | ⟨hij, hj⟩
    · obtain ⟨t', ht', hcases⟩ := place_of_turn hown hstands hnext hperform (place_of_next hturn ha)
      obtain rfl := Option.some.inj (ht.symm.trans ht')
      rcases hcases with ⟨-, hadmits⟩ | ⟨hnone, -⟩
      · exact hadmits
      · rw [ha] at hnone
        cases hnone
    · obtain ⟨u, t', hu, ht', hsame⟩ := place_of_other hinv hi hj hij hturn hperform ha
      obtain rfl := Option.some.inj (ht.symm.trans ht')
      rw [hsame]
      exact hplaced.stands h' (List.mem_of_getElem? hj) a u ha hu
  · intro a t ht hstage
    obtain ⟨h', hh', ha⟩ := covered_of_move hplaced hturn hperform ht hstage
    obtain ⟨j, hj⟩ := List.getElem?_of_mem hh'
    by_cases hij : i = j
    · subst hij
      obtain rfl := Option.some.inj (hi.symm.trans hj)
      obtain ⟨t', ht', hcases⟩ := place_of_turn hown hstands hnext hperform ha
      obtain rfl := Option.some.inj (ht.symm.trans ht')
      rcases hcases with ⟨hplace, -⟩ | ⟨-, hover⟩
      · exact ⟨_, List.mem_of_getElem? (getElem?_set_self hi _), hplace⟩
      · exact absurd hover hstage
    · refine ⟨h', List.mem_of_getElem? (i := j) ?_, ha⟩
      change (s.handlers.set i _)[j]? = some h'
      rw [List.getElem?_set_ne hij]
      exact hj

/-- **Every step keeps the invariant.** -/
theorem placed_step (hplaced : Placed s) (hinv : Inv s) {act : Act}
    (hstep : step cfg s act = some s') : Placed s' := by
  cases act with
  | request r stream => exact placed_request hplaced hinv hstep
  | move i m =>
      obtain ⟨h, hi, hstep⟩ := Option.bind_eq_some_iff.1 hstep
      obtain ⟨e, hnext, hstep⟩ := Option.bind_eq_some_iff.1 hstep
      obtain ⟨tracker, hperform, rfl⟩ := Option.map_eq_some_iff.1 hstep
      exact placed_move hplaced hinv hi hnext hperform

/-! ### The counters -/

/-- The task of the request, if it has one. -/
def Handler.task (tracker : Capacity.State) (h : Handler) : Option Task :=
  h.phase.place.bind fun i => tracker.tasks[i]?

theorem task_eq (howned : h.Owned tracker) {i : TaskId} (hplace : h.phase.place = some i) :
    ∃ t, tracker.tasks[i]? = some t ∧ h.task tracker = some t ∧ t.Of (.acquire h.request) := by
  obtain ⟨t, ht, hof⟩ := howned _ (Handler.mem_calls_of_place hplace)
  exact ⟨t, ht, by rw [Handler.task, hplace, Option.bind_some, ht], hof⟩

/-- Before its drop, the task of an `acquire` counts as live exactly when it is a tracked guard. -/
theorem liveFor_of_not_dropped {r : Request} {t : Task} (hof : t.Of (.acquire r))
    (hstage : t.stage ≠ .dropped) (k : ModelCapacityKey) :
    t.liveFor k = (decide (r.key = k) && decide (r.concurrency ≠ 0) && t.isGuard) := by
  cases t with
  | guard l a =>
      obtain ⟨-, rfl, hlimited⟩ := hof
      rw [decide_eq_true (show r.concurrency ≠ 0 from hlimited), Bool.and_true, Task.isGuard,
        Bool.and_true]
      rfl
  | unlimitedGuard l =>
      obtain ⟨-, rfl, hunlimited⟩ := hof
      have hzero : r.concurrency = 0 := not_not.1 hunlimited
      simp [Task.liveFor, hzero]
  | releasing l a pc => exact absurd rfl hstage
  | _ => simp [Task.liveFor, Task.isGuard]

/-- **A request is active exactly when its task is a live guard.** -/
theorem active_eq (howned : h.Owned tracker) (hstands : h.Stands tracker) (k : ModelCapacityKey) :
    h.active tracker k = (h.task tracker).any (Task.liveFor k) := by
  cases hplace : h.phase.place with
  | none =>
      have hnone : h.task tracker = none := by rw [Handler.task, hplace]; rfl
      rw [hnone, Handler.active]
      cases hphase : h.phase <;> simp [hphase, Phase.place] at hplace ⊢
  | some i =>
      obtain ⟨t, ht, htask, hof⟩ := task_eq howned hplace
      have hadmits := hstands i t hplace ht
      rw [htask, Option.any_some]
      unfold Handler.active Handler.tracked
      -- a guard that is held is live if it is tracked
      have hheld : t.stage = .held → t.liveFor k =
          (decide (h.request.key = k) && decide (h.request.concurrency ≠ 0)) := by
        intro hstage
        rw [liveFor_of_not_dropped hof (hstage.trans_ne Stage.noConfusion) k,
          Capacity.isGuard_of_held hstage, Bool.and_true]
      -- and one that is being dropped is live for the key of its request only
      have hdropped : (decide (h.request.key = k) && decide (h.request.concurrency ≠ 0) &&
          t.liveFor k) = t.liveFor k := by
        cases hlive : t.liveFor k with
        | false => rw [Bool.and_false]
        | true =>
            obtain ⟨-, rfl, hlimited⟩ := hof.of_holds (k := k) (by simp [Task.holds, hlive])
            simp [Caller.key, show h.request.concurrency ≠ 0 from hlimited]
      cases hphase : h.phase with
      | acquiring call queued =>
          obtain rfl : call = i := by simpa [hphase, Phase.place] using hplace
          rw [hphase] at hadmits
          simp only [ht, Option.any_some]
          exact (liveFor_of_not_dropped hof hadmits k).symm
      | announcing guard snap =>
          rw [hphase] at hadmits
          rw [hheld hadmits, Bool.and_true]
      | forwarding guard =>
          rw [hphase] at hadmits
          rw [hheld hadmits, Bool.and_true]
      | responding guard =>
          rw [hphase] at hadmits
          rw [hheld hadmits, Bool.and_true]
      | dropping guard =>
          obtain rfl : guard = i := by simpa [hphase, Phase.place] using hplace
          simp only [ht, Option.any_some]
          exact hdropped
      | abandoned guard =>
          obtain rfl : guard = i := by simpa [hphase, Phase.place] using hplace
          simp only [ht, Option.any_some]
          exact hdropped
      | reporting snap => simp [hphase, Phase.place] at hplace
      | ended => simp [hphase, Phase.place] at hplace

/-- **A request is queued exactly when its task is in the queue.** -/
theorem queued_eq (howned : h.Owned tracker) (hstands : h.Stands tracker) (k : ModelCapacityKey) :
    h.queued tracker k = (h.task tracker).any (Task.waitsFor k) := by
  cases hplace : h.phase.place with
  | none =>
      have hnone : h.task tracker = none := by rw [Handler.task, hplace]; rfl
      rw [hnone, Handler.queued]
      cases hphase : h.phase <;> simp [hphase, Phase.place] at hplace ⊢
  | some i =>
      obtain ⟨t, ht, htask, hof⟩ := task_eq howned hplace
      have hadmits := hstands i t hplace ht
      rw [htask, Option.any_some]
      unfold Handler.queued
      have hnot : t.stage ≠ .calling → t.waitsFor k = false := by
        intro hstage
        cases t with
        | acquiring r a pc => exact absurd rfl hstage
        | _ => rfl
      cases hphase : h.phase with
      | acquiring call queued =>
          obtain rfl : call = i := by simpa [hphase, Phase.place] using hplace
          simp only [ht, Option.any_some]
      | announcing guard snap =>
          rw [hphase] at hadmits
          exact (hnot (hadmits.trans_ne Stage.noConfusion)).symm
      | forwarding guard =>
          rw [hphase] at hadmits
          exact (hnot (hadmits.trans_ne Stage.noConfusion)).symm
      | responding guard =>
          rw [hphase] at hadmits
          exact (hnot (hadmits.trans_ne Stage.noConfusion)).symm
      | dropping guard =>
          rw [hphase] at hadmits
          refine (hnot ?_).symm
          rcases hadmits with hstage | hstage
          · exact hstage.trans_ne Stage.noConfusion
          · exact hstage.trans_ne Stage.noConfusion
      | abandoned guard =>
          rw [hphase] at hadmits
          refine (hnot ?_).symm
          rcases hadmits with hstage | hstage
          · exact hstage.trans_ne Stage.noConfusion
          · exact hstage.trans_ne Stage.noConfusion
      | reporting snap => simp [hphase, Phase.place] at hplace
      | ended => simp [hphase, Phase.place] at hplace

/-- What is said of requests by their tasks counts the requests as it counts the tasks. -/
theorem total_eq_count (hplaced : Placed s) (hinv : Inv s) {p : Task → Bool} {q : Handler → Bool}
    (hp : ∀ t, p t = true → t.stage ≠ .gone)
    (hq : ∀ h ∈ s.handlers, q h = (h.task s.tracker).any p) :
    total (indicator q) s.handlers = s.tracker.count p := by
  refine total_indicator_eq (fun h => h.phase.place) ?_ ?_ ?_
  · intro h hh hqh
    rw [hq h hh] at hqh
    obtain ⟨t, htask, hpt⟩ := (Option.any_eq_true _ _).1 hqh
    obtain ⟨i, hplace, ht⟩ := Option.bind_eq_some_iff.1 htask
    exact ⟨i, t, hplace, ht, hpt⟩
  · intro i j h h' a hi hj _ _ ha ha'
    by_contra hij
    exact hinv.apart i j h h' hi hj hij a _ _ (Handler.mem_calls_of_place ha)
      (Handler.mem_calls_of_place ha')
  · intro i t ht hpt
    obtain ⟨h, hh, hplace⟩ := hplaced.covered i t ht (hp t hpt)
    refine ⟨h, hh, ?_, hplace⟩
    rw [hq h hh, Handler.task, hplace, Option.bind_some, ht, Option.any_some, hpt]

end

/-! ### Runs -/

section

variable {cfg : Sharding ModelCapacityKey} {acts : List Act} {s : State}

/-- The tracker takes part in a run with steps of its own: no node is cleared, and the calls of
`acquire` are those of the requests. -/
theorem run_tracker (hrun : run (step cfg) init acts = some s) :
    ∃ as, run (Capacity.step cfg) Capacity.init as = some s.tracker ∧
      ∀ a ∈ as, (∀ n, a ≠ .clearNode n) ∧
        ∀ r, a = .call (.acquire r) → ∃ stream, .request r stream ∈ acts := by
  refine run_of_simulation State.tracker (I := fun _ => True) (C := fun act => act ∈ acts)
    (fun _ _ _ _ _ _ => trivial) ?_ trivial (fun _ h => h) hrun
  intro s act s' _ hact hstep
  cases act with
  | request r stream =>
      obtain rfl := Option.some.inj hstep
      refine Or.inr ⟨.call (.acquire r), ⟨nofun, fun r' hr' => ?_⟩, rfl⟩
      cases hr'
      exact ⟨stream, hact⟩
  | move i m =>
      obtain ⟨h, e, tracker, hi, hturn, hperform, rfl⟩ := exists_turn_of_step hstep
      cases haction : e.action with
      | none =>
          rw [haction] at hperform
          obtain rfl := Option.some.inj hperform
          exact Or.inl rfl
      | some a =>
          rw [haction] at hperform
          refine Or.inr ⟨a, ⟨fun n hn => ?_, fun r hr => ?_⟩, hperform⟩
          · exact clears_of_turn hturn n (haction.trans (congrArg some hn))
          · rcases action_of_turn hturn haction with hcall | ⟨b, d, -, hactor⟩
            · cases hcall.symm.trans hr
            · rw [hr] at hactor
              cases hactor

theorem placed_of_run (hrun : run (step cfg) init acts = some s) : Inv s ∧ Placed s := by
  have hreach : Reachable (step cfg) init s := ⟨acts, hrun⟩
  exact hreach.invariant (I := fun s => Inv s ∧ Placed s) ⟨inv_init, placed_init⟩
    fun s act s' h hstep => ⟨inv_step h.1 hstep, placed_step h.2 h.1 hstep⟩

/-- The requests by the tasks of the tracker. -/
theorem requests_eq_tasks (hinv : Inv s) (hplaced : Placed s) (k : ModelCapacityKey) :
    total (indicator (Handler.active s.tracker k)) s.handlers = s.tracker.count (Task.liveFor k) ∧
      total (indicator (Handler.queued s.tracker k)) s.handlers =
        s.tracker.count (Task.waitsFor k) := by
  constructor
  · refine total_eq_count hplaced hinv (fun t ht => ?_) fun h hh =>
      active_eq (hinv.owned h hh) (hplaced.stands h hh) k
    cases t <;> first | exact Stage.noConfusion | cases ht
  · refine total_eq_count hplaced hinv (fun t ht => ?_) fun h hh =>
      queued_eq (hinv.owned h hh) (hplaced.stands h hh) k
    cases t <;> first | exact Stage.noConfusion | cases ht

/-- **The counters of a model are its requests.**  In every state of every run, requests dropped
anywhere included: the active counter of a key is the number of its requests between admission and
release, and the queued counter is the number of its requests in the queue and of those that were
dropped there.  In particular no place is held once all requests of the key have ended. -/
theorem counts_requests (cfg : Sharding ModelCapacityKey) {acts : List Act} {s : State}
    (hrun : run (step cfg) init acts = some s) (k : ModelCapacityKey) :
    (s.tracker.counts k).1.toNat = total (indicator (Handler.active s.tracker k)) s.handlers ∧
      (s.tracker.counts k).2.toNat =
        total (indicator (Handler.queued s.tracker k)) s.handlers +
          s.tracker.count (Task.leftFor k) ∧
      ((∀ h ∈ s.handlers, h.request.key = k → h.phase = .ended) →
        (s.tracker.counts k).1.toNat = 0) := by
  obtain ⟨hinv, hplaced⟩ := placed_of_run hrun
  obtain ⟨as, has, hcalls⟩ := run_tracker hrun
  obtain ⟨hactive, hqueued⟩ := requests_eq_tasks hinv hplaced k
  obtain ⟨hone, htwo⟩ :=
    (Capacity.accounted_of_run has fun n hn => (hcalls _ hn).1 n rfl).counts_for k
  rw [hone, htwo, hactive, hqueued]
  refine ⟨rfl, rfl, fun hended => ?_⟩
  rw [← hactive]
  refine total_eq_zero.2 fun h hh => indicator_of_not ?_
  unfold Handler.active
  by_cases hkey : h.request.key = k
  · rw [hended h hh hkey, Bool.and_false]
  · rw [decide_eq_false hkey, Bool.false_and, Bool.false_and]

/-- **Never more requests of a model than its concurrency.**  When the requests of a run for a key
bring a concurrency of at most `C` and a queue of at most `Q`, in every state at most `C` of those
with a limit are between admission and release, and at most `Q` are in the queue or were dropped
there. -/
theorem active_le (cfg : Sharding ModelCapacityKey) {acts : List Act} {s : State}
    (hrun : run (step cfg) init acts = some s) (k : ModelCapacityKey) (C Q : ℕ)
    (hlimits : ∀ r stream, .request r stream ∈ acts → r.key = k →
      r.concurrency.toNat ≤ C ∧ r.maxQueue.toNat ≤ Q) :
    total (indicator (Handler.active s.tracker k)) s.handlers ≤ C ∧
      total (indicator (Handler.queued s.tracker k)) s.handlers +
        s.tracker.count (Task.leftFor k) ≤ Q := by
  obtain ⟨hinv, hplaced⟩ := placed_of_run hrun
  obtain ⟨as, has, hcalls⟩ := run_tracker hrun
  have hclear : ∀ n, .clearNode n ∉ as := fun n hn => (hcalls _ hn).1 n rfl
  obtain ⟨hactive, hqueued⟩ := requests_eq_tasks hinv hplaced k
  obtain ⟨hone, htwo⟩ := (Capacity.accounted_of_run has hclear).counts_for k
  obtain ⟨hcard, hoccupied⟩ := (Capacity.accounted_of_run has hclear).counts k
  obtain ⟨ops, hops, hfrom⟩ := Capacity.run_semaphore has hclear k
  have hwithin : ∀ op ∈ ops, op.within C Q := by
    intro op hop
    have hlimit := hfrom op hop
    cases op with
    | grant i limit =>
        obtain ⟨r, hr, hkey, rfl⟩ := hlimit
        obtain ⟨stream, hrequest⟩ := (hcalls _ hr).2 r rfl
        exact (hlimits r stream hrequest hkey).1
    | enqueue i limit =>
        obtain ⟨r, hr, hkey, rfl⟩ := hlimit
        obtain ⟨stream, hrequest⟩ := (hcalls _ hr).2 r rfl
        exact (hlimits r stream hrequest hkey).2
    | _ => trivial
  rw [hactive, hqueued, ← hone, ← htwo, hcard, hoccupied]
  exact ⟨Semaphore.card_active_le hops hwithin, Semaphore.card_occupied_le hops hwithin⟩

end

/-- A request that is forwarded, and one for the same model that is dropped in the queue. -/
def forwardedAndGone : List Act :=
  [.request ⟨Capacity.sampleKey, 1, 1⟩ false] ++ List.replicate 11 (.move 0 .go) ++
    [.request ⟨Capacity.sampleKey, 1, 1⟩ false] ++ List.replicate 6 (.move 1 .go) ++
    [.move 1 .cancel]

theorem observe_forwardedAndGone :
    (run (step Capacity.twoShards) init forwardedAndGone).map
      (fun s => (s.tracker.counts Capacity.sampleKey, s.handlers.map fun h => h.phase)) =
        some ((1, 1), [.forwarding 0, .ended]) := by
  decide +kernel

theorem counts_forwardedAndGone :
    ∃ s, run (step Capacity.twoShards) init forwardedAndGone = some s ∧
      total (indicator (Handler.active s.tracker Capacity.sampleKey)) s.handlers = 1 ∧
      total (indicator (Handler.queued s.tracker Capacity.sampleKey)) s.handlers +
        s.tracker.count (Task.leftFor Capacity.sampleKey) = 1 := by
  obtain ⟨s, hrun, hobs⟩ := Option.map_eq_some_iff.1 observe_forwardedAndGone
  obtain ⟨hcounts, -⟩ := Prod.mk.inj hobs
  obtain ⟨hactive, hqueued, -⟩ := counts_requests Capacity.twoShards hrun Capacity.sampleKey
  rw [hcounts] at hactive hqueued
  exact ⟨s, hrun, hactive.symm, hqueued.symm⟩

theorem active_le_forwardedAndGone :
    ∃ s, run (step Capacity.twoShards) init forwardedAndGone = some s ∧
      total (indicator (Handler.active s.tracker Capacity.sampleKey)) s.handlers ≤ 1 := by
  obtain ⟨s, hrun, -⟩ := Option.map_eq_some_iff.1 observe_forwardedAndGone
  refine ⟨s, hrun, (active_le Capacity.twoShards hrun Capacity.sampleKey 1 1 ?_).1⟩
  intro r stream hmem _
  have hr : r = ⟨Capacity.sampleKey, 1, 1⟩ ∧ stream = false := by
    simpa [forwardedAndGone, List.mem_replicate] using hmem
  rw [hr.1]
  decide

end CapacityTelemetry
