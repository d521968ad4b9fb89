/-
**The last word a subscriber has on a model.**

What a client knows of a model is the last message that names it: a row of the snapshot, or an event
after it.  When no request is engaged for the model, and the client has been sent all that there is for
it, the last word is the truth, provided the requests keep to the condition under which the telemetry
settles, and the receiver has skipped no event of the model.  Either an event has been sent since the
subscription, and then the last of them says what the counters are; or none has, and then no request has
been counted since, so that what was read in between, in whatever order, is what the counters still are.

Main definitions:

* `Subscribe.lastWord` — the last word of a list of messages on a key;
* `Subscribe.Good` — what holds of a subscriber at any moment.

Main results:

* `Subscribe.quiet_before` — a key that is quiet after a step that sends nothing for it was quiet
  before, with the same counters;
* `Subscribe.good_step`, `Subscribe.inv_step` — every step keeps the invariant;
* `Subscribe.lastWord_is_true` — **the last word of a subscriber is the truth**.
-/

import SparklRouter.Status.Subscribe

set_option relaxedAutoImplicit false
set_option autoImplicit false

namespace Subscribe

open Broadcast (Receiver)
open Capacity (Action CapacitySnapshot Caller Mapped ModelCapacityKey Slot Task TaskId)
open CapacityTelemetry (Handler isFor perform)
open ModelsCatalog (ModelCapacityEvent Orders)
open Transition

variable {cfg : Sharding ModelCapacityKey}

/-! ### What a step of the requests leaves unsaid -/

/-- **A key that is quiet after a step that sends nothing for it was quiet before**, with the same
counters, provided the step meets the condition of the telemetry. -/
theorem quiet_before {s s' : CapacityTelemetry.State} {act : CapacityTelemetry.Act}
    (hinv : CapacityTelemetry.Inv s) (hstep : CapacityTelemetry.step cfg s act = some s')
    (hsettles : s.settles act = true) {k : ModelCapacityKey} (hquiet : s'.Quiet k)
    (hnone : ∀ e ∈ s'.events.drop s.events.length, isFor k e = false) :
    s.Quiet k ∧ s'.tracker.counts k = s.tracker.counts k := by
  cases act with
  | request r stream =>
      obtain rfl := Option.some.inj hstep
      have hperform : perform cfg s.tracker (some (.call (.acquire r))) =
          some (s.tracker.spawn (.enter (.acquire r))) := rfl
      refine ⟨fun h hh => ?_, rfl⟩
      rw [← hquiet h (List.mem_append_left _ hh)]
      refine (CapacityTelemetry.engaged_of_perform_other (hinv.owned h hh) hperform ?_).symm
      rintro act hact a c -
      cases hact
      exact nofun
  | move i m =>
      obtain ⟨h, e, tracker, hi, hturn, hperform, rfl⟩ :=
        CapacityTelemetry.exists_turn_of_step hstep
      have hbefore : h.engaged s.tracker k = false := by
        cases hengaged : h.engaged s.tracker k with
        | false => rfl
        | true =>
            obtain rfl := CapacityTelemetry.key_of_engaged hengaged
            have hafter := hquiet _ (List.mem_of_getElem? (TaskPool.getElem?_set_self hi _))
            obtain ⟨hkeeps, -⟩ := CapacityTelemetry.settles_alone hi (fun j h' hij hj =>
              CapacityTelemetry.others_quiet hinv hi hturn hperform hquiet hij hj) hsettles
            rcases CapacityTelemetry.leaves_cases hinv.mapped
                (hinv.owned h (List.mem_of_getElem? hi)) hturn hperform hengaged hafter with
              hgives | ⟨snap, -, hsent⟩
            · rw [hkeeps] at hgives
              cases hgives
            · have hmem : h.event snap ∈
                  (s.moved i h e tracker).events.drop s.events.length := by
                simp [CapacityTelemetry.State.moved, hsent]
              have hfor := hnone _ hmem
              rw [CapacityTelemetry.isFor_event, decide_eq_true rfl] at hfor
              cases hfor
      obtain ⟨hcounts, hquiet'⟩ :=
        CapacityTelemetry.still_of_not_engaged hinv hi hturn hperform hquiet hbefore
      exact ⟨hquiet', hcounts⟩

/-- A step sends its events after those that have been sent. -/
theorem events_of_step {s s' : CapacityTelemetry.State} {act : CapacityTelemetry.Act}
    (hstep : CapacityTelemetry.step cfg s act = some s') :
    s.events ++ s'.events.drop s.events.length = s'.events := by
  cases act with
  | request r stream =>
      obtain rfl := Option.some.inj hstep
      simp
  | move i m =>
      obtain ⟨h, e, tracker, hi, hturn, hperform, rfl⟩ :=
        CapacityTelemetry.exists_turn_of_step hstep
      simp [CapacityTelemetry.State.moved]

/-- The tasks of the requests after a step: they have been theirs before, or one is new. -/
theorem calls_of_step {s s' : CapacityTelemetry.State} {act : CapacityTelemetry.Act}
    (hstep : CapacityTelemetry.step cfg s act = some s') {h' : Handler} (hh' : h' ∈ s'.handlers)
    {a : TaskId} {c : Caller} (hmem : (a, c) ∈ h'.calls) :
    (∃ h ∈ s.handlers, ∃ c', (a, c') ∈ h.calls) ∨ a = s.tracker.tasks.length := by
  cases act with
  | request r stream =>
      obtain rfl := Option.some.inj hstep
      rcases List.mem_append.1 hh' with hh | hnew
      · exact Or.inl ⟨h', hh, c, hmem⟩
      · obtain rfl := List.mem_singleton.1 hnew
        cases List.mem_singleton.1 hmem
        exact Or.inr rfl
  | move i m =>
      obtain ⟨h, e, tracker, hi, hturn, hperform, rfl⟩ :=
        CapacityTelemetry.exists_turn_of_step hstep
      rcases List.mem_or_eq_of_mem_set hh' with hh | rfl
      · exact Or.inl ⟨h', hh, c, hmem⟩
      · rcases CapacityTelemetry.calls_of_turn hturn hmem with hmem | ⟨-, heq⟩
        · exact Or.inl ⟨h, List.mem_of_getElem? hi, c, hmem⟩
        · cases heq
          exact Or.inr rfl

/-! ### The readings of the subscribers -/

/-- The task of a reading, and what it has read so far. -/
def Task.Says (counts : UInt32 × UInt32) : Task → Prop
  | .snapQueued _ _ _ active => active = counts.1
  | .snapped snap => (snap.activeRequests, snap.queuedRequests) = counts
  | _ => True

/-- The call of `snapshot` for the key, or what has become of it. -/
def Looks (tracker : Capacity.State) (k : ModelCapacityKey) (call : TaskId) : Prop :=
  ∃ t, tracker.tasks[call]? = some t ∧ t.Of (.snapshotWithConcurrency k 0)

/-- The action is the call of a reading, or the step of one that belongs to no request. -/
def Reads (s : CapacityTelemetry.State) (act : Action) : Prop :=
  (∃ k, act = .call (.snapshotWithConcurrency k 0)) ∨
    ∃ k j, act = .step j ∧ Looks s.tracker k j ∧ ∀ h ∈ s.handlers, ∀ c, (j, c) ∉ h.calls

section

variable {s : CapacityTelemetry.State} {tracker' : Capacity.State} {act : Action}
  {k : ModelCapacityKey}

theorem Reads.clears (hreads : Reads s act) (n : NodeId) : act ≠ .clearNode n := by
  rcases hreads with ⟨k, rfl⟩ | ⟨k, j, rfl, -, -⟩
  · exact nofun
  · exact nofun

theorem Reads.other (hreads : Reads s act) {h : Handler} (hh : h ∈ s.handlers) (a : TaskId)
    (c : Caller) (hmem : (a, c) ∈ h.calls) : act.actor ≠ some a := by
  rcases hreads with ⟨k, rfl⟩ | ⟨k, j, rfl, -, hnone⟩
  · exact nofun
  · rintro hactor
    cases hactor
    exact hnone h hh c hmem

/-- The task of a reading is not counted. -/
theorem holds_of_looks {t : Task} {l : ModelCapacityKey} (hof : t.Of (.snapshotWithConcurrency l 0)) :
    t.holds k = false := by
  refine Bool.eq_false_of_not_eq_true fun hholds => ?_
  obtain ⟨⟨r, hr⟩, -, -⟩ := hof.of_holds hholds
  cases hr

/-- **A reading changes no counter.** -/
theorem counts_of_reads (hinv : CapacityTelemetry.Inv s) (hreads : Reads s act)
    (hstep : Capacity.step cfg s.tracker act = some tracker') (k : ModelCapacityKey) :
    tracker'.counts k = s.tracker.counts k := by
  refine Capacity.counts_of_step hinv.mapped hstep hreads.clears ?_ ?_
  · rintro i t rfl ht
    rcases hreads with ⟨l, hl⟩ | ⟨l, j, hj, ⟨u, hu, hof⟩, -⟩
    · cases hl
    · cases hj
      obtain rfl := Option.some.inj (hu.symm.trans ht)
      exact holds_of_looks hof
  · rintro i t rfl ht
    rcases hreads with ⟨l, hl⟩ | ⟨l, j, hj, ⟨u, hu, hof⟩, -⟩
    · cases hl
    · cases hj
      obtain ⟨t', ht', hof'⟩ := Capacity.of_step hu hof hstep
      obtain rfl := Option.some.inj (ht'.symm.trans ht)
      exact holds_of_looks hof'

theorem inv_of_reads (hinv : CapacityTelemetry.Inv s) (hreads : Reads s act)
    (hstep : Capacity.step cfg s.tracker act = some tracker') :
    CapacityTelemetry.Inv { s with tracker := tracker' } where
  mapped := Capacity.mapped_step hinv.mapped hstep hreads.clears
  owned h hh := CapacityTelemetry.owned_of_perform (hinv.owned h hh)
    (show CapacityTelemetry.perform cfg s.tracker (some act) = some tracker' from hstep)
  apart := hinv.apart

theorem quiet_of_reads (hinv : CapacityTelemetry.Inv s) (hreads : Reads s act)
    (hstep : Capacity.step cfg s.tracker act = some tracker')
    (hquiet : CapacityTelemetry.State.Quiet { s with tracker := tracker' } k) : s.Quiet k := by
  intro h hh
  rw [← hquiet h hh]
  have hperform : CapacityTelemetry.perform cfg s.tracker (some act) = some tracker' := hstep
  refine (CapacityTelemetry.engaged_of_perform_other (hinv.owned h hh) hperform
    fun act' hact a c hmem => ?_).symm
  obtain rfl := Option.some.inj hact
  exact hreads.other hh a c hmem

theorem settled_of_reads (hinv : CapacityTelemetry.Inv s) (hreads : Reads s act)
    (hstep : Capacity.step cfg s.tracker act = some tracker')
    (hsettled : CapacityTelemetry.Settled s) :
    CapacityTelemetry.Settled { s with tracker := tracker' } := by
  intro k hquiet e hlast
  have hsame := hsettled k (quiet_of_reads hinv hreads hstep hquiet) e hlast
  rwa [← counts_of_reads hinv hreads hstep k] at hsame

end

/-- A reading that finds the counters of its key finds them at its next step, too. -/
theorem tells_of_own_step {tracker tracker' : Capacity.State} (hmapped : Mapped tracker)
    {k : ModelCapacityKey} {j : TaskId} {t t' : Task} (ht : tracker.tasks[j]? = some t)
    (hof : t.Of (.snapshotWithConcurrency k 0)) (hheard : Task.Says (tracker.counts k) t)
    (hstep : Capacity.step cfg tracker (.step j) = some tracker')
    (ht' : tracker'.tasks[j]? = some t') : Task.Says (tracker.counts k) t' := by
  rw [Capacity.step, ht, Option.bind_some] at hstep
  have hself : ∀ u, (tracker.put j u).tasks[j]? = some u := fun u => TaskPool.getElem?_set_self ht u
  cases t with
  | enter d =>
      obtain rfl : d = .snapshotWithConcurrency k 0 := hof
      obtain rfl := Option.some.inj hstep
      obtain rfl := Option.some.inj ((hself _).symm.trans ht')
      trivial
  | slotGet d =>
      obtain ⟨rfl, -⟩ := hof
      simp only [Capacity.advance] at hstep
      split at hstep
      · obtain rfl := Option.some.inj hstep
        obtain rfl := Option.some.inj ((hself _).symm.trans ht')
        trivial
      · obtain rfl := Option.some.inj hstep
        obtain rfl := Option.some.inj ((hself _).symm.trans ht')
        trivial
  | slotEntry d =>
      obtain ⟨rfl, -⟩ := hof
      simp only [Capacity.advance] at hstep
      split at hstep
      · obtain rfl := Option.some.inj hstep
        obtain rfl := Option.some.inj ((TaskPool.getElem?_set_self ht _).symm.trans ht')
        trivial
      · cases hstep
  | snapActive l n a =>
      obtain ⟨slot, hslot, rfl⟩ := Option.map_eq_some_iff.1 hstep
      obtain rfl := Option.some.inj ((hself _).symm.trans ht')
      cases hof
      have hget := hmapped.refs _ (List.mem_of_getElem? ht) (k, a) (by simp [Task.refs])
      rw [Capacity.counts_of_slot hget hslot]
      rfl
  | snapQueued l n a active =>
      obtain ⟨slot, hslot, rfl⟩ := Option.map_eq_some_iff.1 hstep
      obtain rfl := Option.some.inj ((hself _).symm.trans ht')
      cases hof
      have hget := hmapped.refs _ (List.mem_of_getElem? ht) (k, a) (by simp [Task.refs])
      rw [Capacity.counts_of_slot hget hslot] at hheard ⊢
      change active = slot.active at hheard
      rw [hheard]
      rfl
  | snapped snap => cases hstep
  | acquiring r a pc => cases hof.1
  | guard l a => exact hof.1.elim fun r hr => by cases hr
  | unlimitedGuard l => exact hof.1.elim fun r hr => by cases hr
  | releasing l a pc => exact hof.1.elim fun r hr => by cases hr
  | cancelled r a => cases hof.1
  | failed e => exact hof.1.elim fun r hr => by cases hr
  | released => exact hof.elim fun r hr => by cases hr
  | clearing n shard => exact hof.elim
  | cleared => exact hof.elim

/-- **A reading of a key whose counters stay says what they are.** -/
theorem tells_of_step {tracker tracker' : Capacity.State} (hmapped : Mapped tracker)
    {k : ModelCapacityKey} {j : TaskId} {act : Action} (hlooks : Looks tracker k j)
    (hheard : ∀ t, tracker.tasks[j]? = some t → Task.Says (tracker.counts k) t)
    (hstep : Capacity.step cfg tracker act = some tracker') {t' : Task}
    (ht' : tracker'.tasks[j]? = some t') : Task.Says (tracker.counts k) t' := by
  obtain ⟨t, ht, hof⟩ := hlooks
  by_cases hact : act.actor = some j
  · cases act with
    | step i =>
        obtain rfl := Option.some.inj hact
        exact tells_of_own_step hmapped ht hof (hheard t ht) hstep ht'
    | call c => cases hact
    | clearNode n => cases hact
    | spurious i =>
        obtain rfl := Option.some.inj hact
        obtain ⟨r, a, pc, pc', hi, -, -⟩ := Capacity.exists_of_spurious hstep
        obtain rfl := Option.some.inj (ht.symm.trans hi)
        cases hof.1
    | timeout i =>
        obtain rfl := Option.some.inj hact
        obtain ⟨r, a, pc, slot, woken, hi, -, -, -⟩ := Capacity.exists_of_timeout hstep
        obtain rfl := Option.some.inj (ht.symm.trans hi)
        cases hof.1
    | cancel i =>
        obtain rfl := Option.some.inj hact
        obtain ⟨r, a, pc, slot, woken, hi, -, -, -⟩ := Capacity.exists_of_cancel hstep
        obtain rfl := Option.some.inj (ht.symm.trans hi)
        cases hof.1
    | dropGuard i =>
        obtain rfl := Option.some.inj hact
        rcases Capacity.exists_of_dropGuard hstep with ⟨l, a, hi, -⟩ | ⟨l, hi, -⟩
        · obtain rfl := Option.some.inj (ht.symm.trans hi)
          exact hof.1.elim fun r hr => by cases hr
        · obtain rfl := Option.some.inj (ht.symm.trans hi)
          exact hof.1.elim fun r hr => by cases hr
  · rcases Capacity.task_of_step_other ht hact hstep with h | ⟨r, a, rfl, -⟩
    · obtain rfl := Option.some.inj (h.symm.trans ht')
      exact hheard _ ht
    · cases hof.1

theorem looks_of_step {tracker tracker' : Capacity.State} {k : ModelCapacityKey} {j : TaskId}
    {act : Action} (hlooks : Looks tracker k j)
    (hstep : Capacity.step cfg tracker act = some tracker') : Looks tracker' k j := by
  obtain ⟨t, ht, hof⟩ := hlooks
  exact Capacity.of_step ht hof hstep

/-! ### The invariant -/

/-- What has been read of a key, as far as it has been read, is what the counters are. -/
def Phase.Agrees (tracker : Capacity.State) (k : ModelCapacityKey) : Phase → Prop
  | .counting snaps half =>
      (∀ counts, (k, counts) ∈ snaps → counts = tracker.counts k) ∧
        ∀ active, half = some (k, active) → active = (tracker.counts k).1
  | .looking snaps looks call =>
      (∀ counts, (k, counts) ∈ snaps → counts = tracker.counts k) ∧
        (∀ snap, (k, snap) ∈ looks →
          (snap.activeRequests, snap.queuedRequests) = tracker.counts k) ∧
        ∀ j, call = some (k, j) → ∀ t, tracker.tasks[j]? = some t → Task.Says (tracker.counts k) t
  | .live | .gone => True

/-- The call of `snapshot` that is in progress. -/
def Phase.call? : Phase → Option (ModelCapacityKey × TaskId)
  | .looking _ _ call => call
  | _ => none

/-- Whether the snapshot has not been sent yet. -/
def Phase.surveys : Phase → Bool
  | .counting _ _ | .looking _ _ _ => true
  | _ => false

/-- The event is that of a model, for the key. -/
def TelemetryEvent.names (k : ModelCapacityKey) (event : TelemetryEvent) : Bool :=
  event.model?.any (isFor k)

/-- The rows of the snapshots that a client has been sent say what the counters are. -/
def ToldTrue (tracker : Capacity.State) (k : ModelCapacityKey) (told : List TelemetryEvent) : Prop :=
  ∀ nodes models, .snapshot nodes models ∈ told → ∀ e ∈ models, isFor k e = true →
    (e.activeRequests, e.queuedRequests) = tracker.counts k

/-- **What holds of a subscriber at any moment**: its receiver follows the bus, which has had the
events of the requests since the subscription; it has been told a snapshot and what it has received;
and what it has read of a quiet key without an event is true. -/
structure Good (base : CapacityTelemetry.State) (log : List TelemetryEvent) (sub : Subscriber) :
    Prop where
  follows : sub.rx.Follows log
  logged : sub.phase.subscribed = true →
    (log.drop sub.rx.start).filterMap TelemetryEvent.model? = base.events.drop sub.seen
  seen_le : sub.seen ≤ base.events.length
  heard : ∀ event ∈ sub.rx.received, event.isSnapshot = false
  unheard : sub.phase.surveys = true → sub.rx.received = [] ∧ sub.told = []
  told : sub.phase = .live → ∃ nodes models, sub.told = .snapshot nodes models :: sub.rx.received
  looks : ∀ k j, sub.phase.call? = some (k, j) → Looks base.tracker k j ∧
    ∀ h ∈ base.handlers, ∀ c, (j, c) ∉ h.calls
  agrees : ∀ k, base.Quiet k → (∀ e ∈ base.events.drop sub.seen, isFor k e = false) →
    sub.phase.Agrees base.tracker k ∧ ToldTrue base.tracker k sub.told

structure Inv (s : State) : Prop where
  base : CapacityTelemetry.Inv s.base
  settled : CapacityTelemetry.Settled s.base
  plain : ∀ event ∈ s.log, event.isSnapshot = false
  subs : ∀ sub ∈ s.subs, Good s.base s.log sub

theorem inv_init : Inv init where
  base := CapacityTelemetry.inv_init
  settled := CapacityTelemetry.settled_init
  plain _ h := absurd h List.not_mem_nil
  subs _ h := absurd h List.not_mem_nil

/-- The requests keep to the condition of the telemetry. -/
def State.settles (s : State) : Act → Bool
  | .base act => s.base.settles act
  | _ => true

section

variable {s s' : State} {sub : Subscriber}

theorem emit_of_subscribed (hsub : sub ∈ s.subs) (hphase : sub.phase.subscribed = true)
    (events : List TelemetryEvent) : s.emit events = s.log ++ events :=
  if_pos (List.any_eq_true.2 ⟨sub, hsub, hphase⟩)

theorem emit_cases (s : State) (events : List TelemetryEvent) :
    s.emit events = s.log ++ events ∨ s.emit events = s.log := by
  unfold State.emit
  split
  · exact Or.inl rfl
  · exact Or.inr rfl

/-- A subscriber, when the bus has more to send. -/
theorem follows_emit (hfollows : sub.rx.Follows s.log) (events : List TelemetryEvent) :
    sub.rx.Follows (s.emit events) := by
  rcases emit_cases s events with h | h
  · rw [h]
    exact hfollows.send events
  · rw [h]
    exact hfollows

/-- What the bus has had since the subscription, and what comes now. -/
theorem logged_emit (hgood : Good s.base s.log sub) (hsub : sub ∈ s.subs)
    (hphase : sub.phase.subscribed = true) (events : List TelemetryEvent) :
    ((s.emit events).drop sub.rx.start).filterMap TelemetryEvent.model? =
      s.base.events.drop sub.seen ++ events.filterMap TelemetryEvent.model? := by
  have hstart := Nat.le_trans hgood.follows.start_le hgood.follows.next_le
  rw [emit_of_subscribed hsub hphase, List.drop_append_of_le_length hstart, List.filterMap_append,
    hgood.logged hphase]

/-- What has been read agrees with a tracker that has the same counters, and has gone on with the
call. -/
theorem agrees_of_same {tracker tracker' : Capacity.State} {k : ModelCapacityKey} {phase : Phase}
    (hcounts : tracker'.counts k = tracker.counts k)
    (hcall : ∀ j, phase.call? = some (k, j) →
      (∀ t, tracker.tasks[j]? = some t → Task.Says (tracker.counts k) t) →
      ∀ t, tracker'.tasks[j]? = some t → Task.Says (tracker.counts k) t)
    (hagrees : phase.Agrees tracker k) : phase.Agrees tracker' k := by
  cases phase with
  | counting snaps half =>
      rw [Phase.Agrees, hcounts]
      exact hagrees
  | looking snaps looks call =>
      rw [Phase.Agrees, hcounts]
      exact ⟨hagrees.1, hagrees.2.1, fun j hj => hcall j hj (hagrees.2.2 j hj)⟩
  | live => trivial
  | gone => trivial

/-- **The others go on**: a subscriber is as good as before when the requests take a step that meets
the condition. -/
theorem good_base (hinv : Inv s) (hsub : sub ∈ s.subs) {act : CapacityTelemetry.Act}
    {base : CapacityTelemetry.State} (hstep : CapacityTelemetry.step cfg s.base act = some base)
    (hsettles : s.base.settles act = true) :
    Good base (s.emit ((base.events.drop s.base.events.length).map .modelCapacity)) sub := by
  have hgood := hinv.subs sub hsub
  have hevents := events_of_step hstep
  have hseen : base.events.drop sub.seen =
      s.base.events.drop sub.seen ++ base.events.drop s.base.events.length := by
    conv_lhs => rw [← hevents]
    rw [List.drop_append_of_le_length hgood.seen_le]
  -- the tracker takes no step, or one of the requests
  have htracker : base.tracker = s.base.tracker ∨
      ∃ a, Capacity.step cfg s.base.tracker a = some base.tracker := by
    cases act with
    | request r stream =>
        obtain rfl := Option.some.inj hstep
        exact Or.inr ⟨.call (.acquire r), rfl⟩
    | move i m =>
        obtain ⟨h, e, tracker, hi, hturn, hperform, rfl⟩ :=
          CapacityTelemetry.exists_turn_of_step hstep
        cases haction : e.action with
        | none =>
            rw [haction] at hperform
            exact Or.inl (Option.some.inj hperform).symm
        | some a =>
            rw [haction] at hperform
            exact Or.inr ⟨a, hperform⟩
  refine ⟨follows_emit hgood.follows _, fun hphase => ?_, ?_, hgood.heard, hgood.unheard, hgood.told,
    ?_, ?_⟩
  · have hmodels : ((base.events.drop s.base.events.length).map
        TelemetryEvent.modelCapacity).filterMap TelemetryEvent.model? =
          base.events.drop s.base.events.length := by
      rw [List.filterMap_map]
      exact List.filterMap_some
    rw [logged_emit hgood hsub hphase, hmodels]
    exact hseen.symm
  · have hlength := congrArg List.length hevents
    rw [List.length_append] at hlength
    have hle := hgood.seen_le
    omega
  · intro k j hcall
    obtain ⟨hlooks, hnone⟩ := hgood.looks k j hcall
    refine ⟨?_, ?_⟩
    · rcases htracker with h | ⟨a, ha⟩
      · exact h ▸ hlooks
      · exact looks_of_step hlooks ha
    · intro h' hh' c hmem
      rcases calls_of_step hstep hh' hmem with ⟨h, hh, c', hmem'⟩ | rfl
      · exact hnone h hh c' hmem'
      · obtain ⟨t, ht, -⟩ := hlooks
        exact absurd (List.getElem?_eq_some_iff.1 ht).1 (Nat.lt_irrefl _)
  · intro k hquiet hnone
    rw [hseen] at hnone
    obtain ⟨hquiet', hcounts⟩ := quiet_before hinv.base hstep hsettles hquiet
      fun e he => hnone e (List.mem_append_right _ he)
    obtain ⟨hagrees, htold⟩ := hgood.agrees k hquiet'
      fun e he => hnone e (List.mem_append_left _ he)
    refine ⟨agrees_of_same hcounts ?_ hagrees, fun nodes models hmem e he hfor => ?_⟩
    · intro j hcall hheard t ht
      rcases htracker with h | ⟨a, ha⟩
      · exact hheard t (h ▸ ht)
      · exact tells_of_step hinv.base.mapped (hgood.looks k j hcall).1 hheard ha ht
    · exact (htold nodes models hmem e he hfor).trans hcounts.symm

/-- A status of a node goes over the bus. -/
theorem good_nodeStatus (hinv : Inv s) (hsub : sub ∈ s.subs) (event : NodeStatusEvent) :
    Good s.base (s.emit [.nodeStatus event]) sub := by
  have hgood := hinv.subs sub hsub
  refine ⟨follows_emit hgood.follows _, fun hphase => ?_, hgood.seen_le, hgood.heard, hgood.unheard,
    hgood.told, hgood.looks, hgood.agrees⟩
  rw [logged_emit hgood hsub hphase]
  exact List.append_nil _

theorem good_subscribe (s : State) : Good s.base s.log
    ⟨Broadcast.subscribe s.log, .counting [] none, [], s.base.events.length⟩ where
  follows := Broadcast.Receiver.follows_subscribe s.log
  logged _ := by
    rw [Broadcast.subscribe, List.drop_length, List.drop_length]
    rfl
  seen_le := Nat.le_refl _
  heard _ h := absurd h List.not_mem_nil
  unheard _ := ⟨rfl, rfl⟩
  told h := nomatch h
  looks _ _ h := nomatch h
  agrees _ _ _ := ⟨⟨fun _ h => absurd h List.not_mem_nil, nofun⟩,
    fun _ _ h => absurd h List.not_mem_nil⟩

/-- **Another subscriber reads**: the counters are as before. -/
theorem good_reads (hinv : Inv s) (hgood : Good s.base s.log sub) {act : Action}
    (hreads : Reads s.base act) {tracker' : Capacity.State}
    (hstep : Capacity.step cfg s.base.tracker act = some tracker') :
    Good { s.base with tracker := tracker' } s.log sub := by
  refine ⟨hgood.follows, hgood.logged, hgood.seen_le, hgood.heard, hgood.unheard, hgood.told,
    fun k j hcall => ?_, fun k hquiet hnone => ?_⟩
  · obtain ⟨hlooks, hapart⟩ := hgood.looks k j hcall
    exact ⟨looks_of_step hlooks hstep, hapart⟩
  · have hcounts := counts_of_reads hinv.base hreads hstep k
    obtain ⟨hagrees, htold⟩ :=
      hgood.agrees k (quiet_of_reads hinv.base hreads hstep hquiet) hnone
    refine ⟨agrees_of_same hcounts (fun j hcall hheard t ht => ?_) hagrees,
      fun nodes models hmem e he hfor => (htold nodes models hmem e he hfor).trans hcounts.symm⟩
    exact tells_of_step hinv.base.mapped (hgood.looks k j hcall).1 hheard hstep ht

/-- A move of a subscriber leaves the tracker alone, or reads. -/
theorem reads_of_turn (hgood : Good s.base s.log sub) {tracker' : Capacity.State}
    {sub' : Subscriber} (hturn : Turn cfg s.log s.base.tracker sub tracker' sub') :
    tracker' = s.base.tracker ∨
      ∃ act, Reads s.base act ∧ Capacity.step cfg s.base.tracker act = some tracker' := by
  cases hturn with
  | @look snaps looks k _ hphase hstep => exact Or.inr ⟨_, Or.inl ⟨k, rfl⟩, hstep⟩
  | @lookOn snaps looks k call _ hphase hstep =>
      obtain ⟨hlooks, hapart⟩ := hgood.looks k call (by rw [hphase]; rfl)
      exact Or.inr ⟨_, Or.inr ⟨k, call, rfl, hlooks, hapart⟩, hstep⟩
  | half hphase hslot => exact Or.inl rfl
  | full hphase hslot => exact Or.inl rfl
  | counted hphase => exact Or.inl rfl
  | looked hphase hcall => exact Or.inl rfl
  | snapshot hphase hcovers => exact Or.inl rfl
  | recv hphase hrecv => exact Or.inl rfl
  | leave => exact Or.inl rfl

theorem counts_of_slotOf {tracker : Capacity.State} {k : ModelCapacityKey} {slot : Slot}
    (hslot : slotOf tracker k = some slot) : tracker.counts k = (slot.active, slot.queued) := by
  rw [slotOf] at hslot
  simp only [Capacity.State.counts, hslot]

theorem mem_of_lookup {β : Type} {k : ModelCapacityKey} {b : β} {l : List (ModelCapacityKey × β)}
    (h : l.lookup k = some b) : (k, b) ∈ l := by
  obtain ⟨l₁, l₂, rfl, -⟩ := List.lookup_eq_some_iff.1 h
  exact List.mem_append_right _ List.mem_cons_self

/-- A row of the snapshot for a key says what has been read of it. -/
theorem row_cases {orders : Orders} {snaps : TrackerSnap}
    {looks : List (ModelCapacityKey × CapacitySnapshot)} {catalog : ModelsCatalog.State}
    (hcovers : covers snaps looks catalog = true) {e : ModelCapacityEvent}
    (he : e ∈ modelEvents orders snaps looks catalog) {k : ModelCapacityKey}
    (hfor : isFor k e = true) :
    (k, e.activeRequests, e.queuedRequests) ∈ snaps ∨
      ∃ snap, (k, snap) ∈ looks ∧
        (e.activeRequests, e.queuedRequests) = (snap.activeRequests, snap.queuedRequests) := by
  obtain ⟨nodeId, models, modelId, hnode, hmodel, rfl⟩ := ModelsCatalog.mem_modelCapacityEvents.1 he
  obtain ⟨hid, hname⟩ := of_decide_eq_true hfor
  have hsame : nodeId = k.nodeId := NodeAuth.nodeIdHex_injective hid
  obtain rfl : k = ⟨nodeId, modelId⟩ := by
    cases k
    exact congrArg₂ ModelCapacityKey.mk hsame.symm hname.symm
  obtain ⟨entry, hentry⟩ := Option.isSome_iff_exists.1 (AList.lookup_isSome.2 hmodel)
  have hread := List.all_eq_true.1 (List.all_eq_true.1 hcovers _ (AList.mem_lookup_iff.1 hnode)) _
    (AList.mem_lookup_iff.1 hentry)
  cases hsnap : snaps.lookup ⟨nodeId, modelId⟩ with
  | some counts =>
      left
      have hmem := mem_of_lookup hsnap
      simpa only [ModelsCatalog.capacityEvent, hsnap, Option.getD_some] using hmem
  | none =>
      right
      obtain ⟨snap, hsnap'⟩ : ∃ snap, looks.lookup ⟨nodeId, modelId⟩ = some snap := by
        rw [hsnap, Option.isSome_none, Bool.false_or] at hread
        exact Option.isSome_iff_exists.1 hread
      refine ⟨snap, mem_of_lookup hsnap', ?_⟩
      simp only [ModelsCatalog.capacityEvent, hsnap, hsnap', Option.getD_none, Option.getD_some]

/-- A subscriber that goes on with its readings, with none under way. -/
theorem good_of_phase {base : CapacityTelemetry.State} {log : List TelemetryEvent} {phase : Phase}
    (hgood : Good base log sub) (hsubscribed : sub.phase.subscribed = true)
    (hsurveys : sub.phase.surveys = true) (hlive : phase ≠ .live) (hcall : phase.call? = none)
    (hagrees : ∀ l, sub.phase.Agrees base.tracker l → phase.Agrees base.tracker l) :
    Good base log { sub with phase } where
  follows := hgood.follows
  logged _ := hgood.logged hsubscribed
  seen_le := hgood.seen_le
  heard := hgood.heard
  unheard _ := hgood.unheard hsurveys
  told h := absurd h hlive
  looks k j h := by
    change phase.call? = _ at h
    rw [hcall] at h
    cases h
  agrees l hquiet hnone :=
    (hgood.agrees l hquiet hnone).imp_left fun hbefore => hagrees l hbefore

/-- **A subscriber takes a step of its own.** -/
theorem good_turn (hinv : Inv s) (hsub : sub ∈ s.subs) {tracker' : Capacity.State}
    {sub' : Subscriber} (hturn : Turn cfg s.log s.base.tracker sub tracker' sub') :
    Good { s.base with tracker := tracker' } s.log sub' := by
  have hgood := hinv.subs sub hsub
  cases hturn with
  | @half snaps k slot hphase hslot =>
      refine good_of_phase hgood (by rw [hphase]; rfl) (by rw [hphase]; rfl) (by simp) rfl
        fun l hagrees => ?_
      rw [hphase] at hagrees
      refine ⟨hagrees.1, fun active heq => ?_⟩
      cases heq
      rw [counts_of_slotOf hslot]
  | @full snaps k active slot hphase hslot =>
      refine good_of_phase hgood (by rw [hphase]; rfl) (by rw [hphase]; rfl) (by simp) rfl
        fun l hagrees => ?_
      rw [hphase] at hagrees
      refine ⟨fun counts hmem => ?_, fun _ heq => by cases heq⟩
      rcases List.mem_append.1 hmem with hmem | hmem
      · exact hagrees.1 counts hmem
      · cases List.mem_singleton.1 hmem
        have hactive := hagrees.2 active rfl
        rw [counts_of_slotOf hslot] at hactive ⊢
        rw [hactive]
  | @counted snaps hphase =>
      refine good_of_phase hgood (by rw [hphase]; rfl) (by rw [hphase]; rfl) (by simp) rfl
        fun l hagrees => ?_
      rw [hphase] at hagrees
      exact ⟨hagrees.1, fun _ h => absurd h List.not_mem_nil, fun _ heq => by cases heq⟩
  | @look snaps looks k _ hphase hstep =>
      have hreads : Reads s.base (.call (.snapshotWithConcurrency k 0)) := Or.inl ⟨k, rfl⟩
      have hgood' := good_reads hinv hgood hreads hstep
      obtain rfl := Option.some.inj hstep
      refine ⟨hgood'.follows, fun _ => hgood'.logged (by rw [hphase]; rfl), hgood'.seen_le,
        hgood'.heard, fun _ => hgood'.unheard (by rw [hphase]; rfl), fun h => (by cases h),
        fun l j hcall => ?_, fun l hquiet hnone => ?_⟩
      · cases hcall
        refine ⟨⟨.enter (.snapshotWithConcurrency k 0), by simp [Capacity.State.spawn], rfl⟩,
          fun h hh c hmem => ?_⟩
        exact absurd (hinv.base.lt_of_mem_calls hh hmem) (Nat.lt_irrefl _)
      · obtain ⟨hagrees, htold⟩ := hgood'.agrees l hquiet hnone
        rw [hphase] at hagrees
        refine ⟨⟨hagrees.1, hagrees.2.1, fun j hj t ht => ?_⟩, htold⟩
        cases hj
        have hnew : (s.base.tracker.spawn (.enter (.snapshotWithConcurrency k 0))).tasks[
            s.base.tracker.tasks.length]? = some (.enter (.snapshotWithConcurrency k 0)) := by
          simp [Capacity.State.spawn]
        obtain rfl := Option.some.inj (hnew.symm.trans ht)
        trivial
  | @looked snaps looks k call snap hphase hcall =>
      refine good_of_phase hgood (by rw [hphase]; rfl) (by rw [hphase]; rfl) (by simp) rfl
        fun l hagrees => ?_
      rw [hphase] at hagrees
      refine ⟨hagrees.1, fun snap' hmem => ?_, fun _ heq => by cases heq⟩
      rcases List.mem_append.1 hmem with hmem | hmem
      · exact hagrees.2.1 snap' hmem
      · cases List.mem_singleton.1 hmem
        exact hagrees.2.2 call rfl _ hcall
  | @lookOn snaps looks k call _ hphase hstep =>
      obtain ⟨hlooks, hapart⟩ := hgood.looks k call (by rw [hphase]; rfl)
      exact good_reads hinv hgood (Or.inr ⟨k, call, rfl, hlooks, hapart⟩) hstep
  | @snapshot snaps looks nodes orders catalog hphase hcovers =>
      obtain ⟨hreceived, -⟩ := hgood.unheard (by rw [hphase]; rfl)
      refine ⟨hgood.follows, fun _ => hgood.logged (by rw [hphase]; rfl), hgood.seen_le, hgood.heard,
        fun h => (by cases h), fun _ => ⟨nodes, _, by rw [hreceived]⟩, fun _ _ h => (by cases h),
        fun l hquiet hnone => ⟨trivial, ?_⟩⟩
      obtain ⟨hagrees, -⟩ := hgood.agrees l hquiet hnone
      rw [hphase] at hagrees
      intro nodes' models hmem e he hfor
      cases List.mem_singleton.1 hmem
      rcases row_cases hcovers he hfor with hsnap | ⟨snap, hlook, heq⟩
      · exact hagrees.1 _ hsnap
      · exact heq.trans (hagrees.2.1 snap hlook)
  | @recv rx got hphase hrecv =>
      obtain ⟨hstart, hreceived, hgot⟩ := Broadcast.Receiver.received_of_recv hrecv
      have hkept : (got.filter fun event => !event.isSnapshot) = got := by
        cases got with
        | none => rfl
        | some event => simp [hinv.plain event (hgot event rfl)]
      rw [hkept]
      refine ⟨hgood.follows.recv hrecv, fun _ => ?_, hgood.seen_le, fun event hmem => ?_, ?_,
        fun _ => ?_, ?_, fun l hquiet hnone => ?_⟩
      · rw [hstart]
        exact hgood.logged (by rw [hphase]; rfl)
      · rw [hreceived] at hmem
        rcases List.mem_append.1 hmem with hmem | hmem
        · exact hgood.heard event hmem
        · exact hinv.plain event (hgot event (Option.mem_toList.1 hmem))
      · intro h
        rw [hphase] at h
        cases h
      · obtain ⟨nodes, models, htold⟩ := hgood.told hphase
        exact ⟨nodes, models, by rw [htold, hreceived, List.cons_append]⟩
      · intro k j h
        rw [hphase] at h
        cases h
      · obtain ⟨hagrees, htold⟩ := hgood.agrees l hquiet hnone
        refine ⟨hagrees, fun nodes models hmem => ?_⟩
        rcases List.mem_append.1 hmem with hmem | hmem
        · exact htold nodes models hmem
        · have hplain := hinv.plain _ (hgot _ (Option.mem_toList.1 hmem))
          cases hplain
  | leave =>
      exact ⟨hgood.follows, fun h => (by cases h), hgood.seen_le, hgood.heard,
        fun h => (by cases h), fun h => (by cases h), fun _ _ h => (by cases h),
        fun l hquiet hnone => ⟨trivial, (hgood.agrees l hquiet hnone).2⟩⟩

theorem plain_emit (hinv : Inv s) {events : List TelemetryEvent}
    (hplain : ∀ event ∈ events, event.isSnapshot = false) :
    ∀ event ∈ s.emit events, event.isSnapshot = false := by
  intro event hmem
  rcases emit_cases s events with h | h
  · rw [h] at hmem
    rcases List.mem_append.1 hmem with hmem | hmem
    · exact hinv.plain event hmem
    · exact hplain event hmem
  · rw [h] at hmem
    exact hinv.plain event hmem

/-- **Every step that meets the condition keeps the invariant.** -/
theorem inv_step (hinv : Inv s) {act : Act} (hstep : step cfg s act = some s')
    (hsettles : s.settles act = true) : Inv s' := by
  cases act with
  | base act =>
      obtain ⟨base, hbase, rfl⟩ := Option.map_eq_some_iff.1 hstep
      refine ⟨CapacityTelemetry.inv_step hinv.base hbase,
        CapacityTelemetry.settled_step hinv.base hinv.settled hbase hsettles,
        plain_emit hinv fun event hmem => ?_, fun sub hsub => good_base hinv hsub hbase hsettles⟩
      obtain ⟨e, -, rfl⟩ := List.mem_map.1 hmem
      rfl
  | nodeStatus event =>
      obtain rfl := Option.some.inj hstep
      refine ⟨hinv.base, hinv.settled, plain_emit hinv fun event' hmem => ?_,
        fun sub hsub => good_nodeStatus hinv hsub event⟩
      obtain rfl := List.mem_singleton.1 hmem
      rfl
  | subscribe =>
      obtain rfl := Option.some.inj hstep
      refine ⟨hinv.base, hinv.settled, hinv.plain, fun sub hmem => ?_⟩
      rcases List.mem_append.1 hmem with hmem | hmem
      · exact hinv.subs sub hmem
      · obtain rfl := List.mem_singleton.1 hmem
        exact good_subscribe s
  | move i m =>
      obtain ⟨sub, hi, hstep⟩ := Option.bind_eq_some_iff.1 hstep
      obtain ⟨⟨tracker', sub'⟩, hmove, rfl⟩ := Option.map_eq_some_iff.1 hstep
      have hsub := List.mem_of_getElem? hi
      have hturn := turn_of_move hmove
      have hsubs : ∀ other ∈ s.subs, Good { s.base with tracker := tracker' } s.log other := by
        intro other hother
        rcases reads_of_turn (hinv.subs sub hsub) hturn with rfl | ⟨act, hreads, htracker⟩
        · exact hinv.subs other hother
        · exact good_reads hinv (hinv.subs other hother) hreads htracker
      refine ⟨?_, ?_, hinv.plain, fun other hmem => ?_⟩
      · rcases reads_of_turn (hinv.subs sub hsub) hturn with rfl | ⟨act, hreads, htracker⟩
        · exact hinv.base
        · exact inv_of_reads hinv.base hreads htracker
      · rcases reads_of_turn (hinv.subs sub hsub) hturn with rfl | ⟨act, hreads, htracker⟩
        · exact hinv.settled
        · exact settled_of_reads hinv.base hreads htracker hinv.settled
      · rcases List.mem_or_eq_of_mem_set hmem with hmem | rfl
        · exact hsubs other hmem
        · exact good_turn hinv hsub hturn

/-! ### The last word -/

def ModelCapacityEvent.counts (e : ModelCapacityEvent) : UInt32 × UInt32 :=
  (e.activeRequests, e.queuedRequests)

/-- What a message says of a key. -/
def TelemetryEvent.tells (k : ModelCapacityKey) : TelemetryEvent → Option (UInt32 × UInt32)
  | .snapshot _ models => (models.find? (isFor k)).map ModelCapacityEvent.counts
  | .modelCapacity e => if isFor k e then some (ModelCapacityEvent.counts e) else none
  | .nodeStatus _ => none

/-- The last word of some messages on a key. -/
def lastWord (k : ModelCapacityKey) (told : List TelemetryEvent) : Option (UInt32 × UInt32) :=
  (told.filterMap (TelemetryEvent.tells k)).getLast?

/-- What events say of a key, one after the other. -/
def words (k : ModelCapacityKey) (events : List ModelCapacityEvent) : List (UInt32 × UInt32) :=
  (events.filter (isFor k)).map ModelCapacityEvent.counts

theorem tells_of_plain {k : ModelCapacityKey} {told : List TelemetryEvent}
    (hplain : ∀ event ∈ told, event.isSnapshot = false) :
    told.filterMap (TelemetryEvent.tells k) = words k (told.filterMap TelemetryEvent.model?) := by
  induction told with
  | nil => rfl
  | cons event told ih =>
      have ih := ih fun e he => hplain e (List.mem_cons_of_mem _ he)
      cases event with
      | snapshot nodes models => cases hplain _ List.mem_cons_self
      | nodeStatus e => exact ih
      | modelCapacity e =>
          by_cases hfor : isFor k e = true
          · simpa [TelemetryEvent.tells, TelemetryEvent.model?, words, hfor] using ih
          · simpa [TelemetryEvent.tells, TelemetryEvent.model?, words, hfor] using ih

/-- Only the events of the key matter to it. -/
theorem words_of_names {k : ModelCapacityKey} (log : List TelemetryEvent) :
    words k ((log.filter (TelemetryEvent.names k)).filterMap TelemetryEvent.model?) =
      words k (log.filterMap TelemetryEvent.model?) := by
  induction log with
  | nil => rfl
  | cons event log ih =>
      cases event with
      | snapshot nodes models => exact ih
      | nodeStatus e => exact ih
      | modelCapacity e =>
          by_cases hfor : isFor k e = true
          · simpa [TelemetryEvent.names, TelemetryEvent.model?, words, hfor] using ih
          · simpa [TelemetryEvent.names, TelemetryEvent.model?, words, hfor] using ih

/-- What a client that has been sent everything has been told of a key: the snapshot, and the events
since the subscription. -/
theorem said_of_drained (hinv : Inv s) (hsub : sub ∈ s.subs) (hlive : sub.phase = .live)
    (hdrained : sub.rx.next = s.log.length) {k : ModelCapacityKey}
    (hskipped : ∀ event ∈ sub.rx.skipped, event.names k = false) :
    ∃ nodes models, .snapshot nodes models ∈ sub.told ∧
      sub.told.filterMap (TelemetryEvent.tells k) =
        (TelemetryEvent.tells k (.snapshot nodes models)).toList ++
          words k (s.base.events.drop sub.seen) := by
  have hgood := hinv.subs sub hsub
  obtain ⟨nodes, models, htold⟩ := hgood.told hlive
  have hevents : words k (sub.rx.received.filterMap TelemetryEvent.model?) =
      words k (s.base.events.drop sub.seen) := by
    rw [← words_of_names, hgood.follows.of_drained hdrained hskipped, words_of_names,
      hgood.logged (by rw [hlive]; rfl)]
  refine ⟨nodes, models, by rw [htold]; exact List.mem_cons_self, ?_⟩
  rw [← hevents, ← tells_of_plain hgood.heard, htold]
  cases hheard : TelemetryEvent.tells k (.snapshot nodes models) with
  | none => rw [List.filterMap_cons_none hheard, Option.toList_none, List.nil_append]
  | some word => rw [List.filterMap_cons_some hheard, Option.toList_some, List.singleton_append]

end

/-- **The last word of a subscriber is the truth.**  In every run in which the requests keep to the
condition of the telemetry, whatever the subscribers and the other parts of the router do in between:
when no request is engaged for a model, and a subscriber has been sent what the bus has for it and has
skipped no event of the model, the last it has been told of the model is what its counters are. -/
theorem lastWord_is_true (cfg : Sharding ModelCapacityKey) {acts : List Act} {s : State}
    (hsettles : Throughout (step cfg) (fun s act _ => s.settles act = true) init acts)
    (hrun : run (step cfg) init acts = some s) {sub : Subscriber} (hsub : sub ∈ s.subs)
    (hlive : sub.phase = .live) (hdrained : sub.rx.next = s.log.length) {k : ModelCapacityKey}
    (hskipped : ∀ event ∈ sub.rx.skipped, event.names k = false) (hquiet : s.base.Quiet k)
    {word : UInt32 × UInt32} (hword : lastWord k sub.told = some word) :
    word = s.base.tracker.counts k := by
  have hinv : Inv s := (always_of_step (fun _ _ _ h hstep hC => inv_step h hstep hC) inv_init
    hsettles).last hrun
  obtain ⟨nodes, models, hsnapshot, hsaid⟩ := said_of_drained hinv hsub hlive hdrained hskipped
  rw [lastWord, hsaid] at hword
  by_cases hnone : ∀ e ∈ s.base.events.drop sub.seen, isFor k e = false
  · -- no event since the subscription: the row of the snapshot still holds
    have hwords : words k (s.base.events.drop sub.seen) = [] := by
      rw [words, List.filter_eq_nil_iff.2 fun e he => by simp [hnone e he], List.map_nil]
    rw [hwords, List.append_nil] at hword
    have hheard : TelemetryEvent.tells k (.snapshot nodes models) = some word := by
      cases h : TelemetryEvent.tells k (.snapshot nodes models) with
      | none => rw [h] at hword; cases hword
      | some w => rw [h] at hword; exact hword
    obtain ⟨e, hfind, rfl⟩ := Option.map_eq_some_iff.1 hheard
    obtain ⟨-, htrue⟩ := (hinv.subs sub hsub).agrees k hquiet hnone
    exact htrue nodes models hsnapshot e (List.mem_of_find?_eq_some hfind)
      (List.find?_some hfind)
  · -- the last event of the key came after the subscription
    obtain ⟨e, he, hfor⟩ : ∃ e ∈ s.base.events.drop sub.seen, isFor k e = true := by
      by_contra hno
      exact hnone fun e he => Bool.eq_false_of_not_eq_true fun hfor => hno ⟨e, he, hfor⟩
    have hne : (s.base.events.drop sub.seen).filter (isFor k) ≠ [] :=
      List.ne_nil_of_mem (List.mem_filter.2 ⟨he, hfor⟩)
    have hlast : s.base.lastEvent k =
        ((s.base.events.drop sub.seen).filter (isFor k)).getLast? := by
      rw [CapacityTelemetry.State.lastEvent]
      conv_lhs => rw [← List.take_append_drop sub.seen s.base.events]
      rw [List.filter_append, List.getLast?_append_of_ne_nil _ hne]
    rw [List.getLast?_append_of_ne_nil _ (by rw [words]; simpa using hne), words,
      List.getLast?_map, ← hlast] at hword
    obtain ⟨last, hevent, rfl⟩ := Option.map_eq_some_iff.1 hword
    exact hinv.settled k hquiet last hevent

/-- A catalog with one model. -/
def sampleCatalog : ModelsCatalog.State :=
  { ModelsCatalog.new with
    byNode := AList.insert Capacity.sampleKey.nodeId
      (AList.insert Capacity.sampleKey.modelId (.object []) ∅) ∅ }

def sampleOrders : Orders :=
  ⟨IterOrder.stored _ _, fun _ => IterOrder.stored _ _⟩

/-- A request is admitted. -/
def admittedFirst : List CapacityTelemetry.Act :=
  [.request CapacityTelemetry.single false] ++ CapacityTelemetry.goOn 0 11

/-- It is answered, and gives its place back. -/
def answeredThen : List CapacityTelemetry.Act :=
  [.move 0 (.forwarded true), .move 0 .answered] ++ CapacityTelemetry.goOn 0 9

/-- A client subscribes while a request has its guard, reads the active counter, and reads the queued
one when the request has been answered; the event that follows sets the snapshot right. -/
def readAround : List Act :=
  admittedFirst.map .base ++ [.subscribe, .move 0 (.countActive Capacity.sampleKey)] ++
    answeredThen.map .base ++
    [.move 0 .countQueued, .move 0 .counted, .move 0 (.sendSnapshot [] sampleOrders sampleCatalog),
      .move 0 .recv]

/-- What is seen of the first subscriber. -/
structure Seen where
  quiet : Bool
  live : Bool
  drained : Bool
  skipped : Bool
  word : Option (UInt32 × UInt32)
deriving DecidableEq

def Phase.isLive : Phase → Bool
  | .live => true
  | _ => false

def State.seen (s : State) (k : ModelCapacityKey) : Option Seen :=
  (s.subs.head?).map fun sub =>
    { quiet := s.base.handlers.all fun h => !h.engaged s.base.tracker k
      live := sub.phase.isLive
      drained := sub.rx.next == s.log.length
      skipped := !sub.rx.skipped.isEmpty
      word := lastWord k sub.told }

theorem observe_readAround :
    ((run (step Capacity.twoShards) init readAround).bind fun s => s.seen Capacity.sampleKey) =
      some ⟨true, true, true, false, some (0, 0)⟩ := by
  decide +kernel

theorem lastWord_readAround :
    ∃ s sub, run (step Capacity.twoShards) init readAround = some s ∧ sub ∈ s.subs ∧
      lastWord Capacity.sampleKey sub.told = some (0, 0) ∧
      (0, 0) = s.base.tracker.counts Capacity.sampleKey := by
  obtain ⟨s, hrun, hseen⟩ := Option.bind_eq_some_iff.1 observe_readAround
  obtain ⟨sub, hhead, hseen⟩ := Option.map_eq_some_iff.1 hseen
  obtain ⟨hquiet, hlive, hdrained, hskipped, hword⟩ := Seen.mk.inj hseen
  have hsub : sub ∈ s.subs := List.mem_of_mem_head? hhead
  have hphase : sub.phase = .live := by
    cases h : sub.phase with
    | live => rfl
    | _ => rw [h] at hlive; cases hlive
  refine ⟨s, sub, hrun, hsub, hword, lastWord_is_true Capacity.twoShards
    (throughout_of_check (p := State.settles) (by decide +kernel)) hrun hsub hphase
    (beq_iff_eq.1 hdrained) ?_ ?_ hword⟩
  · rw [Bool.not_eq_false', List.isEmpty_iff] at hskipped
    rw [hskipped]
    exact fun _ h => absurd h List.not_mem_nil
  · intro h hh
    simpa using List.all_eq_true.1 hquiet h hh

end Subscribe
