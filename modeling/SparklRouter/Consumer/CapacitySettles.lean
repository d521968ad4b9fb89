/-
**What the telemetry of the counters settles on.**

What a subscriber knows when all is quiet is the last reading that was sent.  Two kinds of requests
leave without a word: one that gives its place in the queue up, because its time is over, it is
refused after all, or it is dropped there, and one that is dropped while it owns its guard, unless its
response is a stream.  And a reading may be sent when it is no longer true.  Each of them is made good
by the next request that sends a reading, so it matters for the last only.

Main definitions:

* `CapacityTelemetry.Handler.engaged` — a request is active, queued, or has a reading to send;
* `CapacityTelemetry.Settled` — a key without such a request has its counters in its last event;
* `CapacityTelemetry.State.settles` — the condition on a step.

Main results:

* `CapacityTelemetry.leaves_cases` — how a request can cease to be engaged;
* `CapacityTelemetry.counts_of_turn` — the counters change only with a request that is engaged;
* `CapacityTelemetry.settled_of_settles` — **the telemetry settles on the truth in every run in which
  no request leaves silently, and none sends a reading that is out of date, as the last one**;
* `CapacityTelemetry.settled_breaks` — a request that is dropped leaves the subscribers with a count
  of 1.
-/

import SparklRouter.Consumer.CapacityTelemetry

set_option relaxedAutoImplicit false
set_option autoImplicit false

namespace CapacityTelemetry

open Capacity (Action CapacitySnapshot Caller Mapped ModelCapacityKey Request Task TaskId)
open ModelsCatalog (ModelCapacityEvent)
open Transition

/-! ### What the telemetry settles on -/

namespace Handler

/-- The request is active for the key, is in its queue or has left it to compete for its place, or
has a reading to send. -/
def engaged (tracker : Capacity.State) (k : ModelCapacityKey) (h : Handler) : Bool :=
  decide (h.request.key = k) &&
    match h.phase with
    | .acquiring call queued =>
        (tracker.tasks[call]?).any fun t => t.holds k || (queued && t.contends)
    | .announcing _ _ | .forwarding _ | .responding _ | .dropping _ | .reporting _ => h.tracked
    | .abandoned guard => (tracker.tasks[guard]?).any (Task.holds k)
    | .ended => false

/-- The request gives up what it is counted for, and no reading follows. -/
def givesUp (tracker : Capacity.State) (h : Handler) : Move → Bool
  | .go =>
      match h.phase with
      | .acquiring call queued =>
          match tracker.tasks[call]? with
          | some (.acquiring _ _ (.leaveQueue ok)) => !ok
          | some (.acquiring r a (.loadQueued _)) =>
              queued && (tracker.heap[a]?).any fun slot =>
                decide (r.maxQueue = 0 ∨ r.maxQueue ≤ slot.queued)
          | _ => false
      | .abandoned guard =>
          match tracker.tasks[guard]? with
          | some (.releasing _ _ (.fetchSub _)) => true
          | _ => false
      | _ => false
  | .cancel =>
      match h.phase with
      | .acquiring _ _ => true
      | _ => false
  | _ => false

/-- The reading that is sent, if the request is not counted any more. -/
def lastReading (tracker : Capacity.State) (h : Handler) : Move → Option CapacitySnapshot
  | .go =>
      match h.phase with
      | .announcing _ snap =>
          match tracker.tasks[snap]? with
          | some (.snapped reading) => if h.tracked then none else some reading
          | _ => none
      | .reporting snap =>
          match tracker.tasks[snap]? with
          | some (.snapped reading) => some reading
          | _ => none
      | _ => none
  | _ => none

end Handler

/-- The event is for the key. -/
def isFor (k : ModelCapacityKey) (e : ModelCapacityEvent) : Bool :=
  decide (e.nodeId = NodeAuth.nodeIdHex k.nodeId ∧ e.modelId = k.modelId)

def State.lastEvent (s : State) (k : ModelCapacityKey) : Option ModelCapacityEvent :=
  (s.events.filter (isFor k)).getLast?

/-- No request is engaged for the key. -/
def State.Quiet (s : State) (k : ModelCapacityKey) : Prop :=
  ∀ h ∈ s.handlers, h.engaged s.tracker k = false

/-- **The last event of a key without an engaged request has the counters of the key.** -/
def Settled (s : State) : Prop :=
  ∀ k, s.Quiet k → ∀ e, s.lastEvent k = some e →
    (e.activeRequests, e.queuedRequests) = s.tracker.counts k

/-- Unless another request is engaged for the key, a request does not leave silently, and what it
sends as the last is still true. -/
def State.settles (s : State) : Act → Bool
  | .request _ _ => true
  | .move i m =>
      (s.handlers[i]?).all fun h =>
        ((s.handlers.eraseIdx i).any fun other => other.engaged s.tracker h.request.key) ||
          (!h.givesUp s.tracker m && (h.lastReading s.tracker m).all fun snap =>
            decide (s.tracker.counts h.request.key = (snap.activeRequests, snap.queuedRequests)))

section

variable {cfg : Sharding ModelCapacityKey} {tracker tracker' : Capacity.State} {h : Handler}
  {m : Move} {e : Effect} {k : ModelCapacityKey}

/-! ### Who is engaged -/

theorem key_of_engaged (h' : h.engaged tracker k = true) : h.request.key = k := by
  rw [Handler.engaged, Bool.and_eq_true, decide_eq_true_eq] at h'
  exact h'.1

/-- The phases in which a request has its guard, or a reading to send. -/
def Phase.tracks : Phase → Bool
  | .announcing _ _ | .forwarding _ | .responding _ | .dropping _ | .reporting _ => true
  | _ => false

/-- In them a request is engaged whatever the tracker does. -/
theorem engaged_of_tracks (hkey : h.request.key = k) (htracks : h.phase.tracks = true) :
    h.engaged tracker k = h.tracked := by
  rw [Handler.engaged, decide_eq_true hkey, Bool.true_and]
  cases hphase : h.phase with
  | acquiring call queued => rw [hphase] at htracks; cases htracks
  | abandoned guard => rw [hphase] at htracks; cases htracks
  | ended => rw [hphase] at htracks; cases htracks
  | _ => rfl

theorem engaged_acquiring {call : TaskId} {queued : Bool} {t : Task} (hkey : h.request.key = k)
    (hphase : h.phase = .acquiring call queued) (ht : tracker.tasks[call]? = some t) :
    h.engaged tracker k = (t.holds k || (queued && t.contends)) := by
  rw [Handler.engaged, decide_eq_true hkey, Bool.true_and, hphase]
  simp only [ht, Option.any_some]

theorem engaged_abandoned {guard : TaskId} {t : Task} (hkey : h.request.key = k)
    (hphase : h.phase = .abandoned guard) (ht : tracker.tasks[guard]? = some t) :
    h.engaged tracker k = t.holds k := by
  rw [Handler.engaged, decide_eq_true hkey, Bool.true_and, hphase]
  simp only [ht, Option.any_some]

/-- A call that is counted, or competes again, stays so in the loop of `acquire`, unless its time is
over or it is refused. -/
theorem stays_in_loop {i : TaskId} {r : Request} {a : Capacity.SlotId} {slot slot' : Capacity.Slot}
    {pc : Capacity.AcquirePc r} {next : Capacity.AcquireNext r} {queued : Bool}
    (hstep : Capacity.acquireStep i r slot pc = some (slot', next))
    (hcounted : (pc.inQueue || (queued && pc.contends)) = true) :
    (next.task a).holds r.key = true ∨
      ((queued || pc.inQueue) && (next.task a).contends) = true ∨ pc = .leaveQueue false ∨
      ((∃ v, pc = .loadQueued v) ∧ queued = true ∧ (r.maxQueue = 0 ∨ r.maxQueue ≤ slot.queued)) := by
  have hwaits : ∀ pc' : Capacity.AcquirePc r, pc'.inQueue = true →
      (Task.acquiring r a pc').holds r.key = true := by
    intro pc' hin
    simp [Task.holds, Task.liveFor, Task.waitsFor, hin]
  have hqueued : pc.inQueue = false → queued = true := by
    intro hout
    rw [hout, Bool.false_or, Bool.and_eq_true] at hcounted
    exact hcounted.1
  cases pc with
  | loadActive =>
      obtain rfl := hqueued rfl
      simp only [Capacity.acquireStep] at hstep
      split at hstep <;> cases hstep <;> exact Or.inr (Or.inl rfl)
  | casActive v hv =>
      obtain rfl := hqueued rfl
      simp only [Capacity.acquireStep] at hstep
      split at hstep
      · cases hstep
        exact Or.inl (by simp [Capacity.AcquireNext.task, Task.holds, Task.liveFor])
      · cases hstep
        exact Or.inr (Or.inl rfl)
  | loadQueued v =>
      obtain rfl := hqueued rfl
      simp only [Capacity.acquireStep] at hstep
      split at hstep
      · rename_i hfull
        cases hstep
        exact Or.inr (Or.inr (Or.inr ⟨⟨v, rfl⟩, rfl, hfull⟩))
      · cases hstep
        exact Or.inr (Or.inl rfl)
  | casQueued v q hq =>
      obtain rfl := hqueued rfl
      simp only [Capacity.acquireStep] at hstep
      split at hstep
      · cases hstep
        exact Or.inl (hwaits _ rfl)
      · cases hstep
        exact Or.inr (Or.inl rfl)
  | notified =>
      cases hstep
      refine Or.inl (hwaits _ ?_)
      split <;> rfl
  | parked => cases hstep
  | woken =>
      cases hstep
      exact Or.inl (hwaits _ rfl)
  | leaveQueue ok =>
      cases ok with
      | false => exact Or.inr (Or.inr (Or.inl rfl))
      | true =>
          cases hstep
          exact Or.inr (Or.inl (by simp [Capacity.AcquirePc.inQueue, Capacity.AcquireNext.task,
            Task.contends, Capacity.AcquirePc.contends]))
  | timeoutQueued => simp [Capacity.AcquirePc.inQueue, Capacity.AcquirePc.contends] at hcounted
  | timeoutActive q => simp [Capacity.AcquirePc.inQueue, Capacity.AcquirePc.contends] at hcounted

/-- The call that a request owns is at its task. -/
theorem Handler.Owned.of (howned : h.Owned tracker) {a : TaskId} {c : Caller} {t : Task}
    (hmem : (a, c) ∈ h.calls) (ht : tracker.tasks[a]? = some t) : t.Of c := by
  obtain ⟨u, hu, hof⟩ := howned _ hmem
  obtain rfl := Option.some.inj (ht.symm.trans hu)
  exact hof

theorem mem_calls_acquiring {call : TaskId} {queued : Bool}
    (hphase : h.phase = .acquiring call queued) : (call, .acquire h.request) ∈ h.calls := by
  rw [Handler.calls, hphase]
  exact List.mem_cons_self

/-- The guard of a request that is counted is tracked. -/
theorem tracked_of_admitted (howned : h.Owned tracker) {call : TaskId} {queued : Bool} {t : Task}
    (hphase : h.phase = .acquiring call queued) (ht : tracker.tasks[call]? = some t)
    (hguard : t.isGuard = true) (hbefore : h.engaged tracker k = true) : h.tracked = true := by
  rw [engaged_acquiring (key_of_engaged hbefore) hphase ht] at hbefore
  have hholds : t.holds k = true := by
    cases t with
    | guard l a => simpa [Task.contends] using hbefore
    | unlimitedGuard l => simpa [Task.contends] using hbefore
    | _ => cases hguard
  exact decide_eq_true ((howned.of (mem_calls_acquiring hphase) ht).of_holds hholds).2.2

/-- The loop of `acquire`. -/
theorem engaged_of_loop (howned : h.Owned tracker) {call : TaskId} {queued : Bool} {r : Request}
    {a : Capacity.SlotId} {pc : Capacity.AcquirePc r} (hphase : h.phase = .acquiring call queued)
    (ht : tracker.tasks[call]? = some (.acquiring r a pc))
    (hstep : Capacity.step cfg tracker (.step call) = some tracker')
    (hbefore : h.engaged tracker k = true) :
    ({ h with phase := .acquiring call (queued || pc.inQueue) } : Handler).engaged tracker' k =
        true ∨
      h.givesUp tracker .go = true := by
  have hkey := key_of_engaged hbefore
  rw [engaged_acquiring hkey hphase ht] at hbefore
  obtain ⟨hcall, -⟩ := howned.of (mem_calls_acquiring hphase) ht
  obtain rfl : h.request = r := Caller.acquire.inj hcall
  have hcounted : (pc.inQueue || (queued && pc.contends)) = true := by
    simpa [Task.holds, Task.liveFor, Task.waitsFor, Task.contends, hkey] using hbefore
  simp only [Capacity.step, ht, Option.bind_some, Capacity.advance] at hstep
  obtain ⟨slot, hslot, hstep⟩ := Option.bind_eq_some_iff.1 hstep
  obtain ⟨⟨slot', next⟩, hacq, rfl⟩ := Option.map_eq_some_iff.1 hstep
  rw [engaged_acquiring (h := { h with phase := .acquiring call (queued || pc.inQueue) }) hkey rfl
    (TaskPool.getElem?_set_self ht _), Bool.or_eq_true, ← hkey]
  rcases stays_in_loop (a := a) hacq hcounted with hholds | hagain | rfl | ⟨⟨v, rfl⟩, rfl, hfull⟩
  · exact Or.inl (Or.inl hholds)
  · exact Or.inl (Or.inr hagain)
  · refine Or.inr ?_
    simp only [Handler.givesUp, hphase, ht, Bool.not_false]
  · refine Or.inr ?_
    simp only [Handler.givesUp, hphase, ht, hslot, Option.any_some, Bool.true_and]
    exact decide_eq_true hfull

/-- A compare-exchange that fails was none of a call in the queue. -/
theorem engaged_of_spurious {call : TaskId} {queued : Bool}
    (hphase : h.phase = .acquiring call queued)
    (hstep : Capacity.step cfg tracker (.spurious call) = some tracker')
    (hbefore : h.engaged tracker k = true) :
    ({ h with phase := .acquiring call queued } : Handler).engaged tracker' k = true := by
  have hkey := key_of_engaged hbefore
  obtain ⟨r, a, pc, pc', ht, hpc, rfl⟩ := Capacity.exists_of_spurious hstep
  rw [engaged_acquiring hkey hphase ht] at hbefore
  rw [engaged_acquiring (h := { h with phase := .acquiring call queued }) hkey rfl
    (TaskPool.getElem?_set_self ht _)]
  have hsame : (Task.acquiring r a pc').holds k = (Task.acquiring r a pc).holds k ∧
      (Task.acquiring r a pc').contends = (Task.acquiring r a pc).contends := by
    cases pc <;> first | (cases hpc; exact ⟨rfl, rfl⟩) | cases hpc
  rw [hsame.1, hsame.2, hbefore]

/-- A call whose time is over is still in the queue. -/
theorem engaged_of_timeout (howned : h.Owned tracker) {call : TaskId} {queued : Bool}
    (hkey : h.request.key = k) (hphase : h.phase = .acquiring call queued)
    (hstep : Capacity.step cfg tracker (.timeout call) = some tracker') :
    ({ h with phase := .acquiring call queued } : Handler).engaged tracker' k = true := by
  obtain ⟨r, a, pc, slot, woken, ht, -, -, rfl⟩ := Capacity.exists_of_timeout hstep
  obtain ⟨hcall, -⟩ := howned.of (mem_calls_acquiring hphase) ht
  obtain rfl : h.request = r := Caller.acquire.inj hcall
  have hawake : (Task.acquiring h.request a (.leaveQueue false)).Awake := fun _ _ h => by cases h
  have hholds : (Task.acquiring h.request a (.leaveQueue false)).holds k = true := by
    simp [Task.holds, Task.liveFor, Task.waitsFor, Capacity.AcquirePc.inQueue, hkey]
  rw [engaged_acquiring (h := { h with phase := .acquiring call queued }) hkey rfl
    (Capacity.getElem?_endWait ht hawake a slot woken), hholds]
  rfl

/-- A guard that has been dropped with its request counts until its subtraction. -/
theorem engaged_of_unwind (hmapped : Mapped tracker) {guard : TaskId} {l : ModelCapacityKey}
    {issued : Capacity.SlotId} {pc : Capacity.ReleasePc} (hphase : h.phase = .abandoned guard)
    (ht : tracker.tasks[guard]? = some (.releasing l issued pc))
    (hstep : Capacity.step cfg tracker (.step guard) = some tracker')
    (hbefore : h.engaged tracker k = true) :
    ({ h with phase := .abandoned guard } : Handler).engaged tracker' k = true ∨
      h.givesUp tracker .go = true := by
  have hkey := key_of_engaged hbefore
  rw [engaged_abandoned hkey hphase ht] at hbefore
  cases pc with
  | get =>
      -- the slot of a guard is in the map, so the drop goes on to it
      have hget := hmapped.refs _ (List.mem_of_getElem? ht) (l, issued) (List.mem_cons_self ..)
      simp only [Capacity.step, ht, Option.bind_some, Capacity.advance, Capacity.releaseStep,
        hget] at hstep
      obtain rfl := Option.some.inj hstep
      rw [engaged_abandoned (h := { h with phase := .abandoned guard }) hkey rfl
        (TaskPool.getElem?_set_self ht _)]
      exact Or.inl hbefore
  | fetchSub a =>
      refine Or.inr ?_
      simp only [Handler.givesUp, hphase, ht]
  | notifyOne a => cases hbefore

theorem engaged_of_abandon (howned : h.Owned tracker) {guard : TaskId}
    (hmem : (guard, .acquire h.request) ∈ h.calls) (hkey : h.request.key = k)
    (htracked : h.tracked = true)
    (hstep : Capacity.step cfg tracker (.dropGuard guard) = some tracker') :
    ({ h with phase := .abandoned guard } : Handler).engaged tracker' k = true := by
  obtain ⟨t, ht, hof⟩ := howned _ hmem
  simp only [Capacity.step, ht] at hstep
  split at hstep
  · rename_i l a heq
    obtain rfl := Option.some.inj heq
    obtain rfl := Option.some.inj hstep
    rw [engaged_abandoned (h := { h with phase := .abandoned guard }) hkey rfl
      (TaskPool.getElem?_set_self ht _)]
    have hl : l = k := hof.2.1.trans hkey
    simp [Task.holds, Task.liveFor, hl]
  · rename_i l heq
    obtain rfl := Option.some.inj heq
    exact absurd (of_decide_eq_true htracked) hof.2.2
  · cases hstep

/-- **How a request can cease to be engaged**: it gives up what it is counted for, or it sends its
last reading. -/
theorem leaves_cases (hmapped : Mapped tracker) (howned : h.Owned tracker)
    (hturn : Turn tracker h m e) (hperform : perform cfg tracker e.action = some tracker')
    (hbefore : h.engaged tracker k = true)
    (hafter : ({ h with phase := e.phase } : Handler).engaged tracker' k = false) :
    h.givesUp tracker m = true ∨
      ∃ snap, h.lastReading tracker m = some snap ∧ e.sent = some snap := by
  have hkey := key_of_engaged hbefore
  have hgone : ({ h with phase := e.phase } : Handler).engaged tracker' k = true → False :=
    fun hengaged => Bool.false_ne_true (hafter.symm.trans hengaged)
  -- a tracked request is engaged in every phase in which it has its guard or owes a reading
  have hnext : h.tracked = true → e.phase.tracks = true → False := by
    intro htracked htracks
    refine hgone ?_
    rw [engaged_of_tracks (h := { h with phase := e.phase }) hkey htracks]
    exact htracked
  have hheld : ∀ {ph : Phase}, h.phase = ph → ph.tracks = true → h.tracked = true := by
    rintro ph rfl htracks
    exact (engaged_of_tracks hkey htracks).symm.trans hbefore
  cases hturn with
  | admitted hphase ht hguard =>
      exact (hnext (tracked_of_admitted howned hphase ht hguard hbefore) rfl).elim
  | loop hphase ht =>
      rcases engaged_of_loop howned hphase ht hperform hbefore with hengaged | hgives
      · exact (hgone hengaged).elim
      · exact Or.inl hgives
  | @entering call queued t hphase ht hentering =>
      rw [engaged_acquiring hkey hphase ht] at hbefore
      cases t with
      | enter c => simp [Task.holds, Task.liveFor, Task.waitsFor, Task.contends] at hbefore
      | slotGet c => simp [Task.holds, Task.liveFor, Task.waitsFor, Task.contends] at hbefore
      | slotEntry c => simp [Task.holds, Task.liveFor, Task.waitsFor, Task.contends] at hbefore
      | _ => cases hentering
  | read hphase =>
      rcases hphase with hphase | ⟨guard, hphase⟩
      · exact (hnext (hheld hphase rfl) (by rw [hphase]; rfl)).elim
      · exact (hnext (hheld hphase rfl) (by rw [hphase]; rfl)).elim
  | announce hphase ht => exact (hnext (hheld hphase rfl) rfl).elim
  | release hphase => exact (hnext (hheld hphase rfl) rfl).elim
  | released hphase => exact (hnext (hheld hphase rfl) rfl).elim
  | @report snap reading hphase ht =>
      refine Or.inr ⟨reading, ?_, rfl⟩
      simp only [Handler.lastReading, hphase, ht]
  | unwind hphase ht =>
      rcases engaged_of_unwind hmapped hphase ht hperform hbefore with hengaged | hgives
      · exact (hgone hengaged).elim
      · exact Or.inl hgives
  | @spurious call queued hphase =>
      have hstep : Capacity.step cfg tracker (.spurious call) = some tracker' := hperform
      exact (hgone (engaged_of_spurious hphase hstep hbefore)).elim
  | @timeout call queued hphase =>
      have hstep : Capacity.step cfg tracker (.timeout call) = some tracker' := hperform
      exact (hgone (engaged_of_timeout howned hkey hphase hstep)).elim
  | forwarded hphase => exact (hnext (hheld hphase rfl) rfl).elim
  | drop hphase =>
      rcases hphase with hphase | hphase
      · exact (hnext (hheld hphase rfl) rfl).elim
      · exact (hnext (hheld hphase rfl) rfl).elim
  | giveUp hphase =>
      refine Or.inl ?_
      simp only [Handler.givesUp, hphase]
  | @abandon guard hphase =>
      have hmem : (guard, .acquire h.request) ∈ h.calls := by
        rcases hphase with hphase | hphase <;>
          · rw [Handler.calls, hphase]
            exact List.mem_cons_self
      have htracked : h.tracked = true :=
        hphase.elim (fun hphase => hheld hphase rfl) fun hphase => hheld hphase rfl
      have hstep : Capacity.step cfg tracker (.dropGuard guard) = some tracker' := hperform
      exact (hgone (engaged_of_abandon howned hmem hkey htracked hstep)).elim

/-- A request with a task that is counted for the key is engaged for it. -/
theorem engaged_of_holds (howned : h.Owned tracker) {a : TaskId} {c : Caller} {t : Task}
    (hmem : (a, c) ∈ h.calls) (ht : tracker.tasks[a]? = some t) (hholds : t.holds k = true) :
    h.engaged tracker k = true := by
  obtain ⟨⟨r, hcall⟩, hk, hlimited⟩ := (howned.of hmem ht).of_holds hholds
  change c = .acquire r at hcall
  subst hcall
  cases hphase : h.phase with
  | acquiring call queued =>
      rw [Handler.calls, hphase, Phase.calls, List.mem_singleton] at hmem
      cases hmem
      rw [engaged_acquiring hk.symm hphase ht, hholds]
      rfl
  | announcing guard snap =>
      rw [Handler.calls, hphase, Phase.calls, List.mem_cons, List.mem_singleton] at hmem
      rcases hmem with hmem | hmem
      · cases hmem
        rw [engaged_of_tracks hk.symm (by rw [hphase]; rfl)]
        exact decide_eq_true hlimited
      · cases hmem
  | reporting snap =>
      rw [Handler.calls, hphase, Phase.calls, List.mem_singleton] at hmem
      cases hmem
  | abandoned guard =>
      rw [Handler.calls, hphase, Phase.calls, List.mem_singleton] at hmem
      cases hmem
      rw [engaged_abandoned hk.symm hphase ht, hholds]
  | ended =>
      rw [Handler.calls, hphase] at hmem
      cases hmem
  | _ =>
      rw [Handler.calls, hphase, Phase.calls, List.mem_singleton] at hmem
      cases hmem
      rw [engaged_of_tracks hk.symm (by rw [hphase]; rfl)]
      exact decide_eq_true hlimited

/-- A request whose task takes a step keeps its tasks. -/
theorem calls_of_step_turn (hturn : Turn tracker h m e) {a : TaskId}
    (hact : e.action = some (.step a)) : e.phase.calls (.acquire h.request) h.reading = h.calls := by
  cases hturn with
  | loop hphase ht => rw [Handler.calls, hphase, Phase.calls, Phase.calls]
  | entering hphase ht hentering => rw [Handler.calls, hphase]
  | read hphase => rfl
  | release hphase => rw [Handler.calls, hphase]
  | unwind hphase ht => rw [Handler.calls, hphase]
  | _ => cases hact

/-- **The counters change only with a request that is engaged**, before its move or after. -/
theorem counts_of_turn (hmapped : Mapped tracker) (howned : h.Owned tracker)
    (hturn : Turn tracker h m e) (hperform : perform cfg tracker e.action = some tracker')
    (hbefore : h.engaged tracker k = false)
    (hafter : ({ h with phase := e.phase } : Handler).engaged tracker' k = false) :
    tracker'.counts k = tracker.counts k := by
  have howned' := owned_of_turn howned hturn hperform
  cases hact : e.action with
  | none =>
      rw [hact] at hperform
      obtain rfl := Option.some.inj hperform
      rfl
  | some act =>
      rw [hact] at hperform
      have hmem : ∀ a, act = .step a → ∃ c, (a, c) ∈ h.calls := by
        rintro a rfl
        rcases action_of_turn hturn hact with hcall | ⟨b, c, hmem, hactor⟩
        · cases hcall
        · cases hactor
          exact ⟨c, hmem⟩
      refine Capacity.counts_of_step hmapped hperform (fun n hn => ?_) ?_ ?_
      · exact clears_of_turn hturn n (hact.trans (congrArg some hn))
      · intro a t hstep ht
        obtain ⟨c, hc⟩ := hmem a hstep
        refine Bool.eq_false_of_not_eq_true fun hholds => ?_
        rw [engaged_of_holds howned hc ht hholds] at hbefore
        cases hbefore
      · intro a t hstep ht
        obtain ⟨c, hc⟩ := hmem a hstep
        rw [← calls_of_step_turn hturn (hact.trans (congrArg some hstep))] at hc
        refine Bool.eq_false_of_not_eq_true fun hholds => ?_
        rw [engaged_of_holds howned' (c := c) hc ht hholds] at hafter
        cases hafter

/-- What is sent is the last reading of a request, or one of a request with a tracked guard. -/
theorem sent_of_turn (hturn : Turn tracker h m e) {snap : CapacitySnapshot}
    (hsent : e.sent = some snap) : e.action = none ∧
      (h.lastReading tracker m = some snap ∨ h.tracked = true ∧ h.phase.tracks = true) := by
  cases hturn with
  | announce hphase ht =>
      obtain rfl := Option.some.inj hsent
      refine ⟨rfl, ?_⟩
      cases htracked : h.tracked with
      | true => exact Or.inr ⟨rfl, by rw [hphase]; rfl⟩
      | false =>
          left
          simp [Handler.lastReading, hphase, ht, htracked]
  | report hphase ht =>
      obtain rfl := Option.some.inj hsent
      refine ⟨rfl, Or.inl ?_⟩
      simp only [Handler.lastReading, hphase, ht]
  | _ => cases hsent

/-- **The moves of the others leave a request engaged as it is.** -/
theorem engaged_of_perform_other (howned : h.Owned tracker) {action : Option Action}
    (hperform : perform cfg tracker action = some tracker')
    (hother : ∀ act, action = some act → ∀ a c, (a, c) ∈ h.calls → act.actor ≠ some a) :
    h.engaged tracker' k = h.engaged tracker k := by
  cases action with
  | none =>
      obtain rfl := Option.some.inj hperform
      rfl
  | some act =>
      have htask : ∀ a c, (a, c) ∈ h.calls → ∃ t t', tracker.tasks[a]? = some t ∧
          tracker'.tasks[a]? = some t' ∧ t'.holds k = t.holds k ∧ t'.contends = t.contends := by
        intro a c hmem
        obtain ⟨t, ht, -⟩ := howned _ hmem
        obtain ⟨t', ht', hsame⟩ := Capacity.holds_of_step_other (k := k) ht
          (hother act rfl a c hmem) hperform
        exact ⟨t, t', ht, ht', hsame⟩
      rw [Handler.engaged, Handler.engaged]
      cases hphase : h.phase with
      | acquiring call queued =>
          obtain ⟨t, t', ht, ht', hholds, hcontends⟩ := htask call _ (mem_calls_acquiring hphase)
          simp only [ht, ht', Option.any_some, hholds, hcontends]
      | abandoned guard =>
          obtain ⟨t, t', ht, ht', hholds, -⟩ := htask guard (.acquire h.request) (by
            rw [Handler.calls, hphase]
            exact List.mem_cons_self)
          simp only [ht, ht', Option.any_some, hholds]
      | _ => rfl

end

section

variable {cfg : Sharding ModelCapacityKey} {s s' : State}

/-! ### The telemetry settles -/

theorem isFor_event (h : Handler) (snap : CapacitySnapshot) (k : ModelCapacityKey) :
    isFor k (h.event snap) = decide (h.request.key = k) := by
  rw [isFor, decide_eq_decide]
  constructor
  · rintro ⟨hnode, hmodel⟩
    have hid := NodeAuth.nodeIdHex_injective hnode
    cases hkey : h.request.key
    cases k
    simp_all [Handler.event]
  · rintro rfl
    exact ⟨rfl, rfl⟩

/-- An event for another key is not the last of this one. -/
theorem lastEvent_append_of_ne {tracker : Capacity.State} {handlers : List Handler} {h : Handler}
    {k : ModelCapacityKey} (hkey : h.request.key ≠ k) (sent : Option CapacitySnapshot) :
    State.lastEvent ⟨tracker, handlers, s.events ++ (sent.map h.event).toList⟩ k =
      s.lastEvent k := by
  cases sent with
  | none => simp [State.lastEvent]
  | some snap =>
      have hnot : isFor k (h.event snap) = false := by rw [isFor_event, decide_eq_false hkey]
      simp [State.lastEvent, hnot]

/-- The event that has been sent is the last of its key. -/
theorem lastEvent_append_self {tracker : Capacity.State} {handlers : List Handler} {h : Handler}
    (snap : CapacitySnapshot) :
    State.lastEvent ⟨tracker, handlers, s.events ++ ((some snap).map h.event).toList⟩
      h.request.key = some (h.event snap) := by
  have hfor : isFor h.request.key (h.event snap) = true := by rw [isFor_event, decide_eq_true rfl]
  simp [State.lastEvent, hfor]

theorem settled_request (hinv : Inv s) (hsettled : Settled s) {r : Request} {stream : Bool}
    (hstep : step cfg s (.request r stream) = some s') : Settled s' := by
  obtain rfl := Option.some.inj hstep
  have hperform : perform cfg s.tracker (some (.call (.acquire r))) =
      some (s.tracker.spawn (.enter (.acquire r))) := rfl
  intro k hquiet e hlast
  refine hsettled k (fun h hh => ?_) e hlast
  rw [← hquiet h (List.mem_append_left _ hh)]
  refine (engaged_of_perform_other (hinv.owned h hh) hperform ?_).symm
  rintro act hact a c -
  cases hact
  exact nofun

section

variable {i : ℕ} {h : Handler} {m : Move} {e : Effect} {tracker : Capacity.State}

/-- A key that is quiet after a move was quiet before it, as far as the others go. -/
theorem others_quiet (hinv : Inv s) (hi : s.handlers[i]? = some h) (hturn : Turn s.tracker h m e)
    (hperform : perform cfg s.tracker e.action = some tracker) {k : ModelCapacityKey}
    (hquiet : (s.moved i h e tracker).Quiet k) {j : ℕ} {h' : Handler} (hij : i ≠ j)
    (hj : s.handlers[j]? = some h') : h'.engaged s.tracker k = false := by
  have hkept : (s.handlers.set i { h with phase := e.phase })[j]? = some h' := by
    rw [List.getElem?_set_ne hij, hj]
  rw [← hquiet h' (List.mem_of_getElem? hkept)]
  exact (engaged_of_perform_other (hinv.owned h' (List.mem_of_getElem? hj)) hperform
    (hinv.actor_ne hi hj hij hturn)).symm

/-- Nothing changes for a key that is quiet after the move of a request that was not engaged. -/
theorem still_of_not_engaged (hinv : Inv s) (hi : s.handlers[i]? = some h)
    (hturn : Turn s.tracker h m e) (hperform : perform cfg s.tracker e.action = some tracker)
    {k : ModelCapacityKey} (hquiet : (s.moved i h e tracker).Quiet k)
    (hbefore : h.engaged s.tracker k = false) :
    tracker.counts k = s.tracker.counts k ∧ s.Quiet k := by
  have hafter := hquiet _ (List.mem_of_getElem? (TaskPool.getElem?_set_self hi _))
  have hown := hinv.owned h (List.mem_of_getElem? hi)
  refine ⟨counts_of_turn hinv.mapped hown hturn hperform hbefore hafter, fun h' hh' => ?_⟩
  obtain ⟨j, hj⟩ := List.getElem?_of_mem hh'
  by_cases hij : i = j
  · obtain rfl := Option.some.inj (hi.symm.trans (hij ▸ hj))
    exact hbefore
  · exact others_quiet hinv hi hturn hperform hquiet hij hj

/-- The condition on a step, if no other request is engaged: the request does not give up, and its
last reading is current. -/
theorem settles_alone (hi : s.handlers[i]? = some h)
    (hothers : ∀ j h', i ≠ j → s.handlers[j]? = some h' →
      h'.engaged s.tracker h.request.key = false)
    (hsettles : s.settles (.move i m) = true) :
    h.givesUp s.tracker m = false ∧ ∀ snap, h.lastReading s.tracker m = some snap →
      s.tracker.counts h.request.key = (snap.activeRequests, snap.queuedRequests) := by
  have hnone : ((s.handlers.eraseIdx i).any fun other =>
      other.engaged s.tracker h.request.key) = false := by
    refine List.any_eq_false.2 fun other hmem => ?_
    obtain ⟨j, hji, hj⟩ := List.mem_eraseIdx_iff_getElem?.1 hmem
    rw [hothers j other hji.symm hj]
    exact Bool.false_ne_true
  simp only [State.settles, hi, Option.all_some, hnone, Bool.false_or, Bool.and_eq_true,
    Bool.not_eq_true'] at hsettles
  refine ⟨hsettles.1, fun snap hreading => ?_⟩
  simpa [hreading] using hsettles.2

/-- The key of the request that moves. -/
theorem settled_move_self (hinv : Inv s) (hsettled : Settled s) (hi : s.handlers[i]? = some h)
    (hturn : Turn s.tracker h m e) (hperform : perform cfg s.tracker e.action = some tracker)
    (hsettles : s.settles (.move i m) = true)
    (hquiet : (s.moved i h e tracker).Quiet h.request.key) {ev : ModelCapacityEvent}
    (hlast : (s.moved i h e tracker).lastEvent h.request.key = some ev) :
    (ev.activeRequests, ev.queuedRequests) = tracker.counts h.request.key := by
  have hafter := hquiet _ (List.mem_of_getElem? (TaskPool.getElem?_set_self hi _))
  have hown := hinv.owned h (List.mem_of_getElem? hi)
  obtain ⟨hkeeps, hcurrent⟩ := settles_alone hi
    (fun j h' hij hj => others_quiet hinv hi hturn hperform hquiet hij hj) hsettles
  -- a last reading is current, and it is the last event
  have hsent : ∀ snap, e.sent = some snap → h.lastReading s.tracker m = some snap →
      (ev.activeRequests, ev.queuedRequests) = tracker.counts h.request.key := by
    intro snap hsent hreading
    obtain ⟨haction, -⟩ := sent_of_turn hturn hsent
    rw [haction] at hperform
    obtain rfl := Option.some.inj hperform
    rw [State.moved, hsent, lastEvent_append_self] at hlast
    obtain rfl := Option.some.inj hlast
    exact (hcurrent snap hreading).symm
  cases hbefore : h.engaged s.tracker h.request.key with
  | true =>
      rcases leaves_cases hinv.mapped hown hturn hperform hbefore hafter with
        hgives | ⟨snap, hreading, hsnap⟩
      · rw [hkeeps] at hgives
        cases hgives
      · exact hsent snap hsnap hreading
  | false =>
      cases hsnap : e.sent with
      | some snap =>
          rcases (sent_of_turn hturn hsnap).2 with hreading | ⟨htracked, htracks⟩
          · exact hsent snap hsnap hreading
          · rw [engaged_of_tracks rfl htracks, htracked] at hbefore
            cases hbefore
      | none =>
          obtain ⟨hcounts, hquiet'⟩ := still_of_not_engaged hinv hi hturn hperform hquiet hbefore
          rw [hcounts]
          refine hsettled _ hquiet' ev ?_
          simpa [State.lastEvent, State.moved, hsnap] using hlast

end

/-- **A step that meets the condition keeps the telemetry settled.** -/
theorem settled_step (hinv : Inv s) (hsettled : Settled s) {act : Act}
    (hstep : step cfg s act = some s') (hsettles : s.settles act = true) : Settled s' := by
  cases act with
  | request r stream => exact settled_request hinv hsettled hstep
  | move i m =>
      obtain ⟨h, e, tracker, hi, hturn, hperform, rfl⟩ := exists_turn_of_step hstep
      intro k hquiet ev hlast
      by_cases hkey : h.request.key = k
      · subst hkey
        exact settled_move_self hinv hsettled hi hturn hperform hsettles hquiet hlast
      · have hbefore : h.engaged s.tracker k = false := by
          rw [Handler.engaged, decide_eq_false hkey, Bool.false_and]
        obtain ⟨hcounts, hquiet'⟩ := still_of_not_engaged hinv hi hturn hperform hquiet hbefore
        rw [State.moved, lastEvent_append_of_ne hkey] at hlast
        change _ = tracker.counts k
        rw [hcounts]
        exact hsettled k hquiet' ev hlast

end

theorem settled_init : Settled init := by
  intro k _ e hlast
  cases hlast

/-- What is known of the key: whether it is quiet, its last event, and its counters. -/
def State.known (s : State) (k : ModelCapacityKey) :
    Bool × Option (UInt32 × UInt32) × (UInt32 × UInt32) :=
  (s.handlers.all fun h => !h.engaged s.tracker k,
    (s.lastEvent k).map fun e => (e.activeRequests, e.queuedRequests), s.tracker.counts k)

/-- A request for a model with a single place. -/
def single : Request := ⟨Capacity.sampleKey, 1, 1⟩

/-- The request goes on, so many steps. -/
def goOn (i steps : ℕ) : List Act := List.replicate steps (.move i .go)

/-- A second request waits for the place of the first, and both are answered. -/
def inTurn : List Act :=
  [.request single true] ++ goOn 0 11 ++ [.request single false] ++ goOn 1 6 ++
    [.move 0 (.forwarded true), .move 0 .answered] ++ goOn 0 9 ++ goOn 1 10 ++
    [.move 1 (.forwarded true), .move 1 .answered] ++ goOn 1 9

/-- A request is dropped while it is forwarded, and its guard with it. -/
def dropped : List Act := [.request single false] ++ goOn 0 11 ++ [.move 0 .cancel] ++ goOn 0 3

end CapacityTelemetry
