/-
**The requests over the capacity tracker.**

A request that has been admitted sends the counters of its model to the subscribers, and sends them
again when it has dropped its guard (`chat_completions` in `src/consumer/forward.rs`).  A reading is
two loads, and it is sent later; requests for the same model change the counters and send readings in
between.  This module gives the requests as handlers over the tracker, each with the calls of the
tracker that are its own, and the events in the order in which they are sent.

A handler can be dropped wherever it waits.  Its guard is dropped with it, and nothing is sent, unless
its response is a stream, whose completion sends a reading all the same.

Main definitions:

* `CapacityTelemetry.Handler`, `CapacityTelemetry.Handler.next` — a request and what it does next;
* `CapacityTelemetry.step` — the transition function;
* `CapacityTelemetry.Turn` — what a move can come to;
* `CapacityTelemetry.Inv` — every request owns its tasks, and no two own the same.

Main results:

* `CapacityTelemetry.turn_of_next` — **every move comes to one of these**;
* `CapacityTelemetry.inv_step` — every step keeps the invariant.
-/

import SparklRouter.Capacity.Readings
import SparklRouter.Catalog.Providers

set_option relaxedAutoImplicit false
set_option autoImplicit false

namespace CapacityTelemetry

open Capacity (Action CapacitySnapshot Caller Mapped ModelCapacityKey Request Task TaskId)
open ModelsCatalog (ModelCapacityEvent)
open Transition

/-! ### Requests -/

/-- Where a request stands in `chat_completions`. -/
inductive Phase
  /-- In `acquire`; `queued` says that the request has been in the queue. -/
  | acquiring (call : TaskId) (queued : Bool)
  /-- In `emit_model_capacity`, with its guard. -/
  | announcing (guard snap : TaskId)
  /-- In `forward_http_request`. -/
  | forwarding (guard : TaskId)
  /-- The response is collected, or streamed. -/
  | responding (guard : TaskId)
  /-- The guard is being dropped; `emit_model_capacity` follows. -/
  | dropping (guard : TaskId)
  /-- In `emit_model_capacity`, without a guard. -/
  | reporting (snap : TaskId)
  /-- The request has been dropped, and its guard with it. -/
  | abandoned (guard : TaskId)
  | ended
deriving DecidableEq

structure Handler where
  request : Request
  stream : Bool
  phase : Phase

/-- What can happen to a request. -/
inductive Move
  /-- The request, or the drop of its guard, goes on. -/
  | go
  /-- A weak compare-exchange fails although the value is the expected one. -/
  | spurious
  /-- The deadline of the wait passes. -/
  | timeout
  /-- The tunnel has taken the request, or has failed. -/
  | forwarded (ok : Bool)
  /-- The response has come to its end. -/
  | answered
  /-- The handler, or the stream it has returned, is dropped. -/
  | cancel
deriving DecidableEq

/-- What a move comes to: the action of the tracker, the phase, and the reading that is sent. -/
structure Effect where
  action : Option Action
  phase : Phase
  sent : Option CapacitySnapshot

namespace Handler

/-- The counters are tracked for the request. -/
def tracked (h : Handler) : Bool := decide (h.request.concurrency ≠ 0)

/-- The reading of `emit_model_capacity`. -/
def reading (h : Handler) : Caller :=
  .snapshotWithConcurrency h.request.key h.request.concurrency

/-- `TelemetryBus::emit_model_capacity`. -/
def event (h : Handler) (snap : CapacitySnapshot) : ModelCapacityEvent where
  nodeId := NodeAuth.nodeIdHex h.request.key.nodeId
  modelId := h.request.key.modelId
  activeRequests := snap.activeRequests
  queuedRequests := snap.queuedRequests
  concurrency := h.request.concurrency

/-- The request goes on.  A call that fails is answered, and nothing is sent. -/
def goes (tracker : Capacity.State) (h : Handler) : Option Effect :=
  match h.phase with
  | .acquiring call queued =>
      match tracker.tasks[call]? with
      | some (.guard _ _) | some (.unlimitedGuard _) =>
          some ⟨some (.call h.reading), .announcing call tracker.tasks.length, none⟩
      | some (.acquiring _ _ pc) =>
          some ⟨some (.step call), .acquiring call (queued || pc.inQueue), none⟩
      | some (.enter _) | some (.slotGet _) | some (.slotEntry _) =>
          some ⟨some (.step call), .acquiring call queued, none⟩
      | _ => none
  | .announcing guard snap =>
      match tracker.tasks[snap]? with
      | some (.snapped reading) => some ⟨none, .forwarding guard, some reading⟩
      | _ => some ⟨some (.step snap), .announcing guard snap, none⟩
  | .dropping guard =>
      match tracker.tasks[guard]? with
      | some .released => some ⟨some (.call h.reading), .reporting tracker.tasks.length, none⟩
      | some (.releasing _ _ _) => some ⟨some (.step guard), .dropping guard, none⟩
      | _ => none
  | .reporting snap =>
      match tracker.tasks[snap]? with
      | some (.snapped reading) => some ⟨none, .ended, some reading⟩
      | _ => some ⟨some (.step snap), .reporting snap, none⟩
  | .abandoned guard =>
      match tracker.tasks[guard]? with
      | some (.releasing _ _ _) => some ⟨some (.step guard), .abandoned guard, none⟩
      | _ => none
  | .forwarding _ | .responding _ | .ended => none

/-- The handler is dropped: a stream sends its reading all the same. -/
def cancelled (h : Handler) : Option Effect :=
  match h.phase with
  | .acquiring call _ => some ⟨some (.cancel call), .ended, none⟩
  | .forwarding guard => some ⟨some (.dropGuard guard), .abandoned guard, none⟩
  | .responding guard =>
      if h.stream then some ⟨some (.dropGuard guard), .dropping guard, none⟩
      else some ⟨some (.dropGuard guard), .abandoned guard, none⟩
  | _ => none

def next (tracker : Capacity.State) (h : Handler) : Move → Option Effect
  | .go => h.goes tracker
  | .spurious =>
      match h.phase with
      | .acquiring call queued => some ⟨some (.spurious call), .acquiring call queued, none⟩
      | _ => none
  | .timeout =>
      match h.phase with
      | .acquiring call queued => some ⟨some (.timeout call), .acquiring call queued, none⟩
      | _ => none
  | .forwarded ok =>
      match h.phase with
      | .forwarding guard =>
          if ok then some ⟨none, .responding guard, none⟩
          else some ⟨some (.dropGuard guard), .dropping guard, none⟩
      | _ => none
  | .answered =>
      match h.phase with
      | .responding guard => some ⟨some (.dropGuard guard), .dropping guard, none⟩
      | _ => none
  | .cancel => h.cancelled

end Handler

/-! ### The system -/

/-- The tracker, the requests, and the events in the order in which they have been sent. -/
structure State where
  tracker : Capacity.State
  handlers : List Handler
  events : List ModelCapacityEvent

def init : State := ⟨Capacity.init, [], []⟩

/-- What the scheduler can do. -/
inductive Act
  | request (r : Request) (stream : Bool)
  | move (i : ℕ) (m : Move)
deriving DecidableEq

section

variable (cfg : Sharding ModelCapacityKey)

def perform (tracker : Capacity.State) : Option Action → Option Capacity.State
  | none => some tracker
  | some act => Capacity.step cfg tracker act

/-- The state after a move. -/
def State.moved (s : State) (i : ℕ) (h : Handler) (e : Effect) (tracker : Capacity.State) :
    State where
  tracker
  handlers := s.handlers.set i { h with phase := e.phase }
  events := s.events ++ (e.sent.map h.event).toList

/-- **The transition function.** -/
def step (s : State) : Act → Option State
  | .request r stream =>
      some
        { s with
          tracker := s.tracker.spawn (.enter (.acquire r))
          handlers := s.handlers ++ [⟨r, stream, .acquiring s.tracker.tasks.length false⟩] }
  | .move i m =>
      (s.handlers[i]?).bind fun h => (h.next s.tracker m).bind fun e =>
        (perform cfg s.tracker e.action).map (s.moved i h e)

end

/-! ### The inversion of a move -/

/-- What a move can come to. -/
inductive Turn (tracker : Capacity.State) (h : Handler) : Move → Effect → Prop
  | admitted {call : TaskId} {queued : Bool} {t : Task} (hphase : h.phase = .acquiring call queued)
      (ht : tracker.tasks[call]? = some t) (hguard : t.isGuard = true) :
      Turn tracker h .go ⟨some (.call h.reading), .announcing call tracker.tasks.length, none⟩
  | loop {call : TaskId} {queued : Bool} {r : Request} {a : Capacity.SlotId}
      {pc : Capacity.AcquirePc r} (hphase : h.phase = .acquiring call queued)
      (ht : tracker.tasks[call]? = some (.acquiring r a pc)) :
      Turn tracker h .go ⟨some (.step call), .acquiring call (queued || pc.inQueue), none⟩
  | entering {call : TaskId} {queued : Bool} {t : Task}
      (hphase : h.phase = .acquiring call queued) (ht : tracker.tasks[call]? = some t)
      (hentering : t.entering = true) :
      Turn tracker h .go ⟨some (.step call), .acquiring call queued, none⟩
  | read {snap : TaskId}
      (hphase : h.phase = .reporting snap ∨ ∃ guard, h.phase = .announcing guard snap) :
      Turn tracker h .go ⟨some (.step snap), h.phase, none⟩
  | announce {guard snap : TaskId} {reading : CapacitySnapshot}
      (hphase : h.phase = .announcing guard snap)
      (ht : tracker.tasks[snap]? = some (.snapped reading)) :
      Turn tracker h .go ⟨none, .forwarding guard, some reading⟩
  | release {guard : TaskId} (hphase : h.phase = .dropping guard) :
      Turn tracker h .go ⟨some (.step guard), .dropping guard, none⟩
  | released {guard : TaskId} (hphase : h.phase = .dropping guard) :
      Turn tracker h .go ⟨some (.call h.reading), .reporting tracker.tasks.length, none⟩
  | report {snap : TaskId} {reading : CapacitySnapshot} (hphase : h.phase = .reporting snap)
      (ht : tracker.tasks[snap]? = some (.snapped reading)) :
      Turn tracker h .go ⟨none, .ended, some reading⟩
  | unwind {guard : TaskId} {k : ModelCapacityKey} {issued : Capacity.SlotId}
      {pc : Capacity.ReleasePc} (hphase : h.phase = .abandoned guard)
      (ht : tracker.tasks[guard]? = some (.releasing k issued pc)) :
      Turn tracker h .go ⟨some (.step guard), .abandoned guard, none⟩
  | spurious {call : TaskId} {queued : Bool} (hphase : h.phase = .acquiring call queued) :
      Turn tracker h .spurious ⟨some (.spurious call), .acquiring call queued, none⟩
  | timeout {call : TaskId} {queued : Bool} (hphase : h.phase = .acquiring call queued) :
      Turn tracker h .timeout ⟨some (.timeout call), .acquiring call queued, none⟩
  | forwarded {guard : TaskId} (hphase : h.phase = .forwarding guard) :
      Turn tracker h (.forwarded true) ⟨none, .responding guard, none⟩
  | drop {guard : TaskId} {m : Move}
      (hphase : h.phase = .forwarding guard ∨ h.phase = .responding guard) :
      Turn tracker h m ⟨some (.dropGuard guard), .dropping guard, none⟩
  | giveUp {call : TaskId} {queued : Bool} (hphase : h.phase = .acquiring call queued) :
      Turn tracker h .cancel ⟨some (.cancel call), .ended, none⟩
  | abandon {guard : TaskId}
      (hphase : h.phase = .forwarding guard ∨ h.phase = .responding guard) :
      Turn tracker h .cancel ⟨some (.dropGuard guard), .abandoned guard, none⟩

theorem turn_of_goes {tracker : Capacity.State} {h : Handler} {e : Effect}
    (hnext : h.goes tracker = some e) : Turn tracker h .go e := by
  unfold Handler.goes at hnext
  split at hnext
  · rename_i call queued hphase
    split at hnext
    · rename_i ht
      obtain rfl := Option.some.inj hnext
      exact .admitted hphase ht rfl
    · rename_i ht
      obtain rfl := Option.some.inj hnext
      exact .admitted hphase ht rfl
    · rename_i ht
      obtain rfl := Option.some.inj hnext
      exact .loop hphase ht
    · rename_i ht
      obtain rfl := Option.some.inj hnext
      exact .entering hphase ht rfl
    · rename_i ht
      obtain rfl := Option.some.inj hnext
      exact .entering hphase ht rfl
    · rename_i ht
      obtain rfl := Option.some.inj hnext
      exact .entering hphase ht rfl
    · cases hnext
  · rename_i guard snap hphase
    split at hnext
    · rename_i ht
      obtain rfl := Option.some.inj hnext
      exact .announce hphase ht
    · obtain rfl := Option.some.inj hnext
      exact hphase ▸ .read (Or.inr ⟨guard, hphase⟩)
  · rename_i guard hphase
    split at hnext
    · obtain rfl := Option.some.inj hnext
      exact .released hphase
    · obtain rfl := Option.some.inj hnext
      exact .release hphase
    · cases hnext
  · rename_i snap hphase
    split at hnext
    · rename_i ht
      obtain rfl := Option.some.inj hnext
      exact .report hphase ht
    · obtain rfl := Option.some.inj hnext
      exact hphase ▸ .read (Or.inl hphase)
  · rename_i guard hphase
    split at hnext
    · rename_i ht
      obtain rfl := Option.some.inj hnext
      exact .unwind hphase ht
    · cases hnext
  · cases hnext
  · cases hnext
  · cases hnext

/-- **Every move comes to one of these.** -/
theorem turn_of_next {tracker : Capacity.State} {h : Handler} {m : Move} {e : Effect}
    (hnext : h.next tracker m = some e) : Turn tracker h m e := by
  cases m with
  | go => exact turn_of_goes hnext
  | spurious =>
      simp only [Handler.next] at hnext
      split at hnext
      · rename_i call queued hphase
        obtain rfl := Option.some.inj hnext
        exact .spurious hphase
      · cases hnext
  | timeout =>
      simp only [Handler.next] at hnext
      split at hnext
      · rename_i call queued hphase
        obtain rfl := Option.some.inj hnext
        exact .timeout hphase
      · cases hnext
  | forwarded ok =>
      simp only [Handler.next] at hnext
      split at hnext
      · rename_i guard hphase
        cases ok with
        | true =>
            obtain rfl := Option.some.inj hnext
            exact .forwarded hphase
        | false =>
            obtain rfl := Option.some.inj hnext
            exact .drop (Or.inl hphase)
      · cases hnext
  | answered =>
      simp only [Handler.next] at hnext
      split at hnext
      · rename_i guard hphase
        obtain rfl := Option.some.inj hnext
        exact .drop (Or.inr hphase)
      · cases hnext
  | cancel =>
      simp only [Handler.next, Handler.cancelled] at hnext
      split at hnext
      · rename_i call queued hphase
        obtain rfl := Option.some.inj hnext
        exact .giveUp hphase
      · rename_i guard hphase
        obtain rfl := Option.some.inj hnext
        exact .abandon (Or.inl hphase)
      · rename_i guard hphase
        split at hnext
        · obtain rfl := Option.some.inj hnext
          exact .drop (Or.inr hphase)
        · obtain rfl := Option.some.inj hnext
          exact .abandon (Or.inr hphase)
      · cases hnext

/-! ### The tasks of a request -/

/-- The calls of the tracker that are in progress, or have led to the guard that is held. -/
def Phase.calls (acquire reading : Caller) : Phase → List (TaskId × Caller)
  | .acquiring call _ => [(call, acquire)]
  | .announcing guard snap => [(guard, acquire), (snap, reading)]
  | .forwarding guard | .responding guard | .dropping guard | .abandoned guard =>
      [(guard, acquire)]
  | .reporting snap => [(snap, reading)]
  | .ended => []

namespace Handler

def calls (h : Handler) : List (TaskId × Caller) := h.phase.calls (.acquire h.request) h.reading

/-- The tasks of the request are its calls, or what has become of them. -/
def Owned (tracker : Capacity.State) (h : Handler) : Prop :=
  ∀ p ∈ h.calls, ∃ t, tracker.tasks[p.1]? = some t ∧ t.Of p.2

end Handler

section

variable {cfg : Sharding ModelCapacityKey} {tracker tracker' : Capacity.State} {h : Handler}
  {m : Move} {e : Effect} {k : ModelCapacityKey}

/-- A move adds no task but the one of a reading. -/
theorem calls_of_turn (hturn : Turn tracker h m e) {p : TaskId × Caller}
    (hp : p ∈ e.phase.calls (.acquire h.request) h.reading) :
    p ∈ h.calls ∨ e.action = some (.call h.reading) ∧ p = (tracker.tasks.length, h.reading) := by
  have hsame : ∀ {ph : Phase}, h.phase = ph →
      e.phase.calls (.acquire h.request) h.reading = ph.calls (.acquire h.request) h.reading →
      p ∈ h.calls := by
    intro ph hphase hcalls
    rwa [Handler.calls, hphase, ← hcalls]
  cases hturn with
  | admitted hphase ht hguard =>
      rcases List.mem_cons.1 hp with rfl | hp
      · exact Or.inl (by simp [Handler.calls, Phase.calls, hphase])
      · exact Or.inr ⟨rfl, List.mem_singleton.1 hp⟩
  | announce hphase ht =>
      rw [List.mem_singleton.1 hp]
      exact Or.inl (by simp [Handler.calls, Phase.calls, hphase])
  | released hphase => exact Or.inr ⟨rfl, List.mem_singleton.1 hp⟩
  | report hphase ht => cases hp
  | giveUp hphase => cases hp
  | read hphase => exact Or.inl hp
  | drop hphase => exact Or.inl (hphase.elim (fun h => hsame h rfl) fun h => hsame h rfl)
  | abandon hphase => exact Or.inl (hphase.elim (fun h => hsame h rfl) fun h => hsame h rfl)
  | loop hphase ht => exact Or.inl (hsame hphase rfl)
  | entering hphase ht hentering => exact Or.inl (hsame hphase rfl)
  | release hphase => exact Or.inl (hsame hphase rfl)
  | unwind hphase ht => exact Or.inl (hsame hphase rfl)
  | spurious hphase => exact Or.inl (hsame hphase rfl)
  | timeout hphase => exact Or.inl (hsame hphase rfl)
  | forwarded hphase => exact Or.inl (hsame hphase rfl)

/-- The action of a move is a reading, or the step of a task of the request. -/
theorem action_of_turn (hturn : Turn tracker h m e) {act : Action} (hact : e.action = some act) :
    act = .call h.reading ∨ ∃ a c, (a, c) ∈ h.calls ∧ act.actor = some a := by
  have hown : ∀ {ph : Phase} {a : TaskId} {c : Caller}, h.phase = ph →
      (a, c) ∈ ph.calls (.acquire h.request) h.reading → act.actor = some a →
      ∃ a c, (a, c) ∈ h.calls ∧ act.actor = some a := by
    intro ph a c hphase hmem hactor
    refine ⟨a, c, ?_, hactor⟩
    rwa [Handler.calls, hphase]
  cases hturn with
  | admitted hphase ht hguard => exact Or.inl (Option.some.inj hact).symm
  | released hphase => exact Or.inl (Option.some.inj hact).symm
  | announce hphase ht => cases hact
  | report hphase ht => cases hact
  | forwarded hphase => cases hact
  | read hphase =>
      cases hact
      rcases hphase with hphase | ⟨guard, hphase⟩
      · exact Or.inr (hown hphase List.mem_cons_self rfl)
      · exact Or.inr (hown hphase (List.mem_cons_of_mem _ List.mem_cons_self) rfl)
  | drop hphase =>
      cases hact
      rcases hphase with hphase | hphase
      · exact Or.inr (hown hphase List.mem_cons_self rfl)
      · exact Or.inr (hown hphase List.mem_cons_self rfl)
  | abandon hphase =>
      cases hact
      rcases hphase with hphase | hphase
      · exact Or.inr (hown hphase List.mem_cons_self rfl)
      · exact Or.inr (hown hphase List.mem_cons_self rfl)
  | loop hphase ht =>
      cases hact
      exact Or.inr (hown hphase List.mem_cons_self rfl)
  | entering hphase ht hentering =>
      cases hact
      exact Or.inr (hown hphase List.mem_cons_self rfl)
  | release hphase =>
      cases hact
      exact Or.inr (hown hphase List.mem_cons_self rfl)
  | unwind hphase ht =>
      cases hact
      exact Or.inr (hown hphase List.mem_cons_self rfl)
  | spurious hphase =>
      cases hact
      exact Or.inr (hown hphase List.mem_cons_self rfl)
  | timeout hphase =>
      cases hact
      exact Or.inr (hown hphase List.mem_cons_self rfl)
  | giveUp hphase =>
      cases hact
      exact Or.inr (hown hphase List.mem_cons_self rfl)

/-- No move clears a node. -/
theorem clears_of_turn (hturn : Turn tracker h m e) (n : NodeId) : e.action ≠ some (.clearNode n) := by
  intro hact
  rcases action_of_turn hturn hact with hcall | ⟨a, c, -, hactor⟩
  · cases hcall
  · cases hactor

theorem owned_of_perform (howned : h.Owned tracker) {action : Option Action}
    (hperform : perform cfg tracker action = some tracker') : h.Owned tracker' := by
  intro p hp
  obtain ⟨t, ht, hof⟩ := howned p hp
  cases action with
  | none =>
      obtain rfl := Option.some.inj hperform
      exact ⟨t, ht, hof⟩
  | some act => exact Capacity.of_step ht hof hperform

/-- A request still owns its tasks after its move. -/
theorem owned_of_turn (howned : h.Owned tracker) (hturn : Turn tracker h m e)
    (hperform : perform cfg tracker e.action = some tracker') :
    ({ h with phase := e.phase } : Handler).Owned tracker' := by
  intro p hp
  rcases calls_of_turn hturn hp with hp | ⟨hact, rfl⟩
  · exact owned_of_perform howned hperform p hp
  · rw [hact] at hperform
    obtain rfl := Option.some.inj hperform
    exact ⟨.enter h.reading, by simp [Capacity.State.spawn], rfl⟩

theorem mapped_of_turn (hmapped : Mapped tracker) (hturn : Turn tracker h m e)
    (hperform : perform cfg tracker e.action = some tracker') : Mapped tracker' := by
  cases hact : e.action with
  | none =>
      rw [hact] at hperform
      obtain rfl := Option.some.inj hperform
      exact hmapped
  | some act =>
      rw [hact] at hperform
      refine Capacity.mapped_step hmapped hperform fun n hn => ?_
      exact clears_of_turn hturn n (hact.trans (congrArg some hn))

end

/-! ### The invariant -/

/-- Every request owns its tasks, and no two own the same. -/
structure Inv (s : State) : Prop where
  mapped : Mapped s.tracker
  owned : ∀ h ∈ s.handlers, h.Owned s.tracker
  apart : ∀ (i j : ℕ) (h h' : Handler), s.handlers[i]? = some h → s.handlers[j]? = some h' →
    i ≠ j → ∀ a c c', (a, c) ∈ h.calls → (a, c') ∉ h'.calls

theorem inv_init : Inv init where
  mapped := Capacity.mapped_init
  owned h hh := absurd hh List.not_mem_nil
  apart i j h h' hi := by cases hi

section

variable {cfg : Sharding ModelCapacityKey} {s s' : State}

/-- A task that a request owns has been spawned. -/
theorem Inv.lt_of_mem_calls (hinv : Inv s) {h : Handler} (hh : h ∈ s.handlers) {a : TaskId}
    {c : Caller} (hmem : (a, c) ∈ h.calls) : a < s.tracker.tasks.length := by
  obtain ⟨t, ht, -⟩ := hinv.owned h hh _ hmem
  exact (List.getElem?_eq_some_iff.1 ht).1

/-- A new request with the task of its call. -/
theorem inv_request (hinv : Inv s) {r : Request} {stream : Bool}
    (hstep : step cfg s (.request r stream) = some s') : Inv s' := by
  obtain rfl := Option.some.inj hstep
  have hperform : perform cfg s.tracker (some (.call (.acquire r))) =
      some (s.tracker.spawn (.enter (.acquire r))) := rfl
  have hcall : Capacity.step cfg s.tracker (.call (.acquire r)) =
      some (s.tracker.spawn (.enter (.acquire r))) := rfl
  refine ⟨Capacity.mapped_step hinv.mapped hcall nofun, ?_, ?_⟩
  · intro h hh
    rcases List.mem_append.1 hh with hh | hh
    · exact owned_of_perform (hinv.owned h hh) hperform
    · obtain rfl := List.mem_singleton.1 hh
      intro p hp
      obtain rfl := List.mem_singleton.1 hp
      exact ⟨.enter (.acquire r), by simp [Capacity.State.spawn], rfl⟩
  · intro i j h h' hi hj hij a c c' hmem hmem'
    rcases TaskPool.getElem?_append_cases hi with ⟨rfl, rfl⟩ | hi
    · cases List.mem_singleton.1 hmem
      rcases TaskPool.getElem?_append_cases hj with ⟨rfl, rfl⟩ | hj
      · exact hij rfl
      · exact absurd (hinv.lt_of_mem_calls (List.mem_of_getElem? hj) hmem') (Nat.lt_irrefl _)
    · rcases TaskPool.getElem?_append_cases hj with ⟨rfl, rfl⟩ | hj
      · cases List.mem_singleton.1 hmem'
        exact absurd (hinv.lt_of_mem_calls (List.mem_of_getElem? hi) hmem) (Nat.lt_irrefl _)
      · exact hinv.apart i j h h' hi hj hij a c c' hmem hmem'

/-- The action of a request is none on the tasks of another. -/
theorem Inv.actor_ne (hinv : Inv s) {i j : ℕ} {h h' : Handler} (hi : s.handlers[i]? = some h)
    (hj : s.handlers[j]? = some h') (hij : i ≠ j) {m : Move} {e : Effect}
    (hturn : Turn s.tracker h m e) :
    ∀ act, e.action = some act → ∀ a c, (a, c) ∈ h'.calls → act.actor ≠ some a := by
  intro act hact a c hmem hactor
  rcases action_of_turn hturn hact with rfl | ⟨b, d, hb, hb'⟩
  · cases hactor
  · obtain rfl := Option.some.inj (hactor.symm.trans hb')
    exact hinv.apart i j h h' hi hj hij a d c hb hmem

theorem inv_move (hinv : Inv s) {i : ℕ} {h : Handler} (hi : s.handlers[i]? = some h) {m : Move}
    {e : Effect} (hturn : Turn s.tracker h m e) {tracker : Capacity.State}
    (hperform : perform cfg s.tracker e.action = some tracker) : Inv (s.moved i h e tracker) := by
  have hown := hinv.owned h (List.mem_of_getElem? hi)
  -- a task that is new belongs to no other request
  have hnew : ∀ {j : ℕ} {h' : Handler}, s.handlers[j]? = some h' → i ≠ j → ∀ a c c',
      (a, c) ∈ ({ h with phase := e.phase } : Handler).calls → (a, c') ∉ h'.calls := by
    intro j h' hj hij a c c' hmem hmem'
    rcases calls_of_turn hturn hmem with hmem | ⟨-, heq⟩
    · exact hinv.apart i j h h' hi hj hij a c c' hmem hmem'
    · cases heq
      exact absurd (hinv.lt_of_mem_calls (List.mem_of_getElem? hj) hmem') (Nat.lt_irrefl _)
  refine ⟨mapped_of_turn hinv.mapped hturn hperform, ?_, ?_⟩
  · intro h' hh'
    rcases List.mem_or_eq_of_mem_set hh' with hh' | rfl
    · exact owned_of_perform (hinv.owned h' hh') hperform
    · exact owned_of_turn hown hturn hperform
  · intro j l h₁ h₂ hj hl hjl a c c' hmem hmem'
    rcases TaskPool.getElem?_set_cases hj with ⟨rfl, rfl⟩ | ⟨hij, hj⟩
    · rcases TaskPool.getElem?_set_cases hl with ⟨rfl, rfl⟩ | ⟨hil, hl⟩
      · exact hjl rfl
      · exact hnew hl hil a c c' hmem hmem'
    · rcases TaskPool.getElem?_set_cases hl with ⟨rfl, rfl⟩ | ⟨hil, hl⟩
      · exact hnew hj hij a c' c hmem' hmem
      · exact hinv.apart j l h₁ h₂ hj hl hjl a c c' hmem hmem'

/-- A move and what it comes to. -/
theorem exists_turn_of_step {i : ℕ} {m : Move} (hstep : step cfg s (.move i m) = some s') :
    ∃ h e tracker, s.handlers[i]? = some h ∧ Turn s.tracker h m e ∧
      perform cfg s.tracker e.action = some tracker ∧ s' = s.moved i h e tracker := by
  obtain ⟨h, hi, hstep⟩ := Option.bind_eq_some_iff.1 hstep
  obtain ⟨e, hnext, hstep⟩ := Option.bind_eq_some_iff.1 hstep
  obtain ⟨tracker, hperform, rfl⟩ := Option.map_eq_some_iff.1 hstep
  exact ⟨h, e, tracker, hi, turn_of_next hnext, hperform, rfl⟩

theorem inv_step (hinv : Inv s) {act : Act} (hstep : step cfg s act = some s') : Inv s' := by
  cases act with
  | request r stream => exact inv_request hinv hstep
  | move i m =>
      obtain ⟨h, e, tracker, hi, hturn, hperform, rfl⟩ := exists_turn_of_step hstep
      exact inv_move hinv hi hturn hperform

end

end CapacityTelemetry
