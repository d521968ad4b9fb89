/-
**The completion of a response stream.**

`sse_from_pending_with_guard` (`src/consumer/sse.rs`) puts the capacity guard of a request and the
callback `on_complete` into an `SseStreamCompletion`, which the response stream owns.  Two arms of
the loop of the stream call `fire` and then leave the loop, behind which `fire` is called once more;
the deadline and the end of the channel come to the second call only; and when the client goes away
the stream is dropped wherever it is suspended, and with it the completion, whose `Drop` does what
`fire` would have done.  The callback asks the capacity tracker for a snapshot.

This module has every call of `fire` and the `Drop` step by step, the drop of the guard as the steps
of its task at the tracker, and the other tasks of the tracker in between.  Frames come as they
like, and the deadline passes whenever the stream looks at it or waits.

Main definitions:

* `SseOnce.SseStreamCompletion`, `SseOnce.State.complete` — the completion, and the steps of `fire`
  and of `Drop::drop`;
* `SseOnce.State`, `SseOnce.step` — the stream with its completion, and the tracker;
* `SseOnce.Once` — the callback runs once, behind the drop of the guard, and finds it not counted.

Main results:

* `SseOnce.AtStage.complete`, `SseOnce.completes_of_complete` — **what one step of `fire` or of
  `Drop::drop` keeps, and what it does**;
* `SseOnce.Inv.step` — every step keeps the invariant;
* `SseOnce.exists_onComplete` — what has begun to complete comes to the callback by itself;
* `SseOnce.once` — **the completion fires exactly once and in order**.
-/

import SparklRouter.Capacity.Accounting
import SparklRouter.Capacity.Release
import SparklRouter.Consumer.Sse

set_option relaxedAutoImplicit false
set_option autoImplicit false

namespace SseOnce

open Capacity (ModelCapacityKey TaskId InRange CountsLive)
open Sse (ParsedUsage SseEvent)
open Tunnel (InboundFrame)
open Transition

/-! ### The stream and its completion -/

/-- What has happened to the parts of the completion. -/
inductive Event
  | guardDropped
  | onComplete (usage : Option ParsedUsage) (bytes : ℕ) (hasSparkl : Bool)
deriving DecidableEq

/-- Which of its parts the completion still has, and whether it has fired. -/
structure SseStreamCompletion where
  guard : Bool
  onComplete : Bool
  fired : Bool
deriving DecidableEq

/-- How far a call of `fire` or of `Drop::drop` has come. -/
inductive Stage
  /-- About to look at `fired`. -/
  | enter
  /-- Within `guard.take()`, which drops the guard. -/
  | guard
  /-- About to `on_complete.take()`. -/
  | take
  /-- Within the callback, whose snapshot is this task of the tracker. -/
  | callback (snapshot : TaskId)
deriving DecidableEq

/-- What follows a `yield`. -/
inductive Resume
  /-- A chunk: back to the loop. -/
  | loop
  /-- An `Error` frame: `fire_complete` and out of the loop. -/
  | fire
  /-- The deadline: out of the loop. -/
  | leave
deriving DecidableEq

/-- Who completes. -/
inductive Caller
  /-- `fire_complete` in an arm of the loop. -/
  | arm
  /-- `fire_complete` behind the loop. -/
  | last
  /-- `Drop::drop`. -/
  | drop
deriving DecidableEq

/-- `fire` marks the completion as fired, and `Drop::drop` does not. -/
def Caller.marks : Caller → Bool
  | .arm | .last => true
  | .drop => false

/-- Where the stream stands. -/
inductive Pc
  | unpolled
  /-- At the head of the loop, about to compute the time that remains. -/
  | head
  /-- Waiting for a frame or the deadline. -/
  | receiving
  | yielded (resume : Resume)
  | completing (caller : Caller) (stage : Stage)
  /-- The stream has come to its end. -/
  | returned
  /-- The stream has been dropped. -/
  | gone
deriving DecidableEq

/-- Where the stream goes on. -/
def Caller.returns : Caller → Pc
  | .arm => .completing .last .enter
  | .last => .returned
  | .drop => .gone

/-- Where the stream stands when the call is at a next stage, or has returned. -/
def Caller.pc (caller : Caller) : Option Stage → Pc
  | some stage => .completing caller stage
  | none => caller.returns

/-- Whether the stream can be dropped there: it is not running. -/
def Pc.suspended : Pc → Bool
  | .unpolled | .receiving | .yielded _ | .returned => true
  | .head | .completing _ _ | .gone => false

structure State where
  tracker : Capacity.State
  accumulated : Text
  latestUsage : Option ParsedUsage
  yielded : List SseEvent
  completion : SseStreamCompletion
  log : List Event
  pc : Pc

/-- The request: the task its guard is at the tracker, and what the callback asks about. -/
structure Request where
  guard : TaskId
  key : ModelCapacityKey
  concurrency : UInt32

def start (tracker : Capacity.State) : State :=
  ⟨tracker, [], none, [], ⟨true, true, false⟩, [], .unpolled⟩

/-- What the scheduler can do. -/
inductive Act
  /-- Another task of the tracker. -/
  | other (act : Capacity.Action)
  /-- The stream goes on, within a poll or by a new one, or its drop does. -/
  | next
  | recv (frame : InboundFrame)
  /-- The bridge task has closed the channel. -/
  | closed
  | deadline
  /-- The stream is dropped. -/
  | drop
deriving DecidableEq

section

variable (cfg : Sharding ModelCapacityKey) (req : Request)

/-- One step of `fire` or of `Drop::drop`.  It has returned when there is no next stage. -/
def State.complete (marks : Bool) (call : Event) (s : State) : Stage → Option (State × Option Stage)
  | .enter =>
      if s.completion.fired then some (s, none)
      else if s.completion.guard then
        (Capacity.step cfg s.tracker (.dropGuard req.guard)).map fun tracker =>
          ({ s with
              tracker := tracker
              completion := { s.completion with fired := marks, guard := false } }, some .guard)
      else some ({ s with completion := { s.completion with fired := marks } }, some .take)
  | .guard =>
      if s.tracker.tasks[req.guard]? = some .released then
        some ({ s with log := s.log ++ [.guardDropped] }, some .take)
      else
        (Capacity.step cfg s.tracker (.step req.guard)).map fun tracker =>
          ({ s with tracker := tracker }, some .guard)
  | .take =>
      if s.completion.onComplete then
        -- the callback begins with a snapshot of the tracker
        some ({ s with
                completion := { s.completion with onComplete := false }
                log := s.log ++ [call]
                tracker := s.tracker.spawn
                  (.enter (.snapshotWithConcurrency req.key req.concurrency)) },
              some (.callback s.tracker.tasks.length))
      else some (s, none)
  | .callback j =>
      match s.tracker.tasks[j]? with
      | some (.snapped _) => some (s, none)
      | _ =>
          (Capacity.step cfg s.tracker (.step j)).map fun tracker =>
            ({ s with tracker := tracker }, some (.callback j))

variable (extractUsage : Text → Option ParsedUsage)

/-- The call of the callback, with its arguments. -/
def State.call (s : State) : Caller → Event
  | .arm | .last =>
      .onComplete (s.latestUsage.orElse fun _ => extractUsage s.accumulated)
        (Text.utf8Len s.accumulated) (Sse.hasSparkl s.accumulated)
  | .drop => .onComplete none 0 false

/-- The arm of the loop for a frame. -/
def State.frame (s : State) : InboundFrame → State
  | .chunk data =>
      let accumulated := s.accumulated ++ data
      { s with
        accumulated := accumulated
        latestUsage := (extractUsage accumulated).orElse fun _ => s.latestUsage
        yielded := s.yielded ++ [.data data]
        pc := .yielded .loop }
  | .endFrame _ => { s with pc := .completing .arm .enter }
  | .error _ message =>
      { s with yielded := s.yielded ++ [.error message], pc := .yielded .fire }
  | .response _ _ | .activateResponse _ => { s with pc := .head }

/-- The stream, or its drop, goes on. -/
def State.next (s : State) : Option State :=
  match s.pc with
  | .unpolled => some { s with pc := .head }
  | .head => some { s with pc := .receiving }
  | .yielded .loop => some { s with pc := .head }
  | .yielded .fire => some { s with pc := .completing .arm .enter }
  | .yielded .leave => some { s with pc := .completing .last .enter }
  | .completing caller stage =>
      (s.complete cfg req caller.marks (s.call extractUsage caller) stage).map fun p =>
        { p.1 with pc := caller.pc p.2 }
  | .receiving | .returned | .gone => none

/-- **The transition function.**  The guard is owned by the completion, so the others do not touch
it. -/
def step (s : State) : Act → Option State
  | .other act =>
      if act.actor = some req.guard then none
      else (Capacity.step cfg s.tracker act).map fun tracker => { s with tracker := tracker }
  | .next => s.next cfg req extractUsage
  | .recv frame => if s.pc = .receiving then some (s.frame extractUsage frame) else none
  | .closed => if s.pc = .receiving then some { s with pc := .completing .last .enter } else none
  | .deadline =>
      if s.pc = .head ∨ s.pc = .receiving then
        some { s with yielded := s.yielded ++ [.timeout], pc := .yielded .leave }
      else none
  | .drop => if s.pc.suspended then some { s with pc := .completing .drop .enter } else none

end

/-! ### What has become of the completion -/

/-- What has become of the parts of the completion. -/
inductive Phase
  /-- Nothing yet. -/
  | fresh
  /-- The guard is being dropped. -/
  | dropping
  /-- The guard has been dropped. -/
  | dropped
  /-- The callback has been called. -/
  | called

def Phase.completion (marks : Bool) : Phase → SseStreamCompletion
  | .fresh => ⟨true, true, false⟩
  | .dropping | .dropped => ⟨false, true, marks⟩
  | .called => ⟨false, false, marks⟩

def Phase.Log : Phase → List Event → Prop
  | .fresh, log | .dropping, log => log = []
  | .dropped, log => log = [.guardDropped]
  | .called, log => ∃ usage bytes sparkl, log = [.guardDropped, .onComplete usage bytes sparkl]

/-- What the guard is at the tracker. -/
def Phase.Guard : Phase → Capacity.Task → Prop
  | .fresh, t => t.isGuard = true
  | .dropping, t => ∃ n, t.dropSteps = some n
  | .dropped, t | .called, t => t = .released

theorem Phase.awake {ph : Phase} {t : Capacity.Task} (h : ph.Guard t) : t.Awake := by
  cases ph with
  | fresh => exact Capacity.awake_of_isGuard h
  | dropping => exact h.elim fun _ => Capacity.awake_of_dropSteps
  | dropped => exact Capacity.awake_of_dropSteps (n := 0) (by rw [h]; rfl)
  | called => exact Capacity.awake_of_dropSteps (n := 0) (by rw [h]; rfl)

/-- The completion is in the phase. -/
structure In (req : Request) (marks : Bool) (ph : Phase) (s : State) : Prop where
  completion : s.completion = ph.completion marks
  log : ph.Log s.log
  guard : ∃ t, s.tracker.tasks[req.guard]? = some t ∧ ph.Guard t

/-- The phases at a stage of `fire` or of `Drop::drop`: a completion that is entered is untouched or
has fired. -/
def AtStage (req : Request) (marks : Bool) (s : State) : Stage → Prop
  | .enter => In req marks .fresh s ∨ In req true .called s
  | .guard => In req marks .dropping s
  | .take => In req marks .dropped s
  | .callback j => In req marks .called s ∧ j ≠ req.guard

def AtPc (req : Request) (s : State) : Pc → Prop
  | .unpolled | .head | .receiving | .yielded _ => In req true .fresh s
  | .completing caller stage => AtStage req caller.marks s stage
  | .returned => In req true .called s
  | .gone => ∃ marks, In req marks .called s

/-- **The invariant.** -/
structure Inv (req : Request) (s : State) : Prop where
  range : InRange s.tracker
  here : AtPc req s s.pc

section

variable {cfg : Sharding ModelCapacityKey} {req : Request}
  {extractUsage : Text → Option ParsedUsage} {s s' : State} {marks : Bool}

/-- A step of another task of the tracker changes no phase. -/
theorem In.tracker {ph : Phase} (h : In req marks ph s) {act : Capacity.Action}
    {tracker : Capacity.State} (hstep : Capacity.step cfg s.tracker act = some tracker)
    (hact : act.actor ≠ some req.guard) : In req marks ph { s with tracker := tracker } := by
  obtain ⟨t, ht, hguard⟩ := h.guard
  have hsame := Capacity.getElem?_of_step_other ht (Phase.awake hguard) hact hstep
  exact ⟨h.completion, h.log, t, hsame, hguard⟩

/-- The end of `fire` or of `Drop::drop`, or its next stage. -/
def Left (req : Request) (marks : Bool) (s : State) : Option Stage → Prop
  | some stage => AtStage req marks s stage
  | none => ∃ m, (m = true ∨ m = marks) ∧ In req m .called s

/-- **What one step of `fire` or of `Drop::drop` keeps**: the guard is dropped before the callback
is taken, and both once. -/
theorem AtStage.complete {stage : Stage} {call : Event} {next : Option Stage}
    (h : AtStage req marks s stage) (hrange : InRange s.tracker)
    (hcall : ∃ usage bytes sparkl, call = .onComplete usage bytes sparkl)
    (hstep : s.complete cfg req marks call stage = some (s', next)) : Left req marks s' next := by
  cases stage with
  | enter =>
      rcases h with h | h
      · -- untouched: the guard is dropped first
        obtain ⟨t, ht, hguard⟩ := h.guard
        obtain ⟨tracker, t', n, hdrop, ht', hsteps⟩ :=
          Capacity.step_dropGuard cfg ht hguard
        simp only [State.complete, h.completion, Phase.completion, Bool.false_eq_true, if_false,
          if_true, hdrop, Option.map_some] at hstep
        obtain ⟨rfl, rfl⟩ := Prod.mk.inj (Option.some.inj hstep)
        exact ⟨rfl, h.log, t', ht', n, hsteps⟩
      · -- fired before: nothing is left to do
        simp only [State.complete, h.completion, Phase.completion, if_true] at hstep
        obtain ⟨rfl, rfl⟩ := Prod.mk.inj (Option.some.inj hstep)
        exact ⟨true, Or.inl rfl, h⟩
  | guard =>
      obtain ⟨t, ht, n, hsteps⟩ := h.guard
      rw [State.complete] at hstep
      split at hstep
      · rename_i hreleased
        obtain ⟨rfl, rfl⟩ := Prod.mk.inj (Option.some.inj hstep)
        refine ⟨h.completion, ?_, .released, hreleased, rfl⟩
        rw [h.log]
        rfl
      · rename_i hreleased
        obtain ⟨tracker, htracker, heq⟩ := Option.map_eq_some_iff.1 hstep
        obtain ⟨rfl, rfl⟩ := Prod.mk.inj heq
        obtain ⟨m, rfl⟩ : ∃ m, n = m + 1 := by
          refine Nat.exists_eq_succ_of_ne_zero fun hzero => hreleased ?_
          have hlast : t = .released := Capacity.eq_released_of_dropSteps (hzero ▸ hsteps)
          rw [ht, hlast]
        obtain ⟨tracker', t', k, hown, ht', hsteps', -⟩ :=
          Capacity.step_of_dropSteps cfg hrange ht hsteps
        obtain rfl := Option.some.inj (hown.symm.trans htracker)
        exact ⟨h.completion, h.log, t', ht', k, hsteps'⟩
  | take =>
      obtain ⟨t, ht, rfl⟩ := h.guard
      simp only [State.complete, h.completion, Phase.completion, if_true] at hstep
      obtain ⟨rfl, rfl⟩ := Prod.mk.inj (Option.some.inj hstep)
      obtain ⟨usage, bytes, sparkl, rfl⟩ := hcall
      refine ⟨⟨rfl, ⟨usage, bytes, sparkl, ?_⟩, .released, ?_, rfl⟩, ?_⟩
      · rw [h.log]
        rfl
      · exact TaskPool.getElem?_append_of ht
      · exact (Nat.ne_of_lt (List.getElem?_eq_some_iff.1 ht).1).symm
  | callback j =>
      rw [State.complete] at hstep
      split at hstep
      · obtain ⟨rfl, rfl⟩ := Prod.mk.inj (Option.some.inj hstep)
        exact ⟨marks, Or.inr rfl, h.1⟩
      · obtain ⟨tracker, htracker, heq⟩ := Option.map_eq_some_iff.1 hstep
        obtain ⟨rfl, rfl⟩ := Prod.mk.inj heq
        refine ⟨h.1.tracker htracker ?_, h.2⟩
        exact fun hj => h.2 (Option.some.inj hj)

/-- What a step of `fire` or of `Drop::drop` does to the rest: nothing to the text of the stream, at
most one step to the tracker, and at most one entry to the log. -/
structure Completes (cfg : Sharding ModelCapacityKey) (call : Event) (stage : Stage)
    (s s' : State) : Prop where
  accumulated : s'.accumulated = s.accumulated
  latestUsage : s'.latestUsage = s.latestUsage
  yielded : s'.yielded = s.yielded
  tracker : s'.tracker = s.tracker ∨
    ∃ act, Capacity.step cfg s.tracker act = some s'.tracker
  log : s'.log = s.log ∨ s'.log = s.log ++ [.guardDropped] ∨
    stage = .take ∧ s'.log = s.log ++ [call]

theorem completes_of_complete {stage : Stage} {call : Event} {next : Option Stage}
    (hstep : s.complete cfg req marks call stage = some (s', next)) :
    Completes cfg call stage s s' := by
  have hsame : Completes cfg call stage s s := ⟨rfl, rfl, rfl, Or.inl rfl, Or.inl rfl⟩
  cases stage with
  | enter =>
      rw [State.complete] at hstep
      split at hstep
      · obtain ⟨rfl, -⟩ := Prod.mk.inj (Option.some.inj hstep)
        exact hsame
      · split at hstep
        · obtain ⟨tracker, htracker, heq⟩ := Option.map_eq_some_iff.1 hstep
          obtain ⟨rfl, -⟩ := Prod.mk.inj heq
          exact ⟨rfl, rfl, rfl, Or.inr ⟨_, htracker⟩, Or.inl rfl⟩
        · obtain ⟨rfl, -⟩ := Prod.mk.inj (Option.some.inj hstep)
          exact ⟨rfl, rfl, rfl, Or.inl rfl, Or.inl rfl⟩
  | guard =>
      rw [State.complete] at hstep
      split at hstep
      · obtain ⟨rfl, -⟩ := Prod.mk.inj (Option.some.inj hstep)
        exact ⟨rfl, rfl, rfl, Or.inl rfl, Or.inr (Or.inl rfl)⟩
      · obtain ⟨tracker, htracker, heq⟩ := Option.map_eq_some_iff.1 hstep
        obtain ⟨rfl, -⟩ := Prod.mk.inj heq
        exact ⟨rfl, rfl, rfl, Or.inr ⟨_, htracker⟩, Or.inl rfl⟩
  | take =>
      rw [State.complete] at hstep
      split at hstep
      · obtain ⟨rfl, -⟩ := Prod.mk.inj (Option.some.inj hstep)
        -- the callback begins with a call at the tracker
        have hcall : Capacity.step cfg s.tracker
            (.call (.snapshotWithConcurrency req.key req.concurrency)) = some _ := rfl
        exact ⟨rfl, rfl, rfl, Or.inr ⟨_, hcall⟩, Or.inr (Or.inr ⟨rfl, rfl⟩)⟩
      · obtain ⟨rfl, -⟩ := Prod.mk.inj (Option.some.inj hstep)
        exact hsame
  | callback j =>
      rw [State.complete] at hstep
      split at hstep
      · obtain ⟨rfl, -⟩ := Prod.mk.inj (Option.some.inj hstep)
        exact hsame
      · obtain ⟨tracker, htracker, heq⟩ := Option.map_eq_some_iff.1 hstep
        obtain ⟨rfl, -⟩ := Prod.mk.inj heq
        exact ⟨rfl, rfl, rfl, Or.inr ⟨_, htracker⟩, Or.inl rfl⟩

theorem Completes.range {stage : Stage} {call : Event} (h : Completes cfg call stage s s')
    (hrange : InRange s.tracker) : InRange s'.tracker := by
  rcases h.tracker with hsame | ⟨act, hstep⟩
  · rw [hsame]
    exact hrange
  · exact Capacity.inRange_step hrange hstep

theorem exists_call (extractUsage : Text → Option ParsedUsage) (s : State) (caller : Caller) :
    ∃ usage bytes sparkl, s.call extractUsage caller = .onComplete usage bytes sparkl := by
  cases caller with
  | arm => exact ⟨_, _, _, rfl⟩
  | last => exact ⟨_, _, _, rfl⟩
  | drop => exact ⟨_, _, _, rfl⟩

/-! ### The invariant -/

/-- What keeps every phase keeps what holds at every point. -/
theorem AtPc.imp {pc : Pc} (h : AtPc req s pc)
    (hin : ∀ m ph, In req m ph s → In req m ph s') : AtPc req s' pc := by
  cases pc with
  | completing caller stage =>
      cases stage with
      | enter => exact Or.imp (hin _ _) (hin _ _) h
      | guard => exact hin _ _ h
      | take => exact hin _ _ h
      | callback j => exact And.imp_left (hin _ _) h
  | gone => exact Exists.imp (fun m => hin m _) h
  | unpolled => exact hin _ _ h
  | head => exact hin _ _ h
  | receiving => exact hin _ _ h
  | yielded resume => exact hin _ _ h
  | returned => exact hin _ _ h

/-- A step of another task of the tracker changes nothing at any point. -/
theorem AtPc.tracker {pc : Pc} (h : AtPc req s pc) {act : Capacity.Action}
    {tracker : Capacity.State} (hstep : Capacity.step cfg s.tracker act = some tracker)
    (hact : act.actor ≠ some req.guard) : AtPc req { s with tracker := tracker } pc :=
  h.imp fun _ _ h => h.tracker hstep hact

/-- What the stream itself does changes no phase. -/
theorem In.of_same {ph : Phase} (h : In req marks ph s) (hcompletion : s'.completion = s.completion)
    (hlog : s'.log = s.log) (htracker : s'.tracker = s.tracker) : In req marks ph s' := by
  refine ⟨hcompletion.trans h.completion, hlog ▸ h.log, ?_⟩
  rw [htracker]
  exact h.guard

theorem AtPc.of_same {pc : Pc} (h : AtPc req s pc) (hcompletion : s'.completion = s.completion)
    (hlog : s'.log = s.log) (htracker : s'.tracker = s.tracker) : AtPc req s' pc :=
  h.imp fun _ _ h => h.of_same hcompletion hlog htracker

/-- An untouched completion can be entered by everyone. -/
theorem In.enter (h : In req true .fresh s) (caller : Caller) :
    AtPc req s (.completing caller .enter) :=
  Or.inl ⟨h.completion, h.log, h.guard⟩

/-- Where the stream goes on after `fire` or `Drop::drop`. -/
theorem atPc_returns {caller : Caller} (h : Left req caller.marks s none) :
    AtPc req s caller.returns := by
  obtain ⟨m, hm, h⟩ := h
  cases caller with
  | arm =>
      obtain rfl : m = true := hm.elim id id
      exact Or.inr h
  | last =>
      obtain rfl : m = true := hm.elim id id
      exact h
  | drop => exact ⟨m, h⟩

/-- The stream has moved on to another point. -/
theorem Inv.move (h : Inv req s) (hcompletion : s'.completion = s.completion)
    (hlog : s'.log = s.log) (htracker : s'.tracker = s.tracker) (hpc : AtPc req s s'.pc) :
    Inv req s' :=
  ⟨htracker ▸ h.range, hpc.of_same hcompletion hlog htracker⟩

theorem Inv.next (h : Inv req s) (hstep : s.next cfg req extractUsage = some s') : Inv req s' := by
  have hhere := h.here
  unfold State.next at hstep
  split at hstep
  · rename_i hpc
    obtain rfl := Option.some.inj hstep
    rw [hpc] at hhere
    exact h.move rfl rfl rfl hhere
  · rename_i hpc
    obtain rfl := Option.some.inj hstep
    rw [hpc] at hhere
    exact h.move rfl rfl rfl hhere
  · rename_i hpc
    obtain rfl := Option.some.inj hstep
    rw [hpc] at hhere
    exact h.move rfl rfl rfl hhere
  · rename_i hpc
    obtain rfl := Option.some.inj hstep
    rw [hpc] at hhere
    exact h.move rfl rfl rfl (In.enter hhere .arm)
  · rename_i hpc
    obtain rfl := Option.some.inj hstep
    rw [hpc] at hhere
    exact h.move rfl rfl rfl (In.enter hhere .last)
  · rename_i caller stage hpc
    obtain ⟨⟨s₁, next⟩, hcomplete, rfl⟩ := Option.map_eq_some_iff.1 hstep
    rw [hpc] at hhere
    have hleft := hhere.complete h.range (exists_call extractUsage s caller) hcomplete
    have hrange := (completes_of_complete hcomplete).range h.range
    cases next with
    | some stage' =>
        have hat : AtPc req s₁ (.completing caller stage') := hleft
        exact ⟨hrange, hat.of_same rfl rfl rfl⟩
    | none => exact ⟨hrange, (atPc_returns hleft).of_same rfl rfl rfl⟩
  · cases hstep
  · cases hstep
  · cases hstep

theorem Inv.frame (h : Inv req s) (hpc : s.pc = .receiving) (frame : InboundFrame) :
    Inv req (s.frame extractUsage frame) := by
  have hhere := h.here
  rw [hpc] at hhere
  cases frame with
  | chunk data => exact h.move rfl rfl rfl hhere
  | endFrame status => exact h.move rfl rfl rfl (In.enter hhere .arm)
  | error code message => exact h.move rfl rfl rfl hhere
  | response status headers => exact h.move rfl rfl rfl hhere
  | activateResponse apiKey => exact h.move rfl rfl rfl hhere

/-- **Every step keeps the invariant.** -/
theorem Inv.step {act : Act} (h : Inv req s)
    (hstep : SseOnce.step cfg req extractUsage s act = some s') : Inv req s' := by
  have hhere := h.here
  cases act with
  | other act =>
      rw [SseOnce.step] at hstep
      split at hstep
      · cases hstep
      · rename_i hact
        obtain ⟨tracker, htracker, rfl⟩ := Option.map_eq_some_iff.1 hstep
        exact ⟨Capacity.inRange_step h.range htracker, hhere.tracker htracker hact⟩
  | next => exact h.next hstep
  | recv frame =>
      rw [SseOnce.step] at hstep
      split at hstep
      · rename_i hpc
        obtain rfl := Option.some.inj hstep
        exact h.frame hpc frame
      · cases hstep
  | closed =>
      rw [SseOnce.step] at hstep
      split at hstep
      · rename_i hpc
        obtain rfl := Option.some.inj hstep
        rw [hpc] at hhere
        exact h.move rfl rfl rfl (In.enter hhere .last)
      · cases hstep
  | deadline =>
      rw [SseOnce.step] at hstep
      split at hstep
      · rename_i hpc
        obtain rfl := Option.some.inj hstep
        rcases hpc with hpc | hpc <;> rw [hpc] at hhere <;> exact h.move rfl rfl rfl hhere
      · cases hstep
  | drop =>
      rw [SseOnce.step] at hstep
      split at hstep
      · rename_i hsuspended
        obtain rfl := Option.some.inj hstep
        refine h.move rfl rfl rfl ?_
        cases hpc : s.pc with
        | unpolled =>
            rw [hpc] at hhere
            exact In.enter hhere .drop
        | receiving =>
            rw [hpc] at hhere
            exact In.enter hhere .drop
        | yielded resume =>
            rw [hpc] at hhere
            exact In.enter hhere .drop
        | returned =>
            rw [hpc] at hhere
            exact Or.inr hhere
        | head =>
            rw [hpc] at hsuspended
            cases hsuspended
        | completing caller stage =>
            rw [hpc] at hsuspended
            cases hsuspended
        | gone =>
            rw [hpc] at hsuspended
            cases hsuspended
      · cases hstep

/-- The request has been admitted, and the tracker is in any state that it can come to. -/
theorem inv_start {tracker : Capacity.State} {t : Capacity.Task}
    (hreach : Reachable (Capacity.step cfg) Capacity.init tracker)
    (ht : tracker.tasks[req.guard]? = some t) (hguard : t.isGuard = true) :
    Inv req (start tracker) := by
  have hrange : InRange tracker :=
    hreach.invariant Capacity.inRange_init fun s act s' h hstep => Capacity.inRange_step h hstep
  exact ⟨hrange, rfl, rfl, t, ht, hguard⟩

/-! ### The way to the callback -/

/-- A bound on the steps that are ahead before the callback. -/
def State.ahead (req : Request) (s : State) : Stage → ℕ
  | .enter => 6
  | .guard => 2 + ((s.tracker.tasks[req.guard]?).bind Capacity.Task.dropSteps).getD 0
  | .take => 1
  | .callback _ => 0

/-- What has begun to complete goes on by itself until the callback has been called. -/
theorem next_of_completing (cfg : Sharding ModelCapacityKey)
    (extractUsage : Text → Option ParsedUsage) (h : Inv req s) {caller : Caller} {stage : Stage}
    (hpc : s.pc = .completing caller stage) :
    (∃ usage bytes sparkl, s.log = [.guardDropped, .onComplete usage bytes sparkl]) ∨
      ∃ s' stage', step cfg req extractUsage s .next = some s' ∧
        s'.pc = .completing caller stage' ∧ s'.ahead req stage' < s.ahead req stage := by
  have hhere := h.here
  rw [hpc] at hhere
  have hgo : ∀ {s₁ stage'}, s.complete cfg req caller.marks (s.call extractUsage caller) stage =
      some (s₁, some stage') → s₁.ahead req stage' < s.ahead req stage →
      ∃ s' stage', step cfg req extractUsage s .next = some s' ∧
        s'.pc = .completing caller stage' ∧ s'.ahead req stage' < s.ahead req stage := by
    intro s₁ stage' hcomplete hlt
    refine ⟨{ s₁ with pc := .completing caller stage' }, stage', ?_, rfl, hlt⟩
    rw [step, State.next, hpc]
    dsimp only
    rw [hcomplete]
    rfl
  cases stage with
  | enter =>
      rcases hhere with hfresh | hcalled
      · obtain ⟨t, ht, hguard⟩ := hfresh.guard
        obtain ⟨tracker, t', n, hdrop, ht', hsteps⟩ :=
          Capacity.step_dropGuard cfg ht hguard
        have hcomplete : s.complete cfg req caller.marks (s.call extractUsage caller) .enter =
            some ({ s with tracker := tracker, completion := ⟨false, true, caller.marks⟩ },
              some .guard) := by
          simp only [State.complete, hfresh.completion, Phase.completion, Bool.false_eq_true,
            if_false, if_true, hdrop, Option.map_some]
        have hle := Capacity.dropSteps_le hsteps
        refine Or.inr (hgo hcomplete ?_)
        simp only [State.ahead, ht', Option.bind_some, hsteps, Option.getD_some]
        omega
      · exact Or.inl hcalled.log
  | guard =>
      obtain ⟨t, ht, n, hsteps⟩ := hhere.guard
      cases n with
      | zero =>
          obtain rfl := Capacity.eq_released_of_dropSteps hsteps
          have hcomplete : s.complete cfg req caller.marks (s.call extractUsage caller) .guard =
              some ({ s with log := s.log ++ [.guardDropped] }, some .take) := by
            rw [State.complete, if_pos ht]
          refine Or.inr (hgo hcomplete ?_)
          simp only [State.ahead]
          omega
      | succ n =>
          obtain ⟨tracker, t', m, hown, ht', hsteps', hle⟩ :=
            Capacity.step_of_dropSteps cfg h.range ht hsteps
          have hnot : s.tracker.tasks[req.guard]? ≠ some .released := by
            intro hreleased
            obtain rfl := Option.some.inj (ht.symm.trans hreleased)
            cases hsteps
          have hcomplete : s.complete cfg req caller.marks (s.call extractUsage caller) .guard =
              some ({ s with tracker := tracker }, some .guard) := by
            rw [State.complete, if_neg hnot, hown, Option.map_some]
          refine Or.inr (hgo hcomplete ?_)
          simp only [State.ahead, ht, ht', Option.bind_some, hsteps, hsteps', Option.getD_some]
          omega
  | take =>
      have htake : s.completion.onComplete = true := by
        rw [hhere.completion]
        rfl
      exact Or.inr (hgo (if_pos htake) Nat.zero_lt_one)
  | callback j => exact Or.inl hhere.1.log

/-- **What has begun to complete comes to the callback by itself.** -/
theorem exists_onComplete (cfg : Sharding ModelCapacityKey)
    (extractUsage : Text → Option ParsedUsage) (h : Inv req s) {caller : Caller} {stage : Stage}
    (hpc : s.pc = .completing caller stage) :
    ∃ n s', run (step cfg req extractUsage) s (List.replicate n .next) = some s' ∧
      ∃ usage bytes sparkl, s'.log = [.guardDropped, .onComplete usage bytes sparkl] := by
  induction hahead : s.ahead req stage using Nat.strong_induction_on generalizing s stage with
  | _ k ih =>
      rcases next_of_completing cfg extractUsage h hpc with hlog | ⟨s', stage', hstep, hpc', hlt⟩
      · exact ⟨0, s, rfl, hlog⟩
      · obtain ⟨n, s'', hrun, hlog⟩ := ih _ (hahead ▸ hlt) (h.step hstep) hpc' rfl
        refine ⟨n + 1, s'', ?_, hlog⟩
        rw [List.replicate_succ, run_cons _ hstep]
        exact hrun

end

/-! ### Exactly once -/

/-- The guard has been dropped, and then the callback has been called. -/
def Completed (s : State) : Prop :=
  ∃ usage bytes sparkl, s.log = [.guardDropped, .onComplete usage bytes sparkl]

/-- The guards of the others that are alive and were issued from the slot. -/
def othersLive (req : Request) (tracker : Capacity.State) (a : Capacity.SlotId) : ℕ :=
  TaskPool.total (TaskPool.indicator (Capacity.Task.live a)) (tracker.tasks.eraseIdx req.guard)

/-- **The completion fires exactly once and in order.** -/
structure Once (cfg : Sharding ModelCapacityKey) (req : Request)
    (extractUsage : Text → Option ParsedUsage) (s : State) : Prop where
  /-- The guard is dropped at most once, and behind that the callback called at most once. -/
  order : ∃ usage bytes sparkl, s.log <+: [.guardDropped, .onComplete usage bytes sparkl]
  /-- Neither does the stream come to its end without them, nor does it go away. -/
  done : s.pc = .returned ∨ s.pc = .gone → Completed s
  /-- What has begun is completed by nothing but its own steps. -/
  due : ∀ caller stage, s.pc = .completing caller stage →
    ∃ n s', run (step cfg req extractUsage) s (List.replicate n .next) = some s' ∧ Completed s'
  /-- From the call on, the drop of the guard has come to its end. -/
  released : ∀ usage bytes sparkl, .onComplete usage bytes sparkl ∈ s.log →
    s.tracker.tasks[req.guard]? = some .released
  /-- From the call on, a counter that counts the live guards of its slot counts those of the
  others. -/
  uncounted : ∀ usage bytes sparkl, .onComplete usage bytes sparkl ∈ s.log →
    CountsLive s.tracker → ∀ key a, s.tracker.slots.get key = some a →
      ∃ slot, s.tracker.heap[a]? = some slot ∧ slot.active.toNat = othersLive req s.tracker a

section

variable {cfg : Sharding ModelCapacityKey} {req : Request}
  {extractUsage : Text → Option ParsedUsage} {s : State}

/-- At every point the completion is in one of the phases. -/
theorem AtPc.exists_in {pc : Pc} (h : AtPc req s pc) : ∃ marks ph, In req marks ph s := by
  cases pc with
  | completing caller stage =>
      cases stage with
      | enter => exact h.elim (fun h => ⟨_, _, h⟩) fun h => ⟨_, _, h⟩
      | guard => exact ⟨_, _, h⟩
      | take => exact ⟨_, _, h⟩
      | callback j => exact ⟨_, _, h.1⟩
  | gone => exact h.elim fun marks h => ⟨marks, _, h⟩
  | unpolled => exact ⟨_, _, h⟩
  | head => exact ⟨_, _, h⟩
  | receiving => exact ⟨_, _, h⟩
  | yielded resume => exact ⟨_, _, h⟩
  | returned => exact ⟨_, _, h⟩

theorem In.order {marks : Bool} {ph : Phase} (h : In req marks ph s) :
    ∃ usage bytes sparkl, s.log <+: [.guardDropped, .onComplete usage bytes sparkl] := by
  have hlog := h.log
  cases ph with
  | fresh => exact ⟨none, 0, false, by rw [hlog]; exact List.nil_prefix⟩
  | dropping => exact ⟨none, 0, false, by rw [hlog]; exact List.nil_prefix⟩
  | dropped => exact ⟨none, 0, false, by rw [hlog]; exact List.prefix_append [_] [_]⟩
  | called =>
      obtain ⟨usage, bytes, sparkl, heq⟩ := hlog
      exact ⟨usage, bytes, sparkl, by rw [heq]⟩

/-- The callback is called when the guard has been released. -/
theorem In.released {marks : Bool} {ph : Phase} (h : In req marks ph s) {usage : Option ParsedUsage}
    {bytes : ℕ} {sparkl : Bool} (hcall : .onComplete usage bytes sparkl ∈ s.log) :
    s.tracker.tasks[req.guard]? = some .released := by
  have hlog := h.log
  obtain ⟨t, ht, hguard⟩ := h.guard
  cases ph with
  | fresh =>
      rw [hlog] at hcall
      cases hcall
  | dropping =>
      rw [hlog] at hcall
      cases hcall
  | dropped =>
      rw [hlog] at hcall
      cases List.mem_singleton.1 hcall
  | called => rw [ht, hguard]

/-- A guard that has been released counts for no slot. -/
theorem liveGuards_of_released {tracker : Capacity.State}
    (h : tracker.tasks[req.guard]? = some .released) (a : Capacity.SlotId) :
    tracker.liveGuards a = othersLive req tracker a := by
  have htotal := TaskPool.total_eraseIdx (TaskPool.indicator (Capacity.Task.live a)) h
  have hzero : TaskPool.indicator (Capacity.Task.live a) .released = 0 := rfl
  rw [hzero, Nat.add_zero] at htotal
  exact htotal.symm

theorem Inv.toOnce (h : Inv req s) : Once cfg req extractUsage s := by
  obtain ⟨marks, ph, hin⟩ := h.here.exists_in
  refine ⟨hin.order, ?_, fun caller stage => exists_onComplete cfg extractUsage h,
    fun usage bytes sparkl => hin.released, ?_⟩
  · have hhere := h.here
    rintro (hpc | hpc)
    · rw [hpc] at hhere
      exact hhere.log
    · rw [hpc] at hhere
      obtain ⟨m, hcalled⟩ := hhere
      exact hcalled.log
  · intro usage bytes sparkl hcall hcounts key a hget
    obtain ⟨slot, hslot, hactive⟩ := hcounts key a hget
    exact ⟨slot, hslot, hactive.trans (liveGuards_of_released (hin.released hcall) a)⟩

end

/-- **The completion of a response stream fires exactly once and in order**: whatever frames come,
whether the deadline passes or the channel is closed, and wherever the stream is dropped, the guard
is dropped once and then the callback is called once; and the snapshot that the callback takes of
the tracker, on which everybody else goes on meanwhile, does not count the request. -/
theorem once (cfg : Sharding ModelCapacityKey) (extractUsage : Text → Option ParsedUsage)
    (req : Request) (tracker : Capacity.State)
    (hreach : Reachable (Capacity.step cfg) Capacity.init tracker) (t : Capacity.Task)
    (ht : tracker.tasks[req.guard]? = some t) (hguard : t.isGuard = true) (acts : List Act) :
    Always (step cfg req extractUsage) (Once cfg req extractUsage) (start tracker) acts := by
  have hinv : Always (step cfg req extractUsage) (Inv req) (start tracker) acts :=
    always_of_invariant (fun s act s' h hstep => h.step hstep) (inv_start hreach ht hguard) acts
  exact hinv.mono fun s h => h.toOnce

/-- A request has been admitted. -/
def sampleAdmission : List Capacity.Action :=
  [.call (.acquire ⟨Capacity.sampleKey, 1, 1⟩), .step 0, .step 0, .step 0, .step 0, .step 0]

def sampleTracker : Capacity.State :=
  (run (Capacity.step Capacity.twoShards) Capacity.init sampleAdmission).get (by decide)

def sampleRequest : Request := ⟨0, Capacity.sampleKey, 1⟩

/-- A chunk, the `End`, both calls of `fire_complete`, and then the drop of the stream. -/
def sampleActs : List Act :=
  [.next, .next, .recv (.chunk "hi".toList), .next, .next, .recv (.endFrame 200)] ++
    List.replicate 12 .next ++ [.drop, .next]

theorem observe_sampleActs :
    (run (step Capacity.twoShards sampleRequest fun _ => none) (start sampleTracker)
      sampleActs).map (fun s => (s.pc, s.log)) =
        some (.gone, [.guardDropped, .onComplete none 2 false]) := by
  decide +kernel

theorem once_sampleActs :
    ∃ s, Once Capacity.twoShards sampleRequest (fun _ => none) s ∧
      (s.pc, s.log) = (.gone, [.guardDropped, .onComplete none 2 false]) :=
  (once Capacity.twoShards (fun _ => none) sampleRequest sampleTracker
    ⟨sampleAdmission, (Option.some_get _).symm⟩ (.guard Capacity.sampleKey 0) (by decide) rfl
    sampleActs).observe observe_sampleActs

end SseOnce
