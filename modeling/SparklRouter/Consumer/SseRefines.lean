/-
**The completion in one step.**

`SparklRouter.Consumer.Sse` has the response stream in the system of all requests of a tunnel, and
there the completion of a stream is one step: the two calls of `fire` are one, and the drop of the
guard and the callback have no steps of their own.  Behind the first call of the callback there is
nothing left to do, so this loses nothing: the stream with its completion step by step is followed
by that stream, which takes its step where the callback is called.

Main definitions:

* `SseOnce.Follows` — the stream of `Sse` that goes with a stream step by step;
* `SseOnce.StreamStep` — what the stream of `Sse` does.

Main results:

* `SseOnce.Follows.step` — **every step is followed by at most one step of the stream of `Sse`**;
* `SseOnce.exists_follows` — so is every run.
-/

import Mathlib.Logic.Relation
import SparklRouter.Consumer.SseOnce

set_option relaxedAutoImplicit false
set_option autoImplicit false

namespace SseOnce

open Capacity (ModelCapacityKey)
open Sse (ParsedUsage SseEvent)
open Tunnel (InboundFrame)
open Transition

/-! ### The stream that follows -/

/-- The calls of the callback, with their arguments. -/
def calls (log : List Event) : List (Option ParsedUsage × ℕ × Bool) :=
  log.filterMap fun
    | .onComplete usage bytes sparkl => some (usage, bytes, sparkl)
    | .guardDropped => none

/-- What the stream of `Sse` does: nothing, or what a poll, the deadline or the client does to
it. -/
inductive StreamStep (extractUsage : Text → Option ParsedUsage) (st : Sse.Stream) :
    Sse.Stream → Prop
  | none : StreamStep extractUsage st st
  | frame (hpc : st.pc = .running) (f : InboundFrame) :
      StreamStep extractUsage st (st.frame extractUsage f)
  | finish (hpc : st.pc = .running ∨ st.pc = .breaking) :
      StreamStep extractUsage st (st.finish extractUsage)
  | timeout (hpc : st.pc = .running) : StreamStep extractUsage st (st.fail .timeout)
  | drop (hpc : st.pc = .running ∨ st.pc = .breaking) :
      StreamStep extractUsage st { st with pc := .dropped, completion := st.completion.drop }

/-- The stream is in its loop. -/
def Pc.looping : Pc → Bool
  | .unpolled | .head | .receiving | .yielded .loop => true
  | .yielded .fire | .yielded .leave | .completing _ _ | .returned | .gone => false

/-- The stream of `Sse` has the same text, and has completed when the callback has been called. -/
structure Follows (s : State) (st : Sse.Stream) : Prop where
  accumulated : st.accumulated = s.accumulated
  latestUsage : st.latestUsage = s.latestUsage
  yielded : st.yielded = s.yielded
  running : s.pc.looping = true → st.pc = .running
  before : calls s.log = [] →
    st.completion = Sse.Completion.new ∧ (st.pc = .running ∨ st.pc = .breaking)
  after : calls s.log ≠ [] → st.completion.calls = calls s.log

theorem follows_start (tracker : Capacity.State) : Follows (start tracker) Sse.Stream.new where
  accumulated := rfl
  latestUsage := rfl
  yielded := rfl
  running _ := rfl
  before _ := ⟨rfl, Or.inl rfl⟩
  after h := absurd rfl h

section

variable {cfg : Sharding ModelCapacityKey} {req : Request}
  {extractUsage : Text → Option ParsedUsage} {s s' : State} {st : Sse.Stream}

/-- Where the stream is in its loop, nothing has been called. -/
theorem calls_of_fresh {marks : Bool} (h : In req marks .fresh s) : calls s.log = [] := by
  rw [show s.log = [] from h.log]
  rfl

/-- A step that the stream of `Sse` does not see. -/
theorem Follows.unseen (h : Follows s st) (haccumulated : s'.accumulated = s.accumulated)
    (hlatest : s'.latestUsage = s.latestUsage) (hyielded : s'.yielded = s.yielded)
    (hcalls : calls s'.log = calls s.log)
    (hlooping : s'.pc.looping = true → s.pc.looping = true) : Follows s' st where
  accumulated := h.accumulated.trans haccumulated.symm
  latestUsage := h.latestUsage.trans hlatest.symm
  yielded := h.yielded.trans hyielded.symm
  running hl := h.running (hlooping hl)
  before hc := h.before (hcalls ▸ hc)
  after hc := hcalls ▸ h.after (hcalls ▸ hc)

/-- A frame that the stream receives.  An `End` is seen where the callback is called. -/
theorem Follows.frame (h : Follows s st) (hinv : Inv req s) (hpc : s.pc = .receiving)
    (f : InboundFrame) :
    ∃ st', StreamStep extractUsage st st' ∧ Follows (s.frame extractUsage f) st' := by
  have hrunning : st.pc = .running := h.running (by rw [hpc]; rfl)
  have hhere := hinv.here
  rw [hpc] at hhere
  have hnone := calls_of_fresh hhere
  have hnew := (h.before hnone).1
  cases f with
  | chunk data =>
      refine ⟨_, .frame hrunning (.chunk data), ?_⟩
      refine ⟨?_, ?_, ?_, fun _ => hrunning, fun _ => ⟨hnew, Or.inl hrunning⟩, fun hc => ?_⟩
      · exact congrArg (· ++ data) h.accumulated
      · simp only [Sse.Stream.frame, Sse.Stream.chunk, State.frame, h.accumulated, h.latestUsage]
      · exact congrArg (· ++ [SseEvent.data data]) h.yielded
      · exact absurd hnone hc
  | endFrame status =>
      refine ⟨st, .none, h.unseen rfl rfl rfl rfl fun hl => ?_⟩
      cases hl
  | error code message =>
      refine ⟨_, .frame hrunning (.error code message), ?_⟩
      refine ⟨h.accumulated, h.latestUsage, ?_, fun hl => (by cases hl),
        fun _ => ⟨hnew, Or.inr rfl⟩, fun hc => absurd hnone hc⟩
      exact congrArg (· ++ [SseEvent.error message]) h.yielded
  | response status headers =>
      exact ⟨st, .none, h.unseen rfl rfl rfl rfl fun _ => by rw [hpc]; rfl⟩
  | activateResponse apiKey =>
      exact ⟨st, .none, h.unseen rfl rfl rfl rfl fun _ => by rw [hpc]; rfl⟩

/-- A step of `fire` or of `Drop::drop` that does not call the callback changes nothing that the
stream of `Sse` has. -/
theorem Completes.calls_cases {call : Event} {stage : Stage} (h : Completes cfg call stage s s') :
    calls s'.log = calls s.log ∨ stage = .take ∧ s'.log = s.log ++ [call] := by
  rcases h.log with hlog | hlog | hcall
  · exact Or.inl (congrArg calls hlog)
  · refine Or.inl ?_
    rw [hlog, calls, List.filterMap_append, calls]
    exact List.append_nil _
  · exact Or.inr hcall

/-- The callback is called: the stream of `Sse` takes its step. -/
theorem Follows.called (h : Follows s st) {marks : Bool} (hin : In req marks .dropped s)
    {caller : Caller} (haccumulated : s'.accumulated = s.accumulated)
    (hlatest : s'.latestUsage = s.latestUsage) (hyielded : s'.yielded = s.yielded)
    (hlog : s'.log = s.log ++ [s.call extractUsage caller]) (hout : s'.pc.looping = false) :
    ∃ st', StreamStep extractUsage st st' ∧ Follows s' st' := by
  have hdropped : s.log = [.guardDropped] := hin.log
  have hnone : calls s.log = [] := by
    rw [hdropped]
    rfl
  obtain ⟨hnew, hpc⟩ := h.before hnone
  have hsome : calls s'.log ≠ [] := by
    rw [hlog, hdropped]
    cases caller <;> exact List.cons_ne_nil _ _
  have hnot : ¬ s'.pc.looping = true := by
    rw [hout]
    exact Bool.false_ne_true
  -- the same arguments, whoever has called
  have hargs : ∀ st' : Sse.Stream, st'.accumulated = st.accumulated →
      st'.latestUsage = st.latestUsage → st'.yielded = st.yielded →
      st'.completion.calls = calls s'.log → Follows s' st' := by
    intro st' ha hl hy hcalls
    refine ⟨ha.trans (h.accumulated.trans haccumulated.symm),
      hl.trans (h.latestUsage.trans hlatest.symm), hy.trans (h.yielded.trans hyielded.symm),
      fun hl => absurd hl hnot, fun hc => absurd hc hsome, fun _ => hcalls⟩
  have hfinish : (∀ u b sp, s.call extractUsage caller = .onComplete u b sp →
      u = (s.latestUsage.orElse fun _ => extractUsage s.accumulated) ∧
        b = Text.utf8Len s.accumulated ∧ sp = Sse.hasSparkl s.accumulated) →
      Follows s' (st.finish extractUsage) := by
    intro hcall
    obtain ⟨u, b, sp, heq⟩ := exists_call extractUsage s caller
    obtain ⟨rfl, rfl, rfl⟩ := hcall u b sp heq
    refine hargs _ rfl rfl rfl ?_
    rw [hlog, hdropped, heq, Sse.Stream.finish, hnew, h.latestUsage, h.accumulated]
    rfl
  cases caller with
  | arm =>
      refine ⟨_, .finish hpc, hfinish fun u b sp heq => ?_⟩
      obtain ⟨rfl, rfl, rfl⟩ := Event.onComplete.inj heq
      exact ⟨rfl, rfl, rfl⟩
  | last =>
      refine ⟨_, .finish hpc, hfinish fun u b sp heq => ?_⟩
      obtain ⟨rfl, rfl, rfl⟩ := Event.onComplete.inj heq
      exact ⟨rfl, rfl, rfl⟩
  | drop =>
      refine ⟨_, .drop hpc, hargs _ rfl rfl rfl ?_⟩
      rw [hlog, hdropped, hnew]
      rfl

/-- The stream goes on. -/
theorem Follows.next (h : Follows s st) (hinv : Inv req s)
    (hstep : s.next cfg req extractUsage = some s') :
    ∃ st', StreamStep extractUsage st st' ∧ Follows s' st' := by
  have hhere := hinv.here
  unfold State.next at hstep
  split at hstep
  · rename_i hpc
    obtain rfl := Option.some.inj hstep
    exact ⟨st, .none, h.unseen rfl rfl rfl rfl fun _ => by rw [hpc]; rfl⟩
  · rename_i hpc
    obtain rfl := Option.some.inj hstep
    exact ⟨st, .none, h.unseen rfl rfl rfl rfl fun _ => by rw [hpc]; rfl⟩
  · rename_i hpc
    obtain rfl := Option.some.inj hstep
    exact ⟨st, .none, h.unseen rfl rfl rfl rfl fun _ => by rw [hpc]; rfl⟩
  · obtain rfl := Option.some.inj hstep
    exact ⟨st, .none, h.unseen rfl rfl rfl rfl fun hl => by cases hl⟩
  · obtain rfl := Option.some.inj hstep
    exact ⟨st, .none, h.unseen rfl rfl rfl rfl fun hl => by cases hl⟩
  · rename_i caller stage hpc
    obtain ⟨⟨s₁, next⟩, hcomplete, rfl⟩ := Option.map_eq_some_iff.1 hstep
    rw [hpc] at hhere
    have hout : (caller.pc next).looping = false := by
      cases next with
      | some stage' => rfl
      | none => cases caller <;> rfl
    have hcompletes := completes_of_complete hcomplete
    rcases hcompletes.calls_cases with hcalls | ⟨rfl, hlog⟩
    · refine ⟨st, .none, h.unseen hcompletes.accumulated hcompletes.latestUsage
        hcompletes.yielded hcalls fun hl => ?_⟩
      exact absurd (hout.symm.trans hl) Bool.false_ne_true
    · exact h.called hhere hcompletes.accumulated hcompletes.latestUsage hcompletes.yielded hlog
        hout
  · cases hstep
  · cases hstep
  · cases hstep

/-- **Every step is followed by at most one step of the stream of `Sse`.** -/
theorem Follows.step (h : Follows s st) (hinv : Inv req s) {act : Act}
    (hstep : SseOnce.step cfg req extractUsage s act = some s') :
    ∃ st', StreamStep extractUsage st st' ∧ Follows s' st' := by
  have hhere := hinv.here
  cases act with
  | other act =>
      rw [SseOnce.step] at hstep
      split at hstep
      · cases hstep
      · obtain ⟨tracker, -, rfl⟩ := Option.map_eq_some_iff.1 hstep
        exact ⟨st, .none, h.unseen rfl rfl rfl rfl id⟩
  | next => exact h.next hinv hstep
  | recv frame =>
      rw [SseOnce.step] at hstep
      split at hstep
      · rename_i hpc
        obtain rfl := Option.some.inj hstep
        exact h.frame hinv hpc frame
      · cases hstep
  | closed =>
      rw [SseOnce.step] at hstep
      split at hstep
      · obtain rfl := Option.some.inj hstep
        exact ⟨st, .none, h.unseen rfl rfl rfl rfl fun hl => by cases hl⟩
      · cases hstep
  | deadline =>
      rw [SseOnce.step] at hstep
      split at hstep
      · rename_i hpc
        obtain rfl := Option.some.inj hstep
        have hfresh : In req true .fresh s := by
          rcases hpc with hpc | hpc <;> rw [hpc] at hhere <;> exact hhere
        have hrunning : st.pc = .running := by
          refine h.running ?_
          rcases hpc with hpc | hpc <;> rw [hpc] <;> rfl
        have hnone := calls_of_fresh hfresh
        refine ⟨_, .timeout hrunning, h.accumulated, h.latestUsage, ?_, fun hl => (by cases hl),
          fun _ => ⟨(h.before hnone).1, Or.inr rfl⟩, fun hc => absurd hnone hc⟩
        exact congrArg (· ++ [SseEvent.timeout]) h.yielded
      · cases hstep
  | drop =>
      rw [SseOnce.step] at hstep
      split at hstep
      · obtain rfl := Option.some.inj hstep
        exact ⟨st, .none, h.unseen rfl rfl rfl rfl fun hl => by cases hl⟩
      · cases hstep

/-- **Every run is followed by a run of the stream of `Sse`.** -/
theorem exists_follows {tracker : Capacity.State} {t : Capacity.Task}
    (hreach : Reachable (Capacity.step cfg) Capacity.init tracker)
    (ht : tracker.tasks[req.guard]? = some t) (hguard : t.isGuard = true)
    (h : Reachable (SseOnce.step cfg req extractUsage) (start tracker) s) :
    ∃ st, Relation.ReflTransGen (StreamStep extractUsage) Sse.Stream.new st ∧ Follows s st := by
  refine (h.invariant
    (I := fun s => Inv req s ∧ ∃ st,
      Relation.ReflTransGen (StreamStep extractUsage) Sse.Stream.new st ∧ Follows s st)
    ⟨inv_start hreach ht hguard, Sse.Stream.new, .refl, follows_start tracker⟩ ?_).2
  rintro s act s' ⟨hinv, st, hrun, hfollows⟩ hstep
  obtain ⟨st', hst, hfollows'⟩ := hfollows.step hinv hstep
  exact ⟨hinv.step hstep, st', hrun.tail hst, hfollows'⟩

end

end SseOnce
