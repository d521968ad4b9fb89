/-
**What one step of the usage batcher can do.**

`UsageBatch.step` branches on the action and on the point at which the task stands.  This module
says once what the branches amount to: the steps that touch a batch, a submission or the history are
listed in `UsageBatch.Change` one by one, and those that only move their task in `UsageBatch.Move`.
Where a step takes its task, whatever else it does, is listed in `UsageBatch.Next`.

Main definitions:

* `UsageBatch.Move`, `UsageBatch.Change` — what a step can do;
* `UsageBatch.Next` — what it does to the task that takes it.

Main results:

* `UsageBatch.change_of_step`, `UsageBatch.next_of_advance` — **every step is one of these**;
* `UsageBatch.success_of_reachable` — **a submission that has ended is a run of
  `record_usage_with_retry`**.
-/

import SparklRouter.Consumer.UsageBatch

set_option relaxedAutoImplicit false
set_option autoImplicit false

namespace UsageBatch

open Chain Transition

variable {cfg : SettlementConfig} {sharding : Sharding SessionId}

/-- Whether the flush is that of `remove_session`. -/
def Cont.removes : Cont → Bool
  | .remove => true
  | _ => false

/-- The steps that change nothing but where their task stands. -/
inductive Move (s : State) : Action → Pc → Pc → Prop
  | present {t : TaskId} {session : SessionId} {k : Ensured}
      (h : (s.sessions.get session).isSome) :
      Move s (.step t) (.checking session k) (k.resume session)
  | absent {t : TaskId} {session : SessionId} {k : Ensured} :
      Move s (.step t) (.checking session k) (.fetching session k)
  | fetched {t : TaskId} {session : SessionId} {chain : ChainSession} {k : Ensured} :
      Move s (.answer t (some chain)) (.fetching session k) (.creating session chain k)
  | unfetched {t : TaskId} {session : SessionId} {k : Ensured} :
      Move s (.answer t none) (.fetching session k) (k.resume session)
  | found {t : TaskId} {session : SessionId} {chain : ChainSession} {k : Ensured}
      (h : (s.sessions.get session).isSome) :
      Move s (.step t) (.creating session chain k) (k.resume session)
  | waited {t : TaskId} {ticket : ℕ} {session : SessionId} {k : Cont} :
      Move s (.step t) (.awaiting ticket session k) (.refreshing session k)
  | refreshed {t : TaskId} {session : SessionId} {chain : ChainSession} {k : Cont} :
      Move s (.answer t (some chain)) (.refreshing session k) (.marking session chain k)
  | unrefreshed {t : TaskId} {session : SessionId} {k : Cont} :
      Move s (.answer t none) (.refreshing session k) (k.resume session)
  | unmarked {t : TaskId} {session : SessionId} {chain : ChainSession} {k : Cont} :
      Move s (.step t) (.marking session chain k) (k.resume session)
  | gone {t : TaskId} {session : SessionId} (h : s.sessions.get session = none) :
      Move s (.step t) (.removing session) .finished
  | iterated {t : TaskId} {ids found : List SessionId} {l : Loop} {i : ℕ} :
      Move s (.iterate t ids) (.collecting l i found) (.collecting l (i + 1) (found ++ ids))
  | collected {t : TaskId} {found : List SessionId} {l : Loop} {i : ℕ} :
      Move s (.step t) (.collecting l i found) (.looping l found)
  | skipped {t : TaskId} {session : SessionId} {rest : List SessionId} {l : Loop} :
      Move s (.step t) (.looping l (session :: rest)) (.looping l rest)
  | next {t : TaskId} {session : SessionId} {rest : List SessionId} {l : Loop} {awaitChain : Bool} :
      Move s (.step t) (.looping l (session :: rest))
        (flushSession session true awaitChain (.loop l rest))
  | ended {t : TaskId} {l : Loop} : Move s (.step t) (.looping l []) .finished

/-- What a step can do. -/
inductive Change (cfg : SettlementConfig) (s : State) : Action → State → Prop
  | call (c : Call) : Change cfg s (.call c) { s with tasks := s.tasks ++ [c.start] }
  | tick (nanos : ℕ) : Change cfg s (.tick nanos) { s with now := s.now + nanos }
  | move {act : Action} {t : TaskId} {pc pc' : Pc} (ht : s.tasks[t]? = some pc)
      (hmove : Move s act pc pc') : Change cfg s act (s.goTo t pc')
  | create {t : TaskId} {session : SessionId} {chain : ChainSession} {k : Ensured}
      (ht : s.tasks[t]? = some (.creating session chain k)) (hnew : s.sessions.get session = none) :
      Change cfg s (.step t) ((s.putBatch session (SessionBatch.new chain.inputTokensRecorded
        chain.outputTokensRecorded s.now)).goTo t (k.resume session))
  | accumulate {t : TaskId} {session : SessionId} {input output : UInt64} {b : SessionBatch}
      (ht : s.tasks[t]? = some (.accumulating session input output))
      (hb : s.sessions.get session = some b) :
      Change cfg s (.step t) (accumulateStep cfg s t session input output b)
  | discard {t : TaskId} {session : SessionId} {input output : UInt64}
      (ht : s.tasks[t]? = some (.accumulating session input output))
      (hb : s.sessions.get session = none) :
      Change cfg s (.step t) ((s.record (.discarded session input output)).goTo t .finished)
  | take {t : TaskId} {session : SessionId} {force awaitChain : Bool} {k : Cont} {b : SessionBatch}
      (ht : s.tasks[t]? = some (.flushing session force awaitChain k))
      (hb : s.sessions.get session = some b) (hflushes : b.flushes cfg force s.now = true) :
      Change cfg s (.step t) (takeStep s t session awaitChain k b)
  | pass {t : TaskId} {session : SessionId} {force awaitChain : Bool} {k : Cont}
      (ht : s.tasks[t]? = some (.flushing session force awaitChain k))
      (hpass : ∀ b, s.sessions.get session = some b → b.flushes cfg force s.now = false) :
      Change cfg s (.step t) (passStep s t session k)
  | hand {t : TaskId} {ticket : ℕ} {b : Batch} {awaitChain : Bool} {k : Cont}
      (ht : s.tasks[t]? = some (.submitting ticket b awaitChain k)) :
      Change cfg s (.step t)
        ({ s with submissions := s.submissions ++ [Submission.start ticket b] }.goTo t
          (if awaitChain then .awaiting ticket b.sessionId k else .refreshing b.sessionId k))
  | mark {t : TaskId} {session : SessionId} {chain : ChainSession} {k : Cont} {b : SessionBatch}
      (ht : s.tasks[t]? = some (.marking session chain k)) (hb : s.sessions.get session = some b) :
      Change cfg s (.step t) ((s.putBatch session (b.watermark chain)).goTo t (k.resume session))
  | remove {t : TaskId} {session : SessionId} {b : SessionBatch}
      (ht : s.tasks[t]? = some (.removing session)) (hb : s.sessions.get session = some b) :
      Change cfg s (.step t) (({ s with sessions := s.sessions.remove session }.record
        (.removed session b)).goTo t .finished)
  | attempt {j : ℕ} {o : Attempt} {sub sub' : Submission} (hsub : s.submissions[j]? = some sub)
      (hattempt : sub.attempt o = some sub') :
      Change cfg s (.attempt j o) { s with submissions := s.submissions.set j sub' }

theorem change_of_advance {s s' : State} {t : TaskId} {pc : Pc} (ht : s.tasks[t]? = some pc)
    (h : advance cfg sharding s t pc = some s') : Change cfg s (.step t) s' := by
  cases pc with
  | checking session k =>
      obtain rfl := Option.some.inj h
      refine Change.move ht ?_
      split
      · rename_i hpresent
        exact Move.present hpresent
      · exact Move.absent
  | creating session chain k =>
      obtain rfl := Option.some.inj h
      cases hb : s.sessions.get session with
      | some b =>
          rw [ShardMap.entryOrInsert_of_some hb]
          exact Change.move ht (Move.found (by rw [hb]; rfl))
      | none =>
          rw [ShardMap.entryOrInsert_of_none hb]
          exact Change.create ht hb
  | accumulating session input output =>
      cases hb : s.sessions.get session with
      | some b =>
          simp only [advance, hb, Option.some.injEq] at h
          subst h
          exact Change.accumulate ht hb
      | none =>
          simp only [advance, hb, Option.some.injEq] at h
          subst h
          exact Change.discard ht hb
  | flushing session force awaitChain k =>
      cases hb : s.sessions.get session with
      | some b =>
          simp only [advance, hb, Option.some.injEq] at h
          subst h
          split
          · rename_i hflushes
            exact Change.take ht hb hflushes
          · rename_i hflushes
            refine Change.pass ht fun b' hb' => ?_
            obtain rfl := Option.some.inj (hb.symm.trans hb')
            exact eq_false_of_ne_true hflushes
      | none =>
          simp only [advance, hb, Option.some.injEq] at h
          subst h
          refine Change.pass ht fun b' hb' => ?_
          rw [hb] at hb'
          cases hb'
  | submitting ticket b awaitChain k =>
      obtain rfl := Option.some.inj h
      exact Change.hand ht
  | awaiting ticket session k =>
      simp only [advance] at h
      split at h
      · obtain rfl := Option.some.inj h
        exact Change.move ht Move.waited
      · cases h
  | marking session chain k =>
      cases hb : s.sessions.get session with
      | some b =>
          simp only [advance, hb, Option.some.injEq] at h
          subst h
          exact Change.mark ht hb
      | none =>
          simp only [advance, hb, Option.some.injEq] at h
          subst h
          exact Change.move ht Move.unmarked
  | removing session =>
      cases hb : s.sessions.get session with
      | some b =>
          simp only [advance, hb, Option.some.injEq] at h
          subst h
          exact Change.remove ht hb
      | none =>
          simp only [advance, hb, Option.some.injEq] at h
          subst h
          exact Change.move ht (Move.gone hb)
  | collecting l shard found =>
      simp only [advance] at h
      split at h
      · cases h
      · obtain rfl := Option.some.inj h
        exact Change.move ht Move.collected
  | looping l ids =>
      cases ids with
      | nil =>
          have hs' : s' = s.goTo t .finished := by
            cases l with
            | sweep => exact (Option.some.inj h).symm
            | shutdown => exact (Option.some.inj h).symm
          subst hs'
          exact Change.move ht Move.ended
      | cons session rest =>
          cases l with
          | shutdown =>
              obtain rfl := Option.some.inj h
              exact Change.move ht Move.next
          | sweep =>
              cases hb : s.sessions.get session with
              | some b =>
                  simp only [advance, hb, Option.some.injEq] at h
                  subst h
                  refine Change.move ht ?_
                  split
                  · exact Move.next
                  · exact Move.skipped
              | none =>
                  simp only [advance, hb, Option.some.injEq] at h
                  subst h
                  exact Change.move ht Move.skipped
  | fetching session k => cases h
  | refreshing session k => cases h
  | finished => cases h

/-- **Every step of the batcher is one of the listed changes.** -/
theorem change_of_step {s s' : State} {act : Action} (h : step cfg sharding s act = some s') :
    Change cfg s act s' := by
  cases act with
  | call c =>
      obtain rfl := Option.some.inj h
      exact Change.call c
  | step t =>
      obtain ⟨pc, ht, h⟩ := Option.bind_eq_some_iff.1 h
      exact change_of_advance ht h
  | answer t reply =>
      obtain ⟨pc, ht, h⟩ := Option.bind_eq_some_iff.1 h
      cases pc with
      | fetching session k =>
          cases reply with
          | some chain =>
              obtain rfl := Option.some.inj h
              exact Change.move ht Move.fetched
          | none =>
              obtain rfl := Option.some.inj h
              exact Change.move ht Move.unfetched
      | refreshing session k =>
          cases reply with
          | some chain =>
              obtain rfl := Option.some.inj h
              exact Change.move ht Move.refreshed
          | none =>
              obtain rfl := Option.some.inj h
              exact Change.move ht Move.unrefreshed
      | _ => cases h
  | iterate t ids =>
      obtain ⟨pc, ht, h⟩ := Option.bind_eq_some_iff.1 h
      cases pc with
      | collecting l shard found =>
          simp only at h
          split at h
          · obtain rfl := Option.some.inj h
            exact Change.move ht Move.iterated
          · cases h
      | _ => cases h
  | attempt j o =>
      obtain ⟨sub, hsub, h⟩ := Option.bind_eq_some_iff.1 h
      obtain ⟨sub', hattempt, rfl⟩ := Option.map_eq_some_iff.1 h
      exact Change.attempt hsub hattempt
  | tick nanos =>
      obtain rfl := Option.some.inj h
      exact Change.tick nanos

/-! ### What a step does to its task -/

/-- What a step does to the task that takes it. -/
inductive Next (sharding : Sharding SessionId) (s : State) : Pc → Pc → Prop
  | ensured {session : SessionId} {k : Ensured} :
      Next sharding s (.checking session k) (k.resume session)
  | fetch {session : SessionId} {k : Ensured} :
      Next sharding s (.checking session k) (.fetching session k)
  | fetched {session : SessionId} {chain : ChainSession} {k : Ensured} :
      Next sharding s (.fetching session k) (.creating session chain k)
  | unfetched {session : SessionId} {k : Ensured} :
      Next sharding s (.fetching session k) (k.resume session)
  | created {session : SessionId} {chain : ChainSession} {k : Ensured} :
      Next sharding s (.creating session chain k) (k.resume session)
  | exceeded {session : SessionId} {input output : UInt64} :
      Next sharding s (.accumulating session input output) (flushSession session false false .done)
  | added {session : SessionId} {input output : UInt64} :
      Next sharding s (.accumulating session input output) .finished
  | taken {ticket : ℕ} {b : Batch} {force awaitChain : Bool} {k : Cont} :
      Next sharding s (.flushing b.sessionId force awaitChain k) (.submitting ticket b awaitChain k)
  | passed {session : SessionId} {force awaitChain : Bool} {k : Cont} :
      Next sharding s (.flushing session force awaitChain k) (k.resume session)
  | awaits {ticket : ℕ} {b : Batch} {awaitChain : Bool} {k : Cont} :
      Next sharding s (.submitting ticket b awaitChain k) (.awaiting ticket b.sessionId k)
  | spawned {ticket : ℕ} {b : Batch} {awaitChain : Bool} {k : Cont} :
      Next sharding s (.submitting ticket b awaitChain k) (.refreshing b.sessionId k)
  | waited {ticket : ℕ} {session : SessionId} {k : Cont} :
      Next sharding s (.awaiting ticket session k) (.refreshing session k)
  | refreshed {session : SessionId} {chain : ChainSession} {k : Cont} :
      Next sharding s (.refreshing session k) (.marking session chain k)
  | unrefreshed {session : SessionId} {k : Cont} :
      Next sharding s (.refreshing session k) (k.resume session)
  | marked {session : SessionId} {chain : ChainSession} {k : Cont} :
      Next sharding s (.marking session chain k) (k.resume session)
  | removed {session : SessionId} : Next sharding s (.removing session) .finished
  | iterated {l : Loop} {i : ℕ} {ids found : List SessionId}
      (hids : ids.toFinset = s.sessions.shardKeys sharding.shard i) :
      Next sharding s (.collecting l i found) (.collecting l (i + 1) (found ++ ids))
  | collected {l : Loop} {i : ℕ} {found : List SessionId} (hi : sharding.shards ≤ i) :
      Next sharding s (.collecting l i found) (.looping l found)
  | flushes {l : Loop} {session : SessionId} {rest : List SessionId} {awaitChain : Bool} :
      Next sharding s (.looping l (session :: rest))
        (flushSession session true awaitChain (.loop l rest))
  | skipped {l : Loop} {session : SessionId} {rest : List SessionId} :
      Next sharding s (.looping l (session :: rest)) (.looping l rest)
  | ended {l : Loop} : Next sharding s (.looping l []) .finished

/-- **Every step of a task that waits for no answer is one of these**, and leaves the others where
they are. -/
theorem next_of_advance {s s' : State} {t : TaskId} {pc : Pc}
    (h : advance cfg sharding s t pc = some s') :
    ∃ pc', s'.tasks = s.tasks.set t pc' ∧ Next sharding s pc pc' := by
  cases pc with
  | checking session k =>
      obtain rfl := Option.some.inj h
      refine ⟨_, rfl, ?_⟩
      split
      · exact Next.ensured
      · exact Next.fetch
  | creating session chain k =>
      obtain rfl := Option.some.inj h
      exact ⟨_, rfl, Next.created⟩
  | accumulating session input output =>
      simp only [advance] at h
      split at h
      · obtain rfl := Option.some.inj h
        refine ⟨_, rfl, ?_⟩
        split
        · exact Next.exceeded
        · exact Next.added
      · obtain rfl := Option.some.inj h
        exact ⟨_, rfl, Next.added⟩
  | flushing session force awaitChain k =>
      simp only [advance] at h
      split at h
      · rename_i b hb
        obtain rfl := Option.some.inj h
        split
        · exact ⟨_, rfl, @Next.taken sharding s s.tickets ⟨session, b.pendingInput, b.pendingOutput⟩
            force awaitChain k⟩
        · exact ⟨_, rfl, Next.passed⟩
      · obtain rfl := Option.some.inj h
        exact ⟨_, rfl, Next.passed⟩
  | submitting ticket b awaitChain k =>
      obtain rfl := Option.some.inj h
      refine ⟨_, rfl, ?_⟩
      split
      · exact Next.awaits
      · exact Next.spawned
  | awaiting ticket session k =>
      simp only [advance] at h
      split at h
      · obtain rfl := Option.some.inj h
        exact ⟨_, rfl, Next.waited⟩
      · cases h
  | marking session chain k =>
      simp only [advance] at h
      split at h <;> obtain rfl := Option.some.inj h <;> exact ⟨_, rfl, Next.marked⟩
  | removing session =>
      simp only [advance] at h
      split at h <;> obtain rfl := Option.some.inj h <;> exact ⟨_, rfl, Next.removed⟩
  | collecting l i found =>
      simp only [advance] at h
      split at h
      · cases h
      · rename_i hi
        obtain rfl := Option.some.inj h
        exact ⟨_, rfl, Next.collected (Nat.le_of_not_lt hi)⟩
  | looping l ids =>
      cases ids with
      | nil =>
          cases l <;> obtain rfl := Option.some.inj h <;> exact ⟨_, rfl, Next.ended⟩
      | cons session rest =>
          cases l with
          | shutdown =>
              obtain rfl := Option.some.inj h
              exact ⟨_, rfl, Next.flushes⟩
          | sweep =>
              simp only [advance] at h
              split at h
              · obtain rfl := Option.some.inj h
                refine ⟨_, rfl, ?_⟩
                split
                · exact Next.flushes
                · exact Next.skipped
              · obtain rfl := Option.some.inj h
                exact ⟨_, rfl, Next.skipped⟩
  | _ => cases h

/-! ### Submissions are runs of `record_usage_with_retry` -/

theorem runs_step {s s' : State} {act : Action} (h : ∀ sub ∈ s.submissions, sub.Runs)
    (hstep : step cfg sharding s act = some s') : ∀ sub ∈ s'.submissions, sub.Runs := by
  intro sub hmem
  cases change_of_step hstep with
  | hand ht =>
      rcases List.mem_append.1 hmem with hold | hnew
      · exact h sub hold
      · obtain rfl := List.mem_singleton.1 hnew
        exact Submission.runs_start _ _
  | attempt hsub hattempt =>
      rcases List.mem_or_eq_of_mem_set hmem with hold | rfl
      · exact h sub hold
      · exact (h _ (List.mem_of_getElem? hsub)).attempt hattempt
  | _ => exact h sub hmem

/-- **In every reachable state, a submission that has ended is a run of `record_usage_with_retry`**:
the loop, given the outcomes of its attempts, succeeds or fails as the submission did. -/
theorem success_of_reachable {s : State} (h : Reachable (step cfg sharding) init s)
    {sub : Submission} (hsub : sub ∈ s.submissions) {r : Bool} (hr : sub.result = some r)
    {outcomes : ℕ → Attempt} (hos : ∀ i o, sub.outcomes[i]? = some o → outcomes (i + 1) = o) :
    (recordUsageWithRetry sub.batch outcomes).success = r := by
  have hruns : ∀ sub ∈ s.submissions, sub.Runs :=
    h.invariant (fun _ hmem => by cases hmem) fun _ _ _ => runs_step
  exact (hruns sub hsub).success hr hos

end UsageBatch
