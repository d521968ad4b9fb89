/-
**The usage batcher as a system of interleaved tasks.**

`UsageBatcher` (`src/consumer/usage_batch.rs`) keeps a batch of pending tokens for each session.
`add_usage` adds to it, `flush_session` takes what is pending and hands it to
`record_usage_with_retry`, the sweeper and the shutdown path flush one session after the other, and
`remove_session` flushes and then removes the batch.  Every access to a batch is a section under the
lock of its shard and its own lock; between the sections a task can wait for the chain, and other
tasks run.  This module gives each call as a sequence of steps, one for each section and each answer
waited for, and the batcher as the transition system in which the scheduler interleaves any number
of them.

What `get_session` answers is up to the scheduler, as is the order in which an iteration finds the
keys of a shard.  `evict_session` and `warm_session` act on the cache of the verifier only and are
left out.  `State.log` and `State.tickets` are not data of the program: they are the history of the
sections and the number of batches taken so far.

Main definitions:

* `UsageBatch.SessionBatch` — the batch of a session;
* `UsageBatch.Submission` — a run of `record_usage_with_retry`;
* `UsageBatch.Pc`, `UsageBatch.State` — where a task stands, and the batcher;
* `UsageBatch.step` — the transition function.

Main results:

* `UsageBatch.toNat_saturatingAdd` — an addition adds what still fits;
* `UsageBatch.Submission.Runs.success` — **a submission that has ended is a run of
  `record_usage_with_retry`**.
-/

import SparklRouter.Chain.Usage
import SparklRouter.Concurrency.ShardMap
import SparklRouter.Concurrency.TaskPool
import SparklRouter.Concurrency.Transition

set_option relaxedAutoImplicit false
set_option autoImplicit false

namespace UsageBatch

open Chain

abbrev SessionId := UInt64

/-! ### The batch of a session -/

/-- The part of `SettlementConfig` the batcher reads. -/
structure SettlementConfig where
  recordUsageTokenChunk : UInt64
  recordUsageFlushIntervalSecs : UInt64

def SettlementConfig.chunk (cfg : SettlementConfig) : UInt64 := max cfg.recordUsageTokenChunk 1

/-- In nanoseconds, as are all times here. -/
def SettlementConfig.flushInterval (cfg : SettlementConfig) : ℕ :=
  (max cfg.recordUsageFlushIntervalSecs 1).toNat * 10 ^ 9

/-- The part of a session on chain the batcher reads. -/
structure ChainSession where
  inputTokensRecorded : UInt64
  outputTokensRecorded : UInt64
deriving DecidableEq

/-- The two kinds of tokens. -/
inductive Kind
  | input
  | output
deriving DecidableEq

/-- `u64::saturating_add`. -/
def saturatingAdd (a b : UInt64) : UInt64 :=
  if a.toNat + b.toNat < 2 ^ 64 then a + b else UInt64.ofNat (2 ^ 64 - 1)

theorem toNat_saturatingAdd (a b : UInt64) :
    (saturatingAdd a b).toNat = min (a.toNat + b.toNat) (2 ^ 64 - 1) := by
  unfold saturatingAdd
  have ha := a.toNat_lt
  have hb := b.toNat_lt
  split
  · rename_i hfit
    rw [UInt64.toNat_add]
    omega
  · rename_i hfit
    simp only [UInt64.toNat_ofNat']
    omega

/-- A sum vanishes only if both of its terms do. -/
theorem saturatingAdd_eq_zero {a b : UInt64} : saturatingAdd a b = 0 ↔ a = 0 ∧ b = 0 := by
  have hsum := toNat_saturatingAdd a b
  rw [← UInt64.toNat_inj, ← UInt64.toNat_inj, ← UInt64.toNat_inj, hsum]
  simp only [UInt64.toNat_zero]
  omega

structure SessionBatch where
  watermarkInput : UInt64
  watermarkOutput : UInt64
  pendingInput : UInt64
  pendingOutput : UInt64
  lastFlushAt : ℕ
  lastActivity : ℕ

namespace SessionBatch

def new (watermarkInput watermarkOutput : UInt64) (now : ℕ) : SessionBatch :=
  ⟨watermarkInput, watermarkOutput, 0, 0, now, now⟩

def pendingTotal (b : SessionBatch) : UInt64 := saturatingAdd b.pendingInput b.pendingOutput

def pending (b : SessionBatch) : Kind → UInt64
  | .input => b.pendingInput
  | .output => b.pendingOutput

/-- `last_flush_at.elapsed()`. -/
def elapsed (b : SessionBatch) (now : ℕ) : ℕ := now - b.lastFlushAt

/-- The section of `add_usage`. -/
def accumulate (b : SessionBatch) (input output : UInt64) (now : ℕ) : SessionBatch :=
  { b with
    pendingInput := saturatingAdd b.pendingInput input
    pendingOutput := saturatingAdd b.pendingOutput output
    lastActivity := now }

/-- Whether the section of `flush_session` takes the pending tokens. -/
def flushes (b : SessionBatch) (cfg : SettlementConfig) (force : Bool) (now : ℕ) : Bool :=
  if b.pendingTotal = 0 then false
  else if force then true
  else if b.pendingTotal < cfg.chunk ∧ b.elapsed now < cfg.flushInterval then false
  else true

/-- What the section leaves when it takes them. -/
def taken (b : SessionBatch) (now : ℕ) : SessionBatch :=
  { b with pendingInput := 0, pendingOutput := 0, lastFlushAt := now }

/-- Whether the sweeper flushes the session. -/
def due (b : SessionBatch) (cfg : SettlementConfig) (now : ℕ) : Bool :=
  decide (0 < b.pendingTotal ∧ cfg.flushInterval ≤ b.elapsed now)

def watermark (b : SessionBatch) (c : ChainSession) : SessionBatch :=
  { b with watermarkInput := c.inputTokensRecorded, watermarkOutput := c.outputTokensRecorded }

end SessionBatch

/-! ### Submissions -/

/-- A run of `record_usage_with_retry`: its batch, the outcomes of the attempts made so far, and
whether it has ended with a success or with a failure.  The ticket tells which section took the
batch. -/
structure Submission where
  ticket : ℕ
  batch : Batch
  outcomes : List Attempt
  result : Option Bool

def Submission.start (ticket : ℕ) (b : Batch) : Submission := ⟨ticket, b, [], none⟩

/-- The next attempt. -/
def Submission.attempt (sub : Submission) (o : Attempt) : Option Submission :=
  match sub.result with
  | some _ => none
  | none =>
      match (recordUsage sub.batch o).1 with
      | .ok _ => some { sub with outcomes := sub.outcomes ++ [o], result := some true }
      | .error _ =>
          let failed := sub.outcomes.length + 1 = maxAttempts
          some { sub with
            outcomes := sub.outcomes ++ [o]
            result := if failed then some false else none }

/-- The submission has failed, and the node has accepted none of its transactions. -/
def Submission.gaveUp (sub : Submission) : Bool :=
  sub.result == some false && sub.outcomes.all fun o => !o.accepted

theorem Submission.batch_attempt {sub sub' : Submission} {o : Attempt}
    (h : sub.attempt o = some sub') : sub'.ticket = sub.ticket ∧ sub'.batch = sub.batch := by
  unfold Submission.attempt at h
  split at h
  · cases h
  · split at h
    · obtain rfl := Option.some.inj h
      exact ⟨rfl, rfl⟩
    · obtain rfl := Option.some.inj h
      exact ⟨rfl, rfl⟩

/-- A submission that has ended makes no further attempt. -/
theorem Submission.attempt_of_ended {sub : Submission} {r : Bool} (h : sub.result = some r)
    (o : Attempt) : sub.attempt o = none := by
  simp [Submission.attempt, h]

/-- The submission is what its attempts have made of a fresh one. -/
def Submission.Runs (sub : Submission) : Prop :=
  sub.outcomes.foldlM Submission.attempt (Submission.start sub.ticket sub.batch) = some sub

theorem Submission.runs_start (ticket : ℕ) (b : Batch) : (Submission.start ticket b).Runs := rfl

theorem Submission.outcomes_attempt {sub sub' : Submission} {o : Attempt}
    (h : sub.attempt o = some sub') : sub'.outcomes = sub.outcomes ++ [o] := by
  unfold Submission.attempt at h
  split at h
  · cases h
  · split at h
    · obtain rfl := Option.some.inj h
      rfl
    · obtain rfl := Option.some.inj h
      rfl

theorem Submission.Runs.attempt {sub sub' : Submission} {o : Attempt} (h : sub.Runs)
    (hstep : sub.attempt o = some sub') : sub'.Runs := by
  obtain ⟨hticket, hbatch⟩ := Submission.batch_attempt hstep
  unfold Submission.Runs at h ⊢
  rw [hticket, hbatch, Submission.outcomes_attempt hstep, List.foldlM_append, h]
  simp [hstep]

/-- The attempts from a submission in progress on are the rest of the loop. -/
theorem Submission.success_of_attempts {sub sub' : Submission} {os : List Attempt} {r : Bool}
    {outcomes : ℕ → Attempt} (hsub : sub.result = none) (hlen : sub.outcomes.length < maxAttempts)
    (hrun : os.foldlM Submission.attempt sub = some sub') (hr : sub'.result = some r)
    (hos : ∀ i o, os[i]? = some o → outcomes (sub.outcomes.length + 1 + i) = o) :
    (retryFrom sub.batch outcomes (sub.outcomes.length + 1)
      (maxAttempts - sub.outcomes.length)).success = r := by
  induction os generalizing sub with
  | nil =>
      obtain rfl := Option.some.inj hrun
      rw [hsub] at hr
      cases hr
  | cons o os ih =>
      obtain ⟨sub₁, hstep, hrest⟩ : ∃ sub₁, sub.attempt o = some sub₁ ∧
          os.foldlM Submission.attempt sub₁ = some sub' := by
        simpa [List.foldlM_cons, Option.bind_eq_some_iff] using hrun
      have ho : outcomes (sub.outcomes.length + 1) = o := hos 0 o rfl
      obtain ⟨left, hleft⟩ : ∃ left, maxAttempts - sub.outcomes.length = left + 1 :=
        ⟨maxAttempts - sub.outcomes.length - 1, by omega⟩
      obtain ⟨-, hbatch⟩ := Submission.batch_attempt hstep
      have houtcomes := Submission.outcomes_attempt hstep
      have hlen₁ : sub₁.outcomes.length = sub.outcomes.length + 1 := by
        rw [houtcomes, List.length_append, List.length_singleton]
      rw [hleft, retryFrom, ho]
      -- a submission that has ended stays as it is
      have hended : ∀ q, sub₁.result = some q → q = r := by
        intro q hq
        cases os with
        | nil =>
            obtain rfl := Option.some.inj hrest
            exact Option.some.inj (hq.symm.trans hr)
        | cons o' os =>
            rw [List.foldlM_cons, Submission.attempt_of_ended hq] at hrest
            cases hrest
      simp only [Submission.attempt, hsub] at hstep
      cases hresult : recordUsage sub.batch o with
      | mk res txs =>
          rw [hresult] at hstep
          cases res with
          | ok _ =>
              obtain rfl := Option.some.inj hstep
              exact hended true rfl
          | error e =>
              obtain rfl := Option.some.inj hstep
              by_cases hlast : sub.outcomes.length + 1 = maxAttempts
              · have hq := hended false (by simp [hlast])
                have hzero : left = 0 := by omega
                simp [hzero, retryFrom, hq]
              · have hrec := ih (by simp [hlast]) (by rw [hlen₁]; omega) hrest
                  (fun i o' ho' => by
                    rw [hlen₁]
                    have := hos (i + 1) o' (by simpa using ho')
                    rw [← this]
                    congr 1
                    omega)
                rw [hlen₁] at hrec
                have : maxAttempts - (sub.outcomes.length + 1) = left := by omega
                rw [this] at hrec
                exact hrec

/-- **A submission that has ended is a run of `record_usage_with_retry`**: with the outcomes of its
attempts the loop succeeds or fails as the submission did. -/
theorem Submission.Runs.success {sub : Submission} (h : sub.Runs) {r : Bool}
    (hr : sub.result = some r) {outcomes : ℕ → Attempt}
    (hos : ∀ i o, sub.outcomes[i]? = some o → outcomes (i + 1) = o) :
    (recordUsageWithRetry sub.batch outcomes).success = r := by
  have hstart : (Submission.start sub.ticket sub.batch).outcomes.length < maxAttempts := by
    simp [Submission.start, maxAttempts]
  refine Submission.success_of_attempts rfl hstart h hr fun i o ho => ?_
  rw [← hos i o ho]
  congr 1
  simp [Submission.start, Nat.add_comm]

/-! ### The tasks -/

/-- The two loops over all sessions. -/
inductive Loop
  | sweep
  | shutdown
deriving DecidableEq

/-- What follows a call of `flush_session`. -/
inductive Cont
  | done
  | remove
  | loop (l : Loop) (rest : List SessionId)
deriving DecidableEq

/-- What follows a call of `ensure_session`. -/
inductive Ensured
  | done
  | accumulate (input output : UInt64)
  | flush (force awaitChain : Bool) (k : Cont)
deriving DecidableEq

/-- Where a task stands. -/
inductive Pc
  /-- In `ensure_session`, about to look the session up. -/
  | checking (session : SessionId) (k : Ensured)
  /-- In `ensure_session`, waiting for `get_session`. -/
  | fetching (session : SessionId) (k : Ensured)
  /-- In `ensure_session`, about to create the entry. -/
  | creating (session : SessionId) (chain : ChainSession) (k : Ensured)
  | accumulating (session : SessionId) (input output : UInt64)
  | flushing (session : SessionId) (force awaitChain : Bool) (k : Cont)
  /-- The batch has been taken; about to hand it over. -/
  | submitting (ticket : ℕ) (b : Batch) (awaitChain : Bool) (k : Cont)
  /-- Waiting for the submission to end. -/
  | awaiting (ticket : ℕ) (session : SessionId) (k : Cont)
  /-- Waiting for `get_session` after the batch was handed over. -/
  | refreshing (session : SessionId) (k : Cont)
  /-- About to set the watermarks. -/
  | marking (session : SessionId) (chain : ChainSession) (k : Cont)
  | removing (session : SessionId)
  /-- Collecting the ids of all sessions, about to read the given shard. -/
  | collecting (l : Loop) (shard : ℕ) (found : List SessionId)
  | looping (l : Loop) (rest : List SessionId)
  | finished
deriving DecidableEq

def Cont.resume (session : SessionId) : Cont → Pc
  | .done => .finished
  | .remove => .removing session
  | .loop l rest => .looping l rest

def Ensured.resume (session : SessionId) : Ensured → Pc
  | .done => .finished
  | .accumulate input output => .accumulating session input output
  | .flush force awaitChain k => .flushing session force awaitChain k

/-- `self.flush_session(session, force, await_chain)`. -/
def flushSession (session : SessionId) (force awaitChain : Bool) (k : Cont) : Pc :=
  .checking session (.flush force awaitChain k)

/-- The calls a task is spawned for. -/
inductive Call
  | ensureSession (session : SessionId)
  | addUsage (session : SessionId) (input output : UInt64)
  | flushSession (session : SessionId) (force awaitChain : Bool)
  | removeSession (session : SessionId)
  | sweepTimeouts
  | flushAllOnShutdown
deriving DecidableEq

def Call.forceFlush (session : SessionId) : Call := .flushSession session true false

def Call.start : Call → Pc
  | .ensureSession session => .checking session .done
  | .addUsage session input output =>
      if input = 0 ∧ output = 0 then .finished else .checking session (.accumulate input output)
  | .flushSession session force awaitChain => UsageBatch.flushSession session force awaitChain .done
  | .removeSession session => UsageBatch.flushSession session true false .remove
  | .sweepTimeouts => .collecting .sweep 0 []
  | .flushAllOnShutdown => .collecting .shutdown 0 []

/-! ### The system -/

abbrev TaskId := ℕ

/-- What the sections did. -/
inductive Event
  /-- `add_usage` added its tokens; the last two numbers are by how much the pending ones grew. -/
  | accumulated (session : SessionId) (input output : UInt64) (gainedInput gainedOutput : ℕ)
  /-- `add_usage` found no entry. -/
  | discarded (session : SessionId) (input output : UInt64)
  /-- The task was in the section of `flush_session`. -/
  | flushed (t : TaskId) (session : SessionId)
  | took (ticket : ℕ) (b : Batch)
  | removed (session : SessionId) (b : SessionBatch)

/-- The batcher, with the newest event first in its history. -/
structure State where
  sessions : ShardMap SessionId SessionBatch
  tasks : List Pc
  submissions : List Submission
  now : ℕ
  log : List Event
  tickets : ℕ

def init : State := ⟨ShardMap.empty, [], [], 0, [], 0⟩

def State.goTo (s : State) (t : TaskId) (pc : Pc) : State := { s with tasks := s.tasks.set t pc }

def State.record (s : State) (e : Event) : State := { s with log := e :: s.log }

def State.putBatch (s : State) (session : SessionId) (b : SessionBatch) : State :=
  { s with sessions := s.sessions.insert session b }

/-- What the scheduler can do. -/
inductive Action
  | call (c : Call)
  /-- The task takes its next step. -/
  | step (t : TaskId)
  /-- `get_session` answers the task that waits for it. -/
  | answer (t : TaskId) (reply : Option ChainSession)
  /-- The iteration finds the keys of its next shard. -/
  | iterate (t : TaskId) (ids : List SessionId)
  /-- The next attempt of a submission has the given outcome. -/
  | attempt (j : ℕ) (o : Attempt)
  | tick (nanos : ℕ)

variable (cfg : SettlementConfig) (sharding : Sharding SessionId)

/-- The section of `add_usage`, with a batch found. -/
def accumulateStep (s : State) (t : TaskId) (session : SessionId) (input output : UInt64)
    (b : SessionBatch) : State :=
  let b' := b.accumulate input output s.now
  let next :=
    if cfg.chunk ≤ b'.pendingTotal then flushSession session false false .done else .finished
  ((s.putBatch session b').record (.accumulated session input output
    (b'.pendingInput.toNat - b.pendingInput.toNat)
    (b'.pendingOutput.toNat - b.pendingOutput.toNat))).goTo t next

/-- The section of `flush_session` that takes the batch. -/
def takeStep (s : State) (t : TaskId) (session : SessionId) (awaitChain : Bool) (k : Cont)
    (b : SessionBatch) : State :=
  let batch : Batch := ⟨session, b.pendingInput, b.pendingOutput⟩
  { ((s.putBatch session (b.taken s.now)).record (.flushed t session)).record
      (.took s.tickets batch) with tickets := s.tickets + 1 }.goTo t
    (.submitting s.tickets batch awaitChain k)

/-- The section of `flush_session` that takes nothing. -/
def passStep (s : State) (t : TaskId) (session : SessionId) (k : Cont) : State :=
  (s.record (.flushed t session)).goTo t (k.resume session)

/-- The next step of a task that waits for no answer. -/
def advance (s : State) (t : TaskId) : Pc → Option State
  | .checking session k =>
      some (s.goTo t (if s.sessions.containsKey session then k.resume session
        else .fetching session k))
  | .creating session chain k =>
      let b := SessionBatch.new chain.inputTokensRecorded chain.outputTokensRecorded s.now
      some ({ s with sessions := (s.sessions.entryOrInsert session b).2 }.goTo t (k.resume session))
  | .accumulating session input output =>
      match s.sessions.get session with
      | some b => some (accumulateStep cfg s t session input output b)
      | none => some ((s.record (.discarded session input output)).goTo t .finished)
  | .flushing session force awaitChain k =>
      match s.sessions.get session with
      | some b =>
          some (if b.flushes cfg force s.now then takeStep s t session awaitChain k b
            else passStep s t session k)
      | none => some (passStep s t session k)
  | .submitting ticket b awaitChain k =>
      some ({ s with submissions := s.submissions ++ [Submission.start ticket b] }.goTo t
        (if awaitChain then .awaiting ticket b.sessionId k else .refreshing b.sessionId k))
  | .awaiting ticket session k =>
      if s.submissions.any fun sub => sub.ticket == ticket && sub.result.isSome then
        some (s.goTo t (.refreshing session k))
      else none
  | .marking session chain k =>
      match s.sessions.get session with
      | some b => some ((s.putBatch session (b.watermark chain)).goTo t (k.resume session))
      | none => some (s.goTo t (k.resume session))
  | .removing session =>
      match s.sessions.get session with
      | some b =>
          some (({ s with sessions := s.sessions.remove session }.record
            (.removed session b)).goTo t .finished)
      | none => some (s.goTo t .finished)
  | .collecting l shard found =>
      if shard < sharding.shards then none else some (s.goTo t (.looping l found))
  | .looping .sweep (session :: rest) =>
      match s.sessions.get session with
      | some b =>
          some (s.goTo t (if b.due cfg s.now then flushSession session true false (.loop .sweep rest)
            else .looping .sweep rest))
      | none => some (s.goTo t (.looping .sweep rest))
  | .looping .shutdown (session :: rest) =>
      some (s.goTo t (flushSession session true true (.loop .shutdown rest)))
  | .looping _ [] => some (s.goTo t .finished)
  | .fetching _ _ | .refreshing _ _ | .finished => none

/-- **The transition function of the batcher.** -/
def step (s : State) : Action → Option State
  | .call c => some { s with tasks := s.tasks ++ [c.start] }
  | .step t => (s.tasks[t]?).bind (advance cfg sharding s t)
  | .answer t reply =>
      (s.tasks[t]?).bind fun pc =>
        match pc, reply with
        | .fetching session k, some chain => some (s.goTo t (.creating session chain k))
        | .fetching session k, none => some (s.goTo t (k.resume session))
        | .refreshing session k, some chain => some (s.goTo t (.marking session chain k))
        | .refreshing session k, none => some (s.goTo t (k.resume session))
        | _, _ => none
  | .iterate t ids =>
      (s.tasks[t]?).bind fun pc =>
        match pc with
        | .collecting l shard found =>
            if shard < sharding.shards ∧ ids.Nodup ∧
                ids.toFinset = s.sessions.shardKeys sharding.shard shard then
              some (s.goTo t (.collecting l (shard + 1) (found ++ ids)))
            else none
        | _ => none
  | .attempt j o =>
      (s.submissions[j]?).bind fun sub =>
        (sub.attempt o).map fun sub' => { s with submissions := s.submissions.set j sub' }
  | .tick nanos => some { s with now := s.now + nanos }

/-- Batches of a hundred tokens, and a minute between flushes. -/
def sampleConfig : SettlementConfig := ⟨100, 60⟩

/-- One shard. -/
def sampleSharding : Sharding SessionId := ⟨1, fun _ => 0, fun _ => by decide⟩

end UsageBatch
