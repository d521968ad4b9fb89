/-
**The shutdown of the router.**

On ctrl-c the servers finish the requests in progress, and then `main` calls
`flush_all_on_shutdown`, which flushes one session after the other and waits for each submission to
end (`src/main.rs`, `src/consumer/usage_batch.rs`).  What it does not wait for are the detached
tasks: the `add_usage` that `record_parsed_usage` spawns for each request
(`src/consumer/forward.rs`), and the submissions of the flushes before it.  When `main` returns, the
runtime is dropped and what is left of them is gone.

This module runs the batcher within `main`.  The sweeper and the chain watcher go on until the end,
and the usage of a request can come in until the servers have finished.  A run in which a server
fails, and `main` returns at once, is not considered.

Main definitions:

* `Shutdown.Phase`, `Shutdown.State`, `Shutdown.step` — `main` with the batcher;
* `Shutdown.Drained` — the submissions that have ended carry all the usage passed;
* `Shutdown.covered` — the condition on one step.

Main results:

* `Shutdown.Balanced.step` — usage passed is accepted, or its `add_usage` has it still ahead;
* `Shutdown.Swept.step` — **the final flush leaves nothing pending**, if no `add_usage` is late;
* `Shutdown.drained_of_covered` — **nothing is lost when `main` returns**, in every covered run;
* `Shutdown.drained_breaks` — usage that was passed in time and is lost.
-/

import SparklRouter.Consumer.Sse
import SparklRouter.Consumer.UsageClosing

set_option relaxedAutoImplicit false
set_option autoImplicit false

namespace Shutdown

open Chain TaskPool Transition UsageBatch
open Sse (ParsedUsage)

/-! ### The system -/

inductive Phase
  | serving
  /-- The signal has come; the requests in progress go on. -/
  | stopping
  /-- The servers have finished; the task is the part of `main` in `flush_all_on_shutdown`. -/
  | draining (t : TaskId)
  | returned
deriving DecidableEq

/-- `main` with its batcher.  The last field is not data of the program: it is the usage passed to
`record_parsed_usage`. -/
structure State where
  batcher : UsageBatch.State
  phase : Phase
  usage : List (SessionId × ParsedUsage)

def init : State := ⟨UsageBatch.init, .serving, []⟩

/-- A task is spawned for a call of the batcher. -/
def State.spawn (s : State) (c : Call) : State :=
  { s with batcher := { s.batcher with tasks := s.batcher.tasks ++ [c.start] } }

inductive Action
  | recordParsedUsage (session : SessionId) (usage : Option ParsedUsage)
  | ctrlC
  | serversFinished
  /-- A step of the batcher, or a call of its sweeper or of the chain watcher. -/
  | batcher (act : UsageBatch.Action)
  | ret

/-- The calls of the sweeper and of the chain watcher, and all steps. -/
def background : UsageBatch.Action → Bool
  | .call .sweepTimeouts | .call (.removeSession _) | .call (.flushSession _ true false) => true
  | .call _ => false
  | _ => true

section

variable (cfg : SettlementConfig) (sharding : Sharding SessionId) (enabled : Bool)

def State.recordParsedUsage (s : State) (session : SessionId) : Option ParsedUsage → State
  | none => s
  | some usage =>
      let s' := { s with usage := (session, usage) :: s.usage }
      if enabled then s'.spawn (.addUsage session usage.inputTokens usage.outputTokens) else s'

/-- **The transition function of `main` with its batcher**, if there is one. -/
def step (s : State) : Action → Option State
  | .recordParsedUsage session usage =>
      if s.phase = .serving ∨ s.phase = .stopping then
        some (s.recordParsedUsage enabled session usage)
      else none
  | .ctrlC => if s.phase = .serving then some { s with phase := .stopping } else none
  | .serversFinished =>
      if s.phase = .stopping then
        some (if enabled then
          { s with phase := .draining s.batcher.tasks.length }.spawn .flushAllOnShutdown
        else { s with phase := .returned })
      else none
  | .batcher act =>
      if enabled = true ∧ s.phase ≠ .returned ∧ background act = true then
        (UsageBatch.step cfg sharding s.batcher act).map fun b => { s with batcher := b }
      else none
  | .ret =>
      match s.phase with
      | .draining t =>
          if s.batcher.tasks[t]? = some .finished then some { s with phase := .returned } else none
      | _ => none

end

/-! ### What is lost -/

def tokens (k : Kind) (input output : UInt64) : ℕ :=
  match k with
  | .input => input.toNat
  | .output => output.toNat

/-- The tokens passed to `record_parsed_usage`. -/
def State.passed (s : State) (session : SessionId) (k : Kind) : ℕ :=
  total (fun u => if u.1 = session then tokens k u.2.inputTokens u.2.outputTokens else 0) s.usage

/-- The tokens in the calls of `record_usage_with_retry` that have ended. -/
def State.completed (s : State) (session : SessionId) (k : Kind) : ℕ :=
  total (fun sub => if sub.result.isSome then share session k sub.batch else 0)
    s.batcher.submissions

/-- **All the usage passed is part of calls of `record_usage_with_retry` that have ended.**  No
token gets into two calls, so the sums agree only if no usage is missing. -/
def Drained (s : State) : Prop := ∀ session k, s.passed session k = s.completed session k

/-! ### The condition -/

/-- The usage of an `add_usage` that has its section ahead. -/
def adding : Pc → Option (SessionId × UInt64 × UInt64)
  | .checking session (.accumulate input output) | .fetching session (.accumulate input output)
  | .creating session _ (.accumulate input output) | .accumulating session input output =>
      some (session, input, output)
  | _ => none

/-- Some `add_usage` of the session has its section ahead. -/
def ahead (b : UsageBatch.State) (session : SessionId) : Bool :=
  b.tasks.any fun pc =>
    match adding pc with
    | some u => u.1 == session
    | none => false

def submits : Pc → Bool
  | .submitting _ _ _ _ => true
  | _ => false

/-- The section of `add_usage` finds a batch, and the sums fit; a removal finds nothing pending. -/
def keeps (b : UsageBatch.State) : Pc → Bool
  | .accumulating session input output =>
      match b.sessions.get session with
      | some batch => batch.pendingInput.toNat + input.toNat < 2 ^ 64 &&
          batch.pendingOutput.toNat + output.toNat < 2 ^ 64
      | none => false
  | .removing session =>
      match b.sessions.get session with
      | some batch => batch.pendingInput == 0 && batch.pendingOutput == 0
      | none => true
  | _ => true

/-- The section of the final flush: no `add_usage` of the session is late. -/
def inTime (b : UsageBatch.State) : Pc → Bool
  | .flushing session _ _ _ => !ahead b session
  | _ => true

/-- The final flush reads a shard: a session of the shard without an entry gets none later. -/
def listed (sharding : Sharding SessionId) (b : UsageBatch.State) : Pc → Bool
  | .collecting _ i _ =>
      b.tasks.all fun pc =>
        match adding pc with
        | some u => sharding.shard u.1 != i || b.sessions.containsKey u.1
        | none => true
  | _ => true

/-- Every batch that was taken is in a call of `record_usage_with_retry` that has ended. -/
def ended (b : UsageBatch.State) : Bool :=
  (b.tasks.all fun pc => !submits pc) && b.submissions.all fun sub => sub.result.isSome

/-- **The step loses no usage, and no detached task is late**: the batcher is enabled; an
`add_usage` finds its batch; the final flush comes to a session after the sections of its
`add_usage`s; and when `main` returns, the submissions have ended. -/
def covered (sharding : Sharding SessionId) (enabled : Bool) (s : State) : Action → Bool
  | .recordParsedUsage _ usage => enabled || usage.isNone
  | .batcher (.step t) =>
      match s.batcher.tasks[t]? with
      | some pc => keeps s.batcher pc && (s.phase != .draining t || inTime s.batcher pc)
      | none => true
  | .batcher (.iterate t _) =>
      match s.batcher.tasks[t]? with
      | some pc => s.phase != .draining t || listed sharding s.batcher pc
      | none => true
  | .ret => ended s.batcher
  | _ => true

variable {cfg : SettlementConfig} {sharding : Sharding SessionId} {enabled : Bool}

/-! ### The tasks that have usage ahead -/

/-- The tokens of an `add_usage` that has its section ahead. -/
def addingTokens (session : SessionId) (k : Kind) (pc : Pc) : ℕ :=
  match adding pc with
  | some u => if u.1 = session then tokens k u.2.1 u.2.2 else 0
  | none => 0

theorem adding_resume_ensured (k : Ensured) (session : SessionId) :
    adding (k.resume session) = adding (.checking session k) := by
  cases k with
  | done => rfl
  | accumulate input output => rfl
  | flush force awaitChain k => rfl

theorem adding_fetching (k : Ensured) (session : SessionId) :
    adding (.fetching session k) = adding (.checking session k) := by
  cases k with
  | done => rfl
  | accumulate input output => rfl
  | flush force awaitChain k => rfl

theorem adding_creating (k : Ensured) (session : SessionId) (chain : UsageBatch.ChainSession) :
    adding (.creating session chain k) = adding (.checking session k) := by
  cases k with
  | done => rfl
  | accumulate input output => rfl
  | flush force awaitChain k => rfl

theorem adding_resume (k : Cont) (session : SessionId) : adding (k.resume session) = none := by
  cases k with
  | done => rfl
  | remove => rfl
  | loop l rest => rfl

/-- A task that only moves has the same usage ahead. -/
theorem adding_of_move {b : UsageBatch.State} {act : UsageBatch.Action} {pc pc' : Pc}
    (h : Move b act pc pc') : adding pc' = adding pc := by
  cases h with
  | present hget => exact adding_resume_ensured _ _
  | absent => exact adding_fetching _ _
  | fetched => rw [adding_creating, adding_fetching]
  | unfetched => rw [adding_resume_ensured, adding_fetching]
  | found hget => rw [adding_resume_ensured, adding_creating]
  | unrefreshed => exact adding_resume _ _
  | unmarked => exact adding_resume _ _
  | _ => rfl

theorem adding_background {c : Call} (h : background (.call c) = true) : adding c.start = none := by
  cases c with
  | addUsage session input output => cases h
  | _ => rfl

theorem addingTokens_start (session session' : SessionId) (k : Kind) (input output : UInt64) :
    addingTokens session' k (Call.addUsage session input output).start =
      if session = session' then tokens k input output else 0 := by
  simp only [Call.start]
  split
  · rename_i hzero
    obtain ⟨rfl, rfl⟩ := hzero
    cases k <;> exact (ite_self _).symm
  · rfl

theorem addingTokens_of_adding {pc pc' : Pc} (h : adding pc' = adding pc) (session : SessionId)
    (k : Kind) : addingTokens session k pc' = addingTokens session k pc := by
  rw [addingTokens, addingTokens, h]

/-! ### The balance -/

/-- What the section of `add_usage` adds, when the sums fit. -/
theorem gained_of_keeps {b : UsageBatch.State} {session : SessionId} {input output : UInt64}
    {batch : SessionBatch} (hb : b.sessions.get session = some batch)
    (hkeeps : keeps b (.accumulating session input output) = true) (session' : SessionId)
    (k : Kind) (now : ℕ) :
    (Event.accumulated session input output
      ((batch.accumulate input output now).pendingInput.toNat - batch.pendingInput.toNat)
      ((batch.accumulate input output now).pendingOutput.toNat -
        batch.pendingOutput.toNat)).gained session' k =
      if session = session' then tokens k input output else 0 := by
  simp only [keeps, hb, Bool.and_eq_true, decide_eq_true_eq] at hkeeps
  rw [gained_accumulated]
  split
  · cases k with
    | input =>
        have hsum := toNat_saturatingAdd batch.pendingInput input
        simp only [SessionBatch.pending, SessionBatch.accumulate, tokens]
        omega
    | output =>
        have hsum := toNat_saturatingAdd batch.pendingOutput output
        simp only [SessionBatch.pending, SessionBatch.accumulate, tokens]
        omega
  · rfl

/-- **A step of the batcher moves usage from the tasks to what is accepted**, and gains what is
accepted. -/
theorem tally_of_change {b b' : UsageBatch.State} {act : UsageBatch.Action}
    (h : Change cfg b act b') (hback : background act = true)
    (hkeeps : ∀ t pc, act = .step t → b.tasks[t]? = some pc → keeps b pc = true)
    (session : SessionId) (k : Kind) :
    b'.accepted session k + total (addingTokens session k) b'.tasks =
        b.accepted session k + total (addingTokens session k) b.tasks ∧
      (b.gained session k = b.accepted session k →
        b'.gained session k = b'.accepted session k) := by
  have hset : ∀ {t : TaskId} {pc pc' : Pc}, b.tasks[t]? = some pc → adding pc' = adding pc →
      total (addingTokens session k) (b.tasks.set t pc') =
        total (addingTokens session k) b.tasks := fun ht hadding =>
    total_set_eq ht (addingTokens_of_adding hadding session k)
  cases h with
  | call c =>
      refine ⟨?_, id⟩
      change b.accepted session k + total (addingTokens session k) (b.tasks ++ [c.start]) = _
      rw [total_append, total_cons, total_nil, addingTokens, adding_background hback]
      rfl
  | tick nanos => exact ⟨rfl, id⟩
  | attempt hsub hattempt => exact ⟨rfl, id⟩
  | move ht hmove => exact ⟨congrArg (b.accepted session k + ·) (hset ht (adding_of_move hmove)), id⟩
  | create ht hnew =>
      refine ⟨congrArg (b.accepted session k + ·) (hset ht ?_), id⟩
      rw [adding_resume_ensured, adding_creating]
  | @accumulate t session' input output batch ht hb =>
      have hfits := hkeeps t _ rfl ht
      have hmoved := total_set (addingTokens session k) ht
        (if cfg.chunk ≤ (batch.accumulate input output b.now).pendingTotal
          then flushSession session' false false .done else .finished)
      have hnext : addingTokens session k
          (if cfg.chunk ≤ (batch.accumulate input output b.now).pendingTotal
            then flushSession session' false false .done else .finished) = 0 := by
        split <;> rfl
      rw [hnext] at hmoved
      have hgained := gained_of_keeps hb hfits session k b.now
      refine ⟨?_, fun hsame => ?_⟩
      · change (if session' = session then tokens k input output else 0) + b.accepted session k +
          total (addingTokens session k) (b.tasks.set t _) = _
        change _ + (if session' = session then tokens k input output else 0) = _ at hmoved
        omega
      · change Event.gained session k _ + b.gained session k =
          (if session' = session then tokens k input output else 0) + b.accepted session k
        omega
  | discard ht hb =>
      have hfits := hkeeps _ _ rfl ht
      rw [keeps, hb] at hfits
      cases hfits
  | @take t session' force awaitChain k' batch ht hb hflushes =>
      have htasks : total (addingTokens session k) (b.tasks.set t (.submitting b.tickets
          ⟨session', batch.pendingInput, batch.pendingOutput⟩ awaitChain k')) = _ := hset ht rfl
      refine ⟨?_, fun hsame => ?_⟩
      · change 0 + (0 + b.accepted session k) + total _ (b.tasks.set t _) = _
        rw [htasks]
        omega
      · change 0 + (0 + b.gained session k) = 0 + (0 + b.accepted session k)
        omega
  | pass ht hpass =>
      refine ⟨?_, fun hsame => ?_⟩
      · change 0 + b.accepted session k + total (addingTokens session k) (b.tasks.set _ _) = _
        rw [hset ht (adding_resume _ _)]
        omega
      · change 0 + b.gained session k = 0 + b.accepted session k
        omega
  | hand ht =>
      refine ⟨congrArg (b.accepted session k + ·) (hset ht ?_), id⟩
      split <;> rfl
  | mark ht hb => exact ⟨congrArg (b.accepted session k + ·) (hset ht (adding_resume _ _)), id⟩
  | @remove t session' batch ht hb =>
      have htasks : total (addingTokens session k) (b.tasks.set t .finished) = _ := hset ht rfl
      refine ⟨?_, fun hsame => ?_⟩
      · change 0 + b.accepted session k + total _ (b.tasks.set t _) = _
        rw [htasks]
        omega
      · change 0 + b.gained session k = 0 + b.accepted session k
        omega

/-- A removal that keeps everything finds nothing pending. -/
theorem closesClean_of_keeps {b : UsageBatch.State} {act : UsageBatch.Action}
    (hkeeps : ∀ t pc, act = .step t → b.tasks[t]? = some pc → keeps b pc = true)
    (b' : UsageBatch.State) : ClosesClean b act b' := by
  intro t session batch hact ht hb
  have hclean := hkeeps t _ hact ht
  simp only [keeps, hb, Bool.and_eq_true, beq_iff_eq] at hclean
  exact hclean

/-- **Usage passed is accepted, or its `add_usage` has it still ahead**; what is accepted is gained,
and nothing gained is dropped. -/
structure Balanced (s : State) : Prop where
  ledger : Ledger s.batcher
  dropped : ∀ session k, s.batcher.dropped session k = 0
  gained : ∀ session k, s.batcher.gained session k = s.batcher.accepted session k
  passed : ∀ session k, s.passed session k =
    s.batcher.accepted session k + total (addingTokens session k) s.batcher.tasks

theorem balanced_init : Balanced init :=
  ⟨ledger_init, fun _ _ => rfl, fun _ _ => rfl, fun _ _ => rfl⟩

theorem keeps_of_covered {s : State} {act : UsageBatch.Action}
    (h : covered sharding enabled s (.batcher act) = true) :
    ∀ t pc, act = .step t → s.batcher.tasks[t]? = some pc → keeps s.batcher pc = true := by
  rintro t pc rfl ht
  simp only [covered, ht, Bool.and_eq_true] at h
  exact h.1

theorem Balanced.batcher {s : State} (h : Balanced s) {act : UsageBatch.Action}
    {b : UsageBatch.State} (hstep : UsageBatch.step cfg sharding s.batcher act = some b)
    (hback : background act = true)
    (hcovered : covered sharding enabled s (.batcher act) = true) :
    Balanced { s with batcher := b } where
  ledger := h.ledger.step hstep
  dropped := dropped_step hstep (closesClean_of_keeps (keeps_of_covered hcovered) b) h.dropped
  gained session k :=
    (tally_of_change (change_of_step hstep) hback (keeps_of_covered hcovered) session k).2
      (h.gained session k)
  passed session k := by
    have htally :=
      (tally_of_change (change_of_step hstep) hback (keeps_of_covered hcovered) session k).1
    exact (h.passed session k).trans htally.symm

/-- A task that has nothing ahead, or the usage just passed. -/
theorem Balanced.spawn {s s' : State} (h : Balanced s) (c : Call)
    (hbatcher : s'.batcher = { s.batcher with tasks := s.batcher.tasks ++ [c.start] })
    (hpassed : ∀ session k, s'.passed session k =
      s.passed session k + addingTokens session k c.start) : Balanced s' where
  ledger := by
    have hcall : UsageBatch.step sampleConfig sampleSharding s.batcher (.call c) = some s'.batcher :=
      congrArg some hbatcher.symm
    exact h.ledger.step hcall
  dropped session k := by
    rw [hbatcher]
    exact h.dropped session k
  gained session k := by
    rw [hbatcher]
    exact h.gained session k
  passed session k := by
    have hbalance := h.passed session k
    rw [hpassed, hbatcher, total_append, total_cons, total_nil]
    change _ = s.batcher.accepted session k + _
    omega

/-! ### The final flush -/

/-- Nothing is pending for the session, and no `add_usage` has usage of it ahead. -/
structure Settled (b : UsageBatch.State) (session : SessionId) : Prop where
  noneAhead : ahead b session = false
  idle : b.idle session

theorem ahead_eq_false {b : UsageBatch.State} {session : SessionId} :
    ahead b session = false ↔ ∀ pc ∈ b.tasks, ∀ u, adding pc = some u → u.1 ≠ session := by
  rw [ahead, List.any_eq_false]
  refine forall₂_congr fun pc _ => ?_
  cases adding pc with
  | none => simp
  | some u => simp

/-- No task has usage of the session ahead that had none before. -/
theorem ahead_set {b b' : UsageBatch.State} {session : SessionId} (h : ahead b session = false)
    {t : TaskId} {pc pc' : Pc} (ht : b.tasks[t]? = some pc) (htasks : b'.tasks = b.tasks.set t pc')
    (hadding : adding pc' = none ∨ adding pc' = adding pc) : ahead b' session = false := by
  rw [ahead_eq_false] at h ⊢
  intro pc₁ hmem u hu
  rw [htasks] at hmem
  rcases List.mem_or_eq_of_mem_set hmem with hmem | rfl
  · exact h pc₁ hmem u hu
  · rcases hadding with hnone | hsame
    · rw [hnone] at hu
      cases hu
    · exact h pc (List.mem_of_getElem? ht) u (hsame ▸ hu)

/-- **No `add_usage` comes up again**, since no usage comes in. -/
theorem ahead_change {b b' : UsageBatch.State} {session : SessionId}
    (h : ahead b session = false) {act : UsageBatch.Action} (hchange : Change cfg b act b')
    (hback : background act = true) : ahead b' session = false := by
  have hset : ∀ {b₁ : UsageBatch.State} {t : TaskId} {pc pc' : Pc}, b.tasks[t]? = some pc →
      b₁.tasks = b.tasks.set t pc' → (adding pc' = none ∨ adding pc' = adding pc) →
      ahead b₁ session = false := fun ht htasks hadding => ahead_set h ht htasks hadding
  cases hchange with
  | call c =>
      refine ahead_eq_false.2 fun pc hmem u hu => ?_
      rcases List.mem_append.1 hmem with hmem | hmem
      · exact ahead_eq_false.1 h pc hmem u hu
      · obtain rfl := List.mem_singleton.1 hmem
        rw [adding_background hback] at hu
        cases hu
  | tick nanos => exact h
  | attempt hsub hattempt => exact h
  | move ht hmove => exact hset ht rfl (Or.inr (adding_of_move hmove))
  | create ht hnew =>
      refine hset ht rfl (Or.inr ?_)
      rw [adding_resume_ensured, adding_creating]
  | accumulate ht hb =>
      refine hset ht rfl (Or.inl ?_)
      split <;> rfl
  | discard ht hb => exact hset ht rfl (Or.inl rfl)
  | take ht hb hflushes => exact hset ht rfl (Or.inl rfl)
  | pass ht hpass => exact hset ht rfl (Or.inl (adding_resume _ _))
  | hand ht =>
      refine hset ht rfl (Or.inl ?_)
      split <;> rfl
  | mark ht hb => exact hset ht rfl (Or.inl (adding_resume _ _))
  | remove ht hb => exact hset ht rfl (Or.inl rfl)

/-- **What is settled stays settled.** -/
theorem Settled.change {b b' : UsageBatch.State} {session : SessionId} (h : Settled b session)
    {act : UsageBatch.Action} (hchange : Change cfg b act b') (hback : background act = true) :
    Settled b' session := by
  refine ⟨ahead_change h.noneAhead hchange hback, ?_⟩
  cases hchange with
  | @create t session' chain k ht hnew =>
      refine (idle_putBatch (fun kind => ?_) session).2 h.idle
      rw [pending_of_get_none hnew]
      cases kind <;> rfl
  | @accumulate t session' input output batch ht hb =>
      have hne : session' ≠ session :=
        ahead_eq_false.1 h.noneAhead _ (List.mem_of_getElem? ht) _ rfl
      exact (idle_putBatch_of_ne _ hne.symm).2 h.idle
  | @take t session' force awaitChain k batch ht hb hflushes =>
      by_cases heq : session = session'
      · subst heq
        have hget := ShardMap.get_insert_self b.sessions session (batch.taken b.now)
        exact (idle_iff_of_get (s := b.putBatch session (batch.taken b.now)) hget).2 ⟨rfl, rfl⟩
      · exact (idle_putBatch_of_ne _ heq).2 h.idle
  | @mark t session' chain k batch ht hb =>
      refine (idle_putBatch (fun kind => ?_) session).2 h.idle
      rw [pending_of_get hb]
      cases kind <;> rfl
  | @remove t session' batch ht hb =>
      intro kind
      change (((b.sessions.remove session').get session).map _).getD 0 = 0
      rw [ShardMap.get_remove]
      split
      · rfl
      · exact h.idle kind
  | _ => exact h.idle

/-- **A forced flush of a session leaves nothing pending.** -/
theorem idle_of_forced {b b' : UsageBatch.State} {t : TaskId} {session : SessionId}
    {awaitChain : Bool} {k : Cont}
    (h : advance cfg sharding b t (.flushing session true awaitChain k) = some b') :
    b'.idle session := by
  cases hb : b.sessions.get session with
  | none =>
      simp only [advance, hb, Option.some.injEq] at h
      subst h
      exact fun kind => pending_of_get_none hb kind
  | some batch =>
      simp only [advance, hb, Option.some.injEq] at h
      subst h
      by_cases hzero : batch.pendingTotal = 0
      · have hpass : batch.flushes cfg true b.now = false := by
          simp [SessionBatch.flushes, hzero]
        rw [hpass]
        exact (idle_iff_of_get hb).2 (saturatingAdd_eq_zero.1 hzero)
      · have htake : batch.flushes cfg true b.now = true := by
          simp [SessionBatch.flushes, hzero]
        rw [htake]
        have hget := ShardMap.get_insert_self b.sessions session (batch.taken b.now)
        exact (idle_iff_of_get (s := b.putBatch session (batch.taken b.now)) hget).2 ⟨rfl, rfl⟩

/-- The final flush has the session ahead, once the call that comes before `k` returns. -/
def sweepsRest (session : SessionId) : Cont → Prop
  | .loop .shutdown rest => session ∈ rest
  | _ => False

/-- The final flush is about to flush `x`, and has the session ahead. -/
def sweepsFlush (session x : SessionId) : Ensured → Prop
  | .flush true _ (.loop .shutdown rest) => session = x ∨ session ∈ rest
  | _ => False

/-- The final flush has the session ahead. -/
def sweeps (sharding : Sharding SessionId) (session : SessionId) : Pc → Prop
  | .collecting .shutdown i found => i ≤ sharding.shard session ∨ session ∈ found
  | .looping .shutdown rest => session ∈ rest
  | .checking x k | .fetching x k | .creating x _ k => sweepsFlush session x k
  | .flushing x force awaitChain k => sweepsFlush session x (.flush force awaitChain k)
  | .submitting _ _ _ k | .awaiting _ _ k | .refreshing _ k | .marking _ _ k =>
      sweepsRest session k
  | _ => False

theorem exists_of_sweepsFlush {session x : SessionId} {k : Ensured} (h : sweepsFlush session x k) :
    ∃ awaitChain rest,
      k = .flush true awaitChain (.loop .shutdown rest) ∧ (session = x ∨ session ∈ rest) := by
  cases k with
  | done => cases h
  | accumulate input output => cases h
  | flush force awaitChain k =>
      cases force with
      | false => cases h
      | true =>
          cases k with
          | done => cases h
          | remove => cases h
          | loop l rest =>
              cases l with
              | sweep => cases h
              | shutdown => exact ⟨awaitChain, rest, rfl, h⟩

theorem exists_of_sweepsRest {session : SessionId} {k : Cont} (h : sweepsRest session k) :
    ∃ rest, k = .loop .shutdown rest ∧ session ∈ rest := by
  cases k with
  | done => cases h
  | remove => cases h
  | loop l rest =>
      cases l with
      | sweep => cases h
      | shutdown => exact ⟨rest, rfl, h⟩

/-- A session is settled, or the final flush has it ahead. -/
def Swept (sharding : Sharding SessionId) (b : UsageBatch.State) (t : TaskId)
    (session : SessionId) : Prop :=
  Settled b session ∨ ∃ pc, b.tasks[t]? = some pc ∧ sweeps sharding session pc

/-- The task of the final flush moves on and has the session ahead still. -/
theorem Swept.goTo {b : UsageBatch.State} {t : TaskId} {pc pc' : Pc} {session : SessionId}
    (ht : b.tasks[t]? = some pc) (b₁ : UsageBatch.State) (htasks : b₁.tasks = b.tasks)
    (hpc : sweeps sharding session pc') : Swept sharding (b₁.goTo t pc') t session := by
  refine Or.inr ⟨pc', ?_, hpc⟩
  change (b₁.tasks.set t pc')[t]? = some pc'
  rw [htasks]
  exact getElem?_set_self ht pc'

/-- A step of the final flush that waits for nothing. -/
theorem swept_advance {b b' : UsageBatch.State} {t : TaskId} {pc : Pc} {session : SessionId}
    (ht : b.tasks[t]? = some pc) (hpc : sweeps sharding session pc)
    (h : advance cfg sharding b t pc = some b') (hin : inTime b pc = true) :
    Swept sharding b' t session := by
  cases pc with
  | checking x k =>
      obtain ⟨awaitChain, rest, rfl, hrest⟩ := exists_of_sweepsFlush hpc
      obtain rfl := Option.some.inj h
      refine Swept.goTo ht b rfl ?_
      split
      · exact hrest
      · exact hrest
  | creating x chain k =>
      obtain ⟨awaitChain, rest, rfl, hrest⟩ := exists_of_sweepsFlush hpc
      obtain rfl := Option.some.inj h
      exact Swept.goTo ht _ rfl hrest
  | flushing x force awaitChain k =>
      obtain ⟨awaitChain', rest, heq, hrest⟩ := exists_of_sweepsFlush hpc
      cases heq
      by_cases hx : session = x
      · subst hx
        have hahead : ahead b session = false := by simpa [inTime] using hin
        exact Or.inl ⟨ahead_change hahead (change_of_advance ht h) rfl, idle_of_forced h⟩
      · have hmem : session ∈ rest := hrest.resolve_left hx
        cases hb : b.sessions.get x with
        | none =>
            simp only [advance, hb, Option.some.injEq] at h
            subst h
            exact Swept.goTo ht _ rfl hmem
        | some batch =>
            simp only [advance, hb, Option.some.injEq] at h
            subst h
            split
            · exact Swept.goTo ht { ((b.putBatch x _).record _).record _ with
                tickets := b.tickets + 1 } rfl hmem
            · exact Swept.goTo ht _ rfl hmem
  | submitting ticket batch awaitChain k =>
      obtain ⟨rest, rfl, hmem⟩ := exists_of_sweepsRest hpc
      obtain rfl := Option.some.inj h
      refine Swept.goTo ht { b with submissions := _ } rfl ?_
      split
      · exact hmem
      · exact hmem
  | awaiting ticket x k =>
      obtain ⟨rest, rfl, hmem⟩ := exists_of_sweepsRest hpc
      simp only [advance] at h
      split at h
      · obtain rfl := Option.some.inj h
        exact Swept.goTo ht _ rfl hmem
      · cases h
  | marking x chain k =>
      obtain ⟨rest, rfl, hmem⟩ := exists_of_sweepsRest hpc
      cases hb : b.sessions.get x with
      | none =>
          simp only [advance, hb, Option.some.injEq] at h
          subst h
          exact Swept.goTo ht _ rfl hmem
      | some batch =>
          simp only [advance, hb, Option.some.injEq] at h
          subst h
          exact Swept.goTo ht (b.putBatch x _) rfl hmem
  | collecting l i found =>
      cases l with
      | sweep => cases hpc
      | shutdown =>
          simp only [advance] at h
          split at h
          · cases h
          · rename_i hdone
            obtain rfl := Option.some.inj h
            have hlt := sharding.shard_lt session
            refine Swept.goTo ht _ rfl (hpc.resolve_left fun hle => ?_)
            omega
  | looping l ids =>
      cases l with
      | sweep => cases hpc
      | shutdown =>
          cases ids with
          | nil => exact absurd hpc List.not_mem_nil
          | cons x rest =>
              obtain rfl := Option.some.inj h
              exact Swept.goTo ht _ rfl (List.mem_cons.1 hpc)
  | fetching x k => cases h
  | refreshing x k => cases h
  | finished => cases h
  | accumulating x input output => cases hpc
  | removing x => cases hpc

/-- The chain answers the final flush. -/
theorem swept_answer {b b' : UsageBatch.State} {t : TaskId} {pc : Pc} {session : SessionId}
    {reply : Option UsageBatch.ChainSession} (ht : b.tasks[t]? = some pc)
    (hpc : sweeps sharding session pc)
    (h : UsageBatch.step cfg sharding b (.answer t reply) = some b') :
    Swept sharding b' t session := by
  rw [UsageBatch.step, ht, Option.bind_some] at h
  cases pc with
  | fetching x k =>
      obtain ⟨awaitChain, rest, rfl, hrest⟩ := exists_of_sweepsFlush hpc
      cases reply with
      | some chain =>
          obtain rfl := Option.some.inj h
          exact Swept.goTo ht _ rfl hrest
      | none =>
          obtain rfl := Option.some.inj h
          exact Swept.goTo ht _ rfl hrest
  | refreshing x k =>
      obtain ⟨rest, rfl, hmem⟩ := exists_of_sweepsRest hpc
      cases reply with
      | some chain =>
          obtain rfl := Option.some.inj h
          exact Swept.goTo ht _ rfl hmem
      | none =>
          obtain rfl := Option.some.inj h
          exact Swept.goTo ht _ rfl hmem
  | _ => cases h

/-- The final flush reads a shard.  A session of the shard is found, or it has no entry, and then
nothing of it is pending and no `add_usage` has usage of it ahead. -/
theorem swept_iterate {b b' : UsageBatch.State} {t : TaskId} {pc : Pc} {session : SessionId}
    {ids : List SessionId} (ht : b.tasks[t]? = some pc) (hpc : sweeps sharding session pc)
    (h : UsageBatch.step cfg sharding b (.iterate t ids) = some b')
    (hlisted : listed sharding b pc = true) : Swept sharding b' t session := by
  have hchange := change_of_step h
  rw [UsageBatch.step, ht, Option.bind_some] at h
  cases pc with
  | collecting l i found =>
      cases l with
      | sweep => cases hpc
      | shutdown =>
          simp only at h
          split at h
          · rename_i hids
            obtain rfl := Option.some.inj h
            rcases hpc with hle | hmem
            · rcases Nat.lt_or_ge i (sharding.shard session) with hlt | hge
              · exact Swept.goTo ht _ rfl (Or.inl hlt)
              · have hshard : sharding.shard session = i := Nat.le_antisymm hge hle
                cases hget : b.sessions.get session with
                | some batch =>
                    have hkey : session ∈ ids := by
                      rw [← List.mem_toFinset, hids.2.2, ShardMap.shardKeys, Finset.mem_filter,
                        b.sessions.mem_keys, hget]
                      exact ⟨rfl, hshard⟩
                    exact Swept.goTo ht _ rfl (Or.inr (List.mem_append_right found hkey))
                | none =>
                    have hahead : ahead b session = false := by
                      refine ahead_eq_false.2 fun pc hmem u hu heq => ?_
                      have hthere := List.all_eq_true.1 hlisted pc hmem
                      simp [hu, heq, hshard, ShardMap.containsKey, hget] at hthere
                    exact Or.inl (Settled.change ⟨hahead, fun k => pending_of_get_none hget k⟩
                      hchange rfl)
            · exact Swept.goTo ht _ rfl (Or.inr (List.mem_append_left ids hmem))
          · cases h
  | _ => cases h

/-! ### The other tasks -/

/-- The task that takes the step. -/
def actor : UsageBatch.Action → Option TaskId
  | .step t | .answer t _ | .iterate t _ => some t
  | _ => none

/-- **A step leaves the other tasks where they are.** -/
theorem task_of_step {b b' : UsageBatch.State} {act : UsageBatch.Action} {t : TaskId} {pc : Pc}
    (h : UsageBatch.step cfg sharding b act = some b') (hact : actor act ≠ some t)
    (ht : b.tasks[t]? = some pc) : b'.tasks[t]? = some pc := by
  have hother : ∀ {t' : TaskId} {pc' : Pc}, some t' ≠ some t →
      (b.tasks.set t' pc')[t]? = some pc := fun hne => by
    rwa [List.getElem?_set_ne fun heq => hne (congrArg some heq)]
  cases act with
  | call c =>
      obtain rfl := Option.some.inj h
      exact getElem?_append_of ht
  | step t' =>
      obtain ⟨pc', -, h⟩ := Option.bind_eq_some_iff.1 h
      obtain ⟨pc'', htasks, -⟩ := next_of_advance h
      rw [htasks]
      exact hother hact
  | answer t' reply =>
      obtain ⟨pc', -, h⟩ := Option.bind_eq_some_iff.1 h
      split at h
      · obtain rfl := Option.some.inj h
        exact hother hact
      · obtain rfl := Option.some.inj h
        exact hother hact
      · obtain rfl := Option.some.inj h
        exact hother hact
      · obtain rfl := Option.some.inj h
        exact hother hact
      · cases h
  | iterate t' ids =>
      obtain ⟨pc', -, h⟩ := Option.bind_eq_some_iff.1 h
      split at h
      · split at h
        · obtain rfl := Option.some.inj h
          exact hother hact
        · cases h
      · cases h
  | attempt j o =>
      obtain ⟨sub, -, h⟩ := Option.bind_eq_some_iff.1 h
      obtain ⟨sub', -, rfl⟩ := Option.map_eq_some_iff.1 h
      exact ht
  | tick nanos =>
      obtain rfl := Option.some.inj h
      exact ht

/-- **A covered step of the batcher leaves every session settled or ahead.** -/
theorem Swept.step {s : State} {act : UsageBatch.Action} {b : UsageBatch.State} {t : TaskId}
    {session : SessionId} (h : Swept sharding s.batcher t session)
    (hphase : s.phase = .draining t)
    (hstep : UsageBatch.step cfg sharding s.batcher act = some b) (hback : background act = true)
    (hcovered : covered sharding enabled s (.batcher act) = true) : Swept sharding b t session := by
  rcases h with hsettled | ⟨pc, ht, hpc⟩
  · exact Or.inl (hsettled.change (change_of_step hstep) hback)
  · by_cases hact : actor act = some t
    · cases act with
      | step t' =>
          obtain rfl := Option.some.inj hact
          simp only [covered, ht, hphase, Bool.and_eq_true, bne_self_eq_false,
            Bool.false_or] at hcovered
          rw [UsageBatch.step, ht, Option.bind_some] at hstep
          exact swept_advance ht hpc hstep hcovered.2
      | answer t' reply =>
          obtain rfl := Option.some.inj hact
          exact swept_answer ht hpc hstep
      | iterate t' ids =>
          obtain rfl := Option.some.inj hact
          simp only [covered, ht, hphase, bne_self_eq_false, Bool.false_or] at hcovered
          exact swept_iterate ht hpc hstep hcovered
      | call c => cases hact
      | attempt j o => cases hact
      | tick nanos => cases hact
    · exact Or.inr ⟨pc, task_of_step hstep hact ht, hpc⟩

/-! ### Every run -/

/-- What holds in every state of a covered run. -/
structure Invariant (sharding : Sharding SessionId) (enabled : Bool) (s : State) : Prop where
  balanced : Balanced s
  swept : ∀ t, s.phase = .draining t → ∀ session, Swept sharding s.batcher t session
  /-- Without a batcher nothing is passed. -/
  disabled : enabled = false → s.usage = [] ∧ s.batcher = UsageBatch.init
  drained : s.phase = .returned → Drained s

theorem invariant_init : Invariant sharding enabled init where
  balanced := balanced_init
  swept t h := by cases h
  disabled _ := ⟨rfl, rfl⟩
  drained h := by cases h

/-- **When `main` returns**, everything passed is in a submission, and every submission has ended. -/
theorem drained_of_swept {s : State} (h : Balanced s) {t : TaskId}
    (ht : s.batcher.tasks[t]? = some .finished)
    (hswept : ∀ session, Swept sharding s.batcher t session) (hended : ended s.batcher = true) :
    Drained s := by
  obtain ⟨hhands, hsubs⟩ := (Bool.and_eq_true _ _).mp hended
  intro session k
  have hsettled : Settled s.batcher session := by
    rcases hswept session with hsettled | ⟨pc, hpc, hsweeps⟩
    · exact hsettled
    · obtain rfl := Option.some.inj (ht.symm.trans hpc)
      cases hsweeps
  have hadding : total (addingTokens session k) s.batcher.tasks = 0 := by
    refine total_eq_zero.2 fun pc hmem => ?_
    rw [addingTokens]
    cases hu : adding pc with
    | none => rfl
    | some u => exact if_neg (ahead_eq_false.1 hsettled.noneAhead pc hmem u hu)
  have hinHand : s.batcher.inHand session k = 0 := by
    refine total_eq_zero.2 fun pc hmem => ?_
    have hpc := List.all_eq_true.1 hhands pc hmem
    cases pc with
    | submitting ticket b awaitChain k => cases hpc
    | _ => rfl
  have hcompleted : s.completed session k = s.batcher.handed session k := by
    refine total_congr fun sub hmem => ?_
    rw [if_pos (List.all_eq_true.1 hsubs sub hmem)]
  have hpassed := h.passed session k
  have hgained := h.gained session k
  have hbalance := h.ledger.balance session k
  have hcustody := h.ledger.custody session k
  have hdropped := h.dropped session k
  have hidle := hsettled.idle k
  omega

theorem Invariant.step {s s' : State} {a : Action} (h : Invariant sharding enabled s)
    (hs : Shutdown.step cfg sharding enabled s a = some s')
    (hcovered : covered sharding enabled s a = true) : Invariant sharding enabled s' := by
  cases a with
  | recordParsedUsage session usage =>
      rw [Shutdown.step] at hs
      split at hs
      · rename_i hphase
        obtain rfl := Option.some.inj hs
        cases usage with
        | none => exact h
        | some usage =>
            have henabled : enabled = true := by simpa [covered] using hcovered
            subst henabled
            refine ⟨?_, fun t ht => ?_, fun hf => (by cases hf), fun hr => ?_⟩
            · refine h.balanced.spawn (.addUsage session usage.inputTokens usage.outputTokens) rfl
                fun session' k => ?_
              rw [addingTokens_start]
              change total _ ((session, usage) :: s.usage) = _
              rw [total_cons, Nat.add_comm]
              rfl
            · rcases hphase with hserving | hstopping
              · cases hserving.symm.trans ht
              · cases hstopping.symm.trans ht
            · rcases hphase with hserving | hstopping
              · cases hserving.symm.trans hr
              · cases hstopping.symm.trans hr
      · cases hs
  | ctrlC =>
      rw [Shutdown.step] at hs
      split at hs
      · obtain rfl := Option.some.inj hs
        exact ⟨⟨h.balanced.ledger, h.balanced.dropped, h.balanced.gained, h.balanced.passed⟩,
          fun t ht => (by cases ht), h.disabled, fun hr => (by cases hr)⟩
      · cases hs
  | serversFinished =>
      rw [Shutdown.step] at hs
      split at hs
      · obtain rfl := Option.some.inj hs
        cases henabled : enabled with
        | true =>
            refine ⟨h.balanced.spawn .flushAllOnShutdown rfl fun session k => rfl,
              fun t ht session => Or.inr ⟨.collecting .shutdown 0 [], ?_, Or.inl (Nat.zero_le _)⟩,
              fun hf => (by cases hf), fun hr => (by cases hr)⟩
            obtain rfl := Phase.draining.inj ht
            exact List.getElem?_concat_length
        | false =>
            obtain ⟨husage, hbatcher⟩ := h.disabled henabled
            refine ⟨⟨h.balanced.ledger, h.balanced.dropped, h.balanced.gained,
              h.balanced.passed⟩, fun t ht => (by cases ht), fun _ => ⟨husage, hbatcher⟩,
              fun _ session k => ?_⟩
            change total _ s.usage = total _ s.batcher.submissions
            rw [husage, hbatcher]
            rfl
      · cases hs
  | batcher act =>
      rw [Shutdown.step] at hs
      split at hs
      · rename_i hon
        obtain ⟨b, hstep, rfl⟩ := Option.map_eq_some_iff.1 hs
        exact ⟨h.balanced.batcher hstep hon.2.2 hcovered,
          fun t ht session => (h.swept t ht session).step ht hstep hon.2.2 hcovered,
          fun hf => (by rw [hon.1] at hf; cases hf), fun hr => absurd hr hon.2.1⟩
      · cases hs
  | ret =>
      rw [Shutdown.step] at hs
      split at hs
      · rename_i t hphase
        split at hs
        · rename_i hfinished
          obtain rfl := Option.some.inj hs
          have hbalanced : Balanced { s with phase := .returned } :=
            ⟨h.balanced.ledger, h.balanced.dropped, h.balanced.gained, h.balanced.passed⟩
          exact ⟨hbalanced, fun t ht => (by cases ht), h.disabled,
            fun _ => drained_of_swept hbalanced hfinished (h.swept t hphase) hcovered⟩
        · cases hs
      · cases hs

/-- **Shutdown drains all usage, as long as no detached task is late**: in every run whose steps are
all covered, whenever `main` has returned, all the usage passed to `record_parsed_usage` is part of
calls of `record_usage_with_retry` that have ended. -/
theorem drained_of_covered (cfg : SettlementConfig) (sharding : Sharding SessionId) (enabled : Bool)
    {as : List Action}
    (h : Throughout (step cfg sharding enabled)
      (fun s a _ => covered sharding enabled s a = true) init as) :
    Always (step cfg sharding enabled) (fun s => s.phase = .returned → Drained s) init as :=
  (always_of_step (fun _ _ _ hinv hs hcovered => hinv.step hs hcovered) invariant_init h).mono
    fun _ hinv => hinv.drained

/-! ### Usage on time, and too late -/

/-- The `add_usage` of a request is in its section before the final flush. -/
def onTime : List Action :=
  [.recordParsedUsage 1 (some ⟨7, 3⟩), .batcher (.step 0), .batcher (.answer 0 (some ⟨0, 0⟩)),
    .batcher (.step 0), .batcher (.step 0), .ctrlC, .serversFinished, .batcher (.iterate 1 [1]),
    .batcher (.step 1), .batcher (.step 1), .batcher (.step 1), .batcher (.step 1),
    .batcher (.step 1), .batcher (.attempt 0 .confirmed), .batcher (.step 1),
    .batcher (.answer 1 none), .batcher (.step 1), .ret]

/-- Its task has not run when `main` returns. -/
def tooLate : List Action :=
  [.recordParsedUsage 1 (some ⟨7, 3⟩), .ctrlC, .serversFinished, .batcher (.iterate 1 []),
    .batcher (.step 1), .batcher (.step 1), .ret]

def observe (s : State) : Phase × ℕ × ℕ × ℕ × ℕ :=
  (s.phase, s.passed 1 .input, s.completed 1 .input, s.passed 1 .output, s.completed 1 .output)

theorem observe_onTime :
    (run (step sampleConfig sampleSharding true) init onTime).map observe =
      some (.returned, 7, 7, 3, 3) := by
  decide +kernel

theorem observe_tooLate :
    (run (step sampleConfig sampleSharding true) init tooLate).map observe =
      some (.returned, 7, 0, 3, 0) := by
  decide +kernel

theorem drained_onTime :
    ∃ s, run (step sampleConfig sampleSharding true) init onTime = some s ∧ s.phase = .returned ∧
      Drained s ∧ s.completed 1 .input = 7 := by
  have hcovered : Throughout (step sampleConfig sampleSharding true)
      (fun s a _ => covered sampleSharding true s a = true) init onTime :=
    throughout_of_check (by decide +kernel)
  have halways := drained_of_covered sampleConfig sampleSharding true hcovered
  obtain ⟨s, hrun, hobs⟩ := Option.map_eq_some_iff.1 observe_onTime
  obtain ⟨hphase, hrest⟩ := Prod.mk.inj hobs
  exact ⟨s, hrun, hphase, halways.last hrun hphase,
    (Prod.mk.inj (Prod.mk.inj hrest).2).1⟩

/-- **Usage that was passed in time is lost**: `main` does not wait for the detached task. -/
theorem drained_breaks :
    ¬ ∀ (cfg : SettlementConfig) (sharding : Sharding SessionId) (as : List Action),
      Always (step cfg sharding true) (fun s => s.phase = .returned → Drained s) init as := by
  intro hall
  obtain ⟨s, hdrained, hobs⟩ :=
    (hall sampleConfig sampleSharding tooLate).observe observe_tooLate
  obtain ⟨hphase, hrest⟩ := Prod.mk.inj hobs
  obtain ⟨hpassed, hrest⟩ := Prod.mk.inj hrest
  have hsame := hdrained hphase 1 .input
  rw [hpassed, (Prod.mk.inj hrest).1] at hsame
  cases hsame

end Shutdown
