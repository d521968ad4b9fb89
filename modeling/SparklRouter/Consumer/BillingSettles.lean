/-
**No token is stuck.**

`Billing.balance` says where the tokens of a session can be.  Five of the places are transitory:
pending in a batch, in the hand of a flush, in a submission that has not ended, in the pool of the
node, and in an attempt that waits for its answer.  This module shows that none of them is a trap:
from every state the batcher and its node reach, they can go on, without any further usage and
without charging anything a second time, to a state in which the five are empty.

Main definitions:

* `Billing.State.tally` — what a step that only moves tokens along leaves as it is;
* `Billing.State.measure` — how much is on the way;
* `Billing.Lowers` — the batcher and its node can go on.

Main results:

* `Billing.lowers_of_measure` — as long as something is on the way it can be moved along;
* `Billing.exists_settled` — **from every state everything that is not lost can be charged**.
-/

import SparklRouter.Consumer.Billing
import SparklRouter.Consumer.UsageRestore
import Mathlib.Algebra.Order.BigOperators.Group.Finset

set_option relaxedAutoImplicit false
set_option autoImplicit false

namespace Billing

open Chain UsageBatch TaskPool Transition

variable {cfg : SettlementConfig} {sharding : Sharding SessionId}

/-! ### What is on the way -/

/-- Whether tokens of the session are pending. -/
def hasPending (sessions : ShardMap SessionId SessionBatch) (session : SessionId) : Bool :=
  (sessions.get session).any fun sb => sb.pendingTotal != 0

def pendingSessions (sessions : ShardMap SessionId SessionBatch) : Finset SessionId :=
  sessions.keys.filter fun session => hasPending sessions session

theorem mem_pendingSessions {sessions : ShardMap SessionId SessionBatch} {session : SessionId} :
    session ∈ pendingSessions sessions ↔
      ∃ sb, sessions.get session = some sb ∧ sb.pendingTotal ≠ 0 := by
  unfold pendingSessions hasPending
  rw [Finset.mem_filter, sessions.mem_keys]
  cases sessions.get session with
  | none => simp
  | some sb => simp

/-- Whether the task has a batch in its hand. -/
def inSubmission : Pc → Bool
  | .submitting _ _ _ _ => true
  | _ => false

/-- How much is left to do for a submission that has not ended: its remaining attempts, and the
transaction if the node has accepted none so far. -/
def State.left (s : State) (j : ℕ) : ℕ :=
  match s.batcher.submissions[j]? with
  | some sub =>
      if sub.result = none then
        (if s.sends j = 0 then 2 else 0) + 1 + (maxAttempts - sub.outcomes.length)
      else 0
  | none => 0

/-- How much is on the way. -/
def State.measure (s : State) : ℕ :=
  8 * (pendingSessions s.batcher.sessions).card +
    7 * total (indicator inSubmission) s.batcher.tasks +
    (∑ j ∈ Finset.range s.batcher.submissions.length, s.left j) + s.pool.length

/-- The sums that only usage, a removal, a loss or a second acceptance changes. -/
structure Tally where
  accepted : ℕ
  gained : ℕ
  dropped : ℕ
  failed : ℕ
  lost : ℕ
  again : ℕ
deriving DecidableEq

def State.tally (s : State) (session : SessionId) (k : Kind) : Tally where
  accepted := s.batcher.accepted session k
  gained := s.batcher.gained session k
  dropped := s.batcher.dropped session k
  failed := s.batcher.failed session k
  lost := s.lost session k
  again := s.again session k

/-- The batcher and its node can go on from the state and move something along. -/
def Lowers (cfg : SettlementConfig) (sharding : Sharding SessionId) (s : State) : Prop :=
  ∃ as s', run (step cfg sharding) s as = some s' ∧
    (∀ session k, s'.tally session k = s.tally session k) ∧ s'.measure < s.measure

/-! ### Submissions in progress and submissions that have ended -/

/-- A submission in progress has an attempt left, and one that has succeeded was confirmed. -/
structure Progressing (b : UsageBatch.State) : Prop where
  inProgress : ∀ sub ∈ b.submissions, sub.result = none → sub.outcomes.length < maxAttempts
  succeeded : ∀ sub ∈ b.submissions, sub.result = some true → sub.batch.noOp = false →
    ∃ o ∈ sub.outcomes, o.accepted = true

theorem exists_attempt {sub : UsageBatch.Submission} (h : sub.result = none) (o : Attempt) :
    ∃ sub', sub.attempt o = some sub' := by
  unfold Submission.attempt
  rw [h]
  dsimp only
  split
  · exact ⟨_, rfl⟩
  · exact ⟨_, rfl⟩

/-- What an attempt makes of a submission that is not empty. -/
theorem attempt_cases {sub sub' : UsageBatch.Submission} {o : Attempt} (hb : sub.batch.noOp = false)
    (h : sub.attempt o = some sub') :
    sub.result = none ∧
      ((o = .confirmed ∧ sub'.result = some true) ∨
        (o ≠ .confirmed ∧
          sub'.result = if sub.outcomes.length + 1 = maxAttempts then some false else none)) := by
  unfold Submission.attempt at h
  split at h
  · cases h
  · rename_i hopen
    refine ⟨hopen, ?_⟩
    cases o with
    | confirmed =>
        rw [recordUsage_confirmed hb] at h
        obtain rfl := Option.some.inj h
        exact Or.inl ⟨rfl, rfl⟩
    | sendFailed =>
        rw [recordUsage_sendFailed hb] at h
        obtain rfl := Option.some.inj h
        exact Or.inr ⟨by decide, rfl⟩
    | sendLost =>
        obtain ⟨e, he⟩ := recordUsage_of_lost hb (o := .sendLost) rfl
        rw [he] at h
        obtain rfl := Option.some.inj h
        exact Or.inr ⟨by decide, rfl⟩
    | confirmationFailed =>
        obtain ⟨e, he⟩ := recordUsage_of_lost hb (o := .confirmationFailed) rfl
        rw [he] at h
        obtain rfl := Option.some.inj h
        exact Or.inr ⟨by decide, rfl⟩

theorem progressing_of_reachable {b : UsageBatch.State}
    (h : Reachable (UsageBatch.step cfg sharding) UsageBatch.init b) : Progressing b := by
  -- the batches are known not to be empty, so the invariant carries that along
  refine (h.invariant (I := fun b => NoneEmpty b ∧ Progressing b) ⟨noneEmpty_init, ?_, ?_⟩
    fun b act b' hb hstep => ⟨hb.1.step hstep, ?_⟩).2
  · intro sub hsub
    cases hsub
  · intro sub hsub
    cases hsub
  · obtain ⟨hnone, hprog⟩ := hb
    cases UsageBatch.change_of_step hstep with
    | @hand t ticket batch awaitChain k ht =>
        constructor
        · intro sub hsub hopen
          rcases List.mem_append.1 hsub with hold | hnew
          · exact hprog.inProgress sub hold hopen
          · obtain rfl := List.mem_singleton.1 hnew
            exact Nat.zero_lt_succ 2
        · intro sub hsub hended
          rcases List.mem_append.1 hsub with hold | hnew
          · exact hprog.succeeded sub hold hended
          · obtain rfl := List.mem_singleton.1 hnew
            cases hended
    | @attempt j o sub sub' hsub hattempt =>
        have hmem := List.mem_of_getElem? hsub
        have houtcomes := Submission.outcomes_attempt hattempt
        obtain ⟨hopen, hcases⟩ := attempt_cases (hnone.submissions sub hmem) hattempt
        have hlt := hprog.inProgress sub hmem hopen
        constructor
        · intro sub₁ hsub₁ hopen₁
          rcases List.mem_or_eq_of_mem_set hsub₁ with hold | rfl
          · exact hprog.inProgress sub₁ hold hopen₁
          · rcases hcases with ⟨-, hended⟩ | ⟨-, hnext⟩
            · rw [hended] at hopen₁
              cases hopen₁
            · rw [hopen₁] at hnext
              split at hnext
              · cases hnext
              · rw [houtcomes, List.length_append, List.length_singleton]
                omega
        · intro sub₁ hsub₁ hended₁ hb₁
          rcases List.mem_or_eq_of_mem_set hsub₁ with hold | rfl
          · exact hprog.succeeded sub₁ hold hended₁ hb₁
          · rcases hcases with ⟨rfl, -⟩ | ⟨-, hnext⟩
            · exact ⟨.confirmed, by rw [houtcomes]; simp, rfl⟩
            · rw [hended₁] at hnext
              split at hnext
              · cases hnext
              · cases hnext
    | _ => exact ⟨hprog.inProgress, hprog.succeeded⟩

/-! ### Moving tokens along -/

section

variable {s : State}

/-- One step moves something along. -/
theorem Lowers.of_step {act : Action} {s' : State} (hstep : step cfg sharding s act = some s')
    (htally : ∀ session k, s'.tally session k = s.tally session k)
    (hlt : s'.measure < s.measure) : Lowers cfg sharding s :=
  ⟨[act], s', by rw [run_cons _ hstep, run_nil], htally, hlt⟩

/-- The tallies of two states that differ in the node only. -/
theorem tally_eq_of {s' : State} (hbatcher : s'.batcher = s.batcher)
    (hreverted : s'.reverted = s.reverted) (hevicted : s'.evicted = s.evicted)
    (hsends : ∀ j, s'.sends j - 1 = s.sends j - 1) (session : SessionId) (k : Kind) :
    s'.tally session k = s.tally session k := by
  unfold State.tally State.lost State.again State.tokens
  rw [hbatcher, hreverted, hevicted]
  simp only [hsends]

/-- A transaction of the pool is executed. -/
theorem lowers_execute {tx : Tx} {rest : List Tx} (hpool : s.pool = tx :: rest) :
    Lowers cfg sharding s := by
  have htx : s.pool[0]? = some tx := by rw [hpool]; rfl
  have hstep : step cfg sharding s (.execute 0) = some
      { s with pool := s.pool.eraseIdx 0, executed := tx :: s.executed } := by
    simp [step, htx]
  have hsends : ∀ j, State.sends { s with
      pool := s.pool.eraseIdx 0, executed := tx :: s.executed } j = s.sends j := fun j =>
    sends_of_perm (txs_of_leave htx rfl (List.Perm.refl _)) j
  refine Lowers.of_step hstep (tally_eq_of rfl rfl rfl fun j => by rw [hsends j]) ?_
  unfold State.measure State.left
  simp only [hsends]
  rw [hpool, List.eraseIdx_cons_zero, List.length_cons]
  omega

/-- A submission the node has never heard of. -/
theorem Tracked.sends_eq_zero (h : Tracked s) {j : ℕ} (hj : s.batcher.submissions[j]? = none) :
    s.sends j = 0 := by
  refine List.countP_eq_zero.2 fun tx htx => ?_
  obtain ⟨sub, hsub, -⟩ := h.owned tx htx
  simp only [beq_iff_eq]
  rintro rfl
  rw [hj] at hsub
  cases hsub

/-- A batch in the hand of a task is handed over. -/
theorem hand_step (cfg : SettlementConfig) (sharding : Sharding SessionId) {b : UsageBatch.State} {t : TaskId} {ticket : ℕ} {batch : Batch}
    {awaitChain : Bool} {k : Cont} (ht : b.tasks[t]? = some (.submitting ticket batch awaitChain k)) :
    ∃ b' pc, UsageBatch.step cfg sharding b (.step t) = some b' ∧ inSubmission pc = false ∧
      b'.tasks = b.tasks.set t pc ∧ b'.sessions = b.sessions ∧ b'.log = b.log ∧
      b'.submissions = b.submissions ++ [Submission.start ticket batch] := by
  have hadvance : UsageBatch.step cfg sharding b (.step t) =
      advance cfg sharding b t (.submitting ticket batch awaitChain k) := by
    simp [UsageBatch.step, ht]
  rw [hadvance]
  refine ⟨_, _, rfl, ?_, rfl, rfl, rfl, rfl⟩
  split
  · rfl
  · rfl

theorem lowers_hand (htracked : Tracked s) {t : TaskId} {ticket : ℕ} {batch : Batch}
    {awaitChain : Bool} {k : Cont}
    (ht : s.batcher.tasks[t]? = some (.submitting ticket batch awaitChain k)) :
    Lowers cfg sharding s := by
  obtain ⟨b', pc, hb', hidle, htasks, hsessions, hlog, hsubs⟩ :=
    hand_step cfg sharding ht
  have hstep : step cfg sharding s (.batcher (.step t)) = some { s with batcher := b' } := by
    simp [step, State.admits, hb']
  have hlen : b'.submissions.length = s.batcher.submissions.length + 1 := by
    rw [hsubs, List.length_append, List.length_singleton]
  have hold : ∀ j ∈ Finset.range s.batcher.submissions.length,
      b'.submissions[j]? = s.batcher.submissions[j]? := fun j hj => by
    rw [hsubs, List.getElem?_append_left (Finset.mem_range.1 hj)]
  have hnew : b'.submissions[s.batcher.submissions.length]? =
      some (Submission.start ticket batch) := by
    rw [hsubs, List.getElem?_concat_length]
  have hfresh : s.sends s.batcher.submissions.length = 0 :=
    htracked.sends_eq_zero (List.getElem?_eq_none (Nat.le_refl _))
  refine Lowers.of_step hstep (fun session kind => ?_) ?_
  · have hfailed : b'.failed session kind = s.batcher.failed session kind := by
      unfold UsageBatch.State.failed
      rw [hsubs, total_append, total_cons, total_nil]
      rfl
    have hagain : State.again { s with batcher := b' } session kind = s.again session kind := by
      change ∑ j ∈ Finset.range b'.submissions.length, (s.sends j - 1) * _ = _
      rw [hlen, Finset.sum_range_succ, hfresh, Nat.zero_sub, Nat.zero_mul, Nat.add_zero]
      refine Finset.sum_congr rfl fun j hj => ?_
      unfold State.tokens
      rw [hold j hj]
    unfold State.tally UsageBatch.State.accepted UsageBatch.State.gained UsageBatch.State.dropped
    rw [hlog, hfailed, hagain]
    rfl
  · have hleft : ∑ j ∈ Finset.range b'.submissions.length, State.left { s with batcher := b' } j =
        (∑ j ∈ Finset.range s.batcher.submissions.length, s.left j) + 6 := by
      rw [hlen, Finset.sum_range_succ]
      congr 1
      · refine Finset.sum_congr rfl fun j hj => ?_
        unfold State.left
        rw [hold j hj]
        rfl
      · unfold State.left
        rw [hnew]
        change (if s.sends s.batcher.submissions.length = 0 then 2 else 0) + 1 + 3 = 6
        rw [if_pos hfresh]
    have hcount := total_set (indicator inSubmission) ht pc
    have hone : indicator inSubmission (.submitting ticket batch awaitChain k) = 1 := rfl
    have hzero : indicator inSubmission pc = 0 := indicator_of_not hidle
    unfold State.measure
    rw [hleft, hsessions, htasks]
    dsimp only
    omega

/-- The batcher goes on alone. -/
theorem run_batcher {b' : UsageBatch.State} {acts : List UsageBatch.Action}
    (hrun : run (UsageBatch.step cfg sharding) s.batcher acts = some b')
    (hadmits : ∀ act ∈ acts, ∀ s : State, s.admits act = true) :
    run (step cfg sharding) s (acts.map .batcher) = some { s with batcher := b' } := by
  induction acts generalizing s with
  | nil =>
      obtain rfl := Option.some.inj hrun
      rfl
  | cons act acts ih =>
      obtain ⟨b₁, hb₁, hrest⟩ := exists_step_of_run_cons hrun
      have hstep : step cfg sharding s (.batcher act) = some { s with batcher := b₁ } := by
        simp [step, hadmits act List.mem_cons_self s, hb₁]
      rw [List.map_cons, run_cons _ hstep]
      exact ih (s := { s with batcher := b₁ }) hrest fun act' hact' =>
        hadmits act' (List.mem_cons_of_mem act hact')

/-- The steps of a forced flush up to its section. -/
def flushNow (session : SessionId) (t : TaskId) : List UsageBatch.Action :=
  [.call (.forceFlush session), .step t, .step t]

/-- The section of a forced flush takes the pending tokens of its session. -/
theorem take_run {b : UsageBatch.State} {session : SessionId} {sb : SessionBatch}
    (hb : b.sessions.get session = some sb) (hpending : sb.pendingTotal ≠ 0) :
    run (UsageBatch.step cfg sharding) b (flushNow session b.tasks.length) =
      some (takeStep { b with tasks := b.tasks ++ [.flushing session true false .done] }
        b.tasks.length session false .done sb) := by
  have hflushes : sb.flushes cfg true b.now = true := by simp [SessionBatch.flushes, hpending]
  have hcall : UsageBatch.step cfg sharding b (.call (.forceFlush session)) =
      some { b with tasks := b.tasks ++ [.checking session (.flush true false .done)] } := rfl
  have hcheck : UsageBatch.step cfg sharding
      { b with tasks := b.tasks ++ [.checking session (.flush true false .done)] }
      (.step b.tasks.length) =
        some { b with tasks := b.tasks ++ [.flushing session true false .done] } := by
    simp [UsageBatch.step, advance, ShardMap.containsKey, hb, Ensured.resume, State.goTo]
  have htake : UsageBatch.step cfg sharding
      { b with tasks := b.tasks ++ [.flushing session true false .done] } (.step b.tasks.length) =
        some (takeStep { b with tasks := b.tasks ++ [.flushing session true false .done] }
          b.tasks.length session false .done sb) := by
    simp [UsageBatch.step, advance, hb, hflushes]
  rw [flushNow, run_cons _ hcall, run_cons _ hcheck, run_cons _ htake, run_nil]

/-- The session a flush has taken from has nothing pending. -/
theorem pendingSessions_taken {sessions : ShardMap SessionId SessionBatch} {session : SessionId}
    (sb : SessionBatch) (now : ℕ) :
    pendingSessions (sessions.insert session (sb.taken now)) =
      (pendingSessions sessions).erase session := by
  ext other
  rw [Finset.mem_erase, mem_pendingSessions, mem_pendingSessions, ShardMap.get_insert]
  by_cases hother : other = session
  · simp [hother, SessionBatch.taken, SessionBatch.pendingTotal, saturatingAdd]
  · simp [hother]

/-- Pending tokens are taken. -/
theorem lowers_take {session : SessionId} (h : session ∈ pendingSessions s.batcher.sessions) :
    Lowers cfg sharding s := by
  obtain ⟨sb, hb, hne⟩ := mem_pendingSessions.1 h
  refine ⟨(flushNow session s.batcher.tasks.length).map .batcher, _,
    run_batcher (take_run hb hne) ?_, fun session' kind => ?_, ?_⟩
  · intro act hact s'
    simp only [flushNow, List.mem_cons, List.not_mem_nil, or_false] at hact
    rcases hact with rfl | rfl | rfl
    · rfl
    · rfl
    · rfl
  · unfold State.tally
    congr 1
    · change 0 + (0 + s.batcher.accepted session' kind) = _
      omega
    · change 0 + (0 + s.batcher.gained session' kind) = _
      omega
    · change 0 + (0 + s.batcher.dropped session' kind) = _
      omega
  · have hcard := Finset.card_erase_of_mem h
    have hpos := Finset.card_pos.2 ⟨session, h⟩
    have htasks : (s.batcher.tasks ++ [Pc.flushing session true false .done]).set
        s.batcher.tasks.length (.submitting s.batcher.tickets
          ⟨session, sb.pendingInput, sb.pendingOutput⟩ false .done) =
        s.batcher.tasks ++ [.submitting s.batcher.tickets
          ⟨session, sb.pendingInput, sb.pendingOutput⟩ false .done] := by
      simp
    unfold State.measure
    change 8 * (pendingSessions (s.batcher.sessions.insert session (sb.taken _))).card +
      7 * total (indicator inSubmission) ((s.batcher.tasks ++ [_]).set _ _) +
      (∑ j ∈ Finset.range s.batcher.submissions.length, s.left j) + s.pool.length < _
    rw [pendingSessions_taken, htasks, hcard, total_append, total_cons, total_nil]
    have hone : indicator inSubmission (.submitting s.batcher.tickets
      ⟨session, sb.pendingInput, sb.pendingOutput⟩ false .done) = 1 := rfl
    omega

/-- The node accepts the first transaction of a submission in progress. -/
theorem lowers_accept {j : ℕ} {sub : UsageBatch.Submission}
    (hsub : s.batcher.submissions[j]? = some sub) (hopen : sub.result = none)
    (hb : sub.batch.noOp = false) (hnone : s.sends j = 0) : Lowers cfg sharding s := by
  have hsent : s.sent j sub.outcomes.length = false := by
    rw [Bool.eq_false_iff]
    intro hsent
    obtain ⟨tx, htx, rfl, -⟩ := sent_eq_true.1 hsent
    have hnot := List.countP_eq_zero.1 hnone tx htx
    exact hnot (beq_self_eq_true _)
  have hstep : step cfg sharding s (.accept j) =
      some { s with pool := s.pool ++ [⟨j, sub.outcomes.length, sub.batch⟩] } := by
    simp [step, hsub, hopen, hb, hsent]
  have hsends : ∀ i, State.sends { s with pool := s.pool ++ [⟨j, sub.outcomes.length, sub.batch⟩] } i
      = s.sends i + if j = i then 1 else 0 := fun i => by
    have hcount := (txs_of_accept (s := s) ⟨j, sub.outcomes.length, sub.batch⟩).countP_eq
      fun tx => tx.submission == i
    refine hcount.trans ?_
    rw [List.countP_cons]
    simp [State.sends]
  refine Lowers.of_step hstep (tally_eq_of rfl rfl rfl fun i => ?_) ?_
  · rw [hsends i]
    by_cases hi : j = i
    · rw [if_pos hi, ← hi, hnone]
    · rw [if_neg hi, Nat.add_zero]
  · have hj := (List.getElem?_eq_some_iff.1 hsub).1
    have hlower : (∑ i ∈ Finset.range s.batcher.submissions.length, State.left
        { s with pool := s.pool ++ [⟨j, sub.outcomes.length, sub.batch⟩] } i) + 2 =
        ∑ i ∈ Finset.range s.batcher.submissions.length, s.left i := by
      have htwo : (∑ i ∈ Finset.range s.batcher.submissions.length, if j = i then 2 else 0) = 2 := by
        rw [Finset.sum_ite_eq, if_pos (Finset.mem_range.2 hj)]
      rw [← htwo, ← Finset.sum_add_distrib]
      refine Finset.sum_congr rfl fun i _ => ?_
      unfold State.left
      rw [hsends i]
      by_cases hi : j = i
      · subst hi
        dsimp only
        rw [hsub]
        simp only [hopen, hnone, if_true]
        simp
        omega
      · simp [hi]
    unfold State.measure
    dsimp only
    rw [List.length_append, List.length_singleton]
    omega

/-- Once the node has accepted a transaction of a submission, an answer leaves a submission one of
whose outcomes tells so. -/
theorem Tracked.accepted_answer (h : Tracked s) {j : ℕ} {sub sub' : UsageBatch.Submission}
    {o : Attempt} (hsub : s.batcher.submissions[j]? = some sub) (hsends : s.sends j ≠ 0)
    (hadmits : s.admits (.attempt j o) = true) (hattempt : sub.attempt o = some sub') :
    ∃ o' ∈ sub'.outcomes, o'.accepted = true := by
  rw [Submission.outcomes_attempt hattempt]
  obtain ⟨tx, htx, hj⟩ := List.countP_pos_iff.1 (Nat.pos_of_ne_zero hsends)
  obtain rfl : tx.submission = j := by simpa using hj
  obtain ⟨sub₁, hsub₁, -, hle, -⟩ := h.owned tx htx
  obtain rfl := Option.some.inj (hsub.symm.trans hsub₁)
  have hsent : s.sent tx.submission tx.attempt = true := sent_eq_true.2 ⟨tx, htx, rfl, rfl⟩
  rcases Nat.eq_or_lt_of_le hle with heq | hlt
  · refine ⟨o, List.mem_append_right _ List.mem_cons_self, ?_⟩
    rw [← sent_of_admits hsub hadmits, ← heq, hsent]
  · refine ⟨sub.outcomes[tx.attempt], List.mem_append_left _ (List.getElem_mem hlt), ?_⟩
    rw [← h.told tx.submission tx.attempt sub _ hsub (List.getElem?_eq_getElem hlt), hsent]

theorem gaveUp_of_accepted {sub : UsageBatch.Submission} {o : Attempt} (ho : o ∈ sub.outcomes)
    (hacc : o.accepted = true) : sub.gaveUp = false := by
  unfold Submission.gaveUp
  rw [Bool.and_eq_false_iff, List.all_eq_false]
  exact Or.inr ⟨o, ho, by simp [hacc]⟩

/-- An answer leaves less to do for its submission. -/
theorem left_answer {s' : State} {j : ℕ} {sub sub' : UsageBatch.Submission} {o : Attempt}
    (hsub : s.batcher.submissions[j]? = some sub) (hsub' : s'.batcher.submissions[j]? = some sub')
    (hb : sub.batch.noOp = false) (hlen : sub.outcomes.length < maxAttempts)
    (hsends : s'.sends j = s.sends j) (hattempt : sub.attempt o = some sub') :
    s'.left j < s.left j := by
  obtain ⟨hopen, hcases⟩ := attempt_cases hb hattempt
  unfold State.left
  rw [hsub, hsub', hsends]
  dsimp only
  rw [hopen, if_pos rfl, Submission.outcomes_attempt hattempt, List.length_append,
    List.length_singleton]
  rcases hcases with ⟨-, hended⟩ | ⟨-, hnext⟩
  · rw [hended, if_neg (by decide)]
    omega
  · rw [hnext]
    split
    · rw [if_neg (by decide)]
      omega
    · rw [if_pos rfl]
      omega

/-- A submission in progress of which the node has accepted a transaction gets an answer. -/
theorem lowers_answer (htracked : Tracked s) {j : ℕ} {sub sub' : UsageBatch.Submission}
    {o : Attempt} (hsub : s.batcher.submissions[j]? = some sub) (hopen : sub.result = none)
    (hb : sub.batch.noOp = false) (hlen : sub.outcomes.length < maxAttempts)
    (hsends : s.sends j ≠ 0) (hadmits : s.admits (.attempt j o) = true)
    (hattempt : sub.attempt o = some sub') : Lowers cfg sharding s := by
  obtain ⟨b', hb'⟩ : ∃ b', b' =
    { s.batcher with submissions := s.batcher.submissions.set j sub' } := ⟨_, rfl⟩
  have hsubs : b'.submissions = s.batcher.submissions.set j sub' := by rw [hb']
  have hstep : step cfg sharding s (.batcher (.attempt j o)) = some { s with batcher := b' } := by
    simp [step, hadmits, UsageBatch.step, hsub, hattempt, hb']
  have hlength : b'.submissions.length = s.batcher.submissions.length := by
    rw [hsubs, List.length_set]
  have hself : b'.submissions[j]? = some sub' := by rw [hsubs, getElem?_set_self hsub]
  have hother : ∀ i, i ≠ j → b'.submissions[i]? = s.batcher.submissions[i]? := fun i hi => by
    rw [hsubs, List.getElem?_set_ne (Ne.symm hi)]
  obtain ⟨-, hbatch⟩ := Submission.batch_attempt hattempt
  refine Lowers.of_step hstep (fun session kind => ?_) ?_
  · have hfailed : b'.failed session kind = s.batcher.failed session kind := by
      obtain ⟨o', ho', hacc⟩ := htracked.accepted_answer hsub hsends hadmits hattempt
      have hgave : sub.gaveUp = false := by simp [Submission.gaveUp, hopen]
      unfold UsageBatch.State.failed
      rw [hsubs]
      refine total_set_eq hsub ?_
      rw [gaveUp_of_accepted ho' hacc, hgave, hbatch]
    have hagain : State.again { s with batcher := b' } session kind = s.again session kind := by
      change ∑ i ∈ Finset.range b'.submissions.length, (s.sends i - 1) * _ = _
      rw [hlength]
      refine Finset.sum_congr rfl fun i _ => ?_
      unfold State.tokens
      by_cases hi : i = j
      · subst hi
        rw [hself, hsub, Option.map_some, Option.map_some, hbatch]
      · rw [hother i hi]
    unfold State.tally
    rw [hagain, hfailed, hb']
    rfl
  · have hlower : (∑ i ∈ Finset.range b'.submissions.length, State.left { s with batcher := b' } i) <
        ∑ i ∈ Finset.range s.batcher.submissions.length, s.left i := by
      have hlt : State.left { s with batcher := b' } j < s.left j :=
        left_answer hsub hself hb hlen rfl hattempt
      rw [hlength]
      refine Finset.sum_lt_sum (fun i _ => ?_)
        ⟨j, Finset.mem_range.2 (List.getElem?_eq_some_iff.1 hsub).1, hlt⟩
      by_cases hi : i = j
      · exact hi ▸ Nat.le_of_lt hlt
      · refine Nat.le_of_eq ?_
        unfold State.left
        rw [hother i hi]
        rfl
    have hrest : b'.sessions = s.batcher.sessions ∧ b'.tasks = s.batcher.tasks := by
      rw [hb']
      exact ⟨rfl, rfl⟩
    unfold State.measure
    rw [hrest.1, hrest.2]
    dsimp only
    omega

/-- As long as something is on the way it can be moved along. -/
theorem lowers_of_measure (h : Reachable (step cfg sharding) init s) (hm : s.measure ≠ 0) :
    Lowers cfg sharding s := by
  have htracked := tracked_of_reachable h
  have hreach := reachable_batcher h
  have hprog := progressing_of_reachable hreach
  have hnone := (sound_of_reachable hreach).noneEmpty
  cases hpool : s.pool with
  | cons tx rest => exact lowers_execute hpool
  | nil =>
      by_cases htask : ∃ pc ∈ s.batcher.tasks, inSubmission pc = true
      · obtain ⟨pc, hmem, hpc⟩ := htask
        obtain ⟨t, ht⟩ := List.getElem?_of_mem hmem
        cases pc with
        | submitting ticket batch awaitChain k => exact lowers_hand htracked ht
        | _ => cases hpc
      rcases (pendingSessions s.batcher.sessions).eq_empty_or_nonempty with hempty | ⟨session, hs⟩
      · have htasks : total (indicator inSubmission) s.batcher.tasks = 0 :=
          total_eq_zero.2 fun pc hpc => indicator_of_not (by
            rw [Bool.eq_false_iff]
            exact fun hsub => htask ⟨pc, hpc, hsub⟩)
        have hleft : ∑ j ∈ Finset.range s.batcher.submissions.length, s.left j ≠ 0 := by
          intro hzero
          apply hm
          unfold State.measure
          rw [htasks, hempty, hzero, hpool]
          rfl
        obtain ⟨j, -, hj⟩ := Finset.exists_ne_zero_of_sum_ne_zero hleft
        unfold State.left at hj
        split at hj
        · rename_i sub hsub
          have hmem := List.mem_of_getElem? hsub
          have hopen : sub.result = none := by
            by_contra hended
            exact hj (if_neg hended)
          have hb := hnone.submissions sub hmem
          have hlen := hprog.inProgress sub hmem hopen
          by_cases hsends : s.sends j = 0
          · exact lowers_accept hsub hopen hb hsends
          · -- the attempt is answered as what the node did asks for
            obtain ⟨o, hadmits⟩ : ∃ o, s.admits (.attempt j o) = true := by
              cases hsent : s.sent j sub.outcomes.length with
              | false => exact ⟨.sendFailed, by simp [State.admits, hsub, hsent]⟩
              | true => exact ⟨.confirmationFailed, by simp [State.admits, hsub, hsent]⟩
            obtain ⟨sub', hattempt⟩ := exists_attempt hopen o
            exact lowers_answer htracked hsub hopen hb hlen hsends hadmits hattempt
        · exact absurd rfl hj
      · exact lowers_take hs

end

/-! ### Everything that is not lost is charged -/

/-- A submission that has ended without a transaction is one that gave up. -/
theorem Tracked.sends_eq_zero_iff {s : State} (h : Tracked s) (hprog : Progressing s.batcher) {j : ℕ}
    {sub : UsageBatch.Submission} (hsub : s.batcher.submissions[j]? = some sub)
    (hb : sub.batch.noOp = false) (hended : sub.result ≠ none) :
    s.sends j = 0 ↔ sub.gaveUp = true := by
  constructor
  · intro hnone
    have hrejected : ∀ o ∈ sub.outcomes, o.accepted = false := by
      intro o ho
      obtain ⟨i, hi⟩ := List.getElem?_of_mem ho
      rw [← h.told j i sub o hsub hi, Bool.eq_false_iff]
      intro hsent
      obtain ⟨tx, htx, rfl, -⟩ := sent_eq_true.1 hsent
      exact List.countP_eq_zero.1 hnone tx htx (beq_self_eq_true _)
    have hresult : sub.result = some false := by
      cases hr : sub.result with
      | none => exact absurd hr hended
      | some r =>
          cases r with
          | false => rfl
          | true =>
              obtain ⟨o, ho, hacc⟩ := hprog.succeeded sub (List.mem_of_getElem? hsub) hr hb
              rw [hrejected o ho] at hacc
              cases hacc
    unfold Submission.gaveUp
    rw [hresult, Bool.and_eq_true, List.all_eq_true]
    exact ⟨rfl, fun o ho => by rw [hrejected o ho]; rfl⟩
  · intro hgave
    by_contra hsends
    obtain ⟨tx, htx, hj⟩ := List.countP_pos_iff.1 (Nat.pos_of_ne_zero hsends)
    obtain rfl : tx.submission = j := by simpa using hj
    obtain ⟨sub₁, hsub₁, -, hle, hopen⟩ := h.owned tx htx
    obtain rfl := Option.some.inj (hsub.symm.trans hsub₁)
    have hlt : tx.attempt < sub.outcomes.length :=
      Nat.lt_of_le_of_ne hle fun heq => hended (hopen heq)
    have hacc : (sub.outcomes[tx.attempt]).accepted = true := by
      rw [← h.told tx.submission tx.attempt sub _ hsub (List.getElem?_eq_getElem hlt)]
      exact sent_eq_true.2 ⟨tx, htx, rfl, rfl⟩
    rw [gaveUp_of_accepted (List.getElem_mem hlt) hacc] at hgave
    cases hgave

/-- Where nothing is on the way, what the node has accepted nothing of has failed. -/
theorem unsent_of_measure {s : State} (h : Reachable (step cfg sharding) init s)
    (hleft : ∑ j ∈ Finset.range s.batcher.submissions.length, s.left j = 0) (session : SessionId)
    (k : Kind) : s.unsent session k = s.batcher.failed session k := by
  have htracked := tracked_of_reachable h
  have hreach := reachable_batcher h
  have hprog := progressing_of_reachable hreach
  have hnone := (sound_of_reachable hreach).noneEmpty
  have hfailed : s.batcher.failed session k = _ := total_eq_sum_range _ _
  rw [hfailed]
  refine Finset.sum_congr rfl fun j hj => ?_
  obtain ⟨sub, hsub⟩ : ∃ sub, s.batcher.submissions[j]? = some sub :=
    ⟨_, List.getElem?_eq_getElem (Finset.mem_range.1 hj)⟩
  have hmem := List.mem_of_getElem? hsub
  have hended : sub.result ≠ none := by
    intro hopen
    have hzero := Finset.sum_eq_zero_iff.1 hleft j hj
    unfold State.left at hzero
    rw [hsub] at hzero
    simp [hopen] at hzero
  have hgave := htracked.sends_eq_zero_iff hprog hsub (hnone.submissions sub hmem) hended
  unfold State.tokens
  rw [hsub, Option.map_some, Option.map_some, Option.getD_some, Option.getD_some]
  simp only [hgave]

/-- The balance where nothing is on the way. -/
theorem balance_of_measure {s : State} (h : Reachable (step cfg sharding) init s)
    (hm : s.measure = 0) (c₀ : OnChain) (session : SessionId) (k : Kind) :
    amount (s.onChain c₀ session) k + s.lost session k + s.batcher.failed session k +
        s.batcher.dropped session k =
      amount (c₀ session) k + s.batcher.gained session k + s.again session k := by
  have hbalance := (tracked_of_reachable h).balances (sound_of_reachable (reachable_batcher h)).ledger
    c₀ session k
  unfold State.measure at hm
  have hunsent := unsent_of_measure h (by omega) session k
  have hpooled : s.pooled session k = 0 := by
    have hnil : s.pool = [] := List.length_eq_zero_iff.1 (by omega)
    unfold State.pooled
    rw [hnil, total_nil]
  have hpending : s.batcher.pending session k = 0 := by
    have hempty : pendingSessions s.batcher.sessions = ∅ := Finset.card_eq_zero.1 (by omega)
    unfold UsageBatch.State.pending
    cases hget : s.batcher.sessions.get session with
    | none => rfl
    | some sb =>
        have htotal : sb.pendingTotal = 0 := by
          by_contra hne
          have hmem := mem_pendingSessions.2 ⟨sb, hget, hne⟩
          rw [hempty] at hmem
          exact absurd hmem (Finset.notMem_empty session)
        obtain ⟨hin, hout⟩ := saturatingAdd_eq_zero.1 htotal
        cases k with
        | input => simp [SessionBatch.pending, hin]
        | output => simp [SessionBatch.pending, hout]
  have hinHand : s.batcher.inHand session k = 0 := by
    have hzero : total (indicator inSubmission) s.batcher.tasks = 0 := by omega
    refine total_eq_zero.2 fun pc hpc => ?_
    have hnot := total_eq_zero.1 hzero pc hpc
    cases pc with
    | submitting ticket batch awaitChain k' => cases hnot
    | _ => rfl
  omega

/-- **Everything that is not lost can be charged.**  From every state of every run of the batcher
and its node there is a run, without further usage, that charges every session for all it was
accepted for, except what was lost before: in transactions without effect, in submissions that gave
up, and in removals; and it charges nothing again that was not charged again before. -/
theorem exists_settled (cfg : SettlementConfig) (sharding : Sharding SessionId) (c₀ : OnChain)
    {s : State} (h : Reachable (step cfg sharding) init s) :
    ∃ as s', run (step cfg sharding) s as = some s' ∧ ∀ session k,
      s'.batcher.accepted session k = s.batcher.accepted session k ∧
      (s.batcher.accepted session k < 2 ^ 64 →
        amount (s'.onChain c₀ session) k + s.lost session k + s.batcher.failed session k +
            s.batcher.dropped session k =
          amount (c₀ session) k + s.batcher.accepted session k + s.again session k) := by
  obtain ⟨as, s', hrun, hreach, htally, hzero⟩ : ∃ as s', run (step cfg sharding) s as = some s' ∧
      Reachable (step cfg sharding) init s' ∧ (∀ session k, s'.tally session k = s.tally session k) ∧
      s'.measure = 0 := exists_run_of_lower (I := fun s => Reachable (step cfg sharding) init s)
    (R := fun s s' => ∀ session k, s'.tally session k = s.tally session k) State.measure
    (fun _ _ _ => rfl) (fun _ _ _ h h' session k => (h' session k).trans (h session k))
    (fun s hs hm => by
      obtain ⟨as, s', hrun, htally, hlt⟩ := lowers_of_measure hs hm
      exact ⟨as, s', hrun, hs.trans hrun, htally, hlt⟩) h
  refine ⟨as, s', hrun, fun session k => ?_⟩
  have hbalance := balance_of_measure hreach hzero c₀ session k
  obtain ⟨haccepted, hgained, hdropped, hfailed, hlost, hagain⟩ :=
    Tally.mk.inj (htally session k)
  refine ⟨haccepted, fun hfit => ?_⟩
  have hexact := (sound_of_reachable (reachable_batcher h)).exact session k hfit
  omega

theorem tally_oneBatch :
    (run (step sampleConfig sampleSharding) init (oneBatch.map .batcher)).map
      (fun s => s.tally 1 .input) = some ⟨101, 101, 0, 0, 0, 0⟩ := by
  decide +kernel

/-- A hundred tokens in a fresh submission and one pending are all charged. -/
theorem settled_oneBatch :
    ∃ s as s', run (step sampleConfig sampleSharding) init (oneBatch.map .batcher) = some s ∧
      run (step sampleConfig sampleSharding) s as = some s' ∧
      amount (s'.onChain (fun _ => ⟨0, 0⟩) 1) .input = 101 := by
  obtain ⟨s, hrun, hobs⟩ := Option.map_eq_some_iff.1 tally_oneBatch
  obtain ⟨haccepted, -, hdropped, hfailed, hlost, hagain⟩ := Tally.mk.inj hobs
  obtain ⟨as, s', hrun', h⟩ := exists_settled sampleConfig sampleSharding (fun _ => ⟨0, 0⟩) ⟨_, hrun⟩
  refine ⟨s, as, s', hrun, hrun', ?_⟩
  have hbalance := (h 1 .input).2 (by rw [haccepted]; decide)
  rw [hlost, hfailed, hdropped, hagain, haccepted] at hbalance
  exact hbalance

end Billing
