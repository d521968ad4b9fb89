/-
**From `add_usage` to the totals on chain.**

`UsageBatch` follows a token up to its submission; what the submission charges is up to the RPC node.
This module puts the two together.  The node takes the transaction of an attempt into its pool, or
does not; a transaction of the pool is executed, is mined without effect, or is given up; and the
answer an attempt gets is up to the network, except that no transaction is confirmed that was not
mined.  The steps of the node and of the batcher interleave in any order.

The balance of a session is an equation that holds in every state of every run: what was accepted,
plus what the node accepted a second time, is on chain, on its way, or lost in one of four places.

Main definitions:

* `Billing.Tx`, `Billing.State` — a transaction, and the batcher with its node;
* `Billing.step` — the transition function;
* `Billing.Tracked` — each transaction belongs to an attempt, and the outcomes tell which were sent.

Main results:

* `Billing.tracked_of_reachable` — the node and the submissions agree;
* `Billing.balance` — **the balance of every session in every state**;
* `Billing.charged_exactly_once` — **without a second acceptance nothing is overcharged, and what is
  settled is charged exactly**.
-/

import SparklRouter.Consumer.UsageLedger
import Mathlib.Algebra.BigOperators.Group.Finset.Basic
import Mathlib.Algebra.BigOperators.Group.Finset.Piecewise

set_option relaxedAutoImplicit false
set_option autoImplicit false

namespace Billing

open Chain UsageBatch TaskPool Transition

/-! ### The batcher and its node -/

/-- A transaction the node has accepted: the submission and the number of the attempt that sent it,
and what it charges. -/
structure Tx where
  submission : ℕ
  attempt : ℕ
  batch : Batch
deriving DecidableEq

/-- The batcher, and the transactions of the node by what has become of them. -/
structure State where
  batcher : UsageBatch.State
  pool : List Tx
  /-- The newest first. -/
  executed : List Tx
  /-- Mined without effect. -/
  reverted : List Tx
  /-- Given up before they were mined. -/
  evicted : List Tx

def init : State := ⟨UsageBatch.init, [], [], [], []⟩

namespace State

variable (s : State)

/-- All transactions the node has accepted. -/
def txs : List Tx := s.pool ++ (s.executed ++ (s.reverted ++ s.evicted))

/-- Whether the node has accepted the transaction of the attempt. -/
def sent (j i : ℕ) : Bool := s.txs.any fun tx => tx.submission == j && tx.attempt == i

def mined (j i : ℕ) : Bool :=
  (s.executed ++ s.reverted).any fun tx => tx.submission == j && tx.attempt == i

/-- How many transactions of the submission the node has accepted. -/
def sends (j : ℕ) : ℕ := s.txs.countP fun tx => tx.submission == j

/-- Whether the next attempt of the submission can get the answer. -/
def admits : UsageBatch.Action → Bool
  | .attempt j o =>
      match s.batcher.submissions[j]? with
      | some sub =>
          match o with
          | .sendFailed => !s.sent j sub.outcomes.length
          | .sendLost | .confirmationFailed => s.sent j sub.outcomes.length
          | .confirmed => s.mined j sub.outcomes.length
      | none => false
  | _ => true

/-- The totals on chain, from what was recorded before the first transaction. -/
def onChain (c₀ : OnChain) : OnChain := c₀.executeAll (s.executed.reverse.map Tx.batch)

end State

/-- What can happen next. -/
inductive Action
  | batcher (act : UsageBatch.Action)
  /-- The node accepts the transaction of the attempt that is under way. -/
  | accept (j : ℕ)
  /-- What becomes of the transaction at the given place of the pool. -/
  | execute (i : ℕ)
  | revert (i : ℕ)
  | evict (i : ℕ)

variable (cfg : SettlementConfig) (sharding : Sharding SessionId)

/-- **The transition function of the batcher and its node.** -/
def step (s : State) : Action → Option State
  | .batcher act =>
      if s.admits act then
        (UsageBatch.step cfg sharding s.batcher act).map fun b => { s with batcher := b }
      else none
  | .accept j =>
      (s.batcher.submissions[j]?).bind fun sub =>
        if sub.result = none ∧ sub.batch.noOp = false ∧ s.sent j sub.outcomes.length = false then
          some { s with pool := s.pool ++ [⟨j, sub.outcomes.length, sub.batch⟩] }
        else none
  | .execute i =>
      (s.pool[i]?).map fun tx =>
        { s with pool := s.pool.eraseIdx i, executed := tx :: s.executed }
  | .revert i =>
      (s.pool[i]?).map fun tx =>
        { s with pool := s.pool.eraseIdx i, reverted := tx :: s.reverted }
  | .evict i =>
      (s.pool[i]?).map fun tx =>
        { s with pool := s.pool.eraseIdx i, evicted := tx :: s.evicted }

variable {cfg sharding}

/-! ### What a step can do -/

/-- What a step can do. -/
inductive Change (cfg : SettlementConfig) (sharding : Sharding SessionId) (s : State) :
    Action → State → Prop
  | batcher {act : UsageBatch.Action} {b : UsageBatch.State} (hadmits : s.admits act = true)
      (hstep : UsageBatch.step cfg sharding s.batcher act = some b) :
      Change cfg sharding s (.batcher act) { s with batcher := b }
  | accept {j : ℕ} {sub : UsageBatch.Submission} (hsub : s.batcher.submissions[j]? = some sub)
      (hopen : sub.result = none) (hsent : s.sent j sub.outcomes.length = false) :
      Change cfg sharding s (.accept j)
        { s with pool := s.pool ++ [⟨j, sub.outcomes.length, sub.batch⟩] }
  /-- A transaction leaves the pool; which of the lists takes it is known by their sums. -/
  | leave {act : Action} {s' : State} {i : ℕ} {tx : Tx} (htx : s.pool[i]? = some tx)
      (hbatcher : s'.batcher = s.batcher) (hpool : s'.pool = s.pool.eraseIdx i)
      (hperm : (s'.executed ++ (s'.reverted ++ s'.evicted)).Perm
        (tx :: (s.executed ++ (s.reverted ++ s.evicted)))) :
      Change cfg sharding s act s'

theorem change_of_step {s s' : State} {act : Action} (h : step cfg sharding s act = some s') :
    Change cfg sharding s act s' := by
  cases act with
  | batcher act =>
      simp only [step] at h
      split at h
      · rename_i hadmits
        obtain ⟨b, hb, rfl⟩ := Option.map_eq_some_iff.1 h
        exact .batcher hadmits hb
      · cases h
  | accept j =>
      obtain ⟨sub, hsub, h⟩ := Option.bind_eq_some_iff.1 h
      split at h
      · rename_i hcond
        obtain rfl := Option.some.inj h
        exact .accept hsub hcond.1 hcond.2.2
      · cases h
  | execute i =>
      obtain ⟨tx, htx, rfl⟩ := Option.map_eq_some_iff.1 h
      exact .leave htx rfl rfl (List.Perm.refl _)
  | revert i =>
      obtain ⟨tx, htx, rfl⟩ := Option.map_eq_some_iff.1 h
      exact .leave htx rfl rfl List.perm_middle
  | evict i =>
      obtain ⟨tx, htx, rfl⟩ := Option.map_eq_some_iff.1 h
      refine .leave htx rfl rfl ?_
      exact (List.perm_middle.append_left s.executed).trans List.perm_middle

/-- The batcher takes part in the run with its own steps. -/
theorem batcher_of_step {s s' : State} {act : Action} (h : step cfg sharding s act = some s') :
    s'.batcher = s.batcher ∨
      ∃ act', UsageBatch.step cfg sharding s.batcher act' = some s'.batcher := by
  cases change_of_step h with
  | batcher hadmits hstep => exact Or.inr ⟨_, hstep⟩
  | accept hsub hopen hsent => exact Or.inl rfl
  | leave htx hbatcher hpool hperm => exact Or.inl hbatcher

theorem reachable_batcher {s : State} (h : Reachable (step cfg sharding) init s) :
    Reachable (UsageBatch.step cfg sharding) UsageBatch.init s.batcher := by
  refine h.invariant (I := fun s => Reachable (UsageBatch.step cfg sharding) UsageBatch.init s.batcher)
    (Reachable.refl _) fun s act s' hs hstep => ?_
  rcases batcher_of_step hstep with hsame | ⟨act', hact⟩
  · rw [hsame]
    exact hs
  · exact hs.tail hact

/-- The transactions after a step: one more, or the same in another order. -/
theorem txs_of_leave {s s' : State} {i : ℕ} {tx : Tx} (htx : s.pool[i]? = some tx)
    (hpool : s'.pool = s.pool.eraseIdx i)
    (hperm : (s'.executed ++ (s'.reverted ++ s'.evicted)).Perm
      (tx :: (s.executed ++ (s.reverted ++ s.evicted)))) : s'.txs.Perm s.txs := by
  obtain ⟨hi, rfl⟩ := List.getElem?_eq_some_iff.1 htx
  have hcons : (s.pool[i] :: s.pool.eraseIdx i).Perm s.pool := List.getElem_cons_eraseIdx_perm hi
  unfold State.txs
  rw [hpool]
  refine (hperm.append_left _).trans ?_
  exact List.perm_middle.trans (hcons.append_right _)

theorem txs_of_accept {s : State} (tx : Tx) :
    ({ s with pool := s.pool ++ [tx] } : State).txs.Perm (tx :: s.txs) := by
  unfold State.txs
  rw [List.append_assoc]
  exact List.perm_middle

theorem sent_eq_true {s : State} {j i : ℕ} :
    s.sent j i = true ↔ ∃ tx ∈ s.txs, tx.submission = j ∧ tx.attempt = i := by
  simp [State.sent]

theorem sent_of_perm {s s' : State} (h : s'.txs.Perm s.txs) (j i : ℕ) :
    s'.sent j i = s.sent j i := by
  rw [Bool.eq_iff_iff, sent_eq_true, sent_eq_true]
  simp only [h.mem_iff]

theorem sends_of_perm {s s' : State} (h : s'.txs.Perm s.txs) (j : ℕ) : s'.sends j = s.sends j :=
  h.countP_eq _

/-- What is mined was accepted. -/
theorem sent_of_mined {s : State} {j i : ℕ} (h : s.mined j i = true) : s.sent j i = true := by
  unfold State.mined at h
  unfold State.sent State.txs
  simp only [List.any_append, Bool.or_eq_true] at h ⊢
  rcases h with h | h
  · exact Or.inr (Or.inl h)
  · exact Or.inr (Or.inr (Or.inl h))

/-! ### The node and the submissions agree -/

/-- Each transaction is one of an attempt of its submission, which still waits for the answer or has
had it, and the outcomes of a submission tell which of its attempts sent a transaction. -/
structure Tracked (s : State) : Prop where
  owned : ∀ tx ∈ s.txs, ∃ sub, s.batcher.submissions[tx.submission]? = some sub ∧
    tx.batch = sub.batch ∧ tx.attempt ≤ sub.outcomes.length ∧
    (tx.attempt = sub.outcomes.length → sub.result = none)
  told : ∀ (j i : ℕ) (sub : UsageBatch.Submission) (o : Attempt),
    s.batcher.submissions[j]? = some sub → sub.outcomes[i]? = some o → s.sent j i = o.accepted

theorem tracked_init : Tracked init := by
  constructor
  · intro tx htx
    cases htx
  · intro j i sub o hsub
    cases hsub

/-- An answer that is admitted tells whether the node has accepted the transaction. -/
theorem sent_of_admits {s : State} {j : ℕ} {o : Attempt} {sub : UsageBatch.Submission}
    (hsub : s.batcher.submissions[j]? = some sub) (h : s.admits (.attempt j o) = true) :
    s.sent j sub.outcomes.length = o.accepted := by
  simp only [State.admits, hsub] at h
  cases o with
  | sendFailed => simpa [Attempt.accepted] using h
  | sendLost => exact h
  | confirmationFailed => exact h
  | confirmed => exact sent_of_mined h

/-- A step of the batcher leaves a submission as it is, or is its next attempt. -/
theorem submission_of_step {b b' : UsageBatch.State} {act : UsageBatch.Action}
    (h : UsageBatch.step cfg sharding b act = some b') {j : ℕ} {sub : UsageBatch.Submission}
    (hsub : b.submissions[j]? = some sub) :
    b'.submissions[j]? = some sub ∨
      ∃ o sub', act = .attempt j o ∧ sub.attempt o = some sub' ∧ b'.submissions[j]? = some sub' := by
  cases UsageBatch.change_of_step h with
  | hand ht => exact Or.inl (getElem?_append_of hsub)
  | @attempt j' o sub₁ sub' hsub₁ hattempt =>
      rcases eq_or_ne j' j with rfl | hj
      · obtain rfl := Option.some.inj (hsub₁.symm.trans hsub)
        exact Or.inr ⟨o, sub', rfl, hattempt, getElem?_set_self hsub₁ sub'⟩
      · refine Or.inl ?_
        change (b.submissions.set j' sub')[j]? = some sub
        rw [List.getElem?_set_ne hj]
        exact hsub
  | _ => exact Or.inl hsub

/-- A submission after a step of the batcher was there before, or is a fresh one. -/
theorem submission_before {b b' : UsageBatch.State} {act : UsageBatch.Action}
    (h : UsageBatch.step cfg sharding b act = some b') {j : ℕ} {sub' : UsageBatch.Submission}
    (hsub' : b'.submissions[j]? = some sub') :
    (b.submissions[j]? = none ∧ sub'.outcomes = []) ∨ b.submissions[j]? = some sub' ∨
      ∃ o sub, act = .attempt j o ∧ b.submissions[j]? = some sub ∧ sub.attempt o = some sub' := by
  cases UsageBatch.change_of_step h with
  | @hand t ticket batch awaitChain k ht =>
      rcases getElem?_append_cases hsub' with ⟨rfl, rfl⟩ | hold
      · exact Or.inl ⟨List.getElem?_eq_none (Nat.le_refl _), rfl⟩
      · exact Or.inr (Or.inl hold)
  | @attempt j' o sub₁ sub₂ hsub₁ hattempt =>
      rcases getElem?_set_cases hsub' with ⟨rfl, rfl⟩ | ⟨-, hold⟩
      · exact Or.inr (Or.inr ⟨o, sub₁, rfl, hsub₁, hattempt⟩)
      · exact Or.inr (Or.inl hold)
  | _ => exact Or.inr (Or.inl hsub')

/-- A step of the batcher tells the submissions what the node did. -/
theorem tracked_batcher {s : State} {act : UsageBatch.Action} {b : UsageBatch.State}
    (h : Tracked s) (hadmits : s.admits act = true)
    (hstep : UsageBatch.step cfg sharding s.batcher act = some b) :
    Tracked { s with batcher := b } := by
  constructor
  · intro tx htx
    obtain ⟨sub, hsub, hbatch, hle, hopen⟩ := h.owned tx htx
    rcases submission_of_step hstep hsub with hsame | ⟨o, sub', rfl, hattempt, hsub'⟩
    · exact ⟨sub, hsame, hbatch, hle, hopen⟩
    · obtain ⟨-, hbatch'⟩ := Submission.batch_attempt hattempt
      have hlen : sub'.outcomes.length = sub.outcomes.length + 1 := by
        rw [Submission.outcomes_attempt hattempt, List.length_append, List.length_singleton]
      refine ⟨sub', hsub', hbatch.trans hbatch'.symm, by omega, fun heq => ?_⟩
      omega
  · intro j i sub' o hsub' ho
    change s.sent j i = o.accepted
    rcases submission_before hstep hsub' with ⟨-, hnil⟩ | hsame | ⟨o', sub, rfl, hsub, hattempt⟩
    · rw [hnil] at ho
      cases ho
    · exact h.told j i sub' o hsame ho
    · rw [Submission.outcomes_attempt hattempt] at ho
      rcases getElem?_append_cases ho with ⟨rfl, rfl⟩ | hold
      · exact sent_of_admits hsub hadmits
      · exact h.told j i sub o hsub hold

theorem tracked_accept {s : State} {j : ℕ} {sub : UsageBatch.Submission} (h : Tracked s)
    (hsub : s.batcher.submissions[j]? = some sub) (hopen : sub.result = none) :
    Tracked { s with pool := s.pool ++ [⟨j, sub.outcomes.length, sub.batch⟩] } := by
  have hperm := txs_of_accept (s := s) ⟨j, sub.outcomes.length, sub.batch⟩
  constructor
  · intro tx htx
    rcases List.mem_cons.1 (hperm.mem_iff.1 htx) with rfl | hold
    · exact ⟨sub, hsub, rfl, Nat.le_refl _, fun _ => hopen⟩
    · exact h.owned tx hold
  · intro j' i sub' o hsub' ho
    rw [← h.told j' i sub' o hsub' ho, Bool.eq_iff_iff, sent_eq_true, sent_eq_true]
    simp only [hperm.mem_iff, List.mem_cons, exists_eq_or_imp]
    -- the attempt of the new transaction has no outcome yet
    refine or_iff_right fun hnew => ?_
    obtain ⟨rfl, rfl⟩ := hnew
    obtain rfl := Option.some.inj (hsub.symm.trans hsub')
    rw [List.getElem?_eq_none (Nat.le_refl _)] at ho
    cases ho

theorem Tracked.step {s s' : State} {act : Action} (h : Tracked s)
    (hstep : Billing.step cfg sharding s act = some s') : Tracked s' := by
  cases change_of_step hstep with
  | batcher hadmits hb => exact tracked_batcher h hadmits hb
  | accept hsub hopen hsent => exact tracked_accept h hsub hopen
  | leave htx hbatcher hpool hperm =>
      have htxs := txs_of_leave htx hpool hperm
      constructor
      · intro tx hmem
        rw [hbatcher]
        exact h.owned tx (htxs.mem_iff.1 hmem)
      · intro j i sub o hsub ho
        rw [hbatcher] at hsub
        rw [sent_of_perm htxs]
        exact h.told j i sub o hsub ho

/-- **The node and the submissions agree in every state.** -/
theorem tracked_of_reachable {s : State} (h : Reachable (step cfg sharding) init s) : Tracked s :=
  h.invariant tracked_init fun _ _ _ => Tracked.step

/-! ### The balance of a session -/

/-- What is recorded of one kind. -/
def amount (t : Totals) : Kind → ℕ
  | .input => t.input
  | .output => t.output

namespace State

variable (s : State) (session : SessionId) (k : Kind)

/-- On the way. -/
def pooled : ℕ := total (fun tx => share session k tx.batch) s.pool

/-- In transactions that charge nothing. -/
def lost : ℕ := total (fun tx => share session k tx.batch) (s.reverted ++ s.evicted)

/-- The tokens of a submission. -/
def tokens (j : ℕ) : ℕ :=
  ((s.batcher.submissions[j]?).map fun sub => share session k sub.batch).getD 0

/-- In submissions of which the node has accepted nothing. -/
def unsent : ℕ :=
  ∑ j ∈ Finset.range s.batcher.submissions.length,
    if s.sends j = 0 then s.tokens session k j else 0

/-- What the node has accepted again. -/
def again : ℕ :=
  ∑ j ∈ Finset.range s.batcher.submissions.length, (s.sends j - 1) * s.tokens session k j

end State

theorem amount_executeAll (c : OnChain) (bs : List Batch) (session : SessionId) (k : Kind) :
    amount (c.executeAll bs session) k = amount (c session) k + total (share session k) bs := by
  induction bs generalizing c with
  | nil => rfl
  | cons b bs ih =>
      have hcons : c.executeAll (b :: bs) = (c.execute b).executeAll bs := rfl
      have hhead : amount (c.execute b session) k = amount (c session) k + share session k b := by
        unfold OnChain.execute share
        by_cases hb : b.sessionId = session
        · subst hb
          rw [Function.update_self, if_pos rfl]
          cases k with
          | input => rfl
          | output => rfl
        · rw [Function.update_of_ne (Ne.symm hb), if_neg hb, Nat.add_zero]
      rw [hcons, ih, hhead, total_cons, Nat.add_assoc]

/-- The totals on chain have grown by the transactions executed. -/
theorem amount_onChain (s : State) (c₀ : OnChain) (session : SessionId) (k : Kind) :
    amount (s.onChain c₀ session) k =
      amount (c₀ session) k + total (fun tx => share session k tx.batch) s.executed := by
  have hrev : total (share session k) (s.executed.reverse.map Tx.batch) =
      total (fun tx => share session k tx.batch) s.executed := by
    unfold total
    rw [List.map_map, List.map_reverse, List.sum_reverse]
    rfl
  unfold State.onChain
  rw [amount_executeAll, hrev]

/-- A transaction charges the tokens of its submission. -/
theorem Tracked.share_eq {s : State} (h : Tracked s) {tx : Tx} (htx : tx ∈ s.txs)
    (session : SessionId) (k : Kind) :
    share session k tx.batch = s.tokens session k tx.submission ∧
      tx.submission < s.batcher.submissions.length := by
  obtain ⟨sub, hsub, hbatch, -⟩ := h.owned tx htx
  unfold State.tokens
  rw [hsub, hbatch]
  exact ⟨rfl, (List.getElem?_eq_some_iff.1 hsub).1⟩

/-- The submissions are charged as often as they have transactions. -/
theorem total_eq_sum_count {n : ℕ} {tokens : ℕ → ℕ} {txs : List Tx} {w : Tx → ℕ}
    (h : ∀ tx ∈ txs, w tx = tokens tx.submission ∧ tx.submission < n) :
    total w txs =
      ∑ j ∈ Finset.range n, (txs.countP fun tx => tx.submission == j) * tokens j := by
  induction txs with
  | nil => simp
  | cons tx txs ih =>
      obtain ⟨hw, hlt⟩ := h tx List.mem_cons_self
      have hone : ∑ j ∈ Finset.range n, (if tx.submission = j then tokens j else 0) =
          tokens tx.submission := by
        rw [Finset.sum_ite_eq, if_pos (Finset.mem_range.2 hlt)]
      rw [total_cons, ih fun t ht => h t (List.mem_cons_of_mem tx ht), hw, ← hone,
        ← Finset.sum_add_distrib]
      refine Finset.sum_congr rfl fun j _ => ?_
      rw [List.countP_cons]
      by_cases hj : tx.submission = j
      · simp only [hj, if_true, beq_self_eq_true, Nat.add_mul, Nat.one_mul]
        exact Nat.add_comm _ _
      · simp [hj]

/-- A sum over a pool by the places of its entries. -/
theorem total_eq_sum_range {τ : Type} (w : τ → ℕ) (ts : List τ) :
    total w ts = ∑ j ∈ Finset.range ts.length, ((ts[j]?).map w).getD 0 := by
  induction ts with
  | nil => rfl
  | cons t ts ih =>
      rw [total_cons, ih, List.length_cons, Finset.sum_range_succ', Nat.add_comm]
      rfl

/-- What the node has accepted is what was handed over, less what it has not accepted and with what
it has accepted again. -/
theorem Tracked.handed {s : State} (h : Tracked s) (session : SessionId) (k : Kind) :
    total (fun tx => share session k tx.batch) s.txs + s.unsent session k =
      s.batcher.handed session k + s.again session k := by
  have hhanded : s.batcher.handed session k =
      ∑ j ∈ Finset.range s.batcher.submissions.length, s.tokens session k j :=
    total_eq_sum_range _ _
  rw [total_eq_sum_count fun tx htx => h.share_eq htx session k, hhanded]
  unfold State.unsent State.again
  rw [← Finset.sum_add_distrib, ← Finset.sum_add_distrib]
  refine Finset.sum_congr rfl fun j _ => ?_
  change s.sends j * _ + _ = _
  cases hn : s.sends j with
  | zero => simp
  | succ n =>
      rw [if_neg (Nat.succ_ne_zero n), Nat.add_zero, Nat.add_sub_cancel, Nat.add_mul, Nat.one_mul,
        Nat.add_comm]

/-- The balance in terms of what the pending tokens grew by. -/
theorem Tracked.balances {s : State} (h : Tracked s) (hledger : Ledger s.batcher) (c₀ : OnChain)
    (session : SessionId) (k : Kind) :
    amount (s.onChain c₀ session) k + s.pooled session k + s.lost session k +
        (s.batcher.pending session k + s.batcher.inHand session k + s.unsent session k) +
        s.batcher.dropped session k =
      amount (c₀ session) k + s.batcher.gained session k + s.again session k := by
  have hbalance := hledger.balance session k
  have hcustody := hledger.custody session k
  have hhanded := h.handed session k
  have honChain := amount_onChain s c₀ session k
  have htxs : total (fun tx => share session k tx.batch) s.txs =
      s.pooled session k + (total (fun tx => share session k tx.batch) s.executed +
        s.lost session k) := by
    unfold State.txs State.pooled State.lost
    rw [total_append, total_append]
  omega

/-- **The balance of a session.**  In every state of every run of the batcher and its node, whatever
was recorded on chain before, for every session and kind of tokens whose sum fits in 64 bits: what
was accepted for the session and what the node has accepted again is on chain, in the pool of the
node, in a transaction without effect, pending, in the hand of a flush, in a submission of which the
node has accepted nothing, or was dropped by a removal. -/
theorem balance (cfg : SettlementConfig) (sharding : Sharding SessionId) (c₀ : OnChain) {s : State}
    (h : Reachable (step cfg sharding) init s) (session : SessionId) (k : Kind)
    (hfit : s.batcher.accepted session k < 2 ^ 64) :
    amount (s.onChain c₀ session) k + s.pooled session k + s.lost session k +
        (s.batcher.pending session k + s.batcher.inHand session k + s.unsent session k) +
        s.batcher.dropped session k =
      amount (c₀ session) k + s.batcher.accepted session k + s.again session k := by
  have hsound := sound_of_reachable (reachable_batcher h)
  have hbalance := (tracked_of_reachable h).balances hsound.ledger c₀ session k
  rw [hsound.exact session k hfit] at hbalance
  exact hbalance

/-- A call of `add_usage` that fills its batch and hands it over, and a call that adds one token. -/
def oneBatch : List UsageBatch.Action :=
  [.call (.addUsage 1 100 50), .step 0, .answer 0 (some ⟨0, 0⟩), .step 0, .step 0, .step 0, .step 0,
    .step 0, .call (.addUsage 1 1 0), .step 1, .step 1]

/-- The batch is accepted and executed, its answer is lost, and it is accepted again. -/
def chargedTwice : List Action :=
  oneBatch.map .batcher ++
    [.accept 0, .execute 0, .batcher (.attempt 0 .sendLost), .accept 0, .execute 0,
      .batcher (.attempt 0 .confirmed)]

def observe (s : State) : ℕ × ℕ × ℕ × ℕ :=
  (s.batcher.accepted 1 .input, s.batcher.pending 1 .input, s.again 1 .input,
    amount (s.onChain (fun _ => ⟨0, 0⟩) 1) .input)

theorem observe_chargedTwice :
    (run (step sampleConfig sampleSharding) init chargedTwice).map observe =
      some (101, 1, 100, 200) := by
  decide +kernel

/-- A hundred tokens more are on chain than were submitted. -/
theorem balance_chargedTwice :
    ∃ s, run (step sampleConfig sampleSharding) init chargedTwice = some s ∧
      amount (s.onChain (fun _ => ⟨0, 0⟩) 1) .input = 200 ∧
      200 + s.pooled 1 .input + s.lost 1 .input +
          (1 + s.batcher.inHand 1 .input + s.unsent 1 .input) + s.batcher.dropped 1 .input =
        0 + 101 + 100 := by
  obtain ⟨s, hrun, hobs⟩ := Option.map_eq_some_iff.1 observe_chargedTwice
  simp only [observe, Prod.mk.injEq] at hobs
  obtain ⟨haccepted, hpending, hagain, honChain⟩ := hobs
  refine ⟨s, hrun, honChain, ?_⟩
  have h := balance sampleConfig sampleSharding (fun _ => ⟨0, 0⟩) ⟨_, hrun⟩ 1 .input
    (by rw [haccepted]; decide)
  rw [honChain, hpending, hagain, haccepted] at h
  exact h

/-! ### Charging exactly once -/

/-- Whether the action is no second acceptance for one submission. -/
def State.fresh (s : State) : Action → Bool
  | .accept j => s.sends j == 0
  | _ => true

/-- Nothing of the session is on its way or lost. -/
structure State.Settled (s : State) (session : SessionId) (k : Kind) : Prop where
  pooled : s.pooled session k = 0
  lost : s.lost session k = 0
  pending : s.batcher.pending session k = 0
  inHand : s.batcher.inHand session k = 0
  unsent : s.unsent session k = 0
  dropped : s.batcher.dropped session k = 0

/-- Of no submission has the node accepted two transactions. -/
def State.SentOnce (s : State) : Prop := ∀ j, s.sends j ≤ 1

theorem State.SentOnce.step {s s' : State} {act : Action} (h : s.SentOnce)
    (hstep : Billing.step cfg sharding s act = some s') (hfresh : s.fresh act = true) :
    s'.SentOnce := by
  intro j
  cases change_of_step hstep with
  | batcher hadmits hb => exact h j
  | @accept j' sub hsub hopen hsent =>
      have hnone : s.sends j' = 0 := by simpa [State.fresh] using hfresh
      have hcount := (txs_of_accept (s := s) ⟨j', sub.outcomes.length, sub.batch⟩).countP_eq
        fun tx => tx.submission == j
      change State.sends _ j = _ at hcount
      rw [hcount, List.countP_cons]
      change s.sends j + _ ≤ 1
      by_cases hj : j' = j
      · subst hj
        rw [hnone]
        simp
      · have hle := h j
        simp only [beq_iff_eq, hj, if_false, Nat.add_zero]
        exact hle
  | leave htx hbatcher hpool hperm =>
      rw [sends_of_perm (txs_of_leave htx hpool hperm)]
      exact h j

theorem State.SentOnce.again {s : State} (h : s.SentOnce) (session : SessionId) (k : Kind) :
    s.again session k = 0 := by
  refine Finset.sum_eq_zero fun j _ => ?_
  have hle := h j
  have hzero : s.sends j - 1 = 0 := by omega
  rw [hzero, Nat.zero_mul]

/-- Saturation can only make the pending tokens grow by less than what was accepted. -/
theorem gained_le_accepted {b : UsageBatch.State}
    (h : Reachable (UsageBatch.step cfg sharding) UsageBatch.init b) (session : SessionId)
    (k : Kind) : b.gained session k ≤ b.accepted session k := by
  refine h.invariant (I := fun b => b.gained session k ≤ b.accepted session k)
    (Nat.le_refl 0) fun b act b' hle hstep => ?_
  rcases accepted_of_change (UsageBatch.change_of_step hstep) with
    hsame | ⟨t, session', input, output, sb, hsb, rfl⟩
  · obtain ⟨haccepted, hgained⟩ := hsame session k
    rw [haccepted, hgained]
    exact hle
  · change Event.gained session k _ + b.gained session k ≤
      Event.accepted session k _ + b.accepted session k
    refine Nat.add_le_add ?_ hle
    have hin := toNat_saturatingAdd sb.pendingInput input
    have hout := toNat_saturatingAdd sb.pendingOutput output
    simp only [Event.gained, Event.accepted, SessionBatch.accumulate]
    split
    · cases k with
      | input =>
          dsimp only
          omega
      | output =>
          dsimp only
          omega
    · exact Nat.le_refl 0

/-- **Charging exactly once.**  In every run in which the node never accepts a second transaction of
one submission, in every state and for every session and kind of tokens: no more is recorded on
chain than was accepted; and where nothing is on its way or lost, exactly that. -/
theorem charged_exactly_once (cfg : SettlementConfig) (sharding : Sharding SessionId) (c₀ : OnChain)
    {as : List Action} {s : State} (hrun : run (step cfg sharding) init as = some s)
    (hfresh : Throughout (step cfg sharding) (fun s act _ => s.fresh act = true) init as)
    (session : SessionId) (k : Kind) :
    amount (s.onChain c₀ session) k ≤ amount (c₀ session) k + s.batcher.accepted session k ∧
      (s.Settled session k → s.batcher.accepted session k < 2 ^ 64 →
        amount (s.onChain c₀ session) k =
          amount (c₀ session) k + s.batcher.accepted session k) := by
  have hreach : Reachable (step cfg sharding) init s := ⟨as, hrun⟩
  have hsound := sound_of_reachable (reachable_batcher hreach)
  have honce : s.SentOnce :=
    (always_of_step (fun _ _ _ h hstep hact => h.step hstep hact)
      (fun _ => Nat.zero_le 1) hfresh).last hrun
  have hbalance := (tracked_of_reachable hreach).balances hsound.ledger c₀ session k
  have hagain := honce.again session k
  have hle := gained_le_accepted (reachable_batcher hreach) session k
  constructor
  · omega
  · intro hsettled hfit
    have hexact := hsound.exact session k hfit
    obtain ⟨hpooled, hlost, hpending, hinHand, hunsent, hdropped⟩ := hsettled
    omega

/-- A batch that is flushed, accepted once, executed and confirmed. -/
def chargedOnce : List Action :=
  (oneBatch.take 8).map .batcher ++
    [.batcher (.attempt 0 .sendFailed), .accept 0, .execute 0, .batcher (.attempt 0 .confirmed)]

def settledInput (s : State) : Bool :=
  s.pooled 1 .input == 0 && s.lost 1 .input == 0 && s.batcher.pending 1 .input == 0 &&
    s.batcher.inHand 1 .input == 0 && s.unsent 1 .input == 0 && s.batcher.dropped 1 .input == 0

theorem observe_chargedOnce :
    (run (step sampleConfig sampleSharding) init chargedOnce).map
      (fun s => (s.batcher.accepted 1 .input, settledInput s)) = some (100, true) := by
  decide +kernel

theorem charged_chargedOnce :
    ∃ s, run (step sampleConfig sampleSharding) init chargedOnce = some s ∧
      amount (s.onChain (fun _ => ⟨5, 5⟩) 1) .input = 5 + 100 := by
  obtain ⟨s, hrun, hobs⟩ := Option.map_eq_some_iff.1 observe_chargedOnce
  simp only [Prod.mk.injEq, settledInput, Bool.and_eq_true, beq_iff_eq] at hobs
  obtain ⟨haccepted, ⟨⟨⟨⟨hpooled, hlost⟩, hpending⟩, hinHand⟩, hunsent⟩, hdropped⟩ := hobs
  refine ⟨s, hrun, ?_⟩
  have h := (charged_exactly_once sampleConfig sampleSharding (fun _ => ⟨5, 5⟩) hrun
    (throughout_of_check (by decide +kernel)) 1 .input).2
    ⟨hpooled, hlost, hpending, hinHand, hunsent, hdropped⟩ (by rw [haccepted]; decide)
  rw [haccepted] at h
  exact h

end Billing
