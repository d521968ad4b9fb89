/-
**Submitting a batch of usage on chain.**

`RecordUsageClient` (`src/chain/usage.rs`) submits a batch as a `recordUsage` transaction and waits
for one confirmation; `record_usage_with_retry` submits it again after an error, three times at
most.  What one attempt does depends on the RPC node alone: it may fail before the node has the
transaction, the node may accept the transaction and the answer be lost, the confirmation may not be
seen, or the transaction is confirmed.  An error therefore does not tell whether the transaction is
on its way, and a retry after one that is sends a second transaction for the same batch.

Main definitions:

* `Chain.recordUsage`, `Chain.recordUsageWithRetry` — an attempt, and the loop over the attempts;
* `Chain.OnChain.executeAll` — the on-chain totals after a list of accepted transactions;
* `Chain.ChargedAtMostOnce` — the totals of the session grow by at most the batch.

Main results:

* `Chain.length_accepted_le_one_iff` — when the loop gets at most one transaction accepted;
* `Chain.chargedAtMostOnce_iff` — **a batch is charged at most once exactly when it is empty or no
  attempt is accepted after an attempt whose acceptance was lost**;
* `Chain.chargedAtMostOnce_breaks` — a batch that is charged twice.
-/

import Mathlib.Algebra.GroupWithZero.Nat
import Mathlib.Data.List.Basic
import Mathlib.Logic.Function.Basic

set_option relaxedAutoImplicit false
set_option autoImplicit false

namespace Chain

/-! ### One attempt -/

/-- The tokens of a session that one submission charges. -/
structure Batch where
  sessionId : UInt64
  inputDelta : UInt64
  outputDelta : UInt64
deriving DecidableEq

/-- A batch for which no transaction is sent. -/
def Batch.noOp (b : Batch) : Bool := b.inputDelta == 0 && b.outputDelta == 0

/-- How the RPC node answers an attempt. -/
inductive Attempt
  /-- The send fails before the node has the transaction. -/
  | sendFailed
  /-- The node accepts the transaction, and the send returns an error. -/
  | sendLost
  /-- The transaction is sent; watching for its confirmation fails. -/
  | confirmationFailed
  | confirmed
deriving DecidableEq

/-- Whether the node accepted the transaction of the attempt. -/
def Attempt.accepted : Attempt → Bool
  | .sendFailed => false
  | _ => true

/-- Whether the attempt returns an error although the node accepted its transaction. -/
def Attempt.lost : Attempt → Bool
  | .sendLost | .confirmationFailed => true
  | _ => false

inductive RecordUsageError
  | sendFailed
  | confirmationFailed
deriving DecidableEq

/-- `record_usage`: the result, and the transactions the node accepted. -/
def recordUsage (b : Batch) (o : Attempt) : Except RecordUsageError Unit × List Batch :=
  if b.noOp then (.ok (), [])
  else
    match o with
    | .sendFailed => (.error .sendFailed, [])
    | .sendLost => (.error .sendFailed, [b])
    | .confirmationFailed => (.error .confirmationFailed, [b])
    | .confirmed => (.ok (), [b])

/-! ### The retry loop -/

def maxAttempts : ℕ := 3

/-- What the loop leaves behind: the transactions the node accepted, the seconds slept between the
attempts, and which of the two metrics is raised. -/
structure Submission where
  accepted : List Batch
  sleeps : List ℕ
  success : Bool

/-- The loop from the given attempt on, with the given number of attempts left. -/
def retryFrom (b : Batch) (outcomes : ℕ → Attempt) (attempt : ℕ) : ℕ → Submission
  | 0 => ⟨[], [], false⟩
  | left + 1 =>
      match recordUsage b (outcomes attempt) with
      | (.ok _, txs) => ⟨txs, [], true⟩
      | (.error _, txs) =>
          let sleep := if left = 0 then [] else [2 ^ (attempt - 1)]
          let rest := retryFrom b outcomes (attempt + 1) left
          ⟨txs ++ rest.accepted, sleep ++ rest.sleeps, rest.success⟩

/-- `record_usage_with_retry`, with the answer of the RPC node to each attempt. -/
def recordUsageWithRetry (b : Batch) (outcomes : ℕ → Attempt) : Submission :=
  retryFrom b outcomes 1 maxAttempts

/-! ### The totals on chain -/

/-- What is recorded for a session. -/
structure Totals where
  input : ℕ
  output : ℕ
deriving DecidableEq

abbrev OnChain := UInt64 → Totals

/-- An accepted transaction executes. -/
def OnChain.execute (c : OnChain) (b : Batch) : OnChain :=
  Function.update c b.sessionId
    ⟨(c b.sessionId).input + b.inputDelta.toNat, (c b.sessionId).output + b.outputDelta.toNat⟩

def OnChain.executeAll (c : OnChain) (txs : List Batch) : OnChain := txs.foldl OnChain.execute c

/-- Whatever was recorded before, the totals of the session grow by at most the batch. -/
def ChargedAtMostOnce (b : Batch) (outcomes : ℕ → Attempt) : Prop :=
  ∀ c : OnChain,
    let c' := c.executeAll (recordUsageWithRetry b outcomes).accepted
    (c' b.sessionId).input ≤ (c b.sessionId).input + b.inputDelta.toNat ∧
      (c' b.sessionId).output ≤ (c b.sessionId).output + b.outputDelta.toNat

/-- Of the attempts from `first` up to but not including `last`, one is made whose acceptance is
lost, and a later one is accepted. -/
def AcceptedAfterLost (outcomes : ℕ → Attempt) (first last : ℕ) : Prop :=
  ∃ i j, first ≤ i ∧ i < j ∧ j < last ∧
    (∀ l, first ≤ l → l < i → outcomes l ≠ .confirmed) ∧
    (outcomes i).lost = true ∧ (outcomes j).accepted = true

/-! ### What one attempt does -/

theorem recordUsage_of_noOp {b : Batch} (h : b.noOp = true) (o : Attempt) :
    recordUsage b o = (.ok (), []) := by
  simp [recordUsage, h]

theorem recordUsage_confirmed {b : Batch} (h : b.noOp = false) :
    recordUsage b .confirmed = (.ok (), [b]) := by
  simp [recordUsage, h]

/-- An attempt whose acceptance is lost adds its transaction and is retried. -/
theorem recordUsage_of_lost {b : Batch} (h : b.noOp = false) {o : Attempt} (ho : o.lost = true) :
    ∃ e, recordUsage b o = (.error e, [b]) := by
  cases o with
  | sendLost => exact ⟨.sendFailed, by simp [recordUsage, h]⟩
  | confirmationFailed => exact ⟨.confirmationFailed, by simp [recordUsage, h]⟩
  | sendFailed => cases ho
  | confirmed => cases ho

theorem recordUsage_sendFailed {b : Batch} (h : b.noOp = false) :
    recordUsage b .sendFailed = (.error .sendFailed, []) := by
  simp [recordUsage, h]

/-- The four answers as the loop tells them apart. -/
theorem Attempt.cases_loop (o : Attempt) : o = .confirmed ∨ o = .sendFailed ∨ o.lost = true := by
  cases o with
  | confirmed => exact Or.inl rfl
  | sendFailed => exact Or.inr (Or.inl rfl)
  | sendLost => exact Or.inr (Or.inr rfl)
  | confirmationFailed => exact Or.inr (Or.inr rfl)

theorem Attempt.accepted_of_lost {o : Attempt} (h : o.lost = true) : o.accepted = true := by
  cases o with
  | sendFailed => cases h
  | _ => rfl

/-! ### What the loop does, attempt by attempt -/

section

variable {b : Batch} {outcomes : ℕ → Attempt} {attempt : ℕ}

theorem accepted_of_noOp (h : b.noOp = true) (left : ℕ) :
    (retryFrom b outcomes attempt left).accepted = [] := by
  cases left with
  | zero => rfl
  | succ left => simp [retryFrom, recordUsage_of_noOp h]

theorem accepted_of_confirmed (h : b.noOp = false) (ho : outcomes attempt = .confirmed)
    (left : ℕ) : (retryFrom b outcomes attempt (left + 1)).accepted = [b] := by
  simp [retryFrom, ho, recordUsage_confirmed h]

theorem accepted_of_sendFailed (h : b.noOp = false) (ho : outcomes attempt = .sendFailed)
    (left : ℕ) : (retryFrom b outcomes attempt (left + 1)).accepted =
      (retryFrom b outcomes (attempt + 1) left).accepted := by
  simp [retryFrom, ho, recordUsage_sendFailed h]

theorem accepted_of_lost (h : b.noOp = false) (ho : (outcomes attempt).lost = true) (left : ℕ) :
    (retryFrom b outcomes attempt (left + 1)).accepted =
      b :: (retryFrom b outcomes (attempt + 1) left).accepted := by
  obtain ⟨e, he⟩ := recordUsage_of_lost h ho
  simp [retryFrom, he]

end

/-- Every transaction of the loop is for the batch. -/
theorem eq_of_mem_accepted {b : Batch} {outcomes : ℕ → Attempt} {attempt left : ℕ} {tx : Batch}
    (htx : tx ∈ (retryFrom b outcomes attempt left).accepted) : tx = b := by
  cases hb : b.noOp with
  | true =>
      rw [accepted_of_noOp hb] at htx
      cases htx
  | false =>
      induction left generalizing attempt with
      | zero => cases htx
      | succ left ih =>
          rcases (outcomes attempt).cases_loop with ho | ho | ho
          · rw [accepted_of_confirmed hb ho] at htx
            exact List.mem_singleton.1 htx
          · rw [accepted_of_sendFailed hb ho] at htx
            exact ih htx
          · rw [accepted_of_lost hb ho] at htx
            rcases List.mem_cons.1 htx with rfl | htx
            · rfl
            · exact ih htx

/-- The loop gets nothing accepted exactly when the node accepts none of its attempts. -/
theorem accepted_eq_nil_iff {b : Batch} (hb : b.noOp = false) {outcomes : ℕ → Attempt}
    {attempt left : ℕ} : (retryFrom b outcomes attempt left).accepted = [] ↔
      ∀ j, attempt ≤ j → j < attempt + left → (outcomes j).accepted = false := by
  induction left generalizing attempt with
  | zero =>
      constructor
      · intro _ j hj hj'
        omega
      · intro _
        rfl
  | succ left ih =>
      rcases (outcomes attempt).cases_loop with ho | ho | ho
      · rw [accepted_of_confirmed hb ho]
        constructor
        · intro h
          cases h
        · intro h
          have hfirst := h attempt (Nat.le_refl _) (by omega)
          rw [ho] at hfirst
          cases hfirst
      · rw [accepted_of_sendFailed hb ho, ih]
        constructor
        · intro h j hj hj'
          rcases Nat.eq_or_lt_of_le hj with rfl | hlt
          · rw [ho]
            rfl
          · exact h j hlt (by omega)
        · intro h j hj hj'
          exact h j (by omega) (by omega)
      · rw [accepted_of_lost hb ho]
        constructor
        · intro h
          cases h
        · intro h
          have hfirst := h attempt (Nat.le_refl _) (by omega)
          rw [Attempt.accepted_of_lost ho] at hfirst
          cases hfirst

/-- An attempt that fails to be sent leaves the question to the attempts after it. -/
theorem acceptedAfterLost_of_sendFailed {outcomes : ℕ → Attempt} {first last : ℕ}
    (ho : outcomes first = .sendFailed) :
    AcceptedAfterLost outcomes first last ↔ AcceptedAfterLost outcomes (first + 1) last := by
  constructor
  · rintro ⟨i, j, hi, hij, hj, hnone, hlost, hacc⟩
    have hne : first ≠ i := by
      rintro rfl
      rw [ho] at hlost
      cases hlost
    exact ⟨i, j, by omega, hij, hj, fun l hl hli => hnone l (by omega) hli, hlost, hacc⟩
  · rintro ⟨i, j, hi, hij, hj, hnone, hlost, hacc⟩
    refine ⟨i, j, by omega, hij, hj, fun l hl hli => ?_, hlost, hacc⟩
    rcases Nat.eq_or_lt_of_le hl with rfl | hlt
    · rw [ho]
      exact fun h => by cases h
    · exact hnone l hlt hli

/-- **The loop gets at most one transaction accepted exactly when no attempt is accepted after one
whose acceptance was lost.** -/
theorem length_accepted_le_one_iff {b : Batch} (hb : b.noOp = false) {outcomes : ℕ → Attempt}
    {attempt left : ℕ} : (retryFrom b outcomes attempt left).accepted.length ≤ 1 ↔
      ¬ AcceptedAfterLost outcomes attempt (attempt + left) := by
  induction left generalizing attempt with
  | zero =>
      constructor
      · rintro - ⟨i, j, hi, hij, hj, -⟩
        omega
      · intro _
        exact Nat.zero_le 1
  | succ left ih =>
      rcases (outcomes attempt).cases_loop with ho | ho | ho
      · rw [accepted_of_confirmed hb ho]
        constructor
        · rintro - ⟨i, j, hi, hij, hj, hnone, hlost, -⟩
          rcases Nat.eq_or_lt_of_le hi with rfl | hlt
          · rw [ho] at hlost
            cases hlost
          · exact hnone attempt (Nat.le_refl _) hlt ho
        · intro _
          exact Nat.le_refl 1
      · rw [accepted_of_sendFailed hb ho, ih, acceptedAfterLost_of_sendFailed ho]
        have hlast : attempt + 1 + left = attempt + (left + 1) := by omega
        rw [hlast]
      · have hnil : (b :: (retryFrom b outcomes (attempt + 1) left).accepted).length ≤ 1 ↔
            (retryFrom b outcomes (attempt + 1) left).accepted = [] := by
          rw [List.length_cons, ← List.length_eq_zero_iff]
          omega
        rw [accepted_of_lost hb ho, hnil, accepted_eq_nil_iff hb]
        constructor
        · rintro h ⟨i, j, hi, hij, hj, -, -, hacc⟩
          have hrejected := h j (by omega) (by omega)
          rw [hacc] at hrejected
          cases hrejected
        · intro h j hj hj'
          by_contra hacc
          refine h ⟨attempt, j, Nat.le_refl _, by omega, by omega, fun l hl hl' => ?_, ho, ?_⟩
          · omega
          · simpa using hacc

/-! ### The totals -/

/-- Transactions that are all for one batch add the batch to its session each time. -/
theorem executeAll_of_forall_eq {b : Batch} {txs : List Batch} (h : ∀ tx ∈ txs, tx = b)
    (c : OnChain) :
    ((c.executeAll txs) b.sessionId).input =
        (c b.sessionId).input + txs.length * b.inputDelta.toNat ∧
      ((c.executeAll txs) b.sessionId).output =
        (c b.sessionId).output + txs.length * b.outputDelta.toNat := by
  induction txs generalizing c with
  | nil => simp [OnChain.executeAll]
  | cons tx txs ih =>
      obtain rfl : tx = b := h tx List.mem_cons_self
      have hrest : ∀ t ∈ txs, t = tx := fun t ht => h t (List.mem_cons_of_mem tx ht)
      obtain ⟨hin, hout⟩ := ih hrest (c.execute tx)
      have hcons : c.executeAll (tx :: txs) = (c.execute tx).executeAll txs := rfl
      have hself : c.execute tx tx.sessionId =
          ⟨(c tx.sessionId).input + tx.inputDelta.toNat,
            (c tx.sessionId).output + tx.outputDelta.toNat⟩ := Function.update_self ..
      rw [hself] at hin hout
      rw [hcons, hin, hout, List.length_cons, Nat.add_mul, Nat.add_mul]
      dsimp only
      constructor
      · omega
      · omega

/-- A batch that is not empty has tokens of one kind. -/
theorem pos_of_not_noOp {b : Batch} (h : b.noOp = false) :
    0 < b.inputDelta.toNat ∨ 0 < b.outputDelta.toNat := by
  by_contra hneg
  obtain ⟨hin, hout⟩ : b.inputDelta.toNat = 0 ∧ b.outputDelta.toNat = 0 := by omega
  have hin' : b.inputDelta = 0 := UInt64.toNat_inj.1 hin
  have hout' : b.outputDelta = 0 := UInt64.toNat_inj.1 hout
  simp [Batch.noOp, hin', hout'] at h

/-- The loop is within the batch exactly when so many copies of the batch are. -/
theorem chargedAtMostOnce_iff_length (b : Batch) (outcomes : ℕ → Attempt) :
    ChargedAtMostOnce b outcomes ↔
      (recordUsageWithRetry b outcomes).accepted.length * b.inputDelta.toNat ≤ b.inputDelta.toNat ∧
        (recordUsageWithRetry b outcomes).accepted.length * b.outputDelta.toNat ≤
          b.outputDelta.toNat := by
  have hall : ∀ tx ∈ (recordUsageWithRetry b outcomes).accepted, tx = b :=
    fun tx => eq_of_mem_accepted
  constructor
  · intro h
    obtain ⟨hin, hout⟩ := executeAll_of_forall_eq hall fun _ => ⟨0, 0⟩
    have hle := h fun _ => ⟨0, 0⟩
    simp only [hin, hout, Nat.zero_add] at hle
    exact hle
  · intro h c
    obtain ⟨hin, hout⟩ := executeAll_of_forall_eq hall c
    simp only [hin, hout]
    omega

/-- **When a batch is charged at most once.**  For every batch and every sequence of answers of the
RPC node: exactly when the batch is empty, or none of the three attempts is accepted after an
attempt that was made and returned an error although its transaction was accepted. -/
theorem chargedAtMostOnce_iff (b : Batch) (outcomes : ℕ → Attempt) :
    ChargedAtMostOnce b outcomes ↔
      b.noOp = true ∨ ¬ AcceptedAfterLost outcomes 1 (1 + maxAttempts) := by
  rw [chargedAtMostOnce_iff_length]
  cases hb : b.noOp with
  | true =>
      have hnil : (recordUsageWithRetry b outcomes).accepted = [] := accepted_of_noOp hb _
      simp [hnil]
  | false =>
      rw [← length_accepted_le_one_iff hb]
      simp only [Bool.false_eq_true, false_or]
      constructor
      · rintro ⟨hin, hout⟩
        -- a kind of token the batch has is charged once per accepted transaction
        by_contra hlen
        have htwo : 2 ≤ (recordUsageWithRetry b outcomes).accepted.length := Nat.lt_of_not_le hlen
        have hin' := Nat.mul_le_mul_right b.inputDelta.toNat htwo
        have hout' := Nat.mul_le_mul_right b.outputDelta.toNat htwo
        rcases pos_of_not_noOp hb with hpos | hpos
        · omega
        · omega
      · intro hlen
        have hin := Nat.mul_le_mul_right b.inputDelta.toNat hlen
        have hout := Nat.mul_le_mul_right b.outputDelta.toNat hlen
        rw [Nat.one_mul] at hin hout
        exact ⟨hin, hout⟩

/-- The first attempt is sent, and watching for its confirmation fails; the second is confirmed. -/
def confirmationLost : ℕ → Attempt
  | 1 => .confirmationFailed
  | _ => .confirmed

/-- **A lost confirmation charges the batch twice.** -/
theorem chargedAtMostOnce_breaks :
    ¬ ∀ (b : Batch) (outcomes : ℕ → Attempt), ChargedAtMostOnce b outcomes := by
  intro h
  have hcharged := (h ⟨7, 100, 50⟩ confirmationLost fun _ => ⟨0, 0⟩).1
  exact absurd hcharged (by decide)

end Chain
