/-
**The accounting of a session in the escrow contract.**

A session is opened with an amount locked for it.  Usage is recorded against it at a price the
contract sets, and parts of the lock are released, some to the provider, some back to the user
(`abi/SettlementEscrow.json`: `openSession`, `recordUsage`, `settlePartial`).  The recorded usage is
cumulative: a release lowers the lock and raises what has been paid, and leaves the usage as it
is.  The provider is never paid more than the recorded usage.

Main definitions:

* `Escrow.openSession`, `Escrow.step` — the record of a session and the calls that change it;
* `Escrow.unpaid` — the usage that is recorded and not paid.

Main results:

* `Escrow.paid_le_usage` — **in every record the provider has been paid for recorded usage only**;
* `Escrow.settled_iff` — a session is settled exactly when nothing is locked.
-/

import SparklRouter.Chain.Session
import SparklRouter.Concurrency.Transition

set_option relaxedAutoImplicit false
set_option autoImplicit false

open Transition

namespace Escrow

/-- What a session is opened with. -/
structure Opening where
  user : Address
  nodeId : NodeId
  tier : UInt8
  modelId : List.Vector UInt8 32
  amountInternal : Amount
  openedAt : Fin (2 ^ 64)
  name : List UInt8

def openSession (o : Opening) : SessionRecord where
  user := o.user
  nodeId := o.nodeId
  modelId := o.modelId
  tier := o.tier
  lockedInternal := o.amountInternal
  usageRecorded := 0
  paidToProviderInternal := 0
  paidToProtocolInternal := 0
  openingInternal := o.amountInternal
  openedAt := o.openedAt
  settled := o.amountInternal = 0
  inputTokensRecorded := 0
  outputTokensRecorded := 0
  name := o.name

/-- The calls that change the accounting of a session: usage with its price, and a release of a
part of the lock to the provider and to the user, with the protocol's share of the former. -/
inductive Action
  | recordUsage (inputTokensDelta outputTokensDelta priceInternal : ℕ)
  | settlePartial (toProvider toUser protocolFee : ℕ)

/-- The call, if the contract accepts it. -/
def step (r : SessionRecord) : Action → Option SessionRecord
  | .recordUsage inputTokensDelta outputTokensDelta priceInternal =>
      if h : r.usageRecorded + priceInternal < 2 ^ 128 ∧
          r.inputTokensRecorded + inputTokensDelta < 2 ^ 64 ∧
          r.outputTokensRecorded + outputTokensDelta < 2 ^ 64 then
        some
          { r with
            usageRecorded := ⟨r.usageRecorded + priceInternal, h.1⟩
            inputTokensRecorded := ⟨r.inputTokensRecorded + inputTokensDelta, h.2.1⟩
            outputTokensRecorded := ⟨r.outputTokensRecorded + outputTokensDelta, h.2.2⟩ }
      else none
  | .settlePartial toProvider toUser protocolFee =>
      if h : toProvider + toUser ≤ r.lockedInternal ∧
          r.paidToProviderInternal + toProvider ≤ r.usageRecorded ∧
          r.paidToProtocolInternal + protocolFee < 2 ^ 128 then
        some
          { r with
            lockedInternal := ⟨r.lockedInternal - (toProvider + toUser),
              (Nat.sub_le _ _).trans_lt r.lockedInternal.isLt⟩
            paidToProviderInternal := ⟨r.paidToProviderInternal + toProvider,
              h.2.1.trans_lt r.usageRecorded.isLt⟩
            paidToProtocolInternal := ⟨r.paidToProtocolInternal + protocolFee, h.2.2⟩
            settled := r.lockedInternal - (toProvider + toUser) = (0 : ℕ) }
      else none

/-- The usage that is recorded and not paid. -/
def unpaid (r : SessionRecord) : ℕ := r.usageRecorded - r.paidToProviderInternal

/-! ### Invariants of the accounting -/

/-- The accounts of a session agree with each other. -/
structure Balanced (r : SessionRecord) : Prop where
  paid_le : (r.paidToProviderInternal : ℕ) ≤ r.usageRecorded
  settled_iff : r.settled = true ↔ (r.lockedInternal : ℕ) = 0

theorem balanced_openSession (o : Opening) : Balanced (openSession o) where
  paid_le := le_refl _
  settled_iff := by
    simp only [openSession, decide_eq_true_eq]
    exact Fin.ext_iff

/-- Each call keeps the accounts in agreement. -/
theorem Balanced.step {r r' : SessionRecord} {action : Action} (h : Balanced r)
    (hs : step r action = some r') : Balanced r' := by
  have hpaid := h.paid_le
  cases action with
  | recordUsage inputTokensDelta outputTokensDelta priceInternal =>
      rw [Escrow.step] at hs
      split at hs
      · cases hs
        exact ⟨hpaid.trans (Nat.le_add_right _ _), h.settled_iff⟩
      · cases hs
  | settlePartial toProvider toUser protocolFee =>
      rw [Escrow.step] at hs
      split at hs
      · rename_i hguard
        cases hs
        exact ⟨hguard.2.1, decide_eq_true_iff⟩
      · cases hs

theorem balanced_of_reachable {o : Opening} {r : SessionRecord}
    (h : Reachable step (openSession o) r) : Balanced r :=
  h.invariant (balanced_openSession o) fun _ _ _ hr hs => hr.step hs

/-- **The provider is paid for recorded usage only.** -/
theorem paid_le_usage {o : Opening} {r : SessionRecord} (h : Reachable step (openSession o) r) :
    (r.paidToProviderInternal : ℕ) ≤ r.usageRecorded :=
  (balanced_of_reachable h).paid_le

/-- A session is settled exactly when nothing is locked. -/
theorem settled_iff {o : Opening} {r : SessionRecord} (h : Reachable step (openSession o) r) :
    r.settled = true ↔ (r.lockedInternal : ℕ) = 0 :=
  (balanced_of_reachable h).settled_iff

/-! ### A partial settlement -/

def sampleOpening : Opening where
  user := List.Vector.replicate 20 1
  nodeId := List.Vector.replicate 32 1
  tier := 0
  modelId := List.Vector.replicate 32 2
  amountInternal := 100
  openedAt := 0
  name := []

/-- The record when half of the balance has been used and paid. -/
def halfPaidRecord : SessionRecord :=
  { openSession sampleOpening with
    lockedInternal := 50
    usageRecorded := 50
    paidToProviderInternal := 50
    inputTokensRecorded := 10
    outputTokensRecorded := 5 }

theorem reachable_halfPaid : Reachable step (openSession sampleOpening) halfPaidRecord :=
  ⟨[.recordUsage 10 5 50, .settlePartial 50 0 0], by rfl⟩

end Escrow
