/-
**The gate in front of the consumer's requests.**

Every request under `/v1` passes a gate that reads the session id out of the bearer token, looks the
session up, and refuses the request when the session is not open, when its prepaid balance is
exhausted, or when its node has no tunnel (`src/consumer/middleware.rs`, `src/consumer/bearer.rs`).
The balance is taken to be exhausted when the recorded usage has reached the amount that is still
locked.  The recorded usage is cumulative, and a partial settlement lowers the lock by what it pays
for usage: after one, usage that has been paid counts against the rest of the lock once more.

Main definitions:

* `parseSkBearer`, `parseAuthorizationHeader` — the bearer token;
* `requireV1Session` — the gate;
* `RefusedForBudget` — the gate refuses a request for want of balance.

Main results:

* `refusedForBudget_iff` — when the gate refuses a request for want of balance;
* `budgetGate_iff` — **the gate agrees with the escrow's accounting exactly when the recorded usage
  is below the lock, or at least the lock and what has been paid together**;
* `budgetGate_breaks` — a session with half of its balance left is refused after a partial
  settlement.
-/

import SparklRouter.Chain.Escrow

set_option relaxedAutoImplicit false
set_option autoImplicit false

open Transition

/-! ### The bearer token -/

structure ParsedBearer where
  sessionId : ℕ

/-- The session id of a token.  `base58` is the decoder. -/
def parseSkBearer (base58 : Text → Option (List UInt8)) (token : Text) :
    Except Text ParsedBearer :=
  match Text.stripPrefix "sk_".toList token with
  | none => .error "bearer token must start with sk_".toList
  | some raw =>
      match base58 raw with
      | none => .error "invalid base58 in bearer token".toList
      | some bytes =>
          if bytes.length ≠ 64 then .error "sk_ token must decode to 64 bytes".toList
          else if bytes.take 24 ≠ List.replicate 24 0 then
            .error "session id exceeds u64 range in bearer token".toList
          else .ok ⟨BigEndian.decode ((bytes.drop 24).take 8)⟩

def parseAuthorizationHeader (base58 : Text → Option (List UInt8)) (authz : Text) :
    Except Text ParsedBearer :=
  match (Text.stripPrefix "Bearer ".toList authz).or (Text.stripPrefix "bearer ".toList authz) with
  | none => .error "Authorization must be Bearer sk_...".toList
  | some token => parseSkBearer base58 token.trim

/-! ### The gate -/

/-- What the gate looks at besides the request. -/
structure GateState where
  base58 : Text → Option (List UInt8)
  enforceSessionBudget : Bool
  getSession : ℕ → Except Text ChainSession
  hasTunnel : NodeId → Bool

/-- The session a request is made on. -/
structure AuthenticatedSession where
  sessionId : ℕ
  user : Address
  nodeId : NodeId
  lockedInternal : ℕ
  usageRecorded : ℕ

/-- The gate lets the request pass with its session, or answers with a status and a message. -/
def requireV1Session (state : GateState) (authHeader : Option Text) :
    Except (ℕ × Text) AuthenticatedSession :=
  match authHeader with
  | none => .error (401, "missing Authorization header".toList)
  | some authz =>
      match parseAuthorizationHeader state.base58 authz with
      | .error e => .error (400, e)
      | .ok bearer =>
          match state.getSession bearer.sessionId with
          | .error e => .error (401, "failed to verify session: ".toList ++ e)
          | .ok s =>
              if !s.isOpen then .error (401, "session not open".toList)
              else if state.enforceSessionBudget && s.budgetExhausted then
                .error (402, "session prepaid balance exhausted".toList)
              else if !state.hasTunnel s.nodeId then
                .error (503, "provider node offline".toList)
              else
                .ok
                  { sessionId := bearer.sessionId
                    user := s.user
                    nodeId := s.nodeId
                    lockedInternal := s.lockedInternal
                    usageRecorded := s.usageRecorded }

/-- The gate refuses the request for want of balance. -/
def RefusedForBudget (state : GateState) (authHeader : Option Text) : Prop :=
  requireV1Session state authHeader =
    .error (402, "session prepaid balance exhausted".toList)

/-- The request names a session that the router reads as `s`. -/
structure OnSession (state : GateState) (authHeader : Option Text) (s : ChainSession) : Prop where
  found : ∃ authz bearer, authHeader = some authz ∧
    parseAuthorizationHeader state.base58 authz = .ok bearer ∧
    state.getSession bearer.sessionId = .ok s

/-- A request on an open session is refused for want of balance exactly when the budget is enforced
and exhausted. -/
theorem refusedForBudget_iff {state : GateState} {authHeader : Option Text} {s : ChainSession}
    (h : OnSession state authHeader s) (hopen : s.isOpen = true) :
    RefusedForBudget state authHeader ↔
      state.enforceSessionBudget = true ∧ s.budgetExhausted = true := by
  obtain ⟨authz, bearer, rfl, hbearer, hget⟩ := h.found
  rw [RefusedForBudget, requireV1Session]
  simp only [hbearer, hget, hopen, Bool.not_true, Bool.false_eq_true, if_false]
  constructor
  · intro hrefused
    split at hrefused
    · rename_i hboth
      exact (Bool.and_eq_true _ _).mp hboth
    · split at hrefused
      · cases hrefused
      · cases hrefused
  · intro hboth
    rw [if_pos ((Bool.and_eq_true _ _).mpr hboth)]

/-! ### The gate and the accounting of the escrow -/

open Escrow

/-- **The gate agrees with the escrow's accounting exactly when the recorded usage is below the
lock, or at least the lock and what has been paid to the provider together.**  The record is any
that the escrow can reach, the session is open, and the router has read it. -/
theorem budgetGate_iff {o : Opening} {r : SessionRecord}
    (hr : Reachable Escrow.step (openSession o) r) (state : GateState) (authHeader : Option Text)
    (henforced : state.enforceSessionBudget = true) (hopen : r.toChainSession.isOpen = true)
    {s : ChainSession} (hfetched : fetchSession (.ok r.returndata) = .ok s)
    (hon : OnSession state authHeader s) :
    (RefusedForBudget state authHeader ↔ (r.lockedInternal : ℕ) ≤ unpaid r) ↔
      ((r.usageRecorded : ℕ) < r.lockedInternal ∨
        (r.lockedInternal : ℕ) + r.paidToProviderInternal ≤ r.usageRecorded) := by
  have hpaid := paid_le_usage hr
  obtain rfl : r.toChainSession = s :=
    Except.ok.inj ((fetchSession_returndata r).symm.trans hfetched)
  -- an open session has something locked, so the comparison with zero decides nothing
  have hlocked : 0 < (r.lockedInternal : ℕ) := by
    have hsettled : r.settled ≠ true := by
      intro hs
      simp [ChainSession.isOpen, SessionRecord.toChainSession, hs] at hopen
    have hzero := mt (settled_iff hr).2 hsettled
    omega
  have hexhausted : r.toChainSession.budgetExhausted = true ↔
      (r.lockedInternal : ℕ) ≤ r.usageRecorded := by
    rw [ChainSession.budgetExhausted, Bool.and_eq_true]
    constructor
    · intro h
      exact of_decide_eq_true h.1
    · intro h
      exact ⟨decide_eq_true h, decide_eq_true hlocked⟩
  rw [refusedForBudget_iff hon hopen, and_iff_right henforced, hexhausted, unpaid]
  omega

/-! ### A partial settlement -/

/-- The base58 text of the session id 7 and a secret of zeros. -/
def sampleBase58 : Text :=
  "111111111111111111111111111111135cDbUXGCZLANzaUvbEF5MYcekTWGDTVfPMgH2SzNcfiw".toList

def sampleHeader : Text := "Bearer sk_".toList ++ sampleBase58

/-- The gate when the getter answers this. -/
def gateOn (answer : List UInt8) : GateState where
  base58 t :=
    if t = sampleBase58 then some (List.replicate 31 0 ++ 7 :: List.replicate 32 0) else none
  enforceSessionBudget := true
  getSession _ := fetchSession (.ok answer)
  hasTunnel _ := true

theorem onSession_gateOn (r : SessionRecord) :
    OnSession (gateOn r.returndata) (some sampleHeader) r.toChainSession := by
  have hparse : parseAuthorizationHeader (gateOn r.returndata).base58 sampleHeader = .ok ⟨7⟩ := by
    rfl
  exact ⟨sampleHeader, ⟨7⟩, rfl, hparse, fetchSession_returndata r⟩

/-- The gate agrees with the accounting on a session that is new. -/
theorem budgetGate_openSession :
    (RefusedForBudget (gateOn (openSession sampleOpening).returndata) (some sampleHeader) ↔
      100 ≤ unpaid (openSession sampleOpening)) ↔ (0 < 100 ∨ 100 + 0 ≤ 0) :=
  budgetGate_iff (Reachable.refl _) _ _ rfl rfl (fetchSession_returndata _) (onSession_gateOn _)

/-- **A session with half of its balance left is refused**: 50 of 100 are used and paid, 50 are
locked, and nothing is owed. -/
theorem budgetGate_breaks :
    ¬ ∀ (o : Opening) (r : SessionRecord), Reachable Escrow.step (openSession o) r →
      ∀ (state : GateState) (authHeader : Option Text), state.enforceSessionBudget = true →
        r.toChainSession.isOpen = true →
          ∀ s, fetchSession (.ok r.returndata) = .ok s → OnSession state authHeader s →
            (RefusedForBudget state authHeader ↔ (r.lockedInternal : ℕ) ≤ unpaid r) := by
  intro h
  have hon := onSession_gateOn halfPaidRecord
  have hgate := h _ _ reachable_halfPaid (gateOn halfPaidRecord.returndata) (some sampleHeader) rfl
    rfl _ (fetchSession_returndata _) hon
  have hrefused : RefusedForBudget (gateOn halfPaidRecord.returndata) (some sampleHeader) :=
    (refusedForBudget_iff hon rfl).2 ⟨rfl, rfl⟩
  exact absurd (hgate.1 hrefused) (by decide)
