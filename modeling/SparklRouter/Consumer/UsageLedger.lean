/-
**The ledger of the usage batcher.**

The tokens of a session are in one of three places: pending in its batch, in the hand of a task that
has taken the batch and is about to submit it, or in a submission.  A removal drops what is pending.
This module proves the two equations between what was gained, taken and dropped and what is where;
they hold in every state of every run, whatever `get_session` answers and however large the sums
get: what is gained is by how much the pending tokens grow, and that is what `add_usage` accepted as
long as the sums fit.

Main definitions:

* `UsageBatch.State.accepted`, `UsageBatch.State.gained`, … — the sums over the history;
* `UsageBatch.State.pending`, `UsageBatch.State.inHand`, `UsageBatch.State.handed` — what is where;
* `UsageBatch.Ledger` — the two equations;
* `UsageBatch.Exact`, `UsageBatch.NoneEmpty` — what is accepted is gained, and no batch is empty.

Main results:

* `UsageBatch.Ledger.step` — **every step keeps the ledger**;
* `UsageBatch.Exact.step`, `UsageBatch.NoneEmpty.step` — and the two other invariants.
-/

import SparklRouter.Consumer.UsageSteps

set_option relaxedAutoImplicit false
set_option autoImplicit false

namespace UsageBatch

open Chain TaskPool Transition

variable {cfg : SettlementConfig} {sharding : Sharding SessionId}

/-! ### What is where -/

def delta (b : Batch) : Kind → UInt64
  | .input => b.inputDelta
  | .output => b.outputDelta

/-- The tokens of the session in a batch. -/
def share (session : SessionId) (k : Kind) (b : Batch) : ℕ :=
  if b.sessionId = session then (delta b k).toNat else 0

namespace Event

variable (session : SessionId) (k : Kind)

/-- The tokens `add_usage` was called with. -/
def accepted : Event → ℕ
  | .accumulated s input output _ _ =>
      if s = session then (match k with | .input => input.toNat | .output => output.toNat) else 0
  | _ => 0

/-- By how much the pending tokens grew. -/
def gained : Event → ℕ
  | .accumulated s _ _ gainedInput gainedOutput =>
      if s = session then (match k with | .input => gainedInput | .output => gainedOutput) else 0
  | _ => 0

def taken : Event → ℕ
  | .took _ b => share session k b
  | _ => 0

/-- The tokens a removal drops. -/
def dropped : Event → ℕ
  | .removed s b => if s = session then (b.pending k).toNat else 0
  | _ => 0

end Event

/-- The tokens in the hand of a task. -/
def Pc.inHand (session : SessionId) (k : Kind) : Pc → ℕ
  | .submitting _ b _ _ => share session k b
  | _ => 0

namespace State

variable (s : State) (session : SessionId) (k : Kind)

def accepted : ℕ := total (Event.accepted session k) s.log

def gained : ℕ := total (Event.gained session k) s.log

def taken : ℕ := total (Event.taken session k) s.log

def dropped : ℕ := total (Event.dropped session k) s.log

def pending : ℕ := ((s.sessions.get session).map fun b => (b.pending k).toNat).getD 0

def inHand : ℕ := total (Pc.inHand session k) s.tasks

def handed : ℕ := total (fun sub => share session k sub.batch) s.submissions

end State

/-- What was gained is pending, taken or dropped, and what was taken is in a hand or handed over. -/
structure Ledger (s : State) : Prop where
  balance : ∀ session k, s.gained session k =
    s.pending session k + s.taken session k + s.dropped session k
  custody : ∀ session k, s.taken session k = s.inHand session k + s.handed session k

theorem ledger_init : Ledger init := ⟨fun _ _ => rfl, fun _ _ => rfl⟩

/-! ### The ledger after each operation -/

@[simp] theorem Cont.inHand_resume (k : Cont) (session session' : SessionId) (kind : Kind) :
    (k.resume session).inHand session' kind = 0 := by
  cases k with
  | done => rfl
  | remove => rfl
  | loop l rest => rfl

@[simp] theorem Ensured.inHand_resume (k : Ensured) (session session' : SessionId) (kind : Kind) :
    (k.resume session).inHand session' kind = 0 := by
  cases k with
  | done => rfl
  | accumulate input output => rfl
  | flush force awaitChain k => rfl

@[simp] theorem inHand_start (c : Call) (session : SessionId) (kind : Kind) :
    c.start.inHand session kind = 0 := by
  cases c with
  | addUsage session input output =>
      simp only [Call.start]
      split
      · rfl
      · rfl
  | _ => rfl

theorem pending_putBatch (s : State) (session session' : SessionId) (b : SessionBatch) (k : Kind) :
    (s.putBatch session b).pending session' k =
      if session' = session then (b.pending k).toNat else s.pending session' k := by
  unfold State.pending State.putBatch
  rw [ShardMap.get_insert]
  split
  · rfl
  · rfl

theorem pending_of_get {s : State} {session : SessionId} {b : SessionBatch}
    (h : s.sessions.get session = some b) (k : Kind) :
    s.pending session k = (b.pending k).toNat := by
  rw [State.pending, h]
  rfl

theorem pending_of_get_none {s : State} {session : SessionId}
    (h : s.sessions.get session = none) (k : Kind) : s.pending session k = 0 := by
  rw [State.pending, h]
  rfl

section

variable {s : State} {t : TaskId} {pc pc' : Pc}

theorem inHand_goTo (ht : s.tasks[t]? = some pc) (pc' : Pc) (session : SessionId) (k : Kind) :
    (s.goTo t pc').inHand session k + pc.inHand session k =
      s.inHand session k + pc'.inHand session k :=
  total_set _ ht pc'

theorem Ledger.goTo (h : Ledger s) (ht : s.tasks[t]? = some pc)
    (hpc : ∀ session k, pc'.inHand session k = pc.inHand session k) : Ledger (s.goTo t pc') := by
  refine ⟨h.balance, fun session k => ?_⟩
  have hmoved := inHand_goTo ht pc' session k
  have hcustody := h.custody session k
  have := hpc session k
  change s.taken session k = (s.goTo t pc').inHand session k + s.handed session k
  omega

/-- A batch with the tokens that were pending already. -/
theorem Ledger.putBatch (h : Ledger s) {session : SessionId} {b : SessionBatch}
    (hb : ∀ k, (b.pending k).toNat = s.pending session k) : Ledger (s.putBatch session b) := by
  refine ⟨fun session' k => ?_, h.custody⟩
  rw [pending_putBatch]
  have hbalance := h.balance session' k
  split
  · rename_i heq
    subst heq
    rw [hb k]
    exact hbalance
  · exact hbalance

/-- An event that moves no tokens. -/
theorem Ledger.record (h : Ledger s) {e : Event} (he : ∀ session k, e.gained session k = 0 ∧
    e.taken session k = 0 ∧ e.dropped session k = 0) : Ledger (s.record e) := by
  refine ⟨fun session k => ?_, fun session k => ?_⟩
  · obtain ⟨hgained, htaken, hdropped⟩ := he session k
    have hbalance := h.balance session k
    simp only [State.gained, State.taken, State.dropped, State.record, total_cons] at hbalance ⊢
    change _ = s.pending session k + _ + _
    omega
  · obtain ⟨-, htaken, -⟩ := he session k
    have hcustody := h.custody session k
    simp only [State.taken, State.record, total_cons] at hcustody ⊢
    change _ = s.inHand session k + s.handed session k
    omega

end

/-- The step moves no tokens between hands. -/
theorem inHand_of_move {s : State} {act : Action} {pc pc' : Pc} (h : Move s act pc pc')
    (session : SessionId) (k : Kind) : pc'.inHand session k = pc.inHand session k := by
  cases h with
  | present hget => rw [Ensured.inHand_resume]; rfl
  | unfetched => rw [Ensured.inHand_resume]; rfl
  | found hget => rw [Ensured.inHand_resume]; rfl
  | unrefreshed => rw [Cont.inHand_resume]; rfl
  | unmarked => rw [Cont.inHand_resume]; rfl
  | _ => rfl

theorem SessionBatch.le_pending_accumulate (b : SessionBatch) (input output : UInt64) (now : ℕ)
    (k : Kind) : (b.pending k).toNat ≤ ((b.accumulate input output now).pending k).toNat := by
  cases k with
  | input =>
      have hsum := toNat_saturatingAdd b.pendingInput input
      have hlt := b.pendingInput.toNat_lt
      simp only [SessionBatch.pending, SessionBatch.accumulate]
      omega
  | output =>
      have hsum := toNat_saturatingAdd b.pendingOutput output
      have hlt := b.pendingOutput.toNat_lt
      simp only [SessionBatch.pending, SessionBatch.accumulate]
      omega

/-- By how much the section of `add_usage` lets the pending tokens grow. -/
theorem gained_accumulated (session session' : SessionId) (b : SessionBatch)
    (input output : UInt64) (now : ℕ) (k : Kind) :
    (Event.accumulated session input output
      ((b.accumulate input output now).pendingInput.toNat - b.pendingInput.toNat)
      ((b.accumulate input output now).pendingOutput.toNat - b.pendingOutput.toNat)).gained
        session' k =
      if session = session' then
        ((b.accumulate input output now).pending k).toNat - (b.pending k).toNat
      else 0 := by
  cases k with
  | input => rfl
  | output => rfl

theorem ledger_accumulate {s : State} (h : Ledger s) {t : TaskId} {session : SessionId}
    {input output : UInt64} {b : SessionBatch}
    (ht : s.tasks[t]? = some (.accumulating session input output))
    (hb : s.sessions.get session = some b) :
    Ledger (accumulateStep cfg s t session input output b) := by
  unfold accumulateStep
  refine Ledger.goTo ⟨fun session' k => ?_, fun session' k => ?_⟩ ht fun session' k => ?_
  · have hbalance := h.balance session' k
    have hle := b.le_pending_accumulate input output s.now k
    change Event.gained session' k _ + s.gained session' k =
      (s.putBatch session _).pending session' k + (0 + s.taken session' k) +
        (0 + s.dropped session' k)
    rw [gained_accumulated, pending_putBatch]
    by_cases heq : session' = session
    · subst heq
      have hpending := pending_of_get hb k
      rw [if_pos rfl, if_pos rfl]
      omega
    · rw [if_neg heq, if_neg (Ne.symm heq)]
      omega
  · have hcustody := h.custody session' k
    change 0 + s.taken session' k = s.inHand session' k + s.handed session' k
    omega
  · split
    · rfl
    · rfl

theorem ledger_take {s : State} (h : Ledger s) {t : TaskId} {session : SessionId}
    {force awaitChain : Bool} {k : Cont} {b : SessionBatch}
    (ht : s.tasks[t]? = some (.flushing session force awaitChain k))
    (hb : s.sessions.get session = some b) : Ledger (takeStep s t session awaitChain k b) := by
  have hshare : ∀ session' kind, share session' kind ⟨session, b.pendingInput, b.pendingOutput⟩ =
      if session = session' then (b.pending kind).toNat else 0 := by
    intro session' kind
    cases kind with
    | input => rfl
    | output => rfl
  refine ⟨fun session' kind => ?_, fun session' kind => ?_⟩
  · have hbalance := h.balance session' kind
    have hzero : ((b.taken s.now).pending kind).toNat = 0 := by
      cases kind with
      | input => rfl
      | output => rfl
    change 0 + (0 + s.gained session' kind) =
      (s.putBatch session (b.taken s.now)).pending session' kind +
        (share session' kind _ + (0 + s.taken session' kind)) + (0 + (0 + s.dropped session' kind))
    rw [pending_putBatch, hshare, hzero]
    by_cases heq : session' = session
    · subst heq
      have hpending := pending_of_get hb kind
      rw [if_pos rfl, if_pos rfl]
      omega
    · rw [if_neg heq, if_neg (Ne.symm heq)]
      omega
  · have hcustody := h.custody session' kind
    have hmoved := inHand_goTo ht
      (.submitting s.tickets ⟨session, b.pendingInput, b.pendingOutput⟩ awaitChain k) session' kind
    change share session' kind _ + (0 + s.taken session' kind) =
      (s.goTo t _).inHand session' kind + s.handed session' kind
    change _ + 0 = _ + share session' kind _ at hmoved
    omega

theorem ledger_hand {s : State} (h : Ledger s) {t : TaskId} {ticket : ℕ} {b : Batch}
    {awaitChain : Bool} {k : Cont} (ht : s.tasks[t]? = some (.submitting ticket b awaitChain k)) :
    Ledger ({ s with submissions := s.submissions ++ [Submission.start ticket b] }.goTo t
      (if awaitChain then .awaiting ticket b.sessionId k else .refreshing b.sessionId k)) := by
  refine ⟨h.balance, fun session kind => ?_⟩
  have hcustody := h.custody session kind
  have hnext : (if awaitChain then Pc.awaiting ticket b.sessionId k
      else .refreshing b.sessionId k).inHand session kind = 0 := by
    split
    · rfl
    · rfl
  have hmoved := inHand_goTo ht (if awaitChain then .awaiting ticket b.sessionId k
    else .refreshing b.sessionId k) session kind
  change _ + share session kind b = _ at hmoved
  change s.taken session kind = (s.goTo t _).inHand session kind +
    total (fun sub : Submission => share session kind sub.batch)
      (s.submissions ++ [Submission.start ticket b])
  rw [total_append, total_cons, total_nil]
  change _ = _ + (s.handed session kind + (share session kind b + 0))
  omega

theorem ledger_remove {s : State} (h : Ledger s) {t : TaskId} {session : SessionId}
    {b : SessionBatch} (ht : s.tasks[t]? = some (.removing session))
    (hb : s.sessions.get session = some b) :
    Ledger (({ s with sessions := s.sessions.remove session }.record (.removed session b)).goTo t
      .finished) := by
  refine Ledger.goTo ⟨fun session' k => ?_, fun session' k => ?_⟩ ht fun _ _ => rfl
  · have hbalance := h.balance session' k
    change 0 + s.gained session' k =
      (((s.sessions.remove session).get session').map fun b => (b.pending k).toNat).getD 0 +
        (0 + s.taken session' k) +
        ((if session = session' then (b.pending k).toNat else 0) + s.dropped session' k)
    rw [ShardMap.get_remove]
    by_cases heq : session' = session
    · subst heq
      have hpending := pending_of_get hb k
      rw [if_pos rfl, if_pos rfl]
      simp only [Option.map_none, Option.getD_none]
      omega
    · rw [if_neg heq, if_neg (Ne.symm heq)]
      change _ = s.pending session' k + _ + _
      omega
  · have hcustody := h.custody session' k
    change 0 + s.taken session' k = s.inHand session' k + s.handed session' k
    omega

/-- **Every step keeps the ledger.** -/
theorem Ledger.step {s s' : State} {act : Action} (h : Ledger s)
    (hstep : step cfg sharding s act = some s') : Ledger s' := by
  cases change_of_step hstep with
  | call c =>
      refine ⟨h.balance, fun session k => ?_⟩
      have hcustody := h.custody session k
      change s.taken session k = total (Pc.inHand session k) (s.tasks ++ [c.start]) + _
      rw [total_append, total_cons, total_nil, inHand_start]
      exact hcustody
  | tick nanos => exact ⟨h.balance, h.custody⟩
  | move ht hmove => exact h.goTo ht (inHand_of_move hmove)
  | create ht hnew =>
      refine (h.putBatch fun k => ?_).goTo ht fun session k => by rw [Ensured.inHand_resume]; rfl
      rw [pending_of_get_none hnew]
      cases k with
      | input => rfl
      | output => rfl
  | accumulate ht hb => exact ledger_accumulate h ht hb
  | discard ht hb => exact (h.record fun _ _ => ⟨rfl, rfl, rfl⟩).goTo ht fun _ _ => rfl
  | take ht hb hflushes => exact ledger_take h ht hb
  | pass ht hpass =>
      exact (h.record fun _ _ => ⟨rfl, rfl, rfl⟩).goTo ht fun _ _ => by
        rw [Cont.inHand_resume]
        rfl
  | hand ht => exact ledger_hand h ht
  | mark ht hb =>
      refine (h.putBatch fun k => ?_).goTo ht fun session k => by rw [Cont.inHand_resume]; rfl
      rw [pending_of_get hb]
      cases k with
      | input => rfl
      | output => rfl
  | remove ht hb => exact ledger_remove h ht hb
  | attempt hsub hattempt =>
      refine ⟨h.balance, fun session k => ?_⟩
      obtain ⟨-, hbatch⟩ := Submission.batch_attempt hattempt
      have hcustody := h.custody session k
      have hhanded : total (fun sub : Submission => share session k sub.batch)
          (s.submissions.set _ _) = s.handed session k := total_set_eq hsub (by rw [hbatch])
      change s.taken session k = s.inHand session k + total _ (s.submissions.set _ _)
      omega

/-! ### What is accepted and what is gained -/

/-- Only the section of `add_usage` accepts or gains tokens. -/
theorem accepted_of_change {s s' : State} {act : Action} (h : Change cfg s act s') :
    (∀ session k, s'.accepted session k = s.accepted session k ∧
      s'.gained session k = s.gained session k) ∨
    ∃ t session input output b, s.sessions.get session = some b ∧
      s' = accumulateStep cfg s t session input output b := by
  cases h with
  | accumulate ht hb => exact Or.inr ⟨_, _, _, _, _, hb, rfl⟩
  | discard ht hb => exact Or.inl fun _ _ => ⟨Nat.zero_add _, Nat.zero_add _⟩
  | pass ht hpass => exact Or.inl fun _ _ => ⟨Nat.zero_add _, Nat.zero_add _⟩
  | remove ht hb => exact Or.inl fun _ _ => ⟨Nat.zero_add _, Nat.zero_add _⟩
  | take ht hb hflushes =>
      refine Or.inl fun session k => ?_
      change 0 + (0 + s.accepted session k) = _ ∧ 0 + (0 + s.gained session k) = _
      omega
  | _ => exact Or.inl fun _ _ => ⟨rfl, rfl⟩

/-- As long as the tokens accepted fit, they are the tokens gained. -/
def Exact (s : State) : Prop :=
  ∀ session k, s.accepted session k < 2 ^ 64 → s.gained session k = s.accepted session k

theorem Exact.step {s s' : State} {act : Action} (h : Exact s) (hledger : Ledger s)
    (hstep : UsageBatch.step cfg sharding s act = some s') : Exact s' := by
  intro session k hfit
  rcases accepted_of_change (change_of_step hstep) with
    hsame | ⟨t, session', input, output, b, hb, rfl⟩
  · obtain ⟨haccepted, hgained⟩ := hsame session k
    rw [haccepted] at hfit ⊢
    rw [hgained]
    exact h session k hfit
  · change Event.accepted session k _ + s.accepted session k < 2 ^ 64 at hfit
    change Event.gained session k _ + s.gained session k =
      Event.accepted session k _ + s.accepted session k
    have hexact := h session k (by omega)
    have hbalance := hledger.balance session k
    rw [gained_accumulated]
    by_cases heq : session' = session
    · subst heq
      have hpending := pending_of_get hb k
      -- what is pending and what is added is not more than what was accepted, so it fits
      cases k with
      | input =>
          have hsum := toNat_saturatingAdd b.pendingInput input
          simp only [Event.accepted, if_true] at hfit ⊢
          simp only [SessionBatch.pending, SessionBatch.accumulate] at hpending ⊢
          omega
      | output =>
          have hsum := toNat_saturatingAdd b.pendingOutput output
          simp only [Event.accepted, if_true] at hfit ⊢
          simp only [SessionBatch.pending, SessionBatch.accumulate] at hpending ⊢
          omega
    · rw [if_neg heq]
      simp only [Event.accepted, if_neg heq]
      omega

/-! ### No batch is empty -/

/-- No task is about to submit an empty batch, and none was submitted. -/
structure NoneEmpty (s : State) : Prop where
  submitting : ∀ ticket b awaitChain k, .submitting ticket b awaitChain k ∈ s.tasks → b.noOp = false
  submissions : ∀ sub ∈ s.submissions, sub.batch.noOp = false

theorem noneEmpty_init : NoneEmpty init := by
  constructor
  · intro _ _ _ _ h
    cases h
  · intro _ h
    cases h

/-- What `flush_session` takes is not empty. -/
theorem SessionBatch.noOp_of_flushes {b : SessionBatch} {force : Bool} {now : ℕ}
    (h : b.flushes cfg force now = true) (session : SessionId) :
    Batch.noOp ⟨session, b.pendingInput, b.pendingOutput⟩ = false := by
  have htotal : ¬ b.pendingTotal = 0 := by
    intro hzero
    simp [SessionBatch.flushes, hzero] at h
  rw [SessionBatch.pendingTotal, saturatingAdd_eq_zero] at htotal
  simpa [Batch.noOp] using htotal

/-- A task that is not about to submit. -/
def Pc.idle (pc : Pc) : Prop := ∀ ticket b awaitChain k, pc ≠ .submitting ticket b awaitChain k

theorem Cont.idle_resume (k : Cont) (session : SessionId) : (k.resume session).idle := by
  intro _ _ _ _ h
  cases k with
  | done => cases h
  | remove => cases h
  | loop l rest => cases h

theorem Ensured.idle_resume (k : Ensured) (session : SessionId) : (k.resume session).idle := by
  intro _ _ _ _ h
  cases k with
  | done => cases h
  | accumulate input output => cases h
  | flush force awaitChain k => cases h

theorem idle_start (c : Call) : c.start.idle := by
  intro _ _ _ _ h
  cases c with
  | addUsage session input output =>
      simp only [Call.start] at h
      split at h
      · cases h
      · cases h
  | _ => cases h

theorem idle_of_move {s : State} {act : Action} {pc pc' : Pc} (h : Move s act pc pc') :
    pc'.idle := by
  cases h with
  | present hget => exact Ensured.idle_resume _ _
  | unfetched => exact Ensured.idle_resume _ _
  | found hget => exact Ensured.idle_resume _ _
  | unrefreshed => exact Cont.idle_resume _ _
  | unmarked => exact Cont.idle_resume _ _
  | _ => exact fun _ _ _ _ h => by cases h

section

variable {s s₁ : State} {t : TaskId} {pc' : Pc}

theorem mem_goTo {pc : Pc} (h : pc ∈ (s.goTo t pc').tasks) : pc ∈ s.tasks ∨ pc = pc' :=
  List.mem_or_eq_of_mem_set h

theorem NoneEmpty.goTo (h : NoneEmpty s) (htasks : s₁.tasks = s.tasks)
    (hsubs : s₁.submissions = s.submissions) (hpc : pc'.idle) : NoneEmpty (s₁.goTo t pc') := by
  constructor
  · intro ticket b awaitChain k hmem
    rcases mem_goTo hmem with hold | hnew
    · exact h.submitting ticket b awaitChain k (htasks ▸ hold)
    · exact absurd hnew.symm (hpc ticket b awaitChain k)
  · intro sub hsub
    exact h.submissions sub (hsubs ▸ hsub)

end

theorem NoneEmpty.step {s s' : State} {act : Action} (h : NoneEmpty s)
    (hstep : UsageBatch.step cfg sharding s act = some s') : NoneEmpty s' := by
  cases change_of_step hstep with
  | call c =>
      refine ⟨fun ticket b awaitChain k hmem => ?_, h.submissions⟩
      rcases List.mem_append.1 hmem with hold | hnew
      · exact h.submitting ticket b awaitChain k hold
      · exact absurd (List.mem_singleton.1 hnew).symm (idle_start c ticket b awaitChain k)
  | tick nanos => exact ⟨h.submitting, h.submissions⟩
  | move ht hmove => exact h.goTo rfl rfl (idle_of_move hmove)
  | create ht hnew => exact h.goTo rfl rfl (Ensured.idle_resume _ _)
  | accumulate ht hb =>
      refine h.goTo rfl rfl fun _ _ _ _ hpc => ?_
      split at hpc
      · cases hpc
      · cases hpc
  | discard ht hb => exact h.goTo rfl rfl fun _ _ _ _ hpc => by cases hpc
  | pass ht hpass => exact h.goTo rfl rfl (Cont.idle_resume _ _)
  | mark ht hb => exact h.goTo rfl rfl (Cont.idle_resume _ _)
  | remove ht hb => exact h.goTo rfl rfl fun _ _ _ _ hpc => by cases hpc
  | @take t session force awaitChain k b ht hb hflushes =>
      refine ⟨fun ticket b' awaitChain' k' hmem => ?_, h.submissions⟩
      rcases mem_goTo hmem with hold | hnew
      · exact h.submitting ticket b' awaitChain' k' hold
      · obtain ⟨-, rfl, -⟩ := Pc.submitting.inj hnew
        exact SessionBatch.noOp_of_flushes hflushes session
  | @hand t ticket b awaitChain k ht =>
      refine ⟨fun ticket' b' awaitChain' k' hmem => ?_, fun sub hsub => ?_⟩
      · rcases mem_goTo hmem with hold | hnew
        · exact h.submitting ticket' b' awaitChain' k' hold
        · split at hnew
          · cases hnew
          · cases hnew
      · rcases List.mem_append.1 hsub with hold | hnew
        · exact h.submissions sub hold
        · obtain rfl := List.mem_singleton.1 hnew
          exact h.submitting ticket b awaitChain k (List.mem_of_getElem? ht)
  | @attempt j o sub sub' hsub hattempt =>
      refine ⟨h.submitting, fun sub₁ hmem => ?_⟩
      rcases List.mem_or_eq_of_mem_set hmem with hold | rfl
      · exact h.submissions sub₁ hold
      · rw [(Submission.batch_attempt hattempt).2]
        exact h.submissions sub (List.mem_of_getElem? hsub)

/-! ### Reachable states -/

/-- What holds of every reachable state. -/
structure Sound (s : State) : Prop where
  ledger : Ledger s
  exact : Exact s
  noneEmpty : NoneEmpty s

theorem sound_init : Sound init := ⟨ledger_init, fun _ _ _ => rfl, noneEmpty_init⟩

theorem Sound.step {s s' : State} {act : Action} (h : Sound s)
    (hstep : UsageBatch.step cfg sharding s act = some s') : Sound s' :=
  ⟨h.ledger.step hstep, h.exact.step h.ledger hstep, h.noneEmpty.step hstep⟩

theorem sound_of_reachable {s : State} (h : Reachable (UsageBatch.step cfg sharding) init s) :
    Sound s :=
  h.invariant sound_init fun _ _ _ => Sound.step

end UsageBatch
