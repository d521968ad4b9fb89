/-
**What a flush leaves in the cache and in the watermarks.**

A flush that has taken a batch hands it to `record_usage_with_retry`, waits for it or not, and then
brings what the router knows of the session up to date: it gets the session, sets the watermarks of
the batch, evicts the session from the cache and warms it up again (`src/consumer/usage_batch.rs`).
`get_session` looks into the cache first (`src/chain/mod.rs`), and the eviction comes after it: an
entry that is there is from before the submission, and it is what the watermarks are set to.  A
flush that does not wait may besides read the chain before the transaction is executed.

Here one flush runs with its submission and the verifier.  No other call for the session is made,
and no other transaction changes it; calls for other sessions go on.

Main definitions:

* `UsageRefresh.Flush`, `UsageRefresh.State`, `UsageRefresh.step` — the flush with its surroundings;
* `UsageRefresh.Fresh` — the next `get_session` and the watermarks have the tokens of the batch;
* `UsageRefresh.rereads` — the condition on one step;
* `UsageRefresh.View`, `UsageRefresh.Turn` — what concerns the session, and what a step does to it.

Main results:

* `UsageRefresh.verifier_of_step`, `UsageRefresh.next_of_advance` — the steps are steps of the
  verifier, and of a flush in the batcher;
* `UsageRefresh.turn_of_step` — **every step is one of the listed turns**;
* `UsageRefresh.fresh_iff` — **a flush leaves fresh data exactly when its `get_session` reads the
  chain, and after the transaction**;
* `UsageRefresh.fresh_breaks` — a flush that is waited for, and finds its session in the cache.
-/

import SparklRouter.Chain.Escrow
import SparklRouter.Chain.Verifier
import SparklRouter.Consumer.UsageThreshold

set_option relaxedAutoImplicit false
set_option autoImplicit false

namespace UsageRefresh

open Chain TaskPool Transition
open ChainVerifier (SessionId TaskId Fetched Task)

/-! ### The system -/

/-- A call of `flush_session` that has taken a batch, with what it finds: the escrow's record of the
session, the other sessions on chain, the cache, and the watermarks. -/
structure Flush where
  batch : Batch
  awaitChain : Bool
  record : SessionRecord
  sessions : SessionId → ChainSession
  cache : SessionId → Option Fetched
  watermarkInput : ℕ
  watermarkOutput : ℕ
  nonEmpty : batch.noOp = false
  /-- What the router knows was read from the chain, where the numbers of tokens only grow. -/
  cached_le : ∀ fetched, cache batch.sessionId = some fetched →
    fetched.session.inputTokensRecorded ≤ record.inputTokensRecorded ∧
      fetched.session.outputTokensRecorded ≤ record.outputTokensRecorded
  watermark_le : watermarkInput ≤ record.inputTokensRecorded ∧
    watermarkOutput ≤ record.outputTokensRecorded

/-- Where the flush stands.  The numbers are the calls of the verifier it waits for. -/
inductive Pc
  /-- The batch has been taken; about to hand it over. -/
  | submitting
  /-- Waiting for the submission to end. -/
  | awaiting
  | refreshing (i : TaskId)
  /-- About to set the watermarks. -/
  | marking (chain : ChainSession)
  | evicting (i : TaskId)
  | warming (i : TaskId)
  | finished

structure State where
  pc : Pc
  submission : Option UsageBatch.Submission
  /-- The transactions the node has accepted without the client knowing. -/
  lost : ℕ
  record : SessionRecord
  verifier : ChainVerifier.State
  watermarkInput : ℕ
  watermarkOutput : ℕ

def Flush.init (f : Flush) : State where
  pc := .submitting
  submission := none
  lost := 0
  record := f.record
  verifier :=
    { ChainVerifier.init (Function.update f.sessions f.batch.sessionId f.record.toChainSession) with
      cache := f.cache }
  watermarkInput := f.watermarkInput
  watermarkOutput := f.watermarkOutput

inductive Action
  /-- The flush takes its next step. -/
  | flush
  /-- The next attempt of the submission; the contract's price for the tokens. -/
  | attempt (o : Attempt) (priceInternal : ℕ)
  /-- A lost transaction executes. -/
  | execute (priceInternal : ℕ)
  | verifier (act : ChainVerifier.Action)

/-- The flush calls the verifier. -/
def State.call (s : State) (id : SessionId) (pc : TaskId → Pc) (call : ChainVerifier.Pc) : State :=
  { s with pc := pc s.verifier.tasks.length, verifier := s.verifier.spawn id call }

/-- A transaction for the batch executes. -/
def State.execute (s : State) (b : Batch) (priceInternal : ℕ) : Option State :=
  (Escrow.step s.record (.recordUsage b.inputDelta.toNat b.outputDelta.toNat priceInternal)).map
    fun record =>
      { s with
        record
        verifier :=
          { s.verifier with
            chain := Function.update s.verifier.chain b.sessionId record.toChainSession } }

/-- `self.inner.chain.get_session(session_id)`. -/
def State.getSession (s : State) (id : SessionId) : State :=
  s.call id .refreshing (.lookup (s.verifier.evicted id))

/-- The next step of the flush. -/
def advance (f : Flush) (s : State) : Option State :=
  let id := f.batch.sessionId
  match s.pc with
  | .submitting =>
      let s' := { s with submission := some (UsageBatch.Submission.start 0 f.batch) }
      some (if f.awaitChain then { s' with pc := .awaiting } else s'.getSession id)
  | .awaiting =>
      if s.submission.any (·.result.isSome) then some (s.getSession id) else none
  | .refreshing i =>
      match s.verifier.tasks[i]? with
      | some ⟨_, .returned _ fetched⟩ => some { s with pc := .marking fetched.session }
      | some ⟨_, .done⟩ => some { s with pc := .finished }
      | _ => none
  | .marking chain =>
      let s' := { s with
        watermarkInput := chain.inputTokensRecorded
        watermarkOutput := chain.outputTokensRecorded }
      some (s'.call id .evicting .invalidating)
  | .evicting i =>
      match s.verifier.tasks[i]? with
      | some ⟨_, .done⟩ => some (s.call id .warming (.fetching none))
      | _ => none
  | .warming i =>
      match s.verifier.tasks[i]? with
      | some ⟨_, .done⟩ => some { s with pc := .finished }
      | _ => none
  | .finished => none

/-- No new call for the session, and no change of it. -/
def others (b : Batch) : ChainVerifier.Action → Bool
  | .getSession id | .warmSession id | .evictSession id | .chain id _ => id != b.sessionId
  | _ => true

/-- **The transition function of the flush with its surroundings.**  The transaction of a confirmed
attempt executes with the attempt: that the confirmation is seen later makes no difference, as a
flush that does not wait for it does not notice, and one that does goes on only then. -/
def step (f : Flush) (s : State) : Action → Option State
  | .flush => advance f s
  | .attempt o priceInternal =>
      s.submission.bind fun sub => (sub.attempt o).bind fun sub' =>
        let s' := { s with
          submission := some sub'
          lost := if o.lost then s.lost + 1 else s.lost }
        if o = .confirmed then s'.execute f.batch priceInternal else some s'
  | .execute priceInternal =>
      if 0 < s.lost then ({ s with lost := s.lost - 1 } : State).execute f.batch priceInternal
      else none
  | .verifier act =>
      if others f.batch act then
        (ChainVerifier.step s.verifier act).map fun verifier => { s with verifier }
      else none

/-! ### Fresh data -/

/-- These numbers of recorded tokens include those of the batch. -/
def Flush.Includes (f : Flush) (input output : ℕ) : Prop :=
  f.record.inputTokensRecorded + f.batch.inputDelta.toNat ≤ input ∧
    f.record.outputTokensRecorded + f.batch.outputDelta.toNat ≤ output

instance (f : Flush) (input output : ℕ) : Decidable (f.Includes input output) :=
  inferInstanceAs (Decidable (_ ∧ _))

/-- The session the next `get_session` finds: in the cache, or else on chain. -/
def State.nextSession (s : State) (id : SessionId) : ChainSession :=
  match s.verifier.cache id with
  | some cached => cached.session
  | none => s.verifier.chain id

/-- The flush has finished, and its submission has succeeded. -/
def State.done (s : State) : Bool :=
  match s.pc, s.submission with
  | .finished, some sub => sub.result == some true
  | _, _ => false

/-- **The session that the next budget check reads and the watermarks include the batch.** -/
structure Fresh (f : Flush) (s : State) : Prop where
  next : f.Includes (s.nextSession f.batch.sessionId).inputTokensRecorded
    (s.nextSession f.batch.sessionId).outputTokensRecorded
  watermark : f.Includes s.watermarkInput s.watermarkOutput

/-- The `get_session` of the flush finds nothing in the cache, and its read of the chain succeeds
and comes after a transaction for the batch. -/
def rereads (f : Flush) (s : State) : Action → Bool
  | .verifier (.advance i) =>
      match s.verifier.tasks[i]? with
      | some ⟨id, .lookup _⟩ => id != f.batch.sessionId || (s.verifier.cache id).isNone
      | some ⟨id, .fetching (some _)⟩ =>
          id != f.batch.sessionId ||
            decide (f.Includes s.record.inputTokensRecorded s.record.outputTokensRecorded)
      | _ => true
  | .verifier (.rpcError i) =>
      match s.verifier.tasks[i]? with
      | some ⟨id, .fetching (some _)⟩ => id != f.batch.sessionId
      | _ => true
  | _ => true

variable {f : Flush}

/-! ### The steps of the verifier and of the batcher -/

theorem verifier_of_execute {s s' : State} {b : Batch} {priceInternal : ℕ}
    (h : s.execute b priceInternal = some s') :
    ∃ act, ChainVerifier.step s.verifier act = some s'.verifier := by
  obtain ⟨record, -, rfl⟩ := Option.map_eq_some_iff.1 h
  exact ⟨.chain b.sessionId record.toChainSession, rfl⟩

/-- **What the flush and its surroundings do to the verifier are steps of the verifier.** -/
theorem verifier_of_step {s s' : State} {act : Action} (h : step f s act = some s') :
    s'.verifier = s.verifier ∨ ∃ act, ChainVerifier.step s.verifier act = some s'.verifier := by
  cases act with
  | flush =>
      simp only [step, advance] at h
      split at h
      · obtain rfl := Option.some.inj h
        split
        · exact Or.inl rfl
        · exact Or.inr ⟨.getSession f.batch.sessionId, rfl⟩
      · split at h
        · obtain rfl := Option.some.inj h
          exact Or.inr ⟨.getSession f.batch.sessionId, rfl⟩
        · cases h
      · split at h
        · obtain rfl := Option.some.inj h
          exact Or.inl rfl
        · obtain rfl := Option.some.inj h
          exact Or.inl rfl
        · cases h
      · obtain rfl := Option.some.inj h
        exact Or.inr ⟨.evictSession f.batch.sessionId, rfl⟩
      · split at h
        · obtain rfl := Option.some.inj h
          exact Or.inr ⟨.warmSession f.batch.sessionId, rfl⟩
        · cases h
      · split at h
        · obtain rfl := Option.some.inj h
          exact Or.inl rfl
        · cases h
      · cases h
  | attempt o priceInternal =>
      obtain ⟨sub, hsub, h⟩ := Option.bind_eq_some_iff.1 h
      obtain ⟨sub', hsub', h⟩ := Option.bind_eq_some_iff.1 h
      dsimp only at h
      split at h
      · obtain ⟨act, hact⟩ := verifier_of_execute h
        exact Or.inr ⟨act, hact⟩
      · obtain rfl := Option.some.inj h
        exact Or.inl rfl
  | execute priceInternal =>
      simp only [step] at h
      split at h
      · obtain ⟨act, hact⟩ := verifier_of_execute h
        exact Or.inr ⟨act, hact⟩
      · cases h
  | verifier act =>
      simp only [step] at h
      split at h
      · obtain ⟨v, hv, rfl⟩ := Option.map_eq_some_iff.1 h
        exact Or.inr ⟨act, hv⟩
      · cases h

/-- A session as the batcher reads it. -/
def recorded (c : ChainSession) : UsageBatch.ChainSession :=
  ⟨UInt64.ofNat c.inputTokensRecorded, UInt64.ofNat c.outputTokensRecorded⟩

/-- Where the flush stands in the batcher, in which a flush ends with its watermarks. -/
def Flush.inBatcher (f : Flush) : Pc → UsageBatch.Pc
  | .submitting => .submitting 0 f.batch f.awaitChain .done
  | .awaiting => .awaiting 0 f.batch.sessionId .done
  | .refreshing _ => .refreshing f.batch.sessionId .done
  | .marking chain => .marking f.batch.sessionId (recorded chain) .done
  | .evicting _ | .warming _ | .finished => .finished

/-- **The steps of the flush are steps of a flush in the batcher.** -/
theorem next_of_advance {sharding : Sharding SessionId} {b : UsageBatch.State} {s s' : State}
    (h : advance f s = some s') :
    f.inBatcher s'.pc = f.inBatcher s.pc ∨
      UsageBatch.Next sharding b (f.inBatcher s.pc) (f.inBatcher s'.pc) := by
  cases hpc : s.pc with
  | submitting =>
      simp only [advance, hpc] at h
      obtain rfl := Option.some.inj h
      split
      · exact Or.inr UsageBatch.Next.awaits
      · exact Or.inr UsageBatch.Next.spawned
  | awaiting =>
      simp only [advance, hpc] at h
      split at h
      · obtain rfl := Option.some.inj h
        exact Or.inr UsageBatch.Next.waited
      · cases h
  | refreshing i =>
      simp only [advance, hpc] at h
      split at h
      · obtain rfl := Option.some.inj h
        exact Or.inr UsageBatch.Next.refreshed
      · obtain rfl := Option.some.inj h
        exact Or.inr UsageBatch.Next.unrefreshed
      · cases h
  | marking chain =>
      simp only [advance, hpc] at h
      obtain rfl := Option.some.inj h
      exact Or.inr UsageBatch.Next.marked
  | evicting i =>
      simp only [advance, hpc] at h
      split at h
      · obtain rfl := Option.some.inj h
        exact Or.inl rfl
      · cases h
  | warming i =>
      simp only [advance, hpc] at h
      split at h
      · obtain rfl := Option.some.inj h
        exact Or.inl rfl
      · cases h
  | finished =>
      simp only [advance, hpc] at h
      cases h

/-! ### What concerns the session -/

/-- The call of the verifier that the flush waits for. -/
def Pc.task : Pc → Option TaskId
  | .refreshing i | .evicting i | .warming i => some i
  | _ => none

/-- What concerns the session: the flush, the call it waits for, the entry of the cache, the record
on chain and the watermarks. -/
structure View where
  pc : Pc
  call : Option ChainVerifier.Pc
  cached : Option Fetched
  record : SessionRecord
  watermarkInput : ℕ
  watermarkOutput : ℕ

def State.view (s : State) (id : SessionId) : View where
  pc := s.pc
  call := s.pc.task.bind fun i => s.verifier.tasks[i]?.map (·.pc)
  cached := s.verifier.cache id
  record := s.record
  watermarkInput := s.watermarkInput
  watermarkOutput := s.watermarkOutput

/-- Which points of a call of the verifier the flush can wait at. -/
def Fits : Pc → ChainVerifier.Pc → Prop
  | .refreshing _, .lookup _ | .refreshing _, .fetching (some _)
  | .refreshing _, .inserting (some _) _ | .refreshing _, .returned _ _ | .refreshing _, .done =>
      True
  | .evicting _, .invalidating | .evicting _, .invalidated _ | .evicting _, .done => True
  | .warming _, .fetching none | .warming _, .inserting none _ | .warming _, .done => True
  | _, _ => False

/-- The call has ended. -/
def Ended : ChainVerifier.Pc → Prop
  | .returned _ _ | .done => True
  | _ => False

/-- **The invariant**: of the calls for the session only the one that the flush waits for is in
progress, and the verifier reads the record. -/
structure Shape (f : Flush) (s : State) : Prop where
  chain : s.verifier.chain f.batch.sessionId = s.record.toChainSession
  current : ∀ i, s.pc.task = some i →
    ∃ p, s.verifier.tasks[i]? = some ⟨f.batch.sessionId, p⟩ ∧ Fits s.pc p
  others : ∀ i p, s.verifier.tasks[i]? = some ⟨f.batch.sessionId, p⟩ →
    s.pc.task = some i ∨ Ended p

theorem shape_init (f : Flush) : Shape f f.init where
  chain := Function.update_self ..
  current i h := by cases h
  others i p h := by cases h

/-- What a step does to the session, and whether it meets the condition. -/
inductive Turn (f : Flush) (v : View) : Bool → View → Prop
  | idle : Turn f v true v
  | expire : Turn f v true { v with cached := none }
  | execute {record : SessionRecord} {priceInternal : ℕ}
      (hrecord : Escrow.step v.record (.recordUsage f.batch.inputDelta.toNat
        f.batch.outputDelta.toNat priceInternal) = some record) :
      Turn f v true { v with record := record }
  | wait (hpc : v.pc = .submitting) : Turn f v true { v with pc := .awaiting, call := none }
  | get {i : TaskId} {after : ℕ} (hpc : v.pc = .submitting ∨ v.pc = .awaiting) :
      Turn f v true { v with pc := .refreshing i, call := some (.lookup after) }
  | hit {i : TaskId} {after : ℕ} {fetched : Fetched} (hpc : v.pc = .refreshing i)
      (hcall : v.call = some (.lookup after)) (hcached : v.cached = some fetched) :
      Turn f v false { v with call := some (.returned after fetched) }
  | miss {i : TaskId} {after : ℕ} (hpc : v.pc = .refreshing i)
      (hcall : v.call = some (.lookup after)) (hcached : v.cached = none) :
      Turn f v true { v with call := some (.fetching (some after)) }
  | fetch {i : TaskId} {after stamp : ℕ} (hpc : v.pc = .refreshing i)
      (hcall : v.call = some (.fetching (some after))) :
      Turn f v (decide (f.Includes v.record.inputTokensRecorded v.record.outputTokensRecorded))
        { v with
          call := some (ChainVerifier.afterFetch (some after) ⟨v.record.toChainSession, stamp⟩) }
  | unread {i : TaskId} {after : ℕ} (hpc : v.pc = .refreshing i)
      (hcall : v.call = some (.fetching (some after))) :
      Turn f v false { v with call := some .done }
  | inserted {i : TaskId} {after : ℕ} {fetched : Fetched} (hpc : v.pc = .refreshing i)
      (hcall : v.call = some (.inserting (some after) fetched)) :
      Turn f v true { v with call := some (.returned after fetched), cached := some fetched }
  | found {i : TaskId} {after : ℕ} {fetched : Fetched} (hpc : v.pc = .refreshing i)
      (hcall : v.call = some (.returned after fetched)) :
      Turn f v true { v with pc := .marking fetched.session, call := none }
  | unfound {i : TaskId} (hpc : v.pc = .refreshing i) (hcall : v.call = some .done) :
      Turn f v true { v with pc := .finished, call := none }
  | mark {chain : ChainSession} {i : TaskId} (hpc : v.pc = .marking chain) :
      Turn f v true
        { v with
          pc := .evicting i
          call := some .invalidating
          watermarkInput := chain.inputTokensRecorded
          watermarkOutput := chain.outputTokensRecorded }
  | invalidate {i : TaskId} {eviction : ℕ} (hpc : v.pc = .evicting i)
      (hcall : v.call = some .invalidating) :
      Turn f v true { v with call := some (.invalidated eviction), cached := none }
  | evicted {i : TaskId} {eviction : ℕ} (hpc : v.pc = .evicting i)
      (hcall : v.call = some (.invalidated eviction)) : Turn f v true { v with call := some .done }
  | warm {i j : TaskId} (hpc : v.pc = .evicting i) (hcall : v.call = some .done) :
      Turn f v true { v with pc := .warming j, call := some (.fetching none) }
  | refetch {i : TaskId} {stamp : ℕ} (hpc : v.pc = .warming i)
      (hcall : v.call = some (.fetching none)) :
      Turn f v true
        { v with call := some (ChainVerifier.afterFetch none ⟨v.record.toChainSession, stamp⟩) }
  | unwarmed {i : TaskId} (hpc : v.pc = .warming i) (hcall : v.call = some (.fetching none)) :
      Turn f v true { v with call := some .done }
  | warmed {i : TaskId} {fetched : Fetched} (hpc : v.pc = .warming i)
      (hcall : v.call = some (.inserting none fetched)) :
      Turn f v true { v with call := some .done, cached := some fetched }
  | finish {i : TaskId} (hpc : v.pc = .warming i) (hcall : v.call = some .done) :
      Turn f v true { v with pc := .finished, call := none }

/-! ### Every step is a turn -/

section

variable {s : State}

/-- Whatever the flush waits for has ended. -/
theorem Shape.ended (h : Shape f s)
    (hcurrent : ∀ (i : TaskId) (p : ChainVerifier.Pc), s.pc.task = some i →
      s.verifier.tasks[i]? = some ⟨f.batch.sessionId, p⟩ → Ended p) :
    ∀ (i : TaskId) (p : ChainVerifier.Pc),
      s.verifier.tasks[i]? = some ⟨f.batch.sessionId, p⟩ → Ended p := by
  intro i p hp
  rcases h.others i p hp with htask | hended
  · exact hcurrent i p htask hp
  · exact hended

/-- The flush goes on without a call. -/
theorem Shape.leave (h : Shape f s) (pc : Pc)
    (hended : ∀ (i : TaskId) (p : ChainVerifier.Pc),
      s.verifier.tasks[i]? = some ⟨f.batch.sessionId, p⟩ → Ended p)
    (hpc : pc.task = none) :
    Shape f { s with pc } ∧ ({ s with pc } : State).view f.batch.sessionId =
      { s.view f.batch.sessionId with pc := pc, call := none } := by
  refine ⟨⟨h.chain, fun i hi => ?_, fun i p hp => Or.inr (hended i p hp)⟩, ?_⟩
  · rw [hpc] at hi
    cases hi
  · simp only [State.view, hpc, Option.bind_none]

/-- The flush makes a call. -/
theorem Shape.call (h : Shape f s) (pc : TaskId → Pc) (p : ChainVerifier.Pc)
    (hended : ∀ (i : TaskId) (p : ChainVerifier.Pc),
      s.verifier.tasks[i]? = some ⟨f.batch.sessionId, p⟩ → Ended p)
    (htask : ∀ i, (pc i).task = some i) (hfits : ∀ i, Fits (pc i) p) :
    Shape f (s.call f.batch.sessionId pc p) ∧
      (s.call f.batch.sessionId pc p).view f.batch.sessionId =
        { s.view f.batch.sessionId with pc := pc s.verifier.tasks.length, call := some p } := by
  have hnew : (s.verifier.tasks ++ [⟨f.batch.sessionId, p⟩])[s.verifier.tasks.length]? =
      some ⟨f.batch.sessionId, p⟩ := List.getElem?_concat_length
  refine ⟨⟨h.chain, fun i hi => ?_, fun i q hq => ?_⟩, ?_⟩
  · obtain rfl := Option.some.inj ((htask _).symm.trans hi)
    exact ⟨p, hnew, hfits _⟩
  · rcases getElem?_append_cases hq with ⟨rfl, -⟩ | hold
    · exact Or.inl (htask _)
    · exact Or.inr (hended i q hold)
  · simp only [State.view, State.call, ChainVerifier.State.spawn, htask, Option.bind_some, hnew,
      Option.map_some]

/-- The call that the flush waits for goes on. -/
theorem Shape.access (h : Shape f s) {i : TaskId} {p : ChainVerifier.Pc} (p' : ChainVerifier.Pc)
    {v : ChainVerifier.State} (hpc : s.pc.task = some i)
    (ht : s.verifier.tasks[i]? = some ⟨f.batch.sessionId, p⟩) (hfits : Fits s.pc p')
    (htasks : v.tasks = s.verifier.tasks.set i ⟨f.batch.sessionId, p'⟩)
    (hchain : v.chain = s.verifier.chain) :
    Shape f { s with verifier := v } ∧
      ({ s with verifier := v } : State).view f.batch.sessionId =
        { s.view f.batch.sessionId with
          call := some p'
          cached := v.cache f.batch.sessionId } := by
  have hself : v.tasks[i]? = some ⟨f.batch.sessionId, p'⟩ := by
    rw [htasks]
    exact getElem?_set_self ht _
  refine ⟨⟨?_, fun j hj => ?_, fun j q hq => ?_⟩, ?_⟩
  · exact (congrFun hchain _).trans h.chain
  · obtain rfl := Option.some.inj (hpc.symm.trans hj)
    exact ⟨p', hself, hfits⟩
  · change v.tasks[j]? = _ at hq
    rw [htasks] at hq
    rcases getElem?_set_cases hq with ⟨rfl, -⟩ | ⟨-, hold⟩
    · exact Or.inl hpc
    · exact h.others j q hold
  · simp only [State.view, hpc, Option.bind_some, hself, Option.map_some]

/-- A step of the verifier that leaves the calls for the session as they are. -/
theorem Shape.still (h : Shape f s) {v : ChainVerifier.State}
    (htasks : ∀ (i : TaskId) (p : ChainVerifier.Pc), v.tasks[i]? = some ⟨f.batch.sessionId, p⟩ ↔
      s.verifier.tasks[i]? = some ⟨f.batch.sessionId, p⟩)
    (hchain : v.chain f.batch.sessionId = s.verifier.chain f.batch.sessionId) :
    Shape f { s with verifier := v } ∧
      ({ s with verifier := v } : State).view f.batch.sessionId =
        { s.view f.batch.sessionId with cached := v.cache f.batch.sessionId } := by
  refine ⟨⟨hchain.trans h.chain, fun i hi => ?_, fun i p hp => ?_⟩, ?_⟩
  · obtain ⟨p, hp, hfits⟩ := h.current i hi
    exact ⟨p, (htasks i p).2 hp, hfits⟩
  · exact h.others i p ((htasks i p).1 hp)
  · cases hpc : s.pc.task with
    | none => simp only [State.view, hpc, Option.bind_none]
    | some i =>
        obtain ⟨p, hp, -⟩ := h.current i hpc
        simp only [State.view, hpc, Option.bind_some, hp, (htasks i p).2 hp, Option.map_some]

end

theorem tasks_spawn_other {tasks : List Task} {id id' : SessionId} (hid : id' ≠ id)
    (p' : ChainVerifier.Pc) (i : TaskId) (p : ChainVerifier.Pc) :
    (tasks ++ [⟨id', p'⟩])[i]? = some ⟨id, p⟩ ↔ tasks[i]? = some ⟨id, p⟩ := by
  refine ⟨fun h => ?_, fun h => getElem?_append_of h⟩
  rcases getElem?_append_cases h with ⟨-, heq⟩ | hold
  · exact absurd (congrArg Task.id heq).symm hid
  · exact hold

theorem tasks_set_other {tasks : List Task} {id id' : SessionId} (hid : id' ≠ id)
    {j : TaskId} {q : ChainVerifier.Pc} (hj : tasks[j]? = some ⟨id', q⟩) (p' : ChainVerifier.Pc)
    (i : TaskId) (p : ChainVerifier.Pc) :
    (tasks.set j ⟨id', p'⟩)[i]? = some ⟨id, p⟩ ↔ tasks[i]? = some ⟨id, p⟩ := by
  refine ⟨fun h => ?_, fun h => ?_⟩
  · rcases getElem?_set_cases h with ⟨-, heq⟩ | ⟨-, hold⟩
    · exact absurd (congrArg Task.id heq).symm hid
    · exact hold
  · rw [List.getElem?_set_ne, h]
    rintro rfl
    exact hid (congrArg Task.id (Option.some.inj (hj.symm.trans h)))

/-- What a step of a call does to the call and to the entry of its session. -/
inductive Access (chain : ChainSession) :
    ChainVerifier.Pc → Option Fetched → ChainVerifier.Pc → Option Fetched → Prop
  | hit {after : ℕ} {fetched : Fetched} :
      Access chain (.lookup after) (some fetched) (.returned after fetched) (some fetched)
  | miss {after : ℕ} : Access chain (.lookup after) none (.fetching (some after)) none
  | fetch {after : Option ℕ} {stamp : ℕ} {cached : Option Fetched} :
      Access chain (.fetching after) cached (ChainVerifier.afterFetch after ⟨chain, stamp⟩) cached
  | insert {after : Option ℕ} {fetched : Fetched} {cached : Option Fetched} :
      Access chain (.inserting after fetched) cached (ChainVerifier.afterInsert after fetched)
        (some fetched)
  | invalidate {eviction : ℕ} {cached : Option Fetched} :
      Access chain .invalidating cached (.invalidated eviction) none
  | note {eviction : ℕ} {cached : Option Fetched} :
      Access chain (.invalidated eviction) cached .done cached

/-- **Every step of a call is one of these**, and leaves the entries of the other sessions. -/
theorem access_of_advance {v v' : ChainVerifier.State} {i : TaskId} {id : SessionId}
    {p : ChainVerifier.Pc} (h : ChainVerifier.advance v i ⟨id, p⟩ = some v') :
    ∃ p', v'.tasks = v.tasks.set i ⟨id, p'⟩ ∧ v'.chain = v.chain ∧
      (∀ id', id' ≠ id → v'.cache id' = v.cache id') ∧
        Access (v.chain id) p (v.cache id) p' (v'.cache id) := by
  cases p with
  | lookup after =>
      simp only [ChainVerifier.advance] at h
      split at h
      · rename_i cached hcached
        obtain rfl := Option.some.inj h
        refine ⟨_, rfl, rfl, fun _ _ => rfl, ?_⟩
        change Access (v.chain id) _ (v.cache id) _ (v.cache id)
        rw [hcached]
        exact Access.hit
      · rename_i hcached
        obtain rfl := Option.some.inj h
        refine ⟨_, rfl, rfl, fun _ _ => rfl, ?_⟩
        change Access (v.chain id) _ (v.cache id) _ (v.cache id)
        rw [hcached]
        exact Access.miss
  | fetching after =>
      obtain rfl := Option.some.inj h
      exact ⟨_, rfl, rfl, fun _ _ => rfl, Access.fetch⟩
  | inserting after fetched =>
      obtain rfl := Option.some.inj h
      refine ⟨_, rfl, rfl, fun id' hid => Function.update_of_ne hid .., ?_⟩
      dsimp only
      rw [Function.update_self]
      exact Access.insert
  | invalidating =>
      obtain rfl := Option.some.inj h
      refine ⟨_, rfl, rfl, fun id' hid => Function.update_of_ne hid .., ?_⟩
      dsimp only
      rw [Function.update_self]
      exact Access.invalidate
  | invalidated eviction =>
      obtain rfl := Option.some.inj h
      exact ⟨_, rfl, rfl, fun _ _ => rfl, Access.note⟩
  | returned after fetched => cases h
  | done => cases h

/-- What follows the read of a `get_session`, and of a `warm_session`. -/
theorem afterFetch_get (after : ℕ) (fetched : Fetched) :
    ChainVerifier.afterFetch (some after) fetched = .inserting (some after) fetched ∨
      ChainVerifier.afterFetch (some after) fetched = .returned after fetched := by
  unfold ChainVerifier.afterFetch
  split
  · exact Or.inl rfl
  · exact Or.inr rfl

theorem afterFetch_warm (fetched : Fetched) :
    ChainVerifier.afterFetch none fetched = .inserting none fetched ∨
      ChainVerifier.afterFetch none fetched = .done := by
  unfold ChainVerifier.afterFetch
  split
  · exact Or.inl rfl
  · exact Or.inr rfl

theorem fits_afterFetch {i : TaskId} (after : ℕ) (fetched : Fetched) :
    Fits (.refreshing i) (ChainVerifier.afterFetch (some after) fetched) := by
  rcases afterFetch_get after fetched with hnext | hnext <;> rw [hnext] <;> trivial

theorem fits_afterFetch_none {i : TaskId} (fetched : Fetched) :
    Fits (.warming i) (ChainVerifier.afterFetch none fetched) := by
  rcases afterFetch_warm fetched with hnext | hnext <;> rw [hnext] <;> trivial

/-- Which calls read the chain. -/
theorem Fits.of_fetching {pc : Pc} {after : Option ℕ} (h : Fits pc (.fetching after)) :
    (∃ i n, pc = .refreshing i ∧ after = some n) ∨ ∃ i, pc = .warming i ∧ after = none := by
  cases pc with
  | refreshing i =>
      cases after with
      | none => cases h
      | some n => exact Or.inl ⟨i, n, rfl, rfl⟩
  | warming i =>
      cases after with
      | none => exact Or.inr ⟨i, rfl, rfl⟩
      | some n => cases h
  | _ => cases h

theorem Fits.done {pc : Pc} {after : Option ℕ} (h : Fits pc (.fetching after)) :
    Fits pc .done := by
  rcases h.of_fetching with ⟨i, n, rfl, -⟩ | ⟨i, rfl, -⟩
  · trivial
  · trivial

/-- Whether the step of the call meets the condition. -/
def View.rereads (f : Flush) (v : View) : ChainVerifier.Pc → Bool
  | .lookup _ => v.cached.isNone
  | .fetching (some _) =>
      decide (f.Includes v.record.inputTokensRecorded v.record.outputTokensRecorded)
  | _ => true

/-- **A step of the call that the flush waits for is a turn.** -/
theorem Access.turn {v : View} {p p' : ChainVerifier.Pc} {cached : Option Fetched}
    (h : Access v.record.toChainSession p v.cached p' cached) (hfits : Fits v.pc p)
    (hcall : v.call = some p) :
    Fits v.pc p' ∧ Turn f v (v.rereads f p) { v with call := some p', cached := cached } := by
  obtain ⟨pc, call, c, record, watermarkInput, watermarkOutput⟩ := v
  dsimp only at h hfits hcall ⊢
  cases pc with
  | refreshing i =>
      cases h with
      | hit => exact ⟨trivial, Turn.hit rfl hcall rfl⟩
      | miss => exact ⟨trivial, Turn.miss rfl hcall rfl⟩
      | @fetch after stamp =>
          cases after with
          | none => cases hfits
          | some after => exact ⟨fits_afterFetch .., Turn.fetch rfl hcall⟩
      | @insert after fetched =>
          cases after with
          | none => cases hfits
          | some after => exact ⟨trivial, Turn.inserted rfl hcall⟩
      | invalidate => cases hfits
      | note => cases hfits
  | evicting i =>
      cases h with
      | invalidate => exact ⟨trivial, Turn.invalidate rfl hcall⟩
      | note => exact ⟨trivial, Turn.evicted rfl hcall⟩
      | _ => cases hfits
  | warming i =>
      cases h with
      | @fetch after stamp =>
          cases after with
          | none => exact ⟨fits_afterFetch_none .., Turn.refetch rfl hcall⟩
          | some after => cases hfits
      | @insert after fetched =>
          cases after with
          | none => exact ⟨trivial, Turn.warmed rfl hcall⟩
          | some after => cases hfits
      | _ => cases hfits
  | _ => cases hfits

section

variable {s s' : State}

theorem call_view {i : TaskId} {p : ChainVerifier.Pc} (hpc : s.pc.task = some i)
    (ht : s.verifier.tasks[i]? = some ⟨f.batch.sessionId, p⟩) :
    (s.view f.batch.sessionId).call = some p := by
  simp only [State.view, hpc, Option.bind_some, ht, Option.map_some]

/-- A turn to a view that is that of the state. -/
theorem Turn.to {v w w' : View} {ok : Bool} (hturn : Turn f v ok w) (h : w' = w) :
    Turn f v ok w' := h ▸ hturn

/-- A step of the flush. -/
theorem turn_of_advance (h : Shape f s) (hadvance : advance f s = some s') :
    Shape f s' ∧ Turn f (s.view f.batch.sessionId) true (s'.view f.batch.sessionId) := by
  -- when the call that the flush waits for has ended, no call for the session is in progress
  have hended : ∀ {i : TaskId} {p : ChainVerifier.Pc}, s.pc.task = some i →
      s.verifier.tasks[i]? = some ⟨f.batch.sessionId, p⟩ → Ended p →
        ∀ (j : TaskId) (q : ChainVerifier.Pc),
          s.verifier.tasks[j]? = some ⟨f.batch.sessionId, q⟩ → Ended q := by
    intro i p htask hp hpEnded
    refine h.ended fun j q hj hq => ?_
    obtain rfl := Option.some.inj (htask.symm.trans hj)
    cases hp.symm.trans hq
    exact hpEnded
  have hnone : s.pc.task = none → ∀ (j : TaskId) (q : ChainVerifier.Pc),
      s.verifier.tasks[j]? = some ⟨f.batch.sessionId, q⟩ → Ended q := by
    intro htask
    refine h.ended fun j q hj hq => ?_
    cases htask.symm.trans hj
  have hget : ∀ s₁ : State, Shape f s₁ → s₁.verifier = s.verifier →
      s₁.view f.batch.sessionId = s.view f.batch.sessionId → s.pc.task = none →
        (s.pc = .submitting ∨ s.pc = .awaiting) →
          Shape f (s₁.getSession f.batch.sessionId) ∧ Turn f (s.view f.batch.sessionId) true
            ((s₁.getSession f.batch.sessionId).view f.batch.sessionId) := by
    intro s₁ h₁ hverifier hsame htask hpc
    obtain ⟨hshape, hview⟩ := h₁.call .refreshing (.lookup (s₁.verifier.evicted f.batch.sessionId))
      (hverifier ▸ hnone htask) (fun _ => rfl) fun _ => trivial
    rw [hsame] at hview
    exact ⟨hshape, (Turn.get hpc).to hview⟩
  cases hpc : s.pc with
  | submitting =>
      have hsubmitted : Shape f
          { s with submission := some (UsageBatch.Submission.start 0 f.batch) } :=
        ⟨h.chain, h.current, h.others⟩
      have htask : s.pc.task = none := by rw [hpc]; rfl
      unfold advance at hadvance
      simp only [hpc] at hadvance
      obtain rfl := Option.some.inj hadvance
      split
      · obtain ⟨hshape, hview⟩ := hsubmitted.leave .awaiting (hnone htask) rfl
        exact ⟨hshape, (Turn.wait hpc).to hview⟩
      · exact hget { s with submission := some (UsageBatch.Submission.start 0 f.batch) } hsubmitted
          rfl rfl htask (Or.inl hpc)
  | awaiting =>
      have htask : s.pc.task = none := by rw [hpc]; rfl
      simp only [advance, hpc] at hadvance
      split at hadvance
      · obtain rfl := Option.some.inj hadvance
        exact hget s h rfl rfl htask (Or.inr hpc)
      · cases hadvance
  | refreshing i =>
      have htask : s.pc.task = some i := by rw [hpc]; rfl
      obtain ⟨p, hp, -⟩ := h.current i htask
      have hcall := call_view htask hp
      simp only [advance, hpc, hp] at hadvance
      cases p with
      | returned after fetched =>
          obtain rfl := Option.some.inj hadvance
          obtain ⟨hshape, hview⟩ := h.leave (.marking fetched.session) (hended htask hp trivial) rfl
          exact ⟨hshape, (Turn.found hpc hcall).to hview⟩
      | done =>
          obtain rfl := Option.some.inj hadvance
          obtain ⟨hshape, hview⟩ := h.leave .finished (hended htask hp trivial) rfl
          exact ⟨hshape, (Turn.unfound hpc hcall).to hview⟩
      | _ => cases hadvance
  | marking chain =>
      have htask : s.pc.task = none := by rw [hpc]; rfl
      have hmarked : Shape f
          { s with
            watermarkInput := chain.inputTokensRecorded
            watermarkOutput := chain.outputTokensRecorded } :=
        ⟨h.chain, h.current, h.others⟩
      obtain ⟨hshape, hview⟩ := hmarked.call .evicting .invalidating (hnone htask) (fun _ => rfl)
        fun _ => trivial
      simp only [advance, hpc] at hadvance
      obtain rfl := Option.some.inj hadvance
      exact ⟨hshape, (Turn.mark hpc).to hview⟩
  | evicting i =>
      have htask : s.pc.task = some i := by rw [hpc]; rfl
      obtain ⟨p, hp, -⟩ := h.current i htask
      have hcall := call_view htask hp
      simp only [advance, hpc, hp] at hadvance
      cases p with
      | done =>
          obtain rfl := Option.some.inj hadvance
          obtain ⟨hshape, hview⟩ := h.call .warming (.fetching none) (hended htask hp trivial)
            (fun _ => rfl) fun _ => trivial
          exact ⟨hshape, (Turn.warm hpc hcall).to hview⟩
      | _ => cases hadvance
  | warming i =>
      have htask : s.pc.task = some i := by rw [hpc]; rfl
      obtain ⟨p, hp, -⟩ := h.current i htask
      have hcall := call_view htask hp
      simp only [advance, hpc, hp] at hadvance
      cases p with
      | done =>
          obtain rfl := Option.some.inj hadvance
          obtain ⟨hshape, hview⟩ := h.leave .finished (hended htask hp trivial) rfl
          exact ⟨hshape, (Turn.finish hpc hcall).to hview⟩
      | _ => cases hadvance
  | finished =>
      simp only [advance, hpc] at hadvance
      cases hadvance

/-- A transaction executes. -/
theorem turn_of_execute (h : Shape f s) {priceInternal : ℕ}
    (hexecute : s.execute f.batch priceInternal = some s') :
    Shape f s' ∧ Turn f (s.view f.batch.sessionId) true (s'.view f.batch.sessionId) := by
  obtain ⟨record, hrecord, rfl⟩ := Option.map_eq_some_iff.1 hexecute
  exact ⟨⟨Function.update_self .., h.current, h.others⟩, Turn.execute hrecord⟩

/-- The call that the flush waits for takes its next step. -/
theorem turn_of_access (h : Shape f s) {i : TaskId} {p : ChainVerifier.Pc}
    {v : ChainVerifier.State} (htask : s.pc.task = some i)
    (ht : s.verifier.tasks[i]? = some ⟨f.batch.sessionId, p⟩) (hfits : Fits s.pc p)
    (hadvance : ChainVerifier.advance s.verifier i ⟨f.batch.sessionId, p⟩ = some v) :
    Shape f { s with verifier := v } ∧
      Turn f (s.view f.batch.sessionId) (rereads f s (.verifier (.advance i)))
        (({ s with verifier := v } : State).view f.batch.sessionId) := by
  obtain ⟨p', htasks, hchain, -, haccess⟩ := access_of_advance hadvance
  rw [h.chain] at haccess
  obtain ⟨hfits', hturn⟩ :=
    Access.turn (f := f) (v := s.view f.batch.sessionId) haccess hfits (call_view htask ht)
  obtain ⟨hshape, hview⟩ := h.access p' htask ht hfits' htasks hchain
  have hmeets : rereads f s (.verifier (.advance i)) =
      (s.view f.batch.sessionId).rereads f p := by
    cases p with
    | lookup after => simp [rereads, ht, View.rereads, State.view]
    | fetching after =>
        cases after with
        | none => simp [rereads, ht, View.rereads]
        | some after =>
            simp only [rereads, ht, bne_self_eq_false, Bool.false_or]
            rfl
    | _ => simp [rereads, ht, View.rereads]
  rw [hmeets]
  exact ⟨hshape, hturn.to hview⟩

/-- A step of the verifier. -/
theorem turn_of_verifier (h : Shape f s) {act : ChainVerifier.Action} {v : ChainVerifier.State}
    (hothers : others f.batch act = true) (hstep : ChainVerifier.step s.verifier act = some v) :
    Shape f { s with verifier := v } ∧
      Turn f (s.view f.batch.sessionId) (rereads f s (.verifier act))
        (({ s with verifier := v } : State).view f.batch.sessionId) := by
  -- a step that leaves the calls for the session, its entry and its record
  have hstill : (∀ (i : TaskId) (p : ChainVerifier.Pc),
      v.tasks[i]? = some ⟨f.batch.sessionId, p⟩ ↔
        s.verifier.tasks[i]? = some ⟨f.batch.sessionId, p⟩) →
      v.chain f.batch.sessionId = s.verifier.chain f.batch.sessionId →
        v.cache f.batch.sessionId = s.verifier.cache f.batch.sessionId →
          rereads f s (.verifier act) = true →
            Shape f { s with verifier := v } ∧
              Turn f (s.view f.batch.sessionId) (rereads f s (.verifier act))
                (({ s with verifier := v } : State).view f.batch.sessionId) := by
    intro htasks hchain hcache hmeets
    obtain ⟨hshape, hview⟩ := h.still htasks hchain
    rw [hcache] at hview
    rw [hmeets]
    exact ⟨hshape, Turn.idle.to hview⟩
  cases act with
  | getSession id =>
      obtain rfl := Option.some.inj hstep
      exact hstill (tasks_spawn_other (bne_iff_ne.1 hothers) _) rfl rfl rfl
  | warmSession id =>
      obtain rfl := Option.some.inj hstep
      exact hstill (tasks_spawn_other (bne_iff_ne.1 hothers) _) rfl rfl rfl
  | evictSession id =>
      obtain rfl := Option.some.inj hstep
      exact hstill (tasks_spawn_other (bne_iff_ne.1 hothers) _) rfl rfl rfl
  | chain id session =>
      obtain rfl := Option.some.inj hstep
      refine hstill (fun _ _ => Iff.rfl) ?_ rfl rfl
      exact Function.update_of_ne (bne_iff_ne.1 hothers).symm ..
  | expire id =>
      obtain rfl := Option.some.inj hstep
      rcases eq_or_ne f.batch.sessionId id with hid | hid
      · obtain ⟨hshape, hview⟩ :=
          @Shape.still f s h { s.verifier with cache := Function.update s.verifier.cache id none }
            (fun _ _ => Iff.rfl) rfl
        have hnone : Function.update s.verifier.cache id none f.batch.sessionId = none := by
          rw [hid, Function.update_self]
        dsimp only at hview
        rw [hnone] at hview
        exact ⟨hshape, Turn.expire.to hview⟩
      · exact hstill (fun _ _ => Iff.rfl) rfl (Function.update_of_ne hid ..) rfl
  | advance i =>
      obtain ⟨⟨id, p⟩, ht, hadvance⟩ := Option.bind_eq_some_iff.1 hstep
      rcases eq_or_ne id f.batch.sessionId with rfl | hid
      · rcases h.others i p ht with htask | hended
        · obtain ⟨q, hq, hfits⟩ := h.current i htask
          cases ht.symm.trans hq
          exact turn_of_access h htask ht hfits hadvance
        · cases p with
          | returned after fetched => cases hadvance
          | done => cases hadvance
          | _ => cases hended
      · obtain ⟨p', htasks, hchain, hcache, -⟩ := access_of_advance hadvance
        refine hstill ?_ (congrFun hchain _) (hcache _ hid.symm) ?_
        · rw [htasks]
          exact tasks_set_other hid ht p'
        · have hne : (id != f.batch.sessionId) = true := bne_iff_ne.2 hid
          cases p with
          | lookup after => simp [rereads, ht, hne]
          | fetching after =>
              cases after with
              | none => simp [rereads, ht]
              | some after => simp [rereads, ht, hne]
          | _ => simp [rereads, ht]
  | rpcError i =>
      obtain ⟨⟨id, p⟩, ht, hstep⟩ := Option.bind_eq_some_iff.1 hstep
      cases p with
      | fetching after =>
          obtain rfl := Option.some.inj hstep
          rcases eq_or_ne id f.batch.sessionId with rfl | hid
          · rcases h.others i _ ht with htask | hended
            · obtain ⟨q, hq, hfits⟩ := h.current i htask
              cases ht.symm.trans hq
              have hcall := call_view htask ht
              obtain ⟨hshape, hview⟩ := @Shape.access f s h i (.fetching after) .done
                (s.verifier.goTo i ⟨f.batch.sessionId, .fetching after⟩ .done) htask ht
                hfits.done rfl rfl
              rcases hfits.of_fetching with ⟨j, n, hpc, rfl⟩ | ⟨j, hpc, rfl⟩
              · have hmeets : rereads f s (.verifier (.rpcError i)) = false := by
                  simp [rereads, ht]
                rw [hmeets]
                exact ⟨hshape, (Turn.unread hpc hcall).to hview⟩
              · have hmeets : rereads f s (.verifier (.rpcError i)) = true := by
                  simp [rereads, ht]
                rw [hmeets]
                exact ⟨hshape, (Turn.unwarmed hpc hcall).to hview⟩
            · cases hended
          · refine hstill (tasks_set_other hid ht _) rfl rfl ?_
            have hne : (id != f.batch.sessionId) = true := bne_iff_ne.2 hid
            cases after with
            | none => simp [rereads, ht]
            | some after => simp [rereads, ht, hne]
      | _ => cases hstep

/-- **Every step is one of the turns**, and meets the condition as the turn says. -/
theorem turn_of_step {act : Action} (h : Shape f s) (hstep : step f s act = some s') :
    Shape f s' ∧
      Turn f (s.view f.batch.sessionId) (rereads f s act) (s'.view f.batch.sessionId) := by
  cases act with
  | flush => exact turn_of_advance h hstep
  | attempt o priceInternal =>
      obtain ⟨sub, hsub, hstep⟩ := Option.bind_eq_some_iff.1 hstep
      obtain ⟨sub', hsub', hstep⟩ := Option.bind_eq_some_iff.1 hstep
      have hattempted : Shape f
          { s with
            submission := some sub'
            lost := if o.lost then s.lost + 1 else s.lost } := ⟨h.chain, h.current, h.others⟩
      dsimp only at hstep
      split at hstep
      · obtain ⟨hshape, hturn⟩ := turn_of_execute hattempted hstep
        exact ⟨hshape, hturn⟩
      · obtain rfl := Option.some.inj hstep
        exact ⟨hattempted, Turn.idle⟩
  | execute priceInternal =>
      simp only [step] at hstep
      split at hstep
      · have hfewer : Shape f { s with lost := s.lost - 1 } := ⟨h.chain, h.current, h.others⟩
        obtain ⟨hshape, hturn⟩ := turn_of_execute hfewer hstep
        exact ⟨hshape, hturn⟩
      · cases hstep
  | verifier act =>
      simp only [step] at hstep
      split at hstep
      · rename_i hothers
        obtain ⟨v, hv, rfl⟩ := Option.map_eq_some_iff.1 hstep
        exact turn_of_verifier h hothers hv
      · cases hstep

end

/-! ### What the flush has found -/

/-- The flush has neither found the session nor failed to. -/
def Searching : Pc → Option ChainVerifier.Pc → Prop
  | .submitting, _ | .awaiting, _ | .refreshing _, some (.lookup _)
  | .refreshing _, some (.fetching (some _)) => True
  | _, _ => False

/-- Until then, what is known of the session is from before the flush. -/
structure Early (f : Flush) (v : View) : Prop where
  searching : Searching v.pc v.call
  cached : ∀ fetched, v.cached = some fetched →
    ¬ f.Includes fetched.session.inputTokensRecorded fetched.session.outputTokensRecorded
  watermark : ¬ f.Includes v.watermarkInput v.watermarkOutput

/-- The numbers of tokens that the flush has found, or has set the watermarks to, satisfy `P`; if
the read has failed, the watermarks are left. -/
def Found (P : ℕ → ℕ → Prop) (v : View) : Prop :=
  match v.pc, v.call with
  | .refreshing _, some (.inserting _ fetched) | .refreshing _, some (.returned _ fetched) =>
      P fetched.session.inputTokensRecorded fetched.session.outputTokensRecorded
  | .refreshing _, some .done => P v.watermarkInput v.watermarkOutput
  | .marking chain, _ => P chain.inputTokensRecorded chain.outputTokensRecorded
  | .evicting _, _ | .warming _, _ | .finished, _ => P v.watermarkInput v.watermarkOutput
  | _, _ => False

theorem found_afterFetch {P : ℕ → ℕ → Prop} {v : View} {i : TaskId} (hpc : v.pc = .refreshing i)
    (after : ℕ) {fetched : Fetched}
    (h : P fetched.session.inputTokensRecorded fetched.session.outputTokensRecorded) :
    Found P { v with call := some (ChainVerifier.afterFetch (some after) fetched) } := by
  obtain ⟨pc, call, cached, record, watermarkInput, watermarkOutput⟩ := v
  cases hpc
  rcases afterFetch_get after fetched with hnext | hnext
  · rw [hnext]
    exact h
  · rw [hnext]
    exact h

/-- **What is found goes into the watermarks**, and no later step is one that counts. -/
theorem Found.turn {P : ℕ → ℕ → Prop} {v v' : View} {ok : Bool} (h : Found P v)
    (hturn : Turn f v ok v') : ok = true ∧ Found P v' := by
  obtain ⟨pc, call, cached, record, watermarkInput, watermarkOutput⟩ := v
  cases hturn with
  | idle => exact ⟨rfl, h⟩
  | expire => exact ⟨rfl, h⟩
  | execute hrecord => exact ⟨rfl, h⟩
  | wait hpc =>
      cases hpc
      cases h
  | get hpc =>
      rcases hpc with hpc | hpc
      · cases hpc
        cases h
      · cases hpc
        cases h
  | hit hpc hcall hcached =>
      cases hpc
      cases hcall
      cases h
  | miss hpc hcall hcached =>
      cases hpc
      cases hcall
      cases h
  | fetch hpc hcall =>
      cases hpc
      cases hcall
      cases h
  | unread hpc hcall =>
      cases hpc
      cases hcall
      cases h
  | inserted hpc hcall =>
      cases hpc
      cases hcall
      exact ⟨rfl, h⟩
  | found hpc hcall =>
      cases hpc
      cases hcall
      exact ⟨rfl, h⟩
  | unfound hpc hcall =>
      cases hpc
      cases hcall
      exact ⟨rfl, h⟩
  | mark hpc =>
      cases hpc
      exact ⟨rfl, h⟩
  | invalidate hpc hcall =>
      cases hpc
      exact ⟨rfl, h⟩
  | evicted hpc hcall =>
      cases hpc
      exact ⟨rfl, h⟩
  | warm hpc hcall =>
      cases hpc
      exact ⟨rfl, h⟩
  | refetch hpc hcall =>
      cases hpc
      exact ⟨rfl, h⟩
  | unwarmed hpc hcall =>
      cases hpc
      exact ⟨rfl, h⟩
  | warmed hpc hcall =>
      cases hpc
      exact ⟨rfl, h⟩
  | finish hpc hcall =>
      cases hpc
      exact ⟨rfl, h⟩

/-- **The flush finds the session at one step**, and whether the step meets the condition says what
it finds. -/
theorem Early.turn {v v' : View} {ok : Bool} (h : Early f v) (hturn : Turn f v ok v') :
    (ok = true ∧ Early f v') ∨
      (ok = true ∧ Found f.Includes v' ∧
        f.Includes v'.record.inputTokensRecorded v'.record.outputTokensRecorded ∧
          ∃ i, v'.pc = .refreshing i ∧ v'.call ≠ some .done) ∨
        (ok = false ∧ Found (fun input output => ¬ f.Includes input output) v') := by
  obtain ⟨hsearching, hcached, hwatermark⟩ := h
  obtain ⟨pc, call, cached, record, watermarkInput, watermarkOutput⟩ := v
  cases hturn with
  | idle => exact Or.inl ⟨rfl, hsearching, hcached, hwatermark⟩
  | expire =>
      refine Or.inl ⟨rfl, hsearching, fun fetched hfetched => ?_, hwatermark⟩
      cases hfetched
  | execute hrecord => exact Or.inl ⟨rfl, hsearching, hcached, hwatermark⟩
  | wait hpc => exact Or.inl ⟨rfl, trivial, hcached, hwatermark⟩
  | get hpc => exact Or.inl ⟨rfl, trivial, hcached, hwatermark⟩
  | hit hpc hcall hfetched =>
      cases hpc
      exact Or.inr (Or.inr ⟨rfl, hcached _ hfetched⟩)
  | miss hpc hcall hnone =>
      cases hpc
      exact Or.inl ⟨rfl, trivial, hcached, hwatermark⟩
  | @fetch i after stamp hpc hcall =>
      by_cases hincludes : f.Includes record.inputTokensRecorded record.outputTokensRecorded
      · refine Or.inr (Or.inl ⟨decide_eq_true hincludes, found_afterFetch hpc after hincludes,
          hincludes, i, hpc, ?_⟩)
        rcases afterFetch_get after ⟨record.toChainSession, stamp⟩ with hnext | hnext
        · simp [hnext]
        · simp [hnext]
      · exact Or.inr (Or.inr ⟨decide_eq_false hincludes, found_afterFetch hpc after hincludes⟩)
  | unread hpc hcall =>
      cases hpc
      exact Or.inr (Or.inr ⟨rfl, hwatermark⟩)
  | mark hpc =>
      cases hpc
      cases hsearching
  | inserted hpc hcall =>
      cases hpc
      cases hcall
      cases hsearching
  | found hpc hcall =>
      cases hpc
      cases hcall
      cases hsearching
  | unfound hpc hcall =>
      cases hpc
      cases hcall
      cases hsearching
  | invalidate hpc hcall =>
      cases hpc
      cases hsearching
  | evicted hpc hcall =>
      cases hpc
      cases hsearching
  | warm hpc hcall =>
      cases hpc
      cases hsearching
  | refetch hpc hcall =>
      cases hpc
      cases hsearching
  | unwarmed hpc hcall =>
      cases hpc
      cases hsearching
  | warmed hpc hcall =>
      cases hpc
      cases hsearching
  | finish hpc hcall =>
      cases hpc
      cases hsearching

/-! ### What the flush leaves in the cache -/

/-- What is in the cache includes the batch. -/
def Clean (f : Flush) (cached : Option Fetched) : Prop :=
  ∀ fetched, cached = some fetched →
    f.Includes fetched.session.inputTokensRecorded fetched.session.outputTokensRecorded

theorem clean_none (f : Flush) : Clean f none := fun fetched h => by cases h

/-- From the eviction on the cache is clean, and so is what the warm-up puts into it. -/
def Cleared (f : Flush) (cached : Option Fetched) : Pc → Option ChainVerifier.Pc → Prop
  | .refreshing _, some .done => False
  | .refreshing _, _ | .marking _, _ | .evicting _, some .invalidating => True
  | .warming _, some (.inserting _ fetched) => Clean f cached ∧ Clean f (some fetched)
  | _, _ => Clean f cached

theorem Cleared.expire {cached : Option Fetched} {pc : Pc} {call : Option ChainVerifier.Pc}
    (h : Cleared f cached pc call) : Cleared f none pc call := by
  unfold Cleared at h ⊢
  split at h
  · exact h
  · trivial
  · trivial
  · trivial
  · exact ⟨clean_none f, h.2⟩
  · exact clean_none f

/-- Before the flush marks, the cache may hold anything. -/
theorem cleared_refreshing {cached : Option Fetched} (i : TaskId) {call : Option ChainVerifier.Pc}
    (h : call ≠ some .done) : Cleared f cached (.refreshing i) call := by
  cases call with
  | none => trivial
  | some p =>
      cases p with
      | done => exact absurd rfl h
      | _ => trivial

/-- What the flush leaves: the record includes the batch too. -/
structure Left (f : Flush) (v : View) : Prop where
  record : f.Includes v.record.inputTokensRecorded v.record.outputTokensRecorded
  cleared : Cleared f v.cached v.pc v.call

/-- Tokens are only added to what is recorded. -/
theorem includes_of_recordUsage {r r' : SessionRecord} {b : Batch} {priceInternal : ℕ}
    (hrecord : Escrow.step r (.recordUsage b.inputDelta.toNat b.outputDelta.toNat priceInternal) =
      some r') (h : f.Includes r.inputTokensRecorded r.outputTokensRecorded) :
    f.Includes r'.inputTokensRecorded r'.outputTokensRecorded := by
  simp only [Escrow.step] at hrecord
  split at hrecord
  · obtain rfl := Option.some.inj hrecord
    exact ⟨h.1.trans (Nat.le_add_right _ _), h.2.trans (Nat.le_add_right _ _)⟩
  · cases hrecord

theorem left_refetch {v : View} {i : TaskId} {stamp : ℕ} (hpc : v.pc = .warming i)
    (hincludes : f.Includes v.record.inputTokensRecorded v.record.outputTokensRecorded)
    (hclean : Clean f v.cached) :
    Left f
      { v with call := some (ChainVerifier.afterFetch none ⟨v.record.toChainSession, stamp⟩) } := by
  obtain ⟨pc, call, cached, record, watermarkInput, watermarkOutput⟩ := v
  cases hpc
  rcases afterFetch_warm ⟨record.toChainSession, stamp⟩ with hnext | hnext
  · rw [hnext]
    refine ⟨hincludes, hclean, fun fetched hfetched => ?_⟩
    cases hfetched
    exact hincludes
  · rw [hnext]
    exact ⟨hincludes, hclean⟩

/-- **From the point at which the flush has found the session, it leaves the cache clean.** -/
theorem Left.turn {P : ℕ → ℕ → Prop} {v v' : View} {ok : Bool} (h : Left f v)
    (hfound : Found P v) (hturn : Turn f v ok v') : Left f v' := by
  obtain ⟨hincludes, hleft⟩ := h
  obtain ⟨pc, call, cached, record, watermarkInput, watermarkOutput⟩ := v
  cases hturn with
  | idle => exact ⟨hincludes, hleft⟩
  | expire => exact ⟨hincludes, hleft.expire⟩
  | execute hrecord => exact ⟨includes_of_recordUsage hrecord hincludes, hleft⟩
  | wait hpc =>
      cases hpc
      cases hfound
  | get hpc =>
      rcases hpc with hpc | hpc
      · cases hpc
        cases hfound
      · cases hpc
        cases hfound
  | hit hpc hcall hcached =>
      cases hpc
      cases hcall
      cases hfound
  | miss hpc hcall hcached =>
      cases hpc
      cases hcall
      cases hfound
  | fetch hpc hcall =>
      cases hpc
      cases hcall
      cases hfound
  | unread hpc hcall =>
      cases hpc
      cases hcall
      cases hfound
  | inserted hpc hcall =>
      cases hpc
      exact ⟨hincludes, trivial⟩
  | found hpc hcall => exact ⟨hincludes, trivial⟩
  | unfound hpc hcall =>
      cases hpc
      cases hcall
      cases hleft
  | mark hpc => exact ⟨hincludes, trivial⟩
  | invalidate hpc hcall =>
      cases hpc
      exact ⟨hincludes, clean_none f⟩
  | evicted hpc hcall =>
      cases hpc
      cases hcall
      exact ⟨hincludes, hleft⟩
  | warm hpc hcall =>
      cases hpc
      cases hcall
      exact ⟨hincludes, hleft⟩
  | refetch hpc hcall =>
      cases hpc
      cases hcall
      exact left_refetch rfl hincludes hleft
  | unwarmed hpc hcall =>
      cases hpc
      cases hcall
      exact ⟨hincludes, hleft⟩
  | warmed hpc hcall =>
      cases hpc
      cases hcall
      exact ⟨hincludes, hleft.2⟩
  | finish hpc hcall =>
      cases hpc
      cases hcall
      exact ⟨hincludes, hleft⟩

/-! ### Every run -/

/-- What was known before the flush does not include the batch. -/
theorem not_includes (f : Flush) {input output : ℕ}
    (h : input ≤ f.record.inputTokensRecorded ∧ output ≤ f.record.outputTokensRecorded) :
    ¬ f.Includes input output := by
  rintro ⟨hinput, houtput⟩
  have hnonEmpty := f.nonEmpty
  have hin : f.batch.inputDelta.toNat = 0 := by omega
  have hout : f.batch.outputDelta.toNat = 0 := by omega
  rw [Batch.noOp, UInt64.toNat_inj.1 (hin.trans UInt64.toNat_zero.symm),
    UInt64.toNat_inj.1 (hout.trans UInt64.toNat_zero.symm)] at hnonEmpty
  cases hnonEmpty

theorem early_init (f : Flush) : Early f (f.init.view f.batch.sessionId) where
  searching := trivial
  cached fetched h := not_includes f (f.cached_le fetched h)
  watermark := not_includes f f.watermark_le

/-- What has been found stays. -/
theorem found_of_run {P : ℕ → ℕ → Prop} {s t : State} {as : List Action} (hshape : Shape f s)
    (hfound : Found P (s.view f.batch.sessionId)) (hrun : run (step f) s as = some t) :
    Found P (t.view f.batch.sessionId) := by
  have hinv : Always (step f) (fun s => Shape f s ∧ Found P (s.view f.batch.sessionId)) s as := by
    refine always_of_invariant (fun s₁ act s₂ hinv hstep => ?_) ⟨hshape, hfound⟩ as
    obtain ⟨hshape₂, hturn⟩ := turn_of_step hinv.1 hstep
    exact ⟨hshape₂, (hinv.2.turn hturn).2⟩
  exact (hinv.last hrun).2

theorem pc_of_done {s : State} (h : s.done = true) : s.pc = .finished := by
  cases hpc : s.pc with
  | finished => rfl
  | _ => simp [State.done, hpc] at h

/-- What the flush has found is in the watermarks when it has finished. -/
theorem Found.watermark {P : ℕ → ℕ → Prop} {s : State}
    (h : Found P (s.view f.batch.sessionId)) (hdone : s.done = true) :
    P s.watermarkInput s.watermarkOutput := by
  unfold Found at h
  simp only [State.view, pc_of_done hdone] at h
  exact h

/-- What holds in every state of a run that meets the condition. -/
def Renews (f : Flush) (s : State) : Prop :=
  Shape f s ∧ (Early f (s.view f.batch.sessionId) ∨
    Found f.Includes (s.view f.batch.sessionId) ∧ Left f (s.view f.batch.sessionId))

theorem Renews.step {s s' : State} {act : Action} (h : Renews f s)
    (hstep : UsageRefresh.step f s act = some s') (hrereads : rereads f s act = true) :
    Renews f s' := by
  obtain ⟨hshape, hearly | ⟨hfound, hleft⟩⟩ := h
  · obtain ⟨hshape', hturn⟩ := turn_of_step hshape hstep
    refine ⟨hshape', ?_⟩
    rcases hearly.turn hturn with ⟨-, hearly'⟩ | ⟨-, hfound, hrecord, i, hpc, hcall⟩ | ⟨hok, -⟩
    · exact Or.inl hearly'
    · refine Or.inr ⟨hfound, hrecord, ?_⟩
      rw [hpc]
      exact cleared_refreshing i hcall
    · rw [hrereads] at hok
      cases hok
  · obtain ⟨hshape', hturn⟩ := turn_of_step hshape hstep
    exact ⟨hshape', Or.inr ⟨(hfound.turn hturn).2, hleft.turn hfound hturn⟩⟩

/-- A flush that has finished has renewed what the router knows. -/
theorem Renews.fresh {s : State} (h : Renews f s) (hdone : s.done = true) : Fresh f s := by
  have hpc := pc_of_done hdone
  obtain ⟨hshape, hearly | ⟨hfound, hrecord, hcleared⟩⟩ := h
  · have hsearching := hearly.searching
    simp only [State.view, hpc] at hsearching
    cases hsearching
  · refine ⟨?_, hfound.watermark hdone⟩
    simp only [State.view, hpc] at hcleared
    unfold State.nextSession
    split
    · rename_i cached hcached
      exact hcleared cached hcached
    · rw [hshape.chain]
      exact hrecord

/-- A step that does not meet the condition leaves stale watermarks. -/
theorem rereads_of_fresh {s t : State} {as : List Action} (hshape : Shape f s)
    (hknown : Early f (s.view f.batch.sessionId) ∨ Found f.Includes (s.view f.batch.sessionId))
    (hrun : run (step f) s as = some t) (hdone : t.done = true) (hfresh : Fresh f t) :
    Throughout (step f) (fun s act _ => rereads f s act = true) s as := by
  induction as generalizing s with
  | nil => trivial
  | cons act as ih =>
      intro s₁ hstep
      rw [run_cons as hstep] at hrun
      obtain ⟨hshape₁, hturn⟩ := turn_of_step hshape hstep
      rcases hknown with hearly | hfound
      · rcases hearly.turn hturn with ⟨hok, hearly₁⟩ | ⟨hok, hfound₁, -⟩ | ⟨-, hstale⟩
        · exact ⟨hok, ih hshape₁ (Or.inl hearly₁) hrun⟩
        · exact ⟨hok, ih hshape₁ (Or.inr hfound₁) hrun⟩
        · exact absurd hfresh.watermark ((found_of_run hshape₁ hstale hrun).watermark hdone)
      · obtain ⟨hok, hfound₁⟩ := hfound.turn hturn
        exact ⟨hok, ih hshape₁ (Or.inr hfound₁) hrun⟩

/-- **A flush whose submission succeeds leaves fresh data exactly when its `get_session` finds
nothing in the cache, reads the chain after a transaction for the batch, and does not fail.** -/
theorem fresh_iff (f : Flush) (as : List Action) (s : State)
    (hrun : run (step f) f.init as = some s) (hdone : s.done = true) :
    Fresh f s ↔ Throughout (step f) (fun s act _ => rereads f s act = true) f.init as := by
  constructor
  · exact rereads_of_fresh (shape_init f) (Or.inl (early_init f)) hrun hdone
  · intro hmeets
    have hinv := always_of_step (I := Renews f) (fun _ _ _ hinv hstep hok => hinv.step hstep hok)
      ⟨shape_init f, Or.inl (early_init f)⟩ hmeets
    exact (hinv.last hrun).fresh hdone

/-- A flush of fifteen tokens of a new session, with or without an entry in the cache. -/
def sampleFlush (awaitChain cached : Bool) : Flush where
  batch := ⟨7, 10, 5⟩
  awaitChain := awaitChain
  record := Escrow.openSession Escrow.sampleOpening
  sessions _ := (Escrow.openSession Escrow.sampleOpening).toChainSession
  cache _ :=
    if cached then some ⟨(Escrow.openSession Escrow.sampleOpening).toChainSession, 0⟩ else none
  watermarkInput := 0
  watermarkOutput := 0
  nonEmpty := by decide
  cached_le fetched h := by
    cases cached
    · cases h
    · obtain rfl := Option.some.inj h
      exact ⟨le_refl _, le_refl _⟩
  watermark_le := ⟨le_refl _, le_refl _⟩

/-- The flush waits for its submission, and the session is not in the cache. -/
def confirmedFirst : List Action :=
  [.flush, .attempt .confirmed 1, .flush, .verifier (.advance 0), .verifier (.advance 0),
    .verifier (.advance 0), .flush, .flush, .verifier (.advance 1), .verifier (.advance 1), .flush,
    .verifier (.advance 2), .verifier (.advance 2), .flush]

/-- The same with the session in the cache. -/
def cachedFirst : List Action :=
  [.flush, .attempt .confirmed 1, .flush, .verifier (.advance 0), .flush, .flush,
    .verifier (.advance 1), .verifier (.advance 1), .flush, .verifier (.advance 2),
    .verifier (.advance 2), .flush]

/-- What the flush has come to: whether it is done, the watermarks, and the tokens of the next
session. -/
def observe (s : State) : Bool × (ℕ × ℕ) × (ℕ × ℕ) :=
  (s.done, (s.watermarkInput, s.watermarkOutput),
    ((s.nextSession 7).inputTokensRecorded, (s.nextSession 7).outputTokensRecorded))

theorem observe_confirmedFirst :
    (run (step (sampleFlush true false)) (sampleFlush true false).init confirmedFirst).map observe =
      some (true, (10, 5), (10, 5)) := by
  decide +kernel

theorem fresh_confirmedFirst : ∃ s,
    run (step (sampleFlush true false)) (sampleFlush true false).init confirmedFirst = some s ∧
      s.done = true ∧ (Fresh (sampleFlush true false) s ↔
        Throughout (step (sampleFlush true false))
          (fun s act _ => rereads (sampleFlush true false) s act = true)
          (sampleFlush true false).init confirmedFirst) := by
  obtain ⟨s, hrun, hobserve⟩ := Option.map_eq_some_iff.1 observe_confirmedFirst
  have hdone : s.done = true := congrArg Prod.fst hobserve
  exact ⟨s, hrun, hdone, fresh_iff _ _ s hrun hdone⟩

/-- The watermarks are those from before the flush. -/
theorem observe_cachedFirst :
    (run (step (sampleFlush true true)) (sampleFlush true true).init cachedFirst).map observe =
      some (true, (0, 0), (10, 5)) := by
  decide +kernel

/-- **A flush that waits for its submission and finds its session in the cache.** -/
theorem fresh_breaks : ¬ ∀ (f : Flush) (as : List Action) (s : State),
    run (step f) f.init as = some s → s.done = true → Fresh f s := by
  intro hall
  obtain ⟨s, hrun, hobserve⟩ := Option.map_eq_some_iff.1 observe_cachedFirst
  have hdone : s.done = true := congrArg Prod.fst hobserve
  have hwatermark : s.watermarkInput = 0 := congrArg (fun o => o.2.1.1) hobserve
  have hfresh := (hall _ _ s hrun hdone).watermark.1
  rw [hwatermark] at hfresh
  cases hfresh

/-- A flush that does not wait: the transaction comes after the warm-up, and the next session is
stale too. -/
example : (run (step (sampleFlush false true)) (sampleFlush false true).init
    [.flush, .verifier (.advance 0), .flush, .flush, .verifier (.advance 1),
      .verifier (.advance 1), .flush, .verifier (.advance 2), .verifier (.advance 2), .flush,
      .attempt .confirmed 1]).map observe = some (true, (0, 0), (0, 0)) := by
  decide +kernel

end UsageRefresh
