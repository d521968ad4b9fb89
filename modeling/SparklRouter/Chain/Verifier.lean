/-
**The session cache of the verifier.**

`ChainVerifier` (`src/chain/mod.rs`) keeps the open sessions it has read from the chain in a cache.
`get_session` looks there first and reads the chain if it finds nothing, `warm_session` reads the
chain in any case, and both put what they have read into the cache if it is open; `evict_session`
takes the entry out.  The calls come from request handlers, from the usage batcher and from the
watcher of the chain, which evicts a session when funds of it have been released
(`src/chain/watcher.rs`).  Between the read and the insertion other calls run, so an entry that was
read before an eviction can be put in after it.

A step of the system is one access to the cache or one answer of the chain.  The numbers of
evictions in the state, and the stamps on what has been read, are not data of the program: they say
which of two events came first.

Main definitions:

* `ChainVerifier.Pc`, `ChainVerifier.State`, `ChainVerifier.step` — the calls, interleaved;
* `ChainVerifier.Coherent` — no call returns a session that was read before an eviction the call has
  come after;
* `ChainVerifier.insertsFresh` — the condition on one step.

Main results:

* `ChainVerifier.coherent_of_insertsFresh` — **the cache is coherent in every run in which nothing
  is inserted that was read before an eviction**;
* `ChainVerifier.coherent_breaks` — a warm-up that is overtaken by an eviction brings the old entry
  back.
-/

import Mathlib.Logic.Function.Basic
import SparklRouter.Chain.Session
import SparklRouter.Concurrency.TaskPool
import SparklRouter.Concurrency.Transition

set_option relaxedAutoImplicit false
set_option autoImplicit false

open Transition

namespace ChainVerifier

abbrev SessionId := UInt64

abbrev TaskId := ℕ

/-! ### The system -/

/-- A session as it was read from the chain.  The stamp is the number of times the session had been
evicted by then. -/
structure Fetched where
  session : ChainSession
  stamp : ℕ

/-- Where a call stands.  A `get_session` carries `after`, the last eviction that had returned when
the call started; a `warm_session` carries nothing. -/
inductive Pc
  | lookup (after : ℕ)
  | fetching (after : Option ℕ)
  | inserting (after : Option ℕ) (fetched : Fetched)
  /-- The call has returned the session. -/
  | returned (after : ℕ) (fetched : Fetched)
  | invalidating
  /-- The entry is out, by the eviction of this number, and the call has not returned. -/
  | invalidated (eviction : ℕ)
  | done

structure Task where
  id : SessionId
  pc : Pc

structure State where
  /-- The sessions as the contract has them. -/
  chain : SessionId → ChainSession
  cache : SessionId → Option Fetched
  /-- The evictions of each session so far. -/
  evictions : SessionId → ℕ
  /-- The last of them that has returned. -/
  evicted : SessionId → ℕ
  tasks : List Task

def init (chain : SessionId → ChainSession) : State := ⟨chain, fun _ => none, 0, 0, []⟩

inductive Action
  | getSession (id : SessionId)
  | warmSession (id : SessionId)
  | evictSession (id : SessionId)
  /-- The call makes its next step. -/
  | advance (i : TaskId)
  /-- The chain does not answer the call. -/
  | rpcError (i : TaskId)
  /-- The entry of the session has reached its time to live. -/
  | expire (id : SessionId)
  /-- The session changes on chain. -/
  | chain (id : SessionId) (session : ChainSession)

namespace State

def spawn (s : State) (id : SessionId) (pc : Pc) : State :=
  { s with tasks := s.tasks ++ [⟨id, pc⟩] }

def goTo (s : State) (i : TaskId) (task : Task) (pc : Pc) : State :=
  { s with tasks := s.tasks.set i { task with pc } }

end State

/-- What follows the read of a session: open ones go into the cache. -/
def afterFetch (after : Option ℕ) (fetched : Fetched) : Pc :=
  if fetched.session.isOpen then .inserting after fetched
  else
    match after with
    | some n => .returned n fetched
    | none => .done

/-- What follows the insertion. -/
def afterInsert (after : Option ℕ) (fetched : Fetched) : Pc :=
  match after with
  | some n => .returned n fetched
  | none => .done

/-- One step of a call. -/
def advance (s : State) (i : TaskId) (task : Task) : Option State :=
  match task.pc with
  | .lookup after =>
      match s.cache task.id with
      | some cached => some (s.goTo i task (.returned after cached))
      | none => some (s.goTo i task (.fetching (some after)))
  | .fetching after =>
      some (s.goTo i task (afterFetch after ⟨s.chain task.id, s.evictions task.id⟩))
  | .inserting after fetched =>
      some
        { s.goTo i task (afterInsert after fetched) with
          cache := Function.update s.cache task.id (some fetched) }
  | .invalidating =>
      some
        { s.goTo i task (.invalidated (s.evictions task.id + 1)) with
          cache := Function.update s.cache task.id none
          evictions := Function.update s.evictions task.id (s.evictions task.id + 1) }
  | .invalidated eviction =>
      some
        { s.goTo i task .done with
          evicted := Function.update s.evicted task.id (max (s.evicted task.id) eviction) }
  | .returned _ _ => none
  | .done => none

def step (s : State) : Action → Option State
  | .getSession id => some (s.spawn id (.lookup (s.evicted id)))
  | .warmSession id => some (s.spawn id (.fetching none))
  | .evictSession id => some (s.spawn id .invalidating)
  | .advance i => s.tasks[i]?.bind fun task => advance s i task
  | .rpcError i =>
      s.tasks[i]?.bind fun task =>
        match task.pc with
        | .fetching _ => some (s.goTo i task .done)
        | _ => none
  | .expire id => some { s with cache := Function.update s.cache id none }
  | .chain id session => some { s with chain := Function.update s.chain id session }

/-! ### Coherence -/

/-- **No call returns a session that was read before an eviction the call has come after.** -/
def Coherent (s : State) : Prop :=
  ∀ task ∈ s.tasks, ∀ after fetched, task.pc = .returned after fetched → after ≤ fetched.stamp

/-- What the step inserts, if it inserts anything, was read after the last eviction of the
session. -/
def insertsFresh (s : State) : Action → Bool
  | .advance i =>
      match s.tasks[i]? with
      | some ⟨id, .inserting _ fetched⟩ => s.evictions id ≤ fetched.stamp
      | _ => true
  | _ => true

/-- A call has no older session in its hands than the evictions it has come after, and no eviction
that has not happened. -/
def Pc.Fresh (evictions : ℕ) : Pc → Prop
  | .lookup after => after ≤ evictions
  | .fetching after => ∀ n, after = some n → n ≤ evictions
  | .inserting after fetched => ∀ n, after = some n → n ≤ fetched.stamp
  | .returned after fetched => after ≤ fetched.stamp
  | .invalidating => True
  | .invalidated eviction => eviction ≤ evictions
  | .done => True

/-- The invariant: what is in the cache was read after the last eviction. -/
structure Inv (s : State) : Prop where
  cached : ∀ id fetched, s.cache id = some fetched → s.evictions id ≤ fetched.stamp
  evicted : ∀ id, s.evicted id ≤ s.evictions id
  fresh : ∀ task ∈ s.tasks, task.pc.Fresh (s.evictions task.id)

theorem Pc.Fresh.mono {m n : ℕ} {pc : Pc} (h : pc.Fresh m) (hmn : m ≤ n) : pc.Fresh n := by
  cases pc with
  | lookup after => exact h.trans hmn
  | fetching after => exact fun k hk => (h k hk).trans hmn
  | inserting after fetched => exact h
  | returned after fetched => exact h
  | invalidating => trivial
  | invalidated eviction => exact h.trans hmn
  | done => trivial

theorem Inv.coherent {s : State} (h : Inv s) : Coherent s := by
  intro task htask after fetched hpc
  have hfresh := h.fresh task htask
  rw [hpc] at hfresh
  exact hfresh

theorem inv_init (chain : SessionId → ChainSession) : Inv (init chain) where
  cached id fetched h := by cases h
  evicted id := le_refl _
  fresh task h := by cases h

theorem Inv.spawn {s : State} (h : Inv s) {id : SessionId} {pc : Pc}
    (hpc : pc.Fresh (s.evictions id)) : Inv (s.spawn id pc) where
  cached := h.cached
  evicted := h.evicted
  fresh task htask := by
    rcases List.mem_append.1 htask with hold | hnew
    · exact h.fresh task hold
    · obtain rfl := List.mem_singleton.1 hnew
      exact hpc

theorem Inv.goTo {s : State} (h : Inv s) {i : TaskId} {task : Task} {pc : Pc}
    (hpc : pc.Fresh (s.evictions task.id)) : Inv (s.goTo i task pc) where
  cached := h.cached
  evicted := h.evicted
  fresh t ht := by
    rcases List.mem_or_eq_of_mem_set ht with hold | rfl
    · exact h.fresh t hold
    · exact hpc

theorem fresh_afterFetch {n : ℕ} {after : Option ℕ} {fetched : Fetched}
    (h : ∀ k, after = some k → k ≤ fetched.stamp) : (afterFetch after fetched).Fresh n := by
  unfold afterFetch
  split
  · exact h
  · cases after with
    | some k => exact h k rfl
    | none => trivial

theorem fresh_afterInsert {n : ℕ} {after : Option ℕ} {fetched : Fetched}
    (h : ∀ k, after = some k → k ≤ fetched.stamp) : (afterInsert after fetched).Fresh n := by
  cases after with
  | some k => exact h k rfl
  | none => trivial

/-- An entry that was read after the last eviction can go into the cache. -/
theorem Inv.insert {s : State} (h : Inv s) {id : SessionId} {fetched : Fetched}
    (hfresh : s.evictions id ≤ fetched.stamp) :
    Inv { s with cache := Function.update s.cache id (some fetched) } where
  cached id' fetched' hcached := by
    dsimp only at hcached ⊢
    by_cases hid : id' = id
    · subst hid
      rw [Function.update_self] at hcached
      cases hcached
      exact hfresh
    · rw [Function.update_of_ne hid] at hcached
      exact h.cached id' fetched' hcached
  evicted := h.evicted
  fresh := h.fresh

/-- An entry can go. -/
theorem Inv.drop {s : State} (h : Inv s) (id : SessionId) :
    Inv { s with cache := Function.update s.cache id none } where
  cached id' fetched hcached := by
    dsimp only at hcached ⊢
    by_cases hid : id' = id
    · subst hid
      rw [Function.update_self] at hcached
      cases hcached
    · rw [Function.update_of_ne hid] at hcached
      exact h.cached id' fetched hcached
  evicted := h.evicted
  fresh := h.fresh

/-- An eviction takes the entry out, so nothing older than it is left in the cache. -/
theorem Inv.invalidate {s : State} (h : Inv s) (id : SessionId) :
    Inv { s with
      cache := Function.update s.cache id none
      evictions := Function.update s.evictions id (s.evictions id + 1) } := by
  have hle : ∀ id', s.evictions id' ≤
      Function.update s.evictions id (s.evictions id + 1) id' := by
    intro id'
    by_cases hid : id' = id
    · subst hid
      rw [Function.update_self]
      exact Nat.le_succ _
    · rw [Function.update_of_ne hid]
  refine ⟨?_, fun id' => (h.evicted id').trans (hle id'), fun task ht => ?_⟩
  · intro id' fetched hcached
    by_cases hid : id' = id
    · subst hid
      simp at hcached
    · simp only [Function.update_of_ne hid] at hcached ⊢
      exact h.cached id' fetched hcached
  · exact (h.fresh task ht).mono (hle task.id)

/-- The return of an eviction is noted. -/
theorem Inv.note {s : State} (h : Inv s) {id : SessionId} {eviction : ℕ}
    (hle : eviction ≤ s.evictions id) :
    Inv { s with evicted := Function.update s.evicted id (max (s.evicted id) eviction) } where
  cached := h.cached
  evicted id' := by
    have hold := h.evicted id'
    dsimp only
    by_cases hid : id' = id
    · subst hid
      rw [Function.update_self]
      exact max_le hold hle
    · rw [Function.update_of_ne hid]
      exact hold
  fresh := h.fresh

/-- **One step** keeps the invariant, if it inserts nothing that was read before an eviction. -/
theorem Inv.step {s s' : State} {action : Action} (h : Inv s) (hs : step s action = some s')
    (hfresh : insertsFresh s action = true) : Inv s' := by
  cases action with
  | getSession id =>
      cases hs
      exact h.spawn (h.evicted id)
  | warmSession id =>
      cases hs
      exact h.spawn fun n hn => by cases hn
  | evictSession id =>
      cases hs
      exact h.spawn trivial
  | expire id =>
      cases hs
      exact h.drop id
  | chain id session =>
      cases hs
      exact ⟨h.cached, h.evicted, h.fresh⟩
  | rpcError i =>
      obtain ⟨task, htask, hs⟩ := Option.bind_eq_some_iff.1 hs
      split at hs
      · cases hs
        exact h.goTo trivial
      · cases hs
  | advance i =>
      obtain ⟨⟨id, pc⟩, htask, hs⟩ := Option.bind_eq_some_iff.1 hs
      have hpc : pc.Fresh (s.evictions id) := h.fresh _ (List.mem_of_getElem? htask)
      cases pc with
      | lookup after =>
          simp only [advance] at hs
          cases hcache : s.cache id with
          | some cached =>
              rw [hcache] at hs
              cases hs
              -- what the cache holds is no older than the last eviction, which had not returned
              -- before this call started, or is the one it has come after
              exact h.goTo (Nat.le_trans hpc (h.cached id cached hcache))
          | none =>
              rw [hcache] at hs
              cases hs
              exact h.goTo fun n hn => Option.some.inj hn ▸ hpc
      | fetching after =>
          cases hs
          exact h.goTo (fresh_afterFetch hpc)
      | inserting after fetched =>
          cases hs
          simp only [insertsFresh, htask] at hfresh
          exact (h.goTo (fresh_afterInsert hpc)).insert (of_decide_eq_true hfresh)
      | invalidating =>
          cases hs
          refine (h.invalidate id).goTo ?_
          have hself : Function.update s.evictions id (s.evictions id + 1) id =
            s.evictions id + 1 := Function.update_self ..
          exact hself.ge
      | invalidated eviction =>
          cases hs
          exact (h.note hpc).goTo trivial
      | returned after fetched => cases hs
      | done => cases hs

/-- **The cache is coherent in every run in which nothing is inserted that was read before an
eviction**: no `get_session` returns a session that was read before an `evict_session` that had
returned when the call started. -/
theorem coherent_of_insertsFresh (chain : SessionId → ChainSession) (as : List Action)
    (h : Throughout step (fun s action _ => insertsFresh s action = true) (init chain) as) :
    Always step Coherent (init chain) as :=
  (always_of_step (I := Inv) (fun _ _ _ hinv hs hfresh => hinv.step hs hfresh) (inv_init chain)
    h).mono fun _ hinv => hinv.coherent

/-! ### A warm-up overtaken by an eviction -/

def openSession : ChainSession where
  user := List.Vector.replicate 20 1
  nodeId := List.Vector.replicate 32 1
  modelId := List.Vector.replicate 32 2
  tier := 0
  lockedInternal := 100
  usageRecorded := 0
  inputTokensRecorded := 0
  outputTokensRecorded := 0
  settled := false

def settledSession : ChainSession := { openSession with lockedInternal := 0, settled := true }

/-- The warm-up inserts, the session settles, the watcher evicts, and a request comes. -/
def inOrder : List Action :=
  [.warmSession 7, .advance 0, .advance 0, .chain 7 settledSession, .evictSession 7, .advance 1,
    .advance 1, .getSession 7, .advance 2, .advance 2]

theorem coherent_inOrder : Always step Coherent (init fun _ => openSession) inOrder :=
  coherent_of_insertsFresh _ _ (throughout_of_check (by decide +kernel))

/-- The same calls, but the warm-up inserts what it has read only after the eviction. -/
def overtaken : List Action :=
  [.warmSession 7, .advance 0, .chain 7 settledSession, .evictSession 7, .advance 1, .advance 1,
    .advance 0, .getSession 7, .advance 2]

/-- What the call of a task has returned: the eviction it came after, the stamp, and whether the
session is open. -/
def answerOf (s : State) (i : TaskId) : Option (ℕ × ℕ × Bool) :=
  s.tasks[i]?.bind fun task =>
    match task.pc with
    | .returned after fetched => some (after, fetched.stamp, fetched.session.isOpen)
    | _ => none

/-- The request is admitted on a session that is settled on chain. -/
theorem observe_overtaken :
    (run step (init fun _ => openSession) overtaken).map (fun s =>
      (answerOf s 2, (s.chain 7).isOpen)) = some (some (1, 0, true), false) := by
  decide +kernel

/-- **A warm-up that is overtaken by an eviction brings the old entry back.** -/
theorem coherent_breaks :
    ¬ ∀ (chain : SessionId → ChainSession) (as : List Action),
      Always step Coherent (init chain) as := by
  intro h
  obtain ⟨s, hcoherent, hobs⟩ := (h _ overtaken).observe observe_overtaken
  obtain ⟨hanswer, -⟩ := Prod.mk.inj hobs
  obtain ⟨task, htask, hpc⟩ := Option.bind_eq_some_iff.1 hanswer
  split at hpc
  · rename_i after fetched hreturned
    have hle := hcoherent task (List.mem_of_getElem? htask) after fetched hreturned
    simp only [Option.some.injEq, Prod.mk.injEq] at hpc
    omega
  · cases hpc

end ChainVerifier
