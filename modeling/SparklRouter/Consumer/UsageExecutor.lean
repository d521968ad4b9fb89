/-
**The usage batcher on the threads of its executor.**

`UsageBatch` interleaves the tasks of the batcher section by section.  Underneath, a task runs on
one of the worker threads of the runtime, and a section is entered in three steps: the map of the
sessions locks the shard of the key, which blocks the *thread* until the lock is free; under that
guard the task locks the mutex of the batch, which parks the *task* when the mutex is taken, guard
and all; and then the section runs.  `get`, `contains_key` and an iteration take a shard for
reading, `entry` and `remove` for writing.  The mutex is handed to the tasks that wait for it in the
order of their asking, and the next of them is woken when it is given back: it holds the mutex, but
it goes on only when a worker takes it up.

This module runs the batcher with any number of workers.  A task leaves its worker where it waits
for the chain, for a submission or for a mutex, and at its end.  The tasks of the submissions touch
no session and never block their thread; they stay outside the workers, as do the waiting tasks.

Main definitions:

* `Executor.Stage`, `Executor.State` — how far a task is with the locks of its section, and the
  batcher on its workers;
* `Executor.step` — the transition function;
* `Executor.Change` — what a step can do to the locks and the workers.

Main results:

* `Executor.change_of_step` — **every step is one of the listed changes**;
* `Executor.reachable_base` — **the batcher on its workers is the batcher of `UsageBatch`**.
-/

import SparklRouter.Concurrency.RwLock
import SparklRouter.Concurrency.Sync
import SparklRouter.Consumer.UsageBatch

set_option relaxedAutoImplicit false
set_option autoImplicit false

namespace Executor

open UsageBatch

/-! ### The locks of a section -/

/-- The shard a task locks for its next step, and how. -/
def access (sharding : Sharding SessionId) : Pc → Option (ℕ × LockMode)
  | .checking session _ => some (sharding.shard session, .read)
  | .creating session _ _ => some (sharding.shard session, .write)
  | .accumulating session _ _ => some (sharding.shard session, .read)
  | .flushing session _ _ _ => some (sharding.shard session, .read)
  | .marking session _ _ => some (sharding.shard session, .read)
  | .removing session => some (sharding.shard session, .write)
  | .collecting _ shard _ => if shard < sharding.shards then some (shard, .read) else none
  | .looping .sweep (session :: _) => some (sharding.shard session, .read)
  | .looping _ _ => none
  | .fetching _ _ | .submitting _ _ _ _ | .awaiting _ _ _ | .refreshing _ _ | .finished => none

/-- The session whose batch the task locks under the guard of the shard. -/
def batchLock : Pc → Option SessionId
  | .accumulating session _ _ => some session
  | .flushing session _ _ _ => some session
  | .marking session _ _ => some session
  | .looping .sweep (session :: _) => some session
  | _ => none

/-- Whether the task waits for an answer, or has ended. -/
def suspended (b : UsageBatch.State) : Pc → Bool
  | .fetching _ _ | .refreshing _ _ | .finished => true
  | .awaiting ticket _ _ =>
      !(b.submissions.any fun sub => sub.ticket == ticket && sub.result.isSome)
  | _ => false

/-- How far a task is with the locks of its next section. -/
inductive Stage
  /-- It holds no lock and asks for none. -/
  | out
  /-- It asks for a shard. -/
  | asking (shard : ℕ) (mode : LockMode)
  /-- An iteration holds a shard and asks for the next one. -/
  | passing (shard : ℕ)
  | holding (shard : ℕ) (mode : LockMode)
  /-- It holds the shard and is parked on the mutex of the batch. -/
  | waiting (shard : ℕ)
  /-- It holds the shard and the mutex. -/
  | locked (shard : ℕ)
  /-- It has given the mutex back. -/
  | leaving (shard : ℕ)
deriving DecidableEq

/-- The guard the task holds. -/
def Stage.guard : Stage → Option (ℕ × LockMode)
  | .out | .asking _ _ => none
  | .holding shard mode => some (shard, mode)
  | .passing shard | .waiting shard | .locked shard | .leaving shard => some (shard, .read)

/-- The lock the thread of the task waits for. -/
def Stage.asks : Stage → Option (ℕ × LockMode)
  | .asking shard mode => some (shard, mode)
  | .passing shard => some (shard + 1, .read)
  | _ => none

def Stage.parked : Stage → Bool
  | .waiting _ => true
  | _ => false

/-- The task is handed the mutex. -/
def Stage.wake : Stage → Stage
  | .waiting shard => .locked shard
  | stage => stage

/-! ### The system -/

/-- The batcher on `W` workers. -/
structure State (W : ℕ) where
  base : UsageBatch.State
  stage : TaskId → Stage
  /-- The task each worker runs. -/
  workers : Fin W → Option TaskId
  shards : ℕ → RwLock TaskId
  /-- The mutexes of the batches. A batch that is created has a fresh one. -/
  mutexes : SessionId → Mutex TaskId

variable {W : ℕ}

def init (W : ℕ) : State W :=
  ⟨UsageBatch.init, fun _ => .out, fun _ => none, fun _ => RwLock.free, fun _ => Mutex.free⟩

namespace State

/-- Some worker runs the task. -/
def Running (s : State W) (t : TaskId) : Prop := ∃ w, s.workers w = some t

instance (s : State W) (t : TaskId) : Decidable (s.Running t) :=
  inferInstanceAs (Decidable (∃ w, s.workers w = some t))

def setStage (s : State W) (t : TaskId) (stage : Stage) : State W :=
  { s with stage := Function.update s.stage t stage }

def assign (s : State W) (w : Fin W) (o : Option TaskId) : State W :=
  { s with workers := Function.update s.workers w o }

def setShard (s : State W) (i : ℕ) (l : RwLock TaskId) : State W :=
  { s with shards := Function.update s.shards i l }

def setMutex (s : State W) (session : SessionId) (m : Mutex TaskId) : State W :=
  { s with mutexes := Function.update s.mutexes session m }

/-- The guard of the shard is dropped. -/
def release (s : State W) (i : ℕ) (t : TaskId) (mode : LockMode) : State W :=
  s.setShard i ((s.shards i).release t mode)

/-- The guard of the batch is dropped. -/
def unlock (s : State W) (session : SessionId) : State W :=
  match (s.mutexes session).unlock with
  | (m, none) => s.setMutex session m
  | (m, some u) => (s.setMutex session m).setStage u (s.stage u).wake

@[simp] theorem stage_setStage (s : State W) (t : TaskId) (stage : Stage) (x : TaskId) :
    (s.setStage t stage).stage x = if x = t then stage else s.stage x :=
  Function.update_apply s.stage t stage x

@[simp] theorem shards_setStage (s : State W) (t : TaskId) (stage : Stage) :
    (s.setStage t stage).shards = s.shards := rfl

@[simp] theorem workers_setStage (s : State W) (t : TaskId) (stage : Stage) :
    (s.setStage t stage).workers = s.workers := rfl

@[simp] theorem workers_assign (s : State W) (w : Fin W) (o : Option TaskId) (v : Fin W) :
    (s.assign w o).workers v = if v = w then o else s.workers v :=
  Function.update_apply s.workers w o v

@[simp] theorem stage_assign (s : State W) (w : Fin W) (o : Option TaskId) :
    (s.assign w o).stage = s.stage := rfl

@[simp] theorem shards_assign (s : State W) (w : Fin W) (o : Option TaskId) :
    (s.assign w o).shards = s.shards := rfl

@[simp] theorem shards_setShard (s : State W) (i : ℕ) (l : RwLock TaskId) (j : ℕ) :
    (s.setShard i l).shards j = if j = i then l else s.shards j :=
  Function.update_apply s.shards i l j

@[simp] theorem stage_setShard (s : State W) (i : ℕ) (l : RwLock TaskId) :
    (s.setShard i l).stage = s.stage := rfl

@[simp] theorem workers_setShard (s : State W) (i : ℕ) (l : RwLock TaskId) :
    (s.setShard i l).workers = s.workers := rfl

@[simp] theorem shards_release (s : State W) (i : ℕ) (t : TaskId) (mode : LockMode) (j : ℕ) :
    (s.release i t mode).shards j = if j = i then (s.shards i).release t mode else s.shards j :=
  shards_setShard s i _ j

@[simp] theorem stage_release (s : State W) (i : ℕ) (t : TaskId) (mode : LockMode) :
    (s.release i t mode).stage = s.stage := rfl

@[simp] theorem workers_release (s : State W) (i : ℕ) (t : TaskId) (mode : LockMode) :
    (s.release i t mode).workers = s.workers := rfl

@[simp] theorem stage_setMutex (s : State W) (session : SessionId) (m : Mutex TaskId) :
    (s.setMutex session m).stage = s.stage := rfl

@[simp] theorem shards_setMutex (s : State W) (session : SessionId) (m : Mutex TaskId) :
    (s.setMutex session m).shards = s.shards := rfl

@[simp] theorem workers_setMutex (s : State W) (session : SessionId) (m : Mutex TaskId) :
    (s.setMutex session m).workers = s.workers := rfl

@[simp] theorem workers_unlock (s : State W) (session : SessionId) :
    (s.unlock session).workers = s.workers := by
  rw [unlock]
  split <;> rfl

@[simp] theorem shards_unlock (s : State W) (session : SessionId) :
    (s.unlock session).shards = s.shards := by
  rw [unlock]
  split <;> rfl

/-- Giving a mutex back wakes one task at most. -/
theorem stage_unlock (s : State W) (session : SessionId) (x : TaskId) :
    (s.unlock session).stage x = s.stage x ∨ (s.unlock session).stage x = (s.stage x).wake := by
  rw [unlock]
  split
  · exact Or.inl rfl
  · rw [stage_setStage]
    split
    · rename_i hx
      rw [hx]
      exact Or.inr rfl
    · exact Or.inl rfl

/-- A worker can take the task up. -/
def ready (s : State W) (t : TaskId) : Bool :=
  match s.base.tasks[t]? with
  | some pc => !(s.stage t).parked && !suspended s.base pc && !decide (s.Running t)
  | none => false

end State

/-- What the scheduler can do. -/
inductive Action (W : ℕ)
  | call (c : Call)
  /-- A worker takes a task up. -/
  | schedule (w : Fin W) (t : TaskId)
  /-- A worker leaves the task it runs. -/
  | leave (w : Fin W)
  /-- The task of the worker takes its next step. -/
  | run (w : Fin W)
  /-- The iteration of the task of the worker finds the keys of its shard. -/
  | iterate (w : Fin W) (ids : List SessionId)
  | answer (t : TaskId) (reply : Option ChainSession)
  | attempt (j : ℕ) (o : Chain.Attempt)
  | tick (nanos : ℕ)

variable (cfg : SettlementConfig) (sharding : Sharding SessionId)

/-- A step of the batcher, with the locks as they are. -/
def State.advance (s : State W) (act : UsageBatch.Action) : Option (State W) :=
  (UsageBatch.step cfg sharding s.base act).map fun b => { s with base := b }

/-- The next step of the task a worker runs; `none` when its thread is blocked. -/
def runTask (s : State W) (w : Fin W) (t : TaskId) (pc : Pc) : Stage → Option (State W)
  | .out =>
      match access sharding pc with
      | some (i, mode) => some (s.setStage t (.asking i mode))
      | none => s.advance cfg sharding (.step t)
  | .asking i mode =>
      ((s.shards i).acquire t mode).map fun l => (s.setShard i l).setStage t (.holding i mode)
  | .passing i =>
      -- the iterator drops the guard it has only once it has the next one
      ((s.shards (i + 1)).acquire t .read).map fun l =>
        ((s.release i t .read).setShard (i + 1) l).setStage t (.holding (i + 1) .read)
  | .holding i .write =>
      (s.advance cfg sharding (.step t)).map fun s' => (s'.release i t .write).setStage t .out
  | .holding i .read =>
      match (batchLock pc).filter s.base.sessions.containsKey with
      | some session =>
          match (s.mutexes session).lock t with
          | (m, true) => some ((s.setMutex session m).setStage t (.locked i))
          | (m, false) => some (((s.setMutex session m).setStage t (.waiting i)).assign w none)
      | none =>
          (s.advance cfg sharding (.step t)).map fun s' => (s'.release i t .read).setStage t .out
  | .locked i =>
      (batchLock pc).bind fun session =>
        (s.advance cfg sharding (.step t)).map fun s' =>
          (s'.unlock session).setStage t (.leaving i)
  | .leaving i => some ((s.release i t .read).setStage t .out)
  | .waiting _ => none

/-- The iteration has seen the shard `i`. -/
def iterateTask (s : State W) (t : TaskId) (ids : List SessionId) : Stage → Option (State W)
  | .holding i .read =>
      (s.advance cfg sharding (.iterate t ids)).map fun s' =>
        if i + 1 < sharding.shards then s'.setStage t (.passing i)
        else (s'.release i t .read).setStage t .out
  | _ => none

/-- **The transition function of the batcher on its workers.** -/
def step (s : State W) : Action W → Option (State W)
  | .call c => s.advance cfg sharding (.call c)
  | .schedule w t =>
      if s.workers w = none ∧ s.ready t = true then some (s.assign w (some t)) else none
  | .leave w =>
      (s.workers w).bind fun t =>
        (s.base.tasks[t]?).bind fun pc =>
          if s.stage t = .out ∧ suspended s.base pc = true then some (s.assign w none) else none
  | .run w =>
      (s.workers w).bind fun t =>
        (s.base.tasks[t]?).bind fun pc => runTask cfg sharding s w t pc (s.stage t)
  | .iterate w ids =>
      (s.workers w).bind fun t => iterateTask cfg sharding s t ids (s.stage t)
  | .answer t reply => s.advance cfg sharding (.answer t reply)
  | .attempt j o => s.advance cfg sharding (.attempt j o)
  | .tick nanos => s.advance cfg sharding (.tick nanos)

/-- The shard for writing which the task of the worker asks next. -/
def State.aboutToWrite (s : State W) (w : Fin W) : Option ℕ :=
  (s.workers w).bind fun t =>
    match s.stage t, (s.base.tasks[t]?).bind (access sharding) with
    | .out, some (i, .write) => some i
    | _, _ => none

variable {cfg : SettlementConfig} {sharding : Sharding SessionId}

/-! ### What a step can do -/

/-- What a step can do to the locks and the workers. -/
inductive Change (cfg : SettlementConfig) (sharding : Sharding SessionId) (s : State W) :
    Action W → State W → Prop
  | base {act : Action W} {act' : UsageBatch.Action} {b : UsageBatch.State}
      (hb : UsageBatch.step cfg sharding s.base act' = some b) :
      Change cfg sharding s act { s with base := b }
  | schedule {w : Fin W} {t : TaskId} (hw : s.workers w = none) (ht : ¬ s.Running t) :
      Change cfg sharding s (.schedule w t) (s.assign w (some t))
  | leave {w : Fin W} {t : TaskId} (hw : s.workers w = some t) (ht : s.stage t = .out) :
      Change cfg sharding s (.leave w) (s.assign w none)
  | ask {w : Fin W} {t : TaskId} {i : ℕ} {mode : LockMode} (hw : s.workers w = some t)
      (ht : s.stage t = .out) (hwrite : mode = .write → s.aboutToWrite sharding w = some i) :
      Change cfg sharding s (.run w) (s.setStage t (.asking i mode))
  | take {w : Fin W} {t : TaskId} {i : ℕ} {mode : LockMode} {l : RwLock TaskId}
      (hw : s.workers w = some t) (ht : s.stage t = .asking i mode)
      (hl : (s.shards i).acquire t mode = some l) :
      Change cfg sharding s (.run w) ((s.setShard i l).setStage t (.holding i mode))
  | pass {w : Fin W} {t : TaskId} {i : ℕ} {l : RwLock TaskId} (hw : s.workers w = some t)
      (ht : s.stage t = .passing i) (hl : (s.shards (i + 1)).acquire t .read = some l) :
      Change cfg sharding s (.run w)
        (((s.release i t .read).setShard (i + 1) l).setStage t (.holding (i + 1) .read))
  | lock {w : Fin W} {t : TaskId} {i : ℕ} {session : SessionId} {m : Mutex TaskId}
      (hw : s.workers w = some t) (ht : s.stage t = .holding i .read) :
      Change cfg sharding s (.run w) ((s.setMutex session m).setStage t (.locked i))
  | park {w : Fin W} {t : TaskId} {i : ℕ} {session : SessionId} {m : Mutex TaskId}
      (hw : s.workers w = some t) (ht : s.stage t = .holding i .read) :
      Change cfg sharding s (.run w)
        (((s.setMutex session m).setStage t (.waiting i)).assign w none)
  | unlock {w : Fin W} {t : TaskId} {i : ℕ} {session : SessionId} {act' : UsageBatch.Action}
      {b : UsageBatch.State} (hb : UsageBatch.step cfg sharding s.base act' = some b)
      (hw : s.workers w = some t) (ht : s.stage t = .locked i) :
      Change cfg sharding s (.run w)
        ((State.unlock { s with base := b } session).setStage t (.leaving i))
  | proceed {act : Action W} {w : Fin W} {t : TaskId} {i : ℕ} {act' : UsageBatch.Action}
      {b : UsageBatch.State} (hb : UsageBatch.step cfg sharding s.base act' = some b)
      (hw : s.workers w = some t) (ht : s.stage t = .holding i .read) :
      Change cfg sharding s act (State.setStage { s with base := b } t (.passing i))
  | drop {act : Action W} {w : Fin W} {t : TaskId} {i : ℕ} {mode : LockMode}
      {b : UsageBatch.State}
      (hb : b = s.base ∨ ∃ act', UsageBatch.step cfg sharding s.base act' = some b)
      (hw : s.workers w = some t) (hguard : (s.stage t).guard = some (i, mode))
      (hasks : (s.stage t).asks = none) :
      Change cfg sharding s act ((State.release { s with base := b } i t mode).setStage t .out)

theorem advance_eq_some {s s' : State W} {act : UsageBatch.Action}
    (h : s.advance cfg sharding act = some s') :
    ∃ b, UsageBatch.step cfg sharding s.base act = some b ∧ s' = { s with base := b } := by
  obtain ⟨b, hb, rfl⟩ := Option.map_eq_some_iff.1 h
  exact ⟨b, hb, rfl⟩

theorem change_of_advance {s s' : State W} {act : Action W} {act' : UsageBatch.Action}
    (h : s.advance cfg sharding act' = some s') : Change cfg sharding s act s' := by
  obtain ⟨b, hb, rfl⟩ := advance_eq_some h
  exact Change.base hb

/-- A section that needs no mutex, and the guard is dropped. -/
theorem change_of_drop {s s' : State W} {w : Fin W} {t : TaskId} {i : ℕ} {mode : LockMode}
    {act : Action W} {act' : UsageBatch.Action} (hw : s.workers w = some t)
    (ht : s.stage t = .holding i mode)
    (h : (s.advance cfg sharding act').map
      (fun s' => (s'.release i t mode).setStage t .out) = some s') :
    Change cfg sharding s act s' := by
  obtain ⟨s₁, h₁, rfl⟩ := Option.map_eq_some_iff.1 h
  obtain ⟨b, hb, rfl⟩ := advance_eq_some h₁
  exact Change.drop (Or.inr ⟨_, hb⟩) hw (by rw [ht]; rfl) (by rw [ht]; rfl)

theorem change_of_runTask {s s' : State W} {w : Fin W} {t : TaskId} {pc : Pc}
    (hw : s.workers w = some t) (hpc : s.base.tasks[t]? = some pc)
    (h : runTask cfg sharding s w t pc (s.stage t) = some s') :
    Change cfg sharding s (.run w) s' := by
  cases ht : s.stage t with
  | out =>
      rw [ht, runTask] at h
      split at h
      · rename_i i mode haccess
        obtain rfl := Option.some.inj h
        refine Change.ask hw ht fun hmode => ?_
        rw [State.aboutToWrite, hw, Option.bind_some, ht, hpc, Option.bind_some, haccess, hmode]
      · exact change_of_advance h
  | asking i mode =>
      rw [ht] at h
      obtain ⟨l, hl, rfl⟩ := Option.map_eq_some_iff.1 h
      exact Change.take hw ht hl
  | passing i =>
      rw [ht] at h
      obtain ⟨l, hl, rfl⟩ := Option.map_eq_some_iff.1 h
      exact Change.pass hw ht hl
  | holding i mode =>
      rw [ht] at h
      cases mode with
      | write => exact change_of_drop hw ht h
      | read =>
          rw [runTask] at h
          split at h
          · split at h
            · obtain rfl := Option.some.inj h
              exact Change.lock hw ht
            · obtain rfl := Option.some.inj h
              exact Change.park hw ht
          · exact change_of_drop hw ht h
  | waiting i =>
      rw [ht] at h
      cases h
  | locked i =>
      rw [ht] at h
      obtain ⟨session, -, h⟩ := Option.bind_eq_some_iff.1 h
      obtain ⟨s₁, h₁, rfl⟩ := Option.map_eq_some_iff.1 h
      obtain ⟨b, hb, rfl⟩ := advance_eq_some h₁
      exact Change.unlock hb hw ht
  | leaving i =>
      rw [ht] at h
      obtain rfl := Option.some.inj h
      exact Change.drop (Or.inl rfl) hw (by rw [ht]; rfl) (by rw [ht]; rfl)

/-- **Every step is one of the listed changes.** -/
theorem change_of_step {s s' : State W} {act : Action W}
    (h : step cfg sharding s act = some s') : Change cfg sharding s act s' := by
  cases act with
  | call c => exact change_of_advance h
  | answer t reply => exact change_of_advance h
  | attempt j o => exact change_of_advance h
  | tick nanos => exact change_of_advance h
  | schedule w t =>
      rw [step] at h
      split at h
      · rename_i hfree
        obtain rfl := Option.some.inj h
        refine Change.schedule hfree.1 fun hrunning => ?_
        have hready := hfree.2
        rw [State.ready] at hready
        split at hready
        · simp [hrunning] at hready
        · cases hready
      · cases h
  | leave w =>
      obtain ⟨t, hw, h⟩ := Option.bind_eq_some_iff.1 h
      obtain ⟨pc, -, h⟩ := Option.bind_eq_some_iff.1 h
      split at h
      · rename_i hout
        obtain rfl := Option.some.inj h
        exact Change.leave hw hout.1
      · cases h
  | run w =>
      obtain ⟨t, hw, h⟩ := Option.bind_eq_some_iff.1 h
      obtain ⟨pc, hpc, h⟩ := Option.bind_eq_some_iff.1 h
      exact change_of_runTask hw hpc h
  | iterate w ids =>
      obtain ⟨t, hw, h⟩ := Option.bind_eq_some_iff.1 h
      rw [iterateTask.eq_def] at h
      split at h
      · rename_i i ht
        obtain ⟨s₁, h₁, rfl⟩ := Option.map_eq_some_iff.1 h
        obtain ⟨b, hb, rfl⟩ := advance_eq_some h₁
        split
        · exact Change.proceed hb hw ht
        · exact Change.drop (Or.inr ⟨_, hb⟩) hw (by rw [ht]; rfl) (by rw [ht]; rfl)
      · cases h

/-- **The batcher on its workers is the batcher**: each of its steps is a step of the batcher or
only moves locks and workers. -/
theorem reachable_base {s : State W}
    (h : Transition.Reachable (step cfg sharding) (init W) s) :
    Transition.Reachable (UsageBatch.step cfg sharding) UsageBatch.init s.base := by
  refine h.invariant (I := fun s => Transition.Reachable (UsageBatch.step cfg sharding)
    UsageBatch.init s.base) (Transition.Reachable.refl _) fun s act s' hs hstep => ?_
  have hbase : ∀ {act'} {b}, UsageBatch.step cfg sharding s.base act' = some b →
      Transition.Reachable (UsageBatch.step cfg sharding) UsageBatch.init b :=
    fun hb => hs.tail hb
  cases change_of_step hstep with
  | base hb => exact hbase hb
  | unlock hb hw ht =>
      rw [State.unlock.eq_def]
      split
      · exact hbase hb
      · exact hbase hb
  | proceed hb hw ht => exact hbase hb
  | drop hb hw hguard hasks =>
      rcases hb with rfl | ⟨act', hb⟩
      · exact hs
      · exact hbase hb
  | _ => exact hs

end Executor
