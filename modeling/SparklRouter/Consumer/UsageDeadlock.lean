/-
**Deadlocks of the usage batcher.**

All workers of the executor are blocked for good as soon as each of them waits for the shard of a
task that no worker runs.  That happens: a task parked on the mutex of one session keeps the guard
of its shard, and whoever creates or removes a session of that shard meanwhile blocks a worker,
until no worker is left to take the task up when it is handed the mutex.  It does not happen as long
as nobody asks for a shard for writing while such a task has it.  A worker can still come to wait
for a parked task, one that parked later; but that task left a worker behind, and the worker that
came last waits for no task of this kind.

Main definitions:

* `Executor.State.deadlocked` — every worker waits for a shard that a task off the workers holds;
* `Executor.clear` — no task off the workers holds the shard that is asked for;
* `Executor.Guarded`, `Executor.Ranked` — the invariants.

Main results:

* `Executor.deadlocked_forever` — **a deadlock is for good**;
* `Executor.noDeadlock_of_clear` — **no deadlock in the runs whose steps are all clear**.
-/

import Mathlib.Data.Finset.Lattice.Fold
import Mathlib.Data.Fintype.EquivFin
import Mathlib.Data.Fintype.Lattice
import SparklRouter.Consumer.UsageExecutor

set_option relaxedAutoImplicit false
set_option autoImplicit false

namespace Executor

open UsageBatch

/-! ### Deadlock -/

variable {W : ℕ}

/-- The thread of the worker waits for a shard that is held by a task no worker runs. -/
def State.blocked (s : State W) (w : Fin W) : Bool :=
  match (s.workers w).map fun t => (t, (s.stage t).asks) with
  | some (t, some (i, mode)) =>
      ((s.shards i).acquire t mode).isNone &&
        (s.shards i).holders.any fun x => !decide (s.Running x)
  | _ => false

/-- All workers are blocked. -/
def State.deadlocked (s : State W) : Bool := decide (∀ w, s.blocked w = true)

/-- When a task asks for a shard for writing, workers run all the tasks that hold it. -/
def clear (sharding : Sharding SessionId) (s : State W) : Action W → Bool
  | .run w =>
      match s.aboutToWrite sharding w with
      | some i => (s.shards i).holders.all fun x => decide (s.Running x)
      | none => true
  | _ => true

variable {cfg : SettlementConfig} {sharding : Sharding SessionId}

theorem State.blocked_iff {s : State W} {w : Fin W} :
    s.blocked w = true ↔ ∃ t i mode, s.workers w = some t ∧ (s.stage t).asks = some (i, mode) ∧
      (s.shards i).acquire t mode = none ∧
      ∃ x mode', (s.shards i).Holds x mode' ∧ ¬ s.Running x := by
  rw [State.blocked]
  constructor
  · intro h
    split at h
    · rename_i t i mode hw
      obtain ⟨t', hw', heq⟩ := Option.map_eq_some_iff.1 hw
      obtain ⟨rfl, hasks⟩ := Prod.mk.inj heq
      obtain ⟨hnone, hany⟩ := (Bool.and_eq_true _ _).mp h
      obtain ⟨x, hx, hrunning⟩ := List.any_eq_true.1 hany
      obtain ⟨mode', hold⟩ := RwLock.mem_holders.1 hx
      exact ⟨t', i, mode, hw', hasks, Option.isNone_iff_eq_none.1 hnone, x, mode', hold,
        by simpa using hrunning⟩
    · cases h
  · rintro ⟨t, i, mode, hw, hasks, hnone, x, mode', hold, hrunning⟩
    rw [hw, Option.map_some, hasks]
    refine (Bool.and_eq_true _ _).mpr ⟨by rw [hnone]; rfl, List.any_eq_true.2 ⟨x, ?_, ?_⟩⟩
    · exact RwLock.mem_holders.2 ⟨mode', hold⟩
    · simpa using hrunning

theorem State.deadlocked_iff {s : State W} : s.deadlocked = true ↔ ∀ w, s.blocked w = true :=
  decide_eq_true_iff

/-- A worker that runs a task which asks for nothing is not blocked. -/
theorem State.not_blocked_of_asks {s : State W} {w : Fin W} {t : TaskId}
    (hw : s.workers w = some t) (hasks : (s.stage t).asks = none) : s.blocked w ≠ true := by
  intro h
  obtain ⟨t', i, mode, hw', hasks', -⟩ := State.blocked_iff.1 h
  obtain rfl := Option.some.inj (hw.symm.trans hw')
  cases hasks.symm.trans hasks'

/-- A worker that gets the lock it asks for is not blocked. -/
theorem State.not_blocked_of_acquire {s : State W} {w : Fin W} {t : TaskId} {i : ℕ}
    {mode : LockMode} {l : RwLock TaskId} (hw : s.workers w = some t)
    (hasks : (s.stage t).asks = some (i, mode)) (hl : (s.shards i).acquire t mode = some l) :
    s.blocked w ≠ true := by
  intro h
  obtain ⟨t', i', mode', hw', hasks', hnone, -⟩ := State.blocked_iff.1 h
  obtain rfl := Option.some.inj (hw.symm.trans hw')
  obtain ⟨rfl, rfl⟩ := Prod.mk.inj (Option.some.inj (hasks.symm.trans hasks'))
  cases hl.symm.trans hnone

/-- **A deadlock is for good**: whatever happens after it, no worker goes on. -/
theorem deadlocked_step {s s' : State W} {act : Action W} (h : s.deadlocked = true)
    (hstep : step cfg sharding s act = some s') : s'.deadlocked = true := by
  have hblocked := State.deadlocked_iff.1 h
  cases change_of_step hstep with
  | base hb => exact h
  | @schedule w t hw ht =>
      obtain ⟨t', -, -, hw', -⟩ := State.blocked_iff.1 (hblocked w)
      cases hw.symm.trans hw'
  | leave hw ht =>
      exact absurd (hblocked _) (State.not_blocked_of_asks hw (by rw [ht]; rfl))
  | ask hw ht hwrite =>
      exact absurd (hblocked _) (State.not_blocked_of_asks hw (by rw [ht]; rfl))
  | take hw ht hl =>
      exact absurd (hblocked _) (State.not_blocked_of_acquire hw (by rw [ht]; rfl) hl)
  | pass hw ht hl =>
      exact absurd (hblocked _) (State.not_blocked_of_acquire hw (by rw [ht]; rfl) hl)
  | lock hw ht =>
      exact absurd (hblocked _) (State.not_blocked_of_asks hw (by rw [ht]; rfl))
  | park hw ht =>
      exact absurd (hblocked _) (State.not_blocked_of_asks hw (by rw [ht]; rfl))
  | unlock hb hw ht =>
      exact absurd (hblocked _) (State.not_blocked_of_asks hw (by rw [ht]; rfl))
  | proceed hb hw ht =>
      exact absurd (hblocked _) (State.not_blocked_of_asks hw (by rw [ht]; rfl))
  | drop hb hw hguard hasks =>
      exact absurd (hblocked _) (State.not_blocked_of_asks hw hasks)

theorem deadlocked_forever {s s' : State W} (h : s.deadlocked = true)
    (hrun : Transition.Reachable (step cfg sharding) s s') : s'.deadlocked = true :=
  hrun.invariant h fun _ _ _ => deadlocked_step

/-! ### Who holds which lock -/

/-- Where a task that no worker runs can stand. -/
def Stage.away : Stage → Bool
  | .out | .waiting _ | .locked _ => true
  | _ => false

theorem Stage.guard_wake (stage : Stage) : stage.wake.guard = stage.guard := by
  cases stage <;> rfl

theorem Stage.away_wake {stage : Stage} (h : stage.away = true) : stage.wake.away = true := by
  cases stage with
  | waiting i => rfl
  | _ => exact h

theorem Stage.eq_asking_of_wake {stage : Stage} {i : ℕ} {mode : LockMode}
    (h : stage.wake = .asking i mode) : stage = .asking i mode := by
  cases stage with
  | waiting j => cases h
  | _ => exact h

theorem guard_unlock (s : State W) (session : SessionId) (x : TaskId) :
    ((s.unlock session).stage x).guard = (s.stage x).guard := by
  rcases s.stage_unlock session x with heq | heq
  · rw [heq]
  · rw [heq, Stage.guard_wake]

/-- The guards are those of the stages, and a task that no worker runs is parked, has been woken, or
stands between two sections. -/
structure Guarded (s : State W) : Prop where
  held : ∀ {i t mode}, (s.shards i).Holds t mode → (s.stage t).guard = some (i, mode)
  single : ∀ i, (s.shards i).readers.Nodup
  away : ∀ t, ¬ s.Running t → (s.stage t).away = true

theorem guarded_init : Guarded (init W) where
  held h := absurd h (RwLock.not_holds_free _ _)
  single _ := List.nodup_nil
  away _ _ := rfl

namespace Guarded

/-- A task goes on with the guard it has. -/
theorem setStage {s : State W} (h : Guarded s) {t : TaskId} {stage : Stage}
    (hguard : stage.guard = (s.stage t).guard) (haway : s.Running t ∨ stage.away = true) :
    Guarded (s.setStage t stage) where
  held {i x mode} hx := by
    rw [State.stage_setStage]
    split
    · rename_i hxt
      rw [hguard, ← hxt]
      exact h.held hx
    · exact h.held hx
  single := h.single
  away x hx := by
    rw [State.stage_setStage]
    split
    · rename_i hxt
      exact haway.resolve_left fun ht => hx (hxt ▸ ht)
    · exact h.away x hx

/-- A task drops the guard it has. -/
theorem drop {s : State W} (h : Guarded s) {t : TaskId} {i : ℕ} {mode : LockMode}
    (hguard : (s.stage t).guard = some (i, mode)) :
    Guarded ((s.release i t mode).setStage t .out) where
  held {j x mode'} hx := by
    rw [State.shards_setStage, State.shards_release] at hx
    have hold : (s.shards j).Holds x mode' := by
      split at hx
      · rename_i hj
        rw [hj]
        exact RwLock.holds_of_release hx
      · exact hx
    have hxt : x ≠ t := by
      rintro rfl
      have heq : some (i, mode) = some (j, mode') := hguard.symm.trans (h.held hold)
      obtain ⟨rfl, rfl⟩ := Prod.mk.inj (Option.some.inj heq)
      rw [if_pos rfl] at hx
      exact RwLock.not_holds_release (h.single i) x mode hx
    rw [State.stage_setStage, if_neg hxt]
    exact h.held hold
  single j := by
    rw [State.shards_setStage, State.shards_release]
    split
    · exact RwLock.nodup_release (h.single i) t mode
    · exact h.single j
  away x hx := by
    rw [State.stage_setStage]
    split
    · rfl
    · exact h.away x hx

/-- A task without a guard holds no lock. -/
theorem not_holds {s : State W} (h : Guarded s) {t : TaskId} (hguard : (s.stage t).guard = none)
    {i : ℕ} {mode : LockMode} : ¬ (s.shards i).Holds t mode := by
  intro hold
  cases hguard.symm.trans (h.held hold)

/-- A task gets the guard it asks for. -/
theorem take {s : State W} (h : Guarded s) {t : TaskId} {i : ℕ} {mode : LockMode}
    {l : RwLock TaskId} (hguard : (s.stage t).guard = none) (hrunning : s.Running t)
    (hl : (s.shards i).acquire t mode = some l) :
    Guarded ((s.setShard i l).setStage t (.holding i mode)) where
  held {j x mode'} hx := by
    rw [State.shards_setStage, State.shards_setShard] at hx
    rw [State.stage_setStage, State.stage_setShard]
    have hcases : (s.shards j).Holds x mode' ∨ (j = i ∧ x = t ∧ mode' = mode) := by
      split at hx
      · rename_i hj
        rw [hj]
        exact (RwLock.holds_of_acquire hl hx).imp_right fun hnew => ⟨rfl, hnew⟩
      · exact Or.inl hx
    rcases hcases with hold | ⟨rfl, rfl, rfl⟩
    · rw [if_neg fun hxt => h.not_holds hguard (hxt ▸ hold)]
      exact h.held hold
    · rw [if_pos rfl]
      rfl
  single j := by
    rw [State.shards_setStage, State.shards_setShard]
    split
    · exact RwLock.nodup_acquire (h.single i) (h.not_holds hguard) hl
    · exact h.single j
  away x hx := by
    have hxt : x ≠ t := fun hxt => hx (hxt ▸ hrunning)
    rw [State.stage_setStage, if_neg hxt]
    exact h.away x hx

/-- A worker takes up a task, or leaves one. -/
theorem assign {s : State W} (h : Guarded s) {w : Fin W} {o : Option TaskId}
    (haway : ∀ t, s.workers w = some t → (s.stage t).away = true) : Guarded (s.assign w o) where
  held := h.held
  single := h.single
  away x hx := by
    by_cases hrunning : s.Running x
    · obtain ⟨v, hv⟩ := hrunning
      have hvw : v = w := by
        by_contra hne
        refine hx ⟨v, ?_⟩
        rw [State.workers_assign, if_neg hne, hv]
      exact haway x (hvw ▸ hv)
    · exact h.away x hrunning

theorem setMutex {s : State W} (h : Guarded s) (session : SessionId) (m : Mutex TaskId) :
    Guarded (s.setMutex session m) := ⟨h.held, h.single, h.away⟩

theorem setBase {s : State W} (h : Guarded s) (b : UsageBatch.State) :
    Guarded { s with base := b } := ⟨h.held, h.single, h.away⟩

theorem unlock {s : State W} (h : Guarded s) (session : SessionId) :
    Guarded (s.unlock session) := by
  rw [State.unlock]
  split
  · exact h.setMutex session _
  · rename_i m u hm
    refine (h.setMutex session m).setStage (Stage.guard_wake _) ?_
    by_cases hu : s.Running u
    · exact Or.inl hu
    · exact Or.inr (Stage.away_wake (h.away u hu))

end Guarded

/-- The locks and the workers stay in order. -/
theorem Guarded.step {s s' : State W} {act : Action W} (h : Guarded s)
    (hstep : Executor.step cfg sharding s act = some s') : Guarded s' := by
  cases change_of_step hstep with
  | base hb => exact h.setBase _
  | schedule hw ht =>
      refine h.assign fun t ht' => ?_
      rw [hw] at ht'
      cases ht'
  | leave hw ht =>
      refine h.assign fun t' ht' => ?_
      obtain rfl := Option.some.inj (hw.symm.trans ht')
      rw [ht]
      rfl
  | ask hw ht hwrite => exact h.setStage (by rw [ht]; rfl) (Or.inl ⟨_, hw⟩)
  | take hw ht hl => exact h.take (by rw [ht]; rfl) ⟨_, hw⟩ hl
  | @pass w t i l hw ht hl =>
      have hdrop : Guarded ((s.release i t .read).setStage t .out) := h.drop (by rw [ht]; rfl)
      have hl' : (((s.release i t .read).setStage t .out).shards (i + 1)).acquire t .read =
          some l := by
        rw [State.shards_setStage, State.shards_release, if_neg (Nat.succ_ne_self i), hl]
      have hout : (((s.release i t .read).setStage t .out).stage t).guard = none := by
        rw [State.stage_setStage, if_pos rfl]
        rfl
      have htake := hdrop.take hout ⟨w, hw⟩ hl'
      have heq : (((s.release i t .read).setStage t .out).setShard (i + 1) l).setStage t
          (.holding (i + 1) .read) =
          ((s.release i t .read).setShard (i + 1) l).setStage t (.holding (i + 1) .read) := by
        simp only [State.setStage, State.setShard, Function.update_idem]
      rwa [heq] at htake
  | lock hw ht =>
      exact (h.setMutex _ _).setStage (by rw [State.stage_setMutex, ht]; rfl) (Or.inl ⟨_, hw⟩)
  | @park w t i session m hw ht =>
      have hstage : Guarded ((s.setMutex session m).setStage t (.waiting i)) :=
        (h.setMutex session m).setStage (by rw [State.stage_setMutex, ht]; rfl) (Or.inl ⟨w, hw⟩)
      refine hstage.assign fun t' ht' => ?_
      obtain rfl := Option.some.inj (hw.symm.trans ht')
      rw [State.stage_setStage, if_pos rfl]
      rfl
  | @unlock w t i session act' b hb hw ht =>
      refine ((h.setBase b).unlock session).setStage ?_ (Or.inl ⟨w, ?_⟩)
      · rw [guard_unlock]
        change _ = (s.stage t).guard
        rw [ht]
        rfl
      · rw [State.workers_unlock]
        exact hw
  | @proceed act w t i act' b hb hw ht =>
      have hguard : (Stage.passing i).guard = (s.stage t).guard := by
        rw [ht]
        rfl
      exact (h.setBase b).setStage hguard (Or.inl ⟨w, hw⟩)
  | drop hb hw hguard hasks => exact (h.setBase _).drop hguard

/-! ### Runs without deadlock -/

/-- The worker waits for a shard it asks for writing. -/
def State.Writes (s : State W) (w : Fin W) (i : ℕ) : Prop :=
  ∃ t, s.workers w = some t ∧ s.stage t = .asking i .write

/-- Among the workers that wait for a shard for writing, the one that came last waits for no task
off the workers.  The rank is the order of their coming: when a task off the workers holds what a
worker waits for, then some worker came later or has not come yet, the one the task ran on. -/
def Ranked (s : State W) : Prop :=
  ∃ rank : Fin W → ℕ, ∀ w i x mode, s.Writes w i → ¬ s.Running x → (s.shards i).Holds x mode →
    ∃ v, (∀ j, ¬ s.Writes v j) ∨ rank w < rank v

theorem ranked_init : Ranked (init W) := by
  refine ⟨fun _ => 0, fun w i x mode _ _ hold => ?_⟩
  exact absurd hold (RwLock.not_holds_free _ _)

/-- No worker begins to wait, and no task off the workers comes to hold a shard. -/
structure Calmer (s s' : State W) : Prop where
  writes : ∀ {w i}, s'.Writes w i → s.Writes w i
  holds : ∀ {i x mode}, ¬ s'.Running x → (s'.shards i).Holds x mode →
    ¬ s.Running x ∧ (s.shards i).Holds x mode

theorem Ranked.calm {s s' : State W} (h : Ranked s) (hcalm : Calmer s s') : Ranked s' := by
  obtain ⟨rank, hrank⟩ := h
  refine ⟨rank, fun w i x mode hw hx hold => ?_⟩
  obtain ⟨hx', hold'⟩ := hcalm.holds hx hold
  obtain ⟨v, hv⟩ := hrank w i x mode (hcalm.writes hw) hx' hold'
  exact ⟨v, hv.imp_left fun hnot j hj => hnot j (hcalm.writes hj)⟩

namespace Calmer

theorem trans {s₁ s₂ s₃ : State W} (h : Calmer s₁ s₂) (h' : Calmer s₂ s₃) : Calmer s₁ s₃ where
  writes hw := h.writes (h'.writes hw)
  holds hx hold := by
    obtain ⟨hx', hold'⟩ := h'.holds hx hold
    exact h.holds hx' hold'

/-- A task that does not ask for a shard for writing is no new one that waits. -/
theorem setStage {s : State W} {t : TaskId} {stage : Stage} (h : ∀ i, stage ≠ .asking i .write) :
    Calmer s (s.setStage t stage) where
  writes {w i} := by
    rintro ⟨x, hw, hx⟩
    rw [State.stage_setStage] at hx
    split at hx
    · exact absurd hx (h i)
    · exact ⟨x, hw, hx⟩
  holds hx hold := ⟨hx, hold⟩

theorem setBase (s : State W) (b : UsageBatch.State) : Calmer s { s with base := b } :=
  ⟨fun hw => hw, fun hx hold => ⟨hx, hold⟩⟩

theorem setMutex (s : State W) (session : SessionId) (m : Mutex TaskId) :
    Calmer s (s.setMutex session m) := ⟨fun hw => hw, fun hx hold => ⟨hx, hold⟩⟩

theorem unlock (s : State W) (session : SessionId) : Calmer s (s.unlock session) where
  writes {w i} := by
    rintro ⟨x, hw, hx⟩
    rw [State.workers_unlock] at hw
    refine ⟨x, hw, ?_⟩
    rcases s.stage_unlock session x with heq | heq
    · rw [← heq, hx]
    · exact Stage.eq_asking_of_wake (heq.symm.trans hx)
  holds {i x mode} hx hold := by
    rw [State.shards_unlock] at hold
    refine ⟨fun hrunning => hx ?_, hold⟩
    obtain ⟨v, hv⟩ := hrunning
    exact ⟨v, by rw [State.workers_unlock, hv]⟩

/-- A shard goes to a task that runs. -/
theorem acquire {s : State W} {t : TaskId} {i : ℕ} {mode : LockMode} {l : RwLock TaskId}
    (hrunning : s.Running t) (hl : (s.shards i).acquire t mode = some l) :
    Calmer s (s.setShard i l) where
  writes hw := hw
  holds {j x mode'} hx hold := by
    refine ⟨hx, ?_⟩
    rw [State.shards_setShard] at hold
    split at hold
    · rename_i hj
      rw [hj]
      refine (RwLock.holds_of_acquire hl hold).resolve_right fun hnew => hx ?_
      rw [hnew.1]
      exact hrunning
    · exact hold

theorem release (s : State W) (i : ℕ) (t : TaskId) (mode : LockMode) :
    Calmer s (s.release i t mode) where
  writes hw := hw
  holds {j x mode'} hx hold := by
    refine ⟨hx, ?_⟩
    rw [State.shards_release] at hold
    split at hold
    · rename_i hj
      rw [hj]
      exact RwLock.holds_of_release hold
    · exact hold

/-- A worker takes up a task that does not ask for a shard. -/
theorem schedule {s : State W} {w : Fin W} {t : TaskId} (hw : s.workers w = none)
    (ht : ∀ i, s.stage t ≠ .asking i .write) : Calmer s (s.assign w (some t)) where
  writes {v i} := by
    rintro ⟨x, hv, hx⟩
    rw [State.workers_assign] at hv
    split at hv
    · obtain rfl := Option.some.inj hv
      exact absurd hx (ht i)
    · exact ⟨x, hv, hx⟩
  holds {i x mode} hx hold := by
    refine ⟨fun hrunning => hx ?_, hold⟩
    obtain ⟨v, hv⟩ := hrunning
    refine ⟨v, ?_⟩
    rw [State.workers_assign, if_neg, hv]
    rintro rfl
    cases hw.symm.trans hv

/-- A worker leaves a task that holds nothing. -/
theorem leave {s : State W} {w : Fin W} {t : TaskId} (hw : s.workers w = some t)
    (ht : ∀ i mode, ¬ (s.shards i).Holds t mode) : Calmer s (s.assign w none) where
  writes {v i} := by
    rintro ⟨x, hv, hx⟩
    rw [State.workers_assign] at hv
    split at hv
    · cases hv
    · exact ⟨x, hv, hx⟩
  holds {i x mode} hx hold := by
    refine ⟨?_, hold⟩
    rintro ⟨v, hv⟩
    by_cases hvw : v = w
    · rw [hvw, hw] at hv
      exact ht i mode (Option.some.inj hv ▸ hold)
    · exact hx ⟨v, by rw [State.workers_assign, if_neg hvw, hv]⟩

end Calmer

/-- While a worker is idle, nothing has to be shown. -/
theorem ranked_of_idle {s : State W} {w : Fin W} (hw : s.workers w = none) : Ranked s := by
  refine ⟨fun _ => 0, fun _ _ _ _ _ _ _ => ⟨w, Or.inl fun j => ?_⟩⟩
  rintro ⟨t, ht, -⟩
  cases hw.symm.trans ht

/-- A worker that begins to wait is the last to come. -/
theorem Ranked.ask {s : State W} (h : Ranked s) {t : TaskId} {i : ℕ}
    (hclear : ∀ x mode, (s.shards i).Holds x mode → s.Running x) :
    Ranked (s.setStage t (.asking i .write)) := by
  obtain ⟨rank, hrank⟩ := h
  have hle : ∀ w, rank w < Finset.univ.sup rank + 1 := fun w =>
    Nat.lt_succ_of_le (Finset.le_sup (Finset.mem_univ w))
  -- a worker that does not run the task waits as before
  have hwrites : ∀ {w j}, s.workers w ≠ some t →
      (s.setStage t (.asking i .write)).Writes w j → s.Writes w j := by
    rintro w j hwt ⟨x, hw, hx⟩
    have hxt : x ≠ t := fun hxt => hwt (hw.trans (congrArg some hxt))
    rw [State.stage_setStage, if_neg hxt] at hx
    exact ⟨x, hw, hx⟩
  refine ⟨fun w => if s.workers w = some t then Finset.univ.sup rank + 1 else rank w,
    fun w j x mode hw hx hold => ?_⟩
  by_cases hwt : s.workers w = some t
  · obtain ⟨y, hy, hstage⟩ := hw
    obtain rfl : t = y := Option.some.inj (hwt.symm.trans hy)
    rw [State.stage_setStage, if_pos rfl] at hstage
    obtain ⟨rfl, -⟩ := Stage.asking.inj hstage
    exact absurd (hclear x mode hold) hx
  · obtain ⟨v, hv⟩ := hrank w j x mode (hwrites hwt hw) hx hold
    refine ⟨v, ?_⟩
    dsimp only
    rw [if_neg hwt]
    by_cases hvt : s.workers v = some t
    · rw [if_pos hvt]
      exact Or.inr (hle w)
    · rw [if_neg hvt]
      exact hv.imp_left fun hnot j hj => hnot j (hwrites hvt hj)

/-- What a clear step has shown when a task asks for a shard for writing. -/
theorem running_of_clear {s : State W} {w : Fin W} {i : ℕ}
    (hclear : clear sharding s (.run w) = true) (hw : s.aboutToWrite sharding w = some i)
    {x : TaskId} {mode : LockMode} (hold : (s.shards i).Holds x mode) : s.Running x := by
  rw [clear, hw] at hclear
  have hx := List.all_eq_true.1 hclear x (RwLock.mem_holders.2 ⟨mode, hold⟩)
  exact of_decide_eq_true hx

theorem Ranked.step {s s' : State W} {act : Action W} (h : Ranked s) (hguarded : Guarded s)
    (hclear : clear sharding s act = true)
    (hstep : Executor.step cfg sharding s act = some s') : Ranked s' := by
  cases change_of_step hstep with
  | base hb => exact h.calm (Calmer.setBase s _)
  | @schedule w t hw ht =>
      refine h.calm (Calmer.schedule hw fun i hi => ?_)
      have haway := hguarded.away t ht
      rw [hi] at haway
      cases haway
  | leave hw ht =>
      exact h.calm (Calmer.leave hw fun i mode => hguarded.not_holds (by rw [ht]; rfl))
  | @ask w t i mode hw ht hwrite =>
      cases mode with
      | read => exact h.calm (Calmer.setStage fun j hj => (by cases hj))
      | write => exact h.ask fun x mode hold => running_of_clear hclear (hwrite rfl) hold
  | take hw ht hl =>
      exact h.calm ((Calmer.acquire ⟨_, hw⟩ hl).trans
        (Calmer.setStage fun j hj => (by cases hj)))
  | @pass w t i l hw ht hl =>
      have hl' : ((s.release i t .read).shards (i + 1)).acquire t .read = some l := by
        rw [State.shards_release, if_neg (Nat.succ_ne_self i), hl]
      have hacquire : Calmer (s.release i t .read) ((s.release i t .read).setShard (i + 1) l) :=
        Calmer.acquire ⟨w, hw⟩ hl'
      exact h.calm ((Calmer.release s i t .read).trans (hacquire.trans
        (Calmer.setStage fun j hj => (by cases hj))))
  | lock hw ht =>
      exact h.calm ((Calmer.setMutex s _ _).trans (Calmer.setStage fun j hj => (by cases hj)))
  | @park w t i session m hw ht =>
      exact ranked_of_idle (w := w) (by rw [State.workers_assign, if_pos rfl])
  | unlock hb hw ht =>
      exact h.calm ((Calmer.setBase s _).trans ((Calmer.unlock _ _).trans
        (Calmer.setStage fun j hj => (by cases hj))))
  | proceed hb hw ht =>
      exact h.calm ((Calmer.setBase s _).trans (Calmer.setStage fun j hj => (by cases hj)))
  | drop hb hw hguard hasks =>
      exact h.calm ((Calmer.setBase s _).trans ((Calmer.release _ _ _ _).trans
        (Calmer.setStage fun j hj => (by cases hj))))

/-- A task off the workers that holds a shard holds it for reading, so whoever is blocked by it
asks for writing. -/
theorem writes_of_blocked {s : State W} (h : Guarded s) {w : Fin W} (hw : s.blocked w = true) :
    ∃ i x mode, s.Writes w i ∧ ¬ s.Running x ∧ (s.shards i).Holds x mode := by
  obtain ⟨t, i, mode, ht, hasks, hnone, x, mode', hold, hx⟩ := State.blocked_iff.1 hw
  refine ⟨i, x, mode', ⟨t, ht, ?_⟩, hx, hold⟩
  have hmode : mode = .write := by
    cases mode with
    | write => rfl
    | read =>
        obtain ⟨y, hy⟩ := RwLock.exists_writer_of_acquire_eq_none hnone
        obtain ⟨rfl, rfl⟩ := hy.alone hold
        have haway := h.away x hx
        have hguard := h.held hold
        cases hstage : s.stage x with
        | holding j mode =>
            rw [hstage] at haway
            cases haway
        | _ =>
            rw [hstage] at hguard
            cases hguard
  rw [hmode] at hasks
  cases hstage : s.stage t with
  | asking j mode₁ =>
      rw [hstage] at hasks
      obtain ⟨rfl, rfl⟩ := Prod.mk.inj (Option.some.inj hasks)
      rfl
  | _ =>
      rw [hstage] at hasks
      cases hasks

/-- Somebody came last. -/
theorem not_deadlocked_of_ranked {s : State W} (hW : 0 < W) (hguarded : Guarded s)
    (h : Ranked s) : s.deadlocked ≠ true := by
  intro hdead
  have hblocked := State.deadlocked_iff.1 hdead
  obtain ⟨rank, hrank⟩ := h
  have : Nonempty (Fin W) := ⟨⟨0, hW⟩⟩
  obtain ⟨w, hmax⟩ := Finite.exists_max rank
  obtain ⟨i, x, mode, hw, hx, hold⟩ := writes_of_blocked hguarded (hblocked w)
  obtain ⟨v, hv | hv⟩ := hrank w i x mode hw hx hold
  · obtain ⟨j, -, -, hj, -, -⟩ := writes_of_blocked hguarded (hblocked v)
    exact hv j hj
  · exact absurd hv (Nat.not_lt.2 (hmax v))

/-- **No deadlock in the runs whose steps are all clear**: if no task ever asks for a shard for
writing while a task off the workers holds it, then in no state of the run all workers wait for
shards held by tasks off the workers. -/
theorem noDeadlock_of_clear (hW : 0 < W) {as : List (Action W)}
    (h : Transition.Throughout (step cfg sharding)
      (fun s act _ => clear sharding s act = true) (init W) as) :
    Transition.Always (step cfg sharding) (fun s => s.deadlocked ≠ true) (init W) as := by
  have hinv : Transition.Always (step cfg sharding) (fun s => Guarded s ∧ Ranked s) (init W) as :=
    Transition.always_of_step
      (fun s act s' hs hstep hclear => ⟨hs.1.step hstep, hs.2.step hs.1 hclear hstep⟩)
      ⟨guarded_init, ranked_init⟩ h
  exact hinv.mono fun s hs => not_deadlocked_of_ranked hW hs.1 hs.2

/-- The chain knows the sessions. -/
def found : Option UsageBatch.ChainSession := some ⟨0, 0⟩

/-- Of two workers, the one is in the section of session 1, the other has parked a task on its
mutex, and sessions 2 and 3 are about to be created in the same shard. -/
def contention : List (Action 2) :=
  [.call (.ensureSession 1), .schedule 0 0, .run 0, .run 0, .run 0, .leave 0, .answer 0 found,
    .schedule 0 0, .run 0, .run 0, .run 0, .leave 0,
    .call (.ensureSession 2), .schedule 0 1, .run 0, .run 0, .run 0, .leave 0, .answer 1 found,
    .call (.ensureSession 3), .schedule 0 2, .run 0, .run 0, .run 0, .leave 0, .answer 2 found,
    .call (.addUsage 1 1 1), .schedule 0 3, .run 0, .run 0, .run 0, .run 0, .run 0, .run 0,
    .call (.addUsage 1 1 1), .schedule 1 4, .run 1, .run 1, .run 1, .run 1, .run 1, .run 1]

/-- The free worker creates session 2 while the parked task has the shard; the other hands the mutex
over and creates session 3. -/
def creations : List (Action 2) :=
  [.schedule 1 1, .run 1, .run 0, .run 0, .leave 0, .schedule 0 2, .run 0]

/-- The parked task is taken up again first. -/
def patience : List (Action 2) :=
  [.run 0, .run 0, .leave 0, .schedule 1 4, .schedule 0 1, .run 1, .run 1, .run 0, .run 0, .run 0,
    .leave 0, .leave 1]

/-- A run in which a task parks and a session is created. -/
theorem noDeadlock_patience :
    Transition.Always (step sampleConfig sampleSharding) (fun s => s.deadlocked ≠ true) (init 2)
      (contention ++ patience) :=
  noDeadlock_of_clear (by decide) (Transition.throughout_of_check (by decide +kernel))

/-- **The batcher can deadlock**: two workers wait for the shard of a task that was handed the
mutex of its session and that no worker is left to take up. -/
theorem deadlock_breaks :
    ¬ ∀ (W : ℕ) (cfg : SettlementConfig) (sharding : Sharding SessionId) (s : State W), 0 < W →
      Transition.Reachable (step cfg sharding) (init W) s → s.deadlocked ≠ true := by
  intro hall
  obtain ⟨s, hrun, hdead⟩ : ∃ s, Transition.run (step sampleConfig sampleSharding) (init 2)
      (contention ++ creations) = some s ∧ s.deadlocked = true :=
    (Option.any_eq_true _ _).1 (by decide +kernel)
  exact hall 2 sampleConfig sampleSharding s (by decide) ⟨_, hrun⟩ hdead

end Executor
