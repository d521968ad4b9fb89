/-
**The size of a batch and the sweeper.**

`add_usage` decides under the lock of the batch whether to flush, and flushes after it has released
the lock.  In between, and for as long as its flush takes to come to its own section, the pending
total may stand above the chunk size and go on growing; and `flush_session` checks the threshold
once more, so that a flush which comes too late does nothing.  What holds is that a total at the
chunk size is owed: some `add_usage` of the session is on its way to a flush, and when that flush
does nothing, another one has been there first.

The sweeper collects the ids of all sessions, shard after shard, and then reads one batch after the
other.  A session with pending tokens at the start of a pass has its entry found and its batch read;
when the batch is overdue then, either another flush has taken the tokens meanwhile, or the sweeper
forces one.

Main definitions:

* `UsageBatch.BelowChunk`, `UsageBatch.SweepTakes` — the two guarantees;
* `UsageBatch.Pc.Owes` — the task has a flush of the session ahead;
* `UsageBatch.Pc.Ahead` — the sweeper has the session ahead.

Main results:

* `UsageBatch.next_of_step` — **every step of a task is one of the listed ones**;
* `UsageBatch.Owed.step` — **a total at the chunk size is owed by an `add_usage`**;
* `UsageBatch.exists_read`, `UsageBatch.taken_of_owes` — a pass reads every session, and a forced
  flush that is ahead takes what is pending;
* `UsageBatch.bounded_of_run` — **both guarantees, in every run without `remove_session`**.
-/

import SparklRouter.Consumer.UsageConservation
import SparklRouter.Consumer.UsageUnread
import SparklRouter.Consumer.UsageShutdown

set_option relaxedAutoImplicit false
set_option autoImplicit false

namespace UsageBatch

open Chain TaskPool Transition
open Shutdown (actor task_of_step)

variable {cfg : SettlementConfig} {sharding : Sharding SessionId}

/-! ### The guarantees -/

/-- **The pending total of a session is below the chunk size whenever no `add_usage` of the session
is in progress.** -/
def BelowChunk (cfg : SettlementConfig) (h : Followed) : Prop :=
  ∀ session b, h.state.sessions.get session = some b →
    (∀ (t : TaskId) (input output : UInt64), h.calls[t]? = some (.addUsage session input output) →
      h.state.tasks[t]? = some .finished) →
    b.pendingTotal < cfg.chunk

/-- Since the log had the length `n`, a flush has taken the tokens from the batch of the session. -/
def TakenSince (s : State) (n : ℕ) (session : SessionId) (input output : UInt64) : Prop :=
  ∃ since rest ticket batch, s.log = since ++ rest ∧ rest.length = n ∧
    .took ticket batch ∈ since ∧ batch.sessionId = session ∧
      input ≤ batch.inputDelta ∧ output ≤ batch.outputDelta

/-- The part of the schedule after which the sweep of the task `t` reads the session in the state
`s`, at its next step. -/
structure Reads (cfg : SettlementConfig) (sharding : Sharding SessionId) (s₀ : State) (t : TaskId)
    (session : SessionId) (as : List Action) (s : State) (b : SessionBatch) : Prop where
  reached : ∃ bs, bs ++ [.step t] <+: as ∧ run (step cfg sharding) s₀ bs = some s
  reads : ∃ rest, s.tasks[t]? = some (.looping .sweep (session :: rest))
  batch : s.sessions.get session = some b

/-- **A pass of the sweeper**, from its call in the state `s₀` to a state in which it has returned:
every session with pending tokens at its start is read, and if its last flush was the flush interval
before that, these tokens have been taken. -/
def SweepTakes (cfg : SettlementConfig) (sharding : Sharding SessionId) (as : List Action) : Prop :=
  ∀ (as₁ as₂ : List Action) (s₀ s₂ : State), as = as₁ ++ .call .sweepTimeouts :: as₂ →
    run (step cfg sharding) init as₁ = some s₀ → run (step cfg sharding) init as = some s₂ →
    s₂.tasks[s₀.tasks.length]? = some .finished →
    ∀ session b₀, s₀.sessions.get session = some b₀ → 0 < b₀.pendingTotal →
      (∃ s b, Reads cfg sharding s₀ s₀.tasks.length session (.call .sweepTimeouts :: as₂) s b) ∧
      ∀ s b, Reads cfg sharding s₀ s₀.tasks.length session (.call .sweepTimeouts :: as₂) s b →
        cfg.flushInterval ≤ b.elapsed s.now →
          TakenSince s₂ s₀.log.length session b₀.pendingInput b₀.pendingOutput

/-! ### What a step does to its task -/

section

variable {s s' : State} {t : TaskId} {pc : Pc} {act : Action}

/-- **Every step of a task is one of the listed ones.** -/
theorem next_of_step (ht : s.tasks[t]? = some pc) (hact : actor act = some t)
    (h : step cfg sharding s act = some s') :
    ∃ pc', s'.tasks[t]? = some pc' ∧ Next sharding s pc pc' := by
  obtain ⟨pc', htasks, hnext⟩ : ∃ pc', s'.tasks = s.tasks.set t pc' ∧ Next sharding s pc pc' := by
    cases act with
    | call c => cases hact
    | attempt j o => cases hact
    | tick nanos => cases hact
    | step t' =>
        obtain rfl := Option.some.inj hact
        rw [step, ht, Option.bind_some] at h
        exact next_of_advance h
    | answer t' reply =>
        obtain rfl := Option.some.inj hact
        rw [step, ht, Option.bind_some] at h
        cases pc with
        | fetching session k =>
            cases reply with
            | some chain =>
                obtain rfl := Option.some.inj h
                exact ⟨_, rfl, Next.fetched⟩
            | none =>
                obtain rfl := Option.some.inj h
                exact ⟨_, rfl, Next.unfetched⟩
        | refreshing session k =>
            cases reply with
            | some chain =>
                obtain rfl := Option.some.inj h
                exact ⟨_, rfl, Next.refreshed⟩
            | none =>
                obtain rfl := Option.some.inj h
                exact ⟨_, rfl, Next.unrefreshed⟩
        | _ => cases h
    | iterate t' ids =>
        obtain rfl := Option.some.inj hact
        rw [step, ht, Option.bind_some] at h
        cases pc with
        | collecting l i found =>
            simp only at h
            split at h
            · rename_i hids
              obtain rfl := Option.some.inj h
              exact ⟨_, rfl, Next.iterated hids.2.2⟩
            · cases h
        | _ => cases h
  exact ⟨pc', by rw [htasks, getElem?_set_self ht], hnext⟩

/-- The task waits for an answer, or for the keys of a shard. -/
def Pc.waits : Pc → Bool
  | .fetching _ _ | .refreshing _ _ | .collecting _ _ _ => true
  | _ => false

/-- The only step of a task that does not wait is its next. -/
theorem advance_of_step (hwaits : pc.waits = false) (ht : s.tasks[t]? = some pc)
    (hact : actor act = some t) (h : step cfg sharding s act = some s') :
    act = .step t ∧ advance cfg sharding s t pc = some s' := by
  cases act with
  | step t' =>
      obtain rfl := Option.some.inj hact
      refine ⟨rfl, ?_⟩
      rwa [step, ht, Option.bind_some] at h
  | answer t' reply =>
      obtain rfl := Option.some.inj hact
      rw [step, ht, Option.bind_some] at h
      cases pc with
      | fetching session k => cases hwaits
      | refreshing session k => cases hwaits
      | _ => cases h
  | iterate t' ids =>
      obtain rfl := Option.some.inj hact
      rw [step, ht, Option.bind_some] at h
      cases pc with
      | collecting l i found => cases hwaits
      | _ => cases h
  | _ => cases hact

theorem length_of_change {s s' : State} {act : Action} (h : Change cfg s act s')
    (hcall : ∀ c, act ≠ .call c) : s'.tasks.length = s.tasks.length := by
  cases h with
  | call c => exact absurd rfl (hcall c)
  | tick nanos => rfl
  | attempt hsub hattempt => rfl
  | _ => exact List.length_set

/-- Where a task comes from: it is new, or it has stayed where it was or taken a step. -/
theorem task_cases {pc' : Pc} (h : step cfg sharding s act = some s')
    (ht' : s'.tasks[t]? = some pc') :
    (∃ c, act = .call c ∧ t = s.tasks.length ∧ pc' = c.start) ∨
      ∃ pc, s.tasks[t]? = some pc ∧ (pc' = pc ∨ Next sharding s pc pc') := by
  cases hpc : s.tasks[t]? with
  | some pc =>
      refine Or.inr ⟨pc, rfl, ?_⟩
      by_cases hact : actor act = some t
      · obtain ⟨pc'', hpc'', hnext⟩ := next_of_step hpc hact h
        obtain rfl := Option.some.inj (ht'.symm.trans hpc'')
        exact Or.inr hnext
      · exact Or.inl (Option.some.inj (ht'.symm.trans (task_of_step h hact hpc)))
  | none =>
      have hle : s.tasks.length ≤ t := List.getElem?_eq_none_iff.1 hpc
      have hlt : t < s'.tasks.length := (List.getElem?_eq_some_iff.1 ht').1
      by_cases hcall : ∃ c, act = .call c
      · obtain ⟨c, rfl⟩ := hcall
        obtain rfl := Option.some.inj h
        rcases getElem?_append_cases ht' with ⟨rfl, rfl⟩ | hold
        · exact Or.inl ⟨c, rfl, rfl, rfl⟩
        · rw [hpc] at hold
          cases hold
      · have hlength := length_of_change (change_of_step h) fun c hc => hcall ⟨c, hc⟩
        rw [hlength] at hlt
        exact absurd hlt (Nat.not_lt.2 hle)

end

/-! ### A total at the chunk size is owed -/

/-- The task has the section of a flush of the session ahead, a forced one or one that checks the
threshold. -/
def Pc.Owes (force : Bool) (session : SessionId) : Pc → Prop
  | .checking x k | .fetching x k | .creating x _ k =>
      x = session ∧ ∃ awaitChain k', k = .flush force awaitChain k'
  | .flushing x f _ _ => x = session ∧ f = force
  | _ => False

theorem owes_flushSession (force : Bool) (session : SessionId) (awaitChain : Bool) (k : Cont) :
    (UsageBatch.flushSession session force awaitChain k).Owes force session :=
  ⟨rfl, awaitChain, k, rfl⟩

theorem Ensured.owes_resume {k : Ensured} {force : Bool} {x session : SessionId}
    (h : x = session ∧ ∃ awaitChain k', k = .flush force awaitChain k') :
    (k.resume x).Owes force session := by
  obtain ⟨rfl, awaitChain, k', rfl⟩ := h
  exact ⟨rfl, rfl⟩

/-- A flush stays ahead until its section. -/
theorem owes_of_next {s : State} {pc pc' : Pc} {force : Bool} {session : SessionId}
    (hnext : Next sharding s pc pc') (h : pc.Owes force session) :
    pc'.Owes force session ∨ ∃ awaitChain k, pc = .flushing session force awaitChain k := by
  cases hnext with
  | ensured => exact Or.inl (Ensured.owes_resume h)
  | unfetched => exact Or.inl (Ensured.owes_resume h)
  | created => exact Or.inl (Ensured.owes_resume h)
  | fetch => exact Or.inl h
  | fetched => exact Or.inl h
  | taken =>
      obtain ⟨rfl, rfl⟩ := h
      exact Or.inr ⟨_, _, rfl⟩
  | passed =>
      obtain ⟨rfl, rfl⟩ := h
      exact Or.inr ⟨_, _, rfl⟩
  | _ => cases h

/-- An `add_usage` comes to its section from the call. -/
theorem adds_of_next {s : State} {pc pc' : Pc} {session : SessionId} {input output : UInt64}
    (hnext : Next sharding s pc pc') (h : pc'.Adds session input output) :
    pc.Adds session input output := by
  cases hnext with
  | ensured => exact (Ensured.adds_resume ..).1 h
  | unfetched => exact (Ensured.adds_resume ..).1 h
  | created => exact (Ensured.adds_resume ..).1 h
  | fetch => exact h
  | fetched => exact h
  | exceeded => exact absurd h (flushSession_not_adds _ _ _ _ _ _ _)
  | flushes => exact absurd h (flushSession_not_adds _ _ _ _ _ _ _)
  | passed => exact absurd h (Cont.not_adds_resume _ _ _ _ _)
  | unrefreshed => exact absurd h (Cont.not_adds_resume _ _ _ _ _)
  | marked => exact absurd h (Cont.not_adds_resume _ _ _ _ _)
  | _ => cases h

theorem adds_start {c : Call} {session : SessionId} {input output : UInt64}
    (h : c.start.Adds session input output) : c = .addUsage session input output := by
  cases c with
  | addUsage x i o =>
      simp only [Call.start] at h
      split at h
      · cases h
      · obtain ⟨rfl, hk⟩ := h
        cases hk
        rfl
  | ensureSession x => cases h.2
  | flushSession x force awaitChain => cases h.2
  | removeSession x => cases h.2
  | _ => cases h

theorem SessionBatch.pendingTotal_taken (b : SessionBatch) (now : ℕ) :
    (b.taken now).pendingTotal = 0 := rfl

theorem SettlementConfig.chunk_pos (cfg : SettlementConfig) : 0 < cfg.chunk := by
  change 0 < if cfg.recordUsageTokenChunk ≤ 1 then 1 else cfg.recordUsageTokenChunk
  split
  · decide
  · rename_i hlarge
    exact UInt64.lt_trans (by decide) (UInt64.not_le.1 hlarge)

/-- What a batch that its flush passes over holds. -/
theorem SessionBatch.pendingTotal_of_not_flushes {b : SessionBatch} {force : Bool} {now : ℕ}
    (h : b.flushes cfg force now = false) :
    b.pendingTotal = 0 ∨ (force = false ∧ b.pendingTotal < cfg.chunk) := by
  unfold flushes at h
  split at h
  · rename_i hzero
    exact Or.inl hzero
  · split at h
    · cases h
    · rename_i hforce
      split at h
      · rename_i hbelow
        exact Or.inr ⟨eq_false_of_ne_true hforce, hbelow.1⟩
      · cases h

/-- **What the section of a flush leaves**: nothing, or less than the chunk size if it checks the
threshold. -/
theorem pendingTotal_of_flushing {s s' : State} {t : TaskId} {session : SessionId}
    {force awaitChain : Bool} {k : Cont} {b : SessionBatch}
    (h : advance cfg sharding s t (.flushing session force awaitChain k) = some s')
    (hb : s'.sessions.get session = some b) :
    b.pendingTotal = 0 ∨ (force = false ∧ b.pendingTotal < cfg.chunk) := by
  simp only [advance] at h
  split at h
  · rename_i b₀ hb₀
    obtain rfl := Option.some.inj h
    split at hb
    · have hget : some (b₀.taken s.now) = some b := (ShardMap.get_insert_self ..).symm.trans hb
      obtain rfl := Option.some.inj hget
      exact Or.inl (b₀.pendingTotal_taken s.now)
    · rename_i hflushes
      obtain rfl := Option.some.inj (hb₀.symm.trans hb)
      exact SessionBatch.pendingTotal_of_not_flushes (eq_false_of_ne_true hflushes)
  · rename_i hnone
    obtain rfl := Option.some.inj h
    have hget : s.sessions.get session = some b := hb
    rw [hnone] at hget
    cases hget

/-- A total at the chunk size was there before the step, or its `add_usage` goes on to a flush. -/
theorem chunk_of_change {s s' : State} {act : Action} (h : Change cfg s act s')
    {session : SessionId} {b : SessionBatch} (hb : s'.sessions.get session = some b)
    (hchunk : cfg.chunk ≤ b.pendingTotal) :
    (∃ b₀, s.sessions.get session = some b₀ ∧ cfg.chunk ≤ b₀.pendingTotal) ∨
      ∃ (t : TaskId) (input output : UInt64), act = .step t ∧
        s.tasks[t]? = some (.accumulating session input output) ∧
          s'.tasks[t]? = some (flushSession session false false .done) := by
  -- the batch that the step puts into the map, if it is the one of the session
  have hput : ∀ {session' : SessionId} {b' : SessionBatch},
      (s.sessions.insert session' b').get session = some b →
        (session = session' ∧ b' = b) ∨ s.sessions.get session = some b := by
    intro session' b' hget
    rcases eq_or_ne session session' with rfl | hid
    · rw [ShardMap.get_insert_self] at hget
      exact Or.inl ⟨rfl, Option.some.inj hget⟩
    · exact Or.inr ((ShardMap.get_insert_of_ne _ _ hid).symm.trans hget)
  have hpos := cfg.chunk_pos
  cases h with
  | create ht hnew =>
      rcases hput hb with ⟨rfl, rfl⟩ | hold
      · exact absurd (lt_of_lt_of_le hpos hchunk) (lt_irrefl 0)
      · exact Or.inl ⟨b, hold, hchunk⟩
  | @accumulate t session' input output b₀ ht hb₀ =>
      rcases hput hb with ⟨rfl, rfl⟩ | hold
      · refine Or.inr ⟨t, input, output, rfl, ht, ?_⟩
        change (s.tasks.set t (if cfg.chunk ≤ (b₀.accumulate input output s.now).pendingTotal
          then flushSession session false false .done else .finished))[t]? = _
        rw [if_pos hchunk, getElem?_set_self ht]
      · exact Or.inl ⟨b, hold, hchunk⟩
  | @take t session' force awaitChain k b₀ ht hb₀ hflushes =>
      rcases hput hb with ⟨rfl, rfl⟩ | hold
      · exact absurd (lt_of_lt_of_le hpos hchunk) (lt_irrefl 0)
      · exact Or.inl ⟨b, hold, hchunk⟩
  | @mark t session' chain k b₀ ht hb₀ =>
      rcases hput hb with ⟨rfl, rfl⟩ | hold
      · exact Or.inl ⟨b₀, hb₀, hchunk⟩
      · exact Or.inl ⟨b, hold, hchunk⟩
  | remove ht hb₀ => exact Or.inl ⟨b, (ShardMap.get_of_get_remove hb).2, hchunk⟩
  | _ => exact Or.inl ⟨b, hb, hchunk⟩

/-- **The invariant**: the tasks on their way to a section of `add_usage` are those of the calls,
and for a total at the chunk size some `add_usage` of the session has a flush ahead. -/
structure Owed (cfg : SettlementConfig) (h : Followed) : Prop where
  calls : h.calls.length = h.state.tasks.length
  adds : ∀ (t : TaskId) (pc : Pc) (session : SessionId) (input output : UInt64),
    h.state.tasks[t]? = some pc → pc.Adds session input output →
      h.calls[t]? = some (.addUsage session input output)
  owed : ∀ session b, h.state.sessions.get session = some b → cfg.chunk ≤ b.pendingTotal →
    ∃ (t : TaskId) (input output : UInt64) (pc : Pc),
      h.calls[t]? = some (.addUsage session input output) ∧ h.state.tasks[t]? = some pc ∧
        pc.Owes false session

theorem owed_init : Owed cfg Followed.init where
  calls := rfl
  adds t pc session input output h := by cases h
  owed session b h := by cases h

theorem Owed.belowChunk {h : Followed} (howed : Owed cfg h) : BelowChunk cfg h := by
  intro session b hb hfinished
  by_contra hchunk
  obtain ⟨t, input, output, pc, hcall, hpc, howes⟩ :=
    howed.owed session b hb (UInt64.not_lt.1 hchunk)
  obtain rfl := Option.some.inj (hpc.symm.trans (hfinished t input output hcall))
  cases howes

/-- The calls of the tasks so far stay. -/
theorem Followed.calls_next (h : Followed) (s' : State) (act : Action) :
    ∃ new, (h.next s' act).calls = h.calls ++ new := by
  cases act with
  | call c => exact ⟨[c], rfl⟩
  | _ => exact ⟨[], (List.append_nil _).symm⟩

/-- **Every step keeps it.**  The section of the flush that was owed leaves less than the chunk
size. -/
theorem Owed.step {h h' : Followed} {act : Action} (howed : Owed cfg h)
    (hfollow : follow cfg sharding h act = some h') : Owed cfg h' := by
  obtain ⟨s', hstep, rfl⟩ := Option.map_eq_some_iff.1 hfollow
  have hchange := change_of_step hstep
  obtain ⟨new, hnew⟩ := h.calls_next s' act
  have hcalls : ∀ {t : TaskId} {c : Call}, h.calls[t]? = some c →
      (h.next s' act).calls[t]? = some c := fun hc => by
    rw [hnew]
    exact getElem?_append_of hc
  refine ⟨?_, ?_, ?_⟩
  · rw [Followed.state_next]
    cases act with
    | call c =>
        obtain rfl := Option.some.inj hstep
        change (h.calls ++ [c]).length = (h.state.tasks ++ [c.start]).length
        rw [List.length_append, List.length_append, howed.calls, List.length_singleton,
          List.length_singleton]
    | _ => exact howed.calls.trans (length_of_change hchange nofun).symm
  · rw [Followed.state_next]
    intro t pc' session input output hpc' hadds
    rcases task_cases hstep hpc' with ⟨c, rfl, rfl, rfl⟩ | ⟨pc, hpc, hmoved⟩
    · obtain rfl := adds_start hadds
      change (h.calls ++ [_])[h.state.tasks.length]? = _
      rw [← howed.calls, List.getElem?_concat_length]
    · refine hcalls (howed.adds t pc session input output hpc ?_)
      rcases hmoved with rfl | hnext
      · exact hadds
      · exact adds_of_next hnext hadds
  · rw [Followed.state_next]
    intro session b hb hchunk
    rcases chunk_of_change hchange hb hchunk with ⟨b₀, hb₀, hold⟩ | ⟨t, i, o, rfl, hpc, hpc'⟩
    · obtain ⟨t, input, output, pc, hcall, hpc, howes⟩ := howed.owed session b₀ hb₀ hold
      by_cases hact : actor act = some t
      · obtain ⟨pc', hpc', hnext⟩ := next_of_step hpc hact hstep
        rcases owes_of_next hnext howes with hstill | ⟨awaitChain, k, rfl⟩
        · exact ⟨t, input, output, pc', hcalls hcall, hpc', hstill⟩
        · -- the section of the flush, after which the total is below the chunk size
          obtain ⟨-, hadvance⟩ := advance_of_step rfl hpc hact hstep
          have hpos := cfg.chunk_pos
          rcases pendingTotal_of_flushing hadvance hb with hzero | ⟨-, hbelow⟩
          · rw [hzero] at hchunk
            exact absurd (lt_of_lt_of_le hpos hchunk) (lt_irrefl 0)
          · exact absurd hchunk (UInt64.not_le.2 hbelow)
      · exact ⟨t, input, output, pc, hcalls hcall, task_of_step hstep hact hpc, howes⟩
    · have hcall := howed.adds t _ session i o hpc ⟨rfl, rfl, rfl⟩
      exact ⟨t, i, o, _, hcalls hcall, hpc', owes_flushSession ..⟩

/-! ### Sessions stay -/

/-- A task that removes no session goes on removing none. -/
theorem removes_of_next {s : State} {pc pc' : Pc} (hnext : Next sharding s pc pc')
    (h : pc.removes = false) : pc'.removes = false := by
  cases hnext with
  | ensured => rwa [Ensured.removes_resume]
  | unfetched => rwa [Ensured.removes_resume]
  | created => rwa [Ensured.removes_resume]
  | passed => rwa [Cont.removes_resume]
  | unrefreshed => rwa [Cont.removes_resume]
  | marked => rwa [Cont.removes_resume]
  | removed => cases h
  | exceeded => rfl
  | added => rfl
  | iterated => rfl
  | collected => rfl
  | flushes => rfl
  | skipped => rfl
  | ended => rfl
  | _ => exact h

theorem removes_start {c : Call} (h : ∀ session, c ≠ .removeSession session) :
    c.start.removes = false := by
  cases c with
  | addUsage session input output =>
      simp only [Call.start]
      split
      · rfl
      · rfl
  | removeSession session => exact absurd rfl (h session)
  | _ => rfl

/-- No task removes a session. -/
def Staying (s : State) : Prop :=
  ∀ (t : TaskId) (pc : Pc), s.tasks[t]? = some pc → pc.removes = false

theorem staying_init : Staying init := fun t pc h => by cases h

theorem Staying.step {s s' : State} {act : Action} (hstaying : Staying s)
    (hstep : UsageBatch.step cfg sharding s act = some s')
    (hact : ∀ session, act ≠ .call (.removeSession session)) : Staying s' := by
  intro t pc' hpc'
  rcases task_cases hstep hpc' with ⟨c, rfl, -, rfl⟩ | ⟨pc, hpc, rfl | hnext⟩
  · exact removes_start fun session hc => hact session (congrArg _ hc)
  · exact hstaying t pc' hpc
  · exact removes_of_next hnext (hstaying t pc hpc)

theorem Staying.passes {s s' : State} {act : Action} (hstaying : Staying s)
    (hstep : UsageBatch.step cfg sharding s act = some s') (session : SessionId) :
    Passes s s' session := by
  refine passes_of_change (change_of_step hstep) (fun t x b _ ht _ => ?_) session
  cases hstaying t _ ht

/-- A session that has a batch keeps one. -/
theorem Staying.entry {s s' : State} {act : Action} (hstaying : Staying s)
    (hstep : UsageBatch.step cfg sharding s act = some s') {session : SessionId}
    (h : (s.sessions.get session).isSome) : (s'.sessions.get session).isSome := by
  cases change_of_step hstep with
  | create ht hnew => exact isSome_putBatch h
  | accumulate ht hb => exact isSome_putBatch h
  | take ht hb hflushes => exact isSome_putBatch h
  | mark ht hb => exact isSome_putBatch h
  | remove ht hb => cases hstaying _ _ ht
  | _ => exact h

/-- **What holds from the start of a pass on**: the session has a batch, and the tokens it held then
are pending or have been taken since. -/
structure Held (n : ℕ) (session : SessionId) (input output : UInt64) (s : State) : Prop where
  staying : Staying s
  log : n ≤ s.log.length
  entry : (s.sessions.get session).isSome
  secured : Secured s n session input output

section

variable {n : ℕ} {session : SessionId} {input output : UInt64}

theorem Held.step {s s' : State} {act : Action} (hheld : Held n session input output s)
    (htokens : ¬ (input = 0 ∧ output = 0))
    (hstep : UsageBatch.step cfg sharding s act = some s')
    (hact : ∀ session, act ≠ .call (.removeSession session)) : Held n session input output s' := by
  have hpasses := hheld.staying.passes hstep session
  refine ⟨hheld.staying.step hstep hact, ?_, hheld.staying.entry hstep hheld.entry,
    hheld.secured.pass hheld.log htokens hpasses⟩
  obtain ⟨new, hlog, -⟩ := hpasses.log
  have hn := hheld.log
  rw [hlog, List.length_append]
  omega

theorem Held.run {s s' : State} {as : List Action} (hheld : Held n session input output s)
    (htokens : ¬ (input = 0 ∧ output = 0))
    (hrun : Transition.run (UsageBatch.step cfg sharding) s as = some s')
    (has : ∀ act ∈ as, ∀ session, act ≠ .call (.removeSession session)) :
    Held n session input output s' :=
  (always_of_step (C := fun _ act _ => ∀ session, act ≠ .call (.removeSession session))
    (fun _ _ _ hinv hstep hact => hinv.step htokens hstep hact) hheld
    (throughout_of_forall_mem has s)).last hrun

/-- The log only grows. -/
theorem log_of_change {s s' : State} {act : Action} (h : Change cfg s act s') :
    ∃ new, s'.log = new ++ s.log := by
  cases h with
  | accumulate ht hb => exact ⟨[_], rfl⟩
  | discard ht hb => exact ⟨[_], rfl⟩
  | take ht hb hflushes => exact ⟨[_, _], rfl⟩
  | pass ht hpass => exact ⟨[_], rfl⟩
  | remove ht hb => exact ⟨[_], rfl⟩
  | _ => exact ⟨[], rfl⟩

/-- What has been taken stays taken. -/
theorem TakenSince.step {s s' : State} {act : Action} (h : TakenSince s n session input output)
    (hstep : UsageBatch.step cfg sharding s act = some s') :
    TakenSince s' n session input output := by
  obtain ⟨since, rest, ticket, batch, hsplit, hrest, hmem, hle⟩ := h
  obtain ⟨new, hlog⟩ := log_of_change (change_of_step hstep)
  refine ⟨new ++ since, rest, ticket, batch, ?_, hrest, List.mem_append_right _ hmem, hle⟩
  rw [hlog, hsplit, List.append_assoc]

theorem TakenSince.run {s s' : State} {as : List Action} (h : TakenSince s n session input output)
    (hrun : Transition.run (UsageBatch.step cfg sharding) s as = some s') :
    TakenSince s' n session input output :=
  (always_of_invariant (I := fun s => TakenSince s n session input output)
    (fun _ _ _ hinv hstep => hinv.step hstep) h as).last hrun

/-- Tokens that are not pending have been taken. -/
theorem Held.taken {s : State} (hheld : Held n session input output s)
    (htokens : ¬ (input = 0 ∧ output = 0))
    (hempty : ∀ b, s.sessions.get session = some b → b.pendingTotal = 0) :
    TakenSince s n session input output := by
  rcases hheld.secured with htaken | ⟨b, hb, hinput, houtput⟩
  · exact htaken
  · obtain ⟨hin, hout⟩ := saturatingAdd_eq_zero.1 (hempty b hb)
    rw [hin] at hinput
    rw [hout] at houtput
    exact absurd ⟨UInt64.le_zero_iff.1 hinput, UInt64.le_zero_iff.1 houtput⟩ htokens

/-! ### A forced flush that is ahead -/

/-- **A forced flush that is ahead takes what is pending**, if nothing else does before. -/
theorem taken_of_owes {s s₂ : State} {as : List Action} {t : TaskId} {pc : Pc}
    (hheld : Held n session input output s) (htokens : ¬ (input = 0 ∧ output = 0))
    (has : ∀ act ∈ as, ∀ session, act ≠ .call (.removeSession session))
    (hrun : Transition.run (UsageBatch.step cfg sharding) s as = some s₂)
    (hpc : s.tasks[t]? = some pc) (howes : pc.Owes true session)
    (hfinished : s₂.tasks[t]? = some .finished) : TakenSince s₂ n session input output := by
  induction as generalizing s pc with
  | nil =>
      obtain rfl := Option.some.inj hrun
      obtain rfl := Option.some.inj (hpc.symm.trans hfinished)
      cases howes
  | cons act as ih =>
      obtain ⟨s₁, hstep, hrest⟩ := exists_step_of_run_cons hrun
      have hheld₁ := hheld.step htokens hstep (has act List.mem_cons_self)
      have has₁ := fun act hact => has act (List.mem_cons_of_mem _ hact)
      by_cases hact : actor act = some t
      · obtain ⟨pc₁, hpc₁, hnext⟩ := next_of_step hpc hact hstep
        rcases owes_of_next hnext howes with hstill | ⟨awaitChain, k, rfl⟩
        · exact ih hheld₁ has₁ hrest hpc₁ hstill
        · -- the section of the flush leaves nothing pending
          obtain ⟨-, hadvance⟩ := advance_of_step rfl hpc hact hstep
          refine (hheld₁.taken htokens fun b hb => ?_).run hrest
          rcases pendingTotal_of_flushing hadvance hb with hzero | ⟨hforce, -⟩
          · exact hzero
          · cases hforce
      · exact ih hheld₁ has₁ hrest (task_of_step hstep hact hpc) howes

/-! ### The sessions of a pass -/

/-- The loop after the flush has the session ahead. -/
def Cont.Ahead (session : SessionId) : Cont → Prop
  | .loop .sweep rest => session ∈ rest
  | _ => False

def Ensured.Ahead (session : SessionId) : Ensured → Prop
  | .flush _ _ k => k.Ahead session
  | _ => False

/-- The sweep will read the session: its shard is yet to be read, or its id is among those
collected. -/
def Pc.Ahead (sharding : Sharding SessionId) (session : SessionId) : Pc → Prop
  | .checking _ k | .fetching _ k | .creating _ _ k => k.Ahead session
  | .flushing _ _ _ k | .submitting _ _ _ k | .awaiting _ _ k | .refreshing _ k
  | .marking _ _ k => k.Ahead session
  | .collecting .sweep i found => i ≤ sharding.shard session ∨ session ∈ found
  | .looping .sweep rest => session ∈ rest
  | _ => False

theorem Cont.ahead_resume {k : Cont} (x : SessionId) (h : k.Ahead session) :
    (k.resume x).Ahead sharding session := by
  cases k with
  | done => cases h
  | remove => cases h
  | loop l rest =>
      cases l with
      | sweep => exact h
      | shutdown => cases h

theorem Ensured.ahead_resume {k : Ensured} (x : SessionId) (h : k.Ahead session) :
    (k.resume x).Ahead sharding session := by
  cases k with
  | flush force awaitChain k => exact h
  | _ => cases h

/-- A session stays ahead until it is read. -/
theorem ahead_of_next {s : State} {pc pc' : Pc} (hnext : Next sharding s pc pc')
    (hentry : (s.sessions.get session).isSome) (h : pc.Ahead sharding session) :
    pc'.Ahead sharding session ∨ ∃ rest, pc = .looping .sweep (session :: rest) := by
  cases hnext with
  | ensured => exact Or.inl (Ensured.ahead_resume _ h)
  | unfetched => exact Or.inl (Ensured.ahead_resume _ h)
  | created => exact Or.inl (Ensured.ahead_resume _ h)
  | passed => exact Or.inl (Cont.ahead_resume _ h)
  | unrefreshed => exact Or.inl (Cont.ahead_resume _ h)
  | marked => exact Or.inl (Cont.ahead_resume _ h)
  | exceeded => cases h
  | added => cases h
  | removed => cases h
  | @iterated l i ids found hids =>
      cases l with
      | shutdown => cases h
      | sweep =>
          refine Or.inl ?_
          rcases h with hshard | hfound
          · rcases Nat.eq_or_lt_of_le hshard with rfl | hlater
            · -- the shard of the session is the one that is read
              have hmem : session ∈ ids.toFinset := by
                rw [hids]
                exact Finset.mem_filter.2 ⟨(s.sessions.mem_keys session).2 hentry, rfl⟩
              exact Or.inr (List.mem_append_right _ (List.mem_toFinset.1 hmem))
            · exact Or.inl hlater
          · exact Or.inr (List.mem_append_left _ hfound)
  | @collected l i found hi =>
      cases l with
      | shutdown => cases h
      | sweep =>
          rcases h with hshard | hfound
          · have hlt := sharding.shard_lt session
            omega
          · exact Or.inl hfound
  | @flushes l x rest awaitChain =>
      cases l with
      | shutdown => cases h
      | sweep =>
          rcases List.mem_cons.1 h with rfl | hrest
          · exact Or.inr ⟨rest, rfl⟩
          · exact Or.inl hrest
  | @skipped l x rest =>
      cases l with
      | shutdown => cases h
      | sweep =>
          rcases List.mem_cons.1 h with rfl | hrest
          · exact Or.inr ⟨rest, rfl⟩
          · exact Or.inl hrest
  | @ended l =>
      cases l with
      | shutdown => cases h
      | sweep => cases h
  | _ => exact Or.inl h

theorem Reads.cons {s s₁ s' : State} {as : List Action} {act : Action} {t : TaskId}
    {b : SessionBatch} (hstep : UsageBatch.step cfg sharding s act = some s₁)
    (h : Reads cfg sharding s₁ t session as s' b) :
    Reads cfg sharding s t session (act :: as) s' b := by
  obtain ⟨⟨bs, hprefix, hrun⟩, hreads, hbatch⟩ := h
  refine ⟨⟨act :: bs, ?_, ?_⟩, hreads, hbatch⟩
  · exact List.cons_prefix_cons.2 ⟨rfl, hprefix⟩
  · rw [run_cons _ hstep]
    exact hrun

/-- **A pass that ends has read the session.** -/
theorem exists_read {s s₂ : State} {as : List Action} {t : TaskId} {pc : Pc}
    (hheld : Held n session input output s) (htokens : ¬ (input = 0 ∧ output = 0))
    (has : ∀ act ∈ as, ∀ session, act ≠ .call (.removeSession session))
    (hrun : Transition.run (UsageBatch.step cfg sharding) s as = some s₂)
    (hpc : s.tasks[t]? = some pc) (hahead : pc.Ahead sharding session)
    (hfinished : s₂.tasks[t]? = some .finished) :
    ∃ s' b, Reads cfg sharding s t session as s' b := by
  induction as generalizing s pc with
  | nil =>
      obtain rfl := Option.some.inj hrun
      obtain rfl := Option.some.inj (hpc.symm.trans hfinished)
      cases hahead
  | cons act as ih =>
      obtain ⟨s₁, hstep, hrest⟩ := exists_step_of_run_cons hrun
      have hheld₁ := hheld.step htokens hstep (has act List.mem_cons_self)
      have has₁ := fun act hact => has act (List.mem_cons_of_mem _ hact)
      by_cases hact : actor act = some t
      · obtain ⟨pc₁, hpc₁, hnext⟩ := next_of_step hpc hact hstep
        rcases ahead_of_next hnext hheld.entry hahead with hstill | ⟨rest, rfl⟩
        · obtain ⟨s', b, hreads⟩ := ih hheld₁ has₁ hrest hpc₁ hstill
          exact ⟨s', b, hreads.cons hstep⟩
        · obtain ⟨b, hb⟩ := Option.isSome_iff_exists.1 hheld.entry
          obtain ⟨rfl, -⟩ := advance_of_step rfl hpc hact hstep
          exact ⟨s, b, ⟨[], List.prefix_append [_] as, rfl⟩, ⟨rest, hpc⟩, hb⟩
      · obtain ⟨s', b, hreads⟩ := ih hheld₁ has₁ hrest (task_of_step hstep hact hpc) hahead
        exact ⟨s', b, hreads.cons hstep⟩

/-- An overdue batch has nothing pending any more, or the sweep goes on to a forced flush. -/
theorem owes_of_read {s s₁ : State} {t : TaskId} {rest : List SessionId} {b : SessionBatch}
    (ht : s.tasks[t]? = some (.looping .sweep (session :: rest)))
    (hb : s.sessions.get session = some b) (hoverdue : cfg.flushInterval ≤ b.elapsed s.now)
    (hstep : UsageBatch.step cfg sharding s (.step t) = some s₁) :
    b.pendingTotal = 0 ∨ ∃ pc, s₁.tasks[t]? = some pc ∧ pc.Owes true session := by
  rw [UsageBatch.step, ht, Option.bind_some, advance, hb] at hstep
  obtain rfl := Option.some.inj hstep
  by_cases hdue : b.due cfg s.now = true
  · rw [if_pos hdue]
    exact Or.inr ⟨_, getElem?_set_self ht _, owes_flushSession ..⟩
  · refine Or.inl ?_
    simp only [SessionBatch.due, decide_eq_true_eq, not_and] at hdue
    by_contra hpending
    exact hdue (UInt64.pos_iff_ne_zero.2 hpending) hoverdue

/-- **An overdue batch that the sweep has read has been taken.** -/
theorem taken_of_reads {s₀ s₂ s : State} {as : List Action} {t : TaskId} {b : SessionBatch}
    (hheld : Held n session input output s₀) (htokens : ¬ (input = 0 ∧ output = 0))
    (has : ∀ act ∈ as, ∀ session, act ≠ .call (.removeSession session))
    (hrun : Transition.run (UsageBatch.step cfg sharding) s₀ as = some s₂)
    (hfinished : s₂.tasks[t]? = some .finished)
    (hreads : Reads cfg sharding s₀ t session as s b)
    (hoverdue : cfg.flushInterval ≤ b.elapsed s.now) : TakenSince s₂ n session input output := by
  obtain ⟨⟨bs, ⟨cs, rfl⟩, hbs⟩, ⟨rest, ht⟩, hb⟩ := hreads
  rw [List.append_assoc, run_append _ hbs] at hrun
  have hbefore : ∀ act ∈ bs, ∀ session, act ≠ .call (.removeSession session) :=
    fun act hact => has act (List.mem_append_left _ (List.mem_append_left _ hact))
  have hafter : ∀ act ∈ cs, ∀ session, act ≠ .call (.removeSession session) :=
    fun act hact => has act (List.mem_append_right _ hact)
  obtain ⟨s₁, hstep, hrest⟩ := exists_step_of_run_cons hrun
  have hheldRead := hheld.run htokens hbs hbefore
  rcases owes_of_read ht hb hoverdue hstep with hzero | ⟨pc, hpc, howes⟩
  · refine (hheldRead.taken htokens fun b' hb' => ?_).run hrun
    obtain rfl := Option.some.inj (hb.symm.trans hb')
    exact hzero
  · have hheldNext := hheldRead.step htokens hstep nofun
    exact taken_of_owes hheldNext htokens hafter hrest hpc howes hfinished

end

/-! ### Every run -/

/-- Tokens that add up to something are not both zero. -/
theorem SessionBatch.pending_ne_zero {b : SessionBatch} (h : 0 < b.pendingTotal) :
    ¬ (b.pendingInput = 0 ∧ b.pendingOutput = 0) := by
  intro hzero
  rw [SessionBatch.pendingTotal, saturatingAdd_eq_zero.2 hzero] at h
  cases h

/-- **In every run without `remove_session`, the batches stay below the chunk size, and a pass of
the sweeper takes what is overdue.** -/
theorem bounded_of_run (cfg : SettlementConfig) (sharding : Sharding SessionId) (as : List Action)
    (hremove : ∀ session, .call (.removeSession session) ∉ as) :
    Always (follow cfg sharding) (BelowChunk cfg) Followed.init as ∧
      SweepTakes cfg sharding as := by
  have has : ∀ act ∈ as, ∀ session, act ≠ .call (.removeSession session) := by
    rintro act hact session rfl
    exact hremove session hact
  refine ⟨?_, ?_⟩
  · exact (always_of_invariant (fun _ _ _ hinv hs => Owed.step hinv hs) owed_init as).mono
      fun _ hinv => hinv.belowChunk
  · rintro as₁ as₂ s₀ s₂ rfl hrun₁ hrun hfinished session b₀ hb₀ hpending
    have hbefore := fun act hact => has act (List.mem_append_left _ hact)
    have hpass := fun act hact => has act (List.mem_append_right _ hact)
    have htokens := SessionBatch.pending_ne_zero hpending
    rw [run_append _ hrun₁] at hrun
    have hstaying : Staying s₀ :=
      (always_of_step (C := fun _ act _ => ∀ session, act ≠ .call (.removeSession session))
        (fun _ _ _ hinv hstep hact => hinv.step hstep hact) staying_init
        (throughout_of_forall_mem hbefore init)).last hrun₁
    have hheld : Held s₀.log.length session b₀.pendingInput b₀.pendingOutput s₀ :=
      ⟨hstaying, le_refl _, by rw [hb₀]; rfl,
        Or.inr ⟨b₀, hb₀, UInt64.le_refl _, UInt64.le_refl _⟩⟩
    refine ⟨?_, fun s b hreads hoverdue =>
      taken_of_reads hheld htokens hpass hrun hfinished hreads hoverdue⟩
    obtain ⟨s₁, hstep, hrest⟩ := exists_step_of_run_cons hrun
    have hheld₁ := hheld.step htokens hstep nofun
    have hafter := fun act hact => hpass act (List.mem_cons_of_mem _ hact)
    have hnew : s₁.tasks[s₀.tasks.length]? = some (.collecting .sweep 0 []) := by
      obtain rfl := Option.some.inj hstep
      exact List.getElem?_concat_length
    obtain ⟨s, b, hreads⟩ :=
      exists_read hheld₁ htokens hafter hrest hnew (Or.inl (Nat.zero_le _)) hfinished
    exact ⟨s, b, hreads.cons hstep⟩

/-- Tokens below the chunk size, and a pass of the sweeper a minute later. -/
def sweepOnce : List Action :=
  [.call (.addUsage 1 10 5), .step 0, .answer 0 (some ⟨0, 0⟩), .step 0, .step 0,
    .tick (60 * 10 ^ 9), .call .sweepTimeouts, .iterate 1 [1], .step 1, .step 1, .step 1, .step 1,
    .step 1, .answer 1 none, .step 1]

theorem bounded_sweepOnce :
    Always (follow sampleConfig sampleSharding) (BelowChunk sampleConfig) Followed.init sweepOnce ∧
      SweepTakes sampleConfig sampleSharding sweepOnce := by
  refine bounded_of_run _ _ _ fun session hmem => ?_
  simp [sweepOnce] at hmem

/-- The pass ends, and its flush has handed over the tokens. -/
example : (run (step sampleConfig sampleSharding) init sweepOnce).map (fun s =>
    (s.tasks, s.submissions.map (·.batch))) = some ([.finished, .finished], [⟨1, 10, 5⟩]) := by
  decide +kernel

end UsageBatch
