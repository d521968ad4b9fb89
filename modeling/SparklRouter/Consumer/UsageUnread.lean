/-
**Usage of sessions whose state cannot be read.**

`add_usage` makes sure that there is a batch for its session by reading the session from the chain.
When that fails, `ensure_session` logs a warning and returns; if no other call has created a batch
meanwhile, `add_usage` finds none and returns too, and its tokens are gone
(`src/consumer/usage_batch.rs`). To follow the tokens of each call, the batcher is run together with
its history: the call each task was spawned for, and for each `add_usage` the point of the log at
which it has added its tokens.

Main definitions:

* `UsageBatch.Followed`, `UsageBatch.follow` — the batcher with this history;
* `UsageBatch.Secured`, `UsageBatch.Kept` — the tokens of a call are pending or taken by a flush,
  and all calls that have returned have theirs so;
* `UsageBatch.keepsTokens` — the condition on one step.

Main results:

* `UsageBatch.run_of_follow` — the history is a history of the batcher;
* `UsageBatch.kept_of_keepsTokens` — **the tokens of every call are kept in every run in which every
  section of `add_usage` finds a batch** and no removal takes out one with pending tokens;
* `UsageBatch.kept_breaks` — one failing read of the chain discards the tokens of a call.
-/

import SparklRouter.Consumer.UsageLedger

set_option relaxedAutoImplicit false
set_option autoImplicit false

namespace UsageBatch

open Chain TaskPool Transition

variable {cfg : SettlementConfig} {sharding : Sharding SessionId}

/-! ### The batcher with its history -/

/-- The batcher, the call each task was spawned for, and for each task that has been in the section
of `add_usage` the length of the log after it. -/
structure Followed where
  state : State
  calls : List Call
  marks : List (Option ℕ)

def Followed.init : Followed := ⟨UsageBatch.init, [], []⟩

/-- The step is a section of `add_usage` that finds the batch of its session. -/
def adds (s : State) (t : TaskId) : Bool :=
  match s.tasks[t]? with
  | some (.accumulating session _ _) => (s.sessions.get session).isSome
  | _ => false

/-- The history after a step of the batcher. -/
def Followed.next (h : Followed) (s' : State) : Action → Followed
  | .call c => ⟨s', h.calls ++ [c], h.marks ++ [none]⟩
  | .step t =>
      ⟨s', h.calls, if adds h.state t then h.marks.set t (some s'.log.length) else h.marks⟩
  | _ => ⟨s', h.calls, h.marks⟩

def follow (cfg : SettlementConfig) (sharding : Sharding SessionId) (h : Followed) (act : Action) :
    Option Followed :=
  (step cfg sharding h.state act).map fun s' => h.next s' act

theorem Followed.state_next (h : Followed) (s' : State) (act : Action) :
    (h.next s' act).state = s' := by
  cases act <;> rfl

/-- **The history is a history of the batcher.** -/
theorem run_of_follow {h h' : Followed} {as : List Action}
    (hrun : run (follow cfg sharding) h as = some h') :
    run (step cfg sharding) h.state as = some h'.state := by
  induction as generalizing h with
  | nil =>
      obtain rfl := Option.some.inj hrun
      rfl
  | cons act as ih =>
      obtain ⟨h₁, hfollow, hrest⟩ := exists_step_of_run_cons hrun
      obtain ⟨s', hstep, rfl⟩ := Option.map_eq_some_iff.1 hfollow
      rw [run_cons as hstep, ← h.state_next s' act]
      exact ih hrest

/-! ### Tokens that are kept -/

/-- Since the log had the length `n`, a flush has taken the tokens from the batch of the session, or
they are pending in it. -/
def Secured (s : State) (n : ℕ) (session : SessionId) (input output : UInt64) : Prop :=
  (∃ since rest ticket batch, s.log = since ++ rest ∧ rest.length = n ∧
    .took ticket batch ∈ since ∧ batch.sessionId = session ∧
      input ≤ batch.inputDelta ∧ output ≤ batch.outputDelta) ∨
  ∃ b, s.sessions.get session = some b ∧ input ≤ b.pendingInput ∧ output ≤ b.pendingOutput

/-- **Every call of `add_usage` that has returned has added its tokens**, they are pending or taken
by a flush, and pending and taken together is all that was added. -/
structure Kept (h : Followed) : Prop where
  secured : ∀ (t : TaskId) (session : SessionId) (input output : UInt64),
    h.calls[t]? = some (.addUsage session input output) → ¬ (input = 0 ∧ output = 0) →
      h.state.tasks[t]? = some .finished →
        ∃ n, h.marks[t]? = some (some n) ∧ Secured h.state n session input output
  balance : ∀ session k,
    h.state.gained session k = h.state.pending session k + h.state.taken session k

/-- A section of `add_usage` finds the batch of its session, and a removal takes out no pending
tokens. -/
def keepsTokens (s : State) : Action → Bool
  | .step t =>
      match s.tasks[t]? with
      | some (.accumulating session _ _) => (s.sessions.get session).isSome
      | some (.removing session) =>
          match s.sessions.get session with
          | some b => b.pendingInput == 0 && b.pendingOutput == 0
          | none => true
      | _ => true
  | _ => true

/-! ### What a step does to the tokens of a call -/

/-- The log has grown, and what the batch of the session held is in it still or was taken. -/
structure Passes (s s' : State) (session : SessionId) : Prop where
  log : ∃ new, s'.log = new ++ s.log ∧ ∀ b, s.sessions.get session = some b →
    (∃ b', s'.sessions.get session = some b' ∧ b.pendingInput ≤ b'.pendingInput ∧
      b.pendingOutput ≤ b'.pendingOutput) ∨
    (∃ ticket, .took ticket ⟨session, b.pendingInput, b.pendingOutput⟩ ∈ new) ∨
    (b.pendingInput = 0 ∧ b.pendingOutput = 0)

theorem Secured.pass {s s' : State} {n : ℕ} {session : SessionId} {input output : UInt64}
    (h : Secured s n session input output) (hn : n ≤ s.log.length)
    (htokens : ¬ (input = 0 ∧ output = 0)) (hpass : Passes s s' session) :
    Secured s' n session input output := by
  obtain ⟨new, hlog, hbatch⟩ := hpass.log
  rcases h with ⟨since, rest, ticket, batch, hsplit, hrest, hmem, hle⟩ | ⟨b, hb, hinput, houtput⟩
  · refine Or.inl ⟨new ++ since, rest, ticket, batch, ?_, hrest, List.mem_append_right _ hmem, hle⟩
    rw [hlog, hsplit, List.append_assoc]
  · rcases hbatch b hb with ⟨b', hb', hin, hout⟩ | ⟨ticket, hmem⟩ | ⟨hin, hout⟩
    · exact Or.inr ⟨b', hb', UInt64.le_trans hinput hin, UInt64.le_trans houtput hout⟩
    · -- the take is newer than the section, whose event is among the last `n`
      refine Or.inl ⟨new ++ s.log.take (s.log.length - n), s.log.drop (s.log.length - n), ticket,
        _, ?_, ?_, List.mem_append_left _ hmem, rfl, hinput, houtput⟩
      · rw [List.append_assoc, List.take_append_drop, hlog]
      · rw [List.length_drop]
        omega
    · refine absurd ⟨?_, ?_⟩ htokens
      · exact UInt64.le_zero_iff.1 (hin ▸ hinput)
      · exact UInt64.le_zero_iff.1 (hout ▸ houtput)

theorem Passes.same {s s' : State} {session : SessionId} {new : List Event}
    (hlog : s'.log = new ++ s.log) (hget : s'.sessions.get session = s.sessions.get session) :
    Passes s s' session :=
  ⟨new, hlog, fun b hb => Or.inl ⟨b, hget ▸ hb, UInt64.le_refl _, UInt64.le_refl _⟩⟩

theorem SessionBatch.pendingInput_le_accumulate (b : SessionBatch) (input output : UInt64)
    (now : ℕ) : b.pendingInput ≤ (b.accumulate input output now).pendingInput :=
  UInt64.le_iff_toNat_le.2 (b.le_pending_accumulate input output now .input)

theorem SessionBatch.pendingOutput_le_accumulate (b : SessionBatch) (input output : UInt64)
    (now : ℕ) : b.pendingOutput ≤ (b.accumulate input output now).pendingOutput :=
  UInt64.le_iff_toNat_le.2 (b.le_pending_accumulate input output now .output)

/-- The tokens that are added are in the batch. -/
theorem SessionBatch.le_accumulate (b : SessionBatch) (input output : UInt64) (now : ℕ) :
    input ≤ (b.accumulate input output now).pendingInput ∧
      output ≤ (b.accumulate input output now).pendingOutput := by
  have hinput := toNat_saturatingAdd b.pendingInput input
  have houtput := toNat_saturatingAdd b.pendingOutput output
  have hin := input.toNat_lt
  have hout := output.toNat_lt
  constructor
  · rw [UInt64.le_iff_toNat_le, accumulate, hinput]
    omega
  · rw [UInt64.le_iff_toNat_le, accumulate, houtput]
    omega

/-- A step that puts a batch with at least the same tokens in the place of another. -/
theorem Passes.put {s : State} {session session' : SessionId} {b b' : SessionBatch} {t : TaskId}
    {pc : Pc} (hb : s.sessions.get session' = some b) (hinput : b.pendingInput ≤ b'.pendingInput)
    (houtput : b.pendingOutput ≤ b'.pendingOutput) (new : List Event) :
    Passes s ({ s.putBatch session' b' with log := new ++ s.log }.goTo t pc) session := by
  refine ⟨new, rfl, fun b₀ hb₀ => Or.inl ?_⟩
  change ∃ b'', (s.sessions.insert session' b').get session = some b'' ∧ _
  by_cases hid : session = session'
  · subst hid
    obtain rfl := Option.some.inj (hb.symm.trans hb₀)
    exact ⟨b', ShardMap.get_insert_self .., hinput, houtput⟩
  · exact ⟨b₀, (ShardMap.get_insert_of_ne _ _ hid).trans hb₀, UInt64.le_refl _, UInt64.le_refl _⟩

/-- A step that meets the condition removes no batch with pending tokens. -/
theorem empty_of_keepsTokens {s : State} {act : Action} (hkeeps : keepsTokens s act = true) :
    ∀ t session b, act = .step t → s.tasks[t]? = some (.removing session) →
      s.sessions.get session = some b → b.pendingInput = 0 ∧ b.pendingOutput = 0 := by
  rintro t session b rfl ht hb
  simp only [keepsTokens, ht, hb, Bool.and_eq_true, beq_iff_eq] at hkeeps
  exact hkeeps

/-- **Every step that removes no batch with pending tokens keeps what is pending in a batch**,
unless it takes it. -/
theorem passes_of_change {s s' : State} {act : Action} (h : Change cfg s act s')
    (hempty : ∀ t session b, act = .step t → s.tasks[t]? = some (.removing session) →
      s.sessions.get session = some b → b.pendingInput = 0 ∧ b.pendingOutput = 0)
    (session : SessionId) : Passes s s' session := by
  cases h with
  | call c => exact Passes.same (List.nil_append _).symm rfl
  | tick nanos => exact Passes.same (List.nil_append _).symm rfl
  | move ht hmove => exact Passes.same (List.nil_append _).symm rfl
  | @create t session' chain k ht hnew =>
      refine ⟨[], rfl, fun b hb => Or.inl ⟨b, ?_, UInt64.le_refl _, UInt64.le_refl _⟩⟩
      have hid : session ≠ session' := by
        rintro rfl
        rw [hnew] at hb
        cases hb
      exact (ShardMap.get_insert_of_ne _ _ hid).trans hb
  | @accumulate t session' input output b ht hb =>
      exact Passes.put hb (b.pendingInput_le_accumulate ..) (b.pendingOutput_le_accumulate ..) [_]
  | discard ht hb => exact Passes.same (List.singleton_append ..).symm rfl
  | @take t session' force awaitChain k b ht hb hflushes =>
      refine ⟨[_, _], rfl, fun b₀ hb₀ => ?_⟩
      by_cases hid : session = session'
      · subst hid
        obtain rfl := Option.some.inj (hb.symm.trans hb₀)
        exact Or.inr (Or.inl ⟨_, List.mem_cons_self⟩)
      · exact Or.inl ⟨b₀, (ShardMap.get_insert_of_ne _ _ hid).trans hb₀, UInt64.le_refl _,
          UInt64.le_refl _⟩
  | pass ht hpass => exact Passes.same (List.singleton_append ..).symm rfl
  | hand ht => exact Passes.same (List.nil_append _).symm rfl
  | @mark t session' chain k b ht hb =>
      have hinput : b.pendingInput ≤ (b.watermark chain).pendingInput := UInt64.le_refl _
      have houtput : b.pendingOutput ≤ (b.watermark chain).pendingOutput := UInt64.le_refl _
      exact Passes.put hb hinput houtput []
  | @remove t session' b ht hb =>
      refine ⟨[_], rfl, fun b₀ hb₀ => ?_⟩
      by_cases hid : session = session'
      · subst hid
        obtain rfl := Option.some.inj (hb.symm.trans hb₀)
        exact Or.inr (Or.inr (hempty t session b rfl ht hb))
      · exact Or.inl ⟨b₀, (ShardMap.get_remove_of_ne _ hid).trans hb₀, UInt64.le_refl _,
          UInt64.le_refl _⟩
  | attempt hsub hattempt => exact Passes.same (List.nil_append _).symm rfl

/-! ### Where a call stands -/

/-- The task is on its way to the section that adds these tokens. -/
def Pc.Adds (session : SessionId) (input output : UInt64) : Pc → Prop
  | .checking x k | .fetching x k | .creating x _ k => x = session ∧ k = .accumulate input output
  | .accumulating x i o => x = session ∧ i = input ∧ o = output
  | _ => False

theorem Cont.not_adds_resume (k : Cont) (x session : SessionId) (input output : UInt64) :
    ¬ (k.resume x).Adds session input output := by
  cases k with
  | done => exact id
  | remove => exact id
  | loop l rest => exact id

theorem Ensured.adds_resume (k : Ensured) (x session : SessionId) (input output : UInt64) :
    (k.resume x).Adds session input output ↔ x = session ∧ k = .accumulate input output := by
  cases k with
  | done =>
      refine ⟨False.elim, fun h => ?_⟩
      cases h.2
  | accumulate i o =>
      change x = session ∧ i = input ∧ o = output ↔ _
      rw [Ensured.accumulate.injEq]
  | flush force awaitChain k =>
      refine ⟨False.elim, fun h => ?_⟩
      cases h.2

theorem flushSession_not_adds (x session : SessionId) (force awaitChain : Bool) (k : Cont)
    (input output : UInt64) :
    ¬ (UsageBatch.flushSession x force awaitChain k).Adds session input output := by
  rintro ⟨-, h⟩
  cases h

/-- A step that only moves its task keeps it on its way. -/
theorem adds_of_move {s : State} {act : Action} {pc pc' : Pc} (h : Move s act pc pc')
    (session : SessionId) (input output : UInt64) :
    pc'.Adds session input output ↔ pc.Adds session input output := by
  cases h with
  | present hget => exact Ensured.adds_resume ..
  | absent => exact Iff.rfl
  | fetched => exact Iff.rfl
  | unfetched => exact Ensured.adds_resume ..
  | found hget => exact Ensured.adds_resume ..
  | unrefreshed => exact ⟨Cont.not_adds_resume _ _ _ _ _, False.elim⟩
  | unmarked => exact ⟨Cont.not_adds_resume _ _ _ _ _, False.elim⟩
  | next => exact ⟨flushSession_not_adds _ _ _ _ _ _ _, False.elim⟩
  | _ => exact Iff.rfl

/-- A call is on its way to its section, or it has added its tokens and they are kept. -/
def Followed.Stands (h : Followed) (t : TaskId) (session : SessionId) (input output : UInt64) :
    Prop :=
  (∃ pc, h.state.tasks[t]? = some pc ∧ pc.Adds session input output) ∨
  ∃ pc n, h.state.tasks[t]? = some pc ∧ (∀ x i o, ¬ pc.Adds x i o) ∧
    h.marks[t]? = some (some n) ∧ n ≤ h.state.log.length ∧ Secured h.state n session input output

/-- The invariant: every call stands at one of these two points. -/
structure Traced (h : Followed) : Prop where
  calls : h.calls.length = h.state.tasks.length
  marks : h.marks.length = h.state.tasks.length
  stands : ∀ (t : TaskId) (session : SessionId) (input output : UInt64),
    h.calls[t]? = some (.addUsage session input output) → ¬ (input = 0 ∧ output = 0) →
      h.Stands t session input output

theorem traced_init : Traced Followed.init where
  calls := rfl
  marks := rfl
  stands t session input output h := by cases h

/-- The kept tokens of a call are kept by a step at which its task does not leave the section. -/
theorem Followed.Stands.pass {h h' : Followed} {t : TaskId} {session : SessionId}
    {input output : UInt64} (hstands : h.Stands t session input output)
    (htokens : ¬ (input = 0 ∧ output = 0)) (hpass : Passes h.state h'.state session)
    (hmark : h'.marks[t]? = h.marks[t]?)
    (htask : ∀ pc, h.state.tasks[t]? = some pc → ∃ pc', h'.state.tasks[t]? = some pc' ∧
      ∀ x i o, pc'.Adds x i o ↔ pc.Adds x i o) :
    h'.Stands t session input output := by
  rcases hstands with ⟨pc, hpc, hadds⟩ | ⟨pc, n, hpc, hpast, hn, hle, hsecured⟩
  · obtain ⟨pc', hpc', hiff⟩ := htask pc hpc
    exact Or.inl ⟨pc', hpc', (hiff _ _ _).2 hadds⟩
  · obtain ⟨pc', hpc', hiff⟩ := htask pc hpc
    obtain ⟨new, hlog, -⟩ := hpass.log
    refine Or.inr ⟨pc', n, hpc', fun x i o hadds => hpast x i o ((hiff x i o).1 hadds),
      hmark.trans hn, ?_, hsecured.pass hle htokens hpass⟩
    rw [hlog, List.length_append]
    omega

/-- A step of one task that keeps it on its way, or past it. -/
theorem Traced.goTo {h h' : Followed} (htraced : Traced h) {t : TaskId} {pc pc' : Pc}
    (ht : h.state.tasks[t]? = some pc) (hiff : ∀ x i o, pc'.Adds x i o ↔ pc.Adds x i o)
    (htasks : h'.state.tasks = h.state.tasks.set t pc') (hcalls : h'.calls = h.calls)
    (hmarks : h'.marks = h.marks) (hpass : ∀ session, Passes h.state h'.state session) :
    Traced h' where
  calls := by rw [hcalls, htasks, List.length_set, htraced.calls]
  marks := by rw [hmarks, htasks, List.length_set, htraced.marks]
  stands t' session input output hcall htokens := by
    rw [hcalls] at hcall
    refine (htraced.stands t' session input output hcall htokens).pass htokens (hpass session)
      (by rw [hmarks]) fun pc₀ hpc₀ => ?_
    rw [htasks]
    by_cases hid : t = t'
    · subst hid
      obtain rfl := Option.some.inj (ht.symm.trans hpc₀)
      exact ⟨pc', getElem?_set_self ht pc', hiff⟩
    · exact ⟨pc₀, (List.getElem?_set_ne hid).trans hpc₀, fun _ _ _ => Iff.rfl⟩

/-- A step that moves no task. -/
theorem Traced.still {h h' : Followed} (htraced : Traced h)
    (htasks : h'.state.tasks = h.state.tasks) (hcalls : h'.calls = h.calls)
    (hmarks : h'.marks = h.marks) (hpass : ∀ session, Passes h.state h'.state session) :
    Traced h' where
  calls := by rw [hcalls, htasks, htraced.calls]
  marks := by rw [hmarks, htasks, htraced.marks]
  stands t session input output hcall htokens := by
    rw [hcalls] at hcall
    refine (htraced.stands t session input output hcall htokens).pass htokens (hpass session)
      (by rw [hmarks]) fun pc hpc => ?_
    exact ⟨pc, by rw [htasks]; exact hpc, fun _ _ _ => Iff.rfl⟩

/-- Only the section of `add_usage` adds. -/
theorem accumulating_of_adds {s : State} {t : TaskId} (h : adds s t = true) :
    ∃ session input output b, s.tasks[t]? = some (.accumulating session input output) ∧
      s.sessions.get session = some b := by
  unfold adds at h
  split at h
  · rename_i session input output ht
    obtain ⟨b, hb⟩ := Option.isSome_iff_exists.1 h
    exact ⟨session, input, output, b, ht, hb⟩
  · cases h

theorem adds_of_accumulating {s : State} {t : TaskId} {session : SessionId} {input output : UInt64}
    {b : SessionBatch} (ht : s.tasks[t]? = some (.accumulating session input output))
    (hb : s.sessions.get session = some b) : adds s t = true := by
  simp only [adds, ht, hb, Option.isSome_some]

theorem marks_next {h : Followed} {s' : State} {act : Action} (hcall : ∀ c, act ≠ .call c)
    (hadds : ∀ t, act = .step t → adds h.state t = false) :
    (h.next s' act).marks = h.marks ∧ (h.next s' act).calls = h.calls := by
  cases act with
  | call c => exact absurd rfl (hcall c)
  | step t =>
      refine ⟨?_, rfl⟩
      simp only [Followed.next, hadds t rfl, Bool.false_eq_true, if_false]
  | _ => exact ⟨rfl, rfl⟩

/-- The section of `add_usage` secures its tokens. -/
theorem Traced.accumulate {h : Followed} (htraced : Traced h) {t : TaskId} {session : SessionId}
    {input output : UInt64} {b : SessionBatch}
    (ht : h.state.tasks[t]? = some (.accumulating session input output))
    (hb : h.state.sessions.get session = some b)
    (hpass : ∀ x, Passes h.state (accumulateStep cfg h.state t session input output b) x) :
    Traced (h.next (accumulateStep cfg h.state t session input output b) (.step t)) := by
  obtain ⟨pc', hpc', hpast⟩ : ∃ pc', (accumulateStep cfg h.state t session input output b).tasks =
      h.state.tasks.set t pc' ∧ ∀ x i o, ¬ pc'.Adds x i o := by
    refine ⟨_, rfl, fun x i o => ?_⟩
    split
    · exact flushSession_not_adds _ _ _ _ _ _ _
    · exact id
  have hadds := adds_of_accumulating ht hb
  have hmarks : (h.next (accumulateStep cfg h.state t session input output b) (.step t)).marks =
      h.marks.set t (some (h.state.log.length + 1)) := by
    simp only [Followed.next, hadds, if_true]
    rfl
  have hlt : t < h.state.tasks.length := (List.getElem?_eq_some_iff.1 ht).1
  refine ⟨?_, ?_, fun t' x i o hcall htokens => ?_⟩
  · change h.calls.length = (accumulateStep cfg h.state t session input output b).tasks.length
    rw [hpc', List.length_set, htraced.calls]
  · rw [hmarks, List.length_set, htraced.marks]
    change h.state.tasks.length = List.length (accumulateStep _ _ _ _ _ _ _).tasks
    rw [hpc', List.length_set]
  · by_cases hid : t = t'
    · subst hid
      -- the tokens the section adds are those of the call
      rcases htraced.stands t x i o hcall htokens with ⟨pc, hpc, hway⟩ | ⟨pc, n, hpc, hnot, -⟩
      · obtain rfl := Option.some.inj (ht.symm.trans hpc)
        obtain ⟨rfl, rfl, rfl⟩ := hway
        refine Or.inr ⟨pc', h.state.log.length + 1, ?_, hpast, ?_, le_refl _, Or.inr ?_⟩
        · exact (congrArg (·[t]?) hpc').trans (getElem?_set_self ht pc')
        · rw [hmarks, List.getElem?_set_self (by rw [htraced.marks]; exact hlt)]
        · refine ⟨_, ShardMap.get_insert_self .., ?_⟩
          exact b.le_accumulate input output h.state.now
      · obtain rfl := Option.some.inj (ht.symm.trans hpc)
        exact absurd ⟨rfl, rfl, rfl⟩ (hnot session input output)
    · refine (htraced.stands t' x i o hcall htokens).pass htokens (hpass x) ?_ fun pc hpc => ?_
      · rw [hmarks, List.getElem?_set_ne hid]
      · refine ⟨pc, ?_, fun _ _ _ => Iff.rfl⟩
        exact ((congrArg (·[t']?) hpc').trans (List.getElem?_set_ne hid)).trans hpc

/-- A new task is on its way. -/
theorem Traced.call {h : Followed} (htraced : Traced h) (c : Call) :
    Traced (h.next { h.state with tasks := h.state.tasks ++ [c.start] } (.call c)) := by
  refine ⟨?_, ?_, fun t x i o hcall htokens => ?_⟩
  · change (h.calls ++ [c]).length = (h.state.tasks ++ [c.start]).length
    rw [List.length_append, List.length_append, htraced.calls]
    rfl
  · change (h.marks ++ [none]).length = (h.state.tasks ++ [c.start]).length
    rw [List.length_append, List.length_append, htraced.marks]
    rfl
  · change (h.calls ++ [c])[t]? = _ at hcall
    rcases getElem?_append_cases hcall with ⟨rfl, rfl⟩ | hold
    · refine Or.inl ⟨.checking x (.accumulate i o), ?_, rfl, rfl⟩
      change (h.state.tasks ++ [_])[h.calls.length]? = _
      rw [htraced.calls, List.getElem?_concat_length, Call.start, if_neg htokens]
    · have hlt : t < h.calls.length := (List.getElem?_eq_some_iff.1 hold).1
      refine (htraced.stands t x i o hold htokens).pass htokens
        (Passes.same (List.nil_append _).symm rfl) ?_ fun pc hpc => ?_
      · exact List.getElem?_append_left (by rw [htraced.marks, ← htraced.calls]; exact hlt)
      · exact ⟨pc, getElem?_append_of hpc, fun _ _ _ => Iff.rfl⟩

/-- **One step that meets the condition keeps the tokens of every call.** -/
theorem Traced.step {h : Followed} (htraced : Traced h) {s' : State} {act : Action}
    (hstep : UsageBatch.step cfg sharding h.state act = some s')
    (hkeeps : keepsTokens h.state act = true) : Traced (h.next s' act) := by
  have hchange := change_of_step hstep
  have hpass := passes_of_change hchange (empty_of_keepsTokens hkeeps)
  by_cases hadds : ∃ t, act = .step t ∧ adds h.state t = true
  · obtain ⟨t, rfl, hadds⟩ := hadds
    obtain ⟨session, input, output, b, ht, hb⟩ := accumulating_of_adds hadds
    simp only [UsageBatch.step, ht, Option.bind_some, advance, hb, Option.some.injEq] at hstep
    subst hstep
    exact htraced.accumulate ht hb hpass
  · have hnone : ∀ t, act = .step t → adds h.state t = false := fun t hact =>
      eq_false_of_ne_true fun htrue => hadds ⟨t, hact, htrue⟩
    have hpass' : ∀ x, Passes h.state (h.next s' act).state x := by rwa [Followed.state_next]
    -- a step that moves one task, on its way or past its section
    have hgoTo : ∀ {t : TaskId} {pc pc' : Pc}, h.state.tasks[t]? = some pc →
        (∀ c, act ≠ .call c) → (∀ x i o, pc'.Adds x i o ↔ pc.Adds x i o) →
        s'.tasks = h.state.tasks.set t pc' → Traced (h.next s' act) := by
      intro t pc pc' ht hcall hiff htasks
      obtain ⟨hmarks, hcalls⟩ : (h.next s' act).marks = h.marks ∧ (h.next s' act).calls = h.calls :=
        marks_next hcall hnone
      exact htraced.goTo ht hiff (by rw [Followed.state_next, htasks]) hcalls hmarks hpass'
    cases hchange with
    | call c => exact htraced.call c
    | tick nanos => exact htraced.still rfl rfl rfl hpass
    | attempt hsub hattempt => exact htraced.still rfl rfl rfl hpass
    | move ht hmove =>
        refine hgoTo ht ?_ (adds_of_move hmove) rfl
        rintro c rfl
        cases hmove
    | create ht hnew =>
        exact hgoTo ht (fun _ h => by cases h) (fun x i o => Ensured.adds_resume ..) rfl
    | accumulate ht hb =>
        exact absurd ⟨_, rfl, adds_of_accumulating ht hb⟩ hadds
    | discard ht hb =>
        simp only [keepsTokens, ht, hb] at hkeeps
        cases hkeeps
    | take ht hb hflushes =>
        refine hgoTo ht (fun _ h => by cases h) ?_ rfl
        exact fun x i o => Iff.rfl
    | pass ht hpass₀ =>
        refine hgoTo ht (fun _ h => by cases h) (fun x i o => ?_) rfl
        exact ⟨Cont.not_adds_resume _ _ _ _ _, False.elim⟩
    | hand ht =>
        refine hgoTo ht (fun _ h => by cases h) (fun x i o => ?_) rfl
        split
        · exact Iff.rfl
        · exact Iff.rfl
    | mark ht hb =>
        refine hgoTo ht (fun _ h => by cases h) (fun x i o => ?_) rfl
        exact ⟨Cont.not_adds_resume _ _ _ _ _, False.elim⟩
    | remove ht hb =>
        refine hgoTo ht (fun _ h => by cases h) ?_ rfl
        exact fun x i o => Iff.rfl

/-! ### The tokens of every call -/

/-- A step that meets the condition drops nothing. -/
theorem dropped_of_change {s s' : State} {act : Action} (h : Change cfg s act s')
    (hkeeps : keepsTokens s act = true) (hdropped : ∀ session k, s.dropped session k = 0)
    (session : SessionId) (k : Kind) : s'.dropped session k = 0 := by
  have hold := hdropped session k
  cases h with
  | discard ht hb => exact (Nat.zero_add _).trans hold
  | take ht hb hflushes => exact (Nat.zero_add _).trans ((Nat.zero_add _).trans hold)
  | accumulate ht hb => exact (Nat.zero_add _).trans hold
  | pass ht hpass => exact (Nat.zero_add _).trans hold
  | @remove t session' b ht hb =>
      simp only [keepsTokens, ht, hb, Bool.and_eq_true, beq_iff_eq] at hkeeps
      have hevent : Event.dropped session k (.removed session' b) = 0 := by
        simp only [Event.dropped]
        split
        · cases k with
          | input => exact congrArg UInt64.toNat hkeeps.1
          | output => exact congrArg UInt64.toNat hkeeps.2
        · rfl
      change Event.dropped session k (.removed session' b) + s.dropped session k = 0
      rw [hevent, hold]
  | _ => exact hold

/-- What holds of every state of a run whose steps all meet the condition. -/
structure Following (h : Followed) : Prop where
  traced : Traced h
  ledger : Ledger h.state
  noneDropped : ∀ session k, h.state.dropped session k = 0

theorem Following.step {h h' : Followed} {act : Action} (hfollowing : Following h)
    (hfollow : follow cfg sharding h act = some h') (hkeeps : keepsTokens h.state act = true) :
    Following h' := by
  obtain ⟨s', hstep, rfl⟩ := Option.map_eq_some_iff.1 hfollow
  refine ⟨hfollowing.traced.step hstep hkeeps, ?_, ?_⟩
  · rw [Followed.state_next]
    exact hfollowing.ledger.step hstep
  · rw [Followed.state_next]
    exact dropped_of_change (change_of_step hstep) hkeeps hfollowing.noneDropped

theorem Following.kept {h : Followed} (hfollowing : Following h) : Kept h := by
  refine ⟨fun t session input output hcall htokens hfinished => ?_, fun session k => ?_⟩
  · rcases hfollowing.traced.stands t session input output hcall htokens with
      ⟨pc, hpc, hadds⟩ | ⟨pc, n, -, -, hmark, -, hsecured⟩
    · obtain rfl := Option.some.inj (hfinished.symm.trans hpc)
      cases hadds
    · exact ⟨n, hmark, hsecured⟩
  · have hbalance := hfollowing.ledger.balance session k
    have hdropped := hfollowing.noneDropped session k
    omega

/-- **The tokens of every call are kept in every run in which every section of `add_usage` finds a
batch** and no removal takes out one with pending tokens, whatever `get_session` answers: when a
call has returned, they are pending for its session or taken by a flush. -/
theorem kept_of_keepsTokens (cfg : SettlementConfig) (sharding : Sharding SessionId)
    (as : List Action)
    (h : Throughout (follow cfg sharding) (fun h act _ => keepsTokens h.state act = true)
      Followed.init as) :
    Always (follow cfg sharding) Kept Followed.init as :=
  (always_of_step (I := Following) (fun _ _ _ hinv hs hkeeps => hinv.step hs hkeeps)
    ⟨traced_init, ledger_init, fun _ _ => rfl⟩ h).mono fun _ hinv => hinv.kept

/-- Two calls for one session; the read fails for the second after the first has made the batch. -/
def readOnce : List Action :=
  [.call (.addUsage 1 10 5), .call (.addUsage 1 7 0), .step 0, .step 1, .answer 0 (some ⟨0, 0⟩),
    .step 0, .answer 1 none, .step 1, .step 0]

theorem kept_readOnce : Always (follow sampleConfig sampleSharding) Kept Followed.init readOnce :=
  kept_of_keepsTokens _ _ _ (throughout_of_check (by decide +kernel))

/-- One call, and the read fails. -/
def readFails : List Action := [.call (.addUsage 1 10 5), .step 0, .answer 0 none, .step 0]

/-- The call has returned and its tokens are nowhere. -/
theorem observe_readFails :
    (run (follow sampleConfig sampleSharding) Followed.init readFails).map (fun h =>
      (h.calls, h.state.tasks, h.marks, h.state.pending 1 .input, h.state.taken 1 .input)) =
      some ([.addUsage 1 10 5], [.finished], [none], 0, 0) := by
  decide +kernel

/-- **One failing read of the chain discards the tokens of a call.** -/
theorem kept_breaks :
    ¬ ∀ (cfg : SettlementConfig) (sharding : Sharding SessionId) (as : List Action),
      Always (follow cfg sharding) Kept Followed.init as := by
  intro hall
  obtain ⟨h, hkept, hobs⟩ :=
    (hall sampleConfig sampleSharding readFails).observe observe_readFails
  simp only [Prod.mk.injEq] at hobs
  obtain ⟨hcalls, htasks, hmarks, -, -⟩ := hobs
  obtain ⟨n, hmark, -⟩ := hkept.secured 0 1 10 5 (by rw [hcalls]; rfl) (by decide)
    (by rw [htasks]; rfl)
  rw [hmarks] at hmark
  cases hmark

end UsageBatch
