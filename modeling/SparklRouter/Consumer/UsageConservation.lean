/-
**Conservation of usage.**

As long as `get_session` succeeds, the sums of tokens fit in 64 bits and no session is removed, no
token is lost, counted twice or moved to another session: for each session and kind of tokens, what
`add_usage` accepted is what is pending, in the hand of a flush, or submitted; and nothing empty is
ever submitted.

Main definitions:

* `UsageBatch.Conserved` — the conservation law;
* `UsageBatch.Action.conserving` — the actions of the runs it is about.

Main results:

* `UsageBatch.Lossless.step` — in such runs every `add_usage` finds its batch;
* `UsageBatch.conserved` — **the conservation law holds in every state of such a run**.
-/

import SparklRouter.Consumer.UsageLedger

set_option relaxedAutoImplicit false
set_option autoImplicit false

namespace UsageBatch

open Chain TaskPool Transition

variable {cfg : SettlementConfig} {sharding : Sharding SessionId}

/-- What `add_usage` accepted is pending, about to be handed over, or handed over; no call of
`add_usage` dropped its tokens; and no submission is empty. -/
structure Conserved (s : State) : Prop where
  accounted : ∀ session k,
    s.accepted session k = s.pending session k + s.inHand session k + s.handed session k
  noneDiscarded : ∀ session input output, .discarded session input output ∉ s.log
  noneEmpty : NoneEmpty s

/-- No session is removed, and `get_session` succeeds. -/
def Action.conserving : Action → Bool
  | .call (.removeSession _) => false
  | .answer _ none => false
  | _ => true

/-! ### Every `add_usage` finds its batch -/

def Ensured.removes : Ensured → Bool
  | .done => false
  | .accumulate _ _ => false
  | .flush _ _ k => k.removes

/-- Whether the task is one of `remove_session`. -/
def Pc.removes : Pc → Bool
  | .checking _ k | .fetching _ k | .creating _ _ k => k.removes
  | .flushing _ _ _ k | .submitting _ _ _ k | .awaiting _ _ k | .refreshing _ k
  | .marking _ _ k => k.removes
  | .removing _ => true
  | _ => false

/-- The session whose batch the task is about to add to. -/
def Pc.needs : Pc → Option SessionId
  | .accumulating session _ _ => some session
  | _ => none

@[simp] theorem Cont.removes_resume (k : Cont) (session : SessionId) :
    (k.resume session).removes = k.removes := by
  cases k with
  | done => rfl
  | remove => rfl
  | loop l rest => rfl

@[simp] theorem Ensured.removes_resume (k : Ensured) (session : SessionId) :
    (k.resume session).removes = k.removes := by
  cases k with
  | done => rfl
  | accumulate input output => rfl
  | flush force awaitChain k => rfl

@[simp] theorem Cont.needs_resume (k : Cont) (session : SessionId) :
    (k.resume session).needs = none := by
  cases k with
  | done => rfl
  | remove => rfl
  | loop l rest => rfl

theorem Ensured.needs_resume {k : Ensured} {session session' : SessionId}
    (h : (k.resume session).needs = some session') : session' = session := by
  cases k with
  | done => cases h
  | accumulate input output => exact (Option.some.inj h).symm
  | flush force awaitChain k => cases h

/-- A task of a run without removals, with the batch it is about to add to in the map. -/
def Pc.Fits (s : State) (pc : Pc) : Prop :=
  pc.removes = false ∧ ∀ session, pc.needs = some session → (s.sessions.get session).isSome

/-- No task is one of `remove_session`, every batch to be added to is there, and nothing has been
discarded or dropped. -/
structure Lossless (s : State) : Prop where
  fits : ∀ pc ∈ s.tasks, pc.Fits s
  noneDiscarded : ∀ session input output, .discarded session input output ∉ s.log
  noneDropped : ∀ session k, s.dropped session k = 0

theorem lossless_init : Lossless init := by
  refine ⟨?_, ?_, fun _ _ => rfl⟩
  · intro _ h
    cases h
  · intro _ _ _ h
    cases h

/-- A step that keeps the batches there, moves one task, and logs nothing but what loses nothing. -/
theorem Lossless.goTo {s s₁ : State} {t : TaskId} {pc' : Pc} (h : Lossless s)
    (htasks : s₁.tasks = s.tasks)
    (hthere : ∀ session, (s.sessions.get session).isSome → (s₁.sessions.get session).isSome)
    (hlog : ∀ e ∈ s₁.log, e ∈ s.log ∨
      (∀ session input output, e ≠ .discarded session input output) ∧
        ∀ session b, e ≠ .removed session b)
    (hpc : pc'.Fits s₁) : Lossless (s₁.goTo t pc') := by
  refine ⟨fun pc hmem => ?_, fun session input output hmem => ?_, fun session k => ?_⟩
  · rcases mem_goTo hmem with hold | rfl
    · obtain ⟨hstays, hneeds⟩ := h.fits pc (htasks ▸ hold)
      exact ⟨hstays, fun session hsession => hthere session (hneeds session hsession)⟩
    · exact hpc
  · rcases hlog _ hmem with hold | ⟨hnew, -⟩
    · exact h.noneDiscarded session input output hold
    · exact hnew session input output rfl
  · refine total_eq_zero.2 fun e hmem => ?_
    rcases hlog e hmem with hold | ⟨-, hnew⟩
    · exact total_eq_zero.1 (h.noneDropped session k) e hold
    · cases e with
      | removed session' b => exact absurd rfl (hnew session' b)
      | _ => rfl

theorem fits_of_none {s : State} {pc : Pc} (hstays : pc.removes = false)
    (hneeds : pc.needs = none) :
    pc.Fits s := by
  refine ⟨hstays, fun session hsession => ?_⟩
  rw [hneeds] at hsession
  cases hsession

theorem fits_start {s : State} {c : Call} (h : (Action.call c).conserving = true) :
    c.start.Fits s := by
  cases c with
  | addUsage session input output =>
      simp only [Call.start]
      split
      · exact fits_of_none rfl rfl
      · exact fits_of_none rfl rfl
  | removeSession session => cases h
  | _ => exact fits_of_none rfl rfl

/-- A task that moves on still fits. -/
theorem fits_of_move {s : State} {act : Action} {pc pc' : Pc} (h : Move s act pc pc')
    (hact : act.conserving = true) (hpc : pc.Fits s) : pc'.Fits s := by
  have hstays := hpc.1
  cases h with
  | present hget =>
      refine ⟨by rw [Ensured.removes_resume]; exact hstays, fun session hsession => ?_⟩
      obtain rfl := Ensured.needs_resume hsession
      exact hget
  | found hget =>
      refine ⟨by rw [Ensured.removes_resume]; exact hstays, fun session hsession => ?_⟩
      obtain rfl := Ensured.needs_resume hsession
      exact hget
  | unfetched => cases hact
  | unrefreshed => cases hact
  | unmarked =>
      exact fits_of_none (by rw [Cont.removes_resume]; exact hstays) (Cont.needs_resume _ _)
  | gone hget => cases hstays
  | next => exact fits_of_none rfl rfl
  | _ => exact fits_of_none hstays rfl

theorem isSome_putBatch {s : State} {session session' : SessionId} {b : SessionBatch}
    (h : (s.sessions.get session').isSome) :
    ((s.putBatch session b).sessions.get session').isSome := by
  rw [State.putBatch, ShardMap.get_insert]
  split
  · rfl
  · exact h

theorem isSome_putBatch_self (s : State) (session : SessionId) (b : SessionBatch) :
    ((s.putBatch session b).sessions.get session).isSome := by
  rw [State.putBatch, ShardMap.get_insert_self]
  rfl

/-- **In a run without removals in which `get_session` succeeds, nothing is lost.** -/
theorem Lossless.step {s s' : State} {act : Action} (h : Lossless s)
    (hstep : UsageBatch.step cfg sharding s act = some s') (hact : act.conserving = true) :
    Lossless s' := by
  have hquiet : ∀ e ∈ s.log, e ∈ s.log ∨ (∀ session input output,
      e ≠ .discarded session input output) ∧ ∀ session b, e ≠ .removed session b :=
    fun _ he => Or.inl he
  have hfits {t : TaskId} {pc : Pc} (ht : s.tasks[t]? = some pc) : pc.Fits s :=
    h.fits pc (List.mem_of_getElem? ht)
  cases change_of_step hstep with
  | call c =>
      refine ⟨fun pc hmem => ?_, h.noneDiscarded, h.noneDropped⟩
      rcases List.mem_append.1 hmem with hold | hnew
      · exact h.fits pc hold
      · obtain rfl := List.mem_singleton.1 hnew
        exact fits_start hact
  | tick nanos => exact ⟨h.fits, h.noneDiscarded, h.noneDropped⟩
  | move ht hmove =>
      exact h.goTo rfl (fun _ hthere => hthere) hquiet (fits_of_move hmove hact (hfits ht))
  | create ht hnew =>
      refine h.goTo rfl (fun _ => isSome_putBatch) hquiet ⟨?_, fun session hsession => ?_⟩
      · rw [Ensured.removes_resume]
        exact (hfits ht).1
      · obtain rfl := Ensured.needs_resume hsession
        exact isSome_putBatch_self s session _
  | accumulate ht hb =>
      refine h.goTo rfl (fun _ => isSome_putBatch) (fun e he => ?_) ?_
      · rcases List.mem_cons.1 he with rfl | hold
        · exact Or.inr ⟨nofun, nofun⟩
        · exact Or.inl hold
      · split
        · exact fits_of_none rfl rfl
        · exact fits_of_none rfl rfl
  | discard ht hb =>
      have hthere := (hfits ht).2 _ rfl
      rw [hb] at hthere
      cases hthere
  | take ht hb hflushes =>
      refine h.goTo rfl (fun _ => isSome_putBatch) (fun e he => ?_) (fits_of_none (hfits ht).1 rfl)
      rcases List.mem_cons.1 he with rfl | he
      · exact Or.inr ⟨nofun, nofun⟩
      · rcases List.mem_cons.1 he with rfl | hold
        · exact Or.inr ⟨nofun, nofun⟩
        · exact Or.inl hold
  | pass ht hpass =>
      refine h.goTo rfl (fun _ hthere => hthere) (fun e he => ?_)
        (fits_of_none ?_ (Cont.needs_resume _ _))
      · rcases List.mem_cons.1 he with rfl | hold
        · exact Or.inr ⟨nofun, nofun⟩
        · exact Or.inl hold
      · rw [Cont.removes_resume]
        exact (hfits ht).1
  | hand ht =>
      refine h.goTo rfl (fun _ hthere => hthere) hquiet ?_
      split
      · exact fits_of_none (hfits ht).1 rfl
      · exact fits_of_none (hfits ht).1 rfl
  | mark ht hb =>
      refine h.goTo rfl (fun _ => isSome_putBatch) hquiet (fits_of_none ?_ (Cont.needs_resume _ _))
      rw [Cont.removes_resume]
      exact (hfits ht).1
  | remove ht hb => cases (hfits ht).1
  | attempt hsub hattempt => exact ⟨h.fits, h.noneDiscarded, h.noneDropped⟩

/-! ### The conservation law -/

/-- **Conservation of usage.**  In every run in which no session is removed and `get_session`
succeeds, in every state in which the sums of the tokens accepted fit in 64 bits: what `add_usage`
accepted for a session is what is pending, about to be handed over, or handed over for that session,
for each kind of tokens on its own, and no submission is empty. -/
theorem conserved (cfg : SettlementConfig) (sharding : Sharding SessionId) {as : List Action} {s : State}
    (hrun : run (step cfg sharding) init as = some s) (has : ∀ act ∈ as, act.conserving = true)
    (hfit : ∀ session k, s.accepted session k < 2 ^ 64) : Conserved s := by
  have hsound := sound_of_reachable ⟨as, hrun⟩
  have hlossless : Lossless s := by
    have halways : Always (step cfg sharding) Lossless init as :=
      always_of_step (fun _ _ _ h hstep hact => h.step hstep hact) lossless_init
        (throughout_of_forall_mem has init)
    exact halways.last hrun
  refine ⟨fun session k => ?_, hlossless.noneDiscarded, hsound.noneEmpty⟩
  have hexact := hsound.exact session k (hfit session k)
  have hbalance := hsound.ledger.balance session k
  have hcustody := hsound.ledger.custody session k
  have hdropped := hlossless.noneDropped session k
  omega

/-- All tokens an event lets any session accept. -/
def Event.size : Event → ℕ
  | .accumulated _ input output _ _ => input.toNat + output.toNat
  | _ => 0

theorem accepted_le_size (s : State) (session : SessionId) (k : Kind) :
    s.accepted session k ≤ total Event.size s.log := by
  refine total_mono (fun e => ?_) s.log
  cases e with
  | accumulated session' input output gainedInput gainedOutput =>
      simp only [Event.accepted, Event.size]
      split
      · cases k with
        | input => exact Nat.le_add_right _ _
        | output => exact Nat.le_add_left _ _
      · exact Nat.zero_le _
  | _ => exact Nat.zero_le _

/-- Usage of two sessions; the first reaches the chunk and is flushed, and more of its usage comes
in before the batch is taken out of the hand of the flush. -/
def twoSessions : List Action :=
  [.call (.addUsage 1 100 50), .step 0, .call (.addUsage 2 7 0), .step 1, .answer 1 (some ⟨0, 0⟩),
    .step 1, .answer 0 (some ⟨5, 5⟩), .step 0, .step 0, .call (.addUsage 1 1 1), .step 2, .step 0,
    .step 0, .step 2, .step 1, .step 0, .attempt 0 .sendFailed, .attempt 0 .confirmed]

def observeTokens (s : State) : ℕ × ℕ × ℕ × ℕ × ℕ :=
  (total Event.size s.log, s.accepted 1 .input, s.pending 1 .input, s.handed 1 .input,
    s.pending 2 .input)

theorem observe_twoSessions :
    (run (step sampleConfig sampleSharding) init twoSessions).map observeTokens =
      some (159, 101, 1, 100, 7) := by
  decide +kernel

theorem conserved_twoSessions :
    ∃ s, run (step sampleConfig sampleSharding) init twoSessions = some s ∧ Conserved s ∧
      s.accepted 1 .input = 101 ∧ s.pending 1 .input = 1 ∧ s.handed 1 .input = 100 := by
  obtain ⟨s, hrun, hobs⟩ := Option.map_eq_some_iff.1 observe_twoSessions
  simp only [observeTokens, Prod.mk.injEq] at hobs
  obtain ⟨hsize, haccepted, hpending, hhanded, -⟩ := hobs
  refine ⟨s, hrun, ?_, haccepted, hpending, hhanded⟩
  refine conserved sampleConfig sampleSharding hrun (by decide) fun session k => ?_
  have hle := accepted_le_size s session k
  omega

end UsageBatch
