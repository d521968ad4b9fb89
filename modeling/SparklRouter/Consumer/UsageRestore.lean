/-
**What becomes of a batch whose submission fails.**

`flush_session` sets the pending tokens to zero before it submits them, and
`record_usage_with_retry` tells nobody whether it succeeded.  When all attempts fail and the node
has accepted none of them, the tokens are in no batch and on no chain, and no later step of any task
adds them to a batch again.

Main definitions:

* `UsageBatch.GivenBack` — the tokens of the failed submissions of a session are pending again, or
  have been taken once more;
* `UsageBatch.Restores` — whatever happens after a section of `flush_session`, once its submission
  has failed the tokens are given back;
* `UsageBatch.TakesNothing` — the section takes nothing.

Main results:

* `UsageBatch.givenBack_iff` — **failed tokens are given back only when there are none**;
* `UsageBatch.Ticketed.step` — a submission is that of one section;
* `UsageBatch.restores_iff` — **a flush restores what a failed submission took exactly when it takes
  nothing**;
* `UsageBatch.restores_breaks` — a flush that loses a batch.
-/

import SparklRouter.Consumer.UsageLedger

set_option relaxedAutoImplicit false
set_option autoImplicit false

namespace UsageBatch

open Chain TaskPool Transition

variable {cfg : SettlementConfig} {sharding : Sharding SessionId}

/-! ### Giving back -/

/-- The tokens of the session in submissions that failed with nothing accepted. -/
def State.failed (s : State) (session : SessionId) (k : Kind) : ℕ :=
  total (fun sub => if sub.gaveUp then share session k sub.batch else 0) s.submissions

/-- What `add_usage` added and what failed submissions gave back is what is pending, was taken by a
flush, or was dropped by a removal. -/
def GivenBack (s : State) (session : SessionId) : Prop :=
  ∀ k, s.gained session k + s.failed session k =
    s.pending session k + s.taken session k + s.dropped session k

/-- A batch that is not empty has a share for its own session. -/
theorem share_pos {b : Batch} (h : b.noOp = false) : ∃ k, 0 < share b.sessionId k b := by
  rcases pos_of_not_noOp h with hin | hout
  · exact ⟨.input, by rw [share, if_pos rfl]; exact hin⟩
  · exact ⟨.output, by rw [share, if_pos rfl]; exact hout⟩

/-- **Failed tokens are given back only when there are none**: the tokens of a session are given
back exactly when none of its submissions has failed with nothing accepted. -/
theorem givenBack_iff {s : State} (h : Sound s) (session : SessionId) :
    GivenBack s session ↔
      ∀ sub ∈ s.submissions, sub.batch.sessionId = session → sub.gaveUp = false := by
  have hfailed : GivenBack s session ↔ ∀ k, s.failed session k = 0 := by
    refine forall_congr' fun k => ?_
    have hbalance := h.ledger.balance session k
    omega
  rw [hfailed]
  constructor
  · rintro hzero sub hsub rfl
    obtain ⟨k, hpos⟩ := share_pos (h.noneEmpty.submissions sub hsub)
    have hnone := total_eq_zero.1 (hzero k) sub hsub
    cases hgave : sub.gaveUp with
    | false => rfl
    | true =>
        simp only [hgave, if_true] at hnone
        omega
  · intro hnone k
    refine total_eq_zero.2 fun sub hsub => ?_
    by_cases hsession : sub.batch.sessionId = session
    · rw [hnone sub hsub hsession]
      rfl
    · simp [share, hsession]

/-! ### Tickets -/

/-- A ticket stands for one section of `flush_session` and the batch it took. -/
structure Ticketed (s : State) : Prop where
  below : ∀ n b, .took n b ∈ s.log → n < s.tickets
  unique : ∀ n b b', .took n b ∈ s.log → .took n b' ∈ s.log → b = b'
  inHand : ∀ n b awaitChain k, .submitting n b awaitChain k ∈ s.tasks → .took n b ∈ s.log
  handed : ∀ sub ∈ s.submissions, .took sub.ticket sub.batch ∈ s.log

theorem ticketed_init : Ticketed init := by
  refine ⟨?_, ?_, ?_, ?_⟩
  · intro _ _ h
    cases h
  · intro _ _ _ h
    cases h
  · intro _ _ _ _ h
    cases h
  · intro _ h
    cases h

/-- A step that takes and submits nothing. -/
theorem Ticketed.goTo {s s₁ : State} {t : TaskId} {pc' : Pc} (h : Ticketed s)
    (htasks : s₁.tasks = s.tasks) (hsubs : s₁.submissions = s.submissions)
    (htickets : s₁.tickets = s.tickets)
    (hlog : ∀ n b, .took n b ∈ s₁.log ↔ .took n b ∈ s.log) (hpc : pc'.idle) :
    Ticketed (s₁.goTo t pc') := by
  refine ⟨fun n b hn => ?_, fun n b b' hn hn' => ?_, fun n b awaitChain k hmem => ?_,
    fun sub hsub => ?_⟩
  · have hold := h.below n b ((hlog n b).1 hn)
    exact htickets ▸ hold
  · exact h.unique n b b' ((hlog n b).1 hn) ((hlog n b').1 hn')
  · rcases mem_goTo hmem with hold | hnew
    · exact (hlog n b).2 (h.inHand n b awaitChain k (htasks ▸ hold))
    · exact absurd hnew.symm (hpc n b awaitChain k)
  · exact (hlog _ _).2 (h.handed sub (hsubs ▸ hsub))

/-- **Every step keeps that a ticket stands for one section.** -/
theorem Ticketed.step {s s' : State} {act : Action} (h : Ticketed s)
    (hstep : UsageBatch.step cfg sharding s act = some s') : Ticketed s' := by
  have hself : ∀ n b, Event.took n b ∈ s.log ↔ Event.took n b ∈ s.log := fun _ _ => Iff.rfl
  have hrecord : ∀ e : Event, (∀ n b, e ≠ .took n b) →
      ∀ n b, Event.took n b ∈ e :: s.log ↔ Event.took n b ∈ s.log := by
    intro e he n b
    rw [List.mem_cons, or_iff_right (Ne.symm (he n b))]
  cases change_of_step hstep with
  | call c =>
      refine ⟨h.below, h.unique, fun n b awaitChain k hmem => ?_, h.handed⟩
      rcases List.mem_append.1 hmem with hold | hnew
      · exact h.inHand n b awaitChain k hold
      · exact absurd (List.mem_singleton.1 hnew).symm (idle_start c n b awaitChain k)
  | tick nanos => exact ⟨h.below, h.unique, h.inHand, h.handed⟩
  | move ht hmove => exact h.goTo rfl rfl rfl hself (idle_of_move hmove)
  | create ht hnew => exact h.goTo rfl rfl rfl hself (Ensured.idle_resume _ _)
  | accumulate ht hb =>
      refine h.goTo rfl rfl rfl (hrecord _ nofun) fun _ _ _ _ hpc => ?_
      split at hpc
      · cases hpc
      · cases hpc
  | discard ht hb => exact h.goTo rfl rfl rfl (hrecord _ nofun) fun _ _ _ _ hpc => by cases hpc
  | pass ht hpass => exact h.goTo rfl rfl rfl (hrecord _ nofun) (Cont.idle_resume _ _)
  | mark ht hb => exact h.goTo rfl rfl rfl hself (Cont.idle_resume _ _)
  | remove ht hb => exact h.goTo rfl rfl rfl (hrecord _ nofun) fun _ _ _ _ hpc => by cases hpc
  | @take t session force awaitChain k b ht hb hflushes =>
      have hnew : ∀ n b', Event.took n b' ∈ (takeStep s t session awaitChain k b).log →
          (n = s.tickets ∧ b' = ⟨session, b.pendingInput, b.pendingOutput⟩) ∨
            Event.took n b' ∈ s.log := by
        intro n b' hmem
        rcases List.mem_cons.1 hmem with heq | hmem
        · obtain ⟨rfl, rfl⟩ := Event.took.inj heq
          exact Or.inl ⟨rfl, rfl⟩
        · exact Or.inr ((hrecord (.flushed t session) nofun n b').1 hmem)
      have hold : ∀ n b', Event.took n b' ∈ s.log →
          Event.took n b' ∈ (takeStep s t session awaitChain k b).log := by
        intro n b' hmem
        exact List.mem_cons_of_mem _ (List.mem_cons_of_mem _ hmem)
      refine ⟨fun n b' hn => ?_, fun n b₁ b₂ h₁ h₂ => ?_, fun n b' awaitChain' k' hmem => ?_,
        fun sub hsub => hold _ _ (h.handed sub hsub)⟩
      · change n < s.tickets + 1
        rcases hnew n b' hn with ⟨rfl, -⟩ | hn
        · omega
        · have := h.below n b' hn
          omega
      · -- the new ticket is not an old one
        rcases hnew n b₁ h₁ with ⟨rfl, rfl⟩ | h₁
        · rcases hnew _ b₂ h₂ with ⟨-, rfl⟩ | h₂
          · rfl
          · exact absurd (h.below _ _ h₂) (Nat.lt_irrefl _)
        · rcases hnew n b₂ h₂ with ⟨rfl, rfl⟩ | h₂
          · exact absurd (h.below _ _ h₁) (Nat.lt_irrefl _)
          · exact h.unique n b₁ b₂ h₁ h₂
      · rcases mem_goTo hmem with hmem | heq
        · exact hold n b' (h.inHand n b' awaitChain' k' hmem)
        · obtain ⟨rfl, rfl, -⟩ := Pc.submitting.inj heq
          exact List.mem_cons_self
  | @hand t ticket b awaitChain k ht =>
      refine ⟨h.below, h.unique, fun n b' awaitChain' k' hmem => ?_, fun sub hsub => ?_⟩
      · rcases mem_goTo hmem with hold | hnew
        · exact h.inHand n b' awaitChain' k' hold
        · split at hnew
          · cases hnew
          · cases hnew
      · rcases List.mem_append.1 hsub with hold | hnew
        · exact h.handed sub hold
        · obtain rfl := List.mem_singleton.1 hnew
          exact h.inHand ticket b awaitChain k (List.mem_of_getElem? ht)
  | @attempt j o sub sub' hsub hattempt =>
      refine ⟨h.below, h.unique, h.inHand, fun sub₁ hmem => ?_⟩
      rcases List.mem_or_eq_of_mem_set hmem with hold | rfl
      · exact h.handed sub₁ hold
      · obtain ⟨hticket, hbatch⟩ := Submission.batch_attempt hattempt
        rw [hticket, hbatch]
        exact h.handed sub (List.mem_of_getElem? hsub)

/-- The history only grows. -/
theorem mem_log_of_step {s s' : State} {act : Action} {e : Event} (h : e ∈ s.log)
    (hstep : UsageBatch.step cfg sharding s act = some s') : e ∈ s'.log := by
  cases change_of_step hstep with
  | accumulate ht hb => exact List.mem_cons_of_mem _ h
  | discard ht hb => exact List.mem_cons_of_mem _ h
  | pass ht hpass => exact List.mem_cons_of_mem _ h
  | remove ht hb => exact List.mem_cons_of_mem _ h
  | take ht hb hflushes => exact List.mem_cons_of_mem _ (List.mem_cons_of_mem _ h)
  | _ => exact h

/-! ### A submission that fails -/

/-- The submission of the batch with the given ticket has failed with nothing accepted. -/
def Failed (s : State) (ticket : ℕ) : Prop :=
  ∃ sub ∈ s.submissions, sub.ticket = ticket ∧ sub.gaveUp = true

/-- The section of `flush_session` the task `t` is about to enter: if it takes a batch, then in
every state in which the submission of this batch has failed its tokens have been given back. -/
def Restores (cfg : SettlementConfig) (sharding : Sharding SessionId) (s : State) (t : TaskId) : Prop :=
  ∀ s₁ ticket b, step cfg sharding s (.step t) = some s₁ →
    s₁.log.head? = some (.took ticket b) →
    ∀ as s₂, run (step cfg sharding) s₁ as = some s₂ → Failed s₂ ticket → GivenBack s₂ b.sessionId

/-- The section finds no batch, nothing pending, or, when it is not forced, too little pending for
too short a time. -/
def TakesNothing (cfg : SettlementConfig) (s : State) (session : SessionId) (force : Bool) : Prop :=
  ∀ b, s.sessions.get session = some b → b.pendingTotal = 0 ∨
    force = false ∧ b.pendingTotal < cfg.chunk ∧ b.elapsed s.now < cfg.flushInterval

theorem SessionBatch.flushes_eq_false_iff {b : SessionBatch} {force : Bool} {now : ℕ} :
    b.flushes cfg force now = false ↔ b.pendingTotal = 0 ∨
      force = false ∧ b.pendingTotal < cfg.chunk ∧ b.elapsed now < cfg.flushInterval := by
  unfold SessionBatch.flushes
  cases force with
  | true => by_cases hzero : b.pendingTotal = 0 <;> simp [hzero]
  | false =>
      by_cases hzero : b.pendingTotal = 0
      · simp [hzero]
      · by_cases hbelow : b.pendingTotal < cfg.chunk ∧ b.elapsed now < cfg.flushInterval
        · simp [hzero, hbelow]
        · simp [hzero, hbelow]

/-- **A failed batch is never given back.** -/
theorem not_givenBack {s s₁ s₂ : State} {act : Action}
    (hreach : Reachable (step cfg sharding) init s)
    {ticket : ℕ} {b : Batch} (hstep : step cfg sharding s act = some s₁)
    (htook : s₁.log.head? = some (.took ticket b)) {as : List Action}
    (hrun : run (step cfg sharding) s₁ as = some s₂) (hfailed : Failed s₂ ticket) :
    ¬ GivenBack s₂ b.sessionId := by
  obtain ⟨sub, hsub, rfl, hgave⟩ := hfailed
  have hreach₂ : Reachable (step cfg sharding) init s₂ := by
    obtain ⟨bs, hbs⟩ := hreach.tail hstep
    exact ⟨bs ++ as, by rw [run_append _ hbs, hrun]⟩
  have hticketed : Ticketed s₂ := hreach₂.invariant ticketed_init fun _ _ _ => Ticketed.step
  have hmem : Event.took sub.ticket b ∈ s₂.log := by
    have halways : Always (step cfg sharding) (fun s => .took sub.ticket b ∈ s.log) s₁ as :=
      always_of_invariant (fun _ _ _ => mem_log_of_step) (List.mem_of_mem_head? htook) as
    exact halways.last hrun
  have hbatch : b = sub.batch := hticketed.unique _ _ _ hmem (hticketed.handed sub hsub)
  intro hgiven
  have hnone := (givenBack_iff (sound_of_reachable hreach₂) b.sessionId).1 hgiven sub hsub
    (by rw [hbatch])
  rw [hgave] at hnone
  cases hnone

/-- Three attempts that fail before the node has the transaction. -/
theorem run_attempts {s : State} {subs : List Submission} {ticket : ℕ} {b : Batch}
    (hb : b.noOp = false) (hsubs : s.submissions = subs ++ [Submission.start ticket b]) :
    run (step cfg sharding) s (List.replicate 3 (.attempt subs.length .sendFailed)) =
      some { s with submissions := subs ++
        [⟨ticket, b, [.sendFailed, .sendFailed, .sendFailed], some false⟩] } := by
  have hattempt : ∀ (s : State) (sub sub' : Submission), s.submissions = subs ++ [sub] →
      sub.attempt .sendFailed = some sub' → step cfg sharding s (.attempt subs.length .sendFailed) =
        some { s with submissions := subs ++ [sub'] } := by
    intro s sub sub' hs hsub
    simp [step, hs, hsub]
  have hfails := recordUsage_sendFailed hb
  rw [List.replicate_succ, run_cons _ (hattempt s _ ⟨ticket, b, [.sendFailed], none⟩ hsubs
    (by simp [Submission.attempt, Submission.start, hfails, maxAttempts]))]
  rw [List.replicate_succ, run_cons _ (hattempt _ _ ⟨ticket, b, [.sendFailed, .sendFailed], none⟩ rfl
    (by simp [Submission.attempt, hfails, maxAttempts]))]
  rw [List.replicate_succ, run_cons _ (hattempt _ _
    ⟨ticket, b, [.sendFailed, .sendFailed, .sendFailed], some false⟩ rfl
    (by simp [Submission.attempt, hfails, maxAttempts]))]
  rfl

/-- The submission of a section that takes a batch can fail. -/
theorem exists_failed (sharding : Sharding SessionId) {s : State} {t : TaskId}
    {session : SessionId} {force awaitChain : Bool}
    {k : Cont} {b : SessionBatch} (ht : s.tasks[t]? = some (.flushing session force awaitChain k))
    (hb : s.sessions.get session = some b) (hflushes : b.flushes cfg force s.now = true) :
    ∃ s₁ ticket b as s₂, step cfg sharding s (.step t) = some s₁ ∧
      s₁.log.head? = some (.took ticket b) ∧ run (step cfg sharding) s₁ as = some s₂ ∧
      Failed s₂ ticket := by
  let batch : Batch := ⟨session, b.pendingInput, b.pendingOutput⟩
  let s₁ := takeStep s t session awaitChain k b
  have hsection : step cfg sharding s (.step t) = some s₁ := by
    simp only [step, ht, Option.bind_some, advance, hb, if_pos hflushes]
    rfl
  have ht₁ : s₁.tasks[t]? = some (.submitting s.tickets batch awaitChain k) :=
    getElem?_set_self ht _
  let s₂ : State :=
    { s₁ with submissions := s₁.submissions ++ [Submission.start s.tickets batch] }.goTo
    t (if awaitChain then .awaiting s.tickets session k else .refreshing session k)
  have hhand : step cfg sharding s₁ (.step t) = some s₂ := by
    simp only [step, ht₁, Option.bind_some, advance]
    rfl
  have hsubs : s₂.submissions = s.submissions ++ [Submission.start s.tickets batch] := rfl
  have hnoOp := SessionBatch.noOp_of_flushes hflushes session
  have hattempts : run (step cfg sharding) s₂
      (List.replicate 3 (.attempt s.submissions.length .sendFailed)) = _ :=
    run_attempts hnoOp hsubs
  rw [← run_cons _ hhand] at hattempts
  have hfailed : Failed { s₂ with submissions := s.submissions ++
      [⟨s.tickets, batch, [.sendFailed, .sendFailed, .sendFailed], some false⟩] } s.tickets :=
    ⟨_, List.mem_append_right _ List.mem_cons_self, rfl, rfl⟩
  exact ⟨s₁, s.tickets, batch, _, _, hsection, rfl, hattempts, hfailed⟩

/-! ### Restoring -/

/-- **Which flushes restore their tokens.**  For every reachable state and every section of
`flush_session`, forced or not, awaited or not: after it, the tokens of its failed submission are
given back in every run, if and only if it takes nothing; and they are given back in no state in
which the submission has failed. -/
theorem restores_iff (cfg : SettlementConfig) (sharding : Sharding SessionId) {s : State}
    (hreach : Reachable (step cfg sharding) init s) {t : TaskId} {session : SessionId}
    {force awaitChain : Bool} {k : Cont}
    (ht : s.tasks[t]? = some (.flushing session force awaitChain k)) :
    (Restores cfg sharding s t ↔ TakesNothing cfg s session force) ∧
      ∀ s₁ ticket b as s₂, step cfg sharding s (.step t) = some s₁ →
        s₁.log.head? = some (.took ticket b) → run (step cfg sharding) s₁ as = some s₂ →
        Failed s₂ ticket → ¬ GivenBack s₂ b.sessionId := by
  have hnever : ∀ s₁ ticket b as s₂, step cfg sharding s (.step t) = some s₁ →
      s₁.log.head? = some (.took ticket b) → run (step cfg sharding) s₁ as = some s₂ →
      Failed s₂ ticket → ¬ GivenBack s₂ b.sessionId :=
    fun _ _ _ _ _ hstep htook hrun => not_givenBack hreach hstep htook hrun
  refine ⟨⟨fun hrestores b hb => ?_, fun hnothing s₁ ticket b hstep htook => ?_⟩, hnever⟩
  · rw [← SessionBatch.flushes_eq_false_iff]
    by_contra hflushes
    obtain ⟨s₁, ticket, b', as, s₂, hstep, htook, hrun, hfailed⟩ :=
      exists_failed sharding ht hb (eq_true_of_ne_false hflushes)
    exact hnever s₁ ticket b' as s₂ hstep htook hrun hfailed
      (hrestores s₁ ticket b' hstep htook as s₂ hrun hfailed)
  · -- a section that takes nothing logs no batch
    exfalso
    have hs₁ : s₁ = passStep s t session k := by
      cases hb : s.sessions.get session with
      | none =>
          simp only [step, ht, Option.bind_some, advance, hb, Option.some.injEq] at hstep
          exact hstep.symm
      | some b =>
          have hflushes := SessionBatch.flushes_eq_false_iff.2 (hnothing b hb)
          simp only [step, ht, Option.bind_some, advance, hb, hflushes, Option.some.injEq,
            Bool.false_eq_true, if_false] at hstep
          exact hstep.symm
    subst hs₁
    cases htook

/-- Usage that reaches the chunk; its flush is about to enter its section. -/
def beforeFlush : List Action :=
  [.call (.addUsage 1 100 50), .step 0, .answer 0 (some ⟨0, 0⟩), .step 0, .step 0, .step 0]

def observeFlush (s : State) : Option Pc × Option (UInt64 × Bool) :=
  (s.tasks[0]?, (s.sessions.get 1).map fun b =>
    (b.pendingTotal, b.flushes sampleConfig false s.now))

theorem observe_beforeFlush :
    (run (step sampleConfig sampleSharding) init beforeFlush).map observeFlush =
      some (some (.flushing 1 false false .done), some (150, true)) := by
  decide +kernel

/-- The section is about to take a batch. -/
theorem exists_beforeFlush : ∃ s b,
    run (step sampleConfig sampleSharding) init beforeFlush = some s ∧
    s.tasks[0]? = some (.flushing 1 false false .done) ∧ s.sessions.get 1 = some b ∧
      b.flushes sampleConfig false s.now = true := by
  obtain ⟨s, hrun, hobs⟩ := Option.map_eq_some_iff.1 observe_beforeFlush
  obtain ⟨ht, hflush⟩ := Prod.mk.inj hobs
  obtain ⟨b, hb, hflush⟩ := Option.map_eq_some_iff.1 hflush
  exact ⟨s, b, hrun, ht, hb, (Prod.mk.inj hflush).2⟩

theorem restores_iff_beforeFlush :
    ∃ s, run (step sampleConfig sampleSharding) init beforeFlush = some s ∧
      ¬ TakesNothing sampleConfig s 1 false ∧ ¬ Restores sampleConfig sampleSharding s 0 := by
  obtain ⟨s, b, hrun, ht, hb, hflushes⟩ := exists_beforeFlush
  have hnothing : ¬ TakesNothing sampleConfig s 1 false := by
    intro hnothing
    rw [SessionBatch.flushes_eq_false_iff.2 (hnothing b hb)] at hflushes
    cases hflushes
  refine ⟨s, hrun, hnothing, fun hrestores => hnothing ?_⟩
  exact (restores_iff sampleConfig sampleSharding ⟨_, hrun⟩ ht).1.1 hrestores

/-- **A failed submission loses its tokens**: the flush of the usage above takes them, its three
attempts fail before the node has a transaction, and they are pending nowhere. -/
theorem restores_breaks : ¬ ∀ (cfg : SettlementConfig) (sharding : Sharding SessionId) (s : State)
    (t : TaskId) (session : SessionId) (force awaitChain : Bool) (k : Cont),
    Reachable (step cfg sharding) init s →
    s.tasks[t]? = some (.flushing session force awaitChain k) → Restores cfg sharding s t := by
  intro hall
  obtain ⟨s, b, hrun, ht, hb, hflushes⟩ := exists_beforeFlush
  have hreach : Reachable (step sampleConfig sampleSharding) init s := ⟨_, hrun⟩
  have hrestores := hall sampleConfig sampleSharding s 0 1 false false .done hreach ht
  obtain ⟨s₁, ticket, b', as, s₂, hstep, htook, hrun₂, hfailed⟩ :=
    exists_failed sampleSharding ht hb hflushes
  exact not_givenBack hreach hstep htook hrun₂ hfailed
    (hrestores s₁ ticket b' hstep htook as s₂ hrun₂ hfailed)

end UsageBatch
