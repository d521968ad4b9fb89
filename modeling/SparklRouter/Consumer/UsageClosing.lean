/-
**Closing a session.**

`remove_session` flushes the session and then removes its batch, and between the two it waits for
the chain.  Usage that comes in meanwhile is added to a batch that is about to go, and unless
another flush takes it in time it goes with the batch.  This module proves that this window is the
only way: a removal drops tokens exactly when usage came in after the section of its own flush and
no flush took it before the removal.

Main definitions:

* `UsageBatch.quietUpTo` — no usage since a flush took the session, read off the history;
* `UsageBatch.ClosesClean` — a removal finds nothing pending;
* `UsageBatch.NoneSlipsIn` — no usage slips in between the flush of a removal and the removal.

Main results:

* `UsageBatch.Window.step` — **what the history says of the batches and of the removals under way**;
* `UsageBatch.closesClean_iff` — **in every run, the removals find nothing pending exactly when no
  usage slips in**;
* `UsageBatch.closesClean_breaks` — usage that goes with its batch.
-/

import SparklRouter.Consumer.UsageLedger

set_option relaxedAutoImplicit false
set_option autoImplicit false

namespace UsageBatch

open Chain TaskPool Transition

variable {cfg : SettlementConfig} {sharding : Sharding SessionId}

/-! ### Reading the history -/

/-- Going back in the history up to a section of `flush_session` for the session that one of the
given tasks was in, a flush that took its batch, or its removal: no usage of the session came in. -/
def quietUpTo (stop : TaskId → Bool) (session : SessionId) : List Event → Bool
  | [] => true
  | .accumulated s _ _ _ _ :: rest => if s = session then false else quietUpTo stop session rest
  | .discarded _ _ _ :: rest => quietUpTo stop session rest
  | .flushed t s :: rest => if s = session ∧ stop t then true else quietUpTo stop session rest
  | .took _ b :: rest => if b.sessionId = session then true else quietUpTo stop session rest
  | .removed s _ :: rest => if s = session then true else quietUpTo stop session rest

/-- No usage of the session since a flush took its batch. -/
def quiet (session : SessionId) (log : List Event) : Bool := quietUpTo (fun _ => false) session log

/-- No usage of the session since the task `t` was in the section of its flush, or since a later
flush took its batch. -/
def quietSince (t : TaskId) (session : SessionId) (log : List Event) : Bool :=
  quietUpTo (fun t' => t' == t) session log

/-- A removal finds nothing pending. -/
def ClosesClean (s : State) (act : Action) (_ : State) : Prop :=
  ∀ t session b, act = .step t → s.tasks[t]? = some (.removing session) →
    s.sessions.get session = some b → b.pendingInput = 0 ∧ b.pendingOutput = 0

/-- At a removal, no usage of the session has come in since the section of the flush that
`remove_session` began with, or since a later flush took the batch. -/
def NoneSlipsIn (s : State) (act : Action) (_ : State) : Prop :=
  ∀ t session, act = .step t → s.tasks[t]? = some (.removing session) →
    (s.sessions.get session).isSome → quietSince t session s.log = true

/-- An event keeps that the two ways to read the history agree. -/
theorem quietSince_cons {t : TaskId} {session : SessionId} {log : List Event} {e : Event}
    (h : quietSince t session log = quiet session log) (he : e ≠ .flushed t session) :
    quietSince t session (e :: log) = quiet session (e :: log) := by
  cases e with
  | accumulated s input output gainedInput gainedOutput =>
      change (if s = session then false else quietSince t session log) =
        if s = session then false else quiet session log
      rw [h]
  | discarded s input output => exact h
  | flushed t' s =>
      have hstop : ¬ (s = session ∧ (t' == t) = true) := by
        rintro ⟨rfl, ht⟩
        obtain rfl := eq_of_beq ht
        exact he rfl
      change (if s = session ∧ (t' == t) = true then true else quietSince t session log) =
        if s = session ∧ false = true then true else quiet session log
      rw [if_neg hstop, if_neg (fun hand => by cases hand.2)]
      exact h
  | took ticket b =>
      change (if b.sessionId = session then true else quietSince t session log) =
        if b.sessionId = session then true else quiet session log
      rw [h]
  | removed s b =>
      change (if s = session then true else quietSince t session log) =
        if s = session then true else quiet session log
      rw [h]

/-- The section of a flush says nothing on its own of what is pending. -/
@[simp] theorem quiet_flushed (t : TaskId) (session session' : SessionId) (log : List Event) :
    quiet session (.flushed t session' :: log) = quiet session log := by
  change (if session' = session ∧ false = true then true else quiet session log) = _
  rw [if_neg (fun hand => by cases hand.2)]

theorem quietSince_flushed_self (t : TaskId) (session : SessionId) (log : List Event) :
    quietSince t session (.flushed t session :: log) = true := by
  change (if session = session ∧ (t == t) = true then true else quietSince t session log) = true
  rw [if_pos ⟨rfl, beq_self_eq_true t⟩]

/-! ### The tasks -/

/-- The session a task is going to remove and has flushed. -/
def Pc.closing : Pc → Option SessionId
  | .submitting _ b _ k => if k.removes then some b.sessionId else none
  | .awaiting _ session k | .refreshing session k | .marking session _ k =>
      if k.removes then some session else none
  | .removing session => some session
  | _ => none

def Ensured.Fair : Ensured → Prop
  | .done => True
  | .accumulate input output => ¬ (input = 0 ∧ output = 0)
  | .flush force _ k => k.removes = true → force = true

/-- A task adds something, and forces the flush of a session it is going to remove. -/
def Pc.Fair : Pc → Prop
  | .checking _ k | .fetching _ k | .creating _ _ k => k.Fair
  | .accumulating _ input output => ¬ (input = 0 ∧ output = 0)
  | .flushing _ force _ k => k.removes = true → force = true
  | _ => True

theorem Ensured.fair_resume {k : Ensured} (h : k.Fair) (session : SessionId) :
    (k.resume session).Fair := by
  cases k with
  | done => trivial
  | accumulate input output => exact h
  | flush force awaitChain k => exact h

theorem Cont.fair_resume (k : Cont) (session : SessionId) : (k.resume session).Fair := by
  cases k with
  | done => trivial
  | remove => trivial
  | loop l rest => trivial

theorem fair_start (c : Call) : c.start.Fair := by
  cases c with
  | ensureSession session => trivial
  | addUsage session input output =>
      simp only [Call.start]
      split
      · trivial
      · rename_i hne
        exact hne
  | flushSession session force awaitChain => exact fun h => by cases h
  | removeSession session => exact fun _ => rfl
  | sweepTimeouts => trivial
  | flushAllOnShutdown => trivial

theorem fair_of_move {s : State} {act : Action} {pc pc' : Pc} (h : Move s act pc pc')
    (hpc : pc.Fair) : pc'.Fair := by
  cases h with
  | present hget => exact Ensured.fair_resume hpc _
  | unfetched => exact Ensured.fair_resume hpc _
  | found hget => exact Ensured.fair_resume hpc _
  | unrefreshed => exact Cont.fair_resume _ _
  | unmarked => exact Cont.fair_resume _ _
  | absent => exact hpc
  | fetched => exact hpc
  | next => exact fun h => by cases h
  | _ => trivial

theorem Ensured.closing_resume (k : Ensured) (session : SessionId) :
    (k.resume session).closing = none := by
  cases k with
  | done => rfl
  | accumulate input output => rfl
  | flush force awaitChain k => rfl

theorem Cont.closing_resume (k : Cont) (session : SessionId) :
    (k.resume session).closing = if k.removes then some session else none := by
  cases k with
  | done => rfl
  | remove => rfl
  | loop l rest => rfl

theorem closing_start (c : Call) : c.start.closing = none := by
  cases c with
  | addUsage session input output =>
      simp only [Call.start]
      split
      · rfl
      · rfl
  | _ => rfl

/-- A task that has flushed the session it is going to remove had done so before. -/
theorem closing_of_move {s : State} {act : Action} {pc pc' : Pc} (h : Move s act pc pc') :
    pc'.closing = none ∨ pc'.closing = pc.closing := by
  cases h with
  | present hget => exact Or.inl (Ensured.closing_resume _ _)
  | unfetched => exact Or.inl (Ensured.closing_resume _ _)
  | found hget => exact Or.inl (Ensured.closing_resume _ _)
  | waited => exact Or.inr rfl
  | refreshed => exact Or.inr rfl
  | unrefreshed => exact Or.inr (Cont.closing_resume _ _)
  | unmarked => exact Or.inr (Cont.closing_resume _ _)
  | _ => exact Or.inl rfl

/-! ### What the history says -/

/-- Nothing is pending for the session. -/
def State.idle (s : State) (session : SessionId) : Prop := ∀ k, s.pending session k = 0

/-- The history tells which batches have something pending; and it tells the same from the section
of its flush on for a task that is going to remove the session. -/
structure Window (s : State) : Prop where
  fair : ∀ pc ∈ s.tasks, pc.Fair
  idle : ∀ session, s.idle session ↔ quiet session s.log = true
  since : ∀ (t : TaskId) (pc : Pc) (session : SessionId), s.tasks[t]? = some pc →
    pc.closing = some session → quietSince t session s.log = quiet session s.log

theorem window_init : Window init := by
  refine ⟨?_, ?_, ?_⟩
  · intro _ h
    cases h
  · intro session
    exact ⟨fun _ => rfl, fun _ _ => rfl⟩
  · intro t pc session h
    simp [init] at h

theorem idle_iff_of_get {s : State} {session : SessionId} {b : SessionBatch}
    (h : s.sessions.get session = some b) :
    s.idle session ↔ b.pendingInput = 0 ∧ b.pendingOutput = 0 := by
  constructor
  · intro hidle
    have hin := hidle .input
    have hout := hidle .output
    rw [pending_of_get h] at hin hout
    exact ⟨UInt64.toNat_inj.1 hin, UInt64.toNat_inj.1 hout⟩
  · rintro ⟨hin, hout⟩ k
    rw [pending_of_get h]
    cases k with
    | input => rw [SessionBatch.pending, hin]; rfl
    | output => rw [SessionBatch.pending, hout]; rfl

theorem idle_putBatch_of_ne {s : State} {session session' : SessionId} (b : SessionBatch)
    (h : session' ≠ session) : (s.putBatch session b).idle session' ↔ s.idle session' := by
  refine forall_congr' fun k => ?_
  rw [pending_putBatch, if_neg h]

/-- A batch with the tokens that were pending already. -/
theorem idle_putBatch {s : State} {session : SessionId} {b : SessionBatch}
    (hb : ∀ k, (b.pending k).toNat = s.pending session k) (session' : SessionId) :
    (s.putBatch session b).idle session' ↔ s.idle session' := by
  by_cases heq : session' = session
  · subst heq
    refine forall_congr' fun k => ?_
    rw [pending_putBatch, if_pos rfl, hb k]
  · exact idle_putBatch_of_ne b heq

/-- The part of `Window` about the tasks, after a step of the task `t` that logs the given
events. -/
theorem Window.since_goTo {s s₁ : State} (h : Window s) {t : TaskId} {pc' : Pc}
    (htasks : s₁.tasks = s.tasks)
    (hother : ∀ t' session, t' ≠ t → quietSince t' session s.log = quiet session s.log →
      quietSince t' session s₁.log = quiet session s₁.log)
    (hself : ∀ session, pc'.closing = some session →
      quietSince t session s₁.log = quiet session s₁.log) :
    ∀ (t' : TaskId) (pc : Pc) (session : SessionId), (s₁.goTo t pc').tasks[t']? = some pc →
      pc.closing = some session →
        quietSince t' session (s₁.goTo t pc').log = quiet session (s₁.goTo t pc').log := by
  intro t' pc session hpc hclosing
  change (s₁.tasks.set t pc')[t']? = some pc at hpc
  change quietSince t' session s₁.log = quiet session s₁.log
  rcases getElem?_set_cases hpc with ⟨rfl, rfl⟩ | ⟨hne, hold⟩
  · exact hself session hclosing
  · exact hother t' session (Ne.symm hne) (h.since t' pc session (htasks ▸ hold) hclosing)

theorem Window.fair_goTo {s s₁ : State} (h : Window s) {t : TaskId} {pc' : Pc}
    (htasks : s₁.tasks = s.tasks) (hpc : pc'.Fair) : ∀ pc ∈ (s₁.goTo t pc').tasks, pc.Fair := by
  intro pc hmem
  rcases mem_goTo hmem with hold | rfl
  · exact h.fair pc (htasks ▸ hold)
  · exact hpc

/-- A step that logs nothing. -/
theorem Window.goTo {s s₁ : State} (h : Window s) {t : TaskId} {pc pc' : Pc}
    (ht : s.tasks[t]? = some pc) (htasks : s₁.tasks = s.tasks) (hlog : s₁.log = s.log)
    (hidle : ∀ session, s₁.idle session ↔ s.idle session) (hfair : pc'.Fair)
    (hclosing : pc'.closing = none ∨ pc'.closing = pc.closing) : Window (s₁.goTo t pc') := by
  refine ⟨h.fair_goTo htasks hfair, fun session => ?_, h.since_goTo htasks ?_ ?_⟩
  · change s₁.idle session ↔ quiet session s₁.log = true
    rw [hidle, hlog]
    exact h.idle session
  · intro t' session _ hold
    rw [hlog]
    exact hold
  · intro session hsession
    rw [hlog]
    rcases hclosing with hnone | hsame
    · rw [hnone] at hsession
      cases hsession
    · exact h.since t pc session ht (hsame ▸ hsession)

/-- The section of `add_usage` leaves something pending. -/
theorem SessionBatch.not_idle_accumulate {b : SessionBatch} {input output : UInt64} {now : ℕ}
    (h : ¬ (input = 0 ∧ output = 0)) : ¬ ((b.accumulate input output now).pendingInput = 0 ∧
      (b.accumulate input output now).pendingOutput = 0) := by
  rintro ⟨hin, hout⟩
  exact h ⟨(saturatingAdd_eq_zero.1 hin).2, (saturatingAdd_eq_zero.1 hout).2⟩

theorem window_accumulate {s : State} (h : Window s) {t : TaskId} {session : SessionId}
    {input output : UInt64} {b : SessionBatch}
    (ht : s.tasks[t]? = some (.accumulating session input output)) :
    Window (accumulateStep cfg s t session input output b) := by
  unfold accumulateStep
  have hne : ¬ (input = 0 ∧ output = 0) := h.fair _ (List.mem_of_getElem? ht)
  refine ⟨h.fair_goTo rfl ?_, fun session' => ?_, h.since_goTo rfl ?_ ?_⟩
  · split
    · exact fun hremove => by cases hremove
    · trivial
  · change (s.putBatch session _).idle session' ↔
      (if session = session' then false else quiet session' s.log) = true
    by_cases heq : session' = session
    · subst heq
      have hget := ShardMap.get_insert_self s.sessions session' (b.accumulate input output s.now)
      rw [idle_iff_of_get hget, if_pos rfl]
      exact ⟨fun hidle => absurd hidle (SessionBatch.not_idle_accumulate hne), nofun⟩
    · rw [idle_putBatch_of_ne _ heq, if_neg (Ne.symm heq)]
      exact h.idle session'
  · intro t' session' _ hold
    exact quietSince_cons hold nofun
  · intro session' hclosing
    split at hclosing
    · cases hclosing
    · cases hclosing

theorem window_take {s : State} (h : Window s) {t : TaskId} {session : SessionId}
    {awaitChain : Bool} {k : Cont} {b : SessionBatch} :
    Window (takeStep s t session awaitChain k b) := by
  refine ⟨h.fair_goTo rfl trivial, fun session' => ?_, h.since_goTo rfl ?_ ?_⟩
  · change (s.putBatch session (b.taken s.now)).idle session' ↔
      (if session = session' then true else quiet session' (.flushed t session :: s.log)) = true
    by_cases heq : session' = session
    · subst heq
      have hget := ShardMap.get_insert_self s.sessions session' (b.taken s.now)
      rw [idle_iff_of_get hget, if_pos rfl]
      exact ⟨fun _ => rfl, fun _ => ⟨rfl, rfl⟩⟩
    · rw [idle_putBatch_of_ne _ heq, if_neg (Ne.symm heq), quiet_flushed]
      exact h.idle session'
  · intro t' session' hne hold
    refine quietSince_cons (quietSince_cons hold ?_) nofun
    rintro heq
    exact hne (Event.flushed.inj heq).1.symm
  · intro session' hclosing
    -- the session that is being removed is the one just taken
    have hsession : session = session' := by
      change (if k.removes then some session else none) = some session' at hclosing
      split at hclosing
      · exact Option.some.inj hclosing
      · cases hclosing
    change (if session = session' then true else _) = (if session = session' then true else _)
    rw [if_pos hsession, if_pos hsession]

theorem window_pass {s : State} (h : Window s) {t : TaskId} {session : SessionId}
    {force awaitChain : Bool} {k : Cont}
    (ht : s.tasks[t]? = some (.flushing session force awaitChain k))
    (hpass : ∀ b, s.sessions.get session = some b → b.flushes cfg force s.now = false) :
    Window (passStep s t session k) := by
  have hfair : k.removes = true → force = true := h.fair _ (List.mem_of_getElem? ht)
  refine ⟨h.fair_goTo rfl (Cont.fair_resume _ _), fun session' => ?_, h.since_goTo rfl ?_ ?_⟩
  · change s.idle session' ↔ quiet session' (.flushed t session :: s.log) = true
    rw [quiet_flushed]
    exact h.idle session'
  · intro t' session' hne hold
    refine quietSince_cons hold ?_
    rintro heq
    exact hne (Event.flushed.inj heq).1.symm
  · intro session' hclosing
    rw [Cont.closing_resume] at hclosing
    split at hclosing
    · rename_i hremove
      obtain rfl := Option.some.inj hclosing
      -- a forced flush that takes nothing has found nothing pending
      have hidle : s.idle session := by
        cases hb : s.sessions.get session with
        | none => exact fun k => pending_of_get_none hb k
        | some b =>
            have hflushes := hpass b hb
            rw [idle_iff_of_get hb, ← saturatingAdd_eq_zero]
            by_contra hne
            simp [SessionBatch.flushes, SessionBatch.pendingTotal, hne, hfair hremove] at hflushes
      change quietSince t session (.flushed t session :: s.log) =
        quiet session (.flushed t session :: s.log)
      rw [quietSince_flushed_self, quiet_flushed]
      exact ((h.idle session).1 hidle).symm
    · cases hclosing

theorem window_remove {s : State} (h : Window s) {t : TaskId} {session : SessionId}
    {b : SessionBatch} :
    Window (({ s with sessions := s.sessions.remove session }.record (.removed session b)).goTo t
      .finished) := by
  refine ⟨h.fair_goTo rfl trivial, fun session' => ?_, h.since_goTo rfl ?_ ?_⟩
  · change State.idle { s with sessions := s.sessions.remove session } session' ↔
      (if session = session' then true else quiet session' s.log) = true
    by_cases heq : session' = session
    · subst heq
      rw [if_pos rfl]
      refine ⟨fun _ => rfl, fun _ k => ?_⟩
      exact pending_of_get_none (ShardMap.get_remove_self _ _) k
    · rw [if_neg (Ne.symm heq), ← h.idle session']
      refine forall_congr' fun k => ?_
      rw [State.pending, State.pending, ShardMap.get_remove_of_ne _ heq]
  · intro t' session' _ hold
    exact quietSince_cons hold fun he => by cases he
  · intro session' hclosing
    cases hclosing

/-- **Every step keeps what the history says.** -/
theorem Window.step {s s' : State} {act : Action} (h : Window s)
    (hstep : UsageBatch.step cfg sharding s act = some s') : Window s' := by
  have hsame : ∀ session, s.idle session ↔ s.idle session := fun _ => Iff.rfl
  have hfair {t : TaskId} {pc : Pc} (ht : s.tasks[t]? = some pc) : pc.Fair :=
    h.fair pc (List.mem_of_getElem? ht)
  cases change_of_step hstep with
  | call c =>
      refine ⟨fun pc hmem => ?_, h.idle, fun t pc session hpc hclosing => ?_⟩
      · rcases List.mem_append.1 hmem with hold | hnew
        · exact h.fair pc hold
        · obtain rfl := List.mem_singleton.1 hnew
          exact fair_start c
      · rcases getElem?_append_cases hpc with ⟨-, rfl⟩ | hold
        · rw [closing_start] at hclosing
          cases hclosing
        · exact h.since t pc session hold hclosing
  | tick nanos => exact ⟨h.fair, h.idle, h.since⟩
  | move ht hmove =>
      exact h.goTo ht rfl rfl hsame (fair_of_move hmove (hfair ht)) (closing_of_move hmove)
  | create ht hnew =>
      refine h.goTo ht rfl rfl (idle_putBatch fun k => ?_) (Ensured.fair_resume (hfair ht) _)
        (Or.inl (Ensured.closing_resume _ _))
      rw [pending_of_get_none hnew]
      cases k with
      | input => rfl
      | output => rfl
  | accumulate ht hb => exact window_accumulate h ht
  | discard ht hb =>
      refine ⟨h.fair_goTo rfl trivial, h.idle, h.since_goTo rfl ?_ nofun⟩
      intro t' session' _ hold
      exact quietSince_cons hold nofun
  | take ht hb hflushes => exact window_take h
  | pass ht hpass => exact window_pass h ht hpass
  | hand ht =>
      refine h.goTo ht rfl rfl hsame ?_ (Or.inr ?_)
      · split
        · trivial
        · trivial
      · split
        · rfl
        · rfl
  | mark ht hb =>
      refine h.goTo ht rfl rfl (idle_putBatch fun k => ?_) (Cont.fair_resume _ _)
        (Or.inr (Cont.closing_resume _ _))
      rw [pending_of_get hb]
      cases k with
      | input => rfl
      | output => rfl
  | remove ht hb => exact window_remove h
  | attempt hsub hattempt => exact ⟨h.fair, h.idle, h.since⟩

/-! ### Removals -/

/-- At a removal, nothing is pending exactly when no usage has slipped in. -/
theorem Window.clean_iff_noneSlipsIn {s : State} (h : Window s) (act : Action) (s' : State) :
    ClosesClean s act s' ↔ NoneSlipsIn s act s' := by
  constructor
  · rintro hclean t session rfl ht hsome
    obtain ⟨b, hb⟩ := Option.isSome_iff_exists.1 hsome
    have hidle := (idle_iff_of_get hb).2 (hclean t session b rfl ht hb)
    rw [h.since t _ session ht rfl]
    exact (h.idle session).1 hidle
  · rintro hquiet t session b rfl ht hb
    have hsince := hquiet t session rfl ht (by rw [hb]; rfl)
    rw [h.since t _ session ht rfl] at hsince
    exact (idle_iff_of_get hb).1 ((h.idle session).2 hsince)

/-- What was gained is pending, about to be handed over, or handed over. -/
def Accounted (s : State) : Prop :=
  ∀ session k, s.gained session k =
    s.pending session k + s.inHand session k + s.handed session k

/-- A removal that finds nothing pending drops nothing. -/
theorem dropped_step {s s' : State} {act : Action} (hstep : step cfg sharding s act = some s')
    (hclean : ClosesClean s act s') (h : ∀ session k, s.dropped session k = 0) :
    ∀ session k, s'.dropped session k = 0 := by
  intro session k
  have hzero := h session k
  cases change_of_step hstep with
  | accumulate ht hb => exact (Nat.zero_add _).trans hzero
  | discard ht hb => exact (Nat.zero_add _).trans hzero
  | pass ht hpass => exact (Nat.zero_add _).trans hzero
  | take ht hb hflushes => exact (Nat.zero_add _).trans ((Nat.zero_add _).trans hzero)
  | @remove t session' b ht hb =>
      obtain ⟨hin, hout⟩ := hclean t session' b rfl ht hb
      change (if session' = session then (b.pending k).toNat else 0) + s.dropped session k = 0
      have hpending : (b.pending k).toNat = 0 := by
        cases k with
        | input => rw [SessionBatch.pending, hin]; rfl
        | output => rw [SessionBatch.pending, hout]; rfl
      split
      · omega
      · omega
  | _ => exact hzero

/-- The ledger of a run whose removals find nothing pending has nothing dropped. -/
theorem noneDropped_of_closesClean {as : List Action}
    (h : Throughout (step cfg sharding) ClosesClean init as) : Always (step cfg sharding)
      (fun s => Ledger s ∧ ∀ session k, s.dropped session k = 0) init as := by
  refine always_of_step (fun s act s' h hstep hclean => ?_) ⟨ledger_init, fun _ _ => rfl⟩ h
  exact ⟨h.1.step hstep, dropped_step hstep hclean h.2⟩

/-- **Closing sessions.**  In every run, every removal finds nothing pending if and only if no usage
comes in between the flush of a removal and the removal without being taken by another flush; and
then in every state all tokens gained are pending, about to be handed over, or handed over. -/
theorem closesClean_iff (cfg : SettlementConfig) (sharding : Sharding SessionId) (as : List Action) :
    (Throughout (step cfg sharding) ClosesClean init as ↔
      Throughout (step cfg sharding) NoneSlipsIn init as) ∧
    (Throughout (step cfg sharding) NoneSlipsIn init as →
      Always (step cfg sharding) Accounted init as) := by
  have hclean_of : Throughout (step cfg sharding) NoneSlipsIn init as →
      Throughout (step cfg sharding) ClosesClean init as :=
    throughout_of_step (fun _ _ _ h hstep _ => Window.step h hstep)
      (fun s act s' h _ hquiet => (h.clean_iff_noneSlipsIn act s').2 hquiet) window_init
  refine ⟨⟨?_, hclean_of⟩, fun hquiet => ?_⟩
  · exact throughout_of_step (fun _ _ _ h hstep _ => Window.step h hstep)
      (fun s act s' h _ hclean => (h.clean_iff_noneSlipsIn act s').1 hclean) window_init
  · refine (noneDropped_of_closesClean (hclean_of hquiet)).mono fun s h session k => ?_
    have hbalance := h.1.balance session k
    have hcustody := h.1.custody session k
    have hdropped := h.2 session k
    omega

/-- A session is closed; more usage of it comes in after its flush has taken the batch. -/
def lateUsage : List Action :=
  [.call (.addUsage 1 10 0), .step 0, .answer 0 (some ⟨0, 0⟩), .step 0, .step 0,
    .call (.removeSession 1), .step 1, .step 1, .step 1,
    .call (.addUsage 1 7 3), .step 2, .step 2,
    .answer 1 (some ⟨0, 0⟩), .step 1, .step 1]

theorem observe_lateUsage :
    (run (step sampleConfig sampleSharding) init lateUsage).map
      (fun s => (s.dropped 1 .input, s.dropped 1 .output)) = some (7, 3) := by
  decide +kernel

/-- **Closing a session can lose usage**: the removal drops the tokens that came in after the
section of its flush. -/
theorem closesClean_breaks : ¬ ∀ (cfg : SettlementConfig) (sharding : Sharding SessionId)
    (as : List Action), Throughout (step cfg sharding) ClosesClean init as := by
  intro hall
  have halways := noneDropped_of_closesClean (hall sampleConfig sampleSharding lateUsage)
  obtain ⟨s, ⟨-, hdropped⟩, hobs⟩ := halways.observe observe_lateUsage
  have hinput := (Prod.mk.inj hobs).1
  rw [hdropped] at hinput
  cases hinput

end UsageBatch
