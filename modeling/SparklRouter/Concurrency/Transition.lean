/-
**Labelled transition systems given by a step function.**

A system of interleaved tasks is a function `step : σ → α → Option σ`: in the state `s` the
scheduler picks an action `a`, and `step s a` is the state after it, or `none` when `a` is not
enabled.  A *schedule* is a list of actions.  Every property of a run that the rest of the
development speaks about is one of two kinds: a property of every state the run passes through
(`Transition.Always`) and a property of every step it takes (`Transition.Throughout`).  A claim
"in every run whose steps satisfy `C`, every state satisfies `P`" is an implication between the
two, and this module proves the rules that reduce it to a statement about one step.

Main definitions:

* `Transition.run`, `Transition.Reachable` — the state after a schedule, and the states reached;
* `Transition.Always` — a predicate holds in every state of a run;
* `Transition.Throughout` — a relation holds of every step of a run.

Main results:

* `Transition.always_of_step`, `Transition.throughout_of_step` — **the invariant rules**: an
  invariant kept by every step that satisfies `C` gives `Always` and `Throughout` along every run
  whose steps satisfy `C`;
* `Transition.throughout_of_always` — the converse direction: when a step that violates `C` leads
  to a state that violates `P`, a run that stays in `P` satisfies `C` throughout;
* `Transition.always_of_always` — **the invariant rule under an assumption** on every state;
* `Transition.Reachable.invariant` — the special case of reachable states;
* `Transition.exists_run_of_lower` — **the progress rule**: what can always be lowered can be
  brought to zero;
* `Transition.run_of_simulation` — **the simulation rule**: when every step is one of an abstract
  system or changes nothing there, every run is a run of the abstract system.
-/

import Mathlib.Data.List.Basic

set_option relaxedAutoImplicit false
set_option autoImplicit false

namespace Transition

variable {σ α : Type}

/-! ### Runs -/

/-- The state a schedule leads to, if every action of it is enabled when its turn comes. -/
def run (step : σ → α → Option σ) : σ → List α → Option σ
  | s, [] => some s
  | s, a :: as => (step s a).bind fun s' => run step s' as

/-- `s` is reached from `s₀` by some schedule. -/
def Reachable (step : σ → α → Option σ) (s₀ s : σ) : Prop := ∃ as, run step s₀ as = some s

/-- **`P` holds in every state of the run** of the schedule from the given state, its first and
its last state included.  A run ends at the first action that is not enabled. -/
def Always (step : σ → α → Option σ) (P : σ → Prop) : σ → List α → Prop
  | s, [] => P s
  | s, a :: as => P s ∧ ∀ s', step s a = some s' → Always step P s' as

/-- **`C` holds of every step of the run** of the schedule from the given state.  A step is given
by the state before it, the action, and the state after it. -/
def Throughout (step : σ → α → Option σ) (C : σ → α → σ → Prop) : σ → List α → Prop
  | _, [] => True
  | s, a :: as => ∀ s', step s a = some s' → C s a s' ∧ Throughout step C s' as

variable {step : σ → α → Option σ}

@[simp] theorem run_nil (s : σ) : run step s [] = some s := rfl

theorem run_cons {s s' : σ} {a : α} (as : List α) (h : step s a = some s') :
    run step s (a :: as) = run step s' as := by
  simp [run, h]

/-- The first step of a run that gets somewhere. -/
theorem exists_step_of_run_cons {s t : σ} {a : α} {as : List α}
    (h : run step s (a :: as) = some t) :
    ∃ s', step s a = some s' ∧ run step s' as = some t := by
  simpa [run, Option.bind_eq_some_iff] using h

theorem run_append {s t : σ} {as : List α} (bs : List α) (h : run step s as = some t) :
    run step s (as ++ bs) = run step t bs := by
  induction as generalizing s with
  | nil =>
      simp only [run_nil, Option.some.injEq] at h
      subst h
      rfl
  | cons a as ih =>
      obtain ⟨s', hs, ht⟩ := exists_step_of_run_cons h
      rw [List.cons_append, run_cons _ hs, ih ht]

theorem Reachable.refl (s : σ) : Reachable step s s := ⟨[], rfl⟩

theorem Reachable.tail {s₀ s s' : σ} {a : α} (h : Reachable step s₀ s)
    (hs : step s a = some s') : Reachable step s₀ s' := by
  obtain ⟨as, has⟩ := h
  exact ⟨as ++ [a], by rw [run_append _ has, run_cons _ hs, run_nil]⟩

/-! ### The invariant rules -/

theorem Always.head {P : σ → Prop} {s : σ} {as : List α} (h : Always step P s as) : P s := by
  cases as with
  | nil => exact h
  | cons a as => exact h.1

theorem Always.last {P : σ → Prop} {s t : σ} {as : List α} (h : Always step P s as)
    (ht : run step s as = some t) : P t := by
  induction as generalizing s with
  | nil =>
      simp only [run_nil, Option.some.injEq] at ht
      exact ht ▸ h
  | cons a as ih =>
      obtain ⟨s', hs, ht'⟩ := exists_step_of_run_cons ht
      exact ih (h.2 s' hs) ht'

/-- What a predicate on every state says of an observation of the last state. -/
theorem Always.observe {β : Type} {P : σ → Prop} {s : σ} {as : List α} {f : σ → β} {v : β}
    (h : Always step P s as) (hv : (run step s as).map f = some v) : ∃ t, P t ∧ f t = v := by
  obtain ⟨t, ht, hft⟩ := Option.map_eq_some_iff.1 hv
  exact ⟨t, h.last ht, hft⟩

/-- A condition that a step's being enabled turns into another. -/
theorem Throughout.of_step {C D : σ → α → σ → Prop}
    (hCD : ∀ s a s', step s a = some s' → C s a s' → D s a s') {s : σ} {as : List α}
    (h : Throughout step C s as) : Throughout step D s as := by
  induction as generalizing s with
  | nil => trivial
  | cons a as ih =>
      intro s' hs
      obtain ⟨hC, hrest⟩ := h s' hs
      exact ⟨hCD s a s' hs hC, ih hrest⟩

theorem Throughout.mono {C D : σ → α → σ → Prop} (hCD : ∀ s a s', C s a s' → D s a s')
    {s : σ} {as : List α} (h : Throughout step C s as) : Throughout step D s as :=
  h.of_step fun s a s' _ => hCD s a s'

/-- **The invariant rule for states.**  An invariant that holds at the start and is kept by every
step satisfying `C` holds in every state of a run whose steps all satisfy `C`. -/
theorem always_of_step {C : σ → α → σ → Prop} {I : σ → Prop}
    (hstep : ∀ s a s', I s → step s a = some s' → C s a s' → I s')
    {s : σ} {as : List α} (hs : I s) (hC : Throughout step C s as) : Always step I s as := by
  induction as generalizing s with
  | nil => exact hs
  | cons a as ih =>
      refine ⟨hs, fun s' hs' => ?_⟩
      obtain ⟨hc, hrest⟩ := hC s' hs'
      exact ih (hstep s a s' hs hs' hc) hrest

theorem Always.mono {P Q : σ → Prop} (hPQ : ∀ s, P s → Q s) {s : σ} {as : List α}
    (h : Always step P s as) : Always step Q s as := by
  induction as generalizing s with
  | nil => exact hPQ s h
  | cons a as ih => exact ⟨hPQ s h.1, fun s' hs => ih (h.2 s' hs)⟩

theorem Always.and {P Q : σ → Prop} {s : σ} {as : List α} (hP : Always step P s as)
    (hQ : Always step Q s as) : Always step (fun s => P s ∧ Q s) s as := by
  induction as generalizing s with
  | nil => exact ⟨hP, hQ⟩
  | cons a as ih => exact ⟨⟨hP.1, hQ.1⟩, fun s' hs => ih (hP.2 s' hs) (hQ.2 s' hs)⟩

/-- **The invariant rule for steps.**  What an invariant and the condition `C` give of one step
holds of every step of a run whose steps all satisfy `C`. -/
theorem throughout_of_step {C D : σ → α → σ → Prop} {I : σ → Prop}
    (hstep : ∀ s a s', I s → step s a = some s' → C s a s' → I s')
    (hD : ∀ s a s', I s → step s a = some s' → C s a s' → D s a s')
    {s : σ} {as : List α} (hs : I s) (hC : Throughout step C s as) : Throughout step D s as := by
  induction as generalizing s with
  | nil => trivial
  | cons a as ih =>
      intro s' hs'
      obtain ⟨hc, hrest⟩ := hC s' hs'
      exact ⟨hD s a s' hs hs' hc, ih (hstep s a s' hs hs' hc) hrest⟩

/-- **The converse rule.**  Under an invariant of the whole system, if every step that leads from
`P` to `P` satisfies `C`, then a run that stays in `P` satisfies `C` throughout. -/
theorem throughout_of_always {C : σ → α → σ → Prop} {I P : σ → Prop}
    (hstep : ∀ s a s', I s → step s a = some s' → I s')
    (hC : ∀ s a s', I s → step s a = some s' → P s → P s' → C s a s')
    {s : σ} {as : List α} (hs : I s) (hP : Always step P s as) : Throughout step C s as := by
  induction as generalizing s with
  | nil => trivial
  | cons a as ih =>
      intro s' hs'
      have hP' := hP.2 s' hs'
      exact ⟨hC s a s' hs hs' hP.1 hP'.head, ih (hstep s a s' hs hs') hP'⟩

/-- **The invariant rule under an assumption.**  What every step from a state with `P` keeps holds in
every state of a run that stays in `P`. -/
theorem always_of_always {I P : σ → Prop}
    (hstep : ∀ s a s', I s → P s → step s a = some s' → I s')
    {s : σ} {as : List α} (hs : I s) (hP : Always step P s as) :
    Always step (fun s => P s ∧ I s) s as := by
  induction as generalizing s with
  | nil => exact ⟨hP, hs⟩
  | cons a as ih =>
      exact ⟨⟨hP.1, hs⟩, fun s' hs' => ih (hstep s a s' hs hP.1 hs') (hP.2 s' hs')⟩

/-- Every step of every run satisfies the trivial condition. -/
theorem throughout_true (s : σ) (as : List α) : Throughout step (fun _ _ _ => True) s as := by
  induction as generalizing s with
  | nil => trivial
  | cons a as ih => exact fun s' _ => ⟨trivial, ih s'⟩

/-- A condition on actions that every action of the schedule meets. -/
theorem throughout_of_forall_mem {p : α → Prop} {as : List α} (h : ∀ a ∈ as, p a) (s : σ) :
    Throughout step (fun _ a _ => p a) s as := by
  induction as generalizing s with
  | nil => trivial
  | cons a as ih =>
      intro s' _
      have hrest : ∀ b ∈ as, p b := fun b hb => h b (List.mem_cons_of_mem a hb)
      exact ⟨h a List.mem_cons_self, ih hrest s'⟩

/-- Runs the schedule, and tests every step it takes. -/
def checkThroughout (step : σ → α → Option σ) (p : σ → α → Bool) : σ → List α → Bool
  | _, [] => true
  | s, a :: as =>
      match step s a with
      | some s' => p s a && checkThroughout step p s' as
      | none => true

/-- A run that passes the test at every step. -/
theorem throughout_of_check {p : σ → α → Bool} {s : σ} {as : List α}
    (h : checkThroughout step p s as = true) :
    Throughout step (fun s a _ => p s a = true) s as := by
  induction as generalizing s with
  | nil => trivial
  | cons a as ih =>
      intro s' hs
      rw [checkThroughout, hs] at h
      obtain ⟨hp, hrest⟩ := (Bool.and_eq_true _ _).mp h
      exact ⟨hp, ih hrest⟩

/-- Runs the schedule, and tests every state it passes through. -/
def checkAlways (step : σ → α → Option σ) (p : σ → Bool) : σ → List α → Bool
  | s, [] => p s
  | s, a :: as =>
      p s && match step s a with
        | some s' => checkAlways step p s' as
        | none => true

/-- A run that passes the test in every state. -/
theorem always_of_check {p : σ → Bool} {s : σ} {as : List α}
    (h : checkAlways step p s as = true) : Always step (fun s => p s = true) s as := by
  induction as generalizing s with
  | nil => exact h
  | cons a as ih =>
      obtain ⟨hp, hrest⟩ := (Bool.and_eq_true _ _).mp h
      refine ⟨hp, fun s' hs' => ih ?_⟩
      rwa [hs'] at hrest

/-- An invariant kept by every step holds in every state of every run. -/
theorem always_of_invariant {I : σ → Prop} (hstep : ∀ s a s', I s → step s a = some s' → I s')
    {s : σ} (hs : I s) (as : List α) : Always step I s as :=
  always_of_step (C := fun _ _ _ => True) (fun s a s' h hs' _ => hstep s a s' h hs') hs
    (throughout_true s as)

/-- **Invariants hold in every reachable state.** -/
theorem Reachable.invariant {I : σ → Prop} {s₀ s : σ} (h : Reachable step s₀ s) (h₀ : I s₀)
    (hstep : ∀ s a s', I s → step s a = some s' → I s') : I s := by
  obtain ⟨as, has⟩ := h
  exact (always_of_invariant hstep h₀ as).last has

/-! ### Progress -/

theorem Reachable.trans {s₀ s t : σ} {as : List α} (h : Reachable step s₀ s)
    (has : run step s as = some t) : Reachable step s₀ t := by
  obtain ⟨bs, hbs⟩ := h
  exact ⟨bs ++ as, by rw [run_append _ hbs, has]⟩

/-- **The progress rule.**  If every state with the invariant whose measure is not zero has a run to
a state with the invariant and a smaller measure, then every state with the invariant has a run to
one whose measure is zero; and what each of these runs keeps, the whole run keeps. -/
theorem exists_run_of_lower {I : σ → Prop} {R : σ → σ → Prop} (m : σ → ℕ) (hrefl : ∀ s, R s s)
    (htrans : ∀ s t u, R s t → R t u → R s u)
    (hlower : ∀ s, I s → m s ≠ 0 → ∃ as t, run step s as = some t ∧ I t ∧ R s t ∧ m t < m s)
    {s : σ} (hs : I s) : ∃ as t, run step s as = some t ∧ I t ∧ R s t ∧ m t = 0 := by
  induction hn : m s using Nat.strongRecOn generalizing s with
  | ind n ih =>
      subst hn
      by_cases hzero : m s = 0
      · exact ⟨[], s, rfl, hs, hrefl s, hzero⟩
      · obtain ⟨as, t, has, ht, hst, hlt⟩ := hlower s hs hzero
        obtain ⟨bs, u, hbs, hu, htu, hdone⟩ := ih (m t) hlt ht rfl
        exact ⟨as ++ bs, u, by rw [run_append _ has, hbs], hu, htrans s t u hst htu, hdone⟩

/-! ### Simulation -/

/-- **The simulation rule.**  If, under an invariant, every step of a system that satisfies `C` is a
step of another system with an action that satisfies `P`, or changes nothing there, then a run of
such steps is a run of the other system, with actions that satisfy `P`. -/
theorem run_of_simulation {τ β : Type} {spec : τ → β → Option τ} {I : σ → Prop} (abs : σ → τ)
    {C : α → Prop} {P : β → Prop}
    (hstep : ∀ s a s', I s → C a → step s a = some s' → I s')
    (hsim : ∀ s a s', I s → C a → step s a = some s' →
      abs s' = abs s ∨ ∃ b, P b ∧ spec (abs s) b = some (abs s'))
    {s t : σ} {as : List α} (hs : I s) (has : ∀ a ∈ as, C a) (hrun : run step s as = some t) :
    ∃ bs, run spec (abs s) bs = some (abs t) ∧ ∀ b ∈ bs, P b := by
  induction as generalizing s with
  | nil =>
      obtain rfl := Option.some.inj hrun
      exact ⟨[], rfl, fun b hb => absurd hb List.not_mem_nil⟩
  | cons a as ih =>
      obtain ⟨s', hs', hrest⟩ := exists_step_of_run_cons hrun
      have ha := has a List.mem_cons_self
      obtain ⟨bs, hbs, hP⟩ := ih (hstep s a s' hs ha hs')
        (fun b hb => has b (List.mem_cons_of_mem a hb)) hrest
      rcases hsim s a s' hs ha hs' with hsame | ⟨b, hb, hspec⟩
      · exact ⟨bs, hsame ▸ hbs, hP⟩
      · refine ⟨b :: bs, by rw [run_cons _ hspec, hbs], fun b' hb' => ?_⟩
        rcases List.mem_cons.1 hb' with rfl | hb'
        · exact hb
        · exact hP b' hb'

end Transition
