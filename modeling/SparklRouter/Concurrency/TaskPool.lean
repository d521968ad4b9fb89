/-
**Pools of tasks and sums over them.**

The tasks of a concurrent system are kept in a list, a task being named by its position: a spawned
task is appended, and a step of the task `i` replaces the entry `i`.  The counting invariants of
such a system ("the counter equals the number of tasks in the critical phases", "the amount held
by the tasks in flight plus the amount delivered is the amount accepted") are all about one
quantity, the sum of a weight over the pool; this module states how that sum changes under the two
operations.  A log of events is a pool to which entries are only appended, so the same sums count
events.

Main definitions:

* `TaskPool.total` — the sum of a weight over the tasks of a pool;
* `TaskPool.indicator` — the weight that counts the tasks satisfying a predicate;
* `TaskPool.places` — the positions of these tasks.

Main results:

* `TaskPool.total_append`, `TaskPool.total_set` — **how a sum changes** when a task is spawned and
  when a task takes a step;
* `TaskPool.total_eq_zero` — a sum vanishes exactly when every task has weight zero;
* `TaskPool.card_places` — the tasks satisfying a predicate, as a set of positions;
* `TaskPool.total_indicator_eq` — **two pools with a one-to-one correspondence** between the tasks
  counted in the one and those counted in the other.
-/

import Mathlib.Algebra.GroupWithZero.Nat
import Mathlib.Data.List.Basic
import Mathlib.Algebra.BigOperators.Group.List.Basic
import Mathlib.Data.Finset.Card
import Mathlib.Data.Finset.Range

set_option relaxedAutoImplicit false
set_option autoImplicit false

namespace TaskPool

variable {τ : Type}

/-- The sum of the weight `w` over the tasks of a pool. -/
def total (w : τ → ℕ) (ts : List τ) : ℕ := (ts.map w).sum

/-- The weight that counts the tasks satisfying `p`. -/
def indicator (p : τ → Bool) (t : τ) : ℕ := if p t then 1 else 0

@[simp] theorem total_nil (w : τ → ℕ) : total w [] = 0 := rfl

@[simp] theorem total_append (w : τ → ℕ) (ts us : List τ) :
    total w (ts ++ us) = total w ts + total w us := by
  simp [total]

@[simp] theorem total_cons (w : τ → ℕ) (t : τ) (ts : List τ) :
    total w (t :: ts) = w t + total w ts := by
  simp [total]

/-- **A step of one task changes the sum by the change of that task's weight.** -/
theorem total_set (w : τ → ℕ) {ts : List τ} {i : ℕ} {t : τ} (h : ts[i]? = some t) (t' : τ) :
    total w (ts.set i t') + w t = total w ts + w t' := by
  induction ts generalizing i with
  | nil => simp at h
  | cons u ts ih =>
      cases i with
      | zero =>
          simp only [List.getElem?_cons_zero, Option.some.injEq] at h
          subst h
          simp only [List.set_cons_zero, total_cons]
          omega
      | succ i =>
          have hrec := ih (i := i) (by simpa using h)
          simp only [List.set_cons_succ, total_cons]
          omega

/-- A step that keeps the weight of the task keeps the sum. -/
theorem total_set_eq {w : τ → ℕ} {ts : List τ} {i : ℕ} {t t' : τ} (h : ts[i]? = some t)
    (hw : w t' = w t) : total w (ts.set i t') = total w ts := by
  have := total_set w h t'
  omega

/-- The sum over the others. -/
theorem total_eraseIdx (w : τ → ℕ) {ts : List τ} {i : ℕ} {t : τ} (h : ts[i]? = some t) :
    total w (ts.eraseIdx i) + w t = total w ts := by
  induction ts generalizing i with
  | nil => cases h
  | cons u ts ih =>
      cases i with
      | zero =>
          obtain rfl := Option.some.inj h
          rw [List.eraseIdx_cons_zero, total_cons, Nat.add_comm]
      | succ i =>
          rw [List.eraseIdx_cons_succ, total_cons, total_cons, ← ih h, Nat.add_assoc]

/-- The weight of a task is part of the sum. -/
theorem le_total {w : τ → ℕ} {ts : List τ} {t : τ} (h : t ∈ ts) : w t ≤ total w ts := by
  induction ts with
  | nil => cases h
  | cons u ts ih =>
      rw [total_cons]
      rcases List.mem_cons.1 h with rfl | h
      · exact Nat.le_add_right _ _
      · have := ih h
        omega

/-- A sum vanishes exactly when every task has weight zero. -/
theorem total_eq_zero {w : τ → ℕ} {ts : List τ} : total w ts = 0 ↔ ∀ t ∈ ts, w t = 0 := by
  induction ts with
  | nil => simp
  | cons u ts ih => simp [ih]

/-- Weights that agree on the tasks of a pool have the same sum. -/
theorem total_congr {w v : τ → ℕ} {ts : List τ} (h : ∀ t ∈ ts, w t = v t) :
    total w ts = total v ts := by
  unfold total
  rw [List.map_congr_left h]

/-- Sums are monotone in the weight. -/
theorem total_mono {w v : τ → ℕ} (h : ∀ t, w t ≤ v t) (ts : List τ) : total w ts ≤ total v ts := by
  induction ts with
  | nil => simp
  | cons t ts ih =>
      have := h t
      simp only [total_cons]
      omega

@[simp] theorem indicator_of {p : τ → Bool} {t : τ} (h : p t = true) : indicator p t = 1 := by
  simp [indicator, h]

@[simp] theorem indicator_of_not {p : τ → Bool} {t : τ} (h : p t = false) : indicator p t = 0 := by
  simp [indicator, h]

/-! ### Reading a pool after an update -/

theorem getElem?_set_self {ts : List τ} {i : ℕ} {t : τ} (h : ts[i]? = some t) (t' : τ) :
    (ts.set i t')[i]? = some t' := by
  obtain ⟨hi, -⟩ := List.getElem?_eq_some_iff.1 h
  simp [hi]

/-- An entry of the updated pool is the new entry or an entry of the old pool. -/
theorem getElem?_set_cases {ts : List τ} {i j : ℕ} {t' u : τ} (h : (ts.set i t')[j]? = some u) :
    (i = j ∧ u = t') ∨ (i ≠ j ∧ ts[j]? = some u) := by
  rcases eq_or_ne i j with rfl | hij
  · left
    rw [List.getElem?_set] at h
    simp only [if_true] at h
    split at h
    · exact ⟨rfl, (Option.some.inj h).symm⟩
    · cases h
  · right
    rw [List.getElem?_set_ne hij] at h
    exact ⟨hij, h⟩

/-- An entry of the extended pool is the new entry or an entry of the old pool. -/
theorem getElem?_append_cases {ts : List τ} {j : ℕ} {t' u : τ} (h : (ts ++ [t'])[j]? = some u) :
    (j = ts.length ∧ u = t') ∨ ts[j]? = some u := by
  rcases Nat.lt_or_ge j ts.length with hj | hj
  · right
    rwa [List.getElem?_append_left hj] at h
  · left
    rw [List.getElem?_append_right hj] at h
    cases hd : j - ts.length with
    | zero =>
        rw [hd] at h
        simp only [List.getElem?_cons_zero, Option.some.injEq] at h
        exact ⟨by omega, h.symm⟩
    | succ d => simp [hd] at h

theorem getElem?_append_of {ts us : List τ} {j : ℕ} {u : τ} (h : ts[j]? = some u) :
    (ts ++ us)[j]? = some u := by
  obtain ⟨hj, -⟩ := List.getElem?_eq_some_iff.1 h
  rw [List.getElem?_append_left hj, h]

/-! ### The positions of the tasks that are counted -/

/-- The positions of the tasks satisfying `p`. -/
def places (p : τ → Bool) (ts : List τ) : Finset ℕ :=
  (Finset.range ts.length).filter fun i => (ts[i]?).any p

theorem mem_places {p : τ → Bool} {ts : List τ} {i : ℕ} :
    i ∈ places p ts ↔ ∃ t, ts[i]? = some t ∧ p t = true := by
  rw [places, Finset.mem_filter, Finset.mem_range]
  constructor
  · rintro ⟨hi, hp⟩
    rw [List.getElem?_eq_getElem hi, Option.any_some] at hp
    exact ⟨ts[i], List.getElem?_eq_getElem hi, hp⟩
  · rintro ⟨t, ht, hp⟩
    exact ⟨(List.getElem?_eq_some_iff.1 ht).1, by rw [ht, Option.any_some, hp]⟩

theorem places_append_singleton {p : τ → Bool} {ts : List τ} {t : τ} :
    places p (ts ++ [t]) =
      if p t = true then insert ts.length (places p ts) else places p ts := by
  have hold : ∀ i, i ∈ places p (ts ++ [t]) ↔ i ∈ places p ts ∨ i = ts.length ∧ p t = true := by
    intro i
    rw [mem_places, mem_places]
    constructor
    · rintro ⟨u, hu, hp⟩
      rcases getElem?_append_cases hu with ⟨hi, rfl⟩ | hu
      · exact Or.inr ⟨hi, hp⟩
      · exact Or.inl ⟨u, hu, hp⟩
    · rintro (⟨u, hu, hp⟩ | ⟨rfl, hp⟩)
      · exact ⟨u, getElem?_append_of hu, hp⟩
      · exact ⟨t, List.getElem?_concat_length, hp⟩
  ext i
  rw [hold]
  split
  · rename_i hp
    rw [Finset.mem_insert, or_comm, and_iff_left hp]
  · rename_i hp
    exact or_iff_left fun hnew => hp hnew.2

/-- **The positions of the tasks that are counted are as many as their sum.** -/
theorem card_places (p : τ → Bool) (ts : List τ) : (places p ts).card = total (indicator p) ts := by
  induction ts using List.reverseRecOn with
  | nil => rfl
  | append_singleton ts t ih =>
      have hfresh : ts.length ∉ places p ts := by
        intro hmem
        exact Nat.lt_irrefl _ (Finset.mem_range.1 (Finset.mem_filter.1 hmem).1)
      rw [places_append_singleton, total_append, total_cons, total_nil]
      split
      · rename_i hp
        rw [Finset.card_insert_of_notMem hfresh, ih, indicator_of hp]
      · rename_i hp
        rw [ih, indicator_of_not (Bool.eq_false_iff.2 hp)]
        omega

/-- A step of one task changes the positions by its own. -/
theorem mem_places_set {p : τ → Bool} {ts : List τ} {i : ℕ} {t : τ} (h : ts[i]? = some t) (t' : τ)
    {j : ℕ} : j ∈ places p (ts.set i t') ↔ (if j = i then p t' = true else j ∈ places p ts) := by
  rw [mem_places, mem_places]
  by_cases hj : j = i
  · subst hj
    rw [if_pos rfl, getElem?_set_self h t']
    constructor
    · rintro ⟨u, hu, hp⟩
      obtain rfl := Option.some.inj hu
      exact hp
    · intro hp
      exact ⟨t', rfl, hp⟩
  · rw [if_neg hj, List.getElem?_set_ne (Ne.symm hj)]

theorem places_set_same {p : τ → Bool} {ts : List τ} {i : ℕ} {t t' : τ} (h : ts[i]? = some t)
    (hp : p t' = p t) : places p (ts.set i t') = places p ts := by
  ext j
  rw [mem_places_set h]
  split
  · rename_i hj
    subst hj
    rw [hp, mem_places, h]
    simp
  · exact Iff.rfl

theorem places_set_insert {p : τ → Bool} {ts : List τ} {i : ℕ} {t t' : τ} (h : ts[i]? = some t)
    (hp : p t' = true) : places p (ts.set i t') = insert i (places p ts) := by
  ext j
  rw [mem_places_set h, Finset.mem_insert]
  by_cases hj : j = i
  · simp [hj, hp]
  · simp [hj]

theorem places_set_erase {p : τ → Bool} {ts : List τ} {i : ℕ} {t t' : τ} (h : ts[i]? = some t)
    (hp : p t' = false) : places p (ts.set i t') = (places p ts).erase i := by
  ext j
  rw [mem_places_set h, Finset.mem_erase]
  by_cases hj : j = i
  · simp [hj, hp]
  · simp [hj]

/-- **A one-to-one correspondence.**  If each task counted in the one pool has a task counted in the
other, no two have the same, and none is left over, the two sums are equal. -/
theorem total_indicator_eq {υ : Type} {p : τ → Bool} {q : υ → Bool} {ts : List τ} {us : List υ}
    (f : τ → Option ℕ)
    (hto : ∀ t ∈ ts, p t = true → ∃ j u, f t = some j ∧ us[j]? = some u ∧ q u = true)
    (hinj : ∀ (i i' : ℕ) (t t' : τ) (j : ℕ), ts[i]? = some t → ts[i']? = some t' → p t = true → p t' = true →
      f t = some j → f t' = some j → i = i')
    (hsurj : ∀ (j : ℕ) (u : υ), us[j]? = some u → q u = true → ∃ t ∈ ts, p t = true ∧ f t = some j) :
    total (indicator p) ts = total (indicator q) us := by
  rw [← card_places, ← card_places]
  refine Finset.card_bij (fun i _ => ((ts[i]?).bind f).getD 0) ?_ ?_ ?_
  · intro i hi
    obtain ⟨t, ht, hp⟩ := mem_places.1 hi
    obtain ⟨j, u, hf, hu, hq⟩ := hto t (List.mem_of_getElem? ht) hp
    rw [ht, Option.bind_some, hf, Option.getD_some]
    exact mem_places.2 ⟨u, hu, hq⟩
  · intro i hi i' hi' heq
    obtain ⟨t, ht, hp⟩ := mem_places.1 hi
    obtain ⟨t', ht', hp'⟩ := mem_places.1 hi'
    obtain ⟨j, -, hf, -⟩ := hto t (List.mem_of_getElem? ht) hp
    obtain ⟨j', -, hf', -⟩ := hto t' (List.mem_of_getElem? ht') hp'
    rw [ht, ht', Option.bind_some, Option.bind_some, hf, hf', Option.getD_some,
      Option.getD_some] at heq
    subst heq
    exact hinj i i' t t' j ht ht' hp hp' hf hf'
  · intro j hj
    obtain ⟨u, hu, hq⟩ := mem_places.1 hj
    obtain ⟨t, ht, hp, hf⟩ := hsurj j u hu hq
    obtain ⟨i, hi⟩ := List.getElem?_of_mem ht
    refine ⟨i, mem_places.2 ⟨t, hi, hp⟩, ?_⟩
    rw [hi, Option.bind_some, hf, Option.getD_some]

end TaskPool
