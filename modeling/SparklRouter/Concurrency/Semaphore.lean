/-
**A bounded semaphore with a bounded queue.**

A semaphore admits clients as long as fewer than a limit are active, and lets further clients wait as
long as fewer than another limit do; the limits are brought by the clients, and may differ.  Each of
its operations is one atomic step.  A client that waits can be lost: it is gone, and its place in the
queue is not given back.  This is what an implementation with counters and compare-exchanges is
compared with; that it keeps the bounds is shown here, once.

Main definitions:

* `Semaphore.State`, `Semaphore.step` — the clients by what they do, and the transition function;
* `Semaphore.Act.within` — the limits an action brings are at most the given ones.

Main results:

* `Semaphore.sound_of_run` — no client is at two places;
* `Semaphore.card_active_le` — **never more active clients than the largest limit**;
* `Semaphore.card_occupied_le` — and never more places of the queue in use.
-/

import SparklRouter.Concurrency.Transition
import Mathlib.Data.Finset.Card

set_option relaxedAutoImplicit false
set_option autoImplicit false

namespace Semaphore

open Transition

variable {ι : Type} [DecidableEq ι]

/-- The clients that are active, those that wait, and those that are gone from the queue without
giving their places back. -/
structure State (ι : Type) where
  active : Finset ι
  waiting : Finset ι
  gone : Finset ι

def init : State ι := ⟨∅, ∅, ∅⟩

inductive Act (ι : Type)
  | grant (i : ι) (limit : ℕ)
  | enqueue (i : ι) (limit : ℕ)
  /-- The client leaves the queue, to be admitted or to give up. -/
  | leave (i : ι)
  | lose (i : ι)
  | release (i : ι)

namespace State

variable (s : State ι) (i : ι)

/-- The client is at none of the three places. -/
def Outside : Prop := i ∉ s.active ∧ i ∉ s.waiting ∧ i ∉ s.gone

instance decidableOutside : Decidable (s.Outside i) :=
  inferInstanceAs (Decidable (i ∉ s.active ∧ i ∉ s.waiting ∧ i ∉ s.gone))

/-- The places of the queue that are in use. -/
def occupied : ℕ := s.waiting.card + s.gone.card

end State

/-- **The transition function.** -/
def step (s : State ι) : Act ι → Option (State ι)
  | .grant i limit =>
      if s.Outside i ∧ s.active.card < limit then some { s with active := insert i s.active }
      else none
  | .enqueue i limit =>
      if s.Outside i ∧ s.occupied < limit then some { s with waiting := insert i s.waiting }
      else none
  | .leave i => if i ∈ s.waiting then some { s with waiting := s.waiting.erase i } else none
  | .lose i =>
      if i ∈ s.waiting then some { s with waiting := s.waiting.erase i, gone := insert i s.gone }
      else none
  | .release i => if i ∈ s.active then some { s with active := s.active.erase i } else none

/-- An action that admits brings a limit of at most `C`, one that enqueues one of at most `Q`. -/
def Act.within (C Q : ℕ) : Act ι → Prop
  | .grant _ limit => limit ≤ C
  | .enqueue _ limit => limit ≤ Q
  | _ => True

/-- No client is at two places, and the bounds are kept. -/
structure Sound (C Q : ℕ) (s : State ι) : Prop where
  active_waiting : Disjoint s.active s.waiting
  active_gone : Disjoint s.active s.gone
  waiting_gone : Disjoint s.waiting s.gone
  active_le : s.active.card ≤ C
  occupied_le : s.occupied ≤ Q

variable {C Q : ℕ} {s s' : State ι} {act : Act ι}

omit [DecidableEq ι] in
theorem sound_init : Sound C Q (init : State ι) where
  active_waiting := Finset.disjoint_empty_left _
  active_gone := Finset.disjoint_empty_left _
  waiting_gone := Finset.disjoint_empty_left _
  active_le := Nat.zero_le C
  occupied_le := Nat.zero_le Q

/-- **Every step within the limits keeps the invariant.** -/
theorem Sound.step (h : Sound C Q s) (hact : act.within C Q)
    (hstep : Semaphore.step s act = some s') : Sound C Q s' := by
  cases act with
  | grant i limit =>
      obtain ⟨⟨⟨-, hwaiting, hgone⟩, hlt⟩, hs'⟩ := Option.ite_none_right_eq_some.1 hstep
      obtain rfl := Option.some.inj hs'
      refine ⟨Finset.disjoint_insert_left.2 ⟨hwaiting, h.active_waiting⟩,
        Finset.disjoint_insert_left.2 ⟨hgone, h.active_gone⟩, h.waiting_gone, ?_, h.occupied_le⟩
      exact (Finset.card_insert_le i s.active).trans (Nat.lt_of_lt_of_le hlt hact)
  | enqueue i limit =>
      obtain ⟨⟨⟨hactive, -, hgone⟩, hlt⟩, hs'⟩ := Option.ite_none_right_eq_some.1 hstep
      obtain rfl := Option.some.inj hs'
      refine ⟨Finset.disjoint_insert_right.2 ⟨hactive, h.active_waiting⟩, h.active_gone,
        Finset.disjoint_insert_left.2 ⟨hgone, h.waiting_gone⟩, h.active_le, ?_⟩
      have hcard := Finset.card_insert_le i s.waiting
      change limit ≤ Q at hact
      unfold State.occupied at hlt ⊢
      dsimp only
      omega
  | leave i =>
      obtain ⟨-, hs'⟩ := Option.ite_none_right_eq_some.1 hstep
      obtain rfl := Option.some.inj hs'
      have hsub := Finset.erase_subset i s.waiting
      refine ⟨h.active_waiting.mono_right hsub, h.active_gone, h.waiting_gone.mono_left hsub,
        h.active_le, ?_⟩
      exact (Nat.add_le_add_right (Finset.card_le_card hsub) _).trans h.occupied_le
  | lose i =>
      obtain ⟨hi, hs'⟩ := Option.ite_none_right_eq_some.1 hstep
      obtain rfl := Option.some.inj hs'
      have hsub := Finset.erase_subset i s.waiting
      have hactive : i ∉ s.active := fun hmem => Finset.disjoint_left.1 h.active_waiting hmem hi
      refine ⟨h.active_waiting.mono_right hsub, Finset.disjoint_insert_right.2 ⟨hactive, h.active_gone⟩,
        Finset.disjoint_insert_right.2 ⟨Finset.notMem_erase i s.waiting, h.waiting_gone.mono_left hsub⟩,
        h.active_le, ?_⟩
      -- the place goes from the one set to the other
      have herase := Finset.card_erase_add_one hi
      have hcard := Finset.card_insert_le i s.gone
      have hle := h.occupied_le
      unfold State.occupied at hle ⊢
      dsimp only
      omega
  | release i =>
      obtain ⟨-, hs'⟩ := Option.ite_none_right_eq_some.1 hstep
      obtain rfl := Option.some.inj hs'
      have hsub := Finset.erase_subset i s.active
      exact ⟨h.active_waiting.mono_left hsub, h.active_gone.mono_left hsub, h.waiting_gone,
        (Finset.card_le_card hsub).trans h.active_le, h.occupied_le⟩

theorem sound_of_run {acts : List (Act ι)} (hrun : run Semaphore.step init acts = some s)
    (hacts : ∀ act ∈ acts, act.within C Q) : Sound C Q s :=
  (always_of_step (fun _ _ _ h hstep hact => h.step hact hstep) sound_init
    (throughout_of_forall_mem hacts init)).last hrun

/-- **Never more active clients than the largest limit.** -/
theorem card_active_le {acts : List (Act ι)} (hrun : run Semaphore.step init acts = some s)
    (hacts : ∀ act ∈ acts, act.within C Q) : s.active.card ≤ C := (sound_of_run hrun hacts).active_le

/-- **Never more places of the queue in use than the largest limit.** -/
theorem card_occupied_le {acts : List (Act ι)} (hrun : run Semaphore.step init acts = some s)
    (hacts : ∀ act ∈ acts, act.within C Q) : s.occupied ≤ Q := (sound_of_run hrun hacts).occupied_le

end Semaphore
