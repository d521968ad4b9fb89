/-
**A broadcast channel.**

Every value that is sent goes to all receivers.  The channel keeps the last values, as many as its
capacity, and every receiver has a position among all that have been sent.  A receiver that has fallen
so far behind that its next value is not kept any more is told that it lags, and goes on with the
oldest value that is.

Main definitions:

* `Broadcast.Receiver`, `Broadcast.subscribe`, `Broadcast.Receiver.recv` — a receiver, with what it has
  received and what it has skipped;
* `Broadcast.Receiver.Follows` — what a receiver has received, by what has been sent.

Main results:

* `Broadcast.Receiver.Follows.send`, `Broadcast.Receiver.Follows.recv` — **a receiver gets the values
  in the order of their sending, each once**, but for those it has skipped;
* `Broadcast.Receiver.Follows.of_drained` — and when it is through, it has had all of them.
-/

import Mathlib.Data.List.Basic

set_option relaxedAutoImplicit false
set_option autoImplicit false

namespace Broadcast

variable {α : Type}

/-- A receiver: the position at which it has subscribed, its next position, and what it has received
and skipped in between. -/
structure Receiver (α : Type) where
  start : ℕ
  next : ℕ
  received : List α
  skipped : List α

/-- A receiver gets what is sent after it has subscribed. -/
def subscribe (log : List α) : Receiver α := ⟨log.length, log.length, [], []⟩

/-- The receiver gets the next value, and waits when it has had all of them.  A receiver that lags gets
none, and is moved to the oldest value that is kept. -/
def Receiver.recv (capacity : ℕ) (log : List α) (r : Receiver α) : Option (Receiver α × Option α) :=
  if r.next + capacity < log.length then
    let missed := log.length - capacity - r.next
    some ({ r with
      next := r.next + missed
      skipped := r.skipped ++ (log.drop r.next).take missed }, none)
  else
    (log[r.next]?).map fun a =>
      ({ r with next := r.next + 1, received := r.received ++ [a] }, some a)

namespace Receiver

/-- What has been sent between the subscription and the position of the receiver has been received,
in this order, but for what has been skipped. -/
structure Follows (log : List α) (r : Receiver α) : Prop where
  start_le : r.start ≤ r.next
  next_le : r.next ≤ log.length
  received : ∀ p : α → Bool, (∀ a ∈ r.skipped, p a = false) →
    r.received.filter p = ((log.take r.next).drop r.start).filter p

theorem follows_subscribe (log : List α) : (subscribe log).Follows log where
  start_le := Nat.le_refl _
  next_le := Nat.le_refl _
  received p _ := by simp [subscribe]

section

variable {log : List α} {r r' : Receiver α} {value : Option α} {capacity : ℕ}

/-- What a receiver gets is what has been sent, and the last that it has received. -/
theorem received_of_recv (hrecv : r.recv capacity log = some (r', value)) :
    r'.start = r.start ∧ r'.received = r.received ++ value.toList ∧ ∀ a, value = some a → a ∈ log := by
  unfold Receiver.recv at hrecv
  split at hrecv
  · cases hrecv
    exact ⟨rfl, (List.append_nil _).symm, nofun⟩
  · obtain ⟨a, ha, heq⟩ := Option.map_eq_some_iff.1 hrecv
    cases heq
    refine ⟨rfl, rfl, fun b hb => ?_⟩
    cases hb
    exact List.mem_of_getElem? ha

theorem Follows.send (h : r.Follows log) (sent : List α) : r.Follows (log ++ sent) where
  start_le := h.start_le
  next_le := by
    rw [List.length_append]
    exact Nat.le_add_right_of_le h.next_le
  received p hp := by
    rw [List.take_append_of_le_length h.next_le]
    exact h.received p hp

/-- What lies between the start and the position grows by what lies before the next position. -/
theorem drop_take_add {start next : ℕ} (hstart : start ≤ next) (hnext : next ≤ log.length) (n : ℕ) :
    (log.take (next + n)).drop start =
      (log.take next).drop start ++ (log.drop next).take n := by
  rw [List.take_add, List.drop_append_of_le_length]
  rw [List.length_take]
  omega

theorem Follows.recv (h : r.Follows log) (hrecv : r.recv capacity log = some (r', value)) :
    r'.Follows log := by
  unfold Receiver.recv at hrecv
  split at hrecv
  · rename_i hlags
    cases hrecv
    refine ⟨Nat.le_add_right_of_le h.start_le, by dsimp only; omega, fun p hp => ?_⟩
    dsimp only at hp ⊢
    have hnone : ((log.drop r.next).take (log.length - capacity - r.next)).filter p = [] :=
      List.filter_eq_nil_iff.2 fun a ha => by simp [hp a (List.mem_append_right _ ha)]
    rw [drop_take_add h.start_le h.next_le, List.filter_append, hnone, List.append_nil]
    exact h.received p fun a ha => hp a (List.mem_append_left _ ha)
  · obtain ⟨a, ha, heq⟩ := Option.map_eq_some_iff.1 hrecv
    cases heq
    obtain ⟨hlt, hget⟩ := List.getElem?_eq_some_iff.1 ha
    refine ⟨Nat.le_succ_of_le h.start_le, hlt, fun p hp => ?_⟩
    dsimp only at hp ⊢
    have hone : (log.drop r.next).take 1 = [a] := by
      rw [List.drop_eq_getElem_cons hlt, hget]
      rfl
    rw [drop_take_add h.start_le h.next_le, List.filter_append, List.filter_append, hone,
      h.received p hp]

/-- A receiver that is through has received all that has been sent since it subscribed, but for what
it has skipped. -/
theorem Follows.of_drained (h : r.Follows log) (hdrained : r.next = log.length) {p : α → Bool}
    (hp : ∀ a ∈ r.skipped, p a = false) : r.received.filter p = (log.drop r.start).filter p := by
  rw [h.received p hp, hdrained, List.take_length]

end

end Receiver

end Broadcast
