/-
**Synchronisation primitives of an asynchronous runtime.**

Three primitives through which tasks of an asynchronous runtime meet, as values with pure
operations; a model of a program puts them in its state and calls the operations in its step
function.

* `Notify` — a wake-up cell.  A notification wakes the task that registered first; with no task
  registered, one permit is stored, and the next task to poll consumes it.  Permits do not
  accumulate, and a permit is stored only while nobody waits: the structure carries the proof.
* `Channel` — a bounded channel with many senders and one receiver.  A send without waiting fails
  when the buffer is full or the receiver is gone; a receive takes from the front, and reports the
  end of the stream once the buffer is empty and every sender is gone.  The structure carries the
  proof that the buffer stays within its capacity.
* `Mutex` — a fair lock.  A task that asks for it while it is taken waits in a queue, and whoever
  gives it back hands it to the first of the queue.  Nobody waits for a free lock: the structure
  carries the proof.

Main definitions: `Notify.poll`, `Notify.notifyOne`, `Notify.leave`; `Channel.trySend`,
`Channel.recv`, `Channel.dropSender`, `Channel.dropReceiver`; `Mutex.lock`, `Mutex.unlock`.
-/

import Mathlib.Data.List.Basic

set_option relaxedAutoImplicit false
set_option autoImplicit false

/-! ### Wake-ups -/

/-- A wake-up cell: a stored permit, and the waiting tasks in the order of their registration. -/
structure Notify (ι : Type) where
  permit : Bool
  waiters : List ι
  exclusive : permit = true → waiters = []

namespace Notify

variable {ι : Type}

/-- No permit and no waiter. -/
def new : Notify ι := ⟨false, [], by simp⟩

/-- The first poll of a wait by the task `i`: it consumes a stored permit and is ready (`true`), or
it registers `i` behind the other waiters. -/
def poll (n : Notify ι) (i : ι) : Notify ι × Bool :=
  if n.permit then (⟨false, n.waiters, by simp⟩, true)
  else (⟨false, n.waiters ++ [i], by simp⟩, false)

/-- `notify_one`: the task it wakes, if any is registered; otherwise the permit is stored. -/
def notifyOne (n : Notify ι) : Notify ι × Option ι :=
  match n.waiters with
  | [] => (⟨true, [], by simp⟩, none)
  | i :: rest => (⟨false, rest, by simp⟩, some i)

/-- The task `i` stops waiting. -/
def leave [DecidableEq ι] (n : Notify ι) (i : ι) : Notify ι :=
  ⟨n.permit, n.waiters.erase i, fun h => by simp [n.exclusive h]⟩

/-! What a notification can do: it wakes the first waiter, or leaves a permit behind. -/

/-- A cell with a waiter stores no permit. -/
theorem permit_of_cons {n : Notify ι} {i : ι} {rest : List ι} (h : n.waiters = i :: rest) :
    n.permit = false := by
  cases hp : n.permit with
  | false => rfl
  | true => simp [n.exclusive hp] at h

theorem notifyOne_of_cons {n : Notify ι} {i : ι} {rest : List ι} (h : n.waiters = i :: rest) :
    n.notifyOne.1.permit = false ∧ n.notifyOne.1.waiters = rest ∧ n.notifyOne.2 = some i := by
  unfold notifyOne
  split
  · rename_i hnil
    simp [h] at hnil
  · rename_i j tail hcons
    obtain ⟨rfl, rfl⟩ := List.cons.inj (h.symm.trans hcons)
    exact ⟨rfl, rfl, rfl⟩

theorem notifyOne_of_nil {n : Notify ι} (h : n.waiters = []) :
    n.notifyOne.1.permit = true ∧ n.notifyOne.1.waiters = [] ∧ n.notifyOne.2 = none := by
  unfold notifyOne
  split
  · exact ⟨rfl, rfl, rfl⟩
  · rename_i j tail hcons
    simp [h] at hcons

end Notify

/-! ### Bounded channels -/

/-- A bounded channel: the messages on their way in order, the number of sender handles that are
alive, and whether the receiver is. -/
structure Channel (cap : ℕ) (α : Type) where
  buffer : List α
  senders : ℕ
  receiver : Bool
  bounded : buffer.length ≤ cap

namespace Channel

variable {cap : ℕ} {α : Type}

/-- A fresh channel, with one sender handle. -/
def new : Channel cap α := ⟨[], 1, true, by simp⟩

/-- Whether a send without waiting succeeds. -/
def accepts (c : Channel cap α) : Bool := c.receiver && decide (c.buffer.length < cap)

/-- `try_send`: the channel afterwards, and whether the message went in. -/
def trySend (c : Channel cap α) (a : α) : Channel cap α × Bool :=
  if h : c.buffer.length < cap ∧ c.receiver = true then
    (⟨c.buffer ++ [a], c.senders, c.receiver, by
      have := h.1
      simp only [List.length_append, List.length_cons, List.length_nil]
      omega⟩, true)
  else (c, false)

/-- `recv`: a message with the channel afterwards; the end of the stream (`some (none, _)`) when
the buffer is empty and no sender is left; `none` when the receiver has to wait. -/
def recv (c : Channel cap α) : Option (Option α × Channel cap α) :=
  match hb : c.buffer with
  | a :: rest =>
      some (some a, ⟨rest, c.senders, c.receiver, by
        have := c.bounded
        rw [hb] at this
        simp only [List.length_cons] at this
        omega⟩)
  | [] => if c.senders = 0 then some (none, c) else none

/-- A sender handle is dropped. -/
def dropSender (c : Channel cap α) : Channel cap α :=
  ⟨c.buffer, c.senders - 1, c.receiver, c.bounded⟩

/-- The receiver is dropped, and the messages on their way with it. -/
def dropReceiver (c : Channel cap α) : Channel cap α := ⟨[], c.senders, false, by simp⟩

/-! What a send and a receive can do: each is stated once, and the proofs about a user of the
channel cite these lemmas. -/

theorem trySend_of_accepts {c : Channel cap α} (h : c.accepts = true) (a : α) :
    ∃ c', c.trySend a = (c', true) ∧ c'.buffer = c.buffer ++ [a] ∧ c'.senders = c.senders ∧
      c'.receiver = c.receiver := by
  simp only [accepts, Bool.and_eq_true, decide_eq_true_eq] at h
  rw [trySend, dif_pos ⟨h.2, h.1⟩]
  exact ⟨_, rfl, rfl, rfl, rfl⟩

theorem trySend_of_not_accepts {c : Channel cap α} (h : c.accepts = false) (a : α) :
    c.trySend a = (c, false) := by
  rw [trySend, dif_neg]
  rintro ⟨hlt, hr⟩
  simp [accepts, hr, hlt] at h

/-- A send puts the message behind what is in the channel, or leaves the channel alone. -/
theorem trySend_cases (c : Channel cap α) (a : α) :
    ((c.trySend a).2 = true ∧ (c.trySend a).1.buffer = c.buffer ++ [a]) ∨
      ((c.trySend a).2 = false ∧ (c.trySend a).1 = c) := by
  cases haccepts : c.accepts with
  | true =>
      obtain ⟨c', hsent, hbuffer, -, -⟩ := trySend_of_accepts haccepts a
      rw [hsent]
      exact Or.inl ⟨rfl, hbuffer⟩
  | false =>
      rw [trySend_of_not_accepts haccepts]
      exact Or.inr ⟨rfl, rfl⟩

@[simp] theorem senders_trySend (c : Channel cap α) (a : α) :
    (c.trySend a).1.senders = c.senders := by
  unfold trySend
  split <;> rfl

@[simp] theorem receiver_trySend (c : Channel cap α) (a : α) :
    (c.trySend a).1.receiver = c.receiver := by
  unfold trySend
  split <;> rfl

theorem recv_cases {c c' : Channel cap α} {o : Option α} (h : c.recv = some (o, c')) :
    (∃ a, o = some a ∧ c.buffer = a :: c'.buffer ∧ c'.senders = c.senders ∧
      c'.receiver = c.receiver) ∨ (o = none ∧ c' = c ∧ c.buffer = [] ∧ c.senders = 0) := by
  unfold recv at h
  split at h
  · rename_i a rest hb
    simp only [Option.some.injEq, Prod.mk.injEq] at h
    obtain ⟨rfl, rfl⟩ := h
    exact Or.inl ⟨a, rfl, hb, rfl, rfl⟩
  · rename_i hb
    split at h
    · rename_i hs
      simp only [Option.some.injEq, Prod.mk.injEq] at h
      exact Or.inr ⟨h.1.symm, h.2.symm, hb, hs⟩
    · cases h

theorem receiver_recv {c c' : Channel cap α} {o : Option α} (h : c.recv = some (o, c')) :
    c'.receiver = c.receiver := by
  rcases recv_cases h with ⟨a, -, -, -, hr⟩ | ⟨-, rfl, -, -⟩
  · exact hr
  · rfl

end Channel

/-! ### Fair locks -/

/-- A fair lock: who holds it, and the waiting tasks in the order in which they asked. -/
structure Mutex (ι : Type) where
  holder : Option ι
  queue : List ι
  idle : holder = none → queue = []

namespace Mutex

variable {ι : Type}

/-- The lock nobody holds. -/
def free : Mutex ι := ⟨none, [], fun _ => rfl⟩

/-- The task `i` asks for the lock: it gets it (`true`), or it waits behind the others. -/
def lock (m : Mutex ι) (i : ι) : Mutex ι × Bool :=
  match m.holder with
  | none => (⟨some i, m.queue, by simp⟩, true)
  | some j => (⟨some j, m.queue ++ [i], by simp⟩, false)

/-- The holder gives the lock back: the task it goes to, if one waits. -/
def unlock (m : Mutex ι) : Mutex ι × Option ι :=
  match m.queue with
  | [] => (⟨none, [], fun _ => rfl⟩, none)
  | i :: rest => (⟨some i, rest, by simp⟩, some i)

end Mutex
