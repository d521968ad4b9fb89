/-
**Read-write locks.**

A read-write lock is held by any number of readers or by one writer.  This module gives the lock as
a value: who holds it, with the proof that a writer is alone.  What happens to a task that asks for
the lock and does not get it (it waits in a queue, or it blocks its thread) is up to the user of the
lock: an operation that is not possible is `none`.

Main definitions:

* `RwLock`, `RwLock.Holds`, `RwLock.holders` — the lock, and who holds it in which mode;
* `RwLock.acquire`, `RwLock.release` — the operations.

Main results:

* `RwLock.Holds.alone` — **who writes is alone**;
* `RwLock.holds_acquire`, `RwLock.Holds.acquire`, `RwLock.Holds.release` — what the operations do to
  the holders.
-/

import Mathlib.Data.List.Basic

set_option relaxedAutoImplicit false
set_option autoImplicit false

/-- How a lock is held. -/
inductive LockMode
  | read
  | write
deriving DecidableEq

/-- A read-write lock. -/
structure RwLock (ι : Type) where
  readers : List ι
  writer : Option ι
  exclusive : writer.isSome = true → readers = []

namespace RwLock

variable {ι : Type}

/-- The lock nobody holds. -/
def free : RwLock ι := ⟨[], none, fun _ => rfl⟩

/-- The task holds the lock in the given mode. -/
def Holds (l : RwLock ι) (i : ι) : LockMode → Prop
  | .read => i ∈ l.readers
  | .write => l.writer = some i

/-- Everyone who holds the lock. -/
def holders (l : RwLock ι) : List ι := l.readers ++ l.writer.toList

theorem mem_holders {l : RwLock ι} {i : ι} : i ∈ l.holders ↔ ∃ mode, l.Holds i mode := by
  rw [holders, List.mem_append, Option.mem_toList]
  constructor
  · rintro (hr | hw)
    · exact ⟨.read, hr⟩
    · exact ⟨.write, hw⟩
  · rintro ⟨mode, h⟩
    cases mode with
    | read => exact Or.inl h
    | write => exact Or.inr h

/-- The lock when `i` has got it; `none` when it has to wait. -/
def acquire (l : RwLock ι) (i : ι) : LockMode → Option (RwLock ι)
  | .read => if h : l.writer = none then some ⟨i :: l.readers, l.writer, by simp [h]⟩ else none
  | .write =>
      if h : l.writer = none ∧ l.readers = [] then some ⟨l.readers, some i, fun _ => h.2⟩ else none

/-- The lock when `i` has given it back. -/
def release [DecidableEq ι] (l : RwLock ι) (i : ι) : LockMode → RwLock ι
  | .read => ⟨l.readers.erase i, l.writer, fun h => by simp [l.exclusive h]⟩
  | .write =>
      if l.writer = some i then ⟨l.readers, none, by simp⟩ else l

/-- **Who writes is alone.** -/
theorem Holds.alone {l : RwLock ι} {i j : ι} {mode : LockMode} (h : l.Holds i .write)
    (hj : l.Holds j mode) : mode = .write ∧ j = i := by
  have hw : l.writer = some i := h
  have hr : l.readers = [] := l.exclusive (by rw [hw]; rfl)
  cases mode with
  | read =>
      have hmem : j ∈ l.readers := hj
      rw [hr] at hmem
      cases hmem
  | write => exact ⟨rfl, Option.some.inj (Eq.trans (Eq.symm hj) hw)⟩

theorem not_holds_free (i : ι) (mode : LockMode) : ¬ (free : RwLock ι).Holds i mode := by
  cases mode with
  | read => exact List.not_mem_nil
  | write =>
      intro h
      cases h

/-- Who has got the lock holds it. -/
theorem holds_acquire {l l' : RwLock ι} {i : ι} {mode : LockMode}
    (h : l.acquire i mode = some l') : l'.Holds i mode := by
  cases mode with
  | read =>
      rw [acquire] at h
      split at h
      · obtain rfl := Option.some.inj h
        exact List.mem_cons_self
      · cases h
  | write =>
      rw [acquire] at h
      split at h
      · obtain rfl := Option.some.inj h
        exact rfl
      · cases h

/-- The others go on holding it. -/
theorem Holds.acquire {l l' : RwLock ι} {i j : ι} {mode mode' : LockMode} (hj : l.Holds j mode')
    (h : l.acquire i mode = some l') : l'.Holds j mode' := by
  cases mode with
  | read =>
      rw [RwLock.acquire] at h
      split at h
      · obtain rfl := Option.some.inj h
        cases mode' with
        | read => exact List.mem_cons_of_mem i hj
        | write => exact hj
      · cases h
  | write =>
      rw [RwLock.acquire] at h
      split at h
      · rename_i hfree
        cases mode' with
        | read =>
            have hmem : j ∈ l.readers := hj
            rw [hfree.2] at hmem
            cases hmem
        | write => cases hfree.1.symm.trans hj
      · cases h

/-- What one task gives back, the others keep. -/
theorem Holds.release [DecidableEq ι] {l : RwLock ι} {i j : ι} {mode : LockMode}
    (hj : l.Holds j mode) (hij : j ≠ i) (mode' : LockMode) : (l.release i mode').Holds j mode := by
  cases mode' with
  | read =>
      cases mode with
      | read => exact (List.mem_erase_of_ne hij).2 hj
      | write => exact hj
  | write =>
      rw [RwLock.release]
      split
      · rename_i hi
        cases mode with
        | read => exact hj
        | write => exact absurd (Option.some.inj (Eq.trans (Eq.symm hj) hi)) hij
      · exact hj

/-- Whoever holds the lock afterwards held it before or has just got it. -/
theorem holds_of_acquire {l l' : RwLock ι} {i j : ι} {mode mode' : LockMode}
    (h : l.acquire i mode = some l') (hj : l'.Holds j mode') :
    l.Holds j mode' ∨ (j = i ∧ mode' = mode) := by
  cases mode with
  | read =>
      rw [acquire] at h
      split at h
      · obtain rfl := Option.some.inj h
        cases mode' with
        | read =>
            rcases List.mem_cons.1 hj with rfl | hj
            · exact Or.inr ⟨rfl, rfl⟩
            · exact Or.inl hj
        | write => exact Or.inl hj
      · cases h
  | write =>
      rw [acquire] at h
      split at h
      · obtain rfl := Option.some.inj h
        cases mode' with
        | read => exact Or.inl hj
        | write => exact Or.inr ⟨(Option.some.inj hj).symm, rfl⟩
      · cases h

/-- Giving back gives the lock to nobody. -/
theorem holds_of_release [DecidableEq ι] {l : RwLock ι} {i j : ι} {mode mode' : LockMode}
    (hj : (l.release i mode').Holds j mode) : l.Holds j mode := by
  cases mode' with
  | read =>
      cases mode with
      | read => exact List.mem_of_mem_erase hj
      | write => exact hj
  | write =>
      rw [RwLock.release] at hj
      split at hj
      · cases mode with
        | read => exact hj
        | write => cases hj
      · exact hj

/-- Who has given the lock back no longer holds it. -/
theorem not_holds_release [DecidableEq ι] {l : RwLock ι} (hl : l.readers.Nodup) (i : ι)
    (mode : LockMode) : ¬ (l.release i mode).Holds i mode := by
  intro h
  cases mode with
  | read => exact (List.Nodup.mem_erase_iff hl).1 h |>.1 rfl
  | write =>
      have hw : l.writer = some i := holds_of_release h
      rw [RwLock.release, if_pos hw] at h
      cases h

/-- A reader that comes has not come before. -/
theorem nodup_acquire {l l' : RwLock ι} (hl : l.readers.Nodup) {i : ι} {mode : LockMode}
    (hi : ¬ l.Holds i .read) (h : l.acquire i mode = some l') : l'.readers.Nodup := by
  cases mode with
  | read =>
      rw [acquire] at h
      split at h
      · obtain rfl := Option.some.inj h
        exact List.nodup_cons.2 ⟨hi, hl⟩
      · cases h
  | write =>
      rw [acquire] at h
      split at h
      · obtain rfl := Option.some.inj h
        exact hl
      · cases h

theorem nodup_release [DecidableEq ι] {l : RwLock ι} (hl : l.readers.Nodup) (i : ι)
    (mode : LockMode) : (l.release i mode).readers.Nodup := by
  cases mode with
  | read => exact hl.erase i
  | write =>
      rw [RwLock.release]
      split
      · exact hl
      · exact hl

/-- Who cannot get the lock to read meets a writer. -/
theorem exists_writer_of_acquire_eq_none {l : RwLock ι} {i : ι} (h : l.acquire i .read = none) :
    ∃ j, l.Holds j .write := by
  rw [acquire] at h
  split at h
  · cases h
  · rename_i hw
    exact Option.ne_none_iff_exists'.1 hw

end RwLock
