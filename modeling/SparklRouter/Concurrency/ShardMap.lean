/-
**A sharded concurrent map.**

A concurrent hash map is split into shards, each behind its own read-write lock.  An operation on
one key locks the shard of the key and is atomic; an operation on the whole map (iterating over
the entries, retaining the entries that satisfy a predicate) locks one shard after the other, so
it is atomic on each shard only and other operations fall in between.  This module gives the map
as a finite partial function together with these operations; which key lies in which shard is a
function `shard` that the operations over a whole shard take as an argument.

Main definitions:

* `Sharding` — which key lies in which shard;
* `ShardMap` — a finite map: the lookup function, the set of keys, and the proof that they agree;
* `ShardMap.insert`, `ShardMap.remove`, `ShardMap.entryOrInsert` — the operations on one key;
* `ShardMap.retainShard`, `ShardMap.shardKeys` — the operations on one shard.

Main results: the lookup after each operation (`ShardMap.get_insert` and its companions), which is
all that the proofs about a user of the map need, and `ShardMap.ext`, that a map is its lookup
function.
-/

import Mathlib.Data.Finset.Basic
import Mathlib.Logic.Function.Basic

set_option relaxedAutoImplicit false
set_option autoImplicit false

/-- How keys are spread over the shards of a map. -/
structure Sharding (K : Type) where
  shards : ℕ
  shard : K → ℕ
  shard_lt : ∀ k, shard k < shards

/-- A finite map with the keys it holds. -/
structure ShardMap (K V : Type) where
  get : K → Option V
  keys : Finset K
  mem_keys : ∀ k, k ∈ keys ↔ (get k).isSome

namespace ShardMap

variable {K V : Type}

/-- A map is determined by its lookup function. -/
theorem ext {m m' : ShardMap K V} (h : ∀ k, m.get k = m'.get k) : m = m' := by
  obtain ⟨g, ks, hks⟩ := m
  obtain ⟨g', ks', hks'⟩ := m'
  obtain rfl : g = g' := funext h
  obtain rfl : ks = ks' := Finset.ext fun k => (hks k).trans (hks' k).symm
  rfl

/-- The map with no entry. -/
def empty : ShardMap K V where
  get _ := none
  keys := ∅
  mem_keys _ := by simp

/-- Whether there is an entry for `k`. -/
def containsKey (m : ShardMap K V) (k : K) : Bool := (m.get k).isSome

/-- One shard's part of `retain`: the entries of the shard `i` that do not satisfy `p` go. -/
def retainShard (m : ShardMap K V) (shard : K → ℕ) (i : ℕ) (p : K → Bool) : ShardMap K V where
  get k := if shard k = i ∧ p k = false then none else m.get k
  keys := m.keys.filter fun k => ¬ (shard k = i ∧ p k = false)
  mem_keys k := by
    by_cases hk : shard k = i ∧ p k = false
    · simp [hk]
    · rw [if_neg hk, Finset.mem_filter, m.mem_keys, and_iff_left hk]

/-- The keys an iteration finds in the shard `i`. -/
def shardKeys (m : ShardMap K V) (shard : K → ℕ) (i : ℕ) : Finset K :=
  m.keys.filter fun k => shard k = i

theorem get_retainShard (m : ShardMap K V) (shard : K → ℕ) (i : ℕ) (p : K → Bool) (k : K) :
    (m.retainShard shard i p).get k = if shard k = i ∧ p k = false then none else m.get k := rfl

/-- What a retained shard leaves was there before. -/
theorem get_of_get_retainShard {m : ShardMap K V} {shard : K → ℕ} {i : ℕ} {p : K → Bool} {k : K}
    {v : V} (h : (m.retainShard shard i p).get k = some v) : m.get k = some v := by
  rw [get_retainShard] at h
  split at h
  · cases h
  · exact h

variable [DecidableEq K]

/-- The map with the entry of `k` set to `v`. -/
def insert (m : ShardMap K V) (k : K) (v : V) : ShardMap K V where
  get := Function.update m.get k (some v)
  keys := Insert.insert k m.keys
  mem_keys j := by
    by_cases hj : j = k
    · simp [hj]
    · simp [hj, m.mem_keys]

/-- The map without an entry for `k`. -/
def remove (m : ShardMap K V) (k : K) : ShardMap K V where
  get := Function.update m.get k none
  keys := m.keys.erase k
  mem_keys j := by
    by_cases hj : j = k
    · simp [hj]
    · simp [hj, m.mem_keys]

/-- `entry(k).or_insert(v)`: the value found or inserted, and the map afterwards. -/
def entryOrInsert (m : ShardMap K V) (k : K) (v : V) : V × ShardMap K V :=
  match m.get k with
  | some w => (w, m)
  | none => (v, m.insert k v)

/-! ### Lookups after an operation -/

theorem get_insert (m : ShardMap K V) (k j : K) (v : V) :
    (m.insert k v).get j = if j = k then some v else m.get j := by
  simp [insert, Function.update_apply]

@[simp] theorem get_insert_self (m : ShardMap K V) (k : K) (v : V) :
    (m.insert k v).get k = some v := by
  simp [insert]

@[simp] theorem get_insert_of_ne (m : ShardMap K V) {k j : K} (v : V) (h : j ≠ k) :
    (m.insert k v).get j = m.get j := by
  simp [insert, h]

theorem get_remove (m : ShardMap K V) (k j : K) :
    (m.remove k).get j = if j = k then none else m.get j := by
  simp [remove, Function.update_apply]

@[simp] theorem get_remove_self (m : ShardMap K V) (k : K) : (m.remove k).get k = none := by
  simp [remove]

@[simp] theorem get_remove_of_ne (m : ShardMap K V) {k j : K} (h : j ≠ k) :
    (m.remove k).get j = m.get j := by
  simp [remove, h]

/-- What a removal leaves was there before. -/
theorem get_of_get_remove {m : ShardMap K V} {k j : K} {v : V}
    (h : (m.remove k).get j = some v) : j ≠ k ∧ m.get j = some v := by
  rcases eq_or_ne j k with rfl | hj
  · simp at h
  · exact ⟨hj, by rwa [get_remove_of_ne m hj] at h⟩

theorem entryOrInsert_of_some {m : ShardMap K V} {k : K} {w : V} (h : m.get k = some w) (v : V) :
    m.entryOrInsert k v = (w, m) := by
  simp [entryOrInsert, h]

theorem entryOrInsert_of_none {m : ShardMap K V} {k : K} (h : m.get k = none) (v : V) :
    m.entryOrInsert k v = (v, m.insert k v) := by
  simp [entryOrInsert, h]

end ShardMap
