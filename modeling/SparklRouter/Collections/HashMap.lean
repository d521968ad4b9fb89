/-
**Hash maps and their iteration order.**

A hash map holds at most one value for each key; which entry an iteration over it meets first
depends on the hash function and on the history of the map, so a program that iterates over one
has to be right for every order.  An `IterOrder` is one such choice: it lists the entries of a map,
each of them once.  A hash map whose values are hash maps again is iterated over by one choice for
the outer map and one for each inner map.

Main definitions:

* `HashMap` — a map with finitely many entries;
* `IterOrder` — a choice of the order in which the entries of a map are met;
* `IterOrder.stored` — the order in which the entries lie;
* `HashMap.rows`, `HashMap.visits` — the entries of a map of maps, as they lie and in the order of a
  choice;
* `HashMap.holders` — the inner maps that have a key, with its value there;
* `HashMap.collect` — a map with the entries whose keys have a new name.

Main results:

* `HashMap.visits_perm` — **every iteration meets the same entries**;
* `HashMap.mem_rows` — what the entries of a map of maps are;
* `HashMap.filter_rows` — **the entries under one key of the inner maps are one for each holder**;
* `HashMap.lookup_collect` — **names that tell the keys apart keep the entries**, in every order.
-/

import Mathlib.Data.List.AList
import Mathlib.Data.List.Perm.Basic

set_option relaxedAutoImplicit false
set_option autoImplicit false

/-- A hash map: finitely many entries, at most one for each key. -/
abbrev HashMap (K V : Type) := AList fun _ : K => V

/-- An order of iteration over hash maps. -/
structure IterOrder (K V : Type) where
  iter : HashMap K V → List (Σ _ : K, V)
  perm : ∀ m, (iter m).Perm m.entries

/-- The order in which the entries lie. -/
def IterOrder.stored (K V : Type) : IterOrder K V where
  iter m := m.entries
  perm _ := List.Perm.refl _

namespace HashMap

variable {N K V : Type}

/-- The entries of a map of maps, each with the two keys that lead to it. -/
def rows (m : HashMap N (HashMap K V)) : List (N × K × V) :=
  m.entries.flatMap fun inner => inner.2.entries.map fun e => (inner.1, e.1, e.2)

/-- The entries of a map of maps, in the order of a nested iteration. -/
def visits (outer : IterOrder N (HashMap K V)) (inner : N → IterOrder K V)
    (m : HashMap N (HashMap K V)) : List (N × K × V) :=
  (outer.iter m).flatMap fun models => ((inner models.1).iter models.2).map fun e =>
    (models.1, e.1, e.2)

/-- **Every iteration meets the same entries.** -/
theorem visits_perm (outer : IterOrder N (HashMap K V)) (inner : N → IterOrder K V)
    (m : HashMap N (HashMap K V)) : (visits outer inner m).Perm (rows m) := by
  refine List.Perm.flatMap (outer.perm m) fun models _ => ?_
  exact ((inner models.1).perm models.2).map _

theorem mem_rows [DecidableEq N] [DecidableEq K] {m : HashMap N (HashMap K V)} {n : N} {k : K}
    {v : V} :
    (n, k, v) ∈ rows m ↔ ∃ models, m.lookup n = some models ∧ models.lookup k = some v := by
  rw [rows, List.mem_flatMap]
  constructor
  · rintro ⟨⟨n', models⟩, hmem, hrow⟩
    obtain ⟨⟨k', v'⟩, he, heq⟩ := List.mem_map.1 hrow
    cases heq
    exact ⟨models, AList.mem_lookup_iff.2 hmem, AList.mem_lookup_iff.2 he⟩
  · rintro ⟨models, hm, hk⟩
    refine ⟨⟨n, models⟩, AList.mem_lookup_iff.1 hm, ?_⟩
    exact List.mem_map.2 ⟨⟨k, v⟩, AList.mem_lookup_iff.1 hk, rfl⟩

/-- No two entries of a map of maps have the same keys. -/
theorem nodup_rows (m : HashMap N (HashMap K V)) :
    ((rows m).map fun row => (row.1, row.2.1)).Nodup := by
  have hkeys : (rows m).map (fun row => (row.1, row.2.1)) =
      m.entries.flatMap fun inner => inner.2.keys.map fun k => (inner.1, k) := by
    rw [rows, List.map_flatMap]
    refine congrArg (fun f => m.entries.flatMap f) (funext fun inner => ?_)
    rw [AList.keys, List.keys, List.map_map, List.map_map]
    rfl
  rw [hkeys, List.nodup_flatMap]
  constructor
  · intro inner _
    exact inner.2.keys_nodup.map fun k k' hk => (Prod.mk.inj hk).2
  · have hnodup := m.keys_nodup
    rw [AList.keys, List.keys, List.Nodup, List.pairwise_map] at hnodup
    refine hnodup.imp fun hne row hrow hrow' => hne ?_
    obtain ⟨k, -, rfl⟩ := List.mem_map.1 hrow
    obtain ⟨k', -, hk'⟩ := List.mem_map.1 hrow'
    exact (Prod.mk.inj hk').1.symm

/-! ### The maps that have a key -/

section

variable [DecidableEq K]

/-- The inner maps that have the key, with its value there. -/
def holders (k : K) (m : HashMap N (HashMap K V)) : List (N × V) :=
  m.entries.filterMap fun inner => (inner.2.lookup k).map fun v => (inner.1, v)

/-- No inner map is met twice. -/
theorem nodup_holders (k : K) (m : HashMap N (HashMap K V)) :
    ((holders k m).map Prod.fst).Nodup := by
  have hsub : ((holders k m).map Prod.fst).Sublist m.keys := by
    unfold holders AList.keys
    generalize m.entries = entries
    induction entries with
    | nil => exact List.Sublist.refl _
    | cons inner entries ih =>
        rw [List.filterMap_cons]
        cases inner.2.lookup k with
        | none => exact ih.trans (List.sublist_cons_self _ _)
        | some v => exact ih.cons_cons inner.1
  exact hsub.nodup m.keys_nodup

theorem mem_holders [DecidableEq N] {k : K} {m : HashMap N (HashMap K V)} {n : N} {v : V} :
    (n, v) ∈ holders k m ↔ ∃ models, m.lookup n = some models ∧ models.lookup k = some v := by
  rw [holders, List.mem_filterMap]
  constructor
  · rintro ⟨⟨n', models⟩, hmem, hlookup⟩
    obtain ⟨v', hv, heq⟩ := Option.map_eq_some_iff.1 hlookup
    cases heq
    exact ⟨models, AList.mem_lookup_iff.2 hmem, hv⟩
  · rintro ⟨models, hm, hk⟩
    exact ⟨⟨n, models⟩, AList.mem_lookup_iff.1 hm, by rw [hk]; rfl⟩

/-- The entries of a map under one key. -/
theorem filter_entries (k : K) (models : HashMap K V) :
    models.entries.filter (fun e => e.1 = k) =
      (models.lookup k).toList.map fun v => ⟨k, v⟩ := by
  obtain ⟨entries, hnodup⟩ := models
  change entries.filter _ = (entries.dlookup k).toList.map _
  induction entries with
  | nil => rfl
  | cons e entries ih =>
      rw [List.nodupKeys_cons] at hnodup
      obtain ⟨k', v⟩ := e
      by_cases hk : k' = k
      · subst hk
        -- the key does not come again
        have hnone : entries.filter (fun e => e.1 = k') = [] := by
          rw [ih hnodup.2, List.dlookup_eq_none.2 hnodup.1]
          rfl
        rw [List.filter_cons_of_pos (by simp), hnone, List.dlookup_cons_eq]
        rfl
      · rw [List.filter_cons_of_neg (by simpa using hk), ih hnodup.2,
          List.dlookup_cons_ne _ _ (Ne.symm hk)]

/-- **The entries under one key of the inner maps are one for each holder.** -/
theorem filter_rows (k : K) (m : HashMap N (HashMap K V)) :
    (rows m).filter (fun r => r.2.1 = k) = (holders k m).map fun h => (h.1, k, h.2) := by
  rw [rows, holders, List.filter_flatMap]
  generalize m.entries = entries
  induction entries with
  | nil => rfl
  | cons inner entries ih =>
      have hhead : (inner.2.entries.map fun e => (inner.1, e.1, e.2)).filter (fun r => r.2.1 = k) =
          (inner.2.lookup k).toList.map fun v => (inner.1, k, v) := by
        rw [List.filter_map]
        change (inner.2.entries.filter fun e => e.1 = k).map _ = _
        rw [filter_entries, List.map_map]
        rfl
      rw [List.flatMap_cons, ih, hhead, List.filterMap_cons]
      cases inner.2.lookup k with
      | none => rfl
      | some v => rfl

end

/-! ### New names for the keys -/

section

variable {L : Type} [DecidableEq L] (rename : K → Option L)

/-- The entries whose keys have a new name, inserted one after the other. -/
def collect (entries : List (Σ _ : K, V)) : HashMap L V :=
  entries.foldl (fun out e =>
    match rename e.1 with
    | some l => out.insert l e.2
    | none => out) ∅

variable {rename} (hinj : ∀ {k k' l}, rename k = some l → rename k' = some l → k = k')
include hinj

theorem lookup_foldl_insert {entries : List (Σ _ : K, V)} (hnodup : entries.NodupKeys)
    (out : HashMap L V) {l : L} {v : V} :
    (entries.foldl (fun out e =>
      match rename e.1 with
      | some l => out.insert l e.2
      | none => out) out).lookup l = some v ↔
      (∃ k, rename k = some l ∧ ⟨k, v⟩ ∈ entries) ∨
        (∀ e ∈ entries, rename e.1 ≠ some l) ∧ out.lookup l = some v := by
  induction entries generalizing out with
  | nil => simp
  | cons e entries ih =>
      obtain ⟨k, w⟩ := e
      rw [List.nodupKeys_cons] at hnodup
      rw [List.foldl_cons, ih hnodup.2]
      by_cases hk : rename k = some l
      · -- the key does not come again
        have hlater : ∀ e ∈ entries, rename e.1 ≠ some l := by
          intro e he hname
          have hmem : e.1 ∈ entries.keys := List.mem_keys_of_mem he
          rw [hinj hname hk] at hmem
          exact hnodup.1 hmem
        have hinserted : AList.lookup l (out.insert l w) = some w := AList.lookup_insert _
        simp only [hk, hinserted, Option.some.injEq, List.mem_cons]
        constructor
        · rintro (⟨k', hk', hmem⟩ | ⟨-, rfl⟩)
          · exact absurd hk' (hlater _ hmem)
          · exact Or.inl ⟨k, hk, Or.inl rfl⟩
        · rintro (⟨k', hk', hmem⟩ | ⟨hnone, -⟩)
          · rcases hmem with heq | hmem
            · cases heq
              exact Or.inr ⟨hlater, rfl⟩
            · exact absurd hk' (hlater _ hmem)
          · exact absurd hk (hnone _ (Or.inl rfl))
      · have hother : (match rename k with
            | some l => out.insert l w
            | none => out).lookup l = out.lookup l := by
          cases hname : rename k with
          | none => rfl
          | some l' => exact AList.lookup_insert_ne (by rintro rfl; exact hk hname)
        rw [hother]
        simp only [List.mem_cons]
        constructor
        · rintro (⟨k', hk', hmem⟩ | ⟨hnone, hout⟩)
          · exact Or.inl ⟨k', hk', Or.inr hmem⟩
          · refine Or.inr ⟨?_, hout⟩
            rintro e (rfl | he)
            · exact hk
            · exact hnone e he
        · rintro (⟨k', hk', hmem⟩ | ⟨hnone, hout⟩)
          · rcases hmem with heq | hmem
            · cases heq
              exact absurd hk' hk
            · exact Or.inl ⟨k', hk', hmem⟩
          · exact Or.inr ⟨fun e he => hnone e (Or.inr he), hout⟩

/-- **Names that tell the keys apart keep the entries**, whatever the order of the iteration. -/
theorem lookup_collect [DecidableEq K] (order : IterOrder K V) (m : HashMap K V) {l : L} {v : V} :
    (collect rename (order.iter m)).lookup l = some v ↔
      ∃ k, rename k = some l ∧ m.lookup k = some v := by
  have hnodup : (order.iter m).NodupKeys :=
    (List.perm_nodupKeys (order.perm m)).2 m.nodupKeys
  rw [collect, lookup_foldl_insert hinj hnodup, AList.lookup_empty]
  constructor
  · rintro (⟨k, hk, hmem⟩ | ⟨-, hnone⟩)
    · exact ⟨k, hk, AList.mem_lookup_iff.2 ((order.perm m).mem_iff.1 hmem)⟩
    · cases hnone
  · rintro ⟨k, hk, hlookup⟩
    exact Or.inl ⟨k, hk, (order.perm m).mem_iff.2 (AList.mem_lookup_iff.1 hlookup)⟩

end

end HashMap
