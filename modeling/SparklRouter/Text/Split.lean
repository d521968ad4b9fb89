/-
**Splitting a text at a pattern.**

A text is cut at every occurrence of a pattern, from left to right, an occurrence beginning only
where the one before it has ended.  No occurrence goes across a character that the pattern does not
have, so the pieces of a text on one side of such a character do not depend on the other side.

Main definitions:

* `Split.pieces` — the pieces between the occurrences, one more than there are occurrences.

Main results:

* `Split.pieces_cases` — **the first piece** ends where the pattern occurs first;
* `Split.tail_begins` — every further piece begins where an occurrence has ended;
* `Split.pieces_append_of_notMem` — **the pieces on the two sides of a character** that the pattern
  does not have.
-/

import Mathlib.Data.List.Infix

set_option relaxedAutoImplicit false
set_option autoImplicit false

namespace Split

variable {α : Type} [DecidableEq α]

/-- The first of the pieces gets one more character in front. -/
def consHead (c : α) : List (List α) → List (List α)
  | [] => [[c]]
  | piece :: rest => (c :: piece) :: rest

/-- The pieces of a text of which the first `skip` characters are part of an occurrence. -/
def piecesFrom (pat : List α) : ℕ → List α → List (List α)
  | _, [] => [[]]
  | skip + 1, _ :: t => piecesFrom pat skip t
  | 0, c :: t =>
      if pat.isPrefixOf (c :: t) then [] :: piecesFrom pat (pat.length - 1) t
      else consHead c (piecesFrom pat 0 t)

/-- The pieces of a text between the occurrences of the pattern. -/
def pieces (pat t : List α) : List (List α) := piecesFrom pat 0 t

@[simp] theorem pieces_nil (pat : List α) : pieces pat [] = [[]] := rfl

theorem piecesFrom_eq (pat : List α) (skip : ℕ) (t : List α) :
    piecesFrom pat skip t = pieces pat (t.drop skip) := by
  induction t generalizing skip with
  | nil =>
      rw [List.drop_nil]
      cases skip <;> rfl
  | cons c t ih =>
      cases skip with
      | zero => rfl
      | succ skip => exact ih skip

theorem pieces_ne_nil (pat t : List α) : pieces pat t ≠ [] := by
  cases t with
  | nil => exact List.cons_ne_nil _ _
  | cons c t =>
      rw [pieces, piecesFrom]
      split
      · exact List.cons_ne_nil _ _
      · cases piecesFrom pat 0 t with
        | nil => exact List.cons_ne_nil _ _
        | cons piece rest => exact List.cons_ne_nil _ _

/-- An occurrence at the beginning. -/
theorem pieces_append_left {pat : List α} (hpat : pat ≠ []) (t : List α) :
    pieces pat (pat ++ t) = [] :: pieces pat t := by
  obtain ⟨c, p, rfl⟩ := List.exists_cons_of_ne_nil hpat
  rw [List.cons_append, pieces, piecesFrom, if_pos (by simp), piecesFrom_eq]
  simp

/-- No occurrence at the beginning. -/
theorem pieces_cons {pat : List α} {c : α} {t : List α} (h : ¬ pat <+: c :: t) :
    pieces pat (c :: t) = consHead c (pieces pat t) := by
  rw [pieces, piecesFrom, if_neg (by rwa [List.isPrefixOf_iff_prefix])]
  rfl

/-- **The first piece** is the whole text, or it ends where the pattern occurs first. -/
theorem pieces_cases {pat : List α} (hpat : pat ≠ []) (t : List α) :
    (¬ pat <:+: t ∧ pieces pat t = [t]) ∨
      ∃ u r, t = u ++ pat ++ r ∧ pieces pat t = u :: pieces pat r := by
  induction t with
  | nil =>
      refine Or.inl ⟨fun h => hpat ?_, rfl⟩
      exact List.eq_nil_of_infix_nil h
  | cons c t ih =>
      by_cases hfirst : pat <+: c :: t
      · obtain ⟨r, hr⟩ := hfirst
        refine Or.inr ⟨[], r, hr.symm, ?_⟩
        rw [← hr, pieces_append_left hpat]
      · rw [pieces_cons hfirst]
        rcases ih with ⟨hnot, heq⟩ | ⟨u, r, rfl, heq⟩
        · refine Or.inl ⟨fun h => ?_, by rw [heq]; rfl⟩
          rcases List.infix_cons_iff.1 h with h | h
          · exact hfirst h
          · exact hnot h
        · exact Or.inr ⟨c :: u, r, rfl, by rw [heq]; rfl⟩

theorem pieces_of_not_infix {pat t : List α} (hpat : pat ≠ []) (h : ¬ pat <:+: t) :
    pieces pat t = [t] := by
  rcases pieces_cases hpat t with ⟨-, heq⟩ | ⟨u, r, heq, -⟩
  · exact heq
  · exact absurd ⟨u, r, heq.symm⟩ h

/-- The first piece is a beginning of the text. -/
theorem head_begins {pat t p : List α} {ps : List (List α)} (hpat : pat ≠ [])
    (h : pieces pat t = p :: ps) : p <+: t := by
  rcases pieces_cases hpat t with ⟨-, heq⟩ | ⟨u, r, ht, heq⟩
  · obtain ⟨rfl, -⟩ := List.cons.inj (heq.symm.trans h)
    exact List.prefix_refl _
  · obtain ⟨rfl, -⟩ := List.cons.inj (heq.symm.trans h)
    exact ⟨pat ++ r, by rw [ht, List.append_assoc]⟩

/-- Every further piece begins where an occurrence has ended. -/
theorem tail_begins {pat : List α} (hpat : pat ≠ []) {t s : List α}
    (h : s ∈ (pieces pat t).tail) : ∃ u r, t = u ++ pat ++ r ∧ s <+: r := by
  induction hlen : t.length using Nat.strong_induction_on generalizing t with
  | _ n ih =>
      rcases pieces_cases hpat t with ⟨-, heq⟩ | ⟨u, r, ht, heq⟩
      · rw [heq] at h
        cases h
      · rw [heq, List.tail_cons] at h
        cases hr : pieces pat r with
        | nil => exact absurd hr (pieces_ne_nil pat r)
        | cons p ps =>
            rw [hr] at h
            rcases List.mem_cons.1 h with rfl | h
            · exact ⟨u, r, ht, head_begins hpat hr⟩
            · have hlt : r.length < n := by
                rw [← hlen, ht]
                have := List.length_pos_iff.2 hpat
                simp only [List.length_append]
                omega
              obtain ⟨u', r', hr', hs⟩ := ih r.length hlt (t := r) (by rw [hr]; exact h) rfl
              refine ⟨u ++ pat ++ u', r', ?_, hs⟩
              rw [ht, hr']
              simp only [List.append_assoc]

/-! ### Texts put together -/

/-- A character that does not occur in the pattern. -/
theorem pieces_cons_of_ne {pat : List α} (hpat : pat ≠ []) {c : α} (hc : c ∉ pat) (t : List α) :
    pieces pat (c :: t) = consHead c (pieces pat t) := by
  refine pieces_cons fun h => hc ?_
  obtain ⟨d, p, rfl⟩ := List.exists_cons_of_ne_nil hpat
  rw [(List.cons_prefix_cons.1 h).1]
  exact List.mem_cons_self

/-- A piece that goes on across a character that does not occur in the pattern: `last` is the piece
before it and `first` the one behind. -/
theorem pieces_append_of_notMem {pat : List α} (hpat : pat ≠ []) {c : α} (hc : c ∉ pat)
    (a z : List α) : ∃ front last first back, pieces pat a = front ++ [last] ∧
      pieces pat z = first :: back ∧
      pieces pat (a ++ c :: z) = front ++ (last ++ c :: first) :: back := by
  induction hlen : a.length using Nat.strong_induction_on generalizing a with
  | _ n ih =>
      cases a with
      | nil =>
          obtain ⟨first, back, hz⟩ := List.exists_cons_of_ne_nil (pieces_ne_nil pat z)
          refine ⟨[], [], first, back, rfl, hz, ?_⟩
          rw [List.nil_append, pieces_cons_of_ne hpat hc, hz]
          rfl
      | cons d a =>
          by_cases hfirst : pat <+: d :: a
          · obtain ⟨rest, hrest⟩ := hfirst
            have hlt : rest.length < n := by
              rw [← hlen, ← hrest, List.length_append]
              have := List.length_pos_iff.2 hpat
              omega
            obtain ⟨front, last, first, back, hfront, hz, hall⟩ := ih rest.length hlt rest rfl
            refine ⟨[] :: front, last, first, back, ?_, hz, ?_⟩
            · rw [← hrest, pieces_append_left hpat, hfront]
              rfl
            · rw [← hrest, List.append_assoc, pieces_append_left hpat, hall]
              rfl
          · have hnot : ¬ pat <+: d :: (a ++ c :: z) := by
              intro h
              rcases Nat.lt_or_ge (d :: a).length pat.length with hlt | hge
              · have hlen' : (d :: a ++ [c]).length ≤ pat.length := by
                  rw [List.length_append, List.length_singleton]
                  exact hlt
                have hpre : d :: a ++ [c] <+: pat :=
                  List.prefix_of_prefix_length_le ⟨z, by simp⟩ h hlen'
                exact hc (hpre.subset (by simp))
              · exact hfirst (List.prefix_of_prefix_length_le h ⟨c :: z, by simp⟩ hge)
            have hlt : a.length < n := by
              rw [← hlen, List.length_cons]
              omega
            obtain ⟨front, last, first, back, hfront, hz, hall⟩ := ih a.length hlt a rfl
            rw [List.cons_append, pieces_cons hnot, pieces_cons hfirst, hall, hfront]
            cases front with
            | nil => exact ⟨[], d :: last, first, back, rfl, hz, rfl⟩
            | cons f front => exact ⟨(d :: f) :: front, last, first, back, rfl, hz, rfl⟩

end Split
