/-
**Numbers in a fixed width.**

A number that has to fit into `w` bits can be brought there in two ways: it is capped at the largest
number of the width, or it is cut to its last `w` bits.  Capping keeps the order and is compatible
with sums, so a sum that saturates at every addition is the capped sum whatever the order of its
terms; cutting does neither.  On a number that fits the two agree, and otherwise only by accident.

Main definitions:

* `Width.cap` — the number, or the largest of the width;
* `Width.Fits` — cutting and capping agree on the number.

Main results:

* `Width.mod_eq_cap_iff` — **when cutting a number caps it**;
* `Width.foldl_add` — **additions that saturate add up to the capped sum**.
-/

import Mathlib.Algebra.BigOperators.Group.List.Basic
import Mathlib.Algebra.GroupWithZero.Nat
import Mathlib.Algebra.Order.Group.Nat

set_option relaxedAutoImplicit false
set_option autoImplicit false

namespace Width

variable {w : ℕ}

/-- The number, or the largest one of the width if it does not fit. -/
def cap (w n : ℕ) : ℕ := min n (2 ^ w - 1)

theorem cap_lt (w n : ℕ) : cap w n < 2 ^ w := by
  have hpos := Nat.two_pow_pos w
  unfold cap
  omega

theorem cap_mono {m n : ℕ} (h : m ≤ n) : cap w m ≤ cap w n := by
  unfold cap
  omega

theorem cap_of_lt {n : ℕ} (h : n < 2 ^ w) : cap w n = n := by
  unfold cap
  omega

/-- A bound that fits is met by the capped number when the number meets it. -/
theorem le_cap {m n : ℕ} (hm : m < 2 ^ w) (h : m ≤ n) : m ≤ cap w n := by
  unfold cap
  omega

theorem cap_pos {n : ℕ} (hw : 0 < w) (h : 0 < n) : 0 < cap w n := by
  have hone : 1 < 2 ^ w := Nat.one_lt_two_pow (by omega)
  exact le_cap hone h

/-- What has been capped already can be added as it was. -/
theorem cap_cap_add (w m n : ℕ) : cap w (cap w m + n) = cap w (m + n) := by
  unfold cap
  omega

/-! ### Cutting -/

/-- The number is below `2 ^ w`, or its last bits are all ones. -/
def Fits (w n : ℕ) : Prop := n < 2 ^ w ∨ n % 2 ^ w = 2 ^ w - 1

instance (w n : ℕ) : Decidable (Fits w n) := inferInstanceAs (Decidable (_ ∨ _))

/-- **When cutting a number caps it.** -/
theorem mod_eq_cap_iff {n : ℕ} : n % 2 ^ w = cap w n ↔ Fits w n := by
  have hmod := Nat.mod_lt n (Nat.two_pow_pos w)
  unfold Fits
  constructor
  · intro h
    rcases Nat.lt_or_ge n (2 ^ w) with hn | hn
    · exact Or.inl hn
    · right
      rw [h, cap]
      omega
  · rintro (hn | hones)
    · rw [Nat.mod_eq_of_lt hn, cap_of_lt hn]
    · have hle := Nat.mod_le n (2 ^ w)
      rw [hones] at hle ⊢
      rw [cap]
      omega

/-- Cutting never leaves more than capping. -/
theorem mod_le_cap (w n : ℕ) : n % 2 ^ w ≤ cap w n :=
  le_cap (Nat.mod_lt n (Nat.two_pow_pos w)) (Nat.mod_le n (2 ^ w))

/-! ### Sums -/

/-- **Additions that saturate add up to the capped sum.**  `toNat` reads an addition back as the
capped sum of its arguments. -/
theorem foldl_add {α β : Type} {toNat : β → ℕ} {add : β → β → β}
    (hadd : ∀ a b, toNat (add a b) = cap w (toNat a + toNat b)) (f : α → β) (xs : List α)
    {b : β} (hb : toNat b < 2 ^ w) :
    toNat (xs.foldl (fun total x => add total (f x)) b) =
      cap w (toNat b + (xs.map fun x => toNat (f x)).sum) := by
  induction xs generalizing b with
  | nil => simpa using (cap_of_lt hb).symm
  | cons x xs ih =>
      have hsum : toNat (add b (f x)) < 2 ^ w := by
        rw [hadd]
        exact cap_lt w _
      rw [List.foldl_cons, ih hsum, hadd, cap_cap_add, List.map_cons, List.sum_cons, Nat.add_assoc]

end Width
