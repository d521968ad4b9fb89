/-
**The number that digits stand for.**

A text of digits stands for a number, with its most significant digit first.  This module gives that
number for any digits and any radix, and what the readers and writers of digits make of it: a number
that does not fit is refused, digits of sixteen are the bytes of their number two by two, and zeros in
front count for nothing.

Main definitions:

* `Digits.All` — a text of digits;
* `Digits.value` — the number that they stand for;
* `Digits.lowest` — the lowest digits of a number, a fixed number of them.

Main results:

* `Digits.fromStrRadix_eq` — **a number is read exactly when it fits**;
* `Digits.decode_hexadecimal` — the bytes of hexadecimal digits are those of their number;
* `Digits.value_decimal`, `Digits.value_encode`, `Digits.value_lowest` — what is written stands for the
  number;
* `Digits.value_dropWhile_zero`, `Digits.pow_le_value` — zeros in front, and none.
-/

import SparklRouter.Text.Radix
import SparklRouter.Text.Words

set_option relaxedAutoImplicit false
set_option autoImplicit false

namespace Digits

open Radix

section

variable (digitVal : Char → Option ℕ) (radix : ℕ)

/-- Every character is a digit. -/
def All (t : Text) : Prop := ∀ c ∈ t, (digitVal c).isSome = true

/-- The number that the digits stand for, behind what has been read. -/
def valueFrom (read : ℕ) (t : Text) : ℕ :=
  t.foldl (fun n c => n * radix + (digitVal c).getD 0) read

/-- The number that the digits stand for. -/
def value (t : Text) : ℕ := valueFrom digitVal radix 0 t

variable {digitVal} {radix}

theorem All.of_cons {c : Char} {t : Text} (h : All digitVal (c :: t)) : All digitVal t :=
  fun d hd => h d (List.mem_cons_of_mem c hd)

/-- The first digit. -/
theorem All.head {c : Char} {t : Text} (h : All digitVal (c :: t)) : ∃ d, digitVal c = some d :=
  Option.isSome_iff_exists.1 (h c List.mem_cons_self)

theorem All.take {t : Text} (h : All digitVal t) (n : ℕ) : All digitVal (t.take n) :=
  fun c hc => h c (List.mem_of_mem_take hc)

/-- What has been read counts for the digits behind it. -/
theorem valueFrom_eq (read : ℕ) (t : Text) :
    valueFrom digitVal radix read t = read * radix ^ t.length + value digitVal radix t := by
  induction t generalizing read with
  | nil => simp [valueFrom, value]
  | cons c t ih =>
      have hhead : value digitVal radix (c :: t) =
          (digitVal c).getD 0 * radix ^ t.length + value digitVal radix t := by
        rw [← ih, value, valueFrom, valueFrom, List.foldl_cons, Nat.zero_mul, Nat.zero_add]
      have hread : valueFrom digitVal radix read (c :: t) =
          valueFrom digitVal radix (read * radix + (digitVal c).getD 0) t := rfl
      rw [hread, ih, hhead, List.length_cons, pow_succ, Nat.add_mul]
      ac_rfl

theorem value_append (s t : Text) :
    value digitVal radix (s ++ t) =
      value digitVal radix s * radix ^ t.length + value digitVal radix t := by
  rw [← valueFrom_eq, value, value, valueFrom, valueFrom, valueFrom, List.foldl_append]

theorem value_cons (c : Char) (t : Text) :
    value digitVal radix (c :: t) =
      (digitVal c).getD 0 * radix ^ t.length + value digitVal radix t := by
  rw [← List.singleton_append, value_append]
  simp [value, valueFrom]

/-- The last digit. -/
theorem value_concat (t : Text) (c : Char) :
    value digitVal radix (t ++ [c]) = value digitVal radix t * radix + (digitVal c).getD 0 := by
  rw [value_append]
  simp [value, valueFrom]

/-- Zeros in front count for nothing. -/
theorem value_replicate_append {zero : Char} (hzero : digitVal zero = some 0) (k : ℕ) (t : Text) :
    value digitVal radix (List.replicate k zero ++ t) = value digitVal radix t := by
  induction k with
  | zero => rfl
  | succ k ih => rw [List.replicate_succ, List.cons_append, value_cons, hzero, ih]; simp

theorem value_dropWhile_zero {zero : Char} (hzero : digitVal zero = some 0) (t : Text) :
    value digitVal radix (t.dropWhile (· = zero)) = value digitVal radix t := by
  induction t with
  | nil => rfl
  | cons c t ih =>
      by_cases hc : c = zero
      · subst hc
        rw [List.dropWhile_cons_of_pos (by simp), ih, value_cons, hzero]
        simp
      · rw [List.dropWhile_cons_of_neg (by simpa using hc)]

/-- **Without a zero in front a number is as long as its digits.** -/
theorem pow_le_value {c : Char} {d : ℕ} (hc : digitVal c = some d) (hd : 0 < d) (t : Text) :
    radix ^ t.length ≤ value digitVal radix (c :: t) := by
  rw [value_cons, hc]
  calc radix ^ t.length ≤ d * radix ^ t.length := Nat.le_mul_of_pos_left _ hd
    _ ≤ d * radix ^ t.length + value digitVal radix t := Nat.le_add_right _ _

/-- A number has room in as many digits as stand for it. -/
theorem value_lt_pow (hlt : ∀ {c d}, digitVal c = some d → d < radix) {t : Text}
    (h : All digitVal t) : value digitVal radix t < radix ^ t.length := by
  induction t with
  | nil => exact Nat.one_pos
  | cons c t ih =>
      obtain ⟨d, hd⟩ := h.head
      have hrest := ih h.of_cons
      rw [value_cons, hd, Option.getD_some, List.length_cons, pow_succ, Nat.mul_comm]
      calc radix ^ t.length * d + value digitVal radix t
          < radix ^ t.length * d + radix ^ t.length := by omega
        _ = radix ^ t.length * (d + 1) := (Nat.mul_succ _ d).symm
        _ ≤ radix ^ t.length * radix := Nat.mul_le_mul_left _ (hlt hd)

/-! ### Reading -/

/-- Digits are read as long as the number fits. -/
theorem fromDigits_eq (hradix : 0 < radix) {t : Text} (h : All digitVal t) {read : ℕ}
    (hread : read < 2 ^ 64) :
    fromDigits digitVal radix read t =
      if valueFrom digitVal radix read t < 2 ^ 64 then
        .ok (UInt64.ofNat (valueFrom digitVal radix read t))
      else .error .posOverflow := by
  induction t generalizing read with
  | nil =>
      have hnil : valueFrom digitVal radix read [] = read := rfl
      rw [fromDigits, hnil, if_pos hread]
  | cons c t ih =>
      obtain ⟨d, hd⟩ := h.head
      have hnext : valueFrom digitVal radix read (c :: t) =
          valueFrom digitVal radix (read * radix + d) t := by
        rw [valueFrom, valueFrom, List.foldl_cons, hd, Option.getD_some]
      rw [fromDigits, hd, hnext]
      by_cases hfits : read * radix + d < 2 ^ 64
      · simp only [if_pos hfits]
        exact ih h.of_cons hfits
      · -- the digits behind do not make the number smaller
        have hgrows : read * radix + d ≤ valueFrom digitVal radix (read * radix + d) t := by
          rw [valueFrom_eq]
          have hle := Nat.le_mul_of_pos_right (read * radix + d) (Nat.pow_pos (n := t.length) hradix)
          omega
        simp only [if_neg hfits]
        rw [if_neg (by omega)]

/-- **A number is read exactly when it fits.**  The signs are no digits. -/
theorem fromStrRadix_eq (hradix : 0 < radix) (hplus : digitVal '+' = none)
    (hminus : digitVal '-' = none) {t : Text} (hne : t ≠ []) (h : All digitVal t) :
    fromStrRadix digitVal radix t =
      if value digitVal radix t < 2 ^ 64 then .ok (UInt64.ofNat (value digitVal radix t))
      else .error .posOverflow := by
  obtain ⟨c, t, rfl⟩ := List.exists_cons_of_ne_nil hne
  obtain ⟨d, hd⟩ := h.head
  have hsign : fromStrRadix digitVal radix (c :: t) = fromDigits digitVal radix 0 (c :: t) := by
    unfold fromStrRadix
    split
    · contradiction
    · simp_all
    · simp_all
    · simp_all
    · rfl
  rw [hsign]
  exact fromDigits_eq hradix h (by decide)

end

/-! ### Ten -/

theorem decimalVal_eq {c : Char} (h : c.isDigit = true) :
    decimalVal c = some (c.toNat - '0'.toNat) := by
  rw [Char.isDigit, Bool.and_eq_true, decide_eq_true_eq, decide_eq_true_eq] at h
  exact if_pos h

theorem all_decimal (n : ℕ) : All decimalVal (decimal n) := by
  intro c hc
  rw [decimalVal_eq (isDigit_of_mem_decimal hc)]
  rfl

/-- What is written stands for the number. -/
theorem value_decimal (n : ℕ) : value decimalVal 10 (decimal n) = n := by
  have hread : ∀ t : Text, (∀ c ∈ t, c.isDigit = true) → ∀ read,
      valueFrom decimalVal 10 read t = Nat.ofDigitChars 10 t read := by
    intro t
    induction t with
    | nil => exact fun _ _ => rfl
    | cons c t ih =>
        intro h read
        have hrest := ih (fun d hd => h d (List.mem_cons_of_mem c hd))
          (read * 10 + (decimalVal c).getD 0)
        rw [valueFrom, List.foldl_cons]
        refine hrest.trans ?_
        rw [decimalVal_eq (h c List.mem_cons_self), Option.getD_some, Nat.mul_comm]
        rfl
  rw [value, hread _ fun c hc => isDigit_of_mem_decimal hc, decimal, Nat.ofDigitChars_ten_toDigits]

theorem decimal_ne_nil (n : ℕ) : decimal n ≠ [] := Nat.toDigits_ne_nil

/-! ### Sixteen -/

theorem lt_of_digitVal {c : Char} {d : ℕ} (h : Hex.digitVal c = some d) : d < 16 := by
  unfold Hex.digitVal at h
  split_ifs at h <;> · cases h; omega

/-- **The bytes of hexadecimal digits are those of their number.** -/
theorem decode_hexadecimal {k : ℕ} {t : Text} (hlen : t.length = 2 * k)
    (h : All Hex.digitVal t) : ∃ bytes, Hex.decode t = some bytes ∧ bytes.length = k ∧
      BigEndian.decode bytes = value Hex.digitVal 16 t := by
  induction k generalizing t with
  | zero =>
      obtain rfl : t = [] := List.eq_nil_of_length_eq_zero hlen
      exact ⟨[], rfl, rfl, rfl⟩
  | succ k ih =>
      match t, hlen, h with
      | c :: d :: t, hlen, h =>
          have hrest : t.length = 2 * k := by
            rw [List.length_cons, List.length_cons] at hlen
            omega
          obtain ⟨x, hx⟩ := h.head
          obtain ⟨y, hy⟩ := h.of_cons.head
          obtain ⟨bytes, hbytes, hcount, hvalue⟩ := ih hrest h.of_cons.of_cons
          have hpair : 16 * x + y < 256 := by
            have := lt_of_digitVal hx
            have := lt_of_digitVal hy
            omega
          refine ⟨UInt8.ofNat (16 * x + y) :: bytes, ?_, by rw [List.length_cons, hcount], ?_⟩
          · rw [Hex.decode, hx, hy, hbytes]
          · have hpow : (16 : ℕ) ^ (2 * k) = 256 ^ k := by rw [pow_mul]; rfl
            have hbyte : BigEndian.decode [UInt8.ofNat (16 * x + y)] = 16 * x + y := by
              rw [BigEndian.decode, List.foldl_cons, List.foldl_nil, UInt8.toNat_ofNat']
              omega
            rw [← List.singleton_append, BigEndian.decode_append, hbyte, hvalue, hcount,
              value_cons, value_cons, hx, hy, List.length_cons, hrest, pow_succ, hpow,
              Option.getD_some, Option.getD_some, Nat.add_mul]
            ac_rfl

theorem all_encode (bs : List UInt8) : All Hex.digitVal (Hex.encode bs) := by
  induction bs with
  | nil => exact fun c hc => absurd hc List.not_mem_nil
  | cons b bs ih =>
      have hb := b.toNat_lt
      intro c hc
      rw [Hex.encode] at hc
      rcases List.mem_cons.1 hc with rfl | hc
      · rw [Hex.digitVal_digit (by omega)]
        rfl
      · rcases List.mem_cons.1 hc with rfl | hc
        · rw [Hex.digitVal_digit (Nat.mod_lt _ (by omega))]
          rfl
        · exact ih c hc

/-- What is written stands for the number in the bytes. -/
theorem value_encode (bs : List UInt8) :
    value Hex.digitVal 16 (Hex.encode bs) = BigEndian.decode bs := by
  have hlen : (Hex.encode bs).length = 2 * bs.length := by
    induction bs with
    | nil => rfl
    | cons b bs ih =>
        rw [Hex.encode, List.length_cons, List.length_cons, ih, List.length_cons]
        omega
  obtain ⟨bytes, hbytes, -, hvalue⟩ := decode_hexadecimal hlen (all_encode bs)
  rw [Hex.decode_encode] at hbytes
  rw [← hvalue, Option.some.inj hbytes]

/-! ### A fixed number of digits -/

/-- The lowest `k` digits of the number, in hexadecimal. -/
def lowest : ℕ → ℕ → Text
  | 0, _ => []
  | k + 1, n => lowest k (n / 16) ++ [Hex.digit (n % 16)]

theorem length_lowest (k n : ℕ) : (lowest k n).length = k := by
  induction k generalizing n with
  | zero => rfl
  | succ k ih => rw [lowest, List.length_append, ih, List.length_singleton]

theorem all_lowest (k n : ℕ) : All Hex.digitVal (lowest k n) := by
  induction k generalizing n with
  | zero => exact fun c hc => absurd hc List.not_mem_nil
  | succ k ih =>
      intro c hc
      rcases List.mem_append.1 hc with hc | hc
      · exact ih _ c hc
      · rw [List.mem_singleton.1 hc, Hex.digitVal_digit (Nat.mod_lt _ (by decide))]
        rfl

theorem value_lowest (k n : ℕ) : value Hex.digitVal 16 (lowest k n) = n % 16 ^ k := by
  induction k generalizing n with
  | zero =>
      rw [Nat.pow_zero, Nat.mod_one]
      rfl
  | succ k ih =>
      rw [lowest, value_concat, ih, Hex.digitVal_digit (Nat.mod_lt _ (by decide)),
        Option.getD_some, Nat.pow_succ', Nat.mod_mul]
      omega

end Digits
