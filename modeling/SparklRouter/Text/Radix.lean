/-
**Numbers in texts.**

A number is written with the digits of ten, most significant first, and read in any radix up to
sixteen; a plus sign may stand in front.  What is written determines the number, and so does what is
written before a character that is no digit.

Main definitions:

* `Radix.decimal` — the number in digits;
* `Radix.fromStrRadix` — a number of 64 bits read from a text.

Main results:

* `Radix.decimal_append_inj` — **a number with something behind it that is no digit can be read off
  the text**;
* `Radix.decimal_length_inj` — a length in front of a text can be read off it.
-/

import SparklRouter.Text.Hex

set_option relaxedAutoImplicit false
set_option autoImplicit false

namespace Radix

def decimal (n : ℕ) : Text := Nat.toDigits 10 n

theorem isDigit_of_mem_decimal {n : ℕ} {c : Char} (h : c ∈ decimal n) : c.isDigit = true :=
  Nat.isDigit_of_mem_toDigits (by decide) (by decide) h

theorem decimal_injective {m n : ℕ} (h : decimal m = decimal n) : m = n := by
  have hread := congrArg (fun digits => Nat.ofDigitChars 10 digits 0) h
  simpa only [decimal, Nat.ofDigitChars_ten_toDigits] using hread

/-- The digits in front of anything else. -/
theorem takeWhile_decimal (n : ℕ) {c : Char} (hc : c.isDigit = false) (t : Text) :
    (decimal n ++ c :: t).takeWhile Char.isDigit = decimal n := by
  rw [List.takeWhile_append_of_pos fun d hd => isDigit_of_mem_decimal hd,
    List.takeWhile_cons_of_neg (by simp [hc]), List.append_nil]

/-- **A number with something behind it that is no digit can be read off the text.** -/
theorem decimal_append_inj {m n : ℕ} {c : Char} (hc : c.isDigit = false) {s t : Text}
    (h : decimal m ++ c :: s = decimal n ++ c :: t) : m = n ∧ s = t := by
  have hdigits := congrArg (List.takeWhile Char.isDigit) h
  rw [takeWhile_decimal m hc, takeWhile_decimal n hc] at hdigits
  rw [hdigits] at h
  exact ⟨decimal_injective hdigits, (List.cons.inj (List.append_cancel_left h)).2⟩

/-- A larger number has no fewer digits. -/
theorem length_decimal_mono {m n : ℕ} (h : m ≤ n) : (decimal m).length ≤ (decimal n).length := by
  unfold decimal
  rw [Nat.length_toDigits_le_iff (by decide) Nat.length_toDigits_pos]
  have hn := (Nat.length_toDigits_le_iff (b := 10) (by decide) Nat.length_toDigits_pos).1
    (Nat.le_refl (Nat.toDigits 10 n).length)
  omega

/-- A length in front of a text can be read off it: a longer text has no shorter length. -/
theorem decimal_length_inj {α : Type} {f : Char → α} {s t : List α}
    (h : (decimal s.length).map f ++ s = (decimal t.length).map f ++ t) : s = t := by
  have hlength := congrArg List.length h
  simp only [List.length_append, List.length_map] at hlength
  have hsame : s.length = t.length := by
    rcases Nat.lt_trichotomy s.length t.length with hlt | heq | hgt
    · have hmono := length_decimal_mono (Nat.le_of_lt hlt)
      omega
    · exact heq
    · have hmono := length_decimal_mono (Nat.le_of_lt hgt)
      omega
  rw [hsame] at h
  exact List.append_cancel_left h

/-! ### Reading -/

inductive ParseIntError
  | empty
  | invalidDigit
  | posOverflow
deriving DecidableEq

def ParseIntError.text : ParseIntError → Text
  | .empty => "cannot parse integer from empty string".toList
  | .invalidDigit => "invalid digit found in string".toList
  | .posOverflow => "number too large to fit in target type".toList

/-- The number the digits stand for, behind what has been read. -/
def fromDigits (digitVal : Char → Option ℕ) (radix : ℕ) (read : ℕ) :
    Text → Except ParseIntError UInt64
  | [] => .ok (UInt64.ofNat read)
  | c :: t =>
      match digitVal c with
      | none => .error .invalidDigit
      | some d =>
          if read * radix + d < 2 ^ 64 then fromDigits digitVal radix (read * radix + d) t
          else .error .posOverflow

/-- `u64::from_str_radix`. -/
def fromStrRadix (digitVal : Char → Option ℕ) (radix : ℕ) (t : Text) :
    Except ParseIntError UInt64 :=
  match t with
  | [] => .error .empty
  | ['+'] | ['-'] => .error .invalidDigit
  | '+' :: digits => fromDigits digitVal radix 0 digits
  | digits => fromDigits digitVal radix 0 digits

def decimalVal (c : Char) : Option ℕ :=
  if 48 ≤ c.toNat ∧ c.toNat ≤ 57 then some (c.toNat - 48) else none

/-- `str::parse::<u64>`. -/
def parseU64 (t : Text) : Except ParseIntError UInt64 := fromStrRadix decimalVal 10 t

def fromHexadecimal (t : Text) : Except ParseIntError UInt64 := fromStrRadix Hex.digitVal 16 t

end Radix
