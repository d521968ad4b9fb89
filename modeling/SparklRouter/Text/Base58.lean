/-
**Base 58.**

A list of bytes is written as its number in the radix 58, with the digits and letters that are not
taken for one another; the zeros in front, which the number does not show, are written one by one.

Main definitions:

* `Base58.encode`, `Base58.decode`.

Main results:

* `Base58.decode_encode` — **reading back what was written**.
-/

import Mathlib.Data.List.TakeWhile
import Mathlib.Data.Nat.Digits.Lemmas
import SparklRouter.Text.Digits

set_option relaxedAutoImplicit false
set_option autoImplicit false

namespace Base58

open Digits

def alphabet : Text := "123456789ABCDEFGHJKLMNPQRSTUVWXYZabcdefghijkmnopqrstuvwxyz".toList

def digit (n : ℕ) : Char := alphabet.getD n '1'

def digitVal (c : Char) : Option ℕ := alphabet.idxOf? c

def encode (bytes : List UInt8) : Text :=
  (bytes.takeWhile (· = 0)).map (fun _ => '1') ++
    (Nat.digits 58 (BigEndian.decode bytes)).reverse.map digit

/-- The bytes of a number, without zeros in front. -/
def bytesOf (n : ℕ) : List UInt8 := BigEndian.encode (Nat.digits 256 n).length n

def decode (t : Text) : Option (List UInt8) :=
  if t.all fun c => (digitVal c).isSome then
    some ((t.takeWhile (· = '1')).map (fun _ => 0) ++ bytesOf (value digitVal 58 t))
  else none

/-! ### Digits -/

theorem digitVal_digit {n : ℕ} (h : n < 58) : digitVal (digit n) = some n := by
  have hall : ∀ m : Fin 58, digitVal (digit m.val) = some m.val := by decide
  exact hall ⟨n, h⟩

theorem digit_ne_one {n : ℕ} (h : n < 58) (hn : n ≠ 0) : digit n ≠ '1' := by
  intro hone
  have hval := digitVal_digit h
  rw [hone] at hval
  exact hn (Option.some.inj hval).symm

/-- The digits of a number stand for it. -/
theorem value_map_digit {ds : List ℕ} (h : ∀ d ∈ ds, d < 58) :
    value digitVal 58 (ds.reverse.map digit) = Nat.ofDigits 58 ds := by
  induction ds with
  | nil => rfl
  | cons d ds ih =>
      have hrest := ih fun x hx => h x (List.mem_cons_of_mem d hx)
      rw [List.reverse_cons, List.map_append, List.map_singleton, value_concat, hrest,
        digitVal_digit (h d List.mem_cons_self), Option.getD_some, Nat.ofDigits_cons]
      omega

theorem lt_of_mem_digits {n d : ℕ} (h : d ∈ Nat.digits 58 n) : d < 58 :=
  Nat.digits_lt_base (by decide) h

/-- The first digit of a number is not zero. -/
theorem takeWhile_digits (n : ℕ) :
    ((Nat.digits 58 n).reverse.map digit).takeWhile (· = '1') = [] := by
  rcases Nat.eq_zero_or_pos n with rfl | hpos
  · rw [Nat.digits_zero]
    rfl
  · have hne : Nat.digits 58 n ≠ [] := Nat.digits_ne_nil_iff_ne_zero.2 (by omega)
    have hlast := Nat.getLast_digit_ne_zero 58 (m := n) (by omega)
    have hlt := lt_of_mem_digits (List.getLast_mem hne)
    rw [← List.dropLast_concat_getLast hne, List.reverse_append, List.reverse_singleton,
      List.singleton_append, List.map_cons]
    exact List.takeWhile_cons_of_neg (by simpa using digit_ne_one hlt hlast)

/-! ### Zeros in front -/

theorem takeWhile_eq_replicate (bytes : List UInt8) :
    bytes.takeWhile (· = 0) = List.replicate (bytes.takeWhile (· = 0)).length 0 := by
  refine List.eq_replicate_of_mem fun b hb => ?_
  simpa using List.mem_takeWhile_imp hb

/-- The number does not show the zeros. -/
theorem decode_dropWhile (bytes : List UInt8) :
    BigEndian.decode (bytes.dropWhile (· = 0)) = BigEndian.decode bytes := by
  conv_rhs => rw [← List.takeWhile_append_dropWhile (p := (· = 0)) (l := bytes)]
  rw [BigEndian.decode_append, takeWhile_eq_replicate, BigEndian.decode_replicate_zero,
    Nat.zero_mul, Nat.zero_add]

/-- The rest of the bytes is what the number shows. -/
theorem bytesOf_decode (bytes : List UInt8) :
    bytesOf (BigEndian.decode bytes) = bytes.dropWhile (· = 0) := by
  rw [← decode_dropWhile]
  have hlen : (Nat.digits 256 (BigEndian.decode (bytes.dropWhile (· = 0)))).length =
      (bytes.dropWhile (· = 0)).length := by
    refine Nat.le_antisymm ?_ ?_
    · rw [Nat.digits_length_le_iff (by decide)]
      exact BigEndian.decode_lt _
    · cases hrest : bytes.dropWhile (· = 0) with
      | nil => exact Nat.zero_le _
      | cons b rest =>
          have hb : b ≠ 0 := by
            have hhead := List.head?_dropWhile_not (· = 0) bytes
            rw [hrest] at hhead
            simpa using hhead
          have hpos : 0 < b.toNat := UInt8.lt_iff_toNat_lt.1 (UInt8.pos_iff_ne_zero.2 hb)
          have hone : BigEndian.decode [b] = b.toNat := by simp [BigEndian.decode]
          rw [List.length_cons, Nat.succ_le_iff, Nat.lt_digits_length_iff (by decide),
            ← List.singleton_append, BigEndian.decode_append, hone]
          exact (Nat.le_mul_of_pos_left _ hpos).trans (Nat.le_add_right _ _)
  rw [bytesOf, hlen, BigEndian.encode_decode]

/-- **Reading back what was written.** -/
theorem decode_encode (bytes : List UInt8) : decode (encode bytes) = some bytes := by
  have hones : (bytes.takeWhile (· = 0)).map (fun _ => '1') =
      List.replicate (bytes.takeWhile (· = 0)).length '1' := List.map_const' ..
  have hall : (encode bytes).all (fun c => (digitVal c).isSome) = true := by
    rw [List.all_eq_true]
    intro c hc
    rcases List.mem_append.1 hc with hc | hc
    · rw [hones] at hc
      rw [List.eq_of_mem_replicate hc]
      rfl
    · obtain ⟨d, hd, rfl⟩ := List.mem_map.1 hc
      rw [digitVal_digit (lt_of_mem_digits (List.mem_reverse.1 hd))]
      rfl
  have hvalue : value digitVal 58 (encode bytes) = BigEndian.decode bytes := by
    rw [encode, hones, value_replicate_append (by decide), value_map_digit fun d hd =>
      lt_of_mem_digits hd, Nat.ofDigits_digits]
  have hfront : (encode bytes).takeWhile (· = '1') =
      List.replicate (bytes.takeWhile (· = 0)).length '1' := by
    rw [encode, hones, List.takeWhile_append_of_pos (by simp), takeWhile_digits, List.append_nil]
  rw [decode, if_pos hall, hvalue, hfront, bytesOf_decode, List.map_replicate,
    ← takeWhile_eq_replicate, List.takeWhile_append_dropWhile]

end Base58
