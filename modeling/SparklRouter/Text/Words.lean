/-
**Numbers and words in bytes.**

A contract answers a call with a list of words of 32 bytes; a number stands in a word with its most
significant byte first.  This module gives the numbers in bytes, the words of a list of bytes, and
the facts by which a word that was written is read back.

Main definitions:

* `BigEndian.encode`, `BigEndian.decode` — a number in a given number of bytes;
* `Word`, `Word.ofNat`, `Word.ofTail` — the words, those of numbers and those with their bytes at
  the end;
* `Word.concat`, `Word.at?` — words one after the other, and the word at an index.

Main results:

* `BigEndian.decode_encode` — **a number that fits is read back**;
* `Word.at?_concat` — **so is the word at an index**, whatever follows the words.
-/

import Mathlib.Data.List.Basic
import Mathlib.Data.List.Induction
import Mathlib.Data.Vector.Basic

set_option relaxedAutoImplicit false
set_option autoImplicit false

namespace BigEndian

/-- The number in `width` bytes; what does not fit is lost. -/
def encode : ℕ → ℕ → List UInt8
  | 0, _ => []
  | width + 1, n => encode width (n / 256) ++ [UInt8.ofNat n]

def decode (bs : List UInt8) : ℕ := bs.foldl (fun n b => 256 * n + b.toNat) 0

@[simp] theorem length_encode (width n : ℕ) : (encode width n).length = width := by
  induction width generalizing n with
  | zero => rfl
  | succ width ih => simp [encode, ih]

/-- The bytes of a number are those of its quotient and those of its remainder. -/
theorem encode_add (front width n : ℕ) :
    encode (front + width) n = encode front (n / 256 ^ width) ++ encode width n := by
  induction width generalizing n with
  | zero => simp [encode]
  | succ width ih =>
      have hdiv : n / 256 / 256 ^ width = n / 256 ^ (width + 1) := by
        rw [Nat.div_div_eq_div_mul, pow_succ, Nat.mul_comm]
      rw [← Nat.add_assoc, encode, ih, hdiv, encode, List.append_assoc]

/-- The last bytes of a number. -/
theorem drop_encode (front width n : ℕ) :
    (encode (front + width) n).drop front = encode width n := by
  rw [encode_add, List.drop_left' (length_encode _ _)]

/-- **A number that fits is read back.** -/
theorem decode_encode {width n : ℕ} (h : n < 256 ^ width) : decode (encode width n) = n := by
  induction width generalizing n with
  | zero =>
      rw [pow_zero] at h
      obtain rfl : n = 0 := by omega
      rfl
  | succ width ih =>
      have hdiv : n / 256 < 256 ^ width := by
        rw [pow_succ] at h
        exact Nat.div_lt_of_lt_mul (by rwa [Nat.mul_comm] at h)
      have hfront : decode (encode width (n / 256)) = n / 256 := ih hdiv
      have hbyte : (UInt8.ofNat n).toNat = n % 256 := by simp
      rw [decode] at hfront
      rw [encode, decode, List.foldl_append, hfront, List.foldl_cons, List.foldl_nil, hbyte]
      exact Nat.div_add_mod n 256

/-- The bytes behind others count for less. -/
theorem decode_append (front back : List UInt8) :
    decode (front ++ back) = decode front * 256 ^ back.length + decode back := by
  have hfrom : ∀ n, back.foldl (fun n b => 256 * n + b.toNat) n =
      n * 256 ^ back.length + decode back := by
    induction back with
    | nil => simp [decode]
    | cons b back ih =>
        intro n
        have hhead : decode (b :: back) = b.toNat * 256 ^ back.length + decode back := by
          rw [decode, List.foldl_cons, ih]
          simp
        rw [List.foldl_cons, ih, hhead, List.length_cons, pow_succ, Nat.add_mul]
        ac_rfl
  rw [decode, List.foldl_append, hfrom]
  rfl

/-- The last byte. -/
theorem decode_concat (bs : List UInt8) (b : UInt8) :
    decode (bs ++ [b]) = decode bs * 256 + b.toNat := by
  rw [decode_append]
  simp [decode]

theorem decode_lt (bs : List UInt8) : decode bs < 256 ^ bs.length := by
  induction bs using List.reverseRecOn with
  | nil => decide
  | append_singleton bs b ih =>
      have hb := b.toNat_lt
      rw [decode_concat, List.length_append, List.length_singleton, pow_succ]
      omega

/-- **The bytes of a number are determined by it.** -/
theorem encode_decode (bs : List UInt8) : encode bs.length (decode bs) = bs := by
  induction bs using List.reverseRecOn with
  | nil => rfl
  | append_singleton bs b ih =>
      have hb := b.toNat_lt
      have hlast := decode_concat bs b
      have hdiv : decode (bs ++ [b]) / 256 = decode bs := by omega
      have hbyte : UInt8.ofNat (decode (bs ++ [b])) = b := by
        rw [← UInt8.toNat_inj, UInt8.toNat_ofNat', hlast]
        omega
      rw [List.length_append, List.length_singleton, encode, hdiv, hbyte, ih]

@[simp] theorem decode_replicate_zero (k : ℕ) : decode (List.replicate k 0) = 0 := by
  induction k with
  | zero => rfl
  | succ k ih => rw [List.replicate_succ', decode_concat, ih]; rfl

/-- The bytes in front are zeros exactly when the number fits into the others. -/
theorem take_eq_replicate_iff (front back : List UInt8) :
    front = List.replicate front.length 0 ↔ decode (front ++ back) < 256 ^ back.length := by
  rw [decode_append]
  constructor
  · intro h
    rw [h, decode_replicate_zero, Nat.zero_mul, Nat.zero_add]
    exact decode_lt back
  · intro h
    have hzero : decode front = 0 := by
      rcases Nat.eq_zero_or_pos (decode front) with hzero | hpos
      · exact hzero
      · have hle := Nat.le_mul_of_pos_left (256 ^ back.length) hpos
        omega
    have hsame := encode_decode front
    rw [hzero, ← decode_replicate_zero front.length] at hsame
    have hzeros := encode_decode (List.replicate front.length (0 : UInt8))
    rw [List.length_replicate] at hzeros
    exact hsame.symm.trans hzeros

end BigEndian

/-- A word of a contract's answer. -/
abbrev Word := List.Vector UInt8 32

namespace Word

def ofNat (n : ℕ) : Word := ⟨BigEndian.encode 32 n, BigEndian.length_encode 32 n⟩

/-- The word that ends in these bytes. -/
def ofTail {k : ℕ} (bs : List.Vector UInt8 k) (h : k ≤ 32) : Word :=
  ⟨List.replicate (32 - k) 0 ++ bs.toList, by
    rw [List.length_append, List.length_replicate, List.Vector.toList_length]
    omega⟩

def toNat (w : Word) : ℕ := BigEndian.decode w.toList

theorem toNat_ofNat {n : ℕ} (h : n < 256 ^ 32) : (ofNat n).toNat = n := BigEndian.decode_encode h

/-- The bytes of the words, one after the other. -/
def concat (ws : List Word) : List UInt8 := ws.flatMap (·.toList)

/-- The word at an index, if the bytes reach so far. -/
def at? (data : List UInt8) (index : ℕ) : Option Word :=
  if h : 32 * index + 32 ≤ data.length then
    some ⟨(data.drop (32 * index)).take 32, by
      rw [List.length_take, List.length_drop]
      omega⟩
  else none

@[simp] theorem concat_cons (w : Word) (ws : List Word) :
    concat (w :: ws) = w.toList ++ concat ws := rfl

@[simp] theorem length_concat (ws : List Word) : (concat ws).length = 32 * ws.length := by
  induction ws with
  | nil => rfl
  | cons w ws ih =>
      rw [concat_cons, List.length_append, List.Vector.toList_length, ih, List.length_cons]
      omega

/-- The bytes after the first words. -/
theorem drop_concat (ws : List Word) (tail : List UInt8) :
    (concat ws ++ tail).drop (32 * ws.length) = tail := by
  rw [← length_concat, List.drop_left]

/-- **A word is read back** at its index, whatever follows the words. -/
theorem at?_concat (front : List Word) (w : Word) (back : List Word) (tail : List UInt8) :
    at? (concat (front ++ w :: back) ++ tail) front.length = some w := by
  have hsplit : concat (front ++ w :: back) ++ tail =
      concat front ++ (w.toList ++ (concat back ++ tail)) := by
    simp [concat, List.flatMap_append]
  have hlen : 32 * front.length + 32 ≤ (concat (front ++ w :: back) ++ tail).length := by
    rw [hsplit]
    simp only [List.length_append, length_concat, List.Vector.toList_length]
    omega
  rw [at?, dif_pos hlen]
  refine congrArg some (List.Vector.toList_injective ?_)
  change ((concat (front ++ w :: back) ++ tail).drop (32 * front.length)).take 32 = w.toList
  rw [hsplit, drop_concat, List.take_left' w.toList_length]

/-- The word at an index. -/
theorem at?_concat_of_lt (ws : List Word) (tail : List UInt8) {i : ℕ} (h : i < ws.length) :
    at? (concat ws ++ tail) i = some ws[i] := by
  have hsplit : ws.take i ++ ws[i] :: ws.drop (i + 1) = ws := by
    rw [List.getElem_cons_drop, List.take_append_drop]
  have hfront : (ws.take i).length = i := by
    rw [List.length_take]
    omega
  have hword := at?_concat (ws.take i) ws[i] (ws.drop (i + 1)) tail
  rwa [hsplit, hfront] at hword

/-- The bytes at the end of a word. -/
theorem drop_ofTail (bs : List.Vector UInt8 20) :
    List.Vector.drop 12 (ofTail bs (by decide)) = bs := by
  refine List.Vector.toList_injective ?_
  change (List.replicate 12 0 ++ bs.toList).drop 12 = bs.toList
  exact List.drop_left' List.length_replicate

/-- The last bytes of a number that fits into them. -/
theorem decode_drop_ofNat {n : ℕ} (h : n < 2 ^ 64) :
    BigEndian.decode (List.Vector.drop 24 (ofNat n)).toList = n := by
  have hbytes : (ofNat n).toList = BigEndian.encode (24 + 8) n := rfl
  rw [List.Vector.toList_drop, hbytes, BigEndian.drop_encode]
  exact BigEndian.decode_encode (by simpa using h)

/-- The last byte of a word. -/
theorem getElem?_toList_last (w : Word) : w.toList[31]? = some (w.get 31) := by
  have hlen : 31 < w.toList.length := by rw [List.Vector.toList_length]; omega
  rw [List.getElem?_eq_getElem hlen, List.Vector.get_eq_get_toList]
  rfl

theorem getElem?_encode_last (n : ℕ) : (BigEndian.encode 32 n)[31]? = some (UInt8.ofNat n) := by
  have hlen : (BigEndian.encode 31 (n / 256)).length ≤ 31 := by simp
  rw [BigEndian.encode, List.getElem?_append_right hlen, BigEndian.length_encode]
  rfl

/-- The last byte of a number. -/
theorem get_ofNat (n : ℕ) : (ofNat n).get 31 = UInt8.ofNat n := by
  have hlast : (ofNat n).toList[31]? = some (UInt8.ofNat n) := getElem?_encode_last n
  exact Option.some.inj ((getElem?_toList_last (ofNat n)).symm.trans hlast)

end Word
