/-
**Texts and hexadecimal.**

A text is a list of characters.  This module gives the functions on texts that a handshake or a
request parser uses — trimming white space, removing a prefix, decoding and encoding hexadecimal —
and the facts by which a text that was produced by the encoder is read back.

Main definitions:

* `Text.trim`, `Text.stripPrefix`, `Text.trimStartMatches`, `Text.utf8Len`;
* `Hex.decode`, `Hex.encode` — both cases of letters are read, lower case is written.

Main results:

* `Hex.decode_encode` — **reading back what was written**;
* `Text.trim_eq_self` — a text without white space is its own trim.
-/

import Mathlib.Algebra.GroupWithZero.Nat
import Mathlib.Data.List.Basic

set_option relaxedAutoImplicit false
set_option autoImplicit false

abbrev Text := List Char

namespace Text

/-- The characters with the Unicode property `White_Space`. -/
def isWhitespace (c : Char) : Bool :=
  (9 ≤ c.toNat && c.toNat ≤ 13) || c.toNat == 0x20 || c.toNat == 0x85 || c.toNat == 0xA0 ||
    c.toNat == 0x1680 || (0x2000 ≤ c.toNat && c.toNat ≤ 0x200A) || c.toNat == 0x2028 ||
    c.toNat == 0x2029 || c.toNat == 0x202F || c.toNat == 0x205F || c.toNat == 0x3000

def trimStart (t : Text) : Text := t.dropWhile isWhitespace

def trim (t : Text) : Text := (trimStart (trimStart t).reverse).reverse

/-- The rest of the text after `p`, if it starts with `p`. -/
def stripPrefix (p : Text) (t : Text) : Option Text :=
  if p.isPrefixOf t then some (t.drop p.length) else none

/-- The text without the repetitions of `p` at its start.  The length bounds the repetitions. -/
def trimStartMatches (p : Text) (t : Text) : Text := go t.length t
where
  go : ℕ → Text → Text
    | 0, t => t
    | n + 1, t =>
        match stripPrefix p t with
        | some rest => go n rest
        | none => t

/-- The length of the UTF-8 encoding. -/
def utf8Len (t : Text) : ℕ := (t.map Char.utf8Size).sum

theorem trimStart_eq_self {t : Text} (h : ∀ c ∈ t, isWhitespace c = false) : trimStart t = t := by
  cases t with
  | nil => rfl
  | cons c t => simp [trimStart, h c List.mem_cons_self]

/-- A text without white space is its own trim. -/
theorem trim_eq_self {t : Text} (h : ∀ c ∈ t, isWhitespace c = false) : trim t = t := by
  have hrev : ∀ c ∈ t.reverse, isWhitespace c = false := fun c hc => h c (List.mem_reverse.1 hc)
  rw [trim, trimStart_eq_self h, trimStart_eq_self hrev, List.reverse_reverse]

theorem stripPrefix_append (p t : Text) : stripPrefix p (p ++ t) = some t := by
  have hp : p.isPrefixOf (p ++ t) = true := by
    rw [List.isPrefixOf_iff_prefix]
    exact List.prefix_append p t
  simp [stripPrefix, hp]

end Text

namespace Hex

def digitVal (c : Char) : Option ℕ :=
  if 48 ≤ c.toNat ∧ c.toNat ≤ 57 then some (c.toNat - 48)
  else if 97 ≤ c.toNat ∧ c.toNat ≤ 102 then some (c.toNat - 87)
  else if 65 ≤ c.toNat ∧ c.toNat ≤ 70 then some (c.toNat - 55)
  else none

/-- The bytes of a text of hexadecimal digits; `none` for a character that is no digit and for an
odd number of them. -/
def decode : Text → Option (List UInt8)
  | [] => some []
  | [_] => none
  | c :: d :: rest =>
      match digitVal c, digitVal d, decode rest with
      | some x, some y, some bs => some (UInt8.ofNat (16 * x + y) :: bs)
      | _, _, _ => none

def digits : Text := "0123456789abcdef".toList

def digit (n : ℕ) : Char := digits.getD n '0'

def encode : List UInt8 → Text
  | [] => []
  | b :: bs => digit (b.toNat / 16) :: digit (b.toNat % 16) :: encode bs

theorem digitVal_digit {n : ℕ} (h : n < 16) : digitVal (digit n) = some n := by
  have hall : ∀ m : Fin 16, digitVal (digit m.val) = some m.val := by decide
  exact hall ⟨n, h⟩

theorem isWhitespace_digit {n : ℕ} (h : n < 16) : Text.isWhitespace (digit n) = false := by
  have hall : ∀ m : Fin 16, Text.isWhitespace (digit m.val) = false := by decide
  exact hall ⟨n, h⟩

/-- **Reading back what was written.** -/
theorem decode_encode (bs : List UInt8) : decode (encode bs) = some bs := by
  induction bs with
  | nil => rfl
  | cons b bs ih =>
      have hb := b.toNat_lt
      have hhigh : b.toNat / 16 < 16 := by omega
      have hlow : b.toNat % 16 < 16 := Nat.mod_lt _ (by omega)
      have hsplit : 16 * (b.toNat / 16) + b.toNat % 16 = b.toNat := Nat.div_add_mod b.toNat 16
      rw [encode, decode, digitVal_digit hhigh, digitVal_digit hlow, ih]
      simp only [hsplit, UInt8.ofNat_toNat]

/-- The encoder writes no white space. -/
theorem isWhitespace_encode {bs : List UInt8} : ∀ c ∈ encode bs, Text.isWhitespace c = false := by
  induction bs with
  | nil =>
      intro c hc
      cases hc
  | cons b bs ih =>
      have hb := b.toNat_lt
      intro c hc
      rw [encode] at hc
      rcases List.mem_cons.1 hc with rfl | hc
      · exact isWhitespace_digit (by omega)
      · rcases List.mem_cons.1 hc with rfl | hc
        · exact isWhitespace_digit (Nat.mod_lt _ (by omega))
        · exact ih c hc

end Hex
