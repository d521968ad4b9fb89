/-
**Texts as bytes, and bytes as texts.**

The bytes of a text are those of its characters in UTF-8.  `String::from_utf8_lossy` reads them, and
any other bytes, as a text.  It takes the bytes apart into the characters they encode and, wherever
no character begins or one breaks off, the longest start of a character that is there (one byte at
least), and puts the replacement character in the place of each such part.  The replacement
character is three bytes long, and the parts are one to three.  So the text is never shorter than
the bytes, and as long only if each of the parts has three bytes.

Main definitions:

* `Utf8.encode` — the bytes of a text;
* `Utf8.continuation`, `Utf8.follow` — the bytes that may follow the first one of a character;
* `Utf8.pieces`, `Utf8.illFormed` — the characters and the ill-formed parts;
* `Utf8.fromUtf8Lossy` — the text.

Main results:

* `Utf8.encode_injective` — a text can be read off its bytes;
* `Utf8.flatMap_pieces` — the pieces are the bytes;
* `Utf8.utf8Size_char` — a character takes the bytes it was read from;
* `Utf8.utf8Len_fromUtf8Lossy_eq_iff` — **the text is as long as the bytes exactly when every
  ill-formed part has three bytes**.
-/

import Mathlib.Algebra.BigOperators.Group.List.Basic
import Mathlib.Algebra.Order.Group.Nat
import SparklRouter.Text.Hex

set_option relaxedAutoImplicit false
set_option autoImplicit false

namespace Utf8

/-- `str::as_bytes`. -/
def encode (t : Text) : List UInt8 := t.flatMap String.utf8EncodeChar

/-- **A text can be read off its bytes.** -/
theorem encode_injective {s t : Text} (h : encode s = encode t) : s = t := by
  have hbytes : s.utf8Encode = t.utf8Encode := congrArg List.toByteArray h
  have hstring : String.ofList s = String.ofList t := by
    rw [← String.toByteArray_inj, String.toByteArray_ofList, String.toByteArray_ofList, hbytes]
  have hlist := congrArg String.toList hstring
  rwa [String.toList_ofList, String.toList_ofList] at hlist

/-! ### Decoding -/

/-- An interval of bytes. -/
abbrev ByteRange := ℕ × ℕ

def ByteRange.Has (r : ByteRange) (b : UInt8) : Prop := r.1 ≤ b.toNat ∧ b.toNat ≤ r.2

instance (r : ByteRange) (b : UInt8) : Decidable (r.Has b) :=
  inferInstanceAs (Decidable (_ ∧ _))

/-- Most bytes of a character but the first. -/
def tail : ByteRange := (0x80, 0xBF)

/-- The bytes that have to follow the first byte of a character; none if no character begins with
it.  The narrower ranges leave out what has a shorter form, the surrogates, and what is above the
largest character. -/
def continuation (b : UInt8) : Option (List ByteRange) :=
  if b.toNat < 0x80 then some []
  else if b.toNat < 0xC2 then none
  else if b.toNat < 0xE0 then some [tail]
  else if b.toNat = 0xE0 then some [(0xA0, 0xBF), tail]
  else if b.toNat = 0xED then some [(0x80, 0x9F), tail]
  else if b.toNat < 0xF0 then some [tail, tail]
  else if b.toNat = 0xF0 then some [(0x90, 0xBF), tail, tail]
  else if b.toNat < 0xF4 then some [tail, tail, tail]
  else if b.toNat = 0xF4 then some [(0x80, 0x8F), tail, tail]
  else none

/-- Bytes taken from the front, and whether they are all that were to follow. -/
structure Taken where
  bytes : List UInt8
  rest : List UInt8
  complete : Bool

/-- The bytes that follow as they should. -/
def follow : List ByteRange → List UInt8 → Taken
  | [], bs => ⟨[], bs, true⟩
  | _ :: _, [] => ⟨[], [], false⟩
  | r :: ranges, b :: bs =>
      if r.Has b then
        let more := follow ranges bs
        ⟨b :: more.bytes, more.rest, more.complete⟩
      else ⟨[], b :: bs, false⟩

/-- A part of the bytes: a character, or what is left of one. -/
structure Piece where
  bytes : List UInt8
  wellFormed : Bool

/-- The piece that begins with the byte, and what comes after it. -/
def firstPiece (b : UInt8) (bs : List UInt8) : Piece × List UInt8 :=
  match continuation b with
  | none => (⟨[b], false⟩, bs)
  | some ranges =>
      let taken := follow ranges bs
      (⟨b :: taken.bytes, taken.complete⟩, taken.rest)

/-- At most `n` pieces. -/
def piecesUpTo : ℕ → List UInt8 → List Piece
  | 0, _ => []
  | _ + 1, [] => []
  | n + 1, b :: bs => (firstPiece b bs).1 :: piecesUpTo n (firstPiece b bs).2

/-- A piece has at least one byte. -/
def pieces (bs : List UInt8) : List Piece := piecesUpTo bs.length bs

/-- The number of a character. -/
def codePoint : List UInt8 → ℕ
  | [a] => a.toNat
  | [a, b] => (a.toNat - 0xC0) * 0x40 + (b.toNat - 0x80)
  | [a, b, c] => (a.toNat - 0xE0) * 0x1000 + (b.toNat - 0x80) * 0x40 + (c.toNat - 0x80)
  | [a, b, c, d] =>
      (a.toNat - 0xF0) * 0x40000 + (b.toNat - 0x80) * 0x1000 + (c.toNat - 0x80) * 0x40 +
        (d.toNat - 0x80)
  | _ => 0

/-- The replacement character. -/
def replacement : Char := Char.ofNat 0xFFFD

def Piece.char (p : Piece) : Char :=
  if p.wellFormed then Char.ofNat (codePoint p.bytes) else replacement

def fromUtf8Lossy (bs : List UInt8) : Text := (pieces bs).map Piece.char

/-- The parts that are no characters. -/
def illFormed (bs : List UInt8) : List (List UInt8) :=
  ((pieces bs).filter fun p => !p.wellFormed).map Piece.bytes

/-! ### What a piece is -/

theorem follow_append (ranges : List ByteRange) (bs : List UInt8) :
    (follow ranges bs).bytes ++ (follow ranges bs).rest = bs := by
  induction ranges generalizing bs with
  | nil => rfl
  | cons r ranges ih =>
      cases bs with
      | nil => rfl
      | cons b bs =>
          rw [follow]
          split
          · exact congrArg (b :: ·) (ih bs)
          · rfl

/-- What has been taken fits the ranges. -/
theorem follow_complete {ranges : List ByteRange} {bs : List UInt8}
    (h : (follow ranges bs).complete = true) :
    List.Forall₂ ByteRange.Has ranges (follow ranges bs).bytes := by
  induction ranges generalizing bs with
  | nil => exact List.Forall₂.nil
  | cons r ranges ih =>
      cases bs with
      | nil => cases h
      | cons b bs =>
          rw [follow] at h ⊢
          split at h
          · rename_i hb
            rw [if_pos hb]
            exact List.Forall₂.cons hb (ih h)
          · cases h

/-- What breaks off is shorter than what was to follow. -/
theorem follow_incomplete {ranges : List ByteRange} {bs : List UInt8}
    (h : (follow ranges bs).complete = false) :
    (follow ranges bs).bytes.length < ranges.length := by
  induction ranges generalizing bs with
  | nil => cases h
  | cons r ranges ih =>
      cases bs with
      | nil => exact Nat.succ_pos _
      | cons b bs =>
          rw [follow] at h ⊢
          split at h
          · rename_i hb
            rw [if_pos hb]
            exact Nat.succ_lt_succ (ih h)
          · rename_i hb
            rw [if_neg hb]
            exact Nat.succ_pos _

theorem firstPiece_append (b : UInt8) (bs : List UInt8) :
    (firstPiece b bs).1.bytes ++ (firstPiece b bs).2 = b :: bs := by
  unfold firstPiece
  cases continuation b with
  | none => rfl
  | some ranges => exact congrArg (b :: ·) (follow_append ranges bs)

theorem length_continuation {b : UInt8} {ranges : List ByteRange}
    (h : continuation b = some ranges) : ranges.length ≤ 3 := by
  unfold continuation at h
  split_ifs at h
  all_goals
    obtain rfl := Option.some.inj h
    decide

theorem utf8Size_ofNat {n : ℕ} (h : n.isValidChar) :
    (Char.ofNat n).utf8Size =
      if n ≤ 0x7F then 1 else if n ≤ 0x7FF then 2 else if n ≤ 0xFFFF then 3 else 4 := by
  have hval : (Char.ofNat n).val.toNat = n := by
    rw [Char.ofNat, dif_pos h]
    rfl
  simp only [Char.utf8Size, UInt32.le_iff_toNat_le, hval]
  rfl

/-- The sizes of characters with the given numbers. -/
theorem utf8Size_one {n : ℕ} (h : n ≤ 0x7F) : (Char.ofNat n).utf8Size = 1 := by
  rw [utf8Size_ofNat (Or.inl (by omega)), if_pos h]

theorem utf8Size_two {n : ℕ} (hlow : 0x80 ≤ n) (hhigh : n ≤ 0x7FF) :
    (Char.ofNat n).utf8Size = 2 := by
  rw [utf8Size_ofNat (Or.inl (by omega)), if_neg (by omega), if_pos hhigh]

theorem utf8Size_three {n : ℕ} (hlow : 0x800 ≤ n) (hhigh : n ≤ 0xFFFF)
    (hsurrogate : n < 0xD800 ∨ 0xDFFF < n) : (Char.ofNat n).utf8Size = 3 := by
  have hvalid : n.isValidChar := hsurrogate.imp id fun h => ⟨h, by omega⟩
  rw [utf8Size_ofNat hvalid, if_neg (by omega), if_neg (by omega), if_pos hhigh]

theorem utf8Size_four {n : ℕ} (hlow : 0x10000 ≤ n) (hhigh : n ≤ 0x10FFFF) :
    (Char.ofNat n).utf8Size = 4 := by
  have hvalid : n.isValidChar := Or.inr ⟨by omega, by omega⟩
  rw [utf8Size_ofNat hvalid, if_neg (by omega), if_neg (by omega), if_neg (by omega)]

section

variable {a b c d : UInt8}

theorem codePoint_two : codePoint [a, b] = (a.toNat - 0xC0) * 0x40 + (b.toNat - 0x80) := rfl

theorem codePoint_three : codePoint [a, b, c] =
    (a.toNat - 0xE0) * 0x1000 + (b.toNat - 0x80) * 0x40 + (c.toNat - 0x80) := rfl

theorem codePoint_four : codePoint [a, b, c, d] =
    (a.toNat - 0xF0) * 0x40000 + (b.toNat - 0x80) * 0x1000 + (c.toNat - 0x80) * 0x40 +
      (d.toNat - 0x80) := rfl

end

/-- **A character takes the bytes it was read from.** -/
theorem utf8Size_char {b : UInt8} {ranges : List ByteRange} {bytes : List UInt8}
    (h : continuation b = some ranges) (hbytes : List.Forall₂ ByteRange.Has ranges bytes) :
    (Char.ofNat (codePoint (b :: bytes))).utf8Size = bytes.length + 1 := by
  unfold continuation at h
  split_ifs at h with hascii hlow htwo he0 hed hthree hf0 hfour hf4
  all_goals obtain rfl := Option.some.inj h
  · obtain _ | _ := hbytes
    have hcode : codePoint [b] = b.toNat := rfl
    exact utf8Size_one (by omega)
  · obtain _ | ⟨⟨hc, hc'⟩, _ | _⟩ := hbytes
    dsimp only [tail] at hc hc'
    rw [codePoint_two]
    exact utf8Size_two (by omega) (by omega)
  · obtain _ | ⟨⟨hc, hc'⟩, _ | ⟨⟨hd, hd'⟩, _ | _⟩⟩ := hbytes
    dsimp only [tail] at hc hc' hd hd'
    rw [codePoint_three]
    exact utf8Size_three (by omega) (by omega) (by omega)
  · obtain _ | ⟨⟨hc, hc'⟩, _ | ⟨⟨hd, hd'⟩, _ | _⟩⟩ := hbytes
    dsimp only [tail] at hc hc' hd hd'
    rw [codePoint_three]
    exact utf8Size_three (by omega) (by omega) (by omega)
  · obtain _ | ⟨⟨hc, hc'⟩, _ | ⟨⟨hd, hd'⟩, _ | _⟩⟩ := hbytes
    dsimp only [tail] at hc hc' hd hd'
    rw [codePoint_three]
    exact utf8Size_three (by omega) (by omega) (by omega)
  · obtain _ | ⟨⟨hc, hc'⟩, _ | ⟨⟨hd, hd'⟩, _ | ⟨⟨he, he'⟩, _ | _⟩⟩⟩ := hbytes
    dsimp only [tail] at hc hc' hd hd' he he'
    rw [codePoint_four]
    exact utf8Size_four (by omega) (by omega)
  · obtain _ | ⟨⟨hc, hc'⟩, _ | ⟨⟨hd, hd'⟩, _ | ⟨⟨he, he'⟩, _ | _⟩⟩⟩ := hbytes
    dsimp only [tail] at hc hc' hd hd' he he'
    rw [codePoint_four]
    exact utf8Size_four (by omega) (by omega)
  · obtain _ | ⟨⟨hc, hc'⟩, _ | ⟨⟨hd, hd'⟩, _ | ⟨⟨he, he'⟩, _ | _⟩⟩⟩ := hbytes
    dsimp only [tail] at hc hc' hd hd' he he'
    rw [codePoint_four]
    exact utf8Size_four (by omega) (by omega)

/-! ### How long the text is -/

/-- A character is as long as the piece it was read from; an ill-formed piece is not longer than
what stands for it. -/
structure Piece.Sound (p : Piece) : Prop where
  char : p.wellFormed = true → p.char.utf8Size = p.bytes.length
  ill : p.wellFormed = false → p.bytes.length ≤ 3

theorem sound_firstPiece (b : UInt8) (bs : List UInt8) : (firstPiece b bs).1.Sound := by
  unfold firstPiece
  cases h : continuation b with
  | none => exact ⟨fun hwell => (by cases hwell), fun _ => Nat.le_succ_of_le (Nat.le_succ 1)⟩
  | some ranges =>
      refine ⟨fun hwell => ?_, fun hill => ?_⟩
      · rw [Piece.char, if_pos hwell]
        exact utf8Size_char h (follow_complete hwell)
      · exact (Nat.succ_le_of_lt (follow_incomplete hill)).trans (length_continuation h)

theorem sound_piecesUpTo {n : ℕ} {bs : List UInt8} : ∀ p ∈ piecesUpTo n bs, p.Sound := by
  induction n generalizing bs with
  | zero => exact fun p hp => by cases hp
  | succ n ih =>
      cases bs with
      | nil => exact fun p hp => by cases hp
      | cons b bs =>
          intro p hp
          rcases List.mem_cons.1 hp with rfl | hp
          · exact sound_firstPiece b bs
          · exact ih p hp

theorem flatMap_piecesUpTo {n : ℕ} {bs : List UInt8} (h : bs.length ≤ n) :
    (piecesUpTo n bs).flatMap Piece.bytes = bs := by
  induction n generalizing bs with
  | zero =>
      rw [List.length_eq_zero_iff.1 (Nat.le_zero.1 h)]
      rfl
  | succ n ih =>
      cases bs with
      | nil => rfl
      | cons b bs =>
          have happend := firstPiece_append b bs
          -- the first piece has a byte, so less than all is left
          have hfirst : 0 < (firstPiece b bs).1.bytes.length := by
            unfold firstPiece
            cases continuation b with
            | none => exact Nat.succ_pos _
            | some ranges => exact Nat.succ_pos _
          have hrest : (firstPiece b bs).2.length ≤ n := by
            have hlength := congrArg List.length happend
            rw [List.length_append] at hlength
            omega
          rw [piecesUpTo, List.flatMap_cons, ih hrest, happend]

/-- **The pieces are the bytes.** -/
theorem flatMap_pieces (bs : List UInt8) : (pieces bs).flatMap Piece.bytes = bs :=
  flatMap_piecesUpTo (Nat.le_refl _)

/-- The text of sound pieces is not shorter than they are, and as long only if no ill-formed piece
is shorter than what stands for it. -/
theorem utf8Len_map_char {ps : List Piece} (h : ∀ p ∈ ps, p.Sound) :
    (ps.flatMap Piece.bytes).length ≤ Text.utf8Len (ps.map Piece.char) ∧
      (Text.utf8Len (ps.map Piece.char) = (ps.flatMap Piece.bytes).length ↔
        ∀ p ∈ ps, p.wellFormed = false → p.bytes.length = 3) := by
  induction ps with
  | nil => exact ⟨Nat.le_refl _, fun _ p hp => (by cases hp), fun _ => rfl⟩
  | cons p ps ih =>
      obtain ⟨hle, heq⟩ := ih fun q hq => h q (List.mem_cons_of_mem p hq)
      have hp := h p List.mem_cons_self
      have hlen : Text.utf8Len ((p :: ps).map Piece.char) =
          p.char.utf8Size + Text.utf8Len (ps.map Piece.char) := rfl
      rw [hlen, List.flatMap_cons, List.length_append, List.forall_mem_cons]
      cases hwell : p.wellFormed with
      | true =>
          have hsize := hp.char hwell
          refine ⟨by omega, fun hsum => ⟨fun hill => ?_, heq.1 (by omega)⟩, fun hall => ?_⟩
          · cases hill
          · have hrest := heq.2 hall.2
            omega
      | false =>
          have hill := hp.ill hwell
          have hsize : p.char.utf8Size = 3 := by
            rw [Piece.char, hwell]
            rfl
          refine ⟨by omega, fun hsum => ⟨fun _ => by omega, heq.1 (by omega)⟩, fun hall => ?_⟩
          have hrest := heq.2 hall.2
          have hthree := hall.1 rfl
          omega

theorem sound_pieces (bs : List UInt8) : ∀ p ∈ pieces bs, p.Sound := sound_piecesUpTo

/-- The text is never shorter than the bytes. -/
theorem length_le_utf8Len (bs : List UInt8) : bs.length ≤ Text.utf8Len (fromUtf8Lossy bs) := by
  have hle := (utf8Len_map_char (sound_pieces bs)).1
  rwa [flatMap_pieces] at hle

/-- **The text is as long as the bytes exactly when every ill-formed part has three bytes.** -/
theorem utf8Len_fromUtf8Lossy_eq_iff {bs : List UInt8} :
    Text.utf8Len (fromUtf8Lossy bs) = bs.length ↔ ∀ part ∈ illFormed bs, part.length = 3 := by
  have heq := (utf8Len_map_char (sound_pieces bs)).2
  rw [flatMap_pieces] at heq
  refine heq.trans ⟨fun h part hpart => ?_, fun h p hp hill => ?_⟩
  · obtain ⟨p, hp, rfl⟩ := List.mem_map.1 hpart
    obtain ⟨hp, hill⟩ := List.mem_filter.1 hp
    exact h p hp (by simpa using hill)
  · exact h p.bytes (List.mem_map.2 ⟨p, List.mem_filter.2 ⟨hp, by simp [hill]⟩, rfl⟩)

/-- A character, a byte that begins none, the start of a character of four bytes, and one of
three. -/
example : illFormed [0xC3, 0xA9, 0xFF, 0xF0, 0x9F, 0x98, 0x41, 0xE2, 0x82, 0xAC] =
    [[0xFF], [0xF0, 0x9F, 0x98]] := by decide

end Utf8
