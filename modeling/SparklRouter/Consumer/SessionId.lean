/-
**The spellings of a session id.**

The user gives the id of a session as a number, in hexadecimal (`src/consumer/activate.rs`), or inside
the bearer token (`src/consumer/bearer.rs`); the router writes it with 64 hexadecimal digits.  All of
them stand for one number of 64 bits.

Hexadecimal digits that are too many for the number are cut at 64 bytes before anything has looked at
them.  The text is filled up by characters and cut by bytes, so the cut may fall within a character.

Main definitions:

* `Activate.CutHolds` — the condition on a path;
* `Activate.Agree` — the spellings of an id agree.

Main results:

* `Activate.parseSessionId_returns_iff` — **a path is parsed exactly when its cut falls between two
  characters**;
* `Activate.parseSessionId_hexadecimal` — hexadecimal digits are read exactly when their number fits;
* `Activate.spellings_agree` — **all spellings of an id agree**.
-/

import SparklRouter.Consumer.Activate
import SparklRouter.Consumer.Middleware
import SparklRouter.Text.Base58

set_option relaxedAutoImplicit false
set_option autoImplicit false

namespace Activate

open Digits Radix

/-! ### The cut -/

theorem utf8Len_cons (c : Char) (t : Text) :
    Text.utf8Len (c :: t) = c.utf8Size + Text.utf8Len t := by
  rw [Text.utf8Len, Text.utf8Len, List.map_cons, List.sum_cons]

/-- A character takes a byte at least. -/
theorem length_le_utf8Len (t : Text) : t.length ≤ Text.utf8Len t := by
  induction t with
  | nil => exact Nat.le_refl 0
  | cons c t ih =>
      have hc := c.utf8Size_pos
      rw [utf8Len_cons, List.length_cons]
      omega

/-- **A text is cut where a character ends.** -/
theorem bytePrefix_eq_some_iff {n : ℕ} {t front : Text} :
    bytePrefix n t = some front ↔ front <+: t ∧ Text.utf8Len front = n := by
  induction t generalizing n front with
  | nil =>
      cases n with
      | zero =>
          rw [bytePrefix, List.prefix_nil]
          constructor
          · rintro ⟨⟩
            exact ⟨rfl, rfl⟩
          · rintro ⟨rfl, -⟩
            rfl
      | succ n =>
          rw [bytePrefix, List.prefix_nil]
          constructor
          · intro h
            cases h
          · rintro ⟨rfl, h⟩
            cases h
  | cons c t ih =>
      have hc := c.utf8Size_pos
      cases n with
      | zero =>
          rw [bytePrefix]
          constructor
          · rintro ⟨⟩
            exact ⟨List.nil_prefix, rfl⟩
          · rintro ⟨-, h⟩
            have hlen := length_le_utf8Len front
            rw [h] at hlen
            rw [List.eq_nil_of_length_eq_zero (Nat.le_zero.1 hlen)]
      | succ n =>
          rw [bytePrefix]
          constructor
          · intro h
            split_ifs at h with hfits
            obtain ⟨rest, hrest, rfl⟩ := Option.map_eq_some_iff.1 h
            obtain ⟨hbegins, hbytes⟩ := ih.1 hrest
            refine ⟨List.cons_prefix_cons.2 ⟨rfl, hbegins⟩, ?_⟩
            rw [utf8Len_cons, hbytes]
            omega
          · rintro ⟨hbegins, hbytes⟩
            cases front with
            | nil => cases hbytes
            | cons d front =>
                obtain ⟨rfl, hfront⟩ := List.cons_prefix_cons.1 hbegins
                rw [utf8Len_cons] at hbytes
                have hrest := ih.2 ⟨hfront, show Text.utf8Len front = n + 1 - d.utf8Size by omega⟩
                rw [if_pos (by omega), hrest]
                rfl

/-- The zeros in front are cut off whole. -/
theorem bytePrefix_replicate (k n : ℕ) (t : Text) :
    bytePrefix (k + n) (List.replicate k '0' ++ t) =
      (bytePrefix n t).map fun front => List.replicate k '0' ++ front := by
  induction k with
  | zero => simp
  | succ k ih =>
      have hone : '0'.utf8Size = 1 := rfl
      rw [Nat.add_right_comm, List.replicate_succ, List.cons_append, bytePrefix, hone,
        if_pos (by omega), Nat.add_sub_cancel, ih, Option.map_map]
      rfl

/-- The cut of the padded text is a cut of the text. -/
theorem bytePrefix_zeroPadded (t : Text) :
    bytePrefix (min 64 (Text.utf8Len (zeroPadded t))) (zeroPadded t) =
      (bytePrefix (min 64 t.length) t).map fun front =>
        List.replicate (64 - t.length) '0' ++ front := by
  have hlen := length_le_utf8Len (zeroPadded t)
  have hcount : min 64 (Text.utf8Len (zeroPadded t)) = (64 - t.length) + min 64 t.length := by
    rw [zeroPadded, List.length_append, List.length_replicate, ← zeroPadded] at hlen
    omega
  rw [hcount, zeroPadded, bytePrefix_replicate]

/-- What follows the zeros in front is short, or a character ends in it where the cut falls: behind as
many bytes as it has characters, and 64 at most. -/
def CutHolds (s : Text) : Prop :=
  ∀ hex, Text.stripPrefix "0x".toList (Text.trim s) = some hex →
    Text.utf8Len (Text.trimStartMatches ['0'] hex) ≤ 16 ∨
      ∃ front, front <+: Text.trimStartMatches ['0'] hex ∧
        Text.utf8Len front = min 64 (Text.trimStartMatches ['0'] hex).length

theorem idOfBytes_ne_panicked (bytes : List UInt8) : idOfBytes bytes ≠ .error .panicked := by
  unfold idOfBytes
  split_ifs <;> exact fun h => by cases h

/-- **A path is parsed exactly when its cut falls between two characters.** -/
theorem parseSessionId_returns_iff (s : Text) :
    parseSessionId s ≠ .error .panicked ↔ CutHolds s := by
  cases hstrip : Text.stripPrefix "0x".toList (Text.trim s) with
  | none =>
      simp only [parseSessionId, CutHolds, hstrip]
      constructor
      · intro _ hex h
        cases h
      · intro _
        cases parseU64 (Text.trim s) with
        | error e => exact fun h => by cases h
        | ok id => exact fun h => by cases h
  | some hex =>
      simp only [parseSessionId, CutHolds, hstrip, Option.some.injEq, forall_eq']
      generalize Text.trimStartMatches ['0'] hex = digits
      by_cases hnil : digits = []
      · subst hnil
        exact ⟨fun _ => Or.inl (Nat.zero_le _), fun _ h => by cases h⟩
      rw [if_neg hnil]
      by_cases hfew : Text.utf8Len digits ≤ 16
      · rw [if_pos hfew]
        refine ⟨fun _ => Or.inl hfew, fun _ => ?_⟩
        cases fromHexadecimal digits with
        | error e => exact fun h => by cases h
        | ok id => exact fun h => by cases h
      · rw [if_neg hfew, or_iff_right hfew, bytePrefix_zeroPadded]
        cases hcut : bytePrefix (min 64 digits.length) digits with
        | none =>
            refine ⟨fun h => absurd rfl h, fun ⟨front, hfront⟩ => ?_⟩
            rw [bytePrefix_eq_some_iff.2 hfront] at hcut
            cases hcut
        | some front =>
            refine ⟨fun _ => ⟨front, bytePrefix_eq_some_iff.1 hcut⟩, fun _ => ?_⟩
            simp only [Option.map_some]
            cases Hex.decode (List.replicate (64 - digits.length) '0' ++ front) with
            | none => exact fun h => by cases h
            | some bytes => exact idOfBytes_ne_panicked bytes

/-- **A path whose 64th byte lies within a character makes the parser panic.** -/
theorem parseSessionId_breaks : ¬ ∀ s, parseSessionId s ≠ .error .panicked := by
  intro hall
  exact hall ("0x".toList ++ List.replicate 63 'a' ++ ['é']) (by decide +kernel)

/-! ### Hexadecimal digits -/

theorem ascii_of_digitVal {c : Char} {d : ℕ} (h : Hex.digitVal c = some d) :
    48 ≤ c.toNat ∧ c.toNat ≤ 102 := by
  unfold Hex.digitVal at h
  split_ifs at h <;> omega

theorem eq_zero_of_digitVal {c : Char} (h : Hex.digitVal c = some 0) : c = '0' := by
  have hc : c.toNat = '0'.toNat := by
    change c.toNat = 48
    unfold Hex.digitVal at h
    split_ifs at h <;> simp only [Option.some.injEq] at h <;> omega
  exact Char.toNat_inj.1 hc

theorem isWhitespace_eq_false {c : Char} (hlow : 48 ≤ c.toNat) (hhigh : c.toNat ≤ 122) :
    Text.isWhitespace c = false := by
  simp only [Text.isWhitespace, Bool.or_eq_false_iff, Bool.and_eq_false_iff, decide_eq_false_iff_not,
    beq_eq_false_iff_ne]
  omega

theorem utf8Len_digits {t : Text} (h : All Hex.digitVal t) : Text.utf8Len t = t.length := by
  induction t with
  | nil => rfl
  | cons c t ih =>
      obtain ⟨d, hd⟩ := h.head
      have hc : c.utf8Size = 1 := by
        have hascii := (ascii_of_digitVal hd).2
        exact Char.utf8Size_eq_one_iff.2 (UInt32.le_iff_toNat_le.2 (hascii.trans (by decide)))
      rw [utf8Len_cons, hc, ih h.of_cons, List.length_cons]
      omega

theorem trimStartMatches_zero (t : Text) :
    Text.trimStartMatches ['0'] t = t.dropWhile (· = '0') := by
  have hgo : ∀ n (t : Text), t.length ≤ n →
      Text.trimStartMatches.go ['0'] n t = t.dropWhile (· = '0') := by
    intro n
    induction n with
    | zero =>
        intro t hlen
        rw [List.eq_nil_of_length_eq_zero (Nat.le_zero.1 hlen)]
        rfl
    | succ n ih =>
        intro t hlen
        cases t with
        | nil => rfl
        | cons c t =>
            by_cases hc : c = '0'
            · subst hc
              have hstrip : Text.stripPrefix ['0'] ('0' :: t) = some t :=
                Text.stripPrefix_append ['0'] t
              simp only [Text.trimStartMatches.go, hstrip]
              rw [ih t (Nat.le_of_succ_le_succ hlen)]
              rfl
            · have hstrip : Text.stripPrefix ['0'] (c :: t) = none := by
                simp [Text.stripPrefix, Ne.symm hc]
              simp only [Text.trimStartMatches.go, hstrip]
              rw [List.dropWhile_cons_of_neg (by simpa using hc)]
  exact hgo t.length t le_rfl

/-- What is left without the zeros in front begins with another digit. -/
theorem dropWhile_zero_cases {digits : Text} (h : All Hex.digitVal digits) :
    digits.dropWhile (· = '0') = [] ∨
      ∃ c t d, digits.dropWhile (· = '0') = c :: t ∧ Hex.digitVal c = some d ∧ 0 < d := by
  cases hrest : digits.dropWhile (· = '0') with
  | nil => exact Or.inl rfl
  | cons c t =>
      refine Or.inr ⟨c, t, ?_⟩
      have hsuffix := List.dropWhile_suffix (l := digits) (· = '0')
      rw [hrest] at hsuffix
      obtain ⟨d, hd⟩ := Option.isSome_iff_exists.1 (h c (hsuffix.subset List.mem_cons_self))
      have hc : c ≠ '0' := by
        have hhead := List.head?_dropWhile_not (· = '0') digits
        rw [hrest] at hhead
        simpa using hhead
      refine ⟨d, rfl, hd, Nat.pos_of_ne_zero fun hzero => hc ?_⟩
      exact eq_zero_of_digitVal (hzero ▸ hd)

/-- The cut of many digits: the number that is read has 64 digits, and the cut keeps the first. -/
theorem cut_hexadecimal {t : Text} (h : All Hex.digitVal t) :
    ∃ front bytes, bytePrefix (min 64 (Text.utf8Len (zeroPadded t))) (zeroPadded t) = some front ∧
      Hex.decode front = some bytes ∧ bytes.length = 32 ∧
      BigEndian.decode bytes = value Hex.digitVal 16 (t.take 64) := by
  have hcut : bytePrefix (min 64 t.length) t = some (t.take 64) := by
    rw [bytePrefix_eq_some_iff]
    refine ⟨List.take_prefix 64 t, ?_⟩
    rw [utf8Len_digits (h.take 64), List.length_take]
  have hzero : Hex.digitVal '0' = some 0 := rfl
  have hall : All Hex.digitVal (List.replicate (64 - t.length) '0' ++ t.take 64) := by
    intro c hc
    rcases List.mem_append.1 hc with hc | hc
    · rw [List.eq_of_mem_replicate hc]
      rfl
    · exact h.take 64 c hc
  obtain ⟨bytes, hbytes, hlen, hvalue⟩ := decode_hexadecimal (k := 32)
    (by rw [List.length_append, List.length_replicate, List.length_take]; omega) hall
  refine ⟨_, bytes, ?_, hbytes, hlen, ?_⟩
  · rw [bytePrefix_zeroPadded, hcut]
    rfl
  · rw [hvalue, value_replicate_append hzero]

/-- The first 24 of 32 bytes are zeros exactly when the number fits into the others. -/
theorem take_zeros_iff {bytes : List UInt8} (hlen : bytes.length = 32) :
    bytes.take 24 = List.replicate 24 0 ↔ BigEndian.decode bytes < 2 ^ 64 := by
  have hzeros := BigEndian.take_eq_replicate_iff (bytes.take 24) (bytes.drop 24)
  rw [List.take_append_drop, List.length_take, List.length_drop, hlen] at hzeros
  exact hzeros

theorem decode_drop {bytes : List UInt8} (h : bytes.take 24 = List.replicate 24 0) :
    BigEndian.decode (bytes.drop 24) = BigEndian.decode bytes := by
  conv_rhs => rw [← List.take_append_drop 24 bytes, BigEndian.decode_append, h]
  rw [BigEndian.decode_replicate_zero, Nat.zero_mul, Nat.zero_add]

/-- The id in 32 bytes, if their number fits. -/
theorem idOfBytes_eq {bytes : List UInt8} (hlen : bytes.length = 32) :
    idOfBytes bytes =
      if BigEndian.decode bytes < 2 ^ 64 then .ok (UInt64.ofNat (BigEndian.decode bytes))
      else .error .exceedsU64 := by
  have hzeros := take_zeros_iff hlen
  rw [idOfBytes, if_neg (not_not.2 hlen)]
  by_cases hfits : BigEndian.decode bytes < 2 ^ 64
  · have htake := hzeros.2 hfits
    rw [if_neg (not_not.2 htake), if_pos hfits, decode_drop htake]
  · rw [if_pos (mt hzeros.1 hfits), if_neg hfits]

/-- **Hexadecimal digits are read exactly when their number fits**, with any zeros in front and in
either case. -/
theorem parseSessionId_hexadecimal {digits : Text} (h : All Hex.digitVal digits) :
    parseSessionId ("0x".toList ++ digits) =
      if value Hex.digitVal 16 digits < 2 ^ 64 then
        .ok (UInt64.ofNat (value Hex.digitVal 16 digits))
      else .error .exceedsU64 := by
  have hspace : ∀ c ∈ "0x".toList ++ digits, Text.isWhitespace c = false := by
    intro c hc
    rcases List.mem_append.1 hc with hc | hc
    · have hc' : c = '0' ∨ c = 'x' := by simpa using hc
      rcases hc' with rfl | rfl
      · rfl
      · rfl
    · obtain ⟨d, hd⟩ := Option.isSome_iff_exists.1 (h c hc)
      have hascii := ascii_of_digitVal hd
      exact isWhitespace_eq_false hascii.1 (by omega)
  have hstrip : Text.stripPrefix "0x".toList (Text.trim ("0x".toList ++ digits)) = some digits := by
    rw [Text.trim_eq_self hspace, Text.stripPrefix_append]
  simp only [parseSessionId, hstrip, trimStartMatches_zero]
  rw [← value_dropWhile_zero (show Hex.digitVal '0' = some 0 from rfl) digits]
  have hrest : All Hex.digitVal (digits.dropWhile (· = '0')) :=
    fun c hc => h c ((List.dropWhile_suffix _).subset hc)
  rcases dropWhile_zero_cases h with hnil | ⟨c, t, d, hcons, hd, hpos⟩
  · rw [hnil]
    rfl
  · rw [hcons] at hrest ⊢
    rw [if_neg (List.cons_ne_nil c t), utf8Len_digits hrest]
    by_cases hfew : (c :: t).length ≤ 16
    · have hfits : value Hex.digitVal 16 (c :: t) < 2 ^ 64 :=
        (value_lt_pow lt_of_digitVal hrest).trans_le
          ((Nat.pow_le_pow_right (by decide) hfew).trans_eq (by decide))
      have hread := fromStrRadix_eq (show 0 < 16 by decide) rfl rfl (List.cons_ne_nil c t) hrest
      rw [if_pos hfits] at hread
      rw [if_pos hfew, if_pos hfits, fromHexadecimal, hread]
    · -- without a zero in front, so many digits stand for too large a number, cut or not
      have hlarge : ∀ k, 16 ≤ k → 2 ^ 64 ≤ value Hex.digitVal 16 (c :: t.take k) := by
        intro k hk
        have hcount : 16 ≤ (t.take k).length := by
          rw [List.length_take]
          rw [List.length_cons] at hfew
          omega
        calc 2 ^ 64 = 16 ^ 16 := by decide
          _ ≤ 16 ^ (t.take k).length := Nat.pow_le_pow_right (by decide) hcount
          _ ≤ value Hex.digitVal 16 (c :: t.take k) := pow_le_value hd hpos _
      obtain ⟨front, bytes, hcut, hbytes, hlen, hvalue⟩ := cut_hexadecimal hrest
      simp only [if_neg hfew, hcut, hbytes]
      have hall := hlarge t.length (by rw [List.length_cons] at hfew; omega)
      rw [List.take_length] at hall
      have hfront := hlarge 63 (by decide)
      rw [idOfBytes_eq hlen, hvalue, List.take_succ_cons, if_neg (by omega), if_neg (by omega)]

/-! ### The other spellings -/

theorem parseSessionId_decimal (id : UInt64) : parseSessionId (decimal id.toNat) = .ok id := by
  have hdigit : ∀ c ∈ decimal id.toNat, c.isDigit = true := fun c hc => isDigit_of_mem_decimal hc
  have hspace : ∀ c ∈ decimal id.toNat, Text.isWhitespace c = false := by
    intro c hc
    have hc' := hdigit c hc
    rw [Char.isDigit, Bool.and_eq_true, decide_eq_true_eq, decide_eq_true_eq] at hc'
    have hhigh := UInt32.le_iff_toNat_le.1 hc'.2
    exact isWhitespace_eq_false (UInt32.le_iff_toNat_le.1 hc'.1) (hhigh.trans (by decide))
  have hstrip : Text.stripPrefix "0x".toList (Text.trim (decimal id.toNat)) = none := by
    rw [Text.trim_eq_self hspace, Text.stripPrefix, if_neg]
    intro hbegins
    have hx := (List.isPrefixOf_iff_prefix.1 hbegins).subset (show 'x' ∈ "0x".toList by simp)
    exact absurd (hdigit 'x' hx) (by decide)
  have hread := fromStrRadix_eq (show 0 < 10 by decide) (show decimalVal '+' = none from rfl) rfl
    (decimal_ne_nil id.toNat) (all_decimal id.toNat)
  rw [value_decimal, if_pos id.toNat_lt, UInt64.ofNat_toNat] at hread
  simp only [parseSessionId, hstrip]
  rw [Text.trim_eq_self hspace, parseU64, hread]

theorem parseSessionId_sessionIdHex (id : UInt64) : parseSessionId (sessionIdHex id) = .ok id := by
  have hlt := id.toNat_lt
  have hvalue : value Hex.digitVal 16 (Hex.encode (BigEndian.encode 32 id.toNat)) = id.toNat := by
    rw [value_encode, BigEndian.decode_encode (hlt.trans (by decide))]
  rw [sessionIdHex, parseSessionId_hexadecimal (all_encode _), hvalue, if_pos hlt,
    UInt64.ofNat_toNat]

section

variable {crypto : Crypto} {around : Surroundings} {path : Text} {body : ActivateBody}

/-- What is forwarded is for the session of the path. -/
theorem parseSessionId_forwarded {forwarded : Forwarded}
    (h : activateSession crypto around path body = .ok forwarded) :
    parseSessionId path = parseSessionId forwarded.sessionId := by
  cases hpath : parseSessionId path with
  | error e =>
      simp only [activateSession, hpath] at h
      cases h
  | ok id =>
      cases hget : around.getSession id with
      | error e =>
          simp only [activateSession, hpath, hget] at h
          cases h
      | ok s =>
          by_cases hopen : s.isOpen = true
          · obtain ⟨-, rfl⟩ := (activateSession_eq_ok_iff hpath hget hopen body forwarded).1 h
            exact (parseSessionId_sessionIdHex id).symm
          · simp only [activateSession, hpath, hget, if_pos (Bool.eq_false_of_not_eq_true hopen)] at h
            cases h

/-- The answer to an activation gives the id that was in the path. -/
theorem parseSessionId_activated {frames : List Tunnel.InboundFrame} {ending : Relay.Ending}
    {apiKey sessionId : Text}
    (h : activated crypto around path body frames ending = .ok (apiKey, sessionId)) :
    parseSessionId path = parseSessionId sessionId := by
  unfold activated at h
  cases hforwarded : activateSession crypto around path body with
  | error e =>
      rw [hforwarded] at h
      cases h
  | ok forwarded =>
      rw [hforwarded] at h
      cases hkey : awaitApiKey ending frames with
      | error e =>
          simp only [bind, Except.bind, hkey] at h
          cases h
      | ok key =>
          simp only [bind, Except.bind, hkey] at h
          cases h
          exact parseSessionId_forwarded hforwarded

end

section

variable (encode : List UInt8 → Text) (decode : Text → Option (List UInt8))

/-- The token of a session with a secret. -/
def skBearer (id : ℕ) (secret : List.Vector UInt8 32) : Text :=
  "sk_".toList ++ encode (BigEndian.encode 32 id ++ secret.toList)

/-- **The spellings of an id agree.** -/
structure Agree : Prop where
  hexadecimal : ∀ digits, All Hex.digitVal digits →
    parseSessionId ("0x".toList ++ digits) =
      if value Hex.digitVal 16 digits < 2 ^ 64 then
        .ok (UInt64.ofNat (value Hex.digitVal 16 digits))
      else .error .exceedsU64
  decimal : ∀ id : UInt64, parseSessionId (decimal id.toNat) = .ok id
  emitted : ∀ id : UInt64, parseSessionId (sessionIdHex id) = .ok id
  /-- What an activation answers is the id it was asked for. -/
  answered : ∀ crypto around path body frames ending apiKey sessionId,
    activated crypto around path body frames ending = .ok (apiKey, sessionId) →
      parseSessionId path = parseSessionId sessionId
  bearer : ∀ id < 2 ^ 256, ∀ secret, parseSkBearer decode (skBearer encode id secret) =
    if id < 2 ^ 64 then .ok ⟨id⟩
    else .error "session id exceeds u64 range in bearer token".toList

variable {encode} {decode}

/-- **All spellings of an id agree**, if the token's bytes are read back. -/
theorem spellings_agree (hinverse : ∀ bytes, decode (encode bytes) = some bytes) :
    Agree encode decode := by
  refine ⟨fun digits h => parseSessionId_hexadecimal h, parseSessionId_decimal,
    parseSessionId_sessionIdHex, fun _ _ _ _ _ _ _ _ h => parseSessionId_activated h, ?_⟩
  intro id hid secret
  have hbytes : (BigEndian.encode 32 id).length = 32 := BigEndian.length_encode 32 id
  have hlen : (BigEndian.encode 32 id ++ secret.toList).length = 64 := by
    rw [List.length_append, hbytes, secret.toList_length]
  have hvalue : BigEndian.decode (BigEndian.encode 32 id) = id :=
    BigEndian.decode_encode (hid.trans_eq (by decide))
  have hzeros := take_zeros_iff hbytes
  rw [hvalue] at hzeros
  have htake : (BigEndian.encode 32 id ++ secret.toList).take 24 =
      (BigEndian.encode 32 id).take 24 := List.take_append_of_le_length (by omega)
  have hdrop : ((BigEndian.encode 32 id ++ secret.toList).drop 24).take 8 =
      (BigEndian.encode 32 id).drop 24 := by
    rw [List.drop_append_of_le_length (by omega), List.take_left' (by rw [List.length_drop, hbytes])]
  simp only [parseSkBearer, skBearer, Text.stripPrefix_append, hinverse, hlen, ne_eq,
    not_true_eq_false, if_false, htake, hdrop]
  by_cases hfits : id < 2 ^ 64
  · rw [if_neg (not_not.2 (hzeros.2 hfits)), if_pos hfits, decode_drop (hzeros.2 hfits), hvalue]
  · rw [if_pos (mt hzeros.1 hfits), if_neg hfits]

end

/-- The spellings agree with the tokens in base 58. -/
theorem spellings_agree_base58 : Agree Base58.encode Base58.decode :=
  spellings_agree Base58.decode_encode

/-- A token as the tests make it. -/
example : skBearer Base58.encode 7 (List.Vector.replicate 32 0) = "sk_".toList ++ sampleBase58 := by
  decide +kernel

end Activate
