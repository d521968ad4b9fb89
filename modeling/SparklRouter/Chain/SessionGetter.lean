/-
**The getter of the sessions, byte by byte.**

The contract returns a session as its static fields and a text (`sessions` in
`abi/SettlementEscrow.json`), either as the values one after the other or as one struct, with a word
for the struct's offset in front.  The router cuts the fields out of the bytes
(`src/chain/session.rs`) with slices and conversions that panic where a length is wrong.  Every cut
comes behind a check of the length, so none of them panics, and the decoder of `Chain.Session` is
what is left of them.

The two layouts are told apart by the first word: it is the offset of a struct, or else the user.  A
user whose account is the number of the offset would be taken for it.

Main definitions:

* `SessionBytes.decodeSessionHead` — the decoder with its slices;
* `SessionsOutputs`, `SessionsOutputs.plain`, `SessionsOutputs.inStruct` — the outputs of the getter
  and their two layouts.

Main results:

* `decodeSessionHead_eq_returned` — **the slices never panic**;
* `decodes_outputs` — **both layouts are read back**.
-/

import SparklRouter.Chain.Session
import SparklRouter.Numeric.Width

set_option relaxedAutoImplicit false
set_option autoImplicit false

/-! ### The decoder with its slices -/

/-- How the decoder ends without a session. -/
inductive Fault
  | returned (e : DecodeError)
  | panicked
deriving DecidableEq

namespace SessionBytes

/-- `&data[start..stop]`. -/
def slice (data : List UInt8) (start stop : ℕ) : Except Fault (List UInt8) :=
  if start ≤ stop ∧ stop ≤ data.length then .ok ((data.drop start).take (stop - start))
  else .error .panicked

/-- `data[i]`. -/
def byte (data : List UInt8) (i : ℕ) : Except Fault UInt8 :=
  match data[i]? with
  | some b => .ok b
  | none => .error .panicked

/-- `Address::from_slice`, `FixedBytes::from_slice`, and `try_into().unwrap()` on arrays. -/
def fromSlice (n : ℕ) (bytes : List UInt8) : Except Fault (List.Vector UInt8 n) :=
  if h : bytes.length = n then .ok ⟨bytes, h⟩ else .error .panicked

/-- `U256::from_be_slice`. -/
def fromBeSlice (bytes : List UInt8) : Except Fault ℕ :=
  if BigEndian.decode bytes < 2 ^ 256 then .ok (BigEndian.decode bytes) else .error .panicked

def ensure (p : Prop) [Decidable p] (e : DecodeError) : Except Fault Unit :=
  if p then .ok () else .error (.returned e)

def word (data : List UInt8) (index : ℕ) : Except Fault (List UInt8) := do
  let start := index * 32
  let stop := start + 32
  ensure (stop ≤ data.length) (.tooShort stop data.length)
  slice data start stop

def addressAt (data : List UInt8) (index : ℕ) : Except Fault Address := do
  let w ← word data index
  let bytes ← slice w 12 32
  fromSlice 20 bytes

def bytes32At (data : List UInt8) (index : ℕ) : Except Fault (List.Vector UInt8 32) := do
  let w ← word data index
  fromSlice 32 w

def u256At (data : List UInt8) (index : ℕ) : Except Fault ℕ := do
  let w ← word data index
  fromBeSlice w

def u64At (data : List UInt8) (index : ℕ) : Except Fault ℕ := do
  let w ← word data index
  let bytes ← slice w 24 32
  let bytes ← fromSlice 8 bytes
  .ok (BigEndian.decode bytes.toList)

def boolAt (data : List UInt8) (index : ℕ) : Except Fault Bool := do
  let w ← word data index
  let b ← byte w 31
  .ok (b ≠ 0)

def sessionHeadBytes (data : List UInt8) : Except Fault (List UInt8) := do
  ensure (32 ≤ data.length) (.tooShort 32 data.length)
  let offset ← u256At data 0
  if offset = 0x20 then
    let start := 0x20
    ensure (start + sessionHeadWords * 32 ≤ data.length)
      (.tooShortForOffsetHead (start + sessionHeadWords * 32) data.length)
    slice data start data.length
  else
    ensure (sessionHeadWords * 32 ≤ data.length) .tooShortForSessionHead
    .ok data

def decodeSessionHead (data : List UInt8) : Except Fault ChainSession := do
  let head ← sessionHeadBytes data
  let user ← addressAt head 0
  let nodeId ← bytes32At head 1
  let modelId ← bytes32At head 2
  let tierWord ← word head 3
  let tier ← byte tierWord 31
  let lockedInternal ← u256At head 4
  let usageRecorded ← u256At head 5
  let inputTokensRecorded ← u64At head 11
  let outputTokensRecorded ← u64At head 12
  let settled ← boolAt head 10
  .ok
    { user
      nodeId
      modelId
      tier
      lockedInternal := toU128 lockedInternal
      usageRecorded := toU128 usageRecorded
      inputTokensRecorded
      outputTokensRecorded
      settled }

end SessionBytes

/-! ### No slice panics -/

/-- The result of a decoder that does not panic. -/
def returned {α : Type} (result : Except DecodeError α) : Except Fault α :=
  result.mapError Fault.returned

section

variable (data : List UInt8) (index : ℕ)

/-- A word that is there is cut out whole. -/
theorem word_eq_returned :
    SessionBytes.word data index = returned ((word data index).map List.Vector.toList) := by
  have hindex : index * 32 = 32 * index := Nat.mul_comm index 32
  by_cases hlen : 32 * index + 32 ≤ data.length
  · have hword : word data index = .ok ⟨(data.drop (32 * index)).take 32, by
        rw [List.length_take, List.length_drop]
        omega⟩ := by
      rw [word, Word.at?, dif_pos hlen]
    rw [hword, SessionBytes.word, hindex]
    simp only [SessionBytes.ensure, if_pos hlen, bind, Except.bind, SessionBytes.slice,
      Nat.le_add_right, true_and, Nat.add_sub_cancel_left]
    rfl
  · have hword : word data index = .error (.tooShort (32 * index + 32) data.length) := by
      rw [word, Word.at?, dif_neg hlen]
    rw [hword, SessionBytes.word, hindex]
    simp only [SessionBytes.ensure, if_neg hlen, bind, Except.bind]
    rfl

theorem fromSlice_toList {n : ℕ} (v : List.Vector UInt8 n) :
    SessionBytes.fromSlice n v.toList = .ok v := by
  rw [SessionBytes.fromSlice, dif_pos v.toList_length]
  rfl

/-- The end of a word is cut out whole. -/
theorem slice_word (w : Word) {start : ℕ} (h : start ≤ 32) :
    SessionBytes.slice w.toList start 32 = .ok (w.drop start).toList := by
  have hlen : w.toList.length = 32 := w.toList_length
  rw [SessionBytes.slice, if_pos ⟨h, hlen.ge⟩, List.Vector.toList_drop, List.take_of_length_le]
  rw [List.length_drop, hlen]

theorem byte_last (w : Word) : SessionBytes.byte w.toList 31 = .ok (w.get 31) := by
  rw [SessionBytes.byte, Word.getElem?_toList_last]

theorem addressAt_eq_returned :
    SessionBytes.addressAt data index = returned (addressAt data index) := by
  rw [SessionBytes.addressAt, word_eq_returned, addressAt]
  cases word data index with
  | error e => rfl
  | ok w =>
      change (SessionBytes.slice w.toList 12 32 >>= SessionBytes.fromSlice 20) = _
      rw [slice_word w (by decide)]
      exact fromSlice_toList (w.drop 12)

theorem bytes32At_eq_returned :
    SessionBytes.bytes32At data index = returned (word data index) := by
  rw [SessionBytes.bytes32At, word_eq_returned]
  cases word data index with
  | error e => rfl
  | ok w => exact fromSlice_toList w

theorem u256At_eq_returned :
    SessionBytes.u256At data index = returned (u256At data index) := by
  rw [SessionBytes.u256At, word_eq_returned, u256At]
  cases word data index with
  | error e => rfl
  | ok w =>
      have hlt := BigEndian.decode_lt w.toList
      rw [w.toList_length] at hlt
      exact if_pos (hlt.trans_eq (by decide))

theorem u64At_eq_returned : SessionBytes.u64At data index = returned (u64At data index) := by
  rw [SessionBytes.u64At, word_eq_returned, u64At]
  cases word data index with
  | error e => rfl
  | ok w =>
      change (SessionBytes.slice w.toList 24 32 >>= fun bytes => SessionBytes.fromSlice 8 bytes >>=
        fun v => .ok (BigEndian.decode v.toList)) = _
      rw [slice_word w (by decide)]
      change (SessionBytes.fromSlice 8 (w.drop 24).toList >>=
        fun v => .ok (BigEndian.decode v.toList)) = _
      rw [fromSlice_toList (w.drop 24)]
      rfl

theorem boolAt_eq_returned : SessionBytes.boolAt data index = returned (boolAt data index) := by
  rw [SessionBytes.boolAt, word_eq_returned, boolAt]
  cases word data index with
  | error e => rfl
  | ok w =>
      change (SessionBytes.byte w.toList 31 >>= fun b => .ok (decide (b ≠ 0))) = _
      rw [byte_last]
      rfl

/-- The last byte of a word, and what follows. -/
theorem last_eq_returned {β : Type} (next : UInt8 → Except Fault β) :
    (SessionBytes.word data index >>= fun w => SessionBytes.byte w 31 >>= next) =
      returned (word data index) >>= fun w => next (w.get 31) := by
  rw [word_eq_returned]
  cases word data index with
  | error e => rfl
  | ok w =>
      change (SessionBytes.byte w.toList 31 >>= next) = _
      rw [byte_last]
      rfl

theorem sessionHeadBytes_eq_returned :
    SessionBytes.sessionHeadBytes data = returned (sessionHeadBytes data) := by
  rw [SessionBytes.sessionHeadBytes, u256At_eq_returned, sessionHeadBytes]
  by_cases hlen : 32 ≤ data.length
  · have hword : ∃ w, word data 0 = .ok w := by
      rw [word, Word.at?, dif_pos (by omega)]
      exact ⟨_, rfl⟩
    obtain ⟨w, hword⟩ := hword
    have hoffset : u256At data 0 = .ok w.toNat := by
      rw [u256At, hword]
      rfl
    have hall : SessionBytes.slice data 0x20 data.length = .ok (data.drop 32) := by
      rw [SessionBytes.slice, if_pos ⟨hlen, le_refl _⟩, List.take_of_length_le]
      rw [List.length_drop]
    rw [hoffset]
    simp only [SessionBytes.ensure, if_pos hlen, bind, Except.bind, returned, Except.mapError]
    by_cases hstruct : w.toNat = 0x20
    · rw [if_pos hstruct, if_pos hstruct]
      by_cases henough : 32 + sessionHeadWords * 32 ≤ data.length
      · rw [if_pos henough, if_pos henough]
        exact hall
      · rw [if_neg henough, if_neg henough]
    · rw [if_neg hstruct, if_neg hstruct]
      by_cases henough : sessionHeadWords * 32 ≤ data.length
      · rw [if_pos henough, if_pos henough]
      · rw [if_neg henough, if_neg henough]
  · have hoffset : u256At data 0 = .error (.tooShort 32 data.length) := by
      rw [u256At, word, Word.at?, dif_neg (by omega)]
      rfl
    rw [hoffset]
    simp only [SessionBytes.ensure, if_neg hlen, bind, Except.bind, returned, Except.mapError]

theorem returned_bind {α β : Type} (x : Except DecodeError α) (next : α → Except DecodeError β) :
    returned (x >>= next) = returned x >>= fun a => returned (next a) := by
  cases x with
  | error e => rfl
  | ok a => rfl

/-- **The slices never panic**: the decoder returns what the decoder of whole words returns. -/
theorem decodeSessionHead_eq_returned :
    SessionBytes.decodeSessionHead data = returned (decodeSessionHead data) := by
  simp only [SessionBytes.decodeSessionHead, decodeSessionHead, returned_bind,
    sessionHeadBytes_eq_returned, addressAt_eq_returned, bytes32At_eq_returned, last_eq_returned,
    u256At_eq_returned, u64At_eq_returned, boolAt_eq_returned]
  rfl

theorem decodeSessionHead_ne_panicked :
    SessionBytes.decodeSessionHead data ≠ .error .panicked := by
  rw [decodeSessionHead_eq_returned]
  cases decodeSessionHead data with
  | error e => exact fun h => by cases h
  | ok s => exact fun h => by cases h

end

/-! ### The outputs of the getter -/

/-- The account that a number stands for. -/
def Address.ofNat (n : ℕ) : Address := ⟨BigEndian.encode 20 n, BigEndian.length_encode 20 n⟩

/-- An account has room in a word. -/
theorem Address.length_le : 20 ≤ 32 := by decide

/-- The number as an unsigned integer of `w` bits. -/
def uint (w n : ℕ) : Fin (2 ^ w) := ⟨n % 2 ^ w, Nat.mod_lt _ (Nat.two_pow_pos w)⟩

/-- The outputs of `sessions`, with the types the contract declares for them. -/
structure SessionsOutputs where
  user : Address
  nodeId : NodeId
  modelId : List.Vector UInt8 32
  tier : UInt8
  lockedInternal : Fin (2 ^ 256)
  usageRecorded : Fin (2 ^ 256)
  paidToProviderInternal : Fin (2 ^ 256)
  paidToProtocolInternal : Fin (2 ^ 256)
  openingInternal : Fin (2 ^ 256)
  openedAt : Fin (2 ^ 64)
  settled : Bool
  inputTokensRecorded : Fin (2 ^ 64)
  outputTokensRecorded : Fin (2 ^ 64)
  name : List UInt8

namespace SessionsOutputs

/-- The static words of the outputs, behind the user. -/
def staticWords (o : SessionsOutputs) : List Word :=
  [o.nodeId, o.modelId, Word.ofNat o.tier.toNat, Word.ofNat o.lockedInternal,
    Word.ofNat o.usageRecorded, Word.ofNat o.paidToProviderInternal,
    Word.ofNat o.paidToProtocolInternal, Word.ofNat o.openingInternal, Word.ofNat o.openedAt,
    Word.ofNat o.settled.toNat, Word.ofNat o.inputTokensRecorded,
    Word.ofNat o.outputTokensRecorded]

/-- The thirteen static words and the offset of the name. -/
def words (o : SessionsOutputs) : List Word :=
  Word.ofTail o.user Address.length_le :: (o.staticWords ++ [Word.ofNat (14 * 32)])

/-- The name: its length and its bytes, filled up to whole words. -/
def nameBytes (o : SessionsOutputs) : List UInt8 :=
  (Word.ofNat o.name.length).toList ++ o.name ++
    List.replicate ((32 - o.name.length % 32) % 32) 0

/-- The outputs as values one after the other. -/
def plain (o : SessionsOutputs) : List UInt8 := Word.concat o.words ++ o.nameBytes

/-- The outputs as one struct. -/
def inStruct (o : SessionsOutputs) : List UInt8 :=
  Word.concat (Word.ofNat 0x20 :: o.words) ++ o.nameBytes

/-- The session as the router should see it. -/
def toChainSession (o : SessionsOutputs) : ChainSession where
  user := o.user
  nodeId := o.nodeId
  modelId := o.modelId
  tier := o.tier
  lockedInternal := Width.cap 128 o.lockedInternal
  usageRecorded := Width.cap 128 o.usageRecorded
  inputTokensRecorded := o.inputTokensRecorded
  outputTokensRecorded := o.outputTokensRecorded
  settled := o.settled

end SessionsOutputs

/-- The escrow's record as outputs of the getter. -/
def SessionRecord.outputs (r : SessionRecord) : SessionsOutputs :=
  let wide (a : Amount) : Fin (2 ^ 256) := a.castLE (by decide)
  { user := r.user
    nodeId := r.nodeId
    modelId := r.modelId
    tier := r.tier
    lockedInternal := wide r.lockedInternal
    usageRecorded := wide r.usageRecorded
    paidToProviderInternal := wide r.paidToProviderInternal
    paidToProtocolInternal := wide r.paidToProtocolInternal
    openingInternal := wide r.openingInternal
    openedAt := r.openedAt
    settled := r.settled
    inputTokensRecorded := r.inputTokensRecorded
    outputTokensRecorded := r.outputTokensRecorded
    name := r.name }

/-- What the escrow returns for a record is the struct of its outputs. -/
theorem inStruct_outputs (r : SessionRecord) : r.outputs.inStruct = r.returndata := rfl

/-! ### Both layouts are read back -/

theorem toU128_eq_cap (n : ℕ) : toU128 n = Width.cap 128 n := by
  unfold toU128 Width.cap
  split
  · omega
  · omega

/-- Only one account looks like the offset of a struct. -/
theorem toNat_ofTail_ne {user : Address} (h : user ≠ Address.ofNat 0x20) :
    (Word.ofTail user Address.length_le).toNat ≠ 0x20 := by
  intro hoffset
  refine h (List.Vector.toList_injective ?_)
  change BigEndian.decode (List.replicate 12 0 ++ user.toList) = 0x20 at hoffset
  rw [BigEndian.decode_append, BigEndian.decode_replicate_zero, Nat.zero_mul, Nat.zero_add]
    at hoffset
  have hbytes := BigEndian.encode_decode user.toList
  rw [hoffset, user.toList_length] at hbytes
  exact hbytes.symm

/-- The fields of the outputs, read off their words. -/
theorem decodeSessionHead_outputs {o : SessionsOutputs} {data : List UInt8}
    (hhead : sessionHeadBytes data = .ok (Word.concat o.words ++ o.nameBytes)) :
    decodeSessionHead data = .ok o.toChainSession := by
  have hwide : ∀ a : Fin (2 ^ 256), toU128 (Word.ofNat a).toNat = Width.cap 128 a := by
    intro a
    rw [Word.toNat_ofNat (a.isLt.trans_eq (by decide)), toU128_eq_cap]
  have hbyte : UInt8.ofNat o.tier.toNat = o.tier := UInt8.ofNat_toNat
  have hbool : decide (UInt8.ofNat o.settled.toNat ≠ 0) = o.settled := by
    cases o.settled <;> rfl
  rw [decodeSessionHead_words hhead]
  simp only [Word.drop_ofTail, hwide, Word.get_ofNat, hbyte, hbool,
    Word.decode_drop_ofNat o.inputTokensRecorded.isLt,
    Word.decode_drop_ofNat o.outputTokensRecorded.isLt]
  rfl

/-- **Both layouts of the outputs are read back**, and no answer makes the decoder panic. -/
theorem decodes_outputs (o : SessionsOutputs) (huser : o.user ≠ Address.ofNat 0x20) :
    SessionBytes.decodeSessionHead o.plain = .ok o.toChainSession ∧
      SessionBytes.decodeSessionHead o.inStruct = .ok o.toChainSession ∧
      ∀ data, SessionBytes.decodeSessionHead data ≠ .error .panicked := by
  have hlen : sessionHeadWords ≤ o.words.length := by
    change 13 ≤ 14
    decide
  have hplain : sessionHeadBytes o.plain = .ok (Word.concat o.words ++ o.nameBytes) :=
    sessionHeadBytes_plain hlen (toNat_ofTail_ne huser) o.nameBytes
  have hstruct : sessionHeadBytes o.inStruct = .ok (Word.concat o.words ++ o.nameBytes) :=
    sessionHeadBytes_struct hlen o.nameBytes
  refine ⟨?_, ?_, decodeSessionHead_ne_panicked⟩
  · rw [decodeSessionHead_eq_returned, decodeSessionHead_outputs hplain]
    rfl
  · rw [decodeSessionHead_eq_returned, decodeSessionHead_outputs hstruct]
    rfl

/-- A session of the account `0xf39f…2266`, whose lock no longer fits `u128`. -/
def sampleOutputs : SessionsOutputs where
  user := Address.ofNat 0xf39fd6e51aad88f6f4ce6ab8827279cfffb92266
  nodeId := Word.ofNat 0x877f5a2d994b90eaaf84250d4898ab049539460eeecb2614216526d4cefd2ed8
  modelId := Word.ofNat 0x19901b5106ee310093b779e131891ec328afec79c93bff6c3872832f6156ba31
  tier := 2
  lockedInternal := uint 256 (2 ^ 128)
  usageRecorded := uint 256 5
  paidToProviderInternal := uint 256 0
  paidToProtocolInternal := uint 256 0
  openingInternal := uint 256 1
  openedAt := uint 64 0x6a22d31c
  settled := true
  inputTokensRecorded := uint 64 7
  outputTokensRecorded := uint 64 (2 ^ 64 - 1)
  name := [0x6e, 0x6f, 0x64, 0x65]

/-- The getter's answer for it is read back in both layouts. -/
theorem decodes_sampleOutputs :
    (SessionBytes.decodeSessionHead sampleOutputs.plain).toOption.map ChainSession.lockedInternal =
        some (2 ^ 128 - 1) ∧
      SessionBytes.decodeSessionHead sampleOutputs.inStruct = .ok sampleOutputs.toChainSession := by
  have hread := decodes_outputs sampleOutputs (by decide)
  refine ⟨?_, hread.2.1⟩
  rw [hread.1]
  rfl
