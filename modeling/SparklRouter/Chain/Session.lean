/-
**Sessions as the router reads them from the chain.**

The escrow contract keeps a record for each session.  The router calls the getter of the records and
decodes the static fields at the head of the answer (`src/chain/session.rs`): the answer is a struct
with a text at its end, so a word with the offset of the struct stands in front, and the decoder
skips it.  Amounts that do not fit into 128 bits are read as the largest value.

Main definitions:

* `ChainSession`, `ChainSession.isOpen`, `ChainSession.budgetExhausted` — a session as the router
  sees it;
* `decodeSessionHead`, `fetchSession` — the decoder, and the answer of the getter decoded;
* `SessionRecord`, `SessionRecord.returndata` — the escrow's record and the answer of the getter.

Main results:

* `decodeSessionHead_returndata` — **the decoder reads the record the getter encodes**.
-/

import SparklRouter.NodeAuth
import SparklRouter.Text.Words

set_option relaxedAutoImplicit false
set_option autoImplicit false

/-- An account: 20 bytes. -/
abbrev Address := List.Vector UInt8 20

/-- The account that stands for none. -/
def Address.zero : Address := List.Vector.replicate 20 0

/-- A session as the router sees it. -/
structure ChainSession where
  user : Address
  nodeId : NodeId
  modelId : List.Vector UInt8 32
  tier : UInt8
  lockedInternal : ℕ
  usageRecorded : ℕ
  inputTokensRecorded : ℕ
  outputTokensRecorded : ℕ
  settled : Bool

namespace ChainSession

def isOpen (s : ChainSession) : Bool := s.user ≠ Address.zero && !s.settled

def budgetExhausted (s : ChainSession) : Bool :=
  s.lockedInternal ≤ s.usageRecorded && 0 < s.lockedInternal

end ChainSession

/-! ### The decoder -/

/-- The answer is too short: for a word, for the offset and the head, or for the head alone. -/
inductive DecodeError
  | tooShort (need got : ℕ)
  | tooShortForOffsetHead (need got : ℕ)
  | tooShortForSessionHead
deriving DecidableEq

/-- The words of the static head. -/
def sessionHeadWords : ℕ := 13

def word (data : List UInt8) (index : ℕ) : Except DecodeError Word :=
  match Word.at? data index with
  | some w => .ok w
  | none => .error (.tooShort (32 * index + 32) data.length)

def addressAt (data : List UInt8) (index : ℕ) : Except DecodeError Address := do
  let w ← word data index
  .ok (w.drop 12)

def u256At (data : List UInt8) (index : ℕ) : Except DecodeError ℕ := do
  let w ← word data index
  .ok w.toNat

/-- The last 8 bytes of a word. -/
def u64At (data : List UInt8) (index : ℕ) : Except DecodeError ℕ := do
  let w ← word data index
  .ok (BigEndian.decode (w.drop 24).toList)

def boolAt (data : List UInt8) (index : ℕ) : Except DecodeError Bool := do
  let w ← word data index
  .ok (w.get 31 ≠ 0)

/-- A number of 256 bits as one of 128, the largest if it does not fit. -/
def toU128 (n : ℕ) : ℕ := if n < 2 ^ 128 then n else 2 ^ 128 - 1

/-- The bytes from the first field on: a word with the offset of a struct is skipped. -/
def sessionHeadBytes (data : List UInt8) : Except DecodeError (List UInt8) := do
  let offset ← u256At data 0
  if offset = 0x20 then
    if 32 + sessionHeadWords * 32 ≤ data.length then .ok (data.drop 32)
    else .error (.tooShortForOffsetHead (32 + sessionHeadWords * 32) data.length)
  else if sessionHeadWords * 32 ≤ data.length then .ok data
  else .error .tooShortForSessionHead

def decodeSessionHead (data : List UInt8) : Except DecodeError ChainSession := do
  let head ← sessionHeadBytes data
  let user ← addressAt head 0
  let nodeId ← word head 1
  let modelId ← word head 2
  let tier ← word head 3
  let lockedInternal ← u256At head 4
  let usageRecorded ← u256At head 5
  let inputTokensRecorded ← u64At head 11
  let outputTokensRecorded ← u64At head 12
  let settled ← boolAt head 10
  .ok
    { user
      nodeId
      modelId
      tier := tier.get 31
      lockedInternal := toU128 lockedInternal
      usageRecorded := toU128 usageRecorded
      inputTokensRecorded
      outputTokensRecorded
      settled }

/-- The session in the answer of the getter.  `raw` is the answer, or the text of the error that
kept the router from getting one. -/
def fetchSession (raw : Except Text (List UInt8)) : Except Text ChainSession := do
  let data ← raw
  match decodeSessionHead data with
  | .ok s => .ok s
  | .error _ => .error "sessions() returndata decode failed".toList

/-! ### The escrow's record -/

/-- An amount of the escrow's accounting. -/
abbrev Amount := Fin (2 ^ 128)

/-- The escrow's record of a session. -/
structure SessionRecord where
  user : Address
  nodeId : NodeId
  modelId : List.Vector UInt8 32
  tier : UInt8
  lockedInternal : Amount
  usageRecorded : Amount
  paidToProviderInternal : Amount
  paidToProtocolInternal : Amount
  openingInternal : Amount
  openedAt : Fin (2 ^ 64)
  settled : Bool
  inputTokensRecorded : Fin (2 ^ 64)
  outputTokensRecorded : Fin (2 ^ 64)
  name : List UInt8

namespace SessionRecord

/-- The words of the record: its fields, and the offset of the name. -/
def words (r : SessionRecord) : List Word :=
  [Word.ofTail r.user (by decide), r.nodeId, r.modelId, Word.ofNat r.tier.toNat,
    Word.ofNat r.lockedInternal, Word.ofNat r.usageRecorded, Word.ofNat r.paidToProviderInternal,
    Word.ofNat r.paidToProtocolInternal, Word.ofNat r.openingInternal, Word.ofNat r.openedAt,
    Word.ofNat r.settled.toNat, Word.ofNat r.inputTokensRecorded,
    Word.ofNat r.outputTokensRecorded, Word.ofNat (14 * 32)]

/-- The name: its length and its bytes, filled up to whole words. -/
def nameBytes (r : SessionRecord) : List UInt8 :=
  (Word.ofNat r.name.length).toList ++ r.name ++
    List.replicate ((32 - r.name.length % 32) % 32) 0

/-- The answer of the getter: the offset of the struct, its words, and the name. -/
def returndata (r : SessionRecord) : List UInt8 :=
  Word.concat (Word.ofNat 0x20 :: r.words) ++ r.nameBytes

/-- The record as the router should see it. -/
def toChainSession (r : SessionRecord) : ChainSession where
  user := r.user
  nodeId := r.nodeId
  modelId := r.modelId
  tier := r.tier
  lockedInternal := r.lockedInternal
  usageRecorded := r.usageRecorded
  inputTokensRecorded := r.inputTokensRecorded
  outputTokensRecorded := r.outputTokensRecorded
  settled := r.settled

end SessionRecord

/-! ### Reading a record back -/

theorem word_concat {ws : List Word} (tail : List UInt8) {i : ℕ} {w : Word}
    (h : ws[i]? = some w) : word (Word.concat ws ++ tail) i = .ok w := by
  obtain ⟨hlt, hw⟩ := List.getElem?_eq_some_iff.1 h
  rw [word, Word.at?_concat_of_lt ws tail hlt, hw]

theorem toU128_of_lt {n : ℕ} (h : n < 2 ^ 128) : toU128 n = n := if_pos h

theorem u256_of_amount (a : Amount) : toU128 (Word.ofNat a).toNat = a := by
  have ha := a.isLt
  rw [Word.toNat_ofNat (ha.trans (by decide)), toU128_of_lt ha]

/-- The words of a struct stand behind its offset. -/
theorem sessionHeadBytes_struct {ws : List Word} (h : sessionHeadWords ≤ ws.length)
    (tail : List UInt8) :
    sessionHeadBytes (Word.concat (Word.ofNat 0x20 :: ws) ++ tail) =
      .ok (Word.concat ws ++ tail) := by
  have hoffset : u256At (Word.concat (Word.ofNat 0x20 :: ws) ++ tail) 0 = .ok 0x20 := by
    have hfirst : word (Word.concat (Word.ofNat 0x20 :: ws) ++ tail) 0 = .ok (Word.ofNat 0x20) :=
      word_concat tail rfl
    rw [u256At, hfirst]
    exact congrArg Except.ok (Word.toNat_ofNat (by decide))
  have hlen : 32 + sessionHeadWords * 32 ≤
      (Word.concat (Word.ofNat 0x20 :: ws) ++ tail).length := by
    rw [List.length_append, Word.length_concat, List.length_cons]
    omega
  have hdrop : (Word.concat (Word.ofNat 0x20 :: ws) ++ tail).drop 32 = Word.concat ws ++ tail :=
    Word.drop_concat [Word.ofNat 0x20] _
  simp only [sessionHeadBytes, hoffset, bind, Except.bind]
  rw [if_pos trivial, if_pos hlen, hdrop]

/-- Words of which the first is not the offset of a struct stand for themselves. -/
theorem sessionHeadBytes_plain {w : Word} {ws : List Word}
    (h : sessionHeadWords ≤ (w :: ws).length) (hw : w.toNat ≠ 0x20) (tail : List UInt8) :
    sessionHeadBytes (Word.concat (w :: ws) ++ tail) = .ok (Word.concat (w :: ws) ++ tail) := by
  have hoffset : u256At (Word.concat (w :: ws) ++ tail) 0 = .ok w.toNat := by
    have hfirst : word (Word.concat (w :: ws) ++ tail) 0 = .ok w := word_concat tail rfl
    rw [u256At, hfirst]
    rfl
  have hlen : sessionHeadWords * 32 ≤ (Word.concat (w :: ws) ++ tail).length := by
    rw [List.length_append, Word.length_concat]
    omega
  simp only [sessionHeadBytes, hoffset, bind, Except.bind]
  rw [if_neg hw, if_pos hlen]

/-- **The fields are read off their words**, whatever follows them. -/
theorem decodeSessionHead_words {data tail : List UInt8}
    {user nodeId modelId tier locked usage toProvider toProtocol opening openedAt settled input
      output : Word} {ws : List Word}
    (hhead : sessionHeadBytes data = .ok (Word.concat (user :: nodeId :: modelId :: tier :: locked ::
      usage :: toProvider :: toProtocol :: opening :: openedAt :: settled :: input :: output :: ws)
        ++ tail)) :
    decodeSessionHead data = .ok
      { user := user.drop 12
        nodeId
        modelId
        tier := tier.get 31
        lockedInternal := toU128 locked.toNat
        usageRecorded := toU128 usage.toNat
        inputTokensRecorded := BigEndian.decode (input.drop 24).toList
        outputTokensRecorded := BigEndian.decode (output.drop 24).toList
        settled := settled.get 31 ≠ 0 } := by
  generalize hws : user :: nodeId :: modelId :: tier :: locked :: usage :: toProvider ::
    toProtocol :: opening :: openedAt :: settled :: input :: output :: ws = words at hhead
  have hword : ∀ {i : ℕ} {w : Word}, words[i]? = some w →
      word (Word.concat words ++ tail) i = .ok w := fun h => word_concat tail h
  subst hws
  have h₀ := hword (i := 0) rfl
  have h₁ := hword (i := 1) rfl
  have h₂ := hword (i := 2) rfl
  have h₃ := hword (i := 3) rfl
  have h₄ := hword (i := 4) rfl
  have h₅ := hword (i := 5) rfl
  have h₁₀ := hword (i := 10) rfl
  have h₁₁ := hword (i := 11) rfl
  have h₁₂ := hword (i := 12) rfl
  simp only [decodeSessionHead, hhead, addressAt, u256At, u64At, boolAt, h₀, h₁, h₂, h₃, h₄, h₅,
    h₁₀, h₁₁, h₁₂, bind, Except.bind]

theorem sessionHeadBytes_returndata (r : SessionRecord) :
    sessionHeadBytes r.returndata = .ok (Word.concat r.words ++ r.nameBytes) := by
  refine sessionHeadBytes_struct ?_ r.nameBytes
  change 13 ≤ 14
  decide

/-- **The decoder reads the record the getter encodes.** -/
theorem decodeSessionHead_returndata (r : SessionRecord) :
    decodeSessionHead r.returndata = .ok r.toChainSession := by
  have hbyte : UInt8.ofNat r.tier.toNat = r.tier := UInt8.ofNat_toNat
  have hbool : decide (UInt8.ofNat r.settled.toNat ≠ 0) = r.settled := by
    cases r.settled <;> rfl
  rw [decodeSessionHead_words (sessionHeadBytes_returndata r)]
  simp only [Word.drop_ofTail, u256_of_amount, Word.get_ofNat, hbyte, hbool,
    Word.decode_drop_ofNat r.inputTokensRecorded.isLt,
    Word.decode_drop_ofNat r.outputTokensRecorded.isLt]
  rfl

theorem fetchSession_returndata (r : SessionRecord) :
    fetchSession (.ok r.returndata) = .ok r.toChainSession := by
  simp only [fetchSession, bind, Except.bind, decodeSessionHead_returndata]
