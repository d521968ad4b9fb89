/-
**The activation of a session.**

The user of a session asks the router for an API key with a signature over a short message
(`src/consumer/activate.rs`).  The router reads the session's id off the path, checks that the
signature recovers to the session's user, and forwards the request to the session's node, which
answers with the key.  The message that is signed may come with the request; if it does not, it is
the one that names the session and a block.  Only that one is about the session it is used for.

Keccak and the recovery of a public key are parameters.

Main definitions:

* `Activate.parseSessionId` — the session id of a path;
* `Activate.recoverEip191Signer` — the account that has signed a message;
* `Activate.activateSession`, `Activate.activated` — the request that is forwarded, and the answer;
* `Activate.Crypto.Ideal` — a signature is over one message;
* `Activate.AuthorisesOne` — one body is forwarded for one session at most, the one its message
  names;
* `Activate.Tied` — the condition on a body and a session.

Main results:

* `Activate.prefixed_injective` — what is hashed determines the message;
* `Activate.activateSession_eq_ok_iff` — when a request is forwarded;
* `Activate.authorisesOne_iff` — **one signature authorises one session exactly when a message that
  comes with it is accepted for no session but the one it names**.
-/

import SparklRouter.Chain.Session
import SparklRouter.Consumer.Relay
import SparklRouter.Text.Radix
import SparklRouter.Text.Utf8Lossy
import SparklRouter.Tunnel.Disconnect

set_option relaxedAutoImplicit false
set_option autoImplicit false

namespace Activate

open Radix

/-! ### The session id -/

inductive IdError
  | invalidHexNumber (e : ParseIntError)
  | invalidHexBytes
  | notThirtyTwoBytes
  | exceedsU64
  | invalidNumber (e : ParseIntError)
  /-- The text was cut within a character. -/
  | panicked
deriving DecidableEq

/-- `&t[..n]`: the first `n` bytes, if a character ends there. -/
def bytePrefix : ℕ → Text → Option Text
  | 0, _ => some []
  | _ + 1, [] => none
  | n + 1, c :: t =>
      if c.utf8Size ≤ n + 1 then (bytePrefix (n + 1 - c.utf8Size) t).map fun front => c :: front
      else none

/-- `{:0>64}`. -/
def zeroPadded (t : Text) : Text := List.replicate (64 - t.length) '0' ++ t

/-- The id in the 32 bytes of a padded text. -/
def idOfBytes (bytes : List UInt8) : Except IdError UInt64 :=
  if bytes.length ≠ 32 then .error .notThirtyTwoBytes
  else if bytes.take 24 ≠ List.replicate 24 0 then .error .exceedsU64
  else .ok (UInt64.ofNat (BigEndian.decode (bytes.drop 24)))

def parseSessionId (s : Text) : Except IdError UInt64 :=
  let t := Text.trim s
  match Text.stripPrefix "0x".toList t with
  | some hex =>
      let hex := Text.trimStartMatches ['0'] hex
      if hex = [] then .ok 0
      else if Text.utf8Len hex ≤ 16 then
        match fromHexadecimal hex with
        | .ok id => .ok id
        | .error e => .error (.invalidHexNumber e)
      else
        let padded := zeroPadded hex
        match bytePrefix (min 64 (Text.utf8Len padded)) padded with
        | none => .error .panicked
        | some front =>
            match Hex.decode front with
            | none => .error .invalidHexBytes
            | some bytes => idOfBytes bytes
  | none =>
      match parseU64 t with
      | .ok id => .ok id
      | .error e => .error (.invalidNumber e)

/-! ### The signature -/

/-- Keccak-256, and the public key that a signature of 64 bytes over a digest belongs to, as 65
bytes. -/
structure Crypto where
  keccak256 : List UInt8 → List.Vector UInt8 32
  recoverEcdsa : List.Vector UInt8 32 → List UInt8 → UInt8 → Option (List UInt8)

def eip191Prefix : List UInt8 := 0x19 :: Utf8.encode "Ethereum Signed Message:\n".toList

/-- What is hashed of a message. -/
def prefixed (message : List UInt8) : List UInt8 :=
  eip191Prefix ++ Utf8.encode (decimal message.length) ++ message

section

variable (crypto : Crypto)

def eip191Hash (message : List UInt8) : List.Vector UInt8 32 := crypto.keccak256 (prefixed message)

def recoverEip191Signer (message : List UInt8) (sigHex : Text) : Option Address :=
  match Hex.decode ((Text.stripPrefix "0x".toList sigHex).getD sigHex) with
  | none => none
  | some sigBytes =>
      if sigBytes.length ≠ 65 then none
      else
        let v := sigBytes.getD 64 0
        let recByte := if 27 ≤ v then v - 27 else v
        (crypto.recoverEcdsa (eip191Hash crypto message) (sigBytes.take 64) (recByte &&& 3)).map
          fun pubkey => (crypto.keccak256 (pubkey.drop 1)).drop 12

/-! ### The request -/

structure ActivateBody where
  signature : Text
  blockNumber : UInt64
  message : Option Text

/-- What a request meets: the sessions on the chain, the nodes that are connected, and what becomes
of a frame on its way to a node. -/
structure Surroundings where
  getSession : UInt64 → Except Text ChainSession
  connected : NodeId → Bool
  send : NodeId → Except Text Unit

/-- How a request ends without a key. -/
inductive Refusal
  | reply (status : UInt16) (message : Text)
  /-- The handler has panicked. -/
  | panicked
deriving DecidableEq

/-- The answer to a path without a session id; what the hex library says is left out. -/
def IdError.refusal : IdError → Refusal
  | .invalidHexNumber e => .reply 400 ("invalid session id hex: ".toList ++ e.text)
  | .invalidHexBytes => .reply 400 "invalid session id hex: ".toList
  | .notThirtyTwoBytes => .reply 400 "session id must be 32 bytes".toList
  | .exceedsU64 => .reply 400 "session id exceeds u64 range".toList
  | .invalidNumber e => .reply 400 ("invalid session id: ".toList ++ e.text)
  | .panicked => .panicked

/-- The message that names a session and a block. -/
def activateMessage (sessionId blockNumber : UInt64) : Text :=
  "sparkl-activate:".toList ++ (decimal sessionId.toNat ++ ':' :: decimal blockNumber.toNat)

/-- The message that is checked. -/
def messageOf (sessionId : UInt64) (body : ActivateBody) : Text :=
  body.message.getD (activateMessage sessionId body.blockNumber)

/-- `0x{:064x}`. -/
def sessionIdHex (sessionId : UInt64) : Text :=
  "0x".toList ++ Hex.encode (BigEndian.encode 32 sessionId.toNat)

/-- What has been forwarded, and to which node. -/
structure Forwarded where
  nodeId : NodeId
  sessionId : Text
  signature : Text
  blockNumber : UInt64
  message : Text

def Forwarded.call (f : Forwarded) : Disconnect.Call :=
  .forwardActivate f.sessionId f.signature f.blockNumber (some f.message)

/-- `activate_session` up to the wait for the key. -/
def activateSession (around : Surroundings) (path : Text) (body : ActivateBody) :
    Except Refusal Forwarded :=
  match parseSessionId path with
  | .error e => .error e.refusal
  | .ok sessionId =>
      match around.getSession sessionId with
      | .error e => .error (.reply 401 e)
      | .ok chainSess =>
          if chainSess.isOpen = false then .error (.reply 401 "session not open".toList)
          else
            let message := messageOf sessionId body
            match recoverEip191Signer crypto (Utf8.encode message) body.signature with
            | none => .error (.reply 401 "invalid signature".toList)
            | some recovered =>
                if recovered ≠ chainSess.user then
                  .error (.reply 401 "signature must recover to session user".toList)
                else if around.connected chainSess.nodeId = false then
                  .error (.reply 503 "provider offline".toList)
                else
                  match around.send chainSess.nodeId with
                  | .error e => .error (.reply 502 e)
                  | .ok () =>
                      .ok ⟨chainSess.nodeId, sessionIdHex sessionId, body.signature,
                        body.blockNumber, message⟩

/-- The wait for the key, on the frames that come in time. -/
def awaitApiKey (ending : Relay.Ending) : List Tunnel.InboundFrame → Except Refusal Text
  | [] =>
      match ending with
      | .closed => .error (.reply 502 "activate closed without response".toList)
      | .timedOut => .error (.reply 504 "activate timeout".toList)
  | .activateResponse apiKey :: _ => .ok apiKey
  | .error _ message :: _ => .error (.reply 502 ("activate error: ".toList ++ message))
  | _ :: frames => awaitApiKey ending frames

/-- `activate_session`: the API key, and the id of the session it is for. -/
def activated (around : Surroundings) (path : Text) (body : ActivateBody)
    (frames : List Tunnel.InboundFrame) (ending : Relay.Ending) : Except Refusal (Text × Text) := do
  let forwarded ← activateSession crypto around path body
  let apiKey ← awaitApiKey ending frames
  .ok (apiKey, forwarded.sessionId)

end

/-! ### What a message is about -/

/-- The message names the session. -/
def Names (message : Text) (sessionId : UInt64) : Prop :=
  ∃ blockNumber, message = activateMessage sessionId blockNumber

/-- A message names one session at most. -/
theorem names_injective {message : Text} {a b : UInt64} (ha : Names message a)
    (hb : Names message b) : a = b := by
  obtain ⟨blockA, rfl⟩ := ha
  obtain ⟨blockB, hsame⟩ := hb
  have hcolon : ':'.isDigit = false := by decide
  have hid := (decimal_append_inj hcolon (List.append_cancel_left hsame)).1
  exact UInt64.toNat_inj.1 hid

/-- **What is hashed determines the message.** -/
theorem prefixed_injective {m m' : List UInt8} (h : prefixed m = prefixed m') : m = m' := by
  unfold prefixed at h
  rw [List.append_assoc, List.append_assoc] at h
  have hrest := List.append_cancel_left h
  -- digits take one byte each, so the length in front can be read off
  have hencode : ∀ n, Utf8.encode (decimal n) =
      (decimal n).map fun c => UInt8.ofNat c.val.toNat := by
    intro n
    have hdigit := @isDigit_of_mem_decimal n
    unfold Utf8.encode
    generalize decimal n = digits at hdigit
    induction digits with
    | nil => rfl
    | cons c digits ih =>
        have hone : String.utf8EncodeChar c = [UInt8.ofNat c.val.toNat] := by
          have hc := hdigit List.mem_cons_self
          rw [Char.isDigit, Bool.and_eq_true, decide_eq_true_eq, decide_eq_true_eq] at hc
          have hle := UInt32.le_iff_toNat_le.1 hc.2
          rw [String.utf8EncodeChar, if_pos (hle.trans (by decide))]
        rw [List.flatMap_cons, hone, ih fun hc => hdigit (List.mem_cons_of_mem c hc)]
        rfl
  rw [hencode, hencode] at hrest
  exact decimal_length_inj hrest

/-! ### One signature, one session -/

/-- **Recovery is ideal**: it gives an account only for the message that the account's owner has made
the signature for. -/
def Crypto.Ideal (crypto : Crypto) : Prop :=
  ∃ signed : Address → Text → Option (List UInt8), ∀ message sigHex account,
    recoverEip191Signer crypto message sigHex = some account →
    signed account sigHex = some message

/-- The request is forwarded for the session with this message. -/
structure Accepted (crypto : Crypto) (around : Surroundings) (s : ChainSession) (message : Text)
    (body : ActivateBody) : Prop where
  recovers : recoverEip191Signer crypto (Utf8.encode message) body.signature = some s.user
  connected : around.connected s.nodeId = true
  sent : around.send s.nodeId = .ok ()

/-- **One body is forwarded for one session at most, the one its message names.** -/
structure AuthorisesOne (a b : UInt64) (forA forB : Except Refusal Forwarded) : Prop where
  notBoth : ¬ ((∃ f, forA = .ok f) ∧ ∃ f, forB = .ok f)
  left : ∀ f, forA = .ok f → Names f.message a
  right : ∀ f, forB = .ok f → Names f.message b

/-- A message that comes with the body names the session, or is not accepted for it. -/
def Tied (crypto : Crypto) (around : Surroundings) (sessionId : UInt64) (s : ChainSession)
    (body : ActivateBody) : Prop :=
  ∀ message, body.message = some message →
    Names message sessionId ∨ ¬ Accepted crypto around s message body

section

variable {crypto : Crypto} {around : Surroundings} {path : Text} {sessionId : UInt64}
  {s : ChainSession}

/-- **When a request is forwarded.** -/
theorem activateSession_eq_ok_iff (hpath : parseSessionId path = .ok sessionId)
    (hget : around.getSession sessionId = .ok s) (hopen : s.isOpen = true) (body : ActivateBody)
    (f : Forwarded) :
    activateSession crypto around path body = .ok f ↔
      Accepted crypto around s (messageOf sessionId body) body ∧
        f = ⟨s.nodeId, sessionIdHex sessionId, body.signature, body.blockNumber,
          messageOf sessionId body⟩ := by
  have hnot : ¬ s.isOpen = false := by simp [hopen]
  simp only [activateSession, hpath, hget, if_neg hnot]
  constructor
  · intro h
    split at h
    · cases h
    · rename_i recovered hrecovered
      split_ifs at h with huser hconnected
      split at h
      · cases h
      · rename_i hsent
        refine ⟨⟨?_, by simpa using hconnected, hsent⟩, (Except.ok.inj h).symm⟩
        rw [hrecovered, not_not.1 huser]
  · rintro ⟨⟨hrecovers, hconnected, hsent⟩, rfl⟩
    simp [hrecovers, hconnected, hsent]

theorem exists_forwarded_iff (hpath : parseSessionId path = .ok sessionId)
    (hget : around.getSession sessionId = .ok s) (hopen : s.isOpen = true) (body : ActivateBody) :
    (∃ f, activateSession crypto around path body = .ok f) ↔
      Accepted crypto around s (messageOf sessionId body) body := by
  simp only [activateSession_eq_ok_iff hpath hget hopen]
  exact ⟨fun ⟨f, h, _⟩ => h, fun h => ⟨_, h, rfl⟩⟩

/-- What is forwarded names its session exactly when its message is tied to it. -/
theorem names_forwarded_iff (hpath : parseSessionId path = .ok sessionId)
    (hget : around.getSession sessionId = .ok s) (hopen : s.isOpen = true) (body : ActivateBody) :
    (∀ f, activateSession crypto around path body = .ok f → Names f.message sessionId) ↔
      Tied crypto around sessionId s body := by
  simp only [activateSession_eq_ok_iff hpath hget hopen]
  constructor
  · intro h message hmessage
    have hsame : messageOf sessionId body = message := by rw [messageOf, hmessage]; rfl
    by_cases haccepted : Accepted crypto around s message body
    · refine Or.inl ?_
      rw [← hsame] at haccepted ⊢
      exact h _ ⟨haccepted, rfl⟩
    · exact Or.inr haccepted
  · rintro h f ⟨haccepted, rfl⟩
    cases hmessage : body.message with
    | none =>
        refine ⟨body.blockNumber, ?_⟩
        rw [messageOf, hmessage]
        rfl
    | some message =>
        have hsame : messageOf sessionId body = message := by rw [messageOf, hmessage]; rfl
        rw [hsame] at haccepted ⊢
        exact (h message hmessage).resolve_right fun hnot => hnot haccepted

end

/-- **One signature authorises one session exactly when a message that comes with it is accepted for
no session but the one it names.** -/
theorem authorisesOne_iff {crypto : Crypto} (hideal : crypto.Ideal) {aroundA aroundB : Surroundings}
    {pathA pathB : Text} {a b : UInt64} (hne : a ≠ b) (hpathA : parseSessionId pathA = .ok a)
    (hpathB : parseSessionId pathB = .ok b) {sA sB : ChainSession}
    (hgetA : aroundA.getSession a = .ok sA) (hgetB : aroundB.getSession b = .ok sB)
    (hopenA : sA.isOpen = true) (hopenB : sB.isOpen = true) (huser : sA.user = sB.user)
    (body : ActivateBody) :
    AuthorisesOne a b (activateSession crypto aroundA pathA body)
        (activateSession crypto aroundB pathB body) ↔
      Tied crypto aroundA a sA body ∧ Tied crypto aroundB b sB body := by
  have hleft := @names_forwarded_iff crypto _ _ _ _ hpathA hgetA hopenA body
  have hright := @names_forwarded_iff crypto _ _ _ _ hpathB hgetB hopenB body
  constructor
  · intro h
    exact ⟨hleft.1 h.left, hright.1 h.right⟩
  · rintro ⟨hA, hB⟩
    refine ⟨?_, hleft.2 hA, hright.2 hB⟩
    rintro ⟨⟨f, hf⟩, g, hg⟩
    -- both messages recover to the user, so they are one, and it names both sessions
    have hnamesA := hleft.2 hA f hf
    have hnamesB := hright.2 hB g hg
    obtain ⟨⟨hrecoversA, -, -⟩, rfl⟩ := (activateSession_eq_ok_iff hpathA hgetA hopenA body f).1 hf
    obtain ⟨⟨hrecoversB, -, -⟩, rfl⟩ := (activateSession_eq_ok_iff hpathB hgetB hopenB body g).1 hg
    obtain ⟨signed, hsigned⟩ := hideal
    have hmessageA := hsigned _ _ _ hrecoversA
    have hmessageB := hsigned _ _ _ hrecoversB
    rw [huser, hmessageB, Option.some.injEq] at hmessageA
    have hsame := Utf8.encode_injective hmessageA
    rw [hsame] at hnamesB
    exact hne (names_injective hnamesA hnamesB)

/-! ### A signature that is used twice

The values are those of Keccak-256 and of the curve for one key and one message; everywhere else the
sample functions are arbitrary. -/

def sampleMessage : Text := "sparkl-activate:1:24".toList

def sampleDigest : List.Vector UInt8 32 :=
  NodeAuth.bytes32 "fe3dc954b22545ba47519831aad9f51cb792872e826ce444e8ae26cacc899f7f"

def samplePubkey : List UInt8 :=
  4 :: (NodeAuth.bytes32
      "466d7fcae563e5cb09a0d1870bb580344804617879a14949cf22285f1bae3f27").toList ++
    (NodeAuth.bytes32
      "6728176c3c6431f8eeda4538dc37c865e2784f3a9e77d044f33e407797e1278a").toList

/-- The hash of the key; the account is its end. -/
def samplePubkeyHash : List.Vector UInt8 32 :=
  NodeAuth.bytes32 "85b1f044bab6d30f3a19c1501563915e194d8cfba1943570603f7606a3115508"

def sampleSignature : String :=
  "9272c852bd26aece039571f4c2f7b93b8bb6feb7c1592067e22f307394518a87" ++
    "2b50676ce41a077dc78bcb4b0ea706cbf9b40493e88cafb6a09c7070c1807e5b"

def sampleCrypto : Crypto where
  keccak256 l :=
    if l = prefixed (Utf8.encode sampleMessage) then sampleDigest
    else if l = samplePubkey.drop 1 then samplePubkeyHash
    else List.Vector.replicate 32 0
  recoverEcdsa digest compact recid :=
    if digest = sampleDigest ∧ Hex.decode sampleSignature.toList = some compact ∧ recid = 1 then
      some samplePubkey
    else none

theorem ideal_sampleCrypto : sampleCrypto.Ideal := by
  refine ⟨fun _ _ => some (Utf8.encode sampleMessage), fun message sigHex account h => ?_⟩
  have hdigest : eip191Hash sampleCrypto message = sampleDigest := by
    unfold recoverEip191Signer at h
    split at h
    · cases h
    · split_ifs at h
      obtain ⟨pubkey, hpubkey, -⟩ := Option.map_eq_some_iff.1 h
      simp only [sampleCrypto, Option.ite_none_right_eq_some] at hpubkey
      exact hpubkey.1.1
  have hother : samplePubkeyHash ≠ sampleDigest := by decide +kernel
  have hzero : List.Vector.replicate 32 0 ≠ sampleDigest := by decide +kernel
  simp only [eip191Hash, sampleCrypto] at hdigest
  split_ifs at hdigest with hmessage hkey
  · rw [prefixed_injective hmessage]
  · exact absurd hdigest hother
  · exact absurd hdigest hzero

/-- The user's sessions, all at one node. -/
def sampleSession : ChainSession where
  user := samplePubkeyHash.drop 12
  nodeId := List.Vector.replicate 32 1
  modelId := List.Vector.replicate 32 0
  tier := 0
  lockedInternal := 1000
  usageRecorded := 0
  inputTokensRecorded := 0
  outputTokensRecorded := 0
  settled := false

def sampleSurroundings : Surroundings where
  getSession _ := .ok sampleSession
  connected _ := true
  send _ := .ok ()

/-- The signature as a wallet encodes it. -/
def sampleActivation (message : Option Text) : ActivateBody where
  signature := sampleSignature.toList ++ "1c".toList
  blockNumber := 24
  message := message

theorem parseSessionId_sample :
    parseSessionId "1".toList = .ok 1 ∧ parseSessionId "0x2".toList = .ok 2 := by
  decide +kernel

/-- The message names the first session. -/
theorem authorisesOne_sampleActivation :
    AuthorisesOne 1 2
      (activateSession sampleCrypto sampleSurroundings "1".toList (sampleActivation none))
      (activateSession sampleCrypto sampleSurroundings "0x2".toList (sampleActivation none)) := by
  refine (authorisesOne_iff ideal_sampleCrypto (by decide) parseSessionId_sample.1
    parseSessionId_sample.2 rfl rfl (by decide +kernel) (by decide +kernel) rfl _).2 ⟨?_, ?_⟩
  · intro message hmessage
    cases hmessage
  · intro message hmessage
    cases hmessage

/-- **One signature is forwarded for two sessions.** -/
theorem authorisesOne_breaks :
    ¬ ∀ (crypto : Crypto) (aroundA aroundB : Surroundings) (pathA pathB : Text) (a b : UInt64)
      (sA sB : ChainSession) (body : ActivateBody), crypto.Ideal → a ≠ b →
      parseSessionId pathA = .ok a → parseSessionId pathB = .ok b →
      aroundA.getSession a = .ok sA → aroundB.getSession b = .ok sB → sA.isOpen = true →
      sB.isOpen = true → sA.user = sB.user →
      AuthorisesOne a b (activateSession crypto aroundA pathA body)
        (activateSession crypto aroundB pathB body) := by
  intro hall
  have hopen : sampleSession.isOpen = true := by decide +kernel
  have haccepted : Accepted sampleCrypto sampleSurroundings sampleSession sampleMessage
      (sampleActivation (some sampleMessage)) :=
    ⟨by decide +kernel, rfl, rfl⟩
  have h := hall sampleCrypto sampleSurroundings sampleSurroundings "1".toList "0x2".toList 1 2
    sampleSession sampleSession (sampleActivation (some sampleMessage)) ideal_sampleCrypto
    (by decide) parseSessionId_sample.1 parseSessionId_sample.2 rfl rfl hopen hopen rfl
  exact h.notBoth ⟨(exists_forwarded_iff parseSessionId_sample.1 rfl hopen _).2 haccepted,
    (exists_forwarded_iff parseSessionId_sample.2 rfl hopen _).2 haccepted⟩

end Activate
