/-
**The connect handshake of a node.**

A node connects over a web socket, receives a challenge, and answers with an `auth` frame that names
a node id, an Ed25519 key and a signature (`src/node_auth.rs`, the first half of
`handle_node_connect` in `src/tunnel/connect.rs`).  The handshake is a chain of independent checks:
each closes the connection when it fails, and the connection is accepted when all pass.  Keccak-256
and Ed25519 are parameters.

Main definitions:

* `NodeAuth.parseNodeIdHex`, `NodeAuth.decodePubkey`, `NodeAuth.verifyConnectSignature`,
  `NodeAuth.normalizeTunnelMoniker` — the checks;
* `NodeAuth.handshake` — all of them, in the order of the source;
* `NodeAuth.Passes` — the checks as one predicate on the input.

Main results:

* `NodeAuth.handshake_eq_ok_iff` — **a connection is accepted exactly when the checks pass**;
* `NodeAuth.parseNodeIdHex_nodeIdHex` — a printed node id is read back;
* `NodeAuth.Passes.withNodeId` — of the checks, only that of the registry looks at the node id.
-/

import Mathlib.Data.Vector.Defs
import SparklRouter.Text.Hex

set_option relaxedAutoImplicit false
set_option autoImplicit false

/-- A node id: 32 bytes. -/
abbrev NodeId := List.Vector UInt8 32

namespace NodeAuth

/-! ### Data -/

/-- The cryptography the handshake rests on. -/
structure Crypto where
  keccak256 : List UInt8 → List.Vector UInt8 32
  /-- Whether the bytes are a verifying key. -/
  validKey : List.Vector UInt8 32 → Bool
  verify : List.Vector UInt8 32 → List.Vector UInt8 32 → List.Vector UInt8 64 → Bool

/-- Reading bytes of a fixed length from hexadecimal fails on the digits or on the length. -/
inductive BytesError
  | invalidHex
  | wrongLength
deriving DecidableEq

inductive SignatureError
  | invalidHex
  | wrongLength
  | invalidPubkey
  | verificationFailed
deriving DecidableEq

/-- The fields of an `auth` frame. -/
structure AuthFrame where
  nodeId : Text
  signature : Text
  ed25519Pubkey : Option Text
  moniker : Option Text
deriving DecidableEq

/-- Why a connection is not accepted. -/
inductive Rejection
  | blockUnavailable
  | challengeNotSent
  | noAuth
  | expectedAuth
  | invalidNodeId (e : BytesError)
  | missingPubkey
  | invalidPubkey (e : BytesError)
  | badSignature (e : SignatureError)
  | invalidMoniker
  | notRegistered
  | registryCheckFailed
deriving DecidableEq

/-- What an accepted connection goes on with, and the key that signed. -/
structure Accepted where
  nodeId : NodeId
  moniker : Option Text
  pubkey : List.Vector UInt8 32
deriving DecidableEq

/-- The input of a handshake: the configuration, the answers of the chain, the random nonce, and
what comes over the socket. -/
structure Handshake where
  chainEnabled : Bool
  latestBlock : Option UInt64
  nonce : List.Vector UInt8 32
  challengeSent : Bool
  /-- The first text: nothing when the socket closes before, and no frame when it does not parse as
  an `auth` frame. -/
  received : Option (Option AuthFrame)
  isNodeRegistered : NodeId → Option Bool

/-! ### The checks -/

def connectDomain : List UInt8 := "sparkl-router-connect:".toList.map fun c => UInt8.ofNat c.toNat

def beBytes (n : UInt64) : List UInt8 :=
  [56, 48, 40, 32, 24, 16, 8, 0].map fun k : UInt64 => (n >>> k).toUInt8

/-- The 32 bytes a node must sign. -/
def connectChallengePayload (crypto : Crypto) (nonce : List.Vector UInt8 32) (blockNumber : UInt64) :
    List.Vector UInt8 32 :=
  crypto.keccak256 (connectDomain ++ nonce.toList ++ beBytes blockNumber)

/-- The binding of a node id to a key. -/
def nodeIdFromEd25519Pubkey (crypto : Crypto) (pubkey : List.Vector UInt8 32) : NodeId :=
  crypto.keccak256 pubkey.toList

/-- Bytes of the length `n`. -/
def ofLength (n : ℕ) (bs : List UInt8) : Option (List.Vector UInt8 n) :=
  if h : bs.length = n then some ⟨bs, h⟩ else none

def hexPrefix : Text := "0x".toList

/-- 32 bytes in hexadecimal, with white space around and a prefix that may be missing. -/
def bytes32OfHex (t : Text) : Except BytesError (List.Vector UInt8 32) :=
  match Hex.decode ((Text.stripPrefix hexPrefix (Text.trim t)).getD (Text.trim t)) with
  | none => .error .invalidHex
  | some bs =>
      match ofLength 32 bs with
      | none => .error .wrongLength
      | some v => .ok v

def parseNodeIdHex (nodeId : Text) : Except BytesError NodeId := bytes32OfHex nodeId

def nodeIdHex (nodeId : NodeId) : Text := hexPrefix ++ Hex.encode nodeId.toList

def decodePubkey (hexPk : Text) : Except BytesError (List.Vector UInt8 32) := bytes32OfHex hexPk

def verifyConnectSignature (crypto : Crypto) (payload : List.Vector UInt8 32) (signatureHex : Text)
    (pubkey : List.Vector UInt8 32) : Except SignatureError Unit :=
  match Hex.decode (Text.trimStartMatches hexPrefix signatureHex) with
  | none => .error .invalidHex
  | some bs =>
      match ofLength 64 bs with
      | none => .error .wrongLength
      | some signature =>
          if crypto.validKey pubkey then
            if crypto.verify pubkey payload signature then .ok ()
            else .error .verificationFailed
          else .error .invalidPubkey

def maxMonikerLen : ℕ := 128

def normalizeTunnelMoniker : Option Text → Except Unit (Option Text)
  | none => .ok none
  | some s =>
      let m := Text.trim s
      if m = [] then .ok none
      else if Text.utf8Len m > maxMonikerLen then .error ()
      else .ok (some m)

/-- The last check: with the chain enabled, the node has to be registered. -/
def checkRegistered (h : Handshake) (a : Accepted) : Except Rejection Accepted :=
  if h.chainEnabled then
    match h.isNodeRegistered a.nodeId with
    | some true => .ok a
    | some false => .error .notRegistered
    | none => .error .registryCheckFailed
  else .ok a

/-- The checks on the `auth` frame, for a challenge with the given block. -/
def authenticate (crypto : Crypto) (h : Handshake) (block : UInt64) (f : AuthFrame) :
    Except Rejection Accepted :=
  match parseNodeIdHex f.nodeId with
  | .error e => .error (.invalidNodeId e)
  | .ok nodeId =>
      match f.ed25519Pubkey with
      | none => .error .missingPubkey
      | some hexPk =>
          match decodePubkey hexPk with
          | .error e => .error (.invalidPubkey e)
          | .ok pubkey =>
              match verifyConnectSignature crypto (connectChallengePayload crypto h.nonce block)
                f.signature pubkey with
              | .error e => .error (.badSignature e)
              | .ok _ =>
                  match normalizeTunnelMoniker f.moniker with
                  | .error _ => .error .invalidMoniker
                  | .ok moniker => checkRegistered h ⟨nodeId, moniker, pubkey⟩

/-- `handle_node_connect` up to the point where the tunnel is set up. -/
def handshake (crypto : Crypto) (h : Handshake) : Except Rejection Accepted :=
  match h.latestBlock with
  | none => .error .blockUnavailable
  | some block =>
      if h.challengeSent then
        match h.received with
        | none => .error .noAuth
        | some none => .error .expectedAuth
        | some (some f) => authenticate crypto h block f
      else .error .challengeNotSent

/-! ### The checks as one predicate -/

/-- The node may connect as far as the registry is concerned. -/
def Registered (h : Handshake) (nodeId : NodeId) : Prop :=
  h.chainEnabled = true → h.isNodeRegistered nodeId = some true

/-- The checks on everything but the node id: the frame is signed by the key over this connection's
challenge, and its moniker is in order. -/
structure Signs (crypto : Crypto) (h : Handshake) (f : AuthFrame) (moniker : Option Text)
    (pubkey : List.Vector UInt8 32) : Prop where
  sent : h.challengeSent = true
  received : h.received = some (some f)
  key : ∃ t, f.ed25519Pubkey = some t ∧ decodePubkey t = .ok pubkey
  signature : ∃ block, h.latestBlock = some block ∧
    verifyConnectSignature crypto (connectChallengePayload crypto h.nonce block) f.signature pubkey
      = .ok ()
  moniker : normalizeTunnelMoniker f.moniker = .ok moniker

/-- The checks pass, for the given node id, moniker and key. -/
structure Passes (crypto : Crypto) (h : Handshake) (a : Accepted) : Prop where
  frame : ∃ f, Signs crypto h f a.moniker a.pubkey ∧ parseNodeIdHex f.nodeId = .ok a.nodeId
  registered : Registered h a.nodeId

theorem checkRegistered_eq_ok_iff {h : Handshake} {a b : Accepted} :
    checkRegistered h b = .ok a ↔ b = a ∧ Registered h b.nodeId := by
  unfold checkRegistered Registered
  cases hc : h.chainEnabled with
  | false => simp
  | true =>
      cases hr : h.isNodeRegistered b.nodeId with
      | none => simp
      | some r => cases r <;> simp

theorem authenticate_eq_ok_iff {crypto : Crypto} {h : Handshake} {block : UInt64} {f : AuthFrame}
    {a : Accepted} : authenticate crypto h block f = .ok a ↔
      parseNodeIdHex f.nodeId = .ok a.nodeId ∧
      (∃ t, f.ed25519Pubkey = some t ∧ decodePubkey t = .ok a.pubkey) ∧
      verifyConnectSignature crypto (connectChallengePayload crypto h.nonce block) f.signature
        a.pubkey = .ok () ∧
      normalizeTunnelMoniker f.moniker = .ok a.moniker ∧ Registered h a.nodeId := by
  constructor
  · intro hok
    unfold authenticate at hok
    split at hok
    · cases hok
    · rename_i nodeId hid
      split at hok
      · cases hok
      · rename_i t ht
        split at hok
        · cases hok
        · rename_i pubkey hpk
          split at hok
          · cases hok
          · rename_i u hsig
            split at hok
            · cases hok
            · rename_i moniker hm
              obtain ⟨rfl, hreg⟩ := checkRegistered_eq_ok_iff.1 hok
              exact ⟨hid, ⟨t, ht, hpk⟩, hsig, hm, hreg⟩
  · rintro ⟨hid, ⟨t, ht, hpk⟩, hsig, hm, hreg⟩
    unfold authenticate
    simp only [hid, ht, hpk, hsig, hm]
    exact checkRegistered_eq_ok_iff.2 ⟨rfl, hreg⟩

/-- **A connection is accepted exactly when the checks pass.** -/
theorem handshake_eq_ok_iff {crypto : Crypto} {h : Handshake} {a : Accepted} :
    handshake crypto h = .ok a ↔ Passes crypto h a := by
  constructor
  · intro hok
    unfold handshake at hok
    split at hok
    · cases hok
    · rename_i block hblock
      split at hok
      · rename_i hsent
        split at hok
        · cases hok
        · cases hok
        · rename_i f hf
          obtain ⟨hid, hkey, hsig, hm, hreg⟩ := authenticate_eq_ok_iff.1 hok
          exact ⟨⟨f, ⟨hsent, hf, hkey, ⟨block, hblock, hsig⟩, hm⟩, hid⟩, hreg⟩
      · cases hok
  · rintro ⟨⟨f, ⟨hsent, hf, hkey, ⟨block, hblock, hsig⟩, hm⟩, hid⟩, hreg⟩
    unfold handshake
    simp only [hblock, hsent, hf, if_true]
    exact authenticate_eq_ok_iff.2 ⟨hid, hkey, hsig, hm, hreg⟩

/-! ### The node id in the frame -/

/-- A printed node id is read back. -/
theorem parseNodeIdHex_nodeIdHex (id : NodeId) : parseNodeIdHex (nodeIdHex id) = .ok id := by
  have hspace : ∀ c ∈ nodeIdHex id, Text.isWhitespace c = false := by
    intro c hc
    rcases List.mem_append.1 hc with hc | hc
    · have hall : hexPrefix.all (fun c => !Text.isWhitespace c) = true := by decide
      simpa using List.all_eq_true.1 hall c hc
    · exact Hex.isWhitespace_encode c hc
  obtain ⟨bs, hbs⟩ := id
  have hstrip : Text.stripPrefix hexPrefix (nodeIdHex ⟨bs, hbs⟩) = some (Hex.encode bs) :=
    Text.stripPrefix_append _ _
  have hdecode : Hex.decode (Hex.encode bs) = some bs := Hex.decode_encode bs
  rw [parseNodeIdHex, bytes32OfHex, Text.trim_eq_self hspace, hstrip]
  simp only [Option.getD_some, hdecode, ofLength, hbs, dif_pos]

theorem nodeIdHex_injective {n m : NodeId} (h : nodeIdHex n = nodeIdHex m) : n = m := by
  have hread := parseNodeIdHex_nodeIdHex n
  rw [h, parseNodeIdHex_nodeIdHex] at hread
  exact (Except.ok.inj hread).symm

/-- The same frame with another node id. -/
def AuthFrame.withNodeId (f : AuthFrame) (id : NodeId) : AuthFrame :=
  { f with nodeId := nodeIdHex id }

/-- The same handshake, with another node id in the frame. -/
def Handshake.withNodeId (h : Handshake) (id : NodeId) : Handshake :=
  { h with received := h.received.map fun o => o.map fun f => f.withNodeId id }

/-- **Of the checks, only that of the registry looks at the node id**: with another node id in the
frame they pass for that id whenever it is registered. -/
theorem Passes.withNodeId {crypto : Crypto} {h : Handshake} {a : Accepted} (hp : Passes crypto h a)
    {id : NodeId} (hreg : Registered h id) :
    Passes crypto (h.withNodeId id) { a with nodeId := id } := by
  obtain ⟨⟨f, hsigns, hid⟩, -⟩ := hp
  refine ⟨⟨f.withNodeId id, ⟨hsigns.sent, ?_, hsigns.key, hsigns.signature, hsigns.moniker⟩,
    parseNodeIdHex_nodeIdHex id⟩, hreg⟩
  simp [Handshake.withNodeId, hsigns.received]

/-! ### A key pair

The handshakes on fixed inputs below this module are made with one Ed25519 key.  The values are
those of Keccak-256 and of the signature scheme; everywhere else the sample functions are
arbitrary. -/

def bytes32 (hex : String) : List.Vector UInt8 32 :=
  match bytes32OfHex hex.toList with
  | .ok v => v
  | .error _ => List.Vector.replicate 32 0

def samplePubkey : String := "d75a980182b10ab7d54bfed3c964073a0ee172f3daa62325af021a68f707511a"

/-- The node id bound to the key. -/
def sampleNodeId : NodeId :=
  bytes32 "9ee7c09b8464028b2cd406f7f7cc70adc63659b5d37671dc2b588db32446684a"

/-- The node id bound to another key. -/
def otherNodeId : NodeId :=
  bytes32 "9246dafcd8aa80dae7ee33f06c87813fdfc7b0f59e46c29459bc6fea12923ba7"

/-- A nonce with the challenge it gives for block 42 and the signature of the key over it. -/
structure SampleChallenge where
  nonce : List.Vector UInt8 32
  challenge : List.Vector UInt8 32
  signature : String

def challenge7 : SampleChallenge where
  nonce := List.Vector.replicate 32 7
  challenge := bytes32 "aa9a507af19bfb45d3ea7a4e39b72f164c52fb7e519b4394a175b11870f0dde5"
  signature := "fc8a9bf10406a835fc6c57899a7e9591eb630ef32f99cda326f0d1eb998b0d0e" ++
    "dda765795c79be07d863c2bf50fcad693fdc5710e1161f08f384150395974205"

def challenge9 : SampleChallenge where
  nonce := List.Vector.replicate 32 9
  challenge := bytes32 "4aab59f7c05c71d144a64eb8db7ea3dd1da6965a3fa9bf52d48c0a65cf628dcd"
  signature := "74cc0e467a17f1b417d18b0a9b8596de6ed6bfb11abf98750e2b67f65d853ab3" ++
    "6ed51a6fa2e33691369c2567816c68cb386c0ddff90c304bba8b0a6548f1f50a"

/-- Whether the signature is that of the key over the challenge. -/
def SampleChallenge.signed (c : SampleChallenge) (payload : List.Vector UInt8 32)
    (signature : List.Vector UInt8 64) : Bool :=
  decide (payload = c.challenge) &&
    decide (Hex.decode c.signature.toList = some signature.toList)

def sampleCrypto : Crypto where
  keccak256 l :=
    if l = connectDomain ++ challenge7.nonce.toList ++ beBytes 42 then challenge7.challenge
    else if l = connectDomain ++ challenge9.nonce.toList ++ beBytes 42 then challenge9.challenge
    else if l = (bytes32 samplePubkey).toList then sampleNodeId
    else List.Vector.replicate 32 0
  validKey _ := true
  verify key payload signature :=
    decide (key = bytes32 samplePubkey) &&
      (challenge7.signed payload signature || challenge9.signed payload signature)

/-- The handshake in which the key answers the challenge and names the node id. -/
def SampleChallenge.handshake (c : SampleChallenge) (id : NodeId) : Handshake where
  chainEnabled := true
  latestBlock := some 42
  nonce := c.nonce
  challengeSent := true
  received := some (some ⟨nodeIdHex id, c.signature.toList, some samplePubkey.toList, none⟩)
  isNodeRegistered _ := some true

/-- The key is accepted under its own node id. -/
example : handshake sampleCrypto (challenge7.handshake sampleNodeId) =
    .ok ⟨sampleNodeId, none, bytes32 samplePubkey⟩ := by decide +kernel

end NodeAuth
