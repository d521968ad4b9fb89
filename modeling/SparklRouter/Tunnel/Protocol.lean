/-
**The frames between the router and a node.**

Everything that goes over the web socket of a node is a JSON text of one frame
(`src/protocol.rs`).  Both enumerations are tagged by a member `type` and derive their readers and
writers; the router writes `RouterToNodeFrame` and reads `NodeToRouterFrame`, a node the other way
round.  The JSON of texts and the texts of the request ids are those of libraries, and parameters here;
the parser of a frame is one that keeps a name that is repeated.

Main definitions:

* `Protocol.NodeToRouterFrame`, `Protocol.RouterToNodeFrame` — the frames;
* `Protocol.nodeFrames`, `Protocol.routerFrames` — how they are written and read;
* `Protocol.NodeToRouterFrame.parse`, `Protocol.RouterToNodeFrame.toJson` — what the router reads and
  writes;
* `Protocol.received` — the first text of a node, as the handshake takes it;
* `Protocol.hyphenated` — request ids in hexadecimal digits, for tests.

Main results:

* `Protocol.NodeToRouterFrame.parse_of_spells` — **a frame is read from whatever a node may write for it**;
* `Protocol.RouterToNodeFrame.read_toJson` — what the router writes for a frame is read as that frame;
* `Protocol.received_of_spells` — the handshake has the frame that the first text stands for.
-/

import SparklRouter.NodeAuth
import SparklRouter.Text.Digits
import SparklRouter.Text.JsonText
import SparklRouter.Text.Tagged
import SparklRouter.Tunnel.Dispatch

set_option relaxedAutoImplicit false
set_option autoImplicit false

namespace Protocol

open Json Tunnel

/-- The texts of the request ids: a printer, and a parser that reads back what is printed. -/
structure UuidText where
  format : Uuid → Text
  parse : Text → Option Uuid
  parse_format : ∀ rid, parse (format rid) = some rid

/-! ### Frames -/

inductive NodeToRouterFrame
  | auth (nodeId signature : Text) (ed25519Pubkey moniker : Option Text)
  | pong
  | response (rid : Uuid) (status : UInt16) (headers : Value)
  | chunk (rid : Uuid) (data : Text)
  | endFrame (rid : Uuid) (status : UInt16)
  | error (rid : Uuid) (code : UInt16) (message : Text)
  | activateResponse (rid : Uuid) (apiKey : Text)

inductive RouterToNodeFrame
  | challenge (nonce : Text) (block : UInt64)
  | ready (routerUrl : Text)
  | request (rid : Uuid) (method path : Text) (headers : Value) (body : Option Text)
  | activateRequest (rid : Uuid) (sessionId signature : Text) (blockNumber : UInt64)
      (message : Option Text)
  | ping

/-! ### Fields -/

def text (name : Text) : Json.Field Text := ⟨name, Codec.string, none⟩

def number (name : Text) : Json.Field UInt64 := ⟨name, Codec.u64, none⟩

/-- A status or an error code. -/
def code (name : Text) : Json.Field UInt16 := ⟨name, Codec.u16, none⟩

/-- An `Option<String>`. -/
def optional (name : Text) (default : Option (Option Text)) : Json.Field (Option Text) :=
  ⟨name, Codec.option Codec.string (fun _ h => by cases h), default⟩

def headers : Json.Field Value := ⟨"headers".toList, Codec.value, some .null⟩

section

variable (uuids : UuidText)

def rid : Json.Field Uuid :=
  ⟨"rid".toList, Codec.ofText uuids.format uuids.parse uuids.parse_format, none⟩

/-! ### The frames of a node -/

namespace NodeToRouterFrame

def authVariant : Variant NodeToRouterFrame where
  tag := "auth".toList
  record :=
    .cons (text "node_id".toList) (.cons (text "signature".toList)
      (.cons (optional "ed25519_pubkey".toList (some none))
        (.cons (optional "moniker".toList (some none)) .nil
          (of_decide_eq_false rfl)) (of_decide_eq_false rfl)) (of_decide_eq_false rfl))
      (of_decide_eq_false rfl)
  make b := .auth b.1 b.2.1 b.2.2.1 b.2.2.2.1

def pongVariant : Variant NodeToRouterFrame := ⟨"pong".toList, .nil, fun _ => .pong⟩

def responseVariant : Variant NodeToRouterFrame where
  tag := "response".toList
  record :=
    .cons (rid uuids) (.cons (code "status".toList) (.cons headers .nil (of_decide_eq_false rfl))
      (of_decide_eq_false rfl)) (of_decide_eq_false rfl)
  make b := .response b.1 b.2.1 b.2.2.1

def chunkVariant : Variant NodeToRouterFrame where
  tag := "chunk".toList
  record :=
    .cons (rid uuids) (.cons (text "data".toList) .nil (of_decide_eq_false rfl))
      (of_decide_eq_false rfl)
  make b := .chunk b.1 b.2.1

def endVariant : Variant NodeToRouterFrame where
  tag := "end".toList
  record :=
    .cons (rid uuids) (.cons (code "status".toList) .nil (of_decide_eq_false rfl))
      (of_decide_eq_false rfl)
  make b := .endFrame b.1 b.2.1

def errorVariant : Variant NodeToRouterFrame where
  tag := "error".toList
  record :=
    .cons (rid uuids) (.cons (code "code".toList)
      (.cons (text "message".toList) .nil (of_decide_eq_false rfl)) (of_decide_eq_false rfl))
      (of_decide_eq_false rfl)
  make b := .error b.1 b.2.1 b.2.2.1

def activateResponseVariant : Variant NodeToRouterFrame where
  tag := "activate_response".toList
  record :=
    .cons (rid uuids) (.cons (text "api_key".toList) .nil (of_decide_eq_false rfl))
      (of_decide_eq_false rfl)
  make b := .activateResponse b.1 b.2.1

end NodeToRouterFrame

open NodeToRouterFrame in
/-- The derived reader and writer of `NodeToRouterFrame`. -/
def nodeFrames : Tagged NodeToRouterFrame where
  tagName := "type".toList
  variants :=
    [authVariant, pongVariant, responseVariant uuids, chunkVariant uuids, endVariant uuids,
      errorVariant uuids, activateResponseVariant uuids]
  tags := of_decide_eq_true rfl
  free := of_decide_eq_true rfl
  split
    | .auth nodeId signature pubkey moniker =>
        ⟨authVariant, nodeId, signature, pubkey, moniker, ()⟩
    | .pong => ⟨pongVariant, ()⟩
    | .response rid status headers => ⟨responseVariant uuids, rid, status, headers, ()⟩
    | .chunk rid data => ⟨chunkVariant uuids, rid, data, ()⟩
    | .endFrame rid status => ⟨endVariant uuids, rid, status, ()⟩
    | .error rid code message => ⟨errorVariant uuids, rid, code, message, ()⟩
    | .activateResponse rid apiKey => ⟨activateResponseVariant uuids, rid, apiKey, ()⟩
  split_mem frame := by cases frame <;> simp
  make_split frame := by cases frame <;> rfl
  split_make v hv b := by
    simp only [List.mem_cons, List.not_mem_nil, or_false] at hv
    rcases hv with rfl | rfl | rfl | rfl | rfl | rfl | rfl <;> rfl

/-! ### The frames of the router -/

namespace RouterToNodeFrame

def challengeVariant : Variant RouterToNodeFrame where
  tag := "challenge".toList
  record :=
    .cons (text "nonce".toList) (.cons (number "block".toList) .nil (of_decide_eq_false rfl))
      (of_decide_eq_false rfl)
  make b := .challenge b.1 b.2.1

def readyVariant : Variant RouterToNodeFrame where
  tag := "ready".toList
  record := .cons (text "router_url".toList) .nil (of_decide_eq_false rfl)
  make b := .ready b.1

def requestVariant : Variant RouterToNodeFrame where
  tag := "request".toList
  record :=
    .cons (rid uuids) (.cons (text "method".toList) (.cons (text "path".toList)
      (.cons headers (.cons (optional "body".toList none) .nil
        (of_decide_eq_false rfl)) (of_decide_eq_false rfl)) (of_decide_eq_false rfl))
      (of_decide_eq_false rfl)) (of_decide_eq_false rfl)
  make b := .request b.1 b.2.1 b.2.2.1 b.2.2.2.1 b.2.2.2.2.1

def activateRequestVariant : Variant RouterToNodeFrame where
  tag := "activate_request".toList
  record :=
    .cons (rid uuids) (.cons (text "session_id".toList) (.cons (text "signature".toList)
      (.cons (number "block_number".toList) (.cons (optional "message".toList (some none)) .nil
        (of_decide_eq_false rfl)) (of_decide_eq_false rfl)) (of_decide_eq_false rfl))
      (of_decide_eq_false rfl)) (of_decide_eq_false rfl)
  make b := .activateRequest b.1 b.2.1 b.2.2.1 b.2.2.2.1 b.2.2.2.2.1

def pingVariant : Variant RouterToNodeFrame := ⟨"ping".toList, .nil, fun _ => .ping⟩

end RouterToNodeFrame

open RouterToNodeFrame in
/-- The derived reader and writer of `RouterToNodeFrame`. -/
def routerFrames : Tagged RouterToNodeFrame where
  tagName := "type".toList
  variants :=
    [challengeVariant, readyVariant, requestVariant uuids, activateRequestVariant uuids, pingVariant]
  tags := of_decide_eq_true rfl
  free := of_decide_eq_true rfl
  split
    | .challenge nonce block => ⟨challengeVariant, nonce, block, ()⟩
    | .ready routerUrl => ⟨readyVariant, routerUrl, ()⟩
    | .request rid method path headers body =>
        ⟨requestVariant uuids, rid, method, path, headers, body, ()⟩
    | .activateRequest rid sessionId signature blockNumber message =>
        ⟨activateRequestVariant uuids, rid, sessionId, signature, blockNumber, message, ()⟩
    | .ping => ⟨pingVariant, ()⟩
  split_mem frame := by cases frame <;> simp
  make_split frame := by cases frame <;> rfl
  split_make v hv b := by
    simp only [List.mem_cons, List.not_mem_nil, or_false] at hv
    rcases hv with rfl | rfl | rfl | rfl | rfl <;> rfl

/-! ### Texts -/

variable (json : SerdeJson)

def NodeToRouterFrame.parse (t : Text) : Option NodeToRouterFrame :=
  (json.fromStr t).bind (nodeFrames uuids).read

def RouterToNodeFrame.toJson (frame : RouterToNodeFrame) : Text :=
  json.toString ((routerFrames uuids).write frame)

/-- What a node reads. -/
def RouterToNodeFrame.read (t : Text) : Option RouterToNodeFrame :=
  (json.fromStr t).bind (routerFrames uuids).read

variable {uuids json}

/-- **A frame is read from whatever a node may write for it**: the members in any order, others that
the frame does not have among them, what is optional left out, or the values alone in their order. -/
theorem NodeToRouterFrame.parse_of_spells {frame : NodeToRouterFrame} {t : Text} {v : Value}
    (htext : json.fromStr t = some v) (hspells : (nodeFrames uuids).Spells frame v) :
    NodeToRouterFrame.parse uuids json t = some frame := by
  rw [NodeToRouterFrame.parse, htext, Option.bind_some]
  exact Tagged.read_of_spells hspells

/-- What the router writes for a frame is read as that frame. -/
theorem RouterToNodeFrame.read_toJson {frame : RouterToNodeFrame}
    (h : json.ReadsBack ((routerFrames uuids).write frame)) :
    RouterToNodeFrame.read uuids json (frame.toJson uuids json) = some frame := by
  rw [RouterToNodeFrame.read, RouterToNodeFrame.toJson, h, Option.bind_some]
  exact Tagged.read_write frame

/-! ### Request ids in hexadecimal digits -/

theorem hyphen_notMem {t : Text} (h : Digits.All Hex.digitVal t) : '-' ∉ t := fun hmem => by
  have hdigit := h '-' hmem
  cases hdigit

def hyphenate (t : Text) : Text :=
  t.take 8 ++ '-' :: (t.drop 8).take 4 ++ '-' :: (t.drop 12).take 4 ++ '-' :: (t.drop 16).take 4 ++
    '-' :: t.drop 20

theorem filter_hyphenate {t : Text} (h : '-' ∉ t) : (hyphenate t).filter (· ≠ '-') = t := by
  have hkeep : ∀ u : Text, u ⊆ t → u.filter (· ≠ '-') = u := by
    intro u hu
    refine List.filter_eq_self.2 fun c hc => decide_eq_true fun heq => ?_
    exact h (heq ▸ hu hc)
  have hdrop : ∀ n k, ((t.drop n).take k).filter (· ≠ '-') = (t.drop n).take k := fun n k =>
    hkeep _ fun _ hc => List.drop_subset n t (List.take_subset k _ hc)
  have hjoin : ∀ n k, (t.drop n).take k ++ t.drop (n + k) = t.drop n := by
    intro n k
    rw [← List.drop_drop]
    exact List.take_append_drop k (t.drop n)
  have hhyphen : ∀ u : Text, ('-' :: u).filter (· ≠ '-') = u.filter (· ≠ '-') := fun u =>
    List.filter_cons_of_neg (by simp)
  simp only [hyphenate, List.filter_append, hhyphen, hdrop, hkeep _ (List.take_subset 8 t),
    hkeep _ (List.drop_subset 20 t), List.append_assoc]
  rw [hjoin 16 4, hjoin 12 4, hjoin 8 4, List.take_append_drop]

/-- The texts of the ids with hyphens at their places; the parser passes over hyphens. -/
def hyphenated : UuidText where
  format rid := hyphenate (Digits.lowest 32 rid.toNat)
  parse t :=
    let digits := t.filter (· ≠ '-')
    if digits.length = 32 ∧ digits.all (fun c => (Hex.digitVal c).isSome) = true then
      some (BitVec.ofNat 128 (Digits.value Hex.digitVal 16 digits))
    else none
  parse_format rid := by
    have hall := Digits.all_lowest 32 rid.toNat
    have hpow : (16 : ℕ) ^ 32 = 2 ^ 128 := by decide
    dsimp only
    rw [filter_hyphenate (hyphen_notMem hall),
      if_pos ⟨Digits.length_lowest _ _, List.all_eq_true.2 hall⟩,
      Digits.value_lowest, hpow, Nat.mod_eq_of_lt rid.isLt, BitVec.ofNat_toNat, BitVec.setWidth_eq]

/-- A chunk that is written with its members in another order, and with one that no frame has. -/
def reordered : Value :=
  .object
    [⟨"data".toList, .string "Hi".toList⟩, ⟨"seq".toList, Value.ofU64 3⟩,
      ⟨"rid".toList, .string "00000000-0000-0000-0000-00000000002a".toList⟩,
      ⟨"type".toList, .string "chunk".toList⟩]

theorem parse_of_spells_reordered :
    NodeToRouterFrame.parse hyphenated (.ofTexts [reordered]) reordered.compact =
      some (.chunk 42 "Hi".toList) :=
  NodeToRouterFrame.parse_of_spells (v := reordered) rfl (Tagged.Spells.object fun name hname => by
    change name ∈ ["type".toList, "rid".toList, "data".toList] at hname
    simp only [List.mem_cons, List.not_mem_nil, or_false] at hname
    rcases hname with rfl | rfl | rfl <;> exact Or.inl rfl)

/-! ### The handshake -/

/-- The fields of an `auth` frame; no other frame is one. -/
def NodeToRouterFrame.asAuth : NodeToRouterFrame → Option NodeAuth.AuthFrame
  | .auth nodeId signature ed25519Pubkey moniker =>
      some ⟨nodeId, signature, ed25519Pubkey, moniker⟩
  | _ => none

variable (uuids json)

/-- The first text of a node, as the handshake takes it; the socket may have closed before. -/
def received (t : Option Text) : Option (Option NodeAuth.AuthFrame) :=
  t.map fun t => (NodeToRouterFrame.parse uuids json t).bind NodeToRouterFrame.asAuth

variable {uuids json}

/-- The handshake has the frame that the first text stands for: the frame itself if it is an `auth`
frame, and none if it is another. -/
theorem received_of_spells {frame : NodeToRouterFrame} {t : Text} {v : Value}
    (htext : json.fromStr t = some v) (hspells : (nodeFrames uuids).Spells frame v) :
    received uuids json (some t) = some frame.asAuth := by
  have hread : (nodeFrames uuids).read v = some frame := Tagged.read_of_spells hspells
  rw [received, Option.map_some, NodeToRouterFrame.parse, htext, Option.bind_some, hread,
    Option.bind_some]

end

end Protocol
