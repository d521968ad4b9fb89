/-
**The offerings of a node.**

A node advertises its models as JSON objects, in which the router's own data stands under the
member `sparkl`.  An offering is what the router reads off such an entry
(`src/consumer/offerings.rs`): every field has a default, and nothing in the entry makes the reading
fail.  A number that does not fit into 32 bits is truncated.

Main definitions:

* `ProviderOffering` — the offering;
* `buildOfferingWithLoad` — the offering of an entry, with the router's own load counts if given;
* `parseFeaturesMap` — the features that are texts.

Main results:

* `buildOfferingWithLoad_nodeId`, `buildOfferingWithLoad_modelId` — an offering carries the two keys
  its entry was found under;
* `availableSlots_le_concurrency` — a declared concurrency bounds the free slots.
-/

import SparklRouter.Collections.HashMap
import SparklRouter.NodeAuth
import SparklRouter.Text.Json

set_option relaxedAutoImplicit false
set_option autoImplicit false

open Json

/-- Subtraction that stops at zero. -/
def UInt32.saturatingSub (a b : UInt32) : UInt32 := if b ≤ a then a - b else 0

theorem UInt32.saturatingSub_le (a b : UInt32) : a.saturatingSub b ≤ a := by
  rw [UInt32.saturatingSub]
  split
  · rename_i h
    rw [UInt32.le_iff_toNat_le, UInt32.toNat_sub_of_le _ _ h]
    omega
  · exact UInt32.zero_le

/-- One model of one node. -/
structure ProviderOffering where
  nodeId : Text
  modelId : Text
  tunnelStatus : Text
  contextLength : UInt32
  quantization : Text
  parameterCount : Text
  sourceUrl : Text
  features : HashMap Text Text
  concurrency : UInt32
  activeRequests : UInt32
  queuedRequests : UInt32
  /-- The deprecated name of `activeRequests`. -/
  activeSessions : UInt32
  availableSlots : UInt32

/-- The features of an entry; those that are not texts are left out. -/
def parseFeaturesMap (v : Option Value) : HashMap Text Text :=
  match v.bind Value.asObject with
  | none => ∅
  | some map =>
      map.foldl (fun out member =>
        match member.2.asStr with
        | some s => out.insert member.1 s
        | none => out) ∅

/-- A text member of `sparkl`, empty if there is none. -/
def sparklText (entry : Value) (key : Text) : Text :=
  (((entry.get "sparkl".toList).bind fun s => s.get key).bind Value.asStr).getD []

/-- A number of 32 bits cut out of an entry, zero if there is none. -/
def numberOr0 (v : Option Value) : UInt32 := ((v.bind Value.asU64).getD 0).toUInt32

def buildOfferingWithLoad (nodeId : NodeId) (modelId : Text) (entry : Value) (tunnelStatus : Text)
    (routerActive routerQueued : Option UInt32) : ProviderOffering :=
  let catalogActive := numberOr0
    ((entry.pointer ["sparkl".toList, "active_requests".toList]).or
      (entry.pointer ["sparkl".toList, "active_sessions".toList]))
  let activeRequests := routerActive.getD catalogActive
  let concurrency := numberOr0 (entry.pointer ["sparkl".toList, "concurrency".toList])
  { nodeId := NodeAuth.nodeIdHex nodeId
    modelId
    tunnelStatus
    contextLength := numberOr0 (entry.get "context_length".toList)
    quantization := sparklText entry "quantization".toList
    parameterCount := sparklText entry "parameter_count".toList
    sourceUrl := sparklText entry "source_url".toList
    features :=
      parseFeaturesMap ((entry.get "sparkl".toList).bind fun s => s.get "features".toList)
    concurrency
    activeRequests
    queuedRequests := routerQueued.getD 0
    activeSessions := activeRequests
    -- no declared concurrency means no limit
    availableSlots :=
      if 0 < concurrency then concurrency.saturatingSub activeRequests else UInt32.ofNat (2 ^ 32 - 1) }

section

variable (nodeId : NodeId) (modelId : Text) (entry : Value) (tunnelStatus : Text)
  (routerActive routerQueued : Option UInt32)

@[simp] theorem buildOfferingWithLoad_nodeId :
    (buildOfferingWithLoad nodeId modelId entry tunnelStatus routerActive routerQueued).nodeId =
      NodeAuth.nodeIdHex nodeId := rfl

@[simp] theorem buildOfferingWithLoad_modelId :
    (buildOfferingWithLoad nodeId modelId entry tunnelStatus routerActive routerQueued).modelId =
      modelId := rfl

/-- A declared concurrency bounds the free slots. -/
theorem availableSlots_le_concurrency
    (h : 0 < (buildOfferingWithLoad nodeId modelId entry tunnelStatus routerActive
      routerQueued).concurrency) :
    (buildOfferingWithLoad nodeId modelId entry tunnelStatus routerActive routerQueued).availableSlots
      ≤ (buildOfferingWithLoad nodeId modelId entry tunnelStatus routerActive
        routerQueued).concurrency := by
  simp only [buildOfferingWithLoad] at h ⊢
  rw [if_pos h]
  exact UInt32.saturatingSub_le _ _

end
