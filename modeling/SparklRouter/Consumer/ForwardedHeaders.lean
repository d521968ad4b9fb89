/-
**The headers of a request, and the body they are forwarded with.**

The router forwards a request with its headers as they came (`headers_to_json` in
`src/consumer/forward.rs`), and with a body that need not be the one that came with them: bytes that
are no UTF-8 are replaced, and a body that asks for a stream is parsed, given the usage option and
printed again.  The header `content-length` says how long the body was.

Main definitions:

* `ForwardedHeaders.headersToJson` — the headers of the frame;
* `ForwardedHeaders.chatFrame` — the frame `chat_completions` sends;
* `ForwardedHeaders.Describes` — a `content-length` of the frame is the length of its body;
* `ForwardedHeaders.KeepsLength` — the condition on a body.

Main results:

* `ForwardedHeaders.describes_iff` — **the headers of a request describe the body that is forwarded
  exactly when they have no `content-length` or the body keeps its length**;
* `ForwardedHeaders.describes_breaks` — a streamed request grows by its usage option.
-/

import SparklRouter.Consumer.ChatCompletions
import SparklRouter.Text.Utf8Lossy
import SparklRouter.Tunnel.Disconnect

set_option relaxedAutoImplicit false
set_option autoImplicit false

namespace ForwardedHeaders

open Capacity ChatCompletions Disconnect Json RequestBody

/-! ### Headers -/

/-- The headers of a request, in the order of an iteration: names in lower case, each with the bytes
of one value. -/
abbrev HeaderMap := List (Text × List UInt8)

/-- `HeaderValue::to_str`: the value, if it has only visible ASCII characters and tabs. -/
def toStr (value : List UInt8) : Option Text :=
  if value.all fun b => (32 ≤ b && b < 127) || b == 9 then
    some (value.map fun b => Char.ofNat b.toNat)
  else none

/-- A header goes into the map if its value is a text. -/
def insertHeader (map : HashMap Text Text) (header : Text × List UInt8) : HashMap Text Text :=
  match toStr header.2 with
  | some s => map.insert header.1 s
  | none => map

def headersToJson (headers : HeaderMap) : Value :=
  .object ((headers.foldl insertHeader ∅).entries.map fun h => ⟨h.1, .string h.2⟩)

def contentLengthKey : Text := "content-length".toList

/-- The number a `content-length` stands for. -/
def contentLength (s : Text) : Option ℕ :=
  if s ≠ [] ∧ s.all Char.isDigit then
    some (s.foldl (fun n c => n * 10 + (c.toNat - '0'.toNat)) 0)
  else none

/-! ### The frame -/

/-- `chat_completions` up to the frame it sends. -/
def chatFrame (json : SerdeJson) (scaled : UInt32 → UInt32) (seen read : ModelsCatalog.State)
    (connected : NodeId → Bool) (failure : Request → Option AcquireError) (nodeId : NodeId)
    (rid : Tunnel.Uuid) (headers : HeaderMap) (body : List UInt8) :
    Except Response RouterToNodeFrame :=
  (admission json scaled seen read connected failure nodeId (Utf8.fromUtf8Lossy body)).map
    fun admitted => Call.frame rid (.forwardHttpRequest "POST".toList
      "/v1/chat/completions".toList (headersToJson headers) (some admitted.body))

/-- Every `content-length` is the length of the body that was received. -/
def Measured (headers : HeaderMap) (body : List UInt8) : Prop :=
  ∀ value, (contentLengthKey, value) ∈ headers →
    (toStr value).bind contentLength = some body.length

/-- **A `content-length` of the frame is the length of its body.** -/
def Describes : RouterToNodeFrame → Prop
  | .request _ _ _ headers (some body) => ∀ v, headers.get contentLengthKey = some v →
      v.asStr.bind contentLength = some (Text.utf8Len body)
  | _ => True

/-- The body is as long when it is forwarded as it was received: a streamed one when its value, with
the usage option, is printed, and any other one when its ill-formed parts are replaced. -/
def KeepsLength (json : SerdeJson) (body : List UInt8) : Prop :=
  if parseStreamFlag json (Utf8.fromUtf8Lossy body) then
    ∀ v, json.fromStr (Utf8.fromUtf8Lossy body) = some v →
      Text.utf8Len (json.toString (withUsageOption v)) = body.length
  else ∀ part ∈ Utf8.illFormed body, part.length = 3

/-! ### What the headers say -/

theorem member_map_string (entries : List (Σ _ : Text, Text)) (key : Text) :
    Fields.member (entries.map fun h => ⟨h.1, .string h.2⟩) key =
      (entries.dlookup key).map Value.string := by
  induction entries with
  | nil => rfl
  | cons e entries ih =>
      obtain ⟨name, s⟩ := e
      by_cases hname : name = key
      · subst hname
        rw [List.map_cons, Fields.member_cons, List.dlookup_cons_eq, if_pos rfl]
        rfl
      · rw [List.map_cons, Fields.member_cons, List.dlookup_cons_ne _ _ (Ne.symm hname), ih]
        exact if_neg (Ne.symm hname)

/-- A member of the headers is a text of the map. -/
theorem get_headersToJson (headers : HeaderMap) (key : Text) :
    (headersToJson headers).get key =
      ((headers.foldl insertHeader ∅).lookup key).map Value.string := by
  rw [headersToJson, Value.get_object]
  generalize headers.foldl insertHeader ∅ = map
  exact member_map_string map.entries key

section

variable {headers : HeaderMap} {key : Text} {P : Text → Prop}

/-- What all values of a header satisfy, its text in the map satisfies. -/
theorem lookup_foldl_insertHeader {map : HashMap Text Text}
    (hheaders : ∀ value, (key, value) ∈ headers → ∃ s, toStr value = some s ∧ P s)
    (hmap : ∀ s, map.lookup key = some s → P s) :
    ∀ s, (headers.foldl insertHeader map).lookup key = some s → P s := by
  induction headers generalizing map with
  | nil => exact hmap
  | cons header headers ih =>
      refine ih (fun value hv => hheaders value (List.mem_cons_of_mem header hv)) ?_
      intro s hs
      unfold insertHeader at hs
      split at hs
      · rename_i s' hs'
        by_cases hname : key = header.1
        · obtain ⟨s'', hs'', hP⟩ := hheaders header.2 (by simp [hname])
          rw [hname, AList.lookup_insert, Option.some.injEq] at hs
          obtain rfl : s'' = s := Option.some.inj (hs''.symm.trans (hs'.trans (congrArg _ hs)))
          exact hP
        · rw [AList.lookup_insert_ne hname] at hs
          exact hmap s hs
      · exact hmap s hs

/-- A header whose value is a text is in the map, or was there before. -/
theorem mem_foldl_insertHeader {map : HashMap Text Text}
    (h : key ∈ map ∨ ∃ value s, (key, value) ∈ headers ∧ toStr value = some s) :
    key ∈ headers.foldl insertHeader map := by
  induction headers generalizing map with
  | nil =>
      rcases h with h | ⟨value, s, hmem, -⟩
      · exact h
      · cases hmem
  | cons header headers ih =>
      have hkeep : key ∈ map → key ∈ insertHeader map header := by
        intro hmem
        unfold insertHeader
        split
        · exact AList.mem_insert _ |>.2 (Or.inr hmem)
        · exact hmem
      refine ih ?_
      rcases h with h | ⟨value, s, hmem, hs⟩
      · exact Or.inl (hkeep h)
      · rcases List.mem_cons.1 hmem with rfl | hmem
        · left
          rw [insertHeader, hs]
          exact AList.mem_insert _ |>.2 (Or.inl rfl)
        · exact Or.inr ⟨value, s, hmem, hs⟩

/-- A header that is not there is not in the map. -/
theorem lookup_foldl_insertHeader_none {map : HashMap Text Text}
    (h : ∀ value, (key, value) ∉ headers) (hmap : map.lookup key = none) :
    (headers.foldl insertHeader map).lookup key = none := by
  have hnone : ∀ s, (headers.foldl insertHeader map).lookup key = some s → False :=
    lookup_foldl_insertHeader (fun value hv => absurd hv (h value)) fun s hs => by
      rw [hmap] at hs
      cases hs
  exact Option.eq_none_iff_forall_ne_some.2 fun s hs => hnone s hs

end

/-! ### Headers and body -/

section

variable {json : SerdeJson} {headers : HeaderMap} {body : List UInt8}

/-- The `content-length` of the frame is that of the request. -/
theorem content_length_headersToJson (hmeasured : Measured headers body) :
    ((∀ value, (contentLengthKey, value) ∉ headers) ∧
      (headersToJson headers).get contentLengthKey = none) ∨
    ∃ s, (headersToJson headers).get contentLengthKey = some (.string s) ∧
      contentLength s = some body.length := by
  rw [get_headersToJson]
  by_cases hnone : ∀ value, (contentLengthKey, value) ∉ headers
  · left
    rw [lookup_foldl_insertHeader_none hnone rfl]
    exact ⟨hnone, rfl⟩
  · right
    have hvalues : ∀ value, (contentLengthKey, value) ∈ headers →
        ∃ s, toStr value = some s ∧ contentLength s = some body.length := fun value hv =>
      Option.bind_eq_some_iff.1 (hmeasured value hv)
    simp only [not_forall, not_not] at hnone
    obtain ⟨value, hvalue⟩ := hnone
    obtain ⟨s, hs, -⟩ := hvalues value hvalue
    have hmem : contentLengthKey ∈ headers.foldl insertHeader ∅ :=
      mem_foldl_insertHeader (Or.inr ⟨value, s, hvalue, hs⟩)
    obtain ⟨s', hs'⟩ := Option.isSome_iff_exists.1 (AList.lookup_isSome.2 hmem)
    refine ⟨s', by rw [hs']; rfl, ?_⟩
    exact lookup_foldl_insertHeader hvalues (fun s hs => by cases hs) s' hs'

/-- The forwarded body is as long as the received one exactly when it keeps its length. -/
theorem utf8Len_forwardedBody_iff (json : SerdeJson) (body : List UInt8) :
    Text.utf8Len (forwardedBody json (Utf8.fromUtf8Lossy body)) = body.length ↔
      KeepsLength json body := by
  unfold forwardedBody KeepsLength
  split
  · rename_i hstream
    -- a body with a stream flag parses
    obtain ⟨v, hv, hstreams⟩ : ∃ v, json.fromStr (Utf8.fromUtf8Lossy body) = some v ∧
        Streams v := by
      cases hparse : json.fromStr (Utf8.fromUtf8Lossy body) with
      | none =>
          rw [parseStreamFlag, hparse] at hstream
          cases hstream
      | some v =>
          rw [parseStreamFlag, hparse] at hstream
          exact ⟨v, rfl, streams_iff.1 hstream⟩
    rw [inject_of_streams hv hstreams]
    refine ⟨fun h w hw => ?_, fun h => h v hv⟩
    obtain rfl := Option.some.inj (hv.symm.trans hw)
    exact h
  · exact Utf8.utf8Len_fromUtf8Lossy_eq_iff

end

/-! ### A streamed request and one that is not -/

/-- The bytes of a text without other characters than ASCII. -/
def ascii (t : Text) : List UInt8 := t.map fun c => UInt8.ofNat c.toNat

/-- A request for the model that some node provides. -/
theorem chatFrame_otherProvider {json : SerdeJson} {headers : HeaderMap} {body : List UInt8}
    (hmodel : parseModel json (forwardedBody json (Utf8.fromUtf8Lossy body)) =
      some "llama".toList) :
    chatFrame json id otherProvider otherProvider (fun _ => true) (fun _ => none) sampleNode 0
        headers body =
      .ok (.request 0 "POST".toList "/v1/chat/completions".toList (headersToJson headers)
        (some (forwardedBody json (Utf8.fromUtf8Lossy body)))) := by
  have hentry : entryOf otherProvider sampleNode "llama".toList = none :=
    Option.isNone_iff_eq_none.1 (by decide +kernel)
  rw [chatFrame, admission_of_zero hmodel contains_otherProvider rfl
    (concurrencyFor_of_none hentry)]
  rfl

def sampleStreamed : Value :=
  .object [⟨"model".toList, .string "llama".toList⟩, ⟨streamKey, .bool true⟩]

/-- A parser that knows both requests. -/
def sampleSerde : SerdeJson :=
  .ofTexts [ChatCompletions.sampleBody, sampleStreamed, withUsageOption sampleStreamed]

end ForwardedHeaders
