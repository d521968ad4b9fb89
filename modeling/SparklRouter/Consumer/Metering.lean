/-
**What a response is billed by.**

A backend reports the tokens of a response in two ways (`src/consumer/metering.rs`): in the member
`usage` of an object, and in a receipt, whose token count is decoded from the member `sparkl`.  In a
streamed response the objects come as events, one on a line after `data:`; the router reads the
whole text so far, cuts it at every `data:` there is, also within the strings of an object, and
skips what it cannot parse.  A response that is not streamed is one object, of which only `usage` is
read.

The parser of JSON texts, the decoder of base64 and the parser of receipts are those of libraries.
What is used of the parser is stated of the texts at hand: a proper beginning of the text of an
object is not a JSON text; and what begins within a string of it, as everything behind a `data:`
does, has no member `usage` or `sparkl`, since the quotes around such a name cannot stand in a
string.

Main definitions:

* `Metering.extractUsageFromJson`, `Metering.extractUsageFromBody`,
  `Metering.extractUsageFromSseBody` — the usage of an object, of a response and of a stream;
* `Metering.billed` — what a list of objects is to be billed by;
* `Metering.EventText`, `Metering.ObjectText` — the texts of events;
* `Metering.sseBody` — the events of a stream, one after the other.

Main results:

* `Metering.extract_eq_billed` — the loop over the events computes `billed` of their values;
* `Metering.iter_frame_append` — **what an event contributes does not depend on what follows it**;
* `Metering.readsFormat_iff` — **when a stream is billed by its objects**;
* `Metering.agree_iff` — **when the two extractions agree**.
-/

import Mathlib.Data.List.TakeWhile
import SparklRouter.Consumer.Sse
import SparklRouter.Text.JsonText
import SparklRouter.Text.Split

set_option relaxedAutoImplicit false
set_option autoImplicit false

namespace Metering

open Json
open Sse (ParsedUsage)

/-- The libraries. -/
structure Libs where
  json : SerdeJson
  /-- `base64::engine::general_purpose::STANDARD.decode`. -/
  base64 : Text → Option (List UInt8)
  /-- The `token_count` of `serde_json::from_slice::<SparklReceiptPayload>`. -/
  tokenCount : List UInt8 → Option UInt64

/-! ### The usage of an object -/

def extractUsageFromJson (value : Value) : Option ParsedUsage := do
  let usage ← value.get "usage".toList
  let input ← ((usage.get "prompt_tokens".toList).or (usage.get "input_tokens".toList)).bind
    Value.asU64
  let output ← ((usage.get "completion_tokens".toList).or (usage.get "output_tokens".toList)).bind
    Value.asU64
  some ⟨input, output⟩

def extractUsageFromBody (lib : Libs) (body : Text) : Option ParsedUsage :=
  (lib.json.fromStr body).bind extractUsageFromJson

def sparklReceiptOutputTokens (lib : Libs) (value : Value) : Option UInt64 := do
  let receipt ← value.pointer ["sparkl".toList, "receipt".toList]
  let receiptB64 ← receipt.asStr
  let bytes ← lib.base64 receiptB64
  lib.tokenCount bytes

/-! ### The usage of a stream -/

def dataField : Text := "data:".toList

def doneText : Text := "[DONE]".toList

/-- The first line of a segment, without white space around it. -/
def payload (segment : Text) : Text := Text.trim (segment.takeWhile fun c => c ≠ '\n')

def eventValue (lib : Libs) (segment : Text) : Option Value :=
  if payload segment = [] ∨ payload segment = doneText then none
  else lib.json.fromStr (payload segment)

def iterSseEventValues (lib : Libs) (body : Text) : List Value :=
  (Split.pieces dataField body).tail.filterMap (eventValue lib)

/-- The variables of the loop over the events. -/
structure Scan where
  openai : Option ParsedUsage
  maxReceiptOutput : UInt64

def Scan.event (lib : Libs) (s : Scan) (v : Value) : Scan where
  openai := (extractUsageFromJson v).or s.openai
  maxReceiptOutput :=
    match sparklReceiptOutputTokens lib v with
    | some tc => max s.maxReceiptOutput tc
    | none => s.maxReceiptOutput

def Scan.usage (s : Scan) : Option ParsedUsage :=
  match s.openai with
  | some u =>
      if u.outputTokens < s.maxReceiptOutput then
        some { u with outputTokens := s.maxReceiptOutput }
      else some u
  | none => if s.maxReceiptOutput = 0 then none else some ⟨0, s.maxReceiptOutput⟩

def extractUsageFromSseBody (lib : Libs) (body : Text) : Option ParsedUsage :=
  ((iterSseEventValues lib body).foldl (Scan.event lib) ⟨none, 0⟩).usage

/-! ### What a list of objects is to be billed by -/

/-- The usage of the last object that has one. -/
def lastUsage (vs : List Value) : Option ParsedUsage := vs.reverse.findSome? extractUsageFromJson

/-- The largest token count of a receipt, zero if there is none. -/
def maxReceipt (lib : Libs) (vs : List Value) : UInt64 :=
  (vs.filterMap (sparklReceiptOutputTokens lib)).foldl max 0

/-- **What the objects are to be billed by**: the last usage, with the output raised to the largest
receipt, or that receipt alone. -/
def billed (lib : Libs) (vs : List Value) : Option ParsedUsage :=
  match lastUsage vs with
  | some u => some { u with outputTokens := max u.outputTokens (maxReceipt lib vs) }
  | none => if maxReceipt lib vs = 0 then none else some ⟨0, maxReceipt lib vs⟩

/-- The object says something about tokens. -/
def carries (lib : Libs) (v : Value) : Bool :=
  (extractUsageFromJson v).isSome || (sparklReceiptOutputTokens lib v).isSome

theorem lastUsage_concat (vs : List Value) (v : Value) :
    lastUsage (vs ++ [v]) = (extractUsageFromJson v).or (lastUsage vs) := by
  rw [lastUsage, List.reverse_append, List.reverse_singleton, List.singleton_append,
    List.findSome?_cons, lastUsage]
  cases extractUsageFromJson v <;> rfl

theorem maxReceipt_concat (lib : Libs) (vs : List Value) (v : Value) :
    maxReceipt lib (vs ++ [v]) =
      match sparklReceiptOutputTokens lib v with
      | some tc => max (maxReceipt lib vs) tc
      | none => maxReceipt lib vs := by
  rw [maxReceipt, List.filterMap_append, List.foldl_append, ← maxReceipt]
  cases h : sparklReceiptOutputTokens lib v with
  | none => simp [h]
  | some tc => simp [h]

/-- The loop over the events collects the two. -/
theorem foldl_event (lib : Libs) (vs : List Value) :
    vs.foldl (Scan.event lib) ⟨none, 0⟩ = ⟨lastUsage vs, maxReceipt lib vs⟩ := by
  induction vs using List.reverseRecOn with
  | nil => rfl
  | append_singleton vs v ih =>
      rw [List.foldl_concat, ih, lastUsage_concat, maxReceipt_concat]
      rfl

theorem max_eq_ite (a b : UInt64) : max a b = if a < b then b else a := by
  rcases Nat.lt_trichotomy a.toNat b.toNat with h | h | h
  · have hlt : a < b := UInt64.lt_iff_toNat_lt.2 h
    rw [if_pos hlt]
    exact if_pos (UInt64.le_iff_toNat_le.2 (Nat.le_of_lt h))
  · obtain rfl := UInt64.toNat_inj.1 h
    rw [if_neg (fun hlt => Nat.lt_irrefl _ (UInt64.lt_iff_toNat_lt.1 hlt))]
    exact if_pos (UInt64.le_iff_toNat_le.2 (Nat.le_refl _))
  · rw [if_neg (fun hlt => Nat.lt_asymm h (UInt64.lt_iff_toNat_lt.1 hlt))]
    exact if_neg fun hle => Nat.not_le.2 h (UInt64.le_iff_toNat_le.1 hle)

/-- The loop over the events bills their values. -/
theorem extract_eq_billed (lib : Libs) (body : Text) :
    extractUsageFromSseBody lib body = billed lib (iterSseEventValues lib body) := by
  rw [extractUsageFromSseBody, foldl_event, Scan.usage, billed]
  cases lastUsage (iterSseEventValues lib body) with
  | none => rfl
  | some u =>
      dsimp only
      rw [max_eq_ite]
      split <;> rfl

/-- Only what says something about tokens is billed. -/
theorem billed_filter (lib : Libs) (vs : List Value) :
    billed lib (vs.filter (carries lib)) = billed lib vs := by
  have hboth : lastUsage (vs.filter (carries lib)) = lastUsage vs ∧
      maxReceipt lib (vs.filter (carries lib)) = maxReceipt lib vs := by
    induction vs using List.reverseRecOn with
    | nil => exact ⟨rfl, rfl⟩
    | append_singleton vs v ih =>
        rw [List.filter_append, lastUsage_concat, maxReceipt_concat]
        cases hv : carries lib v with
        | true =>
            have hkept : [v].filter (carries lib) = [v] := by rw [List.filter_cons, hv]; rfl
            rw [hkept, lastUsage_concat, maxReceipt_concat, ih.1, ih.2]
            exact ⟨rfl, rfl⟩
        | false =>
            obtain ⟨husage, hreceipt⟩ := Bool.or_eq_false_iff.1 hv
            rw [Option.isSome_eq_false_iff, Option.isNone_iff_eq_none] at husage hreceipt
            have hgone : [v].filter (carries lib) = [] := by rw [List.filter_cons, hv]; rfl
            rw [hgone, List.append_nil, husage, hreceipt]
            exact ih
  rw [billed, billed, hboth.1, hboth.2]

/-! ### The texts of events -/

/-- The text of an event on one line, as the parser knows it: no proper beginning of it is a JSON
text, and what begins behind a `data:` in it has no member `usage` or `sparkl`. -/
structure EventText (lib : Libs) (T : Text) : Prop where
  line : '\n' ∉ T
  trimmed : Text.trim T = T
  cut : ∀ p, p <+: T → p ≠ T → lib.json.fromStr (Text.trim p) = none
  inner : ∀ u r s, T = u ++ dataField ++ r → s <+: r →
    ∀ w, lib.json.fromStr (Text.trim s) = some w →
      w.get "usage".toList = none ∧ w.get "sparkl".toList = none

/-- The text of an object on one line. -/
structure ObjectText (lib : Libs) (T : Text) (v : Value) : Prop extends EventText lib T where
  brace : T.head? = some '\x7b'
  parsed : lib.json.fromStr T = some v
  object : ∃ fields, v = .object fields

/-- An event: its line and a blank line. -/
def frame (T : Text) : Text := "data: ".toList ++ T ++ "\n\n".toList

def sseBody (Ts : List Text) : Text := Ts.flatMap frame

/-! ### What an event contributes -/

/-- The values of all segments of a text. -/
def valuesIn (lib : Libs) (t : Text) : List Value :=
  (Split.pieces dataField t).filterMap (eventValue lib)

theorem dataField_ne_nil : dataField ≠ [] := by decide

theorem iter_append_left (lib : Libs) (t : Text) :
    iterSseEventValues lib (dataField ++ t) = valuesIn lib t := by
  rw [iterSseEventValues, Split.pieces_append_left dataField_ne_nil]
  rfl

theorem takeWhile_newline (a z : Text) :
    (a ++ '\n' :: z).takeWhile (fun c => c ≠ '\n') = a.takeWhile fun c => c ≠ '\n' := by
  induction a with
  | nil => rfl
  | cons c a ih =>
      rw [List.cons_append, List.takeWhile_cons, List.takeWhile_cons, ih]

/-- A segment is read up to its first line break. -/
theorem eventValue_newline (lib : Libs) (a z : Text) :
    eventValue lib (a ++ '\n' :: z) = eventValue lib a := by
  rw [eventValue, eventValue, payload, payload, takeWhile_newline]

/-- A line break ends the line of the segment it is in, and the segments behind it are on their
own. -/
theorem valuesIn_newline (lib : Libs) (a z : Text) :
    valuesIn lib (a ++ '\n' :: z) = valuesIn lib a ++ iterSseEventValues lib z := by
  have hnewline : '\n' ∉ dataField := by decide
  obtain ⟨front, last, first, back, ha, hz, hall⟩ :=
    Split.pieces_append_of_notMem dataField_ne_nil hnewline a z
  rw [valuesIn, hall, valuesIn, ha, iterSseEventValues, hz, List.filterMap_append,
    List.filterMap_append, List.append_assoc, List.tail_cons]
  congr 1
  rw [List.filterMap_cons, eventValue_newline, List.filterMap_cons, List.filterMap_nil]
  cases eventValue lib last <;> rfl

/-- The space behind `data:` does not matter. -/
theorem valuesIn_space (lib : Libs) (t : Text) : valuesIn lib (' ' :: t) = valuesIn lib t := by
  have hspace : ' ' ∉ dataField := by decide
  have hvalue : ∀ s, eventValue lib (' ' :: s) = eventValue lib s := fun s => rfl
  obtain ⟨p, ps, hp⟩ := List.exists_cons_of_ne_nil (Split.pieces_ne_nil dataField t)
  rw [valuesIn, Split.pieces_cons_of_ne dataField_ne_nil hspace, valuesIn, hp, Split.consHead,
    List.filterMap_cons, hvalue, List.filterMap_cons]

theorem iter_newline (lib : Libs) (t : Text) :
    iterSseEventValues lib ('\n' :: t) = iterSseEventValues lib t := by
  have hnewline : '\n' ∉ dataField := by decide
  obtain ⟨p, ps, hp⟩ := List.exists_cons_of_ne_nil (Split.pieces_ne_nil dataField t)
  rw [iterSseEventValues, Split.pieces_cons_of_ne dataField_ne_nil hnewline, iterSseEventValues, hp]
  rfl

theorem frame_eq (T : Text) : frame T = dataField ++ ' ' :: (T ++ ['\n', '\n']) := rfl

theorem frame_append (T z : Text) :
    frame T ++ z = dataField ++ (' ' :: T ++ '\n' :: '\n' :: z) := by
  rw [frame_eq, List.append_assoc, List.cons_append, List.append_assoc]
  rfl

/-- **What an event contributes does not depend on what follows it.** -/
theorem iter_frame_append (lib : Libs) (T z : Text) :
    iterSseEventValues lib (frame T ++ z) = valuesIn lib T ++ iterSseEventValues lib z := by
  rw [frame_append, iter_append_left, valuesIn_newline, iter_newline, valuesIn_space]

theorem iter_sseBody_append (lib : Libs) (Ts : List Text) (z : Text) :
    iterSseEventValues lib (sseBody Ts ++ z) =
      Ts.flatMap (valuesIn lib) ++ iterSseEventValues lib z := by
  induction Ts with
  | nil => rfl
  | cons T Ts ih =>
      have hbody : sseBody (T :: Ts) ++ z = frame T ++ (sseBody Ts ++ z) := by
        rw [sseBody, List.flatMap_cons, List.append_assoc, ← sseBody]
      rw [hbody, iter_frame_append, ih, List.flatMap_cons, List.append_assoc]

theorem iter_sseBody (lib : Libs) (Ts : List Text) :
    iterSseEventValues lib (sseBody Ts) = Ts.flatMap (valuesIn lib) := by
  have hnil : iterSseEventValues lib [] = [] := rfl
  have h := iter_sseBody_append lib Ts []
  rwa [List.append_nil, hnil, List.append_nil] at h

/-! ### Segments of an event -/

/-- An object without the two members says nothing about tokens. -/
theorem carries_eq_false {lib : Libs} {v : Value} (husage : v.get "usage".toList = none)
    (hsparkl : v.get "sparkl".toList = none) : carries lib v = false := by
  have hjson : extractUsageFromJson v = none := by
    rw [extractUsageFromJson, husage]
    rfl
  have hchild : v.child "sparkl".toList = none := by
    cases v with
    | object fields => exact hsparkl
    | array items => rfl
    | null => rfl
    | bool b => rfl
    | number n => rfl
    | string s => rfl
  have hpointer : v.pointer ["sparkl".toList, "receipt".toList] = none := by
    rw [Value.pointer, List.foldlM_cons, hchild]
    rfl
  rw [carries, hjson, sparklReceiptOutputTokens, hpointer]
  rfl

theorem payload_of_line {s : Text} (hline : '\n' ∉ s) : payload s = Text.trim s := by
  rw [payload, List.takeWhile_eq_self_iff.2]
  intro c hc
  exact decide_eq_true fun h => hline (h ▸ hc)

theorem eventValue_of_line {lib : Libs} {s : Text} {w : Value} (hline : '\n' ∉ s)
    (h : eventValue lib s = some w) : lib.json.fromStr (Text.trim s) = some w := by
  rw [eventValue, payload_of_line hline] at h
  split at h
  · cases h
  · exact h

/-- What the text of an event has in front of a `data:` is no value. -/
theorem eventValue_of_part {lib : Libs} {T s : Text} (hT : EventText lib T) (hs : s <+: T)
    (hne : s ≠ T) : eventValue lib s = none := by
  cases h : eventValue lib s with
  | none => rfl
  | some w =>
      have hparsed := eventValue_of_line (fun hn => hT.line (hs.subset hn)) h
      rw [hT.cut s hs hne] at hparsed
      cases hparsed

/-- What begins behind a `data:` in the text of an event says nothing about tokens. -/
theorem not_carries_of_inner {lib : Libs} {T u r s : Text} {w : Value} (hT : EventText lib T)
    (heq : T = u ++ dataField ++ r) (hs : s <+: r) (h : eventValue lib s = some w) :
    carries lib w = false := by
  have hline : '\n' ∉ s := by
    intro hn
    apply hT.line
    rw [heq]
    exact List.mem_append_right _ (hs.subset hn)
  obtain ⟨husage, hsparkl⟩ := hT.inner u r s heq hs w (eventValue_of_line hline h)
  exact carries_eq_false husage hsparkl

/-- A part of an event says nothing about tokens, and neither does an event with a `data:` in it. -/
theorem filter_valuesIn_eq_nil {lib : Libs} {T p : Text} (hT : EventText lib T) (hp : p <+: T)
    (h : p ≠ T ∨ dataField <:+: T) : (valuesIn lib p).filter (carries lib) = [] := by
  rw [List.filter_eq_nil_iff]
  intro w hw
  rw [Bool.not_eq_true]
  obtain ⟨s, hs, hvalue⟩ := List.mem_filterMap.1 hw
  obtain ⟨q, hq⟩ := hp
  rcases Split.pieces_cases dataField_ne_nil p with ⟨hnot, heq⟩ | ⟨u, r, heq, hpieces⟩
  · have hne : p ≠ T := by
      rcases h with h | h
      · exact h
      · exact fun hpT => hnot (hpT ▸ h)
    obtain rfl := List.mem_singleton.1 (heq ▸ hs)
    rw [eventValue_of_part hT ⟨q, hq⟩ hne] at hvalue
    cases hvalue
  · rcases List.mem_cons.1 (hpieces ▸ hs) with rfl | hs
    · have hne : s ≠ T := by
        intro hsT
        have hlen := congrArg List.length hq
        rw [heq, ← hsT] at hlen
        have hpos := List.length_pos_iff.2 dataField_ne_nil
        simp only [List.length_append] at hlen
        omega
      have hpre : s <+: T := ⟨dataField ++ r ++ q, by rw [← hq, heq]; simp only [List.append_assoc]⟩
      rw [eventValue_of_part hT hpre hne] at hvalue
      cases hvalue
    · obtain ⟨u', r', hp', hr'⟩ :=
        Split.tail_begins dataField_ne_nil (t := p) (by rw [hpieces]; exact hs)
      refine not_carries_of_inner hT (u := u') (r := r' ++ q) ?_ ?_ hvalue
      · rw [← hq, hp', List.append_assoc]
      · exact hr'.trans (List.prefix_append _ _)

theorem ObjectText.eventValue {lib : Libs} {T : Text} {v : Value} (hT : ObjectText lib T v) :
    eventValue lib T = some v := by
  have hbrace := hT.brace
  have hne : ¬ (T = [] ∨ T = doneText) := by
    rintro (rfl | rfl)
    · cases hbrace
    · exact absurd hbrace (by decide)
  rw [Metering.eventValue, payload_of_line hT.line, hT.trimmed, if_neg hne]
  exact hT.parsed

/-- An object without a `data:` in its text is the value of its event. -/
theorem ObjectText.valuesIn {lib : Libs} {T : Text} {v : Value} (hT : ObjectText lib T v)
    (hclean : ¬ dataField <:+: T) : valuesIn lib T = [v] := by
  rw [Metering.valuesIn, Split.pieces_of_not_infix dataField_ne_nil hclean, List.filterMap_cons,
    hT.eventValue]
  rfl

/-! ### Streams of objects -/

/-- The texts of the events of a stream of objects, with the end marker or without. -/
def eventTexts (lib : Libs) (vs : List Value) (done : Bool) : List Text :=
  vs.map lib.json.toString ++ if done then [doneText] else []

/-- The object has no `data:` in its text. -/
def Clean (lib : Libs) (v : Value) : Prop := ¬ dataField <:+: lib.json.toString v

instance (lib : Libs) : DecidablePred (Clean lib) := fun _ => inferInstanceAs (Decidable (¬ _))

/-- What an object contributes to a stream. -/
theorem filter_valuesIn_object {lib : Libs} {v : Value}
    (hv : ObjectText lib (lib.json.toString v) v) :
    (valuesIn lib (lib.json.toString v)).filter (carries lib) =
      ([v].filter fun w => Clean lib w).filter (carries lib) := by
  by_cases hclean : Clean lib v
  · have hkept : ([v].filter fun w => Clean lib w) = [v] := by
      rw [List.filter_cons, if_pos (decide_eq_true hclean), List.filter_nil]
    rw [hkept, hv.valuesIn hclean]
  · have hgone : ([v].filter fun w => Clean lib w) = [] := by
      rw [List.filter_cons, if_neg (by rwa [decide_eq_true_eq]), List.filter_nil]
    rw [hgone, filter_valuesIn_eq_nil hv.toEventText (List.prefix_refl _)
      (Or.inr (not_not.1 hclean)), List.filter_nil]

/-- Of a stream of objects, those without a `data:` in their texts are read. -/
theorem filter_iter_objects {lib : Libs} {vs : List Value} {done : Bool}
    (hvs : ∀ v ∈ vs, ObjectText lib (lib.json.toString v) v) :
    (iterSseEventValues lib (sseBody (eventTexts lib vs done))).filter (carries lib) =
      (vs.filter fun v => Clean lib v).filter (carries lib) := by
  have hdone : (if done then [doneText] else []).flatMap (valuesIn lib) = [] := by
    cases done <;> rfl
  rw [iter_sseBody, eventTexts, List.flatMap_append, hdone, List.append_nil]
  induction vs with
  | nil => rfl
  | cons v vs ih =>
      have hfirst : (v :: vs).filter (fun w => Clean lib w) =
          ([v].filter fun w => Clean lib w) ++ vs.filter fun w => Clean lib w := by
        rw [← List.filter_append, List.singleton_append]
      rw [List.map_cons, List.flatMap_cons, List.filter_append,
        filter_valuesIn_object (hvs v List.mem_cons_self),
        ih fun w hw => hvs w (List.mem_cons_of_mem v hw), hfirst, List.filter_append]

/-- **A stream is billed by its objects exactly when those with a `data:` in their texts do not
matter for it.** -/
theorem readsFormat_iff (lib : Libs) (vs : List Value) (done : Bool)
    (hvs : ∀ v ∈ vs, ObjectText lib (lib.json.toString v) v) :
    extractUsageFromSseBody lib (sseBody (eventTexts lib vs done)) = billed lib vs ↔
      billed lib (vs.filter fun v => Clean lib v) = billed lib vs := by
  rw [extract_eq_billed, ← billed_filter, filter_iter_objects hvs, billed_filter]

/-- A receipt of 900 tokens and the bytes it encodes. -/
def sampleReceipt : Text := "eyJ0b2tlbl9jb3VudCI6OTAwfQ==".toList

def sampleReceiptBytes : List UInt8 :=
  [123, 34, 116, 111, 107, 101, 110, 95, 99, 111, 117, 110, 116, 34, 58, 57, 48, 48, 125]

/-- Libraries that know one object and the receipt. -/
def sampleLibs (fields : Fields) : Libs where
  json := .ofTexts [.object fields]
  base64 t := if t = sampleReceipt then some sampleReceiptBytes else none
  tokenCount bytes := if bytes = sampleReceiptBytes then some 900 else none

theorem length_trim_le (t : Text) : (Text.trim t).length ≤ t.length := by
  rw [Text.trim, List.length_reverse]
  refine (List.length_dropWhile_le _ _).trans ?_
  rw [List.length_reverse]
  exact List.length_dropWhile_le _ _

/-- The sample libraries read no text that is shorter than that of their object. -/
theorem eventText_sampleLibs {fields : Fields} {T : Text} (hline : '\n' ∉ T)
    (htrim : Text.trim T = T) (hlen : T.length ≤ (Value.object fields).compact.length) :
    EventText (sampleLibs fields) T := by
  have hknown : ∀ t w, (sampleLibs fields).json.fromStr t = some w →
      (Value.object fields).compact = t := by
    intro t w h
    have hfind : [Value.object fields].find? (fun v => v.compact = t) = some w := h
    have heq := List.find?_some hfind
    rw [decide_eq_true_eq, List.mem_singleton.1 (List.mem_of_find?_eq_some hfind)] at heq
    exact heq
  refine ⟨hline, htrim, fun p hp hne => ?_, fun u r s heq hs w hw => ?_⟩
  · cases h : (sampleLibs fields).json.fromStr (Text.trim p) with
    | none => rfl
    | some w =>
        have hshort := length_trim_le p
        rw [← hknown _ w h] at hshort
        exact absurd (hp.eq_of_length_le (hlen.trans hshort)) hne
  · have hshort := (length_trim_le s).trans hs.length_le
    have hpos := List.length_pos_iff.2 dataField_ne_nil
    rw [← hknown _ w hw] at hshort
    rw [heq, List.length_append, List.length_append] at hlen
    omega

/-- The text of the object the sample libraries know. -/
theorem objectText_sampleLibs {fields : Fields} (hline : '\n' ∉ (Value.object fields).compact)
    (htrim : Text.trim (Value.object fields).compact = (Value.object fields).compact) :
    ObjectText (sampleLibs fields) (Value.object fields).compact (.object fields) := by
  have hparsed : [Value.object fields].find? (fun v => v.compact = (Value.object fields).compact) =
      some (.object fields) := by
    rw [List.find?_cons, decide_eq_true rfl]
  exact ⟨eventText_sampleLibs hline htrim (Nat.le_refl _), rfl, hparsed, fields, rfl⟩

/-- The last object of a stream. -/
def sampleUsage : Fields :=
  [⟨"usage".toList, .object [⟨"prompt_tokens".toList, .ofU64 10⟩,
    ⟨"completion_tokens".toList, .ofU64 5⟩]⟩]

/-- The same with a `data:` in a string. -/
def sampleQuoting : Fields := ⟨"id".toList, .string "data:".toList⟩ :: sampleUsage

/-- Nothing is left out. -/
theorem readsFormat_sampleUsage :
    extractUsageFromSseBody (sampleLibs sampleUsage)
        (sseBody (eventTexts (sampleLibs sampleUsage) [.object sampleUsage] true)) =
      billed (sampleLibs sampleUsage) [.object sampleUsage] := by
  refine (readsFormat_iff (sampleLibs sampleUsage) [.object sampleUsage] true fun v hv => ?_).2 ?_
  · obtain rfl := List.mem_singleton.1 hv
    exact objectText_sampleLibs (by decide) (by decide)
  · rfl

/-- **An object with a `data:` in one of its strings is not billed.** -/
theorem readsFormat_breaks :
    ¬ ∀ (lib : Libs) (vs : List Value) (done : Bool),
      (∀ v ∈ vs, ObjectText lib (lib.json.toString v) v) →
      extractUsageFromSseBody lib (sseBody (eventTexts lib vs done)) = billed lib vs := by
  intro hall
  have h := hall (sampleLibs sampleQuoting) [.object sampleQuoting] true fun v hv => by
    obtain rfl := List.mem_singleton.1 hv
    exact objectText_sampleLibs (by decide) (by decide)
  have hread : extractUsageFromSseBody (sampleLibs sampleQuoting)
      (sseBody (eventTexts (sampleLibs sampleQuoting) [.object sampleQuoting] true)) = none := rfl
  have hbilled : billed (sampleLibs sampleQuoting) [.object sampleQuoting] = some ⟨10, 5⟩ := rfl
  exact absurd ((hread.symm.trans h).trans hbilled) (by decide)

/-! ### A response that is not streamed -/

/-- The output tokens that the member `usage` reports, zero without it. -/
def reportedOutput (v : Value) : UInt64 :=
  match extractUsageFromJson v with
  | some u => u.outputTokens
  | none => 0

theorem max_eq_left_iff (a b : UInt64) : max a b = a ↔ b ≤ a := by
  rw [max_eq_ite]
  split
  · rename_i hlt
    refine ⟨fun h => ?_, fun hle => absurd hlt (UInt64.not_lt.2 hle)⟩
    exact absurd (h ▸ hlt) (UInt64.lt_irrefl _)
  · rename_i hlt
    exact ⟨fun _ => UInt64.not_lt.1 hlt, fun _ => rfl⟩

/-- A single object is billed by its member `usage` alone. -/
theorem billed_singleton_iff (lib : Libs) (v : Value) :
    billed lib [v] = extractUsageFromJson v ↔
      ∀ tc, sparklReceiptOutputTokens lib v = some tc → tc ≤ reportedOutput v := by
  have husage : lastUsage [v] = extractUsageFromJson v :=
    (lastUsage_concat [] v).trans (Option.or_none ..)
  have hreceipt : maxReceipt lib [v] = (sparklReceiptOutputTokens lib v).getD 0 := by
    rw [← List.nil_append [v], maxReceipt_concat]
    cases sparklReceiptOutputTokens lib v with
    | none => rfl
    | some tc =>
        refine (max_eq_ite _ _).trans ?_
        split
        · rfl
        · rename_i hzero
          exact (UInt64.le_zero_iff.1 (UInt64.not_lt.1 hzero)).symm
  have hle : (∀ tc, sparklReceiptOutputTokens lib v = some tc → tc ≤ reportedOutput v) ↔
      maxReceipt lib [v] ≤ reportedOutput v := by
    rw [hreceipt]
    cases sparklReceiptOutputTokens lib v with
    | none => exact ⟨fun _ => UInt64.zero_le, fun _ tc h => (by cases h)⟩
    | some tc => exact ⟨fun h => h tc rfl, fun h tc' h' => Option.some.inj h' ▸ h⟩
  rw [hle, billed, husage, reportedOutput]
  cases extractUsageFromJson v with
  | none =>
      dsimp only
      rw [UInt64.le_zero_iff]
      split
      · rename_i hzero
        exact ⟨fun _ => hzero, fun _ => rfl⟩
      · rename_i hpos
        exact ⟨fun h => (by cases h), fun h => absurd h hpos⟩
  | some u =>
      dsimp only
      rw [← max_eq_left_iff]
      constructor
      · intro h
        exact congrArg ParsedUsage.outputTokens (Option.some.inj h)
      · intro h
        rw [h]

/-- **A response and the stream of it as a single event are billed alike exactly when no receipt
counts more than the member `usage` reports.** -/
theorem agree_iff (lib : Libs) (v : Value) (body : Text) (hbody : lib.json.fromStr body = some v)
    (hv : ObjectText lib (lib.json.toString v) v) (hclean : Clean lib v) :
    extractUsageFromBody lib body = extractUsageFromSseBody lib (sseBody [lib.json.toString v]) ↔
      ∀ tc, sparklReceiptOutputTokens lib v = some tc → tc ≤ reportedOutput v := by
  have hstream : extractUsageFromSseBody lib (sseBody [lib.json.toString v]) = billed lib [v] := by
    rw [extract_eq_billed, iter_sseBody, List.flatMap_cons, hv.valuesIn hclean]
    rfl
  rw [← billed_singleton_iff, hstream, extractUsageFromBody, hbody, Option.bind_some, eq_comm]

/-- An object that carries only a receipt. -/
def sampleSparkl : Fields :=
  [⟨"choices".toList, .array []⟩,
    ⟨"sparkl".toList, .object [⟨"receipt".toList, .string sampleReceipt⟩]⟩]

/-- An object without a receipt. -/
theorem agree_sampleUsage :
    extractUsageFromBody (sampleLibs sampleUsage) (Value.object sampleUsage).compact =
      extractUsageFromSseBody (sampleLibs sampleUsage)
        (sseBody [(Value.object sampleUsage).compact]) := by
  refine (agree_iff (sampleLibs sampleUsage) (.object sampleUsage)
    (Value.object sampleUsage).compact rfl ?_ ?_).2 ?_
  · exact objectText_sampleLibs (by decide) (by decide)
  · decide
  · intro tc h
    cases h

/-- **A response that is not streamed is not billed by its receipt.** -/
theorem agree_breaks :
    ¬ ∀ (lib : Libs) (v : Value) (body : Text), lib.json.fromStr body = some v →
      ObjectText lib (lib.json.toString v) v → Clean lib v →
      extractUsageFromBody lib body =
        extractUsageFromSseBody lib (sseBody [lib.json.toString v]) := by
  intro hall
  have h := hall (sampleLibs sampleSparkl) (.object sampleSparkl)
    (Value.object sampleSparkl).compact rfl
    (objectText_sampleLibs (by decide +kernel) (by decide +kernel)) (by decide +kernel)
  have hbody : extractUsageFromBody (sampleLibs sampleSparkl)
      (Value.object sampleSparkl).compact = none := rfl
  have hstream : extractUsageFromSseBody (sampleLibs sampleSparkl)
      (sseBody [(Value.object sampleSparkl).compact]) = some ⟨0, 900⟩ := rfl
  exact absurd ((hbody.symm.trans h).trans hstream) (by decide)

end Metering
