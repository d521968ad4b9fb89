/-
**Metering a response that comes in chunks.**

The stream of `sse_from_pending_with_guard` reads the usage of everything it has accumulated again
with every chunk, and keeps the last one it finds.  At the end of a chunk the text may be cut
anywhere, within `data:` or within the text of an object.  What has been cut off says nothing about
tokens, so the beginning of a stream of events is billed by the events that are complete in it, and
the usage that is kept at the end is that of the whole body.

Main definitions:

* `Metering.Kept` — what the stream has kept of the chunks so far.

Main results:

* `Metering.filter_iter_part` — **a part of the body contributes only what the body does**;
* `Metering.Kept.frame`, `Metering.kept_frames` — every frame, and so every run, keeps it;
* `Metering.metered_chunks` — **the usage at the end is that of the whole body**.
-/

import SparklRouter.Consumer.Metering
import SparklRouter.Consumer.SseComplete

set_option relaxedAutoImplicit false
set_option autoImplicit false

namespace Metering

open Json
open Sse (ParsedUsage)
open Tunnel (InboundFrame)

/-! ### Parts of a body -/

/-- Without a whole `data:` there is no segment. -/
theorem iter_of_prefix_dataField (lib : Libs) {W : Text} (h : W <+: dataField) :
    iterSseEventValues lib W = [] := by
  by_cases heq : W = dataField
  · rw [heq]
    rfl
  · have hnot : ¬ dataField <:+: W := fun hinfix => heq (h.eq_of_length_le hinfix.length_le)
    rw [iterSseEventValues, Split.pieces_of_not_infix dataField_ne_nil hnot]
    rfl

/-- A beginning of two texts put together ends within the first or within the second. -/
theorem begins_append_cases {W a b : Text} (h : W <+: a ++ b) :
    W <+: a ∨ ∃ z, W = a ++ z ∧ z <+: b := by
  rcases List.prefix_or_prefix_of_prefix h (List.prefix_append a b) with ha | ⟨z, rfl⟩
  · exact Or.inl ha
  · exact Or.inr ⟨z, rfl, (List.prefix_append_right_inj a).1 h⟩

/-- A part of an event contributes nothing, unless the event is complete in it. -/
theorem filter_iter_part_frame {lib : Libs} {T W : Text} (hT : EventText lib T)
    (h : W <+: frame T) : (iterSseEventValues lib W).filter (carries lib) = [] ∨
      (iterSseEventValues lib W).filter (carries lib) = (valuesIn lib T).filter (carries lib) := by
  rw [frame_eq] at h
  rcases begins_append_cases h with hW | ⟨y, rfl, hy⟩
  · rw [iter_of_prefix_dataField lib hW]
    exact Or.inl rfl
  · rw [iter_append_left]
    rcases List.prefix_cons_iff.1 hy with rfl | ⟨y', rfl, hy'⟩
    · exact Or.inl rfl
    · rw [valuesIn_space]
      rcases begins_append_cases hy' with hp | ⟨z, rfl, hz⟩
      · by_cases hne : y' = T
        · exact Or.inr (by rw [hne])
        · exact Or.inl (filter_valuesIn_eq_nil hT hp (Or.inl hne))
      · -- the line of the event is complete
        refine Or.inr ?_
        rcases List.prefix_cons_iff.1 hz with rfl | ⟨z', rfl, hz'⟩
        · rw [List.append_nil]
        · have hrest : iterSseEventValues lib z' = [] := by
            rcases List.prefix_cons_iff.1 hz' with rfl | ⟨z'', rfl, hz''⟩
            · rfl
            · rw [List.prefix_nil.1 hz'']
              rfl
          rw [valuesIn_newline, hrest, List.append_nil]

/-- **A part of the body contributes only what the body does**, in the same order. -/
theorem filter_iter_part {lib : Libs} {Ts : List Text} (hTs : ∀ T ∈ Ts, EventText lib T)
    {W : Text} (h : W <+: sseBody Ts) :
    (iterSseEventValues lib W).filter (carries lib) <+:
      (iterSseEventValues lib (sseBody Ts)).filter (carries lib) := by
  induction Ts generalizing W with
  | nil =>
      rw [List.prefix_nil.1 h]
      exact List.prefix_refl _
  | cons T Ts ih =>
      have hbody : sseBody (T :: Ts) = frame T ++ sseBody Ts := by
        rw [sseBody, List.flatMap_cons, ← sseBody]
      rw [hbody] at h ⊢
      rw [iter_frame_append, List.filter_append]
      rcases begins_append_cases h with hW | ⟨W', rfl, hW'⟩
      · rcases filter_iter_part_frame (hTs T List.mem_cons_self) hW with hnil | hall
        · rw [hnil]
          exact List.nil_prefix
        · rw [hall]
          exact List.prefix_append _ _
      · rw [iter_frame_append, List.filter_append, List.prefix_append_right_inj]
        exact ih (fun S hS => hTs S (List.mem_cons_of_mem T hS)) hW'

/-! ### Billing a part -/

theorem isSome_billed_iff (lib : Libs) (vs : List Value) :
    (billed lib vs).isSome = true ↔ (lastUsage vs).isSome = true ∨ maxReceipt lib vs ≠ 0 := by
  rw [billed]
  cases lastUsage vs with
  | some u => exact ⟨fun _ => Or.inl rfl, fun _ => rfl⟩
  | none =>
      dsimp only
      split
      · rename_i hzero
        refine ⟨fun h => (by cases h), ?_⟩
        rintro (h | h)
        · cases h
        · exact absurd hzero h
      · rename_i hpos
        exact ⟨fun _ => Or.inr hpos, fun _ => rfl⟩

/-- More objects do not take a usage away. -/
theorem isSome_billed_append {lib : Libs} {vs : List Value} (h : (billed lib vs).isSome = true)
    (ws : List Value) : (billed lib (vs ++ ws)).isSome = true := by
  induction ws using List.reverseRecOn with
  | nil => rwa [List.append_nil]
  | append_singleton ws w ih =>
      rw [isSome_billed_iff] at ih ⊢
      rw [← List.append_assoc, lastUsage_concat, maxReceipt_concat]
      rcases ih with husage | hreceipt
      · refine Or.inl ?_
        cases extractUsageFromJson w with
        | none => exact husage
        | some u => rfl
      · refine Or.inr ?_
        cases sparklReceiptOutputTokens lib w with
        | none => exact hreceipt
        | some tc =>
            dsimp only
            rw [max_eq_ite]
            split
            · rename_i hlt
              exact fun hzero => UInt64.not_lt_zero (hzero ▸ hlt)
            · exact hreceipt

/-- A part of the body has no usage that the body does not have. -/
theorem isSome_extract_of_part {lib : Libs} {Ts : List Text} (hTs : ∀ T ∈ Ts, EventText lib T)
    {W : Text} (h : W <+: sseBody Ts) (hsome : (extractUsageFromSseBody lib W).isSome = true) :
    (extractUsageFromSseBody lib (sseBody Ts)).isSome = true := by
  obtain ⟨rest, hrest⟩ := filter_iter_part hTs h
  rw [extract_eq_billed, ← billed_filter] at hsome ⊢
  rw [← hrest]
  exact isSome_billed_append hsome rest

/-! ### What the stream keeps -/

/-- **What the stream has kept** of the chunks so far: it has accumulated them, it has the usage of
what it has accumulated if there is one, and what it has is the usage of a part of it. -/
structure Kept (lib : Libs) (frames : List InboundFrame) (st : Sse.Stream) : Prop where
  accumulated : st.accumulated = Sse.chunkText frames
  completion : st.completion = Sse.Completion.new
  latest : ∀ usage, extractUsageFromSseBody lib st.accumulated = some usage →
    st.latestUsage = some usage
  origin : ∀ usage, st.latestUsage = some usage →
    ∃ W, W <+: st.accumulated ∧ extractUsageFromSseBody lib W = some usage

theorem kept_new (lib : Libs) : Kept lib [] Sse.Stream.new where
  accumulated := rfl
  completion := rfl
  latest usage h := (by cases h)
  origin usage h := (by cases h)

/-- Every frame that is not terminal keeps it. -/
theorem Kept.frame {lib : Libs} {frames : List InboundFrame} {st : Sse.Stream}
    (h : Kept lib frames st) {f : InboundFrame} (hf : Tunnel.isTerminalFrame f = false) :
    Kept lib (frames ++ [f]) (st.frame (extractUsageFromSseBody lib) f) := by
  have hsame : Sse.chunkText [f] = [] → Kept lib (frames ++ [f]) st := by
    intro hnil
    refine ⟨?_, h.completion, h.latest, h.origin⟩
    rw [Sse.chunkText_append, hnil, List.append_nil, h.accumulated]
  cases f with
  | response status headers => exact hsame rfl
  | activateResponse apiKey => exact hsame rfl
  | endFrame status => cases hf
  | error code message => cases hf
  | chunk data =>
      have hdata : Sse.chunkText [.chunk data] = data := List.append_nil data
      refine ⟨?_, h.completion, fun usage husage => ?_, fun usage husage => ?_⟩
      · rw [Sse.chunkText_append, hdata, ← h.accumulated]
        rfl
      · rw [Sse.Stream.frame, Sse.Stream.chunk] at husage ⊢
        dsimp only at husage ⊢
        rw [husage]
        rfl
      · rw [Sse.Stream.frame, Sse.Stream.chunk] at husage ⊢
        dsimp only at husage ⊢
        cases hnow : extractUsageFromSseBody lib (st.accumulated ++ data) with
        | some u =>
            rw [hnow] at husage
            exact ⟨_, List.prefix_refl _, hnow.trans husage⟩
        | none =>
            rw [hnow] at husage
            obtain ⟨W, hW, hextract⟩ := h.origin usage husage
            exact ⟨W, hW.trans (List.prefix_append _ _), hextract⟩

theorem kept_frames (lib : Libs) {frames : List InboundFrame} (h : Tunnel.Plain frames) :
    Kept lib frames
      (frames.foldl (Sse.Stream.frame (extractUsageFromSseBody lib)) Sse.Stream.new) := by
  induction frames using List.reverseRecOn with
  | nil => exact kept_new lib
  | append_singleton frames f ih =>
      rw [List.foldl_concat]
      refine Kept.frame (ih fun g hg => h g (List.mem_append_left _ hg)) (h f ?_)
      exact List.mem_append_right _ List.mem_cons_self

/-- What has been kept of the whole body is its usage. -/
theorem Kept.usage {lib : Libs} {frames : List InboundFrame} {st : Sse.Stream}
    (h : Kept lib frames st) {Ts : List Text} (hTs : ∀ T ∈ Ts, EventText lib T)
    (hbody : Sse.chunkText frames = sseBody Ts) :
    (st.latestUsage.orElse fun _ => extractUsageFromSseBody lib st.accumulated) =
      extractUsageFromSseBody lib (sseBody Ts) := by
  have hacc : st.accumulated = sseBody Ts := h.accumulated.trans hbody
  cases hlatest : st.latestUsage with
  | none =>
      rw [hacc]
      rfl
  | some usage =>
      obtain ⟨W, hW, hextract⟩ := h.origin usage hlatest
      rw [hacc] at hW
      have hsome := isSome_extract_of_part hTs hW (by rw [hextract]; rfl)
      obtain ⟨u, hu⟩ := Option.isSome_iff_exists.1 hsome
      have hsame := h.latest u (by rw [hacc]; exact hu)
      rw [hu, ← hsame, hlatest]
      rfl

/-- **Metering does not depend on where the chunks are cut**: however the body of a stream of events
comes, the usage at its end is that of the whole body, and what a part of the body says about tokens
the whole body says as well. -/
theorem metered_chunks (lib : Libs) (Ts : List Text) (hTs : ∀ T ∈ Ts, EventText lib T)
    (frames : List InboundFrame) (hplain : Tunnel.Plain frames)
    (hbody : Sse.chunkText frames = sseBody Ts) (status : UInt16) :
    ((frames ++ [InboundFrame.endFrame status]).foldl
        (Sse.Stream.frame (extractUsageFromSseBody lib)) Sse.Stream.new).completion.calls =
      [(extractUsageFromSseBody lib (sseBody Ts), Text.utf8Len (sseBody Ts),
        Sse.hasSparkl (sseBody Ts))] ∧
    ∀ W, W <+: sseBody Ts → ∀ v ∈ iterSseEventValues lib W, carries lib v = true →
      v ∈ iterSseEventValues lib (sseBody Ts) := by
  have hkept := kept_frames lib hplain
  constructor
  · rw [List.foldl_concat, Sse.Stream.frame, Sse.Stream.finish]
    dsimp only
    rw [hkept.usage hTs hbody, hkept.completion, hkept.accumulated, hbody]
    rfl
  · intro W hW v hv hcarries
    have hmem := (filter_iter_part hTs hW).subset (List.mem_filter.2 ⟨hv, hcarries⟩)
    exact (List.mem_filter.1 hmem).1

/-- A stream of one object and the end marker, cut within `data:` and within the object. -/
def sampleFrames : List InboundFrame :=
  let body := sseBody [(Value.object sampleUsage).compact, doneText]
  [.chunk (body.take 3), .response 200 [], .chunk ((body.drop 3).take 20), .chunk (body.drop 23)]

theorem metered_chunks_sampleFrames :
    ((sampleFrames ++ [InboundFrame.endFrame 200]).foldl
        (Sse.Stream.frame (extractUsageFromSseBody (sampleLibs sampleUsage)))
        Sse.Stream.new).completion.calls = [(some ⟨10, 5⟩, 74, false)] := by
  have hbody : Sse.chunkText sampleFrames =
      sseBody [(Value.object sampleUsage).compact, doneText] := by decide +kernel
  refine (metered_chunks (sampleLibs sampleUsage) [(Value.object sampleUsage).compact, doneText]
    ?_ sampleFrames ?_ hbody 200).1.trans ?_
  · intro T hT
    rcases List.mem_pair.1 hT with rfl | rfl
    · exact eventText_sampleLibs (by decide) (by decide) (Nat.le_refl _)
    · exact eventText_sampleLibs (by decide) (by decide) (by decide)
  · have hnone : ∀ f ∈ sampleFrames, Tunnel.isTerminalFrame f = false := by decide
    exact hnone
  · decide +kernel

end Metering
