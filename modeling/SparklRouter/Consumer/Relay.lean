/-
**The response to a client, and the frames it is made from.**

A node answers a request with frames: its status and headers, the chunks of the body, and an end or
an error.  `collect_http_response` (`src/consumer/sse.rs`) folds them into one response, and
`chat_completions` makes a response of its errors too; `sse_from_pending_with_guard` returns a
response at once and lets the chunks follow.  The two read the same frames with different eyes.  The
first collects status, headers and body, and builds its response from the status and the body only.
The second looks at the chunks only, so its status is 200 whatever the node says.

The names and values of headers are parsed by the HTTP library, which is a parameter.

Main definitions:

* `Relay.gatherFrame`, `Relay.collectHttpResponse` — the loop of `collect_http_response`, with the
  headers;
* `Relay.sseFromPendingWithGuard` — the response of a stream;
* `Relay.Faithful` — the response says what the frames say;
* `Relay.SaysOk` — the last word of the frames on the status is 200.

Main results:

* `Relay.received_gathering` — the requests of the tunnel collect the same, but for the headers;
* `Relay.faithful_iff` — **a response is faithful exactly when the node sends no header**;
* `Relay.sameStatus_iff` — **streamed and collected, the frames give one status exactly when their
  last word on it is 200**.
-/

import SparklRouter.Consumer.ChatCompletions
import SparklRouter.Consumer.Sse

set_option relaxedAutoImplicit false
set_option autoImplicit false

namespace Relay

open Json Sse Tunnel

/-! ### Collecting -/

/-- The conversions of the HTTP library. -/
structure HttpHeaders where
  headerName : Text → Option Text
  headerValue : Text → Option Text

/-- The variables of the loop: the header map is keyed by name. -/
structure Gathering where
  status : UInt16
  headers : HashMap Text Text
  body : Text

/-- The members of a JSON object whose value is a text. -/
def stringMembers (headers : Value) : List (Text × Text) :=
  (headers.asObject.getD []).filterMap fun m => m.2.asStr.map fun s => (m.1, s)

section

variable (http : HttpHeaders)

def insertHeader (headers : HashMap Text Text) (m : Text × Text) : HashMap Text Text :=
  match http.headerName m.1, http.headerValue m.2 with
  | some name, some value => headers.insert name value
  | _, _ => headers

/-- The response is built with the status and the body. -/
def Gathering.finish (acc : Gathering) : CollectedResponse := ⟨acc.status, [], acc.body⟩

/-- The body of the loop. -/
def gatherFrame (acc : Gathering) : InboundFrame → Gathering ⊕ Outcome
  | .response s members =>
      .inl { acc with
        status := (statusFromU16 s).getD 200
        headers := members.foldl (insertHeader http) acc.headers }
  | .chunk data => .inl { acc with body := acc.body ++ data }
  | .endFrame s =>
      .inr (.ok (Gathering.finish { acc with status := (statusFromU16 s).getD acc.status }))
  | .error code message => .inr (.err ((statusFromU16 code).getD 502) message)
  | .activateResponse _ => .inl acc

/-- What comes after the frames. -/
inductive Ending
  | closed
  | timedOut
deriving DecidableEq

def gatherFrames (ending : Ending) (acc : Gathering) : List InboundFrame → Outcome
  | [] =>
      match ending with
      | .closed => .ok acc.finish
      | .timedOut => upstreamTimeout
  | frame :: frames =>
      match gatherFrame http acc frame with
      | .inl acc' => gatherFrames ending acc' frames
      | .inr outcome => outcome

/-- `collect_http_response` on the frames it receives in time. -/
def collectHttpResponse (frames : List InboundFrame) (ending : Ending) : Outcome :=
  gatherFrames http ending ⟨200, ∅, []⟩ frames

end

/-- The status of the answer `chat_completions` gives when nothing is streamed. -/
def answered : Outcome → UInt16
  | .ok collected => collected.status
  | .err status message =>
      (ChatCompletions.errorResponse status "router_error".toList message).status

/-! ### Streaming -/

structure StreamedResponse where
  status : UInt16
  headers : List (Text × Text)
  events : List SseEvent

section

variable (extractUsage : Text → Option ParsedUsage)

/-- The loop of the stream. -/
def streamFrames (ending : Ending) (st : Stream) : List InboundFrame → Stream
  | [] =>
      match ending with
      | .closed => st.finish extractUsage
      | .timedOut => (st.fail .timeout).finish extractUsage
  | frame :: frames =>
      let st' := st.frame extractUsage frame
      match st'.pc with
      | .running => streamFrames ending st' frames
      | .breaking => st'.finish extractUsage
      | .ended | .dropped => st'

def sseFromPendingWithGuard (frames : List InboundFrame) (ending : Ending) : StreamedResponse where
  status := 200
  headers :=
    [("content-type".toList, "text/event-stream".toList),
      ("cache-control".toList, "no-cache".toList)]
  events := (streamFrames extractUsage ending Stream.new frames).yielded

end

/-! ### The requests of the tunnel collect the same -/

section

variable (http : HttpHeaders)

/-- The variables that reach a response. -/
def Gathering.collecting (acc : Gathering) : Collecting := ⟨acc.status, acc.body⟩

theorem collectFrame_collecting (acc : Gathering) (frame : InboundFrame) :
    collectFrame acc.collecting frame = (gatherFrame http acc frame).map Gathering.collecting id := by
  cases frame with
  | response s members => rfl
  | chunk data => rfl
  | endFrame s => rfl
  | error code message => rfl
  | activateResponse apiKey => rfl

/-- **The requests of the tunnel collect the same**, but for the headers. -/
theorem received_gathering (acc : Gathering) (frame : InboundFrame) :
    acc.collecting.received (some frame) =
      match gatherFrame http acc frame with
      | .inl acc' => .collecting acc'.collecting
      | .inr outcome => .collected outcome .rx := by
  rw [Collecting.received, collectFrame_collecting http]
  cases gatherFrame http acc frame with
  | inl acc' => rfl
  | inr outcome => rfl

/-! ### Faithful responses -/

/-- The chunks of a response add up to its body. -/
theorem gatherFrames_chunks (ending : Ending) (acc : Gathering) (chunks : List Text)
    (frames : List InboundFrame) :
    gatherFrames http ending acc (chunks.map InboundFrame.chunk ++ frames) =
      gatherFrames http ending { acc with body := acc.body ++ chunks.flatten } frames := by
  induction chunks generalizing acc with
  | nil => simp
  | cons chunk chunks ih =>
      rw [List.map_cons, List.cons_append, gatherFrames]
      simp only [gatherFrame]
      rw [ih, List.flatten_cons, List.append_assoc]

/-- The frames of an answer that ends as it should. -/
def answerFrames (status : UInt16) (headers : Value) (chunks : List Text) (status' : UInt16) :
    List InboundFrame :=
  .response status (stringMembers headers) :: (chunks.map InboundFrame.chunk ++ [.endFrame status'])

/-- **The response says what the frames say**: the body is that of the chunks, the status the one of
the end if it is a status, and every header that can be one is there. -/
def Faithful (status : UInt16) (headers : Value) (chunks : List Text) (status' : UInt16)
    (outcome : Outcome) : Prop :=
  ∃ response, outcome = .ok response ∧ response.body = chunks.flatten ∧
    response.status = (statusFromU16 status').getD status ∧
    ∀ m ∈ stringMembers headers, ∀ name value, http.headerName m.1 = some name →
      http.headerValue m.2 = some value → (name, value) ∈ response.headers

/-- No member of the headers is a header. -/
def NoHeaders (headers : Value) : Prop :=
  ∀ m ∈ stringMembers headers, http.headerName m.1 = none ∨ http.headerValue m.2 = none

theorem collectHttpResponse_answerFrames (status : UInt16) (headers : Value) (chunks : List Text)
    (status' : UInt16) (ending : Ending) :
    collectHttpResponse http (answerFrames status headers chunks status') ending =
      .ok ⟨(statusFromU16 status').getD ((statusFromU16 status).getD 200), [], chunks.flatten⟩ := by
  rw [collectHttpResponse, answerFrames, gatherFrames]
  simp only [gatherFrame]
  rw [gatherFrames_chunks, gatherFrames]
  rfl

theorem statusFromU16_eq_some {s t : UInt16} (h : statusFromU16 s = some t) : t = s := by
  unfold statusFromU16 at h
  split at h
  · exact (Option.some.inj h).symm
  · cases h

/-- **A response is faithful exactly when the node sends no header** and one of its two statuses is
a status. -/
theorem faithful_iff (status : UInt16) (headers : Value) (chunks : List Text) (status' : UInt16)
    (ending : Ending) :
    Faithful http status headers chunks status'
        (collectHttpResponse http (answerFrames status headers chunks status') ending) ↔
      NoHeaders http headers ∧ (statusFromU16 status' ≠ none ∨ statusFromU16 status ≠ none) := by
  rw [collectHttpResponse_answerFrames]
  constructor
  · rintro ⟨response, hresponse, -, hstatus, hheaders⟩
    obtain rfl := Outcome.ok.inj hresponse
    constructor
    · intro m hm
      cases hname : http.headerName m.1 with
      | none => exact Or.inl rfl
      | some name =>
          cases hvalue : http.headerValue m.2 with
          | none => exact Or.inr rfl
          | some value => cases hheaders m hm name value hname hvalue
    · by_contra hnone
      obtain ⟨hend, hfirst⟩ := not_or.1 hnone
      -- with two statuses that are none, the response has 200, which is one
      rw [not_not.1 hend, not_not.1 hfirst] at hstatus
      obtain rfl : (200 : UInt16) = status := hstatus
      exact hfirst (by decide)
  · rintro ⟨hnone, hstatus⟩
    refine ⟨_, rfl, rfl, ?_, fun m hm name value hname hvalue => ?_⟩
    · cases hend : statusFromU16 status' with
      | some s => rfl
      | none =>
          obtain ⟨s, hs⟩ := Option.ne_none_iff_exists'.1 (hstatus.resolve_left fun h => h hend)
          rw [hs, statusFromU16_eq_some hs]
          rfl
    · rcases hnone m hm with hno | hno
      · rw [hno] at hname
        cases hname
      · rw [hno] at hvalue
        cases hvalue

end

/-- The library on the header below. -/
def sampleHttp : HttpHeaders := ⟨fun name => some (name.map Char.toLower), some⟩

/-- **The content type of an answer is lost.** -/
theorem faithful_breaks :
    ¬ ∀ (http : HttpHeaders) (status : UInt16) (headers : Value) (chunks : List Text)
      (status' : UInt16) (ending : Ending),
      Faithful http status headers chunks status'
        (collectHttpResponse http (answerFrames status headers chunks status') ending) := by
  intro h
  obtain ⟨response, hresponse, -, -, hheaders⟩ := h sampleHttp 200
    (.object [⟨"content-type".toList, .string "application/json".toList⟩]) ["\x7b\x7d".toList] 200
    .closed
  rw [collectHttpResponse_answerFrames] at hresponse
  obtain rfl := Outcome.ok.inj hresponse
  cases hheaders ("content-type".toList, "application/json".toList) (by decide)
    "content-type".toList "application/json".toList (by decide) rfl

/-! ### The status of a stream -/

/-- The frame ends the answer. -/
def ends : InboundFrame → Bool
  | .endFrame _ | .error _ _ => true
  | _ => false

/-- The status a frame announces. -/
def announced : InboundFrame → Option UInt16
  | .response s _ => some ((statusFromU16 s).getD 200)
  | _ => none

/-- The last status the frames announce. -/
def lastAnnounced (start : UInt16) (frames : List InboundFrame) : UInt16 :=
  ((frames.filterMap announced).getLast?).getD start

/-- **The last word of the frames on the status is 200**: that of the frame that ends the answer if
it is a status, and otherwise the last one announced before. -/
def SaysOk (start : UInt16) (frames : List InboundFrame) (ending : Ending) : Prop :=
  match frames.find? ends with
  | some (.error code _) => code = 200
  | some (.endFrame s) =>
      s = 200 ∨
        statusFromU16 s = none ∧ lastAnnounced start (frames.takeWhile fun f => !ends f) = 200
  | _ => ending = .closed ∧ lastAnnounced start frames = 200

theorem getD_statusFromU16_eq_200 {s d : UInt16} :
    (statusFromU16 s).getD d = 200 ↔ s = 200 ∨ statusFromU16 s = none ∧ d = 200 := by
  cases hs : statusFromU16 s with
  | none =>
      have hne : s ≠ 200 := by
        rintro rfl
        cases hs
      simp [hne]
  | some t =>
      rw [statusFromU16_eq_some hs]
      simp

/-- A frame that does not end the answer passes its status on. -/
theorem saysOk_cons {start : UInt16} {frame : InboundFrame} {frames : List InboundFrame}
    {ending : Ending} (h : ends frame = false) :
    SaysOk start (frame :: frames) ending ↔
      SaysOk ((announced frame).getD start) frames ending := by
  have hlast : ∀ rest : List InboundFrame,
      lastAnnounced start (frame :: rest) = lastAnnounced ((announced frame).getD start) rest := by
    intro rest
    unfold lastAnnounced
    rw [List.filterMap_cons]
    cases announced frame with
    | none => rfl
    | some s =>
        rw [List.getLast?_cons]
        rfl
  have htake : (frame :: frames).takeWhile (fun f => !ends f) =
      frame :: frames.takeWhile fun f => !ends f :=
    List.takeWhile_cons_of_pos (by rw [h]; rfl)
  unfold SaysOk
  rw [List.find?_cons_of_neg (by rw [h]; simp), htake, hlast, hlast]

/-- **The collected answer has status 200 exactly when that is the last word of the frames.** -/
theorem answered_gatherFrames (http : HttpHeaders) (ending : Ending) (frames : List InboundFrame)
    (acc : Gathering) :
    answered (gatherFrames http ending acc frames) = 200 ↔ SaysOk acc.status frames ending := by
  induction frames generalizing acc with
  | nil =>
      cases ending with
      | closed => exact ⟨fun h => ⟨rfl, h⟩, fun h => h.2⟩
      | timedOut =>
          have htimeout : (504 : UInt16) ≠ 200 := by decide
          exact ⟨fun h => absurd h htimeout, fun h => by cases h.1⟩
  | cons frame frames ih =>
      cases frame with
      | response s members =>
          rw [saysOk_cons rfl, gatherFrames]
          exact ih _
      | chunk data =>
          rw [saysOk_cons rfl, gatherFrames]
          exact ih _
      | activateResponse apiKey =>
          rw [saysOk_cons rfl, gatherFrames]
          exact ih _
      | endFrame s => exact getD_statusFromU16_eq_200
      | error code message =>
          refine getD_statusFromU16_eq_200.trans ⟨fun h => h.resolve_right fun hn => ?_, Or.inl⟩
          exact absurd hn.2 (by decide)

/-- **Streamed and collected, the frames give one status exactly when their last word on it is
200.** -/
theorem sameStatus_iff (http : HttpHeaders) (extractUsage : Text → Option ParsedUsage)
    (frames : List InboundFrame) (ending : Ending) :
    (sseFromPendingWithGuard extractUsage frames ending).status =
        answered (collectHttpResponse http frames ending) ↔ SaysOk 200 frames ending :=
  eq_comm.trans (answered_gatherFrames http ending frames _)

/-- The first frame announces a failure. -/
def FailsFirst (frames : List InboundFrame) : Prop :=
  (∃ s members, frames.head? = some (.response s members) ∧ 400 ≤ s ∧ s < 600) ∨
    ∃ code message, frames.head? = some (.error code message)

/-- **A failed request is a success when streamed.** -/
theorem sameStatus_breaks :
    ¬ ∀ (http : HttpHeaders) (extractUsage : Text → Option ParsedUsage)
      (frames : List InboundFrame) (ending : Ending), FailsFirst frames →
      (sseFromPendingWithGuard extractUsage frames ending).status =
        answered (collectHttpResponse http frames ending) := by
  intro h
  have hsame := h sampleHttp (fun _ => none) [.error 503 "overloaded".toList] .closed
    (Or.inr ⟨503, _, rfl⟩)
  exact absurd hsame (by decide)

end Relay
