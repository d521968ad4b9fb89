/-
**Requests through a tunnel and their responses.**

`src/consumer/sse.rs` turns the frames of a request into a response in one of two ways.
`collect_http_response` receives them until an `End` or `Error` frame or the end of the channel and
returns the whole body; `sse_from_pending_with_guard` hands the request to a bridge task that passes
the frames on through a second channel, from which the response stream yields the chunks.  This
module gives both as tasks cut at their await points, together with the dispatcher of
`src/tunnel/dispatch.rs` that feeds them: the system of all requests on one tunnel, its reader, and
any number of `fail_all_pending`.

A deadline may pass whenever its task waits, and the client may go away at any time.  The headers of
a `Response` frame are collected into a map that no response is built with, so they are left out;
what `extract_usage_from_sse_body` makes of a text is a parameter.

Main definitions:

* `Sse.Collecting`, `Sse.collectFrame` — the loop of `collect_http_response`;
* `Sse.Stream`, `Sse.Stream.poll`, `Sse.Completion` — the stream of `sse_from_pending_with_guard`;
* `Sse.BridgePc` — its bridge task;
* `Sse.Consumer`, `Sse.Consumer.step` — a request in flight, and its steps;
* `Sse.State`, `Sse.step` — the system.
-/

import SparklRouter.Concurrency.Transition
import SparklRouter.Tunnel.Dispatch

set_option relaxedAutoImplicit false
set_option autoImplicit false

namespace Sse

open Tunnel

/-! ### Collecting a response -/

/-- `StatusCode::from_u16`. -/
def statusFromU16 (s : UInt16) : Option UInt16 := if 100 ≤ s ∧ s < 1000 then some s else none

/-- The variables of the loop. -/
structure Collecting where
  status : UInt16
  body : Text
deriving DecidableEq

structure CollectedResponse where
  status : UInt16
  headers : List (Text × Text)
  body : Text
deriving DecidableEq

/-- The response is built with a status and a body. -/
def Collecting.finish (acc : Collecting) : CollectedResponse := ⟨acc.status, [], acc.body⟩

/-- What `collect_http_response` returns. -/
inductive Outcome
  | ok (response : CollectedResponse)
  | err (status : UInt16) (message : Text)
deriving DecidableEq

/-- The body of the loop. -/
def collectFrame (acc : Collecting) : InboundFrame → Collecting ⊕ Outcome
  | .response s _ => .inl { acc with status := (statusFromU16 s).getD 200 }
  | .chunk data => .inl { acc with body := acc.body ++ data }
  | .endFrame s =>
      .inr (.ok (Collecting.finish { acc with status := (statusFromU16 s).getD acc.status }))
  | .error code message => .inr (.err ((statusFromU16 code).getD 502) message)
  | .activateResponse _ => .inl acc

def upstreamTimeout : Outcome := .err 504 "upstream timeout".toList

/-! ### Streaming a response -/

structure ParsedUsage where
  inputTokens : UInt64
  outputTokens : UInt64
deriving DecidableEq

/-- `SseStreamCompletion`, with the calls of `on_complete` that were made. -/
structure Completion where
  guard : Bool
  onComplete : Bool
  fired : Bool
  calls : List (Option ParsedUsage × ℕ × Bool)
deriving DecidableEq

def Completion.new : Completion := ⟨true, true, false, []⟩

def Completion.fire (c : Completion) (usage : Option ParsedUsage) (bytes : ℕ) (hasSparkl : Bool) :
    Completion :=
  if c.fired then c
  else ⟨false, false, true, if c.onComplete then c.calls ++ [(usage, bytes, hasSparkl)] else c.calls⟩

def Completion.drop (c : Completion) : Completion :=
  if c.fired then c
  else ⟨false, false, false, if c.onComplete then c.calls ++ [(none, 0, false)] else c.calls⟩

/-- What the stream yields. -/
inductive SseEvent
  /-- The data of a chunk, as it came. -/
  | data (d : Text)
  /-- An event with the message of an `Error` frame. -/
  | error (message : Text)
  | timeout
deriving DecidableEq

def SseEvent.isError : SseEvent → Bool
  | .data _ => false
  | .error _ | .timeout => true

inductive StreamPc
  | running
  /-- Out of the loop with an error event yielded. -/
  | breaking
  | ended
  /-- The client went away. -/
  | dropped
deriving DecidableEq

structure Stream where
  accumulated : Text
  latestUsage : Option ParsedUsage
  yielded : List SseEvent
  pc : StreamPc
  completion : Completion
deriving DecidableEq

def Stream.new : Stream := ⟨[], none, [], .running, Completion.new⟩

def hasSparkl (body : Text) : Bool := decide ("\"sparkl\"".toList <:+: body)

section

variable (extractUsage : Text → Option ParsedUsage)

/-- `fire_complete` with what has been accumulated, and the end of the stream. -/
def Stream.finish (st : Stream) : Stream :=
  let usage := st.latestUsage.orElse fun _ => extractUsage st.accumulated
  { st with
    pc := .ended
    completion := st.completion.fire usage (Text.utf8Len st.accumulated) (hasSparkl st.accumulated) }

/-- The stream after a chunk. -/
def Stream.chunk (st : Stream) (data : Text) : Stream :=
  let accumulated := st.accumulated ++ data
  { st with
    accumulated := accumulated
    latestUsage := (extractUsage accumulated).orElse fun _ => st.latestUsage
    yielded := st.yielded ++ [.data data] }

def Stream.fail (st : Stream) (e : SseEvent) : Stream :=
  { st with yielded := st.yielded ++ [e], pc := .breaking }

/-- A frame the loop receives. -/
def Stream.frame (st : Stream) : InboundFrame → Stream
  | .chunk data => st.chunk extractUsage data
  | .endFrame _ => st.finish extractUsage
  | .error _ message => st.fail (.error message)
  | .response _ _ | .activateResponse _ => st

/-- The receiver goes with the stream. -/
def closeIfEnded (st : Stream) (frames : Channel 256 InboundFrame) :
    Stream × Channel 256 InboundFrame :=
  (st, if st.pc = .ended then frames.dropReceiver else frames)

/-- The stream runs up to its next await point or its next event. -/
def Stream.poll (st : Stream) (frames : Channel 256 InboundFrame) :
    Option (Stream × Channel 256 InboundFrame) :=
  match st.pc with
  | .running =>
      (frames.recv).map fun got =>
        match got.1 with
        | some frame => closeIfEnded (st.frame extractUsage frame) got.2
        | none => closeIfEnded (st.finish extractUsage) got.2
  | .breaking => some (closeIfEnded (st.finish extractUsage) frames)
  | .ended | .dropped => none

end

/-! ### A request in flight -/

/-- How far the drop of a `PendingRequest` has come: its receiver goes first, then its cleanup. -/
inductive DropStage
  | rx
  | cleanup
  | dropped
deriving DecidableEq

/-- What a step does to the tunnel. -/
inductive Touch
  | nothing
  | recv
  | dropRx
  | cleanup
deriving DecidableEq

def DropStage.next : DropStage → Option (DropStage × Touch)
  | .rx => some (.cleanup, .dropRx)
  | .cleanup => some (.dropped, .cleanup)
  | .dropped => none

/-- Where the bridge task stands. -/
inductive BridgePc
  | receiving
  /-- Waiting for room in the second channel. -/
  | forwarding (frame : InboundFrame)
  /-- Out of the loop; the request is dropped, and then the sender of the second channel. -/
  | dropping (stage : DropStage)
  | done
deriving DecidableEq

inductive Mode
  | collect
  | stream
deriving DecidableEq

/-- A request in flight. -/
inductive Consumer
  /-- Within `forward_http_request`, sending the frame. -/
  | forwarding (mode : Mode)
  | collecting (acc : Collecting)
  | collected (outcome : Outcome) (stage : DropStage)
  /-- The frame could not be sent, or the client went away. -/
  | cancelled (stage : DropStage)
  | streaming (bridge : BridgePc) (frames : Channel 256 InboundFrame) (stream : Stream)

/-- The steps of a request. -/
inductive ConsumerAct
  | sent (ok : Bool)
  /-- The task that holds the request goes on: the handler, or the bridge. -/
  | next
  /-- The server polls the response stream. -/
  | poll
  | timeout
  /-- The client goes away. -/
  | cancel
deriving DecidableEq

def Mode.start : Mode → Consumer
  | .collect => .collecting ⟨200, []⟩
  | .stream => .streaming .receiving Channel.new Stream.new

/-- The handler goes on with what it received. -/
def Collecting.received (acc : Collecting) : Option InboundFrame → Consumer
  | none => .collected (.ok acc.finish) .rx
  | some frame =>
      match collectFrame acc frame with
      | .inl acc' => .collecting acc'
      | .inr outcome => .collected outcome .rx

/-- The bridge goes on, with the channel of the request. -/
def bridgeNext (chan frames : Channel 256 InboundFrame) :
    BridgePc → Option (BridgePc × Channel 256 InboundFrame × Touch)
  | .receiving =>
      (chan.recv).map fun got =>
        match got.1 with
        | some frame => (.forwarding frame, frames, .recv)
        | none => (.dropping .rx, frames, .recv)
  | .forwarding frame =>
      if frames.receiver = false then some (.dropping .rx, frames, .nothing)
      else if frames.accepts then some (.receiving, (frames.trySend frame).1, .nothing)
      else none
  | .dropping stage =>
      match stage.next with
      | some (stage', touch) => some (.dropping stage', frames, touch)
      | none => some (.done, frames.dropSender, .nothing)
  | .done => none

/-- The task that holds the request goes on. -/
def Consumer.next (chan : Channel 256 InboundFrame) : Consumer → Option (Consumer × Touch)
  | .forwarding _ => none
  | .collecting acc => (chan.recv).map fun got => (acc.received got.1, .recv)
  | .collected outcome stage => stage.next.map fun p => (.collected outcome p.1, p.2)
  | .cancelled stage => stage.next.map fun p => (.cancelled p.1, p.2)
  | .streaming bridge frames stream =>
      (bridgeNext chan frames bridge).map fun p => (.streaming p.1 p.2.1 stream, p.2.2)

/-- **The steps of a request**, with its channel as it is. -/
def Consumer.step (extractUsage : Text → Option ParsedUsage) (chan : Channel 256 InboundFrame)
    (c : Consumer) : ConsumerAct → Option (Consumer × Touch)
  | .next => c.next chan
  | .sent ok =>
      match c with
      | .forwarding mode => some (if ok then mode.start else .cancelled .rx, .nothing)
      | _ => none
  | .poll =>
      match c with
      | .streaming bridge frames stream =>
          (stream.poll extractUsage frames).map fun p => (.streaming bridge p.2 p.1, .nothing)
      | _ => none
  | .timeout =>
      match c with
      | .collecting _ => some (.collected upstreamTimeout .rx, .nothing)
      | .streaming bridge frames stream =>
          if stream.pc = .running then some (.streaming bridge frames (stream.fail .timeout), .nothing)
          else none
      | _ => none
  | .cancel =>
      match c with
      | .forwarding _ | .collecting _ => some (.cancelled .rx, .nothing)
      | .streaming bridge frames stream =>
          if stream.pc = .running ∨ stream.pc = .breaking then
            some (.streaming bridge frames.dropReceiver
              { stream with pc := .dropped, completion := stream.completion.drop }, .nothing)
          else none
      | _ => none

/-! ### The system -/

/-- One tunnel with the requests on it. -/
structure State where
  dispatch : Dispatch
  reader : ReaderPc
  /-- The shard each `fail_all_pending` in progress locks next. -/
  failing : List ℕ
  /-- The requests, in the order of their registration. -/
  consumers : List Consumer

def init : State := ⟨Dispatch.empty, .idle, [], []⟩

/-- What the scheduler can do. -/
inductive Action
  | request (rid : Uuid) (mode : Mode)
  /-- The reader is given a frame. -/
  | route (rid : Uuid) (frame : InboundFrame)
  /-- The reader goes on with `route_inbound`. -/
  | reader
  | failAllPending
  /-- A `fail_all_pending` goes on. -/
  | failShard (i : ℕ)
  | consumer (l : LineId) (a : ConsumerAct)

def Touch.apply (d : Dispatch) (l : LineId) (rid : Uuid) : Touch → Dispatch
  | .nothing => d
  | .recv => ((d.recv l).map Prod.snd).getD d
  | .dropRx => d.dropRx l
  | .cleanup => d.removePending rid

/-- **The transition function of the system.** -/
def step (uuids : Sharding Uuid) (extractUsage : Text → Option ParsedUsage) (s : State) :
    Action → Option State
  | .request rid mode =>
      if s.dispatch.Fresh rid then
        some { s with
          dispatch := s.dispatch.registerPending rid
          consumers := s.consumers ++ [.forwarding mode] }
      else none
  | .route rid frame =>
      if s.reader = .idle then
        let routed := s.dispatch.routeInbound rid frame
        some { s with dispatch := routed.1, reader := routed.2 }
      else none
  | .reader =>
      (s.dispatch.readerStep s.reader).map fun next =>
        { s with dispatch := next.1, reader := next.2 }
  | .failAllPending => some { s with failing := s.failing ++ [0] }
  | .failShard i =>
      (s.failing[i]?).bind fun shard =>
        if shard < uuids.shards then
          some { s with
            dispatch := s.dispatch.failShard uuids.shard shard
            failing := s.failing.set i (shard + 1) }
        else none
  | .consumer l a =>
      (s.dispatch.lines[l]?).bind fun line =>
        (s.consumers[l]?).bind fun c =>
          (c.step extractUsage line.chan a).map fun p =>
            { s with
              dispatch := p.2.apply s.dispatch l line.rid
              consumers := s.consumers.set l p.1 }

end Sse
