/-
**Metering a response.**

`chat_completions` hands the usage of a response to `record_parsed_usage`: after
`collect_http_response` has returned, with what `extract_usage_from_body` finds in the body, and
from the completion of the response stream, with what `extract_usage_from_sse_body` finds in the
text accumulated so far.  Both run in code that the client drives.  The future of the handler is
dropped when the client goes away, and the stream is polled by the client's reads; when the stream
is dropped the completion still fires, but with no usage.  So what is recorded depends on how far
the client reads.  This module states what is recorded when it reads on.

Main definitions:

* `Sse.Consumer.recordParsedUsage` — the calls of `record_parsed_usage` made for a request;
* `Sse.Metered` — the usage of the whole response has been recorded, once;
* `Sse.Attended` — the client stays, the deadline does not pass, and no frame is lost;
* `Sse.Origin` — what was routed, seen from the channel of a request;
* `Sse.MeterInv` — what the holder of a request has recorded.

Main results:

* `Sse.Origin.step`, `Sse.MeterInv.consume` — **every attended step keeps the invariants**;
* `Sse.metered_of_attended` — **in every attended run, the usage of the whole response is recorded
  once, as soon as the client has read it**;
* `Sse.metered_breaks` — a response whose usage is never recorded.
-/

import SparklRouter.Consumer.SseComplete

set_option relaxedAutoImplicit false
set_option autoImplicit false

namespace Sse

open Tunnel Tunnel.Dispatch Transition

variable {uuids : Sharding Uuid} {extractUsage extractBody : Text → Option ParsedUsage}

/-! ### What is recorded -/

/-- The calls of `record_parsed_usage` that `chat_completions` has made for a request, each with its
usage: one after `collect_http_response` has returned a response, and one by `on_complete`. -/
def Consumer.recordParsedUsage (extractBody : Text → Option ParsedUsage) :
    Consumer → List (Option ParsedUsage)
  | .collected (.ok response) _ => [extractBody response.body]
  | .streaming _ _ stream => stream.completion.calls.map fun call => call.1
  | _ => []

/-- Whether the request may be one of the mode; a request that was given up does not tell. -/
def Consumer.ofMode : Mode → Consumer → Bool
  | mode, .forwarding mode' => decide (mode' = mode)
  | .collect, .collecting _ | .collect, .collected _ _ | .stream, .streaming _ _ _ => true
  | _, .cancelled _ => true
  | _, _ => false

/-- What is extracted from the body of a response of the mode. -/
def usageIn (extractBody extractUsage : Text → Option ParsedUsage) : Mode → Text → Option ParsedUsage
  | .collect => extractBody
  | .stream => extractUsage

/-- The router has nothing left to do for the request: the reader holds no frame of it, its frame is
sent, and the task that holds it cannot go on. -/
def Rests (l : LineId) (s : State) (line : Line) (c : Consumer) : Prop :=
  localTo l line.rid s.reader = .idle ∧ c.next line.chan = none ∧ ∀ mode, c ≠ .forwarding mode

/-- When the router has nothing left to do for a request whose response was routed with an `End` and
has a usage, this usage has been recorded, and nothing else. -/
def Metered (extractBody extractUsage : Text → Option ParsedUsage) (l : LineId) (s : State) : Prop :=
  ∀ (line : Line) (c : Consumer), s.dispatch.lines[l]? = some line → s.consumers[l]? = some c →
    Rests l s line c → ∀ mode pre status post usage, c.ofMode mode = true →
      line.routed = pre ++ .endFrame status :: post → Plain pre →
      usageIn extractBody extractUsage mode (chunkText pre) = some usage →
      c.recordParsedUsage extractBody = [some usage]

/-! ### Attended runs -/

/-- The step neither loses a frame of the request, nor fails its tunnel under it, and its deadline
does not pass. -/
def served (uuids : Sharding Uuid) (l : LineId) (s : State) (act : Action) : Bool :=
  lossless uuids l s act &&
    match act with
    | .consumer m .timeout | .consumer m (.sent false) => decide (m ≠ l)
    | .failShard i =>
        match s.dispatch.view l with
        | some v => !(v.registered && decide (s.failing[i]? = some (uuids.shard v.rid)))
        | none => true
    | _ => true

/-- The step is not that of the client going away. -/
def stays (l : LineId) : Action → Bool
  | .consumer m .cancel => decide (m ≠ l)
  | _ => true

/-- The request is served, and its client stays. -/
def Attended (uuids : Sharding Uuid) (l : LineId) (s : State) (act : Action) (_ : State) : Prop :=
  (served uuids l s act && stays l act) = true

/-- The client has read all that the response stream has for it. -/
def Read (extractUsage : Text → Option ParsedUsage) (l : LineId) (s : State) : Prop :=
  ∀ (bridge : BridgePc) (frames : Channel 256 InboundFrame) (stream : Stream),
    s.consumers[l]? = some (.streaming bridge frames stream) →
      stream.poll extractUsage frames = none

/-! ### What was routed, seen from the channel -/

/-- The first terminal frame routed was an `Error`. -/
def FirstError (routed : List InboundFrame) : Prop :=
  ∃ pre code message post, Plain pre ∧ routed = pre ++ .error code message :: post

theorem FirstError.append {routed : List InboundFrame} (h : FirstError routed)
    (more : List InboundFrame) : FirstError (routed ++ more) := by
  obtain ⟨pre, code, message, post, hplain, rfl⟩ := h
  exact ⟨pre, code, message, post ++ more, hplain, by simp⟩

/-- The first terminal frame is not both an `Error` and an `End`. -/
theorem FirstError.not_end {routed pre post : List InboundFrame} {status : UInt16}
    (h : FirstError routed) (hrouted : routed = pre ++ .endFrame status :: post)
    (hplain : Plain pre) : False := by
  obtain ⟨pre', code, message, post', hplain', hrouted'⟩ := h
  obtain ⟨-, hne, -⟩ := first_terminal hplain' hplain rfl rfl (hrouted'.symm.trans hrouted)
  cases hne

/-- The reader holds the sender of a request. -/
def holds : ReaderPc → Bool
  | .sending _ _ | .dropping _ => true
  | .idle | .overflowed _ => false

/-- A registered request was routed no terminal frame; the frame the reader holds is the first one;
the senders of its channel are that in the map and that of the reader; and an `Error` frame in its
channel was routed. -/
structure Origin (v : View) (r : ReaderPc) : Prop where
  plain : v.registered = true → Plain v.routed
  handing : ∀ m frame, r = .sending m frame → ∃ pre, Plain pre ∧ v.routed = pre ++ [frame]
  senders : v.chan.senders = v.registered.toNat + (holds r).toNat
  errors : ∀ code message, .error code message ∈ v.chan.buffer → FirstError v.routed

section

variable {l : LineId} {v : View} {r : ReaderPc}

/-- An `Error` frame that is received was routed. -/
theorem Origin.error_of_recv (h : Origin v r) {code : UInt16} {message : Text}
    {chan : Channel 256 InboundFrame} (hrecv : v.chan.recv = some (some (.error code message), chan)) :
    FirstError v.routed := by
  refine h.errors code message ?_
  rcases Channel.recv_cases hrecv with ⟨f, hf, hbuffer, -, -⟩ | ⟨hnone, -⟩
  · obtain rfl := Option.some.inj hf
    rw [hbuffer]
    exact List.mem_cons_self
  · cases hnone

theorem Origin.route (h : Origin v .idle) (frame : InboundFrame) :
    Origin (v.route l frame).1 (v.route l frame).2 := by
  have herrors : ∀ code message, .error code message ∈ v.chan.buffer →
      FirstError (v.routed ++ [frame]) :=
    fun code message hmem => (h.errors code message hmem).append _
  have hsenders := h.senders
  simp only [holds, Bool.toNat_false, Nat.add_zero] at hsenders
  unfold View.route
  cases hregistered : v.registered with
  | false =>
      simp only [Bool.false_eq_true, if_false]
      refine ⟨fun h => (by cases h), fun _ _ h => (by cases h), ?_, herrors⟩
      simpa [hregistered, holds] using hsenders
  | true =>
      have hplain := h.plain hregistered
      rw [hregistered, Bool.toNat_true] at hsenders
      simp only [if_true]
      cases hterm : isTerminalFrame frame with
      | true =>
          simp only [if_true]
          refine ⟨fun h => (by cases h), ?_, by simp [hsenders, holds], herrors⟩
          intro m f hf
          obtain ⟨-, rfl⟩ := ReaderPc.sending.inj hf
          exact ⟨v.routed, hplain, rfl⟩
      | false =>
          simp only [Bool.false_eq_true, if_false]
          have hplain' : Plain (v.routed ++ [frame]) := hplain.append (plain_singleton hterm)
          rcases Channel.trySend_cases v.chan frame with ⟨hsent, hbuffer⟩ | ⟨hsent, hchan⟩
          · rw [if_pos hsent]
            refine ⟨fun _ => hplain', fun _ _ h => (by cases h), ?_, ?_⟩
            · simp [hsenders, holds]
            · intro code message hmem
              rw [hbuffer] at hmem
              rcases List.mem_append.1 hmem with hmem | hmem
              · exact herrors code message hmem
              · obtain rfl := List.mem_singleton.1 hmem
                cases hterm
          · rw [if_neg (by simp [hsent])]
            refine ⟨fun _ => hplain', fun _ _ h => (by cases h), ?_, ?_⟩
            · simp [hsenders, holds]
            · rw [hchan]
              exact herrors

theorem Origin.reader (h : Origin v r) : Origin (v.readerStep l r).1 (v.readerStep l r).2 := by
  have hsenders := h.senders
  cases r with
  | idle => exact h
  | overflowed rid =>
      simp only [View.readerStep]
      split
      · rename_i hregistered
        refine ⟨fun h => (by cases h), fun _ _ h => (by cases h), ?_, h.errors⟩
        simp [Channel.dropSender, hsenders, hregistered, holds]
      · exact ⟨h.plain, fun _ _ h => (by cases h), hsenders, h.errors⟩
  | sending m frame =>
      obtain ⟨pre, hplain, hrouted⟩ := h.handing m frame rfl
      refine ⟨h.plain, fun _ _ h => (by cases h), ?_, ?_⟩
      · simp only [View.readerStep, Channel.senders_trySend]
        exact hsenders
      · intro code message hmem
        simp only [View.readerStep] at hmem ⊢
        rcases Channel.trySend_cases v.chan frame with ⟨-, hbuffer⟩ | ⟨-, hchan⟩
        · rw [hbuffer] at hmem
          rcases List.mem_append.1 hmem with hmem | hmem
          · exact h.errors code message hmem
          · obtain rfl := List.mem_singleton.1 hmem
            exact ⟨pre, code, message, [], hplain, hrouted⟩
        · rw [hchan] at hmem
          exact h.errors code message hmem
  | dropping m =>
      refine ⟨h.plain, fun _ _ h => (by cases h), ?_, h.errors⟩
      simp [View.readerStep, Channel.dropSender, hsenders, holds]

/-- What the step of a request does to its view. -/
theorem Origin.onView (h : Origin v r) (touch : Touch) : Origin (touch.onView v) r := by
  have hsenders := h.senders
  cases touch with
  | nothing => exact h
  | recv =>
      cases hrecv : v.chan.recv with
      | none =>
          have hsame : Touch.recv.onView v = v := by simp [Touch.onView, hrecv]
          rw [hsame]
          exact h
      | some got =>
          obtain ⟨o, chan⟩ := got
          have hview : Touch.recv.onView v = { v with chan := chan } := by
            simp [Touch.onView, hrecv]
          rw [hview]
          rcases Channel.recv_cases hrecv with ⟨f, rfl, hbuffer, hsame, -⟩ | ⟨rfl, rfl, -, -⟩
          · refine ⟨h.plain, h.handing, hsame.trans hsenders, fun code message hmem => ?_⟩
            refine h.errors code message ?_
            rw [hbuffer]
            exact List.mem_cons_of_mem f hmem
          · exact h
  | dropRx => exact ⟨h.plain, h.handing, hsenders, fun _ _ hmem => by cases hmem⟩
  | cleanup =>
      simp only [Touch.onView]
      split
      · rename_i hregistered
        refine ⟨fun h => (by cases h), h.handing, ?_, h.errors⟩
        simp only [Channel.dropSender, hsenders, hregistered, Bool.toNat_true, Bool.toNat_false]
        omega
      · exact h

end

/-! ### What the holder has recorded -/

/-- The data of an event. -/
def SseEvent.data? : SseEvent → Option Text
  | .data d => some d
  | _ => none

theorem filterMap_data (ds : List Text) : (ds.map SseEvent.data).filterMap SseEvent.data? = ds := by
  induction ds with
  | nil => rfl
  | cons d ds ih => simp [SseEvent.data?, ih]

/-- The frames of a request on the far side of its channel. -/
def heldBy : BridgePc → List InboundFrame
  | .forwarding frame => [frame]
  | _ => []

/-- An `Error` frame that the bridge holds was routed, and its sender of the second channel is there
until it is done. -/
structure BridgeMeter (v : View) (bridge : BridgePc) (frames : Channel 256 InboundFrame) :
    Prop where
  errors : ∀ code message, .error code message ∈ heldBy bridge ++ frames.buffer →
    FirstError v.routed
  senders : frames.senders = if bridge = .done then 0 else 1

/-- A running stream has recorded nothing, has accumulated what it has yielded, and keeps the usage
of what it has accumulated; an ended one has recorded the usage of the response. -/
def StreamMeter (extractUsage : Text → Option ParsedUsage) (v : View) (stream : Stream) : Prop :=
  match stream.pc with
  | .running =>
      stream.completion = Completion.new ∧
        stream.accumulated = (stream.yielded.filterMap SseEvent.data?).flatten ∧
        ∀ usage, extractUsage stream.accumulated = some usage →
          stream.latestUsage = some usage ∨ stream.latestUsage = none
  | .breaking => FirstError v.routed
  | .ended => FirstError v.routed ∨
      EndsAfter v.routed fun pre => Plain pre ∧
        ∀ usage, extractUsage (chunkText pre) = some usage →
          stream.completion.calls.map (fun call => call.1) = [some usage]
  | .dropped => False

/-- **What the holder of a request has recorded.** -/
def MeterInv (extractUsage : Text → Option ParsedUsage) (v : View) : Consumer → Prop
  | .forwarding _ | .collecting _ => True
  | .collected (.ok response) _ =>
      EndsAfter v.routed fun pre => Plain pre ∧ response.body = chunkText pre
  | .collected (.err _ _) _ => FirstError v.routed
  | .cancelled _ => False
  | .streaming bridge frames stream =>
      BridgeMeter v bridge frames ∧ StreamMeter extractUsage v stream

section

variable {l : LineId} {v v' : View} {r : ReaderPc}

/-- What is routed later changes nothing of what was recorded. -/
theorem MeterInv.extends {c : Consumer} (h : MeterInv extractUsage v c)
    (hrouted : ∃ more, v'.routed = v.routed ++ more) : MeterInv extractUsage v' c := by
  obtain ⟨more, hmore⟩ := hrouted
  cases c with
  | forwarding mode => trivial
  | collecting acc => trivial
  | collected outcome stage =>
      cases outcome with
      | ok response =>
          simp only [MeterInv, hmore] at h ⊢
          exact h.append more
      | err status message =>
          simp only [MeterInv, hmore] at h ⊢
          exact h.append more
  | cancelled stage => exact h
  | streaming bridge frames stream =>
      obtain ⟨hbridge, hstream⟩ := h
      refine ⟨⟨fun code message hmem => ?_, hbridge.senders⟩, ?_⟩
      · rw [hmore]
        exact (hbridge.errors code message hmem).append more
      · cases hpc : stream.pc with
        | running =>
            simp only [StreamMeter, hpc] at hstream ⊢
            exact hstream
        | breaking =>
            simp only [StreamMeter, hpc, hmore] at hstream ⊢
            exact hstream.append more
        | ended =>
            simp only [StreamMeter, hpc, hmore] at hstream ⊢
            rcases hstream with hfirst | hends
            · exact Or.inl (hfirst.append more)
            · exact Or.inr (hends.append more)
        | dropped =>
            simp only [StreamMeter, hpc] at hstream

/-- The handler receives a frame, or the end of the channel. -/
theorem MeterInv.received {acc : Collecting} (hlocal : LocalInv l v r (.collecting acc))
    (horigin : Origin v r) {got : Option InboundFrame} {chan : Channel 256 InboundFrame}
    (hrecv : v.chan.recv = some (got, chan)) : MeterInv extractUsage v (acc.received got) := by
  obtain ⟨seen, hplain, hbody, hlive⟩ := hlocal
  cases got with
  | none =>
      have hends := (hlive.closed hrecv).endsAfter_of_plain hplain
      exact hends.imp fun pre hpre => hpre ▸ ⟨hplain, hbody⟩
  | some frame =>
      have hsound := hlive.sound_cons hrecv
      cases frame with
      | response status headers => trivial
      | chunk data => trivial
      | endFrame status =>
          exact (hsound.endsAfter hplain).imp fun pre hpre => hpre ▸ ⟨hplain, hbody⟩
      | error code message => exact horigin.error_of_recv hrecv
      | activateResponse apiKey => trivial

/-- The bridge goes on. -/
theorem BridgeMeter.next {bridge bridge' : BridgePc} {frames frames' : Channel 256 InboundFrame}
    {touch : Touch} (h : BridgeMeter v bridge frames) (horigin : Origin v r)
    (hnext : bridgeNext v.chan frames bridge = some (bridge', frames', touch)) :
    BridgeMeter v bridge' frames' := by
  obtain ⟨herrors, hsenders⟩ := h
  cases bridge with
  | receiving =>
      obtain ⟨⟨got, chan⟩, hrecv, heq⟩ := Option.map_eq_some_iff.1 hnext
      cases got with
      | none =>
          obtain ⟨rfl, rfl, -⟩ : BridgePc.dropping .rx = bridge' ∧ frames = frames' ∧
              Touch.recv = touch := by simpa using heq
          exact ⟨herrors, hsenders⟩
      | some frame =>
          obtain ⟨rfl, rfl, -⟩ : BridgePc.forwarding frame = bridge' ∧ frames = frames' ∧
              Touch.recv = touch := by simpa using heq
          refine ⟨fun code message hmem => ?_, hsenders⟩
          rcases List.mem_append.1 hmem with hmem | hmem
          · -- the frame comes out of the channel of the request
            obtain rfl := List.mem_singleton.1 hmem
            exact horigin.error_of_recv hrecv
          · exact herrors code message hmem
  | forwarding frame =>
      simp only [bridgeNext] at hnext
      split at hnext
      · obtain ⟨rfl, rfl, -⟩ : BridgePc.dropping .rx = bridge' ∧ frames = frames' ∧
            Touch.nothing = touch := by simpa using hnext
        exact ⟨fun code message hmem => herrors code message (List.mem_cons_of_mem frame hmem),
          hsenders⟩
      · split at hnext
        · rename_i haccepts
          obtain ⟨chan, hsent, hbuffer, hsame, -⟩ := Channel.trySend_of_accepts haccepts frame
          rw [hsent] at hnext
          obtain ⟨rfl, rfl, -⟩ : BridgePc.receiving = bridge' ∧ chan = frames' ∧
              Touch.nothing = touch := by simpa using hnext
          refine ⟨fun code message hmem => herrors code message ?_, hsame.trans hsenders⟩
          have hmem' : InboundFrame.error code message ∈ frames.buffer ++ [frame] := hbuffer ▸ hmem
          rcases List.mem_append.1 hmem' with hmem | hmem
          · exact List.mem_append_right _ hmem
          · exact List.mem_append_left _ hmem
        · cases hnext
  | dropping stage =>
      cases stage with
      | rx =>
          obtain ⟨rfl, rfl, -⟩ : BridgePc.dropping .cleanup = bridge' ∧ frames = frames' ∧
              Touch.dropRx = touch := by simpa [bridgeNext, DropStage.next] using hnext
          exact ⟨herrors, hsenders⟩
      | cleanup =>
          obtain ⟨rfl, rfl, -⟩ : BridgePc.dropping .dropped = bridge' ∧ frames = frames' ∧
              Touch.cleanup = touch := by simpa [bridgeNext, DropStage.next] using hnext
          exact ⟨herrors, hsenders⟩
      | dropped =>
          obtain ⟨rfl, rfl, -⟩ : BridgePc.done = bridge' ∧ frames.dropSender = frames' ∧
              Touch.nothing = touch := by simpa [bridgeNext, DropStage.next] using hnext
          refine ⟨herrors, ?_⟩
          have hone : frames.senders = 1 := hsenders
          simp [Channel.dropSender, hone]
  | done => cases hnext

/-- A stream that ends after frames without a terminal one records their usage. -/
theorem StreamMeter.finish {stream : Stream} {ys : List InboundFrame}
    (h : StreamMeter extractUsage v stream) (hpc : stream.pc = .running) (hplain : Plain ys)
    (hyielded : stream.yielded = (chunks ys).map .data)
    (hends : EndsAfter v.routed fun pre => ys = pre) :
    StreamMeter extractUsage v (stream.finish extractUsage) := by
  simp only [StreamMeter, hpc] at h
  obtain ⟨hnew, haccumulated, hlatest⟩ := h
  rw [hyielded, filterMap_data] at haccumulated
  refine Or.inr (hends.imp fun pre hpre => ?_)
  subst hpre
  refine ⟨hplain, fun usage husage => ?_⟩
  have husage' : extractUsage stream.accumulated = some usage := by rw [haccumulated]; exact husage
  have hfound :
      (stream.latestUsage.orElse fun _ => extractUsage stream.accumulated) = some usage := by
    rcases hlatest usage husage' with hlatest | hlatest
    · simp [hlatest]
    · simp [hlatest, husage']
  simp only [Stream.finish, hnew, Completion.new, Completion.fire, hfound, Bool.false_eq_true,
    if_false, if_true, List.nil_append, List.map_cons, List.map_nil]

/-- The stream goes on with a frame. -/
theorem StreamMeter.frame {bridge : BridgePc} {frames frames' : Channel 256 InboundFrame}
    {stream : Stream} {ys : List InboundFrame} {f : InboundFrame}
    (h : StreamMeter extractUsage v stream) (hpc : stream.pc = .running)
    (hrunning : RunningInv l v r bridge frames stream ys) (hmeter : BridgeMeter v bridge frames)
    (hbuffer : frames.buffer = f :: frames'.buffer) :
    StreamMeter extractUsage v (stream.frame extractUsage f) := by
  obtain ⟨rest, hsound⟩ := hrunning.bridge.sound
  rw [hbuffer, List.append_assoc, List.cons_append] at hsound
  cases f with
  | response status headers => exact h
  | chunk data =>
      simp only [StreamMeter, hpc, Stream.frame, Stream.chunk] at h ⊢
      obtain ⟨hnew, haccumulated, -⟩ := h
      refine ⟨hnew, ?_, fun usage husage => ?_⟩
      · simp [haccumulated, SseEvent.data?]
      · left
        simp [husage]
  | endFrame status =>
      exact h.finish hpc hrunning.plain hrunning.yielded (hsound.endsAfter hrunning.plain)
  | error code message =>
      refine hmeter.errors code message (List.mem_append_right _ ?_)
      rw [hbuffer]
      exact List.mem_cons_self
  | activateResponse apiKey => exact h

/-- The stream is polled. -/
theorem MeterInv.poll {bridge : BridgePc} {frames frames' : Channel 256 InboundFrame}
    {stream stream' : Stream} (h : MeterInv extractUsage v (.streaming bridge frames stream))
    (hlocal : LocalInv l v r (.streaming bridge frames stream))
    (hpoll : stream.poll extractUsage frames = some (stream', frames')) :
    MeterInv extractUsage v (.streaming bridge frames' stream') := by
  obtain ⟨hbridge, hstream⟩ := h
  -- whether the receiver goes with the stream does not matter
  have hclose : ∀ (st : Stream) (chan : Channel 256 InboundFrame),
      closeIfEnded st chan = (stream', frames') → StreamMeter extractUsage v st →
      (∀ f ∈ chan.buffer, f ∈ frames.buffer) → chan.senders = frames.senders →
      MeterInv extractUsage v (.streaming bridge frames' stream') := by
    intro st chan heq hst hsub hsame
    obtain ⟨rfl, rfl⟩ := Prod.mk.inj heq
    refine ⟨⟨fun code message hmem => hbridge.errors code message ?_, ?_⟩, hst⟩
    · rcases List.mem_append.1 hmem with hmem | hmem
      · exact List.mem_append_left _ hmem
      · refine List.mem_append_right _ (hsub _ ?_)
        split at hmem
        · cases hmem
        · exact hmem
    · have hsenders := hsame.trans hbridge.senders
      split
      · exact hsenders
      · exact hsenders
  unfold Stream.poll at hpoll
  cases hpc : stream.pc with
  | running =>
      simp only [LocalInv, StreamInv, hpc] at hlocal
      obtain ⟨ys, hrunning⟩ := hlocal
      rw [hpc] at hpoll
      obtain ⟨⟨got, chan⟩, hrecv, heq⟩ := Option.map_eq_some_iff.1 hpoll
      rcases Channel.recv_cases hrecv with
        ⟨f, rfl, hbuffer, hsenders, -⟩ | ⟨rfl, rfl, hbuffer, hsenders⟩
      · refine hclose _ _ heq (hstream.frame hpc hrunning hbridge hbuffer) ?_ hsenders
        intro g hg
        rw [hbuffer]
        exact List.mem_cons_of_mem f hg
      · have hover := hrunning.bridge.closed hbuffer hsenders
        have hends := hover.endsAfter_of_plain hrunning.plain
        exact hclose _ _ heq (hstream.finish hpc hrunning.plain hrunning.yielded hends)
          (fun _ hg => hg) rfl
  | breaking =>
      rw [hpc] at hpoll
      simp only [StreamMeter, hpc] at hstream
      exact hclose _ _ (Option.some.inj hpoll) (Or.inl hstream) (fun _ hg => hg) rfl
  | ended =>
      rw [hpc] at hpoll
      cases hpoll
  | dropped =>
      rw [hpc] at hpoll
      cases hpoll

/-- **An attended step of a request keeps what it has recorded in order.** -/
theorem MeterInv.consume {c c' : Consumer} {a : ConsumerAct} {touch : Touch}
    (h : MeterInv extractUsage v c) (hlocal : LocalInv l v r c) (horigin : Origin v r)
    (hstep : c.step extractUsage v.chan a = some (c', touch))
    (hact : a ≠ .cancel ∧ a ≠ .timeout ∧ a ≠ .sent false) : MeterInv extractUsage v c' := by
  cases a with
  | next =>
      cases c with
      | forwarding mode => cases hstep
      | collecting acc =>
          obtain ⟨⟨got, chan⟩, hrecv, heq⟩ := Option.map_eq_some_iff.1 hstep
          obtain ⟨rfl, rfl⟩ := Prod.mk.inj heq
          exact MeterInv.received hlocal horigin hrecv
      | collected outcome stage =>
          obtain ⟨⟨stage', touch'⟩, -, heq⟩ := Option.map_eq_some_iff.1 hstep
          obtain ⟨rfl, rfl⟩ := Prod.mk.inj heq
          cases outcome <;> exact h
      | cancelled stage => cases h
      | streaming bridge frames stream =>
          obtain ⟨⟨bridge', frames', touch'⟩, hbridge, heq⟩ := Option.map_eq_some_iff.1 hstep
          obtain ⟨rfl, rfl⟩ := Prod.mk.inj heq
          exact ⟨h.1.next horigin hbridge, h.2⟩
  | sent ok =>
      cases ok with
      | false => exact absurd rfl hact.2.2
      | true =>
          cases c with
          | forwarding mode =>
              obtain ⟨rfl, rfl⟩ := Prod.mk.inj (Option.some.inj hstep)
              cases mode with
              | collect => trivial
              | stream =>
                  refine ⟨⟨fun code message hmem => (by cases hmem), rfl⟩, rfl, rfl, ?_⟩
                  exact fun usage _ => Or.inr rfl
          | collecting acc => cases hstep
          | collected outcome stage => cases hstep
          | cancelled stage => cases hstep
          | streaming bridge frames stream => cases hstep
  | poll =>
      cases c with
      | streaming bridge frames stream =>
          obtain ⟨⟨stream', frames'⟩, hpoll, heq⟩ := Option.map_eq_some_iff.1 hstep
          obtain ⟨rfl, rfl⟩ := Prod.mk.inj heq
          exact h.poll hlocal hpoll
      | forwarding mode => cases hstep
      | collecting acc => cases hstep
      | collected outcome stage => cases hstep
      | cancelled stage => cases hstep
  | timeout => exact absurd rfl hact.2.1
  | cancel => exact absurd rfl hact.1

end

/-! ### Attended runs -/

section

variable {l : LineId} {s s' : State} {act : Action}

theorem Attended.lossless (h : Attended uuids l s act s') : Lossless uuids l s act s' := by
  simp only [Attended, served, Bool.and_eq_true] at h
  exact h.1.1

/-- The request itself takes none of the steps in which it is given up. -/
theorem Attended.consumer {a : ConsumerAct} (h : Attended uuids l s (.consumer l a) s') :
    a ≠ .cancel ∧ a ≠ .timeout ∧ a ≠ .sent false := by
  refine ⟨?_, ?_, ?_⟩
  · rintro rfl
    simp [Attended, stays] at h
  · rintro rfl
    simp [Attended, served] at h
  · rintro rfl
    simp [Attended, served] at h

/-- `fail_all_pending` does not reach the request. -/
theorem Attended.failShard {i : ℕ} {v : View} (h : Attended uuids l s (.failShard i) s')
    (hview : s.dispatch.view l = some v) (hregistered : v.registered = true)
    (hshard : s.failing[i]? = some (uuids.shard v.rid)) : False := by
  simp [Attended, served, hview, hregistered, hshard] at h

end

/-- **The invariant of the system**, with respect to one request. -/
structure MeteringInv (extractUsage : Text → Option ParsedUsage) (l : LineId) (s : State) :
    Prop where
  inv : Inv l s
  here : ∀ (v : View) (r : ReaderPc) (c : Consumer), Local l s v r c →
    Origin v r ∧ MeterInv extractUsage v c

theorem meteringInv_init (l : LineId) : MeteringInv extractUsage l init where
  inv := inv_init l
  here v r c h := by
    have hc := h.consumer
    cases hc

/-- **Every attended step keeps the invariant.** -/
theorem MeteringInv.step {l : LineId} {s s' : State} {act : Action}
    (h : MeteringInv extractUsage l s) (hstep : Sse.step uuids extractUsage s act = some s')
    (hatt : Attended uuids l s act s') : MeteringInv extractUsage l s' := by
  refine ⟨h.inv.step hstep hatt.lossless, fun v' r' c' hlocal' => ?_⟩
  have hwf := h.inv.wf
  rcases local_of_step hwf hlocal' hstep with ⟨v, r, c, hlocal⟩ | ⟨rid, mode, rfl, rfl, rfl⟩
  · obtain ⟨horigin, hmeter⟩ := h.here v r c hlocal
    have hinv := h.inv.here v r c hlocal
    cases act with
    | request rid mode =>
        obtain ⟨rfl, rfl, rfl⟩ := (hlocal.request hstep).unique hlocal'
        exact ⟨horigin, hmeter⟩
    | route rid frame =>
        rcases hlocal.route hwf hstep with ⟨-, rfl, hnew⟩ | ⟨-, rfl, hnew⟩
        · obtain ⟨rfl, rfl, rfl⟩ := hnew.unique hlocal'
          exact ⟨horigin.route frame, hmeter.extends ⟨[frame], routed_route l v frame⟩⟩
        · obtain ⟨rfl, rfl, rfl⟩ := hnew.unique hlocal'
          exact ⟨horigin, hmeter⟩
    | reader =>
        obtain ⟨rfl, rfl, rfl⟩ := (hlocal.readerStep hwf hstep).unique hlocal'
        refine ⟨horigin.reader, hmeter.extends ⟨[], ?_⟩⟩
        rw [routed_readerStep, List.append_nil]
    | failAllPending =>
        obtain rfl := Option.some.inj hstep
        have hsame : Local l { s with failing := s.failing ++ [0] } v r c :=
          ⟨hlocal.view, hlocal.reader, hlocal.consumer⟩
        obtain ⟨rfl, rfl, rfl⟩ := hsame.unique hlocal'
        exact ⟨horigin, hmeter⟩
    | failShard i =>
        rcases hlocal.failShard hstep with ⟨hregistered, hshard, -⟩ | hnew
        · exact (hatt.failShard hlocal.view hregistered hshard).elim
        · obtain ⟨rfl, rfl, rfl⟩ := hnew.unique hlocal'
          exact ⟨horigin, hmeter⟩
    | consumer m a =>
        rcases hlocal.consumerStep hwf hstep with ⟨rfl, c₁, touch, hconsumer, hnew⟩ | ⟨-, hnew⟩
        · obtain ⟨rfl, rfl, rfl⟩ := hnew.unique hlocal'
          refine ⟨horigin.onView touch, ?_⟩
          refine (hmeter.consume hinv horigin hconsumer hatt.consumer).extends ⟨[], ?_⟩
          rw [routed_onView, List.append_nil]
        · obtain ⟨rfl, rfl, rfl⟩ := hnew.unique hlocal'
          exact ⟨horigin, hmeter⟩
  · -- the request has just been registered
    refine ⟨⟨fun _ => plain_nil, fun _ _ h => (by cases h), rfl, fun _ _ h => (by cases h)⟩, ?_⟩
    trivial

section

variable {l : LineId} {v : View} {r : ReaderPc}

/-- The receiver of a request does not wait once its `End` was routed and the reader is done. -/
theorem Origin.not_waiting (horigin : Origin v r) (hidle : r = .idle)
    {pre post : List InboundFrame} {status : UInt16}
    (hrouted : v.routed = pre ++ .endFrame status :: post) : v.chan.recv ≠ none := by
  intro hrecv
  have hsenders := horigin.senders
  have hzero : v.registered = false := by
    cases hregistered : v.registered with
    | false => rfl
    | true =>
        have hterm := horigin.plain hregistered (.endFrame status) (by simp [hrouted])
        cases hterm
  have hnone : v.chan.senders ≠ 0 := by
    intro hnone
    unfold Channel.recv at hrecv
    split at hrecv
    · cases hrecv
    · rw [if_pos hnone] at hrecv
      cases hrecv
  rw [hidle, hzero] at hsenders
  exact hnone hsenders

/-- What has been recorded when the router and the client are done. -/
theorem MeterInv.metered {c : Consumer} (h : MeterInv extractUsage v c) (hlocal : LocalInv l v r c)
    (horigin : Origin v r) (hidle : r = .idle) (hnext : c.next v.chan = none)
    (hsent : ∀ mode, c ≠ .forwarding mode)
    (hread : ∀ bridge frames stream, c = .streaming bridge frames stream →
      stream.poll extractUsage frames = none)
    {mode : Mode} {pre post : List InboundFrame} {status : UInt16} {usage : ParsedUsage}
    (hmode : c.ofMode mode = true) (hrouted : v.routed = pre ++ .endFrame status :: post)
    (hplain : Plain pre)
    (husage : usageIn extractBody extractUsage mode (chunkText pre) = some usage) :
    c.recordParsedUsage extractBody = [some usage] := by
  -- the first `End` that was routed is the one after `pre`
  have hsame : ∀ {P : List InboundFrame → Prop},
      EndsAfter v.routed (fun pre' => Plain pre' ∧ P pre') → P pre := by
    rintro P ⟨pre', status', post', hrouted', hplain', hP⟩
    obtain ⟨rfl, -, -⟩ := first_terminal hplain' hplain rfl rfl (hrouted'.symm.trans hrouted)
    exact hP
  cases c with
  | forwarding mode' => exact absurd rfl (hsent mode')
  | collecting acc =>
      have hrecv := Option.map_eq_none_iff.1 hnext
      exact absurd hrecv (horigin.not_waiting hidle hrouted)
  | collected outcome stage =>
      cases outcome with
      | ok response =>
          have hbody := hsame h
          cases mode with
          | collect => simp [Consumer.recordParsedUsage, hbody, usageIn] at husage ⊢; exact husage
          | stream => cases hmode
      | err status message => exact (h.not_end hrouted hplain).elim
  | cancelled stage => cases h
  | streaming bridge frames stream =>
      obtain ⟨hbridge, hstream⟩ := h
      have hpoll := hread bridge frames stream rfl
      have hbridgeNext := Option.map_eq_none_iff.1 hnext
      cases hpc : stream.pc with
      | running =>
          -- the stream waits, so the second channel is empty, and the bridge waits as well
          exfalso
          simp only [LocalInv, StreamInv, hpc] at hlocal
          obtain ⟨ys, hrunning⟩ := hlocal
          have hrecv : frames.recv = none := by
            simp only [Stream.poll, hpc] at hpoll
            exact Option.map_eq_none_iff.1 hpoll
          have hwaits : frames.buffer = [] ∧ frames.senders ≠ 0 := by
            unfold Channel.recv at hrecv
            split at hrecv
            · cases hrecv
            · rename_i hbuffer
              refine ⟨hbuffer, fun hnone => ?_⟩
              rw [if_pos hnone] at hrecv
              cases hrecv
          cases bridge with
          | receiving =>
              have hrecv' := Option.map_eq_none_iff.1 hbridgeNext
              exact horigin.not_waiting hidle hrouted hrecv'
          | forwarding frame =>
              have haccepts : frames.accepts = true := by
                simp [Channel.accepts, hrunning.receiver, hwaits.1]
              simp [bridgeNext, hrunning.receiver, haccepts] at hbridgeNext
          | dropping stage => cases stage <;> simp [bridgeNext, DropStage.next] at hbridgeNext
          | done => exact hwaits.2 hbridge.senders
      | breaking => simp [Stream.poll, hpc] at hpoll
      | ended =>
          simp only [StreamMeter, hpc] at hstream
          rcases hstream with hfirst | hends
          · exact (hfirst.not_end hrouted hplain).elim
          · cases mode with
            | collect => cases hmode
            | stream => exact hsame hends usage husage
      | dropped => simp only [StreamMeter, hpc] at hstream

end

theorem MeteringInv.metered {l : LineId} {s : State} (h : MeteringInv extractUsage l s)
    (hread : Read extractUsage l s) : Metered extractBody extractUsage l s := by
  intro line c hline hc hrests mode pre status post usage hmode hrouted hplain husage
  obtain ⟨hidle, hnext, hsent⟩ := hrests
  have hlocal : Local l s ⟨line.rid, decide (s.dispatch.pending.get line.rid = some l), line.chan,
      line.routed⟩ (localTo l line.rid s.reader) c :=
    ⟨by rw [view, hline, Option.map_some], rfl, hc⟩
  obtain ⟨horigin, hmeter⟩ := h.here _ _ c hlocal
  refine hmeter.metered (h.inv.here _ _ c hlocal) horigin hidle hnext hsent ?_ hmode hrouted hplain
    husage
  rintro bridge frames stream rfl
  exact hread bridge frames stream hc

/-- **Metering an attended response.**  In every run in which no frame of the request is lost, its
tunnel is not failed under it, its deadline does not pass and its client does not go away, whatever
else happens on the tunnel: when the router has nothing left to do for the request and the client
has read all there is, the usage of the whole response has been recorded once. -/
theorem metered_of_attended (uuids : Sharding Uuid)
    (extractBody extractUsage : Text → Option ParsedUsage) (l : LineId) (as : List Action)
    (h : Throughout (step uuids extractUsage) (Attended uuids l) init as) :
    Always (step uuids extractUsage)
      (fun s => Read extractUsage l s → Metered extractBody extractUsage l s) init as := by
  have hinv : Always (step uuids extractUsage) (MeteringInv extractUsage l) init as :=
    always_of_step (fun _ _ _ hI hs hC => hI.step hs hC) (meteringInv_init l) h
  exact hinv.mono fun s hs hread => hs.metered hread

/-! ### Runs -/

/-- The usage of the texts of these runs. -/
def tenAndFive : Text → Option ParsedUsage := fun text =>
  if "\"usage\":\x7b\"prompt_tokens\":10,\"completion_tokens\":5\x7d".toList <:+: text then
    some ⟨10, 5⟩
  else none

/-- An event with a usage. -/
def usageChunk : InboundFrame :=
  .chunk "data: \x7b\"usage\":\x7b\"prompt_tokens\":10,\"completion_tokens\":5\x7d\x7d\n\n".toList

/-- The client reads the response to its end. -/
def readToEnd : List Action :=
  [.request 7 .stream, .consumer 0 (.sent true), .route 7 usageChunk, .route 7 (.endFrame 200),
    .reader, .reader, .consumer 0 .next, .consumer 0 .next, .consumer 0 .next, .consumer 0 .next,
    .consumer 0 .poll, .consumer 0 .poll]

theorem observe_readToEnd :
    (run (step oneShard tenAndFive) init readToEnd).map
      (fun s => s.consumers.map (Consumer.recordParsedUsage tenAndFive)) =
        some [[some ⟨10, 5⟩]] := by
  decide +kernel

theorem metered_readToEnd :
    ∃ s, (Read tenAndFive 0 s → Metered tenAndFive tenAndFive 0 s) ∧
      s.consumers.map (Consumer.recordParsedUsage tenAndFive) = [[some ⟨10, 5⟩]] :=
  (metered_of_attended oneShard tenAndFive tenAndFive 0 readToEnd
    (throughout_of_check (by decide +kernel))).observe observe_readToEnd

/-- The client has read the usage, and goes away before it has read the `End`. -/
def goneBeforeEnd : List Action :=
  [.request 7 .stream, .consumer 0 (.sent true), .route 7 usageChunk,
    .consumer 0 .next, .consumer 0 .next, .consumer 0 .poll, .consumer 0 .cancel,
    .route 7 (.endFrame 200), .reader, .reader,
    .consumer 0 .next, .consumer 0 .next, .consumer 0 .next, .consumer 0 .next, .consumer 0 .next]

/-- Whether the bridge of a streamed request is done. -/
def bridgeDone : Consumer → Bool
  | .streaming .done _ _ => true
  | _ => false

theorem observe_goneBeforeEnd :
    (run (step oneShard tenAndFive) init goneBeforeEnd).map (fun s =>
      (decide (s.reader = .idle ∧ s.dispatch.lines.map Line.routed = [[usageChunk, .endFrame 200]]),
        s.consumers.map fun c => (bridgeDone c, c.recordParsedUsage tenAndFive))) =
      some (true, [(true, [none])]) := by
  decide +kernel

/-- **A client that goes away is not metered**: the node has sent the usage and the end of the
response in time, no frame was lost, and `record_parsed_usage` was called without a usage. -/
theorem metered_breaks :
    ¬ ∀ (uuids : Sharding Uuid) (extractBody extractUsage : Text → Option ParsedUsage) (l : LineId)
      (as : List Action),
      Throughout (step uuids extractUsage) (fun s act _ => served uuids l s act = true) init as →
        Always (step uuids extractUsage) (Metered extractBody extractUsage l) init as := by
  intro h
  have hserved : Throughout (step oneShard tenAndFive)
      (fun s act _ => served oneShard 0 s act = true) init goneBeforeEnd :=
    throughout_of_check (by decide +kernel)
  obtain ⟨s, hmetered, hobs⟩ :=
    (h oneShard tenAndFive tenAndFive 0 goneBeforeEnd hserved).observe observe_goneBeforeEnd
  obtain ⟨htunnel, hconsumers⟩ := Prod.mk.inj hobs
  obtain ⟨hreader, hlines⟩ := of_decide_eq_true htunnel
  obtain ⟨line, hline, hrouted⟩ := List.map_eq_singleton_iff.1 hlines
  obtain ⟨c, hc, hlast⟩ := List.map_eq_singleton_iff.1 hconsumers
  obtain ⟨hdone, hrecorded⟩ := Prod.mk.inj hlast
  have hmeter := hmetered line c (by rw [hline]; rfl) (by rw [hc]; rfl)
  cases c with
  | streaming bridge frames stream =>
      cases bridge with
      | done =>
          have hrests : Rests 0 s line (.streaming .done frames stream) :=
            ⟨by rw [hreader]; rfl, rfl, fun _ heq => by cases heq⟩
          have husage := hmeter hrests .stream [usageChunk] 200 [] ⟨10, 5⟩ rfl hrouted
            (plain_singleton rfl) (by decide +kernel)
          rw [hrecorded] at husage
          cases husage
      | _ => cases hdone
  | _ => cases hdone

end Sse
