/-
**Only complete responses look complete.**

A response ends with an `End` frame.  The handler and the stream of `src/consumer/sse.rs`, however,
take the end of the channel for the end of the response, and the channel also ends when a frame met
a full channel, when the error of a disconnect was lost, and after a terminal frame of another kind.
This module proves that these are the only ways to pass a part of a response off as the whole: as
long as no frame of a request is lost but an `End`, and the node does not end it with an
`ActivateResponse`, a response that looks complete is complete.

Main definitions:

* `Sse.Complete` — a response that looks complete is the response the node sent;
* `Sse.Status`, `Sse.Live` — what has been delivered of what was routed;
* `Sse.LocalInv` — the invariant of a request.

Main results:

* `Sse.LocalInv.step` — **every local step keeps the invariant**;
* `Sse.complete_of_lossless` — **in every run without loss, only complete responses look complete**;
* `Sse.complete_breaks` — a part of a response that is returned as a whole one.
-/

import SparklRouter.Consumer.SseLocal

set_option relaxedAutoImplicit false
set_option autoImplicit false

namespace Sse

open Tunnel Tunnel.Dispatch Transition

variable {uuids : Sharding Uuid} {extractUsage : Text → Option ParsedUsage}

/-! ### Complete responses -/

/-- The data of the chunks among the frames. -/
def chunks (frames : List InboundFrame) : List Text :=
  frames.filterMap fun frame => match frame with | .chunk data => some data | _ => none

def chunkText (frames : List InboundFrame) : Text := (chunks frames).flatten

/-- An `End` frame was routed, and `P` holds of the frames routed before it. -/
def EndsAfter (routed : List InboundFrame) (P : List InboundFrame → Prop) : Prop :=
  ∃ pre status post, routed = pre ++ .endFrame status :: post ∧ P pre

/-- If the handler returned a response, it has all chunks before an `End` frame that was routed; if
the stream ended without an error event, it yielded all chunks before one. -/
def Consumer.Complete (routed : List InboundFrame) : Consumer → Prop
  | .collected (.ok response) _ => EndsAfter routed fun pre => response.body = chunkText pre
  | .streaming _ _ stream =>
      stream.pc = .ended → (∀ e ∈ stream.yielded, e.isError = false) →
        EndsAfter routed fun pre => stream.yielded = (chunks pre).map .data
  | _ => True

/-- The response to the request `l`, if it looks complete, is complete. -/
def Complete (l : LineId) (s : State) : Prop :=
  ∀ (line : Line) (c : Consumer), s.dispatch.lines[l]? = some line → s.consumers[l]? = some c →
    c.Complete line.routed

theorem EndsAfter.imp {routed : List InboundFrame} {P Q : List InboundFrame → Prop}
    (h : EndsAfter routed P) (hPQ : ∀ pre, P pre → Q pre) : EndsAfter routed Q := by
  obtain ⟨pre, status, post, hrouted, hP⟩ := h
  exact ⟨pre, status, post, hrouted, hPQ pre hP⟩

theorem EndsAfter.append {routed : List InboundFrame} {P : List InboundFrame → Prop}
    (h : EndsAfter routed P) (more : List InboundFrame) : EndsAfter (routed ++ more) P := by
  obtain ⟨pre, status, post, rfl, hP⟩ := h
  exact ⟨pre, status, post ++ more, by simp, hP⟩

theorem chunks_append (fs gs : List InboundFrame) : chunks (fs ++ gs) = chunks fs ++ chunks gs := by
  simp [chunks]

theorem chunkText_append (fs gs : List InboundFrame) :
    chunkText (fs ++ gs) = chunkText fs ++ chunkText gs := by
  simp [chunkText, chunks_append]

/-! ### What has been delivered

Of what was routed for a request, the frames before its first terminal frame are delivered one by
one; then the terminal frame is delivered or, if it is an `End`, possibly lost. -/

/-- The first terminal frame was routed, and all that is delivered of the request is there. -/
inductive Over (routed delivered : List InboundFrame) : Prop
  | atEnd {pre post : List InboundFrame} {status : UInt16}
      (hrouted : routed = pre ++ .endFrame status :: post) (hplain : Plain pre)
      (hdelivered : delivered = pre ∨ delivered = pre ++ [.endFrame status])
  | atError {pre : List InboundFrame} {code : UInt16} {message : Text} (hplain : Plain pre)
      (hdelivered : delivered = pre ++ [.error code message])

theorem Over.mono {routed delivered : List InboundFrame} (h : Over routed delivered)
    (more : List InboundFrame) : Over (routed ++ more) delivered := by
  cases h with
  | @atEnd pre post status hrouted hplain hdelivered =>
      have hrouted' : routed ++ more = pre ++ .endFrame status :: (post ++ more) := by
        rw [hrouted, List.append_assoc, List.cons_append]
      exact Over.atEnd hrouted' hplain hdelivered
  | atError hplain hdelivered => exact Over.atError hplain hdelivered

/-- All is delivered, and there was no terminal frame among it: the `End` frame was lost. -/
theorem Over.endsAfter_of_plain {routed delivered : List InboundFrame} (h : Over routed delivered)
    (hplain : Plain delivered) : EndsAfter routed fun pre => delivered = pre := by
  cases h with
  | @atEnd pre post status hrouted hpre hdelivered =>
      rcases hdelivered with rfl | rfl
      · exact ⟨_, status, post, hrouted, rfl⟩
      · have hterm := hplain (.endFrame status) (by simp)
        cases hterm
  | @atError pre code message hpre hdelivered =>
      have hterm := hplain (.error code message) (by simp [hdelivered])
      cases hterm

/-- What is delivered of the request so far has no terminal frame, or is all. -/
def Sound (routed delivered : List InboundFrame) : Prop := Plain delivered ∨ Over routed delivered

/-- The first `End` frame that is delivered was routed after the frames delivered before it. -/
theorem Sound.endsAfter {routed seen rest : List InboundFrame} {status : UInt16}
    (h : Sound routed (seen ++ .endFrame status :: rest)) (hseen : Plain seen) :
    EndsAfter routed fun pre => seen = pre := by
  have hmem : InboundFrame.endFrame status ∈ seen ++ .endFrame status :: rest := by simp
  rcases h with hplain | hover
  · have hterm := hplain _ hmem
    cases hterm
  · cases hover with
    | @atEnd pre post status' hrouted hpre hdelivered =>
        rcases hdelivered with heq | heq
        · have hterm := hpre _ (heq ▸ hmem)
          cases hterm
        · obtain ⟨rfl, -, -⟩ := first_terminal hseen hpre rfl rfl heq
          exact ⟨_, status', post, hrouted, rfl⟩
    | atError hpre hdelivered =>
        obtain ⟨-, hne, -⟩ := first_terminal hseen hpre rfl rfl hdelivered
        cases hne

/-- No `ActivateResponse` is delivered. -/
theorem Sound.not_activate {routed seen rest : List InboundFrame} {apiKey : Text}
    (h : Sound routed (seen ++ .activateResponse apiKey :: rest)) (hseen : Plain seen) : False := by
  have hmem : InboundFrame.activateResponse apiKey ∈ seen ++ .activateResponse apiKey :: rest := by
    simp
  rcases h with hplain | hover
  · have hterm := hplain _ hmem
    cases hterm
  · cases hover with
    | atEnd hrouted hpre hdelivered =>
        rcases hdelivered with heq | heq
        · have hterm := hpre _ (heq ▸ hmem)
          cases hterm
        · obtain ⟨-, hne, -⟩ := first_terminal hseen hpre rfl rfl heq
          cases hne
    | atError hpre hdelivered =>
        obtain ⟨-, hne, -⟩ := first_terminal hseen hpre rfl rfl hdelivered
        cases hne

/-! ### The channel of a request -/

/-- Where the delivery of a request stands: it is registered, or the reader has taken it out of the
map and holds its terminal frame, or all is delivered. -/
inductive Status (l : LineId) (v : View) (r : ReaderPc) (delivered : List InboundFrame) : Prop
  | opened (hregistered : v.registered = true) (hsenders : v.chan.senders = 1) (hreader : r = .idle)
      (hdelivered : v.routed = delivered) (hplain : Plain delivered)
  | handing {frame : InboundFrame} (hregistered : v.registered = false)
      (hsenders : v.chan.senders = 1) (hreader : r = .sending l frame)
      (hdelivered : v.routed = delivered ++ [frame]) (hplain : Plain delivered)
      (hframe : (∃ status, frame = .endFrame status) ∨ ∃ code message, frame = .error code message)
  | settled (hregistered : v.registered = false) (hreader : r = .idle ∨ r = .dropping l)
      (hover : Over v.routed delivered)

/-- The receiver of the request is there, and has received the given frames. -/
structure Live (l : LineId) (v : View) (r : ReaderPc) (seen : List InboundFrame) : Prop where
  receiver : v.chan.receiver = true
  status : Status l v r (seen ++ v.chan.buffer)

theorem Status.sound {l : LineId} {v : View} {r : ReaderPc} {delivered : List InboundFrame}
    (h : Status l v r delivered) : Sound v.routed delivered := by
  cases h with
  | opened hregistered hsenders hreader hdelivered hplain => exact Or.inl hplain
  | handing hregistered hsenders hreader hdelivered hplain hframe => exact Or.inl hplain
  | settled hregistered hreader hover => exact Or.inr hover

section

variable {l : LineId} {v : View} {r : ReaderPc} {seen : List InboundFrame}

/-- A channel that is not full takes a frame. -/
theorem exists_trySend (hreceiver : v.chan.receiver = true) (hroom : full v = false)
    (frame : InboundFrame) : ∃ chan, v.chan.trySend frame = (chan, true) ∧
      chan.buffer = v.chan.buffer ++ [frame] ∧ chan.senders = v.chan.senders ∧
      chan.receiver = true := by
  have haccepts : v.chan.accepts = true := by simpa [full, hreceiver] using hroom
  obtain ⟨chan, hsent, hbuffer, hsenders, hsame⟩ := Channel.trySend_of_accepts haccepts frame
  exact ⟨chan, hsent, hbuffer, hsenders, hsame.trans hreceiver⟩

/-- The reader is given a frame for the request. -/
theorem Live.route (h : Live l v .idle seen) {frame : InboundFrame}
    (hroom : v.registered = true → isTerminalFrame frame = false → full v = false)
    (hkind : v.registered = true → ∀ apiKey, frame ≠ .activateResponse apiKey) :
    Live l (v.route l frame).1 (v.route l frame).2 seen := by
  cases h.status with
  | opened hregistered hsenders hreader hdelivered hplain =>
      unfold View.route
      simp only [hregistered, if_true]
      cases hterm : isTerminalFrame frame with
      | true =>
          simp only [if_true]
          refine ⟨h.receiver, Status.handing rfl hsenders rfl (by rw [hdelivered]) hplain ?_⟩
          cases frame with
          | endFrame status => exact Or.inl ⟨status, rfl⟩
          | error code message => exact Or.inr ⟨code, message, rfl⟩
          | activateResponse apiKey => exact absurd rfl (hkind hregistered apiKey)
          | response status headers => cases hterm
          | chunk data => cases hterm
      | false =>
          obtain ⟨chan, hsent, hbuffer, hsenders', hreceiver'⟩ :=
            exists_trySend h.receiver (hroom hregistered hterm) frame
          simp only [Bool.false_eq_true, if_false, hsent, if_true]
          refine ⟨hreceiver', Status.opened rfl (hsenders'.trans hsenders) rfl ?_ ?_⟩
          · rw [hbuffer, hdelivered, List.append_assoc]
          · rw [hbuffer, ← List.append_assoc]
            exact hplain.append (plain_singleton hterm)
  | handing hregistered hsenders hreader hdelivered hplain hframe => cases hreader
  | settled hregistered hreader hover =>
      unfold View.route
      simp only [hregistered, Bool.false_eq_true, if_false]
      exact ⟨h.receiver, Status.settled rfl (Or.inl rfl) (hover.mono [frame])⟩

/-- The reader goes on. -/
theorem Live.reader (h : Live l v r seen)
    (hroom : ∀ code message, r = .sending l (.error code message) → full v = false) :
    Live l (v.readerStep l r).1 (v.readerStep l r).2 seen := by
  cases h.status with
  | opened hregistered hsenders hreader hdelivered hplain =>
      subst hreader
      exact h
  | @handing frame hregistered hsenders hreader hdelivered hplain hframe =>
      subst hreader
      simp only [View.readerStep]
      cases hfull : full v with
      | false =>
          obtain ⟨chan, hsent, hbuffer, hsenders', hreceiver'⟩ :=
            exists_trySend h.receiver hfull frame
          rw [hsent]
          refine ⟨hreceiver', Status.settled hregistered (Or.inr rfl) ?_⟩
          rw [hbuffer, ← List.append_assoc]
          rcases hframe with ⟨status, rfl⟩ | ⟨code, message, rfl⟩
          · exact Over.atEnd hdelivered hplain (Or.inr rfl)
          · exact Over.atError hplain rfl
      | true =>
          -- only an `End` frame may be lost here
          have hlost : v.chan.accepts = false := by simpa [full, h.receiver] using hfull
          rw [Channel.trySend_of_not_accepts hlost]
          rcases hframe with ⟨status, rfl⟩ | ⟨code, message, rfl⟩
          · refine ⟨h.receiver, Status.settled hregistered (Or.inr rfl) ?_⟩
            exact Over.atEnd hdelivered hplain (Or.inl rfl)
          · rw [hroom code message rfl] at hfull
            cases hfull
  | settled hregistered hreader hover =>
      rcases hreader with rfl | rfl
      · exact h
      · exact ⟨h.receiver, Status.settled hregistered (Or.inl rfl) hover⟩

/-- `fail_all_pending` reaches the request. -/
theorem Live.fail (h : Live l v r seen) (hregistered : v.registered = true)
    (hroom : full v = false) :
    Live l { v with registered := false, chan := (v.chan.trySend disconnected).1.dropSender } r
      seen := by
  obtain ⟨chan, hsent, hbuffer, -, hreceiver'⟩ := exists_trySend h.receiver hroom disconnected
  cases h.status with
  | opened _ hsenders hreader hdelivered hplain =>
      rw [hsent]
      refine ⟨hreceiver', Status.settled rfl (Or.inl hreader) ?_⟩
      have hdelivered' : seen ++ chan.buffer = seen ++ v.chan.buffer ++ [disconnected] := by
        rw [hbuffer, ← List.append_assoc]
      exact Over.atError hplain hdelivered'
  | handing hregistered' _ _ _ _ _ =>
      rw [hregistered] at hregistered'
      cases hregistered'
  | settled hregistered' _ _ =>
      rw [hregistered] at hregistered'
      cases hregistered'

/-- The receiver takes a frame. -/
theorem Live.recv (h : Live l v r seen) {frame : InboundFrame} {chan : Channel 256 InboundFrame}
    (hrecv : v.chan.recv = some (some frame, chan)) :
    Live l { v with chan := chan } r (seen ++ [frame]) := by
  rcases Channel.recv_cases hrecv with ⟨a, ha, hbuffer, hsenders, hreceiver⟩ | ⟨hnone, -⟩
  · obtain rfl := Option.some.inj ha
    have hsame : seen ++ v.chan.buffer = seen ++ [frame] ++ chan.buffer := by
      rw [hbuffer, List.append_assoc]
      rfl
    refine ⟨hreceiver.trans h.receiver, ?_⟩
    have hstatus := h.status
    rw [hsame] at hstatus
    cases hstatus with
    | opened hregistered hsenders' hreader hdelivered hplain =>
        exact Status.opened hregistered (hsenders.trans hsenders') hreader hdelivered hplain
    | handing hregistered hsenders' hreader hdelivered hplain hframe =>
        exact Status.handing hregistered (hsenders.trans hsenders') hreader hdelivered hplain hframe
    | settled hregistered hreader hover => exact Status.settled hregistered hreader hover
  · cases hnone

theorem Live.sound_cons (h : Live l v r seen) {frame : InboundFrame}
    {chan : Channel 256 InboundFrame} (hrecv : v.chan.recv = some (some frame, chan)) :
    Sound v.routed (seen ++ frame :: chan.buffer) := by
  rcases Channel.recv_cases hrecv with ⟨a, ha, hbuffer, -⟩ | ⟨hnone, -⟩
  · obtain rfl := Option.some.inj ha
    rw [← hbuffer]
    exact h.status.sound
  · cases hnone

/-- The receiver finds the channel closed: all is delivered and received. -/
theorem Live.closed (h : Live l v r seen) {chan : Channel 256 InboundFrame}
    (hrecv : v.chan.recv = some (none, chan)) : Over v.routed seen := by
  rcases Channel.recv_cases hrecv with ⟨a, ha, -⟩ | ⟨-, -, hbuffer, hsenders⟩
  · cases ha
  · have hstatus := h.status
    rw [hbuffer, List.append_nil] at hstatus
    cases hstatus with
    | opened _ hone _ _ _ =>
        rw [hsenders] at hone
        cases hone
    | handing _ hone _ _ _ _ =>
        rw [hsenders] at hone
        cases hone
    | settled _ _ hover => exact hover

end

/-! ### The invariant of a request -/

/-- What the bridge has passed on or holds, the stream having received the frames `ys`. -/
def BridgeInv (l : LineId) (v : View) (r : ReaderPc) (ys : List InboundFrame)
    (frames : Channel 256 InboundFrame) : BridgePc → Prop
  | .receiving => Live l v r (ys ++ frames.buffer) ∧ frames.senders = 1
  | .forwarding frame => Live l v r (ys ++ frames.buffer ++ [frame]) ∧ frames.senders = 1
  | .dropping _ | .done => Over v.routed (ys ++ frames.buffer)

/-- The stream has yielded the chunks it has received. -/
structure RunningInv (l : LineId) (v : View) (r : ReaderPc) (bridge : BridgePc)
    (frames : Channel 256 InboundFrame) (stream : Stream) (ys : List InboundFrame) : Prop where
  plain : Plain ys
  yielded : stream.yielded = (chunks ys).map .data
  receiver : frames.receiver = true
  bridge : BridgeInv l v r ys frames bridge

def StreamInv (l : LineId) (v : View) (r : ReaderPc) (bridge : BridgePc)
    (frames : Channel 256 InboundFrame) (stream : Stream) : Prop :=
  match stream.pc with
  | .running => ∃ ys, RunningInv l v r bridge frames stream ys
  | .breaking => ∃ e ∈ stream.yielded, e.isError = true
  | .ended =>
      (∀ e ∈ stream.yielded, e.isError = false) →
        EndsAfter v.routed fun pre => stream.yielded = (chunks pre).map .data
  | .dropped => True

/-- **The invariant of a request.** -/
def LocalInv (l : LineId) (v : View) (r : ReaderPc) : Consumer → Prop
  | .forwarding _ => Live l v r []
  | .collecting acc => ∃ seen, Plain seen ∧ acc.body = chunkText seen ∧ Live l v r seen
  | .collected outcome _ => ∀ response, outcome = .ok response →
      EndsAfter v.routed fun pre => response.body = chunkText pre
  | .cancelled _ => True
  | .streaming bridge frames stream => StreamInv l v r bridge frames stream

theorem LocalInv.complete {l : LineId} {v : View} {r : ReaderPc} {c : Consumer}
    (h : LocalInv l v r c) : c.Complete v.routed := by
  cases c with
  | forwarding mode => trivial
  | collecting acc => trivial
  | collected outcome stage =>
      cases outcome with
      | ok response => exact h response rfl
      | err status message => trivial
  | cancelled stage => trivial
  | streaming bridge frames stream =>
      intro hended
      simp only [LocalInv, StreamInv, hended] at h
      exact h

/-! A step that is not the request's own keeps what it has received, and only adds to what was
routed. -/

section

variable {l : LineId} {v v' : View} {r r' : ReaderPc}

theorem LocalInv.extends {c : Consumer} (h : LocalInv l v r c)
    (hlive : ∀ seen, Live l v r seen → Live l v' r' seen)
    (hrouted : ∃ more, v'.routed = v.routed ++ more) : LocalInv l v' r' c := by
  obtain ⟨more, hrouted⟩ := hrouted
  cases c with
  | forwarding mode => exact hlive [] h
  | collecting acc =>
      obtain ⟨seen, hplain, hbody, hseen⟩ := h
      exact ⟨seen, hplain, hbody, hlive seen hseen⟩
  | collected outcome stage =>
      intro response hok
      rw [hrouted]
      exact (h response hok).append more
  | cancelled stage => trivial
  | streaming bridge frames stream =>
      cases hpc : stream.pc with
      | running =>
          simp only [LocalInv, StreamInv, hpc] at h ⊢
          obtain ⟨ys, hplain, hyielded, hreceiver, hbridge⟩ := h
          refine ⟨ys, hplain, hyielded, hreceiver, ?_⟩
          cases bridge with
          | receiving => exact ⟨hlive _ hbridge.1, hbridge.2⟩
          | forwarding frame => exact ⟨hlive _ hbridge.1, hbridge.2⟩
          | dropping stage =>
              unfold BridgeInv
              rw [hrouted]
              exact Over.mono hbridge more
          | done =>
              unfold BridgeInv
              rw [hrouted]
              exact Over.mono hbridge more
      | breaking =>
          simp only [LocalInv, StreamInv, hpc] at h ⊢
          exact h
      | ended =>
          simp only [LocalInv, StreamInv, hpc] at h ⊢
          intro hnone
          rw [hrouted]
          exact (h hnone).append more
      | dropped => simp only [LocalInv, StreamInv, hpc]

end

/-! ### The steps of the request itself -/

section

variable {l : LineId} {v : View} {r : ReaderPc}

theorem routed_onView (v : View) (touch : Touch) : (touch.onView v).routed = v.routed := by
  cases touch with
  | cleanup =>
      simp only [Touch.onView]
      split
      · rfl
      · rfl
  | _ => rfl

/-- The handler receives a frame, or the end of the channel. -/
theorem LocalInv.received {acc : Collecting} (h : LocalInv l v r (.collecting acc))
    {got : Option InboundFrame} {chan : Channel 256 InboundFrame}
    (hrecv : v.chan.recv = some (got, chan)) :
    LocalInv l { v with chan := chan } r (acc.received got) := by
  obtain ⟨seen, hplain, hbody, hlive⟩ := h
  cases got with
  | none =>
      rintro _ ⟨⟩
      have hends := (hlive.closed hrecv).endsAfter_of_plain hplain
      exact hends.imp fun pre hpre => hpre ▸ hbody
  | some frame =>
      have hlive' := hlive.recv hrecv
      have hsound := hlive.sound_cons hrecv
      cases frame with
      | response status headers =>
          refine
            ⟨seen ++ [.response status headers], hplain.append (plain_singleton rfl), ?_, hlive'⟩
          rw [chunkText_append, ← hbody]
          exact (List.append_nil _).symm
      | chunk data =>
          refine ⟨seen ++ [.chunk data], hplain.append (plain_singleton rfl), ?_, hlive'⟩
          rw [chunkText_append, ← hbody]
          exact congrArg (acc.body ++ ·) (List.append_nil data).symm
      | endFrame status =>
          rintro _ ⟨⟩
          exact (hsound.endsAfter hplain).imp fun pre hpre => hpre ▸ hbody
      | error code message =>
          rintro _ ⟨⟩
      | activateResponse apiKey => exact (hsound.not_activate hplain).elim

/-- The bridge goes on. -/
theorem BridgeInv.next {ys : List InboundFrame} {frames frames' : Channel 256 InboundFrame}
    {bridge bridge' : BridgePc} {touch : Touch} (h : BridgeInv l v r ys frames bridge)
    (hreceiver : frames.receiver = true)
    (hnext : bridgeNext v.chan frames bridge = some (bridge', frames', touch)) :
    BridgeInv l (touch.onView v) r ys frames' bridge' ∧ frames'.receiver = true := by
  cases bridge with
  | receiving =>
      obtain ⟨⟨got, chan⟩, hrecv, heq⟩ := Option.map_eq_some_iff.1 hnext
      cases got with
      | none =>
          obtain ⟨rfl, rfl, rfl⟩ : BridgePc.dropping .rx = bridge' ∧ frames = frames' ∧
              Touch.recv = touch := by simpa using heq
          refine ⟨?_, hreceiver⟩
          unfold BridgeInv
          rw [routed_onView]
          exact h.1.closed hrecv
      | some frame =>
          obtain ⟨rfl, rfl, rfl⟩ : BridgePc.forwarding frame = bridge' ∧ frames = frames' ∧
              Touch.recv = touch := by simpa using heq
          have hview : Touch.recv.onView v = { v with chan := chan } := by
            simp [Touch.onView, hrecv]
          rw [hview]
          exact ⟨⟨h.1.recv hrecv, h.2⟩, hreceiver⟩
  | forwarding frame =>
      -- the stream is there, so the send does not fail, it waits for room
      simp only [bridgeNext, hreceiver, Bool.true_eq_false, if_false] at hnext
      split at hnext
      · rename_i haccepts
        obtain ⟨chan, hsent, hbuffer, hsenders, hsame⟩ := Channel.trySend_of_accepts haccepts frame
        rw [hsent] at hnext
        obtain ⟨rfl, rfl, rfl⟩ : BridgePc.receiving = bridge' ∧ chan = frames' ∧
            Touch.nothing = touch := by simpa using hnext
        refine ⟨⟨?_, hsenders.trans h.2⟩, hsame.trans hreceiver⟩
        rw [hbuffer, ← List.append_assoc]
        exact h.1
      · cases hnext
  | dropping stage =>
      cases stage with
      | rx =>
          obtain ⟨rfl, rfl, rfl⟩ : BridgePc.dropping .cleanup = bridge' ∧ frames = frames' ∧
              Touch.dropRx = touch := by simpa [bridgeNext, DropStage.next] using hnext
          exact ⟨h, hreceiver⟩
      | cleanup =>
          obtain ⟨rfl, rfl, rfl⟩ : BridgePc.dropping .dropped = bridge' ∧ frames = frames' ∧
              Touch.cleanup = touch := by simpa [bridgeNext, DropStage.next] using hnext
          refine ⟨?_, hreceiver⟩
          unfold BridgeInv
          rw [routed_onView]
          exact h
      | dropped =>
          obtain ⟨rfl, rfl, rfl⟩ : BridgePc.done = bridge' ∧ frames.dropSender = frames' ∧
              Touch.nothing = touch := by simpa [bridgeNext, DropStage.next] using hnext
          exact ⟨h, hreceiver⟩
  | done => cases hnext

/-- What the stream will receive: the frames in the second channel, then those the bridge holds. -/
theorem BridgeInv.sound {ys : List InboundFrame} {frames : Channel 256 InboundFrame}
    {bridge : BridgePc} (h : BridgeInv l v r ys frames bridge) :
    ∃ rest, Sound v.routed (ys ++ frames.buffer ++ rest) := by
  cases bridge with
  | receiving => exact ⟨_, h.1.status.sound⟩
  | forwarding frame =>
      have hsound := h.1.status.sound
      rw [List.append_assoc _ [frame]] at hsound
      exact ⟨_, hsound⟩
  | dropping stage => exact ⟨[], by rw [List.append_nil]; exact Or.inr h⟩
  | done => exact ⟨[], by rw [List.append_nil]; exact Or.inr h⟩

/-- The stream takes a frame out of the second channel. -/
theorem BridgeInv.recv {ys : List InboundFrame} {frames frames' : Channel 256 InboundFrame}
    {bridge : BridgePc} {frame : InboundFrame} (h : BridgeInv l v r ys frames bridge)
    (hbuffer : frames.buffer = frame :: frames'.buffer)
    (hsenders : frames'.senders = frames.senders) :
    BridgeInv l v r (ys ++ [frame]) frames' bridge := by
  have hsame : ys ++ frames.buffer = ys ++ [frame] ++ frames'.buffer := by
    rw [hbuffer, List.append_assoc]
    rfl
  cases bridge with
  | receiving =>
      unfold BridgeInv at h ⊢
      rw [← hsame, hsenders]
      exact h
  | forwarding f =>
      unfold BridgeInv at h ⊢
      rw [← hsame, hsenders]
      exact h
  | dropping stage =>
      unfold BridgeInv at h ⊢
      rw [← hsame]
      exact h
  | done =>
      unfold BridgeInv at h ⊢
      rw [← hsame]
      exact h

/-- The stream finds the second channel closed: the bridge has found the first one closed. -/
theorem BridgeInv.closed {ys : List InboundFrame} {frames : Channel 256 InboundFrame}
    {bridge : BridgePc} (h : BridgeInv l v r ys frames bridge) (hbuffer : frames.buffer = [])
    (hsenders : frames.senders = 0) : Over v.routed ys := by
  cases bridge with
  | receiving =>
      have hone := h.2
      omega
  | forwarding frame =>
      have hone := h.2
      omega
  | dropping stage =>
      unfold BridgeInv at h
      rwa [hbuffer, List.append_nil] at h
  | done =>
      unfold BridgeInv at h
      rwa [hbuffer, List.append_nil] at h

/-- The stream goes on with a frame. -/
theorem RunningInv.frame {bridge : BridgePc} {frames frames' : Channel 256 InboundFrame}
    {stream : Stream} {ys : List InboundFrame} {f : InboundFrame}
    (h : RunningInv l v r bridge frames stream ys) (hrunning : stream.pc = .running)
    (hbuffer : frames.buffer = f :: frames'.buffer) (hsenders : frames'.senders = frames.senders)
    (hreceiver : frames'.receiver = frames.receiver) :
    StreamInv l v r bridge frames' (stream.frame extractUsage f) := by
  have hbridge := h.bridge.recv hbuffer hsenders
  have hreceiver' := hreceiver.trans h.receiver
  obtain ⟨rest, hsound⟩ := h.bridge.sound
  rw [hbuffer, List.append_assoc, List.cons_append] at hsound
  cases f with
  | response status headers =>
      have hplain := h.plain.append (plain_singleton (f := .response status headers) rfl)
      simp only [Stream.frame, StreamInv, hrunning]
      refine ⟨_, hplain, ?_, hreceiver', hbridge⟩
      rw [chunks_append, h.yielded]
      exact congrArg (List.map SseEvent.data) (List.append_nil _).symm
  | chunk data =>
      have hplain := h.plain.append (plain_singleton (f := .chunk data) rfl)
      simp only [Stream.frame, Stream.chunk, StreamInv, hrunning]
      refine ⟨_, hplain, ?_, hreceiver', hbridge⟩
      rw [chunks_append, List.map_append, ← h.yielded]
      rfl
  | endFrame status =>
      intro _
      refine (hsound.endsAfter h.plain).imp fun pre hpre => ?_
      rw [← hpre]
      exact h.yielded
  | error code message => exact ⟨.error message, List.mem_append_right _ List.mem_cons_self, rfl⟩
  | activateResponse apiKey => exact (hsound.not_activate h.plain).elim

/-- Whether the receiver of an ended stream is there does not matter. -/
theorem StreamInv.closeIfEnded {bridge : BridgePc} {frames : Channel 256 InboundFrame}
    {stream : Stream} (h : StreamInv l v r bridge frames stream) :
    StreamInv l v r bridge (closeIfEnded stream frames).2 (closeIfEnded stream frames).1 := by
  unfold Sse.closeIfEnded
  dsimp only
  split
  · rename_i hended
    simp only [StreamInv, hended] at h ⊢
    exact h
  · exact h

/-- The stream is polled. -/
theorem StreamInv.poll {bridge : BridgePc} {frames frames' : Channel 256 InboundFrame}
    {stream stream' : Stream} (h : StreamInv l v r bridge frames stream)
    (hpoll : stream.poll extractUsage frames = some (stream', frames')) :
    StreamInv l v r bridge frames' stream' := by
  unfold Stream.poll at hpoll
  cases hpc : stream.pc with
  | running =>
      simp only [StreamInv, hpc] at h
      obtain ⟨ys, hrunning⟩ := h
      rw [hpc] at hpoll
      obtain ⟨⟨got, chan⟩, hrecv, heq⟩ := Option.map_eq_some_iff.1 hpoll
      rcases Channel.recv_cases hrecv with
        ⟨f, rfl, hbuffer, hsenders, hreceiver⟩ | ⟨rfl, rfl, hbuffer, hsenders⟩
      · have hframe : StreamInv l v r bridge chan (stream.frame extractUsage f) :=
          hrunning.frame hpc hbuffer hsenders hreceiver
        have hclose := hframe.closeIfEnded
        dsimp only at heq
        rw [heq] at hclose
        exact hclose
      · have hover := hrunning.bridge.closed hbuffer hsenders
        have hfinish : StreamInv l v r bridge chan (stream.finish extractUsage) := by
          intro _
          refine (hover.endsAfter_of_plain hrunning.plain).imp fun pre hpre => ?_
          rw [← hpre]
          exact hrunning.yielded
        have hclose := hfinish.closeIfEnded
        dsimp only at heq
        rw [heq] at hclose
        exact hclose
  | breaking =>
      simp only [StreamInv, hpc] at h
      obtain ⟨e, he, herror⟩ := h
      rw [hpc] at hpoll
      have hfinish : StreamInv l v r bridge frames (stream.finish extractUsage) := by
        intro hnone
        rw [hnone e he] at herror
        cases herror
      have hclose := hfinish.closeIfEnded
      rw [Option.some.inj hpoll] at hclose
      exact hclose
  | ended =>
      rw [hpc] at hpoll
      cases hpoll
  | dropped =>
      rw [hpc] at hpoll
      cases hpoll

/-- The outcome of a request does not depend on how far its drop has come. -/
theorem LocalInv.collected_congr {outcome : Outcome} {stage stage' : DropStage} {v' : View}
    (h : LocalInv l v r (.collected outcome stage)) (hrouted : v'.routed = v.routed) :
    LocalInv l v' r (.collected outcome stage') := by
  intro response hok
  rw [hrouted]
  exact h response hok

/-- The task that holds the request goes on. -/
theorem LocalInv.next {c c' : Consumer} {touch : Touch} (h : LocalInv l v r c)
    (hnext : c.next v.chan = some (c', touch)) : LocalInv l (touch.onView v) r c' := by
  cases c with
  | forwarding mode => cases hnext
  | collecting acc =>
      obtain ⟨⟨got, chan⟩, hrecv, heq⟩ := Option.map_eq_some_iff.1 hnext
      obtain ⟨rfl, rfl⟩ := Prod.mk.inj heq
      have hview : Touch.recv.onView v = { v with chan := chan } := by
        simp [Touch.onView, hrecv]
      rw [hview]
      exact h.received hrecv
  | collected outcome stage =>
      obtain ⟨⟨stage', touch'⟩, -, heq⟩ := Option.map_eq_some_iff.1 hnext
      obtain ⟨rfl, rfl⟩ := Prod.mk.inj heq
      exact h.collected_congr (routed_onView v touch')
  | cancelled stage =>
      obtain ⟨⟨stage', touch'⟩, -, heq⟩ := Option.map_eq_some_iff.1 hnext
      obtain ⟨rfl, rfl⟩ := Prod.mk.inj heq
      trivial
  | streaming bridge frames stream =>
      obtain ⟨⟨bridge', frames', touch'⟩, hbridge, heq⟩ := Option.map_eq_some_iff.1 hnext
      obtain ⟨rfl, rfl⟩ := Prod.mk.inj heq
      cases hpc : stream.pc with
      | running =>
          simp only [LocalInv, StreamInv, hpc] at h ⊢
          obtain ⟨ys, hplain, hyielded, hreceiver, hinv⟩ := h
          obtain ⟨hinv', hreceiver'⟩ := hinv.next hreceiver hbridge
          exact ⟨ys, hplain, hyielded, hreceiver', hinv'⟩
      | breaking =>
          simp only [LocalInv, StreamInv, hpc] at h ⊢
          exact h
      | ended =>
          simp only [LocalInv, StreamInv, hpc, routed_onView] at h ⊢
          exact h
      | dropped => simp only [LocalInv, StreamInv, hpc]

/-- The frame of the request is sent, and its response is awaited. -/
theorem LocalInv.sent {mode : Mode} (h : LocalInv l v r (.forwarding mode)) :
    LocalInv l v r mode.start := by
  cases mode with
  | collect => exact ⟨[], plain_nil, rfl, h⟩
  | stream => exact ⟨[], plain_nil, rfl, rfl, h, rfl⟩

/-- **Every step of a request keeps its invariant.** -/
theorem LocalInv.consume {c c' : Consumer} {a : ConsumerAct} {touch : Touch} (h : LocalInv l v r c)
    (hstep : c.step extractUsage v.chan a = some (c', touch)) :
    LocalInv l (touch.onView v) r c' := by
  cases a with
  | next => exact h.next hstep
  | sent ok =>
      cases c with
      | forwarding mode =>
          cases ok with
          | true =>
              obtain ⟨rfl, rfl⟩ := Prod.mk.inj (Option.some.inj hstep)
              exact h.sent
          | false =>
              obtain ⟨rfl, rfl⟩ := Prod.mk.inj (Option.some.inj hstep)
              trivial
      | collecting acc => cases hstep
      | collected outcome stage => cases hstep
      | cancelled stage => cases hstep
      | streaming bridge frames stream => cases hstep
  | poll =>
      cases c with
      | streaming bridge frames stream =>
          obtain ⟨⟨stream', frames'⟩, hpoll, heq⟩ := Option.map_eq_some_iff.1 hstep
          obtain ⟨rfl, rfl⟩ := Prod.mk.inj heq
          exact StreamInv.poll h hpoll
      | forwarding mode => cases hstep
      | collecting acc => cases hstep
      | collected outcome stage => cases hstep
      | cancelled stage => cases hstep
  | timeout =>
      cases c with
      | collecting acc =>
          obtain ⟨rfl, rfl⟩ := Prod.mk.inj (Option.some.inj hstep)
          rintro _ ⟨⟩
      | streaming bridge frames stream =>
          simp only [Consumer.step] at hstep
          split at hstep
          · obtain ⟨rfl, rfl⟩ := Prod.mk.inj (Option.some.inj hstep)
            exact ⟨.timeout, List.mem_append_right _ List.mem_cons_self, rfl⟩
          · cases hstep
      | forwarding mode => cases hstep
      | collected outcome stage => cases hstep
      | cancelled stage => cases hstep
  | cancel =>
      cases c with
      | forwarding mode =>
          obtain ⟨rfl, rfl⟩ := Prod.mk.inj (Option.some.inj hstep)
          trivial
      | collecting acc =>
          obtain ⟨rfl, rfl⟩ := Prod.mk.inj (Option.some.inj hstep)
          trivial
      | streaming bridge frames stream =>
          simp only [Consumer.step] at hstep
          split at hstep
          · obtain ⟨rfl, rfl⟩ := Prod.mk.inj (Option.some.inj hstep)
            trivial
          · cases hstep
      | collected outcome stage => cases hstep
      | cancelled stage => cases hstep

/-- **Every local step keeps the invariant of the request.** -/
theorem LocalInv.step {v' : View} {r' : ReaderPc} {c c' : Consumer} (h : LocalInv l v r c)
    (hstep : LocalStep extractUsage l v r c v' r' c') : LocalInv l v' r' c' := by
  cases hstep with
  | stay => exact h
  | route hroom hkind =>
      exact h.extends (fun _ hlive => hlive.route hroom hkind) ⟨_, routed_route l v _⟩
  | reader hroom =>
      refine h.extends (fun _ hlive => hlive.reader hroom) ⟨[], ?_⟩
      rw [routed_readerStep, List.append_nil]
  | fail hregistered hroom =>
      exact h.extends (fun _ hlive => hlive.fail hregistered hroom) ⟨[], (List.append_nil _).symm⟩
  | consume hstep => exact h.consume hstep

end

/-! ### Runs without loss -/

/-- **The invariant of the system**, with respect to one request. -/
structure Inv (l : LineId) (s : State) : Prop where
  wf : WF s
  here : ∀ (v : View) (r : ReaderPc) (c : Consumer), Local l s v r c → LocalInv l v r c

theorem inv_init (l : LineId) : Inv l init where
  wf := wf_init
  here v r c h := by
    have hc := h.consumer
    cases hc

theorem Local.unique {l : LineId} {s : State} {v v' : View} {r r' : ReaderPc} {c c' : Consumer}
    (h : Local l s v r c) (h' : Local l s v' r' c') : v' = v ∧ r' = r ∧ c' = c := by
  obtain ⟨hview, rfl, hc⟩ := h
  obtain ⟨hview', rfl, hc'⟩ := h'
  obtain rfl := Option.some.inj (hview'.symm.trans hview)
  exact ⟨rfl, rfl, Option.some.inj (hc'.symm.trans hc)⟩

/-- **Every step without loss keeps the invariant.** -/
theorem Inv.step {l : LineId} {s s' : State} {act : Action} (h : Inv l s)
    (hstep : Sse.step uuids extractUsage s act = some s') (hloss : Lossless uuids l s act s') :
    Inv l s' := by
  refine ⟨h.wf.step hstep, fun v' r' c' hlocal => ?_⟩
  rcases local_of_step h.wf hlocal hstep with ⟨v, r, c, hold⟩ | ⟨rid, mode, rfl, rfl, rfl⟩
  · obtain ⟨v₁, r₁, c₁, hnew, hlocalStep⟩ := localStep_of_step h.wf hold hstep hloss
    obtain ⟨rfl, rfl, rfl⟩ := hnew.unique hlocal
    exact (h.here v r c hold).step hlocalStep
  · -- the request has just been registered
    exact ⟨rfl, Status.opened rfl rfl rfl rfl plain_nil⟩

theorem Inv.complete {l : LineId} {s : State} (h : Inv l s) : Complete l s := by
  intro line c hline hc
  have hview : s.dispatch.view l =
      some ⟨line.rid, decide (s.dispatch.pending.get line.rid = some l),
      line.chan, line.routed⟩ := by
    rw [view, hline, Option.map_some]
  exact (h.here _ _ c ⟨hview, rfl, hc⟩).complete

/-- **Only complete responses look complete**, in every run of a tunnel in which no frame of the
request but an `End` is lost and the node does not end the request with an `ActivateResponse`. -/
theorem complete_of_lossless (uuids : Sharding Uuid) (extractUsage : Text → Option ParsedUsage)
    (l : LineId) (as : List Action) (h : Throughout (step uuids extractUsage) (Lossless uuids l) init as) :
    Always (step uuids extractUsage) (Complete l) init as :=
  (always_of_step (fun _ _ _ hI hs hC => hI.step hs hC) (inv_init l) h).mono fun _ hI => hI.complete

/-! ### Runs -/

def oneShard : Sharding Uuid := ⟨1, fun _ => 0, fun _ => by decide⟩

def noUsage : Text → Option ParsedUsage := fun _ => none

/-- A response in two chunks, the second of which comes in when the first has been received. -/
def twoChunks : List Action :=
  [.request 7 .collect, .consumer 0 (.sent true),
    .route 7 (.response 200 []), .route 7 (.chunk "a".toList),
    .consumer 0 .next, .consumer 0 .next,
    .route 7 (.chunk "b".toList), .route 7 (.endFrame 200), .reader, .reader,
    .consumer 0 .next, .consumer 0 .next]

/-- What the handler of the first request returned. -/
def bodyOf (s : State) : Option Text :=
  (s.consumers[0]?).bind fun
    | .collected (.ok response) _ => some response.body
    | _ => none

/-- Whether an `End` frame was routed to the first request. -/
def endRouted (s : State) : Option Bool :=
  (s.dispatch.lines[0]?).map fun line => line.routed.any fun
    | .endFrame _ => true
    | _ => false

theorem observe_twoChunks :
    (run (step oneShard noUsage) init twoChunks).map bodyOf = some (some "ab".toList) := by
  decide +kernel

theorem complete_of_lossless_twoChunks :
    ∃ s, Complete 0 s ∧ bodyOf s = some "ab".toList :=
  (complete_of_lossless oneShard noUsage 0 twoChunks
    (throughout_of_check (by decide +kernel))).observe observe_twoChunks

/-- The node sends more chunks than the channel holds before the handler receives the first, and
never an `End`. -/
def overflow : List Action :=
  [.request 7 .collect, .consumer 0 (.sent true)] ++
    List.replicate 257 (.route 7 (.chunk "a".toList)) ++ [.reader] ++
    List.replicate 257 (.consumer 0 .next)

theorem observe_overflow :
    (run (step oneShard noUsage) init overflow).map (fun s => ((bodyOf s).isSome, endRouted s)) =
      some (true, some false) := by
  decide +kernel

/-- **A part of a response can look complete**: the chunk that met a full channel closed it, and the
handler returned what was in it. -/
theorem complete_breaks :
    ¬ ∀ (uuids : Sharding Uuid) (extractUsage : Text → Option ParsedUsage) (l : LineId)
      (as : List Action), Always (step uuids extractUsage) (Complete l) init as := by
  intro h
  obtain ⟨s, hcomplete, hobs⟩ := (h oneShard noUsage 0 overflow).observe observe_overflow
  obtain ⟨hbody, hend⟩ := Prod.mk.inj hobs
  obtain ⟨body, hbody⟩ := Option.isSome_iff_exists.1 hbody
  obtain ⟨c, hc, hok⟩ := Option.bind_eq_some_iff.1 hbody
  obtain ⟨line, hline, hnone⟩ := Option.map_eq_some_iff.1 hend
  have hends := hcomplete line c hline hc
  cases c with
  | collected outcome stage =>
      cases outcome with
      | ok response =>
          obtain ⟨pre, status, post, hrouted, -⟩ := hends
          simp [hrouted] at hnone
      | err status message => cases hok
  | forwarding mode => cases hok
  | collecting acc => cases hok
  | cancelled stage => cases hok
  | streaming bridge frames stream => cases hok

end Sse
