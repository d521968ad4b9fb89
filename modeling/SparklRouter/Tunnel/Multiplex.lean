/-
**Many requests on one tunnel.**

The requests of a tunnel share its reader: `handle_inbound_text` gives every frame of the node to
`route_inbound`, one at a time, which puts it into the channel of the request it names.  A request
leaves the pending map in four ways — with its first terminal frame, with the first frame that finds
its channel full, with the drop of its `PendingRequest`, and with `fail_all_pending` — and the four
run in different tasks.  This module lets them all interleave, and shows what arrives at one
request whatever happens: the frames the node sent for it, in their order and up to a point; at that
point the error of a disconnect may stand.

Main definitions:

* `Multiplex.NodeToRouterFrame`, `Multiplex.NodeToRouterFrame.inbound` — the frames of a node, and
  those that are routed to a request;
* `Multiplex.State`, `Multiplex.step` — one tunnel with the holders of its requests;
* `Multiplex.Ordered` — what may be received of the frames routed to a request;
* `Multiplex.Stage` — how far the delivery to a request has come.

Main results:

* `Multiplex.Stage.route` and its companions — **what each operation delivers**;
* `Multiplex.local_step` — **what a step of the tunnel does to one request**;
* `Multiplex.ordered_of_run` — **in every run, every request receives its own frames in order, with
  no gap and nothing after a terminal frame**.
-/

import SparklRouter.Concurrency.Transition
import SparklRouter.Tunnel.Dispatch

set_option relaxedAutoImplicit false
set_option autoImplicit false

namespace Multiplex

open Tunnel Tunnel.Dispatch Transition

/-! ### The frames of a node -/

inductive NodeToRouterFrame
  | auth (nodeId signature : Text) (ed25519Pubkey moniker : Option Text)
  | pong
  /-- The headers are the members of the JSON object whose value is a string. -/
  | response (rid : Uuid) (status : UInt16) (headers : List (Text × Text))
  | chunk (rid : Uuid) (data : Text)
  | endFrame (rid : Uuid) (status : UInt16)
  | error (rid : Uuid) (code : UInt16) (message : Text)
  | activateResponse (rid : Uuid) (apiKey : Text)
deriving DecidableEq

/-- What `handle_inbound_text` routes of a frame, and to which request.  A pong and a late `Auth`
are routed to none. -/
def NodeToRouterFrame.inbound : NodeToRouterFrame → Option (Uuid × InboundFrame)
  | .auth _ _ _ _ | .pong => none
  | .response rid status headers => some (rid, .response status headers)
  | .chunk rid data => some (rid, .chunk data)
  | .endFrame rid status => some (rid, .endFrame status)
  | .error rid code message => some (rid, .error code message)
  | .activateResponse rid apiKey => some (rid, .activateResponse apiKey)

/-! ### The tunnel and the holders of its requests -/

/-- A `PendingRequest` with the frames received on it so far.  Its receiver is dropped before its
cleanup. -/
structure PendingRequest where
  received : List InboundFrame
  rx : Bool
  cleanup : Bool
deriving DecidableEq

structure State where
  dispatch : Dispatch
  reader : ReaderPc
  /-- The shard each `fail_all_pending` in progress locks next. -/
  failing : List ℕ
  /-- The requests, in the order of their registration. -/
  requests : List PendingRequest

def init : State := ⟨Dispatch.empty, .idle, [], []⟩

/-- What the scheduler can do. -/
inductive Action
  | registerPending (rid : Uuid)
  /-- The reader is given a frame of the node. -/
  | handleInbound (frame : NodeToRouterFrame)
  /-- The reader goes on with `route_inbound`. -/
  | reader
  | failAllPending
  /-- A `fail_all_pending` goes on. -/
  | failShard (i : ℕ)
  | recv (l : LineId)
  /-- A `PendingRequest` is dropped: its receiver, and then its cleanup. -/
  | dropRx (l : LineId)
  | dropCleanup (l : LineId)
deriving DecidableEq

/-- **The transition function of the tunnel.** -/
def step (uuids : Sharding Uuid) (s : State) : Action → Option State
  | .registerPending rid =>
      if s.dispatch.Fresh rid then
        some { s with
          dispatch := s.dispatch.registerPending rid
          requests := s.requests ++ [⟨[], true, true⟩] }
      else none
  | .handleInbound frame =>
      if s.reader = .idle then
        match frame.inbound with
        | some (rid, f) =>
            let routed := s.dispatch.routeInbound rid f
            some { s with dispatch := routed.1, reader := routed.2 }
        | none => some s
      else none
  | .reader =>
      (s.dispatch.readerStep s.reader).map fun next =>
        { s with dispatch := next.1, reader := next.2 }
  | .failAllPending => some { s with failing := s.failing ++ [0] }
  | .failShard i =>
      (s.failing[i]?).bind fun shard =>
        if shard < uuids.shards then
          some { s with
            dispatch := s.dispatch.failShard uuids.shard shard
            failing := s.failing.set i (shard + 1) }
        else none
  | .recv l =>
      (s.requests[l]?).bind fun q =>
        if q.rx then
          (s.dispatch.recv l).map fun got =>
            { s with
              dispatch := got.2
              requests := s.requests.set l { q with received := q.received ++ got.1.toList } }
        else none
  | .dropRx l =>
      (s.requests[l]?).bind fun q =>
        if q.rx then
          some { s with
            dispatch := s.dispatch.dropRx l
            requests := s.requests.set l { q with rx := false } }
        else none
  | .dropCleanup l =>
      (s.requests[l]?).bind fun q =>
        (s.dispatch.lines[l]?).bind fun line =>
          if q.rx = false ∧ q.cleanup = true then
            some { s with
              dispatch := s.dispatch.removePending line.rid
              requests := s.requests.set l { q with cleanup := false } }
          else none

/-! ### What may be received -/

/-- A prefix of the frames routed to the request, with nothing after its first terminal frame, and
possibly the error of a disconnect after it if it has none. -/
def Ordered (routed received : List InboundFrame) : Prop :=
  ∃ p, p <+: routed ∧ Plain p.dropLast ∧
    (received = p ∨ (Plain p ∧ received = p ++ [disconnected]))

/-- Every request has received its own frames in order. -/
def InOrder (s : State) : Prop :=
  ∀ (l : LineId) (line : Line) (q : PendingRequest), s.dispatch.lines[l]? = some line →
    s.requests[l]? = some q → Ordered line.routed q.received

section

variable {routed delivered : List InboundFrame}

theorem plain_of_initial {fs gs : List InboundFrame} (h : Plain gs) (hfront : fs <+: gs) :
    Plain fs := fun f hf => h f (hfront.subset hf)

/-- Frames without a terminal frame, as they were routed. -/
theorem ordered_of_plain (hfront : delivered <+: routed) (hplain : Plain delivered) :
    Ordered routed delivered :=
  ⟨delivered, hfront, plain_of_initial hplain (List.dropLast_prefix _), Or.inl rfl⟩

/-- The terminal frame is the last one. -/
theorem ordered_of_terminal {frame : InboundFrame} (hfront : delivered ++ [frame] <+: routed)
    (hplain : Plain delivered) : Ordered routed (delivered ++ [frame]) :=
  ⟨delivered ++ [frame], hfront, by rwa [List.dropLast_concat], Or.inl rfl⟩

/-- The error of a disconnect comes after frames without a terminal one. -/
theorem ordered_of_failed (hfront : delivered <+: routed) (hplain : Plain delivered) :
    Ordered routed (delivered ++ [disconnected]) :=
  ⟨delivered, hfront, plain_of_initial hplain (List.dropLast_prefix _), Or.inr ⟨hplain, rfl⟩⟩

theorem Ordered.mono (h : Ordered routed delivered) (more : List InboundFrame) :
    Ordered (routed ++ more) delivered := by
  obtain ⟨p, hfront, hplain, hcases⟩ := h
  exact ⟨p, hfront.trans (List.prefix_append _ _), hplain, hcases⟩

/-- What was received first was received in order. -/
theorem Ordered.of_append {rest : List InboundFrame} (h : Ordered routed (delivered ++ rest)) :
    Ordered routed delivered := by
  obtain ⟨p, hfront, hplain, hcases⟩ := h
  rcases List.eq_nil_or_concat rest with rfl | ⟨front, last, rfl⟩
  · rw [List.append_nil] at hcases
    exact ⟨p, hfront, hplain, hcases⟩
  · -- something was received after it, so that it has no terminal frame
    have hlast : delivered ++ (front ++ [last]) = delivered ++ front ++ [last] :=
      (List.append_assoc ..).symm
    rcases hcases with hp | ⟨hp, heq⟩
    · obtain rfl : delivered ++ front ++ [last] = p := by rw [← hlast, ← hp]; simp
      rw [List.dropLast_concat] at hplain
      have hshort : delivered <+: delivered ++ front := List.prefix_append _ _
      refine ordered_of_plain ?_ (plain_of_initial hplain hshort)
      exact (hshort.trans (List.prefix_append _ _)).trans hfront
    · have hinit : delivered ++ front = p := by
        have hconcat : delivered ++ front ++ [last] = p ++ [disconnected] := by
          rw [← heq]
          simp
        exact (List.append_inj' hconcat rfl).1
      have hshort : delivered <+: p := hinit ▸ List.prefix_append _ _
      exact ordered_of_plain (hshort.trans hfront) (plain_of_initial hp hshort)

end

/-! ### The delivery to a request -/

/-- How far the delivery to a request has come: all that was routed to it is delivered; or a frame
has found the channel full, and the reader is about to take the request out of the map; or the
reader holds its terminal frame; or nothing will follow. -/
inductive Stage (l : LineId) (v : View) (r : ReaderPc) (delivered : List InboundFrame) : Prop
  | opened (hregistered : v.registered = true) (hreader : r = .idle)
      (hdelivered : v.routed = delivered) (hplain : Plain delivered)
  | overflowed {rid : Uuid} (hreader : r = .overflowed rid) (hfront : delivered <+: v.routed)
      (hplain : Plain delivered)
  | handing {frame : InboundFrame} (hregistered : v.registered = false)
      (hreader : r = .sending l frame) (hfront : delivered ++ [frame] <+: v.routed)
      (hplain : Plain delivered)
  | settled (hregistered : v.registered = false) (hreader : ∀ m frame, r ≠ .sending m frame)
      (hordered : Ordered v.routed delivered)

section

variable {l : LineId} {v : View} {r : ReaderPc} {received : List InboundFrame}

/-- In every stage, what is delivered is in order. -/
theorem Stage.ordered {delivered : List InboundFrame} (h : Stage l v r delivered) :
    Ordered v.routed delivered := by
  cases h with
  | opened hregistered hreader hdelivered hplain =>
      exact ordered_of_plain (by rw [hdelivered]) hplain
  | overflowed hreader hfront hplain => exact ordered_of_plain hfront hplain
  | handing hregistered hreader hfront hplain =>
      exact ordered_of_plain ((List.prefix_append _ _).trans hfront) hplain
  | settled hregistered hreader hordered => exact hordered

/-- The reader is given a frame for the request. -/
theorem Stage.route (h : Stage l v .idle (received ++ v.chan.buffer)) (frame : InboundFrame) :
    Stage l (v.route l frame).1 (v.route l frame).2
      (received ++ (v.route l frame).1.chan.buffer) := by
  cases h with
  | opened hregistered hreader hdelivered hplain =>
      unfold View.route
      simp only [hregistered, if_true]
      cases hterm : isTerminalFrame frame with
      | true =>
          simp only [if_true]
          refine Stage.handing rfl rfl ?_ hplain
          rw [hdelivered]
      | false =>
          simp only [Bool.false_eq_true, if_false]
          rcases Channel.trySend_cases v.chan frame with ⟨hsent, hbuffer⟩ | ⟨hsent, hchan⟩
          · simp only [hsent, if_true, hbuffer]
            refine Stage.opened rfl rfl ?_ ?_
            · rw [hdelivered, List.append_assoc]
            · rw [← List.append_assoc]
              exact hplain.append (plain_singleton hterm)
          · simp only [hsent, Bool.false_eq_true, if_false, hchan]
            refine Stage.overflowed rfl ?_ hplain
            rw [hdelivered]
            exact List.prefix_append _ _
  | overflowed hreader hfront hplain => cases hreader
  | handing hregistered hreader hfront hplain => cases hreader
  | settled hregistered hreader hordered =>
      unfold View.route
      simp only [hregistered, Bool.false_eq_true, if_false]
      exact Stage.settled rfl (fun _ _ h => by cases h) (hordered.mono [frame])

/-- The reader goes on. -/
theorem Stage.reader (h : Stage l v r (received ++ v.chan.buffer)) :
    Stage l (v.readerStep l r).1 (v.readerStep l r).2
      (received ++ (v.readerStep l r).1.chan.buffer) := by
  have hidle : ∀ m frame, ReaderPc.idle ≠ .sending m frame := fun _ _ h => by cases h
  cases h with
  | opened hregistered hreader hdelivered hplain =>
      subst hreader
      exact Stage.opened hregistered rfl hdelivered hplain
  | overflowed hreader hfront hplain =>
      subst hreader
      simp only [View.readerStep]
      split
      · exact Stage.settled rfl hidle (ordered_of_plain hfront hplain)
      · rename_i hregistered
        exact Stage.settled (by simpa using hregistered) hidle (ordered_of_plain hfront hplain)
  | @handing frame hregistered hreader hfront hplain =>
      subst hreader
      have hdropping : ∀ m frame, ReaderPc.dropping l ≠ .sending m frame := fun _ _ h => by cases h
      simp only [View.readerStep]
      rcases Channel.trySend_cases v.chan frame with ⟨-, hbuffer⟩ | ⟨-, hchan⟩
      · rw [hbuffer, ← List.append_assoc]
        exact Stage.settled hregistered hdropping (ordered_of_terminal hfront hplain)
      · rw [hchan]
        refine Stage.settled hregistered hdropping (ordered_of_plain ?_ hplain)
        exact (List.prefix_append _ _).trans hfront
  | settled hregistered hreader hordered =>
      cases r with
      | idle => exact Stage.settled hregistered hidle hordered
      | overflowed rid =>
          simp only [View.readerStep, hregistered, Bool.false_eq_true, if_false]
          exact Stage.settled hregistered hidle hordered
      | sending m frame => exact absurd rfl (hreader m frame)
      | dropping m => exact Stage.settled hregistered hidle hordered

/-- `fail_all_pending` reaches the request. -/
theorem Stage.fail (h : Stage l v r (received ++ v.chan.buffer))
    (hregistered : v.registered = true) :
    Stage l { v with registered := false, chan := (v.chan.trySend disconnected).1.dropSender } r
      (received ++ (v.chan.trySend disconnected).1.dropSender.buffer) := by
  obtain ⟨hfront, hplain, hreader⟩ : received ++ v.chan.buffer <+: v.routed ∧
      Plain (received ++ v.chan.buffer) ∧ ∀ m frame, r ≠ .sending m frame := by
    cases h with
    | opened _ hreader hdelivered hplain =>
        subst hreader
        exact ⟨by rw [hdelivered], hplain, fun _ _ h => by cases h⟩
    | overflowed hreader hfront hplain =>
        subst hreader
        exact ⟨hfront, hplain, fun _ _ h => by cases h⟩
    | handing hregistered' _ _ _ =>
        rw [hregistered] at hregistered'
        cases hregistered'
    | settled hregistered' _ _ =>
        rw [hregistered] at hregistered'
        cases hregistered'
  refine Stage.settled rfl hreader ?_
  rcases Channel.trySend_cases v.chan disconnected with ⟨-, hbuffer⟩ | ⟨-, hchan⟩
  · have hsent : received ++ (v.chan.trySend disconnected).1.dropSender.buffer =
        received ++ v.chan.buffer ++ [disconnected] := by
      rw [Channel.dropSender, hbuffer, ← List.append_assoc]
    rw [hsent]
    exact ordered_of_failed hfront hplain
  · rw [hchan]
    exact ordered_of_plain hfront hplain

/-- A stage does not speak of the channel, but of what is delivered. -/
theorem Stage.chan {delivered : List InboundFrame} (h : Stage l v r delivered)
    (chan : Channel 256 InboundFrame) : Stage l { v with chan := chan } r delivered := by
  cases h with
  | opened hregistered hreader hdelivered hplain =>
      exact Stage.opened hregistered hreader hdelivered hplain
  | overflowed hreader hfront hplain => exact Stage.overflowed hreader hfront hplain
  | handing hregistered hreader hfront hplain =>
      exact Stage.handing hregistered hreader hfront hplain
  | settled hregistered hreader hordered => exact Stage.settled hregistered hreader hordered

/-- A receive takes the first frame of the channel. -/
theorem received_append {chan chan' : Channel 256 InboundFrame} {got : Option InboundFrame}
    (hrecv : chan.recv = some (got, chan')) :
    received ++ got.toList ++ chan'.buffer = received ++ chan.buffer := by
  rcases Channel.recv_cases hrecv with ⟨f, rfl, hbuffer, -, -⟩ | ⟨rfl, rfl, -, -⟩
  · rw [hbuffer, List.append_assoc]
    rfl
  · simp

end

/-! ### The invariant -/

/-- While its receiver is there, the delivery to a request is in some stage; afterwards, what it has
received is in order. -/
def LocalInv (l : LineId) (v : View) (r : ReaderPc) (q : PendingRequest) : Prop :=
  if q.rx then Stage l v r (q.received ++ v.chan.buffer) else Ordered v.routed q.received

theorem LocalInv.ordered {l : LineId} {v : View} {r : ReaderPc} {q : PendingRequest}
    (h : LocalInv l v r q) : Ordered v.routed q.received := by
  unfold LocalInv at h
  split at h
  · exact h.ordered.of_append
  · exact h

/-- A step of the tunnel that keeps the stages, and adds to what was routed, keeps the invariant. -/
theorem LocalInv.imp {l : LineId} {v v' : View} {r r' : ReaderPc} {q : PendingRequest}
    (h : LocalInv l v r q)
    (hstage : Stage l v r (q.received ++ v.chan.buffer) →
      Stage l v' r' (q.received ++ v'.chan.buffer))
    (hrouted : ∃ more, v'.routed = v.routed ++ more) : LocalInv l v' r' q := by
  unfold LocalInv at h ⊢
  split
  · rename_i hrx
    rw [if_pos hrx] at h
    exact hstage h
  · rename_i hrx
    rw [if_neg hrx] at h
    obtain ⟨more, hmore⟩ := hrouted
    rw [hmore]
    exact h.mono more

/-- The pending map is well formed, there is one request for each line of the dispatcher, the reader
works for one of them, and the delivery to each of them is in order. -/
structure Inv (s : State) : Prop where
  dispatch : s.dispatch.WF
  length : s.requests.length = s.dispatch.lines.length
  reader : Named s.dispatch s.reader
  here : ∀ (l : LineId) (v : View) (q : PendingRequest), s.dispatch.view l = some v →
    s.requests[l]? = some q → LocalInv l v (localTo l v.rid s.reader) q

theorem inv_init : Inv init where
  dispatch := wf_empty
  length := rfl
  reader := trivial
  here l v q _ h := by simp [init] at h

/-- The request is there before a step that keeps the requests and their number. -/
theorem exists_view {s : State} (hlength : s.requests.length = s.dispatch.lines.length) {l : LineId}
    {q : PendingRequest} (hq : s.requests[l]? = some q) : ∃ v, s.dispatch.view l = some v := by
  have hlt : l < s.dispatch.lines.length := by
    rw [← hlength]
    exact (List.getElem?_eq_some_iff.1 hq).1
  exact ⟨_, by rw [view, List.getElem?_eq_getElem hlt, Option.map_some]⟩

/-! ### A step, seen from one request -/

/-- What a step of the tunnel does to a request: to its view, to the reader as far as it works for
the request, and to its holder. -/
inductive LocalStep (uuids : Sharding Uuid) (failing : List ℕ) (act : Action) (l : LineId)
    (v : View) (r : ReaderPc) (q : PendingRequest) : View → ReaderPc → PendingRequest → Prop
  | quiet (hfail : ∀ i shard, act = .failShard i → failing[i]? = some shard →
      ¬ (uuids.shard v.rid = shard ∧ v.registered = true)) :
      LocalStep uuids failing act l v r q v r q
  | route {node : NodeToRouterFrame} {frame : InboundFrame} (hact : act = .handleInbound node)
      (hinbound : node.inbound = some (v.rid, frame)) (hidle : r = .idle) :
      LocalStep uuids failing act l v r q (v.route l frame).1 (v.route l frame).2 q
  | reader (hact : act = .reader) :
      LocalStep uuids failing act l v r q (v.readerStep l r).1 (v.readerStep l r).2 q
  | fail {i : ℕ} (hact : act = .failShard i) (hshard : failing[i]? = some (uuids.shard v.rid))
      (hregistered : v.registered = true) : LocalStep uuids failing act l v r q
        { v with registered := false, chan := (v.chan.trySend disconnected).1.dropSender } r q
  | recv {got : Option InboundFrame} {chan : Channel 256 InboundFrame} (hact : act = .recv l)
      (hrx : q.rx = true) (hrecv : v.chan.recv = some (got, chan)) :
      LocalStep uuids failing act l v r q { v with chan := chan } r
        { q with received := q.received ++ got.toList }
  | dropRx (hact : act = .dropRx l) : LocalStep uuids failing act l v r q
      { v with chan := v.chan.dropReceiver } r { q with rx := false }
  | cleanup (hact : act = .dropCleanup l) (hrx : q.rx = false) :
      LocalStep uuids failing act l v r q
        (if v.registered = true then { v with registered := false, chan := v.chan.dropSender }
          else v) r { q with cleanup := false }

section

variable {s s' : State} {uuids : Sharding Uuid}

/-- The id of a request does not change. -/
theorem LocalStep.rid {failing : List ℕ} {act : Action} {l : LineId} {v v' : View}
    {r r' : ReaderPc} {q q' : PendingRequest} (h : LocalStep uuids failing act l v r q v' r' q') :
    v'.rid = v.rid := by
  cases h with
  | route hact hinbound hidle => exact rid_route ..
  | reader hact => exact rid_readerStep ..
  | cleanup hact hrx => split <;> rfl
  | _ => rfl

/-- A step of the tunnel drops receivers, and never brings one back. -/
theorem LocalStep.rx {failing : List ℕ} {act : Action} {l : LineId} {v v' : View}
    {r r' : ReaderPc} {q q' : PendingRequest} (h : LocalStep uuids failing act l v r q v' r' q')
    (hrx : q'.rx = true) :
    q.rx = true := by
  cases h with
  | dropRx hact => cases hrx
  | _ => exact hrx

/-- A step of the tunnel takes requests out of the map, and puts none back. -/
theorem LocalStep.registered {failing : List ℕ} {act : Action} {l : LineId} {v v' : View}
    {r r' : ReaderPc} {q q' : PendingRequest} (h : LocalStep uuids failing act l v r q v' r' q')
    (hregistered : v'.registered = true) : v.registered = true ∧
      ∀ i, act = .failShard i → failing[i]? ≠ some (uuids.shard v.rid) := by
  cases h with
  | quiet hfail => exact ⟨hregistered, fun i hi hshard => hfail i _ hi hshard ⟨rfl, hregistered⟩⟩
  | route hact hinbound hidle =>
      refine ⟨?_, fun i hi => by rw [hact] at hi; cases hi⟩
      unfold View.route at hregistered
      dsimp only at hregistered
      split at hregistered
      · rename_i h
        exact h
      · exact hregistered
  | reader hact =>
      refine ⟨?_, fun i hi => by rw [hact] at hi; cases hi⟩
      cases r with
      | overflowed rid =>
          simp only [View.readerStep] at hregistered
          split at hregistered
          · rename_i h
            exact h
          · exact hregistered
      | _ => exact hregistered
  | fail hact hshard h => cases hregistered
  | recv hact hrx hrecv => exact ⟨hregistered, fun i hi => by rw [hact] at hi; cases hi⟩
  | dropRx hact => exact ⟨hregistered, fun i hi => by rw [hact] at hi; cases hi⟩
  | cleanup hact hrx =>
      refine ⟨?_, fun i hi => by rw [hact] at hi; cases hi⟩
      split at hregistered
      · rename_i h
        exact h
      · exact hregistered

/-- A registration leaves the requests alone that were there before. -/
theorem LocalStep.of_registerPending {failing : List ℕ} {rid : Uuid} {l : LineId} {v v' : View}
    {r r' : ReaderPc} {q q' : PendingRequest}
    (h : LocalStep uuids failing (.registerPending rid) l v r q v' r' q') : v' = v ∧ q' = q := by
  cases h with
  | quiet hfail => exact ⟨rfl, rfl⟩
  | route hact hinbound hidle => cases hact
  | reader hact => cases hact
  | fail hact hshard hregistered => cases hact
  | recv hact hrx hrecv => cases hact
  | dropRx hact => cases hact
  | cleanup hact hrx => cases hact

/-- A step that leaves a request, and the reader as far as it works for it, alone. -/
theorem LocalStep.still {failing : List ℕ} {act : Action} {l : LineId} {v : View} {r r' : ReaderPc}
    {q : PendingRequest} (hact : ∀ i, act ≠ .failShard i) (hr : r' = r) :
    LocalStep uuids failing act l v r q v r' q := by
  subst hr
  exact LocalStep.quiet fun i _ hi => absurd hi (hact i)

/-- The request was there before the step, and one of the listed things happens to it. -/
def Happens (uuids : Sharding Uuid) (s : State) (act : Action) (s' : State) (l : LineId) (v' : View)
    (q' : PendingRequest) : Prop :=
  ∃ v q, s.dispatch.view l = some v ∧ s.requests[l]? = some q ∧
    LocalStep uuids s.failing act l v (localTo l v.rid s.reader) q v' (localTo l v.rid s'.reader) q'

section

variable {act : Action} {l m : LineId} {v' : View} {q q' : PendingRequest}

/-- A step that keeps the holders. -/
theorem Happens.of_kept (hlength : s.requests.length = s.dispatch.lines.length)
    (hsame : s'.requests = s.requests) (hq : s'.requests[l]? = some q')
    (h : ∀ v, s.dispatch.view l = some v → LocalStep uuids s.failing act l v
      (localTo l v.rid s.reader) q' v' (localTo l v.rid s'.reader) q') :
    Happens uuids s act s' l v' q' := by
  rw [hsame] at hq
  obtain ⟨v, hv⟩ := exists_view hlength hq
  exact ⟨v, q', hv, hq, h v hv⟩

/-- A step of the holder of the request `m`: it is for this request what the step does, and leaves
the other requests alone. -/
theorem Happens.of_holder {q₁ : PendingRequest} {d : Dispatch}
    (hlength : s.requests.length = s.dispatch.lines.length) (hholder : s.requests[m]? = some q)
    (hs' : s' = { s with dispatch := d, requests := s.requests.set m q₁ })
    (hact : ∀ i, act ≠ .failShard i)
    (hself : ∀ v, s.dispatch.view m = some v → ∃ v', d.view m = some v' ∧
      LocalStep uuids s.failing act m v (localTo m v.rid s.reader) q v'
        (localTo m v.rid s.reader) q₁)
    (hother : ∀ k v, k ≠ m → s.dispatch.view k = some v → d.view k = some v)
    (hview : s'.dispatch.view l = some v') (hq : s'.requests[l]? = some q') :
    Happens uuids s act s' l v' q' := by
  subst hs'
  rcases TaskPool.getElem?_set_cases hq with ⟨rfl, rfl⟩ | ⟨hml, hold⟩
  · obtain ⟨v, hv⟩ := exists_view hlength hholder
    obtain ⟨v₁, hv₁, hlocal⟩ := hself v hv
    obtain rfl := Option.some.inj (hv₁.symm.trans hview)
    exact ⟨v, q, hv, hholder, hlocal⟩
  · obtain ⟨v, hv⟩ := exists_view hlength hold
    obtain rfl := Option.some.inj ((hother l v hml.symm hv).symm.trans hview)
    exact ⟨v, q', hv, hold, LocalStep.still hact rfl⟩

theorem happens_handleInbound {node : NodeToRouterFrame} (hwf : s.dispatch.WF)
    (hlength : s.requests.length = s.dispatch.lines.length)
    (hstep : step uuids s (.handleInbound node) = some s')
    (hview : s'.dispatch.view l = some v') (hq : s'.requests[l]? = some q') :
    Happens uuids s (.handleInbound node) s' l v' q' := by
  simp only [step] at hstep
  split at hstep
  · rename_i hidle
    have hr : ∀ rid, localTo l rid s.reader = .idle := fun rid => by rw [hidle]; rfl
    split at hstep
    · rename_i rid frame hinbound
      obtain rfl := Option.some.inj hstep
      refine Happens.of_kept hlength rfl hq fun v hv => ?_
      dsimp only at hview ⊢
      by_cases hrid : rid = v.rid
      · -- a frame of this request
        subst hrid
        obtain ⟨hview', hpc'⟩ := view_routeInbound_self hwf hv frame
        obtain rfl := Option.some.inj (hview'.symm.trans hview)
        rw [hpc', localTo_route]
        exact LocalStep.route rfl hinbound (hr v.rid)
      · obtain ⟨hview', hpc'⟩ := view_routeInbound_other hwf hv (Ne.symm hrid) frame
        obtain rfl := Option.some.inj (hview'.symm.trans hview)
        exact LocalStep.still (fun _ h => by cases h) (hpc'.trans (hr v.rid).symm)
    · -- a frame that is for no request
      obtain rfl := Option.some.inj hstep
      refine Happens.of_kept hlength rfl hq fun v hv => ?_
      obtain rfl := Option.some.inj (hv.symm.trans hview)
      exact LocalStep.still (fun _ h => by cases h) rfl
  · cases hstep

theorem happens_reader (hwf : s.dispatch.WF)
    (hlength : s.requests.length = s.dispatch.lines.length)
    (hstep : step uuids s .reader = some s')
    (hview : s'.dispatch.view l = some v') (hq : s'.requests[l]? = some q') :
    Happens uuids s .reader s' l v' q' := by
  obtain ⟨⟨d, pc⟩, hnext, rfl⟩ := Option.map_eq_some_iff.1 hstep
  refine Happens.of_kept hlength rfl hq fun v hv => ?_
  obtain ⟨hview', hpc'⟩ := view_readerStep hwf hv hnext
  obtain rfl := Option.some.inj (hview'.symm.trans hview)
  dsimp only
  rw [hpc']
  exact LocalStep.reader rfl

theorem happens_failShard {i : ℕ} (hlength : s.requests.length = s.dispatch.lines.length)
    (hstep : step uuids s (.failShard i) = some s')
    (hview : s'.dispatch.view l = some v') (hq : s'.requests[l]? = some q') :
    Happens uuids s (.failShard i) s' l v' q' := by
  obtain ⟨shard, hshard, hstep⟩ := Option.bind_eq_some_iff.1 hstep
  split at hstep
  · obtain rfl := Option.some.inj hstep
    refine Happens.of_kept hlength rfl hq fun v hv => ?_
    have hview' := view_failShard hv uuids.shard shard
    by_cases hhit : uuids.shard v.rid = shard ∧ v.registered = true
    · rw [if_pos hhit] at hview'
      obtain rfl := Option.some.inj (hview'.symm.trans hview)
      obtain ⟨rfl, hregistered⟩ := hhit
      exact LocalStep.fail rfl hshard hregistered
    · -- the request is not in the shard, or not in the map
      rw [if_neg hhit] at hview'
      obtain rfl := Option.some.inj (hview'.symm.trans hview)
      refine LocalStep.quiet fun j shard' hj hshard' => ?_
      obtain rfl := Action.failShard.inj hj
      obtain rfl := Option.some.inj (hshard.symm.trans hshard')
      exact hhit
  · cases hstep

theorem happens_recv (hlength : s.requests.length = s.dispatch.lines.length)
    (hstep : step uuids s (.recv m) = some s')
    (hview : s'.dispatch.view l = some v') (hq : s'.requests[l]? = some q') :
    Happens uuids s (.recv m) s' l v' q' := by
  obtain ⟨q₀, hq₀, hstep⟩ := Option.bind_eq_some_iff.1 hstep
  split at hstep
  · rename_i hrx
    obtain ⟨⟨got, d⟩, hrecv, hs'⟩ := Option.map_eq_some_iff.1 hstep
    refine Happens.of_holder hlength hq₀ hs'.symm (fun _ h => by cases h) (fun v hv => ?_) ?_
      hview hq
    · rcases view_recv hv hrecv with ⟨-, chan, hchan, hview⟩ | ⟨hne, -⟩
      · exact ⟨_, hview, LocalStep.recv rfl hrx hchan⟩
      · exact absurd rfl hne
    · intro k v hne hv
      rcases view_recv hv hrecv with ⟨rfl, -⟩ | ⟨-, hview⟩
      · exact absurd rfl hne
      · exact hview
  · cases hstep

theorem happens_dropRx (hlength : s.requests.length = s.dispatch.lines.length)
    (hstep : step uuids s (.dropRx m) = some s')
    (hview : s'.dispatch.view l = some v') (hq : s'.requests[l]? = some q') :
    Happens uuids s (.dropRx m) s' l v' q' := by
  obtain ⟨q₀, hq₀, hstep⟩ := Option.bind_eq_some_iff.1 hstep
  split at hstep
  · have hview' : ∀ k v, s.dispatch.view k = some v → (s.dispatch.dropRx m).view k =
        some (if m = k then { v with chan := v.chan.dropReceiver } else v) :=
      fun k v hv => view_onChan hv m _
    refine Happens.of_holder hlength hq₀ (Option.some.inj hstep).symm (fun _ h => by cases h)
      (fun v hv => ?_) ?_ hview hq
    · have hself := hview' m v hv
      rw [if_pos rfl] at hself
      exact ⟨_, hself, LocalStep.dropRx rfl⟩
    · intro k v hne hv
      have hother := hview' k v hv
      rwa [if_neg hne.symm] at hother
  · cases hstep

theorem happens_dropCleanup (hwf : s.dispatch.WF)
    (hlength : s.requests.length = s.dispatch.lines.length)
    (hstep : step uuids s (.dropCleanup m) = some s')
    (hview : s'.dispatch.view l = some v') (hq : s'.requests[l]? = some q') :
    Happens uuids s (.dropCleanup m) s' l v' q' := by
  obtain ⟨q₀, hq₀, hstep⟩ := Option.bind_eq_some_iff.1 hstep
  obtain ⟨line, hline, hstep⟩ := Option.bind_eq_some_iff.1 hstep
  split at hstep
  · rename_i hcond
    refine Happens.of_holder hlength hq₀ (Option.some.inj hstep).symm (fun _ h => by cases h)
      (fun v hv => ?_) ?_ hview hq
    · have hrid : v.rid = line.rid := by
        obtain ⟨mine, hmine, rfl⟩ := view_eq_some hv
        obtain rfl := Option.some.inj (hline.symm.trans hmine)
        rfl
      rw [← hrid]
      have hremove := view_removePending hwf hv v.rid
      simp only [true_and] at hremove
      exact ⟨_, hremove, LocalStep.cleanup rfl hcond.1⟩
    · -- another request has another id, so its entry is not the one removed
      intro k v hne hv
      have hremove := view_removePending hwf hv line.rid
      have hrid : v.rid ≠ line.rid := by
        obtain ⟨mine, hmine, rfl⟩ := view_eq_some hv
        intro hrid
        exact hne (hwf.unique k m mine line hmine hline hrid)
      rwa [if_neg fun hand => hrid hand.1] at hremove
  · cases hstep

end

/-- **A step, seen from one request**: the request is the one that is registered, or it was there
before and one of the listed things happens to it. -/
theorem local_step {act : Action} (hwf : s.dispatch.WF)
    (hlength : s.requests.length = s.dispatch.lines.length) (hnamed : Named s.dispatch s.reader)
    (hstep : step uuids s act = some s') {l : LineId} {v' : View} {q' : PendingRequest}
    (hview : s'.dispatch.view l = some v') (hq : s'.requests[l]? = some q') :
    (∃ rid, act = .registerPending rid ∧ s.requests.length = l ∧
      v' = ⟨rid, true, Channel.new, []⟩ ∧ localTo l rid s'.reader = .idle ∧
        q' = ⟨[], true, true⟩) ∨
    ∃ v q, s.dispatch.view l = some v ∧ s.requests[l]? = some q ∧
      LocalStep uuids s.failing act l v (localTo l v.rid s.reader) q v'
        (localTo l v.rid s'.reader) q' := by
  cases act with
  | registerPending rid =>
      simp only [step] at hstep
      split at hstep
      · rename_i hfresh
        obtain rfl := Option.some.inj hstep
        rcases TaskPool.getElem?_append_cases hq with ⟨hl, rfl⟩ | hold
        · obtain rfl : l = s.dispatch.lines.length := hl.trans hlength
          rw [view_registerPending_self] at hview
          obtain rfl := Option.some.inj hview
          exact Or.inl ⟨rid, rfl, hlength, rfl, localTo_of_fresh hnamed hfresh, rfl⟩
        · obtain ⟨v, hv⟩ := exists_view hlength hold
          rw [view_registerPending hv hfresh] at hview
          obtain rfl := Option.some.inj hview
          exact Or.inr ⟨v, q', hv, hold, LocalStep.still (fun _ h => by cases h) rfl⟩
      · cases hstep
  | handleInbound node => exact Or.inr (happens_handleInbound hwf hlength hstep hview hq)
  | reader => exact Or.inr (happens_reader hwf hlength hstep hview hq)
  | failAllPending =>
      obtain rfl := Option.some.inj hstep
      refine Or.inr (Happens.of_kept hlength rfl hq fun v hv => ?_)
      obtain rfl := Option.some.inj (hv.symm.trans hview)
      exact LocalStep.still (fun _ h => by cases h) rfl
  | failShard i => exact Or.inr (happens_failShard hlength hstep hview hq)
  | recv m => exact Or.inr (happens_recv hlength hstep hview hq)
  | dropRx m => exact Or.inr (happens_dropRx hlength hstep hview hq)
  | dropCleanup m => exact Or.inr (happens_dropCleanup hwf hlength hstep hview hq)

/-- The delivery to a request stays in order. -/
theorem LocalInv.step {failing : List ℕ} {act : Action} {l : LineId} {v v' : View}
    {r r' : ReaderPc} {q q' : PendingRequest} (h : LocalInv l v r q)
    (hlocal : LocalStep uuids failing act l v r q v' r' q') : LocalInv l v' r' q' := by
  cases hlocal with
  | quiet hfail => exact h
  | @route node frame hact hinbound hidle =>
      subst hidle
      exact h.imp (fun hstage => hstage.route frame) ⟨[frame], routed_route l v frame⟩
  | reader hact =>
      refine h.imp (fun hstage => hstage.reader) ⟨[], ?_⟩
      rw [routed_readerStep, List.append_nil]
  | fail hact hshard hregistered =>
      exact h.imp (fun hstage => hstage.fail hregistered) ⟨[], by simp⟩
  | recv hact hrx hrecv =>
      simp only [LocalInv, hrx, if_true] at h ⊢
      rw [received_append hrecv]
      exact h.chan _
  | dropRx hact => exact h.ordered
  | cleanup hact hrx =>
      simp only [LocalInv, hrx, Bool.false_eq_true, if_false] at h ⊢
      split <;> exact h

/-- The pending map stays well formed, with one holder for each of its requests, and the reader
works for one of them. -/
theorem formed_step {act : Action} (hwf : s.dispatch.WF)
    (hlength : s.requests.length = s.dispatch.lines.length) (hnamed : Named s.dispatch s.reader)
    (hstep : step uuids s act = some s') : s'.dispatch.WF ∧
      s'.requests.length = s'.dispatch.lines.length ∧ Named s'.dispatch s'.reader := by
  -- a step of a holder
  have hholder : ∀ {m : LineId} {q : PendingRequest} {d : Dispatch}, d.WF → SameRids s.dispatch d →
      d.WF ∧ (s.requests.set m q).length = d.lines.length ∧ Named d s.reader := by
    intro m q d hd hsame
    refine ⟨hd, ?_, hnamed.of_sameRids hsame⟩
    rw [hsame.length, List.length_set]
    exact hlength
  cases act with
  | registerPending rid =>
      simp only [step] at hstep
      split at hstep
      · rename_i hfresh
        obtain rfl := Option.some.inj hstep
        refine ⟨hwf.registerPending hfresh, ?_, named_registerPending hnamed rid⟩
        simp only [List.length_append, List.length_singleton, Dispatch.registerPending]
        omega
      · cases hstep
  | handleInbound node =>
      simp only [step] at hstep
      split at hstep
      · split at hstep
        · rename_i rid frame hinbound
          obtain rfl := Option.some.inj hstep
          have hsame := sameRids_routeInbound s.dispatch rid frame
          exact ⟨hwf.routeInbound rid frame, hlength.trans hsame.length.symm,
            named_routeInbound hwf rid frame⟩
        · obtain rfl := Option.some.inj hstep
          exact ⟨hwf, hlength, hnamed⟩
      · cases hstep
  | reader =>
      obtain ⟨⟨d, pc⟩, hnext, rfl⟩ := Option.map_eq_some_iff.1 hstep
      exact ⟨hwf.readerStep hnext, hlength.trans (sameRids_readerStep hnext).length.symm,
        named_readerStep hnamed hnext⟩
  | failAllPending =>
      obtain rfl := Option.some.inj hstep
      exact ⟨hwf, hlength, hnamed⟩
  | failShard i =>
      obtain ⟨shard, -, hstep⟩ := Option.bind_eq_some_iff.1 hstep
      split at hstep
      · obtain rfl := Option.some.inj hstep
        have hsame := sameRids_failShard s.dispatch uuids.shard shard
        exact ⟨hwf.failShard uuids.shard shard, hlength.trans hsame.length.symm,
          hnamed.of_sameRids hsame⟩
      · cases hstep
  | recv l =>
      obtain ⟨q, hq, hstep⟩ := Option.bind_eq_some_iff.1 hstep
      split at hstep
      · obtain ⟨⟨got, d⟩, hrecv, rfl⟩ := Option.map_eq_some_iff.1 hstep
        exact hholder (hwf.recv hrecv) (sameRids_recv hrecv)
      · cases hstep
  | dropRx l =>
      obtain ⟨q, hq, hstep⟩ := Option.bind_eq_some_iff.1 hstep
      split at hstep
      · obtain rfl := Option.some.inj hstep
        exact hholder (hwf.onChan l _) (sameRids_onChan _ l _)
      · cases hstep
  | dropCleanup l =>
      obtain ⟨q, hq, hstep⟩ := Option.bind_eq_some_iff.1 hstep
      obtain ⟨line, hline, hstep⟩ := Option.bind_eq_some_iff.1 hstep
      split at hstep
      · obtain rfl := Option.some.inj hstep
        exact hholder (hwf.removePending line.rid) (sameRids_removePending s.dispatch line.rid)
      · cases hstep

/-- **Every step keeps the invariant.** -/
theorem inv_step {act : Action} (h : Inv s) (hstep : step uuids s act = some s') : Inv s' := by
  obtain ⟨hwf, hlength, hnamed⟩ := formed_step h.dispatch h.length h.reader hstep
  refine ⟨hwf, hlength, hnamed, fun l v' q' hview hq => ?_⟩
  rcases local_step h.dispatch h.length h.reader hstep hview hq with
    ⟨rid, -, -, rfl, hreader, rfl⟩ | ⟨v, q, hv, hold, hlocal⟩
  · rw [hreader]
    exact Stage.opened rfl rfl rfl plain_nil
  · rw [hlocal.rid]
    exact (h.here l v q hv hold).step hlocal

/-- What the requests have received is in order. -/
theorem Inv.inOrder (h : Inv s) : InOrder s := by
  intro l line q hline hq
  have hview : s.dispatch.view l =
      some ⟨line.rid, decide (s.dispatch.pending.get line.rid = some l), line.chan, line.routed⟩ := by
    rw [view, hline, Option.map_some]
  exact (h.here l _ q hview hq).ordered

end

/-! ### Runs -/

/-- **Isolation and order.**  In every run of a tunnel, whatever the order in which the reader,
`fail_all_pending`, the receivers and the drops take their steps, what a request has received is a
prefix of the frames routed to it since its registration, with nothing after a terminal frame, and
possibly followed by the error of a disconnect. -/
theorem ordered_of_run (uuids : Sharding Uuid) (as : List Action) :
    Always (step uuids) InOrder init as := by
  have hinv : Always (step uuids) Inv init as :=
    always_of_invariant (fun s act s' hs hstep => inv_step hs hstep) inv_init as
  exact hinv.mono fun s hs => hs.inOrder

/-- Two requests share the tunnel, which fails after the first one has ended. -/
def interleaved : List Action :=
  [.registerPending 7, .registerPending 8, .handleInbound (.chunk 8 "b".toList),
    .handleInbound (.chunk 7 "a".toList), .handleInbound (.endFrame 7 200), .reader, .reader,
    .failAllPending, .failShard 0, .recv 0, .recv 0, .recv 1, .recv 1]

example : (run (step ⟨1, fun _ => 0, fun _ => by decide⟩) init interleaved).map
    (fun s => s.requests.map PendingRequest.received) =
      some [[.chunk "a".toList, .endFrame 200], [.chunk "b".toList, disconnected]] := by
  decide +kernel

end Multiplex
