/-
**A connection by the texts that go over its socket.**

The reader of a tunnel parses every text of the node and passes over what is no frame; the writer
prints every frame it takes off the outbound channel (`run_tunnel_lifecycle` and `handle_inbound_text`
in `src/tunnel/lifecycle.rs`).  This module puts the texts to the connection, and shows what a run
amounts to for the two sides.  The node is written the frames of the requests whose send has returned,
and pings between them, each once, unaltered, and in the order of the sends; a request receives the
frames that the node has written for it, in their order.

Main definitions:

* `Wire.State`, `Wire.step` — the connection with the texts it has read and written;
* `Wire.framesFor` — the frames of the texts for one request;
* `Wire.Conversation` — what the two sides get of each other.

Main results:

* `Wire.flow_of_step` — **what a step does to the sends and to the outbound channel**;
* `Wire.view_step`, `Wire.view_handleInbound` — what a step routes to a request;
* `Wire.conversation_of_run` — **in every run, each side gets what the other has sent it**.
-/

import SparklRouter.Consumer.Relay
import SparklRouter.Tunnel.Disconnect
import SparklRouter.Tunnel.Protocol

set_option relaxedAutoImplicit false
set_option autoImplicit false

namespace Wire

open Json Tunnel Tunnel.Dispatch Transition
open Disconnect (Call Sending)
open Multiplex (PendingRequest Ordered)
open Protocol (UuidText routerFrames)

/-! ### Frames -/

/-- A frame of the outbound channel. -/
def outbound : Disconnect.RouterToNodeFrame → Protocol.RouterToNodeFrame
  | .request rid method path headers body => .request rid method path headers body
  | .activateRequest rid sessionId signature blockNumber message =>
      .activateRequest rid sessionId signature blockNumber message
  | .ping => .ping

/-- A frame of the node, as the tunnel takes it. -/
def inbound : Protocol.NodeToRouterFrame → Multiplex.NodeToRouterFrame
  | .auth nodeId signature ed25519Pubkey moniker => .auth nodeId signature ed25519Pubkey moniker
  | .pong => .pong
  | .response rid status headers => .response rid status (Relay.stringMembers headers)
  | .chunk rid data => .chunk rid data
  | .endFrame rid status => .endFrame rid status
  | .error rid code message => .error rid code message
  | .activateResponse rid apiKey => .activateResponse rid apiKey

/-- What a frame of the node carries for the request with the id. -/
def carries (rid : Uuid) (node : Multiplex.NodeToRouterFrame) : Option InboundFrame :=
  node.inbound.bind fun r => if r.1 = rid then some r.2 else none

/-! ### The connection -/

/-- The connection, with the history of its requests and of its texts. -/
structure State where
  connection : Disconnect.State
  /-- The requests that were forwarded, in the order of their registration. -/
  forwarded : List (Uuid × Call)
  /-- How many texts the reader had taken when each of them was registered. -/
  registered : List ℕ
  /-- The texts the reader has taken from the socket. -/
  read : List Text
  /-- The texts the writer has given to the socket. -/
  written : List Text

def init : State := ⟨Disconnect.init, [], [], [], []⟩

/-- What the scheduler can do. -/
inductive Action
  /-- The reader is given a text of the node. -/
  | text (t : Text)
  | connection (act : Disconnect.Action)

/-- The reader is given a frame: here it comes in a text only. -/
def reads : Disconnect.Action → Bool
  | .tunnel (.handleInbound _) => true
  | _ => false

variable (uuids : Sharding Uuid) (texts : UuidText) (json : SerdeJson)

/-- A request is forwarded. -/
def State.register (s : State) (rid : Uuid) (call : Call) : State :=
  { s with
    forwarded := s.forwarded ++ [(rid, call)]
    registered := s.registered ++ [s.read.length] }

/-- What a step of the connection adds to the history. -/
def State.record (s : State) : Disconnect.Action → State
  | .forward rid call => s.register rid call
  | .writerTakes =>
      { s with
        written := s.written ++
          (s.connection.frames.buffer.head?.map fun frame =>
            (outbound frame).toJson texts json).toList }
  | _ => s

/-- **The transition function of the connection with its texts.** -/
def step (s : State) : Action → Option State
  | .text t =>
      match Protocol.NodeToRouterFrame.parse texts json t with
      | some frame =>
          (Disconnect.step uuids s.connection (.tunnel (.handleInbound (inbound frame)))).map
            fun c => { s with connection := c, read := s.read ++ [t] }
      | none =>
          if s.connection.handler = .serving ∧ s.connection.tunnel.reader = .idle then
            some { s with read := s.read ++ [t] }
          else none
  | .connection act =>
      if reads act then none
      else
        (Disconnect.step uuids s.connection act).map fun c =>
          { s.record texts json act with connection := c }

/-! ### What the two sides get -/

/-- The frames of the texts for the request with the id. -/
def framesFor (rid : Uuid) (ts : List Text) : List InboundFrame :=
  ts.filterMap fun t =>
    (Protocol.NodeToRouterFrame.parse texts json t).bind fun frame => carries rid (inbound frame)

/-- The frame of a request, or a ping. -/
def State.frame (s : State) : Option LineId → Option Protocol.RouterToNodeFrame
  | none => some .ping
  | some l => (s.forwarded[l]?).map fun f => outbound (f.2.frame f.1)

/-- **What went into the outbound channel**: the frames of the given senders, where none is the
pinger.  The requests among them are those whose send has returned, each once; the texts that are
written are read as the first of these frames, and the others are in the channel as long as it is
open. -/
structure Accepted (senders : List (Option LineId)) (s : State) : Prop where
  nodup : (senders.filterMap id).Nodup
  sent : ∀ l, some l ∈ senders ↔ s.connection.sends[l]? = some .sent
  written : s.written.map (Protocol.RouterToNodeFrame.read texts json) =
    (senders.take s.written.length).map s.frame
  buffered : s.connection.frames.receiver = true →
    (senders.drop s.written.length).map s.frame =
      s.connection.frames.buffer.map fun frame => some (outbound frame)

/-- **What the two sides get of each other**: the node what the requests have sent, a request what the
node has written for it from its registration on. -/
structure Conversation (s : State) : Prop where
  outbound : ∃ senders, Accepted texts json senders s
  inbound : ∀ (l : LineId) (rid : Uuid) (call : Call) (q : PendingRequest),
    s.forwarded[l]? = some (rid, call) → s.connection.tunnel.requests[l]? = some q →
      ∃ start, s.registered[l]? = some start ∧
        Ordered (framesFor texts json rid (s.read.drop start)) q.received

/-- The library reads back what the router writes for the frame. -/
def Readable (frame : Protocol.RouterToNodeFrame) : Prop :=
  json.ReadsBack ((routerFrames texts).write frame)

/-- A request that is forwarded is readable. -/
def Action.Readable : Action → Prop
  | .connection (.forward rid call) => Wire.Readable texts json (outbound (call.frame rid))
  | _ => True

/-! ### What a step routes to a request -/

section

variable {uuids : Sharding Uuid} {t t' : Multiplex.State} {l : LineId} {v' : View}

/-- A text is routed to the request it names. -/
theorem view_handleInbound {node : Multiplex.NodeToRouterFrame} (hwf : t.dispatch.WF)
    (h : Multiplex.step uuids t (.handleInbound node) = some t') (hview : t'.dispatch.view l = some v') :
    ∃ v, t.dispatch.view l = some v ∧ v'.rid = v.rid ∧
      v'.routed = v.routed ++ (carries v.rid node).toList := by
  simp only [Multiplex.step] at h
  split at h
  · split at h
    · rename_i rid frame hinbound
      obtain rfl := Option.some.inj h
      obtain ⟨line', hline', rfl⟩ := view_eq_some hview
      obtain ⟨line, hline, -⟩ := Option.map_eq_some_iff.1
        ((sameRids_routeInbound t.dispatch rid frame l).symm.trans (congrArg _ hline'))
      have hv : t.dispatch.view l = some ⟨line.rid, decide (t.dispatch.pending.get line.rid = some l),
          line.chan, line.routed⟩ := by rw [view, hline, Option.map_some]
      refine ⟨_, hv, ?_⟩
      by_cases hrid : line.rid = rid
      · subst hrid
        have hself := (view_routeInbound_self hwf hv frame).1.symm.trans hview
        rw [← Option.some.inj hself, rid_route, routed_route, carries, hinbound]
        simp
      · have hother := (view_routeInbound_other hwf hv hrid frame).1.symm.trans hview
        rw [← Option.some.inj hother, carries, hinbound]
        simp [Ne.symm hrid]
    · rename_i hinbound
      obtain rfl := Option.some.inj h
      exact ⟨v', hview, rfl, by rw [carries, hinbound]; simp⟩
  · cases h

/-- Only a text is routed. -/
theorem routed_local {failing : List ℕ} {a : Multiplex.Action} {v : View} {r r' : ReaderPc}
    {q q' : PendingRequest} (h : Multiplex.LocalStep uuids failing a l v r q v' r' q')
    (ha : ∀ node, a ≠ .handleInbound node) : v'.routed = v.routed := by
  cases h with
  | route hact hinbound hidle => exact absurd hact (ha _)
  | reader hact => exact routed_readerStep ..
  | cleanup hact hrx => split <;> rfl
  | _ => rfl

/-- **Any other step routes nothing**, and registers a request at most. -/
theorem view_step {a : Multiplex.Action} (hinv : Multiplex.Inv t)
    (h : Multiplex.step uuids t a = some t') (ha : ∀ node, a ≠ .handleInbound node)
    (hview : t'.dispatch.view l = some v') :
    (∃ rid, a = .registerPending rid ∧ l = t.requests.length ∧ v'.rid = rid ∧ v'.routed = []) ∨
      ∃ v, t.dispatch.view l = some v ∧ v'.rid = v.rid ∧ v'.routed = v.routed := by
  obtain ⟨line', hline', -⟩ := view_eq_some hview
  have hlt : l < t'.requests.length := by
    rw [(Multiplex.inv_step hinv h).length]
    exact (List.getElem?_eq_some_iff.1 hline').1
  rcases Multiplex.local_step hinv.dispatch hinv.length hinv.reader h hview
    (List.getElem?_eq_getElem hlt) with ⟨rid, rfl, hl, rfl, -, -⟩ | ⟨v, q, hv, -, hlocal⟩
  · exact Or.inl ⟨rid, rfl, hl.symm, rfl, rfl⟩
  · exact Or.inr ⟨v, hv, hlocal.rid, routed_local hlocal ha⟩

end

/-! ### What a step does to the outbound channel -/

section

variable {uuids : Sharding Uuid} {c c' : Disconnect.State} {act : Disconnect.Action}

/-- The history has something to add. -/
def noted : Disconnect.Action → Bool
  | .forward _ _ | .writerTakes => true
  | _ => false

/-- What a step of the connection does to the sends and to the outbound channel. -/
inductive Flow (c c' : Disconnect.State) : Disconnect.Action → Prop
  | forward {rid : Uuid} {call : Call} (hsends : c'.sends = c.sends ++ [.waiting (call.frame rid)])
      (hframes : c'.frames = c.frames) : Flow c c' (.forward rid call)
  | refuse {l : LineId} {frame : Disconnect.RouterToNodeFrame}
      (hl : c.sends[l]? = some (.waiting frame)) (hsends : c'.sends = c.sends.set l .failed)
      (hframes : c'.frames = c.frames) : Flow c c' (.send l)
  | send {l : LineId} {frame : Disconnect.RouterToNodeFrame}
      (hl : c.sends[l]? = some (.waiting frame)) (haccepts : c.frames.accepts = true)
      (hsends : c'.sends = c.sends.set l .sent)
      (hframes : c'.frames = (c.frames.trySend frame).1) : Flow c c' (.send l)
  | ping (haccepts : c.frames.accepts = true) (hsends : c'.sends = c.sends)
      (hframes : c'.frames = (c.frames.trySend .ping).1) : Flow c c' .ping
  | takes {got : Option Disconnect.RouterToNodeFrame} (hgot : c.frames.recv = some (got, c'.frames))
      (hsends : c'.sends = c.sends) : Flow c c' .writerTakes
  | closes {act : Disconnect.Action} (hact : noted act = false) (hsends : c'.sends = c.sends)
      (hframes : c'.frames = c.frames.dropReceiver) : Flow c c' act
  | still {act : Disconnect.Action} (hact : noted act = false) (hsends : c'.sends = c.sends)
      (hframes : c'.frames = c.frames) : Flow c c' act

/-- **What a step does to the sends and to the outbound channel.** -/
theorem flow_of_step (h : Disconnect.step uuids c act = some c') : Flow c c' act := by
  cases act with
  | forward rid call =>
      obtain ⟨t, -, rfl⟩ := Option.map_eq_some_iff.1 h
      exact Flow.forward rfl rfl
  | send l =>
      obtain ⟨q, -, h⟩ := Option.bind_eq_some_iff.1 h
      split at h
      · rename_i frame hl
        split at h
        · cases h
        · split at h
          · obtain rfl := Option.some.inj h
            exact Flow.refuse hl rfl rfl
          · split at h
            · rename_i haccepts
              obtain rfl := Option.some.inj h
              exact Flow.send hl haccepts rfl rfl
            · cases h
      · cases h
  | tunnel a =>
      simp only [Disconnect.step] at h
      split at h
      · obtain ⟨t, -, rfl⟩ := Option.map_eq_some_iff.1 h
        exact Flow.still rfl rfl rfl
      · cases h
  | ready ok =>
      simp only [Disconnect.step] at h
      split at h
      · obtain rfl := Option.some.inj h
        exact Flow.still rfl rfl rfl
      · cases h
  | handler =>
      cases Disconnect.change_of_step h with
      | withdraw hhandler => exact Flow.closes rfl rfl rfl
      | _ => exact Flow.still rfl rfl rfl
  | leave =>
      simp only [Disconnect.step] at h
      split at h
      · obtain rfl := Option.some.inj h
        exact Flow.still rfl rfl rfl
      · cases h
  | writerTakes =>
      simp only [Disconnect.step] at h
      split at h
      · obtain ⟨⟨got, frames⟩, hgot, rfl⟩ := Option.map_eq_some_iff.1 h
        exact Flow.takes hgot rfl
      · cases h
  | writerStops =>
      simp only [Disconnect.step] at h
      split at h
      · obtain rfl := Option.some.inj h
        exact Flow.closes rfl rfl rfl
      · cases h
  | ping =>
      simp only [Disconnect.step] at h
      split at h
      · rename_i hping
        obtain rfl := Option.some.inj h
        exact Flow.ping hping.2 rfl rfl
      · cases h
  | pingerStops =>
      simp only [Disconnect.step] at h
      split at h
      · obtain rfl := Option.some.inj h
        exact Flow.still rfl rfl rfl
      · cases h

/-- What a step of the connection does to the tunnel: a request is registered with the call that
forwards it. -/
inductive Drives (uuids : Sharding Uuid) (t t' : Multiplex.State) : Disconnect.Action → Prop
  | forward {rid : Uuid} {call : Call}
      (ht : Multiplex.step uuids t (.registerPending rid) = some t') :
      Drives uuids t t' (.forward rid call)
  | other {act : Disconnect.Action} {a : Multiplex.Action} (ha : ∀ rid, a ≠ .registerPending rid)
      (hreads : ∀ node, a = .handleInbound node → act = .tunnel (.handleInbound node))
      (hact : ∀ rid call, act ≠ .forward rid call) (ht : Multiplex.step uuids t a = some t') :
      Drives uuids t t' act
  | still {act : Disconnect.Action} (hact : ∀ rid call, act ≠ .forward rid call) (ht : t' = t) :
      Drives uuids t t' act

theorem drives_of_step (h : Disconnect.step uuids c act = some c') :
    Drives uuids c.tunnel c'.tunnel act := by
  cases Disconnect.change_of_step h with
  | forward ht => exact Drives.forward ht
  | @tunnel a t hpermits ht =>
      refine Drives.other (fun rid ha => ?_) (fun node ha => by rw [ha])
        (fun _ _ h => by cases h) ht
      rw [ha] at hpermits
      cases hpermits
  | failAll hhandler =>
      exact Drives.other (a := .failAllPending) (fun _ h => by cases h) (fun _ h => by cases h)
        (fun _ _ h => by cases h) rfl
  | failShard hhandler ht =>
      exact Drives.other (fun _ h => by cases h) (fun _ h => by cases h) (fun _ _ h => by cases h) ht
  | _ => exact Drives.still (fun _ _ h => by cases h) rfl

end

/-! ### The outbound channel -/

section

variable {texts : UuidText} {json : SerdeJson} {s s' : State} {senders : List (Option LineId)}

theorem Accepted.length_le (h : Accepted texts json senders s) :
    s.written.length ≤ senders.length := by
  have hlength := congrArg List.length h.written
  rw [List.length_map, List.length_map, List.length_take] at hlength
  omega

/-- Nothing goes into the channel and nothing is taken off it. -/
theorem Accepted.keep (h : Accepted texts json senders s)
    (hframe : ∀ o ∈ senders, s'.frame o = s.frame o) (hwritten : s'.written = s.written)
    (hsent : ∀ l : LineId,
      s'.connection.sends[l]? = some .sent ↔ s.connection.sends[l]? = some .sent)
    (hframes : s'.connection.frames = s.connection.frames ∨
      s'.connection.frames.receiver = false) : Accepted texts json senders s' where
  nodup := h.nodup
  sent l := (h.sent l).trans (hsent l).symm
  written := by
    rw [hwritten, h.written]
    exact (List.map_congr_left fun o ho => hframe o (List.mem_of_mem_take ho)).symm
  buffered hopen := by
    rcases hframes with hsame | hclosed
    · rw [hwritten, hsame]
      rw [hsame] at hopen
      rw [← h.buffered hopen]
      exact List.map_congr_left fun o ho => hframe o (List.mem_of_mem_drop ho)
    · rw [hclosed] at hopen
      cases hopen

/-- A frame goes into the channel. -/
theorem Accepted.push (h : Accepted texts json senders s) {o : Option LineId}
    {frame : Disconnect.RouterToNodeFrame} (hnew : ∀ l, o = some l → some l ∉ senders)
    (hframe : s.frame o = some (outbound frame)) (hforwarded : s'.forwarded = s.forwarded)
    (hwritten : s'.written = s.written)
    (hsent : ∀ l : LineId,
      s'.connection.sends[l]? = some .sent ↔ s.connection.sends[l]? = some .sent ∨ o = some l)
    (haccepts : s.connection.frames.accepts = true)
    (hframes : s'.connection.frames = (s.connection.frames.trySend frame).1) :
    Accepted texts json (senders ++ [o]) s' := by
  have hsame : s'.frame = s.frame := by
    funext o
    cases o with
    | none => rfl
    | some l => rw [State.frame, State.frame, hforwarded]
  obtain ⟨chan, hchan, hbuffer, -, hreceiver⟩ := Channel.trySend_of_accepts haccepts frame
  rw [hchan] at hframes
  refine ⟨?_, fun l => ?_, ?_, fun hopen => ?_⟩
  · rw [List.filterMap_append]
    refine List.nodup_append.2 ⟨h.nodup, ?_, fun l hl m hm hlm => ?_⟩
    · cases o with
      | none => exact List.nodup_nil
      | some l => exact List.nodup_singleton l
    · subst hlm
      obtain ⟨o', ho', hl'⟩ := List.mem_filterMap.1 hl
      obtain ⟨o'', ho'', hm'⟩ := List.mem_filterMap.1 hm
      obtain rfl := List.mem_singleton.1 ho''
      obtain rfl : o' = some l := hl'
      exact hnew l hm' ho'
  · rw [List.mem_append, List.mem_singleton, h.sent, hsent]
    exact or_congr_right eq_comm
  · rw [hwritten, hsame, h.written, List.take_append_of_le_length h.length_le]
  · rw [hframes, hreceiver] at hopen
    rw [hwritten, hsame, hframes, hbuffer, List.drop_append_of_le_length h.length_le, List.map_append,
      List.map_append, h.buffered hopen, List.map_singleton, List.map_singleton, hframe]

/-- The writer takes the first frame off the channel and writes it. -/
theorem Accepted.take (h : Accepted texts json senders s) {frame : Disconnect.RouterToNodeFrame}
    (hopen : s.connection.frames.receiver = true)
    (hbuffer : s.connection.frames.buffer = frame :: s'.connection.frames.buffer)
    (hread : Protocol.RouterToNodeFrame.read texts json ((outbound frame).toJson texts json) =
      some (outbound frame))
    (hforwarded : s'.forwarded = s.forwarded)
    (hwritten : s'.written = s.written ++ [(outbound frame).toJson texts json])
    (hsends : s'.connection.sends = s.connection.sends) : Accepted texts json senders s' := by
  have hsame : s'.frame = s.frame := by
    funext o
    cases o with
    | none => rfl
    | some l => rw [State.frame, State.frame, hforwarded]
  have hbuffered := h.buffered hopen
  rw [hbuffer, List.map_cons] at hbuffered
  obtain ⟨o, rest, hdrop, ho, hrest⟩ := List.map_eq_cons_iff.1 hbuffered
  have hlength : s.written.length < senders.length := by
    by_contra hge
    rw [List.drop_eq_nil_of_le (by omega)] at hdrop
    cases hdrop
  have hget : senders[s.written.length]? = some o := by
    rw [← List.head?_drop, hdrop]
    rfl
  have htake : senders.take (s.written.length + 1) = senders.take s.written.length ++ [o] := by
    rw [List.take_add_one, hget]
    rfl
  have hlater : senders.drop (s.written.length + 1) = rest := by
    rw [← List.tail_drop, hdrop]
    rfl
  have hone : s'.written.length = s.written.length + 1 := by
    rw [hwritten, List.length_append]
    rfl
  refine ⟨h.nodup, fun l => by rw [hsends]; exact h.sent l, ?_, fun _ => ?_⟩
  · rw [hone, htake, hwritten, hsame, List.map_append, List.map_append, h.written,
      List.map_singleton, List.map_singleton, hread, ho]
  · rw [hone, hlater, hsame, hrest]

end

/-! ### What goes to the node -/

section

variable (texts : UuidText) (json : SerdeJson)

/-- The outbound half: what waits is the frame of its request, and what went into the channel is
accounted for. -/
structure Outgoing (s : State) : Prop where
  length : s.forwarded.length = s.connection.sends.length
  readable : ∀ f ∈ s.forwarded, Readable texts json (outbound (f.2.frame f.1))
  waiting : ∀ l frame, s.connection.sends[l]? = some (.waiting frame) →
    s.frame (some l) = some (outbound frame)
  closed : s.connection.frames.receiver = false → s.connection.frames.buffer = []
  accepted : ∃ senders, Accepted texts json senders s

variable {texts json} {s : State} {c : Disconnect.State} {act : Disconnect.Action}

theorem outgoing_init : Outgoing texts json init where
  length := rfl
  readable f h := by cases h
  waiting l frame h := by cases h
  closed h := by cases h
  accepted := ⟨[], List.nodup_nil, fun l => ⟨fun h => (by cases h), fun h => (by cases h)⟩, rfl,
    fun _ => rfl⟩

theorem record_of_not_noted (hact : noted act = false) : s.record texts json act = s := by
  cases act <;> first | rfl | cases hact

/-- The frame of a sender is readable, if a ping is. -/
theorem Outgoing.readable_frame (h : Outgoing texts json s) (hping : Readable texts json .ping)
    {o : Option LineId} {frame : Protocol.RouterToNodeFrame} (hframe : s.frame o = some frame) :
    Readable texts json frame := by
  cases o with
  | none =>
      obtain rfl := Option.some.inj hframe
      exact hping
  | some l =>
      obtain ⟨f, hf, rfl⟩ := Option.map_eq_some_iff.1 hframe
      exact h.readable f (List.mem_of_getElem? hf)

/-- The frames of the requests that were there before a registration. -/
theorem frame_register {rid : Uuid} {call : Call} {l : LineId} (hl : l < s.forwarded.length) :
    ({ s.register rid call with connection := c } : State).frame (some l) = s.frame (some l) := by
  rw [State.frame, State.frame]
  exact congrArg _ (List.getElem?_append_left hl)

/-- A request is registered, and its frame is about to be sent. -/
theorem Outgoing.forward (h : Outgoing texts json s) {rid : Uuid} {call : Call}
    (hread : Readable texts json (outbound (call.frame rid)))
    (hsends : c.sends = s.connection.sends ++ [.waiting (call.frame rid)])
    (hframes : c.frames = s.connection.frames) :
    Outgoing texts json { s.register rid call with connection := c } where
  length := by
    dsimp only [State.register]
    rw [hsends, List.length_append, List.length_append, h.length]
    rfl
  readable f hf := by
    rcases List.mem_append.1 hf with hf | hf
    · exact h.readable f hf
    · obtain rfl := List.mem_singleton.1 hf
      exact hread
  waiting l frame hl := by
    dsimp only at hl
    rw [hsends] at hl
    rcases TaskPool.getElem?_append_cases hl with ⟨rfl, hnew⟩ | hold
    · cases hnew
      rw [State.frame, State.register, ← h.length]
      simp
    · have hlt := (List.getElem?_eq_some_iff.1 hold).1
      rw [frame_register (h.length ▸ hlt)]
      exact h.waiting l frame hold
  closed hclosed := by
    dsimp only at hclosed ⊢
    rw [hframes] at hclosed ⊢
    exact h.closed hclosed
  accepted := by
    obtain ⟨senders, haccepted⟩ := h.accepted
    refine ⟨senders, haccepted.keep (fun o ho => ?_) rfl (fun l => ?_) (Or.inl hframes)⟩
    · -- the requests that have sent were there before
      cases o with
      | none => rfl
      | some l =>
          have hlt := (List.getElem?_eq_some_iff.1 ((haccepted.sent l).1 ho)).1
          exact frame_register (h.length ▸ hlt)
    · dsimp only
      rw [hsends]
      constructor
      · intro hl
        rcases TaskPool.getElem?_append_cases hl with ⟨-, hnew⟩ | hold
        · cases hnew
        · exact hold
      · exact TaskPool.getElem?_append_of

/-- A send ends, with an error or not, and its frame waits no more. -/
theorem Outgoing.set (h : Outgoing texts json s) {l : LineId} {now : Sending}
    (hnow : ∀ frame, now ≠ .waiting frame) (hsends : c.sends = s.connection.sends.set l now) :
    s.forwarded.length = c.sends.length ∧ ∀ m frame, c.sends[m]? = some (.waiting frame) →
      s.frame (some m) = some (outbound frame) := by
  refine ⟨by rw [hsends, List.length_set, h.length], fun m frame hm => ?_⟩
  rw [hsends] at hm
  rcases TaskPool.getElem?_set_cases hm with ⟨-, heq⟩ | ⟨-, hold⟩
  · exact absurd heq.symm (hnow frame)
  · exact h.waiting m frame hold

/-- A send fails. -/
theorem Outgoing.refuse (h : Outgoing texts json s) {l : LineId}
    {frame : Disconnect.RouterToNodeFrame} (hl : s.connection.sends[l]? = some (.waiting frame))
    (hsends : c.sends = s.connection.sends.set l .failed)
    (hframes : c.frames = s.connection.frames) :
    Outgoing texts json { s with connection := c } := by
  obtain ⟨hlength, hwaiting⟩ := h.set (fun _ h => by cases h) hsends
  obtain ⟨senders, haccepted⟩ := h.accepted
  refine ⟨hlength, h.readable, hwaiting, fun hclosed => ?_, senders,
    haccepted.keep (fun o _ => rfl) rfl (fun m => ?_) (Or.inl hframes)⟩
  · dsimp only at hclosed ⊢
    rw [hframes] at hclosed ⊢
    exact h.closed hclosed
  · dsimp only
    rw [hsends]
    by_cases hm : l = m
    · subst hm
      rw [TaskPool.getElem?_set_self hl, hl]
      exact ⟨fun h => (by cases h), fun h => (by cases h)⟩
    · rw [List.getElem?_set_ne hm]

/-- A channel that takes a frame is open. -/
theorem receiver_of_accepts {frames : Channel 256 Disconnect.RouterToNodeFrame}
    (haccepts : frames.accepts = true) (frame : Disconnect.RouterToNodeFrame)
    (hclosed : (frames.trySend frame).1.receiver = false) : False := by
  rw [Channel.receiver_trySend] at hclosed
  rw [Channel.accepts, hclosed] at haccepts
  cases haccepts

/-- A request is sent. -/
theorem Outgoing.send (h : Outgoing texts json s) {l : LineId}
    {frame : Disconnect.RouterToNodeFrame} (hl : s.connection.sends[l]? = some (.waiting frame))
    (haccepts : s.connection.frames.accepts = true)
    (hsends : c.sends = s.connection.sends.set l .sent)
    (hframes : c.frames = (s.connection.frames.trySend frame).1) :
    Outgoing texts json { s with connection := c } := by
  obtain ⟨hlength, hwaiting⟩ := h.set (fun _ h => by cases h) hsends
  obtain ⟨senders, haccepted⟩ := h.accepted
  have hnew : some l ∉ senders := fun hmem => by
    have hsent := (haccepted.sent l).1 hmem
    rw [hl] at hsent
    cases hsent
  refine ⟨hlength, h.readable, hwaiting, fun hclosed => ?_, senders ++ [some l],
    haccepted.push (fun m hm => ?_) (h.waiting l frame hl) rfl rfl (fun m => ?_) haccepts hframes⟩
  · dsimp only at hclosed
    exact (receiver_of_accepts haccepts frame (hframes ▸ hclosed)).elim
  · obtain rfl := Option.some.inj hm
    exact hnew
  · dsimp only
    rw [hsends]
    by_cases hm : l = m
    · subst hm
      rw [TaskPool.getElem?_set_self hl]
      exact ⟨fun _ => Or.inr rfl, fun _ => rfl⟩
    · rw [List.getElem?_set_ne hm]
      exact ⟨Or.inl, fun hor => hor.resolve_right fun heq => hm (Option.some.inj heq)⟩

/-- The pinger sends. -/
theorem Outgoing.ping (h : Outgoing texts json s) (haccepts : s.connection.frames.accepts = true)
    (hsends : c.sends = s.connection.sends)
    (hframes : c.frames = (s.connection.frames.trySend .ping).1) :
    Outgoing texts json { s with connection := c } := by
  obtain ⟨senders, haccepted⟩ := h.accepted
  refine ⟨by rw [hsends]; exact h.length, h.readable, fun l frame hl => ?_, fun hclosed => ?_,
    senders ++ [none], haccepted.push (fun m hm => by cases hm) rfl rfl rfl (fun m => ?_) haccepts
      hframes⟩
  · exact h.waiting l frame (hsends ▸ hl)
  · dsimp only at hclosed
    exact (receiver_of_accepts haccepts _ (hframes ▸ hclosed)).elim
  · dsimp only
    rw [hsends]
    exact ⟨Or.inl, fun hor => hor.resolve_right fun heq => by cases heq⟩

/-- The writer takes what the channel gives. -/
theorem Outgoing.takes (h : Outgoing texts json s) (hping : Readable texts json .ping)
    {got : Option Disconnect.RouterToNodeFrame}
    (hgot : s.connection.frames.recv = some (got, c.frames))
    (hsends : c.sends = s.connection.sends) :
    Outgoing texts json { s.record texts json .writerTakes with connection := c } := by
  obtain ⟨senders, haccepted⟩ := h.accepted
  have hwaiting : ∀ l frame, c.sends[l]? = some (.waiting frame) →
      s.frame (some l) = some (outbound frame) := fun l frame hl => h.waiting l frame (hsends ▸ hl)
  have hlength : s.forwarded.length = c.sends.length := by rw [hsends, h.length]
  rcases Channel.recv_cases hgot with ⟨frame, rfl, hbuffer, -, hreceiver⟩ | ⟨rfl, hsame, hempty, -⟩
  · have hopen : s.connection.frames.receiver = true := by
      by_contra hclosed
      rw [h.closed (by simpa using hclosed)] at hbuffer
      cases hbuffer
    have hread : Readable texts json (outbound frame) := by
      have hbuffered := haccepted.buffered hopen
      rw [hbuffer, List.map_cons] at hbuffered
      obtain ⟨o, -, -, ho, -⟩ := List.map_eq_cons_iff.1 hbuffered
      exact h.readable_frame hping ho
    refine ⟨hlength, h.readable, hwaiting, fun hclosed => ?_, senders, haccepted.take hopen hbuffer
      (Protocol.RouterToNodeFrame.read_toJson hread) rfl ?_ hsends⟩
    · exact absurd ((hreceiver.trans hopen).symm.trans hclosed) (by decide)
    · dsimp only [State.record]
      rw [hbuffer]
      rfl
  · refine ⟨hlength, h.readable, hwaiting, fun _ => ?_, senders, haccepted.keep (fun o _ => rfl) ?_
      (fun m => ?_) (Or.inl hsame)⟩
    · dsimp only
      rw [hsame, hempty]
    · dsimp only [State.record]
      rw [hempty]
      exact List.append_nil _
    · dsimp only
      rw [hsends]

/-- The receiver is dropped, or the channel is left alone. -/
theorem Outgoing.rest (h : Outgoing texts json s) (hsends : c.sends = s.connection.sends)
    (hframes : c.frames = s.connection.frames.dropReceiver ∨ c.frames = s.connection.frames) :
    Outgoing texts json { s with connection := c } := by
  obtain ⟨senders, haccepted⟩ := h.accepted
  refine ⟨by rw [hsends]; exact h.length, h.readable, fun l frame hl => ?_, fun hclosed => ?_, senders,
    haccepted.keep (fun o _ => rfl) rfl (fun m => ?_) ?_⟩
  · exact h.waiting l frame (hsends ▸ hl)
  · rcases hframes with hframes | hframes
    · dsimp only
      rw [hframes]
      rfl
    · dsimp only at hclosed ⊢
      rw [hframes] at hclosed ⊢
      exact h.closed hclosed
  · dsimp only
    rw [hsends]
  · exact hframes.symm.imp_right fun hframes => by
      dsimp only
      rw [hframes]
      rfl

/-- The reader takes a text. -/
theorem Outgoing.text (h : Outgoing texts json s) {t : Text} :
    Outgoing texts json { s with read := s.read ++ [t] } where
  length := h.length
  readable := h.readable
  waiting := h.waiting
  closed := h.closed
  accepted := by
    obtain ⟨senders, haccepted⟩ := h.accepted
    exact ⟨senders, haccepted.keep (fun o _ => rfl) rfl (fun l => Iff.rfl) (Or.inl rfl)⟩

/-- **Every step of the connection keeps what goes to the node accounted for.** -/
theorem Outgoing.step (h : Outgoing texts json s) (hping : Readable texts json .ping)
    (hact : (Action.connection act).Readable texts json) (hflow : Flow s.connection c act) :
    Outgoing texts json { s.record texts json act with connection := c } := by
  cases hflow with
  | forward hsends hframes => exact h.forward hact hsends hframes
  | refuse hl hsends hframes => exact h.refuse hl hsends hframes
  | send hl haccepts hsends hframes => exact h.send hl haccepts hsends hframes
  | ping haccepts hsends hframes => exact h.ping haccepts hsends hframes
  | takes hgot hsends => exact h.takes hping hgot hsends
  | closes hnoted hsends hframes =>
      rw [record_of_not_noted hnoted]
      exact h.rest hsends (Or.inl hframes)
  | still hnoted hsends hframes =>
      rw [record_of_not_noted hnoted]
      exact h.rest hsends (Or.inr hframes)

end

/-! ### What comes from the node -/

section

variable (texts : UuidText) (json : SerdeJson)

/-- The frames that have come for the id of a request since the request was registered. -/
def State.Since (s : State) (l : LineId) (rid : Uuid) (frames : List InboundFrame) : Prop :=
  ∃ start, s.registered[l]? = some start ∧ start ≤ s.read.length ∧
    frames = framesFor texts json rid (s.read.drop start)

/-- The inbound half: a request was routed the frames that have come for it since its registration. -/
structure Incoming (s : State) : Prop where
  named : ∀ l v, s.connection.tunnel.dispatch.view l = some v →
    (s.forwarded[l]?).map Prod.fst = some v.rid
  length : s.registered.length = s.forwarded.length
  routed : ∀ l v, s.connection.tunnel.dispatch.view l = some v →
    s.Since texts json l v.rid v.routed

variable {texts json} {uuids : Sharding Uuid} {s s' : State} {c : Disconnect.State}

theorem incoming_init : Incoming texts json init where
  named l v h := by cases h
  length := rfl
  routed l v h := by cases h

/-- The requests are routed nothing. -/
theorem Incoming.of_views (h : Incoming texts json s) (hforwarded : s'.forwarded = s.forwarded)
    (hregistered : s'.registered = s.registered) (hread : s'.read = s.read)
    (hviews : ∀ l v', s'.connection.tunnel.dispatch.view l = some v' →
      ∃ v, s.connection.tunnel.dispatch.view l = some v ∧ v'.rid = v.rid ∧ v'.routed = v.routed) :
    Incoming texts json s' where
  named l v' hv' := by
    obtain ⟨v, hv, hrid, -⟩ := hviews l v' hv'
    rw [hforwarded, hrid]
    exact h.named l v hv
  length := by rw [hregistered, hforwarded, h.length]
  routed l v' hv' := by
    obtain ⟨v, hv, hrid, hrouted⟩ := hviews l v' hv'
    rw [State.Since, hregistered, hread, hrid, hrouted]
    exact h.routed l v hv

/-- A request is registered under the id it is forwarded with. -/
theorem Incoming.forward (h : Incoming texts json s) (hwired : Disconnect.Wired s.connection)
    (hlength : s.forwarded.length = s.connection.sends.length) {rid : Uuid} {call : Call}
    (ht : Multiplex.step uuids s.connection.tunnel (.registerPending rid) = some c.tunnel) :
    Incoming texts json { s.register rid call with connection := c } where
  named l v' hv' := by
    rcases view_step hwired.tunnel ht (fun _ h => by cases h) hv' with
      ⟨rid', hrid', rfl, hrid, -⟩ | ⟨v, hv, hrid, -⟩
    · cases hrid'
      rw [← hwired.length, ← hlength, hrid, State.register]
      simp
    · have hname := h.named l v hv
      obtain ⟨f, hf, hfst⟩ := Option.map_eq_some_iff.1 hname
      dsimp only [State.register]
      rw [TaskPool.getElem?_append_of hf, hrid, ← hfst]
      rfl
  length := by
    dsimp only [State.register]
    rw [List.length_append, List.length_append, h.length]
    rfl
  routed l v' hv' := by
    rcases view_step hwired.tunnel ht (fun _ h => by cases h) hv' with
      ⟨rid', -, rfl, -, hrouted⟩ | ⟨v, hv, hrid, hrouted⟩
    · -- no text has come since its registration
      refine ⟨s.read.length, ?_, Nat.le_refl _, ?_⟩
      · rw [← hwired.length, ← hlength, ← h.length, State.register]
        simp
      · rw [hrouted, State.register, List.drop_length]
        rfl
    · obtain ⟨start, hstart, hle, hsince⟩ := h.routed l v hv
      refine ⟨start, TaskPool.getElem?_append_of hstart, hle, ?_⟩
      rw [hrid, hrouted, hsince]
      rfl

/-- A step of the connection that is not a text. -/
theorem Incoming.step (h : Incoming texts json s) (hwired : Disconnect.Wired s.connection)
    (hlength : s.forwarded.length = s.connection.sends.length) {act : Disconnect.Action}
    (hreads : reads act = false) (hdrives : Drives uuids s.connection.tunnel c.tunnel act) :
    Incoming texts json { s.record texts json act with connection := c } := by
  have hother : (∀ rid call, act ≠ .forward rid call) →
      (s.record texts json act).forwarded = s.forwarded ∧
        (s.record texts json act).registered = s.registered ∧
          (s.record texts json act).read = s.read := by
    intro hact
    cases act with
    | forward rid call => exact absurd rfl (hact rid call)
    | _ => exact ⟨rfl, rfl, rfl⟩
  cases hdrives with
  | forward ht => exact h.forward hwired hlength ht
  | @other _ a ha hinbound hact ht =>
      obtain ⟨hforwarded, hregistered, hread⟩ := hother hact
      refine h.of_views hforwarded hregistered hread fun l v' hv' => ?_
      have hquiet : ∀ node, a ≠ .handleInbound node := fun node heq => by
        rw [hinbound node heq] at hreads
        cases hreads
      rcases view_step hwired.tunnel ht hquiet hv' with ⟨rid, hrid, -⟩ | hold
      · exact absurd hrid (ha rid)
      · exact hold
  | still hact ht =>
      obtain ⟨hforwarded, hregistered, hread⟩ := hother hact
      refine h.of_views hforwarded hregistered hread fun l v' hv' => ⟨v', ?_, rfl, rfl⟩
      rw [← ht]
      exact hv'

theorem framesFor_append (rid : Uuid) (ts : List Text) (t : Text) :
    framesFor texts json rid (ts ++ [t]) = framesFor texts json rid ts ++
      ((Protocol.NodeToRouterFrame.parse texts json t).bind fun frame =>
        carries rid (inbound frame)).toList := by
  rw [framesFor, List.filterMap_append]
  rfl

/-- One text more. -/
theorem State.Since.text {l : LineId} {rid : Uuid} {frames more : List InboundFrame} {t : Text}
    (h : s.Since texts json l rid frames)
    (hmore : more = ((Protocol.NodeToRouterFrame.parse texts json t).bind fun frame =>
      carries rid (inbound frame)).toList) :
    State.Since texts json { s with connection := c, read := s.read ++ [t] } l rid
      (frames ++ more) := by
  obtain ⟨start, hstart, hle, rfl⟩ := h
  refine ⟨start, hstart, ?_, ?_⟩
  · rw [List.length_append]
    exact Nat.le_add_right_of_le hle
  · rw [hmore, List.drop_append_of_le_length hle, framesFor_append]

/-- A text that is a frame. -/
theorem Incoming.frame (h : Incoming texts json s) (hwf : s.connection.tunnel.dispatch.WF) {t : Text}
    {frame : Protocol.NodeToRouterFrame}
    (hparse : Protocol.NodeToRouterFrame.parse texts json t = some frame)
    (ht : Multiplex.step uuids s.connection.tunnel (.handleInbound (inbound frame)) = some c.tunnel) :
    Incoming texts json { s with connection := c, read := s.read ++ [t] } where
  named l v' hv' := by
    obtain ⟨v, hv, hrid, -⟩ := view_handleInbound hwf ht hv'
    rw [hrid]
    exact h.named l v hv
  length := h.length
  routed l v' hv' := by
    obtain ⟨v, hv, hrid, hrouted⟩ := view_handleInbound hwf ht hv'
    rw [hrid, hrouted]
    exact (h.routed l v hv).text (by rw [hparse, Option.bind_some])

/-- A text that is none. -/
theorem Incoming.noise (h : Incoming texts json s) {t : Text}
    (hparse : Protocol.NodeToRouterFrame.parse texts json t = none) :
    Incoming texts json { s with read := s.read ++ [t] } where
  named := h.named
  length := h.length
  routed l v hv := by
    rw [← List.append_nil v.routed]
    exact (h.routed l v hv).text (by rw [hparse, Option.bind_none, Option.toList_none])

end

/-! ### Every run -/

section

variable (texts : UuidText) (json : SerdeJson)

/-- What holds in every state of a run. -/
structure Inv (s : State) : Prop where
  wired : Disconnect.Wired s.connection
  outgoing : Outgoing texts json s
  incoming : Incoming texts json s

variable {texts json} {uuids : Sharding Uuid} {s s' : State}

theorem inv_init : Inv texts json init := ⟨Disconnect.wired_init, outgoing_init, incoming_init⟩

theorem inv_step (hping : Readable texts json .ping) {act : Action} (h : Inv texts json s)
    (hstep : step uuids texts json s act = some s') (hact : act.Readable texts json) :
    Inv texts json s' := by
  cases act with
  | connection act =>
      simp only [step] at hstep
      split at hstep
      · cases hstep
      · rename_i hreads
        obtain ⟨c, hc, rfl⟩ := Option.map_eq_some_iff.1 hstep
        exact ⟨h.wired.step (Disconnect.change_of_step hc),
          h.outgoing.step hping hact (flow_of_step hc),
          h.incoming.step h.wired h.outgoing.length (by simpa using hreads) (drives_of_step hc)⟩
  | text t =>
      simp only [step] at hstep
      split at hstep
      · rename_i frame hparse
        obtain ⟨c, hc, rfl⟩ := Option.map_eq_some_iff.1 hstep
        have hwired := h.wired.step (Disconnect.change_of_step hc)
        simp only [Disconnect.step] at hc
        split at hc
        · obtain ⟨tunnel, ht, rfl⟩ := Option.map_eq_some_iff.1 hc
          have houtgoing : Outgoing texts json
              { s with connection := { s.connection with tunnel } } :=
            h.outgoing.rest rfl (Or.inr rfl)
          exact ⟨hwired, houtgoing.text, h.incoming.frame h.wired.tunnel.dispatch hparse ht⟩
        · cases hc
      · rename_i hparse
        split at hstep
        · obtain rfl := Option.some.inj hstep
          exact ⟨h.wired, h.outgoing.text, h.incoming.noise hparse⟩
        · cases hstep

theorem Inv.conversation (h : Inv texts json s) : Conversation texts json s where
  outbound := h.outgoing.accepted
  inbound l rid call q hl hq := by
    obtain ⟨v, hv⟩ := Multiplex.exists_view h.wired.tunnel.length hq
    obtain ⟨line, hline, rfl⟩ := view_eq_some hv
    have hname := h.incoming.named l _ hv
    rw [hl] at hname
    obtain rfl := Option.some.inj hname
    obtain ⟨start, hstart, -, hrouted⟩ := h.incoming.routed l _ hv
    exact ⟨start, hstart, hrouted ▸ h.wired.tunnel.inOrder l line q hline hq⟩

end

/-! ### A request and its answer -/

/-- A request for the models, and the answer of the node. -/
def sampleCall : Call := .forwardHttpRequest "GET".toList "/v1/models".toList (.object []) none

def sampleChunk : Value :=
  (Protocol.nodeFrames Protocol.hyphenated).write (.chunk 42 "Hi".toList)

def sampleEnd : Value := (Protocol.nodeFrames Protocol.hyphenated).write (.endFrame 42 200)

def sampleJson : SerdeJson :=
  .ofTexts
    [sampleChunk, sampleEnd, (routerFrames Protocol.hyphenated).write .ping,
      (routerFrames Protocol.hyphenated).write (outbound (sampleCall.frame 42))]

/-- The node answers a request, with a text between that is no frame. -/
def answered : List Action :=
  [.connection (.ready true), .connection .handler, .connection (.forward 42 sampleCall),
    .connection .ping, .connection (.send 0), .connection .writerTakes, .connection .writerTakes,
    .text sampleChunk.compact, .text "pong".toList, .text sampleEnd.compact,
    .connection (.tunnel .reader), .connection (.tunnel .reader), .connection (.tunnel (.recv 0)),
    .connection (.tunnel (.recv 0))]

/-- Both texts are written, and both frames of the request are received. -/
example :
    (run (step ⟨1, fun _ => 0, fun _ => by decide⟩ Protocol.hyphenated sampleJson) init answered).map
      (fun s => (s.written.length, s.read.length, s.connection.tunnel.requests.map fun q =>
        q.received)) =
      some (2, 3, [[.chunk "Hi".toList, .endFrame 200]]) := by
  decide +kernel

end Wire
