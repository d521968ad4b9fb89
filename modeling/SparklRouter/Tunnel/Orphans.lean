/-
**Requests at the end of their tunnel.**

When a connection ends, `fail_all_pending` answers the requests it finds in the pending map.  A
caller that holds the tunnel registers its request without looking at the connection, and its send
succeeds until the receiver of the outbound channel is gone, which an aborted writer drops some time
after the abort; a request that is registered and sent in between is answered by nobody.  Nor is one
that was sent before `ready` failed, since the handler then returns without a `fail_all_pending`.
And the error it sends is lost to a request whose channel is full.  This module proves that there is
nothing else: in a run in which none of the three happens, every request has had its answer, or an
error from the send, or is dropped, when the connection is over.

Main definitions:

* `Disconnect.Settled`, `Disconnect.NoOrphan` — what "no orphan" says of a request, and of a
  connection that is over;
* `Disconnect.spares` — the condition on one step;
* `Disconnect.Awaited` — a frame will come, or has come.

Main results:

* `Disconnect.Awaited.step` — a step that finds room keeps a request awaited;
* `Disconnect.noOrphan_of_spares` — **no request is orphaned in a run whose steps meet the
  condition**;
* `Disconnect.noOrphan_breaks` — a request registered behind `fail_all_pending` is.
-/

import SparklRouter.Tunnel.Disconnect

set_option relaxedAutoImplicit false
set_option autoImplicit false

namespace Disconnect

open Tunnel Tunnel.Dispatch Multiplex Transition

variable {uuids : Sharding Uuid}

/-! ### No orphan -/

/-- The handler has returned, and the tasks of the connection have stopped. -/
def State.over (s : State) : Bool :=
  decide (s.handler = .returned) && !s.writer.alive && !s.pinger.alive

/-- The request was dropped; or its send got an error, or can get nothing else any more; or it has
received a terminal frame, which may still be in its channel. -/
inductive Settled (s : State) (l : LineId) (q : PendingRequest) : Sending → Prop
  | dropped {x : Sending} (hrx : q.rx = false) : Settled s l q x
  | refused : Settled s l q .failed
  | refusing {frame : RouterToNodeFrame} (hclosed : s.frames.receiver = false) :
      Settled s l q (.waiting frame)
  | answered {line : Line} {f : InboundFrame} (hline : s.tunnel.dispatch.lines[l]? = some line)
      (hf : f ∈ q.received ++ line.chan.buffer) (hterminal : isTerminalFrame f = true) :
      Settled s l q .sent

/-- **When the connection is over, all its requests are settled.** -/
def NoOrphan (s : State) : Prop :=
  s.over = true → ∀ (l : LineId) (q : PendingRequest) (x : Sending),
    s.tunnel.requests[l]? = some q → s.sends[l]? = some x → Settled s l q x

/-! ### The condition -/

/-- The handler's own `fail_all_pending` is past the shard of the id, or will not come. -/
def State.passed (uuids : Sharding Uuid) (s : State) (rid : Uuid) : Bool :=
  match s.handler with
  | .failing call => (s.tunnel.failing[call]?).any fun shard => decide (uuids.shard rid < shard)
  | .cleaning | .returned => true
  | _ => false

/-- The request is not dropped, and its send has not failed. -/
def State.awaits (s : State) (l : LineId) : Bool :=
  (s.tunnel.requests[l]?).any PendingRequest.rx && (s.sends[l]?).any fun x => !x.isFailed

def State.isSent (s : State) (l : LineId) : Bool := (s.sends[l]?).any Sending.isSent

/-- A frame for the request finds room in its channel, or nobody waits for it. -/
def State.hasRoom (s : State) (l : LineId) : Bool :=
  !s.awaits l || (s.tunnel.dispatch.view l).all fun v => v.chan.accepts

/-- The errors for the requests registered in the shard find room. -/
def State.roomIn (uuids : Sharding Uuid) (s : State) (shard : ℕ) : Bool :=
  (List.range s.tunnel.dispatch.lines.length).all fun l => (s.tunnel.dispatch.view l).all fun v =>
    !(v.registered && decide (uuids.shard v.rid = shard)) || s.hasRoom l

/-- The frames that a step on the tunnel sends find room. -/
def State.room (uuids : Sharding Uuid) (s : State) : Multiplex.Action → Bool
  | .handleInbound node =>
      match node.inbound with
      | some (rid, frame) =>
          isTerminalFrame frame || (s.tunnel.dispatch.pending.get rid).all s.hasRoom
      | none => true
  | .reader =>
      match s.tunnel.reader with
      | .sending l _ => s.hasRoom l
      | _ => true
  | .failShard i => (s.tunnel.failing[i]?).all (s.roomIn uuids)
  | _ => true

/-- No send succeeds for a request registered behind the handler's `fail_all_pending`; no request is
registered and sent when the handler returns after a failed `ready`; and the frames for a request
find room. -/
def spares (uuids : Sharding Uuid) (s : State) : Action → Bool
  | .tunnel a => s.room uuids a
  | .send l => !s.frames.receiver ||
      (s.tunnel.dispatch.view l).all fun v => !(v.registered && s.passed uuids v.rid)
  | .handler =>
      match s.handler with
      | .failing call => s.room uuids (.failShard call)
      | .withdrawing => (List.range s.sends.length).all fun l =>
          !(s.awaits l && s.isSent l && (s.tunnel.dispatch.view l).any View.registered)
      | _ => true
  | _ => true

/-! ### A frame will come -/

/-- The request is registered; or the reader holds its terminal frame; or it has one. -/
inductive Awaited (l : LineId) (v : View) (r : ReaderPc) (delivered : List InboundFrame) : Prop
  | opened (hregistered : v.registered = true) (hidle : r = .idle)
  | handing {frame : InboundFrame} (hreader : r = .sending l frame)
      (hterminal : isTerminalFrame frame = true)
  | answered {f : InboundFrame} (hf : f ∈ delivered) (hterminal : isTerminalFrame f = true)

/-- The frames that the step sends to the request find room. -/
structure Room (uuids : Sharding Uuid) (failing : List ℕ) (act : Multiplex.Action) (l : LineId)
    (v : View) (r : ReaderPc) : Prop where
  route : ∀ node frame, act = .handleInbound node → node.inbound = some (v.rid, frame) →
    isTerminalFrame frame = false → v.registered = true → v.chan.accepts = true
  reader : ∀ frame, act = .reader → r = .sending l frame → v.chan.accepts = true
  fail : ∀ i, act = .failShard i → failing[i]? = some (uuids.shard v.rid) → v.registered = true →
    v.chan.accepts = true

/-- A frame that goes in is delivered. -/
theorem mem_trySend {chan : Channel 256 InboundFrame} (h : chan.accepts = true) (f : InboundFrame)
    (received : List InboundFrame) : f ∈ received ++ (chan.trySend f).1.buffer := by
  obtain ⟨chan', hsent, hbuffer, -, -⟩ := Channel.trySend_of_accepts h f
  rw [hsent, hbuffer]
  simp

/-- What was delivered stays delivered, whatever is sent. -/
theorem mem_trySend_of_mem {chan : Channel 256 InboundFrame} {f : InboundFrame} (g : InboundFrame)
    {received : List InboundFrame} (hf : f ∈ received ++ chan.buffer) :
    f ∈ received ++ (chan.trySend g).1.buffer := by
  rcases Channel.trySend_cases chan g with ⟨-, hbuffer⟩ | ⟨-, hsame⟩
  · rw [hbuffer, ← List.append_assoc]
    exact List.mem_append_left _ hf
  · rwa [hsame]

/-- **A step that finds room keeps a request awaited.** -/
theorem Awaited.step {failing : List ℕ} {act : Multiplex.Action} {l : LineId} {v v' : View}
    {r r' : ReaderPc} {q q' : PendingRequest} (h : Awaited l v r (q.received ++ v.chan.buffer))
    (hlocal : LocalStep uuids failing act l v r q v' r' q') (hrx : q'.rx = true) (hq : q.rx = true)
    (hroom : Room uuids failing act l v r) : Awaited l v' r' (q'.received ++ v'.chan.buffer) := by
  cases hlocal with
  | quiet hfail => exact h
  | @route node frame hact hinbound hidle =>
      subst hidle
      cases h with
      | opened hregistered hidle =>
          unfold View.route
          simp only [hregistered, if_true]
          cases hterm : isTerminalFrame frame with
          | true => exact Awaited.handing rfl hterm
          | false =>
              -- the frame goes in, and the request stays registered
              have haccepts := hroom.route node frame hact hinbound hterm hregistered
              obtain ⟨chan', hsent, -, -, -⟩ := Channel.trySend_of_accepts haccepts frame
              simp only [Bool.false_eq_true, if_false, hsent, if_true]
              exact Awaited.opened rfl rfl
      | handing hreader hterminal => cases hreader
      | answered hf hterminal =>
          refine Awaited.answered ?_ hterminal
          unfold View.route
          dsimp only
          split
          · split
            · exact hf
            · exact mem_trySend_of_mem frame hf
          · exact hf
  | reader hact =>
      cases h with
      | opened hregistered hidle =>
          subst hidle
          exact Awaited.opened hregistered rfl
      | @handing frame hreader hterminal =>
          subst hreader
          have haccepts := hroom.reader frame hact rfl
          exact Awaited.answered (mem_trySend haccepts frame q.received) hterminal
      | answered hf hterminal =>
          refine Awaited.answered ?_ hterminal
          cases r with
          | idle => exact hf
          | overflowed rid =>
              simp only [View.readerStep]
              split <;> exact hf
          | sending m frame => exact mem_trySend_of_mem frame hf
          | dropping m => exact hf
  | @fail i hact hshard hregistered =>
      have haccepts := hroom.fail i hact hshard hregistered
      exact Awaited.answered (mem_trySend haccepts disconnected q.received) rfl
  | recv hact hrx' hrecv =>
      cases h with
      | opened hregistered hidle => exact Awaited.opened hregistered hidle
      | handing hreader hterminal => exact Awaited.handing hreader hterminal
      | answered hf hterminal =>
          refine Awaited.answered ?_ hterminal
          dsimp only
          rw [received_append hrecv]
          exact hf
  | dropRx hact => cases hrx
  | cleanup hact hrx' =>
      rw [hq] at hrx'
      cases hrx'

/-! ### The invariant -/

section

variable {s s' : State} {act : Action} {l : LineId} {v : View}

theorem accepts_of_hasRoom (h : s.hasRoom l = true) (hawaits : s.awaits l = true)
    (hview : s.tunnel.dispatch.view l = some v) : v.chan.accepts = true := by
  simpa [State.hasRoom, hawaits, hview] using h

/-- The condition on a step of the tunnel, for one request. -/
theorem room_of (hwf : s.tunnel.dispatch.WF) {a : Multiplex.Action} (h : s.room uuids a = true)
    (hawaits : s.awaits l = true) (hview : s.tunnel.dispatch.view l = some v) :
    Room uuids s.tunnel.failing a l v (localTo l v.rid s.tunnel.reader) := by
  constructor
  · rintro node frame rfl hinbound hterm hregistered
    have hentry := pending_of_view hwf hview
    simp only [State.room, hinbound, hterm, hentry, hregistered, if_true, Bool.false_or,
      Option.all_some] at h
    exact accepts_of_hasRoom h hawaits hview
  · rintro frame rfl hreader
    simp only [State.room, eq_of_localTo_eq_sending hreader] at h
    exact accepts_of_hasRoom h hawaits hview
  · rintro i rfl hshard hregistered
    have hlt : l < s.tunnel.dispatch.lines.length := by
      obtain ⟨line, hline, -⟩ := view_eq_some hview
      exact (List.getElem?_eq_some_iff.1 hline).1
    simp only [State.room, hshard, Option.all_some, State.roomIn] at h
    have hl := List.all_eq_true.1 h l (List.mem_range.2 hlt)
    simp only [hview, Option.all_some, hregistered, decide_true, Bool.and_true, Bool.not_true,
      Bool.false_or] at hl
    exact accepts_of_hasRoom hl hawaits hview

/-- Every request somebody waits for is awaited, and one that was sent and is registered is in front
of the handler's `fail_all_pending`. -/
structure Kept (uuids : Sharding Uuid) (s : State) : Prop where
  awaited : ∀ (l : LineId) (v : View) (q : PendingRequest), s.tunnel.dispatch.view l = some v →
    s.tunnel.requests[l]? = some q → s.awaits l = true →
      Awaited l v (localTo l v.rid s.tunnel.reader) (q.received ++ v.chan.buffer)
  early : ∀ (l : LineId) (v : View), s.tunnel.dispatch.view l = some v → s.awaits l = true →
    s.isSent l = true → v.registered = true → s.passed uuids v.rid = false

theorem kept_init : Kept uuids init where
  awaited l v q _ h := by cases h
  early l v h := by cases h

theorem rx_of_awaits {q : PendingRequest} (hq : s.tunnel.requests[l]? = some q)
    (hawaits : s.awaits l = true) : q.rx = true := by
  have hrx := (Bool.and_eq_true _ _).mp hawaits
  rw [hq] at hrx
  exact hrx.1

/-- A request that is awaited has a holder. -/
theorem exists_request_of_awaits (hawaits : s.awaits l = true) :
    ∃ q, s.tunnel.requests[l]? = some q := by
  cases hq : s.tunnel.requests[l]? with
  | none =>
      rw [State.awaits, hq] at hawaits
      cases hawaits
  | some q => exact ⟨q, rfl⟩

/-- A step that does not touch the requests keeps them, if no sent one is passed. -/
theorem Kept.of_same (hkept : Kept uuids s)
    (hview : ∀ m, s'.tunnel.dispatch.view m = s.tunnel.dispatch.view m)
    (hrequests : s'.tunnel.requests = s.tunnel.requests)
    (hreader : s'.tunnel.reader = s.tunnel.reader)
    (hawaits : ∀ m, s'.awaits m = true → s.awaits m = true)
    (hearly : ∀ m v, s.tunnel.dispatch.view m = some v → s.awaits m = true → s'.isSent m = true →
      v.registered = true → (s.isSent m = true → s.passed uuids v.rid = false) →
        s'.passed uuids v.rid = false) : Kept uuids s' := by
  constructor
  · intro m v q hv hq ha
    rw [hreader]
    exact hkept.awaited m v q ((hview m).symm.trans hv) (hrequests ▸ hq) (hawaits m ha)
  · intro m v hv ha hsent hregistered
    have hv' := (hview m).symm.trans hv
    have ha' := hawaits m ha
    exact hearly m v hv' ha' hsent hregistered fun hs => hkept.early m v hv' ha' hs hregistered

/-- A step of the handler that sends nothing keeps the requests, if it lets no shard pass. -/
theorem Kept.of_handler (hkept : Kept uuids s)
    (htunnel : s'.tunnel.dispatch = s.tunnel.dispatch ∧ s'.tunnel.requests = s.tunnel.requests ∧
      s'.tunnel.reader = s.tunnel.reader) (hsends : s'.sends = s.sends)
    (hpassed : ∀ rid, s.passed uuids rid = false → s'.passed uuids rid = false) :
    Kept uuids s' := by
  refine hkept.of_same (fun m => by rw [htunnel.1]) htunnel.2.1 htunnel.2.2 (fun m ha => ?_) ?_
  · rw [State.awaits, htunnel.2.1, hsends] at ha
    exact ha
  · intro m v _ _ hsent _ hearly
    rw [State.isSent, hsends] at hsent
    exact hpassed v.rid (hearly hsent)

/-- A step of the tunnel keeps the requests, if it lets no shard pass without failing it. -/
theorem Kept.of_tunnel (hkept : Kept uuids s) (hwired : Wired s) {a : Multiplex.Action}
    {t : Multiplex.State} (ht : Multiplex.step uuids s.tunnel a = some t) (hnone : registers a = 0)
    (hroom : s.room uuids a = true)
    (hpassed : ∀ rid, (∀ i, a = .failShard i → s.tunnel.failing[i]? ≠ some (uuids.shard rid)) →
      s.passed uuids rid = false → ({ s with tunnel := t } : State).passed uuids rid = false) :
    Kept uuids { s with tunnel := t } := by
  have hinv := hwired.tunnel
  -- each request was there before, with its holder
  have hbefore : ∀ m v' q', t.dispatch.view m = some v' → t.requests[m]? = some q' → ∃ v q,
      s.tunnel.dispatch.view m = some v ∧ s.tunnel.requests[m]? = some q ∧
        LocalStep uuids s.tunnel.failing a m v (localTo m v.rid s.tunnel.reader) q v'
          (localTo m v.rid t.reader) q' := by
    intro m v' q' hv' hq'
    rcases local_step hinv.dispatch hinv.length hinv.reader ht hv' hq' with
      ⟨rid, rfl, -⟩ | hold
    · cases hnone
    · exact hold
  have hawaits : ∀ {m : LineId} {v v' : View} {q q' : PendingRequest} {r r' : ReaderPc},
      s.tunnel.requests[m]? = some q → t.requests[m]? = some q' →
        LocalStep uuids s.tunnel.failing a m v r q v' r' q' →
          ({ s with tunnel := t } : State).awaits m = true → s.awaits m = true := by
    intro m v v' q q' r r' hq hq' hlocal ha
    simp only [State.awaits, hq', hq, Option.any_some, Bool.and_eq_true] at ha ⊢
    exact ⟨hlocal.rx ha.1, ha.2⟩
  constructor
  · intro m v' q' hv' hq' ha
    obtain ⟨v, q, hv, hq, hlocal⟩ := hbefore m v' q' hv' hq'
    have ha' := hawaits hq hq' hlocal ha
    rw [hlocal.rid]
    exact (hkept.awaited m v q hv hq ha').step hlocal (rx_of_awaits hq' ha) (rx_of_awaits hq ha')
      (room_of hinv.dispatch hroom ha' hv)
  · intro m v' hv' ha hsent hregistered
    obtain ⟨q', hq'⟩ := exists_request_of_awaits ha
    obtain ⟨v, q, hv, hq, hlocal⟩ := hbefore m v' q' hv' hq'
    obtain ⟨hregistered', hshard⟩ := hlocal.registered hregistered
    rw [hlocal.rid]
    exact hpassed v.rid hshard (hkept.early m v hv (hawaits hq hq' hlocal ha) hsent hregistered')

/-- A registration leaves the reader and the calls of `fail_all_pending` alone. -/
theorem registerPending_keeps {t t' : Multiplex.State} {rid : Uuid}
    (ht : Multiplex.step uuids t (.registerPending rid) = some t') :
    t'.reader = t.reader ∧ t'.failing = t.failing := by
  simp only [Multiplex.step] at ht
  split at ht
  · obtain rfl := Option.some.inj ht
    exact ⟨rfl, rfl⟩
  · cases ht

/-- A call registers its request, in front of its send. -/
theorem Kept.of_forward (hkept : Kept uuids s) (hwired : Wired s) {rid : Uuid} {call : Call}
    {t : Multiplex.State} (ht : Multiplex.step uuids s.tunnel (.registerPending rid) = some t) :
    Kept uuids { s with tunnel := t, sends := s.sends ++ [.waiting (call.frame rid)] } := by
  have hinv := hwired.tunnel
  have hlength := hwired.length
  obtain ⟨hreader, hfailing⟩ := registerPending_keeps ht
  -- the sends of the requests that were there before
  have hold : ∀ {m : LineId} {q : PendingRequest}, s.tunnel.requests[m]? = some q →
      (s.sends ++ [Sending.waiting (call.frame rid)])[m]? = s.sends[m]? := by
    intro m q hq
    have hlt : m < s.sends.length := by
      rw [hlength]
      exact (List.getElem?_eq_some_iff.1 hq).1
    exact List.getElem?_append_left hlt
  have hnew : (s.sends ++ [Sending.waiting (call.frame rid)])[s.tunnel.requests.length]? =
      some (.waiting (call.frame rid)) := by
    rw [← hlength]
    exact List.getElem?_concat_length
  have hcases : ∀ {m v' q'}, t.dispatch.view m = some v' → t.requests[m]? = some q' →
      (m = s.tunnel.requests.length ∧ v'.registered = true ∧ localTo m v'.rid t.reader = .idle) ∨
        ∃ v, s.tunnel.dispatch.view m = some v ∧ s.tunnel.requests[m]? = some q' ∧ v' = v := by
    intro m v' q' hv' hq'
    rcases local_step hinv.dispatch hinv.length hinv.reader ht hv' hq' with
      ⟨r, -, rfl, rfl, hidle, -⟩ | ⟨v, q, hv, hq, hlocal⟩
    · exact Or.inl ⟨rfl, rfl, hidle⟩
    · obtain ⟨rfl, rfl⟩ := hlocal.of_registerPending
      exact Or.inr ⟨_, hv, hq, rfl⟩
  constructor
  · intro m v' q' hv' hq' ha
    rcases hcases hv' hq' with ⟨-, hregistered, hidle⟩ | ⟨v, hv, hq, rfl⟩
    · exact Awaited.opened hregistered hidle
    · have ha' : s.awaits m = true := by
        simp only [State.awaits, hold hq, hq', hq] at ha ⊢
        exact ha
      dsimp only
      rw [hreader]
      exact hkept.awaited m v' q' hv hq ha'
  · intro m v' hv' ha hsent hregistered
    obtain ⟨q', hq'⟩ := exists_request_of_awaits ha
    rcases hcases hv' hq' with ⟨rfl, -, -⟩ | ⟨v, hv, hq, rfl⟩
    · simp only [State.isSent, hnew, Option.any_some, Sending.isSent] at hsent
      cases hsent
    · have ha' : s.awaits m = true := by
        simp only [State.awaits, hold hq, hq', hq] at ha ⊢
        exact ha
      have hsent' : s.isSent m = true := by
        simp only [State.isSent, hold hq] at hsent ⊢
        exact hsent
      have hpassed := hkept.early m v' hv ha' hsent' hregistered
      simp only [State.passed, hfailing] at hpassed ⊢
      exact hpassed

/-- What a step on the tunnel that is not the handler's own does to its `fail_all_pending`. -/
theorem passed_of_permits {a : Multiplex.Action} {t : Multiplex.State} {rid : Uuid}
    (hpermits : s.permits a = true) (ht : Multiplex.step uuids s.tunnel a = some t)
    (hpassed : s.passed uuids rid = false) :
    ({ s with tunnel := t } : State).passed uuids rid = false := by
  unfold State.passed at hpassed ⊢
  dsimp only
  split
  · rename_i call hcall
    rw [hcall] at hpassed
    dsimp only at hpassed
    rcases (shape_step ht).failing with hsame | ⟨-, happend⟩ | ⟨i, shard, rfl, hshard, hset⟩
    · rwa [hsame]
    · rw [happend]
      rcases Nat.lt_or_ge call s.tunnel.failing.length with hlt | hge
      · rwa [List.getElem?_append_left hlt]
      · -- a call that has just begun has passed nothing
        rw [List.getElem?_append_right hge]
        cases call - s.tunnel.failing.length with
        | zero => rfl
        | succ n => rfl
    · have hne : i ≠ call := by
        rintro rfl
        exact of_decide_eq_true hpermits hcall
      rwa [hset, List.getElem?_set_ne hne]
  · rename_i hcall
    rw [hcall] at hpassed
    cases hpassed
  · rename_i hcall
    rw [hcall] at hpassed
    cases hpassed
  · rfl

/-- **A step that meets the condition keeps the requests.** -/
theorem Kept.step (hkept : Kept uuids s) (hwired : Wired s) (h : Change uuids s act s')
    (hspares : spares uuids s act = true) : Kept uuids s' := by
  cases h with
  | forward ht => exact hkept.of_forward hwired ht
  | @refuse l frame hl hclosed =>
      -- nobody waits for the request any more
      have hother : ∀ {m}, ({ s with sends := s.sends.set l .failed } : State).awaits m = true →
          m ≠ l := by
        rintro m ha rfl
        simp only [State.awaits, TaskPool.getElem?_set_self hl, Option.any_some, Sending.isFailed,
          Bool.not_true, Bool.and_false] at ha
        cases ha
      constructor
      · intro m v q hv hq ha
        have hne := hother ha
        simp only [State.awaits, List.getElem?_set_ne hne.symm] at ha
        exact hkept.awaited m v q hv hq ha
      · intro m v hv ha hsent hregistered
        have hne := hother ha
        simp only [State.awaits, State.isSent, List.getElem?_set_ne hne.symm] at ha hsent
        exact hkept.early m v hv ha hsent hregistered
  | @send l frame hl hopen =>
      refine hkept.of_same (fun _ => rfl) rfl rfl (fun m ha => ?_) fun m v hv _ hsent hregistered
        hearly => ?_
      · by_cases hml : m = l
        · subst hml
          simp only [State.awaits, TaskPool.getElem?_set_self hl, hl, Option.any_some] at ha ⊢
          exact ha
        · simp only [State.awaits, List.getElem?_set_ne (Ne.symm hml)] at ha ⊢
          exact ha
      · change s.passed uuids v.rid = false
        by_cases hml : m = l
        · subst hml
          simpa [spares, hopen, hv, hregistered] using hspares
        · simp only [State.isSent, List.getElem?_set_ne (Ne.symm hml)] at hsent hearly
          exact hearly hsent
  | tunnel hpermits ht =>
      exact hkept.of_tunnel hwired ht (registers_of_permits hpermits) hspares
        fun rid _ hpassed => passed_of_permits hpermits ht hpassed
  | @ready ok hhandler =>
      refine hkept.of_handler ⟨rfl, rfl, rfl⟩ rfl fun rid _ => ?_
      cases ok <;> rfl
  | withdraw hhandler =>
      refine hkept.of_same (fun _ => rfl) rfl rfl (fun _ => id) fun m v hv ha hsent hregistered
        _ => ?_
      -- no request that was sent is registered
      exfalso
      have hlt : m < s.sends.length := by
        cases hm : s.sends[m]? with
        | none => simp [State.awaits, hm] at ha
        | some x => exact (List.getElem?_eq_some_iff.1 hm).1
      simp only [spares, hhandler] at hspares
      have hm := List.all_eq_true.1 hspares m (List.mem_range.2 hlt)
      have hsent' : s.isSent m = true := hsent
      simp only [ha, hsent', hv, Option.any_some, hregistered, Bool.and_true, Bool.not_true] at hm
      cases hm
  | start hhandler => exact hkept.of_handler ⟨rfl, rfl, rfl⟩ rfl fun rid _ => rfl
  | leave hhandler hidle => exact hkept.of_handler ⟨rfl, rfl, rfl⟩ rfl fun rid _ => rfl
  | failAll hhandler =>
      refine hkept.of_handler ⟨rfl, rfl, rfl⟩ rfl fun rid _ => ?_
      simp only [State.passed, List.getElem?_concat_length, Option.any_some]
      exact decide_eq_false (Nat.not_lt_zero _)
  | @failShard call t hhandler ht =>
      have hroom : s.room uuids (.failShard call) = true := by
        simp only [spares, hhandler] at hspares
        exact hspares
      refine hkept.of_tunnel hwired ht rfl hroom fun rid hshard hpassed => ?_
      obtain ⟨shard, hcall, hset⟩ : ∃ shard, s.tunnel.failing[call]? = some shard ∧
          t.failing = s.tunnel.failing.set call (shard + 1) := by
        obtain ⟨shard, hcall, hstep⟩ := Option.bind_eq_some_iff.1 ht
        split at hstep
        · obtain rfl := Option.some.inj hstep
          exact ⟨shard, hcall, rfl⟩
        · cases hstep
      have hne : uuids.shard rid ≠ shard := fun h => hshard call rfl (h ▸ hcall)
      simp only [State.passed, hhandler, hset, TaskPool.getElem?_set_self hcall, hcall,
        Option.any_some, decide_eq_false_iff_not] at hpassed ⊢
      omega
  | failed hhandler hdone =>
      refine hkept.of_handler ⟨rfl, rfl, rfl⟩ rfl fun rid hpassed => ?_
      simp only [State.passed, hhandler, hdone, Option.any_some, decide_eq_false_iff_not] at hpassed
      exact absurd (uuids.shard_lt rid) hpassed
  | clean hhandler =>
      refine hkept.of_handler ⟨rfl, rfl, rfl⟩ rfl fun rid hpassed => ?_
      simp only [State.passed, hhandler] at hpassed
      cases hpassed
  | writerTakes hgot => exact hkept.of_handler ⟨rfl, rfl, rfl⟩ rfl fun rid h => h
  | writerStops halive => exact hkept.of_handler ⟨rfl, rfl, rfl⟩ rfl fun rid h => h
  | ping => exact hkept.of_handler ⟨rfl, rfl, rfl⟩ rfl fun rid h => h
  | pingerStops => exact hkept.of_handler ⟨rfl, rfl, rfl⟩ rfl fun rid h => h

/-! ### The end of a connection -/

theorem closed_of_over (hwired : Wired s) (hover : s.over = true) :
    s.handler = .returned ∧ s.frames.receiver = false := by
  simp only [State.over, Bool.and_eq_true, decide_eq_true_eq, Bool.not_eq_true'] at hover
  obtain ⟨⟨hreturned, hwriter⟩, -⟩ := hover
  refine ⟨hreturned, ?_⟩
  cases hw : s.writer with
  | stopped => exact hwired.stopped hw
  | unspawned =>
      rcases hwired.unspawned hw with h | h | h | ⟨-, h⟩
      · rw [hreturned] at h
        cases h
      · rw [hreturned] at h
        cases h
      · rw [hreturned] at h
        cases h
      · exact h
  | running =>
      rw [hw] at hwriter
      cases hwriter
  | aborting =>
      rw [hw] at hwriter
      cases hwriter

/-- The requests of a connection that is over are settled. -/
theorem Kept.noOrphan (hkept : Kept uuids s) (hwired : Wired s) : NoOrphan s := by
  intro hover l q x hq hx
  obtain ⟨hreturned, hclosed⟩ := closed_of_over hwired hover
  cases hrx : q.rx with
  | false => exact Settled.dropped hrx
  | true =>
      cases x with
      | waiting frame => exact Settled.refusing hclosed
      | failed => exact Settled.refused
      | sent =>
          obtain ⟨v, hv⟩ := exists_view hwired.tunnel.length hq
          obtain ⟨line, hline, rfl⟩ := view_eq_some hv
          have hawaits : s.awaits l = true := by
            simp only [State.awaits, hq, hx, Option.any_some, hrx, Sending.isFailed, Bool.not_false,
              Bool.and_true]
          have hsent : s.isSent l = true := by
            simp only [State.isSent, hx, Option.any_some, Sending.isSent]
          cases hkept.awaited l _ q hv hq hawaits with
          | opened hregistered hidle =>
              have hpassed := hkept.early l _ hv hawaits hsent hregistered
              simp only [State.passed, hreturned] at hpassed
              cases hpassed
          | handing hreader hterminal =>
              -- the reader works only while the loop runs
              have hbusy : s.tunnel.reader ≠ .idle := by
                rw [eq_of_localTo_eq_sending hreader]
                exact fun h => by cases h
              have hserving := hwired.reading hbusy
              rw [hreturned] at hserving
              cases hserving
          | answered hf hterminal => exact Settled.answered hline hf hterminal

end

/-- **No request is orphaned.**  In every run of a connection with the requests sent through it, in
which no send succeeds for a request registered behind the handler's `fail_all_pending`, no request
is registered and sent when the handler returns after a failed `ready`, and no frame finds the
channel of a request full, all requests are settled when the connection is over. -/
theorem noOrphan_of_spares (uuids : Sharding Uuid) (as : List Action)
    (hspares : Throughout (step uuids) (fun s act _ => spares uuids s act = true) init as) :
    Always (step uuids) NoOrphan init as := by
  have hboth := always_of_step (I := fun s => Wired s ∧ Kept uuids s) ?_ ⟨wired_init, kept_init⟩
    hspares
  · exact hboth.mono fun s hs => hs.2.noOrphan hs.1
  · rintro s act s' ⟨hwired, hkept⟩ hstep hcond
    have hchange := change_of_step hstep
    exact ⟨hwired.step hchange, hkept.step hwired hchange hcond⟩

/-- Four shards, by the last two bits of the id. -/
def sampleShards : Sharding Uuid := ⟨4, fun rid => rid.toNat % 4, fun _ => Nat.mod_lt _ (by decide)⟩

def sampleCall : Call := .forwardHttpRequest "GET".toList "/v1/models".toList .null none

/-- The loop breaks, and the handler runs its `fail_all_pending`. -/
def breakAndFail : List Action :=
  [.leave, .handler, .handler, .handler, .handler, .handler, .handler]

/-- The tasks stop, and the handler returns. -/
def stopAndReturn : List Action := [.writerStops, .pingerStops, .handler]

/-- A request is registered before `ready` is sent, and its frame is sent while the loop runs. -/
def servedThenFailed : List Action :=
  [.forward 7 sampleCall, .ready true, .handler, .send 0] ++ breakAndFail ++ stopAndReturn

theorem spares_servedThenFailed :
    checkThroughout (step sampleShards) (spares sampleShards) init servedThenFailed = true := by
  decide +kernel

theorem noOrphan_servedThenFailed : Always (step sampleShards) NoOrphan init servedThenFailed :=
  noOrphan_of_spares _ _ (throughout_of_check spares_servedThenFailed)

/-- A request is registered and sent after the `fail_all_pending`, before the writer stops. -/
def failedThenServed : List Action :=
  [.ready true, .handler] ++ breakAndFail ++ [.forward 7 sampleCall, .send 0] ++ stopAndReturn

/-- The connection, the holder of the request and its send, and the channel of the request. -/
def observeRequest (s : State) :
    Bool × Option (Bool × List InboundFrame) × Option Bool × Option (List InboundFrame) :=
  (s.over, (s.tunnel.requests[0]?).map fun q => (q.rx, q.received),
    (s.sends[0]?).map Sending.isSent,
    (s.tunnel.dispatch.lines[0]?).map fun line => line.chan.buffer)

theorem observe_failedThenServed :
    (run (step sampleShards) init failedThenServed).map observeRequest =
      some (true, some (true, []), some true, some []) := by
  decide +kernel

/-- **A request behind `fail_all_pending` is orphaned**: its send succeeds, and no frame comes. -/
theorem noOrphan_breaks : ¬ ∀ (uuids : Sharding Uuid) (as : List Action),
    Always (step uuids) NoOrphan init as := by
  intro h
  obtain ⟨s, hs, hobs⟩ := (h sampleShards failedThenServed).observe observe_failedThenServed
  simp only [observeRequest, Prod.mk.injEq] at hobs
  obtain ⟨hover, hrequest, hsend, hbuffer⟩ := hobs
  obtain ⟨q, hq, hheld⟩ := Option.map_eq_some_iff.1 hrequest
  obtain ⟨hrx, hreceived⟩ := Prod.mk.inj hheld
  obtain ⟨x, hx, hsent⟩ := Option.map_eq_some_iff.1 hsend
  obtain ⟨line, hline, hempty⟩ := Option.map_eq_some_iff.1 hbuffer
  cases hs hover 0 q x hq hx with
  | dropped hdropped =>
      rw [hrx] at hdropped
      cases hdropped
  | refused => cases hsent
  | refusing hclosed => cases hsent
  | answered hline' hf hterminal =>
      obtain rfl := Option.some.inj (hline.symm.trans hline')
      rw [hreceived, hempty] at hf
      cases hf

end Disconnect
