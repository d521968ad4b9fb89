/-
**One request among many.**

What becomes of a request depends on its own channel, its own entry in the pending map and the
reader as far as it works for the request; whatever the other requests of the tunnel do leaves these
alone. This module says so: seen from one request, a step of the system is one of a few local steps
(`Sse.LocalStep`), and the invariants of a request are invariants of the local steps.

Main definitions:

* `Sse.Lossless` — the step loses no frame of the request, and ends it as a response ends;
* `Sse.LocalStep` — what a step of the system can be to a request.

Main results:

* `Sse.WF.step` — the requests of the system are those of its dispatcher;
* `Sse.localStep_of_step` — **every step of the system is a local step of each of its requests**.
-/

import SparklRouter.Consumer.Sse

set_option relaxedAutoImplicit false
set_option autoImplicit false

namespace Sse

open Tunnel Tunnel.Dispatch

variable {uuids : Sharding Uuid} {extractUsage : Text → Option ParsedUsage}

/-! ### Steps without loss -/

/-- The channel of the request is full, and its receiver is still there. -/
def full (v : View) : Bool := v.chan.receiver && !v.chan.accepts

/-- The step does not lose a frame of the request `l` other than an `End`: neither a frame that is
not terminal, nor an `Error` frame of the node, nor the one of `fail_all_pending` meets a full
channel.  And the node does not end the request with an `ActivateResponse`. -/
def lossless (uuids : Sharding Uuid) (l : LineId) (s : State) (act : Action) : Bool :=
  match s.dispatch.view l with
  | none => true
  | some v =>
      match act with
      | .route rid frame =>
          if v.registered ∧ rid = v.rid then
            match frame with
            | .response _ _ | .chunk _ => !full v
            | .activateResponse _ => false
            | .endFrame _ | .error _ _ => true
          else true
      | .reader =>
          match s.reader with
          | .sending m (.error _ _) => if m = l then !full v else true
          | _ => true
      | .failShard i =>
          if v.registered ∧ s.failing[i]? = some (uuids.shard v.rid) then !full v else true
      | _ => true

/-- A step without loss for the request `l`. -/
def Lossless (uuids : Sharding Uuid) (l : LineId) (s : State) (act : Action) (_ : State) : Prop :=
  lossless uuids l s act = true

section

variable {l : LineId} {s s' : State} {act : Action} {v : View}

theorem Lossless.route {frame : InboundFrame} (h : Lossless uuids l s (.route v.rid frame) s')
    (hview : s.dispatch.view l = some v) (hregistered : v.registered = true) :
    (isTerminalFrame frame = false → full v = false) ∧
      ∀ apiKey, frame ≠ .activateResponse apiKey := by
  simp only [Lossless, lossless, hview, hregistered, and_self, if_true] at h
  cases frame with
  | response status headers => exact ⟨fun _ => by simpa using h, nofun⟩
  | chunk data => exact ⟨fun _ => by simpa using h, nofun⟩
  | activateResponse apiKey => cases h
  | endFrame status => exact ⟨nofun, nofun⟩
  | error code message => exact ⟨nofun, nofun⟩

theorem Lossless.send {code : UInt16} {message : Text} (h : Lossless uuids l s .reader s')
    (hview : s.dispatch.view l = some v) (hreader : s.reader = .sending l (.error code message)) :
    full v = false := by
  simpa [Lossless, lossless, hview, hreader] using h

theorem Lossless.fail {i : ℕ} (h : Lossless uuids l s (.failShard i) s')
    (hview : s.dispatch.view l = some v) (hregistered : v.registered = true)
    (hshard : s.failing[i]? = some (uuids.shard v.rid)) : full v = false := by
  simpa [Lossless, lossless, hview, hregistered, hshard] using h

end

/-! ### Local steps -/

/-- What the step of a request does to its view. -/
def Touch.onView (v : View) : Touch → View
  | .nothing => v
  | .recv => { v with chan := ((v.chan.recv).map Prod.snd).getD v.chan }
  | .dropRx => { v with chan := v.chan.dropReceiver }
  | .cleanup =>
      if v.registered then { v with registered := false, chan := v.chan.dropSender } else v

/-- A step of the system without loss, as the request `l` sees it: the change of its view, of the
reader as far as it works for the request, and of the request itself. -/
inductive LocalStep (extractUsage : Text → Option ParsedUsage) (l : LineId) (v : View) :
    ReaderPc → Consumer → View → ReaderPc → Consumer → Prop
  | stay {r : ReaderPc} {c : Consumer} : LocalStep extractUsage l v r c v r c
  | route {c : Consumer} {frame : InboundFrame}
      (hroom : v.registered = true → isTerminalFrame frame = false → full v = false)
      (hkind : v.registered = true → ∀ apiKey, frame ≠ .activateResponse apiKey) :
      LocalStep extractUsage l v .idle c (v.route l frame).1 (v.route l frame).2 c
  | reader {r : ReaderPc} {c : Consumer}
      (hroom : ∀ code message, r = .sending l (.error code message) → full v = false) :
      LocalStep extractUsage l v r c (v.readerStep l r).1 (v.readerStep l r).2 c
  | fail {r : ReaderPc} {c : Consumer} (hregistered : v.registered = true)
      (hroom : full v = false) :
      LocalStep extractUsage l v r c
        { v with registered := false, chan := (v.chan.trySend disconnected).1.dropSender } r c
  | consume {r : ReaderPc} {c c' : Consumer} {a : ConsumerAct} {touch : Touch}
      (hstep : c.step extractUsage v.chan a = some (c', touch)) :
      LocalStep extractUsage l v r c (touch.onView v) r c'

/-! ### The requests of the system -/

/-- The pending map is well formed, there is one request for each line of the dispatcher, and the
reader works for one of them. -/
structure WF (s : State) : Prop where
  dispatch : s.dispatch.WF
  length : s.consumers.length = s.dispatch.lines.length
  reader : Named s.dispatch s.reader

theorem wf_init : WF init := ⟨wf_empty, rfl, trivial⟩

/-- A receive takes something, or leaves the dispatcher alone. -/
theorem apply_recv_cases (d : Dispatch) (l : LineId) (rid : Uuid) :
    Touch.recv.apply d l rid = d ∨
      ∃ got d', d.recv l = some (got, d') ∧ Touch.recv.apply d l rid = d' := by
  unfold Touch.apply
  cases d.recv l with
  | none => exact Or.inl rfl
  | some got => exact Or.inr ⟨got.1, got.2, rfl, rfl⟩

theorem sameRids_apply (d : Dispatch) (l : LineId) (rid : Uuid) (touch : Touch) :
    SameRids d (touch.apply d l rid) := by
  cases touch with
  | nothing => exact SameRids.refl d
  | recv =>
      rcases apply_recv_cases d l rid with hsame | ⟨got, d', hrecv, hnext⟩
      · rw [hsame]
        exact SameRids.refl d
      · rw [hnext]
        exact sameRids_recv hrecv
  | dropRx => exact sameRids_onChan d l _
  | cleanup => exact sameRids_removePending d rid

theorem wf_apply {d : Dispatch} (h : d.WF) (l : LineId) (rid : Uuid) (touch : Touch) :
    (touch.apply d l rid).WF := by
  cases touch with
  | nothing => exact h
  | recv =>
      rcases apply_recv_cases d l rid with hsame | ⟨got, d', hrecv, hnext⟩
      · rwa [hsame]
      · rw [hnext]
        exact h.recv hrecv
  | dropRx => exact h.onChan l _
  | cleanup => exact h.removePending rid

/-- **Every step keeps that the requests are those of the dispatcher.** -/
theorem WF.step {s s' : State} {act : Action} (h : WF s)
    (hstep : Sse.step uuids extractUsage s act = some s') : WF s' := by
  cases act with
  | request rid mode =>
      simp only [Sse.step] at hstep
      split at hstep
      · rename_i hfresh
        obtain rfl := Option.some.inj hstep
        refine ⟨h.dispatch.registerPending hfresh, ?_, ?_⟩
        · have hlength := h.length
          simp only [List.length_append, List.length_singleton, registerPending]
          omega
        · exact named_registerPending h.reader rid
      · cases hstep
  | route rid frame =>
      simp only [Sse.step] at hstep
      split at hstep
      · obtain rfl := Option.some.inj hstep
        exact ⟨h.dispatch.routeInbound rid frame,
          h.length.trans (sameRids_routeInbound s.dispatch rid frame).length.symm,
          named_routeInbound h.dispatch rid frame⟩
      · cases hstep
  | reader =>
      obtain ⟨⟨d, pc⟩, hnext, rfl⟩ := Option.map_eq_some_iff.1 hstep
      exact ⟨h.dispatch.readerStep hnext, h.length.trans (sameRids_readerStep hnext).length.symm,
        named_readerStep h.reader hnext⟩
  | failAllPending =>
      obtain rfl := Option.some.inj hstep
      exact ⟨h.dispatch, h.length, h.reader⟩
  | failShard i =>
      obtain ⟨shard, -, hstep⟩ := Option.bind_eq_some_iff.1 hstep
      split at hstep
      · obtain rfl := Option.some.inj hstep
        have hsame := sameRids_failShard s.dispatch uuids.shard shard
        exact ⟨h.dispatch.failShard uuids.shard shard, h.length.trans hsame.length.symm,
          h.reader.of_sameRids hsame⟩
      · cases hstep
  | consumer l a =>
      obtain ⟨line, hline, hstep⟩ := Option.bind_eq_some_iff.1 hstep
      obtain ⟨c, hc, hstep⟩ := Option.bind_eq_some_iff.1 hstep
      obtain ⟨⟨c', touch⟩, hconsumer, rfl⟩ := Option.map_eq_some_iff.1 hstep
      have hsame := sameRids_apply s.dispatch l line.rid touch
      refine ⟨wf_apply h.dispatch l line.rid touch, ?_, h.reader.of_sameRids hsame⟩
      rw [hsame.length, List.length_set]
      exact h.length

/-! ### The step of a request, seen from itself and from another -/

section

variable {d : Dispatch} {l : LineId} {v : View}

theorem view_apply_self (hwf : d.WF) (h : d.view l = some v) (touch : Touch) :
    (touch.apply d l v.rid).view l = some (touch.onView v) := by
  cases touch with
  | nothing => exact h
  | recv =>
      obtain ⟨line, hline, hv⟩ := view_eq_some h
      have hchan : line.chan = v.chan := congrArg View.chan hv.symm
      unfold Touch.apply Touch.onView Dispatch.recv
      rw [hline]
      cases hrecv : v.chan.recv with
      | none => simpa [hchan, hrecv] using h
      | some got =>
          have hset := view_onChan h l fun _ => got.2
          rw [if_pos rfl] at hset
          simpa [hchan, hrecv] using hset
  | dropRx =>
      have hset := view_onChan h l Channel.dropReceiver
      rw [if_pos rfl] at hset
      exact hset
  | cleanup =>
      have hremove := view_removePending hwf h v.rid
      simp only [true_and] at hremove
      exact hremove

theorem view_apply_other (hwf : d.WF) (h : d.view l = some v) {m : LineId} {mine : Line}
    (hmine : d.lines[m]? = some mine) (hne : m ≠ l) (touch : Touch) :
    (touch.apply d m mine.rid).view l = some v := by
  cases touch with
  | nothing => exact h
  | recv =>
      rcases apply_recv_cases d m mine.rid with hsame | ⟨got, d', hrecv, hnext⟩
      · rwa [hsame]
      · rw [hnext]
        rcases view_recv h hrecv with ⟨heq, -⟩ | ⟨-, hview⟩
        · exact absurd heq hne
        · exact hview
  | dropRx =>
      have hset := view_onChan h m Channel.dropReceiver
      rw [if_neg hne] at hset
      exact hset
  | cleanup =>
      have hrid : v.rid ≠ mine.rid := by
        obtain ⟨line, hline, rfl⟩ := view_eq_some h
        exact fun hrid => hne (hwf.unique m l mine line hmine hline hrid.symm)
      have hremove := view_removePending hwf h mine.rid
      rw [if_neg fun hand => hrid hand.1] at hremove
      exact hremove

end

/-! ### The projection of a step -/

/-- What the request `l` is in a state: its view, the reader as far as it works for it, and
itself. -/
structure Local (l : LineId) (s : State) (v : View) (r : ReaderPc) (c : Consumer) : Prop where
  view : s.dispatch.view l = some v
  reader : localTo l v.rid s.reader = r
  consumer : s.consumers[l]? = some c

theorem Local.lt_length {l : LineId} {s : State} {v : View} {r : ReaderPc} {c : Consumer}
    (h : Local l s v r c) : l < s.consumers.length :=
  (List.getElem?_eq_some_iff.1 h.consumer).1

/-- The id of a request does not change. -/
theorem rid_onView (v : View) (touch : Touch) : (touch.onView v).rid = v.rid := by
  cases touch with
  | cleanup =>
      simp only [Touch.onView]
      split
      · rfl
      · rfl
  | _ => rfl

section

variable {l : LineId} {s s' : State} {v : View} {r : ReaderPc} {c : Consumer}

theorem Local.request (h : Local l s v r c) {rid : Uuid} {mode : Mode}
    (hstep : step uuids extractUsage s (.request rid mode) = some s') : Local l s' v r c := by
  simp only [step] at hstep
  split at hstep
  · rename_i hfresh
    obtain rfl := Option.some.inj hstep
    exact ⟨view_registerPending h.view hfresh, h.reader, TaskPool.getElem?_append_of h.consumer⟩
  · cases hstep

/-- The reader is given a frame: of this request, or of another one. -/
theorem Local.route (hwf : WF s) (h : Local l s v r c) {rid : Uuid} {frame : InboundFrame}
    (hstep : step uuids extractUsage s (.route rid frame) = some s') :
    (rid = v.rid ∧ r = .idle ∧ Local l s' (v.route l frame).1 (v.route l frame).2 c) ∨
      (rid ≠ v.rid ∧ r = .idle ∧ Local l s' v .idle c) := by
  obtain ⟨hview, rfl, hc⟩ := h
  simp only [step] at hstep
  split at hstep
  · rename_i hidle
    obtain rfl := Option.some.inj hstep
    have hreader : localTo l v.rid s.reader = .idle := by rw [hidle]; rfl
    by_cases hrid : rid = v.rid
    · subst hrid
      obtain ⟨hview', hpc'⟩ := view_routeInbound_self hwf.dispatch hview frame
      refine Or.inl ⟨rfl, hreader, hview', ?_, hc⟩
      rw [rid_route, hpc', localTo_route]
    · obtain ⟨hview', hpc'⟩ := view_routeInbound_other hwf.dispatch hview (Ne.symm hrid) frame
      exact Or.inr ⟨hrid, hreader, hview', hpc', hc⟩
  · cases hstep

theorem Local.readerStep (hwf : WF s) (h : Local l s v r c)
    (hstep : step uuids extractUsage s .reader = some s') :
    Local l s' (v.readerStep l r).1 (v.readerStep l r).2 c := by
  obtain ⟨hview, rfl, hc⟩ := h
  obtain ⟨⟨d, pc⟩, hnext, rfl⟩ := Option.map_eq_some_iff.1 hstep
  obtain ⟨hview', hpc'⟩ := view_readerStep hwf.dispatch hview hnext
  refine ⟨hview', ?_, hc⟩
  rw [rid_readerStep]
  exact hpc'

/-- A `fail_all_pending` goes on: it reaches the request, or leaves it alone. -/
theorem Local.failShard (h : Local l s v r c) {i : ℕ}
    (hstep : step uuids extractUsage s (.failShard i) = some s') :
    (v.registered = true ∧ s.failing[i]? = some (uuids.shard v.rid) ∧
      Local l s' { v with registered := false, chan := (v.chan.trySend disconnected).1.dropSender }
        r c) ∨ Local l s' v r c := by
  obtain ⟨shard, hshard, hstep⟩ := Option.bind_eq_some_iff.1 hstep
  split at hstep
  · obtain rfl := Option.some.inj hstep
    have hview' := view_failShard h.view uuids.shard shard
    by_cases hhit : uuids.shard v.rid = shard ∧ v.registered = true
    · rw [if_pos hhit] at hview'
      exact Or.inl ⟨hhit.2, by rw [hhit.1]; exact hshard, hview', h.reader, h.consumer⟩
    · rw [if_neg hhit] at hview'
      exact Or.inr ⟨hview', h.reader, h.consumer⟩
  · cases hstep

/-- A request takes a step: this one, or another one. -/
theorem Local.consumerStep (hwf : WF s) (h : Local l s v r c) {m : LineId} {a : ConsumerAct}
    (hstep : step uuids extractUsage s (.consumer m a) = some s') :
    (m = l ∧ ∃ c' touch, c.step extractUsage v.chan a = some (c', touch) ∧
      Local l s' (touch.onView v) r c') ∨ (m ≠ l ∧ Local l s' v r c) := by
  obtain ⟨hview, rfl, hc⟩ := h
  obtain ⟨line, hline, hstep⟩ := Option.bind_eq_some_iff.1 hstep
  obtain ⟨b, hb, hstep⟩ := Option.bind_eq_some_iff.1 hstep
  obtain ⟨⟨b', touch⟩, hconsumer, rfl⟩ := Option.map_eq_some_iff.1 hstep
  by_cases hml : m = l
  · subst hml
    obtain rfl := Option.some.inj (hc.symm.trans hb)
    obtain ⟨line', hline', hv⟩ := view_eq_some hview
    obtain rfl := Option.some.inj (hline.symm.trans hline')
    have hrid : line.rid = v.rid := congrArg View.rid hv.symm
    have hchan : line.chan = v.chan := congrArg View.chan hv.symm
    rw [hchan] at hconsumer
    refine Or.inl ⟨rfl, b', touch, hconsumer, ?_, ?_, TaskPool.getElem?_set_self hc b'⟩
    · rw [hrid]
      exact view_apply_self hwf.dispatch hview touch
    · rw [rid_onView]
  · refine Or.inr ⟨hml, view_apply_other hwf.dispatch hview hline hml touch, rfl, ?_⟩
    rw [List.getElem?_set_ne hml]
    exact hc

/-- **Every step of the system without loss is a local step of each request.** -/
theorem localStep_of_step {act : Action} (hwf : WF s) (h : Local l s v r c)
    (hstep : step uuids extractUsage s act = some s') (hloss : Lossless uuids l s act s') :
    ∃ v' r' c', Local l s' v' r' c' ∧ LocalStep extractUsage l v r c v' r' c' := by
  cases act with
  | request rid mode => exact ⟨v, r, c, h.request hstep, LocalStep.stay⟩
  | route rid frame =>
      rcases h.route hwf hstep with ⟨rfl, rfl, hlocal⟩ | ⟨-, rfl, hlocal⟩
      · -- a frame of this request
        refine ⟨_, _, c, hlocal, LocalStep.route ?_ ?_⟩
        · exact fun hregistered hterm => (hloss.route h.view hregistered).1 hterm
        · exact fun hregistered => (hloss.route h.view hregistered).2
      · exact ⟨v, _, c, hlocal, LocalStep.stay⟩
  | reader =>
      refine ⟨_, _, c, h.readerStep hwf hstep, LocalStep.reader fun code message hsending => ?_⟩
      exact hloss.send h.view (eq_of_localTo_eq_sending (h.reader.trans hsending))
  | failAllPending =>
      obtain rfl := Option.some.inj hstep
      exact ⟨v, r, c, ⟨h.view, h.reader, h.consumer⟩, LocalStep.stay⟩
  | failShard i =>
      rcases h.failShard hstep with ⟨hregistered, hshard, hlocal⟩ | hlocal
      · have hroom := hloss.fail h.view hregistered hshard
        exact ⟨_, _, c, hlocal, LocalStep.fail hregistered hroom⟩
      · exact ⟨v, r, c, hlocal, LocalStep.stay⟩
  | consumer m a =>
      rcases h.consumerStep hwf hstep with ⟨rfl, c', touch, hconsumer, hlocal⟩ | ⟨-, hlocal⟩
      · exact ⟨_, _, c', hlocal, LocalStep.consume hconsumer⟩
      · exact ⟨v, r, c, hlocal, LocalStep.stay⟩

end

/-- A request that is there after a step was there before, or has just been registered. -/
theorem local_of_step {l : LineId} {s s' : State} {act : Action} {v' : View} {r' : ReaderPc}
    {c' : Consumer} (hwf : WF s) (h : Local l s' v' r' c')
    (hstep : step uuids extractUsage s act = some s') :
    (∃ v r c, Local l s v r c) ∨ ∃ rid mode, v' = ⟨rid, true, Channel.new, []⟩ ∧ r' = .idle ∧
      c' = .forwarding mode := by
  have hold : l < s.consumers.length → ∃ v r c, Local l s v r c := by
    intro hlt
    obtain ⟨line, hline⟩ : ∃ line, s.dispatch.lines[l]? = some line :=
      ⟨_, List.getElem?_eq_getElem (hwf.length ▸ hlt)⟩
    exact ⟨_, _, _, ⟨by rw [view, hline, Option.map_some], rfl, List.getElem?_eq_getElem hlt⟩⟩
  have hlt := h.lt_length
  cases act with
  | request rid mode =>
      simp only [step] at hstep
      split at hstep
      · rename_i hfresh
        obtain rfl := Option.some.inj hstep
        rcases TaskPool.getElem?_append_cases h.consumer with ⟨hl, hc⟩ | hc
        · obtain rfl : l = s.dispatch.lines.length := hl.trans hwf.length
          have hview := h.view
          rw [view_registerPending_self] at hview
          obtain rfl := Option.some.inj hview
          refine Or.inr ⟨rid, mode, rfl, ?_, hc⟩
          rw [← h.reader]
          exact localTo_of_fresh hwf.reader hfresh
        · exact Or.inl (hold (List.getElem?_eq_some_iff.1 hc).1)
      · cases hstep
  | route rid frame =>
      simp only [step] at hstep
      split at hstep
      · obtain rfl := Option.some.inj hstep
        exact Or.inl (hold hlt)
      · cases hstep
  | reader =>
      obtain ⟨next, -, rfl⟩ := Option.map_eq_some_iff.1 hstep
      exact Or.inl (hold hlt)
  | failAllPending =>
      obtain rfl := Option.some.inj hstep
      exact Or.inl (hold hlt)
  | failShard i =>
      obtain ⟨shard, -, hstep⟩ := Option.bind_eq_some_iff.1 hstep
      split at hstep
      · obtain rfl := Option.some.inj hstep
        exact Or.inl (hold hlt)
      · cases hstep
  | consumer m a =>
      obtain ⟨line, -, hstep⟩ := Option.bind_eq_some_iff.1 hstep
      obtain ⟨b, -, hstep⟩ := Option.bind_eq_some_iff.1 hstep
      obtain ⟨⟨b', touch⟩, -, rfl⟩ := Option.map_eq_some_iff.1 hstep
      refine Or.inl (hold ?_)
      rwa [List.length_set] at hlt

end Sse
