/-
**Dispatching the frames of a tunnel to the requests in flight.**

A request that goes through a tunnel registers a channel under a fresh request id
(`register_pending` in `src/tunnel/dispatch.rs`); the reader of the tunnel puts each frame the node
sends for that id into the channel, and takes the channel out of the map with the first terminal
frame or when the channel is full (`route_inbound`); `fail_all_pending` puts an error into every
channel and empties the map.  None of the sends waits, so a frame that finds its channel full is
lost.

The functions are given here as operations on the pending map and its channels, cut at the points
where another task can step in between; the systems that use them interleave them.  `Line.routed`
is not data of the program: it is the history of the frames the reader was given for the id.

Main definitions:

* `Tunnel.InboundFrame`, `Tunnel.isTerminalFrame`;
* `Tunnel.Dispatch` — the pending map and the channels of the requests;
* `Tunnel.Dispatch.registerPending`, `Tunnel.Dispatch.routeInbound`, `Tunnel.Dispatch.readerStep`,
  `Tunnel.Dispatch.failShard`, `Tunnel.Dispatch.removePending`, `Tunnel.Dispatch.recv`,
  `Tunnel.Dispatch.dropRx`;
* `Tunnel.Dispatch.WF` — the invariant of the map.

Main results:

* `Tunnel.Dispatch.WF.routeInbound` and its companions — **every operation keeps the invariant**;
* `Tunnel.Dispatch.view_routeInbound_self` and its companions — **what an operation does to one
  request**.
-/

import SparklRouter.Concurrency.ShardMap
import SparklRouter.Concurrency.TaskPool
import SparklRouter.Concurrency.Sync
import SparklRouter.Text.Hex

set_option relaxedAutoImplicit false
set_option autoImplicit false

namespace Tunnel

/-! ### Frames -/

abbrev Uuid := BitVec 128

/-- Inbound frames routed to a pending consumer request. -/
inductive InboundFrame
  /-- The headers are the members of the JSON object whose value is a string. -/
  | response (status : UInt16) (headers : List (Text × Text))
  | chunk (data : Text)
  | endFrame (status : UInt16)
  | error (code : UInt16) (message : Text)
  | activateResponse (apiKey : Text)
deriving DecidableEq

def isTerminalFrame : InboundFrame → Bool
  | .endFrame _ | .error _ _ | .activateResponse _ => true
  | _ => false

/-- The frame `fail_all_pending` sends. -/
def disconnected : InboundFrame := .error 502 "node disconnected".toList

/-- None of the frames is terminal. -/
def Plain (frames : List InboundFrame) : Prop := ∀ f ∈ frames, isTerminalFrame f = false

theorem plain_nil : Plain [] := fun _ h => by cases h

theorem Plain.append {fs gs : List InboundFrame} (h : Plain fs) (h' : Plain gs) :
    Plain (fs ++ gs) := by
  intro f hf
  rcases List.mem_append.1 hf with hf | hf
  · exact h f hf
  · exact h' f hf

theorem plain_singleton {f : InboundFrame} (h : isTerminalFrame f = false) : Plain [f] := by
  intro g hg
  obtain rfl := List.mem_singleton.1 hg
  exact h

/-- The first terminal frame of a list is where it is. -/
theorem first_terminal {as bs cs ds : List InboundFrame} {x y : InboundFrame} (ha : Plain as)
    (hc : Plain cs) (hx : isTerminalFrame x = true) (hy : isTerminalFrame y = true)
    (h : as ++ x :: bs = cs ++ y :: ds) : as = cs ∧ x = y ∧ bs = ds := by
  induction as generalizing cs with
  | nil =>
      cases cs with
      | nil =>
          obtain ⟨rfl, rfl⟩ := List.cons.inj h
          exact ⟨rfl, rfl, rfl⟩
      | cons c cs =>
          obtain ⟨rfl, -⟩ := List.cons.inj h
          rw [hc x List.mem_cons_self] at hx
          cases hx
  | cons a as ih =>
      cases cs with
      | nil =>
          obtain ⟨rfl, -⟩ := List.cons.inj h
          rw [ha a List.mem_cons_self] at hy
          cases hy
      | cons c cs =>
          obtain ⟨rfl, htail⟩ := List.cons.inj h
          have ha' : Plain as := fun f hf => ha f (List.mem_cons_of_mem _ hf)
          have hc' : Plain cs := fun f hf => hc f (List.mem_cons_of_mem _ hf)
          obtain ⟨rfl, hxy, hbd⟩ := ih ha' hc' htail
          exact ⟨rfl, hxy, hbd⟩

/-! ### The pending map -/

/-- The name of a request: its position among the requests ever registered on the tunnel. -/
abbrev LineId := ℕ

/-- A registered request: its id, its channel, and the frames routed to the id so far. -/
structure Line where
  rid : Uuid
  chan : Channel 256 InboundFrame
  routed : List InboundFrame

/-- The pending map of a tunnel, with the requests that were ever registered. -/
structure Dispatch where
  pending : ShardMap Uuid LineId
  lines : List Line

/-- Where the reader of the tunnel stands between two frames and within `route_inbound`. -/
inductive ReaderPc
  | idle
  /-- A frame did not go in; the entry is about to be removed. -/
  | overflowed (rid : Uuid)
  /-- The entry is removed; the terminal frame is about to be sent. -/
  | sending (line : LineId) (frame : InboundFrame)
  /-- The sender taken out of the map is about to be dropped. -/
  | dropping (line : LineId)
deriving DecidableEq

namespace Dispatch

def empty : Dispatch := ⟨ShardMap.empty, []⟩

/-- The channel of the request `l` changes. -/
def onChan (d : Dispatch) (l : LineId) (f : Channel 256 InboundFrame → Channel 256 InboundFrame) :
    Dispatch :=
  { d with lines := d.lines.modify l fun line => { line with chan := f line.chan } }

/-- A fresh channel under the id. -/
def registerPending (d : Dispatch) (rid : Uuid) : Dispatch :=
  ⟨d.pending.insert rid d.lines.length, d.lines ++ [⟨rid, Channel.new, []⟩]⟩

/-- `pending.remove(&rid)`, the removed sender dropped at once. -/
def removePending (d : Dispatch) (rid : Uuid) : Dispatch :=
  match d.pending.get rid with
  | some l => { d.onChan l Channel.dropSender with pending := d.pending.remove rid }
  | none => d

/-- The frame enters the history of the requests with the id. -/
def record (d : Dispatch) (rid : Uuid) (frame : InboundFrame) : Dispatch :=
  { d with lines := d.lines.map fun line =>
      if line.rid = rid then { line with routed := line.routed ++ [frame] } else line }

/-- The send of a frame that is not terminal, under the read lock of the entry. -/
def trySendTo (d : Dispatch) (l : LineId) (rid : Uuid) (frame : InboundFrame) :
    Dispatch × ReaderPc :=
  match d.lines[l]? with
  | some line =>
      let sent := line.chan.trySend frame
      (d.onChan l fun _ => sent.1, if sent.2 then .idle else .overflowed rid)
  | none => (d, .idle)

/-- `route_inbound` up to its first gap. -/
def routeInbound (d : Dispatch) (rid : Uuid) (frame : InboundFrame) : Dispatch × ReaderPc :=
  let d := d.record rid frame
  match d.pending.get rid with
  | none => (d, .idle)
  | some l =>
      if isTerminalFrame frame then
        ({ d with pending := d.pending.remove rid }, .sending l frame)
      else d.trySendTo l rid frame

/-- The rest of `route_inbound`, step by step. -/
def readerStep (d : Dispatch) : ReaderPc → Option (Dispatch × ReaderPc)
  | .idle => none
  | .overflowed rid => some (d.removePending rid, .idle)
  | .sending l frame => some (d.onChan l fun c => (c.trySend frame).1, .dropping l)
  | .dropping l => some (d.onChan l Channel.dropSender, .idle)

/-- One shard's part of `fail_all_pending`, under the shard's write lock. -/
def failShard (d : Dispatch) (shard : Uuid → ℕ) (i : ℕ) : Dispatch :=
  ⟨d.pending.retainShard shard i fun _ => false,
    d.lines.mapIdx fun l line =>
      if shard line.rid = i ∧ d.pending.get line.rid = some l then
        { line with chan := (line.chan.trySend disconnected).1.dropSender }
      else line⟩

/-- The receiver of the request `l` takes a frame, or the end of the stream. -/
def recv (d : Dispatch) (l : LineId) : Option (Option InboundFrame × Dispatch) :=
  (d.lines[l]?).bind fun line =>
    (line.chan.recv).map fun got => (got.1, d.onChan l fun _ => got.2)

/-- The receiver of a `PendingRequest` is dropped; its `PendingCleanup` follows, and removes the
entry of the id. -/
def dropRx (d : Dispatch) (l : LineId) : Dispatch := d.onChan l Channel.dropReceiver

/-! ### The invariant of the map -/

/-- An entry of the map is the request with that id, and ids are not used twice. -/
structure WF (d : Dispatch) : Prop where
  entry : ∀ rid l, d.pending.get rid = some l → ∃ line, d.lines[l]? = some line ∧ line.rid = rid
  unique : ∀ (l m : LineId) (line mine : Line), d.lines[l]? = some line → d.lines[m]? = some mine →
    line.rid = mine.rid → l = m

/-- No request has the id: what `Uuid::new_v4` promises of a new id. -/
def Fresh (d : Dispatch) (rid : Uuid) : Bool := d.lines.all fun line => decide (line.rid ≠ rid)

theorem wf_empty : WF empty where
  entry rid l h := by cases h
  unique l m line mine h := by simp [empty] at h

/-! An operation changes the requests without changing their ids, and the map by removing entries:
such a change keeps the invariant. -/

/-- The requests keep their ids. -/
def SameRids (d d' : Dispatch) : Prop :=
  ∀ l : LineId, (d'.lines[l]?).map Line.rid = (d.lines[l]?).map Line.rid

theorem SameRids.line {d d' : Dispatch} (h : SameRids d d') {l : LineId} {line : Line}
    (hl : d.lines[l]? = some line) : ∃ line', d'.lines[l]? = some line' ∧ line'.rid = line.rid := by
  have hmap := h l
  rw [hl] at hmap
  exact Option.map_eq_some_iff.1 hmap

theorem SameRids.refl (d : Dispatch) : SameRids d d := fun _ => rfl

theorem SameRids.trans {d d' d'' : Dispatch} (h : SameRids d d') (h' : SameRids d' d'') :
    SameRids d d'' := fun l => (h' l).trans (h l)

theorem SameRids.length {d d' : Dispatch} (h : SameRids d d') :
    d'.lines.length = d.lines.length := by
  have hnone : ∀ l : LineId, d'.lines[l]? = none ↔ d.lines[l]? = none := by
    intro l
    rw [← Option.map_eq_none_iff, h l, Option.map_eq_none_iff]
  have hle := (hnone d.lines.length).2 (List.getElem?_eq_none_iff.2 (Nat.le_refl _))
  have hge := (hnone d'.lines.length).1 (List.getElem?_eq_none_iff.2 (Nat.le_refl _))
  rw [List.getElem?_eq_none_iff] at hle hge
  exact Nat.le_antisymm hle hge

theorem WF.of_sameRids {d d' : Dispatch} (h : WF d) (hsame : SameRids d d')
    (hpending : ∀ rid l, d'.pending.get rid = some l → d.pending.get rid = some l) : WF d' := by
  constructor
  · intro rid l hget
    obtain ⟨line, hline, hrid⟩ := h.entry rid l (hpending rid l hget)
    obtain ⟨line', hline', hrid'⟩ := hsame.line hline
    exact ⟨line', hline', hrid'.trans hrid⟩
  · intro l m line mine hl hm hrid
    have hl' := hsame l
    have hm' := hsame m
    rw [hl, Option.map_some] at hl'
    rw [hm, Option.map_some] at hm'
    obtain ⟨line₀, hline₀, hr⟩ := Option.map_eq_some_iff.1 hl'.symm
    obtain ⟨mine₀, hmine₀, hs⟩ := Option.map_eq_some_iff.1 hm'.symm
    exact h.unique l m line₀ mine₀ hline₀ hmine₀ (by rw [hr, hs, hrid])

theorem getElem?_onChan (d : Dispatch) (l m : LineId)
    (f : Channel 256 InboundFrame → Channel 256 InboundFrame) :
    (d.onChan l f).lines[m]? =
      if l = m then (d.lines[m]?).map fun line => { line with chan := f line.chan }
      else d.lines[m]? := by
  rw [onChan, List.getElem?_modify]
  split
  · rfl
  · simp

theorem sameRids_onChan (d : Dispatch) (l : LineId)
    (f : Channel 256 InboundFrame → Channel 256 InboundFrame) : SameRids d (d.onChan l f) := by
  intro m
  rw [getElem?_onChan]
  split
  · rw [Option.map_map]
    rfl
  · rfl

theorem getElem?_record (d : Dispatch) (rid : Uuid) (frame : InboundFrame) (m : LineId) :
    (d.record rid frame).lines[m]? = (d.lines[m]?).map fun line =>
      if line.rid = rid then { line with routed := line.routed ++ [frame] } else line := by
  simp [record]

theorem sameRids_record (d : Dispatch) (rid : Uuid) (frame : InboundFrame) :
    SameRids d (d.record rid frame) := by
  intro m
  rw [getElem?_record, Option.map_map]
  congr 1
  funext line
  by_cases h : line.rid = rid
  · simp [h]
  · simp [h]

theorem getElem?_failShard (d : Dispatch) (shard : Uuid → ℕ) (i : ℕ) (m : LineId) :
    (d.failShard shard i).lines[m]? = (d.lines[m]?).map fun line =>
      if shard line.rid = i ∧ d.pending.get line.rid = some m then
        { line with chan := (line.chan.trySend disconnected).1.dropSender }
      else line := by
  simp [failShard, List.getElem?_mapIdx]

theorem sameRids_failShard (d : Dispatch) (shard : Uuid → ℕ) (i : ℕ) :
    SameRids d (d.failShard shard i) := by
  intro m
  rw [getElem?_failShard, Option.map_map]
  congr 1
  funext line
  simp only [Function.comp_apply]
  split <;> rfl

theorem sameRids_removePending (d : Dispatch) (rid : Uuid) : SameRids d (d.removePending rid) := by
  unfold removePending
  split
  · exact sameRids_onChan d _ _
  · exact SameRids.refl d

theorem sameRids_routeInbound (d : Dispatch) (rid : Uuid) (frame : InboundFrame) :
    SameRids d (d.routeInbound rid frame).1 := by
  have hrecord := sameRids_record d rid frame
  unfold routeInbound
  dsimp only
  split
  · exact hrecord
  · split
    · exact hrecord
    · unfold trySendTo
      split
      · exact hrecord.trans (sameRids_onChan _ _ _)
      · exact hrecord

theorem sameRids_readerStep {d d' : Dispatch} {pc pc' : ReaderPc}
    (h : d.readerStep pc = some (d', pc')) : SameRids d d' := by
  cases pc with
  | idle => cases h
  | overflowed rid =>
      obtain ⟨rfl, -⟩ := Prod.mk.inj (Option.some.inj h)
      exact sameRids_removePending d rid
  | sending l frame =>
      obtain ⟨rfl, -⟩ := Prod.mk.inj (Option.some.inj h)
      exact sameRids_onChan d _ _
  | dropping l =>
      obtain ⟨rfl, -⟩ := Prod.mk.inj (Option.some.inj h)
      exact sameRids_onChan d _ _

/-! ### The request the reader works for -/

/-- The reader works for a request that has been registered. -/
def Named (d : Dispatch) : ReaderPc → Prop
  | .idle => True
  | .overflowed rid => ∃ l : LineId, (d.lines[l]?).map Line.rid = some rid
  | .sending l _ | .dropping l => l < d.lines.length

theorem Named.of_sameRids {d d' : Dispatch} {pc : ReaderPc} (h : Named d pc)
    (hsame : SameRids d d') :
    Named d' pc := by
  cases pc with
  | idle => trivial
  | overflowed rid =>
      obtain ⟨l, hl⟩ := h
      exact ⟨l, (hsame l).trans hl⟩
  | sending l frame =>
      change l < d'.lines.length
      rw [hsame.length]
      exact h
  | dropping l =>
      change l < d'.lines.length
      rw [hsame.length]
      exact h

/-! ### Every operation keeps the invariant -/

section

variable {d : Dispatch}

theorem WF.onChan (h : WF d) (l : LineId)
    (f : Channel 256 InboundFrame → Channel 256 InboundFrame) : WF (d.onChan l f) :=
  h.of_sameRids (sameRids_onChan d l f) fun _ _ hget => hget

theorem WF.record (h : WF d) (rid : Uuid) (frame : InboundFrame) : WF (d.record rid frame) :=
  h.of_sameRids (sameRids_record d rid frame) fun _ _ hget => hget

theorem WF.remove (h : WF d) (rid : Uuid) : WF { d with pending := d.pending.remove rid } :=
  h.of_sameRids (fun _ => rfl) fun _ _ hget => (ShardMap.get_of_get_remove hget).2

theorem WF.failShard (h : WF d) (shard : Uuid → ℕ) (i : ℕ) : WF (d.failShard shard i) :=
  h.of_sameRids (sameRids_failShard d shard i) fun _ _ hget => ShardMap.get_of_get_retainShard hget

theorem WF.removePending (h : WF d) (rid : Uuid) : WF (d.removePending rid) := by
  unfold Dispatch.removePending
  split
  · rename_i l hget
    exact (h.onChan l _).remove rid
  · exact h

theorem WF.trySendTo (h : WF d) (l : LineId) (rid : Uuid) (frame : InboundFrame) :
    WF (d.trySendTo l rid frame).1 := by
  unfold Dispatch.trySendTo
  split
  · rename_i line hline
    exact h.onChan l fun _ => (line.chan.trySend frame).1
  · exact h

theorem WF.routeInbound (h : WF d) (rid : Uuid) (frame : InboundFrame) :
    WF (d.routeInbound rid frame).1 := by
  have hrecord := h.record rid frame
  unfold Dispatch.routeInbound
  dsimp only
  split
  · exact hrecord
  · split
    · exact hrecord.remove rid
    · exact hrecord.trySendTo _ rid frame

theorem WF.readerStep (h : WF d) {pc pc' : ReaderPc} {d' : Dispatch}
    (hstep : d.readerStep pc = some (d', pc')) : WF d' := by
  cases pc with
  | idle => cases hstep
  | overflowed rid =>
      obtain ⟨rfl, -⟩ := Prod.mk.inj (Option.some.inj hstep)
      exact h.removePending rid
  | sending l frame =>
      obtain ⟨rfl, -⟩ := Prod.mk.inj (Option.some.inj hstep)
      exact h.onChan l _
  | dropping l =>
      obtain ⟨rfl, -⟩ := Prod.mk.inj (Option.some.inj hstep)
      exact h.onChan l _

theorem sameRids_recv {got : Option InboundFrame} {l : LineId} {d' : Dispatch}
    (h : d.recv l = some (got, d')) : SameRids d d' := by
  obtain ⟨line, -, h⟩ := Option.bind_eq_some_iff.1 h
  obtain ⟨next, -, heq⟩ := Option.map_eq_some_iff.1 h
  obtain ⟨-, rfl⟩ := Prod.mk.inj heq
  exact sameRids_onChan d l _

theorem WF.recv (h : WF d) {got : Option InboundFrame} {l : LineId} {d' : Dispatch}
    (hrecv : d.recv l = some (got, d')) : WF d' := by
  obtain ⟨line, -, hrecv⟩ := Option.bind_eq_some_iff.1 hrecv
  obtain ⟨next, -, heq⟩ := Option.map_eq_some_iff.1 hrecv
  obtain ⟨-, rfl⟩ := Prod.mk.inj heq
  exact h.onChan l _

theorem WF.registerPending (h : WF d) {rid : Uuid} (hfresh : d.Fresh rid = true) :
    WF (d.registerPending rid) := by
  have hne : ∀ (l : LineId) (line : Line), d.lines[l]? = some line → line.rid ≠ rid := by
    intro l line hl
    have hall := List.all_eq_true.1 hfresh line (List.mem_of_getElem? hl)
    exact of_decide_eq_true hall
  constructor
  · intro r l hget
    rcases eq_or_ne r rid with rfl | hr
    · obtain rfl : d.lines.length = l := by simpa [Dispatch.registerPending] using hget
      exact ⟨⟨r, Channel.new, []⟩, by simp [Dispatch.registerPending], rfl⟩
    · rw [Dispatch.registerPending, ShardMap.get_insert_of_ne _ _ hr] at hget
      obtain ⟨line, hline, hrid⟩ := h.entry r l hget
      exact ⟨line, TaskPool.getElem?_append_of hline, hrid⟩
  · intro l m line mine hl hm hrid
    rcases TaskPool.getElem?_append_cases hl with ⟨rfl, rfl⟩ | hl
    · rcases TaskPool.getElem?_append_cases hm with ⟨rfl, rfl⟩ | hm
      · rfl
      · exact absurd hrid.symm (hne m mine hm)
    · rcases TaskPool.getElem?_append_cases hm with ⟨rfl, rfl⟩ | hm
      · exact absurd hrid (hne l line hl)
      · exact h.unique l m line mine hl hm hrid

end

/-! ### What an operation does to one request -/

/-- One request as the rest of the router sees it. -/
structure View where
  rid : Uuid
  registered : Bool
  chan : Channel 256 InboundFrame
  routed : List InboundFrame

/-- The request `l`: registered if the map holds it under its id. -/
def view (d : Dispatch) (l : LineId) : Option View :=
  (d.lines[l]?).map fun line =>
    ⟨line.rid, decide (d.pending.get line.rid = some l), line.chan, line.routed⟩

section

variable {d : Dispatch} {l : LineId} {v : View}

theorem view_eq_some (h : d.view l = some v) : ∃ line, d.lines[l]? = some line ∧
    v = ⟨line.rid, decide (d.pending.get line.rid = some l), line.chan, line.routed⟩ := by
  obtain ⟨line, hline, hv⟩ := Option.map_eq_some_iff.1 h
  exact ⟨line, hline, hv.symm⟩

/-- The map at the id of a request: the request itself if it is registered, and nothing else. -/
theorem pending_of_view (hwf : WF d) (h : d.view l = some v) :
    d.pending.get v.rid = if v.registered then some l else none := by
  obtain ⟨line, hline, rfl⟩ := view_eq_some h
  cases hget : d.pending.get line.rid with
  | none => simp
  | some m =>
      obtain ⟨mine, hmine, hrid⟩ := hwf.entry _ m hget
      obtain rfl := hwf.unique m l mine line hmine hline hrid
      simp

theorem view_onChan (h : d.view l = some v) (m : LineId)
    (f : Channel 256 InboundFrame → Channel 256 InboundFrame) :
    (d.onChan m f).view l = some (if m = l then { v with chan := f v.chan } else v) := by
  obtain ⟨line, hline, rfl⟩ := view_eq_some h
  rw [view, getElem?_onChan]
  split
  · simp only [hline, Option.map_some]
    rfl
  · simp only [hline, Option.map_some]
    rfl

theorem view_record (h : d.view l = some v) (rid : Uuid) (frame : InboundFrame) :
    (d.record rid frame).view l =
      some (if v.rid = rid then { v with routed := v.routed ++ [frame] } else v) := by
  obtain ⟨line, hline, rfl⟩ := view_eq_some h
  rw [view, getElem?_record, hline]
  by_cases hrid : line.rid = rid
  · simp only [Option.map_some, hrid, if_true]
    rfl
  · simp only [Option.map_some, hrid, if_false]
    rfl

theorem view_remove (h : d.view l = some v) (rid : Uuid) :
    ({ d with pending := d.pending.remove rid } : Dispatch).view l =
      some (if v.rid = rid then { v with registered := false } else v) := by
  obtain ⟨line, hline, rfl⟩ := view_eq_some h
  simp only [view, hline, Option.map_some, ShardMap.get_remove]
  by_cases hrid : line.rid = rid
  · simp [hrid]
  · simp [hrid]

theorem view_removePending (hwf : WF d) (h : d.view l = some v) (rid : Uuid) :
    (d.removePending rid).view l =
      some (if v.rid = rid ∧ v.registered = true then
        { v with registered := false, chan := v.chan.dropSender } else v) := by
  unfold removePending
  split
  · rename_i m hget
    refine (view_remove (view_onChan h m Channel.dropSender) rid).trans ?_
    by_cases hrid : v.rid = rid
    · have hentry := pending_of_view hwf h
      rw [hrid, hget] at hentry
      cases hreg : v.registered with
      | false => simp [hreg] at hentry
      | true =>
          obtain rfl : m = l := by simpa [hreg] using hentry
          simp [hrid]
    · have hml : m ≠ l := by
        rintro rfl
        obtain ⟨line, hline, rfl⟩ := view_eq_some h
        obtain ⟨mine, hmine, hmrid⟩ := hwf.entry rid m hget
        obtain rfl := Option.some.inj (hline.symm.trans hmine)
        exact hrid hmrid
      simp [hrid, hml]
  · rename_i hget
    rw [h]
    by_cases hrid : v.rid = rid
    · have hentry := pending_of_view hwf h
      rw [hrid, hget] at hentry
      have hreg : v.registered = false := by
        cases hreg : v.registered with
        | false => rfl
        | true => simp [hreg] at hentry
      simp [hreg]
    · simp [hrid]

/-! `route_inbound`, seen from one request: on its own id it acts on the view alone, and on another
id it neither changes the view nor gets the reader to work on the request. -/

/-- `route_inbound` on the request's own id, up to its first gap. -/
def View.route (l : LineId) (v : View) (frame : InboundFrame) : View × ReaderPc :=
  let v := { v with routed := v.routed ++ [frame] }
  if v.registered then
    if isTerminalFrame frame then ({ v with registered := false }, .sending l frame)
    else
      let sent := v.chan.trySend frame
      ({ v with chan := sent.1 }, if sent.2 then .idle else .overflowed v.rid)
  else (v, .idle)

/-- The rest of `route_inbound`, as far as it concerns the request. -/
def View.readerStep (l : LineId) (v : View) : ReaderPc → View × ReaderPc
  | .idle => (v, .idle)
  | .overflowed _ =>
      (if v.registered then { v with registered := false, chan := v.chan.dropSender } else v, .idle)
  | .sending _ frame => ({ v with chan := (v.chan.trySend frame).1 }, .dropping l)
  | .dropping _ => ({ v with chan := v.chan.dropSender }, .idle)

/-- The reader as far as it concerns the request `l` with the id `rid`. -/
def localTo (l : LineId) (rid : Uuid) : ReaderPc → ReaderPc
  | .idle => .idle
  | .overflowed r => if r = rid then .overflowed r else .idle
  | .sending m frame => if m = l then .sending m frame else .idle
  | .dropping m => if m = l then .dropping m else .idle

theorem view_routeInbound_self (hwf : WF d) (h : d.view l = some v) (frame : InboundFrame) :
    (d.routeInbound v.rid frame).1.view l = some (v.route l frame).1 ∧
      (d.routeInbound v.rid frame).2 = (v.route l frame).2 := by
  have hrecord := view_record h v.rid frame
  rw [if_pos rfl] at hrecord
  have hentry : d.pending.get v.rid = if v.registered then some l else none := pending_of_view hwf h
  have hget : (d.record v.rid frame).pending.get v.rid = if v.registered then some l else none :=
    hentry
  unfold routeInbound View.route
  cases hreg : v.registered with
  | false =>
      simp only [hget, hreg, Bool.false_eq_true, if_false]
      exact ⟨hreg ▸ hrecord, trivial⟩
  | true =>
      simp only [hget, hreg, if_true]
      cases hterm : isTerminalFrame frame with
      | true =>
          simp only [if_true]
          refine ⟨?_, trivial⟩
          have hremove := view_remove hrecord v.rid
          rw [if_pos rfl] at hremove
          exact hremove
      | false =>
          simp only [Bool.false_eq_true, if_false]
          obtain ⟨line, hline, hv⟩ := view_eq_some hrecord
          have hchan : line.chan = v.chan := congrArg View.chan hv.symm
          unfold trySendTo
          simp only [hline, hchan, and_true]
          have hset := view_onChan hrecord l fun _ => (v.chan.trySend frame).1
          rw [if_pos rfl] at hset
          exact hreg ▸ hset

theorem ne_of_entry (hwf : WF d) (h : d.view l = some v) {rid : Uuid} (hne : v.rid ≠ rid)
    {m : LineId}
    (hget : d.pending.get rid = some m) : m ≠ l := by
  rintro rfl
  obtain ⟨line, hline, rfl⟩ := view_eq_some h
  obtain ⟨mine, hmine, hrid⟩ := hwf.entry rid m hget
  obtain rfl := Option.some.inj (hline.symm.trans hmine)
  exact hne hrid

theorem view_routeInbound_other (hwf : WF d) (h : d.view l = some v) {rid : Uuid}
    (hne : v.rid ≠ rid) (frame : InboundFrame) :
    (d.routeInbound rid frame).1.view l = some v ∧
      localTo l v.rid (d.routeInbound rid frame).2 = .idle := by
  have hrecord := view_record h rid frame
  rw [if_neg hne] at hrecord
  unfold routeInbound
  dsimp only
  cases hget : (d.record rid frame).pending.get rid with
  | none => exact ⟨hrecord, rfl⟩
  | some m =>
      have hml : m ≠ l := ne_of_entry hwf h hne hget
      cases hterm : isTerminalFrame frame with
      | true =>
          have hremove := view_remove hrecord rid
          rw [if_neg hne] at hremove
          exact ⟨hremove, if_neg hml⟩
      | false =>
          simp only [Bool.false_eq_true, if_false, trySendTo]
          cases hline : (d.record rid frame).lines[m]? with
          | none => exact ⟨hrecord, rfl⟩
          | some line =>
              have hset := view_onChan hrecord m fun _ => (line.chan.trySend frame).1
              rw [if_neg hml] at hset
              refine ⟨hset, ?_⟩
              dsimp only
              split
              · rfl
              · exact if_neg (Ne.symm hne)

theorem view_readerStep (hwf : WF d) (h : d.view l = some v) {pc pc' : ReaderPc} {d' : Dispatch}
    (hstep : d.readerStep pc = some (d', pc')) :
    d'.view l = some (v.readerStep l (localTo l v.rid pc)).1 ∧
      localTo l v.rid pc' = (v.readerStep l (localTo l v.rid pc)).2 := by
  cases pc with
  | idle => cases hstep
  | overflowed rid =>
      obtain ⟨rfl, rfl⟩ := Prod.mk.inj (Option.some.inj hstep)
      have hview := view_removePending hwf h rid
      by_cases hrid : v.rid = rid
      · subst hrid
        simp only [localTo, if_true, View.readerStep, true_and] at hview ⊢
        exact ⟨hview, trivial⟩
      · rw [if_neg fun hand => hrid hand.1] at hview
        simp only [localTo, if_neg (Ne.symm hrid), View.readerStep]
        exact ⟨hview, trivial⟩
  | sending m frame =>
      obtain ⟨rfl, rfl⟩ := Prod.mk.inj (Option.some.inj hstep)
      have hview := view_onChan h m fun c => (c.trySend frame).1
      by_cases hml : m = l
      · subst hml
        simp only [localTo, if_true, View.readerStep] at hview ⊢
        exact ⟨hview, trivial⟩
      · simp only [localTo, if_neg hml, View.readerStep] at hview ⊢
        exact ⟨hview, trivial⟩
  | dropping m =>
      obtain ⟨rfl, rfl⟩ := Prod.mk.inj (Option.some.inj hstep)
      have hview := view_onChan h m Channel.dropSender
      by_cases hml : m = l
      · subst hml
        simp only [localTo, if_true, View.readerStep] at hview ⊢
        exact ⟨hview, trivial⟩
      · simp only [localTo, if_neg hml, View.readerStep] at hview ⊢
        exact ⟨hview, trivial⟩

/-- The id of a request does not change. -/
theorem rid_route (l : LineId) (v : View) (frame : InboundFrame) :
    (v.route l frame).1.rid = v.rid := by
  unfold View.route
  dsimp only
  split
  · split
    · rfl
    · rfl
  · rfl

theorem rid_readerStep (l : LineId) (v : View) (r : ReaderPc) :
    (v.readerStep l r).1.rid = v.rid := by
  cases r with
  | overflowed rid =>
      simp only [View.readerStep]
      split
      · rfl
      · rfl
  | _ => rfl

/-- What the reader does adds at most a frame to what was routed. -/
theorem routed_route (l : LineId) (v : View) (frame : InboundFrame) :
    (v.route l frame).1.routed = v.routed ++ [frame] := by
  unfold View.route
  dsimp only
  split
  · split
    · rfl
    · rfl
  · rfl

theorem routed_readerStep (l : LineId) (v : View) (r : ReaderPc) :
    (v.readerStep l r).1.routed = v.routed := by
  cases r with
  | overflowed rid =>
      simp only [View.readerStep]
      split
      · rfl
      · rfl
  | _ => rfl

/-- The reader works for the request it has been given a frame for. -/
theorem localTo_route (l : LineId) (v : View) (frame : InboundFrame) :
    localTo l v.rid (v.route l frame).2 = (v.route l frame).2 := by
  unfold View.route
  dsimp only
  split
  · split
    · exact if_pos rfl
    · split
      · rfl
      · exact if_pos rfl
  · rfl

theorem eq_of_localTo_eq_sending {l : LineId} {rid : Uuid} {r : ReaderPc} {frame : InboundFrame}
    (h : localTo l rid r = .sending l frame) : r = .sending l frame := by
  cases r with
  | idle => cases h
  | overflowed r =>
      simp only [localTo] at h
      split at h
      · cases h
      · cases h
  | sending m f =>
      simp only [localTo] at h
      split at h
      · exact h
      · cases h
  | dropping m =>
      simp only [localTo] at h
      split at h
      · cases h
      · cases h

theorem view_failShard (h : d.view l = some v) (shard : Uuid → ℕ) (i : ℕ) :
    (d.failShard shard i).view l =
      some (if shard v.rid = i ∧ v.registered = true then
        { v with registered := false, chan := (v.chan.trySend disconnected).1.dropSender }
      else v) := by
  obtain ⟨line, hline, rfl⟩ := view_eq_some h
  simp only [view, getElem?_failShard, hline, Option.map_some, decide_eq_true_eq]
  by_cases hfail : shard line.rid = i ∧ d.pending.get line.rid = some l
  · simp [hfail.1, hfail.2, failShard, ShardMap.get_retainShard]
  · rw [if_neg hfail, if_neg hfail]
    by_cases hshard : shard line.rid = i
    · have hget : ¬ d.pending.get line.rid = some l := fun hget => hfail ⟨hshard, hget⟩
      simp [failShard, ShardMap.get_retainShard, hshard, hget]
    · simp [failShard, ShardMap.get_retainShard, hshard]

/-- A receive, seen from a request: its own channel loses a frame, or nothing happens to it. -/
theorem view_recv (h : d.view l = some v) {got : Option InboundFrame} {m : LineId} {d' : Dispatch}
    (hrecv : d.recv m = some (got, d')) :
    (m = l ∧ ∃ chan, v.chan.recv = some (got, chan) ∧ d'.view l = some { v with chan := chan }) ∨
      (m ≠ l ∧ d'.view l = some v) := by
  obtain ⟨line, hline, hrecv⟩ := Option.bind_eq_some_iff.1 hrecv
  obtain ⟨⟨got', chan⟩, hnext, heq⟩ := Option.map_eq_some_iff.1 hrecv
  obtain ⟨rfl, rfl⟩ := Prod.mk.inj heq
  have hview := view_onChan h m fun _ => chan
  by_cases hml : m = l
  · subst hml
    rw [if_pos rfl] at hview
    obtain ⟨line', hline', hv⟩ := view_eq_some h
    obtain rfl := Option.some.inj (hline.symm.trans hline')
    have hchan : line.chan = v.chan := congrArg View.chan hv.symm
    rw [hchan] at hnext
    exact Or.inl ⟨rfl, chan, hnext, hview⟩
  · rw [if_neg hml] at hview
    exact Or.inr ⟨hml, hview⟩

theorem view_registerPending (h : d.view l = some v) {rid : Uuid} (hfresh : d.Fresh rid = true) :
    (d.registerPending rid).view l = some v := by
  obtain ⟨line, hline, rfl⟩ := view_eq_some h
  have hne : line.rid ≠ rid :=
    of_decide_eq_true (List.all_eq_true.1 hfresh line (List.mem_of_getElem? hline))
  have happend : (d.lines ++ [⟨rid, Channel.new, []⟩])[l]? = some line :=
    TaskPool.getElem?_append_of hline
  simp only [view, registerPending, happend, Option.map_some,
    ShardMap.get_insert_of_ne _ _ hne]

theorem view_registerPending_self (d : Dispatch) (rid : Uuid) :
    (d.registerPending rid).view d.lines.length = some ⟨rid, true, Channel.new, []⟩ := by
  simp [view, registerPending]

end

/-! ### The reader works for a registered request -/

/-- After `route_inbound` the reader works, if at all, for the request in the map. -/
theorem named_routeInbound {d : Dispatch} (h : d.WF) (rid : Uuid) (frame : InboundFrame) :
    Named (d.routeInbound rid frame).1 (d.routeInbound rid frame).2 := by
  refine Named.of_sameRids ?_ (sameRids_routeInbound d rid frame)
  unfold Dispatch.routeInbound
  dsimp only
  split
  · trivial
  · rename_i l hget
    obtain ⟨line, hline, hrid⟩ := h.entry rid l hget
    have hlt : l < d.lines.length := (List.getElem?_eq_some_iff.1 hline).1
    split
    · exact hlt
    · unfold Dispatch.trySendTo
      split
      · dsimp only
        split
        · trivial
        · exact ⟨l, by rw [hline, Option.map_some, hrid]⟩
      · trivial

theorem named_readerStep {d d' : Dispatch} {pc pc' : ReaderPc} (h : Named d pc)
    (hstep : d.readerStep pc = some (d', pc')) : Named d' pc' := by
  refine Named.of_sameRids ?_ (sameRids_readerStep hstep)
  cases pc with
  | idle => cases hstep
  | overflowed rid =>
      obtain ⟨-, rfl⟩ := Prod.mk.inj (Option.some.inj hstep)
      trivial
  | sending l frame =>
      obtain ⟨-, rfl⟩ := Prod.mk.inj (Option.some.inj hstep)
      exact h
  | dropping l =>
      obtain ⟨-, rfl⟩ := Prod.mk.inj (Option.some.inj hstep)
      trivial

theorem named_registerPending {d : Dispatch} {pc : ReaderPc} (h : Named d pc) (rid : Uuid) :
    Named (d.registerPending rid) pc := by
  cases pc with
  | idle => trivial
  | overflowed r =>
      obtain ⟨l, hl⟩ := h
      obtain ⟨line, hline, hr⟩ := Option.map_eq_some_iff.1 hl
      exact ⟨l, by rw [registerPending, TaskPool.getElem?_append_of hline, Option.map_some, hr]⟩
  | sending l frame =>
      simp only [Named, registerPending, List.length_append] at h ⊢
      exact Nat.lt_add_right _ h
  | dropping l =>
      simp only [Named, registerPending, List.length_append] at h ⊢
      exact Nat.lt_add_right _ h

/-- The reader does not work for a request before it is registered. -/
theorem localTo_of_fresh {d : Dispatch} {pc : ReaderPc} (h : Named d pc) {rid : Uuid}
    (hfresh : d.Fresh rid = true) : localTo d.lines.length rid pc = .idle := by
  cases pc with
  | idle => rfl
  | overflowed r =>
      obtain ⟨l, hl⟩ := h
      obtain ⟨line, hline, rfl⟩ := Option.map_eq_some_iff.1 hl
      exact if_neg (of_decide_eq_true (List.all_eq_true.1 hfresh line (List.mem_of_getElem? hline)))
  | sending l frame => exact if_neg (Nat.ne_of_lt h)
  | dropping l => exact if_neg (Nat.ne_of_lt h)

end Dispatch

end Tunnel
