/-
**The pending map against the requests that are alive.**

`NodeTunnel::pending` is the count of requests in flight that the router reports, so an entry has to
stay while its request does, and to go when its request is over.  It is put in by
`register_pending`, and taken out by whoever comes first: the first terminal frame, a frame that
finds the channel full or its receiver gone, `fail_all_pending`, or the drop of the
`PendingRequest`, whose `PendingCleanup` removes the entry of its id.  This module lets any number
of these calls run at the same time, each cut where another can step in between, and follows beside
the program what has happened to each request since its registration.

A frame that finds a channel full leaves the entry in the map, and a later step of the same call
removes it; while that step is outstanding the map holds a request that is over.  The invariant
therefore says of such an entry that some `route_inbound` owes its removal, and the map is exact as
soon as nobody is half-way.

Main definitions:

* `PendingMap.State`, `PendingMap.step` — the tunnel with the calls in progress on it;
* `PendingMap.Request.live` — the guard is there and nothing has ended the request;
* `PendingMap.Accounted` — the entry of a request against what has happened to it.

Main results:

* `PendingMap.inv_step` — **every step keeps every entry accounted for**;
* `PendingMap.matchesLive_of_run` — **in every run, the map holds exactly the live requests whenever
  no call is half-way**, and the drop of a request touches its own entry only.
-/

import Mathlib.Data.Finset.Card
import SparklRouter.Concurrency.Transition
import SparklRouter.Tunnel.Dispatch

set_option relaxedAutoImplicit false
set_option autoImplicit false

namespace PendingMap

open Tunnel Tunnel.Dispatch Transition

/-! ### The tunnel and the calls in progress -/

/-- How far a `PendingRequest` is.  Its receiver is dropped before its cleanup. -/
inductive Guard
  /-- The entry is inserted; the `PendingRequest` is about to be built. -/
  | building
  | alive
  | rxDropped
  | dropped
deriving DecidableEq

/-- A request, with what has happened to it since its registration. -/
structure Request where
  rid : Uuid
  guard : Guard
  /-- A terminal frame was routed to it. -/
  terminal : Bool
  /-- A frame was routed to it that found its channel full or closed. -/
  refused : Bool
  /-- A `fail_all_pending` has run over its shard. -/
  failed : Bool
  /-- How many `fail_all_pending` had begun when it was registered. -/
  since : ℕ
deriving DecidableEq

/-- The guard is there, and nothing has ended the request. -/
def Request.live (q : Request) : Bool :=
  decide (q.guard ≠ .dropped) && !q.terminal && !q.refused && !q.failed

structure State where
  dispatch : Dispatch
  /-- The calls of `route_inbound`, in the order in which they began. -/
  routing : List ReaderPc
  /-- The shard each `fail_all_pending` locks next, in the order in which they began. -/
  failing : List ℕ
  /-- The requests, in the order of their registration. -/
  requests : List Request

def init : State := ⟨Dispatch.empty, [], [], []⟩

/-- What the scheduler can do. -/
inductive Action
  | registerPending (rid : Uuid)
  /-- The `PendingRequest` is built and returned. -/
  | build (l : LineId)
  | routeInbound (rid : Uuid) (frame : InboundFrame)
  /-- A `route_inbound` goes on. -/
  | route (i : ℕ)
  | failAllPending
  /-- A `fail_all_pending` goes on. -/
  | failShard (i : ℕ)
  | recv (l : LineId)
  /-- A `PendingRequest` is dropped: its receiver, and then its cleanup. -/
  | dropRx (l : LineId)
  | dropCleanup (l : LineId)
deriving DecidableEq

/-- The channel of the id is full, or its receiver is gone. -/
def refuses (d : Dispatch) (rid : Uuid) : Bool :=
  ((d.pending.get rid).bind fun l => d.lines[l]?).any fun line => !line.chan.accepts

/-- What a frame routed to a request does to its history. -/
def Request.routed (q : Request) (refused : Bool) (frame : InboundFrame) : Request :=
  if isTerminalFrame frame then { q with terminal := true }
  else { q with refused := q.refused || refused }

/-- **The transition function of the tunnel.** -/
def step (uuids : Sharding Uuid) (s : State) : Action → Option State
  | .registerPending rid =>
      if s.dispatch.Fresh rid then
        some { s with
          dispatch := s.dispatch.registerPending rid
          requests := s.requests ++ [⟨rid, .building, false, false, false, s.failing.length⟩] }
      else none
  | .build l =>
      (s.requests[l]?).bind fun q =>
        if q.guard = .building then
          some { s with requests := s.requests.set l { q with guard := .alive } }
        else none
  | .routeInbound rid frame =>
      let next := s.dispatch.routeInbound rid frame
      some { s with
        dispatch := next.1
        routing := s.routing ++ [next.2]
        requests := s.requests.map fun q =>
          if q.rid = rid then q.routed (refuses s.dispatch rid) frame else q }
  | .route i =>
      (s.routing[i]?).bind fun pc =>
        (s.dispatch.readerStep pc).map fun next =>
          { s with dispatch := next.1, routing := s.routing.set i next.2 }
  | .failAllPending => some { s with failing := s.failing ++ [0] }
  | .failShard i =>
      (s.failing[i]?).bind fun shard =>
        if shard < uuids.shards then
          some { s with
            dispatch := s.dispatch.failShard uuids.shard shard
            failing := s.failing.set i (shard + 1)
            requests := s.requests.map fun q =>
              if uuids.shard q.rid = shard then { q with failed := true } else q }
        else none
  | .recv l =>
      (s.requests[l]?).bind fun q =>
        if q.guard = .alive then
          (s.dispatch.recv l).map fun got => { s with dispatch := got.2 }
        else none
  | .dropRx l =>
      (s.requests[l]?).bind fun q =>
        if q.guard = .alive then
          some { s with
            dispatch := s.dispatch.dropRx l
            requests := s.requests.set l { q with guard := .rxDropped } }
        else none
  | .dropCleanup l =>
      (s.requests[l]?).bind fun q =>
        if q.guard = .rxDropped then
          some { s with
            dispatch := s.dispatch.removePending q.rid
            requests := s.requests.set l { q with guard := .dropped } }
        else none

/-- `in_flight_count`. -/
def inFlightCount (s : State) : ℕ := s.dispatch.pending.keys.card

/-! ### What the map is compared with -/

/-- No call is half-way. -/
structure Quiet (uuids : Sharding Uuid) (s : State) : Prop where
  routing : ∀ pc ∈ s.routing, pc = .idle
  failing : ∀ k ∈ s.failing, uuids.shards ≤ k
  guards : ∀ q ∈ s.requests, q.guard = .alive ∨ q.guard = .dropped

/-- The map holds the live requests and no others, as many as `in_flight_count` says; and a
`fail_all_pending` that began after the registration of a request has run over it. -/
structure MatchesLive (s : State) : Prop where
  entries : ∀ rid, rid ∈ s.dispatch.pending.keys ↔ ∃ q ∈ s.requests, q.rid = rid ∧ q.live = true
  count : inFlightCount s = (s.requests.filter Request.live).length
  failed : ∀ q ∈ s.requests, q.since < s.failing.length → q.failed = true

/-- The drop of a request leaves the entries of the other ids alone. -/
def DropsOwn (uuids : Sharding Uuid) (s : State) : Prop :=
  ∀ (l : LineId) (q : Request) (act : Action) (s' : State), s.requests[l]? = some q →
    act = .dropRx l ∨ act = .dropCleanup l → step uuids s act = some s' →
      ∀ rid, rid ≠ q.rid → s'.dispatch.pending.get rid = s.dispatch.pending.get rid

/-! ### The invariant -/

/-- **The entry of a request against what has happened to it.**  A request out of the map is over.
One in the map has its guard, and neither a terminal frame nor a `fail_all_pending` has reached it;
if a frame has found its channel full, a `route_inbound` is about to remove it. -/
structure Accounted (uuids : Sharding Uuid) (routing : List ReaderPc) (failing : List ℕ) (v : View)
    (q : Request) : Prop where
  rid : q.rid = v.rid
  gone : v.registered = false → q.live = false
  held : v.registered = true → q.guard ≠ .dropped ∧ q.terminal = false ∧ q.failed = false
  owed : v.registered = true → q.refused = true → .overflowed v.rid ∈ routing
  told : .overflowed v.rid ∈ routing → q.refused = true
  failed : ∀ i k, q.since ≤ i → failing[i]? = some k → uuids.shard v.rid < k → q.failed = true

/-- Every request has its line, and is accounted for; the calls work for requests that exist. -/
structure Inv (uuids : Sharding Uuid) (s : State) : Prop where
  dispatch : s.dispatch.WF
  length : s.requests.length = s.dispatch.lines.length
  named : ∀ pc ∈ s.routing, Named s.dispatch pc
  here : ∀ (l : LineId) (v : View) (q : Request), s.dispatch.view l = some v →
    s.requests[l]? = some q → Accounted uuids s.routing s.failing v q

theorem inv_init (uuids : Sharding Uuid) : Inv uuids init where
  dispatch := wf_empty
  length := rfl
  named pc h := by cases h
  here l v q _ h := by simp [init] at h

section

variable {uuids : Sharding Uuid} {calls : List ReaderPc} {passes : List ℕ} {v : View} {q : Request}

/-- With no removal outstanding, the map holds the request exactly while it is live. -/
theorem Accounted.registered_iff (h : Accounted uuids calls passes v q)
    (hnone : .overflowed v.rid ∉ calls) : v.registered = true ↔ q.live = true := by
  constructor
  · intro hregistered
    obtain ⟨hguard, hterminal, hfailed⟩ := h.held hregistered
    have hrefused : q.refused = false := by
      cases hrefused : q.refused with
      | false => rfl
      | true => exact absurd (h.owed hregistered hrefused) hnone
    simp [Request.live, hguard, hterminal, hfailed, hrefused]
  · intro hlive
    cases hregistered : v.registered with
    | true => rfl
    | false =>
        rw [h.gone hregistered] at hlive
        cases hlive

/-- Of the view, only the id and whether the map holds the request matter. -/
theorem Accounted.view {v' : View} (h : Accounted uuids calls passes v q) (hrid : v'.rid = v.rid)
    (hregistered : v'.registered = v.registered) : Accounted uuids calls passes v' q := by
  obtain ⟨rid, registered, chan, routed⟩ := v
  obtain ⟨rid', registered', chan', routed'⟩ := v'
  obtain rfl : rid' = rid := hrid
  obtain rfl : registered' = registered := hregistered
  exact ⟨h.rid, h.gone, h.held, h.owed, h.told, h.failed⟩

/-- Nobody owes the removal of a request that is not in the map. -/
theorem Accounted.settled {calls' : List ReaderPc} (h : Accounted uuids calls passes v q)
    (hregistered : v.registered = false)
    (htold : .overflowed v.rid ∈ calls' → .overflowed v.rid ∈ calls) :
    Accounted uuids calls' passes v q where
  rid := h.rid
  gone := h.gone
  held := h.held
  owed h := by simp [hregistered] at h
  told howed := h.told (htold howed)
  failed := h.failed

/-- The map does not hold a request that is over. -/
theorem Accounted.out {v' : View} {q' : Request} (h : Accounted uuids calls passes v q)
    (hrid : v'.rid = v.rid) (hregistered : v'.registered = false) (hq : q'.rid = q.rid)
    (hlive : q'.live = false) (hrefused : q'.refused = q.refused)
    (hfailed : q'.failed = q.failed) (hsince : q'.since = q.since) :
    Accounted uuids calls passes v' q' where
  rid := hq.trans (h.rid.trans hrid.symm)
  gone _ := hlive
  held h := by simp [hregistered] at h
  owed h := by simp [hregistered] at h
  told howed := hrefused.trans (h.told (hrid ▸ howed))
  failed i k hi hk hlt := hfailed.trans (h.failed i k (hsince ▸ hi) hk (hrid ▸ hlt))

/-- The calls that owe a removal of this request are the same. -/
theorem Accounted.routing {calls' : List ReaderPc} (h : Accounted uuids calls passes v q)
    (hsame : .overflowed v.rid ∈ calls' ↔ .overflowed v.rid ∈ calls) :
    Accounted uuids calls' passes v q where
  rid := h.rid
  gone := h.gone
  held := h.held
  owed hregistered hrefused := hsame.2 (h.owed hregistered hrefused)
  told howed := h.told (hsame.1 howed)
  failed := h.failed

/-- The guard moves on, and is not dropped yet. -/
theorem Accounted.guard {g : Guard} (h : Accounted uuids calls passes v q)
    (hq : q.guard ≠ .dropped) (hg : g ≠ .dropped) :
    Accounted uuids calls passes v { q with guard := g } where
  rid := h.rid
  gone hregistered := by
    have hlive := h.gone hregistered
    simp only [Request.live, hq, hg, ne_eq, not_false_eq_true, decide_true] at hlive ⊢
    exact hlive
  held hregistered := ⟨hg, (h.held hregistered).2⟩
  owed := h.owed
  told := h.told
  failed := h.failed

/-- The guard is dropped, and the entry with it. -/
theorem Accounted.drop (h : Accounted uuids calls passes v q) :
    Accounted uuids calls passes
      (if v.registered = true then { v with registered := false, chan := v.chan.dropSender } else v)
      { q with guard := .dropped } := by
  have hlive : ({ q with guard := .dropped } : Request).live = false := by simp [Request.live]
  cases hregistered : v.registered with
  | true =>
      rw [if_pos rfl]
      exact h.out rfl rfl rfl hlive rfl rfl rfl
  | false =>
      rw [if_neg Bool.false_ne_true]
      exact h.out rfl hregistered rfl hlive rfl rfl rfl

/-- A call that is not about to remove this request. -/
theorem Accounted.append {pc : ReaderPc} (h : Accounted uuids calls passes v q)
    (hpc : pc ≠ .overflowed v.rid) : Accounted uuids (calls ++ [pc]) passes v q := by
  refine h.routing ⟨fun hmem => ?_, List.mem_append_left _⟩
  rcases List.mem_append.1 hmem with hmem | hmem
  · exact hmem
  · exact absurd (List.mem_singleton.1 hmem).symm hpc

/-- A frame is routed to the request. -/
theorem Accounted.route (h : Accounted uuids calls passes v q) (l : LineId)
    (frame : InboundFrame) :
    Accounted uuids (calls ++ [(v.route l frame).2]) passes (v.route l frame).1
      (q.routed (v.registered && !v.chan.accepts) frame) := by
  have hidle : Accounted uuids (calls ++ [ReaderPc.idle]) passes v q := h.append fun h => by cases h
  unfold View.route Request.routed
  dsimp only
  cases hregistered : v.registered with
  | false =>
      simp only [Bool.false_eq_true, if_false, Bool.false_and, Bool.or_false]
      split
      · refine hidle.out rfl rfl rfl ?_ rfl rfl rfl
        simp [Request.live]
      · exact hidle.view rfl hregistered.symm
  | true =>
      simp only [if_true, Bool.true_and]
      cases hterminal : isTerminalFrame frame with
      | true =>
          -- the entry is gone, and the call holds its sender
          simp only [if_true]
          refine (h.append fun h => by cases h).out rfl rfl rfl ?_ rfl rfl rfl
          simp [Request.live]
      | false =>
          simp only [Bool.false_eq_true, if_false]
          cases haccepts : v.chan.accepts with
          | true =>
              obtain ⟨chan, hsent, -, -, -⟩ := Channel.trySend_of_accepts haccepts frame
              simp only [hsent, if_true, Bool.not_true, Bool.or_false]
              exact hidle.view rfl hregistered.symm
          | false =>
              -- the frame is lost, and the call owes the removal
              have hsent := Channel.trySend_of_not_accepts haccepts frame
              simp only [hsent, Bool.false_eq_true, if_false, Bool.not_false, Bool.or_true]
              exact ⟨h.rid, fun h => (by cases h), fun _ => h.held hregistered,
                fun _ _ => (by simp), fun _ => rfl, h.failed⟩

/-- A call that goes on keeps what the other calls owe. -/
theorem mem_set_of_ne {i : ℕ} {pc owed : ReaderPc} (hpc : calls[i]? = some pc) (hne : pc ≠ owed)
    (pc' : ReaderPc) (hmem : owed ∈ calls) : owed ∈ calls.set i pc' := by
  obtain ⟨j, hj⟩ := List.mem_iff_getElem?.1 hmem
  have hij : i ≠ j := by
    rintro rfl
    exact hne (Option.some.inj (hpc.symm.trans hj))
  refine List.mem_of_getElem? (i := j) ?_
  rw [List.getElem?_set_ne hij, hj]

/-- A `route_inbound` goes on: it removes the request, or it owes nothing of it. -/
theorem Accounted.reader {i : ℕ} {pc pc' : ReaderPc} (h : Accounted uuids calls passes v q)
    (l : LineId) (hpc : calls[i]? = some pc) (hpc' : ∀ rid, pc' ≠ .overflowed rid) :
    Accounted uuids (calls.set i pc') passes (v.readerStep l (localTo l v.rid pc)).1 q := by
  have htold : .overflowed v.rid ∈ calls.set i pc' → .overflowed v.rid ∈ calls := by
    intro hmem
    rcases List.mem_or_eq_of_mem_set hmem with hmem | heq
    · exact hmem
    · exact absurd heq.symm (hpc' v.rid)
  by_cases howes : pc = .overflowed v.rid
  · -- this is a call that owes the removal
    subst howes
    have hrefused := h.told (List.mem_of_getElem? hpc)
    have hlive : q.live = false := by simp [Request.live, hrefused]
    simp only [localTo, if_true, View.readerStep]
    cases hregistered : v.registered with
    | true =>
        rw [if_pos rfl]
        have hout : Accounted uuids calls passes
            { v with registered := false, chan := v.chan.dropSender } q :=
          h.out rfl rfl rfl hlive rfl rfl rfl
        exact hout.settled rfl htold
    | false =>
        rw [if_neg Bool.false_ne_true]
        exact h.settled hregistered htold
  · have hkept := h.routing ⟨htold, mem_set_of_ne hpc howes pc'⟩
    refine hkept.view (rid_readerStep ..) ?_
    cases pc with
    | overflowed rid =>
        have hrid : rid ≠ v.rid := fun hrid => howes (hrid ▸ rfl)
        simp only [localTo, if_neg hrid, View.readerStep]
    | idle => rfl
    | sending m frame =>
        simp only [localTo]
        split <;> rfl
    | dropping m =>
        simp only [localTo]
        split <;> rfl

/-- A `fail_all_pending` takes the shard `k`. -/
theorem Accounted.fail {i k : ℕ} (h : Accounted uuids calls passes v q)
    (hpass : passes[i]? = some k) :
    Accounted uuids calls (passes.set i (k + 1))
      (if uuids.shard v.rid = k ∧ v.registered = true then
        { v with registered := false, chan := (v.chan.trySend disconnected).1.dropSender } else v)
      (if uuids.shard q.rid = k then { q with failed := true } else q) := by
  -- what the pass has behind it is the shard `k` and what it had before
  have hbehind : ∀ j m : ℕ, (passes.set i (k + 1))[j]? = some m → uuids.shard v.rid < m →
      uuids.shard v.rid ≠ k → ∃ m', passes[j]? = some m' ∧ uuids.shard v.rid < m' := by
    intro j m hm hlt hne
    rcases TaskPool.getElem?_set_cases hm with ⟨rfl, rfl⟩ | ⟨-, hold⟩
    · exact ⟨k, hpass, by omega⟩
    · exact ⟨m, hold, hlt⟩
  have hshard : uuids.shard q.rid = uuids.shard v.rid := by rw [h.rid]
  rw [hshard]
  by_cases hk : uuids.shard v.rid = k
  · rw [if_pos hk]
    have hlive : ({ q with failed := true } : Request).live = false := by simp [Request.live]
    cases hregistered : v.registered with
    | true =>
        rw [if_pos ⟨hk, rfl⟩]
        exact ⟨h.rid, fun _ => hlive, fun h => (by cases h), fun h => (by cases h), h.told,
          fun _ _ _ _ _ => rfl⟩
    | false =>
        rw [if_neg fun hand => Bool.false_ne_true hand.2]
        exact ⟨h.rid, fun _ => hlive, fun h => (by simp [hregistered] at h),
          fun h => (by simp [hregistered] at h), h.told, fun _ _ _ _ _ => rfl⟩
  · rw [if_neg hk, if_neg fun hand => hk hand.1]
    refine ⟨h.rid, h.gone, h.held, h.owed, h.told, fun j m hj hm hlt => ?_⟩
    obtain ⟨m', hm', hlt'⟩ := hbehind j m hm hlt hk
    exact h.failed j m' hj hm' hlt'

/-- A `fail_all_pending` begins. -/
theorem Accounted.failAll (h : Accounted uuids calls passes v q) :
    Accounted uuids calls (passes ++ [0]) v q := by
  refine ⟨h.rid, h.gone, h.held, h.owed, h.told, fun j m hj hm hlt => ?_⟩
  rcases TaskPool.getElem?_append_cases hm with ⟨-, rfl⟩ | hold
  · cases hlt
  · exact h.failed j m hj hold hlt

end

/-! ### A step keeps every entry accounted for -/

section

variable {uuids : Sharding Uuid} {s s' : State}

theorem Inv.exists_view (h : Inv uuids s) {l : LineId} {q : Request}
    (hq : s.requests[l]? = some q) :
    ∃ v, s.dispatch.view l = some v ∧ Accounted uuids s.routing s.failing v q := by
  have hlt : l < s.dispatch.lines.length := by
    rw [← h.length]
    exact (List.getElem?_eq_some_iff.1 hq).1
  have hview : ∃ v, s.dispatch.view l = some v :=
    ⟨_, by rw [view, List.getElem?_eq_getElem hlt, Option.map_some]⟩
  obtain ⟨v, hv⟩ := hview
  exact ⟨v, hv, h.here l v q hv hq⟩

/-- A step that may concern every request. -/
theorem Inv.of_all {d : Dispatch} {calls : List ReaderPc} {passes : List ℕ} {f : Request → Request}
    (h : Inv uuids s) (hwf : d.WF) (hsame : SameRids s.dispatch d)
    (hnamed : ∀ pc ∈ calls, Named d pc)
    (hhere : ∀ l v q, s.dispatch.view l = some v → Accounted uuids s.routing s.failing v q →
      ∃ v', d.view l = some v' ∧ Accounted uuids calls passes v' (f q)) :
    Inv uuids ⟨d, calls, passes, s.requests.map f⟩ where
  dispatch := hwf
  length := by rw [List.length_map, h.length, hsame.length]
  named := hnamed
  here l v' q' hv' hq' := by
    rw [List.getElem?_map] at hq'
    obtain ⟨q, hq, rfl⟩ := Option.map_eq_some_iff.1 hq'
    obtain ⟨v, hv, haccounted⟩ := h.exists_view hq
    obtain ⟨v₁, hv₁, haccounted'⟩ := hhere l v q hv haccounted
    obtain rfl := Option.some.inj (hv₁.symm.trans hv')
    exact haccounted'

/-- A step of the holder of the request `l`. -/
theorem Inv.of_holder {d : Dispatch} {l : LineId} {q q₁ : Request} (h : Inv uuids s)
    (hq : s.requests[l]? = some q) (hwf : d.WF) (hsame : SameRids s.dispatch d)
    (hself : ∀ v, s.dispatch.view l = some v → Accounted uuids s.routing s.failing v q →
      ∃ v', d.view l = some v' ∧ Accounted uuids s.routing s.failing v' q₁)
    (hother : ∀ k v, k ≠ l → s.dispatch.view k = some v → d.view k = some v) :
    Inv uuids { s with dispatch := d, requests := s.requests.set l q₁ } where
  dispatch := hwf
  length := by rw [List.length_set, h.length, hsame.length]
  named pc hpc := (h.named pc hpc).of_sameRids hsame
  here k v' q' hv' hq' := by
    rcases TaskPool.getElem?_set_cases hq' with ⟨rfl, rfl⟩ | ⟨hkl, hold⟩
    · obtain ⟨v, hv, haccounted⟩ := h.exists_view hq
      obtain ⟨v₁, hv₁, haccounted'⟩ := hself v hv haccounted
      obtain rfl := Option.some.inj (hv₁.symm.trans hv')
      exact haccounted'
    · obtain ⟨v, hv, haccounted⟩ := h.exists_view hold
      obtain rfl := Option.some.inj ((hother k v hkl.symm hv).symm.trans hv')
      exact haccounted

theorem inv_registerPending {rid : Uuid} (h : Inv uuids s)
    (hstep : step uuids s (.registerPending rid) = some s') : Inv uuids s' := by
  simp only [step] at hstep
  split at hstep
  · rename_i hfresh
    obtain rfl := Option.some.inj hstep
    -- a call that owes a removal names a request, and the id is new
    have hnone : .overflowed rid ∉ s.routing := by
      intro howed
      obtain ⟨l, hl⟩ := h.named _ howed
      obtain ⟨line, hline, hrid⟩ := Option.map_eq_some_iff.1 hl
      have hne := List.all_eq_true.1 hfresh line (List.mem_of_getElem? hline)
      exact of_decide_eq_true hne hrid
    refine ⟨h.dispatch.registerPending hfresh, ?_,
      fun pc hpc => named_registerPending (h.named pc hpc) rid, fun l v' q' hv' hq' => ?_⟩
    · simp only [List.length_append, List.length_singleton, Dispatch.registerPending, h.length]
    · dsimp only at hv' hq'
      rcases TaskPool.getElem?_append_cases hq' with ⟨rfl, rfl⟩ | hold
      · rw [h.length, view_registerPending_self] at hv'
        obtain rfl := Option.some.inj hv'
        refine ⟨rfl, fun h => (by cases h), fun _ => ⟨fun h => (by cases h), rfl, rfl⟩,
          fun _ h => (by cases h), fun howed => absurd howed hnone, fun i k hi hk _ => ?_⟩
        have hlt := (List.getElem?_eq_some_iff.1 hk).1
        exact absurd hlt (Nat.not_lt.2 hi)
      · obtain ⟨v, hv, haccounted⟩ := h.exists_view hold
        rw [view_registerPending hv hfresh] at hv'
        obtain rfl := Option.some.inj hv'
        exact haccounted
  · cases hstep

theorem inv_build {l : LineId} (h : Inv uuids s) (hstep : step uuids s (.build l) = some s') :
    Inv uuids s' := by
  obtain ⟨q, hq, hstep⟩ := Option.bind_eq_some_iff.1 hstep
  split at hstep
  · rename_i hguard
    obtain rfl := Option.some.inj hstep
    refine h.of_holder hq h.dispatch (SameRids.refl _) (fun v hv haccounted => ?_)
      fun _ _ _ hv => hv
    exact ⟨v, hv, haccounted.guard (by simp [hguard]) (by simp)⟩
  · cases hstep

/-- The frame is refused if the map holds the request and its channel takes nothing. -/
theorem refuses_of_view {d : Dispatch} {l : LineId} {v : View} (hwf : d.WF)
    (h : d.view l = some v) : refuses d v.rid = (v.registered && !v.chan.accepts) := by
  have hentry := pending_of_view hwf h
  obtain ⟨line, hline, hv⟩ := view_eq_some h
  have hchan : v.chan = line.chan := congrArg View.chan hv
  unfold refuses
  rw [hentry, hchan]
  cases v.registered with
  | false => rfl
  | true => simp [hline]

theorem inv_routeInbound {rid : Uuid} {frame : InboundFrame} (h : Inv uuids s)
    (hstep : step uuids s (.routeInbound rid frame) = some s') : Inv uuids s' := by
  obtain rfl := Option.some.inj hstep
  have hsame := sameRids_routeInbound s.dispatch rid frame
  refine h.of_all (h.dispatch.routeInbound rid frame) hsame (fun pc hpc => ?_)
    fun l v q hv haccounted => ?_
  · rcases List.mem_append.1 hpc with hpc | hpc
    · exact (h.named pc hpc).of_sameRids hsame
    · rw [List.mem_singleton.1 hpc]
      exact named_routeInbound h.dispatch rid frame
  · by_cases hrid : v.rid = rid
    · -- a frame of this request
      subst hrid
      obtain ⟨hview, hpc⟩ := view_routeInbound_self h.dispatch hv frame
      refine ⟨_, hview, ?_⟩
      rw [hpc, if_pos haccounted.rid, refuses_of_view h.dispatch hv]
      exact haccounted.route l frame
    · obtain ⟨hview, hpc⟩ := view_routeInbound_other h.dispatch hv hrid frame
      have hne : q.rid ≠ rid := fun heq => hrid (haccounted.rid.symm.trans heq)
      refine ⟨v, hview, ?_⟩
      rw [if_neg hne]
      refine haccounted.append fun howed => ?_
      rw [howed, localTo, if_pos rfl] at hpc
      cases hpc

theorem inv_route {i : ℕ} (h : Inv uuids s) (hstep : step uuids s (.route i) = some s') :
    Inv uuids s' := by
  obtain ⟨pc, hpc, hstep⟩ := Option.bind_eq_some_iff.1 hstep
  obtain ⟨⟨d, pc'⟩, hnext, rfl⟩ := Option.map_eq_some_iff.1 hstep
  have hsame := sameRids_readerStep hnext
  have hkept : Inv uuids ⟨d, s.routing.set i pc', s.failing, s.requests.map id⟩ := by
    refine h.of_all (h.dispatch.readerStep hnext) hsame (fun pc₁ hpc₁ => ?_)
      fun l v q hv haccounted => ?_
    · rcases List.mem_or_eq_of_mem_set hpc₁ with hpc₁ | rfl
      · exact (h.named pc₁ hpc₁).of_sameRids hsame
      · exact named_readerStep (h.named pc (List.mem_of_getElem? hpc)) hnext
    · refine ⟨_, (view_readerStep h.dispatch hv hnext).1, haccounted.reader l hpc ?_⟩
      -- a call does not go on to owe a removal
      intro rid hpc'
      cases pc with
      | idle => cases hnext
      | overflowed r => simp [readerStep, hpc'] at hnext
      | sending m frame => simp [readerStep, hpc'] at hnext
      | dropping m => simp [readerStep, hpc'] at hnext
  rwa [List.map_id] at hkept

theorem inv_failAllPending (h : Inv uuids s)
    (hstep : step uuids s .failAllPending = some s') : Inv uuids s' := by
  obtain rfl := Option.some.inj hstep
  have hkept : Inv uuids ⟨s.dispatch, s.routing, s.failing ++ [0], s.requests.map id⟩ :=
    h.of_all h.dispatch (SameRids.refl _) h.named fun l v q hv haccounted =>
      ⟨v, hv, haccounted.failAll⟩
  rwa [List.map_id] at hkept

theorem inv_failShard {i : ℕ} (h : Inv uuids s)
    (hstep : step uuids s (.failShard i) = some s') : Inv uuids s' := by
  obtain ⟨k, hk, hstep⟩ := Option.bind_eq_some_iff.1 hstep
  split at hstep
  · obtain rfl := Option.some.inj hstep
    have hsame := sameRids_failShard s.dispatch uuids.shard k
    refine h.of_all (h.dispatch.failShard uuids.shard k) hsame
      (fun pc hpc => (h.named pc hpc).of_sameRids hsame) fun l v q hv haccounted => ?_
    exact ⟨_, view_failShard hv uuids.shard k, haccounted.fail hk⟩
  · cases hstep

theorem inv_recv {m : LineId} (h : Inv uuids s) (hstep : step uuids s (.recv m) = some s') :
    Inv uuids s' := by
  obtain ⟨q, hq, hstep⟩ := Option.bind_eq_some_iff.1 hstep
  split at hstep
  · obtain ⟨⟨got, d⟩, hrecv, rfl⟩ := Option.map_eq_some_iff.1 hstep
    have hsame := sameRids_recv hrecv
    have hkept : Inv uuids ⟨d, s.routing, s.failing, s.requests.map id⟩ := by
      refine h.of_all (h.dispatch.recv hrecv) hsame
        (fun pc hpc => (h.named pc hpc).of_sameRids hsame) fun l v q hv haccounted => ?_
      rcases view_recv hv hrecv with ⟨-, chan, -, hview⟩ | ⟨-, hview⟩
      · exact ⟨_, hview, haccounted.view rfl rfl⟩
      · exact ⟨v, hview, haccounted⟩
    rwa [List.map_id] at hkept
  · cases hstep

theorem inv_dropRx {l : LineId} (h : Inv uuids s) (hstep : step uuids s (.dropRx l) = some s') :
    Inv uuids s' := by
  obtain ⟨q, hq, hstep⟩ := Option.bind_eq_some_iff.1 hstep
  split at hstep
  · rename_i hguard
    obtain rfl := Option.some.inj hstep
    refine h.of_holder hq (h.dispatch.onChan l _) (sameRids_onChan _ l _)
      (fun v hv haccounted => ?_) fun k v hkl hv => ?_
    · have hview := view_onChan hv l Channel.dropReceiver
      rw [if_pos rfl] at hview
      exact ⟨_, hview, (haccounted.guard (by simp [hguard]) (by simp)).view rfl rfl⟩
    · have hview := view_onChan hv l Channel.dropReceiver
      rwa [if_neg hkl.symm] at hview
  · cases hstep

theorem inv_dropCleanup {l : LineId} (h : Inv uuids s)
    (hstep : step uuids s (.dropCleanup l) = some s') : Inv uuids s' := by
  obtain ⟨q, hq, hstep⟩ := Option.bind_eq_some_iff.1 hstep
  split at hstep
  · obtain rfl := Option.some.inj hstep
    refine h.of_holder hq (h.dispatch.removePending q.rid)
      (sameRids_removePending s.dispatch q.rid) (fun v hv haccounted => ?_) fun k v hkl hv => ?_
    · have hview := view_removePending h.dispatch hv q.rid
      rw [if_congr (and_iff_right haccounted.rid.symm) rfl rfl] at hview
      exact ⟨_, hview, haccounted.drop⟩
    · -- another request has another id, so its entry is not the one removed
      obtain ⟨vl, hvl, haccounted⟩ := h.exists_view hq
      have hview := view_removePending h.dispatch hv q.rid
      have hne : v.rid ≠ q.rid := by
        obtain ⟨line, hline, rfl⟩ := view_eq_some hv
        obtain ⟨mine, hmine, rfl⟩ := view_eq_some hvl
        intro hrid
        exact hkl (h.dispatch.unique k l line mine hline hmine (hrid.trans haccounted.rid))
      rwa [if_neg fun hand => hne hand.1] at hview
  · cases hstep

/-- **Every step keeps every entry accounted for.** -/
theorem inv_step {act : Action} (h : Inv uuids s) (hstep : step uuids s act = some s') :
    Inv uuids s' := by
  cases act with
  | registerPending rid => exact inv_registerPending h hstep
  | build l => exact inv_build h hstep
  | routeInbound rid frame => exact inv_routeInbound h hstep
  | route i => exact inv_route h hstep
  | failAllPending => exact inv_failAllPending h hstep
  | failShard i => exact inv_failShard h hstep
  | recv l => exact inv_recv h hstep
  | dropRx l => exact inv_dropRx h hstep
  | dropCleanup l => exact inv_dropCleanup h hstep

end

/-! ### The map in every run -/

section

variable {uuids : Sharding Uuid} {s : State}

/-- An entry of the map is a request that is registered. -/
theorem Inv.mem_keys (h : Inv uuids s) (hquiet : Quiet uuids s) (rid : Uuid) :
    rid ∈ s.dispatch.pending.keys ↔ ∃ q ∈ s.requests, q.rid = rid ∧ q.live = true := by
  have hnone : ∀ r, .overflowed r ∉ s.routing := by
    intro r howed
    have hidle := hquiet.routing _ howed
    cases hidle
  rw [s.dispatch.pending.mem_keys]
  constructor
  · intro hsome
    obtain ⟨l, hget⟩ := Option.isSome_iff_exists.1 hsome
    obtain ⟨line, hline, hrid⟩ := h.dispatch.entry rid l hget
    have hlt : l < s.requests.length := by
      rw [h.length]
      exact (List.getElem?_eq_some_iff.1 hline).1
    have hq : s.requests[l]? = some s.requests[l] := List.getElem?_eq_getElem hlt
    obtain ⟨v, hv, haccounted⟩ := h.exists_view hq
    obtain ⟨mine, hmine, hview⟩ := view_eq_some hv
    obtain rfl := Option.some.inj (hline.symm.trans hmine)
    have hvrid : v.rid = rid := (congrArg View.rid hview).trans hrid
    have hregistered : v.registered = true := by
      rw [hview]
      exact decide_eq_true (hrid ▸ hget)
    refine ⟨s.requests[l], List.getElem_mem hlt, haccounted.rid.trans hvrid, ?_⟩
    exact (haccounted.registered_iff (hnone v.rid)).1 hregistered
  · rintro ⟨q, hmem, rfl, hlive⟩
    obtain ⟨l, hq⟩ := List.mem_iff_getElem?.1 hmem
    obtain ⟨v, hv, haccounted⟩ := h.exists_view hq
    have hregistered := (haccounted.registered_iff (hnone v.rid)).2 hlive
    have hentry := pending_of_view h.dispatch hv
    rw [hregistered, ← haccounted.rid] at hentry
    rw [hentry]
    rfl

/-- No two requests have the same id. -/
theorem Inv.nodup_rids (h : Inv uuids s) : (s.requests.map Request.rid).Nodup := by
  rw [List.nodup_iff_getElem?_ne_getElem?]
  intro l m hlm hm heq
  rw [List.length_map] at hm
  have hl := hlm.trans hm
  rw [List.getElem?_map, List.getElem?_map, List.getElem?_eq_getElem hl,
    List.getElem?_eq_getElem hm] at heq
  have hrid : (s.requests[l]).rid = (s.requests[m]).rid := Option.some.inj heq
  obtain ⟨v, hv, haccounted⟩ := h.exists_view (List.getElem?_eq_getElem hl)
  obtain ⟨w, hw, haccounted'⟩ := h.exists_view (List.getElem?_eq_getElem hm)
  rw [haccounted.rid, haccounted'.rid] at hrid
  obtain ⟨line, hline, rfl⟩ := view_eq_some hv
  obtain ⟨mine, hmine, rfl⟩ := view_eq_some hw
  exact absurd (h.dispatch.unique l m line mine hline hmine hrid) (Nat.ne_of_lt hlm)

/-- The entries are as many as the live requests. -/
theorem Inv.count (h : Inv uuids s) (hquiet : Quiet uuids s) :
    inFlightCount s = (s.requests.filter Request.live).length := by
  have hkeys : s.dispatch.pending.keys =
      ((s.requests.filter Request.live).map Request.rid).toFinset := by
    ext rid
    rw [h.mem_keys hquiet rid, List.mem_toFinset, List.mem_map]
    constructor
    · rintro ⟨q, hmem, hrid, hlive⟩
      exact ⟨q, List.mem_filter.2 ⟨hmem, hlive⟩, hrid⟩
    · rintro ⟨q, hmem, hrid⟩
      exact ⟨q, (List.mem_filter.1 hmem).1, hrid, (List.mem_filter.1 hmem).2⟩
  have hnodup : ((s.requests.filter Request.live).map Request.rid).Nodup :=
    h.nodup_rids.sublist (List.filter_sublist.map _)
  rw [inFlightCount, hkeys, List.toFinset_card_of_nodup hnodup, List.length_map]

/-- A `fail_all_pending` that has ended has run over every shard. -/
theorem Inv.failed (h : Inv uuids s) (hquiet : Quiet uuids s) {q : Request}
    (hmem : q ∈ s.requests) (hsince : q.since < s.failing.length) : q.failed = true := by
  obtain ⟨l, hq⟩ := List.mem_iff_getElem?.1 hmem
  obtain ⟨v, -, haccounted⟩ := h.exists_view hq
  have hpass : s.failing[q.since]? = some s.failing[q.since] := List.getElem?_eq_getElem hsince
  have hended := hquiet.failing _ (List.mem_of_getElem? hpass)
  exact haccounted.failed q.since _ (Nat.le_refl _) hpass
    (Nat.lt_of_lt_of_le (uuids.shard_lt v.rid) hended)

theorem Inv.matchesLive (h : Inv uuids s) (hquiet : Quiet uuids s) : MatchesLive s where
  entries := h.mem_keys hquiet
  count := h.count hquiet
  failed _ hmem := h.failed hquiet hmem

/-- The removal of an id leaves the entries of the others alone. -/
theorem get_removePending_of_ne (d : Dispatch) {rid r : Uuid} (hne : rid ≠ r) :
    (d.removePending r).pending.get rid = d.pending.get rid := by
  unfold Dispatch.removePending
  split
  · exact ShardMap.get_remove_of_ne _ hne
  · rfl

theorem dropsOwn (uuids : Sharding Uuid) (s : State) : DropsOwn uuids s := by
  intro l q act s' hq hact hstep rid hne
  rcases hact with rfl | rfl
  · obtain ⟨q', hq', hstep⟩ := Option.bind_eq_some_iff.1 hstep
    split at hstep
    · obtain rfl := Option.some.inj hstep
      rfl
    · cases hstep
  · obtain ⟨q', hq', hstep⟩ := Option.bind_eq_some_iff.1 hstep
    obtain rfl := Option.some.inj (hq.symm.trans hq')
    split at hstep
    · obtain rfl := Option.some.inj hstep
      exact get_removePending_of_ne s.dispatch hne
    · cases hstep

end

/-- **The map holds exactly the live requests.**  In every run of a tunnel, in every state in which
no call is half-way, an id is in the map exactly when its guard is there and neither a terminal
frame, nor a frame that found its channel full or closed, nor a `fail_all_pending` has come since
its registration; and a drop never removes the entry of another request. -/
theorem matchesLive_of_run (uuids : Sharding Uuid) (as : List Action) :
    Always (step uuids) (fun s => (Quiet uuids s → MatchesLive s) ∧ DropsOwn uuids s) init as := by
  have hinv : Always (step uuids) (Inv uuids) init as :=
    always_of_invariant (fun s act s' hs hstep => inv_step hs hstep) (inv_init uuids) as
  exact hinv.mono fun s hs => ⟨hs.matchesLive, dropsOwn uuids s⟩

/-- One request ends with its last frame, another is dropped, and a third is in flight. -/
def threeRequests : List Action :=
  [.registerPending 7, .build 0, .registerPending 8, .build 1, .registerPending 9, .build 2,
    .routeInbound 7 (.endFrame 200), .route 0, .dropRx 1, .routeInbound 8 (.chunk "b".toList),
    .route 0, .dropCleanup 1, .route 1]

example : (run (step ⟨1, fun _ => 0, fun _ => by decide⟩) init threeRequests).map
    (fun s => (inFlightCount s, s.requests.map Request.live)) = some (1, [false, false, true]) := by
  decide +kernel

end PendingMap
