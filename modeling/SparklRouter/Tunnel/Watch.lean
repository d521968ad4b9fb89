/-
**The router with the history of its tunnels.**

What happens to a tunnel after it has left the registry cannot be read off the state of the router:
the signal is consumed, and a failed request is gone from the pending map.  So the router is run
together with a history of the displacements, of the calls of `signal_shutdown`, of the calls of
`fail_all_pending` that have returned, and of the lifecycles whose loop has ended.  This module
gives the history, says once what a step does to the phases, the registry and the history, and
derives what holds in every run: a registered tunnel belongs to a connection between its insertion
and its last removal, and a tunnel that a handler has taken out is not registered again.

Main definitions:

* `Tunnel.History`, `Tunnel.Watched`, `Tunnel.watch` — the router with its history;
* `Tunnel.Moves`, `Tunnel.Stride` — what a step does;
* `Tunnel.Orderly` — which tunnels can be where.

Main results:

* `Tunnel.run_of_watch` — the history is a history of the router;
* `Tunnel.stride_of_watch` — **every step is one of the listed moves**;
* `Tunnel.Orderly.stride` — **every step keeps the invariant**.
-/

import SparklRouter.Tunnel.Ownership

set_option relaxedAutoImplicit false
set_option autoImplicit false

namespace Tunnel

open NodeAuth Transition

variable {crypto : Crypto} {uuids : Sharding Uuid}

/-! ### The router with its history -/

/-- The tunnel `tunnel` left the registry by a step of the handler of the connection `handler`. -/
structure Displacement where
  handler : ConnId
  tunnel : ConnId
deriving DecidableEq

structure History where
  displaced : List Displacement
  /-- The tunnels on which `signal_shutdown` was called. -/
  signalled : List ConnId
  /-- The tunnels on which a call of `fail_all_pending` has returned. -/
  failed : List ConnId
  /-- The connections whose lifecycle has left its loop and tears the tunnel down. -/
  ended : List ConnId

structure Watched where
  state : State
  history : History

def Watched.init : Watched := ⟨Tunnel.init, [], [], [], []⟩

/-- The node id of a connection, and where its task stands. -/
def State.standing (s : State) (c : ConnId) : Option (NodeId × Phase) :=
  (s.conns[c]?).map fun conn => (conn.nodeId, conn.phase)

/-- The tunnel registered under the node id leaves the registry by a step of `c`; if it is that of
another connection, then `c` displaces it. -/
def History.displace (g : History) (registry : ShardMap NodeId ConnId) (c : ConnId) (n : NodeId) :
    History :=
  match registry.get n with
  | some old => if old = c then g else { g with displaced := ⟨c, old⟩ :: g.displaced }
  | none => g

/-- The history after a step that the connection takes in the given phase.  The registry operations
of `handle_node_connect` are the two removals and the insertion. -/
def History.step (uuids : Sharding Uuid) (g : History) (s : State) (c : ConnId) (n : NodeId)
    (p : Phase) : History :=
  match p with
  | .replacing | .inserting | .withdrawing => g.displace s.registry c n
  | .signalling old => { g with signalled := old :: g.signalled }
  | .failingOld old i => if i < uuids.shards then g else { g with failed := old :: g.failed }
  | .failingOwn i => if i < uuids.shards then g else { g with failed := c :: g.failed }
  | _ => g

/-- The history after a step of the router. -/
def History.next (uuids : Sharding Uuid) (g : History) (s : State) : Action → History
  | .step c =>
      match s.standing c with
      | some (n, p) => g.step uuids s c n p
      | none => g
  | .pongTimeout c => { g with signalled := c :: g.signalled }
  | .shutdown c | .socketClosed c => { g with ended := c :: g.ended }
  | _ => g

def watch (crypto : Crypto) (uuids : Sharding Uuid) (h : Watched) (act : Action) : Option Watched :=
  (step crypto uuids h.state act).map fun s' => ⟨s', h.history.next uuids h.state act⟩

/-- **The history is a history of the router.** -/
theorem run_of_watch {h h' : Watched} {as : List Action}
    (hrun : run (watch crypto uuids) h as = some h') :
    run (step crypto uuids) h.state as = some h'.state := by
  induction as generalizing h with
  | nil =>
      obtain rfl := Option.some.inj hrun
      rfl
  | cons act as ih =>
      obtain ⟨h₁, hwatch, hrest⟩ := exists_step_of_run_cons hrun
      obtain ⟨s', hstep, rfl⟩ := Option.map_eq_some_iff.1 hwatch
      rw [run_cons as hstep]
      exact ih hrest

/-! ### What a step does -/

/-- What a step of the connection `c` of the node `n` does to its phase, the registry and the
history. -/
inductive Moves (registry : ShardMap NodeId ConnId) (g : History) (c : ConnId) (n : NodeId) :
    Phase → Phase → ShardMap NodeId ConnId → History → Prop
  | take {old : ConnId} (hold : registry.get n = some old) :
      Moves registry g c n .replacing (.signalling old) (registry.remove n)
        (g.displace registry c n)
  | vacant (hnone : registry.get n = none) :
      Moves registry g c n .replacing .inserting (registry.remove n) (g.displace registry c n)
  | signal {old : ConnId} : Moves registry g c n (.signalling old) (.failingOld old 0) registry
      { g with signalled := old :: g.signalled }
  | failOld {old : ConnId} {i : ℕ} :
      Moves registry g c n (.failingOld old i) (.failingOld old (i + 1)) registry g
  | failedOld {old : ConnId} {i : ℕ} : Moves registry g c n (.failingOld old i) .inserting registry
      { g with failed := old :: g.failed }
  | insert : Moves registry g c n .inserting .sendingReady (registry.insert n c)
      (g.displace registry c n)
  | sent : Moves registry g c n .sendingReady .announcing registry g
  | unsent : Moves registry g c n .sendingReady .withdrawing registry g
  | withdraw : Moves registry g c n .withdrawing .closed (registry.remove n)
      (g.displace registry c n)
  | announce : Moves registry g c n .announcing .live registry g
  | leave : Moves registry g c n .live (.failingOwn 0) registry { g with ended := c :: g.ended }
  | failOwn {i : ℕ} : Moves registry g c n (.failingOwn i) (.failingOwn (i + 1)) registry g
  | failedOwn {i : ℕ} : Moves registry g c n (.failingOwn i) .clearing registry
      { g with failed := c :: g.failed }
  | clear : Moves registry g c n .clearing .unregistering registry g
  | unregister : Moves registry g c n .unregistering .removingModels (registry.remove n) g
  | removeModels : Moves registry g c n .removingModels .goingOffline registry g
  | goOffline : Moves registry g c n .goingOffline .closed registry g

/-- A step of the router moves one connection, or starts one, or moves none. -/
inductive Stride (h : Watched) : Action → Watched → Prop
  | still {act : Action} {h' : Watched} (hact : ∀ c, act = .step c → h.state.standing c = none)
      (hstanding : ∀ d, h'.state.standing d = h.state.standing d)
      (hregistry : h'.state.registry = h.state.registry)
      (hdisplaced : h'.history.displaced = h.history.displaced)
      (hsignalled : ∀ d ∈ h.history.signalled, d ∈ h'.history.signalled)
      (hfailed : h'.history.failed = h.history.failed)
      (hended : h'.history.ended = h.history.ended) : Stride h act h'
  | join {act : Action} {h' : Watched} {c : ConnId} {n : NodeId} (hact : ∀ c, act ≠ .step c)
      (hfresh : h.state.standing c = none)
      (hstanding : ∀ d, h'.state.standing d =
        if d = c then some (n, .replacing) else h.state.standing d)
      (hregistry : h'.state.registry = h.state.registry)
      (hhistory : h'.history = h.history) : Stride h act h'
  | move {act : Action} {h' : Watched} {c : ConnId} {n : NodeId} {p p' : Phase}
      (hact : act = .step c ∨ (∀ d, act ≠ .step d) ∧ (p = .sendingReady ∨ p = .live))
      (hat : h.state.standing c = some (n, p))
      (hstanding : ∀ d, h'.state.standing d = if d = c then some (n, p') else h.state.standing d)
      (hmove : Moves h.state.registry h.history c n p p' h'.state.registry h'.history) :
      Stride h act h'

theorem standing_of {s : State} {c : ConnId} {conn : Conn} (hconn : s.conns[c]? = some conn) :
    s.standing c = some (conn.nodeId, conn.phase) := by
  rw [State.standing, hconn, Option.map_some]

/-- A change of a connection that keeps its node id and its phase changes nobody's standing. -/
theorem standing_modify {s : State} {c : ConnId} {f : Conn → Conn}
    (hf : ∀ x, (f x).nodeId = x.nodeId ∧ (f x).phase = x.phase) (d : ConnId) :
    (s.modify c f).standing d = s.standing d := by
  rw [State.standing, State.standing, getElem?_modify]
  split
  · cases s.conns[d]? with
    | none => rfl
    | some x => rw [Option.map_some, Option.map_some, Option.map_some, (hf x).1, (hf x).2]
  · rfl

theorem standing_goTo {s : State} {c : ConnId} {n : NodeId} {p : Phase}
    (hat : s.standing c = some (n, p)) (p' : Phase) (d : ConnId) :
    (s.goTo c p').standing d = if d = c then some (n, p') else s.standing d := by
  obtain ⟨conn, hconn, hpair⟩ := Option.map_eq_some_iff.1 hat
  obtain ⟨rfl, -⟩ := Prod.mk.inj hpair
  rw [State.goTo, State.standing, getElem?_modify]
  by_cases hcd : c = d
  · subst hcd
    rw [if_pos rfl, if_pos rfl, hconn]
    rfl
  · rw [if_neg hcd, if_neg (Ne.symm hcd)]
    rfl

/-- A change that keeps ids and phases, and then a move. -/
theorem standing_modify_goTo {s : State} {c o : ConnId} {n : NodeId} {p : Phase} {f : Conn → Conn}
    (hf : ∀ x, (f x).nodeId = x.nodeId ∧ (f x).phase = x.phase)
    (hat : s.standing c = some (n, p)) (p' : Phase) (d : ConnId) :
    ((s.modify o f).goTo c p').standing d = if d = c then some (n, p') else s.standing d := by
  rw [standing_goTo ((standing_modify hf c).trans hat), standing_modify hf]

theorem stride_of_advance {h : Watched} {s' : State} {c : ConnId} {conn : Conn} {p : Phase}
    (hconn : h.state.conns[c]? = some conn) (hp : conn.phase = p)
    (hadvance : advance uuids h.state c conn p = some s') :
    Stride h (.step c) ⟨s', h.history.next uuids h.state (.step c)⟩ := by
  have hat : h.state.standing c = some (conn.nodeId, p) := hp ▸ standing_of hconn
  have hact : Action.step c = .step c ∨ (∀ d, Action.step c ≠ .step d) ∧
      (p = .sendingReady ∨ p = .live) := Or.inl rfl
  have hnext : h.history.next uuids h.state (.step c) =
      h.history.step uuids h.state c conn.nodeId p := by
    simp only [History.next, hat]
  rw [hnext]
  cases p with
  | replacing =>
      obtain rfl := Option.some.inj hadvance
      refine Stride.move hact hat (standing_goTo hat _) ?_
      cases hget : h.state.registry.get conn.nodeId with
      | some old => exact Moves.take hget
      | none => exact Moves.vacant hget
  | signalling old =>
      obtain rfl := Option.some.inj hadvance
      exact Stride.move hact hat
        (standing_modify_goTo (f := Conn.signalShutdown) (fun _ => ⟨rfl, rfl⟩) hat _) Moves.signal
  | failingOld old i =>
      simp only [advance] at hadvance
      split at hadvance
      · rename_i hi
        obtain rfl := Option.some.inj hadvance
        refine Stride.move hact hat (standing_modify_goTo (failShard_keeps i) hat _) ?_
        rw [History.step, if_pos hi]
        exact Moves.failOld
      · rename_i hi
        obtain rfl := Option.some.inj hadvance
        refine Stride.move hact hat (standing_goTo hat _) ?_
        rw [History.step, if_neg hi]
        exact Moves.failedOld
  | inserting =>
      obtain rfl := Option.some.inj hadvance
      exact Stride.move hact hat (standing_goTo hat _) Moves.insert
  | withdrawing =>
      obtain rfl := Option.some.inj hadvance
      exact Stride.move hact hat (standing_goTo hat _) Moves.withdraw
  | announcing =>
      obtain rfl := Option.some.inj hadvance
      exact Stride.move hact hat (standing_goTo hat _) Moves.announce
  | failingOwn i =>
      simp only [advance] at hadvance
      split at hadvance
      · rename_i hi
        obtain rfl := Option.some.inj hadvance
        refine Stride.move hact hat (standing_modify_goTo (failShard_keeps i) hat _) ?_
        rw [History.step, if_pos hi]
        exact Moves.failOwn
      · rename_i hi
        obtain rfl := Option.some.inj hadvance
        refine Stride.move hact hat (standing_goTo hat _) ?_
        rw [History.step, if_neg hi]
        exact Moves.failedOwn
  | clearing =>
      obtain rfl := Option.some.inj hadvance
      exact Stride.move hact hat (standing_goTo hat _) Moves.clear
  | unregistering =>
      obtain rfl := Option.some.inj hadvance
      exact Stride.move hact hat (standing_goTo hat _) Moves.unregister
  | removingModels =>
      obtain rfl := Option.some.inj hadvance
      exact Stride.move hact hat (standing_goTo hat _) Moves.removeModels
  | goingOffline =>
      obtain rfl := Option.some.inj hadvance
      exact Stride.move hact hat (standing_goTo hat _) Moves.goOffline
  | sendingReady => cases hadvance
  | live => cases hadvance
  | closed => cases hadvance

/-- What changes one connection, and neither its phase nor the registry. -/
theorem Stride.of_modify {h : Watched} {act : Action} {c : ConnId} {f : Conn → Conn}
    (hact : ∀ c, act ≠ .step c) (hf : ∀ x, (f x).nodeId = x.nodeId ∧ (f x).phase = x.phase)
    (hnext : h.history.next uuids h.state act = h.history) :
    Stride h act ⟨h.state.modify c f, h.history.next uuids h.state act⟩ := by
  rw [hnext]
  exact Stride.still (fun c hc => absurd hc (hact c)) (standing_modify hf) rfl rfl (fun _ hd => hd)
    rfl rfl

/-- **Every step of the router is one of the listed moves.** -/
theorem stride_of_watch {h h' : Watched} {act : Action}
    (hwatch : watch crypto uuids h act = some h') : Stride h act h' := by
  obtain ⟨s', hstep, rfl⟩ := Option.map_eq_some_iff.1 hwatch
  cases act with
  | connect input =>
      cases hok : handshake crypto input with
      | ok a =>
          simp only [step, hok, Option.some.injEq] at hstep
          subst hstep
          refine Stride.join (c := h.state.conns.length) (n := a.nodeId) (fun _ hc => by cases hc)
            ?_ (fun d => ?_) rfl rfl
          · rw [State.standing, List.getElem?_eq_none (Nat.le_refl _), Option.map_none]
          · rw [State.standing, State.standing]
            by_cases hd : d = h.state.conns.length
            · subst hd
              rw [if_pos rfl, List.getElem?_concat_length]
              rfl
            · rw [if_neg hd]
              congr 1
              rcases Nat.lt_or_ge d h.state.conns.length with hlt | hge
              · exact List.getElem?_append_left hlt
              · rw [List.getElem?_eq_none hge, List.getElem?_eq_none]
                rw [List.length_append, List.length_singleton]
                exact Nat.lt_of_le_of_ne hge (Ne.symm hd)
      | error e =>
          simp only [step, hok, Option.some.injEq] at hstep
          subst hstep
          exact Stride.still (fun _ hc => by cases hc) (fun _ => rfl) rfl rfl (fun _ hd => hd) rfl
            rfl
  | step c =>
      obtain ⟨conn, hconn, hadvance⟩ := Option.bind_eq_some_iff.1 hstep
      exact stride_of_advance hconn rfl hadvance
  | ready c ok =>
      obtain ⟨conn, hconn, hsent⟩ := Option.bind_eq_some_iff.1 hstep
      split at hsent
      · rename_i hphase
        obtain rfl := Option.some.inj hsent
        have hat : h.state.standing c = some (conn.nodeId, .sendingReady) :=
          hphase ▸ standing_of hconn
        refine Stride.move (Or.inr ⟨fun _ hc => (by cases hc), Or.inl rfl⟩) hat
          (standing_goTo hat _) ?_
        cases ok with
        | true => exact Moves.sent
        | false => exact Moves.unsent
      · cases hsent
  | shutdown c =>
      obtain ⟨conn, hconn, hend⟩ := Option.bind_eq_some_iff.1 hstep
      split at hend
      · rename_i hphase
        obtain ⟨got, -, rfl⟩ := Option.map_eq_some_iff.1 hend
        have hat : h.state.standing c = some (conn.nodeId, .live) := hphase.1 ▸ standing_of hconn
        refine Stride.move (Or.inr ⟨fun _ hc => (by cases hc), Or.inr rfl⟩) hat ?_ Moves.leave
        exact standing_modify_goTo (f := fun x => { x with shutdown := got.2 })
          (fun _ => ⟨rfl, rfl⟩) hat _
      · cases hend
  | socketClosed c =>
      obtain ⟨conn, hconn, hend⟩ := Option.bind_eq_some_iff.1 hstep
      split at hend
      · rename_i hphase
        obtain rfl := Option.some.inj hend
        have hat : h.state.standing c = some (conn.nodeId, .live) := hphase.1 ▸ standing_of hconn
        exact Stride.move (Or.inr ⟨fun _ hc => (by cases hc), Or.inr rfl⟩) hat
          (standing_goTo hat _) Moves.leave
      · cases hend
  | pongTimeout c =>
      obtain ⟨conn, hconn, hpong⟩ := Option.bind_eq_some_iff.1 hstep
      split at hpong
      · obtain rfl := Option.some.inj hpong
        exact Stride.still (fun _ hc => by cases hc) (standing_modify fun _ => ⟨rfl, rfl⟩) rfl rfl
          (fun _ hd => List.mem_cons_of_mem _ hd) rfl rfl
      · cases hpong
  | inbound c rid frame =>
      obtain ⟨conn, hconn, hroute⟩ := Option.bind_eq_some_iff.1 hstep
      split at hroute
      · obtain rfl := Option.some.inj hroute
        exact Stride.of_modify (fun _ hc => by cases hc) (fun _ => ⟨rfl, rfl⟩) rfl
      · cases hroute
  | reader c =>
      obtain ⟨conn, hconn, hread⟩ := Option.bind_eq_some_iff.1 hstep
      obtain ⟨next, -, rfl⟩ := Option.map_eq_some_iff.1 hread
      exact Stride.of_modify (fun _ hc => by cases hc) (fun _ => ⟨rfl, rfl⟩) rfl
  | request c op =>
      obtain ⟨conn, hconn, hop⟩ := Option.bind_eq_some_iff.1 hstep
      split at hop
      · obtain ⟨d', -, rfl⟩ := Option.map_eq_some_iff.1 hop
        exact Stride.of_modify (fun _ hc => by cases hc) (fun _ => ⟨rfl, rfl⟩) rfl
      · cases hop

/-! ### Which tunnels can be where

The facts below hold in every run, whatever is displaced: a registered tunnel belongs to a
connection between its insertion and its last removal, and a tunnel that a handler has taken out to
close it is registered no more. -/

/-- The tunnel may be registered. -/
def Phase.listed : Phase → Bool
  | .sendingReady | .withdrawing | .announcing | .live | .failingOwn _ | .clearing
  | .unregistering => true
  | _ => false

/-- The lifecycle has left its loop. -/
def Phase.torn : Phase → Bool
  | .failingOwn _ | .clearing | .unregistering | .removingModels | .goingOffline | .closed => true
  | _ => false

/-- The tunnel the handler is closing. -/
def Phase.closing : Phase → Option ConnId
  | .signalling old | .failingOld old _ => some old
  | _ => none

/-- The connection has created its tunnel, and the tunnel is not in the registry. -/
def Unlisted (s : State) (n : NodeId) (c : ConnId) : Prop :=
  (∃ p, s.standing c = some (n, p) ∧ p.created = true) ∧ ∀ m, s.registry.get m ≠ some c

structure Orderly (h : Watched) : Prop where
  listed : ∀ n c, h.state.registry.get n = some c →
    ∃ p, h.state.standing c = some (n, p) ∧ p.listed = true
  closing : ∀ d n p old, h.state.standing d = some (n, p) → p.closing = some old →
    Unlisted h.state n old
  signalled : ∀ d n old i, h.state.standing d = some (n, .failingOld old i) →
    old ∈ h.history.signalled
  failed : ∀ c ∈ h.history.failed, c ∈ h.history.ended ∨ ∃ n, Unlisted h.state n c
  ended : ∀ c ∈ h.history.ended, ∃ n p, h.state.standing c = some (n, p) ∧ p.torn = true
  failing : ∀ c n i, h.state.standing c = some (n, .failingOwn i) → c ∈ h.history.ended

theorem orderly_init : Orderly Watched.init where
  listed n c h := by cases h
  closing d n p old h := by cases h
  signalled d n old i h := by cases h
  failed c h := by cases h
  ended c h := by cases h
  failing c n i h := by cases h

theorem Phase.created_of_listed {p : Phase} (h : p.listed = true) : p.created = true := by
  cases p <;> first | rfl | cases h

theorem Phase.not_created_of_closing {p : Phase} {old : ConnId} (h : p.closing = some old) :
    p.created = false := by
  cases p <;> first | rfl | cases h

/-! The phases of a move. -/

section
variable {registry registry' : ShardMap NodeId ConnId} {g g' : History} {c : ConnId} {n : NodeId}
  {p p' : Phase}

theorem Moves.created (h : Moves registry g c n p p' registry' g') (hp : p.created = true) :
    p'.created = true := by
  cases h <;> first | rfl | cases hp

theorem Moves.torn (h : Moves registry g c n p p' registry' g') (hp : p.torn = true) :
    p'.torn = true := by
  cases h <;> first | rfl | cases hp

/-- What a move does to the registry, and that it keeps a registered tunnel in the right phases. -/
theorem Moves.registered (h : Moves registry g c n p p' registry' g') :
    (registry' = registry ∧ (p.listed = true → p'.listed = true)) ∨ registry' = registry.remove n ∨
      (p = .inserting ∧ p' = .sendingReady ∧ registry' = registry.insert n c) := by
  cases h with
  | take hold => exact Or.inr (Or.inl rfl)
  | vacant hnone => exact Or.inr (Or.inl rfl)
  | withdraw => exact Or.inr (Or.inl rfl)
  | unregister => exact Or.inr (Or.inl rfl)
  | insert => exact Or.inr (Or.inr ⟨rfl, rfl, rfl⟩)
  | _ => exact Or.inl ⟨rfl, fun hp => by first | rfl | cases hp⟩

/-- A handler begins to close the tunnel it has taken out. -/
theorem Moves.closing {old : ConnId} (h : Moves registry g c n p p' registry' g')
    (hp : p'.closing = some old) : p.closing = some old ∨
      (p = .replacing ∧ registry.get n = some old ∧ registry' = registry.remove n) := by
  cases h with
  | take hold =>
      obtain rfl := Option.some.inj hp
      exact Or.inr ⟨rfl, hold, rfl⟩
  | signal => exact Or.inl hp
  | failOld => exact Or.inl hp
  | _ => cases hp

/-! The histories of a move. -/

theorem History.displace_signalled : (g.displace registry c n).signalled = g.signalled := by
  unfold History.displace
  split
  · split <;> rfl
  · rfl

theorem History.displace_failed : (g.displace registry c n).failed = g.failed := by
  unfold History.displace
  split
  · split <;> rfl
  · rfl

theorem History.displace_ended : (g.displace registry c n).ended = g.ended := by
  unfold History.displace
  split
  · split <;> rfl
  · rfl

theorem History.mem_displace {x : Displacement} : x ∈ (g.displace registry c n).displaced ↔
    x ∈ g.displaced ∨ (x.handler = c ∧ registry.get n = some x.tunnel ∧ x.tunnel ≠ c) := by
  unfold History.displace
  split
  · rename_i old hold
    split
    · rename_i hown
      constructor
      · exact Or.inl
      · rintro (hx | ⟨-, htunnel, hne⟩)
        · exact hx
        · exact absurd ((Option.some.inj (hold.symm.trans htunnel)).symm.trans hown) hne
    · rename_i hother
      rw [List.mem_cons]
      constructor
      · rintro (rfl | hx)
        · exact Or.inr ⟨rfl, hold, hother⟩
        · exact Or.inl hx
      · rintro (hx | ⟨hhandler, htunnel, -⟩)
        · exact Or.inr hx
        · obtain rfl := Option.some.inj (hold.symm.trans htunnel)
          exact Or.inl (by rw [← hhandler])
  · rename_i hnone
    constructor
    · exact Or.inl
    · rintro (hx | ⟨-, htunnel, -⟩)
      · exact hx
      · rw [hnone] at htunnel
        cases htunnel

/-- The calls that are recorded stay recorded. -/
structure History.Grows (g g' : History) : Prop where
  signalled : ∀ {d}, d ∈ g.signalled → d ∈ g'.signalled
  failed : ∀ {d}, d ∈ g.failed → d ∈ g'.failed
  ended : ∀ {d}, d ∈ g.ended → d ∈ g'.ended

theorem History.Grows.refl : g.Grows g := ⟨id, id, id⟩

theorem History.grows_displace : g.Grows (g.displace registry c n) where
  signalled hd := History.displace_signalled.symm ▸ hd
  failed hd := History.displace_failed.symm ▸ hd
  ended hd := History.displace_ended.symm ▸ hd

theorem Moves.grows (h : Moves registry g c n p p' registry' g') : g.Grows g' := by
  cases h with
  | take hold => exact History.grows_displace
  | vacant hnone => exact History.grows_displace
  | insert => exact History.grows_displace
  | withdraw => exact History.grows_displace
  | signal => exact ⟨List.mem_cons_of_mem _, id, id⟩
  | failedOld => exact ⟨id, List.mem_cons_of_mem _, id⟩
  | failedOwn => exact ⟨id, List.mem_cons_of_mem _, id⟩
  | leave => exact ⟨id, id, List.mem_cons_of_mem _⟩
  | _ => exact History.Grows.refl

/-- The lifecycles that have left their loop. -/
theorem Moves.ended (h : Moves registry g c n p p' registry' g') {d : ConnId}
    (hd : d ∈ g'.ended) : d ∈ g.ended ∨ (d = c ∧ p'.torn = true) := by
  cases h with
  | take hold => exact Or.inl (History.displace_ended ▸ hd)
  | vacant hnone => exact Or.inl (History.displace_ended ▸ hd)
  | insert => exact Or.inl (History.displace_ended ▸ hd)
  | withdraw => exact Or.inl (History.displace_ended ▸ hd)
  | leave =>
      rcases List.mem_cons.1 hd with rfl | hd
      · exact Or.inr ⟨rfl, rfl⟩
      · exact Or.inl hd
  | _ => exact Or.inl hd

/-- A call of `fail_all_pending` returns to the handler that closes the tunnel, or to the lifecycle
of the tunnel itself. -/
theorem Moves.failed (h : Moves registry g c n p p' registry' g') {d : ConnId}
    (hd : d ∈ g'.failed) :
    d ∈ g.failed ∨ p.closing = some d ∨ (d = c ∧ ∃ i, p = .failingOwn i) := by
  cases h with
  | take hold => exact Or.inl (History.displace_failed ▸ hd)
  | vacant hnone => exact Or.inl (History.displace_failed ▸ hd)
  | insert => exact Or.inl (History.displace_failed ▸ hd)
  | withdraw => exact Or.inl (History.displace_failed ▸ hd)
  | failedOld =>
      rcases List.mem_cons.1 hd with rfl | hd
      · exact Or.inr (Or.inl rfl)
      · exact Or.inl hd
  | failedOwn =>
      rcases List.mem_cons.1 hd with rfl | hd
      · exact Or.inr (Or.inr ⟨rfl, _, rfl⟩)
      · exact Or.inl hd
  | _ => exact Or.inl hd

end

/-! The invariant along a step. -/

theorem Stride.grows {h h' : Watched} {act : Action} (hstride : Stride h act h') :
    h.history.Grows h'.history := by
  cases hstride with
  | still hact hstanding hregistry hdisplaced hsignalled hfailed hended =>
      exact ⟨hsignalled _, fun hd => hfailed ▸ hd, fun hd => hended ▸ hd⟩
  | join hact hfresh hstanding hregistry hhistory =>
      rw [hhistory]
      exact History.Grows.refl
  | move hact hat hstanding hmove => exact hmove.grows

/-- A tunnel that is out of the registry stays out. -/
theorem Unlisted.stride {h h' : Watched} {act : Action} {n : NodeId} {c : ConnId}
    (hunlisted : Unlisted h.state n c) (hstride : Stride h act h') : Unlisted h'.state n c := by
  obtain ⟨⟨q, hq, hcreated⟩, hout⟩ := hunlisted
  cases hstride with
  | still hact hstanding hregistry hdisplaced hsignalled hfailed hended =>
      exact ⟨⟨q, (hstanding c).trans hq, hcreated⟩, fun m => hregistry ▸ hout m⟩
  | @join e m hact hfresh hstanding hregistry hhistory =>
      refine ⟨⟨q, ?_, hcreated⟩, fun m => hregistry ▸ hout m⟩
      have hne : c ≠ e := by
        rintro rfl
        rw [hfresh] at hq
        cases hq
      rw [hstanding, if_neg hne, hq]
  | @move e m p p' hact hat hstanding hmove =>
      constructor
      · by_cases hce : c = e
        · subst hce
          obtain ⟨rfl, rfl⟩ := Prod.mk.inj (Option.some.inj (hat.symm.trans hq))
          exact ⟨p', by rw [hstanding, if_pos rfl], hmove.created hcreated⟩
        · exact ⟨q, by rw [hstanding, if_neg hce, hq], hcreated⟩
      · intro k hk
        rcases hmove.registered with ⟨hsame, -⟩ | hremove | ⟨rfl, -, hinsert⟩
        · exact hout k (hsame ▸ hk)
        · rw [hremove] at hk
          exact hout k (ShardMap.get_of_get_remove hk).2
        · -- only a connection without a tunnel inserts one
          rw [hinsert, ShardMap.get_insert] at hk
          split at hk
          · obtain rfl := Option.some.inj hk
            obtain ⟨-, rfl⟩ := Prod.mk.inj (Option.some.inj (hat.symm.trans hq))
            cases hcreated
          · exact hout k hk

/-- Where a tunnel is whose requests have been failed. -/
theorem Stride.ended_or_unlisted {h h' : Watched} {act : Action} (hstride : Stride h act h')
    {c : ConnId} (hc : c ∈ h.history.ended ∨ ∃ n, Unlisted h.state n c) :
    c ∈ h'.history.ended ∨ ∃ n, Unlisted h'.state n c := by
  rcases hc with hended | ⟨n, hunlisted⟩
  · exact Or.inl (hstride.grows.ended hended)
  · exact Or.inr ⟨n, hunlisted.stride hstride⟩

/-- A step of a connection keeps the invariant. -/
theorem Orderly.move {h h' : Watched} {act : Action} {c : ConnId} {n : NodeId} {p p' : Phase}
    (horderly : Orderly h) (hstride : Stride h act h') (hat : h.state.standing c = some (n, p))
    (hstanding : ∀ d, h'.state.standing d = if d = c then some (n, p') else h.state.standing d)
    (hmove : Moves h.state.registry h.history c n p p' h'.state.registry h'.history) :
    Orderly h' := by
  have hself : h'.state.standing c = some (n, p') := by rw [hstanding, if_pos rfl]
  have hother : ∀ {d}, d ≠ c → h'.state.standing d = h.state.standing d := fun hd => by
    rw [hstanding, if_neg hd]
  constructor
  · intro m d hd
    -- an entry that was there before, under another node id or in the same registry
    have hold : h.state.registry.get m = some d → (m ≠ n ∨ (p.listed = true → p'.listed = true)) →
        ∃ q, h'.state.standing d = some (m, q) ∧ q.listed = true := by
      intro hget hkeeps
      obtain ⟨q, hq, hlisted⟩ := horderly.listed m d hget
      by_cases hdc : d = c
      · subst hdc
        obtain ⟨rfl, rfl⟩ := Prod.mk.inj (Option.some.inj (hat.symm.trans hq))
        exact ⟨p', hself, (hkeeps.resolve_left fun hne => hne rfl) hlisted⟩
      · exact ⟨q, (hother hdc).trans hq, hlisted⟩
    rcases hmove.registered with ⟨hsame, hkeeps⟩ | hremove | ⟨-, rfl, hinsert⟩
    · exact hold (hsame ▸ hd) (Or.inr hkeeps)
    · rw [hremove] at hd
      obtain ⟨hne, hget⟩ := ShardMap.get_of_get_remove hd
      exact hold hget (Or.inl hne)
    · rw [hinsert, ShardMap.get_insert] at hd
      split at hd
      · rename_i hm
        obtain rfl := Option.some.inj hd
        exact ⟨.sendingReady, hm ▸ hself, rfl⟩
      · rename_i hm
        exact hold hd (Or.inl hm)
  · intro d m q old hq hclosing
    by_cases hdc : d = c
    · subst hdc
      obtain ⟨rfl, rfl⟩ := Prod.mk.inj (Option.some.inj (hself.symm.trans hq))
      rcases hmove.closing hclosing with hclosing | ⟨rfl, hget, hremove⟩
      · exact (horderly.closing d _ p old hat hclosing).stride hstride
      · -- the tunnel was registered under the node id that is removed
        obtain ⟨r, hr, hlisted⟩ := horderly.listed _ old hget
        have hne : old ≠ d := by
          rintro rfl
          obtain ⟨-, rfl⟩ := Prod.mk.inj (Option.some.inj (hat.symm.trans hr))
          cases hlisted
        refine ⟨⟨r, (hother hne).trans hr, Phase.created_of_listed hlisted⟩, fun k hk => ?_⟩
        rw [hremove] at hk
        obtain ⟨hkn, hk⟩ := ShardMap.get_of_get_remove hk
        obtain ⟨r', hr', -⟩ := horderly.listed k old hk
        exact hkn (Prod.mk.inj (Option.some.inj (hr.symm.trans hr'))).1.symm
    · exact (horderly.closing d m q old ((hother hdc).symm.trans hq) hclosing).stride hstride
  · intro d m old i hq
    by_cases hdc : d = c
    · subst hdc
      obtain ⟨rfl, rfl⟩ := Prod.mk.inj (Option.some.inj (hself.symm.trans hq))
      generalize h'.state.registry = registry' at hmove
      generalize h'.history = g' at hmove ⊢
      cases hmove with
      | signal => exact List.mem_cons_self
      | failOld => exact horderly.signalled d _ old _ hat
    · exact hstride.grows.signalled (horderly.signalled d m old i ((hother hdc).symm.trans hq))
  · intro d hd
    rcases hmove.failed hd with hd | hclosing | ⟨rfl, i, rfl⟩
    · exact hstride.ended_or_unlisted (horderly.failed d hd)
    · exact Or.inr ⟨n, (horderly.closing c n p d hat hclosing).stride hstride⟩
    · exact Or.inl (hstride.grows.ended (horderly.failing d n i hat))
  · intro d hd
    rcases hmove.ended hd with hd | ⟨rfl, htorn⟩
    · obtain ⟨m, q, hq, htorn⟩ := horderly.ended d hd
      by_cases hdc : d = c
      · subst hdc
        obtain ⟨rfl, rfl⟩ := Prod.mk.inj (Option.some.inj (hat.symm.trans hq))
        exact ⟨n, p', hself, hmove.torn htorn⟩
      · exact ⟨m, q, (hother hdc).trans hq, htorn⟩
    · exact ⟨n, p', hself, htorn⟩
  · intro d m i hq
    by_cases hdc : d = c
    · subst hdc
      obtain ⟨rfl, rfl⟩ := Prod.mk.inj (Option.some.inj (hself.symm.trans hq))
      generalize h'.state.registry = registry' at hmove
      generalize h'.history = g' at hmove ⊢
      cases hmove with
      | leave => exact List.mem_cons_self
      | failOwn => exact horderly.failing d _ _ hat
    · exact hstride.grows.ended (horderly.failing d m i ((hother hdc).symm.trans hq))

/-- A step that moves no connection keeps the invariant, one that starts a connection included. -/
theorem Orderly.rest {h h' : Watched} {act : Action} (horderly : Orderly h)
    (hstride : Stride h act h')
    (hkept : ∀ d x, h.state.standing d = some x → h'.state.standing d = some x)
    (hnew : ∀ d n p, h'.state.standing d = some (n, p) →
      h.state.standing d = some (n, p) ∨ p = .replacing)
    (hregistry : h'.state.registry = h.state.registry)
    (hfailed : h'.history.failed = h.history.failed)
    (hended : h'.history.ended = h.history.ended) : Orderly h' := by
  constructor
  · intro n c hc
    obtain ⟨p, hp, hlisted⟩ := horderly.listed n c (hregistry ▸ hc)
    exact ⟨p, hkept c _ hp, hlisted⟩
  · intro d n p old hp hclosing
    rcases hnew d n p hp with hp | rfl
    · exact (horderly.closing d n p old hp hclosing).stride hstride
    · cases hclosing
  · intro d n old i hp
    rcases hnew d n _ hp with hp | hp
    · exact hstride.grows.signalled (horderly.signalled d n old i hp)
    · cases hp
  · intro c hc
    exact hstride.ended_or_unlisted (horderly.failed c (hfailed ▸ hc))
  · intro c hc
    obtain ⟨n, p, hp, htorn⟩ := horderly.ended c (hended ▸ hc)
    exact ⟨n, p, hkept c _ hp, htorn⟩
  · intro c n i hp
    rcases hnew c n _ hp with hp | hp
    · exact hended ▸ horderly.failing c n i hp
    · cases hp

/-- A connection that starts has no standing yet. -/
theorem standing_of_join {s s' : State} {c : ConnId} {n : NodeId} (hfresh : s.standing c = none)
    (hstanding : ∀ d, s'.standing d = if d = c then some (n, .replacing) else s.standing d) :
    (∀ d x, s.standing d = some x → s'.standing d = some x) ∧
      ∀ d m p, s'.standing d = some (m, p) → s.standing d = some (m, p) ∨ p = .replacing := by
  constructor
  · intro d x hx
    have hne : d ≠ c := by
      rintro rfl
      rw [hfresh] at hx
      cases hx
    rw [hstanding, if_neg hne, hx]
  · intro d m p hp
    rw [hstanding] at hp
    split at hp
    · exact Or.inr (Prod.mk.inj (Option.some.inj hp)).2.symm
    · exact Or.inl hp

theorem Orderly.stride {h h' : Watched} {act : Action} (horderly : Orderly h)
    (hstride : Stride h act h') : Orderly h' := by
  have hstride' := hstride
  cases hstride' with
  | still hact hstanding hregistry hdisplaced hsignalled hfailed hended =>
      refine horderly.rest hstride (fun d x hx => (hstanding d).trans hx)
        (fun d n p hp => Or.inl ?_) hregistry hfailed hended
      exact (hstanding d).symm.trans hp
  | join hact hfresh hstanding hregistry hhistory =>
      obtain ⟨hkept, hnew⟩ := standing_of_join hfresh hstanding
      exact horderly.rest hstride hkept hnew hregistry (by rw [hhistory]) (by rw [hhistory])
  | move hact hat hstanding hmove => exact horderly.move hstride hat hstanding hmove

end Tunnel
