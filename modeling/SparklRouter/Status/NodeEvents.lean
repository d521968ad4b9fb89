/-
**What the events say of a node.**

A connection tells the subscribers that its node is online when it is announced, tells them the state
of its tunnel on every pong, and tells them that the node is offline as the last thing it does
(`handle_node_connect`, `handle_inbound_text` and `run_tunnel_lifecycle`).  All of them speak of the
node, and not of the connection: a node that has connected again is said to be offline when the
connection it has left behind goes, until its next pong.  This module proves that this, and a pong
that counts as too old when it is told of, are all that can make the last word about a node wrong.

Main definitions:

* `NodeEvents.State`, `NodeEvents.step` — the router with the events of its nodes;
* `NodeEvents.Up` — a connection of the node is between its announcement and its goodbye;
* `NodeEvents.Told` — the last word about every node is right;
* `NodeEvents.SpeaksFor` — the condition on one step.

Main results:

* `NodeEvents.change_of_step` — **what a step says, and whose connections it moves**;
* `NodeEvents.told_step` — from a state in which the last word is right, it stays right by the steps
  that meet the condition, and by no other;
* `NodeEvents.right_of_pong` — a pong that is not too old sets the last word about its node right;
* `NodeEvents.told_iff` — **the last word about every node is right throughout a run if and only if
  every step meets the condition**.
-/

import SparklRouter.Catalog.Providers
import SparklRouter.Status.Subscribe
import SparklRouter.Tunnel.Watch

set_option relaxedAutoImplicit false
set_option autoImplicit false

namespace NodeEvents

open ModelsCatalog (tunnelStatusForPong)
open NodeAuth (Crypto nodeIdHex nodeIdHex_injective)
open Subscribe (NodeStatusEvent)
open Transition
open Tunnel (Conn ConnId History Moves Phase Uuid)

/-! ### Events -/

/-- The router, the counts of models of its tunnels, and the events of its nodes with the newest
first. -/
structure State where
  router : Tunnel.State
  modelCount : ConnId → Int64
  sent : List NodeStatusEvent

def init : State := ⟨Tunnel.init, fun _ => 0, []⟩

inductive Action
  | router (a : Tunnel.Action)
  /-- The reader handles a pong.  The clock shows the one time when `touch_pong` reads it, and the
  other when the state of the tunnel is taken. -/
  | pong (c : ConnId) (touched now : Int64)
  /-- A refresh has counted the models of the tunnel. -/
  | counted (c : ConnId) (count : Int64)

/-- `emit_node_status`. -/
def emitNodeStatus (conn : Conn) (status : Text) (inFlightRequests : UInt64) (modelCount : Int64) :
    NodeStatusEvent :=
  ⟨nodeIdHex conn.nodeId, conn.accepted.moniker, status, inFlightRequests, modelCount⟩

def inFlightCount (conn : Conn) : UInt64 := UInt64.ofNat conn.dispatch.pending.keys.card

/-- What a connection says when it goes on from the given phase. -/
def saying (conn : Conn) (modelCount : Int64) : Phase → Option NodeStatusEvent
  | .announcing => some (emitNodeStatus conn "online".toList (inFlightCount conn) modelCount)
  | .goingOffline => some (emitNodeStatus conn "offline".toList 0 0)
  | _ => none

/-- What is said by a step of the router. -/
def State.spoken (s : State) : Tunnel.Action → Option NodeStatusEvent
  | .step c => (s.router.conns[c]?).bind fun conn => saying conn (s.modelCount c) conn.phase
  | _ => none

section

variable (crypto : Crypto) (uuids : Sharding Uuid) (staleSecs : UInt64)

/-- **The transition function of the router with the events of its nodes.** -/
def step (s : State) : Action → Option State
  | .router a =>
      (Tunnel.step crypto uuids s.router a).map fun router =>
        { s with router, sent := (s.spoken a).toList ++ s.sent }
  | .pong c touched now =>
      (s.router.conns[c]?).bind fun conn =>
        if conn.phase = .live ∧ conn.reader = .idle then
          some { s with
            sent := emitNodeStatus conn (tunnelStatusForPong now touched staleSecs)
              (inFlightCount conn) (s.modelCount c) :: s.sent }
        else none
  | .counted c count => some { s with modelCount := Function.update s.modelCount c count }

end

/-! ### The last word about a node -/

/-- The last event about the node. -/
def State.lastWord (s : State) (n : NodeId) : Option NodeStatusEvent :=
  s.sent.find? fun event => event.nodeId = nodeIdHex n

/-- The event does not say that its node is offline. -/
def isUp (event : NodeStatusEvent) : Bool := decide (event.status ≠ "offline".toList)

/-- The connection has said that its node is online, and not yet that it is offline. -/
def announced : Phase → Bool
  | .live | .failingOwn _ | .clearing | .unregistering | .removingModels | .goingOffline => true
  | _ => false

/-- **A connection of the node is between its announcement and its goodbye.** -/
def Up (router : Tunnel.State) (n : NodeId) : Prop :=
  ∃ c p, router.standing c = some (n, p) ∧ announced p = true

/-- **The last word about every node is right**: it says that the node is there, as long as a
connection of the node is, and that it is offline, or nothing at all, when none is. -/
def Told (s : State) : Prop :=
  ∀ n, (s.lastWord n).any isUp = true ↔ Up s.router n

/-- **The condition on one step**: a connection that says its node is offline is the last one of the
node that is announced, and no pong is told of as one that is too old. -/
def SpeaksFor (staleSecs : UInt64) (s : State) : Action → Prop
  | .router (.step c) => ∀ n, s.router.standing c = some (n, .goingOffline) →
      ∀ d p, d ≠ c → s.router.standing d = some (n, p) → announced p = false
  | .pong _ touched now => tunnelStatusForPong now touched staleSecs ≠ "offline".toList
  | _ => True

/-! ### What a step does -/

section

variable {crypto : Crypto} {uuids : Sharding Uuid} {staleSecs : UInt64} {s s' : State} {act : Action}
  {r r' : Tunnel.State} {c : ConnId} {n m : NodeId} {p p' : Phase}

/-- A connection of the node other than the given one is announced. -/
def UpBut (router : Tunnel.State) (c : ConnId) (n : NodeId) : Prop :=
  ∃ d p, d ≠ c ∧ router.standing d = some (n, p) ∧ announced p = true

/-- A node is up by the given connection, or by another. -/
theorem up_iff (hat : r.standing c = some (n, p)) :
    Up r m ↔ (m = n ∧ announced p = true) ∨ UpBut r c m := by
  constructor
  · rintro ⟨d, q, hd, hq⟩
    by_cases hdc : d = c
    · subst hdc
      obtain ⟨rfl, rfl⟩ := Prod.mk.inj (Option.some.inj (hat.symm.trans hd))
      exact Or.inl ⟨rfl, hq⟩
    · exact Or.inr ⟨d, q, hdc, hd, hq⟩
  · rintro (⟨rfl, hp⟩ | ⟨d, q, -, hd, hq⟩)
    · exact ⟨c, p, hat, hp⟩
    · exact ⟨d, q, hd, hq⟩

/-- A step of a connection leaves the others where they are. -/
theorem upBut_of_move
    (hstanding : ∀ d, r'.standing d = if d = c then some (n, p') else r.standing d) :
    UpBut r' c m ↔ UpBut r c m := by
  constructor
  · rintro ⟨d, q, hdc, hd, hq⟩
    rw [hstanding, if_neg hdc] at hd
    exact ⟨d, q, hdc, hd, hq⟩
  · rintro ⟨d, q, hdc, hd, hq⟩
    refine ⟨d, q, hdc, ?_, hq⟩
    rw [hstanding, if_neg hdc]
    exact hd

/-- A step of a connection leaves the other nodes as they are. -/
theorem up_other (hat : r.standing c = some (n, p))
    (hstanding : ∀ d, r'.standing d = if d = c then some (n, p') else r.standing d) (hm : m ≠ n) :
    Up r' m ↔ Up r m := by
  have hat' : r'.standing c = some (n, p') := by rw [hstanding, if_pos rfl]
  rw [up_iff hat', up_iff hat, upBut_of_move hstanding]
  exact or_congr_left ⟨fun h => absurd h.1 hm, fun h => absurd h.1 hm⟩

/-- **A connection is announced by one step, and says goodbye by another**; no other changes whether
it is announced. -/
theorem announced_of_moves {registry registry' : ShardMap NodeId ConnId} {g g' : History}
    (h : Moves registry g c n p p' registry' g') :
    (p = .announcing ∧ p' = .live) ∨ (p = .goingOffline ∧ p' = .closed) ∨
      (announced p' = announced p ∧ p ≠ .announcing ∧ p ≠ .goingOffline) := by
  cases h with
  | announce => exact Or.inl ⟨rfl, rfl⟩
  | goOffline => exact Or.inr (Or.inl ⟨rfl, rfl⟩)
  | _ => exact Or.inr (Or.inr ⟨rfl, fun h => (by cases h), fun h => (by cases h)⟩)

/-- What a step says, and whose connections it moves.  What it says of a node is right if and only if
the step meets the condition. -/
inductive Change (staleSecs : UInt64) (s : State) (act : Action) (s' : State) : Prop
  | silent (hup : ∀ n, Up s'.router n ↔ Up s.router n) (hsent : s'.sent = s.sent)
      (hspeaks : SpeaksFor staleSecs s act) : Change staleSecs s act s'
  | tells {n : NodeId} {event : NodeStatusEvent} (hnode : event.nodeId = nodeIdHex n)
      (hothers : ∀ m, m ≠ n → (Up s'.router m ↔ Up s.router m)) (hsent : s'.sent = event :: s.sent)
      (hright : (isUp event = true ↔ Up s'.router n) ↔ SpeaksFor staleSecs s act) :
      Change staleSecs s act s'

/-- A step that is not of a connection about to be announced or to say goodbye. -/
theorem silent_of_quiet {a : Tunnel.Action}
    (hquiet : ∀ c, a = .step c → ∀ n p, s.router.standing c = some (n, p) →
      p ≠ .announcing ∧ p ≠ .goingOffline) :
    s.spoken a = none ∧ SpeaksFor staleSecs s (.router a) := by
  cases a with
  | step c =>
      refine ⟨?_, fun n hat => absurd rfl (hquiet c rfl n _ hat).2⟩
      rw [State.spoken]
      cases hconn : s.router.conns[c]? with
      | none => rfl
      | some conn =>
          obtain ⟨hannouncing, hgoing⟩ := hquiet c rfl _ _ (Tunnel.standing_of hconn)
          rw [Option.bind_some]
          cases hphase : conn.phase with
          | announcing => exact absurd hphase hannouncing
          | goingOffline => exact absurd hphase hgoing
          | _ => rfl
  | _ => exact ⟨rfl, trivial⟩

/-- What a connection says when it moves on. -/
theorem spoken_of_standing (hat : s.router.standing c = some (n, p)) :
    ∃ conn : Conn, conn.nodeId = n ∧ s.spoken (.step c) = saying conn (s.modelCount c) p := by
  obtain ⟨conn, hconn, hpair⟩ := Option.map_eq_some_iff.1 hat
  obtain ⟨rfl, rfl⟩ := Prod.mk.inj hpair
  exact ⟨conn, rfl, by rw [State.spoken, hconn, Option.bind_some]⟩

/-- A connection is announced. -/
theorem change_of_announce {router : Tunnel.State}
    (hat : s.router.standing c = some (n, .announcing))
    (hstanding : ∀ d, router.standing d = if d = c then some (n, .live) else s.router.standing d) :
    Change staleSecs s (.router (.step c))
      { s with router, sent := (s.spoken (.step c)).toList ++ s.sent } := by
  obtain ⟨conn, rfl, hspoken⟩ := spoken_of_standing hat
  have hat' : router.standing c = some (conn.nodeId, .live) := by rw [hstanding, if_pos rfl]
  refine Change.tells (n := conn.nodeId) rfl (fun m hm => up_other hat hstanding hm)
    (by rw [hspoken]; rfl) ?_
  refine iff_of_true (iff_of_true rfl ⟨c, .live, hat', rfl⟩) fun n' hat'' => ?_
  cases hat.symm.trans hat''

/-- A connection says goodbye. -/
theorem change_of_goodbye {router : Tunnel.State}
    (hat : s.router.standing c = some (n, .goingOffline))
    (hstanding : ∀ d, router.standing d = if d = c then some (n, .closed) else s.router.standing d) :
    Change staleSecs s (.router (.step c))
      { s with router, sent := (s.spoken (.step c)).toList ++ s.sent } := by
  obtain ⟨conn, rfl, hspoken⟩ := spoken_of_standing hat
  have hat' : router.standing c = some (conn.nodeId, .closed) := by rw [hstanding, if_pos rfl]
  have hup : Up router conn.nodeId ↔ UpBut s.router c conn.nodeId := by
    rw [up_iff hat', upBut_of_move hstanding]
    exact or_iff_right fun h => (by cases h.2)
  refine Change.tells (n := conn.nodeId) rfl (fun m hm => up_other hat hstanding hm)
    (by rw [hspoken]; rfl) ?_
  rw [hup]
  constructor
  · intro hright n' hat'' d q hdc hd
    cases hat.symm.trans hat''
    -- another connection that is announced would make the goodbye wrong
    by_contra hq
    cases hright.2 ⟨d, q, hdc, hd, by simpa using hq⟩
  · intro hspeaks
    refine iff_of_false (fun h => by cases h) ?_
    rintro ⟨d, q, hdc, hd, hq⟩
    rw [hspeaks _ hat d q hdc hd] at hq
    cases hq

/-- **What a step says, and whose connections it moves.** -/
theorem change_of_step (h : step crypto uuids staleSecs s act = some s') :
    Change staleSecs s act s' := by
  cases act with
  | router a =>
      obtain ⟨router, hrouter, rfl⟩ := Option.map_eq_some_iff.1 h
      have hwatch : Tunnel.watch crypto uuids ⟨s.router, [], [], [], []⟩ a = some ⟨router, _⟩ :=
        Option.map_eq_some_iff.2 ⟨router, hrouter, rfl⟩
      have hsilent : (∀ c, a = .step c → ∀ n p, s.router.standing c = some (n, p) →
          p ≠ .announcing ∧ p ≠ .goingOffline) → (∀ n, Up router n ↔ Up s.router n) →
          Change staleSecs s (.router a) { s with router, sent := (s.spoken a).toList ++ s.sent } := by
        intro hquiet hup
        obtain ⟨hspoken, hspeaks⟩ := silent_of_quiet hquiet
        exact Change.silent hup (by rw [hspoken]; rfl) hspeaks
      cases Tunnel.stride_of_watch hwatch with
      | still hact hstanding =>
          refine hsilent (fun c hc n p hat => ?_) fun n => ?_
          · cases (hact c hc).symm.trans hat
          · exact exists_congr fun d => by rw [hstanding d]
      | @join c m hact hfresh hstanding =>
          refine hsilent (fun c hc => absurd hc (hact c)) fun n => exists_congr fun d => ?_
          by_cases hd : d = c
          · subst hd
            rw [hstanding, if_pos rfl, hfresh]
            constructor
            · rintro ⟨p, hp, hannounced⟩
              cases hp
              cases hannounced
            · rintro ⟨p, hp, -⟩
              cases hp
          · rw [hstanding, if_neg hd]
      | @move c n p p' hact hat hstanding hmove =>
          rcases announced_of_moves hmove with ⟨rfl, rfl⟩ | ⟨rfl, rfl⟩ | ⟨hsame, hannouncing, hgoing⟩
          · obtain rfl : a = .step c := hact.resolve_right fun hother => by
              rcases hother.2 with hp | hp <;> cases hp
            exact change_of_announce hat hstanding
          · obtain rfl : a = .step c := hact.resolve_right fun hother => by
              rcases hother.2 with hp | hp <;> cases hp
            exact change_of_goodbye hat hstanding
          · have hat' : router.standing c = some (n, p') := by rw [hstanding, if_pos rfl]
            refine hsilent (fun d hd m q hq => ?_) fun m => ?_
            · have hdc : d = c := by
                rcases hact with hact | hact
                · exact Tunnel.Action.step.inj (hd.symm.trans hact)
                · exact absurd hd (hact.1 d)
              subst hdc
              cases hat.symm.trans hq
              exact ⟨hannouncing, hgoing⟩
            · rw [up_iff hat', up_iff hat, upBut_of_move hstanding, hsame]
  | pong c touched now =>
      obtain ⟨conn, hconn, hpong⟩ := Option.bind_eq_some_iff.1 h
      obtain ⟨⟨hlive, -⟩, hpong⟩ := Option.ite_none_right_eq_some.1 hpong
      obtain rfl := Option.some.inj hpong
      have hat : s.router.standing c = some (conn.nodeId, .live) := hlive ▸ Tunnel.standing_of hconn
      have hup : Up s.router conn.nodeId := ⟨c, .live, hat, rfl⟩
      refine Change.tells (n := conn.nodeId) rfl (fun m _ => Iff.rfl) rfl ?_
      rw [iff_true_right hup]
      exact decide_eq_true_iff
  | counted c count =>
      obtain rfl := Option.some.inj h
      exact Change.silent (fun n => Iff.rfl) rfl trivial

/-! ### The last word -/

/-- The last word about a node after an event of the node. -/
theorem lastWord_self {event : NodeStatusEvent} (hnode : event.nodeId = nodeIdHex n)
    (hsent : s'.sent = event :: s.sent) : s'.lastWord n = some event := by
  rw [State.lastWord, hsent]
  exact List.find?_cons_of_pos (decide_eq_true hnode)

/-- The last word about the other nodes. -/
theorem lastWord_other {event : NodeStatusEvent} (hnode : event.nodeId = nodeIdHex n)
    (hsent : s'.sent = event :: s.sent) (hm : m ≠ n) : s'.lastWord m = s.lastWord m := by
  have hother : ¬ event.nodeId = nodeIdHex m := fun hsame =>
    hm (nodeIdHex_injective (hsame.symm.trans hnode))
  rw [State.lastWord, hsent]
  exact List.find?_cons_of_neg (fun hdecide => hother (of_decide_eq_true hdecide))

/-- **From a state in which the last word about every node is right, it stays right by the steps that
meet the condition, and by no other.** -/
theorem told_step (h : step crypto uuids staleSecs s act = some s') (htold : Told s) :
    Told s' ↔ SpeaksFor staleSecs s act := by
  cases change_of_step h with
  | silent hup hsent hspeaks =>
      refine iff_of_true (fun n => ?_) hspeaks
      rw [State.lastWord, hsent, hup]
      exact htold n
  | @tells n event hnode hothers hsent hright =>
      rw [← hright]
      constructor
      · intro htold'
        have hn := htold' n
        rwa [lastWord_self hnode hsent] at hn
      · intro hn m
        by_cases hm : m = n
        · subst hm
          rw [lastWord_self hnode hsent]
          exact hn
        · rw [lastWord_other hnode hsent hm, hothers m hm]
          exact htold m

/-- A pong that is not too old sets the last word about its node right, whatever it was. -/
theorem right_of_pong {touched now : Int64}
    (h : step crypto uuids staleSecs s (.pong c touched now) = some s')
    (hat : s.router.standing c = some (n, p))
    (hspeaks : SpeaksFor staleSecs s (.pong c touched now)) :
    (s'.lastWord n).any isUp = true ∧ Up s'.router n := by
  obtain ⟨conn, hconn, hpong⟩ := Option.bind_eq_some_iff.1 h
  obtain ⟨⟨hlive, -⟩, hpong⟩ := Option.ite_none_right_eq_some.1 hpong
  obtain rfl := Option.some.inj hpong
  have hlive' : s.router.standing c = some (conn.nodeId, .live) := hlive ▸ Tunnel.standing_of hconn
  obtain ⟨rfl, rfl⟩ := Prod.mk.inj (Option.some.inj (hat.symm.trans hlive'))
  refine ⟨?_, c, .live, hlive', rfl⟩
  rw [lastWord_self (n := conn.nodeId) rfl rfl]
  exact decide_eq_true hspeaks

end

theorem told_init : Told init := fun n =>
  iff_of_false (fun h => by cases h) fun ⟨c, p, hat, _⟩ => by cases hat

/-- **The last word about every node is right throughout a run if and only if every step of the run
meets the condition.** -/
theorem told_iff (crypto : Crypto) (uuids : Sharding Uuid) (staleSecs : UInt64) (as : List Action) :
    Always (step crypto uuids staleSecs) Told init as ↔
      Throughout (step crypto uuids staleSecs) (fun s act _ => SpeaksFor staleSecs s act) init as := by
  constructor
  · intro htold
    refine throughout_of_always (I := fun _ => True) (fun _ _ _ _ _ => trivial) ?_ trivial htold
    intro s act s' _ hstep htold htold'
    exact (told_step hstep htold).1 htold'
  · intro hspeaks
    refine always_of_step (fun s act s' htold hstep hact => ?_) told_init hspeaks
    exact (told_step hstep htold).2 hact

/-! ### A connection that is left behind -/

section

open NodeAuth (challenge7 challenge9 sampleCrypto sampleNodeId)

def oneShard : Sharding Uuid := ⟨1, fun _ => 0, fun _ => Nat.zero_lt_one⟩

/-- A node connects, and connects again; the first connection goes. -/
def leftBehind : List Action :=
  [.connect (challenge7.handshake sampleNodeId), .step 0, .step 0, .ready 0 true, .step 0,
    .connect (challenge9.handshake sampleNodeId), .step 1, .step 1, .step 1, .step 1, .step 1,
    .ready 1 true, .step 1, .shutdown 0, .step 0, .step 0, .step 0, .step 0, .step 0,
    .step 0].map .router

def observe (s : State) : Bool × Option Phase :=
  ((s.lastWord sampleNodeId).any isUp, (s.router.standing 1).map Prod.snd)

/-- The node is said to be offline. -/
example : (run (step sampleCrypto oneShard 60) init leftBehind).map observe =
    some (false, some .live) := by
  decide +kernel

end

end NodeEvents
