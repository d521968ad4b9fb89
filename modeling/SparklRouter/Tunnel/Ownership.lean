/-
**Who owns the registry entry of a node.**

A connection that has registered its tunnel relies on the registry to hand that tunnel out until the
connection ends or another connection of the node takes over.  The removals at the end of a
connection, however, go by node id: whatever tunnel is registered under it goes.  This module proves
what that amounts to: the entry is right in every state of a run exactly as long as no connection
removes its node id at its end while another connection is the rightful owner.

Main definitions:

* `Tunnel.Change` — what a step does to the registry;
* `Tunnel.Owned` — the rightful owner of a node id is registered;
* `Tunnel.NoForeignRemoval` — a connection that removes its node id at its end takes it from nobody.

Main results:

* `Tunnel.change_of_step` — **every step is one of the listed changes**;
* `Tunnel.owned_iff` — **in every run, the rightful owner is registered in every state exactly when
  no removal is foreign**;
* `Tunnel.owned_breaks` — a reconnect after which the new tunnel is not registered.
-/

import SparklRouter.Tunnel.Connect

set_option relaxedAutoImplicit false
set_option autoImplicit false

namespace Tunnel

open NodeAuth Transition

variable {crypto : Crypto} {uuids : Sharding Uuid}

/-! ### What a step does to the registry

Most steps leave the registry alone; the three that do not are the replacing removal, the insertion
and the removal at the end.  `Change` says so once, with what the proofs about the registry need to
know of the connections: who may be in which phase afterwards. -/

/-- The connection has registered its tunnel and has not begun to tear it down. -/
def Phase.holds : Phase → Bool
  | .sendingReady | .announcing | .live => true
  | _ => false

/-- The connection is about to take its node id out of the registry at its end. -/
def Phase.drops : Phase → Bool
  | .withdrawing | .unregistering => true
  | _ => false

/-- The connection `c` of the node `n` is in a phase in which its tunnel should be registered. -/
def Holding (s : State) (c : ConnId) (n : NodeId) : Prop :=
  ∃ conn, s.conns[c]? = some conn ∧ conn.nodeId = n ∧ conn.phase.holds = true

/-- Whether nobody but `c` has touched the node id `n` with a replacing removal or an insertion
since `c` inserted it. -/
def undisturbed (c : ConnId) (n : NodeId) : List Event → Bool
  | [] => false
  | .inserted d m :: rest => if m = n then decide (d = c) else undisturbed c n rest
  | .replaced d m :: rest => if m = n ∧ d ≠ c then false else undisturbed c n rest
  | _ :: rest => undisturbed c n rest

inductive Change (s : State) : Action → State → Prop
  | quiet {act : Action} {s' : State} (hact : ∀ c conn, act = .step c → s.conns[c]? = some conn →
        conn.phase.drops = false)
      (hregistry : s'.registry = s.registry)
      (hlog : ∀ d n, undisturbed d n s'.log = undisturbed d n s.log)
      (hholding : ∀ d n, Holding s' d n → Holding s d n) : Change s act s'
  | replace {s' : State} {c : ConnId} {conn : Conn} (hconn : s.conns[c]? = some conn)
      (hphase : conn.phase = .replacing) (hregistry : s'.registry = s.registry.remove conn.nodeId)
      (hlog : s'.log = .replaced c conn.nodeId :: s.log)
      (hholding : ∀ d n, Holding s' d n → Holding s d n ∧ d ≠ c) : Change s (.step c) s'
  | insert {s' : State} {c : ConnId} {conn : Conn} (hconn : s.conns[c]? = some conn)
      (hphase : conn.phase = .inserting) (hregistry : s'.registry = s.registry.insert conn.nodeId c)
      (hlog : s'.log = .inserted c conn.nodeId :: s.log)
      (hholding : ∀ d n, Holding s' d n → Holding s d n ∨ d = c ∧ n = conn.nodeId) :
      Change s (.step c) s'
  | drop {s' : State} {c : ConnId} {conn : Conn} (hconn : s.conns[c]? = some conn)
      (hphase : conn.phase.drops = true) (hregistry : s'.registry = s.registry.remove conn.nodeId)
      (hlog : s'.log = .dropped c conn.nodeId :: s.log)
      (hholding : ∀ d n, Holding s' d n ↔ Holding s d n ∧ d ≠ c) : Change s (.step c) s'

/-- What is not a step of a connection of its own leaves the registry and the history alone. -/
theorem Change.of_other {s s' : State} {act : Action} (hact : ∀ c, act ≠ .step c)
    (hregistry : s'.registry = s.registry) (hlog : s'.log = s.log)
    (hholding : ∀ d n, Holding s' d n → Holding s d n) : Change s act s' :=
  Change.quiet (fun c _ hc => absurd hc (hact c)) hregistry (fun _ _ => by rw [hlog]) hholding

/-! ### The inversion of a step -/

theorem getElem?_modify (s : State) (c d : ConnId) (f : Conn → Conn) :
    (s.modify c f).conns[d]? = if c = d then (s.conns[d]?).map f else s.conns[d]? := by
  rw [State.modify, List.getElem?_modify]
  split
  · rfl
  · simp

/-- A change of a connection that keeps its node id and its phase changes nobody's holding. -/
theorem holding_modify {s : State} {c d : ConnId} {n : NodeId} {f : Conn → Conn}
    (hf : ∀ x, (f x).nodeId = x.nodeId ∧ (f x).phase = x.phase) :
    Holding (s.modify c f) d n ↔ Holding s d n := by
  unfold Holding
  rw [getElem?_modify]
  by_cases hcd : c = d
  · rw [if_pos hcd]
    constructor
    · rintro ⟨conn, hconn, hid, hphase⟩
      obtain ⟨x, hx, rfl⟩ := Option.map_eq_some_iff.1 hconn
      rw [(hf x).1] at hid
      rw [(hf x).2] at hphase
      exact ⟨x, hx, hid, hphase⟩
    · rintro ⟨x, hx, hid, hphase⟩
      refine ⟨f x, by rw [hx, Option.map_some], ?_, ?_⟩
      · rw [(hf x).1, hid]
      · rw [(hf x).2, hphase]
  · rw [if_neg hcd]

theorem holding_of_modify {s : State} {c : ConnId} {f : Conn → Conn}
    (hf : ∀ x, (f x).nodeId = x.nodeId ∧ (f x).phase = x.phase) :
    ∀ d n, Holding (s.modify c f) d n → Holding s d n := fun _ _ => (holding_modify hf).1

/-- Who holds after one connection went to another phase; the registry and the history may have
changed as well. -/
theorem holding_goTo {s s₁ : State} {c d : ConnId} {n : NodeId} {p : Phase} {conn : Conn}
    (hconns : s₁.conns = s.conns) (hconn : s.conns[c]? = some conn) :
    Holding (s₁.goTo c p) d n ↔
      if d = c then n = conn.nodeId ∧ p.holds = true else Holding s d n := by
  unfold Holding State.goTo
  rw [getElem?_modify, hconns]
  by_cases hcd : c = d
  · subst hcd
    rw [if_pos rfl, if_pos rfl, hconn, Option.map_some]
    constructor
    · rintro ⟨x, hx, hid, hphase⟩
      obtain rfl := Option.some.inj hx
      exact ⟨hid.symm, hphase⟩
    · rintro ⟨rfl, hphase⟩
      exact ⟨_, rfl, rfl, hphase⟩
  · rw [if_neg hcd, if_neg (Ne.symm hcd)]

/-- The connection is still there after a change that keeps ids and phases. -/
theorem conn_modify {s : State} {c o : ConnId} {conn : Conn} {f : Conn → Conn}
    (hf : ∀ x, (f x).nodeId = x.nodeId ∧ (f x).phase = x.phase) (hconn : s.conns[c]? = some conn) :
    ∃ conn', (s.modify o f).conns[c]? = some conn' ∧ conn'.nodeId = conn.nodeId ∧
      conn'.phase = conn.phase := by
  rw [getElem?_modify, hconn]
  by_cases hoc : o = c
  · rw [if_pos hoc, Option.map_some]
    exact ⟨f conn, rfl, hf conn⟩
  · rw [if_neg hoc]
    exact ⟨conn, rfl, rfl, rfl⟩

/-- Going to a phase that holds nothing new. -/
theorem holding_of_goTo {s s₁ : State} {c : ConnId} {p : Phase} {conn : Conn}
    (hconns : s₁.conns = s.conns) (hconn : s.conns[c]? = some conn)
    (hp : p.holds = true → conn.phase.holds = true) :
    ∀ d n, Holding (s₁.goTo c p) d n → Holding s d n := by
  intro d n h
  rw [holding_goTo hconns hconn] at h
  split at h
  · rename_i hdc
    subst hdc
    obtain ⟨rfl, hph⟩ := h
    exact ⟨conn, hconn, rfl, hp hph⟩
  · exact h

/-- A change that keeps ids and phases, and then a move to a phase that holds nothing. -/
theorem holding_of_modify_goTo {s : State} {c o : ConnId} {p : Phase} {conn : Conn}
    {f : Conn → Conn}
    (hf : ∀ x, (f x).nodeId = x.nodeId ∧ (f x).phase = x.phase) (hconn : s.conns[c]? = some conn)
    (hp : p.holds = false) : ∀ d n, Holding ((s.modify o f).goTo c p) d n → Holding s d n := by
  intro d n h
  obtain ⟨conn', hconn', -, -⟩ := conn_modify (o := o) hf hconn
  have hmoved := holding_of_goTo rfl hconn' (fun hph => absurd hph (by simp [hp])) d n h
  exact (holding_modify hf).1 hmoved

/-- Going to a phase that does not hold takes the connection, and nobody else, out of those that
hold. -/
theorem holding_goTo_iff {s s₁ : State} {c : ConnId} {p : Phase} {conn : Conn}
    (hconns : s₁.conns = s.conns) (hconn : s.conns[c]? = some conn) (hp : p.holds = false) :
    ∀ d n, Holding (s₁.goTo c p) d n ↔ Holding s d n ∧ d ≠ c := by
  intro d n
  rw [holding_goTo hconns hconn]
  by_cases hdc : d = c
  · simp [hdc, hp]
  · simp [hdc]

/-- A step of a connection that is not about to drop its node id. -/
theorem not_drops_of_step {s : State} {c : ConnId} {conn : Conn} (hconn : s.conns[c]? = some conn)
    (hdrops : conn.phase.drops = false) :
    ∀ d x, Action.step c = .step d → s.conns[d]? = some x → x.phase.drops = false := by
  intro d x hcd hx
  obtain rfl := Action.step.inj hcd
  obtain rfl := Option.some.inj (hconn.symm.trans hx)
  exact hdrops

/-- `fail_all_pending` on one shard keeps the node id and the phase of the connection. -/
theorem failShard_keeps (i : ℕ) (x : Conn) :
    ({ x with dispatch := x.dispatch.failShard uuids.shard i } : Conn).nodeId = x.nodeId ∧
      ({ x with dispatch := x.dispatch.failShard uuids.shard i } : Conn).phase = x.phase :=
  ⟨rfl, rfl⟩

theorem change_of_advance {s s' : State} {c : ConnId} {conn : Conn}
    (hconn : s.conns[c]? = some conn)
    {p : Phase} (hp : conn.phase = p) (h : advance uuids s c conn p = some s') :
    Change s (.step c) s' := by
  have hact : p.drops = false → ∀ d x, Action.step c = .step d → s.conns[d]? = some x →
      x.phase.drops = false := fun hd => not_drops_of_step hconn (hp ▸ hd)
  cases p with
  | replacing =>
      obtain rfl := Option.some.inj h
      refine Change.replace hconn hp rfl rfl fun d n hd => ?_
      refine (holding_goTo_iff rfl hconn ?_ d n).1 hd
      split <;> rfl
  | signalling old =>
      obtain rfl := Option.some.inj h
      exact Change.quiet (hact rfl) rfl (fun _ _ => rfl)
        (holding_of_modify_goTo (fun _ => ⟨rfl, rfl⟩) hconn rfl)
  | failingOld old i =>
      simp only [advance] at h
      split at h
      · obtain rfl := Option.some.inj h
        exact Change.quiet (hact rfl) rfl (fun _ _ => rfl)
          (holding_of_modify_goTo (failShard_keeps i) hconn rfl)
      · obtain rfl := Option.some.inj h
        exact Change.quiet (hact rfl) rfl (fun _ _ => rfl) (holding_of_goTo rfl hconn nofun)
  | inserting =>
      obtain rfl := Option.some.inj h
      refine Change.insert hconn hp rfl rfl fun d n hd => ?_
      have hmoved := (holding_goTo rfl hconn).1 hd
      split at hmoved
      · rename_i hdc
        exact Or.inr ⟨hdc, hmoved.1⟩
      · exact Or.inl hmoved
  | withdrawing =>
      obtain rfl := Option.some.inj h
      exact Change.drop hconn (by rw [hp]; rfl) rfl rfl (holding_goTo_iff rfl hconn rfl)
  | announcing =>
      obtain rfl := Option.some.inj h
      refine Change.quiet (hact rfl) rfl (fun _ _ => rfl) (holding_of_goTo rfl hconn ?_)
      intro _
      rw [hp]
      rfl
  | failingOwn i =>
      simp only [advance] at h
      split at h
      · obtain rfl := Option.some.inj h
        exact Change.quiet (hact rfl) rfl (fun _ _ => rfl)
          (holding_of_modify_goTo (failShard_keeps i) hconn rfl)
      · obtain rfl := Option.some.inj h
        exact Change.quiet (hact rfl) rfl (fun _ _ => rfl) (holding_of_goTo rfl hconn nofun)
  | clearing =>
      obtain rfl := Option.some.inj h
      exact Change.quiet (hact rfl) rfl (fun _ _ => rfl) (holding_of_goTo rfl hconn nofun)
  | unregistering =>
      obtain rfl := Option.some.inj h
      exact Change.drop hconn (by rw [hp]; rfl) rfl rfl (holding_goTo_iff rfl hconn rfl)
  | removingModels =>
      obtain rfl := Option.some.inj h
      exact Change.quiet (hact rfl) rfl (fun _ _ => rfl) (holding_of_goTo rfl hconn nofun)
  | goingOffline =>
      obtain rfl := Option.some.inj h
      exact Change.quiet (hact rfl) rfl (fun _ _ => rfl) (holding_of_goTo rfl hconn nofun)
  | sendingReady => cases h
  | live => cases h
  | closed => cases h

/-- A connection that starts does not hold its node id yet. -/
theorem holding_of_connect {s : State} {h : Handshake} {a : Accepted} :
    ∀ d n, Holding { s with conns := s.conns ++ [Conn.start h a] } d n → Holding s d n := by
  rintro d n ⟨conn, hconn, hid, hphase⟩
  rcases TaskPool.getElem?_append_cases hconn with ⟨-, rfl⟩ | hconn
  · cases hphase
  · exact ⟨conn, hconn, hid, hphase⟩

/-- **Every step of the router is one of the listed changes.** -/
theorem change_of_step {s s' : State} {act : Action} (h : step crypto uuids s act = some s') :
    Change s act s' := by
  cases act with
  | connect input =>
      cases hok : handshake crypto input with
      | ok a =>
          simp only [step, hok, Option.some.injEq] at h
          subst h
          exact Change.of_other (fun _ hc => by cases hc) rfl rfl holding_of_connect
      | error e =>
          simp only [step, hok, Option.some.injEq] at h
          subst h
          exact Change.of_other (fun _ hc => by cases hc) rfl rfl fun _ _ hd => hd
  | step c =>
      obtain ⟨conn, hconn, h⟩ := Option.bind_eq_some_iff.1 h
      exact change_of_advance hconn rfl h
  | ready c ok =>
      obtain ⟨conn, hconn, h⟩ := Option.bind_eq_some_iff.1 h
      split at h
      · rename_i hphase
        obtain rfl := Option.some.inj h
        refine Change.of_other (fun _ hc => by cases hc) rfl rfl (holding_of_goTo rfl hconn ?_)
        intro _
        rw [hphase]
        rfl
      · cases h
  | shutdown c =>
      obtain ⟨conn, hconn, h⟩ := Option.bind_eq_some_iff.1 h
      split at h
      · obtain ⟨got, -, rfl⟩ := Option.map_eq_some_iff.1 h
        exact Change.of_other (fun _ hc => by cases hc) rfl rfl
          (holding_of_modify_goTo (fun _ => ⟨rfl, rfl⟩) hconn rfl)
      · cases h
  | socketClosed c =>
      obtain ⟨conn, hconn, h⟩ := Option.bind_eq_some_iff.1 h
      split at h
      · obtain rfl := Option.some.inj h
        exact Change.of_other (fun _ hc => by cases hc) rfl rfl (holding_of_goTo rfl hconn nofun)
      · cases h
  | pongTimeout c =>
      obtain ⟨conn, hconn, h⟩ := Option.bind_eq_some_iff.1 h
      split at h
      · obtain rfl := Option.some.inj h
        exact Change.of_other (fun _ hc => by cases hc) rfl rfl
          (holding_of_modify fun _ => ⟨rfl, rfl⟩)
      · cases h
  | inbound c rid frame =>
      obtain ⟨conn, hconn, h⟩ := Option.bind_eq_some_iff.1 h
      split at h
      · obtain rfl := Option.some.inj h
        exact Change.of_other (fun _ hc => by cases hc) rfl rfl
          (holding_of_modify fun _ => ⟨rfl, rfl⟩)
      · cases h
  | reader c =>
      obtain ⟨conn, hconn, h⟩ := Option.bind_eq_some_iff.1 h
      obtain ⟨next, -, rfl⟩ := Option.map_eq_some_iff.1 h
      exact Change.of_other (fun _ hc => by cases hc) rfl rfl
        (holding_of_modify fun _ => ⟨rfl, rfl⟩)
  | request c op =>
      obtain ⟨conn, hconn, h⟩ := Option.bind_eq_some_iff.1 h
      split at h
      · obtain ⟨d', -, rfl⟩ := Option.map_eq_some_iff.1 h
        exact Change.of_other (fun _ hc => by cases hc) rfl rfl
          (holding_of_modify fun _ => ⟨rfl, rfl⟩)
      · cases h

/-! ### Ownership -/

/-- The connection is the rightful owner of the node id: it holds it, and nobody else has replaced
or inserted since its insertion. -/
def Owns (s : State) (c : ConnId) (n : NodeId) : Prop :=
  Holding s c n ∧ undisturbed c n s.log = true

/-- The rightful owner of a node id is the one the registry hands out. -/
def Owned (s : State) : Prop := ∀ c n, Owns s c n → s.registry.get n = some c

/-- A connection that takes its node id out of the registry at its end, after its tunnel was closed
or after `ready` could not be sent, does so while no other connection is the rightful owner. -/
def NoForeignRemoval (s : State) (act : Action) (_ : State) : Prop :=
  ∀ c conn, act = .step c → s.conns[c]? = some conn → conn.phase.drops = true →
    ∀ d, d ≠ c → ¬ Owns s d conn.nodeId

theorem owned_init : Owned init := by
  rintro c n ⟨⟨conn, hconn, -⟩, -⟩
  simp [init] at hconn

/-- **A step in which no removal is foreign keeps the rightful owners registered.** -/
theorem owned_step {s s' : State} {act : Action} (h : Owned s)
    (hstep : step crypto uuids s act = some s') (hforeign : NoForeignRemoval s act s') :
    Owned s' := by
  rintro d n ⟨hholding', hlog'⟩
  cases change_of_step hstep with
  | quiet hact hregistry hlog hholding =>
      rw [hregistry]
      rw [hlog] at hlog'
      exact h d n ⟨hholding d n hholding', hlog'⟩
  | @replace s' c conn hconn hphase hregistry hlog hholding =>
      obtain ⟨hold, hdc⟩ := hholding d n hholding'
      rw [hlog, undisturbed] at hlog'
      by_cases hn : conn.nodeId = n
      · -- the replacing connection has disturbed the owner
        rw [if_pos ⟨hn, Ne.symm hdc⟩] at hlog'
        cases hlog'
      · rw [if_neg fun hand => hn hand.1] at hlog'
        rw [hregistry, ShardMap.get_remove_of_ne _ (Ne.symm hn)]
        exact h d n ⟨hold, hlog'⟩
  | @insert s' c conn hconn hphase hregistry hlog hholding =>
      rw [hlog, undisturbed] at hlog'
      by_cases hn : conn.nodeId = n
      · rw [if_pos hn] at hlog'
        obtain rfl : c = d := of_decide_eq_true hlog'
        rw [hregistry, hn, ShardMap.get_insert_self]
      · rw [if_neg hn] at hlog'
        rw [hregistry, ShardMap.get_insert_of_ne _ _ (Ne.symm hn)]
        rcases hholding d n hholding' with hold | ⟨-, hid⟩
        · exact h d n ⟨hold, hlog'⟩
        · exact absurd hid.symm hn
  | @drop s' c conn hconn hphase hregistry hlog hholding =>
      obtain ⟨hold, hdc⟩ := (hholding d n).1 hholding'
      rw [hlog, undisturbed] at hlog'
      · have hn : n ≠ conn.nodeId := by
          rintro rfl
          exact hforeign c conn rfl hconn hphase d hdc ⟨hold, hlog'⟩
        rw [hregistry, ShardMap.get_remove_of_ne _ hn]
        exact h d n ⟨hold, hlog'⟩
      · nofun
      · nofun

/-- A foreign removal leaves the rightful owner unregistered. -/
theorem noForeignRemoval_of_owned {s s' : State} {act : Action}
    (hstep : step crypto uuids s act = some s') (h : Owned s') : NoForeignRemoval s act s' := by
  rintro c conn rfl hconn hdrops d hdc ⟨hholding, hlog⟩
  cases change_of_step hstep with
  | quiet hact _ _ _ =>
      rw [hact c conn rfl hconn] at hdrops
      cases hdrops
  | replace hconn' hphase _ _ _ =>
      obtain rfl := Option.some.inj (hconn.symm.trans hconn')
      rw [hphase] at hdrops
      cases hdrops
  | insert hconn' hphase _ _ _ =>
      obtain rfl := Option.some.inj (hconn.symm.trans hconn')
      rw [hphase] at hdrops
      cases hdrops
  | drop hconn' _ hregistry hlog' hholding' =>
      obtain rfl := Option.some.inj (hconn.symm.trans hconn')
      have howns : Owns s' d conn.nodeId := by
        refine ⟨(hholding' d conn.nodeId).2 ⟨hholding, hdc⟩, ?_⟩
        rw [hlog']
        exact hlog
      have hget := h d conn.nodeId howns
      rw [hregistry, ShardMap.get_remove_self] at hget
      cases hget

/-- **Ownership along a run.**  In every run of the router, the rightful owner of every node id is
registered in every state, if and only if no connection takes its node id out of the registry at its
end while another connection is the rightful owner. -/
theorem owned_iff (crypto : Crypto) (uuids : Sharding Uuid) (as : List Action) :
    Always (step crypto uuids) Owned init as ↔
      Throughout (step crypto uuids) NoForeignRemoval init as := by
  constructor
  · intro h
    refine throughout_of_always (I := fun _ => True) (fun _ _ _ _ _ => trivial) ?_ trivial h
    intro s act s' _ hstep _ howned
    exact noForeignRemoval_of_owned hstep howned
  · intro h
    exact always_of_step (fun s act s' => owned_step) owned_init h

/-- Two shards, with every id in the first. -/
def sampleUuids : Sharding Uuid := ⟨2, fun _ => 0, fun _ => by decide⟩

/-- A node connects and is live, connects again and is live again, and then the first connection
receives its shutdown signal and tears down. -/
def reconnect : List Action :=
  [.connect (challenge7.handshake sampleNodeId), .step 0, .step 0, .ready 0 true, .step 0,
    .connect (challenge9.handshake sampleNodeId), .step 1, .step 1, .step 1, .step 1, .step 1, .step 1,
    .ready 1 true, .step 1, .shutdown 0, .step 0, .step 0, .step 0, .step 0, .step 0]

/-- The registered tunnel of the node, and whether the second connection holds the node id and is
undisturbed. -/
def observeOwner (s : State) : Option ConnId × Bool × Option (Bool × Bool) :=
  (s.registry.get sampleNodeId, undisturbed 1 sampleNodeId s.log,
    (s.conns[1]?).map fun conn => (decide (conn.nodeId = sampleNodeId), conn.phase.holds))

theorem observe_reconnect : (run (step sampleCrypto sampleUuids) init reconnect).map observeOwner =
    some (none, true, some (true, true)) := by
  decide +kernel

/-- **A reconnect can leave a live node without an entry**: the teardown of the first connection has
removed the tunnel of the second. -/
theorem owned_breaks : ¬ ∀ (crypto : Crypto) (uuids : Sharding Uuid) (as : List Action),
    Always (step crypto uuids) Owned init as := by
  intro h
  obtain ⟨s, hs, hobs⟩ := (h sampleCrypto sampleUuids reconnect).observe observe_reconnect
  simp only [observeOwner, Prod.mk.injEq] at hobs
  obtain ⟨hget, hlog, hconn⟩ := hobs
  obtain ⟨conn, hconn, hphase⟩ := Option.map_eq_some_iff.1 hconn
  obtain ⟨hid, hholds⟩ := Prod.mk.inj hphase
  have howned := hs 1 sampleNodeId ⟨⟨conn, hconn, of_decide_eq_true hid, hholds⟩, hlog⟩
  rw [hget] at howned
  cases howned

end Tunnel
