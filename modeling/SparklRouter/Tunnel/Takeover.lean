/-
**Which key a node id belongs to.**

The handshake verifies that the key in the `auth` frame signed the challenge, and that the node id
in the frame is registered.  It does not compare the two: `node_id_from_ed25519_pubkey`, the binding
of a node id to a key, is not used on this path.  So any key is good for any registered node id, and
a connection registers its tunnel under the id bound to its key only when its frame happens to name
that id.

Main definitions:

* `Tunnel.InsertsBound` — the connections with a given handshake insert only under the node id bound
  to the key that signed;
* `Tunnel.RejectsOthers` — an accepted frame is rejected with another registered node id.

Main results:

* `Tunnel.Traced.step` — an insertion is that of a connection under the node id of its frame;
* `Tunnel.takeover_iff` — **exactly which frames keep the binding in every run, and which are
  rejected with every other registered node id**;
* `Tunnel.takeover_breaks` — a frame that registers the tunnel of one key under the node id of
  another.
-/

import SparklRouter.Tunnel.Ownership

set_option relaxedAutoImplicit false
set_option autoImplicit false

namespace Tunnel

open NodeAuth Transition

variable {crypto : Crypto} {uuids : Sharding Uuid}

/-- A connection with the handshake `h` that has inserted its tunnel has done so under the node id
bound to the key that signed its challenge. -/
def InsertsBound (crypto : Crypto) (h : Handshake) (s : State) : Prop :=
  ∀ (c : ConnId) (n : NodeId) (conn : Conn), .inserted c n ∈ s.log → s.conns[c]? = some conn →
    conn.handshake = h → n = nodeIdFromEd25519Pubkey crypto conn.accepted.pubkey

/-- If the frame is accepted, then it is rejected with every other registered node id. -/
def RejectsOthers (crypto : Crypto) (h : Handshake) : Prop :=
  ∀ a, handshake crypto h = .ok a → ∀ id, id ≠ a.nodeId → Registered h id →
    ∀ b, handshake crypto (h.withNodeId id) ≠ .ok b

/-! ### An insertion is that of an accepted connection -/

/-- A connection is the outcome of its handshake. -/
def Conn.Authentic (crypto : Crypto) (conn : Conn) : Prop :=
  NodeAuth.handshake crypto conn.handshake = .ok conn.accepted

/-- Connections are outcomes of their handshakes, and insertions are theirs. -/
structure Traced (crypto : Crypto) (s : State) : Prop where
  conns : ∀ (c : ConnId) (conn : Conn), s.conns[c]? = some conn → conn.Authentic crypto
  inserted : ∀ (c : ConnId) (n : NodeId), .inserted c n ∈ s.log →
    ∃ conn : Conn, s.conns[c]? = some conn ∧ conn.nodeId = n

theorem traced_init : Traced crypto init := by
  constructor
  · intro c conn h
    simp [init] at h
  · intro c n h
    cases h

/-- The step keeps the handshakes, and logs an insertion only for the node id of its connection. -/
structure Keeps (s s' : State) : Prop where
  conns : ∀ (c : ConnId) (conn' : Conn), s'.conns[c]? = some conn' →
    ∃ conn : Conn, s.conns[c]? = some conn ∧ conn'.handshake = conn.handshake ∧
      conn'.accepted = conn.accepted
  kept : ∀ (c : ConnId) (conn : Conn), s.conns[c]? = some conn →
    ∃ conn' : Conn, s'.conns[c]? = some conn' ∧ conn'.accepted = conn.accepted
  log : ∀ (c : ConnId) (n : NodeId), .inserted c n ∈ s'.log → .inserted c n ∈ s.log ∨
    ∃ conn : Conn, s.conns[c]? = some conn ∧ conn.nodeId = n

theorem Traced.of_keeps {s s' : State} (h : Traced crypto s) (hk : Keeps s s') :
    Traced crypto s' := by
  constructor
  · intro c conn' hconn'
    obtain ⟨conn, hconn, hh, ha⟩ := hk.conns c conn' hconn'
    have hauth := h.conns c conn hconn
    rw [Conn.Authentic, hh, ha]
    exact hauth
  · intro c n hlog
    have hold : ∃ conn, s.conns[c]? = some conn ∧ conn.nodeId = n := by
      rcases hk.log c n hlog with hlog | hconn
      · exact h.inserted c n hlog
      · exact hconn
    obtain ⟨conn, hconn, hid⟩ := hold
    obtain ⟨conn', hconn', ha⟩ := hk.kept c conn hconn
    refine ⟨conn', hconn', ?_⟩
    rw [Conn.nodeId, ha]
    exact hid

/-- Only the registry changes. -/
theorem keeps_registry {s : State} {r : ShardMap NodeId ConnId} :
    Keeps s { s with registry := r } :=
  ⟨fun _ conn hconn => ⟨conn, hconn, rfl, rfl⟩, fun _ conn hconn => ⟨conn, hconn, rfl⟩,
    fun _ _ hlog => Or.inl hlog⟩

theorem keeps_self {s : State} : Keeps s s := keeps_registry

theorem Keeps.record {s s₁ : State} {e : Event} (h : Keeps s s₁)
    (he : ∀ (c : ConnId) (n : NodeId), e = .inserted c n →
      ∃ conn : Conn, s.conns[c]? = some conn ∧ conn.nodeId = n) : Keeps s (s₁.record e) := by
  refine ⟨h.conns, h.kept, fun c n hlog => ?_⟩
  rcases List.mem_cons.1 hlog with hnew | hold
  · exact Or.inr (he c n hnew.symm)
  · exact h.log c n hold

theorem Keeps.modify {s s₁ : State} {o : ConnId} {f : Conn → Conn} (h : Keeps s s₁)
    (hf : ∀ x, (f x).handshake = x.handshake ∧ (f x).accepted = x.accepted) :
    Keeps s (s₁.modify o f) := by
  refine ⟨fun c conn' hconn' => ?_, fun c conn hconn => ?_, h.log⟩
  · rw [getElem?_modify] at hconn'
    split at hconn'
    · obtain ⟨x, hx, rfl⟩ := Option.map_eq_some_iff.1 hconn'
      obtain ⟨conn, hconn, hh, ha⟩ := h.conns c x hx
      exact ⟨conn, hconn, (hf x).1.trans hh, (hf x).2.trans ha⟩
    · exact h.conns c conn' hconn'
  · obtain ⟨x, hx, ha⟩ := h.kept c conn hconn
    rw [getElem?_modify]
    split
    · exact ⟨f x, by rw [hx, Option.map_some], (hf x).2.trans ha⟩
    · exact ⟨x, hx, ha⟩

theorem Keeps.goTo {s s₁ : State} {c : ConnId} {p : Phase} (h : Keeps s s₁) :
    Keeps s (s₁.goTo c p) :=
  h.modify fun _ => ⟨rfl, rfl⟩

theorem keeps_of_advance {s s' : State} {c : ConnId} {conn : Conn} (hconn : s.conns[c]? = some conn)
    {p : Phase} (h : advance uuids s c conn p = some s') : Keeps s s' := by
  cases p with
  | replacing =>
      obtain rfl := Option.some.inj h
      exact Keeps.goTo (keeps_registry.record fun _ _ he => by cases he)
  | signalling old =>
      obtain rfl := Option.some.inj h
      exact Keeps.goTo (keeps_self.modify fun _ => ⟨rfl, rfl⟩)
  | failingOld old i =>
      simp only [advance] at h
      split at h
      · obtain rfl := Option.some.inj h
        exact Keeps.goTo (keeps_self.modify fun _ => ⟨rfl, rfl⟩)
      · obtain rfl := Option.some.inj h
        exact keeps_self.goTo
  | inserting =>
      obtain rfl := Option.some.inj h
      refine Keeps.goTo (keeps_registry.record ?_)
      -- the only insertion: the connection's own, under its own node id
      intro d n hd
      obtain ⟨rfl, rfl⟩ := Event.inserted.inj hd
      exact ⟨conn, hconn, rfl⟩
  | withdrawing =>
      obtain rfl := Option.some.inj h
      exact Keeps.goTo (keeps_registry.record fun _ _ he => by cases he)
  | announcing =>
      obtain rfl := Option.some.inj h
      have hstatus : Keeps s (s.record (.nodeStatus conn.nodeId conn.accepted.moniker true)) :=
        keeps_self.record fun _ _ he => by cases he
      exact Keeps.goTo (hstatus.record fun _ _ he => by cases he)
  | failingOwn i =>
      simp only [advance] at h
      split at h
      · obtain rfl := Option.some.inj h
        exact Keeps.goTo (keeps_self.modify fun _ => ⟨rfl, rfl⟩)
      · obtain rfl := Option.some.inj h
        exact keeps_self.goTo
  | clearing =>
      obtain rfl := Option.some.inj h
      exact Keeps.goTo (keeps_self.record fun _ _ he => by cases he)
  | unregistering =>
      obtain rfl := Option.some.inj h
      exact Keeps.goTo (keeps_registry.record fun _ _ he => by cases he)
  | removingModels =>
      obtain rfl := Option.some.inj h
      exact Keeps.goTo (keeps_self.record fun _ _ he => by cases he)
  | goingOffline =>
      obtain rfl := Option.some.inj h
      exact Keeps.goTo (keeps_self.record fun _ _ he => by cases he)
  | sendingReady => cases h
  | live => cases h
  | closed => cases h

/-- Every step but the start of a connection keeps the handshakes. -/
theorem keeps_of_step {s s' : State} {act : Action} (h : step crypto uuids s act = some s')
    (hact : ∀ input, act ≠ .connect input) : Keeps s s' := by
  cases act with
  | connect input => exact absurd rfl (hact input)
  | step c =>
      obtain ⟨conn, hconn, h⟩ := Option.bind_eq_some_iff.1 h
      exact keeps_of_advance hconn h
  | ready c ok =>
      obtain ⟨conn, hconn, h⟩ := Option.bind_eq_some_iff.1 h
      split at h
      · obtain rfl := Option.some.inj h
        exact keeps_self.goTo
      · cases h
  | shutdown c =>
      obtain ⟨conn, hconn, h⟩ := Option.bind_eq_some_iff.1 h
      split at h
      · obtain ⟨got, -, rfl⟩ := Option.map_eq_some_iff.1 h
        exact Keeps.goTo (keeps_self.modify fun _ => ⟨rfl, rfl⟩)
      · cases h
  | socketClosed c =>
      obtain ⟨conn, hconn, h⟩ := Option.bind_eq_some_iff.1 h
      split at h
      · obtain rfl := Option.some.inj h
        exact keeps_self.goTo
      · cases h
  | pongTimeout c =>
      obtain ⟨conn, hconn, h⟩ := Option.bind_eq_some_iff.1 h
      split at h
      · obtain rfl := Option.some.inj h
        exact keeps_self.modify fun _ => ⟨rfl, rfl⟩
      · cases h
  | inbound c rid frame =>
      obtain ⟨conn, hconn, h⟩ := Option.bind_eq_some_iff.1 h
      split at h
      · obtain rfl := Option.some.inj h
        exact keeps_self.modify fun _ => ⟨rfl, rfl⟩
      · cases h
  | reader c =>
      obtain ⟨conn, hconn, h⟩ := Option.bind_eq_some_iff.1 h
      obtain ⟨next, -, rfl⟩ := Option.map_eq_some_iff.1 h
      exact keeps_self.modify fun _ => ⟨rfl, rfl⟩
  | request c op =>
      obtain ⟨conn, hconn, h⟩ := Option.bind_eq_some_iff.1 h
      split at h
      · obtain ⟨d', -, rfl⟩ := Option.map_eq_some_iff.1 h
        exact keeps_self.modify fun _ => ⟨rfl, rfl⟩
      · cases h

/-- **Every step keeps that an insertion is that of an accepted connection.** -/
theorem Traced.step {s s' : State} {act : Action} (h : Traced crypto s)
    (hstep : step crypto uuids s act = some s') : Traced crypto s' := by
  by_cases hact : ∃ input, act = .connect input
  · obtain ⟨input, rfl⟩ := hact
    cases hok : handshake crypto input with
    | error e =>
        simp only [Tunnel.step, hok, Option.some.injEq] at hstep
        exact hstep ▸ h
    | ok a =>
        simp only [Tunnel.step, hok, Option.some.injEq] at hstep
        subst hstep
        constructor
        · intro c conn hconn
          rcases TaskPool.getElem?_append_cases hconn with ⟨-, rfl⟩ | hconn
          · exact hok
          · exact h.conns c conn hconn
        · intro c n hlog
          obtain ⟨conn, hconn, hid⟩ := h.inserted c n hlog
          exact ⟨conn, TaskPool.getElem?_append_of hconn, hid⟩
  · refine h.of_keeps (keeps_of_step hstep fun input hinput => hact ⟨input, hinput⟩)

/-! ### The binding -/

/-- An accepted connection inserts its tunnel: alone in the router it does so in its second step. -/
theorem reachable_inserted (uuids : Sharding Uuid) {h : Handshake} {a : Accepted}
    (hok : handshake crypto h = .ok a) :
    ∃ s conn, Reachable (step crypto uuids) init s ∧ .inserted 0 a.nodeId ∈ s.log ∧
      s.conns[0]? = some conn ∧ conn.handshake = h ∧ conn.accepted = a := by
  let s₁ : State := { init with conns := [Conn.start h a] }
  let s₂ : State := ({ s₁ with registry := s₁.registry.remove a.nodeId }.record
    (.replaced 0 a.nodeId)).goTo 0 .inserting
  let s₃ : State := ({ s₂ with registry := s₂.registry.insert a.nodeId 0 }.record
    (.inserted 0 a.nodeId)).goTo 0 .sendingReady
  have h₁ : step crypto uuids init (.connect h) = some s₁ := by
    simp only [step, hok]
    rfl
  have h₂ : step crypto uuids s₁ (.step 0) = some s₂ := rfl
  have h₃ : step crypto uuids s₂ (.step 0) = some s₃ := rfl
  refine ⟨s₃, { Conn.start h a with phase := .sendingReady }, ?_, List.mem_cons_self, rfl, rfl, rfl⟩
  exact (((Reachable.refl init).tail h₁).tail h₂).tail h₃

/-- **Which frames keep the binding.**  For every handshake: in every run, the connections with this
handshake insert their tunnel only under the node id bound to the key that signed, if and only if
the frame fails one of the checks or names that node id.  And an accepted frame is rejected with
every other registered node id if and only if the frame is not accepted or there is no other
registered node id. -/
theorem takeover_iff (crypto : Crypto) (uuids : Sharding Uuid) (h : Handshake) :
    ((∀ s, Reachable (step crypto uuids) init s → InsertsBound crypto h s) ↔
      ∀ a, Passes crypto h a → a.nodeId = nodeIdFromEd25519Pubkey crypto a.pubkey) ∧
    (RejectsOthers crypto h ↔
      ∀ a, Passes crypto h a → ∀ id, Registered h id → id = a.nodeId) := by
  refine ⟨⟨?_, ?_⟩, ⟨?_, ?_⟩⟩
  · intro hbound a hpasses
    have hok := handshake_eq_ok_iff.2 hpasses
    obtain ⟨s, conn, hreach, hlog, hconn, hh, ha⟩ := reachable_inserted uuids hok
    have hn := hbound s hreach 0 a.nodeId conn hlog hconn hh
    rw [ha] at hn
    exact hn
  · rintro hpasses s hreach c n conn hlog hconn rfl
    have htraced := hreach.invariant traced_init fun _ _ _ => Traced.step
    obtain ⟨conn', hconn', rfl⟩ := htraced.inserted c n hlog
    obtain rfl := Option.some.inj (hconn.symm.trans hconn')
    exact hpasses conn.accepted (handshake_eq_ok_iff.1 (htraced.conns c conn hconn))
  · intro hrejects a hpasses id hreg
    by_contra hne
    have hok := handshake_eq_ok_iff.2 hpasses
    have hother := handshake_eq_ok_iff.2 (hpasses.withNodeId hreg)
    exact hrejects a hok id hne hreg _ hother
  · intro honly a hok id hne hreg _ _
    exact hne (honly a (handshake_eq_ok_iff.1 hok) id hreg)

theorem otherNodeId_ne :
    otherNodeId ≠ nodeIdFromEd25519Pubkey sampleCrypto (bytes32 samplePubkey) := by
  decide +kernel

theorem handshake_otherNodeId : handshake sampleCrypto (challenge7.handshake otherNodeId) =
    .ok ⟨otherNodeId, none, bytes32 samplePubkey⟩ := by
  decide +kernel

/-- **A node id can be taken over**: the frame of one key that names the node id of another is
accepted, and its tunnel is the one registered under that node id. -/
theorem takeover_breaks :
    ¬ ∀ (crypto : Crypto) (uuids : Sharding Uuid) (h : Handshake) (s : State),
      Reachable (step crypto uuids) init s → InsertsBound crypto h s := by
  intro hall
  obtain ⟨s, conn, hreach, hlog, hconn, hh, ha⟩ :=
    reachable_inserted sampleUuids handshake_otherNodeId
  have hbound := hall sampleCrypto sampleUuids _ s hreach 0 otherNodeId conn hlog hconn hh
  rw [ha] at hbound
  exact otherNodeId_ne hbound

end Tunnel
