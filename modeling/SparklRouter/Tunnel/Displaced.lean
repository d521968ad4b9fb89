/-
**Tunnels that another connection has taken out of the registry.**

A handshake replaces the tunnel of its node in two steps: `tunnels.remove` takes the old tunnel out,
which is then told to shut down and has its requests failed, and `tunnels.insert` registers the new
one.  `insert` returns the tunnel it overwrites, and `handle_node_connect` drops it: when another
handshake of the node has inserted its own tunnel between the two steps, that tunnel is displaced
without being told.

Main definitions:

* `Tunnel.DisplacedClosed` — a displaced tunnel is closed by the time the handler that displaced it
  sends `ready`;
* `Tunnel.AtMostOne` — at most one tunnel of a node is live and has not been told to shut down;
* `Tunnel.displacesEnded`, `Tunnel.takesNoneInUse` — the conditions on one step.

Main results:

* `Tunnel.displacedClosed_iff` — **displaced tunnels are closed in every state of a run exactly when
  no insertion, and no removal after a failed `ready`, hits a tunnel of another connection whose
  lifecycle has not ended**;
* `Tunnel.closed_of_takesNoneInUse` — with the same for the removal at the end of a lifecycle, **a
  node has at most one tunnel in use besides**;
* `Tunnel.closed_breaks` — two handshakes that finish together leave two.
-/

import SparklRouter.Tunnel.Watch

set_option relaxedAutoImplicit false
set_option autoImplicit false

namespace Tunnel

open NodeAuth Transition

variable {crypto : Crypto} {uuids : Sharding Uuid}

/-! ### Displaced tunnels are closed -/

/-- The tunnel has been told to shut down and its requests have been failed, or its own lifecycle
tears it down. -/
def History.Closes (g : History) (c : ConnId) : Prop :=
  (c ∈ g.signalled ∧ c ∈ g.failed) ∨ c ∈ g.ended

/-- **When a handler is about to send `ready`, and from then on, the tunnels it displaced are
closed.** -/
def DisplacedClosed (h : Watched) : Prop :=
  ∀ x ∈ h.history.displaced, ∀ n p, h.state.standing x.handler = some (n, p) → p.created = true →
    h.history.Closes x.tunnel

/-- The handshake of the connection is in progress: `ready` has not been sent. -/
def Phase.handshaking : Phase → Bool
  | .replacing | .signalling _ | .failingOld _ _ | .inserting | .sendingReady => true
  | _ => false

/-- `ready` was sent, and the lifecycle of the tunnel has not left its loop. -/
def Phase.serving : Phase → Bool
  | .announcing | .live => true
  | _ => false

/-- The tunnel of the node is live, and nobody has told it to shut down. -/
def InUse (h : Watched) (n : NodeId) (c : ConnId) : Prop :=
  (∃ p, h.state.standing c = some (n, p) ∧ p.serving = true) ∧ c ∉ h.history.signalled

/-- **While no handshake of a node is in progress, at most one of its tunnels is in use.** -/
def AtMostOne (h : Watched) : Prop :=
  ∀ n, (∀ c p, h.state.standing c = some (n, p) → p.handshaking = false) →
    ∀ c d, InUse h n c → InUse h n d → c = d

/-- **Displaced tunnels are closed, and at most one tunnel of a node is in use.** -/
def OneInUse (h : Watched) : Prop := DisplacedClosed h ∧ AtMostOne h

/-- The registered tunnel of the node is `c` itself, or satisfies the test. -/
def Watched.hitsOnly (h : Watched) (c : ConnId) (n : NodeId) (p : ConnId → Bool) : Bool :=
  (h.state.registry.get n).all fun old => decide (old = c) || p old

/-- An insertion, and a removal after a failed `ready`, hits no tunnel of another connection but one
whose lifecycle has left its loop. -/
def displacesEnded (h : Watched) : Action → Bool
  | .step c =>
      match h.state.standing c with
      | some (n, .inserting) | some (n, .withdrawing) =>
          h.hitsOnly c n fun old => decide (old ∈ h.history.ended)
      | _ => true
  | _ => true

/-- The removal at the end of a lifecycle hits no tunnel of another connection but one that has been
told to shut down, or whose lifecycle has left its loop. -/
def unregistersUnused (h : Watched) : Action → Bool
  | .step c =>
      match h.state.standing c with
      | some (n, .unregistering) => h.hitsOnly c n fun old =>
          decide (old ∈ h.history.signalled) || decide (old ∈ h.history.ended)
      | _ => true
  | _ => true

/-- Both conditions. -/
def takesNoneInUse (h : Watched) (act : Action) : Bool :=
  displacesEnded h act && unregistersUnused h act

theorem Watched.hitsOnly_iff {h : Watched} {c : ConnId} {n : NodeId} {p : ConnId → Bool} :
    h.hitsOnly c n p = true ↔
      ∀ old, h.state.registry.get n = some old → old = c ∨ p old = true := by
  unfold Watched.hitsOnly
  cases h.state.registry.get n with
  | none => exact ⟨fun _ old hold => (by cases hold), fun _ => rfl⟩
  | some old =>
      rw [Option.all_some, Bool.or_eq_true, decide_eq_true_iff]
      constructor
      · intro hor old' hold
        obtain rfl := Option.some.inj hold
        exact hor
      · exact fun hall => hall old rfl

theorem displacesEnded_iff {h : Watched} {act : Action} : displacesEnded h act = true ↔
    ∀ c n p old, act = .step c → h.state.standing c = some (n, p) →
      p = .inserting ∨ p = .withdrawing → h.state.registry.get n = some old →
        old = c ∨ old ∈ h.history.ended := by
  constructor
  · rintro hends c n p old rfl hat hphase hget
    rcases hphase with rfl | rfl
    · simp only [displacesEnded, hat, Watched.hitsOnly_iff, decide_eq_true_iff] at hends
      exact hends old hget
    · simp only [displacesEnded, hat, Watched.hitsOnly_iff, decide_eq_true_iff] at hends
      exact hends old hget
  · intro hall
    unfold displacesEnded
    split
    · split
      · rename_i c _ n hat
        exact Watched.hitsOnly_iff.2 fun old hget =>
          (hall c n _ old rfl hat (Or.inl rfl) hget).imp_right decide_eq_true
      · rename_i c _ n hat
        exact Watched.hitsOnly_iff.2 fun old hget =>
          (hall c n _ old rfl hat (Or.inr rfl) hget).imp_right decide_eq_true
      · rfl
    · rfl

/-- What a lifecycle hits with its removal. -/
theorem hit_of_unregistersUnused {h : Watched} {c old : ConnId} {n : NodeId}
    (hunused : unregistersUnused h (.step c) = true)
    (hat : h.state.standing c = some (n, .unregistering))
    (hget : h.state.registry.get n = some old) :
    old = c ∨ old ∈ h.history.signalled ∨ old ∈ h.history.ended := by
  simp only [unregistersUnused, hat, Watched.hitsOnly_iff, Bool.or_eq_true,
    decide_eq_true_iff] at hunused
  exact hunused old hget

/-! ### Displaced tunnels -/

/-- A displaced tunnel is being closed by the handler that displaced it, or it is closed. -/
def Handled (h : Watched) : Prop :=
  ∀ x ∈ h.history.displaced, (∃ n p, h.state.standing x.handler = some (n, p) ∧
    p.closing = some x.tunnel) ∨ h.history.Closes x.tunnel

theorem handled_init : Handled Watched.init := fun _ h => by cases h

/-- A handler that is done with the tunnels it displaced has closed them. -/
theorem Handled.displacedClosed {h : Watched} (hhandled : Handled h) : DisplacedClosed h := by
  intro x hx n p hp hcreated
  rcases hhandled x hx with ⟨m, q, hq, hclosing⟩ | hcloses
  · obtain ⟨-, rfl⟩ := Prod.mk.inj (Option.some.inj (hp.symm.trans hq))
    rw [Phase.not_created_of_closing hclosing] at hcreated
    cases hcreated
  · exact hcloses

theorem History.Closes.grows {g g' : History} {c : ConnId} (h : g.Closes c) (hgrows : g.Grows g') :
    g'.Closes c :=
  h.imp (fun hboth => ⟨hgrows.signalled hboth.1, hgrows.failed hboth.2⟩) hgrows.ended

section
variable {registry registry' : ShardMap NodeId ConnId} {g g' : History} {c : ConnId} {n : NodeId}
  {p p' : Phase}

/-- The displacements of a move: the tunnel that a handshake takes out it goes on to close. -/
theorem Moves.displaced (h : Moves registry g c n p p' registry' g') {x : Displacement}
    (hx : x ∈ g'.displaced) : x ∈ g.displaced ∨ (x.handler = c ∧ x.tunnel ≠ c ∧
      registry.get n = some x.tunnel ∧
        (p'.closing = some x.tunnel ∨ p = .inserting ∨ p = .withdrawing)) := by
  cases h with
  | take hold =>
      refine (History.mem_displace.1 hx).imp_right fun ⟨hhandler, htunnel, hne⟩ => ?_
      exact ⟨hhandler, hne, htunnel, Or.inl (hold.symm.trans htunnel)⟩
  | vacant hnone =>
      refine (History.mem_displace.1 hx).imp_right fun ⟨_, htunnel, _⟩ => ?_
      rw [hnone] at htunnel
      cases htunnel
  | insert =>
      refine (History.mem_displace.1 hx).imp_right fun ⟨hhandler, htunnel, hne⟩ => ?_
      exact ⟨hhandler, hne, htunnel, Or.inr (Or.inl rfl)⟩
  | withdraw =>
      refine (History.mem_displace.1 hx).imp_right fun ⟨hhandler, htunnel, hne⟩ => ?_
      exact ⟨hhandler, hne, htunnel, Or.inr (Or.inr rfl)⟩
  | _ => exact Or.inl hx

/-- A handler stops closing a tunnel when its call of `fail_all_pending` has returned. -/
theorem Moves.closes {old : ConnId} (h : Moves registry g c n p p' registry' g')
    (hp : p.closing = some old) : p'.closing = some old ∨
      (∃ i, p = .failingOld old i) ∧ old ∈ g'.failed := by
  cases h with
  | signal => exact Or.inl hp
  | failOld => exact Or.inl hp
  | failedOld =>
      obtain rfl := Option.some.inj hp
      exact Or.inr ⟨⟨_, rfl⟩, List.mem_cons_self⟩
  | _ => cases hp

end

theorem Handled.stride {h h' : Watched} {act : Action} (hhandled : Handled h)
    (horderly : Orderly h) (hstride : Stride h act h') (hends : displacesEnded h act = true) :
    Handled h' := by
  have hstride' := hstride
  cases hstride' with
  | still hact hstanding hregistry hdisplaced hsignalled hfailed hended =>
      intro x hx
      refine (hhandled x (hdisplaced ▸ hx)).imp ?_ fun hcloses => hcloses.grows hstride.grows
      rintro ⟨n, p, hp, hclosing⟩
      exact ⟨n, p, (hstanding _).trans hp, hclosing⟩
  | join hact hfresh hstanding hregistry hhistory =>
      intro x hx
      rw [hhistory] at hx
      refine (hhandled x hx).imp ?_ fun hcloses => hcloses.grows hstride.grows
      rintro ⟨n, p, hp, hclosing⟩
      exact ⟨n, p, (standing_of_join hfresh hstanding).1 _ _ hp, hclosing⟩
  | @move c n p p' hact hat hstanding hmove =>
      intro x hx
      have hself : h'.state.standing c = some (n, p') := by rw [hstanding, if_pos rfl]
      rcases hmove.displaced hx with hx | ⟨rfl, hne, hget, hphase⟩
      · rcases hhandled x hx with ⟨m, q, hq, hclosing⟩ | hcloses
        · by_cases hxc : x.handler = c
          · -- the handler goes on, or its last call has returned
            rw [hxc] at hq ⊢
            obtain ⟨rfl, rfl⟩ := Prod.mk.inj (Option.some.inj (hat.symm.trans hq))
            rcases hmove.closes hclosing with hclosing | ⟨⟨i, rfl⟩, hfailed⟩
            · exact Or.inl ⟨n, p', hself, hclosing⟩
            · have hsignalled := horderly.signalled c n x.tunnel i hat
              exact Or.inr (Or.inl ⟨hstride.grows.signalled hsignalled, hfailed⟩)
          · exact Or.inl ⟨m, q, by rw [hstanding, if_neg hxc, hq], hclosing⟩
        · exact Or.inr (hcloses.grows hstride.grows)
      · rcases hphase with hclosing | hphase
        · exact Or.inl ⟨n, p', hself, hclosing⟩
        · -- what an insertion or a failed `ready` displaces has ended
          have hstep : act = .step x.handler := by
            rcases hact with hstep | ⟨-, hother⟩
            · exact hstep
            · rcases hphase with rfl | rfl <;> rcases hother with h | h <;> cases h
          have hhit := displacesEnded_iff.1 hends x.handler n p x.tunnel hstep hat hphase hget
          rcases hhit with hown | hended
          · exact absurd hown hne
          · exact Or.inr (Or.inr (hstride.grows.ended hended))

/-- An insertion, and a removal after a failed `ready`, is the last step of its handler before it is
done with the registry. -/
theorem Moves.displaces {registry registry' : ShardMap NodeId ConnId} {g g' : History} {c : ConnId}
    {n : NodeId} {p p' : Phase} (h : Moves registry g c n p p' registry' g')
    (hp : p = .inserting ∨ p = .withdrawing) :
    p'.created = true ∧ g' = g.displace registry c n := by
  rcases hp with rfl | rfl
  · cases h
    exact ⟨rfl, rfl⟩
  · cases h
    exact ⟨rfl, rfl⟩

/-- A tunnel in use that an insertion or a failed `ready` displaces is not closed. -/
theorem displacesEnded_of_displacedClosed {h h' : Watched} {act : Action} (horderly : Orderly h)
    (hstride : Stride h act h') (hclosed : DisplacedClosed h') :
    displacesEnded h act = true := by
  refine displacesEnded_iff.2 ?_
  rintro c n p old rfl hat hphase hget
  by_cases hown : old = c
  · exact Or.inl hown
  · right
    cases hstride with
    | still hact hstanding hregistry hdisplaced hsignalled hfailed hended =>
        rw [hact c rfl] at hat
        cases hat
    | join hact hfresh hstanding hregistry hhistory => exact absurd rfl (hact c)
    | @move d m q q' hact hat' hstanding hmove =>
        obtain rfl : c = d := by
          rcases hact with hstep | ⟨hother, -⟩
          · exact Action.step.inj hstep
          · exact absurd rfl (hother c)
        obtain ⟨rfl, rfl⟩ := Prod.mk.inj (Option.some.inj (hat.symm.trans hat'))
        obtain ⟨hcreated, hhistory⟩ := hmove.displaces hphase
        have hmem : ⟨c, old⟩ ∈ h'.history.displaced := by
          rw [hhistory]
          exact History.mem_displace.2 (Or.inr ⟨rfl, hget, hown⟩)
        have hself : h'.state.standing c = some (n, q') := by rw [hstanding, if_pos rfl]
        rcases hclosed _ hmem n q' hself hcreated with ⟨-, hfailed⟩ | hended
        · -- a tunnel whose requests were failed is not registered, unless its lifecycle ended
          rw [hhistory, History.displace_failed] at hfailed
          rcases horderly.failed old hfailed with hended | ⟨m, hunlisted⟩
          · exact hended
          · exact absurd hget (hunlisted.2 n)
        · rwa [hhistory, History.displace_ended] at hended

/-- **When displaced tunnels are closed.**  In every run of the router, the tunnels that a handler
has displaced are closed by the time it sends `ready`, in every state, if and only if no insertion,
and no removal after a failed `ready`, hits a tunnel of another connection whose lifecycle is still
in its loop or before it. -/
theorem displacedClosed_iff (crypto : Crypto) (uuids : Sharding Uuid) (as : List Action) :
    Always (watch crypto uuids) DisplacedClosed Watched.init as ↔
      Throughout (watch crypto uuids) (fun h act _ => displacesEnded h act = true) Watched.init
        as := by
  constructor
  · intro hclosed
    refine throughout_of_always (I := Orderly) ?_ ?_ orderly_init hclosed
    · intro h act h' horderly hwatch
      exact horderly.stride (stride_of_watch hwatch)
    · intro h act h' horderly hwatch _ hclosed'
      exact displacesEnded_of_displacedClosed horderly (stride_of_watch hwatch) hclosed'
  · intro hends
    have hboth := always_of_step (I := fun h => Orderly h ∧ Handled h) ?_
      ⟨orderly_init, handled_init⟩ hends
    · exact hboth.mono fun h hh => hh.2.displacedClosed
    · rintro h act h' ⟨horderly, hhandled⟩ hwatch hcond
      have hstride := stride_of_watch hwatch
      exact ⟨horderly.stride hstride, hhandled.stride horderly hstride hcond⟩

/-! ### Tunnels in use -/

/-- A tunnel whose connection holds its node id is registered, or has been told to shut down, or is
about to be. -/
def Accounted (h : Watched) : Prop :=
  ∀ n c p, h.state.standing c = some (n, p) → p.holds = true →
    h.state.registry.get n = some c ∨ c ∈ h.history.signalled ∨
      ∃ d m, h.state.standing d = some (m, .signalling c)

theorem accounted_init : Accounted Watched.init := fun n c p h => by cases h

theorem Phase.not_holds_of_torn {p : Phase} (h : p.torn = true) : p.holds = false := by
  cases p <;> first | rfl | cases h

theorem Phase.holds_of_serving {p : Phase} (h : p.serving = true) : p.holds = true := by
  cases p <;> first | rfl | cases h

section
variable {registry registry' : ShardMap NodeId ConnId} {g g' : History} {c : ConnId} {n : NodeId}
  {p p' : Phase}

/-- How a registered tunnel leaves the registry. -/
theorem Moves.lost (h : Moves registry g c n p p' registry' g') {m : NodeId} {d : ConnId}
    (hget : registry.get m = some d) : registry'.get m = some d ∨
      (m = n ∧ (p' = .signalling d ∨ p = .inserting ∨ p = .withdrawing ∨ p = .unregistering)) := by
  by_cases hm : m = n
  · subst hm
    cases h with
    | take hold =>
        obtain rfl := Option.some.inj (hold.symm.trans hget)
        exact Or.inr ⟨rfl, Or.inl rfl⟩
    | vacant hnone =>
        rw [hnone] at hget
        cases hget
    | insert => exact Or.inr ⟨rfl, Or.inr (Or.inl rfl)⟩
    | withdraw => exact Or.inr ⟨rfl, Or.inr (Or.inr (Or.inl rfl))⟩
    | unregister => exact Or.inr ⟨rfl, Or.inr (Or.inr (Or.inr rfl))⟩
    | _ => exact Or.inl hget
  · left
    rcases h.registered with ⟨rfl, -⟩ | rfl | ⟨-, -, rfl⟩
    · exact hget
    · rw [ShardMap.get_remove_of_ne _ hm, hget]
    · rw [ShardMap.get_insert_of_ne _ _ hm, hget]

/-- A connection begins to hold its node id when it registers its tunnel. -/
theorem Moves.holds (h : Moves registry g c n p p' registry' g') (hp : p'.holds = true) :
    registry'.get n = some c ∨ (p.holds = true ∧ registry' = registry) := by
  cases h with
  | insert => exact Or.inl (ShardMap.get_insert_self ..)
  | sent => exact Or.inr ⟨rfl, rfl⟩
  | announce => exact Or.inr ⟨rfl, rfl⟩
  | _ => cases hp

theorem Moves.signalling {old : ConnId}
    (h : Moves registry g c n (.signalling old) p' registry' g') : old ∈ g'.signalled := by
  cases h
  exact List.mem_cons_self

end

theorem Accounted.stride {h h' : Watched} {act : Action} (haccounted : Accounted h)
    (horderly : Orderly h) (hstride : Stride h act h') (htakes : takesNoneInUse h act = true) :
    Accounted h' := by
  obtain ⟨hends, hunused⟩ := (Bool.and_eq_true _ _).mp htakes
  have hstride' := hstride
  cases hstride' with
  | still hact hstanding hregistry hdisplaced hsignalled hfailed hended =>
      intro n c p hp hholds
      rcases haccounted n c p ((hstanding c).symm.trans hp) hholds with hget | hs | ⟨d, m, hd⟩
      · exact Or.inl (by rw [hregistry, hget])
      · exact Or.inr (Or.inl (hsignalled c hs))
      · exact Or.inr (Or.inr ⟨d, m, (hstanding d).trans hd⟩)
  | join hact hfresh hstanding hregistry hhistory =>
      intro n c p hp hholds
      obtain ⟨hkept, hnew⟩ := standing_of_join hfresh hstanding
      rcases hnew c n p hp with hp | rfl
      · rcases haccounted n c p hp hholds with hget | hs | ⟨d, m, hd⟩
        · exact Or.inl (by rw [hregistry, hget])
        · exact Or.inr (Or.inl (hstride.grows.signalled hs))
        · exact Or.inr (Or.inr ⟨d, m, hkept d _ hd⟩)
      · cases hholds
  | @move e k q q' hact hat hstanding hmove =>
      intro n c p hp hholds
      -- who is about to signal the tunnel still is, or has done it
      have hsignalling : ∀ d m, h.state.standing d = some (m, .signalling c) →
          c ∈ h'.history.signalled ∨ ∃ d m, h'.state.standing d = some (m, .signalling c) := by
        intro d m hd
        by_cases hde : d = e
        · subst hde
          obtain ⟨rfl, rfl⟩ := Prod.mk.inj (Option.some.inj (hat.symm.trans hd))
          exact Or.inl hmove.signalling
        · exact Or.inr ⟨d, m, by rw [hstanding, if_neg hde, hd]⟩
      by_cases hce : c = e
      · subst hce
        rw [hstanding, if_pos rfl] at hp
        obtain ⟨rfl, rfl⟩ := Prod.mk.inj (Option.some.inj hp)
        rcases hmove.holds hholds with hget | ⟨hheld, hsame⟩
        · exact Or.inl hget
        · rcases haccounted k c q hat hheld with hget | hs | ⟨d, m, hd⟩
          · exact Or.inl (by rw [hsame, hget])
          · exact Or.inr (Or.inl (hstride.grows.signalled hs))
          · exact Or.inr (hsignalling d m hd)
      · rw [hstanding, if_neg hce] at hp
        rcases haccounted n c p hp hholds with hget | hs | ⟨d, m, hd⟩
        · rcases hmove.lost hget with hget' | ⟨rfl, hlost⟩
          · exact Or.inl hget'
          · right
            -- the lifecycle of the tunnel has not ended
            have hinLoop : c ∉ h.history.ended := by
              intro hended
              obtain ⟨m, r, hr, htorn⟩ := horderly.ended c hended
              obtain ⟨-, rfl⟩ := Prod.mk.inj (Option.some.inj (hp.symm.trans hr))
              rw [Phase.not_holds_of_torn htorn] at hholds
              cases hholds
            have hstep : q = .inserting ∨ q = .withdrawing ∨ q = .unregistering →
                act = .step e := by
              intro hq
              rcases hact with hstep | ⟨-, hother⟩
              · exact hstep
              · rcases hq with rfl | rfl | rfl <;> rcases hother with h | h <;> cases h
            have hdisplaces : q = .inserting ∨ q = .withdrawing → False := by
              intro hq
              have hact := hstep (hq.imp_right Or.inl)
              rcases displacesEnded_iff.1 hends e n q c hact hat hq hget with hown | hended
              · exact hce hown
              · exact hinLoop hended
            rcases hlost with rfl | hq | hq | rfl
            · exact Or.inr ⟨e, n, by rw [hstanding, if_pos rfl]⟩
            · exact (hdisplaces (Or.inl hq)).elim
            · exact (hdisplaces (Or.inr hq)).elim
            · rw [hstep (Or.inr (Or.inr rfl))] at hunused
              rcases hit_of_unregistersUnused hunused hat hget with hown | hs | hended
              · exact absurd hown hce
              · exact Or.inl (hstride.grows.signalled hs)
              · exact absurd hended hinLoop
        · exact Or.inr (Or.inl (hstride.grows.signalled hs))
        · exact Or.inr (hsignalling d m hd)

/-- Two tunnels of a node that are both in use are both registered under it. -/
theorem Accounted.atMostOne {h : Watched} (haccounted : Accounted h) (horderly : Orderly h) :
    AtMostOne h := by
  intro n hdone
  have hregistered : ∀ c, InUse h n c → h.state.registry.get n = some c := by
    rintro c ⟨⟨p, hp, hserving⟩, hsignalled⟩
    rcases haccounted n c p hp (Phase.holds_of_serving hserving) with hget | hs | ⟨d, m, hd⟩
    · exact hget
    · exact absurd hs hsignalled
    · -- the handler that is about to signal the tunnel is in the handshake of the same node
      obtain ⟨⟨q, hq, -⟩, -⟩ := horderly.closing d m _ c hd rfl
      obtain ⟨rfl, -⟩ := Prod.mk.inj (Option.some.inj (hp.symm.trans hq))
      have := hdone d _ hd
      cases this
  intro c d hc hd
  exact Option.some.inj ((hregistered c hc).symm.trans (hregistered d hd))

/-- **Runs that displace no tunnel in use.**  In every run of the router in which no insertion, and
no removal at the end of a connection, hits a tunnel of another connection that is in use, the
displaced tunnels are closed and a node has at most one tunnel in use, in every state. -/
theorem closed_of_takesNoneInUse (crypto : Crypto) (uuids : Sharding Uuid) (as : List Action)
    (htakes : Throughout (watch crypto uuids) (fun h act _ => takesNoneInUse h act = true)
      Watched.init as) :
    Always (watch crypto uuids) OneInUse Watched.init as := by
  have hall := always_of_step (I := fun h => Orderly h ∧ Handled h ∧ Accounted h) ?_
    ⟨orderly_init, handled_init, accounted_init⟩ htakes
  · refine hall.mono fun h hh => ?_
    exact ⟨hh.2.1.displacedClosed, hh.2.2.atMostOne hh.1⟩
  · rintro h act h' ⟨horderly, hhandled, haccounted⟩ hwatch hcond
    have hstride := stride_of_watch hwatch
    refine ⟨horderly.stride hstride, ?_, haccounted.stride horderly hstride hcond⟩
    exact hhandled.stride horderly hstride ((Bool.and_eq_true _ _).mp hcond).1

/-- The first connection is live, the second of the node replaces it and is live, and the first
receives its signal and tears down up to its removal. -/
def handover : List Action := reconnect.take 19

theorem takesNoneInUse_handover :
    checkThroughout (watch sampleCrypto sampleUuids) takesNoneInUse Watched.init handover =
      true := by
  decide +kernel

theorem closed_handover :
    Always (watch sampleCrypto sampleUuids) OneInUse Watched.init handover :=
  closed_of_takesNoneInUse _ _ _ (throughout_of_check takesNoneInUse_handover)

/-- Two handshakes of a node both find nothing to take out, and insert one after the other. -/
def collide : List Action :=
  [.connect (challenge7.handshake sampleNodeId), .connect (challenge9.handshake sampleNodeId),
    .step 0, .step 1, .step 0, .step 1, .ready 0 true, .ready 1 true, .step 0, .step 1]

/-- The calls on the first tunnel, which the second connection has displaced. -/
def observeDisplaced (h : Watched) : Bool × List ConnId × List ConnId × Option Bool :=
  (decide (⟨1, 0⟩ ∈ h.history.displaced), h.history.signalled, h.history.ended,
    (h.state.standing 1).map fun x => x.2.created)

theorem observe_collide : (run (watch sampleCrypto sampleUuids) Watched.init collide).map
    observeDisplaced = some (true, [], [], some true) := by
  decide +kernel

/-- **Two handshakes that finish together leave a live tunnel that nobody closes.** -/
theorem closed_breaks : ¬ ∀ (crypto : Crypto) (uuids : Sharding Uuid) (as : List Action),
    Always (watch crypto uuids) OneInUse Watched.init as := by
  intro h
  obtain ⟨w, hw, hobs⟩ := (h sampleCrypto sampleUuids collide).observe observe_collide
  simp only [observeDisplaced, Prod.mk.injEq, decide_eq_true_eq] at hobs
  obtain ⟨hmem, hsignalled, hended, hready⟩ := hobs
  obtain ⟨⟨n, p⟩, hat, hcreated⟩ := Option.map_eq_some_iff.1 hready
  rcases hw.1 _ hmem n p hat hcreated with ⟨hin, -⟩ | hin
  · rw [hsignalled] at hin
    cases hin
  · rw [hended] at hin
    cases hin

end Tunnel
