/-
**How often the models of a node are fetched.**

A tunnel has its models fetched once it is announced, and again on its pongs; `maybe_refresh_on_pong`
passes over a pong that comes too soon after the last fetch that a pong has started.  So the requests
that a node can cause by its pongs are bounded by the time, and not by the pongs: at most one for each
interval, the first pong, and the fetch of the announcement.  The bound holds however the clock moves
between the pongs, as long as the times of the pongs lie between its two ends.

Main definitions:

* `ModelsRefresh.State.fetches` — the refreshes that were spawned for a tunnel;
* `ModelsRefresh.Fetch` — what a step means for the fetches of a tunnel.

Main results:

* `ModelsRefresh.fetch_of_step` — **a step spawns one refresh at most**, for the announcement or for a
  pong that is due;
* `ModelsRefresh.fetches_le` — **the fetches of a tunnel are bounded by the time between its pongs**.
-/

import SparklRouter.Catalog.Ghosts
import SparklRouter.Tunnel.Keepalive

set_option relaxedAutoImplicit false
set_option autoImplicit false

namespace ModelsRefresh

open Tunnel (ConnId)
open Transition

variable {fromStr : Text → Option Json.Value} {crypto : NodeAuth.Crypto} {uuids : Sharding Tunnel.Uuid}
  {minIntervalSecs : UInt64}

/-! ### The fetches of a tunnel -/

/-- The refreshes that were spawned for the tunnel. -/
def State.fetches (s : State fromStr) (c : ConnId) : ℕ :=
  s.refreshes.countP fun r => decide (r.tunnel = c)

/-- The handler is past the announcement of its tunnel. -/
def pastAnnouncement : Tunnel.Phase → Bool
  | .replacing | .signalling _ | .failingOld _ _ | .inserting | .sendingReady | .withdrawing
  | .announcing => false
  | _ => true

def State.announced (s : State fromStr) (c : ConnId) : Bool :=
  (s.router.standing c).any fun x => pastAnnouncement x.2

/-- Nothing is spawned for the tunnel, and no pong of it starts a fetch. -/
structure Keeps (c : ConnId) (s s' : State fromStr) : Prop where
  fetches : s'.fetches c = s.fetches c
  last : s'.lastModelsRefreshAt c = s.lastModelsRefreshAt c
  announced : s.announced c = true → s'.announced c = true

/-- **What a step means for the fetches of a tunnel.** -/
inductive Fetch (minIntervalSecs : UInt64) (c : ConnId) (s s' : State fromStr) : Action → Prop
  | none {act : Action} (hkeeps : Keeps c s s') : Fetch minIntervalSecs c s s' act
  | announce {act : Action} (hbefore : s.announced c = false) (hafter : s'.announced c = true)
      (hfetches : s'.fetches c = s.fetches c + 1)
      (hlast : s'.lastModelsRefreshAt c = s.lastModelsRefreshAt c) :
      Fetch minIntervalSecs c s s' act
  | pong {now : Int64}
      (hdue : ¬ (s.lastModelsRefreshAt c > 0 ∧
        now - s.lastModelsRefreshAt c < minIntervalSecs.toInt64))
      (hfetches : s'.fetches c = s.fetches c + 1) (hlast : s'.lastModelsRefreshAt c = now)
      (hannounced : s'.announced c = s.announced c) : Fetch minIntervalSecs c s s' (.pong c now)

section

variable {s s' s'' : State fromStr} {c d : ConnId}

theorem Keeps.trans (h : Keeps c s s') (h' : Keeps c s' s'') : Keeps c s s'' :=
  ⟨h'.fetches.trans h.fetches, h'.last.trans h.last, fun ha => h'.announced (h.announced ha)⟩

/-- A change of the catalog alone. -/
theorem Keeps.of_eq (hrouter : s'.router = s.router) (hrefreshes : s'.refreshes = s.refreshes)
    (hlast : s'.lastModelsRefreshAt = s.lastModelsRefreshAt) : Keeps c s s' := by
  refine ⟨?_, by rw [hlast], fun ha => ?_⟩
  · rw [State.fetches, State.fetches, hrefreshes]
  · rw [State.announced, hrouter]
    exact ha

/-- A refresh that goes on is the same refresh. -/
theorem keeps_goTo (i : ℕ) (pc : RefreshPc fromStr) : Keeps c s (s.goTo i pc) where
  fetches := by
    have hmap : (s.goTo i pc).refreshes.map Refresh.tunnel = s.refreshes.map Refresh.tunnel := by
      refine List.ext_getElem? fun j => ?_
      rw [State.goTo, List.getElem?_map, List.getElem?_map, List.getElem?_modify]
      split
      · cases s.refreshes[j]? <;> rfl
      · simp
    have hcount : ∀ rs : List (Refresh fromStr), rs.countP (fun r => decide (r.tunnel = c)) =
        (rs.map Refresh.tunnel).countP fun t => decide (t = c) := fun rs => by
      rw [List.countP_map]
      rfl
    rw [State.fetches, State.fetches, hcount, hcount, hmap]
  last := rfl
  announced ha := ha

/-- A handler does not go back behind the announcement of its tunnel. -/
theorem keeps_route {a : Tunnel.Action} (h : s.route crypto uuids a = some s') : Keeps c s s' := by
  obtain ⟨hstep, hs'⟩ := route_some h
  refine ⟨by rw [hs']; rfl, by rw [hs'], fun ha => ?_⟩
  rw [State.announced, Option.any_eq_true] at ha ⊢
  obtain ⟨⟨n, p⟩, hat, hp⟩ := ha
  rcases standing_step hstep hat with hsame | ⟨p', _, _, _, _, hat', hmove, -⟩
  · exact ⟨(n, p), hsame, hp⟩
  · refine ⟨(n, p'), hat', ?_⟩
    cases hmove <;> first | rfl | cases hp

theorem keeps_request {op : Tunnel.RequestOp} {i : ℕ} {pc : RefreshPc fromStr}
    (h : (s.route crypto uuids (.request d op)).map (fun s₁ => s₁.goTo i pc) = some s') :
    Keeps c s s' := by
  obtain ⟨s₁, hroute, rfl⟩ := Option.map_eq_some_iff.1 h
  exact (keeps_route hroute).trans (keeps_goTo i pc)

theorem keeps_refresh {i : ℕ} {r : Refresh fromStr} {pc : RefreshPc fromStr} {op : RefreshOp}
    (h : s.refresh crypto uuids i r pc op = some s') : Keeps c s s' := by
  unfold State.refresh at h
  split at h
  · obtain ⟨conn, -, hrequest⟩ := Option.bind_eq_some_iff.1 h
    exact keeps_request hrequest
  · obtain rfl := Option.some.inj h
    exact keeps_goTo ..
  · obtain ⟨conn, -, hrecv⟩ := Option.bind_eq_some_iff.1 h
    obtain ⟨got, -, hrequest⟩ := Option.bind_eq_some_iff.1 hrecv
    exact keeps_request hrequest
  · obtain rfl := Option.some.inj h
    exact keeps_goTo ..
  · exact keeps_request h
  · exact keeps_request h
  · rename_i advertised
    obtain rfl := Option.some.inj h
    have hwrite : Keeps c s { s with
        catalog := insertModels s.catalog r.nodeId advertised.models } := Keeps.of_eq rfl rfl rfl
    exact hwrite.trans (keeps_goTo ..)
  · rename_i orders
    obtain rfl := Option.some.inj h
    have hrebuild : Keeps c s { s with catalog := ModelsCatalog.rebuildUnion orders s.catalog } :=
      Keeps.of_eq rfl rfl rfl
    exact hrebuild.trans (keeps_goTo ..)
  · cases h

theorem fetches_spawn (s : State fromStr) (d : ConnId) (n : NodeId) (c : ConnId) :
    (s.spawn d n).fetches c = s.fetches c + if d = c then 1 else 0 := by
  rw [State.fetches, State.spawn, List.countP_append, List.countP_singleton]
  simp [State.fetches]

/-- The handler of a connection takes a step. -/
theorem fetch_of_advance (h : s.advance crypto uuids d = some s') :
    Fetch minIntervalSecs c s s' (.router (.step d)) := by
  obtain ⟨conn, hconn, hphase⟩ := Option.bind_eq_some_iff.1 h
  have hat := Tunnel.standing_of hconn
  cases hp : conn.phase with
  | announcing =>
      rw [hp] at hphase hat
      obtain ⟨s₁, hroute, rfl⟩ := Option.map_eq_some_iff.1 hphase
      by_cases hcd : d = c
      · subst hcd
        have hkeeps : Keeps d s s₁ := keeps_route hroute
        obtain ⟨hstep, -⟩ := route_some hroute
        have hlive : s₁.router.standing d = some (conn.nodeId, .live) := by
          simp only [Tunnel.step, hconn, Option.bind_some, hp, Tunnel.advance] at hstep
          rw [← Option.some.inj hstep]
          exact (Tunnel.standing_goTo hat _ d).trans (if_pos rfl)
        refine Fetch.announce ?_ ?_ ?_ hkeeps.last
        · rw [State.announced, hat]
          rfl
        · change (s₁.router.standing d).any _ = true
          rw [hlive]
          rfl
        · rw [fetches_spawn, if_pos rfl, hkeeps.fetches]
      · have hkeeps : Keeps c s s₁ := keeps_route hroute
        refine Fetch.none ⟨?_, hkeeps.last, hkeeps.announced⟩
        rw [fetches_spawn, if_neg hcd, hkeeps.fetches, Nat.add_zero]
  | removingModels =>
      rw [hp] at hphase
      obtain ⟨-, hroute⟩ := Option.ite_none_right_eq_some.1 hphase
      exact Fetch.none (keeps_route hroute)
  | _ =>
      rw [hp] at hphase
      exact Fetch.none (keeps_route hphase)

/-- **A step spawns one refresh at most** for a tunnel: for its announcement, or for a pong that is
due. -/
theorem fetch_of_step {act : Action}
    (h : step crypto uuids minIntervalSecs s act = some s') : Fetch minIntervalSecs c s s' act := by
  cases act with
  | router a =>
      cases a with
      | step d => exact fetch_of_advance h
      | _ => exact Fetch.none (keeps_route h)
  | pong d now =>
      obtain ⟨conn, -, hpong⟩ := Option.bind_eq_some_iff.1 h
      obtain ⟨-, hpong⟩ := Option.ite_none_right_eq_some.1 hpong
      obtain rfl := Option.some.inj hpong
      unfold State.maybeRefreshOnPong
      dsimp only
      split
      · exact Fetch.none (Keeps.of_eq rfl rfl rfl)
      · rename_i hdue
        by_cases hcd : d = c
        · subst hcd
          refine Fetch.pong hdue ?_ (Function.update_self ..) rfl
          rw [fetches_spawn, if_pos rfl]
          rfl
        · refine Fetch.none ⟨?_, Function.update_of_ne (Ne.symm hcd) .., fun ha => ha⟩
          rw [fetches_spawn, if_neg hcd]
          rfl
  | erase d =>
      obtain ⟨conn, -, herase⟩ := Option.bind_eq_some_iff.1 h
      obtain ⟨-, herase⟩ := Option.ite_none_right_eq_some.1 herase
      obtain rfl := Option.some.inj herase
      exact Fetch.none (Keeps.of_eq rfl rfl rfl)
  | rebuildErased d orders =>
      obtain ⟨-, hrebuild⟩ := Option.ite_none_right_eq_some.1 h
      obtain rfl := Option.some.inj hrebuild
      exact Fetch.none (Keeps.of_eq rfl rfl rfl)
  | refresh i op =>
      obtain ⟨r, -, hrefresh⟩ := Option.bind_eq_some_iff.1 h
      exact Fetch.none (keeps_refresh hrefresh)

end

/-! ### The bound -/

section

variable (minIntervalSecs) in
/-- The fetches of a tunnel between two times: none of a pong yet, or one for each interval since the
first time and one more. -/
structure Paced (first last : Int64) (c : ConnId) (s : State fromStr) : Prop where
  quiet : ¬ s.lastModelsRefreshAt c > 0 → s.fetches c ≤ (s.announced c).toNat
  paced : s.lastModelsRefreshAt c > 0 → first ≤ s.lastModelsRefreshAt c ∧
    s.lastModelsRefreshAt c ≤ last ∧
      s.fetches c ≤ (s.announced c).toNat + 1 +
        ((s.lastModelsRefreshAt c).toInt - first.toInt).toNat / minIntervalSecs.toNat

variable {s s' : State fromStr} {c : ConnId} {first last now : Int64}

/-- Nothing of the tunnel but its announcement. -/
theorem Paced.grow (h : Paced minIntervalSecs first last c s)
    (hlast : s'.lastModelsRefreshAt c = s.lastModelsRefreshAt c)
    (hfetches : s'.fetches c + (s.announced c).toNat ≤ s.fetches c + (s'.announced c).toNat) :
    Paced minIntervalSecs first last c s' where
  quiet hquiet := by
    rw [hlast] at hquiet
    have hle := h.quiet hquiet
    omega
  paced hpaced := by
    rw [hlast] at hpaced ⊢
    obtain ⟨hfirst, hupto, hle⟩ := h.paced hpaced
    exact ⟨hfirst, hupto, by omega⟩

/-- A pong that is due comes an interval after the one before it. -/
theorem interval_le (hsmall : minIntervalSecs.toNat < 2 ^ 63) {before : Int64} (hbefore : before > 0)
    (hnow : now > 0)
    (hdue : ¬ (before > 0 ∧ now - before < minIntervalSecs.toInt64)) :
    before.toInt + minIntervalSecs.toNat ≤ now.toInt := by
  have hlate : ¬ now - before < minIntervalSecs.toInt64 := fun h => hdue ⟨hbefore, h⟩
  rw [gt_iff_lt, Int64.lt_iff_toInt_lt, Int64.toInt_zero] at hbefore hnow
  have hbelow := before.toInt_lt
  have hupto := now.toInt_lt
  rw [Int64.lt_iff_toInt_lt, Int64.toInt_sub, Int.bmod_eq_of_le (by omega) (by omega),
    UInt64.toInt_toInt64_of_lt hsmall] at hlate
  omega

/-- An interval more, and a fetch more. -/
theorem div_add_one_le {interval : ℕ} (hinterval : 0 < interval) {start before now : ℤ}
    (hstart : start ≤ before) (h : before + interval ≤ now) :
    (before - start).toNat / interval + 1 ≤ (now - start).toNat / interval := by
  rw [← Nat.add_div_right _ hinterval]
  exact Nat.div_le_div_right (by omega)

/-- A pong that is due. -/
theorem Paced.pong (h : Paced minIntervalSecs first last c s) (hinterval : 0 < minIntervalSecs.toNat)
    (hsmall : minIntervalSecs.toNat < 2 ^ 63) (hpos : first > 0) (hfirst : first ≤ now)
    (hlast : now ≤ last)
    (hdue : ¬ (s.lastModelsRefreshAt c > 0 ∧
      now - s.lastModelsRefreshAt c < minIntervalSecs.toInt64))
    (hfetches : s'.fetches c = s.fetches c + 1) (hset : s'.lastModelsRefreshAt c = now)
    (hannounced : s'.announced c = s.announced c) : Paced minIntervalSecs first last c s' := by
  have hnow : now > 0 := by
    rw [gt_iff_lt, Int64.lt_iff_toInt_lt] at hpos ⊢
    rw [Int64.le_iff_toInt_le] at hfirst
    omega
  refine ⟨fun hquiet => absurd (hset ▸ hnow) hquiet, fun _ => ?_⟩
  rw [hset, hfetches, hannounced]
  refine ⟨hfirst, hlast, ?_⟩
  by_cases hbefore : s.lastModelsRefreshAt c > 0
  · obtain ⟨hstart, -, hle⟩ := h.paced hbefore
    rw [Int64.le_iff_toInt_le] at hstart
    have hmore := div_add_one_le hinterval hstart (interval_le hsmall hbefore hnow hdue)
    omega
  · have hle := h.quiet hbefore
    exact (Nat.succ_le_succ hle).trans (Nat.le_add_right _ _)

/-- **The fetches of a tunnel are bounded by the time between its pongs.**  In every run whose pongs of
the tunnel come between two times, at most one fetch is started for each interval between these, and two
more: that of the announcement, and that of the first pong. -/
theorem fetches_le (hinterval : 0 < minIntervalSecs.toNat)
    (hsmall : minIntervalSecs.toNat < 2 ^ 63) (hpos : first > 0) {as : List Action}
    (hpongs : ∀ now, Action.pong c now ∈ as → first ≤ now ∧ now ≤ last) :
    Always (step crypto uuids minIntervalSecs)
      (fun s => s.fetches c ≤ 2 + (last.toInt - first.toInt).toNat / minIntervalSecs.toNat)
      (init : State fromStr) as := by
  have hinit : Paced minIntervalSecs first last c (init : State fromStr) :=
    ⟨fun _ => Nat.le_refl 0, fun h => absurd h (show ¬ (0 : Int64) > 0 by decide)⟩
  have hstep : ∀ s act s', Paced minIntervalSecs first last c s →
      step crypto uuids minIntervalSecs s act = some s' →
      (∀ now, act = .pong c now → first ≤ now ∧ now ≤ last) →
      Paced minIntervalSecs first last c (s' : State fromStr) := by
    intro s act s' hpaced hs hact
    cases fetch_of_step (c := c) hs with
    | none hkeeps =>
        refine hpaced.grow hkeeps.last ?_
        rw [hkeeps.fetches]
        cases hbefore : s.announced c with
        | true => rw [hkeeps.announced hbefore]
        | false => exact Nat.add_le_add_left (Nat.zero_le _) _
    | announce hbefore hafter hfetches hlast =>
        refine hpaced.grow hlast ?_
        rw [hfetches, hbefore, hafter]
        exact Nat.le_refl _
    | @pong now hdue hfetches hset hannounced =>
        obtain ⟨hfirst, hlast⟩ := hact now rfl
        exact hpaced.pong hinterval hsmall hpos hfirst hlast hdue hfetches hset hannounced
  have hthroughout : Throughout (step crypto uuids minIntervalSecs)
      (fun _ act _ => ∀ now, act = .pong c now → first ≤ now ∧ now ≤ last)
      (init : State fromStr) as :=
    throughout_of_forall_mem (fun act hact now heq => hpongs now (by rw [← heq]; exact hact)) _
  refine (always_of_step hstep hinit hthroughout).mono fun s hpaced => ?_
  have hone : (s.announced c).toNat ≤ 1 := Bool.toNat_le _
  by_cases hbefore : s.lastModelsRefreshAt c > 0
  · obtain ⟨-, hupto, hle⟩ := hpaced.paced hbefore
    rw [Int64.le_iff_toInt_le] at hupto
    have hdiv : ((s.lastModelsRefreshAt c).toInt - first.toInt).toNat / minIntervalSecs.toNat ≤
        (last.toInt - first.toInt).toNat / minIntervalSecs.toNat :=
      Nat.div_le_div_right (by omega)
    omega
  · have hle := hpaced.quiet hbefore
    exact (hle.trans (hone.trans (by decide))).trans (Nat.le_add_right 2 _)

end

/-! ### Four pongs -/

open NodeAuth (challenge7 sampleCrypto sampleNodeId)
open Tunnel (sampleUuids)

/-- A node connects and sends four pongs. -/
def flooded : List Action :=
  [.router (.connect (challenge7.handshake sampleNodeId)), .router (.step 0), .router (.step 0),
    .router (.ready 0 true), .router (.step 0), .pong 0 100, .pong 0 110, .pong 0 130, .pong 0 170]

/-- The first and the last of the pongs start a fetch. -/
theorem fetches_le_flooded : Always (step sampleCrypto sampleUuids 60)
    (fun s => s.fetches 0 ≤
      2 + ((170 : Int64).toInt - (100 : Int64).toInt).toNat / (60 : UInt64).toNat)
    (init : State ModelsCatalog.parsesBoth) flooded := by
  refine fetches_le (by decide) (by decide) (by decide) fun now hnow => ?_
  have hcases : now = 100 ∨ now = 110 ∨ now = 130 ∨ now = 170 := by simpa [flooded] using hnow
  rcases hcases with rfl | rfl | rfl | rfl <;> exact ⟨by decide, by decide⟩

example : (run (step sampleCrypto sampleUuids 60) (init : State ModelsCatalog.parsesBoth)
    flooded).map (fun s => s.fetches 0) = some 3 := by
  decide +kernel

end ModelsRefresh
