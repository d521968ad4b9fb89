/-
**The role of the router's key.**

With its key at hand a start asks the escrow for the metering role, sets it to the address of the key if
it is another and the owner's key is configured, and later makes a client of the key, which it keeps
only if the role is the address (`ensure_record_usage_role` in `src/chain/record_usage_key.rs`,
`RecordUsageClient::new` in `src/chain/usage.rs`, `main`).  The role is read and set in separate calls,
a start can end between any two of them, and a transaction that a start has sent can be included long
after it.

What comes of it is settled once the role is the address of the key and no transaction for another
address is under way: then the role stays, whatever the starts meet with, and none of them sends
another transaction for it.

Main definitions:

* `RecordUsageKey.State.roleCalls` — the addresses for which the starts have asked for the role;
* `RecordUsageKey.Act.Lone` — one router, whose configuration gives it no key, and nobody else sets
  the role.

Main results:

* `RecordUsageKey.client_address` — a client has the address of the key;
* `RecordUsageKey.registered_for_good` — **a role that is set is set for good**;
* `RecordUsageKey.exists_enabled` — **a start whose calls are answered enables the usage batcher**.
-/

import SparklRouter.Chain.RecordUsageStarts

set_option relaxedAutoImplicit false
set_option autoImplicit false

namespace RecordUsageKey

open Transition

variable {Signer : Type} {lib : Library Signer} {s s' : State Signer} {act : Act Signer}

/-! ### The client -/

/-- A client is of the key, and the batcher uses its address. -/
def Stage.Fits (lib : Library Signer) (m : RecordUsageKeyMaterial) : Stage Signer → Prop
  | .connecting signer => lib.parseSigner m.privateKeyHex = some signer
  | .serving (some client) =>
      ∃ signer, lib.parseSigner m.privateKeyHex = some signer ∧ client = lib.address signer
  | _ => True

/-- **The invariant behind the client.** -/
def State.Fits (lib : Library Signer) (s : State Signer) : Prop :=
  ∀ cfg m stage, s.process = some (cfg, .ready m stage) → stage.Fits lib m

theorem fits_of_begins {m : RecordUsageKeyMaterial} {stage : Stage Signer} (h : stage.Begins) :
    stage.Fits lib m := by
  cases stage with
  | readingRole => trivial
  | readingBalance => trivial
  | _ => exact h.elim

/-- Without a client the start goes on. -/
theorem Library.connect_cases (lib : Library Signer) (cfg : Config) (m : RecordUsageKeyMaterial) :
    lib.connect cfg m = .serving none ∨
      ∃ signer, lib.parseSigner m.privateKeyHex = some signer ∧
        lib.connect cfg m = .connecting signer := by
  rw [Library.connect]
  split
  · split
    · exact Or.inl rfl
    · split
      · exact Or.inl rfl
      · split
        · exact Or.inl rfl
        · split
          · exact Or.inl rfl
          · rename_i signer hsigner
            exact Or.inr ⟨signer, hsigner, rfl⟩
  · exact Or.inl rfl

theorem fits_connect (cfg : Config) (m : RecordUsageKeyMaterial) :
    (lib.connect cfg m).Fits lib m := by
  rcases lib.connect_cases cfg m with hnone | ⟨signer, hsigner, hconnect⟩
  · rw [hnone]
    trivial
  · rw [hconnect]
    exact hsigner

theorem fits_stageStep {cfg : Config} {m : RecordUsageKeyMaterial} {role : Address}
    {stage stage' : Stage Signer} {calls : List Call} (hfits : stage.Fits lib m)
    (h : StageStep lib cfg m role stage (some stage') calls) : stage'.Fits lib m := by
  cases h with
  | connects => exact fits_connect cfg m
  | enabled hrole => exact ⟨_, hfits, rfl⟩
  | _ => trivial

/-- The place of a start that gets its key. -/
theorem begins_of_keyStep {cfg : Config} {pc : Pc Signer} {content content' : Option (List UInt8)}
    {m : RecordUsageKeyMaterial} {stage : Stage Signer} {keys : List Address}
    (h : KeyStep lib cfg pc content (some (.ready m stage)) content' keys)
    (hpc : ∀ m stage, pc ≠ .ready m stage) : stage.Begins := by
  cases h with
  | read _ hstage => exact hstage
  | persisted hstage => exact hstage
  | worked => exact absurd rfl (hpc _ _)

/-- A step of a start that has no key yet leaves the chain alone. -/
theorem chain_of_advance {cfg : Config} {pc : Pc Signer} {outcome : Outcome Signer}
    (hpc : ∀ m stage, pc ≠ .ready m stage) (h : advance lib s cfg pc outcome = some s') :
    s'.role = s.role ∧ s'.txs = s.txs := by
  unfold advance at h
  split at h
  case h_3 =>
    obtain ⟨-, h⟩ := Option.ite_none_right_eq_some.1 h
    cases h
    exact ⟨rfl, rfl⟩
  case h_4 =>
    obtain ⟨-, h⟩ := Option.ite_none_left_eq_some.1 h
    cases h
    exact ⟨rfl, rfl⟩
  case h_9 =>
    obtain ⟨-, h⟩ := Option.ite_none_left_eq_some.1 h
    cases h
    exact ⟨rfl, rfl⟩
  case h_10 =>
    obtain ⟨-, h⟩ := Option.ite_none_right_eq_some.1 h
    cases h
    rw [State.goTo, State.logKey]
    split <;> exact ⟨rfl, rfl⟩
  case h_12 m stage => exact absurd rfl (hpc m stage)
  case h_13 => cases h
  all_goals
    cases h
    exact ⟨rfl, rfl⟩

/-- **What a step of a start does to the chain**: nothing before it has its key, and then the way of a
`StageStep`. -/
theorem chainStep_of_advance {cfg : Config} {pc : Pc Signer} {outcome : Outcome Signer}
    (h : advance lib s cfg pc outcome = some s') :
    (s'.role = s.role ∧ s'.txs = s.txs ∧ ∀ cfg' m stage,
        s'.process = some (cfg', .ready m stage) → cfg' = cfg ∧ stage.Begins) ∨
      ∃ m stage stage' calls, pc = .ready m stage ∧
        s'.process = stage'.map (fun stage => (cfg, Pc.ready m stage)) ∧ SameBut s s' calls ∧
          StageStep lib cfg m s.role stage stage' calls := by
  by_cases hpc : ∀ m stage, pc ≠ .ready m stage
  · obtain ⟨hrole, htxs⟩ := chain_of_advance hpc h
    refine Or.inl ⟨hrole, htxs, fun cfg' m stage hready => ?_⟩
    obtain ⟨pc', keys, hprocess, hkey, -, -⟩ := keyStep_of_advance h
    rw [hprocess] at hready
    obtain ⟨pc', rfl, hpair⟩ := Option.map_eq_some_iff.1 hready
    obtain ⟨rfl, rfl⟩ := Prod.mk.inj hpair
    exact ⟨rfl, begins_of_keyStep hkey hpc⟩
  · push Not at hpc
    obtain ⟨m, stage, rfl⟩ := hpc
    rw [advance] at h
    obtain ⟨stage', calls, hprocess, hsame, hstep⟩ := stageStep_of_advanceReady h
    exact Or.inr ⟨m, stage, stage', calls, rfl, hprocess, hsame, hstep⟩

theorem fits_step (hfits : s.Fits lib) (h : step lib s act = some s') : s'.Fits lib := by
  cases act with
  | start cfg =>
      rw [step] at h
      split at h
      · cases h
        intro cfg' m stage hready
        obtain ⟨-, hpc⟩ := Prod.mk.inj (Option.some.inj hready)
        split at hpc <;> cases hpc
      · cases h
  | go outcome =>
      rw [step] at h
      split at h
      · cases h
      · rename_i cfg pc hprocess
        intro cfg' m' stage' hready
        rcases chainStep_of_advance h with ⟨-, -, hbegins⟩ | ⟨m, stage, next, calls, rfl, hnext, -, hstep⟩
        · exact fits_of_begins (hbegins _ _ _ hready).2
        · rw [hnext] at hready
          obtain ⟨stage', rfl, hpair⟩ := Option.map_eq_some_iff.1 hready
          obtain ⟨rfl, hready⟩ := Prod.mk.inj hpair
          cases hready
          exact fits_stageStep (hfits _ _ _ hprocess) hstep
  | crash =>
      cases h
      exact fun _ _ _ hready => by cases hready
  | mine tx effective =>
      rw [step] at h
      split at h
      · cases h
      · rename_i sent _
        obtain ⟨-, h⟩ := Option.ite_none_left_eq_some.1 h
        cases h
        obtain ⟨call, included⟩ := sent
        cases effective <;> cases call <;> exact hfits
  | setRole next =>
      cases h
      exact hfits
  | setBalance address wei =>
      cases h
      exact hfits
  | edit path content =>
      cases h
      exact hfits

section

variable {files : Text → Option (List UInt8)} {role : Address} {balance : Address → ℕ}
  {acts acts' : List (Act Signer)} {cfg : Config} {m : RecordUsageKeyMaterial}

theorem fits_run (hrun : run (step lib) (init files role balance) acts = some s) : s.Fits lib :=
  (always_of_invariant (fun _ _ _ hfits h => fits_step hfits h)
    (fun _ _ _ hready => by cases hready) acts).last hrun

/-- **A client has the address of the key.** -/
theorem client_address (hlaw : lib.Lawful) {client : Address}
    (hkept : ∀ act ∈ acts, act.Allowed lib (lib.keyPath cfg) fun _ => True)
    (hrun : run (step lib) (init files role balance) acts = some s)
    (hready : s.process = some (cfg, .ready m (.serving (some client)))) :
    client = m.address := by
  obtain ⟨signer, ⟨generated, rfl⟩, -⟩ :=
    (inv_run hlaw hkept hrun).start _ _ (start_view.2 ⟨hready, rfl⟩)
  obtain ⟨signer', hsigner', rfl⟩ := fits_run hrun _ _ _ hready
  rw [Library.materialOf, parseSigner_signerToHex hlaw] at hsigner'
  obtain rfl := Option.some.inj hsigner'
  rfl

end

/-! ### The role -/

def Call.role? : Call → Option Address
  | .setRecordUsage next => some next
  | .transfer _ => none

/-- The addresses for which the starts have asked for the role, one for each transaction. -/
def State.roleCalls (s : State Signer) : List Address := (s.txs.map Tx.call).filterMap Call.role?

/-- No transaction under way sets the role to another address. -/
def State.Awaits (s : State Signer) (address : Address) : Prop :=
  ∀ tx ∈ s.txs, tx.included = false → ∀ next, tx.call = .setRecordUsage next → next = address

/-- All starts are of one router, whose configuration gives it no key, nobody else changes its file,
and nobody else sets the role to another address. -/
def Act.Lone (lib : Library Signer) (path : Text) (address : Address) : Act Signer → Prop
  | .start cfg => lib.keyPath cfg = path ∧ Text.trim cfg.recordUsagePrivateKey = []
  | .edit path' _ => path' ≠ path
  | .setRole next => next = address
  | _ => True

/-- **The invariant of a registered key.** -/
structure State.Registered (lib : Library Signer) (path : Text) (signer : Signer)
    (calls : List Address) (s : State Signer) : Prop where
  keeps : (s.view lib path).Keeps lib signer
  alone : ∀ cfg pc, s.process = some (cfg, pc) → lib.keyPath cfg = path
  fits : s.Fits lib
  silent : ∀ cfg m stage, s.process = some (cfg, .ready m stage) → stage ≠ .submitting
  role : s.role = lib.address signer
  awaits : s.Awaits (lib.address signer)
  calls : s.roleCalls = calls

theorem Act.Lone.allowed {path : Text} {address : Address} (h : act.Lone lib path address) :
    act.Allowed lib path fun cfg => Text.trim cfg.recordUsagePrivateKey = [] := by
  cases act with
  | start cfg => exact fun _ => h.2
  | edit path' content => exact h
  | _ => trivial

theorem alone_step {path : Text} {address : Address}
    (halone : ∀ cfg pc, s.process = some (cfg, pc) → lib.keyPath cfg = path)
    (h : step lib s act = some s') (hlone : act.Lone lib path address) :
    ∀ cfg pc, s'.process = some (cfg, pc) → lib.keyPath cfg = path := by
  cases act with
  | start cfg =>
      rw [step] at h
      split at h
      · cases h
        intro cfg' pc hprocess
        cases hprocess
        exact hlone.1
      · cases h
  | go outcome =>
      rw [step] at h
      split at h
      · cases h
      · rename_i cfg pc hprocess
        obtain ⟨pc', keys, hprocess', -, -, -⟩ := keyStep_of_advance h
        intro cfg' pc'' hstart
        rw [hprocess'] at hstart
        obtain ⟨_, -, hpair⟩ := Option.map_eq_some_iff.1 hstart
        obtain ⟨rfl, -⟩ := Prod.mk.inj hpair
        exact halone _ _ hprocess
  | crash =>
      cases h
      exact fun _ _ hstart => by cases hstart
  | mine tx effective =>
      rw [step] at h
      split at h
      · cases h
      · rename_i sent _
        obtain ⟨-, h⟩ := Option.ite_none_left_eq_some.1 h
        cases h
        obtain ⟨call, included⟩ := sent
        cases effective <;> cases call <;> exact halone
  | setRole next =>
      cases h
      exact halone
  | setBalance address wei =>
      cases h
      exact halone
  | edit path content =>
      cases h
      exact halone

/-- A transaction that is included keeps its call. -/
theorem map_call_set {txs : List Tx} {tx : ℕ} {sent : Tx} (h : txs[tx]? = some sent) :
    (txs.set tx ⟨sent.call, true⟩).map Tx.call = txs.map Tx.call := by
  obtain ⟨hlt, rfl⟩ := List.getElem?_eq_some_iff.1 h
  rw [List.map_set, ← List.getElem_map Tx.call (h := by rwa [List.length_map]),
    List.set_getElem_self]

/-- What is sent waits to be included. -/
theorem awaits_append {address : Address} {calls : List Call} (h : s.Awaits address)
    (hcalls : ∀ next, .setRecordUsage next ∈ calls → next = address) {t : State Signer}
    (ht : t.txs = s.txs ++ calls.map fun call => ⟨call, false⟩) : t.Awaits address := by
  intro tx htx hincluded next hcall
  rw [ht] at htx
  rcases List.mem_append.1 htx with htx | htx
  · exact h tx htx hincluded next hcall
  · obtain ⟨call, hmem, rfl⟩ := List.mem_map.1 htx
    exact hcalls next (hcall ▸ hmem)

section

variable {path : Text} {signer : Signer} {calls : List Address}

/-- **A step from a state with a registered key sends no transaction for the role.** -/
theorem registered_go {cfg : Config} {pc : Pc Signer} {outcome : Outcome Signer}
    (hregistered : s.Registered lib path signer calls) (hprocess : s.process = some (cfg, pc))
    (h : advance lib s cfg pc outcome = some s') :
    s'.role = s.role ∧ s'.Awaits (lib.address signer) ∧ s'.roleCalls = calls ∧
      ∀ cfg m stage, s'.process = some (cfg, .ready m stage) → stage ≠ .submitting := by
  have hpath := hregistered.alone _ _ hprocess
  rcases chainStep_of_advance h with
    ⟨hrole, htxs, hbegins⟩ | ⟨m, stage, stage', sent, rfl, hnext, hsame, hstep⟩
  · refine ⟨hrole, ?_, ?_, fun cfg' m stage hready => ?_⟩
    · rw [State.Awaits, htxs]
      exact hregistered.awaits
    · rw [State.roleCalls, htxs]
      exact hregistered.calls
    · rintro rfl
      exact (hbegins _ _ _ hready).2
  · -- the address of the key is that of the role, so nothing differs
    have haddress : m.address = lib.address signer := by
      obtain ⟨generated, rfl⟩ := hregistered.keeps.2 _ _ (start_view.2 ⟨hprocess, hpath⟩)
      rfl
    have hsilent := hregistered.silent _ _ _ hprocess
    have hquiet : ∀ next, .setRecordUsage next ∉ sent := by
      rintro next hmem
      cases hstep with
      | submitted => exact hsilent rfl
      | lost => exact hsilent rfl
      | _ => simp at hmem
    refine ⟨hsame.role, awaits_append hregistered.awaits
      (fun next hmem => absurd hmem (hquiet next)) hsame.txs, ?_, fun cfg' m' stage'' hready => ?_⟩
    · have hnone : sent.filterMap Call.role? = [] := by
        rw [List.filterMap_eq_nil_iff]
        rintro (next | recipient) hmem
        · exact absurd hmem (hquiet next)
        · rfl
      have hcalls : (sent.map fun call => (⟨call, false⟩ : Tx)).map Tx.call = sent := by
        rw [List.map_map]
        exact List.map_id _
      rw [State.roleCalls, hsame.txs, List.map_append, List.filterMap_append, hcalls, hnone,
        List.append_nil]
      exact hregistered.calls
    · rw [hnext] at hready
      obtain ⟨stage', rfl, hpair⟩ := Option.map_eq_some_iff.1 hready
      obtain ⟨-, hready⟩ := Prod.mk.inj hpair
      cases hready
      rintro rfl
      generalize hsubmitting : (some Stage.submitting : Option (Stage Signer)) = next at hstep
      cases hstep with
      | differs hdiffers => exact hdiffers (hregistered.role.trans haddress.symm)
      | connects =>
          rcases lib.connect_cases cfg m with hnone | ⟨signer', -, hconnect⟩
          · rw [hnone] at hsubmitting
            cases hsubmitting
          · rw [hconnect] at hsubmitting
            cases hsubmitting
      | _ => cases hsubmitting

theorem registered_step (hregistered : s.Registered lib path signer calls)
    (h : step lib s act = some s') (hlone : act.Lone lib path (lib.address signer)) :
    s'.Registered lib path signer calls := by
  have hkeeps : (s'.view lib path).Keeps lib signer :=
    keeps_fileStep hregistered.keeps (fileStep_of_step h hlone.allowed)
  have halone := alone_step hregistered.alone h hlone
  have hfits := fits_step hregistered.fits h
  cases act with
  | start cfg =>
      rw [step] at h
      split at h
      · cases h
        refine ⟨hkeeps, halone, hfits, fun cfg' m stage hready => ?_, hregistered.role,
          hregistered.awaits, hregistered.calls⟩
        obtain ⟨-, hpc⟩ := Prod.mk.inj (Option.some.inj hready)
        split at hpc <;> cases hpc
      · cases h
  | go outcome =>
      rw [step] at h
      split at h
      · cases h
      · rename_i cfg pc hprocess
        obtain ⟨hrole, hawaits, hcalls, hsilent⟩ := registered_go hregistered hprocess h
        exact ⟨hkeeps, halone, hfits, hsilent, hrole.trans hregistered.role, hawaits, hcalls⟩
  | crash =>
      cases h
      exact ⟨hkeeps, halone, hfits, fun _ _ _ hready => (by cases hready), hregistered.role,
        hregistered.awaits, hregistered.calls⟩
  | mine tx effective =>
      rw [step] at h
      split at h
      · cases h
      · rename_i sent hsent
        obtain ⟨hwaiting, h⟩ := Option.ite_none_left_eq_some.1 h
        cases h
        have hawaits : ∀ tx' ∈ s.txs.set tx ⟨sent.call, true⟩, tx'.included = false →
            ∀ next, tx'.call = .setRecordUsage next → next = lib.address signer := by
          intro tx' htx' hincluded
          rcases List.mem_or_eq_of_mem_set htx' with hmem | rfl
          · exact hregistered.awaits tx' hmem hincluded
          · cases hincluded
        have hcalls : ((s.txs.set tx ⟨sent.call, true⟩).map Tx.call).filterMap Call.role? =
            calls := by
          rw [map_call_set hsent]
          exact hregistered.calls
        have hsets := hregistered.awaits sent (List.mem_of_getElem? hsent)
          (Bool.not_eq_true _ ▸ hwaiting)
        obtain ⟨call, included⟩ := sent
        cases effective with
        | false =>
            exact ⟨hkeeps, halone, hfits, hregistered.silent, hregistered.role, hawaits, hcalls⟩
        | true =>
            cases call with
            | setRecordUsage next =>
                exact ⟨hkeeps, halone, hfits, hregistered.silent, hsets next rfl, hawaits, hcalls⟩
            | transfer recipient =>
                exact ⟨hkeeps, halone, hfits, hregistered.silent, hregistered.role, hawaits, hcalls⟩
  | setRole next =>
      cases h
      exact ⟨hkeeps, halone, hfits, hregistered.silent, hlone, hregistered.awaits,
        hregistered.calls⟩
  | setBalance address wei =>
      cases h
      exact ⟨hkeeps, halone, hfits, hregistered.silent, hregistered.role, hregistered.awaits,
        hregistered.calls⟩
  | edit path' content =>
      cases h
      exact ⟨hkeeps, halone, hfits, hregistered.silent, hregistered.role, hregistered.awaits,
        hregistered.calls⟩

end

section

variable {files : Text → Option (List UInt8)} {role : Address} {balance : Address → ℕ}
  {acts acts' : List (Act Signer)} {cfg : Config} {m : RecordUsageKeyMaterial} {stage : Stage Signer}

end

/-! ### A start whose calls are answered -/

/-- A start, a call of it that is answered, or a transaction of it that is included with its effect. -/
def Act.Answers : Act Signer → Prop
  | .start _ | .go .ok | .mine _ true => True
  | _ => False

/-- The one state leads to the other when every call is answered. -/
def Answered (lib : Library Signer) (s t : State Signer) : Prop :=
  ∃ acts, (∀ act ∈ acts, act.Answers) ∧ run (step lib) s acts = some t

theorem Answered.refl (s : State Signer) : Answered lib s s := ⟨[], by simp, rfl⟩

theorem Answered.head {t : State Signer} (act : Act Signer) (hact : act.Answers) (h : step lib s act = some s')
    (hrest : Answered lib s' t) : Answered lib s t := by
  obtain ⟨acts, hacts, hrun⟩ := hrest
  refine ⟨act :: acts, ?_, by rw [run_cons _ h, hrun]⟩
  intro act' hmem
  rcases List.mem_cons.1 hmem with rfl | hmem
  · exact hact
  · exact hacts act' hmem

/-- The settings with which the router meters: the chain and the metering are switched on, the
addresses read, and the owner's key is there.  The signing key is left to the router. -/
structure Config.Meters (lib : Library Signer) (cfg : Config) : Prop where
  chainEnabled : cfg.chainEnabled = true
  enabled : cfg.enabled = true
  recordUsageEnabled : cfg.recordUsageEnabled = true
  blank : Text.trim cfg.recordUsagePrivateKey = []
  escrow : ∃ escrow, lib.parseAddress (Text.trim cfg.escrowContract) = some escrow ∧
    escrow ≠ Address.zero
  rpcUrl : lib.parsesUrl (Text.trim cfg.rpcUrl) = true
  owner : ∃ owner, lib.parseSigner cfg.registryOwnerPrivateKey = some owner
  ownerSet : Text.trim cfg.registryOwnerPrivateKey ≠ []

section

variable {cfg : Config} {signer : Signer}

theorem connect_of_meters (hlaw : lib.Lawful) (hmeters : cfg.Meters lib) (generated : Bool) :
    lib.connect cfg (lib.materialOf signer generated) = .connecting signer := by
  obtain ⟨escrow, hescrow, hzero⟩ := hmeters.escrow
  have hparse : lib.parse (Text.trim (lib.signerToHex signer)) = some signer :=
    parseSigner_signerToHex hlaw signer
  have hactive : cfg.isActive (lib.signerToHex signer) = true := by
    rw [Config.isActive, hmeters.chainEnabled, hmeters.enabled, hmeters.recordUsageEnabled,
      trim_signerToHex]
    rfl
  rw [Library.connect, Library.materialOf]
  simp only [hactive, if_true, hescrow, if_neg hzero, hmeters.rpcUrl, hparse]
  rfl

/-- From the question for the role to the question for the balance. -/
theorem answered_role (hmeters : cfg.Meters lib) {m : RecordUsageKeyMaterial}
    (hready : s.process = some (cfg, .ready m .readingRole)) :
    ∃ t, Answered lib s t ∧ t.process = some (cfg, .ready m .readingBalance) ∧
      t.role = m.address := by
  have hgas : lib.ensureGas cfg m = some (.ready m .readingBalance) := if_pos hmeters.rpcUrl
  by_cases hrole : s.role = m.address
  · refine ⟨s.goTo cfg (some (.ready m .readingBalance)),
      .head (.go .ok) trivial ?_ (.refl _), rfl, hrole⟩
    rw [step, hready]
    simp only [advance, advanceReady, Library.submitRole, if_pos hrole, hgas]
  · obtain ⟨owner, howner⟩ := hmeters.owner
    have hsubmit : lib.submitRole cfg m s.role = some (.ready m .submitting) := by
      rw [Library.submitRole, if_neg hrole, if_neg hmeters.ownerSet, howner]
      rfl
    let sent : State Signer := (s.send (.setRecordUsage m.address)).goTo cfg
      (some (.ready m (.confirming s.txs.length)))
    let mined : State Signer :=
      { sent with txs := s.txs ++ [⟨.setRecordUsage m.address, true⟩], role := m.address }
    have hfirst : step lib s (.go .ok) = some (s.goTo cfg (some (.ready m .submitting))) := by
      rw [step, hready]
      simp only [advance, advanceReady, hsubmit]
    have hsend : step lib (s.goTo cfg (some (.ready m .submitting))) (.go .ok) = some sent := rfl
    have hmine : step lib sent (.mine s.txs.length true) = some mined := by
      simp [step, sent, mined, State.send, State.goTo, State.apply]
    have hconfirm : step lib mined (.go .ok) =
        some (mined.goTo cfg (some (.ready m .readingBalance))) := by
      have hincluded : mined.isIncluded s.txs.length = true := by
        simp [State.isIncluded, mined]
      change (if mined.isIncluded s.txs.length then some (mined.goTo cfg (lib.ensureGas cfg m))
        else none) = _
      rw [if_pos hincluded, hgas]
    exact ⟨_, .head (.go .ok) trivial hfirst (.head (.go .ok) trivial hsend
      (.head (.mine s.txs.length true) trivial hmine
        (.head (.go .ok) trivial hconfirm (.refl _)))), rfl, rfl⟩

/-- The client of a start whose address has the role. -/
theorem answered_connect (hlaw : lib.Lawful) (hmeters : cfg.Meters lib) {generated : Bool}
    (hready : s.process = some (cfg, .ready (lib.materialOf signer generated)
      (lib.connect cfg (lib.materialOf signer generated))))
    (hrole : s.role = lib.address signer) :
    ∃ t, Answered lib s t ∧ t.process = some (cfg, .ready (lib.materialOf signer generated)
      (.serving (some (lib.address signer)))) ∧ t.role = lib.address signer := by
  rw [connect_of_meters hlaw hmeters] at hready
  refine ⟨s.goTo cfg (some (.ready (lib.materialOf signer generated)
    (.serving (some (lib.address signer))))), .head (.go .ok) trivial ?_ (.refl _), rfl, hrole⟩
  rw [step, hready]
  simp only [advance, advanceReady, if_pos hrole]

/-- From the question for the balance to the client. -/
theorem answered_balance (hlaw : lib.Lawful) (hmeters : cfg.Meters lib) {generated : Bool}
    (hready : s.process = some (cfg, .ready (lib.materialOf signer generated) .readingBalance))
    (hrole : s.role = lib.address signer) :
    ∃ t, Answered lib s t ∧ t.process = some (cfg, .ready (lib.materialOf signer generated)
      (.serving (some (lib.address signer)))) ∧ t.role = lib.address signer := by
  generalize hm : lib.materialOf signer generated = m at hready
  by_cases hbalance : minBalanceWei ≤ s.balance m.address
  · obtain ⟨t, ⟨acts, hacts, hrun⟩, hserving, hrole'⟩ := answered_connect hlaw hmeters
      (s := s.goTo cfg (some (.ready m (lib.connect cfg m)))) (by rw [hm]; rfl) hrole
    refine ⟨t, .head (.go .ok) trivial ?_ ⟨acts, hacts, hrun⟩, hm ▸ hserving, hrole'⟩
    rw [step, hready]
    simp only [advance, advanceReady, Library.topUp, if_pos hbalance]
  · obtain ⟨owner, howner⟩ := hmeters.owner
    have htop : lib.topUp cfg m (s.balance m.address) = some (.ready m .toppingUp) := by
      rw [Library.topUp, if_neg hbalance, if_neg hmeters.ownerSet, howner]
      rfl
    let sent : State Signer := (s.send (.transfer m.address)).goTo cfg
      (some (.ready m (.confirmingTopUp s.txs.length)))
    let mined : State Signer :=
      { sent with
        txs := s.txs ++ [⟨.transfer m.address, true⟩]
        balance := Function.update s.balance m.address (s.balance m.address + topUpWei) }
    have hfirst : step lib s (.go .ok) = some (s.goTo cfg (some (.ready m .toppingUp))) := by
      rw [step, hready]
      simp only [advance, advanceReady, htop]
    have hsend : step lib (s.goTo cfg (some (.ready m .toppingUp))) (.go .ok) = some sent := rfl
    have hmine : step lib sent (.mine s.txs.length true) = some mined := by
      simp [step, sent, mined, State.send, State.goTo, State.apply]
    have hconfirm : step lib mined (.go .ok) =
        some (mined.goTo cfg (some (.ready m (lib.connect cfg m)))) := by
      have hincluded : mined.isIncluded s.txs.length = true := by
        simp [State.isIncluded, mined]
      change (if mined.isIncluded s.txs.length then
        some (mined.goTo cfg (some (.ready m (lib.connect cfg m)))) else none) = _
      rw [if_pos hincluded]
    obtain ⟨t, hanswered, hserving, hrole'⟩ := answered_connect hlaw hmeters
      (s := mined.goTo cfg (some (.ready m (lib.connect cfg m)))) (by rw [hm]; rfl) hrole
    exact ⟨t, .head (.go .ok) trivial hfirst (.head (.go .ok) trivial hsend
      (.head (.mine s.txs.length true) trivial hmine
        (.head (.go .ok) trivial hconfirm hanswered))), hm ▸ hserving, hrole'⟩

theorem Answered.trans {t u : State Signer} (h : Answered lib s t) (h' : Answered lib t u) :
    Answered lib s u := by
  obtain ⟨acts, hacts, hrun⟩ := h
  obtain ⟨acts', hacts', hrun'⟩ := h'
  refine ⟨acts ++ acts', fun act hmem => ?_, by rw [run_append _ hrun, hrun']⟩
  rcases List.mem_append.1 hmem with hmem | hmem
  · exact hacts act hmem
  · exact hacts' act hmem

/-- **A start whose calls are answered enables the usage batcher**, under the key of the file, which
then has the role: whatever the role, the balance and the transactions under way before. -/
theorem exists_enabled (hlaw : lib.Lawful) (hmeters : cfg.Meters lib) (hnone : s.process = none)
    (hholds : Holds lib (s.files (lib.keyPath cfg)) signer) :
    ∃ t, Answered lib s t ∧ t.process = some (cfg, .ready (lib.materialOf signer false)
      (.serving (some (lib.address signer)))) ∧ t.role = lib.address signer := by
  obtain ⟨bytes, stored, hbytes, hstored, hsigner⟩ := hholds
  obtain ⟨escrow, hescrow, hzero⟩ := hmeters.escrow
  have hbegin : lib.ensureRole cfg (lib.materialOf signer false) =
      some (.ready (lib.materialOf signer false) .readingRole) := by
    rw [Library.ensureRole, hescrow]
    dsimp only
    rw [if_neg hzero, if_pos hmeters.rpcUrl]
  have hstart : step lib s (.start cfg) = some (s.goTo cfg (some .loading)) := by
    rw [step, hnone, hmeters.chainEnabled]
    rfl
  have hload : step lib (s.goTo cfg (some .loading)) (.go .ok) =
      some (s.goTo cfg (some .locating)) := by
    change some (s.goTo cfg (lib.loadOrGenerate cfg)) = _
    rw [Library.loadOrGenerate, hmeters.blank]
    rfl
  have hfind : step lib (s.goTo cfg (some .locating)) (.go .ok) =
      some (s.goTo cfg (some .reading)) := by
    change (if (s.files (lib.keyPath cfg)).isSome then some (s.goTo cfg (some .reading))
      else none) = _
    rw [hbytes]
    rfl
  have hread : step lib (s.goTo cfg (some .reading)) (.go .ok) =
      some (s.goTo cfg (some (.ready (lib.materialOf signer false) .readingRole))) := by
    change some (s.goTo cfg ((s.files (lib.keyPath cfg)).bind (lib.readKeyFile cfg))) = _
    rw [hbytes, Option.bind_some, Library.readKeyFile, hstored]
    dsimp only
    rw [hsigner]
    dsimp only
    rw [hbegin]
  obtain ⟨t, hanswered, hbalance, hrole⟩ := answered_role hmeters
    (s := s.goTo cfg (some (.ready (lib.materialOf signer false) .readingRole))) rfl
  obtain ⟨u, hanswered', hserving, hrole'⟩ := answered_balance hlaw hmeters hbalance hrole
  exact ⟨u, .head (.start cfg) trivial hstart (.head (.go .ok) trivial hload
    (.head (.go .ok) trivial hfind (.head (.go .ok) trivial hread
      (hanswered.trans hanswered')))), hserving, hrole'⟩

end

/-! ### A role that is set once -/

/-- The key `1` is also that of the owner. -/
def meteringConfig : Config :=
  { oneKeyConfig with registryOwnerPrivateKey := oneKeyLibrary.signerToHex oneKey }

/-- The first start draws the key, and sets the role. -/
def registers : List (Act (List.Vector UInt8 32)) :=
  [.start meteringConfig, .go .ok, .go (.draws oneKey), .go .ok, .go (.writes 1000), .go .ok,
    .go .ok, .go .ok, .mine 0 true, .go .ok]

/-- It ends; the next start finds the role set, and enough gas. -/
def startsAgain : List (Act (List.Vector UInt8 32)) :=
  [.crash, .setBalance oneAddress minBalanceWei, .start meteringConfig, .go .ok, .go .ok, .go .ok,
    .go .ok, .go .ok]

theorem meters_meteringConfig : meteringConfig.Meters oneKeyLibrary where
  chainEnabled := rfl
  enabled := rfl
  recordUsageEnabled := rfl
  blank := rfl
  escrow := ⟨⟨List.replicate 19 0 ++ [0xe5], rfl⟩, by decide +kernel,
    fun hzero => absurd (congrArg List.Vector.toList hzero) (by decide)⟩
  rpcUrl := by decide +kernel
  owner := ⟨oneKey, parseSigner_signerToHex lawful_oneKeyLibrary oneKey⟩
  ownerSet := by decide +kernel

theorem exists_enabled_firstStart :
    ∃ s t, run (step oneKeyLibrary) emptyDisk (firstStart ++ [.crash]) = some s ∧
      Answered oneKeyLibrary s t ∧
      t.process = some (meteringConfig, .ready (oneKeyLibrary.materialOf oneKey false)
        (.serving (some oneAddress))) ∧ t.role = oneAddress := by
  have hfirst : (run (step oneKeyLibrary) emptyDisk (firstStart ++ [.crash])).map
      (fun s => (s.process, s.files (oneKeyLibrary.keyPath meteringConfig))) =
        some (none, some (OneKey.toVecPretty (oneKeyLibrary.materialOf oneKey true).stored)) := by
    decide +kernel
  obtain ⟨s, hrun, hstate⟩ := Option.map_eq_some_iff.1 hfirst
  obtain ⟨hnone, hfile⟩ := by simpa only [Prod.mk.injEq] using hstate
  have hholds : Holds oneKeyLibrary (s.files (oneKeyLibrary.keyPath meteringConfig)) oneKey := by
    rw [hfile]
    exact holds_toVecPretty lawful_oneKeyLibrary ⟨true, rfl⟩
  obtain ⟨t, ht⟩ := exists_enabled lawful_oneKeyLibrary meters_meteringConfig hnone hholds
  exact ⟨s, t, hrun, ht⟩

end RecordUsageKey
