/-
**One key for a data directory.**

The router keeps its signing key in a file and reads it back at every start, so that the role that was
registered for it stays its own.  This module shows what the file is worth, over any number of starts,
each of which can end anywhere: a key is drawn at most once, and only where no file is; once a start
has its key, the later ones that are not given another have the same; and a start that is cut short
while it writes the file leaves one that does not read, and no later start gets over it.

Main definitions:

* `RecordUsageKey.View`, `RecordUsageKey.FileStep` — what becomes of one key file;
* `RecordUsageKey.Act.Allowed` — nobody else changes the file, and the starts on it are of a kind.

Main results:

* `RecordUsageKey.fileStep_of_step` — **a run of starts is a run of file steps**;
* `RecordUsageKey.generated_once` — **a key is drawn at most once**;
* `RecordUsageKey.key_kept` — **the key stays the same from start to start**;
* `RecordUsageKey.torn_blocks` — **a file cut short blocks every later start**.
-/

import SparklRouter.Chain.RecordUsageKey
import SparklRouter.NodeAuth
import SparklRouter.Text.Words

set_option relaxedAutoImplicit false
set_option autoImplicit false

namespace RecordUsageKey

open Transition

variable {Signer : Type} (lib : Library Signer)

/-! ### One key file -/

/-- A key file, with the generated keys that the log tells of, and the start that uses it. -/
structure View (Signer : Type) where
  content : Option (List UInt8)
  keys : List Address
  start : Option (Config × Pc Signer)

def State.view (path : Text) (s : State Signer) : View Signer where
  content := s.files path
  keys := s.keysOf path
  start := s.process.filter fun process => lib.keyPath process.1 = path

/-- What can become of a key file in a step: its start ends or one begins, of a kind that is allowed,
or it takes a step. -/
inductive FileStep (allowed : Config → Prop) : View Signer → View Signer → Prop
  | same (v : View Signer) : FileStep allowed v v
  | ended (v : View Signer) : FileStep allowed v { v with start := none }
  | started {content keys cfg pc} (h : allowed cfg) (hpc : pc = .loading ∨ pc = .unchained) :
      FileStep allowed ⟨content, keys, none⟩ ⟨content, keys, some (cfg, pc)⟩
  | stepped {cfg pc content pc' content' keys new}
      (h : KeyStep lib cfg pc content pc' content' new) :
      FileStep allowed ⟨content, keys, some (cfg, pc)⟩
        ⟨content', keys ++ new, pc'.map fun pc => (cfg, pc)⟩

/-- Nobody else changes the file, and the starts that use it are of the kind. -/
def Act.Allowed (path : Text) (allowed : Config → Prop) : Act Signer → Prop
  | .start cfg => lib.keyPath cfg = path → allowed cfg
  | .edit path' _ => path' ≠ path
  | _ => True

variable {lib} {path : Text} {s s' : State Signer} {act : Act Signer}

theorem view_eq {t : State Signer} (hfiles : t.files path = s.files path)
    (hkeys : t.keysOf path = s.keysOf path) (hprocess : t.process = s.process) :
    t.view lib path = s.view lib path := by
  rw [State.view, State.view, hfiles, hkeys, hprocess]

theorem startOn_eq {cfg : Config} {pc : Pc Signer} (hpath : lib.keyPath cfg = path) :
    (some (cfg, pc)).filter (fun process => lib.keyPath process.1 = path) = some (cfg, pc) := by
  rw [Option.filter_some, if_pos (decide_eq_true hpath)]

theorem startOn_ne {cfg : Config} {pc : Pc Signer} (hpath : lib.keyPath cfg ≠ path) :
    (some (cfg, pc)).filter (fun process => lib.keyPath process.1 = path) = none := by
  rw [Option.filter_some, if_neg (by simpa using hpath)]

theorem start_view {cfg : Config} {pc : Pc Signer} :
    (s.view lib path).start = some (cfg, pc) ↔
      s.process = some (cfg, pc) ∧ lib.keyPath cfg = path := by
  rw [State.view, Option.filter_eq_some_iff, decide_eq_true_eq]

/-- **A step of the router is a step of the file.** -/
theorem fileStep_of_step {allowed : Config → Prop} (h : step lib s act = some s')
    (hallowed : act.Allowed lib path allowed) :
    FileStep lib allowed (s.view lib path) (s'.view lib path) := by
  have hsame : ∀ {t : State Signer}, t.files path = s.files path →
      t.keysOf path = s.keysOf path → t.process = s.process →
      FileStep lib allowed (s.view lib path) (t.view lib path) := by
    intro t hfiles hkeys hprocess
    rw [view_eq hfiles hkeys hprocess]
    exact .same _
  cases act with
  | start cfg =>
      rw [step] at h
      split at h
      · rename_i hnone
        cases h
        by_cases hpath : lib.keyPath cfg = path
        · have hbefore : s.view lib path = ⟨s.files path, s.keysOf path, none⟩ := by
            rw [State.view, hnone]
            rfl
          have hafter : (s.goTo cfg (some (if cfg.chainEnabled then .loading else .unchained))).view
              lib path = ⟨s.files path, s.keysOf path,
                some (cfg, if cfg.chainEnabled then .loading else .unchained)⟩ := by
            rw [State.view, State.goTo, Option.map_some, startOn_eq hpath]
            rfl
          rw [hbefore, hafter]
          refine .started (hallowed hpath) ?_
          split
          · exact Or.inl rfl
          · exact Or.inr rfl
        · have hview : (s.goTo cfg (some (if cfg.chainEnabled then .loading else .unchained))).view
              lib path = s.view lib path := by
            rw [State.view, State.view, State.goTo, hnone, Option.map_some, startOn_ne hpath]
            rfl
          rw [hview]
          exact .same _
      · cases h
  | go outcome =>
      rw [step] at h
      split at h
      · cases h
      · rename_i cfg pc hprocess
        obtain ⟨pc', keys, hprocess', hkey, hkeys, hother⟩ := keyStep_of_advance h
        by_cases hpath : lib.keyPath cfg = path
        · subst hpath
          have hbefore : s.view lib (lib.keyPath cfg) =
              ⟨s.files (lib.keyPath cfg), s.keysOf (lib.keyPath cfg), some (cfg, pc)⟩ := by
            rw [State.view, hprocess, startOn_eq rfl]
          have hafter : s'.view lib (lib.keyPath cfg) =
              ⟨s'.files (lib.keyPath cfg), s.keysOf (lib.keyPath cfg) ++ keys,
                pc'.map fun pc => (cfg, pc)⟩ := by
            rw [State.view, hprocess', hkeys]
            congr 1
            cases pc' with
            | none => rfl
            | some pc' => rw [Option.map_some, startOn_eq rfl]
          rw [hbefore, hafter]
          exact .stepped hkey
        · obtain ⟨hfiles, hkeysOf⟩ := hother path (Ne.symm hpath)
          have hview : s'.view lib path = s.view lib path := by
            rw [State.view, State.view, hfiles, hkeysOf, hprocess, hprocess', startOn_ne hpath]
            congr 1
            cases pc' with
            | none => rfl
            | some pc' => rw [Option.map_some, startOn_ne hpath]
          rw [hview]
          exact .same _
  | crash =>
      cases h
      exact .ended _
  | mine tx effective =>
      rw [step] at h
      split at h
      · cases h
      · obtain ⟨-, h⟩ := Option.ite_none_left_eq_some.1 h
        dsimp only at h
        cases h
        split
        · rename_i sent _ _
          obtain ⟨call, included⟩ := sent
          cases call <;> exact hsame rfl rfl rfl
        · exact hsame rfl rfl rfl
  | setRole next =>
      cases h
      exact hsame rfl rfl rfl
  | setBalance address wei =>
      cases h
      exact hsame rfl rfl rfl
  | edit path' content =>
      cases h
      exact hsame (Function.update_of_ne (Ne.symm hallowed) _ _) rfl rfl

/-- **The invariant rule for a key file.** -/
theorem invariant_view {allowed : Config → Prop} {I : View Signer → Prop}
    (hstep : ∀ v v', I v → FileStep lib allowed v v' → I v') {acts : List (Act Signer)}
    (hallowed : ∀ act ∈ acts, act.Allowed lib path allowed) (hs : I (s.view lib path))
    (hrun : run (step lib) s acts = some s') : I (s'.view lib path) := by
  have halways : Always (step lib) (fun t => I (t.view lib path)) s acts :=
    always_of_step (C := fun _ act _ => act.Allowed lib path allowed)
      (fun _ _ _ ht h hC => hstep _ _ ht (fileStep_of_step h hC)) hs
      (throughout_of_forall_mem hallowed s)
  exact halways.last hrun

/-! ### What a start knows of the file -/

/-- The key of the material. -/
def IsKey (lib : Library Signer) (signer : Signer) (m : RecordUsageKeyMaterial) : Prop :=
  ∃ generated, m = lib.materialOf signer generated

/-- What is true of the file and of the log where a start stands. -/
def Pc.Knows (lib : Library Signer) (content : Option (List UInt8)) (keys : List Address) :
    Pc Signer → Prop
  | .opening m => (∃ signer, IsKey lib signer m) ∧ (m.generated = true → content = none)
  | .writing m rest => (∃ signer, IsKey lib signer m) ∧
      (∃ written, content = some written ∧ written ++ rest = lib.toVecPretty m.stored) ∧
      (m.generated = true → keys = [])
  | .ready m _ => ∃ signer, IsKey lib signer m ∧ Holds lib content signer
  | _ => True

/-- **The invariant of a key file**: what the start knows of it, and that no key has been drawn as long
as it is missing. -/
structure View.Inv (lib : Library Signer) (v : View Signer) : Prop where
  start : ∀ cfg pc, v.start = some (cfg, pc) → pc.Knows lib v.content v.keys
  missing : v.content = none → v.keys = []
  once : v.keys.length ≤ 1

theorem trim_signerToHex (lib : Library Signer) (signer : Signer) :
    Text.trim (lib.signerToHex signer) = lib.signerToHex signer := by
  refine Text.trim_eq_self fun c hc => ?_
  rcases List.mem_append.1 hc with hc | hc
  · have hall : "0x".toList.all (fun c => !Text.isWhitespace c) = true := by decide
    simpa using List.all_eq_true.1 hall c hc
  · exact Hex.isWhitespace_encode c hc

theorem parseSigner_signerToHex (hlaw : lib.Lawful) (signer : Signer) :
    lib.parseSigner (lib.signerToHex signer) = some signer := by
  rw [Library.parseSigner, trim_signerToHex, hlaw.parse_signerToHex]

/-- The file that is written has the key. -/
theorem holds_toVecPretty (hlaw : lib.Lawful) {signer : Signer} {m : RecordUsageKeyMaterial}
    (h : IsKey lib signer m) : Holds lib (some (lib.toVecPretty m.stored)) signer := by
  obtain ⟨generated, rfl⟩ := h
  exact ⟨_, _, rfl, hlaw.fromSlice_toVecPretty signer generated, parseSigner_signerToHex hlaw signer⟩

/-- A file has one key. -/
theorem Holds.unique {content : Option (List UInt8)} {signer signer' : Signer}
    (h : Holds lib content signer) (h' : Holds lib content signer') : signer = signer' := by
  obtain ⟨bytes, stored, rfl, hstored, hsigner⟩ := h
  obtain ⟨bytes', stored', hbytes, hstored', hsigner'⟩ := h'
  obtain rfl := Option.some.inj hbytes
  obtain rfl := Option.some.inj (hstored.symm.trans hstored')
  exact Option.some.inj (hsigner.symm.trans hsigner')

/-- The log after a key is written. -/
theorem length_log_le {m : RecordUsageKeyMaterial} {keys : List Address}
    (hkeys : m.generated = true → keys = []) (honce : keys.length ≤ 1) :
    (keys ++ if m.generated then [m.address] else []).length ≤ 1 := by
  split
  · rename_i hgenerated
    rw [hkeys hgenerated]
    exact le_refl 1
  · rwa [List.append_nil]

theorem inv_fileStep (hlaw : lib.Lawful) {allowed : Config → Prop} {v v' : View Signer}
    (hinv : v.Inv lib) (h : FileStep lib allowed v v') : v'.Inv lib := by
  cases h with
  | same => exact hinv
  | ended => exact { hinv with start := fun _ _ hnone => by cases hnone }
  | started _ hpc =>
      refine { hinv with start := fun cfg pc hstart => ?_ }
      cases hstart
      rcases hpc with rfl | rfl <;> trivial
  | stepped hkey =>
      have hknows := hinv.start _ _ rfl
      cases hkey with
      | failed =>
          rw [List.append_nil]
          exact { hinv with start := fun _ _ hnone => by cases hnone }
      | @inline _ signer _ =>
          rw [List.append_nil]
          refine { hinv with start := fun _ _ hstart => ?_ }
          cases hstart
          exact ⟨⟨signer, false, rfl⟩, nofun⟩
      | blank =>
          rw [List.append_nil]
          refine { hinv with start := fun _ _ hstart => ?_ }
          cases hstart
          trivial
      | found =>
          rw [List.append_nil]
          refine { hinv with start := fun _ _ hstart => ?_ }
          cases hstart
          trivial
      | @drawn signer =>
          rw [List.append_nil]
          refine { hinv with start := fun _ _ hstart => ?_ }
          cases hstart
          exact ⟨⟨signer, true, rfl⟩, fun _ => rfl⟩
      | @read _ signer _ hholds _ =>
          rw [List.append_nil]
          refine { hinv with start := fun _ _ hstart => ?_ }
          cases hstart
          exact ⟨signer, ⟨false, rfl⟩, hholds⟩
      | @opened m content =>
          rw [List.append_nil]
          refine { start := fun _ _ hstart => ?_, missing := nofun, once := hinv.once }
          cases hstart
          exact ⟨hknows.1, ⟨[], rfl, rfl⟩, fun hgenerated => hinv.missing (hknows.2 hgenerated)⟩
      | @wrote m rest _ n _ =>
          obtain ⟨hkey, ⟨written, rfl, hbytes⟩, hkeys⟩ := hknows
          rw [List.append_nil]
          refine { start := fun _ _ hstart => ?_, missing := nofun, once := hinv.once }
          cases hstart
          refine ⟨hkey, ⟨_, rfl, ?_⟩, hkeys⟩
          rw [List.append_assoc, List.take_append_drop, hbytes]
      | @persisted m _ stage =>
          obtain ⟨⟨signer, hkey⟩, ⟨written, rfl, hbytes⟩, hkeys⟩ := hknows
          rw [List.append_nil] at hbytes
          subst hbytes
          refine { start := fun _ _ hstart => ?_, missing := nofun,
                   once := length_log_le hkeys hinv.once }
          cases hstart
          exact ⟨signer, hkey, holds_toVecPretty hlaw hkey⟩
      | @unsettled m _ =>
          obtain ⟨-, ⟨written, rfl, -⟩, hkeys⟩ := hknows
          exact { start := nofun, missing := nofun, once := length_log_le hkeys hinv.once }
      | worked =>
          rw [List.append_nil]
          refine { hinv with start := fun _ _ hstart => ?_ }
          cases hstart
          exact hknows

theorem inv_init (files : Text → Option (List UInt8)) (role : Address) (balance : Address → ℕ) :
    ((init files role balance : State Signer).view lib path).Inv lib where
  start _ _ hstart := by cases hstart
  missing _ := rfl
  once := Nat.zero_le _

/-! ### A start that has its key -/

/-- **The invariant behind a start that has its key**: the file has it, and the starts to come take it
from there. -/
def View.Keeps (lib : Library Signer) (signer : Signer) (v : View Signer) : Prop :=
  Holds lib v.content signer ∧ ∀ cfg pc, v.start = some (cfg, pc) →
    match pc with
    | .loading => Text.trim cfg.recordUsagePrivateKey = []
    | .opening _ | .writing _ _ => False
    | .ready m _ => IsKey lib signer m
    | _ => True

theorem keeps_fileStep {signer : Signer} {v v' : View Signer} (hkeeps : v.Keeps lib signer)
    (h : FileStep lib (fun cfg => Text.trim cfg.recordUsagePrivateKey = []) v v') :
    v'.Keeps lib signer := by
  obtain ⟨hholds, hstart⟩ := hkeeps
  cases h with
  | same => exact ⟨hholds, hstart⟩
  | ended => exact ⟨hholds, fun _ _ hnone => by cases hnone⟩
  | started hblank hpc =>
      refine ⟨hholds, fun _ _ hnew => ?_⟩
      cases hnew
      rcases hpc with rfl | rfl
      · exact hblank
      · trivial
  | stepped hkey =>
      have hknows := hstart _ _ rfl
      cases hkey with
      | failed => exact ⟨hholds, fun _ _ hnone => by cases hnone⟩
      | inline hinline => exact absurd hknows hinline
      | blank => exact ⟨hholds, fun _ _ hnew => by cases hnew; trivial⟩
      | found => exact ⟨hholds, fun _ _ hnew => by cases hnew; trivial⟩
      | drawn =>
          obtain ⟨bytes, stored, hmissing, -, -⟩ := hholds
          cases hmissing
      | read hread =>
          refine ⟨hholds, fun _ _ hnew => ?_⟩
          cases hnew
          rw [hread.unique hholds]
          exact ⟨false, rfl⟩
      | opened => exact hknows.elim
      | wrote => exact hknows.elim
      | persisted => exact hknows.elim
      | unsettled => exact hknows.elim
      | worked => exact ⟨hholds, fun _ _ hnew => by cases hnew; exact hknows⟩

/-! ### A file that does not read -/

/-- **The invariant behind a file cut short**: it does not read, and no start has a key. -/
def View.Torn (lib : Library Signer) (v : View Signer) : Prop :=
  (∃ bytes, v.content = some bytes ∧ lib.fromSlice bytes = none) ∧
    ∀ cfg pc, v.start = some (cfg, pc) →
      match pc with
      | .loading => Text.trim cfg.recordUsagePrivateKey = []
      | .opening _ | .writing _ _ | .ready _ _ => False
      | _ => True

theorem torn_fileStep {v v' : View Signer} (htorn : v.Torn lib)
    (h : FileStep lib (fun cfg => Text.trim cfg.recordUsagePrivateKey = []) v v') :
    v'.Torn lib := by
  obtain ⟨hunread, hstart⟩ := htorn
  cases h with
  | same => exact ⟨hunread, hstart⟩
  | ended => exact ⟨hunread, fun _ _ hnone => by cases hnone⟩
  | started hblank hpc =>
      refine ⟨hunread, fun _ _ hnew => ?_⟩
      cases hnew
      rcases hpc with rfl | rfl
      · exact hblank
      · trivial
  | stepped hkey =>
      have hknows := hstart _ _ rfl
      cases hkey with
      | failed => exact ⟨hunread, fun _ _ hnone => by cases hnone⟩
      | inline hinline => exact absurd hknows hinline
      | blank => exact ⟨hunread, fun _ _ hnew => by cases hnew; trivial⟩
      | found => exact ⟨hunread, fun _ _ hnew => by cases hnew; trivial⟩
      | drawn =>
          obtain ⟨bytes, hmissing, -⟩ := hunread
          cases hmissing
      | read hread =>
          obtain ⟨bytes, rfl, hnone⟩ := hunread
          obtain ⟨bytes', stored, hbytes, hstored, -⟩ := hread
          obtain rfl := Option.some.inj hbytes
          rw [hnone] at hstored
          cases hstored
      | opened => exact hknows.elim
      | wrote => exact hknows.elim
      | persisted => exact hknows.elim
      | unsettled => exact hknows.elim
      | worked => exact hknows.elim

/-! ### A file that is there -/

/-- **The invariant behind a file that is there**: no start draws a key. -/
def View.Present (v : View Signer) : Prop :=
  v.content ≠ none ∧ v.keys = [] ∧ ∀ cfg pc, v.start = some (cfg, pc) →
    match pc with
    | .opening m | .writing m _ => m.generated = false
    | _ => True

theorem present_fileStep {allowed : Config → Prop} {v v' : View Signer} (hpresent : v.Present)
    (h : FileStep lib allowed v v') : v'.Present := by
  obtain ⟨hcontent, hkeys, hstart⟩ := hpresent
  cases h with
  | same => exact ⟨hcontent, hkeys, hstart⟩
  | ended => exact ⟨hcontent, hkeys, nofun⟩
  | started _ hpc =>
      refine ⟨hcontent, hkeys, fun _ _ hnew => ?_⟩
      cases hnew
      rcases hpc with rfl | rfl <;> trivial
  | stepped hkey =>
      have hknows := hstart _ _ rfl
      cases hkey with
      | failed => exact ⟨hcontent, by rwa [List.append_nil], nofun⟩
      | drawn => exact absurd rfl hcontent
      | opened => exact ⟨nofun, by rwa [List.append_nil], fun _ _ hnew => by cases hnew; exact hknows⟩
      | wrote =>
          refine ⟨by simpa using hcontent, by rwa [List.append_nil], fun _ _ hnew => ?_⟩
          cases hnew
          exact hknows
      | persisted =>
          rw [if_neg (by rw [hknows]; exact Bool.false_ne_true)]
          exact ⟨hcontent, by rwa [List.append_nil], fun _ _ hnew => by cases hnew; trivial⟩
      | unsettled =>
          rw [if_neg (by rw [hknows]; exact Bool.false_ne_true)]
          exact ⟨hcontent, by rwa [List.append_nil], nofun⟩
      | _ => exact ⟨hcontent, by rwa [List.append_nil], fun _ _ hnew => by cases hnew; trivial⟩

/-! ### From start to start -/

section

variable {files : Text → Option (List UInt8)} {role : Address} {balance : Address → ℕ}
  {acts acts' : List (Act Signer)} {cfg cfg' : Config}

theorem inv_run (hlaw : lib.Lawful) (hkept : ∀ act ∈ acts, act.Allowed lib path fun _ => True)
    (hrun : run (step lib) (init files role balance) acts = some s) : (s.view lib path).Inv lib :=
  invariant_view (fun _ _ hinv => inv_fileStep hlaw hinv) hkept (inv_init files role balance) hrun

/-- **A key is drawn at most once**, whatever the starts find in their configurations and wherever they
end, as long as nobody else changes the file; and none is drawn where there is a file before. -/
theorem generated_once (hlaw : lib.Lawful)
    (hkept : ∀ act ∈ acts, act.Allowed lib path fun _ => True)
    (hrun : run (step lib) (init files role balance) acts = some s) :
    (s.keysOf path).length ≤ 1 ∧ (files path ≠ none → s.keysOf path = []) := by
  refine ⟨(inv_run hlaw hkept hrun).once, fun hfile => ?_⟩
  have hbefore : ((init files role balance : State Signer).view lib path).Present :=
    ⟨hfile, rfl, fun _ _ hstart => by cases hstart⟩
  exact (invariant_view (fun _ _ hpresent => present_fileStep hpresent) hkept hbefore hrun).2.1

/-- **The key stays the same from start to start.**  Once a start has its key, each later one has the
same, however many starts were cut short in between, as long as the configuration gives them none and
nobody else changes the file. -/
theorem key_kept (hlaw : lib.Lawful) {m m' : RecordUsageKeyMaterial} {stage stage' : Stage Signer}
    (hkept : ∀ act ∈ acts, act.Allowed lib path fun _ => True)
    (hrun : run (step lib) (init files role balance) acts = some s)
    (hready : s.process = some (cfg, .ready m stage)) (hpath : lib.keyPath cfg = path)
    (hblank : ∀ act ∈ acts',
      act.Allowed lib path fun cfg => Text.trim cfg.recordUsagePrivateKey = [])
    (hrun' : run (step lib) s acts' = some s') (hready' : s'.process = some (cfg', .ready m' stage'))
    (hpath' : lib.keyPath cfg' = path) :
    m'.privateKeyHex = m.privateKeyHex ∧ m'.address = m.address := by
  obtain ⟨signer, hkey, hholds⟩ :=
    (inv_run hlaw hkept hrun).start _ _ (start_view.2 ⟨hready, hpath⟩)
  have hkeeps : (s.view lib path).Keeps lib signer := by
    refine ⟨hholds, fun _ _ hstart => ?_⟩
    obtain ⟨hprocess, -⟩ := start_view.1 hstart
    obtain ⟨rfl, rfl⟩ := Prod.mk.inj (Option.some.inj (hready.symm.trans hprocess))
    exact hkey
  have hkeeps' := invariant_view (fun _ _ hk => keeps_fileStep hk) hblank hkeeps hrun'
  obtain ⟨generated, rfl⟩ := hkey
  obtain ⟨generated', rfl⟩ := hkeeps'.2 _ _ (start_view.2 ⟨hready', hpath'⟩)
  exact ⟨rfl, rfl⟩

/-- The key of a start, once it knows it. -/
def Pc.material : Pc Signer → Option RecordUsageKeyMaterial
  | .opening m | .writing m _ | .ready m _ => some m
  | _ => none

/-- **A file cut short blocks every later start.**  When a start ends while it writes its key, none of
the later ones gets a key, as long as the configuration gives them none and nobody else changes the
file. -/
theorem torn_blocks (hlaw : lib.Lawful) {m : RecordUsageKeyMaterial} {rest : List UInt8}
    {pc' : Pc Signer} (hkept : ∀ act ∈ acts, act.Allowed lib path fun _ => True)
    (hrun : run (step lib) (init files role balance) acts = some s)
    (hwriting : s.process = some (cfg, .writing m rest)) (hpath : lib.keyPath cfg = path)
    (hrest : rest ≠ []) (hblank : ∀ act ∈ acts',
      act.Allowed lib path fun cfg => Text.trim cfg.recordUsagePrivateKey = [])
    (hrun' : run (step lib) s (.crash :: acts') = some s')
    (hstart' : s'.process = some (cfg', pc')) (hpath' : lib.keyPath cfg' = path) :
    pc'.material = none := by
  obtain ⟨⟨signer, generated, rfl⟩, ⟨written, hwritten, hbytes⟩, -⟩ :=
    (inv_run hlaw hkept hrun).start _ _ (start_view.2 ⟨hwriting, hpath⟩)
  obtain ⟨t, hcrash, hrun'⟩ := exists_step_of_run_cons hrun'
  cases hcrash
  have htorn : (({ s with process := none } : State Signer).view lib path).Torn lib :=
    ⟨⟨written, hwritten, hlaw.fromSlice_prefix signer generated written rest hrest hbytes⟩, nofun⟩
  have htorn' := invariant_view (fun _ _ ht => torn_fileStep ht) hblank htorn hrun'
  have hplace := htorn'.2 _ _ (start_view.2 ⟨hstart', hpath'⟩)
  cases pc' with
  | opening => exact hplace.elim
  | writing => exact hplace.elim
  | ready => exact hplace.elim
  | _ => rfl

end

/-! ### Starts on one disk

The private key `1` has a well-known address. -/

def oneAddress : Address :=
  ⟨[0x7e, 0x5f, 0x45, 0x52, 0x09, 0x1a, 0x69, 0x12, 0x5d, 0x5d, 0xfc, 0xb7, 0xb8, 0xc2, 0x65, 0x90,
    0x29, 0x39, 0x5b, 0xdf], rfl⟩

def oneKey : List.Vector UInt8 32 := Word.ofNat 1

namespace OneKey

def ascii (t : Text) : List UInt8 := t.map fun c => UInt8.ofNat c.toNat

def front : List UInt8 := ascii "\x7b\n  \"private_key\": \"".toList

def back (address : Address) : List UInt8 :=
  ascii ("\",\n  \"address\": \"0x".toList ++ Hex.encode address.toList ++ "\"\n\x7d".toList)

/-- The file, as `serde_json` writes it. -/
def toVecPretty (stored : StoredRecordUsageKey) : List UInt8 :=
  front ++ ascii stored.privateKey ++ back stored.address

/-- What a file with the address of the key `1` says. -/
def fromSlice (bytes : List UInt8) : Option StoredRecordUsageKey :=
  let privateKey := ((bytes.drop front.length).take 66).map fun b => Char.ofNat b.toNat
  if privateKey.length = 66 ∧ toVecPretty ⟨privateKey, oneAddress⟩ = bytes then
    some ⟨privateKey, oneAddress⟩
  else none

end OneKey

/-- The libraries, where the key `1` is the only one. -/
def oneKeyLibrary : Library (List.Vector UInt8 32) where
  parse t := (NodeAuth.parseNodeIdHex t).toOption
  toBytes := List.Vector.toList
  address _ := oneAddress
  parseAddress t :=
    ((Text.stripPrefix "0x".toList t).bind Hex.decode).bind fun bytes =>
      if h : bytes.length = 20 then some ⟨bytes, h⟩ else none
  parsesUrl t := "http://".toList.isPrefixOf t
  toVecPretty := OneKey.toVecPretty
  fromSlice := OneKey.fromSlice
  parent _ := some []
  join a b := if a = [] then b else a ++ "/".toList ++ b

theorem length_encode (bs : List UInt8) : (Hex.encode bs).length = 2 * bs.length := by
  induction bs with
  | nil => rfl
  | cons b bs ih =>
      rw [Hex.encode, List.length_cons, List.length_cons, List.length_cons, ih]
      omega

/-- Hexadecimal digits are bytes. -/
theorem map_ascii_encode (bs : List UInt8) :
    (OneKey.ascii (Hex.encode bs)).map (fun b => Char.ofNat b.toNat) = Hex.encode bs := by
  have hdigit : ∀ n, n < 16 →
      Char.ofNat (UInt8.ofNat (Hex.digit n).toNat).toNat = Hex.digit n := by
    intro n hn
    have hall : ∀ m : Fin 16, Char.ofNat (UInt8.ofNat (Hex.digit m.val).toNat).toNat =
        Hex.digit m.val := by decide
    exact hall ⟨n, hn⟩
  induction bs with
  | nil => rfl
  | cons b bs ih =>
      have hb := b.toNat_lt
      rw [Hex.encode, OneKey.ascii, List.map_cons, List.map_cons, List.map_cons, List.map_cons,
        hdigit _ (by omega), hdigit _ (Nat.mod_lt _ (by omega))]
      exact congrArg (fun t => _ :: _ :: t) ih

theorem length_signerToHex (signer : List.Vector UInt8 32) :
    (oneKeyLibrary.signerToHex signer).length = 66 := by
  have hlength : (Hex.encode signer.toList).length = 64 := by
    rw [length_encode, signer.toList_length]
  exact congrArg (fun n => n + 2) hlength

theorem map_ascii_signerToHex (signer : List.Vector UInt8 32) :
    (OneKey.ascii (oneKeyLibrary.signerToHex signer)).map (fun b => Char.ofNat b.toNat) =
      oneKeyLibrary.signerToHex signer := by
  rw [Library.signerToHex, OneKey.ascii, List.map_append, List.map_append]
  exact congrArg (fun t => "0x".toList ++ t) (map_ascii_encode _)

theorem length_toVecPretty (stored : StoredRecordUsageKey) :
    (OneKey.toVecPretty stored).length =
      OneKey.front.length + stored.privateKey.length + (OneKey.back stored.address).length := by
  rw [OneKey.toVecPretty, List.length_append, List.length_append, OneKey.ascii, List.length_map]

theorem lawful_oneKeyLibrary : oneKeyLibrary.Lawful where
  parse_signerToHex signer := by
    change (NodeAuth.parseNodeIdHex (NodeAuth.nodeIdHex signer)).toOption = some signer
    rw [NodeAuth.parseNodeIdHex_nodeIdHex]
    rfl
  fromSlice_toVecPretty signer generated := by
    have hlength : (OneKey.ascii (oneKeyLibrary.signerToHex signer)).length = 66 := by
      rw [OneKey.ascii, List.length_map, length_signerToHex]
    have hread : ((OneKey.toVecPretty ⟨oneKeyLibrary.signerToHex signer, oneAddress⟩).drop
        OneKey.front.length).take 66 = OneKey.ascii (oneKeyLibrary.signerToHex signer) := by
      rw [OneKey.toVecPretty, List.append_assoc, List.drop_left, ← hlength, List.take_left]
    change OneKey.fromSlice (OneKey.toVecPretty ⟨oneKeyLibrary.signerToHex signer, oneAddress⟩) =
      some ⟨oneKeyLibrary.signerToHex signer, oneAddress⟩
    simp only [OneKey.fromSlice, hread, map_ascii_signerToHex, length_signerToHex, and_self, if_true]
  fromSlice_prefix signer generated content rest hrest hbytes := by
    have hwhole := congrArg List.length hbytes
    change _ = (OneKey.toVecPretty ⟨oneKeyLibrary.signerToHex signer, oneAddress⟩).length at hwhole
    rw [List.length_append, length_toVecPretty, length_signerToHex] at hwhole
    have hpos := List.length_pos_iff.2 hrest
    change OneKey.fromSlice content = none
    rw [OneKey.fromSlice]
    refine if_neg ?_
    rintro ⟨hkey, hsame⟩
    -- the part would be as long as the whole
    have hpart := congrArg List.length hsame
    rw [length_toVecPretty, hkey] at hpart
    dsimp only at hpart hwhole
    omega

def oneKeyConfig : Config where
  configPath := "config.toml".toList
  dataDir := []
  chainEnabled := true
  escrowContract := "0x00000000000000000000000000000000000000e5".toList
  rpcUrl := "http://127.0.0.1:8545".toList
  enabled := true
  recordUsageEnabled := true
  recordUsagePrivateKey := []
  registryOwnerPrivateKey := []

/-- An empty disk, and an escrow without a role. -/
def emptyDisk : State (List.Vector UInt8 32) := init (fun _ => none) Address.zero fun _ => 0

/-- A start draws a key and begins to write it. -/
def firstWrites : List (Act (List.Vector UInt8 32)) :=
  [.start oneKeyConfig, .go .ok, .go (.draws oneKey), .go .ok, .go (.writes 20)]

/-- It writes the rest. -/
def firstStart : List (Act (List.Vector UInt8 32)) := firstWrites ++ [.go (.writes 1000), .go .ok]

/-- The start ends, and the next one finds the file. -/
def restart : List (Act (List.Vector UInt8 32)) :=
  [.crash, .start oneKeyConfig, .go .ok, .go .ok, .go .ok]

theorem allowed_firstStart (path : Text) :
    ∀ act ∈ firstStart, act.Allowed oneKeyLibrary path fun _ => True := by
  simp [firstStart, firstWrites, Act.Allowed]

theorem allowed_restart (path : Text) : ∀ act ∈ restart,
    act.Allowed oneKeyLibrary path fun cfg => Text.trim cfg.recordUsagePrivateKey = [] := by
  have hblank : Text.trim oneKeyConfig.recordUsagePrivateKey = [] := rfl
  simp [restart, Act.Allowed, hblank]

theorem generated_once_firstStart :
    ∃ s, run (step oneKeyLibrary) emptyDisk firstStart = some s ∧
      s.keysOf (oneKeyLibrary.keyPath oneKeyConfig) = [oneAddress] ∧
      (s.keysOf (oneKeyLibrary.keyPath oneKeyConfig)).length ≤ 1 := by
  have hkeys : (run (step oneKeyLibrary) emptyDisk firstStart).map
      (fun s => s.keysOf (oneKeyLibrary.keyPath oneKeyConfig)) = some [oneAddress] := by
    decide +kernel
  obtain ⟨s, hrun, hlog⟩ := Option.map_eq_some_iff.1 hkeys
  exact ⟨s, hrun, hlog, (generated_once lawful_oneKeyLibrary (allowed_firstStart _) hrun).1⟩

theorem key_kept_restart :
    ∃ s s' m m' stage stage', run (step oneKeyLibrary) emptyDisk firstStart = some s ∧
      run (step oneKeyLibrary) s restart = some s' ∧
      s.process = some (oneKeyConfig, .ready m stage) ∧
      s'.process = some (oneKeyConfig, .ready m' stage') ∧ m.generated = true ∧
      m'.generated = false ∧ m'.privateKeyHex = m.privateKeyHex ∧ m'.address = m.address := by
  have hfirst : (run (step oneKeyLibrary) emptyDisk firstStart).map State.process =
      some (some (oneKeyConfig, .ready (oneKeyLibrary.materialOf oneKey true) .readingRole)) := by
    decide +kernel
  have hsecond : (run (step oneKeyLibrary) emptyDisk (firstStart ++ restart)).map State.process =
      some (some (oneKeyConfig, .ready (oneKeyLibrary.materialOf oneKey false) .readingRole)) := by
    decide +kernel
  obtain ⟨s, hrun, hready⟩ := Option.map_eq_some_iff.1 hfirst
  rw [run_append _ hrun] at hsecond
  obtain ⟨s', hrun', hready'⟩ := Option.map_eq_some_iff.1 hsecond
  exact ⟨s, s', _, _, _, _, hrun, hrun', hready, hready', rfl, rfl,
    key_kept lawful_oneKeyLibrary (allowed_firstStart _) hrun hready rfl (allowed_restart _) hrun'
      hready' rfl⟩

/-- The first start ends after twenty bytes.  The next one finds the file. -/
theorem torn_blocks_firstWrites :
    ∃ s s' m rest pc', run (step oneKeyLibrary) emptyDisk firstWrites = some s ∧
      s.process = some (oneKeyConfig, .writing m rest) ∧
      run (step oneKeyLibrary) s (.crash :: [.start oneKeyConfig, .go .ok, .go .ok]) = some s' ∧
      s'.process = some (oneKeyConfig, pc') ∧ pc'.material = none := by
  have hfirst : (run (step oneKeyLibrary) emptyDisk firstWrites).map State.process =
      some (some (oneKeyConfig, .writing (oneKeyLibrary.materialOf oneKey true)
        ((OneKey.toVecPretty (oneKeyLibrary.materialOf oneKey true).stored).drop 20))) := by
    decide +kernel
  have hsecond : (run (step oneKeyLibrary) emptyDisk
      (firstWrites ++ .crash :: [.start oneKeyConfig, .go .ok, .go .ok])).map State.process =
      some (some (oneKeyConfig, .reading)) := by
    decide +kernel
  have hblank : Text.trim oneKeyConfig.recordUsagePrivateKey = [] := rfl
  obtain ⟨s, hrun, hwriting⟩ := Option.map_eq_some_iff.1 hfirst
  rw [run_append _ hrun] at hsecond
  obtain ⟨s', hrun', hreading⟩ := Option.map_eq_some_iff.1 hsecond
  refine ⟨s, s', _, _, _, hrun, hwriting, hrun', hreading,
    torn_blocks lawful_oneKeyLibrary ?_ hrun hwriting rfl ?_ ?_ hrun' hreading rfl⟩
  · intro act hact
    exact allowed_firstStart _ act (List.mem_append_left _ hact)
  · decide +kernel
  · simp [Act.Allowed, hblank]

end RecordUsageKey
