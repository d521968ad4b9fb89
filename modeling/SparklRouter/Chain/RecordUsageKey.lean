/-
**The signing key of the router, from start to start.**

The router signs what it submits to the escrow with a key that it finds or makes when it starts
(`src/chain/record_usage_key.rs`).  `load_or_generate` takes the key of the configuration and writes it
to a file, or reads the file, or, if there is none, draws a key and writes it; `bootstrap` then
registers the address of the key as the metering role of the escrow and provides it with gas, and
`main` makes a client of it.  This module runs one start after the other on the same disk and the same
chain.  A start can be cut short anywhere, the write of the file included, which is not atomic; the
calls to the chain fail or are answered, and what was sent can be included at any later time.

Main definitions:

* `RecordUsageKey.Library` — what the program uses of other libraries, and what it relies on;
* `RecordUsageKey.Pc`, `RecordUsageKey.Stage` — where a start stands;
* `RecordUsageKey.State`, `RecordUsageKey.Act`, `RecordUsageKey.step` — the starts on a disk and a chain;
* `RecordUsageKey.Holds` — the file has a key;
* `RecordUsageKey.KeyStep`, `RecordUsageKey.StageStep` — what a step does to the key file, and to the
  chain.

Main results:

* `RecordUsageKey.keyStep_of_advance`, `RecordUsageKey.stageStep_of_advanceReady` — **what a step of a
  start does**.
-/

import SparklRouter.Chain.Session
import SparklRouter.Concurrency.Transition
import SparklRouter.Text.Hex

set_option relaxedAutoImplicit false
set_option autoImplicit false

namespace RecordUsageKey

open Transition

/-! ### The key and its file -/

structure StoredRecordUsageKey where
  privateKey : Text
  address : Address
deriving DecidableEq

structure RecordUsageKeyMaterial where
  privateKeyHex : Text
  address : Address
  generated : Bool
deriving DecidableEq

def RecordUsageKeyMaterial.stored (m : RecordUsageKeyMaterial) : StoredRecordUsageKey :=
  ⟨m.privateKeyHex, m.address⟩

/-- What the program uses of other libraries. -/
structure Library (Signer : Type) where
  /-- `str::parse::<PrivateKeySigner>`. -/
  parse : Text → Option Signer
  toBytes : Signer → List UInt8
  address : Signer → Address
  /-- `str::parse::<Address>`. -/
  parseAddress : Text → Option Address
  /-- Whether `str::parse::<reqwest::Url>` succeeds. -/
  parsesUrl : Text → Bool
  toVecPretty : StoredRecordUsageKey → List UInt8
  fromSlice : List UInt8 → Option StoredRecordUsageKey
  /-- `Path::parent`. -/
  parent : Text → Option Text
  /-- `Path::join`. -/
  join : Text → Text → Text

/-- The settings that a start reads. -/
structure Config where
  /-- The file of the settings. -/
  configPath : Text
  dataDir : Text
  chainEnabled : Bool
  escrowContract : Text
  rpcUrl : Text
  enabled : Bool
  recordUsageEnabled : Bool
  recordUsagePrivateKey : Text
  registryOwnerPrivateKey : Text
deriving DecidableEq

/-- `SettlementConfig::is_active`, of the settings with the private key that they end up with. -/
def Config.isActive (cfg : Config) (recordUsagePrivateKey : Text) : Bool :=
  cfg.chainEnabled && cfg.enabled && cfg.recordUsageEnabled &&
    !(Text.trim recordUsagePrivateKey).isEmpty

/-- The balance below which the address gets gas, in wei. -/
def minBalanceWei : ℕ := 10000000000000000

def topUpWei : ℕ := 100000000000000000

/-! ### The places of a start -/

/-- Where a start stands that has its key: in `ensure_record_usage_role`, in
`ensure_record_usage_gas_funded`, and then in `RecordUsageClient::new`. -/
inductive Stage (Signer : Type)
  /-- In `recordUsageRole`. -/
  | readingRole
  /-- In the `send` of `setRecordUsage`. -/
  | submitting
  /-- In the `watch` of this transaction. -/
  | confirming (tx : ℕ)
  /-- In `get_balance`. -/
  | readingBalance
  | toppingUp
  | confirmingTopUp (tx : ℕ)
  /-- In the `recordUsageRole` of the client. -/
  | connecting (signer : Signer)
  /-- The servers run, with the address of the client if the usage batcher is enabled. -/
  | serving (client : Option Address)
deriving DecidableEq

/-- Where a start stands, in `load_or_generate` first. -/
inductive Pc (Signer : Type)
  /-- In `create_dir_all`. -/
  | loading
  /-- In `path.exists()`. -/
  | locating
  | reading
  /-- In `fs::write`, before the file is created or truncated. -/
  | opening (m : RecordUsageKeyMaterial)
  /-- In `fs::write`, with bytes that are not written yet. -/
  | writing (m : RecordUsageKeyMaterial) (rest : List UInt8)
  | ready (m : RecordUsageKeyMaterial) (stage : Stage Signer)
  /-- The servers run, and the chain is switched off. -/
  | unchained
deriving DecidableEq

inductive Call
  | setRecordUsage (next : Address)
  | transfer (recipient : Address)
deriving DecidableEq

structure Tx where
  call : Call
  included : Bool
deriving DecidableEq

structure State (Signer : Type) where
  files : Text → Option (List UInt8)
  /-- `recordUsageRole` of the escrow. -/
  role : Address
  balance : Address → ℕ
  /-- The transactions that the starts have sent. -/
  txs : List Tx
  process : Option (Config × Pc Signer)
  /-- What the log tells of generated keys, with their files. -/
  generated : List (Text × Address)

/-- How the call of a start ends. -/
inductive Outcome (Signer : Type)
  | ok
  | fails
  /-- The file is missing, and this key is drawn. -/
  | draws (signer : Signer)
  /-- One `write` takes this many bytes. -/
  | writes (n : ℕ)
  /-- The transaction is sent, and the call fails nevertheless. -/
  | lost

inductive Act (Signer : Type)
  | start (cfg : Config)
  | go (outcome : Outcome Signer)
  /-- The process ends, wherever it stands. -/
  | crash
  /-- A transaction is included, with its effect or reverted. -/
  | mine (tx : ℕ) (effective : Bool)
  /-- Someone else sets the role. -/
  | setRole (next : Address)
  | setBalance (of : Address) (wei : ℕ)
  /-- Someone else changes a file or removes it. -/
  | edit (path : Text) (content : Option (List UInt8))

/-! ### The steps -/

namespace Library

variable {Signer : Type} (lib : Library Signer)

def resolveDataDir (configPath configured : Text) : Text :=
  let trimmed := Text.trim configured
  if trimmed ≠ [] then trimmed
  else lib.join ((lib.parent configPath).getD ".".toList) "data".toList

def keyPath (cfg : Config) : Text :=
  lib.join (lib.resolveDataDir cfg.configPath cfg.dataDir) "record-usage-key.json".toList

def parseSigner (hexKey : Text) : Option Signer := lib.parse (Text.trim hexKey)

def signerToHex (signer : Signer) : Text := "0x".toList ++ Hex.encode (lib.toBytes signer)

def materialOf (signer : Signer) (generated : Bool) : RecordUsageKeyMaterial :=
  ⟨lib.signerToHex signer, lib.address signer, generated⟩

/-- What the program relies on.  A key that is printed reads back; so does a file that is written, and
a part of such a file does not read. -/
structure Lawful : Prop where
  parse_signerToHex : ∀ signer, lib.parse (lib.signerToHex signer) = some signer
  fromSlice_toVecPretty : ∀ signer generated,
    lib.fromSlice (lib.toVecPretty (lib.materialOf signer generated).stored) =
      some (lib.materialOf signer generated).stored
  fromSlice_prefix : ∀ signer generated content rest, rest ≠ [] →
    content ++ rest = lib.toVecPretty (lib.materialOf signer generated).stored →
    lib.fromSlice content = none

/-- The beginning of `ensure_record_usage_gas_funded`. -/
def ensureGas (cfg : Config) (m : RecordUsageKeyMaterial) : Option (Pc Signer) :=
  if lib.parsesUrl (Text.trim cfg.rpcUrl) then some (.ready m .readingBalance) else none

/-- The beginning of `ensure_record_usage_role`. -/
def ensureRole (cfg : Config) (m : RecordUsageKeyMaterial) : Option (Pc Signer) :=
  match lib.parseAddress (Text.trim cfg.escrowContract) with
  | none => none
  | some escrow =>
      if escrow = Address.zero then lib.ensureGas cfg m
      else if lib.parsesUrl (Text.trim cfg.rpcUrl) then some (.ready m .readingRole)
      else none

/-- What the configuration says about the key. -/
def loadOrGenerate (cfg : Config) : Option (Pc Signer) :=
  let inline := Text.trim cfg.recordUsagePrivateKey
  if inline ≠ [] then
    (lib.parseSigner inline).map fun signer => .opening (lib.materialOf signer false)
  else some .locating

/-- What the file says about the key. -/
def readKeyFile (cfg : Config) (content : List UInt8) : Option (Pc Signer) :=
  match lib.fromSlice content with
  | none => none
  | some stored =>
      match lib.parseSigner stored.privateKey with
      | none => none
      | some signer => lib.ensureRole cfg (lib.materialOf signer false)

/-- From the end of `bootstrap` to the first call of `RecordUsageClient::new`: without a client the
batcher is disabled, and the start goes on. -/
def connect (cfg : Config) (m : RecordUsageKeyMaterial) : Stage Signer :=
  if cfg.isActive m.privateKeyHex then
    match lib.parseAddress (Text.trim cfg.escrowContract) with
    | none => .serving none
    | some escrow =>
        if escrow = Address.zero then .serving none
        else if !lib.parsesUrl (Text.trim cfg.rpcUrl) then .serving none
        else
          match lib.parse (Text.trim m.privateKeyHex) with
          | none => .serving none
          | some signer => .connecting signer
  else .serving none

/-- After the answer to `recordUsageRole`. -/
def submitRole (cfg : Config) (m : RecordUsageKeyMaterial) (onChain : Address) :
    Option (Pc Signer) :=
  if onChain = m.address then lib.ensureGas cfg m
  else if Text.trim cfg.registryOwnerPrivateKey = [] then lib.ensureGas cfg m
  else (lib.parseSigner cfg.registryOwnerPrivateKey).map fun _ => .ready m .submitting

/-- After the answer to `get_balance`. -/
def topUp (cfg : Config) (m : RecordUsageKeyMaterial) (balance : ℕ) : Option (Pc Signer) :=
  if minBalanceWei ≤ balance then some (.ready m (lib.connect cfg m))
  else if Text.trim cfg.registryOwnerPrivateKey = [] then some (.ready m (lib.connect cfg m))
  else (lib.parseSigner cfg.registryOwnerPrivateKey).map fun _ => .ready m .toppingUp

end Library

section

variable {Signer : Type}

/-- The start goes on, or it ends with an error. -/
def State.goTo (s : State Signer) (cfg : Config) (pc : Option (Pc Signer)) : State Signer :=
  { s with process := pc.map fun pc => (cfg, pc) }

def State.send (s : State Signer) (call : Call) : State Signer :=
  { s with txs := s.txs ++ [⟨call, false⟩] }

def State.isIncluded (s : State Signer) (tx : ℕ) : Bool := (s.txs[tx]?).any Tx.included

def State.writeFile (s : State Signer) (path : Text) (content : Option (List UInt8)) :
    State Signer :=
  { s with files := Function.update s.files path content }

/-- The line in the log about a generated key. -/
def State.logKey (s : State Signer) (path : Text) (m : RecordUsageKeyMaterial) : State Signer :=
  if m.generated then { s with generated := s.generated ++ [(path, m.address)] } else s

end

section

variable {Signer : Type} (lib : Library Signer)

/-- A step of a start that has its key. -/
def advanceReady (s : State Signer) (cfg : Config) (m : RecordUsageKeyMaterial) :
    Stage Signer → Outcome Signer → Option (State Signer)
  -- without an answer the start goes on
  | .readingRole, .fails => some (s.goTo cfg (lib.ensureGas cfg m))
  | .readingRole, .ok => some (s.goTo cfg (lib.submitRole cfg m s.role))
  | .submitting, .ok =>
      some ((s.send (.setRecordUsage m.address)).goTo cfg
        (some (.ready m (.confirming s.txs.length))))
  | .submitting, .lost => some ((s.send (.setRecordUsage m.address)).goTo cfg none)
  | .submitting, .fails => some (s.goTo cfg none)
  | .confirming tx, .ok =>
      if s.isIncluded tx then some (s.goTo cfg (lib.ensureGas cfg m)) else none
  | .confirming _, .fails => some (s.goTo cfg none)
  | .readingBalance, .ok => some (s.goTo cfg (lib.topUp cfg m (s.balance m.address)))
  | .readingBalance, .fails => some (s.goTo cfg none)
  | .toppingUp, .ok =>
      some ((s.send (.transfer m.address)).goTo cfg
        (some (.ready m (.confirmingTopUp s.txs.length))))
  | .toppingUp, .lost => some ((s.send (.transfer m.address)).goTo cfg none)
  | .toppingUp, .fails => some (s.goTo cfg none)
  | .confirmingTopUp tx, .ok =>
      if s.isIncluded tx then some (s.goTo cfg (some (.ready m (lib.connect cfg m)))) else none
  | .confirmingTopUp _, .fails => some (s.goTo cfg none)
  | .connecting signer, .ok =>
      some (s.goTo cfg (some (.ready m (.serving
        (if s.role = lib.address signer then some (lib.address signer) else none)))))
  | .connecting _, .fails => some (s.goTo cfg (some (.ready m (.serving none))))
  | _, _ => none

/-- A step of a start. -/
def advance (s : State Signer) (cfg : Config) : Pc Signer → Outcome Signer → Option (State Signer)
  | .loading, .ok => some (s.goTo cfg (lib.loadOrGenerate cfg))
  | .loading, .fails => some (s.goTo cfg none)
  | .locating, .ok =>
      if (s.files (lib.keyPath cfg)).isSome then some (s.goTo cfg (some .reading)) else none
  | .locating, .draws signer =>
      if (s.files (lib.keyPath cfg)).isSome then none
      else some (s.goTo cfg (some (.opening (lib.materialOf signer true))))
  | .reading, .ok =>
      some (s.goTo cfg ((s.files (lib.keyPath cfg)).bind (lib.readKeyFile cfg)))
  | .reading, .fails => some (s.goTo cfg none)
  | .opening m, .ok =>
      some ((s.writeFile (lib.keyPath cfg) (some [])).goTo cfg
        (some (.writing m (lib.toVecPretty m.stored))))
  | .opening _, .fails => some (s.goTo cfg none)
  | .writing m rest, .writes n =>
      if rest = [] ∨ n = 0 then none
      else
        -- what is written to a file that has been removed is lost
        some ((s.writeFile (lib.keyPath cfg)
          ((s.files (lib.keyPath cfg)).map (· ++ rest.take n))).goTo cfg
            (some (.writing m (rest.drop n))))
  | .writing m rest, .ok =>
      if rest = [] then some ((s.logKey (lib.keyPath cfg) m).goTo cfg (lib.ensureRole cfg m))
      else none
  | .writing _ _, .fails => some (s.goTo cfg none)
  | .ready m stage, outcome => advanceReady lib s cfg m stage outcome
  | _, _ => none

/-- The effect of a transaction. -/
def State.apply (s : State Signer) : Call → State Signer
  | .setRecordUsage next => { s with role := next }
  | .transfer recipient =>
      { s with balance := Function.update s.balance recipient (s.balance recipient + topUpWei) }

def step (s : State Signer) : Act Signer → Option (State Signer)
  | .start cfg =>
      match s.process with
      | none => some (s.goTo cfg (some (if cfg.chainEnabled then .loading else .unchained)))
      | some _ => none
  | .go outcome =>
      match s.process with
      | none => none
      | some (cfg, pc) => advance lib s cfg pc outcome
  | .crash => some { s with process := none }
  | .mine tx effective =>
      match s.txs[tx]? with
      | none => none
      | some sent =>
          if sent.included then none
          else
            let s := { s with txs := s.txs.set tx ⟨sent.call, true⟩ }
            some (if effective then s.apply sent.call else s)
  | .setRole next => some { s with role := next }
  | .setBalance of wei => some { s with balance := Function.update s.balance of wei }
  | .edit path content => some (s.writeFile path content)

/-- Before the first start. -/
def init (files : Text → Option (List UInt8)) (role : Address) (balance : Address → ℕ) :
    State Signer where
  files
  role
  balance
  txs := []
  process := none
  generated := []

end

/-! ### What a step does to the file -/

section

variable {Signer : Type} (lib : Library Signer)

/-- The file has a key, whatever address it says. -/
def Holds (content : Option (List UInt8)) (signer : Signer) : Prop :=
  ∃ bytes stored, content = some bytes ∧ lib.fromSlice bytes = some stored ∧
    lib.parseSigner stored.privateKey = some signer

/-- The calls with which `bootstrap` begins, once the key is known. -/
def Stage.Begins : Stage Signer → Prop
  | .readingRole | .readingBalance => True
  | _ => False

/-- A step of a start, as far as its key file is concerned: where it stands before and after, the
content of the file before and after, and the generated keys that the log gains. -/
inductive KeyStep (cfg : Config) : Pc Signer → Option (List UInt8) → Option (Pc Signer) →
    Option (List UInt8) → List Address → Prop
  | failed {pc content} : KeyStep cfg pc content none content []
  | inline {content signer} (h : Text.trim cfg.recordUsagePrivateKey ≠ []) :
      KeyStep cfg .loading content (some (.opening (lib.materialOf signer false))) content []
  | blank {content} : KeyStep cfg .loading content (some .locating) content []
  | found {bytes} : KeyStep cfg .locating (some bytes) (some .reading) (some bytes) []
  | drawn {signer} :
      KeyStep cfg .locating none (some (.opening (lib.materialOf signer true))) none []
  | read {content signer stage} (h : Holds lib content signer) (hstage : stage.Begins) :
      KeyStep cfg .reading content (some (.ready (lib.materialOf signer false) stage)) content []
  | opened {m content} :
      KeyStep cfg (.opening m) content (some (.writing m (lib.toVecPretty m.stored))) (some []) []
  | wrote {m rest content} (n : ℕ) (h : rest ≠ []) :
      KeyStep cfg (.writing m rest) content (some (.writing m (rest.drop n)))
        (content.map (· ++ rest.take n)) []
  | persisted {m content stage} (hstage : stage.Begins) :
      KeyStep cfg (.writing m []) content (some (.ready m stage)) content
        (if m.generated then [m.address] else [])
  /-- The file is written, and the settings about the chain do not read. -/
  | unsettled {m content} :
      KeyStep cfg (.writing m []) content none content (if m.generated then [m.address] else [])
  | worked {m stage stage' content} :
      KeyStep cfg (.ready m stage) content (some (.ready m stage')) content []

/-- A step of a start that has its key: where it stands before and after, and the calls it sends. -/
inductive StageStep (cfg : Config) (m : RecordUsageKeyMaterial) (role : Address) :
    Stage Signer → Option (Stage Signer) → List Call → Prop
  | failed {stage} : StageStep cfg m role stage none []
  | settled {stage} : StageStep cfg m role stage (some .readingBalance) []
  | differs (h : role ≠ m.address) : StageStep cfg m role .readingRole (some .submitting) []
  | submitted {tx} :
      StageStep cfg m role .submitting (some (.confirming tx)) [.setRecordUsage m.address]
  | lost : StageStep cfg m role .submitting none [.setRecordUsage m.address]
  | poor : StageStep cfg m role .readingBalance (some .toppingUp) []
  | toppedUp {tx} :
      StageStep cfg m role .toppingUp (some (.confirmingTopUp tx)) [.transfer m.address]
  | lostTopUp : StageStep cfg m role .toppingUp none [.transfer m.address]
  | connects {stage} : StageStep cfg m role stage (some (lib.connect cfg m)) []
  | enabled {signer} (h : role = lib.address signer) :
      StageStep cfg m role (.connecting signer) (some (.serving (some (lib.address signer)))) []
  | disabled {signer} : StageStep cfg m role (.connecting signer) (some (.serving none)) []

theorem Library.ensureGas_cases (cfg : Config) (m : RecordUsageKeyMaterial) :
    lib.ensureGas cfg m = none ∨ lib.ensureGas cfg m = some (.ready m .readingBalance) := by
  rw [Library.ensureGas]
  split
  · exact Or.inr rfl
  · exact Or.inl rfl

theorem Library.ensureRole_cases (cfg : Config) (m : RecordUsageKeyMaterial) :
    lib.ensureRole cfg m = none ∨
      ∃ stage : Stage Signer, stage.Begins ∧ lib.ensureRole cfg m = some (.ready m stage) := by
  rw [Library.ensureRole]
  split
  · exact Or.inl rfl
  · split
    · exact (lib.ensureGas_cases cfg m).imp_right fun hgas => ⟨.readingBalance, trivial, hgas⟩
    · split
      · exact Or.inr ⟨.readingRole, trivial, rfl⟩
      · exact Or.inl rfl

theorem Library.submitRole_cases (cfg : Config) (m : RecordUsageKeyMaterial) (onChain : Address) :
    lib.submitRole cfg m onChain = none ∨
      lib.submitRole cfg m onChain = some (.ready m .readingBalance) ∨
        onChain ≠ m.address ∧ lib.submitRole cfg m onChain = some (.ready m .submitting) := by
  rw [Library.submitRole]
  split
  · exact (lib.ensureGas_cases cfg m).imp_right Or.inl
  · rename_i hother
    split
    · exact (lib.ensureGas_cases cfg m).imp_right Or.inl
    · cases lib.parseSigner cfg.registryOwnerPrivateKey with
      | none => exact Or.inl rfl
      | some _ => exact Or.inr (Or.inr ⟨hother, rfl⟩)

theorem Library.topUp_cases (cfg : Config) (m : RecordUsageKeyMaterial) (balance : ℕ) :
    lib.topUp cfg m balance = none ∨
      lib.topUp cfg m balance = some (.ready m (lib.connect cfg m)) ∨
        lib.topUp cfg m balance = some (.ready m .toppingUp) := by
  rw [Library.topUp]
  split
  · exact Or.inr (Or.inl rfl)
  · split
    · exact Or.inr (Or.inl rfl)
    · cases lib.parseSigner cfg.registryOwnerPrivateKey with
      | none => exact Or.inl rfl
      | some _ => exact Or.inr (Or.inr rfl)

variable {lib} {s s' : State Signer} {cfg : Config} {m : RecordUsageKeyMaterial}

/-- A state that agrees with another in everything but the process and the transactions sent. -/
structure SameBut (s s' : State Signer) (calls : List Call) : Prop where
  files : s'.files = s.files
  generated : s'.generated = s.generated
  role : s'.role = s.role
  txs : s'.txs = s.txs ++ calls.map fun call => ⟨call, false⟩

theorem sameBut_goTo (s : State Signer) (cfg : Config) (pc : Option (Pc Signer)) :
    SameBut s (s.goTo cfg pc) [] where
  files := rfl
  generated := rfl
  role := rfl
  txs := (List.append_nil _).symm

theorem sameBut_send (s : State Signer) (cfg : Config) (call : Call) (pc : Option (Pc Signer)) :
    SameBut s ((s.send call).goTo cfg pc) [call] where
  files := rfl
  generated := rfl
  role := rfl
  txs := rfl

/-- **What a step of a start that has its key does.** -/
theorem stageStep_of_advanceReady {stage : Stage Signer} {outcome : Outcome Signer}
    (h : advanceReady lib s cfg m stage outcome = some s') :
    ∃ stage' calls, s'.process = stage'.map (fun stage => (cfg, Pc.ready m stage)) ∧
      SameBut s s' calls ∧ StageStep lib cfg m s.role stage stage' calls := by
  have hgas : ∃ stage' calls, ((s.goTo cfg (lib.ensureGas cfg m)).process =
        stage'.map fun stage => (cfg, Pc.ready m stage)) ∧
      SameBut s (s.goTo cfg (lib.ensureGas cfg m)) calls ∧
        StageStep lib cfg m s.role stage stage' calls := by
    rcases lib.ensureGas_cases cfg m with hgas | hgas
    · rw [hgas]
      exact ⟨none, [], rfl, sameBut_goTo .., .failed⟩
    · rw [hgas]
      exact ⟨some .readingBalance, [], rfl, sameBut_goTo .., .settled⟩
  unfold advanceReady at h
  split at h
  case h_1 => cases h; exact hgas
  case h_2 =>
    cases h
    rcases lib.submitRole_cases cfg m s.role with hrole | hrole | ⟨hother, hrole⟩
    · rw [hrole]
      exact ⟨none, [], rfl, sameBut_goTo .., .failed⟩
    · rw [hrole]
      exact ⟨some .readingBalance, [], rfl, sameBut_goTo .., .settled⟩
    · rw [hrole]
      exact ⟨some .submitting, [], rfl, sameBut_goTo .., .differs hother⟩
  case h_3 => cases h; exact ⟨some _, _, rfl, sameBut_send .., .submitted⟩
  case h_4 => cases h; exact ⟨none, _, rfl, sameBut_send .., .lost⟩
  case h_6 =>
    obtain ⟨-, h⟩ := Option.ite_none_right_eq_some.1 h
    cases h
    exact hgas
  case h_8 =>
    cases h
    rcases lib.topUp_cases cfg m (s.balance m.address) with htop | htop | htop
    · rw [htop]
      exact ⟨none, [], rfl, sameBut_goTo .., .failed⟩
    · rw [htop]
      exact ⟨some _, [], rfl, sameBut_goTo .., .connects⟩
    · rw [htop]
      exact ⟨some .toppingUp, [], rfl, sameBut_goTo .., .poor⟩
  case h_10 => cases h; exact ⟨some _, _, rfl, sameBut_send .., .toppedUp⟩
  case h_11 => cases h; exact ⟨none, _, rfl, sameBut_send .., .lostTopUp⟩
  case h_13 =>
    obtain ⟨-, h⟩ := Option.ite_none_right_eq_some.1 h
    cases h
    exact ⟨some _, [], rfl, sameBut_goTo .., .connects⟩
  case h_15 =>
    cases h
    refine ⟨some _, [], rfl, sameBut_goTo .., ?_⟩
    split
    · rename_i hrole
      exact .enabled hrole
    · exact .disabled
  case h_16 => cases h; exact ⟨some _, [], rfl, sameBut_goTo .., .disabled⟩
  case h_17 => cases h
  all_goals
    cases h
    exact ⟨none, [], rfl, sameBut_goTo .., .failed⟩

/-- The generated keys of a file. -/
def State.keysOf (s : State Signer) (path : Text) : List Address :=
  (s.generated.filter fun entry => entry.1 = path).map Prod.snd

/-- **What a step of a start does**: it goes one of the ways of a `KeyStep`, and touches no other
file. -/
theorem keyStep_of_advance {pc : Pc Signer} {outcome : Outcome Signer}
    (h : advance lib s cfg pc outcome = some s') :
    ∃ pc' keys, s'.process = pc'.map (fun pc => (cfg, pc)) ∧
      KeyStep lib cfg pc (s.files (lib.keyPath cfg)) pc' (s'.files (lib.keyPath cfg)) keys ∧
      s'.keysOf (lib.keyPath cfg) = s.keysOf (lib.keyPath cfg) ++ keys ∧
      ∀ path, path ≠ lib.keyPath cfg → s'.files path = s.files path ∧
        s'.keysOf path = s.keysOf path := by
  have hnothing : ∀ t : State Signer, t.files = s.files → t.generated = s.generated →
      t.keysOf (lib.keyPath cfg) = s.keysOf (lib.keyPath cfg) ++ [] ∧
        ∀ path, path ≠ lib.keyPath cfg → t.files path = s.files path ∧
          t.keysOf path = s.keysOf path := by
    rintro t hfiles hgenerated
    rw [List.append_nil, State.keysOf, State.keysOf, hfiles, hgenerated]
    exact ⟨rfl, fun path _ => ⟨rfl, by rw [State.keysOf, State.keysOf, hgenerated]⟩⟩
  unfold advance at h
  split at h
  case h_1 =>
    cases h
    refine ⟨lib.loadOrGenerate cfg, [], rfl, ?_, hnothing _ rfl rfl⟩
    rw [Library.loadOrGenerate]
    split
    · rename_i hinline
      cases lib.parseSigner (Text.trim cfg.recordUsagePrivateKey) with
      | none => exact .failed
      | some signer => exact .inline hinline
    · exact .blank
  case h_3 =>
    obtain ⟨hfound, h⟩ := Option.ite_none_right_eq_some.1 h
    obtain ⟨bytes, hbytes⟩ := Option.isSome_iff_exists.1 hfound
    cases h
    refine ⟨some .reading, [], rfl, ?_, hnothing _ rfl rfl⟩
    change KeyStep lib cfg _ (s.files (lib.keyPath cfg)) _ (s.files (lib.keyPath cfg)) _
    rw [hbytes]
    exact .found
  case h_4 signer =>
    obtain ⟨hmissing, h⟩ := Option.ite_none_left_eq_some.1 h
    rw [Option.not_isSome_iff_eq_none] at hmissing
    cases h
    refine ⟨some (.opening (lib.materialOf signer true)), [], rfl, ?_, hnothing _ rfl rfl⟩
    change KeyStep lib cfg _ (s.files (lib.keyPath cfg)) _ (s.files (lib.keyPath cfg)) _
    rw [hmissing]
    exact .drawn
  case h_5 =>
    cases h
    refine ⟨(s.files (lib.keyPath cfg)).bind (lib.readKeyFile cfg), [], rfl, ?_, hnothing _ rfl rfl⟩
    change KeyStep lib cfg _ (s.files (lib.keyPath cfg)) _ (s.files (lib.keyPath cfg)) _
    cases hcontent : s.files (lib.keyPath cfg) with
    | none => exact .failed
    | some bytes =>
        rw [Option.bind_some, Library.readKeyFile]
        split
        · exact .failed
        · rename_i stored hstored
          split
          · exact .failed
          · rename_i signer hsigner
            rcases lib.ensureRole_cases cfg (lib.materialOf signer false) with
              hrole | ⟨stage, hstage, hrole⟩
            · rw [hrole]
              exact .failed
            · rw [hrole]
              exact .read ⟨bytes, stored, rfl, hstored, hsigner⟩ hstage
  case h_7 m =>
    cases h
    refine ⟨some (.writing m (lib.toVecPretty m.stored)), [], rfl, ?_, (List.append_nil _).symm,
      fun path hpath => ⟨Function.update_of_ne hpath _ _, rfl⟩⟩
    change KeyStep lib cfg _ _ _ (Function.update s.files (lib.keyPath cfg) (some []) _) _
    rw [Function.update_self]
    exact .opened
  case h_9 m rest n =>
    obtain ⟨hn, h⟩ := Option.ite_none_left_eq_some.1 h
    cases h
    refine ⟨some (.writing m (rest.drop n)), [], rfl, ?_, (List.append_nil _).symm,
      fun path hpath => ⟨Function.update_of_ne hpath _ _, rfl⟩⟩
    change KeyStep lib cfg _ _ _ (Function.update s.files (lib.keyPath cfg) _ _) _
    rw [Function.update_self]
    exact .wrote n (not_or.1 hn).1
  case h_10 m rest =>
    obtain ⟨rfl, h⟩ := Option.ite_none_right_eq_some.1 h
    cases h
    refine ⟨lib.ensureRole cfg m, if m.generated then [m.address] else [], rfl, ?_, ?_,
      fun path hpath => ⟨?_, ?_⟩⟩
    · have hfiles : ((s.logKey (lib.keyPath cfg) m).goTo cfg (lib.ensureRole cfg m)).files =
          s.files := by
        rw [State.goTo, State.logKey]
        split <;> rfl
      rw [hfiles]
      rcases lib.ensureRole_cases cfg m with hrole | ⟨stage, hstage, hrole⟩
      · rw [hrole]
        exact .unsettled
      · rw [hrole]
        exact .persisted hstage
    · rw [State.goTo, State.logKey, State.keysOf, State.keysOf]
      split
      · rw [List.filter_append, List.map_append]
        simp
      · exact (List.append_nil _).symm
    · rw [State.goTo, State.logKey]
      split <;> rfl
    · rw [State.goTo, State.logKey, State.keysOf, State.keysOf]
      split
      · rw [List.filter_append, List.map_append]
        simp [Ne.symm hpath]
      · rfl
  case h_12 m stage =>
    obtain ⟨stage', calls, hprocess, hsame, -⟩ := stageStep_of_advanceReady h
    refine ⟨stage'.map fun stage => Pc.ready m stage, [], by rw [hprocess, Option.map_map]; rfl, ?_,
      hnothing _ hsame.files hsame.generated⟩
    rw [hsame.files]
    cases stage' with
    | none => exact .failed
    | some stage' => exact .worked
  case h_13 => cases h
  all_goals
    cases h
    exact ⟨none, [], rfl, .failed, hnothing _ rfl rfl⟩

end

end RecordUsageKey
