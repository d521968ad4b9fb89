/-
**The chain watcher.**

Every six seconds the watcher reads the head of the chain and goes through the logs of the blocks
since its last poll (`src/chain/watcher.rs`): a session that was opened is warmed in the cache of
the verifier, and a session whose funds were released is flushed, removed from the usage batcher and
evicted.  A poll can fail at each call to the node, and the next poll starts from where `last_block`
stands then.

`last_block` starts at zero, and zero also means that no poll has set it yet: the first poll sets it
to the block before the head it reads.  But the block before the head is zero as well when the head
is zero or one, and then a later poll takes itself for the first.

A block number is below `2^64`; what the node answers, the head included, is up to the node, as long
as the head does not go back.

Main definitions:

* `ChainWatcher.pollOnce` — one poll;
* `ChainWatcher.State`, `ChainWatcher.step` — the watcher, with what it has gone through;
* `ChainWatcher.Covered` — every block from the start on has been gone through;
* `ChainWatcher.initialisedOnce` — the condition on one poll.

Main results:

* `ChainWatcher.effects_of_pollLogs` — a range gone through is handled;
* `ChainWatcher.pollOnce_cases` — **what a poll does**;
* `ChainWatcher.covered_iff` — **no block is skipped exactly when no later poll takes itself for the
  first on a head above one**;
* `ChainWatcher.covered_breaks` — a chain that starts at block zero, and loses four blocks.
-/

import Mathlib.Data.List.Basic
import SparklRouter.Chain.Session
import SparklRouter.Concurrency.Transition

set_option relaxedAutoImplicit false
set_option autoImplicit false

namespace ChainWatcher

open Transition

/-! ### One poll -/

/-- The parsers of urls and of addresses. -/
structure Parsers where
  isUrl : Text → Bool
  address : Text → Option Address

/-- The part of `ChainConfig` the watcher reads. -/
structure ChainConfig where
  enabled : Bool
  rpcUrl : Text
  escrowContract : Text

/-- Whether `spawn_chain_watcher` spawns a watcher. -/
def ChainConfig.watches (parsers : Parsers) (chain : ChainConfig) : Bool :=
  chain.enabled && parsers.address (Text.trim chain.escrowContract) != some Address.zero

/-- The session id of a log, if the log decodes. -/
abbrev Log := Option ℕ

/-- What the node answers in one poll, `none` where a call fails. -/
structure Rpc where
  head : Option UInt64
  opened : Option (List Log)
  released : Option (List Log)

/-- A call of the verifier or of the usage batcher. -/
inductive Effect
  | warmSession (session : UInt64)
  | forceFlush (session : UInt64)
  | removeSession (session : UInt64)
  | evictSession (session : UInt64)
deriving DecidableEq

inductive Error
  | invalidRpcUrl
  | rpc
  | invalidEscrow
deriving DecidableEq

/-- How a poll ends.  A session id that does not fit into 64 bits makes it panic. -/
inductive Outcome
  | ok
  | error (e : Error)
  | panicked
deriving DecidableEq

/-- The effects of the logs, and whether all of them were gone through. -/
def handleLogs (handle : UInt64 → List Effect) : List Log → List Effect × Bool
  | [] => ([], true)
  | none :: logs => handleLogs handle logs
  | some id :: logs =>
      if id < 2 ^ 64 then
        let rest := handleLogs handle logs
        (handle (UInt64.ofNat id) ++ rest.1, rest.2)
      else ([], false)

def onOpened (session : UInt64) : List Effect := [.warmSession session]

def onReleased (hasBatcher : Bool) (session : UInt64) : List Effect :=
  (if hasBatcher then [.forceFlush session, .removeSession session] else []) ++
    [.evictSession session]

/-- A range of blocks, both ends included. -/
abbrev Range := ℕ × ℕ

/-- What a poll has done: the head it read, the block it leaves, and the ranges whose logs it has
gone through to the end. -/
structure Polled where
  head : Option ℕ
  lastBlock : ℕ
  opened : Option Range
  released : Option Range
  effects : List Effect
  outcome : Outcome

/-- The part of `poll_once` that goes through the logs from the block `first` to the head. -/
def pollLogs (parsers : Parsers) (chain : ChainConfig) (hasBatcher : Bool) (rpc : Rpc)
    (head lastBlock first : ℕ) : Polled :=
  if (parsers.address chain.escrowContract).isNone then
    ⟨some head, lastBlock, none, none, [], .error .invalidEscrow⟩
  else
    match rpc.opened with
    | none => ⟨some head, lastBlock, none, none, [], .error .rpc⟩
    | some logs =>
        let warmed := handleLogs onOpened logs
        if !warmed.2 then ⟨some head, lastBlock, none, none, warmed.1, .panicked⟩
        else
          match rpc.released with
          | none => ⟨some head, lastBlock, some (first, head), none, warmed.1, .error .rpc⟩
          | some logs =>
              let evicted := handleLogs (onReleased hasBatcher) logs
              if !evicted.2 then
                ⟨some head, lastBlock, some (first, head), none, warmed.1 ++ evicted.1, .panicked⟩
              else
                ⟨some head, head, some (first, head), some (first, head), warmed.1 ++ evicted.1, .ok⟩

/-- `poll_once`. -/
def pollOnce (parsers : Parsers) (chain : ChainConfig) (hasBatcher : Bool) (rpc : Rpc)
    (lastBlock : ℕ) : Polled :=
  if !parsers.isUrl (Text.trim chain.rpcUrl) then
    ⟨none, lastBlock, none, none, [], .error .invalidRpcUrl⟩
  else
    match rpc.head with
    | none => ⟨none, lastBlock, none, none, [], .error .rpc⟩
    | some number =>
        let head := number.toNat
        let lastBlock := if lastBlock = 0 then head - 1 else lastBlock
        let first := (lastBlock + 1) % 2 ^ 64
        if head < first then ⟨some head, lastBlock, none, none, [], .ok⟩
        else pollLogs parsers chain hasBatcher rpc head lastBlock first

/-- A range gone through to the end: every log that decodes has had its effects. -/
theorem mem_of_handleLogs {handle : UInt64 → List Effect} {logs : List Log}
    (h : (handleLogs handle logs).2 = true) {id : ℕ} (hid : some id ∈ logs) {e : Effect}
    (he : e ∈ handle (UInt64.ofNat id)) : e ∈ (handleLogs handle logs).1 := by
  induction logs with
  | nil => cases hid
  | cons log logs ih =>
      cases log with
      | none =>
          rcases List.mem_cons.1 hid with hnone | hid
          · cases hnone
          · exact ih h hid
      | some id' =>
          rw [handleLogs] at h ⊢
          split at h
          · rename_i hfits
            rw [if_pos hfits]
            rcases List.mem_cons.1 hid with hhead | hid
            · obtain rfl := Option.some.inj hhead
              exact List.mem_append_left _ he
            · exact List.mem_append_right _ (ih h hid)
          · cases h

/-! ### The watcher -/

/-- The watcher.  The fields from `start` on are not data of the program: the head at the first
poll that read it, the last head read, and what the polls have gone through and done. -/
structure State where
  lastBlock : ℕ
  alive : Bool
  start : Option ℕ
  head : ℕ
  opened : List Range
  released : List Range
  effects : List Effect

def init : State := ⟨0, true, none, 0, [], [], []⟩

/-- The watcher after a poll.  A panic ends its task; an error does not. -/
def State.after (s : State) (p : Polled) : State where
  lastBlock := p.lastBlock
  alive := p.outcome != .panicked
  start := s.start.or p.head
  head := p.head.getD s.head
  opened := p.opened.toList ++ s.opened
  released := p.released.toList ++ s.released
  effects := s.effects ++ p.effects

variable (parsers : Parsers) (chain : ChainConfig) (hasBatcher : Bool)

/-- **The transition function of the watcher**: one poll, on a chain whose head does not go back. -/
def step (s : State) (rpc : Rpc) : Option State :=
  if chain.watches parsers = true ∧ s.alive = true ∧
      (rpc.head.all fun head => s.head ≤ head.toNat) = true then
    some (s.after (pollOnce parsers chain hasBatcher rpc s.lastBlock))
  else none

/-- The block is in one of the ranges. -/
def Within (ranges : List Range) (b : ℕ) : Prop := ∃ r ∈ ranges, r.1 ≤ b ∧ b ≤ r.2

/-- **No block is skipped**: every block from the start of the watcher up to `last_block` has had
both kinds of its logs gone through. -/
def Covered (s : State) : Prop :=
  ∀ start, s.start = some start → ∀ b, max start 1 ≤ b → b ≤ s.lastBlock →
    Within s.opened b ∧ Within s.released b

/-- A poll that finds `last_block` at zero is the first to read a head, or it reads zero or one. -/
def initialisedOnce (s : State) (rpc : Rpc) (_ : State) : Prop :=
  parsers.isUrl (Text.trim chain.rpcUrl) = true → ∀ head, rpc.head = some head →
    s.lastBlock = 0 → s.start ≠ none → head.toNat ≤ 1

/-! ### What a poll does -/

variable {parsers : Parsers} {chain : ChainConfig} {hasBatcher : Bool}

/-- Going through the logs leaves `last_block` as it is, or goes through both kinds. -/
theorem pollLogs_cases (rpc : Rpc) (head lastBlock first : ℕ) {p : Polled}
    (hp : pollLogs parsers chain hasBatcher rpc head lastBlock first = p) :
    p.head = some head ∧ ((p.lastBlock = lastBlock ∧ p.released = none) ∨
      (p.lastBlock = head ∧ p.opened = some (first, head) ∧ p.released = some (first, head))) := by
  subst hp
  unfold pollLogs
  split
  · exact ⟨rfl, Or.inl ⟨rfl, rfl⟩⟩
  · split
    · exact ⟨rfl, Or.inl ⟨rfl, rfl⟩⟩
    · dsimp only
      split
      · exact ⟨rfl, Or.inl ⟨rfl, rfl⟩⟩
      · split
        · exact ⟨rfl, Or.inl ⟨rfl, rfl⟩⟩
        · split
          · exact ⟨rfl, Or.inl ⟨rfl, rfl⟩⟩
          · exact ⟨rfl, Or.inr ⟨rfl, rfl, rfl⟩⟩

/-- **A range gone through is handled**: every session of a log that decodes has been warmed, or
evicted. -/
theorem effects_of_pollLogs (rpc : Rpc) (head lastBlock first : ℕ) {p : Polled}
    (hp : pollLogs parsers chain hasBatcher rpc head lastBlock first = p) :
    (∀ r, p.opened = some r → ∃ logs, rpc.opened = some logs ∧
      ∀ id, some id ∈ logs → .warmSession (UInt64.ofNat id) ∈ p.effects) ∧
    (∀ r, p.released = some r → ∃ logs, rpc.released = some logs ∧
      ∀ id, some id ∈ logs → .evictSession (UInt64.ofNat id) ∈ p.effects) := by
  subst hp
  unfold pollLogs
  split
  · exact ⟨fun _ h => (by cases h), fun _ h => (by cases h)⟩
  · split
    · exact ⟨fun _ h => (by cases h), fun _ h => (by cases h)⟩
    · rename_i opened hopened
      dsimp only
      split
      · exact ⟨fun _ h => (by cases h), fun _ h => (by cases h)⟩
      · rename_i hwarmed
        have hwarm : ∀ id, some id ∈ opened →
            Effect.warmSession (UInt64.ofNat id) ∈ (handleLogs onOpened opened).1 := fun id hid =>
          mem_of_handleLogs (by simpa using hwarmed) hid List.mem_cons_self
        split
        · exact ⟨fun _ _ => ⟨opened, hopened, hwarm⟩, fun _ h => (by cases h)⟩
        · rename_i released hreleased
          have hleft : ∀ id, some id ∈ opened → Effect.warmSession (UInt64.ofNat id) ∈
              (handleLogs onOpened opened).1 ++ (handleLogs (onReleased hasBatcher) released).1 :=
            fun id hid => List.mem_append_left _ (hwarm id hid)
          split
          · exact ⟨fun _ _ => ⟨opened, hopened, hleft⟩, fun _ h => (by cases h)⟩
          · rename_i hevicted
            refine ⟨fun _ _ => ⟨opened, hopened, hleft⟩, fun _ _ => ⟨released, hreleased, ?_⟩⟩
            intro id hid
            exact List.mem_append_right _ (mem_of_handleLogs (by simpa using hevicted) hid
              (List.mem_append_right _ List.mem_cons_self))

/-- The poll reads this head, and starts from the block `base`. -/
structure Reads (parsers : Parsers) (chain : ChainConfig) (rpc : Rpc) (lastBlock head base : ℕ) :
    Prop where
  url : parsers.isUrl (Text.trim chain.rpcUrl) = true
  read : ∃ number, rpc.head = some number ∧ head = number.toNat
  start : base = if lastBlock = 0 then head - 1 else lastBlock

/-- **A poll** reads no head and leaves everything as it is; or it reads one, and leaves
`last_block` at the base; or it goes through both kinds of logs of the blocks up to the head. -/
theorem pollOnce_cases (rpc : Rpc) (lastBlock : ℕ) {p : Polled}
    (hp : pollOnce parsers chain hasBatcher rpc lastBlock = p) :
    ((parsers.isUrl (Text.trim chain.rpcUrl) = true → rpc.head = none) ∧ p.head = none ∧
      p.lastBlock = lastBlock ∧ p.released = none) ∨
    ∃ head base, Reads parsers chain rpc lastBlock head base ∧ p.head = some head ∧
      ((p.lastBlock = base ∧ p.released = none) ∨
        ((base + 1) % 2 ^ 64 ≤ head ∧ p.lastBlock = head ∧
          p.opened = some ((base + 1) % 2 ^ 64, head) ∧
          p.released = some ((base + 1) % 2 ^ 64, head))) := by
  unfold pollOnce at hp
  split at hp
  · rename_i hurl
    subst hp
    exact Or.inl ⟨fun hparses => by simp [hparses] at hurl, rfl, rfl, rfl⟩
  · rename_i hurl
    split at hp
    · rename_i hhead
      subst hp
      exact Or.inl ⟨fun _ => hhead, rfl, rfl, rfl⟩
    · rename_i number hhead
      obtain ⟨base, hbase⟩ : ∃ base, base = if lastBlock = 0 then number.toNat - 1 else lastBlock :=
        ⟨_, rfl⟩
      have hreads : Reads parsers chain rpc lastBlock number.toNat base :=
        ⟨by simpa using hurl, ⟨number, hhead, rfl⟩, hbase⟩
      refine Or.inr ⟨_, _, hreads, ?_⟩
      dsimp only at hp
      rw [← hbase] at hp
      split at hp
      · subst hp
        exact ⟨rfl, Or.inl ⟨rfl, rfl⟩⟩
      · rename_i hle
        obtain ⟨hread, hleft | hdone⟩ := pollLogs_cases rpc _ _ _ hp
        · exact ⟨hread, Or.inl hleft⟩
        · exact ⟨hread, Or.inr ⟨Nat.le_of_not_lt hle, hdone⟩⟩

/-! ### The invariant -/

/-- What holds after every poll. -/
structure Invariant (s : State) : Prop where
  fresh : s.start = none → s.lastBlock = 0
  start_le : ∀ start, s.start = some start → start ≤ s.lastBlock + 1
  le_head : s.lastBlock ≤ s.head
  head_lt : s.head < 2 ^ 64
  unreleased : s.lastBlock = 0 → s.released = []

theorem invariant_init : Invariant init :=
  ⟨fun _ => rfl, fun _ h => (by cases h), Nat.le_refl 0, (by decide), fun _ => rfl⟩

theorem Reads.head_lt {rpc : Rpc} {lastBlock head base : ℕ}
    (h : Reads parsers chain rpc lastBlock head base) : head < 2 ^ 64 := by
  obtain ⟨number, -, rfl⟩ := h.read
  exact number.toNat_lt

section

variable {s s' : State} {rpc : Rpc}

/-- **What a step does to the watcher.** -/
theorem step_cases (hs : step parsers chain hasBatcher s rpc = some s') :
    ((parsers.isUrl (Text.trim chain.rpcUrl) = true → rpc.head = none) ∧ s'.start = s.start ∧
      s'.lastBlock = s.lastBlock ∧ s'.head = s.head ∧ s.opened ⊆ s'.opened ∧
      s'.released = s.released) ∨
    ∃ head base, Reads parsers chain rpc s.lastBlock head base ∧ s.head ≤ head ∧
      s'.start = s.start.or (some head) ∧ s'.head = head ∧ s.opened ⊆ s'.opened ∧
      ((s'.lastBlock = base ∧ s'.released = s.released) ∨
        ((base + 1) % 2 ^ 64 ≤ head ∧ s'.lastBlock = head ∧
          s'.opened = ((base + 1) % 2 ^ 64, head) :: s.opened ∧
          s'.released = ((base + 1) % 2 ^ 64, head) :: s.released)) := by
  unfold step at hs
  split at hs
  · rename_i hon
    obtain rfl := Option.some.inj hs
    have hopened : s.opened ⊆
        (s.after (pollOnce parsers chain hasBatcher rpc s.lastBlock)).opened :=
      List.subset_append_right _ _
    rcases pollOnce_cases rpc s.lastBlock rfl with ⟨hnone, hhead, hlast, hreleased⟩ |
      ⟨head, base, hreads, hhead, hpoll⟩
    · refine Or.inl ⟨hnone, ?_, hlast, ?_, hopened, ?_⟩
      · simp [State.after, hhead]
      · simp [State.after, hhead]
      · simp [State.after, hreleased]
    · obtain ⟨number, hnumber, rfl⟩ := hreads.read
      refine Or.inr ⟨_, base, hreads, ?_, ?_, ?_, hopened, ?_⟩
      · simpa [hnumber] using hon.2.2
      · simp [State.after, hhead]
      · simp [State.after, hhead]
      · rcases hpoll with ⟨hlast, hreleased⟩ | ⟨hle, hlast, hopen, hreleased⟩
        · exact Or.inl ⟨hlast, by simp [State.after, hreleased]⟩
        · exact Or.inr ⟨hle, hlast, by simp [State.after, hopen], by simp [State.after, hreleased]⟩
  · cases hs

theorem Invariant.step (h : Invariant s) (hs : step parsers chain hasBatcher s rpc = some s') :
    Invariant s' := by
  obtain ⟨hfresh, hstart, hhead, hlt, hunreleased⟩ := h
  rcases step_cases hs with ⟨-, hs₁, hs₂, hs₃, -, hs₅⟩ |
    ⟨head, base, hreads, hle, hs₁, hs₂, -, hpoll⟩
  · exact ⟨by rwa [hs₁, hs₂], by rwa [hs₁, hs₂], by rwa [hs₂, hs₃], by rwa [hs₃],
      by rwa [hs₂, hs₅]⟩
  · have hbase := hreads.start
    have hnow := hreads.head_lt
    have hlast : base ≤ s'.lastBlock ∧ s'.lastBlock ≤ head := by
      split at hbase <;> omega
    refine ⟨fun hnone => ?_, fun start hsome => ?_, ?_, ?_, fun hzero => ?_⟩
    · rw [hs₁] at hnone
      cases hold : s.start with
      | none => simp [hold] at hnone
      | some start => simp [hold] at hnone
    · rw [hs₁] at hsome
      cases hold : s.start with
      | none =>
          rw [hold] at hsome
          obtain rfl := Option.some.inj hsome
          rw [if_pos (hfresh hold)] at hbase
          omega
      | some start' =>
          rw [hold] at hsome
          obtain rfl := Option.some.inj hsome
          have hbefore := hstart start' hold
          split at hbase <;> omega
    · rw [hs₂]
      exact hlast.2
    · rwa [hs₂]
    · have hzero' : s.lastBlock = 0 := by
        split at hbase <;> omega
      rcases hpoll with ⟨-, hreleased⟩ | ⟨hfirst, hdone, -, -⟩
      · rw [hreleased]
        exact hunreleased hzero'
      · rw [if_pos hzero'] at hbase
        omega

/-- **`last_block` never decreases.** -/
theorem Invariant.lastBlock_le (h : Invariant s)
    (hs : ChainWatcher.step parsers chain hasBatcher s rpc = some s') : s.lastBlock ≤ s'.lastBlock := by
  have hhead := h.le_head
  rcases step_cases hs with ⟨-, -, hlast, -⟩ | ⟨head, base, hreads, hle, -, -, -, hpoll⟩
  · exact hlast.ge
  · have hbase := hreads.start
    split at hbase <;> omega

/-- **A poll that does not take itself for the first skips no block.** -/
theorem Covered.step (h : Covered s) (hinv : Invariant s)
    (hs : ChainWatcher.step parsers chain hasBatcher s rpc = some s')
    (hinit : initialisedOnce parsers chain s rpc s') : Covered s' := by
  rcases step_cases hs with ⟨-, hstart, hlast, -, hopened, hreleased⟩ |
    ⟨head, base, hreads, hle, hstart, -, hopened, hpoll⟩
  · intro start hsome b hge hb
    rw [hstart] at hsome
    rw [hlast] at hb
    obtain ⟨⟨r, hr, hin⟩, hrel⟩ := h start hsome b hge hb
    exact ⟨⟨r, hopened hr, hin⟩, hreleased ▸ hrel⟩
  · intro start hsome b hge hb
    have hbase := hreads.start
    have hnow := hreads.head_lt
    obtain ⟨number, hnumber, hnumber'⟩ := hreads.read
    -- a block that was there to be covered before
    have hold : s.start = some start → b ≤ s.lastBlock →
        Within s'.opened b ∧ Within s'.released b := by
      intro hbefore hblock
      obtain ⟨⟨r, hr, hin⟩, ⟨r', hr', hin'⟩⟩ := h start hbefore b hge hblock
      refine ⟨⟨r, hopened hr, hin⟩, ⟨r', ?_, hin'⟩⟩
      rcases hpoll with ⟨-, hreleased⟩ | ⟨-, -, -, hreleased⟩
      · rwa [hreleased]
      · rw [hreleased]
        exact List.mem_cons_of_mem _ hr'
    have hnew : s'.opened = ((base + 1) % 2 ^ 64, head) :: s.opened →
        s'.released = ((base + 1) % 2 ^ 64, head) :: s.released →
        (base + 1) % 2 ^ 64 ≤ b → b ≤ head → Within s'.opened b ∧ Within s'.released b := by
      intro ho hr hfirst hlast
      rw [ho, hr]
      exact ⟨⟨_, List.mem_cons_self, hfirst, hlast⟩, ⟨_, List.mem_cons_self, hfirst, hlast⟩⟩
    cases hbefore : s.start with
    | none =>
        rw [hstart, hbefore] at hsome
        obtain rfl := Option.some.inj hsome
        rw [if_pos (hinv.fresh hbefore)] at hbase
        rcases hpoll with ⟨hlast, -⟩ | ⟨hfirst, hlast, ho, hr⟩
        · omega
        · exact hnew ho hr (by omega) (by omega)
    | some start' =>
        rw [hstart, hbefore] at hsome
        obtain rfl := Option.some.inj hsome
        by_cases hzero : s.lastBlock = 0
        · have hsmall : head ≤ 1 := hnumber' ▸ hinit hreads.url number hnumber hzero (by simp [hbefore])
          rw [if_pos hzero] at hbase
          rcases hpoll with ⟨hlast, -⟩ | ⟨hfirst, hlast, ho, hr⟩
          · omega
          · exact hnew ho hr (by omega) (by omega)
        · rw [if_neg hzero] at hbase
          rcases hpoll with ⟨hlast, -⟩ | ⟨hfirst, hlast, ho, hr⟩
          · exact hold hbefore (by omega)
          · rcases Nat.lt_or_ge s.lastBlock b with hlt | hge'
            · exact hnew ho hr (by omega) (by omega)
            · exact hold hbefore hge'

/-- **A poll that takes itself for the first on a head above one skips block one.** -/
theorem initialisedOnce_of_covered (hinv : Invariant s)
    (hs : ChainWatcher.step parsers chain hasBatcher s rpc = some s') (h : Covered s') :
    initialisedOnce parsers chain s rpc s' := by
  intro hurl number hnumber hzero hsome
  obtain ⟨start, hstart⟩ := Option.ne_none_iff_exists'.1 hsome
  by_contra hbig
  have hlate := hinv.start_le start hstart
  rcases step_cases hs with ⟨hnone, -⟩ | ⟨head, base, hreads, hle, hs₁, -, -, hpoll⟩
  · cases (hnone hurl).symm.trans hnumber
  · obtain ⟨number', hnumber', rfl⟩ := hreads.read
    obtain rfl : number = number' := Option.some.inj (hnumber.symm.trans hnumber')
    have hbase := hreads.start
    have hnow := hreads.head_lt
    rw [if_pos hzero] at hbase
    rw [hstart] at hs₁
    have hlast : 1 ≤ s'.lastBlock := by
      rcases hpoll with ⟨hlast, -⟩ | ⟨-, hlast, -⟩
      · omega
      · omega
    obtain ⟨r, hr, hfirst, -⟩ := (h start hs₁ 1 (by omega) hlast).2
    have hnone := hinv.unreleased hzero
    rcases hpoll with ⟨-, hreleased⟩ | ⟨-, -, -, hreleased⟩
    · rw [hreleased, hnone] at hr
      cases hr
    · rw [hreleased, hnone, List.mem_singleton] at hr
      subst hr
      dsimp only at hfirst
      omega

end

/-! ### Every run -/

/-- **No block after the start of the watcher is skipped exactly when no later poll takes itself for
the first on a head above one**; and `last_block` never decreases. -/
theorem covered_iff (parsers : Parsers) (chain : ChainConfig) (hasBatcher : Bool) (as : List Rpc) :
    (Always (step parsers chain hasBatcher) Covered init as ↔
      Throughout (step parsers chain hasBatcher) (initialisedOnce parsers chain) init as) ∧
    Throughout (step parsers chain hasBatcher) (fun s _ s' => s.lastBlock ≤ s'.lastBlock) init
      as := by
  refine ⟨⟨?_, fun h => ?_⟩, ?_⟩
  · exact throughout_of_always (I := Invariant) (fun _ _ _ hinv hs => hinv.step hs)
      (fun _ _ _ hinv hs _ hcovered => initialisedOnce_of_covered hinv hs hcovered) invariant_init
  · refine (always_of_step (I := fun s => Invariant s ∧ Covered s) ?_ ⟨invariant_init, ?_⟩ h).mono
      fun _ hboth => hboth.2
    · rintro s rpc s' ⟨hinv, hcovered⟩ hs hinit
      exact ⟨hinv.step hs, hcovered.step hinv hs hinit⟩
    · intro start hnone
      cases hnone
  · exact throughout_of_step (I := Invariant) (C := fun _ _ _ => True)
      (fun _ _ _ hinv hs _ => hinv.step hs) (fun _ _ _ hinv hs _ => hinv.lastBlock_le hs)
      invariant_init (throughout_true init as)

/-- Everything parses. -/
def sampleParsers : Parsers := ⟨fun _ => true, fun _ => some (List.Vector.replicate 20 7)⟩

def sampleChain : ChainConfig := ⟨true, "http://localhost:8545".toList, "0x07".toList⟩

/-- A node that answers every call, with no logs. -/
def answers (head : UInt64) : Rpc := ⟨some head, some [], some []⟩

/-- The first poll finds a chain with its first block only, the second finds it five blocks on. -/
theorem observe_skip :
    (run (step sampleParsers sampleChain true) init [answers 0, answers 5]).map
      (fun s => (s.start, s.lastBlock, s.released)) = some (some 0, 5, [(5, 5)]) := by
  decide +kernel

/-- **Four blocks are skipped.** -/
theorem covered_breaks : ¬ ∀ (parsers : Parsers) (chain : ChainConfig) (hasBatcher : Bool)
    (as : List Rpc), Always (step parsers chain hasBatcher) Covered init as := by
  intro hall
  obtain ⟨s, hcovered, hobs⟩ :=
    (hall sampleParsers sampleChain true [answers 0, answers 5]).observe observe_skip
  obtain ⟨hstart, hrest⟩ := Prod.mk.inj hobs
  obtain ⟨hlast, hreleased⟩ := Prod.mk.inj hrest
  obtain ⟨-, r, hr, hfirst, -⟩ := hcovered 0 hstart 1 (Nat.le_refl 1) (by omega)
  rw [hreleased, List.mem_singleton] at hr
  subst hr
  exact absurd hfirst (by decide)

end ChainWatcher
