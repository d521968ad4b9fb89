/-
**The keepalive of a tunnel.**

While a tunnel is up, a task of its own sends a `ping` to the node at every tick of an interval, and
before it does it looks at the time of the last `pong`: when that is more than one interval and one
timeout ago, it tells the tunnel to shut down.  The time of the last `pong` is in seconds of the wall
clock; the interval runs on the clock of the runtime, in milliseconds.  A `ping` waits for room in the
channel to the writer, behind the frames of the consumers.

The two clocks, the scheduling of the tasks and the node are outside the program, so the results hold
of runs in which the pinger is never more than `lag` behind its interval (`Prompt`), the wall clock
stays within `skew` of the clock of the runtime (`Steady`) and, for the first of them, every `ping` is
answered within `delay` of the check before it (`Answers`).

Main definitions:

* `Keepalive.Config`, `Keepalive.State`, `Keepalive.step` — the settings, and the pinger with what
  it reads and writes;
* `Keepalive.Prompt`, `Keepalive.Steady`, `Keepalive.Answers` — what the runs keep to.

Main results:

* `Keepalive.never_signals` — **a node that answers in time is never cut off**;
* `Keepalive.signals_silent` — **a node that has been silent too long is cut off**, and until then its
  tunnel is not reported `"offline"`;
* `Keepalive.stuck` — a pinger whose `ping` finds no room cuts nobody off.
-/

import SparklRouter.Catalog.Providers
import SparklRouter.Concurrency.Transition

set_option relaxedAutoImplicit false
set_option autoImplicit false

/-- A difference that is small enough stays so when it is cut off at the least and the greatest value. -/
theorem Int64.toInt_saturatingSub_le {a b : Int64} {n : ℕ} (hn : n < 2 ^ 63)
    (h : a.toInt - b.toInt ≤ n) : (a.saturatingSub b).toInt ≤ n := by
  have hmin : Int64.minValue.toInt = -2 ^ 63 := by decide
  have hmax : Int64.maxValue.toInt = 2 ^ 63 - 1 := by decide
  unfold Int64.saturatingSub
  rw [hmin, hmax]
  split
  · rw [hmin]
    omega
  · split
    · omega
    · rw [Int64.toInt_sub, Int.bmod_eq_of_le (by omega) (by omega)]
      exact h

theorem UInt64.toInt_toInt64_of_lt {n : UInt64} (hn : n.toNat < 2 ^ 63) :
    n.toInt64.toInt = n.toNat := by
  have h : n.toInt64.toInt = (n.toNat : ℤ).bmod (2 ^ 64) := BitVec.toInt_eq_toNat_bmod n.toBitVec
  rw [h, Int.bmod_eq_of_le (by omega) (by omega)]

namespace Keepalive

open Transition

/-! ### The pinger -/

structure Config where
  pingIntervalSecs : UInt64
  pongTimeoutSecs : UInt64

namespace Config

variable (cfg : Config)

/-- `ping_interval`, in seconds. -/
def pingInterval : ℕ := max cfg.pingIntervalSecs.toNat 1

/-- `pong_timeout`, in seconds. -/
def pongTimeout : ℕ := max cfg.pongTimeoutSecs.toNat 1

/-- The greatest age of a `pong`, as an `i64`. -/
def limit : ℤ := Int.bmod (cfg.pingInterval + cfg.pongTimeout) (2 ^ 64)

/-- The sum of the two settings is an `i64`. -/
def Fits : Prop := cfg.pingInterval + cfg.pongTimeout < 2 ^ 63

instance : Decidable cfg.Fits := inferInstanceAs (Decidable (_ < _))

variable {cfg}

theorem limit_eq (hfits : cfg.Fits) : cfg.limit = cfg.pingInterval + cfg.pongTimeout := by
  unfold Fits at hfits
  unfold limit
  exact Int.bmod_eq_of_le (by omega) (by omega)

end Config

/-- The frames that the channel to the writer holds. -/
def frameCapacity : ℕ := 256

inductive Pinger
  /-- The tunnel has been made, and the pinger has not been spawned yet. -/
  | unborn
  /-- In `interval.tick()`. -/
  | ticking
  /-- In `send_frame`. -/
  | sending
  | ended
deriving DecidableEq

structure State where
  /-- The clock of the runtime, in milliseconds from the making of the tunnel. -/
  now : ℕ
  /-- The wall clock, in milliseconds. -/
  wall : ℤ
  pinger : Pinger
  /-- The time of the next tick. -/
  due : ℕ
  /-- The frames in the channel. -/
  queue : ℕ
  /-- The writer has not ended. -/
  writer : Bool
  lastPongAt : ℤ
  /-- The pinger has signalled the shutdown. -/
  signalled : Bool
  /-- When the last `pong` came, by the clock of the runtime. -/
  ponged : ℕ
  /-- When the pinger decided on a `ping`, the last time first. -/
  checks : List ℕ

/-- `Utc::now().timestamp()`. -/
def State.timestamp (s : State) : ℤ := s.wall / 1000

inductive Act
  /-- Time passes on the clock of the runtime, and on the wall clock. -/
  | pass (elapsed : ℕ) (shown : ℤ)
  | spawn
  /-- The interval ticks, and the pinger looks at the last `pong`. -/
  | tick
  /-- The `ping` goes into the channel, if there still is one. -/
  | ping
  /-- A frame of another task goes into the channel. -/
  | frame
  /-- The writer takes a frame. -/
  | write
  /-- The writer ends on a socket that does not take its frame. -/
  | writerEnds
  /-- The reader gets a `pong`. -/
  | pong
  /-- The lifecycle ends, and aborts the pinger. -/
  | abort
deriving DecidableEq

/-- A tunnel that has just been made. -/
def init (wall : ℤ) : State where
  now := 0
  wall := wall
  pinger := .unborn
  due := 0
  queue := 0
  writer := true
  lastPongAt := wall / 1000
  signalled := false
  ponged := 0
  checks := []

/-- One pass of the pinger's loop, up to the sending of the `ping`. -/
def check (cfg : Config) (s : State) : State :=
  let ticked := { s with due := s.due + 1000 * cfg.pingInterval }
  if s.timestamp - s.lastPongAt > cfg.limit then
    { ticked with pinger := .ended, signalled := true }
  else
    { ticked with pinger := .sending, checks := s.now :: s.checks }

def step (cfg : Config) (s : State) : Act → Option State
  | .pass elapsed shown => some { s with now := s.now + elapsed, wall := s.wall + shown }
  | .spawn =>
      if s.pinger = .unborn then
        -- the first tick of an interval is at once
        some { s with pinger := .ticking, due := s.now }
      else none
  | .tick => if s.pinger = .ticking ∧ s.due ≤ s.now then some (check cfg s) else none
  | .ping =>
      if s.pinger = .sending then
        if !s.writer then
          -- the receiver is gone, `send_frame` fails and the loop ends without a signal
          some { s with pinger := .ended }
        else if s.queue < frameCapacity then
          some { s with pinger := .ticking, queue := s.queue + 1 }
        else none
      else none
  | .frame =>
      if s.writer ∧ s.queue < frameCapacity then some { s with queue := s.queue + 1 } else none
  | .write => if s.writer ∧ 0 < s.queue then some { s with queue := s.queue - 1 } else none
  | .writerEnds => if s.writer then some { s with writer := false, queue := 0 } else none
  | .pong => some { s with lastPongAt := s.timestamp, ponged := s.now }
  | .abort => if s.pinger ≠ .unborn then some { s with pinger := .ended } else none

/-! ### What the runs keep to -/

/-- The pinger is spawned within an interval, and never more than `lag` behind its ticks. -/
structure Prompt (cfg : Config) (lag : ℕ) (s : State) : Prop where
  spawned : s.pinger = .unborn → s.now ≤ 1000 * cfg.pingInterval
  ticks : s.pinger = .ticking ∨ s.pinger = .sending → s.now ≤ s.due + lag

/-- The wall clock is never more than `skew` ahead of where the clock of the runtime puts it. -/
def Steady (base : ℤ) (skew : ℕ) (s : State) : Prop :=
  base + s.now ≤ s.wall ∧ s.wall ≤ base + s.now + skew

/-- Every `ping` that was decided on `delay` ago has been followed by a `pong`. -/
def Answers (delay : ℕ) (s : State) : Prop := ∀ c ∈ s.checks, c + delay ≤ s.now → c ≤ s.ponged

/-- What the runs of the first result keep to. -/
structure Answering (cfg : Config) (base : ℤ) (lag skew delay : ℕ) (s : State) : Prop where
  prompt : Prompt cfg lag s
  steady : Steady base skew s
  answers : Answers delay s

/-- What the runs of the second result keep to. -/
structure Scheduled (cfg : Config) (base : ℤ) (lag skew : ℕ) (s : State) : Prop where
  prompt : Prompt cfg lag s
  steady : Steady base skew s

section

variable (cfg : Config) (base : ℤ) (lag skew delay : ℕ) (s : State)

instance : Decidable (Prompt cfg lag s) :=
  decidable_of_iff ((s.pinger = .unborn → s.now ≤ 1000 * cfg.pingInterval) ∧
      (s.pinger = .ticking ∨ s.pinger = .sending → s.now ≤ s.due + lag))
    ⟨fun h => ⟨h.1, h.2⟩, fun h => ⟨h.1, h.2⟩⟩

instance : Decidable (Steady base skew s) := inferInstanceAs (Decidable (_ ∧ _))

instance : Decidable (Answers delay s) := inferInstanceAs (Decidable (∀ c ∈ s.checks, _))

instance : Decidable (Answering cfg base lag skew delay s) :=
  decidable_of_iff (Prompt cfg lag s ∧ Steady base skew s ∧ Answers delay s)
    ⟨fun h => ⟨h.1, h.2.1, h.2.2⟩, fun h => ⟨h.1, h.2, h.3⟩⟩

instance : Decidable (Scheduled cfg base lag skew s) :=
  decidable_of_iff (Prompt cfg lag s ∧ Steady base skew s)
    ⟨fun h => ⟨h.1, h.2⟩, fun h => ⟨h.1, h.2⟩⟩

end

/-! ### The checks of a run -/

/-- No two checks are further apart than `gap`, nor the first one from the making of the tunnel. -/
def Spaced (gap : ℕ) : List ℕ → Prop
  | [] => True
  | c :: cs => c ≤ cs.headD 0 + gap ∧ Spaced gap cs

/-- Among checks that are answered within `delay`, one that has been answered is recent. -/
theorem exists_answered {gap delay ponged now : ℕ} {cs : List ℕ} (hspaced : Spaced gap cs)
    (hnow : now ≤ cs.headD 0 + gap + delay)
    (hanswers : ∀ c ∈ cs, c + delay ≤ now → c ≤ ponged) :
    ∃ c, c ≤ ponged ∧ now ≤ c + gap + delay := by
  induction cs with
  | nil => exact ⟨0, Nat.zero_le _, hnow⟩
  | cons c cs ih =>
      by_cases hlong : c + delay ≤ now
      · exact ⟨c, hanswers c List.mem_cons_self hlong, hnow⟩
      · have hgap := hspaced.1
        exact ih hspaced.2 (by omega) fun d hd => hanswers d (List.mem_cons_of_mem c hd)

section

variable {cfg : Config} {base : ℤ} {lag skew delay : ℕ} {s s' : State} {a : Act}

/-! ### One step -/

/-- What a step can do to the pinger and to what it goes by. -/
inductive Change (cfg : Config) (s s' : State) : Prop
  | checks (hpinger : s.pinger = .ticking) (hdue : s.due ≤ s.now) (hs : s' = check cfg s)
  | spawns (hpinger : s.pinger = .unborn) (hs : s' = { s with pinger := .ticking, due := s.now })
  | pongs (hs : s' = { s with lastPongAt := s.timestamp, ponged := s.now })
  | elapses (elapsed : ℕ) (shown : ℤ)
      (hs : s' = { s with now := s.now + elapsed, wall := s.wall + shown })
  /-- The `ping` is in the channel. -/
  | sent (hpinger : s.pinger = .sending) (queue : ℕ)
      (hs : s' = { s with pinger := .ticking, queue := queue })
  | ends (hs : s' = { s with pinger := .ended })
  | channel (queue : ℕ) (writer : Bool) (hs : s' = { s with queue := queue, writer := writer })

theorem change_of_step (h : step cfg s a = some s') : Change cfg s s' := by
  cases a with
  | pass elapsed shown => exact .elapses elapsed shown (Option.some.inj h).symm
  | pong => exact .pongs (Option.some.inj h).symm
  | spawn =>
      obtain ⟨hpinger, hs⟩ := Option.ite_none_right_eq_some.1 h
      exact .spawns hpinger (Option.some.inj hs).symm
  | tick =>
      obtain ⟨⟨hpinger, hdue⟩, hs⟩ := Option.ite_none_right_eq_some.1 h
      exact .checks hpinger hdue (Option.some.inj hs).symm
  | ping =>
      obtain ⟨hpinger, hs⟩ := Option.ite_none_right_eq_some.1 h
      split at hs
      · exact .ends (Option.some.inj hs).symm
      · obtain ⟨-, hs⟩ := Option.ite_none_right_eq_some.1 hs
        exact .sent hpinger _ (Option.some.inj hs).symm
  | frame =>
      obtain ⟨-, hs⟩ := Option.ite_none_right_eq_some.1 h
      exact .channel _ s.writer (Option.some.inj hs).symm
  | write =>
      obtain ⟨-, hs⟩ := Option.ite_none_right_eq_some.1 h
      exact .channel _ s.writer (Option.some.inj hs).symm
  | writerEnds =>
      obtain ⟨-, hs⟩ := Option.ite_none_right_eq_some.1 h
      exact .channel 0 false (Option.some.inj hs).symm
  | abort =>
      obtain ⟨-, hs⟩ := Option.ite_none_right_eq_some.1 h
      exact .ends (Option.some.inj hs).symm

theorem check_of_young (hage : s.timestamp - s.lastPongAt ≤ cfg.limit) :
    check cfg s = { s with due := s.due + 1000 * cfg.pingInterval, pinger := .sending,
                           checks := s.now :: s.checks } :=
  if_neg (not_lt.2 hage)

theorem check_of_old (hage : cfg.limit < s.timestamp - s.lastPongAt) :
    check cfg s = { s with due := s.due + 1000 * cfg.pingInterval, pinger := .ended,
                           signalled := true } :=
  if_pos hage

/-! ### The interval -/

/-- The last check is past, and the next one is at most an interval after it. -/
structure Ticks (cfg : Config) (s : State) : Prop where
  checks_le : s.checks.headD 0 ≤ s.now
  due_le : s.pinger = .ticking ∨ s.pinger = .sending →
    s.due ≤ s.checks.headD 0 + 1000 * cfg.pingInterval

theorem ticks_init (cfg : Config) (base : ℤ) : Ticks cfg (init base) where
  checks_le := Nat.le_refl 0
  due_le h := h.elim nofun nofun

theorem ticks_step (hinv : Ticks cfg s) (hprompt : Prompt cfg lag s)
    (h : step cfg s a = some s') : Ticks cfg s' := by
  cases change_of_step h with
  | checks hpinger hdue hs =>
      subst hs
      unfold check
      dsimp only
      split
      · exact ⟨hinv.checks_le, fun h => h.elim nofun nofun⟩
      · exact ⟨Nat.le_refl _, fun _ => Nat.add_le_add_right hdue _⟩
  | spawns hpinger hs =>
      have hborn := hprompt.spawned hpinger
      subst hs
      exact ⟨hinv.checks_le, fun _ => Nat.le_add_left_of_le hborn⟩
  | pongs hs => exact hs ▸ ⟨hinv.checks_le, hinv.due_le⟩
  | elapses elapsed shown hs =>
      subst hs
      exact ⟨Nat.le_add_right_of_le hinv.checks_le, hinv.due_le⟩
  | sent hpinger queue hs =>
      subst hs
      exact ⟨hinv.checks_le, fun _ => hinv.due_le (Or.inr hpinger)⟩
  | ends hs =>
      subst hs
      exact ⟨hinv.checks_le, fun h => h.elim nofun nofun⟩
  | channel queue writer hs => exact hs ▸ ⟨hinv.checks_le, hinv.due_le⟩

/-- While the pinger runs, its last check is not long ago. -/
theorem now_le_of_prompt (hinv : Ticks cfg s) (hprompt : Prompt cfg lag s)
    (hended : s.pinger ≠ .ended) : s.now ≤ s.checks.headD 0 + (1000 * cfg.pingInterval + lag) := by
  cases hpinger : s.pinger with
  | unborn =>
      have hborn := hprompt.spawned hpinger
      omega
  | ticking =>
      have hdue := hinv.due_le (Or.inl hpinger)
      have hlate := hprompt.ticks (Or.inl hpinger)
      omega
  | sending =>
      have hdue := hinv.due_le (Or.inr hpinger)
      have hlate := hprompt.ticks (Or.inr hpinger)
      omega
  | ended => exact absurd hpinger hended

/-! ### A node that answers -/

/-- The checks are an interval apart, the last `pong` is dated no earlier than it came, and nothing
has been signalled. -/
structure OnTime (cfg : Config) (base : ℤ) (lag : ℕ) (s : State) : Prop extends Ticks cfg s where
  spaced : Spaced (1000 * cfg.pingInterval + lag) s.checks
  pong_le : (base + s.ponged) / 1000 ≤ s.lastPongAt
  quiet : s.signalled = false

theorem onTime_init (cfg : Config) (base : ℤ) (lag : ℕ) : OnTime cfg base lag (init base) where
  toTicks := ticks_init cfg base
  spaced := trivial
  pong_le := by simp [init]
  quiet := rfl

/-- While the pinger runs, a node that answers in time has a young `pong`. -/
theorem age_le_of_answers (hbudget : lag + skew + delay ≤ 1000 * cfg.pongTimeout)
    (hinv : OnTime cfg base lag s) (hkeeps : Answering cfg base lag skew delay s)
    (hended : s.pinger ≠ .ended) :
    s.timestamp - s.lastPongAt ≤ cfg.pingInterval + cfg.pongTimeout := by
  have hlate := now_le_of_prompt hinv.toTicks hkeeps.prompt hended
  obtain ⟨c, hponged, hnow⟩ : ∃ c, c ≤ s.ponged ∧
      s.now ≤ c + (1000 * cfg.pingInterval + lag) + delay :=
    exists_answered hinv.spaced (by omega) hkeeps.answers
  have hwall := hkeeps.steady.2
  have hpong := hinv.pong_le
  rw [State.timestamp]
  omega

theorem onTime_step (hfits : cfg.Fits) (hbudget : lag + skew + delay ≤ 1000 * cfg.pongTimeout)
    (hinv : OnTime cfg base lag s) (hkeeps : Answering cfg base lag skew delay s)
    (h : step cfg s a = some s') : OnTime cfg base lag s' := by
  have hticks := ticks_step hinv.toTicks hkeeps.prompt h
  cases change_of_step h with
  | checks hpinger hdue hs =>
      have hended : s.pinger ≠ .ended := by
        rw [hpinger]
        exact Pinger.noConfusion
      have hage := age_le_of_answers hbudget hinv hkeeps hended
      have hlate := now_le_of_prompt hinv.toTicks hkeeps.prompt hended
      rw [check_of_young ((Config.limit_eq hfits).symm ▸ hage)] at hs
      subst hs
      exact ⟨hticks, ⟨hlate, hinv.spaced⟩, hinv.pong_le, hinv.quiet⟩
  | pongs hs =>
      have hwall := hkeeps.steady.1
      subst hs
      exact ⟨hticks, hinv.spaced, Int.ediv_le_ediv (by decide) hwall, hinv.quiet⟩
  | spawns hpinger hs =>
      subst hs
      exact ⟨hticks, hinv.spaced, hinv.pong_le, hinv.quiet⟩
  | elapses elapsed shown hs =>
      subst hs
      exact ⟨hticks, hinv.spaced, hinv.pong_le, hinv.quiet⟩
  | sent hpinger queue hs =>
      subst hs
      exact ⟨hticks, hinv.spaced, hinv.pong_le, hinv.quiet⟩
  | ends hs =>
      subst hs
      exact ⟨hticks, hinv.spaced, hinv.pong_le, hinv.quiet⟩
  | channel queue writer hs =>
      subst hs
      exact ⟨hticks, hinv.spaced, hinv.pong_le, hinv.quiet⟩

/-! ### A node that is silent -/

/-- At the last check, or at a `pong` after it, the last `pong` was young enough. -/
structure Fresh (cfg : Config) (base : ℤ) (s : State) : Prop extends Ticks cfg s where
  seen : ∃ wall : ℤ, base + s.checks.headD 0 ≤ wall ∧
    wall / 1000 - s.lastPongAt ≤ cfg.pingInterval + cfg.pongTimeout

theorem fresh_init (cfg : Config) (base : ℤ) : Fresh cfg base (init base) where
  toTicks := ticks_init cfg base
  seen := ⟨base, by simp [init], by simp [init]; omega⟩

theorem fresh_step (hfits : cfg.Fits) (hinv : Fresh cfg base s)
    (hkeeps : Scheduled cfg base lag skew s) (h : step cfg s a = some s') : Fresh cfg base s' := by
  have hticks := ticks_step hinv.toTicks hkeeps.prompt h
  cases change_of_step h with
  | checks hpinger hdue hs =>
      by_cases hage : s.timestamp - s.lastPongAt ≤ cfg.limit
      · rw [check_of_young hage] at hs
        rw [Config.limit_eq hfits] at hage
        subst hs
        exact ⟨hticks, s.wall, hkeeps.steady.1, hage⟩
      · rw [check_of_old (not_le.1 hage)] at hs
        subst hs
        exact ⟨hticks, hinv.seen⟩
  | pongs hs =>
      have hwall := hkeeps.steady.1
      have hchecks := hinv.checks_le
      subst hs
      refine ⟨hticks, s.wall, ?_, ?_⟩
      · dsimp only
        omega
      · dsimp only [State.timestamp]
        omega
  | spawns hpinger hs =>
      subst hs
      exact ⟨hticks, hinv.seen⟩
  | elapses elapsed shown hs =>
      subst hs
      exact ⟨hticks, hinv.seen⟩
  | sent hpinger queue hs =>
      subst hs
      exact ⟨hticks, hinv.seen⟩
  | ends hs =>
      subst hs
      exact ⟨hticks, hinv.seen⟩
  | channel queue writer hs =>
      subst hs
      exact ⟨hticks, hinv.seen⟩

/-- The greatest age of the last `pong` while the pinger runs, in seconds. -/
def Config.patience (cfg : Config) (lag skew : ℕ) : ℕ :=
  2 * cfg.pingInterval + cfg.pongTimeout + (lag + skew + 999) / 1000

theorem age_le_patience (hinv : Fresh cfg base s) (hkeeps : Scheduled cfg base lag skew s)
    (hended : s.pinger ≠ .ended) : s.timestamp - s.lastPongAt ≤ cfg.patience lag skew := by
  obtain ⟨wall, hwall, hage⟩ := hinv.seen
  have hnow := hkeeps.steady.2
  have hlate := now_le_of_prompt hinv.toTicks hkeeps.prompt hended
  rw [State.timestamp, Config.patience]
  omega

/-- Where neither the writer nor the lifecycle ends, the pinger ends with a signal only. -/
theorem signalled_step (hwriter : a ≠ .writerEnds) (habort : a ≠ .abort)
    (hinv : s.writer = true ∧ (s.pinger = .ended → s.signalled = true))
    (h : step cfg s a = some s') :
    s'.writer = true ∧ (s'.pinger = .ended → s'.signalled = true) := by
  cases a with
  | pass elapsed shown =>
      obtain rfl := Option.some.inj h
      exact hinv
  | pong =>
      obtain rfl := Option.some.inj h
      exact hinv
  | spawn =>
      obtain ⟨-, hs⟩ := Option.ite_none_right_eq_some.1 h
      obtain rfl := Option.some.inj hs
      exact ⟨hinv.1, nofun⟩
  | tick =>
      obtain ⟨-, hs⟩ := Option.ite_none_right_eq_some.1 h
      obtain rfl := Option.some.inj hs
      unfold check
      dsimp only
      split
      · exact ⟨hinv.1, fun _ => rfl⟩
      · exact ⟨hinv.1, nofun⟩
  | ping =>
      obtain ⟨-, hs⟩ := Option.ite_none_right_eq_some.1 h
      rw [hinv.1, Bool.not_true, if_neg Bool.false_ne_true] at hs
      obtain ⟨-, hs⟩ := Option.ite_none_right_eq_some.1 hs
      obtain rfl := Option.some.inj hs
      exact ⟨rfl, nofun⟩
  | frame =>
      obtain ⟨-, hs⟩ := Option.ite_none_right_eq_some.1 h
      obtain rfl := Option.some.inj hs
      exact hinv
  | write =>
      obtain ⟨-, hs⟩ := Option.ite_none_right_eq_some.1 h
      obtain rfl := Option.some.inj hs
      exact hinv
  | writerEnds => exact absurd rfl hwriter
  | abort => exact absurd rfl habort

end

/-! ### The status -/

/-- A tunnel whose last `pong` is no older than the threshold is reported `"online"`, and one whose
last `pong` is no older than twice the threshold is not reported `"offline"`. -/
theorem status_of_age {now lastPong : Int64} {stale : UInt64} (hstale : 2 * stale.toNat < 2 ^ 63) :
    (now.toInt - lastPong.toInt ≤ stale.toNat →
        ModelsCatalog.tunnelStatusForPong now lastPong stale = "online".toList) ∧
      (now.toInt - lastPong.toInt ≤ 2 * stale.toNat →
        ModelsCatalog.tunnelStatusForPong now lastPong stale ≠ "offline".toList) := by
  have honce : stale.toInt64.toInt = stale.toNat := UInt64.toInt_toInt64_of_lt (by omega)
  have hdouble : (stale * 2).toNat = 2 * stale.toNat := by
    have htwo : (2 : UInt64).toNat = 2 := rfl
    rw [UInt64.toNat_mul, htwo, Nat.mod_eq_of_lt (by omega), Nat.mul_comm]
  have htwice : (stale * 2).toInt64.toInt = (2 * stale.toNat : ℕ) := by
    rw [UInt64.toInt_toInt64_of_lt (by omega), hdouble]
  unfold ModelsCatalog.tunnelStatusForPong
  constructor
  · intro hage
    have h := Int64.toInt_saturatingSub_le (by omega) hage
    rw [if_pos (Int64.le_iff_toInt_le.2 (honce ▸ h))]
  · intro hage
    have h : (now.saturatingSub lastPong).toInt ≤ (2 * stale.toNat : ℕ) :=
      Int64.toInt_saturatingSub_le hstale hage
    dsimp only
    split
    · decide
    · rw [if_pos (Int64.le_iff_toInt_le.2 (htwice ▸ h))]
      decide

/-- The clock and the last `pong` as the router reads them. -/
def State.Reads (s : State) (now lastPong : Int64) : Prop :=
  now.toInt = s.timestamp ∧ lastPong.toInt = s.lastPongAt

/-! ### Runs -/

section

variable {cfg : Config} {wall : ℤ} {lag skew delay : ℕ} {acts : List Act} {s : State}

/-- The default settings. -/
def defaults : Config := ⟨30, 10⟩

/-- A node that answers its first `ping`, and not yet its second. -/
def answered : List Act :=
  [.pass 5 5, .spawn, .pass 1 1, .tick, .ping, .write, .pass 40 41, .pong, .pass 29960 29962, .tick,
    .ping, .write, .pass 9000 9000]

/-- **A node that has been silent too long is cut off.**  In every run in which the pinger is at most
`lag` behind and the wall clock at most `skew` ahead, the last `pong` is no older than two intervals,
the timeout and the two slacks as long as the pinger runs, and until then no threshold of half of that
or more reports the tunnel `"offline"`.  Where neither the writer fails nor the lifecycle ends, the
pinger ends only with the signal. -/
theorem signals_silent (hfits : cfg.Fits)
    (hrun : Always (step cfg) (Scheduled cfg wall lag skew) (init wall) acts) :
    Always (step cfg) (fun s =>
      (s.pinger ≠ .ended → s.timestamp - s.lastPongAt ≤ cfg.patience lag skew ∧
        ∀ stale : UInt64, cfg.patience lag skew ≤ 2 * stale.toNat → 2 * stale.toNat < 2 ^ 63 →
          ∀ now lastPong, s.Reads now lastPong →
            ModelsCatalog.tunnelStatusForPong now lastPong stale ≠ "offline".toList) ∧
      (.writerEnds ∉ acts → .abort ∉ acts → cfg.patience lag skew < s.timestamp - s.lastPongAt →
        s.signalled = true)) (init wall) acts := by
  have hinv := always_of_always (I := Fresh cfg wall)
    (fun s a s' h hkeeps => fresh_step hfits h hkeeps) (fresh_init cfg wall) hrun
  have hends : Always (step cfg) (fun s => .writerEnds ∉ acts → .abort ∉ acts →
      s.writer = true ∧ (s.pinger = .ended → s.signalled = true)) (init wall) acts := by
    refine always_of_step (C := fun _ a _ => a ∈ acts) ?_ (fun _ _ => ⟨rfl, nofun⟩)
      (throughout_of_forall_mem (fun a ha => ha) _)
    intro s a s' hinv hstep hmem hwriter habort
    exact signalled_step (fun h => hwriter (h ▸ hmem)) (fun h => habort (h ▸ hmem))
      (hinv hwriter habort) hstep
  refine (hinv.and hends).mono fun s ⟨⟨hkeeps, h⟩, hend⟩ => ⟨fun hended => ?_, ?_⟩
  · have hage := age_le_patience h hkeeps hended
    refine ⟨hage, fun stale hthreshold hstale now last hreads => ?_⟩
    rw [← hreads.1, ← hreads.2] at hage
    exact (status_of_age hstale).2 (by omega)
  · intro hwriter habort hold
    refine (hend hwriter habort).2 ?_
    by_contra hended
    exact absurd (age_le_patience h hkeeps hended) (not_le.2 hold)

/-- The node falls silent, and the third tick cuts it off. -/
def fallsSilent : List Act :=
  answered ++ [.pass 21000 21000, .tick, .pass 12000 12000]

theorem signals_fallsSilent :
    ∃ s, run (step defaults) (init 0) fallsSilent = some s ∧ s.signalled = true := by
  have hlate : (run (step defaults) (init 0) fallsSilent).map
      (fun s => decide ((defaults.patience 10 10 : ℤ) < s.timestamp - s.lastPongAt)) = some true := by
    decide +kernel
  obtain ⟨s, hrun, hlate⟩ := Option.map_eq_some_iff.1 hlate
  have hchecked : Always (step defaults) (fun s => decide (Scheduled defaults 0 10 10 s) = true)
      (init 0) fallsSilent := always_of_check (by decide +kernel)
  have hkeeps := hchecked.mono fun _ h => of_decide_eq_true h
  have hlast := (signals_silent (by decide) hkeeps).last hrun
  exact ⟨s, hrun, hlast.2 (by decide) (by decide) (of_decide_eq_true hlate)⟩

/-- A pinger whose `ping` finds no room waits for the writer, and signals nothing however long the
node has been silent. -/
theorem stuck {t : State} (hpinger : s.pinger = .sending) (hqueue : s.queue = frameCapacity)
    (hwriter : s.writer = true) (hquiet : s.signalled = false)
    (hacts : ∀ a ∈ acts, a ≠ .write ∧ a ≠ .writerEnds ∧ a ≠ .abort)
    (hrun : run (step cfg) s acts = some t) : t.pinger = .sending ∧ t.signalled = false := by
  have hinv : Always (step cfg) (fun s => s.pinger = .sending ∧ s.queue = frameCapacity ∧
      s.writer = true ∧ s.signalled = false) s acts := by
    refine always_of_step (C := fun _ a _ => a ≠ .write ∧ a ≠ .writerEnds ∧ a ≠ .abort) ?_
      ⟨hpinger, hqueue, hwriter, hquiet⟩ (throughout_of_forall_mem hacts s)
    intro s a s' ⟨hpinger, hqueue, hwriter, hquiet⟩ hstep hact
    cases a with
    | pass elapsed shown =>
        obtain rfl := Option.some.inj hstep
        exact ⟨hpinger, hqueue, hwriter, hquiet⟩
    | pong =>
        obtain rfl := Option.some.inj hstep
        exact ⟨hpinger, hqueue, hwriter, hquiet⟩
    | spawn => simp [step, hpinger] at hstep
    | tick => simp [step, hpinger] at hstep
    | ping => simp [step, hpinger, hwriter, hqueue] at hstep
    | frame => simp [step, hqueue] at hstep
    | write => exact absurd rfl hact.1
    | writerEnds => exact absurd rfl hact.2.1
    | abort => exact absurd rfl hact.2.2
  obtain ⟨hsending, -, -, hnone⟩ := hinv.last hrun
  exact ⟨hsending, hnone⟩

end

end Keepalive
