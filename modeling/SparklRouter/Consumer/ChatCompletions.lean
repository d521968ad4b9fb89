/-
**The admission of a request.**

`chat_completions` (`src/consumer/forward.rs`) admits a request in three lookups: the union of the
catalog must list its model, the node of its session must have a tunnel, and the concurrency the
node has declared for the model is what the capacity tracker admits by.  The three are about
different things.  The union lists the models of all nodes, so a model passes that another node
provides; and the concurrency of a model the node does not list is zero, which the tracker takes for
no limit. A declared concurrency is cut to 32 bits, so it can become zero as well.

The catalog can change between two lookups, so the admission takes a catalog for each of them.  How
the loop of `acquire` ends is up to the other requests; `ChatCompletions.acquire` says which guard
it leads to, and agrees with the tracker of `Capacity`.

Main definitions:

* `ChatCompletions.Served` — a task of the tracker stands where a call can have come to;
* `ChatCompletions.acquire`, `ChatCompletions.concurrencyFor`, `ChatCompletions.admission` — the
  admission;
* `ChatCompletions.Governed` — the node's own declaration governs what is admitted.

Main results:

* `ChatCompletions.served_of_step`, `ChatCompletions.acquire_of_served` — **the guard of a call is
  the one the tracker issues**;
* `ChatCompletions.governed_iff` — **when the node's own declaration governs the request**.
-/

import SparklRouter.Capacity.Readings
import SparklRouter.Catalog.Poisoning
import SparklRouter.Consumer.RequestBody

set_option relaxedAutoImplicit false
set_option autoImplicit false

namespace ChatCompletions

open Json
open Capacity (AcquireError ModelCapacityKey Request)

/-! ### Guards -/

structure CapacityGuard where
  key : ModelCapacityKey
  unlimited : Bool
deriving DecidableEq

/-- `CapacityTracker::acquire`.  With a limit the loop ends with a place or with an error. -/
def acquire (r : Request) (failure : Option AcquireError) : Except AcquireError CapacityGuard :=
  if r.concurrency = 0 then .ok ⟨r.key, true⟩
  else
    match failure with
    | none => .ok ⟨r.key, false⟩
    | some e => .error e

/-! The guard is the one the tracker issues: a task that has begun as a call of `acquire` holds a
guard of its key, tracked if the call has a limit and unlimited if it has none. -/

/-- A call of `acquire` can have come here. -/
def Served (r : Request) : Capacity.Task → Prop
  | .enter (.acquire r') => r' = r
  | .slotGet (.acquire r') | .slotEntry (.acquire r') => r' = r ∧ r.concurrency ≠ 0
  | .acquiring r' _ _ | .cancelled r' _ => r' = r ∧ r.concurrency ≠ 0
  | .guard key _ | .releasing key _ _ => key = r.key ∧ r.concurrency ≠ 0
  | .unlimitedGuard key => key = r.key ∧ r.concurrency = 0
  | .failed _ => r.concurrency ≠ 0
  | .released => True
  | _ => False

/-- The guard a task of the tracker holds. -/
def heldGuard : Capacity.Task → Option CapacityGuard
  | .guard key _ => some ⟨key, false⟩
  | .unlimitedGuard key => some ⟨key, true⟩
  | _ => none

/-- **The guard a call has come to is that of `acquire`.** -/
theorem acquire_of_served {r : Request} {t : Capacity.Task} (h : Served r t) {guard : CapacityGuard}
    (hguard : heldGuard t = some guard) : acquire r none = .ok guard := by
  cases t with
  | guard key a =>
      obtain rfl := Option.some.inj hguard
      obtain ⟨rfl, hlimit⟩ := h
      exact if_neg hlimit
  | unlimitedGuard key =>
      obtain rfl := Option.some.inj hguard
      obtain ⟨rfl, hlimit⟩ := h
      exact if_pos hlimit
  | _ => cases hguard

section

variable {cfg : Sharding ModelCapacityKey} {s s' : Capacity.State} {r : Request}

/-- A call of `acquire`, or what has become of it. -/
theorem served_iff_of {t : Capacity.Task} : Served r t ↔ t.Of (.acquire r) := by
  cases t with
  | enter c => cases c <;> simp [Served, Capacity.Task.Of]
  | slotGet c => cases c <;> simp [Served, Capacity.Task.Of, Capacity.Caller.limited]
  | slotEntry c => cases c <;> simp [Served, Capacity.Task.Of, Capacity.Caller.limited]
  | acquiring r' a pc => simp [Served, Capacity.Task.Of, Capacity.Caller.limited, eq_comm]
  | cancelled r' a => simp [Served, Capacity.Task.Of, Capacity.Caller.limited, eq_comm]
  | _ => simp [Served, Capacity.Task.Of, Capacity.Caller.limited, Capacity.Caller.key]

/-- **A call of `acquire` comes to no other guard**: whatever step the tracker takes, the task of
the call stands where the call can have come to. -/
theorem served_of_step {i : Capacity.TaskId} {t : Capacity.Task} {act : Capacity.Action}
    (ht : s.tasks[i]? = some t) (h : Served r t) (hstep : Capacity.step cfg s act = some s') :
    ∃ t', s'.tasks[i]? = some t' ∧ Served r t' := by
  obtain ⟨t', ht', hof⟩ := Capacity.of_step ht (served_iff_of.1 h) hstep
  exact ⟨t', ht', served_iff_of.2 hof⟩

end

/-! ### Responses -/

structure Response where
  status : UInt16
  body : Value
  retryAfter : Option ℕ

def errorResponse (status : UInt16) (errorType message : Text) : Response where
  status
  body := .object [⟨"error".toList, .string message⟩, ⟨"type".toList, .string errorType⟩]
  retryAfter := none

def providerUnavailableResponse (message : Text) : Response :=
  errorResponse 503 "provider_unavailable".toList message

def capacityExhaustedResponse (err : AcquireError) (concurrency : UInt32) : Response :=
  let (active, queued, retryAfter) : UInt32 × UInt32 × UInt64 :=
    match err with
    | .queueFull active _ queued => (active, queued, 15)
    | .waitTimeout active _ queued => (active, queued, 30)
  { status := 429
    body := .object
      [⟨"error".toList, .string "model at capacity".toList⟩,
        ⟨"type".toList, .string "capacity_exhausted".toList⟩,
        ⟨"retry_after".toList, .ofU64 retryAfter⟩,
        ⟨"active_requests".toList, ModelsCatalog.ofU32 active⟩,
        ⟨"concurrency".toList, ModelsCatalog.ofU32 concurrency⟩,
        ⟨"queued_requests".toList, ModelsCatalog.ofU32 queued⟩]
    retryAfter := some retryAfter.toNat }

/-! ### The admission -/

/-- `ModelsCatalog::contains`. -/
def contains (catalog : ModelsCatalog.State) (model : Text) : Bool := decide (model ∈ catalog.union)

/-- The entry under which the node itself advertises the model. -/
def entryOf (catalog : ModelsCatalog.State) (nodeId : NodeId) (model : Text) : Option Value :=
  (catalog.byNode.lookup nodeId).bind fun models => models.lookup model

/-- The concurrency an entry declares; zero if it declares none. -/
def declared (entry : Value) : UInt64 :=
  ((entry.pointer ["sparkl".toList, "concurrency".toList]).bind Value.asU64).getD 0

/-- `ModelsCatalog::concurrency_for`. -/
def concurrencyFor (catalog : ModelsCatalog.State) (nodeId : NodeId) (model : Text) : UInt32 :=
  ((((entryOf catalog nodeId model).bind fun entry =>
    entry.pointer ["sparkl".toList, "concurrency".toList]).bind Value.asU64).getD 0).toUInt32

/-- `max_queue_depth`; `scaled` multiplies with the configured ratio and rounds down. -/
def maxQueueDepth (scaled : UInt32 → UInt32) (concurrency : UInt32) : UInt32 :=
  if concurrency = 0 then 0 else max (scaled concurrency) 1

/-- What is forwarded, and under which guard. -/
structure Admitted where
  body : Text
  model : Text
  concurrency : UInt32
  guard : CapacityGuard

/-- The body as it is forwarded. -/
def forwardedBody (json : SerdeJson) (body : Text) : Text :=
  if RequestBody.parseStreamFlag json body then RequestBody.injectStreamUsageOption json body
  else body

/-- `chat_completions` up to the guard.  The model is looked up in the catalog `seen`, its
concurrency in the catalog `read`. -/
def admission (json : SerdeJson) (scaled : UInt32 → UInt32) (seen read : ModelsCatalog.State)
    (connected : NodeId → Bool) (failure : Request → Option AcquireError) (nodeId : NodeId)
    (body : Text) : Except Response Admitted :=
  let bodyStr := forwardedBody json body
  match RequestBody.parseModel json bodyStr with
  | none =>
      .error (errorResponse 400 "model_not_found".toList "missing model in request body".toList)
  | some model =>
      if contains seen model then
        if connected nodeId then
          let concurrency := concurrencyFor read nodeId model
          let r : Request := ⟨⟨nodeId, model⟩, concurrency, maxQueueDepth scaled concurrency⟩
          match acquire r (failure r) with
          | .ok guard => .ok ⟨bodyStr, model, concurrency, guard⟩
          | .error e => .error (capacityExhaustedResponse e concurrency)
        else .error (providerUnavailableResponse "provider offline".toList)
      else
        .error (errorResponse 400 "model_not_found".toList ("unknown model: ".toList ++ model))

/-- **What is admitted is governed by the node's own declaration**: the node itself advertises the
model, and if it declares a concurrency, the request holds a tracked guard with a limit that is not
larger. -/
def Governed (read : ModelsCatalog.State) (nodeId : NodeId) (outcome : Except Response Admitted) :
    Prop :=
  ∀ admitted, outcome = .ok admitted → ∃ entry,
    entryOf read nodeId admitted.model = some entry ∧
      (0 < declared entry → admitted.guard = ⟨⟨nodeId, admitted.model⟩, false⟩ ∧
        admitted.concurrency.toNat ≤ (declared entry).toNat)

/-! ### What governs a request -/

theorem toUInt32_eq_zero {n : UInt64} : n.toUInt32 = 0 ↔ n.toNat % 2 ^ 32 = 0 := by
  rw [← UInt32.toNat_inj, UInt64.toNat_toUInt32]
  rfl

theorem concurrencyFor_of_entry {catalog : ModelsCatalog.State} {nodeId : NodeId} {model : Text}
    {entry : Value} (h : entryOf catalog nodeId model = some entry) :
    concurrencyFor catalog nodeId model = (declared entry).toUInt32 := by
  rw [concurrencyFor, h]
  rfl

/-- A model the node does not list has no limit. -/
theorem concurrencyFor_of_none {catalog : ModelsCatalog.State} {nodeId : NodeId} {model : Text}
    (h : entryOf catalog nodeId model = none) : concurrencyFor catalog nodeId model = 0 := by
  rw [concurrencyFor, h]
  rfl

theorem acquire_ok {r : Request} {failure : Option AcquireError} {guard : CapacityGuard}
    (h : acquire r failure = .ok guard) :
    guard.key = r.key ∧ (r.concurrency ≠ 0 → guard.unlimited = false) := by
  unfold acquire at h
  split at h
  · rename_i hzero
    obtain rfl := Except.ok.inj h
    exact ⟨rfl, fun hne => absurd hzero hne⟩
  · cases failure with
    | none =>
        obtain rfl := Except.ok.inj h
        exact ⟨rfl, fun _ => rfl⟩
    | some e => cases h

section

variable {json : SerdeJson} {scaled : UInt32 → UInt32} {seen read : ModelsCatalog.State}
  {connected : NodeId → Bool} {failure : Request → Option AcquireError} {nodeId : NodeId}
  {body : Text}

/-- What an admitted request has passed. -/
theorem admission_ok {admitted : Admitted}
    (h : admission json scaled seen read connected failure nodeId body = .ok admitted) :
    RequestBody.parseModel json (forwardedBody json body) = some admitted.model ∧
      contains seen admitted.model = true ∧ connected nodeId = true ∧
      admitted.concurrency = concurrencyFor read nodeId admitted.model ∧
      admitted.guard.key = ⟨nodeId, admitted.model⟩ ∧
      (admitted.concurrency ≠ 0 → admitted.guard.unlimited = false) := by
  rw [admission] at h
  split at h
  · cases h
  · rename_i model hmodel
    split at h
    · rename_i hcontains
      split at h
      · rename_i hconnected
        dsimp only at h
        split at h
        · rename_i guard hguard
          obtain rfl := Except.ok.inj h
          obtain ⟨hkey, htracked⟩ := acquire_ok hguard
          exact ⟨hmodel, hcontains, hconnected, rfl, hkey, htracked⟩
        · cases h
      · cases h
    · cases h

/-- The body of an admitted request is the forwarded one. -/
theorem body_of_admission {admitted : Admitted}
    (h : admission json scaled seen read connected failure nodeId body = .ok admitted) :
    admitted.body = forwardedBody json body := by
  rw [admission] at h
  split at h
  · cases h
  · split at h
    · split at h
      · dsimp only at h
        split at h
        · obtain rfl := Except.ok.inj h
          rfl
        · cases h
      · cases h
    · cases h

/-- **Without a limit, a request that passes the first two lookups is admitted.** -/
theorem admission_of_zero {model : Text}
    (hmodel : RequestBody.parseModel json (forwardedBody json body) = some model)
    (hcontains : contains seen model = true) (hconnected : connected nodeId = true)
    (hzero : concurrencyFor read nodeId model = 0) :
    admission json scaled seen read connected failure nodeId body =
      .ok ⟨forwardedBody json body, model, 0, ⟨⟨nodeId, model⟩, true⟩⟩ := by
  simp only [admission, hmodel, hcontains, hconnected, hzero, if_true, acquire]

/-- **When the node's own declaration governs the request**: if the union lists its model and the
node is connected, the node has to advertise the model itself, with a concurrency that is zero or
does not vanish in 32 bits. -/
theorem governed_iff (json : SerdeJson) (scaled : UInt32 → UInt32)
    (seen read : ModelsCatalog.State) (connected : NodeId → Bool)
    (failure : Request → Option AcquireError) (nodeId : NodeId) (body : Text) :
    Governed read nodeId (admission json scaled seen read connected failure nodeId body) ↔
      ∀ model, RequestBody.parseModel json (forwardedBody json body) = some model →
        contains seen model = true → connected nodeId = true →
        ∃ entry, entryOf read nodeId model = some entry ∧
          (declared entry = 0 ∨ (declared entry).toNat % 2 ^ 32 ≠ 0) := by
  constructor
  · intro h model hmodel hcontains hconnected
    by_cases hzero : concurrencyFor read nodeId model = 0
    · obtain ⟨entry, hentry, hlimit⟩ :=
        h _ (admission_of_zero hmodel hcontains hconnected hzero)
      refine ⟨entry, hentry, Or.inl ?_⟩
      by_contra hne
      cases (hlimit (UInt64.pos_iff_ne_zero.2 hne)).1
    · cases hentry : entryOf read nodeId model with
      | none => exact absurd (concurrencyFor_of_none hentry) hzero
      | some entry =>
          refine ⟨entry, rfl, Or.inr fun hmod => hzero ?_⟩
          rw [concurrencyFor_of_entry hentry]
          exact toUInt32_eq_zero.2 hmod
  · intro h admitted hadmitted
    obtain ⟨hmodel, hcontains, hconnected, hconcurrency, hkey, htracked⟩ := admission_ok hadmitted
    obtain ⟨entry, hentry, hdeclared⟩ := h _ hmodel hcontains hconnected
    rw [concurrencyFor_of_entry hentry] at hconcurrency
    refine ⟨entry, hentry, fun hpos => ?_⟩
    have hmod := hdeclared.resolve_left (UInt64.pos_iff_ne_zero.1 hpos)
    constructor
    · have hunlimited := htracked (hconcurrency ▸ fun hzero => hmod (toUInt32_eq_zero.1 hzero))
      cases hguard : admitted.guard with
      | mk key unlimited =>
          rw [hguard] at hkey hunlimited
          rw [← hkey, ← hunlimited]
    · rw [hconcurrency, UInt64.toNat_toUInt32]
      exact Nat.mod_le _ _

end

/-! ### A model of another node -/

/-- One node, which provides the model `llama`. -/
def otherProvider : ModelsCatalog.State :=
  ModelsCatalog.apply ModelsCatalog.new
    (.upsertNode (List.Vector.replicate 32 2) ModelsCatalog.good ModelsCatalog.storedOrders)

def sampleBody : Value := .object [⟨"model".toList, .string "llama".toList⟩]

/-- A session of a node that does not provide it. -/
def sampleNode : NodeId := List.Vector.replicate 32 1

theorem contains_otherProvider : contains otherProvider "llama".toList = true := by
  decide +kernel

/-- **A model that only another node provides is forwarded without a limit.** -/
theorem governed_breaks :
    ¬ ∀ (json : SerdeJson) (scaled : UInt32 → UInt32) (fromStr : Text → Option Value)
      (catalog : ModelsCatalog.State) (connected : NodeId → Bool)
      (failure : Request → Option AcquireError) (nodeId : NodeId) (body : Text),
      Transition.Reachable (ModelsCatalog.step : _ → ModelsCatalog.Op fromStr → _)
        ModelsCatalog.new catalog →
      Governed catalog nodeId
        (admission json scaled catalog catalog connected failure nodeId body) := by
  intro hall
  have h := hall (.ofTexts [sampleBody]) id ModelsCatalog.parsesBoth otherProvider (fun _ => true)
    (fun _ => none) sampleNode sampleBody.compact ⟨[_], rfl⟩
  have hentry : entryOf otherProvider sampleNode "llama".toList = none :=
    Option.isNone_iff_eq_none.1 (by decide +kernel)
  obtain ⟨entry, hsome, -⟩ := h _ (admission_of_zero (rfl : _ = some "llama".toList)
    contains_otherProvider rfl (concurrencyFor_of_none hentry))
  cases hentry.symm.trans hsome

end ChatCompletions
