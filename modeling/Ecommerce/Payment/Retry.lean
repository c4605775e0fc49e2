import Ecommerce.Common.Machine
import Ecommerce.Payment.Service
/-!
# The staged retry of one message

One `payment.requested` message travels between the main queue, the handler
and the retry queues, and `outcomes` says what each gateway call comes back
with. The handler picks the retry queue from the first count of `x-death`,
and it republishes the message without its headers: the broker starts the
header afresh in every retry queue, so the count the handler reads is 1
after every retry. From the second failure on the message comes back to
`retry-2`, and neither `retry-3` nor the DLQ is ever reached.
-/

namespace Ecommerce

namespace Payments

/-- A message, where it is, and what was done with it. -/
structure Journey where
  store : Store
  queues : List (Queue × Message)
  /-- The delivery at work: its event, its `x-death` header and where the handler stands. -/
  delivery : Option (PaymentRequestedEvent × List Death × Pc)
  /-- The gateway calls made so far. -/
  attempts : ℕ

/-- What a call hands to the broker. -/
def Op.published : Op → List Publication
  | .publish p => [p]
  | _ => []

/-- The gateway calls a call makes. -/
def Op.attempts : Op → ℕ
  | .fire _ => 1
  | _ => 0

namespace Journey

/-- The handler goes on; when it has returned the message is acked. -/
def handle (outcomes : ℕ → Option GatewayOutcome) (j : Journey) (event : PaymentRequestedEvent)
    (xDeath : List Death) (pc : Pc) : Option Journey :=
  match pc.point event xDeath with
  | .stop _ => some { j with delivery := none }
  | .wait op next => (perform (outcomes j.attempts) op j.store).map fun answer =>
      { store := answer.2
        queues := j.queues ++ op.published.flatMap Publication.deliver
        delivery := some (event, xDeath, next answer.1)
        attempts := j.attempts + op.attempts }

/-- Whether the broker has something to do with a message: it is for the handler,
or its TTL runs. -/
def pending (entry : Queue × Message) : Bool :=
  entry.1 = .paymentRequested || entry.1.deadLetter.isSome

/-- The broker delivers a message, or dead-letters one whose TTL is over. -/
def forward (j : Journey) (entry : Queue × Message) : Journey :=
  match entry.1, entry.2.body with
  | .paymentRequested, .paymentRequested event =>
    { j with
      queues := j.queues.erase entry
      delivery := some (event, entry.2.xDeath, .find) }
  | _, _ => { j with queues := j.queues.erase entry ++ expire entry.1 entry.2 }

/-- One step of the handler, or of the broker when no delivery is at work. -/
def tick (outcomes : ℕ → Option GatewayOutcome) (j : Journey) : Option Journey :=
  match j.delivery with
  | some (event, xDeath, pc) => j.handle outcomes event xDeath pc
  | none => (j.queues.find? pending).map j.forward

/-- The message as order-service has published it. -/
def start (payments : List Payment) (event : PaymentRequestedEvent) : Journey :=
  ⟨⟨payments, []⟩, [(.paymentRequested, ⟨.paymentRequested event, []⟩)], none, 0⟩

/-- The routing keys of the retry queues the message passed through. -/
def stages (j : Journey) : List String :=
  (j.store.published.filter fun p => p.exchange = .retry).map Publication.routingKey

/-- How often the message was published to the DLQ exchange. -/
def dlqs (j : Journey) : ℕ := j.store.published.countP fun p => p.exchange = .dlq

end Journey

variable {outcomes : ℕ → Option GatewayOutcome} {payments : List Payment}
variable {event : PaymentRequestedEvent} {j j' : Journey}

/-- The states on the way of a message. -/
def Visited (outcomes : ℕ → Option GatewayOutcome) (payments : List Payment)
    (event : PaymentRequestedEvent) : Journey → Prop :=
  Reach (fun j (_ : Unit) => j.tick outcomes) (· = .start payments event) (fun _ _ => True)

/-- The `i`-th gateway call fails transiently. -/
def Fails (outcomes : ℕ → Option GatewayOutcome) (i : ℕ) : Prop :=
  ∃ message, outcomes i = some (.error message)

/-- The order has no payment yet. -/
def Unpaid (payments : List Payment) (event : PaymentRequestedEvent) : Prop :=
  ∀ row ∈ payments, row.orderId ≠ event.orderId

/-- **Bounded staged retry.** -/
structure StagedRetry (outcomes : ℕ → Option GatewayOutcome) (payments : List Payment)
    (event : PaymentRequestedEvent) : Prop where
  attempts : ∀ j, Visited outcomes payments event j → j.attempts ≤ MAX_RETRIES + 1
  stages : ∀ j, Visited outcomes payments event j →
    j.stages <+: ["payment.requested.retry-1", "payment.requested.retry-2",
      "payment.requested.retry-3"]
  once : ∀ j, Visited outcomes payments event j → j.dlqs ≤ 1
  dlq : Unpaid payments event → (∀ i < MAX_RETRIES + 1, Fails outcomes i) →
    ∃ j, Visited outcomes payments event j ∧ j.dlqs = 1 ∧
      result event.orderId .failed none ∈ j.store.published

theorem Visited.tick (h : Visited outcomes payments event j) (ht : j.tick outcomes = some j') :
    Visited outcomes payments event j' :=
  Reach.step (l := ()) h trivial ht

/-! ## A failed attempt -/

/-- The message as it waits in a queue. -/
def message (event : PaymentRequestedEvent) (xDeath : List Death) : Message :=
  ⟨.paymentRequested event, xDeath⟩

/-- The header of the message on its `k`-th way back, `k ≤ 2`. -/
def header : ℕ → List Death
  | 0 => []
  | 1 => [⟨.retry1, .expired, 1⟩]
  | _ => [⟨.retry2, .expired, 1⟩]

/-- The retry queue the message is handed to after `k + 1` failures. -/
def stage : ℕ → Queue
  | 0 => .retry1
  | _ => .retry2

/-- What was published after `k` failures. -/
def retried (event : PaymentRequestedEvent) : ℕ → List Publication
  | 0 => []
  | k + 1 => retried event k ++ [toRetry event (header k)]

theorem retryCount_header (k : ℕ) : retryCount (header k) < MAX_RETRIES := by
  match k with
  | 0 => decide
  | 1 => decide
  | k + 2 => exact (by decide : (1 : ℕ) < 3)

/-- **Where a failed message goes**: the counter it carries is never more than 1. -/
theorem deliver_toRetry (event : PaymentRequestedEvent) (k : ℕ) :
    (toRetry event (header k)).deliver = [(stage k, message event [])] := by
  match k with
  | 0 => rfl
  | 1 => rfl
  | k + 2 =>
    show (toRetry event (header 2)).deliver = [(stage 2, message event [])]
    rfl

theorem expire_stage (event : PaymentRequestedEvent) (k : ℕ) :
    expire (stage k) (message event []) =
      [(.paymentRequested, message event (header (k + 1)))] := by
  match k with
  | 0 => rfl
  | k + 1 => rfl

/-! ## The way of a message -/

theorem find_unpaid (h : Unpaid payments event) :
    payments.find? (fun row => row.orderId = event.orderId) = none :=
  List.find?_eq_none.mpr fun row hrow => by simpa using h row hrow

section Ticks

variable {k : ℕ} {published : List Publication} {queues : List (Queue × Message)}

theorem tick_waiting (k : ℕ) (published : List Publication) :
    Journey.tick outcomes ⟨⟨payments, published⟩,
        [(.paymentRequested, message event (header k))], none, k⟩ =
      some ⟨⟨payments, published⟩, [], some (event, header k, .find), k⟩ := by
  simp [Journey.tick, Journey.pending, Journey.forward, message]

theorem tick_find (hunpaid : Unpaid payments event) (k : ℕ) (published : List Publication) :
    Journey.tick outcomes ⟨⟨payments, published⟩, [], some (event, header k, .find), k⟩ =
      some ⟨⟨payments, published⟩, [], some (event, header k, .fire), k⟩ := by
  have hcount : ¬ retryCount (header k) ≥ MAX_RETRIES := Nat.not_le.mpr (retryCount_header k)
  simp only [Journey.tick, Journey.handle, Pc.point, perform, find_unpaid hunpaid, Option.map_some,
    orThrow, afterFind, if_neg hcount, Op.published, Op.attempts, List.flatMap_nil,
    List.append_nil, Nat.add_zero]

theorem tick_fails (k : ℕ) (published : List Publication) (h : Fails outcomes k) :
    Journey.tick outcomes ⟨⟨payments, published⟩, [], some (event, header k, .fire), k⟩ =
      some ⟨⟨payments, published⟩, [], some (event, header k, .publishRetry), k + 1⟩ := by
  obtain ⟨message, hout⟩ := h
  simp only [Journey.tick, Journey.handle, Pc.point, perform, hout, Option.map_some, afterFire,
    Op.published, Op.attempts, List.flatMap_nil, List.append_nil]

theorem tick_retry (k n : ℕ) (published : List Publication) :
    Journey.tick outcomes
        ⟨⟨payments, published⟩, [], some (event, header k, .publishRetry), n⟩ =
      some ⟨⟨payments, published ++ [toRetry event (header k)]⟩, [(stage k, message event [])],
        some (event, header k, .returned), n⟩ := by
  simp only [Journey.tick, Journey.handle, Pc.point, perform, Option.map_some, orThrow,
    Op.published, Op.attempts, List.flatMap_singleton, deliver_toRetry, List.nil_append,
    Nat.add_zero]

theorem tick_returned (k n : ℕ) (store : Store) (queues : List (Queue × Message)) :
    Journey.tick outcomes ⟨store, queues, some (event, header k, .returned), n⟩ =
      some ⟨store, queues, none, n⟩ := rfl

theorem tick_expire (k n : ℕ) (store : Store) :
    Journey.tick outcomes ⟨store, [(stage k, message event [])], none, n⟩ =
      some ⟨store, [(.paymentRequested, message event (header (k + 1)))], none, n⟩ := by
  have hpending : Journey.pending (stage k, message event []) = true := by
    cases k <;> rfl
  have hforward : Journey.forward ⟨store, [(stage k, message event [])], none, n⟩
      (stage k, message event []) =
      ⟨store, expire (stage k) (message event []), none, n⟩ := by
    cases k <;> simp [Journey.forward, stage]
  simp only [Journey.tick, List.find?_cons_of_pos hpending, Option.map_some, hforward,
    expire_stage]

end Ticks

/-- **One failure takes the message round**, through a retry queue and back. -/
theorem Visited.round {k : ℕ} {published : List Publication} (hunpaid : Unpaid payments event)
    (h : Visited outcomes payments event ⟨⟨payments, published⟩,
      [(.paymentRequested, message event (header k))], none, k⟩) (hfail : Fails outcomes k) :
    Visited outcomes payments event ⟨⟨payments, published ++ [toRetry event (header k)]⟩,
      [(.paymentRequested, message event (header (k + 1)))], none, k + 1⟩ :=
  h.tick (tick_waiting k _) |>.tick (tick_find hunpaid k _) |>.tick (tick_fails k _ hfail)
    |>.tick (tick_retry k _ _) |>.tick (tick_returned k _ _ _) |>.tick (tick_expire k _ _)

/-- After `k` failures the message is back in the main queue. -/
theorem visited_waiting (hunpaid : Unpaid payments event) (k : ℕ)
    (hfail : ∀ i < k, Fails outcomes i) :
    Visited outcomes payments event ⟨⟨payments, retried event k⟩,
      [(.paymentRequested, message event (header k))], none, k⟩ := by
  induction k with
  | zero => exact .start rfl
  | succ k ih =>
    exact (ih fun i hi => hfail i (by omega)).round hunpaid (hfail k (by omega))

/-- **From the third failure on the stages are not the staged ones.** -/
theorem not_stagedRetry (hunpaid : Unpaid payments event) (hfail : ∀ i < 3, Fails outcomes i) :
    ¬ StagedRetry outcomes payments event := by
  intro h
  have hstages := h.stages _ (visited_waiting hunpaid 3 hfail)
  have hkeys : Journey.stages ⟨⟨payments, retried event 3⟩,
      [(.paymentRequested, message event (header 3))], none, 3⟩ =
      ["payment.requested.retry-1", "payment.requested.retry-2", "payment.requested.retry-2"] :=
    rfl
  rw [hkeys] at hstages
  exact absurd hstages (by decide)

/-! ## At most two failures -/

/-- `k` attempts have failed, and no more than two. -/
structure Past (outcomes : ℕ → Option GatewayOutcome) (payments : List Payment)
    (event : PaymentRequestedEvent) (k : ℕ) : Prop where
  le : k ≤ 2
  fails : ∀ i < k, Unpaid payments event ∧ Fails outcomes i

/-- **The way of a message that fails at most twice.** -/
inductive Course (outcomes : ℕ → Option GatewayOutcome) (payments : List Payment)
    (event : PaymentRequestedEvent) : Journey → Prop
  | waiting (k : ℕ) (h : Past outcomes payments event k) :
      Course outcomes payments event ⟨⟨payments, retried event k⟩,
        [(.paymentRequested, message event (header k))], none, k⟩
  | reading (k : ℕ) (h : Past outcomes payments event k) :
      Course outcomes payments event ⟨⟨payments, retried event k⟩, [],
        some (event, header k, .find), k⟩
  | charging (k : ℕ) (h : Past outcomes payments event k) (hunpaid : Unpaid payments event) :
      Course outcomes payments event ⟨⟨payments, retried event k⟩, [],
        some (event, header k, .fire), k⟩
  | failing (k : ℕ) (h : Past outcomes payments event (k + 1)) :
      Course outcomes payments event ⟨⟨payments, retried event k⟩, [],
        some (event, header k, .publishRetry), k + 1⟩
  | handed (k : ℕ) (h : Past outcomes payments event (k + 1)) :
      Course outcomes payments event ⟨⟨payments, retried event (k + 1)⟩,
        [(stage k, message event [])], some (event, header k, .returned), k + 1⟩
  | retrying (k : ℕ) (h : Past outcomes payments event (k + 1)) :
      Course outcomes payments event ⟨⟨payments, retried event (k + 1)⟩,
        [(stage k, message event [])], none, k + 1⟩
  | saving (k : ℕ) (h : Past outcomes payments event k) (status : PaymentStatus) :
      Course outcomes payments event ⟨⟨payments, retried event k⟩, [],
        some (event, header k, .save status), k + 1⟩
  | announcing (k : ℕ) (h : Past outcomes payments event k) (store : List Payment) (id : ℕ)
      (status : PaymentStatus) :
      Course outcomes payments event ⟨⟨store, retried event k⟩, [],
        some (event, header k, .publishSaved id status), k + 1⟩
  | returning (k n : ℕ) (h : Past outcomes payments event k) (hn : n ≤ k + 1)
      (store : List Payment) (results : List Publication)
      (hresults : ∀ p ∈ results, p.exchange = .events) (queues : List (Queue × Message))
      (hqueues : queues.find? Journey.pending = none) (delivery : Option Pc)
      (hdelivery : ∀ pc ∈ delivery, pc = .returned) :
      Course outcomes payments event ⟨⟨store, retried event k ++ results⟩, queues,
        delivery.map fun pc => (event, header k, pc), n⟩

namespace Course

theorem pending_result (o : OrderId) (status : PaymentStatus) (id : Option ℕ) :
    (result o status id).deliver.find? Journey.pending = none := by
  cases status <;> rfl

/-- **A step of the message keeps to its course.** -/
theorem tick (hfew : ¬ (Unpaid payments event ∧ ∀ i < 3, Fails outcomes i))
    (h : Course outcomes payments event j) (ht : j.tick outcomes = some j') :
    Course outcomes payments event j' := by
  cases h with
  | waiting k h =>
    rw [tick_waiting, Option.some.injEq] at ht
    exact ht ▸ .reading k h
  | reading k h =>
    by_cases hunpaid : Unpaid payments event
    · rw [tick_find hunpaid, Option.some.injEq] at ht
      exact ht ▸ .charging k h hunpaid
    · cases hrow : payments.find? fun row => row.orderId = event.orderId with
      | none =>
        refine absurd (fun row hr => ?_) hunpaid
        simpa using List.find?_eq_none.mp hrow row hr
      | some row =>
        -- The order has its payment: the message is acked, and nothing is published.
        simp only [Journey.tick, Journey.handle, Pc.point, perform, hrow, Option.map_some, orThrow,
          afterFind, Op.published, Op.attempts, List.flatMap_nil, List.append_nil, Nat.add_zero,
          Option.some.injEq] at ht
        rw [← ht, ← List.append_nil (retried event k)]
        exact .returning k k h (Nat.le_succ k) payments [] (fun p hp => by cases hp) [] rfl
          (some .returned) (fun pc hpc => (Option.some.inj hpc).symm)
  | charging k h hunpaid =>
    cases hout : outcomes k with
    | none =>
      simp only [Journey.tick, Journey.handle, Pc.point, perform, hout, Option.map_none] at ht
      cases ht
    | some outcome =>
      cases outcome with
      | error message =>
        have hfail : Fails outcomes k := ⟨message, hout⟩
        have hall : ∀ i < k + 1, Unpaid payments event ∧ Fails outcomes i := fun i hi => by
          rcases Nat.lt_succ_iff_lt_or_eq.mp hi with hlt | rfl
          · exact h.fails i hlt
          · exact ⟨hunpaid, hfail⟩
        -- A third failure in a row is what `hfew` excludes.
        have hk : k + 1 ≤ 2 := by
          by_contra hcon
          have := h.le
          obtain rfl : k = 2 := by omega
          exact hfew ⟨hunpaid, fun i hi => (hall i hi).2⟩
        rw [tick_fails k _ hfail, Option.some.injEq] at ht
        exact ht ▸ .failing k ⟨hk, hall⟩
      | ok status =>
        simp only [Journey.tick, Journey.handle, Pc.point, perform, hout, Option.map_some,
          afterFire, Op.published, Op.attempts, List.flatMap_nil, List.append_nil,
          Option.some.injEq] at ht
        exact ht ▸ .saving k h status
  | failing k h =>
    rw [tick_retry, Option.some.injEq] at ht
    exact ht ▸ .handed k h
  | handed k h =>
    rw [tick_returned, Option.some.injEq] at ht
    exact ht ▸ .retrying k h
  | retrying k h =>
    rw [tick_expire, Option.some.injEq] at ht
    exact ht ▸ .waiting (k + 1) h
  | saving k h status =>
    simp only [Journey.tick, Journey.handle, Pc.point, perform, Option.map_some, orThrow,
      Op.published, Op.attempts, List.flatMap_nil, List.append_nil, Nat.add_zero,
      Option.some.injEq] at ht
    exact ht ▸ .announcing k h _ _ status
  | announcing k h store id status =>
    simp only [Journey.tick, Journey.handle, Pc.point, perform, Option.map_some,
      Op.published, Op.attempts, List.flatMap_singleton, List.nil_append, Nat.add_zero,
      Option.some.injEq] at ht
    rw [← ht]
    exact .returning k (k + 1) h (Nat.le_refl _) store [result event.orderId status (some id)]
      (fun p hp => by rw [List.mem_singleton.mp hp]; rfl) _ (pending_result _ _ _)
      (some .returned) (fun pc hpc => (Option.some.inj hpc).symm)
  | returning k n h hn store results hresults queues hqueues delivery hdelivery =>
    cases delivery with
    | none =>
      -- No queue holds the message any more, so the journey is over.
      simp only [Journey.tick, Option.map_none, hqueues] at ht
      cases ht
    | some pc =>
      obtain rfl : pc = .returned := hdelivery pc rfl
      rw [Option.map_some, tick_returned, Option.some.injEq] at ht
      rw [← ht]
      exact .returning k n h hn store results hresults queues hqueues none fun pc hpc => by
        cases hpc

/-- What the exchange names say of what was published. -/
theorem published (h : Course outcomes payments event j) :
    ∃ k results, k ≤ 2 ∧ j.attempts ≤ k + 1 ∧ (∀ p ∈ results, p.exchange = Exchange.events) ∧
      j.store.published = retried event k ++ results := by
  cases h with
  | waiting k h => exact ⟨k, [], h.le, Nat.le_succ k, by simp, by simp⟩
  | reading k h => exact ⟨k, [], h.le, Nat.le_succ k, by simp, by simp⟩
  | charging k h => exact ⟨k, [], h.le, Nat.le_succ k, by simp, by simp⟩
  | failing k h => exact ⟨k, [], Nat.le_of_succ_le h.le, Nat.le_refl _, by simp, by simp⟩
  | handed k h => exact ⟨k + 1, [], h.le, Nat.le_succ _, by simp, by simp⟩
  | retrying k h => exact ⟨k + 1, [], h.le, Nat.le_succ _, by simp, by simp⟩
  | saving k h => exact ⟨k, [], h.le, Nat.le_refl _, by simp, by simp⟩
  | announcing k h => exact ⟨k, [], h.le, Nat.le_refl _, by simp, by simp⟩
  | returning k n h hn store results hresults => exact ⟨k, results, h.le, hn, hresults, rfl⟩

end Course

theorem retried_stages (event : PaymentRequestedEvent) {k : ℕ} (hk : k ≤ 2) :
    ((retried event k).filter fun p => p.exchange = .retry).map Publication.routingKey <+:
      ["payment.requested.retry-1", "payment.requested.retry-2", "payment.requested.retry-3"] := by
  have hkeys : ((retried event k).filter fun p => p.exchange = .retry).map Publication.routingKey =
      ["payment.requested.retry-1", "payment.requested.retry-2"].take k := by
    match k, hk with
    | 0, _ => rfl
    | 1, _ => rfl
    | 2, _ => rfl
  rw [hkeys]
  exact (List.take_prefix _ _).trans ⟨["payment.requested.retry-3"], rfl⟩

theorem retried_dlqs (event : PaymentRequestedEvent) (k : ℕ) :
    (retried event k).countP (fun p => p.exchange = .dlq) = 0 := by
  induction k with
  | zero => rfl
  | succ k ih => rw [retried, List.countP_append, ih]; rfl

/-- **Bounded staged retry holds exactly when the message does not fail three times.** -/
theorem stagedRetry_iff (outcomes : ℕ → Option GatewayOutcome) (payments : List Payment)
    (event : PaymentRequestedEvent) :
    StagedRetry outcomes payments event ↔
      ¬ (Unpaid payments event ∧ ∀ i < 3, Fails outcomes i) := by
  refine ⟨fun h hmany => not_stagedRetry hmany.1 hmany.2 h, fun hfew => ?_⟩
  have hcourse : ∀ j, Visited outcomes payments event j → Course outcomes payments event j := by
    intro j hj
    refine hj.invariant (I := Course outcomes payments event) ?_
      fun _ _ _ hinv _ ht => hinv.tick hfew ht
    rintro j rfl
    exact .waiting 0 ⟨Nat.zero_le 2, fun i hi => absurd hi (Nat.not_lt_zero i)⟩
  refine ⟨fun j hj => ?_, fun j hj => ?_, fun j hj => ?_, fun hunpaid hfail => ?_⟩
  · obtain ⟨k, results, hk, hn, -⟩ := (hcourse j hj).published
    exact hn.trans (Nat.succ_le_succ (hk.trans (by decide)))
  · obtain ⟨k, results, hk, -, hresults, hpub⟩ := (hcourse j hj).published
    have hnone : results.filter (fun p => p.exchange = .retry) = [] :=
      List.filter_eq_nil_iff.mpr fun p hp => by rw [hresults p hp]; decide
    rw [Journey.stages, hpub, List.filter_append, hnone, List.append_nil]
    exact retried_stages event hk
  · obtain ⟨k, results, -, -, hresults, hpub⟩ := (hcourse j hj).published
    have hnone : results.countP (fun p => p.exchange = .dlq) = 0 :=
      List.countP_eq_zero.mpr fun p hp => by rw [hresults p hp]; decide
    rw [Journey.dlqs, hpub, List.countP_append, retried_dlqs, hnone]
    exact Nat.zero_le 1
  · exact absurd ⟨hunpaid, fun i hi => hfail i (Nat.lt_succ_of_lt hi)⟩ hfew

/-- A gateway that always fails: the message goes to `retry-1`, then to `retry-2` twice. -/
theorem not_stagedRetry_of_failures :
    ¬ ∀ outcomes payments event, StagedRetry outcomes payments event := by
  intro h
  exact not_stagedRetry (fun row hrow => by cases hrow) (fun i _ => ⟨"timeout", rfl⟩)
    (h (fun _ => some (.error "timeout")) [] ⟨"o", "c", 10⟩)

end Payments

end Ecommerce
