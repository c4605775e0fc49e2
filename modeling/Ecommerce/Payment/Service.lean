import Ecommerce.Common.Pool
import Ecommerce.Payment.Model
/-!
# Deliveries in parallel

`Service` is the payments table, what has been published, and the
deliveries of `payment.requested` messages so far, each with its gateway
call. A step resolves or rejects what one delivery awaits, finishes a
gateway call, whoever still waits for it, crashes a delivery, or acks it.
`step_cases` says once what a step can do.
-/

namespace Ecommerce

namespace Payments

/-- What a gateway call comes back with. -/
abbrev GatewayOutcome := Except String PaymentStatus

/-- The gateway call of a delivery. -/
inductive GatewayCall
  | idle
  | running
  | returned (outcome : GatewayOutcome)

/-- What became of a delivery. -/
inductive Fate
  | live
  | acked
  /-- The process crashed or the handler threw: the message is not acked. -/
  | dead
deriving DecidableEq

/-- One delivery of a message. -/
structure Delivery where
  event : PaymentRequestedEvent
  xDeath : List Death
  pc : Pc
  gateway : GatewayCall
  fate : Fate

/-- The payments table, and everything published, in order. -/
structure Store where
  payments : List Payment
  published : List Publication
deriving DecidableEq

/-- What a call resolves to. `outcome` is what the gateway came back with. -/
def perform (outcome : Option GatewayOutcome) :
    (op : Op) → Store → Option (Except String (Ans op) × Store)
  | .findPayment o, s => some (.ok (s.payments.find? fun row => row.orderId = o), s)
  | .publish p, s => some (.ok (), { s with published := s.published ++ [p] })
  | .fire _, s => outcome.map fun r => (r, s)
  | .savePayment o c amount status, s =>
    let row : Payment := ⟨s.payments.length, o, c, amount, status⟩
    some (.ok row, { s with payments := s.payments ++ [row] })

/-- The state of the service and its replicas. -/
structure Service where
  store : Store
  deliveries : List Delivery

/-- A step. -/
inductive Label
  /-- A message is delivered to some replica. -/
  | deliver (event : PaymentRequestedEvent) (xDeath : List Death)
  /-- What the `i`-th delivery awaits resolves; the gateway call is started first. -/
  | exec (i : ℕ)
  /-- What it awaits rejects: the database, the broker, or the breaker, open or timed out. -/
  | reject (i : ℕ) (message : String)
  /-- The `i`-th delivery's gateway call finishes. -/
  | gateway (i : ℕ) (outcome : GatewayOutcome)
  /-- The `i`-th delivery ends without an ack. -/
  | crash (i : ℕ)
  /-- The `i`-th delivery is acked. -/
  | ack (i : ℕ)
deriving DecidableEq

/-- A gateway call that is not started yet. -/
def Delivery.starts (d : Delivery) : Bool :=
  match d.pc, d.gateway with
  | .fire, .idle => true
  | _, _ => false

/-- What the gateway has answered. -/
def GatewayCall.outcome : GatewayCall → Option GatewayOutcome
  | .returned r => some r
  | _ => none

namespace Service

/-- The state once the `i`-th delivery has moved on. -/
def put (s : Service) (i : ℕ) (store : Store) (d : Delivery) : Service :=
  ⟨store, s.deliveries.set i d⟩

/-- What the `i`-th delivery awaits resolves. -/
def resolve (s : Service) (i : ℕ) (d : Delivery) : Option Service :=
  match d.pc.point d.event d.xDeath with
  | .stop _ => none
  | .wait op next => (perform d.gateway.outcome op s.store).map fun answer =>
      s.put i answer.2 { d with pc := next answer.1 }

/-- What the `i`-th delivery awaits rejects. -/
def refuse (s : Service) (i : ℕ) (d : Delivery) (message : String) : Option Service :=
  match d.pc.point d.event d.xDeath with
  | .stop _ => none
  | .wait _ next => some (s.put i s.store { d with pc := next (.error message) })

/-- A step. -/
def step (s : Service) : Label → Option Service
  | .deliver event xDeath =>
    some { s with deliveries := s.deliveries ++ [⟨event, xDeath, .find, .idle, .live⟩] }
  | .exec i => s.deliveries[i]?.bind fun d =>
    if d.fate ≠ .live then none
    else if d.starts then some (s.put i s.store { d with gateway := .running })
    else s.resolve i d
  | .reject i message => s.deliveries[i]?.bind fun d =>
    if d.fate ≠ .live then none else s.refuse i d message
  | .gateway i outcome => s.deliveries[i]?.bind fun d =>
    match d.gateway with
    | .running => some (s.put i s.store { d with gateway := .returned outcome })
    | _ => none
  | .crash i => s.deliveries[i]?.bind fun d =>
    if d.fate ≠ .live then none else some (s.put i s.store { d with fate := .dead })
  | .ack i => s.deliveries[i]?.bind fun d =>
    if d.fate = .live ∧ d.pc = .returned then some (s.put i s.store { d with fate := .acked })
    else none

end Service

/-- A message of order `"o"`. -/
def someRequest : PaymentRequestedEvent := ⟨"o", "c", 10⟩

/-- An order without a payment is charged, or its message is given up. -/
theorem afterFind_none (xDeath : List Death) :
    afterFind xDeath none = .publishDlq ∨ afterFind xDeath none = .fire := by
  by_cases h : retryCount xDeath ≥ MAX_RETRIES
  · exact .inl (if_pos h)
  · exact .inr (if_neg h)

/-- **What resolving does, point by point.** -/
inductive Resolves (s : Store) (d : Delivery) : Store → Pc → Prop
  | found (row : Payment) (hpc : d.pc = .find)
      (hrow : s.payments.find? (fun row => row.orderId = d.event.orderId) = some row) :
      Resolves s d s .returned
  | notFound (hpc : d.pc = .find)
      (hnone : s.payments.find? (fun row => row.orderId = d.event.orderId) = none) :
      Resolves s d s (afterFind d.xDeath none)
  | toDlq (hpc : d.pc = .publishDlq) :
      Resolves s d ⟨s.payments, s.published ++ [toDlq d.event]⟩ .publishGivenUp
  | gaveUp (hpc : d.pc = .publishGivenUp) :
      Resolves s d ⟨s.payments, s.published ++ [result d.event.orderId .failed none]⟩ .returned
  | fired (outcome : GatewayOutcome) (hpc : d.pc = .fire) (hout : d.gateway = .returned outcome) :
      Resolves s d s (afterFire outcome)
  | toRetry (hpc : d.pc = .publishRetry) :
      Resolves s d ⟨s.payments, s.published ++ [toRetry d.event d.xDeath]⟩ .returned
  | saved (status : PaymentStatus) (hpc : d.pc = .save status) :
      Resolves s d
        ⟨s.payments ++ [⟨s.payments.length, d.event.orderId, d.event.customerId, d.event.total,
          status⟩], s.published⟩ (.publishSaved s.payments.length status)
  | announced (id : ℕ) (status : PaymentStatus) (hpc : d.pc = .publishSaved id status) :
      Resolves s d ⟨s.payments, s.published ++ [result d.event.orderId status (some id)]⟩ .returned

theorem resolves_of_perform {s s' : Store} {d : Delivery} {op : Op}
    {next : Except String (Ans op) → Pc} {answer : Except String (Ans op)}
    (hpt : d.pc.point d.event d.xDeath = .wait op next)
    (hans : perform d.gateway.outcome op s = some (answer, s')) :
    Resolves s d s' (next answer) := by
  obtain ⟨event, xDeath, pc, gateway, fate⟩ := d
  cases pc with
  | find =>
    cases hpt
    obtain ⟨rfl, rfl⟩ := Prod.mk.inj (Option.some.inj hans)
    cases hrow : s.payments.find? fun row => row.orderId = event.orderId with
    | none => exact .notFound rfl hrow
    | some row => exact .found row rfl hrow
  | publishDlq => cases hpt; cases hans; exact .toDlq rfl
  | publishGivenUp => cases hpt; cases hans; exact .gaveUp rfl
  | fire =>
    cases hpt
    obtain ⟨outcome, hout, heq⟩ := Option.map_eq_some_iff.mp hans
    obtain ⟨rfl, rfl⟩ := Prod.mk.inj heq
    cases gateway with
    | returned r =>
      obtain rfl : r = outcome := Option.some.inj hout
      exact .fired r rfl rfl
    | _ => cases hout
  | publishRetry => cases hpt; cases hans; exact .toRetry rfl
  | save status => cases hpt; cases hans; exact .saved status rfl
  | publishSaved id status => cases hpt; cases hans; exact .announced id status rfl
  | returned => cases hpt
  | thrown message => cases hpt

/-- **What a rejection does, point by point.** -/
inductive Refused (d : Delivery) : Pc → Prop
  | throws (message : String) : Refused d (.thrown message)
  | gatewayFails (hpc : d.pc = .fire) : Refused d .publishRetry
  | givenUpLost (hpc : d.pc = .publishGivenUp) : Refused d .returned
  | savedLost (id : ℕ) (status : PaymentStatus) (hpc : d.pc = .publishSaved id status) :
      Refused d .returned

theorem refused_of_point {d : Delivery} {op : Op} {next : Except String (Ans op) → Pc}
    (hpt : d.pc.point d.event d.xDeath = .wait op next) (message : String) :
    Refused d (next (.error message)) := by
  obtain ⟨event, xDeath, pc, gateway, fate⟩ := d
  cases pc with
  | returned => cases hpt
  | thrown message => cases hpt
  | fire => cases hpt; exact .gatewayFails rfl
  | publishGivenUp => cases hpt; exact .givenUpLost rfl
  | publishSaved id status => cases hpt; exact .savedLost id status rfl
  | _ => cases hpt; exact .throws message

/-- **What a step of one delivery does** to the store and to the delivery. -/
inductive Moves (s : Store) (i : ℕ) (d : Delivery) : Label → Store → Delivery → Prop
  | starts (hlive : d.fate = .live) (hpc : d.pc = .fire) (hidle : d.gateway = .idle) :
      Moves s i d (.exec i) s { d with gateway := .running }
  | resolves {s' : Store} {pc : Pc} (hlive : d.fate = .live) (h : Resolves s d s' pc) :
      Moves s i d (.exec i) s' { d with pc := pc }
  | refused {pc : Pc} (message : String) (hlive : d.fate = .live) (h : Refused d pc) :
      Moves s i d (.reject i message) s { d with pc := pc }
  | returns (outcome : GatewayOutcome) (hrun : d.gateway = .running) :
      Moves s i d (.gateway i outcome) s { d with gateway := .returned outcome }
  | crashes (hlive : d.fate = .live) : Moves s i d (.crash i) s { d with fate := .dead }
  | acks (hlive : d.fate = .live) (hpc : d.pc = .returned) :
      Moves s i d (.ack i) s { d with fate := .acked }

theorem starts_iff {d : Delivery} : d.starts = true ↔ d.pc = .fire ∧ d.gateway = .idle := by
  obtain ⟨event, xDeath, pc, gateway, fate⟩ := d
  cases pc <;> cases gateway <;> simp [Delivery.starts]

namespace Service

/-- **What a step can do.** -/
theorem step_cases {s s' : Service} {l : Label} (h : s.step l = some s') :
    (∃ event xDeath, l = .deliver event xDeath ∧
      s' = ⟨s.store, s.deliveries ++ [⟨event, xDeath, .find, .idle, .live⟩]⟩) ∨
    (∃ i d store d', s.deliveries[i]? = some d ∧ Moves s.store i d l store d' ∧
      s' = s.put i store d') := by
  cases l with
  | deliver event xDeath => exact .inl ⟨event, xDeath, rfl, (Option.some.inj h).symm⟩
  | exec i =>
    obtain ⟨d, hd, h⟩ := Option.bind_eq_some_iff.mp h
    split at h
    · cases h
    have hlive : d.fate = .live := not_not.mp ‹_›
    split at h
    · obtain ⟨hpc, hidle⟩ := starts_iff.mp ‹_›
      exact .inr ⟨i, d, _, _, hd, .starts hlive hpc hidle, (Option.some.inj h).symm⟩
    · unfold resolve at h
      split at h
      · cases h
      · obtain ⟨⟨answer, store⟩, hans, hs⟩ := Option.map_eq_some_iff.mp h
        exact .inr ⟨i, d, _, _, hd, .resolves hlive (resolves_of_perform ‹_› hans),
          hs.symm⟩
  | reject i message =>
    obtain ⟨d, hd, h⟩ := Option.bind_eq_some_iff.mp h
    split at h
    · cases h
    have hlive : d.fate = .live := not_not.mp ‹_›
    unfold refuse at h
    split at h
    · cases h
    · exact .inr ⟨i, d, _, _, hd, .refused message hlive (refused_of_point ‹_› message),
        (Option.some.inj h).symm⟩
  | gateway i outcome =>
    obtain ⟨d, hd, h⟩ := Option.bind_eq_some_iff.mp h
    split at h
    · exact .inr ⟨i, d, _, _, hd, .returns outcome ‹_›, (Option.some.inj h).symm⟩
    · cases h
  | crash i =>
    obtain ⟨d, hd, h⟩ := Option.bind_eq_some_iff.mp h
    split at h
    · cases h
    · exact .inr ⟨i, d, _, _, hd, .crashes (not_not.mp ‹_›), (Option.some.inj h).symm⟩
  | ack i =>
    obtain ⟨d, hd, h⟩ := Option.bind_eq_some_iff.mp h
    split at h
    · rename_i hack
      exact .inr ⟨i, d, _, _, hd, .acks hack.1 hack.2, (Option.some.inj h).symm⟩
    · cases h

end Service

end Payments

end Ecommerce
