import Ecommerce.Common.Program
import Ecommerce.Messaging.Topology
/-!
# Payment-service — the handler of `payment.requested`

The handler as a program over what it awaits (the payments table, the
gateway behind its breaker, the broker), and the table of its program
points. `laysOut` proves the table is the handler.
-/

namespace Ecommerce

namespace Payments

/-- A row of `payments`. -/
structure Payment where
  id : ℕ
  orderId : OrderId
  customerId : CustomerId
  amount : ℚ
  status : PaymentStatus
deriving DecidableEq

/-- What the handler awaits. -/
inductive Op
  /-- `paymentRepository.findOne({ where: { orderId } })`. -/
  | findPayment (orderId : OrderId)
  /-- `amqpConnection.publish`. -/
  | publish (p : Publication)
  /-- `gatewayBreaker.fire(amount)`. -/
  | fire (amount : ℚ)
  /-- `paymentRepository.save(paymentRepository.create({ .. }))`. -/
  | savePayment (orderId : OrderId) (customerId : CustomerId) (amount : ℚ)
    (status : PaymentStatus)
deriving DecidableEq

/-- What each of them resolves to. -/
@[reducible]
def Ans : Op → Type
  | .findPayment _ => Option Payment
  | .publish _ => Unit
  | .fire _ => PaymentStatus
  | .savePayment _ _ _ _ => Payment

/-- A computation of the service; it throws the message of an error. -/
abbrev Prog := Program Op Ans String

/-- Await one of them. -/
abbrev query (op : Op) : Prog (Ans op) := Program.await op

def MAX_RETRIES : ℕ := 3

/-- `xDeath?.[0]?.count ?? 0`. -/
def retryCount (xDeath : List Death) : ℕ := (xDeath.head?.map Death.count).getD 0

/-- The routing key of a result. -/
def resultKey : PaymentStatus → String
  | .success => "payment.succeeded"
  | .failed => "payment.failed"

/-- The event `publishResult` publishes. -/
def result (orderId : OrderId) (status : PaymentStatus) (paymentId : Option ℕ) : Publication :=
  ⟨.events, resultKey status, .paymentResult ⟨orderId, paymentId, status⟩⟩

/-- The message handed to a staged retry queue. -/
def toRetry (event : PaymentRequestedEvent) (xDeath : List Death) : Publication :=
  ⟨.retry, "payment.requested.retry-" ++ toString (retryCount xDeath + 1),
    .paymentRequested event⟩

/-- The message moved to the DLQ. -/
def toDlq (event : PaymentRequestedEvent) : Publication :=
  ⟨.dlq, "payment.requested", .paymentRequested event⟩

/-- `PaymentService.publishResult`: a failing publish is logged. -/
def publishResult (orderId : OrderId) (status : PaymentStatus) (paymentId : Option ℕ) :
    Prog Unit := do
  try query (.publish (result orderId status paymentId)) catch _ => pure ()

/-- The gateway call behind the breaker, or the hand-over to a retry queue. -/
def chargeOrRetry (event : PaymentRequestedEvent) (xDeath : List Death) :
    Prog (Option PaymentStatus) := do
  try
    let status ← query (.fire event.total)
    pure (some status)
  catch _ =>
    query (.publish (toRetry event xDeath))
    pure none

/-- What is done with the gateway's answer. -/
def record (event : PaymentRequestedEvent) (status : PaymentStatus) : Prog Unit := do
  let payment ← query (.savePayment event.orderId event.customerId event.total status)
  publishResult event.orderId status (some payment.id)

/-- `PaymentService.processPaymentRequested`. -/
def processPaymentRequested (event : PaymentRequestedEvent) (xDeath : List Death) :
    Prog Unit := do
  let existing ← query (.findPayment event.orderId)
  match existing with
  | some _ => pure ()
  | none =>
    if retryCount xDeath ≥ MAX_RETRIES then
      query (.publish (toDlq event))
      publishResult event.orderId .failed none
    else
      let status ← chargeOrRetry event xDeath
      match status with
      | none => pure ()
      | some status => record event status

/-- `PaymentService.handlePaymentRequested`: the tracing span around it ends with it, and what it
throws is thrown on. -/
def handlePaymentRequested (event : PaymentRequestedEvent) (xDeath : List Death) : Prog Unit :=
  processPaymentRequested event xDeath

/-! ## Program points -/

/-- Where the handler stands. -/
inductive Pc
  /-- The idempotency read. -/
  | find
  /-- The publish to the DLQ. -/
  | publishDlq
  /-- `payment.failed` for a message that went to the DLQ. -/
  | publishGivenUp
  /-- The gateway call. -/
  | fire
  /-- The publish to a retry queue. -/
  | publishRetry
  /-- The insert of the payment. -/
  | save (status : PaymentStatus)
  /-- The result of a saved payment. -/
  | publishSaved (id : ℕ) (status : PaymentStatus)
  /-- The handler returned; the message is about to be acked. -/
  | returned
  /-- The handler threw; the message is requeued. -/
  | thrown (message : String)
deriving DecidableEq

/-- Go on with the answer, or throw. -/
def orThrow {α : Type} (next : α → Pc) : Except String α → Pc
  | .ok a => next a
  | .error message => .thrown message

/-- What the idempotency read decides. -/
def afterFind (xDeath : List Death) : Option Payment → Pc
  | some _ => .returned
  | none => if retryCount xDeath ≥ MAX_RETRIES then .publishDlq else .fire

/-- What the gateway's answer decides. -/
def afterFire : Except String PaymentStatus → Pc
  | .ok status => .save status
  | .error _ => .publishRetry

/-- **The table of points.** -/
def Pc.point (event : PaymentRequestedEvent) (xDeath : List Death) :
    Pc → Point Op Ans String Unit Pc
  | .find => .wait (.findPayment event.orderId) (orThrow (afterFind xDeath))
  | .publishDlq => .wait (.publish (toDlq event)) (orThrow fun _ => .publishGivenUp)
  | .publishGivenUp => .wait (.publish (result event.orderId .failed none)) fun _ => .returned
  | .fire => .wait (.fire event.total) afterFire
  | .publishRetry => .wait (.publish (toRetry event xDeath)) (orThrow fun _ => .returned)
  | .save status => .wait (.savePayment event.orderId event.customerId event.total status)
      (orThrow fun payment => .publishSaved payment.id status)
  | .publishSaved id status =>
    .wait (.publish (result event.orderId status (some id))) fun _ => .returned
  | .returned => .stop (.ok ())
  | .thrown message => .stop (.error message)

/-- The program left to run at a point. -/
def Pc.code (event : PaymentRequestedEvent) (xDeath : List Death) : Pc → Prog Unit
  | .find => processPaymentRequested event xDeath
  | .publishDlq => do
    query (.publish (toDlq event))
    publishResult event.orderId .failed none
  | .publishGivenUp => publishResult event.orderId .failed none
  | .fire => do
    let status ← chargeOrRetry event xDeath
    match status with
    | none => pure ()
    | some status => record event status
  | .publishRetry => query (.publish (toRetry event xDeath))
  | .save status => record event status
  | .publishSaved id status => publishResult event.orderId status (some id)
  | .returned => pure ()
  | .thrown message => throw message

/-- **The table of points is the handler.** -/
theorem laysOut (event : PaymentRequestedEvent) (xDeath : List Death) :
    LaysOut (Pc.point event xDeath) (Pc.code event xDeath) := by
  intro pc
  cases pc with
  | returned => rfl
  | thrown message => rfl
  | find =>
    refine congrArg (Program.call _) (funext fun r => ?_)
    rcases r with message | _ | row
    · rfl
    · change (if retryCount xDeath ≥ MAX_RETRIES then _ else _) =
        Pc.code event xDeath (if _ then _ else _)
      split <;> rfl
    · rfl
  | fire =>
    refine congrArg (Program.call _) (funext fun r => ?_)
    rcases r with message | status
    · refine congrArg (Program.call _) (funext fun r => ?_)
      cases r <;> rfl
    · rfl
  | _ =>
    refine congrArg (Program.call _) (funext fun r => ?_)
    cases r <;> rfl

end Payments

end Ecommerce
