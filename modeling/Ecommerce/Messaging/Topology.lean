import Mathlib.Data.Rat.Defs
/-!
# Messages and the broker

The events the services exchange, the queues they sit in and the routes
between them: an exchange delivers a message to every queue bound under
its routing key, and a message that expires in a staged retry queue is
dead-lettered to the queue's target with an entry in its `x-death` header.
-/

namespace Ecommerce

/-- The text of an order's uuid. -/
abbrev OrderId := String

/-- A product's business key. -/
abbrev ProductId := String

/-- A customer's id. -/
abbrev CustomerId := String

/-- A priced line of an order. -/
structure OrderItem where
  productId : ProductId
  quantity : ℚ
  price : ℚ
deriving DecidableEq

/-- `order.created`. -/
structure OrderCreatedEvent where
  orderId : OrderId
  customerId : CustomerId
  total : ℚ
  items : List OrderItem
deriving DecidableEq

/-- `payment.requested`. -/
structure PaymentRequestedEvent where
  orderId : OrderId
  customerId : CustomerId
  total : ℚ
deriving DecidableEq

/-- `'SUCCESS' | 'FAILED'`. -/
inductive PaymentStatus
  | success
  | failed
deriving DecidableEq

/-- `payment.succeeded` and `payment.failed`. `paymentId` names a row of `payments`. -/
structure PaymentResultEvent where
  orderId : OrderId
  paymentId : Option ℕ
  status : PaymentStatus
deriving DecidableEq

/-- The status of an order. -/
inductive OrderStatus
  | pending
  | inventoryReserved
  | completed
  | cancelled
deriving DecidableEq

/-- What a message carries. -/
inductive Body
  | orderCreated (event : OrderCreatedEvent)
  | paymentRequested (event : PaymentRequestedEvent)
  | paymentResult (event : PaymentResultEvent)
  | statusChanged (orderId : OrderId) (customerId : CustomerId) (status : OrderStatus)
deriving DecidableEq

/-- The topic exchanges. -/
inductive Exchange
  /-- `ecommerce.events` -/
  | events
  /-- `ecommerce.events.retry` -/
  | retry
  /-- `ecommerce.events.dlq` -/
  | dlq
deriving DecidableEq

/-- What a service hands to the broker. -/
structure Publication where
  exchange : Exchange
  routingKey : String
  body : Body
deriving DecidableEq

/-- The durable queues between order-service and payment-service. -/
inductive Queue
  /-- `saga.order-created-queue` -/
  | orderCreated
  /-- `payment.requested-queue` -/
  | paymentRequested
  /-- `payment.requested-queue.retry-1` -/
  | retry1
  /-- `payment.requested-queue.retry-2` -/
  | retry2
  /-- `payment.requested-queue.retry-3` -/
  | retry3
  /-- `payment.requested-queue.dlq` -/
  | dlq
  /-- `saga.payment-succeeded-queue` -/
  | paymentSucceeded
  /-- `saga.payment-failed-queue` -/
  | paymentFailed
deriving DecidableEq

namespace Queue

/-- Every queue. -/
def all : List Queue :=
  [orderCreated, paymentRequested, retry1, retry2, retry3, dlq, paymentSucceeded, paymentFailed]

/-- The exchange and the routing key a queue is bound to. -/
def binding : Queue → Exchange × String
  | orderCreated => (.events, "order.created")
  | paymentRequested => (.events, "payment.requested")
  | retry1 => (.retry, "payment.requested.retry-1")
  | retry2 => (.retry, "payment.requested.retry-2")
  | retry3 => (.retry, "payment.requested.retry-3")
  | dlq => (.dlq, "payment.requested")
  | paymentSucceeded => (.events, "payment.succeeded")
  | paymentFailed => (.events, "payment.failed")

/-- `x-dead-letter-exchange` and `x-dead-letter-routing-key` of a queue whose
messages expire. -/
def deadLetter : Queue → Option (Exchange × String)
  | retry1 => some (.events, "payment.requested")
  | retry2 => some (.events, "payment.requested")
  | retry3 => some (.events, "payment.requested")
  | _ => none

end Queue

/-- The queues an exchange delivers a message with this routing key to. -/
def route (exchange : Exchange) (routingKey : String) : List Queue :=
  Queue.all.filter fun q => q.binding = (exchange, routingKey)

/-- Why a message was dead-lettered. -/
inductive DeathReason
  | expired
  | rejected
deriving DecidableEq

/-- An entry of the `x-death` header. -/
structure Death where
  queue : Queue
  reason : DeathReason
  count : ℕ
deriving DecidableEq

/-- A message in a queue with its `x-death` header. -/
structure Message where
  body : Body
  xDeath : List Death
deriving DecidableEq

/-- The header after one more death: the entry of its queue and reason is put
first and counts one more. -/
def recordDeath (queue : Queue) (reason : DeathReason) (xDeath : List Death) : List Death :=
  let here : Death → Bool := fun d => d.queue = queue ∧ d.reason = reason
  ⟨queue, reason, ((xDeath.find? here).map Death.count).getD 0 + 1⟩ ::
    xDeath.filter fun d => !here d

/-- What the broker makes of a publication: a message carries only the headers
given to `publish`, and the services give none. -/
def Publication.deliver (p : Publication) : List (Queue × Message) :=
  (route p.exchange p.routingKey).map fun q => (q, ⟨p.body, []⟩)

/-- What the broker makes of a message whose TTL is over. -/
def expire (queue : Queue) (m : Message) : List (Queue × Message) :=
  match queue.deadLetter with
  | some (exchange, routingKey) =>
    (route exchange routingKey).map fun q => (q, ⟨m.body, recordDeath queue .expired m.xDeath⟩)
  | none => []

/-- A routing key leads to one queue. -/
theorem route_binding (q : Queue) : route q.binding.1 q.binding.2 = [q] := by
  cases q <;> decide

end Ecommerce
