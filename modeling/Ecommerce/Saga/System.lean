import Ecommerce.Inventory.Replies
import Ecommerce.Payment.Service
import Ecommerce.Saga.Model
/-!
# The composed saga

`System` is the three databases and everything in flight: outbox rows,
queued messages, RPC requests nobody waits for any more, and the handlers
that are under way. A step creates an order, lets one thing in flight act,
or duplicates a message. Inventory-service handles a request in one atomic
step; the other handlers take a step for each call they await. `React`
says once what acting can do; which faults an environment may inject is
the guard of each result.
-/

namespace Ecommerce

namespace Saga

/-- How far the RPC a handler awaits has come. -/
inductive Rpc
  /-- The breaker has not sent it yet. -/
  | idle
  /-- The request is in inventory-service's queue. -/
  | requested
  /-- The reply is on its way. -/
  | replied (result : Inventory.RpcResult)
  /-- No reply will come. -/
  | lost
deriving DecidableEq

/-- Something in flight. -/
inductive Token
  /-- An outbox row that is not relayed yet. -/
  | outbox (event : OrderCreatedEvent)
  /-- A message in a queue. -/
  | queued (queue : Queue) (m : Message)
  /-- A handler of the orchestrator. -/
  | saga (event : Event) (pc : Pc) (rpc : Rpc)
  /-- An RPC request whose caller has given up. -/
  | request (req : InventoryRpcRequest)
  /-- The handler of `payment.requested`. -/
  | payment (event : PaymentRequestedEvent) (xDeath : List Death) (pc : Payments.Pc)
deriving DecidableEq

/-- The state of the shop. -/
structure System where
  orders : Table OrderId Orders.Order
  inventory : Inventory.Tables
  payments : List Payments.Payment
  flight : Multiset Token

/-- What something in flight does. -/
inductive Choice
  /-- It goes on: the message is delivered, the call is made or resolves. -/
  | go
  /-- Inventory-service handles the request; `faults` says which statements are rejected. -/
  | serve (redelivered : Bool) (faults : List Bool)
  /-- The reply is lost, or the relay passes over the outbox row. -/
  | lose
  /-- What it awaits rejects: the database, the broker, the breaker or a timeout. -/
  | reject (message : String)
  /-- What it awaits rejects, and the message of a handler that throws is not requeued. -/
  | drop (message : String)
  /-- The payment gateway answers. -/
  | charge (status : PaymentStatus)
  /-- The handler's process crashes, and its message is requeued. -/
  | crash
  /-- The TTL of the message is over. -/
  | expire
deriving DecidableEq

/-- A step. -/
inductive Label
  /-- `POST /orders`; `result` is the catalog's answer. -/
  | createOrder (orderId : OrderId) (dto : Orders.CreateOrderDto)
    (result : Except String (Orders.PricesFor dto.productIds))
  /-- Something in flight acts. -/
  | act (t : Token) (c : Choice)
  /-- A message is there once more. -/
  | duplicate (t : Token)

/-! ## What comes of an act -/

namespace Event

/-- The message a handler was started by. -/
def message : Event → Queue × Message
  | created event => (.orderCreated, ⟨.orderCreated event, []⟩)
  | succeeded event => (.paymentSucceeded, ⟨.paymentResult event, []⟩)
  | failed event => (.paymentFailed, ⟨.paymentResult event, []⟩)

end Event

/-- The handler a message starts. -/
def start (queue : Queue) (m : Message) : Option Token :=
  match queue, m.body with
  | .orderCreated, .orderCreated event => some (.saga (.created event) .call .idle)
  | .paymentSucceeded, .paymentResult event => some (.saga (.succeeded event) .call .idle)
  | .paymentFailed, .paymentResult event => some (.saga (.failed event) .call .idle)
  | .paymentRequested, .paymentRequested event => some (.payment event m.xDeath .find)
  | _, _ => none

/-- The request a handler leaves behind that ends while its RPC is under way. -/
def abandoned (event : Event) : Pc → Rpc → Multiset Token
  | .call, .requested => {.request event.request}
  | _, _ => 0

/-- What the caller makes of the reply. -/
def heard : Except Inventory.Failure Inventory.Reply → Rpc
  | .ok (.result r) => .replied r
  | _ => .lost

/-- `order.created`, as the relay publishes it. -/
def orderCreated (event : OrderCreatedEvent) : Publication :=
  ⟨.events, "order.created", .orderCreated event⟩

/-- A handler that goes on to `pc`. A handler that has returned is acked. -/
def goOn (event : Event) : Pc → Multiset Token
  | .returned => 0
  | pc => {.saga event pc .idle}

/-- The payment handler that goes on to `pc`. The message of one that throws is requeued, as it
is by default. -/
def payOn (event : PaymentRequestedEvent) (xDeath : List Death) : Payments.Pc → Multiset Token
  | .returned => 0
  | .thrown _ => {.queued .paymentRequested ⟨.paymentRequested event, xDeath⟩}
  | pc => {.payment event xDeath pc}

/-- What the broker puts in the queues. -/
def delivered (ms : List (Queue × Message)) : Multiset Token :=
  Multiset.ofList (ms.map fun m => Token.queued m.1 m.2)

/-- What a duplicate adds. -/
def Token.copy : Token → Multiset Token
  | .outbox event => {.outbox event}
  | .queued queue m => {.queued queue m}
  | .saga event .call .requested => {.request event.request}
  | .request req => {.request req}
  | _ => 0

namespace System

/-- More is in flight. -/
def add (s : System) (ts : Multiset Token) : System := { s with flight := ts + s.flight }

/-- `UPDATE orders SET status = .. WHERE id = ..`. -/
def setStatus (s : System) (o : OrderId) (status : OrderStatus) : System :=
  match s.orders.lookup o with
  | some order => { s with orders := s.orders.insert o { order with status := status } }
  | none => s

/-- `INSERT INTO payments`. -/
def insertPayment (s : System) (row : Payments.Payment) : System :=
  { s with payments := s.payments ++ [row] }

/-- The stored status of an order. -/
def statusOf (s : System) (o : OrderId) : Option OrderStatus :=
  (s.orders.lookup o).map Orders.Order.status

/-- Inventory-service handles a request. -/
def serve (s : System) (faults : List Bool) (req : Inventory.Request) : System :=
  { s with inventory := (Inventory.serve faults req s.inventory).2 }

/-- What an awaited call of the orchestrator resolves to. -/
def perform (s : System) (rpc : Rpc) : (op : Op) → Option (Except String (Ans op) × System)
  | .callInventory _ =>
    match rpc with
    | .replied r => some (.ok r, s)
    | _ => none
  | .updateStatus o status => some (.ok (), s.setStatus o status)
  | .findOrder o => some (.ok (s.orders.lookup o), s)
  | .publish p => some (.ok (), s.add (delivered p.deliver))

/-- What a handler of the orchestrator awaits resolves. -/
def resolve (s : System) (event : Event) (pc : Pc) (rpc : Rpc) : Option System :=
  match pc.point event with
  | .stop _ => none
  | .wait op next => (s.perform rpc op).map fun answer =>
      answer.2.add (goOn event (next answer.1))

/-- What it awaits rejects. -/
def refuse (s : System) (event : Event) (pc : Pc) (rpc : Rpc) (message : String) :
    Option System :=
  match pc.point event with
  | .stop _ => none
  | .wait _ next => some (s.add (abandoned event pc rpc + goOn event (next (.error message))))

/-- An act of a handler of the orchestrator. -/
def actSaga (s : System) (event : Event) (pc : Pc) (rpc : Rpc) : Choice → Option System
  | .go =>
    if pc = .call ∧ rpc = .idle then some (s.add {.saga event .call .requested})
    else s.resolve event pc rpc
  | .serve redelivered faults =>
    if pc = .call ∧ rpc = .requested then
      let req := event.request.toRequest redelivered
      some ((s.serve faults req).add
        {.saga event .call (heard (Inventory.serve faults req s.inventory).1)})
    else none
  | .lose =>
    match pc, rpc with
    | .call, .replied _ => some (s.add {.saga event .call .lost})
    | _, _ => none
  | .reject message => s.refuse event pc rpc message
  | .crash => some (s.add (abandoned event pc rpc + delivered [event.message]))
  | _ => none

/-- What the payment handler awaits resolves. -/
def resolvePayment (s : System) (event : PaymentRequestedEvent) (xDeath : List Death)
    (pc : Payments.Pc) (outcome : Option Payments.GatewayOutcome) : Option System :=
  match pc.point event xDeath with
  | .stop _ => none
  | .wait op next => (Payments.perform outcome op ⟨s.payments, []⟩).map fun answer =>
      { s with payments := answer.2.payments }.add
        (delivered (answer.2.published.flatMap Publication.deliver) +
          payOn event xDeath (next answer.1))

/-- An act of the payment handler. -/
def actPayment (s : System) (event : PaymentRequestedEvent) (xDeath : List Death)
    (pc : Payments.Pc) : Choice → Option System
  | .go => s.resolvePayment event xDeath pc none
  | .charge status =>
    if pc = .fire then s.resolvePayment event xDeath pc (some (.ok status)) else none
  | .reject message =>
    match pc.point event xDeath with
    | .stop _ => none
    | .wait _ next => some (s.add (payOn event xDeath (next (.error message))))
  | .drop message =>
    match pc.point event xDeath with
    | .stop _ => none
    | .wait _ next =>
      match next (.error message) with
      | .thrown _ => some s
      | _ => none
  | .crash => some (s.add {.queued .paymentRequested ⟨.paymentRequested event, xDeath⟩})
  | _ => none

/-- What acting comes to, for a token that was taken out of `s`. -/
def act (s : System) : Token → Choice → Option System
  | .outbox event, .go => some (s.add (delivered (orderCreated event).deliver))
  | .outbox _, .lose => some s
  | .queued queue m, .go => (start queue m).map fun t => s.add {t}
  | .queued queue m, .expire =>
    if queue.deadLetter.isSome then some (s.add (delivered (expire queue m))) else none
  | .saga event pc rpc, c => s.actSaga event pc rpc c
  | .request req, .serve redelivered faults => some (s.serve faults (req.toRequest redelivered))
  | .payment event xDeath pc, c => s.actPayment event xDeath pc c
  | _, _ => none

/-- The system without one of its tokens. -/
def without (s : System) (t : Token) : System := { s with flight := s.flight.erase t }

/-- A step. An id that is taken is refused by the primary key. -/
def step (s : System) : Label → Option System
  | .createOrder o dto result =>
    match Orders.createOrder o dto result, s.orders.lookup o with
    | .ok (order, event), none =>
      some ({ s with orders := s.orders.insert o order }.add {Token.outbox event})
    | _, _ => none
  | .act t c => if t ∈ s.flight then (s.without t).act t c else none
  | .duplicate t => if t ∈ s.flight then some (s.add t.copy) else none

end System

/-- A shop before its first order, with any stock. -/
structure Opens (s : System) : Prop where
  orders : s.orders = ∅
  reservations : s.inventory.reservations = ∅
  payments : s.payments = []
  flight : s.flight = 0

/-- A shop that sells what it seeds. -/
def newShop : System := ⟨∅, ∅, [], 0⟩

theorem opens_newShop : Opens newShop := ⟨rfl, rfl, rfl, rfl⟩

end Saga

end Ecommerce
