import Ecommerce.Inventory.Model
import Ecommerce.Order.Model
/-!
# The saga orchestrator

The three handlers of order-service's orchestrator as programs over what
they await: the inventory RPC behind its breaker, the orders table and the
broker. Every handler swallows its errors, so none throws. `laysOut`
proves the table of program points is the handlers.
-/

namespace Ecommerce

namespace Saga

/-- The payload of an inventory RPC. -/
inductive InventoryRpcRequest
  | reserve (orderId : OrderId) (items : List OrderItem)
  | confirm (orderId : OrderId)
  | release (orderId : OrderId)
deriving DecidableEq

/-- The order an RPC is about. -/
def InventoryRpcRequest.orderId : InventoryRpcRequest → OrderId
  | .reserve o _ => o
  | .confirm o => o
  | .release o => o

/-- The request inventory-service receives. It reads `productId` and `quantity` of a line. -/
def InventoryRpcRequest.toRequest (redelivered : Bool) : InventoryRpcRequest → Inventory.Request
  | .reserve o items => .reserve o (items.map fun item => ⟨item.productId, item.quantity⟩) redelivered
  | .confirm o => .confirm o redelivered
  | .release o => .release o redelivered

/-- What a handler awaits. -/
inductive Op
  /-- `breaker.fire({ routingKey, payload })`. -/
  | callInventory (req : InventoryRpcRequest)
  /-- `orderRepository.update({ id: orderId }, { status })`. -/
  | updateStatus (orderId : OrderId) (status : OrderStatus)
  /-- `orderRepository.findOne({ where: { id: orderId } })`. -/
  | findOrder (orderId : OrderId)
  /-- `amqpConnection.publish`. -/
  | publish (p : Publication)
deriving DecidableEq

/-- What each of them resolves to. -/
@[reducible]
def Ans : Op → Type
  | .callInventory _ => Inventory.RpcResult
  | .updateStatus _ _ => Unit
  | .findOrder _ => Option Orders.Order
  | .publish _ => Unit

/-- A computation of the orchestrator. -/
abbrev Prog := Program Op Ans String

/-- Await one of them. -/
abbrev query (op : Op) : Prog (Ans op) := Program.await op

/-! ## The handlers -/

/-- `order.status-changed`. -/
def statusChanged (orderId : OrderId) (customerId : CustomerId) (status : OrderStatus) :
    Publication := ⟨.events, "order.status-changed", .statusChanged orderId customerId status⟩

/-- `SagaOrchestratorService.publishStatusChanged`. -/
def publishStatusChanged (orderId : OrderId) (status : OrderStatus) : Prog Unit := do
  try
    let order ← query (.findOrder orderId)
    match order with
    | none => pure ()
    | some order => query (.publish (statusChanged orderId order.customerId status))
  catch _ => pure ()

/-- `status === COMPLETED || status === CANCELLED`. -/
def isTerminal : OrderStatus → Bool
  | .completed => true
  | .cancelled => true
  | _ => false

/-- The update of the row, and whether it succeeded. -/
def updated (orderId : OrderId) (status : OrderStatus) : Prog Bool := do
  try
    query (.updateStatus orderId status)
    pure true
  catch _ => pure false

/-- `SagaOrchestratorService.setStatus`. -/
def setStatus (orderId : OrderId) (status : OrderStatus) : Prog Unit := do
  let ok ← updated orderId status
  if ok && isTerminal status then publishStatusChanged orderId status else pure ()

/-- The RPC, with `none` for a rejected call. -/
def callInventory (req : InventoryRpcRequest) : Prog (Option Inventory.RpcResult) := do
  try
    let result ← query (.callInventory req)
    pure (some result)
  catch _ => pure none

/-- `payment.requested`. -/
def paymentRequested (request : PaymentRequestedEvent) : Publication :=
  ⟨.events, "payment.requested", .paymentRequested request⟩

/-- The payment an order asks for. -/
def paymentOf (event : OrderCreatedEvent) : PaymentRequestedEvent :=
  ⟨event.orderId, event.customerId, event.total⟩

/-- The publish of `payment.requested`; an error is logged. -/
def requestPayment (request : PaymentRequestedEvent) : Prog Unit := do
  try query (.publish (paymentRequested request)) catch _ => pure ()

/-- `SagaOrchestratorService.handleOrderCreated`. -/
def handleOrderCreated (event : OrderCreatedEvent) : Prog Unit := do
  let reserveResult ← callInventory (.reserve event.orderId event.items)
  match reserveResult with
  | none => setStatus event.orderId .cancelled
  | some result =>
    if result.success then
      setStatus event.orderId .inventoryReserved
      requestPayment (paymentOf event)
    else setStatus event.orderId .cancelled

/-- `SagaOrchestratorService.handlePaymentSucceeded`. -/
def handlePaymentSucceeded (event : PaymentResultEvent) : Prog Unit := do
  let result ← callInventory (.confirm event.orderId)
  match result with
  | none => pure ()
  | some result =>
    if result.success then setStatus event.orderId .completed else pure ()

/-- `SagaOrchestratorService.handlePaymentFailed`: whatever the release came to. -/
def handlePaymentFailed (event : PaymentResultEvent) : Prog Unit := do
  let _ ← callInventory (.release event.orderId)
  setStatus event.orderId .cancelled

/-- The event a handler was started with. -/
inductive Event
  | created (event : OrderCreatedEvent)
  | succeeded (event : PaymentResultEvent)
  | failed (event : PaymentResultEvent)
deriving DecidableEq

/-- The handler of an event. -/
def handler : Event → Prog Unit
  | .created event => handleOrderCreated event
  | .succeeded event => handlePaymentSucceeded event
  | .failed event => handlePaymentFailed event

namespace Event

/-- The order of an event. -/
def orderId : Event → OrderId
  | created event => event.orderId
  | succeeded event => event.orderId
  | failed event => event.orderId

/-- The RPC a handler begins with. -/
def request : Event → InventoryRpcRequest
  | created event => .reserve event.orderId event.items
  | succeeded event => .confirm event.orderId
  | failed event => .release event.orderId

end Event

/-! ## Program points -/

/-- Where a handler stands. -/
inductive Pc
  /-- The inventory RPC. -/
  | call
  /-- The update of the order's status. -/
  | update (status : OrderStatus)
  /-- The order whose customer is told of a terminal status. -/
  | find (status : OrderStatus)
  /-- The publish of `order.status-changed`. -/
  | publishStatus (status : OrderStatus) (customerId : CustomerId)
  /-- The publish of `payment.requested`. -/
  | publishPayment (request : PaymentRequestedEvent)
  /-- The handler returned. -/
  | returned
deriving DecidableEq

/-- What the answer to the RPC decides. -/
def afterCall : Event → Except String Inventory.RpcResult → Pc
  | .created _, .error _ => .update .cancelled
  | .created _, .ok result =>
    if result.success then .update .inventoryReserved else .update .cancelled
  | .succeeded _, .error _ => .returned
  | .succeeded _, .ok result => if result.success then .update .completed else .returned
  | .failed _, _ => .update .cancelled

/-- The handler after its status update: `handleOrderCreated` goes on to the payment
once it has reserved. -/
def afterStatus : Event → OrderStatus → Pc
  | .created event, .inventoryReserved => .publishPayment (paymentOf event)
  | _, _ => .returned

/-- What the status update decides. -/
def afterUpdate (event : Event) (status : OrderStatus) : Except String Unit → Pc
  | .ok _ => if isTerminal status then .find status else afterStatus event status
  | .error _ => afterStatus event status

/-- What the look-up of the order decides. -/
def afterFind (status : OrderStatus) : Except String (Option Orders.Order) → Pc
  | .ok (some order) => .publishStatus status order.customerId
  | _ => .returned

/-- **The table of points.** -/
def Pc.point (event : Event) : Pc → Point Op Ans String Unit Pc
  | .call => .wait (.callInventory event.request) (afterCall event)
  | .update status => .wait (.updateStatus event.orderId status) (afterUpdate event status)
  | .find status => .wait (.findOrder event.orderId) (afterFind status)
  | .publishStatus status customerId =>
    .wait (.publish (statusChanged event.orderId customerId status)) fun _ => .returned
  | .publishPayment request => .wait (.publish (paymentRequested request)) fun _ => .returned
  | .returned => .stop (.ok ())

/-- What `setStatus` is followed by. -/
def thenPay : Event → OrderStatus → Prog Unit
  | .created event, .inventoryReserved => requestPayment (paymentOf event)
  | _, _ => pure ()

/-- The program left to run at a point. -/
def Pc.code (event : Event) : Pc → Prog Unit
  | .call => handler event
  | .update status => do
    setStatus event.orderId status
    thenPay event status
  | .find status => publishStatusChanged event.orderId status
  | .publishStatus status customerId => do
    try query (.publish (statusChanged event.orderId customerId status)) catch _ => pure ()
  | .publishPayment request => requestPayment request
  | .returned => pure ()

/-- A handler ends with `setStatus` once the status is a terminal one. -/
theorem code_update_of_isTerminal (event : Event) (status : OrderStatus)
    (h : isTerminal status = true) :
    Pc.code event (.update status) = setStatus event.orderId status := by
  have hrest : thenPay event status = pure () := by
    cases event <;> cases status <;> first | rfl | cases h
  change (setStatus event.orderId status >>= fun _ => thenPay event status) = _
  rw [hrest]
  exact Program.bind_pure _

/-- **The table of points is the handlers.** -/
theorem laysOut (event : Event) : LaysOut (Pc.point event) (Pc.code event) := by
  intro pc
  cases pc with
  | returned => rfl
  | call =>
    -- The answer decides; `setStatus` ends the handler except on the way to the payment.
    cases event with
    | created event =>
      refine congrArg (Program.call _) (funext fun r => ?_)
      rcases r with message | ⟨_ | _, reason⟩
      · exact (code_update_of_isTerminal (.created event) .cancelled rfl).symm
      · exact (code_update_of_isTerminal (.created event) .cancelled rfl).symm
      · rfl
    | succeeded event =>
      refine congrArg (Program.call _) (funext fun r => ?_)
      rcases r with message | ⟨_ | _, reason⟩
      · rfl
      · rfl
      · exact (code_update_of_isTerminal (.succeeded event) .completed rfl).symm
    | failed event =>
      refine congrArg (Program.call _) (funext fun r => ?_)
      rcases r with message | result
      · exact (code_update_of_isTerminal (.failed event) .cancelled rfl).symm
      · exact (code_update_of_isTerminal (.failed event) .cancelled rfl).symm
  | update status =>
    refine congrArg (Program.call _) (funext fun r => ?_)
    cases event with
    | _ event =>
      cases status <;> rcases r with message | _ <;> try rfl
      all_goals
        refine congrArg (Program.call _) (funext fun r => ?_)
        rcases r with message | _ | order
        · rfl
        · rfl
        · refine congrArg (Program.call _) (funext fun r => ?_)
          cases r <;> rfl
  | find status =>
    refine congrArg (Program.call _) (funext fun r => ?_)
    rcases r with message | _ | order
    · rfl
    · rfl
    · refine congrArg (Program.call _) (funext fun r => ?_)
      cases r <;> rfl
  | publishStatus status customerId =>
    refine congrArg (Program.call _) (funext fun r => ?_)
    cases r <;> rfl
  | publishPayment request =>
    refine congrArg (Program.call _) (funext fun r => ?_)
    cases r <;> rfl

end Saga

end Ecommerce
