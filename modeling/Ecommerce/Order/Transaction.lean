import Ecommerce.Common.Program
import Ecommerce.Common.Table
import Ecommerce.Order.Model
/-!
# Order-service — the transaction of an order

`createOrder` as a program over what it awaits: the catalog's prices
behind their breaker, and the statements of the transaction that writes
the order and its outbox row. `laysOut` proves the table of program points
is the program, and `createOrder_of_priceItems` that what it writes is
what `Orders.createOrder` computes.
-/

namespace Ecommerce

namespace Orders

/-- A row of `outbox_events`. -/
structure OutboxEvent where
  aggregateType : String
  aggregateId : String
  eventType : String
  payload : OrderCreatedEvent
deriving DecidableEq

/-- An order with the id the database has given it. -/
structure Saved where
  id : OrderId
  order : Order
deriving DecidableEq

/-- What `createOrder` awaits. -/
inductive Op
  /-- `priceBreaker.fire({ productIds })`. -/
  | getPrices (productIds : List ProductId)
  /-- `BEGIN` -/
  | begin
  /-- `manager.save(Order, ..)`. -/
  | saveOrder (order : Order)
  /-- `manager.save(OutboxEvent, ..)`. -/
  | saveOutbox (row : OutboxEvent)
  /-- `COMMIT` -/
  | commit
  /-- `ROLLBACK` -/
  | rollback
deriving DecidableEq

/-- What each of them resolves to. -/
@[reducible]
def Ans : Op → Type
  | .getPrices productIds => PricesFor productIds
  | .saveOrder _ => Saved
  | _ => Unit

/-- A computation of the service; it throws the message of an error. -/
abbrev Prog := Program Op Ans String

/-- Await one of them. -/
abbrev query (op : Op) : Prog (Ans op) := Program.await op

/-- `dataSource.transaction(body)`. -/
def transaction {α : Type} (body : Prog α) : Prog α := do
  try
    query .begin
    let result ← body
    query .commit
    pure result
  catch err =>
    try query .rollback catch _ => pure ()
    throw err

/-- The answer of the catalog, or what the call was rejected with. -/
def askPrices (items : List OrderLine) :
    Prog (Except String (PricesFor (items.map OrderLine.productId))) := do
  try
    let result ← query (.getPrices (items.map OrderLine.productId))
    pure (.ok result)
  catch err => pure (.error err)

/-- The event of an order. -/
def eventOf (saved : Saved) : OrderCreatedEvent :=
  ⟨saved.id, saved.order.customerId, saved.order.total, saved.order.items⟩

/-- The outbox row of an order. -/
def outboxOf (saved : Saved) : OutboxEvent := ⟨"Order", saved.id, "order.created", eventOf saved⟩

/-- The order of its priced lines. -/
def orderOf (dto : CreateOrderDto) (items : List OrderItem) : Order :=
  ⟨dto.customerId, items, totalOf items, .pending⟩

/-- `OrderService.createOrder`. -/
def createOrderTx (dto : CreateOrderDto) : Prog Saved := do
  let result ← askPrices dto.items
  let items ← Program.done (priceItems dto.items result)
  transaction do
    let saved ← query (.saveOrder (orderOf dto items))
    query (.saveOutbox (outboxOf saved))
    pure saved

/-! ## Program points -/

/-- Where a call of `createOrder` stands. -/
inductive Pc
  | getPrices
  | begin (items : List OrderItem)
  | saveOrder (items : List OrderItem)
  | saveOutbox (saved : Saved)
  | commit (saved : Saved)
  | rollback (message : String)
  | returned (saved : Saved)
  | thrown (message : String)
deriving DecidableEq

/-- What the prices decide. -/
def afterPrices (dto : CreateOrderDto)
    (result : Except String (PricesFor dto.productIds)) : Pc :=
  match priceItems dto.items result with
  | .ok items => .begin items
  | .error message => .thrown message

/-- Go on in the transaction, or roll it back. -/
def orRollback {α : Type} (next : α → Pc) : Except String α → Pc
  | .ok a => next a
  | .error message => .rollback message

/-- **The table of points.** -/
def Pc.point (dto : CreateOrderDto) : Pc → Point Op Ans String Saved Pc
  | .getPrices => .wait (.getPrices dto.productIds) (afterPrices dto)
  | .begin items => .wait .begin (orRollback fun _ => .saveOrder items)
  | .saveOrder items => .wait (.saveOrder (orderOf dto items)) (orRollback .saveOutbox)
  | .saveOutbox saved => .wait (.saveOutbox (outboxOf saved)) (orRollback fun _ => .commit saved)
  | .commit saved => .wait .commit (orRollback fun _ => .returned saved)
  | .rollback message => .wait .rollback fun _ => .thrown message
  | .returned saved => .stop (.ok saved)
  | .thrown message => .stop (.error message)

/-- A transaction that has begun. -/
def begun {α : Type} (body : Prog α) : Prog α := do
  try
    let result ← body
    query .commit
    pure result
  catch err =>
    try query .rollback catch _ => pure ()
    throw err

/-- The program left to run at a point. -/
def Pc.code (dto : CreateOrderDto) : Pc → Prog Saved
  | .getPrices => createOrderTx dto
  | .begin items => transaction do
    let saved ← query (.saveOrder (orderOf dto items))
    query (.saveOutbox (outboxOf saved))
    pure saved
  | .saveOrder items => begun do
    let saved ← query (.saveOrder (orderOf dto items))
    query (.saveOutbox (outboxOf saved))
    pure saved
  | .saveOutbox saved => begun do
    query (.saveOutbox (outboxOf saved))
    pure saved
  | .commit saved => begun (pure saved)
  | .rollback message => do
    try query .rollback catch _ => pure ()
    throw message
  | .returned saved => pure saved
  | .thrown message => throw message

/-- **The table of points is `createOrder`.** -/
theorem laysOut (dto : CreateOrderDto) : LaysOut (Pc.point dto) (Pc.code dto) := by
  intro pc
  cases pc with
  | returned saved => rfl
  | thrown message => rfl
  | getPrices =>
    refine congrArg (Program.call _) (funext fun r => ?_)
    rw [afterPrices]
    cases r with
    | error message => rfl
    | ok result =>
      change (Program.done (priceItems dto.items (.ok result)) >>= _ : Prog Saved) = _
      cases priceItems dto.items (.ok result) <;> rfl
  | _ =>
    refine congrArg (Program.call _) (funext fun r => ?_)
    cases r <;> rfl

/-- What the transaction writes is the pair `createOrder` computes. -/
theorem createOrder_of_priceItems {dto : CreateOrderDto}
    {result : Except String (PricesFor dto.productIds)}
    {items : List OrderItem} (h : priceItems dto.items result = .ok items) (orderId : OrderId) :
    createOrder orderId dto result =
      .ok (orderOf dto items, eventOf ⟨orderId, orderOf dto items⟩) := by
  rw [createOrder, h]
  rfl

end Orders

end Ecommerce
