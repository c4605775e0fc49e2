import Ecommerce.Common.Program
import Ecommerce.Common.Table
import Ecommerce.Messaging.Topology
/-!
# Inventory-service — tables and handlers

The two tables of inventory-service and its three RPC handlers, `reserve`,
`confirm` and `release`, as programs over the SQL statements they send.
A quantity is a JSON number, read exactly; a stock column is an integer.
-/

namespace Ecommerce

namespace Inventory

/-- One line of a reservation: `quantity` is whatever number the request carried. -/
structure ReservedItem where
  productId : ProductId
  quantity : ℚ
deriving DecidableEq

/-- The status of a reservation row. -/
inductive ReservationStatus
  | reserved
  | confirmed
  | released
deriving DecidableEq

/-- A row of `reservations`, named by its unique `orderId`. -/
structure Reservation where
  items : List ReservedItem
  status : ReservationStatus
deriving DecidableEq

/-- A row of `stock_items`, named by its unique `productId`. -/
structure StockItem where
  availableQuantity : ℤ
  reservedQuantity : ℤ
deriving DecidableEq

/-- The database of the service. -/
structure Tables where
  stock : Table ProductId StockItem
  reservations : Table OrderId Reservation

instance : EmptyCollection Tables := ⟨⟨∅, ∅⟩⟩

/-- What a handler of the service can throw. -/
inductive Failure
  /-- `InsufficientStockError`. -/
  | insufficientStock (productId : ProductId)
  /-- Any other error, a rejected statement among them. -/
  | error (message : String)
deriving DecidableEq

/-- The reply of an RPC handler. -/
structure RpcResult where
  success : Bool
  reason : Option String
deriving DecidableEq

/-- What a handler returns: a reply, or `new Nack(requeue)`, after which no reply is sent. -/
inductive Reply
  | result (r : RpcResult)
  | nack (requeue : Bool)
deriving DecidableEq

/-- A request of the three RPC queues, with the broker's `redelivered` flag. -/
inductive Request
  | reserve (orderId : OrderId) (items : List ReservedItem) (redelivered : Bool)
  | confirm (orderId : OrderId) (redelivered : Bool)
  | release (orderId : OrderId) (redelivered : Bool)
deriving DecidableEq

namespace Request

/-- The order a request is about. -/
def orderId : Request → OrderId
  | reserve o _ _ => o
  | confirm o _ => o
  | release o _ => o

/-- The lines of a `reserve` request. -/
def items : Request → List ReservedItem
  | reserve _ items _ => items
  | _ => []

/-- Whether a request came through the `inventory.reserve` queue. -/
def isReserve : Request → Bool
  | reserve _ _ _ => true
  | _ => false

/-- The broker's `redelivered` flag. -/
def redelivered : Request → Bool
  | reserve _ _ b => b
  | confirm _ b => b
  | release _ b => b

end Request

/-! ## Statements -/

/-- The integer columns of `stock_items`. -/
inductive StockColumn
  | availableQuantity
  | reservedQuantity
deriving DecidableEq

/-- The statements the handlers send. -/
inductive Op
  /-- `reservationRepository.findOne({ where: { orderId } })`. -/
  | findReservation (orderId : OrderId)
  /-- `BEGIN` -/
  | begin
  /-- `COMMIT` -/
  | commit
  /-- `ROLLBACK` -/
  | rollback
  /-- `manager.findOne(StockItem, { where: { productId } })`. -/
  | findStock (productId : ProductId)
  /-- The `INSERT` of a `manager.save` without an id. -/
  | insertStock (productId : ProductId) (row : StockItem)
  /-- `SET "reservedQuantity" = "reservedQuantity" + q WHERE "productId" = p AND
  "availableQuantity" - "reservedQuantity" >= q`. -/
  | increaseReserved (productId : ProductId) (quantity : ℤ)
  /-- `manager.decrement(StockItem, { productId }, column, value)`. -/
  | decrement (productId : ProductId) (column : StockColumn) (value : ℚ)
  /-- The `INSERT` of a reservation. -/
  | insertReservation (orderId : OrderId) (row : Reservation)
  /-- The `SELECT` by which `manager.save` finds out what changed. -/
  | loadReservation (orderId : OrderId)
  /-- The `UPDATE` of the one changed column. -/
  | updateStatus (orderId : OrderId) (status : ReservationStatus)
deriving DecidableEq

/-- What each statement answers. `increaseReserved` answers `result.affected`. -/
@[reducible]
def Ans : Op → Type
  | .findReservation _ => Option Reservation
  | .begin => Unit
  | .commit => Unit
  | .rollback => Unit
  | .findStock _ => Option StockItem
  | .insertStock _ _ => Unit
  | .increaseReserved _ _ => ℕ
  | .decrement _ _ _ => Unit
  | .insertReservation _ _ => Unit
  | .loadReservation _ => Option Reservation
  | .updateStatus _ _ => Unit

/-- A computation of the service. -/
abbrev Prog := Program Op Ans Failure

/-- Send a statement and await its answer. -/
abbrev query (op : Op) : Prog (Ans op) := Program.await op

/-! ## The handlers -/

/-- Units a product starts with when it is first seen. -/
def DEFAULT_STOCK_QUANTITY : ℤ := 1000

/-- `Number.isInteger(quantity) && quantity > 0`. -/
def validQuantity (quantity : ℚ) : Bool := quantity.isInt && decide (0 < quantity)

/-- `dataSource.transaction(body)`. -/
def transaction {α : Type} (body : Prog α) : Prog α := do
  try
    query .begin
    let result ← body
    query .commit
    pure result
  catch err =>
    try query .rollback catch _ => pure ()
    throw err

/-- `InventoryService.ensureStockExists`. -/
def ensureStockExists (productId : ProductId) : Prog Unit := do
  let existing ← query (.findStock productId)
  match existing with
  | some _ => pure ()
  | none => query (.insertStock productId ⟨DEFAULT_STOCK_QUANTITY, 0⟩)

/-- The body of `reserve`'s loop over `request.items`. -/
def reserveItem (item : ReservedItem) : Prog Unit := do
  if validQuantity item.quantity then
    ensureStockExists item.productId
    let affected ← query (.increaseReserved item.productId item.quantity.num)
    if affected = 0 then throw (.insufficientStock item.productId) else pure ()
  else throw (.insufficientStock item.productId)

/-- The loop. -/
def reserveItems : List ReservedItem → Prog Unit
  | [] => pure ()
  | item :: rest => do
    reserveItem item
    reserveItems rest

/-- The reply `reserve`'s `catch` sends. -/
def reserveFailed : Failure → Reply
  | .insufficientStock p => .result ⟨false, some ("insufficient_stock:" ++ p)⟩
  | .error _ => .result ⟨false, some "internal_error"⟩

/-- `InventoryService.reserve`. -/
def reserve (orderId : OrderId) (items : List ReservedItem) (redelivered : Bool) :
    Prog Reply := do
  if redelivered then pure (.nack false)
  else
    try
      let existing ← query (.findReservation orderId)
      match existing with
      | some row => pure (.result ⟨decide (row.status ≠ .released), none⟩)
      | none =>
        transaction do
          reserveItems items
          query (.insertReservation orderId ⟨items, .reserved⟩)
        pure (.result ⟨true, none⟩)
    catch err => pure (reserveFailed err)

/-- `manager.save(Reservation, reservation)` of a loaded row whose `status` was
assigned: the columns that differ from the stored ones are written. -/
def saveReservation (orderId : OrderId) (row : Reservation) : Prog Unit := do
  let stored ← query (.loadReservation orderId)
  match stored with
  | some old =>
    if old.status = row.status then pure () else query (.updateStatus orderId row.status)
  | none => query (.insertReservation orderId row)

/-- `confirm`'s loop over `reservation.items`. -/
def confirmItems : List ReservedItem → Prog Unit
  | [] => pure ()
  | item :: rest => do
    query (.decrement item.productId .availableQuantity item.quantity)
    query (.decrement item.productId .reservedQuantity item.quantity)
    confirmItems rest

/-- The reply the `catch` of `confirm` and of `release` sends. -/
def settleFailed (_ : Failure) : Reply := .result ⟨false, some "internal_error"⟩

/-- `InventoryService.confirm`. -/
def confirm (orderId : OrderId) (redelivered : Bool) : Prog Reply := do
  if redelivered then pure (.nack false)
  else
    try
      let reservation ← query (.findReservation orderId)
      match reservation with
      | none => pure (.result ⟨false, some "reservation_not_found"⟩)
      | some row =>
        if row.status = .confirmed then pure (.result ⟨true, none⟩)
        else
          transaction do
            confirmItems row.items
            saveReservation orderId { row with status := .confirmed }
          pure (.result ⟨true, none⟩)
    catch err => pure (settleFailed err)

/-- `release`'s loop over `reservation.items`. -/
def releaseItems : List ReservedItem → Prog Unit
  | [] => pure ()
  | item :: rest => do
    query (.decrement item.productId .reservedQuantity item.quantity)
    releaseItems rest

/-- `InventoryService.release`. -/
def release (orderId : OrderId) (redelivered : Bool) : Prog Reply := do
  if redelivered then pure (.nack false)
  else
    try
      let reservation ← query (.findReservation orderId)
      match reservation with
      | none => pure (.result ⟨true, none⟩)
      | some row =>
        if row.status ≠ .reserved then pure (.result ⟨true, none⟩)
        else
          transaction do
            releaseItems row.items
            saveReservation orderId { row with status := .released }
          pure (.result ⟨true, none⟩)
    catch err => pure (settleFailed err)

/-- The handler of a request. -/
def handler : Request → Prog Reply
  | .reserve o items b => reserve o items b
  | .confirm o b => confirm o b
  | .release o b => release o b

end Inventory

end Ecommerce
