import Ecommerce.Common.Coercion
import Ecommerce.Inventory.Reserve
/-!
# Inventory-service on requests nobody has validated

The handlers once more, with a quantity what the request carried: any JSON
value. `reserve` takes its `Number`, and stores it as it came; `confirm`
and `release` hand the stored value to `decrement`, which asks `isNaN` of
it and writes its text into the statement. What Postgres makes of the text
is a parameter, `evaluate`.
-/

namespace Ecommerce

namespace Inventory

namespace Unvalidated

open Js (Value Numeric)

/-- One line of a reservation. -/
structure ReservedItem where
  productId : ProductId
  quantity : Value

/-- A row of `reservations`, named by its unique `orderId`. -/
structure Reservation where
  items : List ReservedItem
  status : ReservationStatus

/-- The database of the service. -/
structure Tables where
  stock : Stock
  reservations : Table OrderId Reservation

instance : EmptyCollection Tables := ⟨⟨∅, ∅⟩⟩

/-- The statements the handlers send. -/
inductive Op
  /-- `reservationRepository.findOne({ where: { orderId } })`. -/
  | findReservation (orderId : OrderId)
  /-- `BEGIN` -/
  | begin
  /-- `COMMIT` -/
  | commit
  /-- `ROLLBACK` -/
  | rollback
  /-- `manager.findOne(StockItem, { where: { productId } })`. -/
  | findStock (productId : ProductId)
  /-- The `INSERT` of a `manager.save` without an id. -/
  | insertStock (productId : ProductId) (row : StockItem)
  /-- The conditional `UPDATE` of `reserve`. -/
  | increaseReserved (productId : ProductId) (quantity : ℤ)
  /-- `manager.decrement(StockItem, { productId }, column, value)`. -/
  | decrement (productId : ProductId) (column : StockColumn) (value : Value)
  /-- The `INSERT` of a reservation. -/
  | insertReservation (orderId : OrderId) (row : Reservation)
  /-- The `SELECT` by which `manager.save` finds out what changed. -/
  | loadReservation (orderId : OrderId)
  /-- The `UPDATE` of the one changed column. -/
  | updateStatus (orderId : OrderId) (status : ReservationStatus)

/-- What each statement answers. `increaseReserved` answers `result.affected`. -/
@[reducible]
def Ans : Op → Type
  | .findReservation _ => Option Reservation
  | .findStock _ => Option StockItem
  | .increaseReserved _ _ => ℕ
  | .loadReservation _ => Option Reservation
  | _ => Unit

/-- A computation of the service. -/
abbrev Prog := Program Op Ans Failure

/-- Send a statement and await its answer. -/
abbrev query (op : Op) : Prog (Ans op) := Program.await op

/-! ## The handlers -/

/-- `dataSource.transaction(body)`. -/
def transaction {α : Type} (body : Prog α) : Prog α := do
  try
    query .begin
    let result ← body
    query .commit
    pure result
  catch err =>
    try query .rollback catch _ => pure ()
    throw err

/-- `InventoryService.ensureStockExists`. -/
def ensureStockExists (productId : ProductId) : Prog Unit := do
  let existing ← query (.findStock productId)
  match existing with
  | some _ => pure ()
  | none => query (.insertStock productId ⟨DEFAULT_STOCK_QUANTITY, 0⟩)

/-- `Number(value)`. -/
def number (value : Value) : Prog Numeric :=
  match value.toNumber with
  | some x => pure x
  | none => throw (.error "Cannot convert object to primitive value")

/-- `Number.isInteger(quantity) && quantity > 0`. -/
def validNumber : Numeric → Bool
  | .finite q => validQuantity q
  | _ => false

/-- The integer a valid number is. -/
def integer : Numeric → ℤ
  | .finite q => q.num
  | _ => 0

/-- The body of `reserve`'s loop over `request.items`. -/
def reserveItem (item : ReservedItem) : Prog Unit := do
  let quantity ← number item.quantity
  if validNumber quantity then
    ensureStockExists item.productId
    let affected ← query (.increaseReserved item.productId (integer quantity))
    if affected = 0 then throw (.insufficientStock item.productId) else pure ()
  else throw (.insufficientStock item.productId)

/-- The loop. -/
def reserveItems : List ReservedItem → Prog Unit
  | [] => pure ()
  | item :: rest => do
    reserveItem item
    reserveItems rest

/-- `InventoryService.reserve`. -/
def reserve (orderId : OrderId) (items : List ReservedItem) (redelivered : Bool) :
    Prog Reply := do
  if redelivered then pure (.nack false)
  else
    try
      let existing ← query (.findReservation orderId)
      match existing with
      | some row => pure (.result ⟨decide (row.status ≠ .released), none⟩)
      | none =>
        transaction do
          reserveItems items
          query (.insertReservation orderId ⟨items, .reserved⟩)
        pure (.result ⟨true, none⟩)
    catch err => pure (reserveFailed err)

/-- `manager.save(Reservation, reservation)` of a loaded row whose `status` was
assigned: the columns that differ from the stored ones are written. -/
def saveReservation (orderId : OrderId) (row : Reservation) : Prog Unit := do
  let stored ← query (.loadReservation orderId)
  match stored with
  | some old =>
    if old.status = row.status then pure () else query (.updateStatus orderId row.status)
  | none => query (.insertReservation orderId row)

/-- `confirm`'s loop over `reservation.items`. -/
def confirmItems : List ReservedItem → Prog Unit
  | [] => pure ()
  | item :: rest => do
    query (.decrement item.productId .availableQuantity item.quantity)
    query (.decrement item.productId .reservedQuantity item.quantity)
    confirmItems rest

/-- `InventoryService.confirm`. -/
def confirm (orderId : OrderId) (redelivered : Bool) : Prog Reply := do
  if redelivered then pure (.nack false)
  else
    try
      let reservation ← query (.findReservation orderId)
      match reservation with
      | none => pure (.result ⟨false, some "reservation_not_found"⟩)
      | some row =>
        if row.status = .confirmed then pure (.result ⟨true, none⟩)
        else
          transaction do
            confirmItems row.items
            saveReservation orderId { row with status := .confirmed }
          pure (.result ⟨true, none⟩)
    catch err => pure (settleFailed err)

/-- `release`'s loop over `reservation.items`. -/
def releaseItems : List ReservedItem → Prog Unit
  | [] => pure ()
  | item :: rest => do
    query (.decrement item.productId .reservedQuantity item.quantity)
    releaseItems rest

/-- `InventoryService.release`. -/
def release (orderId : OrderId) (redelivered : Bool) : Prog Reply := do
  if redelivered then pure (.nack false)
  else
    try
      let reservation ← query (.findReservation orderId)
      match reservation with
      | none => pure (.result ⟨true, none⟩)
      | some row =>
        if row.status ≠ .reserved then pure (.result ⟨true, none⟩)
        else
          transaction do
            releaseItems row.items
            saveReservation orderId { row with status := .released }
          pure (.result ⟨true, none⟩)
    catch err => pure (settleFailed err)

/-! ## The database -/

/-- The committed database and the uncommitted writes of one transaction. -/
structure Session where
  db : Tables
  tx : Tables

namespace Session

variable {s : Session}

/-- What the session reads. -/
def view (s : Session) : Tables :=
  ⟨s.tx.stock ∪ s.db.stock, s.tx.reservations ∪ s.db.reservations⟩

/-- Write a stock row. -/
def writeStock (s : Session) (p : ProductId) (row : StockItem) : Session :=
  { s with tx := { s.tx with stock := s.tx.stock.insert p row } }

/-- Write a reservation row. -/
def writeReservation (s : Session) (o : OrderId) (row : Reservation) : Session :=
  { s with tx := { s.tx with reservations := s.tx.reservations.insert o row } }

/-- Forget the uncommitted writes. -/
def discard (s : Session) : Session := { s with tx := ∅ }

theorem view_of_empty (h : s.tx = ∅) : s.view = s.db := by
  change Tables.mk _ _ = _
  rw [h]
  exact congrArg₂ Tables.mk Finmap.empty_union Finmap.empty_union

@[simp] theorem view_writeStock (p : ProductId) (row : StockItem) :
    (s.writeStock p row).view.stock = s.view.stock.insert p row :=
  Finmap.insert_union.symm

@[simp] theorem view_writeReservation (o : OrderId) (row : Reservation) :
    (s.writeReservation o row).view.reservations = s.view.reservations.insert o row :=
  Finmap.insert_union.symm

end Session

/-- The largest value of an integer column, and of a parameter compared with one. -/
def INT_MAX : ℤ := 2147483647

/-- **What Postgres does for a statement.** A rejected statement aborts its transaction.
`evaluate` is what it makes of the text after `column - `: `none` where it rejects the statement,
and else the new value of the column as a function of the old one. -/
def perform (evaluate : String → Option (ℤ → ℤ)) : (op : Op) → Session →
    Except Failure (Ans op) × Session
  | .findReservation o, s => (.ok (s.view.reservations.lookup o), s)
  | .begin, s => (.ok (), s.discard)
  | .commit, s => (.ok (), ⟨s.view, ∅⟩)
  | .rollback, s => (.ok (), s.discard)
  | .findStock p, s => (.ok (s.view.stock.lookup p), s)
  | .insertStock p row, s =>
    match s.view.stock.lookup p with
    | some _ => (.error uniqueViolation, s.discard)
    | none => (.ok (), s.writeStock p row)
  | .increaseReserved p q, s =>
    if INT_MAX < q then (.error (.error "value is out of range for type integer"), s.discard)
    else
      match s.view.stock.lookup p with
      | some row =>
        if q ≤ row.availableQuantity - row.reservedQuantity then
          (.ok 1, s.writeStock p (row.set .reservedQuantity (row.reservedQuantity + q)))
        else (.ok 0, s)
      | none => (.ok 0, s)
  | .decrement p c v, s =>
    -- `decrement` itself asks `isNaN(value)` before it sends anything.
    match v.toNumber with
    | none => (.error (.error "Cannot convert object to primitive value"), s)
    | some .nan => (.error (.error "Value is not a number"), s)
    | some _ =>
      match v.toText.bind evaluate with
      | none => (.error (.error "statement rejected"), s.discard)
      | some f =>
        match s.view.stock.lookup p with
        | some row => (.ok (), s.writeStock p (row.set c (f (row.col c))))
        | none => (.ok (), s)
  | .insertReservation o row, s =>
    match s.view.reservations.lookup o with
    | some _ => (.error uniqueViolation, s.discard)
    | none => (.ok (), s.writeReservation o row)
  | .loadReservation o, s => (.ok (s.view.reservations.lookup o), s)
  | .updateStatus o status, s =>
    match s.view.reservations.lookup o with
    | some row => (.ok (), s.writeReservation o { row with status := status })
    | none => (.ok (), s)

/-- Handle one request to completion. -/
def serve (evaluate : String → Option (ℤ → ℤ)) (handler : Prog Reply) (db : Tables) :
    Except Failure Reply × Tables :=
  (handler.run (perform evaluate) ⟨db, ∅⟩).map id Session.db

end Unvalidated

end Inventory

end Ecommerce
