import Ecommerce.Inventory.Model
/-!
# The handlers, statement by statement

A handler of inventory-service between two statements is at a `Pc`: what
it will send next and the local variables it still needs. `Pc.point` is
the table of those points and `laysOut` proves it is the three handlers,
so that an interleaving of handlers is an interleaving of points.
-/

namespace Ecommerce

namespace Inventory

/-- Where a handler stands: the statement it is about to send, or its reply. -/
inductive Pc
  /-- `reservationRepository.findOne` of any of the three handlers. -/
  | find
  /-- `reserve`: `BEGIN`. -/
  | reserveBegin
  /-- `ensureStockExists` looks for the row of `item`. -/
  | reserveFind (item : ReservedItem) (rest : List ReservedItem)
  /-- `ensureStockExists` seeds the row of `item`. -/
  | reserveSeed (item : ReservedItem) (rest : List ReservedItem)
  /-- The conditional `UPDATE` for `item`. -/
  | reserveUpdate (item : ReservedItem) (rest : List ReservedItem)
  /-- The `INSERT` of the reservation. -/
  | reserveInsert
  /-- `reserve`: `COMMIT`. -/
  | reserveCommit
  /-- `confirm` and `release`: `BEGIN`, with the reservation that was read. -/
  | settleBegin (row : Reservation)
  /-- `confirm` takes `item` off `availableQuantity`. -/
  | settleAvailable (row : Reservation) (item : ReservedItem) (rest : List ReservedItem)
  /-- `confirm` and `release` take `item` off `reservedQuantity`. -/
  | settleReserved (row : Reservation) (item : ReservedItem) (rest : List ReservedItem)
  /-- The `SELECT` of `manager.save(Reservation, reservation)`. -/
  | settleLoad (row : Reservation)
  /-- Its `UPDATE`. -/
  | settleStore (row : Reservation)
  /-- Its `INSERT`, when the row is gone. -/
  | settleInsert (row : Reservation)
  /-- `confirm` and `release`: `COMMIT`. -/
  | settleCommit (row : Reservation)
  /-- `ROLLBACK` after `cause`, which is thrown on. -/
  | rollback (cause : Failure)
  /-- The handler returned. -/
  | returned (reply : Reply)
deriving DecidableEq

/-- The reply of the handler's outer `catch`. -/
def failed : Request → Failure → Reply
  | .reserve _ _ _, err => reserveFailed err
  | .confirm _ _, err => settleFailed err
  | .release _ _, err => settleFailed err

/-- The status `confirm` and `release` assign. -/
def target : Request → ReservationStatus
  | .confirm _ _ => .confirmed
  | _ => .released

/-- The reply every handler ends with when it did its work. -/
def succeeded : Reply := .result ⟨true, none⟩

/-- What the status read before the transaction decides. -/
def afterFind : Request → Option Reservation → Pc
  | .reserve _ _ _, some row => .returned (.result ⟨decide (row.status ≠ .released), none⟩)
  | .reserve _ _ _, none => .reserveBegin
  | .confirm _ _, none => .returned (.result ⟨false, some "reservation_not_found"⟩)
  | .confirm _ _, some row =>
    if row.status = .confirmed then .returned succeeded else .settleBegin row
  | .release _ _, none => .returned succeeded
  | .release _ _, some row =>
    if row.status ≠ .reserved then .returned succeeded else .settleBegin row

/-- The next line of `reserve`'s loop. -/
def nextLine : List ReservedItem → Pc
  | [] => .reserveInsert
  | item :: rest =>
    if validQuantity item.quantity then .reserveFind item rest
    else .rollback (.insufficientStock item.productId)

/-- The next line of `confirm`'s or `release`'s loop. -/
def nextItem (req : Request) (row : Reservation) : List ReservedItem → Pc
  | [] => .settleLoad row
  | item :: rest =>
    match req with
    | .confirm _ _ => .settleAvailable row item rest
    | _ => .settleReserved row item rest

/-- Continue with the answer, or roll back what a rejected statement left. -/
def orRollback {α : Type} (next : α → Pc) : Except Failure α → Pc
  | .ok a => next a
  | .error err => .rollback err

/-- Go on once `ensureStockExists` has looked for the row. -/
def afterStock (item : ReservedItem) (rest : List ReservedItem) : Option StockItem → Pc
  | some _ => .reserveUpdate item rest
  | none => .reserveSeed item rest

/-- Go on once the conditional `UPDATE` has answered how many rows it changed. -/
def afterUpdate (item : ReservedItem) (rest : List ReservedItem) (affected : ℕ) : Pc :=
  if affected = 0 then .rollback (.insufficientStock item.productId) else nextLine rest

/-- Go on once `manager.save` has read the stored row. -/
def afterLoad (req : Request) (row : Reservation) : Option Reservation → Pc
  | some old => if old.status = target req then .settleCommit row else .settleStore row
  | none => .settleInsert row

/-- Continue with the status read, or fail. -/
def orFail (req : Request) (next : Option Reservation → Pc) :
    Except Failure (Option Reservation) → Pc
  | .ok existing => next existing
  | .error err => .returned (failed req err)

/-- **The table of points.** -/
def Pc.point (req : Request) : Pc → Point Op Ans Failure Reply Pc
  | .find => .wait (.findReservation req.orderId) (orFail req (afterFind req))
  | .reserveBegin => .wait .begin (orRollback fun _ => nextLine req.items)
  | .reserveFind item rest => .wait (.findStock item.productId) (orRollback (afterStock item rest))
  | .reserveSeed item rest =>
    .wait (.insertStock item.productId ⟨DEFAULT_STOCK_QUANTITY, 0⟩)
      (orRollback fun _ => .reserveUpdate item rest)
  | .reserveUpdate item rest =>
    .wait (.increaseReserved item.productId item.quantity.num)
      (orRollback (afterUpdate item rest))
  | .reserveInsert =>
    .wait (.insertReservation req.orderId ⟨req.items, .reserved⟩)
      (orRollback fun _ => .reserveCommit)
  | .reserveCommit => .wait .commit (orRollback fun _ => .returned succeeded)
  | .settleBegin row => .wait .begin (orRollback fun _ => nextItem req row row.items)
  | .settleAvailable row item rest =>
    .wait (.decrement item.productId .availableQuantity item.quantity)
      (orRollback fun _ => .settleReserved row item rest)
  | .settleReserved row item rest =>
    .wait (.decrement item.productId .reservedQuantity item.quantity)
      (orRollback fun _ => nextItem req row rest)
  | .settleLoad row => .wait (.loadReservation req.orderId) (orRollback (afterLoad req row))
  | .settleStore row =>
    .wait (.updateStatus req.orderId (target req)) (orRollback fun _ => .settleCommit row)
  | .settleInsert row =>
    .wait (.insertReservation req.orderId { row with status := target req })
      (orRollback fun _ => .settleCommit row)
  | .settleCommit _ => .wait .commit (orRollback fun _ => .returned succeeded)
  | .rollback cause => .wait .rollback fun _ => .returned (failed req cause)
  | .returned reply => .stop (.ok reply)

/-- The point a handler enters at. -/
def Request.start (req : Request) : Pc :=
  if req.redelivered then .returned (.nack false) else .find

/-- Whether a handler has returned. -/
def Pc.isReturned : Pc → Bool
  | .returned _ => true
  | _ => false

/-- A handler that awaits an answer has not returned. -/
theorem not_returned_of_wait {req : Request} {pc : Pc} {op : Op}
    {next : Except Failure (Ans op) → Pc} (h : pc.point req = .wait op next) (reply : Reply) :
    pc ≠ .returned reply := by
  rintro rfl
  cases h

/-! ## The table is the handlers -/

/-- The rest of a handler whose transaction is open and still has `body` to run. -/
def inTransaction (req : Request) (body : Prog Unit) : Prog Reply := do
  try
    try
      body
      query .commit
    catch err =>
      try query .rollback catch _ => pure ()
      throw err
    pure succeeded
  catch err => pure (failed req err)

/-- The handler from its `dataSource.transaction(body)` on. -/
def transactionOf (req : Request) (body : Prog Unit) : Prog Reply := do
  try
    transaction body
    pure succeeded
  catch err => pure (failed req err)

/-- What `reserve` still does in the transaction when the lines `items` are left. -/
def reserveRest (req : Request) (items : List ReservedItem) : Prog Unit := do
  reserveItems items
  query (.insertReservation req.orderId ⟨req.items, .reserved⟩)

/-- The conditional `UPDATE` of a line and its check. -/
def updateItem (item : ReservedItem) : Prog Unit := do
  let affected ← query (.increaseReserved item.productId item.quantity.num)
  if affected = 0 then throw (.insufficientStock item.productId) else pure ()

/-- What `reserve` still does in the transaction after `ensureStockExists` of a line. -/
def updateRest (req : Request) (item : ReservedItem) (rest : List ReservedItem) : Prog Unit := do
  updateItem item
  reserveRest req rest

/-- The loop of `confirm` or of `release`. -/
def settleItems : Request → List ReservedItem → Prog Unit
  | .confirm _ _, items => confirmItems items
  | _, items => releaseItems items

/-- What `confirm` or `release` still does in the transaction when `items` are left. -/
def settleRest (req : Request) (row : Reservation) (items : List ReservedItem) : Prog Unit := do
  settleItems req items
  saveReservation req.orderId { row with status := target req }

/-- A handler past its `redelivered` check. -/
def undelivered : Request → Prog Reply
  | .reserve o items _ => reserve o items false
  | .confirm o _ => confirm o false
  | .release o _ => release o false

/-- The program left to run at a point. -/
def Pc.code (req : Request) : Pc → Prog Reply
  | .find => undelivered req
  | .reserveBegin => transactionOf req (reserveRest req req.items)
  | .reserveFind item rest => inTransaction req do
      ensureStockExists item.productId
      updateRest req item rest
  | .reserveSeed item rest => inTransaction req do
      query (.insertStock item.productId ⟨DEFAULT_STOCK_QUANTITY, 0⟩)
      updateRest req item rest
  | .reserveUpdate item rest => inTransaction req (updateRest req item rest)
  | .reserveInsert => inTransaction req (reserveRest req [])
  | .reserveCommit => inTransaction req (pure ())
  | .settleBegin row => transactionOf req (settleRest req row row.items)
  | .settleAvailable row item rest => inTransaction req do
      query (.decrement item.productId .availableQuantity item.quantity)
      query (.decrement item.productId .reservedQuantity item.quantity)
      settleRest req row rest
  | .settleReserved row item rest => inTransaction req do
      query (.decrement item.productId .reservedQuantity item.quantity)
      settleRest req row rest
  | .settleLoad row => inTransaction req (settleRest req row [])
  | .settleStore _ => inTransaction req (query (.updateStatus req.orderId (target req)))
  | .settleInsert row =>
    inTransaction req (query (.insertReservation req.orderId { row with status := target req }))
  | .settleCommit _ => inTransaction req (pure ())
  | .rollback cause => do
    try query .rollback catch _ => pure ()
    pure (failed req cause)
  | .returned reply => pure reply

/-- **A handler is the program of its first point.** -/
theorem handler_eq_code (req : Request) : handler req = req.start.code req := by
  cases req with
  | reserve o items b => cases b <;> rfl
  | confirm o b => cases b <;> rfl
  | release o b => cases b <;> rfl

theorem inTransaction_throw (req : Request) (err : Failure) :
    inTransaction req (.done (.error err)) = (Pc.rollback err).code req := by
  simp only [inTransaction, Pc.code, Program.done_error_bind, Program.tryCatch_done_error,
    query, Program.await_eq, Program.tryCatch_call, Program.call_bind, Program.pure_eq]
  refine congrArg (Program.call _) (funext fun r => ?_)
  cases r <;> rfl

/-- **One statement of an open transaction.** Its answer is continued with, its
rejection rolls back. -/
theorem inTransaction_call (req : Request) (op : Op) {k : Except Failure (Ans op) → Prog Unit}
    {next : Ans op → Pc} (hok : ∀ a, inTransaction req (k (.ok a)) = (next a).code req)
    (herr : ∀ err, k (.error err) = .done (.error err)) :
    inTransaction req (.call op k) =
      (Point.wait op (orRollback next)).unroll (Pc.code req) := by
  refine congrArg (Program.call _) (funext fun r => ?_)
  cases r with
  | ok a => exact hok a
  | error err => exact (congrArg (inTransaction req) (herr err)).trans (inTransaction_throw req err)

/-- The `COMMIT`. -/
theorem inTransaction_commit (req : Request) :
    inTransaction req (pure ()) =
      (Point.wait .commit (orRollback fun _ => .returned succeeded)).unroll (Pc.code req) := by
  refine congrArg (Program.call _) (funext fun r => ?_)
  cases r with
  | ok u => rfl
  | error err => exact inTransaction_throw req err

/-- A `BEGIN` that was answered leaves the transaction open. -/
theorem transactionOf_eq (req : Request) (body : Prog Unit) :
    transactionOf req body = .call .begin fun
      | .ok _ => inTransaction req body
      | .error err => (Pc.rollback err).code req := by
  have hcommit : ∀ u : Unit, (do query .commit; pure u : Prog Unit) = query .commit := by
    intro u
    refine congrArg (Program.call _) (funext fun r => ?_)
    cases r <;> rfl
  refine congrArg (Program.call _) (funext fun r => ?_)
  cases r with
  | ok u =>
    change (do
      try
        try
          let u ← body
          (do query .commit; pure u : Prog Unit)
        catch err =>
          try query .rollback catch _ => pure ()
          throw err
        pure succeeded
      catch err => pure (failed req err) : Prog Reply) = inTransaction req body
    simp only [hcommit]
    rfl
  | error err => exact inTransaction_throw req err

theorem code_nextLine (req : Request) (items : List ReservedItem) :
    (nextLine items).code req = inTransaction req (reserveRest req items) := by
  cases items with
  | nil => rfl
  | cons item rest =>
    rw [nextLine, reserveRest, reserveItems, reserveItem]
    split
    · simp only [Pc.code, updateRest, updateItem, reserveRest, Program.bind_assoc]
    · exact (inTransaction_throw req _).symm

theorem code_nextItem (req : Request) (row : Reservation) (items : List ReservedItem) :
    (nextItem req row items).code req = inTransaction req (settleRest req row items) := by
  cases items with
  | nil => cases req <;> rfl
  | cons item rest =>
    cases req <;> simp only [nextItem, Pc.code, settleRest, settleItems, confirmItems, releaseItems,
      Program.bind_assoc]

/-- After the status read a handler goes on as the table says. -/
theorem code_afterFind (req : Request) :
    undelivered req = .call (.findReservation req.orderId) fun
      | .ok existing => (afterFind req existing).code req
      | .error err => .done (.ok (failed req err)) := by
  cases req with
  | reserve o items b =>
    refine congrArg (Program.call _) (funext fun r => ?_)
    rcases r with err | _ | row
    · rfl
    · rfl
    · rfl
  | confirm o b =>
    refine congrArg (Program.call _) (funext fun r => ?_)
    rcases r with err | _ | row
    · rfl
    · rfl
    · obtain ⟨items, status⟩ := row
      cases status <;> rfl
  | release o b =>
    refine congrArg (Program.call _) (funext fun r => ?_)
    rcases r with err | _ | row
    · rfl
    · rfl
    · obtain ⟨items, status⟩ := row
      cases status <;> rfl

/-- **The table of points is the program.** -/
theorem laysOut (req : Request) : LaysOut (Pc.point req) (Pc.code req) := by
  intro pc
  cases pc with
  | find =>
    refine (code_afterFind req).trans (congrArg (Program.call _) (funext fun r => ?_))
    cases r <;> rfl
  | reserveBegin =>
    refine (transactionOf_eq req _).trans (congrArg (Program.call _) (funext fun r => ?_))
    cases r with
    | ok u => exact (code_nextLine req req.items).symm
    | error err => rfl
  | reserveFind item rest =>
    rw [Pc.code, ensureStockExists, Program.bind_assoc]
    refine inTransaction_call req _ (fun existing => ?_) fun _ => rfl
    cases existing <;> rfl
  | reserveSeed item rest => exact inTransaction_call req _ (fun _ => rfl) fun _ => rfl
  | reserveUpdate item rest =>
    rw [Pc.code, updateRest, updateItem, Program.bind_assoc]
    refine inTransaction_call req _ (fun affected => ?_) fun _ => rfl
    cases affected with
    | zero => exact inTransaction_throw req _
    | succ n => exact (code_nextLine req rest).symm
  | reserveInsert => exact inTransaction_call req _ (fun _ => rfl) fun _ => rfl
  | reserveCommit => exact inTransaction_commit req
  | settleBegin row =>
    refine (transactionOf_eq req _).trans (congrArg (Program.call _) (funext fun r => ?_))
    cases r with
    | ok u => exact (code_nextItem req row row.items).symm
    | error err => rfl
  | settleAvailable row item rest => exact inTransaction_call req _ (fun _ => rfl) fun _ => rfl
  | settleReserved row item rest =>
    exact inTransaction_call req _ (fun _ => (code_nextItem req row rest).symm) fun _ => rfl
  | settleLoad row =>
    have hload : Pc.code req (.settleLoad row) =
        inTransaction req (saveReservation req.orderId { row with status := target req }) := by
      cases req <;> rfl
    rw [hload, saveReservation]
    refine inTransaction_call req _ (fun stored => ?_) fun _ => rfl
    cases stored with
    | none => rfl
    | some old =>
      change inTransaction req (if old.status = target req then pure () else
        query (.updateStatus req.orderId (target req))) = _
      simp only [afterLoad]
      split
      · rfl
      · rfl
  | settleStore row => exact inTransaction_call req _ (fun _ => rfl) fun _ => rfl
  | settleInsert row => exact inTransaction_call req _ (fun _ => rfl) fun _ => rfl
  | settleCommit row => exact inTransaction_commit req
  | rollback cause =>
    refine congrArg (Program.call _) (funext fun r => ?_)
    cases r <;> rfl
  | returned reply => rfl

end Inventory

end Ecommerce
