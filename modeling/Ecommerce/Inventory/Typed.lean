import Ecommerce.Common.Lockstep
import Ecommerce.Inventory.Readback
import Ecommerce.Inventory.Runs
/-!
# Requests whose quantities are numbers

The typed handlers of inventory-service take a quantity to be a number, the
unvalidated ones whatever the request carried. `represents_runOf` proves
that they are one service on the requests of the declared type, as long as
a quantity fits the column: over any list of them the two leave the same
tables. The handlers go in lockstep, and Postgres answers matching
statements alike.
-/

namespace Ecommerce

namespace Inventory

namespace Unvalidated

open Js (Value)
open Program (Lockstep)

/-- A line with a number. -/
def ofItem (item : Inventory.ReservedItem) : ReservedItem := ⟨item.productId, .number item.quantity⟩

/-- A row of such lines. -/
def ofReservation (row : Inventory.Reservation) : Reservation :=
  ⟨row.items.map ofItem, row.status⟩

/-- The handler of a request of the declared type. -/
def handler : Request → Prog Reply
  | .reserve o items b => reserve o (items.map ofItem) b
  | .confirm o b => confirm o b
  | .release o b => release o b

/-- A line `reserve` has accepted. -/
def InRange (item : Inventory.ReservedItem) : Prop :=
  validQuantity item.quantity = true ∧ item.quantity.num ≤ INT_MAX

/-- A request whose quantities fit the column. -/
def Fitting (req : Request) : Prop := ∀ item ∈ req.items, item.quantity.num ≤ INT_MAX

/-- **The same rows**, with the quantities of the reservations as JSON values. -/
structure Represents (db : Inventory.Tables) (db' : Tables) : Prop where
  stock : db'.stock = db.stock
  reservations : ∀ o, db'.reservations.lookup o = (db.reservations.lookup o).map ofReservation
  inRange : ∀ o row, db.reservations.lookup o = some row → ∀ item ∈ row.items, InRange item

/-! ## Statements -/

/-- The same statement. -/
inductive Matches : Inventory.Op → Op → Prop
  | findReservation (o : OrderId) : Matches (.findReservation o) (.findReservation o)
  | begin : Matches .begin .begin
  | commit : Matches .commit .commit
  | rollback : Matches .rollback .rollback
  | findStock (p : ProductId) : Matches (.findStock p) (.findStock p)
  | insertStock (p : ProductId) (row : StockItem) : Matches (.insertStock p row) (.insertStock p row)
  | increaseReserved (p : ProductId) {q : ℤ} (h : q ≤ INT_MAX) :
    Matches (.increaseReserved p q) (.increaseReserved p q)
  | decrement {item : Inventory.ReservedItem} (c : StockColumn) (h : InRange item) :
    Matches (.decrement item.productId c item.quantity)
      (.decrement item.productId c (.number item.quantity))
  | insertReservation (o : OrderId) (row : Inventory.Reservation)
    (h : ∀ item ∈ row.items, InRange item) :
    Matches (.insertReservation o row) (.insertReservation o (ofReservation row))
  | loadReservation (o : OrderId) : Matches (.loadReservation o) (.loadReservation o)
  | updateStatus (o : OrderId) (status : ReservationStatus) :
    Matches (.updateStatus o status) (.updateStatus o status)

/-- The same reservation, or none. -/
def Found (found : Option Inventory.Reservation) (found' : Option Reservation) : Prop :=
  found' = found.map ofReservation ∧ ∀ row, found = some row → ∀ item ∈ row.items, InRange item

/-- The same answer. -/
def Answers : (op : Inventory.Op) → (op' : Op) → Inventory.Ans op → Ans op' → Prop
  | .findReservation _, .findReservation _, found, found' => Found found found'
  | .loadReservation _, .loadReservation _, found, found' => Found found found'
  | .findStock _, .findStock _, row, row' => row = row'
  | .increaseReserved _ _, .increaseReserved _ _, affected, affected' => affected = affected'
  | _, _, _, _ => True

/-! ## The handlers -/

/-- Two computations of the service in lockstep. -/
abbrev InStep {α α' : Type} (R : α → α' → Prop) : Inventory.Prog α → Prog α' → Prop :=
  Lockstep Matches Answers R

section Handlers

variable {item : Inventory.ReservedItem} {items : List Inventory.ReservedItem}

theorem inStep_query {op : Inventory.Op} {op' : Op} (h : Matches op op') :
    InStep (Answers op op') (Inventory.query op) (query op') := .awaited h

theorem inStep_transaction {α α' : Type} {R : α → α' → Prop} {body : Inventory.Prog α}
    {body' : Prog α'} (h : InStep R body body') :
    InStep R (Inventory.transaction body) (transaction body') := by
  refine .caught ((inStep_query .begin).andThen fun _ _ _ => h.andThen fun a a' ha => ?_)
    fun e => ?_
  · exact (inStep_query .commit).andThen fun _ _ _ => .returned ha
  · -- Both roll back, and throw on.
    have hback : InStep (Answers .rollback .rollback)
        (tryCatch (Inventory.query .rollback) fun _ => pure ())
        (tryCatch (query .rollback) fun _ => pure ()) :=
      (inStep_query .rollback).caught fun _ => .returned trivial
    exact hback.andThen fun _ _ _ => .thrown e

theorem inStep_ensureStockExists (p : ProductId) :
    InStep (fun _ _ => True) (Inventory.ensureStockExists p) (ensureStockExists p) := by
  refine (inStep_query (.findStock p)).andThen fun row row' hrow => ?_
  obtain rfl : row = row' := hrow
  cases row with
  | none => exact inStep_query (.insertStock p _)
  | some row => exact .returned trivial

/-- A line that goes through is in range. -/
theorem inStep_reserveItem (hmax : item.quantity.num ≤ INT_MAX) :
    InStep (fun _ _ => InRange item) (Inventory.reserveItem item) (reserveItem (ofItem item)) := by
  refine .ite (fun hvalid => ?_) fun _ => .thrown _
  refine (inStep_ensureStockExists item.productId).andThen fun _ _ _ => ?_
  refine (inStep_query (.increaseReserved item.productId hmax)).andThen fun n n' hn => ?_
  obtain rfl : n = n' := hn
  exact .ite (fun _ => .thrown _) fun _ => .returned ⟨hvalid, hmax⟩

theorem inStep_reserveItems (hmax : ∀ item ∈ items, item.quantity.num ≤ INT_MAX) :
    InStep (fun _ _ => ∀ item ∈ items, InRange item) (Inventory.reserveItems items)
      (reserveItems (items.map ofItem)) := by
  induction items with
  | nil => exact .returned nofun
  | cons item rest ih =>
    obtain ⟨hitem, hrest⟩ := List.forall_mem_cons.mp hmax
    refine (inStep_reserveItem hitem).andThen fun _ _ hin => ?_
    exact (ih hrest).imp fun _ _ hall => List.forall_mem_cons.mpr ⟨hin, hall⟩

/-- **`reserve` in lockstep.** -/
theorem inStep_reserve (o : OrderId) (hmax : ∀ item ∈ items, item.quantity.num ≤ INT_MAX)
    (b : Bool) : InStep Eq (Inventory.reserve o items b) (reserve o (items.map ofItem) b) := by
  refine .ite (fun _ => .returned rfl) fun _ => .caught ?_ fun e => .returned rfl
  refine (inStep_query (.findReservation o)).andThen fun found found' hfound => ?_
  obtain ⟨rfl, -⟩ : Found found found' := hfound
  cases found with
  | some row => exact .returned rfl
  | none =>
    refine (inStep_transaction (R := fun _ _ => True) ?_).andThen fun _ _ _ => .returned rfl
    exact (inStep_reserveItems hmax).andThen fun _ _ hall =>
      inStep_query (.insertReservation o ⟨items, .reserved⟩ hall)

/-- A row in range is saved in lockstep. -/
theorem inStep_saveReservation (o : OrderId) (row : Inventory.Reservation)
    (hrow : ∀ item ∈ row.items, InRange item) :
    InStep (fun _ _ => True) (Inventory.saveReservation o row)
      (saveReservation o (ofReservation row)) := by
  refine (inStep_query (.loadReservation o)).andThen fun found found' hfound => ?_
  obtain ⟨rfl, -⟩ : Found found found' := hfound
  cases found with
  | some old =>
    exact .ite (fun _ => .returned trivial) fun _ => inStep_query (.updateStatus o row.status)
  | none => exact inStep_query (.insertReservation o row hrow)

theorem inStep_confirmItems (hall : ∀ item ∈ items, InRange item) :
    InStep (fun _ _ => True) (Inventory.confirmItems items) (confirmItems (items.map ofItem)) := by
  induction items with
  | nil => exact .returned trivial
  | cons item rest ih =>
    obtain ⟨hitem, hrest⟩ := List.forall_mem_cons.mp hall
    refine (inStep_query (.decrement .availableQuantity hitem)).andThen fun _ _ _ => ?_
    exact (inStep_query (.decrement .reservedQuantity hitem)).andThen fun _ _ _ => ih hrest

theorem inStep_releaseItems (hall : ∀ item ∈ items, InRange item) :
    InStep (fun _ _ => True) (Inventory.releaseItems items) (releaseItems (items.map ofItem)) := by
  induction items with
  | nil => exact .returned trivial
  | cons item rest ih =>
    obtain ⟨hitem, hrest⟩ := List.forall_mem_cons.mp hall
    exact (inStep_query (.decrement .reservedQuantity hitem)).andThen fun _ _ _ => ih hrest

/-- **`confirm` in lockstep.** -/
theorem inStep_confirm (o : OrderId) (b : Bool) :
    InStep Eq (Inventory.confirm o b) (confirm o b) := by
  refine .ite (fun _ => .returned rfl) fun _ => .caught ?_ fun e => .returned rfl
  refine (inStep_query (.findReservation o)).andThen fun found found' hfound => ?_
  obtain ⟨rfl, hall⟩ : Found found found' := hfound
  cases found with
  | none => exact .returned rfl
  | some row =>
    refine .ite (fun _ => .returned rfl) fun _ => ?_
    refine (inStep_transaction (R := fun _ _ => True) ?_).andThen fun _ _ _ => .returned rfl
    exact (inStep_confirmItems (hall row rfl)).andThen fun _ _ _ =>
      inStep_saveReservation o ⟨row.items, .confirmed⟩ (hall row rfl)

/-- **`release` in lockstep.** -/
theorem inStep_release (o : OrderId) (b : Bool) :
    InStep Eq (Inventory.release o b) (release o b) := by
  refine .ite (fun _ => .returned rfl) fun _ => .caught ?_ fun e => .returned rfl
  refine (inStep_query (.findReservation o)).andThen fun found found' hfound => ?_
  obtain ⟨rfl, hall⟩ : Found found found' := hfound
  cases found with
  | none => exact .returned rfl
  | some row =>
    refine .ite (fun _ => .returned rfl) fun _ => ?_
    refine (inStep_transaction (R := fun _ _ => True) ?_).andThen fun _ _ _ => .returned rfl
    exact (inStep_releaseItems (hall row rfl)).andThen fun _ _ _ =>
      inStep_saveReservation o ⟨row.items, .released⟩ (hall row rfl)

/-- **The handlers go in lockstep.** -/
theorem inStep_handler {req : Request} (h : Fitting req) :
    InStep Eq (Inventory.handler req) (handler req) := by
  cases req with
  | reserve o items b => exact inStep_reserve o h b
  | confirm o b => exact inStep_confirm o b
  | release o b => exact inStep_release o b

end Handlers

/-! ## The databases -/

/-- Sessions of the two that hold the same rows. -/
structure Agree (s : Inventory.Session) (s' : Session) : Prop where
  db : Represents s.db s'.db
  tx : Represents s.tx s'.tx

section Databases

variable {evaluate : String → Option (ℤ → ℤ)} {db tx : Inventory.Tables} {db' tx' : Tables}
variable {s : Inventory.Session} {s' : Session} {op : Inventory.Op} {op' : Op}

theorem represents_empty : Represents ∅ ∅ where
  stock := rfl
  reservations o := by
    change (∅ : Table OrderId Reservation).lookup o =
      ((∅ : Table OrderId Inventory.Reservation).lookup o).map _
    rw [Finmap.lookup_empty, Finmap.lookup_empty]
    rfl
  inRange o row h := by
    change (∅ : Table OrderId Inventory.Reservation).lookup o = _ at h
    rw [Finmap.lookup_empty] at h
    cases h

/-- Rows over rows. -/
theorem Represents.union (htx : Represents tx tx') (hdb : Represents db db') :
    Represents ⟨tx.stock ∪ db.stock, tx.reservations ∪ db.reservations⟩
      ⟨tx'.stock ∪ db'.stock, tx'.reservations ∪ db'.reservations⟩ where
  stock := by rw [htx.stock, hdb.stock]
  reservations o := by
    rw [Table.lookup_union, Table.lookup_union, htx.reservations, hdb.reservations]
    cases tx.reservations.lookup o <;> rfl
  inRange o row h := by
    rw [Table.lookup_union] at h
    cases hrow : tx.reservations.lookup o with
    | some row' =>
      rw [hrow] at h
      obtain rfl : row' = row := Option.some.inj h
      exact htx.inRange o row' hrow
    | none =>
      rw [hrow] at h
      exact hdb.inRange o row h

theorem Agree.view (h : Agree s s') : Represents s.view s'.view := h.tx.union h.db

theorem Agree.discard (h : Agree s s') : Agree s.discard s'.discard := ⟨h.db, represents_empty⟩

theorem Agree.writeStock (h : Agree s s') (p : ProductId) (row : StockItem) :
    Agree (s.writeStock p row) (s'.writeStock p row) := by
  refine ⟨h.db, ?_, h.tx.reservations, h.tx.inRange⟩
  change s'.tx.stock.insert p row = s.tx.stock.insert p row
  rw [h.tx.stock]

theorem Agree.writeReservation (h : Agree s s') (o : OrderId) {row : Inventory.Reservation}
    (hrow : ∀ item ∈ row.items, InRange item) :
    Agree (s.writeReservation o row) (s'.writeReservation o (ofReservation row)) := by
  refine ⟨h.db, h.tx.stock, fun x => ?_, fun x row' h' => ?_⟩
  · change (s'.tx.reservations.insert o (ofReservation row)).lookup x =
      ((s.tx.reservations.insert o row).lookup x).map ofReservation
    by_cases hx : x = o
    · rw [hx, Finmap.lookup_insert, Finmap.lookup_insert]
      rfl
    · rw [Finmap.lookup_insert_of_ne _ hx, Finmap.lookup_insert_of_ne _ hx]
      exact h.tx.reservations x
  · change (s.tx.reservations.insert o row).lookup x = some row' at h'
    obtain ⟨-, rfl⟩ | ⟨-, hold⟩ := Table.lookup_insert_cases h'
    · exact hrow
    · exact h.tx.inRange x row' hold

/-- A lookup of the one is a lookup of the other. -/
theorem Agree.found (h : Agree s s') (o : OrderId) :
    Found (s.view.reservations.lookup o) (s'.view.reservations.lookup o) :=
  ⟨h.view.reservations o, h.view.inRange o⟩

/-- The text of a quantity in range subtracts it. -/
theorem evaluate_ofItem {item : Inventory.ReservedItem} (hlaw : Lawful evaluate)
    (hin : InRange item) : evaluate (Js.numberText item.quantity) =
      some fun column : ℤ => toInteger (column - item.quantity) := by
  have hpos : 0 < item.quantity.num := Rat.num_pos.mpr (pos_of_valid hin.1)
  have heval := evaluate_numberText hlaw hpos hin.2
  rw [num_of_valid hin.1] at heval
  refine heval.trans (congrArg some (funext fun column => ?_))
  have hcast : (column : ℚ) - item.quantity = ((column - item.quantity.num : ℤ) : ℚ) := by
    rw [Int.cast_sub, num_of_valid hin.1]
  rw [hcast, toInteger_intCast]

/-- **Postgres answers the same statements alike.** -/
theorem perform_matches (hlaw : Lawful evaluate) (h : Matches op op') (hs : Agree s s') :
    Results (Answers op op') (Inventory.perform op s).1 (perform evaluate op' s').1 ∧
      Agree (Inventory.perform op s).2 (perform evaluate op' s').2 := by
  have hstock : s'.view.stock = s.view.stock := hs.view.stock
  cases h with
  | findReservation o => exact ⟨.ok (hs.found o), hs⟩
  | begin => exact ⟨.ok trivial, hs.discard⟩
  | commit => exact ⟨.ok trivial, hs.view, represents_empty⟩
  | rollback => exact ⟨.ok trivial, hs.discard⟩
  | findStock p => exact ⟨.ok (congrArg (Finmap.lookup p) hstock.symm), hs⟩
  | insertStock p row =>
    simp only [Inventory.perform, perform, hstock]
    cases s.view.stock.lookup p with
    | some row' => exact ⟨.error _, hs.discard⟩
    | none => exact ⟨.ok trivial, hs.writeStock p row⟩
  | @increaseReserved p q hq =>
    simp only [Inventory.perform, perform, hstock, if_neg hq.not_gt]
    cases s.view.stock.lookup p with
    | some row =>
      dsimp only
      split
      · exact ⟨.ok rfl, hs.writeStock p _⟩
      · exact ⟨.ok rfl, hs⟩
    | none => exact ⟨.ok rfl, hs⟩
  | @decrement item c hin =>
    have hnumber : (Value.number item.quantity).toNumber = some (.finite item.quantity) := rfl
    have hnan : Js.Numeric.finite item.quantity ≠ .nan := by
      intro heq
      cases heq
    rw [perform_decrement hnumber hnan rfl (evaluate_ofItem hlaw hin), hstock]
    simp only [Inventory.perform]
    cases s.view.stock.lookup item.productId with
    | some row => exact ⟨.ok trivial, hs.writeStock _ _⟩
    | none => exact ⟨.ok trivial, hs⟩
  | insertReservation o row hrow =>
    have hfound := (hs.found o).1
    simp only [Inventory.perform, perform, hfound]
    cases s.view.reservations.lookup o with
    | some row' => exact ⟨.error _, hs.discard⟩
    | none => exact ⟨.ok trivial, hs.writeReservation o hrow⟩
  | loadReservation o => exact ⟨.ok (hs.found o), hs⟩
  | updateStatus o status =>
    have hfound := hs.found o
    simp only [Inventory.perform, perform, hfound.1]
    cases hrow : s.view.reservations.lookup o with
    | some row => exact ⟨.ok trivial, hs.writeReservation o (hfound.2 row hrow)⟩
    | none => exact ⟨.ok trivial, hs⟩

end Databases

/-! ## The same service -/

section Service

variable {evaluate : String → Option (ℤ → ℤ)} {db : Inventory.Tables} {db' : Tables} {req : Request}

/-- **A request of numbers is handled alike.** -/
theorem serve_represents (hlaw : Lawful evaluate) (h : Represents db db') (hreq : Fitting req) :
    (serve evaluate (handler req) db').1 = (Inventory.serve [] req db).1 ∧
      Represents (Inventory.serve [] req db).2 (serve evaluate (handler req) db').2 := by
  -- No statement of the typed service is rejected either.
  let S (t : Inventory.Session × List Bool) (s' : Session) : Prop := t.2 = [] ∧ Agree t.1 s'
  have henv : ∀ op op' t s', Matches op op' → S t s' →
      Results (Answers op op') (performWith op t).1 (perform evaluate op' s').1 ∧
        S (performWith op t).2 (perform evaluate op' s').2 := by
    rintro op op' ⟨s, faults⟩ s' hop ⟨rfl, hs⟩
    obtain ⟨hresults, hagree⟩ := perform_matches hlaw hop hs
    exact ⟨hresults, rfl, hagree⟩
  have hstart : S (⟨db, ∅⟩, []) ⟨db', ∅⟩ := ⟨rfl, h, represents_empty⟩
  obtain ⟨hresult, -, hagree⟩ := (inStep_handler hreq).run henv hstart
  exact ⟨hresult.eq, hagree.db⟩

/-- The tables after a list of requests, each handled to completion before the next. -/
def runOf (evaluate : String → Option (ℤ → ℤ)) (reqs : List Request) : Tables :=
  reqs.foldl (fun db req => (serve evaluate (handler req) db).2) ∅

/-- **Over any list of such requests the two leave the same tables.** -/
theorem represents_runOf (hlaw : Lawful evaluate) {reqs : List Request}
    (hreqs : ∀ req ∈ reqs, Fitting req) :
    Represents (Inventory.runOf reqs) (runOf evaluate reqs) := by
  induction reqs using List.reverseRecOn with
  | nil => exact represents_empty
  | append_singleton reqs req ih =>
    have hinit := ih fun r hr => hreqs r (List.mem_append_left _ hr)
    have hlast := hreqs req (List.mem_append_right _ List.mem_cons_self)
    rw [runOf_append, runOf, List.foldl_append]
    exact (serve_represents hlaw hinit hlast).2

end Service

end Unvalidated

end Inventory

end Ecommerce
