import Ecommerce.Inventory.Points
import Mathlib.Algebra.Order.Floor.Ring
import Mathlib.Data.Rat.Floor
import Mathlib.Tactic.Linarith
import Mathlib.Tactic.Ring
/-!
# What a statement does

A `Session` is the committed database with the uncommitted writes of one
transaction, and `perform` is what Postgres does for a statement of that
session: reads see the session's own writes over the committed rows,
`COMMIT` publishes them. `Tracks` says what an open transaction has
written so far, column by column, as the lines its handler is done with,
and `Tracks.step` is the one place where that is checked against every
statement.
-/

namespace Ecommerce

namespace Inventory

/-- The value of an integer column. -/
def StockItem.col (row : StockItem) : StockColumn → ℤ
  | .availableQuantity => row.availableQuantity
  | .reservedQuantity => row.reservedQuantity

/-- The row with one column assigned. -/
def StockItem.set (row : StockItem) : StockColumn → ℤ → StockItem
  | .availableQuantity, n => { row with availableQuantity := n }
  | .reservedQuantity, n => { row with reservedQuantity := n }

@[simp] theorem StockItem.col_set_self (row : StockItem) (c : StockColumn) (n : ℤ) :
    (row.set c n).col c = n := by
  cases c <;> rfl

theorem StockItem.col_set_of_ne (row : StockItem) {c c' : StockColumn} (h : c' ≠ c) (n : ℤ) :
    (row.set c n).col c' = row.col c' := by
  cases c <;> cases c' <;> first | rfl | exact absurd rfl h

/-- A numeric assigned to an integer column: the nearest integer, halves away from zero. -/
def toInteger (x : ℚ) : ℤ := if 0 ≤ x then ⌊x + 1 / 2⌋ else ⌈x - 1 / 2⌉

@[simp] theorem toInteger_intCast (n : ℤ) : toInteger (n : ℚ) = n := by
  rw [toInteger]
  split
  · rw [Int.floor_eq_iff]; constructor <;> linarith
  · rw [Int.ceil_eq_iff]; constructor <;> linarith

/-- An integer quantity is subtracted exactly. -/
theorem toInteger_sub (n : ℤ) {q : ℚ} (h : q.isInt) : (toInteger (n - q) : ℚ) = n - q := by
  rw [Rat.eq_num_of_isInt h]
  have : (n : ℚ) - (q.num : ℚ) = ((n - q.num : ℤ) : ℚ) := by push_cast; ring
  rw [this, toInteger_intCast]

/-! ## Sessions -/

/-- The committed database and the uncommitted writes of one transaction. -/
structure Session where
  db : Tables
  tx : Tables

namespace Session

variable {s : Session}

/-- What the session reads. -/
def view (s : Session) : Tables :=
  ⟨s.tx.stock ∪ s.db.stock, s.tx.reservations ∪ s.db.reservations⟩

/-- Write a stock row. -/
def writeStock (s : Session) (p : ProductId) (row : StockItem) : Session :=
  { s with tx := { s.tx with stock := s.tx.stock.insert p row } }

/-- Write a reservation row. -/
def writeReservation (s : Session) (o : OrderId) (row : Reservation) : Session :=
  { s with tx := { s.tx with reservations := s.tx.reservations.insert o row } }

/-- Forget the uncommitted writes. -/
def discard (s : Session) : Session := { s with tx := ∅ }

@[simp] theorem writeStock_db (p : ProductId) (row : StockItem) : (s.writeStock p row).db = s.db :=
  rfl

@[simp] theorem writeReservation_db (o : OrderId) (row : Reservation) :
    (s.writeReservation o row).db = s.db := rfl

@[simp] theorem discard_db : s.discard.db = s.db := rfl

@[simp] theorem discard_tx : s.discard.tx = ∅ := rfl

theorem view_stock_of_empty (h : s.tx.stock = ∅) : s.view.stock = s.db.stock := by
  rw [view, h, Finmap.empty_union]

theorem view_of_empty (h : s.tx = ∅) : s.view = s.db := by
  change Tables.mk _ _ = _
  rw [h]
  exact congrArg₂ Tables.mk Finmap.empty_union Finmap.empty_union

@[simp] theorem view_writeStock (p : ProductId) (row : StockItem) :
    (s.writeStock p row).view.stock = s.view.stock.insert p row :=
  Finmap.insert_union.symm

@[simp] theorem view_writeStock_reservations (p : ProductId) (row : StockItem) :
    (s.writeStock p row).view.reservations = s.view.reservations := rfl

@[simp] theorem view_writeReservation (o : OrderId) (row : Reservation) :
    (s.writeReservation o row).view.reservations = s.view.reservations.insert o row :=
  Finmap.insert_union.symm

@[simp] theorem view_writeReservation_stock (o : OrderId) (row : Reservation) :
    (s.writeReservation o row).view.stock = s.view.stock := rfl

end Session

/-- The error of an `INSERT` that meets an existing key. -/
def uniqueViolation : Failure := .error "duplicate key value violates unique constraint"

/-- **What Postgres does for a statement.** A rejected statement aborts its
transaction. -/
def perform : (op : Op) → Session → Except Failure (Ans op) × Session
  | .findReservation o, s => (.ok (s.view.reservations.lookup o), s)
  | .begin, s => (.ok (), s.discard)
  | .commit, s => (.ok (), ⟨s.view, ∅⟩)
  | .rollback, s => (.ok (), s.discard)
  | .findStock p, s => (.ok (s.view.stock.lookup p), s)
  | .insertStock p row, s =>
    match s.view.stock.lookup p with
    | some _ => (.error uniqueViolation, s.discard)
    | none => (.ok (), s.writeStock p row)
  | .increaseReserved p q, s =>
    match s.view.stock.lookup p with
    | some row =>
      if q ≤ row.availableQuantity - row.reservedQuantity then
        (.ok 1, s.writeStock p (row.set .reservedQuantity (row.reservedQuantity + q)))
      else (.ok 0, s)
    | none => (.ok 0, s)
  | .decrement p c v, s =>
    match s.view.stock.lookup p with
    | some row => (.ok (), s.writeStock p (row.set c (toInteger (row.col c - v))))
    | none => (.ok (), s)
  | .insertReservation o row, s =>
    match s.view.reservations.lookup o with
    | some _ => (.error uniqueViolation, s.discard)
    | none => (.ok (), s.writeReservation o row)
  | .loadReservation o, s => (.ok (s.view.reservations.lookup o), s)
  | .updateStatus o status, s =>
    match s.view.reservations.lookup o with
    | some row => (.ok (), s.writeReservation o { row with status := status })
    | none => (.ok (), s)

/-- Only `COMMIT` changes the committed database. -/
theorem perform_db {op : Op} (h : op ≠ .commit) (s : Session) : (perform op s).2.db = s.db := by
  cases op with
  | commit => exact absurd rfl h
  | insertStock p row => simp only [perform]; split <;> rfl
  | increaseReserved p q =>
    simp only [perform]
    split
    · split <;> rfl
    · rfl
  | decrement p c v => simp only [perform]; split <;> rfl
  | insertReservation o row => simp only [perform]; split <;> rfl
  | updateStatus o status => simp only [perform]; split <;> rfl
  | _ => rfl

/-! ## Lines -/

/-- The units of a product in a list of lines. -/
def lineTotal (items : List ReservedItem) (p : ProductId) : ℚ :=
  (items.map fun item => if item.productId = p then item.quantity else 0).sum

@[simp] theorem lineTotal_nil (p : ProductId) : lineTotal [] p = 0 := rfl

@[simp] theorem lineTotal_cons (item : ReservedItem) (rest : List ReservedItem) (p : ProductId) :
    lineTotal (item :: rest) p =
      (if item.productId = p then item.quantity else 0) + lineTotal rest p := by
  simp [lineTotal]

theorem lineTotal_nonneg {items : List ReservedItem} (h : ∀ item ∈ items, 0 ≤ item.quantity)
    (p : ProductId) : 0 ≤ lineTotal items p := by
  induction items with
  | nil => exact le_refl _
  | cons item rest ih =>
    have hrest := ih fun i hi => h i (List.mem_cons_of_mem _ hi)
    have hitem := h item List.mem_cons_self
    rw [lineTotal_cons]
    split <;> linarith

/-- A product with a line of positive quantity has units. -/
theorem lineTotal_pos {items : List ReservedItem} (h : ∀ item ∈ items, 0 < item.quantity)
    {item : ReservedItem} (hmem : item ∈ items) : 0 < lineTotal items item.productId := by
  induction items with
  | nil => cases hmem
  | cons head rest ih =>
    have hrest : 0 ≤ lineTotal rest item.productId :=
      lineTotal_nonneg (fun i hi => (h i (List.mem_cons_of_mem _ hi)).le) _
    have hhead := h head List.mem_cons_self
    rw [lineTotal_cons]
    rcases List.mem_cons.mp hmem with rfl | hmem
    · rw [if_pos rfl]; linarith
    · have := ih (fun i hi => h i (List.mem_cons_of_mem _ hi)) hmem
      split <;> linarith

/-- A product none of the lines names has no units. -/
theorem lineTotal_eq_zero {items : List ReservedItem} {p : ProductId}
    (h : ∀ item ∈ items, item.productId ≠ p) : lineTotal items p = 0 := by
  induction items with
  | nil => rfl
  | cons item rest ih =>
    rw [lineTotal_cons, if_neg (h item List.mem_cons_self),
      ih fun i hi => h i (List.mem_cons_of_mem _ hi), add_zero]

theorem isInt_of_valid {q : ℚ} (h : validQuantity q = true) : q.isInt := by
  rw [validQuantity, Bool.and_eq_true] at h
  exact h.1

theorem pos_of_valid {q : ℚ} (h : validQuantity q = true) : 0 < q := by
  rw [validQuantity, Bool.and_eq_true] at h
  exact of_decide_eq_true h.2

/-- A valid quantity is the integer the `UPDATE` adds. -/
theorem num_of_valid {q : ℚ} (h : validQuantity q = true) : (q.num : ℚ) = q :=
  (Rat.eq_num_of_isInt (isInt_of_valid h)).symm

end Inventory

end Ecommerce
