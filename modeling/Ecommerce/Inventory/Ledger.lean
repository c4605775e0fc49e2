import Ecommerce.Inventory.Transactions
/-!
# The stock ledger

`Ledger base db` says what the two columns of a stock row mean:
`reservedQuantity` is what the reservations in status RESERVED ask for,
`availableQuantity` is what the product started with less what the
CONFIRMED ones took. A transaction changes the committed database in one
of two ways, `Reserves` or `Settles`, whatever the length of its loop;
both keep the ledger, a settlement as long as it settles a reservation
that is still RESERVED.
-/

namespace Ecommerce

namespace Inventory

/-- The units of a product a reservation counts for, when it is in `status`. -/
def units (status : ReservationStatus) (p : ProductId) (_ : OrderId) (r : Reservation) : ℚ :=
  if r.status = status then lineTotal r.items p else 0

/-- The units of a product over all reservations in `status`. -/
def unitsIn (status : ReservationStatus) (db : Tables) (p : ProductId) : ℚ :=
  db.reservations.tally (units status p)

/-- **The ledger.** `base` is what each product started with. -/
structure Ledger (base : ProductId → ℤ) (db : Tables) : Prop where
  reserved : ∀ p row, db.stock.lookup p = some row →
    (row.reservedQuantity : ℚ) = unitsIn .reserved db p
  available : ∀ p row, db.stock.lookup p = some row →
    (row.availableQuantity : ℚ) = base p - unitsIn .confirmed db p
  nonneg : ∀ p row, db.stock.lookup p = some row → 0 ≤ row.reservedQuantity
  fits : ∀ p row, db.stock.lookup p = some row → row.reservedQuantity ≤ row.availableQuantity

/-- What `reserve` checked of every reservation in the table. -/
structure Stored (db : Tables) : Prop where
  valid : ∀ o r, db.reservations.lookup o = some r →
    ∀ item ∈ r.items, validQuantity item.quantity = true
  stocked : ∀ o r, db.reservations.lookup o = some r → ∀ item ∈ r.items, item.productId ∈ db.stock

/-- A product that has no row yet starts with what it will be seeded with. -/
def Seeded (base : ProductId → ℤ) (db : Tables) : Prop :=
  ∀ p, db.stock.lookup p = none → base p = DEFAULT_STOCK_QUANTITY

variable {base : ProductId → ℤ} {db db' : Tables} {o : OrderId} {row : Reservation}
variable {items : List ReservedItem} {status : ReservationStatus} {p : ProductId}

theorem units_nonneg (hvalid : ∀ item ∈ row.items, validQuantity item.quantity = true) :
    0 ≤ units status p o row := by
  rw [units]
  split
  · exact lineTotal_nonneg (fun item hi => (pos_of_valid (hvalid item hi)).le) p
  · exact le_refl _

namespace Stored

theorem unitsIn_nonneg (h : Stored db) : 0 ≤ unitsIn status db p :=
  Table.tally_nonneg fun o r hr => units_nonneg (h.valid o r hr)

/-- A product without a row is in no reservation. -/
theorem lineTotal_eq_zero (h : Stored db) (hrow : db.reservations.lookup o = some row)
    (hp : db.stock.lookup p = none) : lineTotal row.items p = 0 :=
  Inventory.lineTotal_eq_zero fun item hi heq =>
    Finmap.lookup_eq_none.mp hp (heq ▸ h.stocked o row hrow item hi)

theorem unitsIn_eq_zero (h : Stored db) (hp : db.stock.lookup p = none) :
    unitsIn status db p = 0 := by
  refine Table.tally_eq_zero fun o r hr => ?_
  rw [units, h.lineTotal_eq_zero hr hp, ite_self]

end Stored

namespace Ledger

/-- A product without a row has, of both columns, what the ledger asks for. -/
theorem reserved_rowOf (h : Ledger base db) (hst : Stored db) (p : ProductId) :
    ((rowOf db.stock p).reservedQuantity : ℚ) = unitsIn .reserved db p := by
  cases hp : db.stock.lookup p with
  | none => rw [rowOf_of_none hp, hst.unitsIn_eq_zero hp]; rfl
  | some row => rw [rowOf_of_lookup hp, h.reserved p row hp]

theorem available_rowOf (h : Ledger base db) (hst : Stored db) (hseed : Seeded base db)
    (p : ProductId) :
    ((rowOf db.stock p).availableQuantity : ℚ) = base p - unitsIn .confirmed db p := by
  cases hp : db.stock.lookup p with
  | none => rw [rowOf_of_none hp, hst.unitsIn_eq_zero hp, hseed p hp, sub_zero]
  | some row => rw [rowOf_of_lookup hp, h.available p row hp]

theorem fits_rowOf (h : Ledger base db) (p : ProductId) :
    (rowOf db.stock p).reservedQuantity ≤ (rowOf db.stock p).availableQuantity := by
  cases hp : db.stock.lookup p with
  | none => rw [rowOf_of_none hp]; decide
  | some row => rw [rowOf_of_lookup hp]; exact h.fits p row hp

/-- Without reservations a stock nothing is held of is a ledger. -/
theorem of_unreserved {db : Tables} (hres : db.reservations = ∅)
    (hstock : ∀ p row, db.stock.lookup p = some row →
      row.reservedQuantity = 0 ∧ 0 ≤ row.availableQuantity ∧ row.availableQuantity = base p) :
    Ledger base db where
  reserved p row h := by
    rw [(hstock p row h).1, unitsIn, hres, Table.tally_empty]
    rfl
  available p row h := by
    rw [(hstock p row h).2.2, unitsIn, hres, Table.tally_empty, sub_zero]
  nonneg p row h := (hstock p row h).1.ge
  fits p row h := by
    rw [(hstock p row h).1]
    exact (hstock p row h).2.1

end Ledger

theorem Stored.of_unreserved (hres : db.reservations = ∅) : Stored db where
  valid o r h := by rw [hres] at h; cases h
  stocked o r h := by rw [hres] at h; cases h

/-! ## What a transaction commits -/

/-- A committed `reserve` of `items`. -/
structure Reserves (o : OrderId) (items : List ReservedItem) (db db' : Tables) : Prop where
  fresh : db.reservations.lookup o = none
  reservations : db'.reservations = db.reservations.insert o ⟨items, .reserved⟩
  valid : ∀ item ∈ items, validQuantity item.quantity = true
  stocked : ∀ item ∈ items, item.productId ∈ db'.stock
  grows : ∀ p, p ∈ db.stock → p ∈ db'.stock
  available : ∀ p row, db'.stock.lookup p = some row →
    row.availableQuantity = (rowOf db.stock p).availableQuantity
  reserved : ∀ p row, db'.stock.lookup p = some row →
    (row.reservedQuantity : ℚ) = (rowOf db.stock p).reservedQuantity + lineTotal items p
  fits : ∀ p row, db'.stock.lookup p = some row →
    (rowOf db.stock p).reservedQuantity ≤ (rowOf db.stock p).availableQuantity →
      row.reservedQuantity ≤ row.availableQuantity

/-- A committed `confirm` or `release` that settled `row`. -/
structure Settles (o : OrderId) (status : ReservationStatus) (row : Reservation)
    (db db' : Tables) : Prop where
  found : db.reservations.lookup o = some row
  reservations : db'.reservations = db.reservations.insert o ⟨row.items, status⟩
  grows : ∀ p, p ∈ db.stock → p ∈ db'.stock
  available : ∀ p r, db'.stock.lookup p = some r → (r.availableQuantity : ℚ) =
    (rowOf db.stock p).availableQuantity - if status = .confirmed then lineTotal row.items p else 0
  reserved : ∀ p r, db'.stock.lookup p = some r →
    (r.reservedQuantity : ℚ) = (rowOf db.stock p).reservedQuantity - lineTotal row.items p

theorem Seeded.mono (h : Seeded base db) (hgrow : ∀ p, p ∈ db.stock → p ∈ db'.stock) :
    Seeded base db' := fun p hp =>
  h p (Finmap.lookup_eq_none.mpr fun hmem => Finmap.lookup_eq_none.mp hp (hgrow p hmem))

namespace Reserves

theorem stored (h : Reserves o items db db') (hst : Stored db) : Stored db' where
  valid o' r hr := by
    rw [h.reservations] at hr
    obtain ⟨-, rfl⟩ | ⟨-, hr⟩ := Table.lookup_insert_cases hr
    · exact h.valid
    · exact hst.valid o' r hr
  stocked o' r hr := by
    rw [h.reservations] at hr
    obtain ⟨-, rfl⟩ | ⟨-, hr⟩ := Table.lookup_insert_cases hr
    · exact h.stocked
    · exact fun item hi => h.grows _ (hst.stocked o' r hr item hi)

theorem unitsIn_eq (h : Reserves o items db db') (status : ReservationStatus) (p : ProductId) :
    unitsIn status db' p =
      (if status = .reserved then lineTotal items p else 0) + unitsIn status db p := by
  rw [unitsIn, h.reservations,
    Table.tally_insert_of_notMem (Finmap.lookup_eq_none.mp h.fresh), unitsIn]
  simp only [units, eq_comm]

/-- **A committed `reserve` keeps the ledger.** -/
theorem ledger (h : Reserves o items db db') (hst : Stored db) (hseed : Seeded base db)
    (hled : Ledger base db) : Ledger base db' := by
  have hreserved : ∀ p r, db'.stock.lookup p = some r →
      (r.reservedQuantity : ℚ) = unitsIn .reserved db' p := fun p r hr => by
    rw [h.reserved p r hr, hled.reserved_rowOf hst, h.unitsIn_eq, if_pos rfl, add_comm]
  refine ⟨hreserved, fun p r hr => ?_, fun p r hr => ?_, fun p r hr => ?_⟩
  · rw [h.available p r hr, hled.available_rowOf hst hseed, h.unitsIn_eq, if_neg (by decide),
      zero_add]
  · have hnonneg : (0 : ℚ) ≤ r.reservedQuantity := by
      rw [hreserved p r hr]
      exact (h.stored hst).unitsIn_nonneg
    exact_mod_cast hnonneg
  · exact h.fits p r hr (hled.fits_rowOf p)

end Reserves

namespace Settles

theorem stored (h : Settles o status row db db') (hst : Stored db) : Stored db' where
  valid o' r hr := by
    rw [h.reservations] at hr
    obtain ⟨-, rfl⟩ | ⟨-, hr⟩ := Table.lookup_insert_cases hr
    · exact hst.valid o row h.found
    · exact hst.valid o' r hr
  stocked o' r hr := by
    rw [h.reservations] at hr
    obtain ⟨-, rfl⟩ | ⟨-, hr⟩ := Table.lookup_insert_cases hr
    · exact fun item hi => h.grows _ (hst.stocked o row h.found item hi)
    · exact fun item hi => h.grows _ (hst.stocked o' r hr item hi)

theorem unitsIn_eq (h : Settles o status row db db') (st : ReservationStatus) (p : ProductId) :
    unitsIn st db' p + units st p o row = unitsIn st db p + units st p o ⟨row.items, status⟩ := by
  rw [unitsIn, h.reservations, Table.tally_insert_of_lookup h.found, unitsIn]

/-- **The settlement of a RESERVED reservation keeps the ledger**, and so does one
without lines. -/
theorem ledger (h : Settles o status row db db') (hrow : row.status = .reserved ∨ row.items = [])
    (hstatus : status ≠ .reserved) (hst : Stored db) (hseed : Seeded base db)
    (hled : Ledger base db) : Ledger base db' := by
  have hheld : ∀ p, units .reserved p o row = lineTotal row.items p := fun p => by
    rw [units]
    rcases hrow with hrow | hnil
    · rw [if_pos hrow]
    · rw [hnil, lineTotal_nil, ite_self]
  have htaken : ∀ p, units .confirmed p o row = 0 := fun p => by
    rw [units]
    rcases hrow with hrow | hnil
    · rw [hrow, if_neg (by decide)]
    · rw [hnil, lineTotal_nil, ite_self]
  have hreserved : ∀ p r, db'.stock.lookup p = some r →
      (r.reservedQuantity : ℚ) = unitsIn .reserved db' p := fun p r hr => by
    have htally := h.unitsIn_eq .reserved p
    rw [hheld, units, if_neg hstatus] at htally
    rw [h.reserved p r hr, hled.reserved_rowOf hst]
    linarith
  have havailable : ∀ p r, db'.stock.lookup p = some r →
      (r.availableQuantity : ℚ) = base p - unitsIn .confirmed db' p := fun p r hr => by
    have htally := h.unitsIn_eq .confirmed p
    rw [htaken, add_zero] at htally
    rw [h.available p r hr, hled.available_rowOf hst hseed, htally, units]
    ring
  refine ⟨hreserved, havailable, fun p r hr => ?_, fun p r hr => ?_⟩
  · have hnonneg : (0 : ℚ) ≤ r.reservedQuantity := by
      rw [hreserved p r hr]
      exact (h.stored hst).unitsIn_nonneg
    exact_mod_cast hnonneg
  · have hfits : ((rowOf db.stock p).reservedQuantity : ℚ) ≤ (rowOf db.stock p).availableQuantity :=
      by exact_mod_cast hled.fits_rowOf p
    have hlines : 0 ≤ lineTotal row.items p :=
      lineTotal_nonneg (fun item hi => (pos_of_valid (hst.valid o row h.found item hi)).le) p
    have : (r.reservedQuantity : ℚ) ≤ r.availableQuantity := by
      rw [h.reserved p r hr, h.available p r hr]
      split <;> linarith
    exact_mod_cast this

/-- **The settlement of a reservation that is no longer RESERVED breaks it**: the
units leave `reservedQuantity` a second time. -/
theorem not_ledger (h : Settles o status row db db') (hrow : row.status ≠ .reserved)
    (hstatus : status ≠ .reserved) (hitems : row.items ≠ []) (hst : Stored db)
    (hled : Ledger base db) : ¬ Ledger base db' := by
  intro hled'
  obtain ⟨item, rest, hcons⟩ := List.exists_cons_of_ne_nil hitems
  have hmem : item ∈ row.items := hcons ▸ List.mem_cons_self
  obtain ⟨r, hr⟩ := Finmap.mem_iff.mp (h.grows _ (hst.stocked o row h.found item hmem))
  have hpos := lineTotal_pos (fun i hi => pos_of_valid (hst.valid o row h.found i hi)) hmem
  have htally := h.unitsIn_eq .reserved item.productId
  rw [units, if_neg hrow, units, if_neg hstatus] at htally
  have hafter := hled'.reserved _ r hr
  rw [h.reserved _ r hr, hled.reserved_rowOf hst] at hafter
  linarith

end Settles

/-! ## The two commits -/

section Commit

variable {req : Request} {s : Session}

theorem mem_view_stock (h : p ∈ s.db.stock) : p ∈ s.view.stock :=
  Finmap.mem_union.mpr (Or.inr h)

/-- **`reserve` commits what it reserved.** -/
theorem PcOk.reserves (h : PcOk req s .reserveCommit) :
    Reserves req.orderId req.items s.db s.view := by
  obtain ⟨hres, htx⟩ := h
  have hvalid : ∀ item ∈ req.items, validQuantity item.quantity = true := fun item hi =>
    (hres.checked item hi).resolve_left (by simp)
  refine ⟨hres.fresh, ?_, hvalid, fun item hi => ?_, fun p hp => mem_view_stock hp,
    fun p r hr => ?_, fun p r hr => ?_, fun p r hr hdb => ?_⟩
  · rw [Session.view, htx, Finmap.insert_union.symm, Finmap.empty_union]
  · by_contra hnot
    have hzero := hres.covered _ (Finmap.lookup_eq_none.mpr hnot)
    have hpos := lineTotal_pos (fun i hi => pos_of_valid (hvalid i hi)) hi
    simp only [reserving, lineTotal_nil, sub_zero] at hzero
    linarith
  · have := hres.tracks .availableQuantity p r hr
    simp only [StockItem.col, reserving, add_zero] at this
    exact_mod_cast this
  · have := hres.tracks .reservedQuantity p r hr
    simpa only [StockItem.col, reserving, lineTotal_nil, sub_zero] using this
  · rw [Session.view, Table.lookup_union] at hr
    cases htxp : s.tx.stock.lookup p with
    | some r' =>
      rw [htxp, Option.some_or, Option.some.injEq] at hr
      exact hr ▸ hres.fits p r' htxp
    | none =>
      rw [htxp, Option.none_or] at hr
      rwa [rowOf_of_lookup hr] at hdb

/-- **`confirm` and `release` commit what they settled.** -/
theorem PcOk.settles {row : Reservation} (h : PcOk req s (.settleCommit row)) :
    Settles req.orderId (target req) row s.db s.view := by
  obtain ⟨hset, htx⟩ := h
  refine ⟨hset.found, ?_, fun p hp => mem_view_stock hp, fun p r hr => ?_, fun p r hr => ?_⟩
  · rw [Session.view, htx, Finmap.insert_union.symm, Finmap.empty_union]
  · have := hset.tracks .availableQuantity p r hr
    simp only [StockItem.col, settling, lineTotal_nil, zero_sub] at this
    rw [this]
    split <;> ring
  · have := hset.tracks .reservedQuantity p r hr
    simp only [StockItem.col, settling, lineTotal_nil, zero_sub] at this
    rw [this]
    ring

end Commit

end Inventory

end Ecommerce
