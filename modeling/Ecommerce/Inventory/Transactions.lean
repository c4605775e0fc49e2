import Ecommerce.Inventory.Statements
/-!
# What an open transaction has done

At every point of a handler the rows its session reads are the committed
ones plus what the lines done so far ask for: `reserve` adds them to
`reservedQuantity`, `confirm` takes them off both columns, `release` off
`reservedQuantity`. `PcOk` is that invariant, point by point, and
`PcOk.step` proves that a handler alone keeps it. `PcOk.frame` is what
makes it usable under interleaving: only the rows the transaction has
written, and the reservation of its order, have to stay put.
-/

namespace Ecommerce

namespace Inventory

/-- The committed row of a product, or the one a first sight would seed. -/
def rowOf (stock : Table ProductId StockItem) (p : ProductId) : StockItem :=
  (stock.lookup p).getD ⟨DEFAULT_STOCK_QUANTITY, 0⟩

theorem rowOf_of_lookup {stock : Table ProductId StockItem} {p : ProductId} {row : StockItem}
    (h : stock.lookup p = some row) : rowOf stock p = row := by
  rw [rowOf, h, Option.getD_some]

theorem rowOf_of_none {stock : Table ProductId StockItem} {p : ProductId}
    (h : stock.lookup p = none) : rowOf stock p = ⟨DEFAULT_STOCK_QUANTITY, 0⟩ := by
  rw [rowOf, h, Option.getD_none]

/-! ## Rows and changes -/

/-- **The rows the session reads are the committed ones, changed by `δ`.** -/
def TracksBy (δ : StockColumn → ProductId → ℚ) (s : Session) : Prop :=
  ∀ c p row, s.view.stock.lookup p = some row →
    (row.col c : ℚ) = (rowOf s.db.stock p).col c + δ c p

namespace TracksBy

variable {δ δ' : StockColumn → ProductId → ℚ} {s : Session} {p : ProductId} {row row' : StockItem}

theorem of_empty (h : s.tx.stock = ∅) (hδ : ∀ c p, δ c p = 0) : TracksBy δ s := by
  intro c p row hrow
  rw [Session.view_stock_of_empty h] at hrow
  rw [rowOf_of_lookup hrow, hδ, add_zero]

/-- A written row moves its own product. -/
theorem write (h : TracksBy δ s) {ε : StockColumn → ℚ} (hrow : s.view.stock.lookup p = some row)
    (hcol : ∀ c, (row'.col c : ℚ) = row.col c + ε c)
    (hδ : ∀ c q, δ' c q = δ c q + if p = q then ε c else 0) :
    TracksBy δ' (s.writeStock p row') := by
  intro c q r hr
  rw [Session.view_writeStock] at hr
  rw [Session.writeStock_db, hδ]
  obtain ⟨rfl, rfl⟩ | ⟨hq, hr⟩ := Table.lookup_insert_cases hr
  · rw [if_pos rfl, hcol, h c q row hrow, add_assoc]
  · rw [if_neg (Ne.symm hq), add_zero, h c q r hr]

/-- A seeded row starts a product nothing was done to. -/
theorem seed (h : TracksBy δ s) (hnone : s.view.stock.lookup p = none) (hδ : ∀ c, δ c p = 0) :
    TracksBy δ (s.writeStock p ⟨DEFAULT_STOCK_QUANTITY, 0⟩) := by
  intro c q r hr
  rw [Session.view_writeStock] at hr
  rw [Session.writeStock_db]
  obtain ⟨rfl, rfl⟩ | ⟨-, hr⟩ := Table.lookup_insert_cases hr
  · have hdb : s.db.stock.lookup q = none := by
      rw [Session.view, Table.lookup_union] at hnone
      exact (Option.or_eq_none_iff.mp hnone).2
    rw [rowOf_of_none hdb, hδ, add_zero]
  · exact h c q r hr

/-- What is done to a product without a row shows nowhere. -/
theorem absent (h : TracksBy δ s) (hnone : s.view.stock.lookup p = none)
    (hδ : ∀ c q, q ≠ p → δ' c q = δ c q) : TracksBy δ' s := by
  intro c q r hr
  rw [hδ c q fun hq => by rw [hq, hnone] at hr; cases hr]
  exact h c q r hr

/-- A `decrement` by an integer takes it off its column. -/
theorem decrement (h : TracksBy δ s) {c : StockColumn} {v : ℚ} (hv : v.isInt)
    (hδ : ∀ c' q, δ' c' q = δ c' q + if p = q then (if c' = c then -v else 0) else 0) :
    TracksBy δ' (perform (.decrement p c v) s).2 := by
  simp only [perform]
  cases hrow : s.view.stock.lookup p with
  | none => exact h.absent hrow fun c' q hq => by rw [hδ, if_neg (Ne.symm hq), add_zero]
  | some row =>
    refine h.write (ε := fun c' => if c' = c then -v else 0) hrow (fun c' => ?_) hδ
    by_cases hc : c' = c
    · subst hc
      rw [StockItem.col_set_self, toInteger_sub _ hv, if_pos rfl, sub_eq_add_neg]
    · rw [StockItem.col_set_of_ne _ hc, if_neg hc, add_zero]

/-- Rows the transaction has not written may change under it, as long as it has
done nothing to their products. -/
theorem frame {db db' tx : Tables} (h : TracksBy δ ⟨db, tx⟩)
    (hstock : ∀ p, p ∈ tx.stock → db'.stock.lookup p = db.stock.lookup p)
    (hzero : ∀ c p, (Session.mk db tx).view.stock.lookup p = none → δ c p = 0) :
    TracksBy δ ⟨db', tx⟩ := by
  intro c p row hrow
  have hview : ∀ d : Tables, (Session.mk d tx).view.stock.lookup p =
      (tx.stock.lookup p).or (d.stock.lookup p) := fun d => Table.lookup_union
  rw [hview] at hrow
  cases htx : tx.stock.lookup p with
  | some r =>
    rw [htx, Option.some_or, Option.some.injEq] at hrow
    have := h c p row (by rw [hview, htx, hrow]; rfl)
    rwa [rowOf, hstock p (Finmap.mem_of_lookup_eq_some htx), ← rowOf]
  | none =>
    rw [htx, Option.none_or] at hrow
    have hδ : δ c p = 0 := by
      cases hdb : db.stock.lookup p with
      | none => exact hzero c p (by rw [hview, htx, hdb]; rfl)
      | some r =>
        have := h c p r (by rw [hview, htx, hdb]; rfl)
        rw [rowOf_of_lookup hdb] at this
        linarith
    rw [rowOf_of_lookup hrow, hδ, add_zero]

end TracksBy

/-! ## The invariant of a handler -/

/-- The status guard `confirm` and `release` check before their transaction. -/
def Settleable : Request → ReservationStatus → Prop
  | .reserve _ _ _, _ => False
  | .confirm _ _, status => status ≠ .confirmed
  | .release _ _, status => status = .reserved

theorem Settleable.ne_target {req : Request} {status : ReservationStatus}
    (h : Settleable req status) : status ≠ target req := by
  cases req with
  | reserve o items b => exact h.elim
  | confirm o b => exact h
  | release o b =>
    obtain rfl : status = .reserved := h
    simp [target]

/-- What `reserve` has done to each column when the lines `left` are still to do. -/
def reserving (req : Request) (left : List ReservedItem) : StockColumn → ProductId → ℚ
  | .availableQuantity, _ => 0
  | .reservedQuantity, p => lineTotal req.items p - lineTotal left p

/-- What `confirm` or `release` has done to each column of the rows of `row.items`. -/
def settling (req : Request) (row : Reservation) (leftAvailable leftReserved : List ReservedItem) :
    StockColumn → ProductId → ℚ
  | .availableQuantity, p =>
    if target req = .confirmed then lineTotal leftAvailable p - lineTotal row.items p else 0
  | .reservedQuantity, p => lineTotal leftReserved p - lineTotal row.items p

/-- A `reserve` in its transaction with the lines `left` to do. -/
structure Reserving (req : Request) (left : List ReservedItem) (s : Session) : Prop where
  reserves : req.isReserve = true
  fresh : s.db.reservations.lookup req.orderId = none
  checked : ∀ item ∈ req.items, item ∈ left ∨ validQuantity item.quantity = true
  tracks : TracksBy (reserving req left) s
  covered : ∀ p, s.view.stock.lookup p = none → reserving req left .reservedQuantity p = 0
  fits : ∀ p row, s.tx.stock.lookup p = some row → row.reservedQuantity ≤ row.availableQuantity

/-- A `confirm` or `release` in its transaction, settling `row`. -/
structure Settling (req : Request) (row : Reservation)
    (leftAvailable leftReserved : List ReservedItem) (s : Session) : Prop where
  found : s.db.reservations.lookup req.orderId = some row
  guarded : Settleable req row.status
  integral : ∀ item ∈ row.items, item.quantity.isInt
  left : ∀ item ∈ leftReserved, item ∈ row.items
  leftAvailable_subset : ∀ item ∈ leftAvailable, item ∈ leftReserved
  tracks : TracksBy (settling req row leftAvailable leftReserved) s

/-- **The invariant of a handler at a point.** -/
def PcOk (req : Request) (s : Session) : Pc → Prop
  | .find => s.tx = ∅
  | .reserveBegin => s.tx = ∅ ∧ req.isReserve = true ∧
      s.db.reservations.lookup req.orderId = none
  | .reserveFind item rest => validQuantity item.quantity = true ∧
      Reserving req (item :: rest) s ∧ s.tx.reservations = ∅
  | .reserveSeed item rest => validQuantity item.quantity = true ∧
      Reserving req (item :: rest) s ∧ s.tx.reservations = ∅
  | .reserveUpdate item rest => validQuantity item.quantity = true ∧
      Reserving req (item :: rest) s ∧ s.tx.reservations = ∅
  | .reserveInsert => Reserving req [] s ∧ s.tx.reservations = ∅
  | .reserveCommit => Reserving req [] s ∧
      s.tx.reservations = Finmap.insert req.orderId ⟨req.items, .reserved⟩ ∅
  | .settleBegin row => s.tx = ∅ ∧ s.db.reservations.lookup req.orderId = some row ∧
      Settleable req row.status ∧ ∀ item ∈ row.items, item.quantity.isInt
  | .settleAvailable row item rest => target req = .confirmed ∧
      Settling req row (item :: rest) (item :: rest) s ∧ s.tx.reservations = ∅
  | .settleReserved row item rest =>
      Settling req row rest (item :: rest) s ∧ s.tx.reservations = ∅
  | .settleLoad row => Settling req row [] [] s ∧ s.tx.reservations = ∅
  | .settleStore row => Settling req row [] [] s ∧ s.tx.reservations = ∅
  | .settleInsert _ => False
  | .settleCommit row => Settling req row [] [] s ∧
      s.tx.reservations = Finmap.insert req.orderId ⟨row.items, target req⟩ ∅
  | .rollback _ => True
  | .returned _ => s.tx = ∅

section Step

variable {req : Request} {s : Session} {row : Reservation} {item : ReservedItem}
variable {left rest : List ReservedItem}

theorem pcOk_nextLine (h : Reserving req left s) (hres : s.tx.reservations = ∅) :
    PcOk req s (nextLine left) := by
  cases left with
  | nil => exact ⟨h, hres⟩
  | cons item rest =>
    rw [nextLine]
    split
    · exact ⟨‹_›, h, hres⟩
    · trivial

theorem pcOk_nextItem (h : Settling req row left left s) (hres : s.tx.reservations = ∅) :
    PcOk req s (nextItem req row left) := by
  cases left with
  | nil => exact ⟨h, hres⟩
  | cons item rest =>
    have hreleased : target req ≠ .confirmed → Settling req row rest (item :: rest) s := by
      refine fun htarget => ⟨h.found, h.guarded, h.integral, h.left,
        fun _ hi => List.mem_cons_of_mem _ hi, fun c p r hr => ?_⟩
      rw [h.tracks c p r hr]
      cases c with
      | availableQuantity => simp only [settling, if_neg htarget]
      | reservedQuantity => rfl
    cases req with
    | reserve o items b => exact h.guarded.elim
    | confirm o b => exact ⟨rfl, h, hres⟩
    | release o b => exact ⟨hreleased (by simp [target]), hres⟩

/-- The status read decides as the table says. -/
theorem pcOk_afterFind (htx : s.tx = ∅)
    (hint : ∀ r, s.db.reservations.lookup req.orderId = some r →
      ∀ item ∈ r.items, item.quantity.isInt) :
    PcOk req s (afterFind req (s.db.reservations.lookup req.orderId)) := by
  cases hrow : s.db.reservations.lookup req.orderId with
  | none =>
    cases req with
    | reserve o items b => exact ⟨htx, rfl, hrow⟩
    | confirm o b => exact htx
    | release o b => exact htx
  | some r =>
    cases req with
    | reserve o items b => exact htx
    | confirm o b =>
      rw [afterFind]
      split
      · exact htx
      · exact ⟨htx, hrow, ‹_›, hint r hrow⟩
    | release o b =>
      rw [afterFind]
      split
      · exact htx
      · exact ⟨htx, hrow, not_not.mp ‹¬ r.status ≠ _›, hint r hrow⟩

theorem reserving_start (htx : s.tx = ∅) (hreq : req.isReserve = true)
    (hfresh : s.db.reservations.lookup req.orderId = none) : Reserving req req.items s where
  reserves := hreq
  fresh := hfresh
  checked := fun _ hi => Or.inl hi
  tracks := .of_empty (by rw [htx]; rfl) fun c p => by cases c <;> simp [reserving]
  covered := fun p _ => by simp [reserving]
  fits := fun p row hrow => by rw [htx] at hrow; cases hrow

theorem settling_start (htx : s.tx = ∅) (hfound : s.db.reservations.lookup req.orderId = some row)
    (hguard : Settleable req row.status) (hint : ∀ item ∈ row.items, item.quantity.isInt) :
    Settling req row row.items row.items s where
  found := hfound
  guarded := hguard
  integral := hint
  left := fun _ hi => hi
  leftAvailable_subset := fun _ hi => hi
  tracks := .of_empty (by rw [htx]; rfl) fun c p => by cases c <;> simp [settling]

/-- The row `ensureStockExists` seeds. -/
theorem Reserving.seed (h : Reserving req left s)
    (hnone : s.view.stock.lookup item.productId = none) :
    Reserving req left (s.writeStock item.productId ⟨DEFAULT_STOCK_QUANTITY, 0⟩) where
  reserves := h.reserves
  fresh := h.fresh
  checked := h.checked
  tracks := h.tracks.seed hnone fun c => by
    cases c with
    | availableQuantity => rfl
    | reservedQuantity => exact h.covered _ hnone
  covered := fun p hp => by
    rw [Session.view_writeStock] at hp
    by_cases hq : p = item.productId
    · rw [hq, Finmap.lookup_insert] at hp
      cases hp
    · rw [Finmap.lookup_insert_of_ne _ hq] at hp
      exact h.covered p hp
  fits := fun p row hrow => by
    obtain ⟨-, rfl⟩ | ⟨-, hold⟩ := Table.lookup_insert_cases hrow
    · decide
    · exact h.fits p row hold

/-- The conditional `UPDATE` that found enough units. -/
theorem Reserving.increase {r : StockItem} (h : Reserving req (item :: rest) s)
    (hvalid : validQuantity item.quantity = true)
    (hrow : s.view.stock.lookup item.productId = some r)
    (hfits : item.quantity.num ≤ r.availableQuantity - r.reservedQuantity) :
    Reserving req rest (s.writeStock item.productId
      (r.set .reservedQuantity (r.reservedQuantity + item.quantity.num))) where
  reserves := h.reserves
  fresh := h.fresh
  checked := fun i hi => by
    rcases h.checked i hi with hmem | hok
    · rcases List.mem_cons.mp hmem with rfl | hmem
      · exact Or.inr hvalid
      · exact Or.inl hmem
    · exact Or.inr hok
  tracks := by
    -- Only the reserved column moves.
    refine h.tracks.write (ε := fun c => if c = .reservedQuantity then item.quantity else 0)
      hrow ?_ ?_
    · intro c
      cases c with
      | availableQuantity => simp [StockItem.col, StockItem.set]
      | reservedQuantity =>
        simp only [StockItem.col, StockItem.set, if_true]
        push_cast
        rw [num_of_valid hvalid]
    · intro c q
      cases c with
      | availableQuantity => simp [reserving]
      | reservedQuantity =>
        simp only [reserving, lineTotal_cons, if_true]
        split <;> ring
  covered := fun p hp => by
    rw [Session.view_writeStock] at hp
    by_cases hq : p = item.productId
    · rw [hq, Finmap.lookup_insert] at hp
      cases hp
    · rw [Finmap.lookup_insert_of_ne _ hq] at hp
      have := h.covered p hp
      simp only [reserving, lineTotal_cons, if_neg (Ne.symm hq)] at this ⊢
      linarith
  fits := fun p row hp => by
    obtain ⟨-, rfl⟩ | ⟨-, hold⟩ := Table.lookup_insert_cases hp
    · simp only [StockItem.set]
      linarith
    · exact h.fits p row hold

/-- `confirm` has taken a line off `availableQuantity`. -/
theorem Settling.decrementAvailable (htarget : target req = .confirmed)
    (h : Settling req row (item :: rest) (item :: rest) s) :
    Settling req row rest (item :: rest)
      (perform (.decrement item.productId .availableQuantity item.quantity) s).2 where
  found := by rw [perform_db (by simp)]; exact h.found
  guarded := h.guarded
  integral := h.integral
  left := h.left
  leftAvailable_subset := fun _ hi => List.mem_cons_of_mem _ hi
  tracks := h.tracks.decrement (h.integral item (h.left item List.mem_cons_self)) fun c q => by
    cases c with
    | availableQuantity =>
      simp only [settling, if_pos htarget, lineTotal_cons, if_true]
      split <;> ring
    | reservedQuantity => simp [settling]

/-- A line is taken off `reservedQuantity`. -/
theorem Settling.decrementReserved (h : Settling req row rest (item :: rest) s) :
    Settling req row rest rest
      (perform (.decrement item.productId .reservedQuantity item.quantity) s).2 where
  found := by rw [perform_db (by simp)]; exact h.found
  guarded := h.guarded
  integral := h.integral
  left := fun i hi => h.left i (List.mem_cons_of_mem _ hi)
  leftAvailable_subset := fun _ hi => hi
  tracks := h.tracks.decrement (h.integral item (h.left item List.mem_cons_self)) fun c q => by
    cases c with
    | availableQuantity => simp [settling]
    | reservedQuantity =>
      simp only [settling, lineTotal_cons, if_true]
      split <;> ring

theorem perform_decrement (p : ProductId) (c : StockColumn) (v : ℚ) (s : Session) :
    (perform (.decrement p c v) s).1 = .ok () ∧
      (perform (.decrement p c v) s).2.tx.reservations = s.tx.reservations := by
  simp only [perform]
  split <;> exact ⟨rfl, rfl⟩

/-- **A handler alone keeps its invariant**, statement by statement. `hint` asks
that the stored lines of its order are integers, which `reserve` checks
before it stores them. -/
theorem PcOk.step {pc : Pc} {op : Op} {next : Except Failure (Ans op) → Pc}
    (h : PcOk req s pc)
    (hint : ∀ r, s.db.reservations.lookup req.orderId = some r →
      ∀ item ∈ r.items, item.quantity.isInt)
    (hpt : pc.point req = .wait op next) :
    PcOk req (perform op s).2 (next (perform op s).1) := by
  cases pc with
  | find =>
    cases hpt
    -- Nothing is written yet, so the read sees the committed rows.
    have hview : s.view = s.db := Session.view_of_empty h
    change PcOk req s (afterFind req (s.view.reservations.lookup req.orderId))
    rw [hview]
    exact pcOk_afterFind h hint
  | reserveBegin =>
    cases hpt
    exact pcOk_nextLine (reserving_start rfl h.2.1 h.2.2) rfl
  | reserveFind item rest =>
    cases hpt
    change PcOk req s (afterStock item rest (s.view.stock.lookup item.productId))
    cases s.view.stock.lookup item.productId with
    | none => exact h
    | some row => exact h
  | reserveSeed item rest =>
    cases hpt
    obtain ⟨hvalid, hres, htx⟩ := h
    simp only [perform]
    cases hrow : s.view.stock.lookup item.productId with
    | some row => trivial -- the unique constraint: the transaction is rolled back
    | none => exact ⟨hvalid, hres.seed hrow, htx⟩
  | reserveUpdate item rest =>
    cases hpt
    obtain ⟨hvalid, hres, htx⟩ := h
    simp only [perform]
    cases hrow : s.view.stock.lookup item.productId with
    | none => trivial
    | some row =>
      by_cases hfits : item.quantity.num ≤ row.availableQuantity - row.reservedQuantity
      · simp only [if_pos hfits]
        exact pcOk_nextLine (hres.increase hvalid hrow hfits) htx
      · simp only [if_neg hfits]
        trivial
  | reserveInsert =>
    cases hpt
    obtain ⟨hres, htx⟩ := h
    simp only [perform]
    split
    · trivial
    · exact ⟨⟨hres.reserves, hres.fresh, hres.checked, hres.tracks, hres.covered, hres.fits⟩, by
        rw [Session.writeReservation, htx]⟩
  | reserveCommit => cases hpt; rfl
  | settleBegin row =>
    cases hpt
    exact pcOk_nextItem (settling_start rfl h.2.1 h.2.2.1 h.2.2.2) rfl
  | settleAvailable row item rest =>
    cases hpt
    obtain ⟨htarget, hset, htx⟩ := h
    obtain ⟨hans, hkeep⟩ :=
      perform_decrement item.productId .availableQuantity item.quantity s
    rw [hans]
    exact ⟨hset.decrementAvailable htarget, by rw [hkeep, htx]⟩
  | settleReserved row item rest =>
    cases hpt
    obtain ⟨hset, htx⟩ := h
    obtain ⟨hans, hkeep⟩ := perform_decrement item.productId .reservedQuantity item.quantity s
    rw [hans]
    exact pcOk_nextItem hset.decrementReserved (by rw [hkeep, htx])
  | settleLoad row =>
    cases hpt
    obtain ⟨hset, htx⟩ := h
    have hload : s.view.reservations.lookup req.orderId = some row := by
      rw [Session.view, htx, Finmap.empty_union, hset.found]
    simp only [perform, hload, orRollback, afterLoad, if_neg hset.guarded.ne_target]
    exact ⟨hset, htx⟩
  | settleStore row =>
    cases hpt
    obtain ⟨hset, htx⟩ := h
    have hload : s.view.reservations.lookup req.orderId = some row := by
      rw [Session.view, htx, Finmap.empty_union, hset.found]
    simp only [perform, hload]
    exact ⟨⟨hset.found, hset.guarded, hset.integral, hset.left, hset.leftAvailable_subset,
      hset.tracks⟩, by rw [Session.writeReservation, htx]⟩
  | settleInsert row => exact h.elim
  | settleCommit row => cases hpt; rfl
  | rollback cause => cases hpt; rfl
  | returned reply => cases hpt

/-- A rejected statement leaves nothing behind. -/
theorem PcOk.reject {pc : Pc} {op : Op} {next : Except Failure (Ans op) → Pc}
    (hpt : pc.point req = .wait op next) (err : Failure) :
    PcOk req s.discard (next (.error err)) := by
  cases pc with
  | returned reply => cases hpt
  | find => cases hpt; rfl
  | rollback cause => cases hpt; rfl
  | _ => cases hpt; trivial

end Step

/-! ## Under interleaving -/

section Frame

variable {req : Request} {db db' tx : Tables}

theorem Reserving.frame {left : List ReservedItem} (h : Reserving req left ⟨db, tx⟩)
    (hstock : ∀ p, p ∈ tx.stock → db'.stock.lookup p = db.stock.lookup p)
    (hgrow : ∀ p, p ∈ db.stock → p ∈ db'.stock)
    (hres : db'.reservations.lookup req.orderId = db.reservations.lookup req.orderId) :
    Reserving req left ⟨db', tx⟩ where
  reserves := h.reserves
  fresh := hres.trans h.fresh
  checked := h.checked
  tracks := h.tracks.frame hstock fun c p hp => by
    cases c with
    | availableQuantity => rfl
    | reservedQuantity => exact h.covered p hp
  covered := fun p hp => by
    refine h.covered p ?_
    rw [Session.view, Table.lookup_union, Option.or_eq_none_iff] at hp ⊢
    refine ⟨hp.1, Finmap.lookup_eq_none.mpr fun hmem => ?_⟩
    exact Finmap.lookup_eq_none.mp hp.2 (hgrow p hmem)
  fits := h.fits

theorem Settling.frame {row : Reservation} {leftAvailable leftReserved : List ReservedItem}
    (h : Settling req row leftAvailable leftReserved ⟨db, tx⟩)
    (hrows : ∀ item ∈ row.items, item.productId ∈ db.stock)
    (hstock : ∀ p, p ∈ tx.stock → db'.stock.lookup p = db.stock.lookup p)
    (hres : db'.reservations.lookup req.orderId = db.reservations.lookup req.orderId) :
    Settling req row leftAvailable leftReserved ⟨db', tx⟩ where
  found := hres.trans h.found
  guarded := h.guarded
  integral := h.integral
  left := h.left
  leftAvailable_subset := h.leftAvailable_subset
  tracks := h.tracks.frame hstock fun c p hp => by
    rw [Session.view, Table.lookup_union, Option.or_eq_none_iff] at hp
    have hne : ∀ items : List ReservedItem, (∀ item ∈ items, item ∈ row.items) →
        lineTotal items p = 0 := fun items hsub => lineTotal_eq_zero fun item hi heq =>
      Finmap.lookup_eq_none.mp hp.2 (heq ▸ hrows item (hsub item hi))
    have hreserved := hne leftReserved h.left
    have havailable := hne leftAvailable fun i hi => h.left i (h.leftAvailable_subset i hi)
    have hrow := hne row.items fun _ hi => hi
    cases c with
    | availableQuantity => simp only [settling, havailable, hrow, sub_zero, ite_self]
    | reservedQuantity => simp only [settling, hreserved, hrow, sub_zero]

/-- **A handler is undisturbed** by a change of the committed database that
leaves the rows it has written and the reservation of its order alone. -/
theorem PcOk.frame {pc : Pc} (h : PcOk req ⟨db, tx⟩ pc)
    (hrows : ∀ row, db.reservations.lookup req.orderId = some row →
      ∀ item ∈ row.items, item.productId ∈ db.stock)
    (hstock : ∀ p, p ∈ tx.stock → db'.stock.lookup p = db.stock.lookup p)
    (hgrow : ∀ p, p ∈ db.stock → p ∈ db'.stock)
    (hres : db'.reservations.lookup req.orderId = db.reservations.lookup req.orderId) :
    PcOk req ⟨db', tx⟩ pc := by
  cases pc with
  | find => exact h
  | reserveBegin => exact ⟨h.1, h.2.1, hres.trans h.2.2⟩
  | reserveFind item rest => exact ⟨h.1, h.2.1.frame hstock hgrow hres, h.2.2⟩
  | reserveSeed item rest => exact ⟨h.1, h.2.1.frame hstock hgrow hres, h.2.2⟩
  | reserveUpdate item rest => exact ⟨h.1, h.2.1.frame hstock hgrow hres, h.2.2⟩
  | reserveInsert => exact ⟨h.1.frame hstock hgrow hres, h.2⟩
  | reserveCommit => exact ⟨h.1.frame hstock hgrow hres, h.2⟩
  | settleBegin row => exact ⟨h.1, hres.trans h.2.1, h.2.2⟩
  | settleAvailable row item rest =>
    exact ⟨h.1, h.2.1.frame (hrows row h.2.1.found) hstock hres, h.2.2⟩
  | settleReserved row item rest => exact ⟨h.1.frame (hrows row h.1.found) hstock hres, h.2⟩
  | settleLoad row => exact ⟨h.1.frame (hrows row h.1.found) hstock hres, h.2⟩
  | settleStore row => exact ⟨h.1.frame (hrows row h.1.found) hstock hres, h.2⟩
  | settleInsert row => exact h
  | settleCommit row => exact ⟨h.1.frame (hrows row h.1.found) hstock hres, h.2⟩
  | rollback cause => trivial
  | returned reply => exact h

end Frame

end Inventory

end Ecommerce
