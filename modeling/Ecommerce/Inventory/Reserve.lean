import Ecommerce.Inventory.Serial
/-!
# What `reserve` comes to

`reserveLines` is the loop of `reserve` as a function on the stock rows: it
leaves the rows with every line added, or names the product of the line
that stopped it. `serve_reserve` proves that a `reserve` handled alone is
that function between its status read and its commit, and nothing at all
where the loop stops.
-/

namespace Ecommerce

namespace Inventory

/-- The rows of the stock table. -/
abbrev Stock := Table ProductId StockItem

/-- The row of a product with more units reserved. -/
def StockItem.reserve (row : StockItem) (n : ℤ) : StockItem :=
  row.set .reservedQuantity (row.reservedQuantity + n)

/-- One line: the rows it leaves, or the product it stops at. -/
def reserveLine (item : ReservedItem) (stock : Stock) : Except ProductId Stock :=
  let row := rowOf stock item.productId
  if validQuantity item.quantity ∧
      item.quantity.num ≤ row.availableQuantity - row.reservedQuantity then
    .ok (stock.insert item.productId (row.reserve item.quantity.num))
  else .error item.productId

/-- The lines, one after another. -/
def reserveLines : List ReservedItem → Stock → Except ProductId Stock
  | [], stock => .ok stock
  | item :: rest, stock => (reserveLine item stock).bind (reserveLines rest)

/-- What a `reserve` replies and leaves behind when it is handled alone. -/
def reserveAlone (o : OrderId) (items : List ReservedItem) (db : Tables) : Reply × Tables :=
  match db.reservations.lookup o with
  | some row => (.result ⟨decide (row.status ≠ .released), none⟩, db)
  | none =>
    match reserveLines items db.stock with
    | .ok stock => (succeeded, ⟨stock, db.reservations.insert o ⟨items, .reserved⟩⟩)
    | .error p => (reserveFailed (.insufficientStock p), db)

section Lines

variable {item : ReservedItem} {items rest : List ReservedItem} {stock stock' : Stock}
variable {p : ProductId}

theorem reserveLine_of_fits (hvalid : validQuantity item.quantity = true)
    (hfits : item.quantity.num ≤ (rowOf stock item.productId).availableQuantity -
      (rowOf stock item.productId).reservedQuantity) :
    reserveLine item stock =
      .ok (stock.insert item.productId ((rowOf stock item.productId).reserve item.quantity.num)) :=
  if_pos ⟨hvalid, hfits⟩

theorem reserveLine_of_short (hshort : ¬ item.quantity.num ≤
    (rowOf stock item.productId).availableQuantity - (rowOf stock item.productId).reservedQuantity) :
    reserveLine item stock = .error item.productId :=
  if_neg fun h => hshort h.2

theorem reserveLine_of_invalid (hvalid : ¬ validQuantity item.quantity = true) :
    reserveLine item stock = .error item.productId :=
  if_neg fun h => hvalid h.1

theorem valid_of_reserveLine (h : reserveLine item stock = .ok stock') :
    validQuantity item.quantity = true := by
  by_contra hvalid
  rw [reserveLine_of_invalid hvalid] at h
  cases h

/-- The lines of a list are those of its halves. -/
theorem reserveLines_append : reserveLines (items ++ rest) stock =
    (reserveLines items stock).bind (reserveLines rest) := by
  induction items generalizing stock with
  | nil => rfl
  | cons item items ih =>
    rw [List.cons_append, reserveLines, reserveLines]
    cases reserveLine item stock with
    | error p => rfl
    | ok stock' => exact ih

/-- One more line after some that went through. -/
theorem reserveLines_concat (h : reserveLines items stock = .ok stock') :
    reserveLines (items ++ [item]) stock = reserveLine item stock' := by
  rw [reserveLines_append, h]
  change (reserveLine item stock').bind _ = _
  cases reserveLine item stock' <;> rfl

/-- Lines stop where a first part of them stops. -/
theorem reserveLines_error_of_append (h : reserveLines items stock = .error p) :
    reserveLines (items ++ rest) stock = .error p := by
  rw [reserveLines_append, h]
  rfl

/-- What went through is valid. -/
theorem valid_of_reserveLines (h : reserveLines items stock = .ok stock') :
    ∀ item ∈ items, validQuantity item.quantity = true := by
  induction items generalizing stock with
  | nil => intro item hi; cases hi
  | cons head rest ih =>
    rw [reserveLines] at h
    cases hline : reserveLine head stock with
    | error p => rw [hline] at h; cases h
    | ok next =>
      rw [hline] at h
      intro item hi
      rcases List.mem_cons.mp hi with rfl | hi
      · exact valid_of_reserveLine hline
      · exact ih h item hi

end Lines

/-! ## The handler alone -/

/-- The run of one statement that nothing rejects. -/
theorem query_run (op : Op) (s : Session) :
    (query op).run performWith (s, []) = ((perform op s).1, ((perform op s).2, [])) := rfl

/-- **How a part of `reserve`'s transaction ends**: with the rows a function of the rows
it began with gives, or by throwing that a product falls short. -/
inductive Ends (s : Session) : Except ProductId Stock → Except Failure Unit × (Session × List Bool) →
    Prop
  | ok {stock : Stock} {s' : Session} (hdb : s'.db = s.db) (hview : s'.view.stock = stock)
      (hres : s'.tx.reservations = s.tx.reservations) : Ends s (.ok stock) (.ok (), (s', []))
  | error {p : ProductId} {s' : Session} (hdb : s'.db = s.db) :
      Ends s (.error p) (.error (.insufficientStock p), (s', []))

/-- After `ensureStockExists` the product has the row `rowOf` says. -/
theorem ensureStockExists_run (p : ProductId) (s : Session) :
    ∃ s', (ensureStockExists p).run performWith (s, []) = (.ok (), (s', [])) ∧ s'.db = s.db ∧
      s'.tx.reservations = s.tx.reservations ∧
      s'.view.stock = s.view.stock.insert p (rowOf s.view.stock p) := by
  have hfind : (query (.findStock p)).run performWith (s, []) =
      (.ok (s.view.stock.lookup p), (s, [])) := rfl
  unfold ensureStockExists
  rw [Program.run_bind_of_ok _ hfind]
  cases hrow : s.view.stock.lookup p with
  | some row =>
    refine ⟨s, rfl, rfl, rfl, ?_⟩
    rw [rowOf_of_lookup hrow, Table.insert_lookup hrow]
  | none =>
    have hrun : perform (.insertStock p ⟨DEFAULT_STOCK_QUANTITY, 0⟩) s =
        (.ok (), s.writeStock p ⟨DEFAULT_STOCK_QUANTITY, 0⟩) := by
      simp only [perform, hrow]
    refine ⟨s.writeStock p ⟨DEFAULT_STOCK_QUANTITY, 0⟩, ?_, rfl, rfl, ?_⟩
    · change (query _).run performWith (s, []) = _
      rw [query_run, hrun]
    · rw [Session.view_writeStock, rowOf_of_none hrow]

/-- **One line of `reserve` is `reserveLine`.** -/
theorem reserveItem_run (item : ReservedItem) (s : Session) :
    Ends s (reserveLine item s.view.stock) ((reserveItem item).run performWith (s, [])) := by
  unfold reserveItem
  by_cases hvalid : validQuantity item.quantity = true
  · rw [if_pos hvalid]
    obtain ⟨s', hrun, hdb, hres, hview⟩ := ensureStockExists_run item.productId s
    rw [Program.run_bind_of_ok _ hrun]
    -- The conditional `UPDATE` finds the row and decides.
    have hrow : s'.view.stock.lookup item.productId = some (rowOf s.view.stock item.productId) := by
      rw [hview, Finmap.lookup_insert]
    by_cases hfits : item.quantity.num ≤ (rowOf s.view.stock item.productId).availableQuantity -
        (rowOf s.view.stock item.productId).reservedQuantity
    · have hup : perform (.increaseReserved item.productId item.quantity.num) s' =
          (.ok 1, s'.writeStock item.productId
            ((rowOf s.view.stock item.productId).reserve item.quantity.num)) := by
        simp only [perform, hrow, if_pos hfits, StockItem.reserve]
      rw [Program.run_bind_of_ok _ ((query_run _ s').trans (by rw [hup])),
        reserveLine_of_fits hvalid hfits]
      refine .ok hdb ?_ hres
      rw [Session.view_writeStock, hview, Finmap.insert_insert]
    · have hup : perform (.increaseReserved item.productId item.quantity.num) s' = (.ok 0, s') := by
        simp only [perform, hrow, if_neg hfits]
      rw [Program.run_bind_of_ok _ ((query_run _ s').trans (by rw [hup])),
        reserveLine_of_short hfits]
      exact .error hdb
  · rw [if_neg hvalid, reserveLine_of_invalid hvalid]
    exact .error rfl

/-- **The loop of `reserve` is `reserveLines`.** -/
theorem reserveItems_run (items : List ReservedItem) (s : Session) :
    Ends s (reserveLines items s.view.stock) ((reserveItems items).run performWith (s, [])) := by
  induction items generalizing s with
  | nil => exact .ok rfl rfl rfl
  | cons item rest ih =>
    rw [reserveLines, reserveItems]
    have hitem := reserveItem_run item s
    generalize hline : reserveLine item s.view.stock = line at hitem ⊢
    generalize hrun : (reserveItem item).run performWith (s, []) = ran at hitem
    cases hitem with
    | error hdb =>
      rw [Program.run_bind_of_error _ hrun]
      exact .error hdb
    | @ok stock s' hdb hview hres =>
      rw [Program.run_bind_of_ok _ hrun]
      change Ends s (reserveLines rest stock) _
      have hrest := ih s'
      rw [hview] at hrest
      generalize reserveLines rest stock = left at hrest ⊢
      generalize (reserveItems rest).run performWith (s', []) = ran' at hrest ⊢
      cases hrest with
      | ok hdb' hview' hres' => exact .ok (hdb'.trans hdb) hview' (hres'.trans hres)
      | error hdb' => exact .error (hdb'.trans hdb)

/-- A transaction whose body returns is committed. -/
theorem transaction_run_of_ok {α : Type} {body : Prog α} {s s' : Session} {a : α}
    (h : body.run performWith (s.discard, []) = (.ok a, (s', []))) :
    (transaction body).run performWith (s, []) = (.ok a, (⟨s'.view, ∅⟩, [])) := by
  refine Program.run_tryCatch_of_ok _ ?_
  have hbegin : (query .begin).run performWith (s, []) = (.ok (), (s.discard, [])) := rfl
  have hcommit : (query .commit).run performWith (s', []) = (.ok (), (⟨s'.view, ∅⟩, [])) := rfl
  rw [Program.run_bind_of_ok _ hbegin, Program.run_bind_of_ok _ h, Program.run_bind_of_ok _ hcommit]
  rfl

/-- One whose body throws is rolled back. -/
theorem transaction_run_of_error {α : Type} {body : Prog α} {s s' : Session} {err : Failure}
    (h : body.run performWith (s.discard, []) = (.error err, (s', []))) :
    (transaction body).run performWith (s, []) = (.error err, (s'.discard, [])) := by
  have hbegin : (query .begin).run performWith (s, []) = (.ok (), (s.discard, [])) := rfl
  refine (Program.run_tryCatch_of_error _ (?_ : _ = (Except.error err, (s', [])))).trans rfl
  rw [Program.run_bind_of_ok _ hbegin, Program.run_bind_of_error _ h]

/-- **`reserve` handled alone**, when the message comes for the first time. -/
theorem serve_reserve (o : OrderId) (items : List ReservedItem) (db : Tables) :
    serve [] (.reserve o items false) db =
      (.ok (reserveAlone o items db).1, (reserveAlone o items db).2) := by
  have hview : (Session.mk db ∅).view = db := Session.view_of_empty rfl
  have hfind : (query (.findReservation o)).run performWith (⟨db, ∅⟩, []) =
      (.ok (db.reservations.lookup o), (⟨db, ∅⟩, [])) := by
    change (Except.ok ((Session.mk db ∅).view.reservations.lookup o), (Session.mk db ∅, [])) = _
    rw [hview]
  have hitems := reserveItems_run items ⟨db, ∅⟩
  rw [hview] at hitems
  change Prod.map id (·.1.db) ((reserve o items false).run performWith (⟨db, ∅⟩, [])) = _
  unfold reserve reserveAlone
  cases hrow : db.reservations.lookup o with
  | some row =>
    rw [hrow] at hfind
    rw [if_neg (by decide), Program.run_tryCatch_of_ok _ (Program.run_bind_of_ok _ hfind)]
    rfl
  | none =>
    rw [hrow] at hfind
    rw [if_neg (by decide)]
    generalize reserveLines items db.stock = lines at hitems ⊢
    generalize hrun : (reserveItems items).run performWith (⟨db, ∅⟩, []) = ran at hitems
    cases hitems with
    | @error p s' hdb =>
      -- The loop throws, and the transaction is rolled back.
      have hbody := transaction_run_of_error (s := ⟨db, ∅⟩)
        (Program.run_bind_of_error (f := fun _ => query (.insertReservation o ⟨items, .reserved⟩)) _
          hrun)
      rw [Program.run_tryCatch_of_error _ ((Program.run_bind_of_ok _ hfind).trans
        (Program.run_bind_of_error _ hbody))]
      exact congrArg (Prod.mk _) hdb
    | @ok stock s' hdb hstock hres =>
      -- The reservation is inserted, and the transaction is committed.
      have hsame : s'.view.reservations = db.reservations := by
        change s'.tx.reservations ∪ s'.db.reservations = _
        rw [hres, hdb]
        exact Finmap.empty_union
      have hfresh : s'.view.reservations.lookup o = none := by rw [hsame, hrow]
      have hinsert : (query (.insertReservation o ⟨items, .reserved⟩)).run performWith (s', []) =
          (.ok (), (s'.writeReservation o ⟨items, .reserved⟩, [])) := by
        rw [query_run]
        simp only [perform, hfresh]
      have hbody := transaction_run_of_ok (s := ⟨db, ∅⟩)
        ((Program.run_bind_of_ok (f := fun _ => query (.insertReservation o ⟨items, .reserved⟩)) _
          hrun).trans hinsert)
      rw [Program.run_tryCatch_of_ok _ ((Program.run_bind_of_ok _ hfind).trans
        (Program.run_bind_of_ok _ hbody))]
      refine congrArg (Prod.mk _) (congrArg₂ Tables.mk hstock ?_)
      rw [← hsame]
      exact Session.view_writeReservation o _

end Inventory

end Ecommerce
