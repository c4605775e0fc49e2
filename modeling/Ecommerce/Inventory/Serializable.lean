import Ecommerce.Inventory.Oversell
import Ecommerce.Inventory.Reserve
import Ecommerce.Inventory.Sequences
import Mathlib.Data.List.Permutation
/-!
# Reservations in parallel, and one after another

Every `reserve` takes effect in one statement: its status read when the
reservation is there or a quantity is not valid, the `UPDATE` that finds
too little stock, or its `COMMIT`. Up to that statement the rows it has
written are locked, so its lines would come to the same on any committed
rows (`Applied`), and the log of these statements is a serial run with the
same flags and the same tables. What has no place in the log is a `reserve`
that acts on a read another one has overtaken: it seeds a product that has
been seeded since, or goes on for an order that has been reserved since.
-/

namespace Ecommerce

namespace Inventory

/-- The success flag of a reply; a nack has none. -/
def Reply.flag : Reply → Option Bool
  | .result r => some r.success
  | .nack _ => none

/-- The success flag a handler ends with. -/
def flagOf : Except Failure Reply → Option Bool
  | .ok reply => reply.flag
  | .error _ => none

/-- Requests handled one after another, with no statement rejected: their success flags,
and the tables they leave. -/
def serial (reqs : List Request) (db : Tables) : List (Option Bool) × Tables :=
  let r := serveAll (reqs.map fun req => ⟨req, []⟩) db
  (r.1.map flagOf, r.2)

theorem serial_concat {reqs : List Request} {req : Request} {db db' db'' : Tables}
    {flags : List (Option Bool)} {flag : Option Bool} (h : serial reqs db = (flags, db'))
    (hreq : Prod.map flagOf id (serve [] req db') = (flag, db'')) :
    serial (reqs ++ [req]) db = (flags ++ [flag], db'') := by
  obtain ⟨rfl, rfl⟩ := Prod.mk.inj h
  obtain ⟨rfl, rfl⟩ := Prod.mk.inj hreq
  unfold serial
  rw [List.map_append, serveAll_append]
  simp only [List.map_append]
  rfl

/-- Whether every line asks for a positive number of units. -/
def Request.valid (req : Request) : Bool := req.items.all fun item => validQuantity item.quantity

/-- The flag a handler is bound to end with, once it is. -/
def Pc.outcome (req : Request) : Pc → Option (Option Bool)
  | .find => none
  | .returned reply => some reply.flag
  | .rollback cause => some (failed req cause).flag
  | _ => if req.valid then none else some (some false)

/-- A handler that is bound to a flag, with its request. -/
def Thread.verdict (t : Thread) : Option (Request × Option Bool) :=
  (t.pc.outcome t.req).map fun flag => (t.req, flag)

/-- The flag a handler has returned with. -/
def Thread.flag (t : Thread) : Option Bool :=
  match t.pc with
  | .returned reply => reply.flag
  | _ => none

/-- **The handlers that have run are serializable**: in some order, handled one after
another, they give the same flags and leave the same tables. -/
def Serializable (db : Tables) (s : Sql) : Prop :=
  ∃ order : List (Request × Option Bool),
    order.Perm (s.threads.map fun t => (t.req, t.flag)) ∧
      serial (order.map Prod.fst) db = (order.map Prod.snd, s.db)

/-! ## The conditions -/

/-- Too little stock for a line. -/
def ReservedItem.short (item : ReservedItem) (stock : Stock) : Bool :=
  decide (¬ item.quantity.num ≤ (rowOf stock item.productId).availableQuantity -
    (rowOf stock item.productId).reservedQuantity)

/-- The next statement of a `reserve` acts on an overtaken read: the product it is about to
seed has a row, or the order it is about to reserve, or to give up for too little stock,
has a reservation. -/
def Sql.overtaken (s : Sql) (t : Thread) : Bool :=
  match t.pc with
  | .reserveSeed item _ => (s.db.stock.lookup item.productId).isSome
  | .reserveUpdate item _ => item.short (Session.mk s.db t.tx).view.stock &&
      (s.db.reservations.lookup t.req.orderId).isSome
  | .reserveInsert => (s.db.reservations.lookup t.req.orderId).isSome
  | _ => false

/-- The runs of `reserve` in which no statement is rejected but for what the tables say. -/
def OnlyReserves : Label → Prop
  | .send req => req.isReserve = true
  | .exec _ => True
  | .abort _ _ => False

/-- Those in which no statement of a valid request acts on an overtaken read. -/
def Undisturbed (s : Sql) : Label → Prop
  | .send req => req.isReserve = true
  | .exec i => ∀ t ∈ s.threads[i]?, t.req.valid = true → s.overtaken t = false
  | .abort _ _ => False

/-! ## The rows a transaction has written -/

/-- **The rows written are what the lines done come to**, on whatever rows the rest of the
table holds. -/
def Applied (done : List ReservedItem) (written stock : Stock) : Prop :=
  ∀ other : Stock, (∀ p ∈ written, other.lookup p = stock.lookup p) →
    reserveLines done other = .ok (written ∪ other)

/-- The rows once `ensureStockExists` has looked after the product of a line: as they were,
or with the row it has seeded. -/
inductive Ensured (p : ProductId) (written stock : Stock) : Stock → Prop
  | found (h : p ∈ written ∪ stock) : Ensured p written stock written
  | seeded (hnot : p ∉ written) (hnone : stock.lookup p = none) :
      Ensured p written stock (written.insert p ⟨DEFAULT_STOCK_QUANTITY, 0⟩)

section Applied

variable {done rest : List ReservedItem} {item : ReservedItem} {written stock stock' now : Stock}
variable {p : ProductId}

theorem Applied.start : Applied [] ∅ stock := by
  intro other _
  rw [Finmap.empty_union]
  rfl

/-- Rows that are not written may change. -/
theorem Applied.frame (h : Applied done written stock)
    (hsame : ∀ p ∈ written, stock'.lookup p = stock.lookup p) : Applied done written stock' :=
  fun other hother => h other fun p hp => (hother p hp).trans (hsame p hp)

/-- On the rows there are. -/
theorem Applied.here (h : Applied done written stock) :
    reserveLines done stock = .ok (written ∪ stock) := h stock fun _ _ => rfl

theorem Ensured.frame (h : Ensured p written stock now)
    (hsame : ∀ p ∈ now, stock'.lookup p = stock.lookup p) (hgrow : ∀ p ∈ stock, p ∈ stock') :
    Ensured p written stock' now := by
  cases h with
  | found h => exact .found ((Finmap.mem_union.mp h).elim
      (fun hw => Finmap.mem_union.mpr (.inl hw)) fun hs => Finmap.mem_union.mpr (.inr (hgrow p hs)))
  | seeded hnot hnone =>
    exact .seeded hnot ((hsame p (Finmap.mem_insert.mpr (.inl rfl))).trans hnone)

theorem Ensured.subset (h : Ensured p written stock now) : ∀ q ∈ written, q ∈ now := by
  intro q hq
  cases h with
  | found h => exact hq
  | seeded hnot hnone => exact Finmap.mem_insert.mpr (.inr hq)

/-- The row the conditional `UPDATE` meets is the one `reserveLine` looks at. -/
theorem Ensured.row (h : Ensured p written stock now) :
    (now ∪ stock).lookup p = some (rowOf (written ∪ stock) p) := by
  cases h with
  | found h =>
    obtain ⟨row, hrow⟩ := Finmap.mem_iff.mp h
    rw [hrow, rowOf_of_lookup hrow]
  | seeded hnot hnone =>
    have hlookup : (written ∪ stock).lookup p = none := by
      rw [Table.lookup_union, Finmap.lookup_eq_none.mpr hnot, hnone]
      rfl
    rw [rowOf_of_none hlookup, Table.lookup_union, Finmap.lookup_insert]
    rfl

/-- The row after it. -/
theorem Ensured.insert (h : Ensured p written stock now) (row : StockItem) :
    now.insert p row = written.insert p row := by
  cases h with
  | found h => rfl
  | seeded hnot hnone => exact Finmap.insert_insert _

/-- **One more line is done.** -/
theorem Applied.line (h : Applied done written stock) (he : Ensured item.productId written stock now)
    (hvalid : validQuantity item.quantity = true)
    (hfits : item.quantity.num ≤ (rowOf (written ∪ stock) item.productId).availableQuantity -
      (rowOf (written ∪ stock) item.productId).reservedQuantity) :
    Applied (done ++ [item]) (now.insert item.productId
      ((rowOf (written ∪ stock) item.productId).reserve item.quantity.num)) stock := by
  intro other hother
  have hsame : ∀ q ∈ written, other.lookup q = stock.lookup q := fun q hq =>
    hother q (Finmap.mem_insert.mpr (.inr (he.subset q hq)))
  have hown : other.lookup item.productId = stock.lookup item.productId :=
    hother _ (Finmap.mem_insert.mpr (.inl rfl))
  have hrow : rowOf (written ∪ other) item.productId = rowOf (written ∪ stock) item.productId := by
    unfold rowOf
    rw [Table.lookup_union, Table.lookup_union, hown]
  rw [reserveLines_concat (h other hsame), reserveLine_of_fits hvalid (hrow ▸ hfits), hrow,
    he.insert, Finmap.insert_union]

/-- The line falls short. -/
theorem Applied.short (h : Applied done written stock)
    (hshort : ¬ item.quantity.num ≤ (rowOf (written ∪ stock) item.productId).availableQuantity -
      (rowOf (written ∪ stock) item.productId).reservedQuantity) :
    reserveLines (done ++ item :: rest) stock = .error item.productId := by
  rw [List.append_cons]
  exact reserveLines_error_of_append
    ((reserveLines_concat h.here).trans (reserveLine_of_short hshort))

end Applied

/-! ## One handler -/

/-- A `reserve` in its transaction, with the lines `done` behind it. -/
structure Underway (items done rest : List ReservedItem) (written : Stock) (s : Session) : Prop where
  lines : items = done ++ rest
  applied : Applied done written s.db.stock
  reservations : s.tx.reservations = ∅

/-- **The invariant of a `reserve` at a point.** -/
def Doing (o : OrderId) (items : List ReservedItem) (s : Session) : Pc → Prop
  | .find => s.tx = ∅
  | .reserveBegin => True
  | .reserveFind item rest => validQuantity item.quantity = true ∧
      ∃ done, Underway items done (item :: rest) s.tx.stock s
  | .reserveSeed item rest => validQuantity item.quantity = true ∧ item.productId ∉ s.tx.stock ∧
      ∃ done, Underway items done (item :: rest) s.tx.stock s
  | .reserveUpdate item rest => validQuantity item.quantity = true ∧
      ∃ done written, Underway items done (item :: rest) written s ∧
        Ensured item.productId written s.db.stock s.tx.stock
  | .reserveInsert => Underway items items [] s.tx.stock s
  | .reserveCommit => Applied items s.tx.stock s.db.stock ∧
      s.db.reservations.lookup o = none ∧
      s.tx.reservations = Finmap.insert o ⟨items, .reserved⟩ ∅
  | .rollback _ => True
  | .returned _ => True
  | _ => False

section Doing

variable {o : OrderId} {items done rest : List ReservedItem} {item : ReservedItem} {s : Session}
variable {pc : Pc}

/-- What others commit does not disturb it. -/
theorem Doing.frame {db db' tx : Tables} (h : Doing o items ⟨db, tx⟩ pc)
    (hstock : ∀ p ∈ tx.stock, db'.stock.lookup p = db.stock.lookup p)
    (hres : ∀ o ∈ tx.reservations, db'.reservations.lookup o = db.reservations.lookup o)
    (hgrow : ∀ p ∈ db.stock, p ∈ db'.stock) : Doing o items ⟨db', tx⟩ pc := by
  cases pc with
  | reserveFind item rest =>
    obtain ⟨hvalid, done, hu⟩ := h
    exact ⟨hvalid, done, hu.lines, hu.applied.frame hstock, hu.reservations⟩
  | reserveSeed item rest =>
    obtain ⟨hvalid, hnot, done, hu⟩ := h
    exact ⟨hvalid, hnot, done, hu.lines, hu.applied.frame hstock, hu.reservations⟩
  | reserveUpdate item rest =>
    obtain ⟨hvalid, done, written, hu, he⟩ := h
    refine ⟨hvalid, done, written, ⟨hu.lines, ?_, hu.reservations⟩, he.frame hstock hgrow⟩
    exact hu.applied.frame fun p hp => hstock p (he.subset p hp)
  | reserveInsert => exact ⟨h.lines, h.applied.frame hstock, h.reservations⟩
  | reserveCommit =>
    obtain ⟨happlied, hnone, htx⟩ := h
    refine ⟨happlied.frame hstock, ?_, htx⟩
    have hmem : o ∈ tx.reservations := by
      rw [show tx.reservations = _ from htx]
      exact Finmap.mem_insert.mpr (.inl rfl)
    exact (hres o hmem).trans hnone
  | _ => exact h

/-- The next line, or the insert of the reservation. -/
theorem doing_nextLine (h : Underway items done rest s.tx.stock s) :
    Doing o items s (nextLine rest) := by
  cases rest with
  | nil =>
    have hitems : items = done := h.lines.trans (List.append_nil done)
    exact ⟨(List.append_nil items).symm, hitems ▸ h.applied, h.reservations⟩
  | cons item rest =>
    rw [nextLine]
    split
    · exact ⟨‹_›, done, h⟩
    · trivial

/-- A request with an invalid line is refused whatever its next line is. -/
theorem outcome_nextLine (b : Bool) (h : ∀ item ∈ rest, item ∈ items) :
    (nextLine rest).outcome (.reserve o items b) =
      if (Request.reserve o items b).valid then none else some (some false) := by
  cases rest with
  | nil => rfl
  | cons item rest =>
    rw [nextLine]
    split
    · rfl
    · rename_i hinvalid
      have hnot : ¬ (Request.reserve o items b).valid = true := fun hvalid =>
        hinvalid (List.all_eq_true.mp hvalid item (h item List.mem_cons_self))
      rw [if_neg hnot]
      rfl

/-- **What a statement does to the outcome**: nothing, or it is the one at which the request
takes effect. -/
inductive Decides (req : Request) (db : Tables) :
    Option (Option Bool) → Option (Option Bool) → Tables → Prop
  | keeps (outcome : Option (Option Bool)) : Decides req db outcome outcome db
  | effects {flag : Option Bool} {db' : Tables}
      (h : Prod.map flagOf id (serve [] req db) = (flag, db')) : Decides req db none (some flag) db'

/-- A request that is refused on these tables. -/
theorem decides_refused {db : Tables} {p : ProductId} (h : reserveLines items db.stock = .error p)
    (hnone : db.reservations.lookup o = none) :
    Decides (.reserve o items false) db none (some (some false)) db := by
  refine .effects ?_
  rw [serve_reserve]
  unfold reserveAlone
  rw [hnone]
  dsimp only
  rw [h]
  rfl

theorem valid_of_underway (h : Underway items items [] s.tx.stock s) :
    (Request.reserve o items false).valid = true :=
  List.all_eq_true.mpr (valid_of_reserveLines h.applied.here)

/-! ### One statement of a `reserve`, answered -/

/-- **What a statement keeps**: the invariant, and that the request takes effect as it would
alone. -/
structure Advances (o : OrderId) (items : List ReservedItem) (db : Tables) (pc pc' : Pc)
    (s' : Session) : Prop where
  doing : Doing o items s' pc'
  decides : Decides (.reserve o items false) db (pc.outcome (.reserve o items false))
    (pc'.outcome (.reserve o items false)) s'.db

variable {db tx : Tables}

/-- The idempotency read: a reservation that is there decides the request, and so does an
invalid line. -/
theorem advances_find : Advances o items db .find
    (afterFind (.reserve o items false) (db.reservations.lookup o)) ⟨db, ∅⟩ := by
  cases hrow : db.reservations.lookup o with
  | some row =>
    refine ⟨trivial, .effects ?_⟩
    rw [serve_reserve]
    unfold reserveAlone
    rw [hrow]
    rfl
  | none =>
    refine ⟨trivial, ?_⟩
    change Decides _ db none (if _ then none else some (some false)) db
    split
    · exact .keeps none
    · -- A line is not valid, so the request is refused.
      rename_i hinvalid
      cases hlines : reserveLines items db.stock with
      | error p => exact decides_refused hlines hrow
      | ok stock => exact absurd (List.all_eq_true.mpr (valid_of_reserveLines hlines)) hinvalid

/-- The read of the stock row: it is there, or it is about to be seeded. -/
theorem advances_reads (h : Doing o items ⟨db, tx⟩ (.reserveFind item rest)) :
    Advances o items db (.reserveFind item rest)
      (afterStock item rest ((Session.mk db tx).view.stock.lookup item.productId)) ⟨db, tx⟩ := by
  obtain ⟨hvalid, done, hu⟩ := h
  cases hrow : (Session.mk db tx).view.stock.lookup item.productId with
  | some row =>
    have hfound : Ensured item.productId tx.stock db.stock tx.stock :=
      .found (Finmap.mem_of_lookup_eq_some hrow)
    exact ⟨⟨hvalid, done, tx.stock, hu, hfound⟩, .keeps _⟩
  | none =>
    have hnot : item.productId ∉ tx.stock := fun hmem =>
      Finmap.lookup_eq_none.mp hrow (Finmap.mem_union.mpr (.inl hmem))
    exact ⟨⟨hvalid, hnot, done, hu⟩, .keeps _⟩

/-- The seeding `INSERT`. -/
theorem advances_seeds {op : Op} {next : Except Failure (Ans op) → Pc}
    (h : Doing o items ⟨db, tx⟩ (.reserveSeed item rest))
    (hpt : (Pc.reserveSeed item rest).point (.reserve o items false) = .wait op next)
    (hfree : (Request.reserve o items false).valid = true →
      db.stock.lookup item.productId = none) :
    Advances o items db (.reserveSeed item rest) (next (perform op ⟨db, tx⟩).1)
      (perform op ⟨db, tx⟩).2 := by
  cases hpt
  obtain ⟨hvalid, hnot, done, hu⟩ := h
  cases hrow : (Session.mk db tx).view.stock.lookup item.productId with
  | none =>
    have hnone : db.stock.lookup item.productId = none :=
      (Option.or_eq_none_iff.mp (Table.lookup_union.symm.trans hrow)).2
    simp only [perform, hrow]
    refine ⟨⟨hvalid, done, tx.stock, ⟨hu.lines, hu.applied, hu.reservations⟩, ?_⟩, .keeps _⟩
    exact .seeded hnot hnone
  | some row =>
    -- The product has been seeded since, so the request is an invalid one.
    have hdb : db.stock.lookup item.productId = some row := by
      rwa [show (Session.mk db tx).view.stock = tx.stock ∪ db.stock from rfl, Table.lookup_union,
        Finmap.lookup_eq_none.mpr hnot, Option.none_or] at hrow
    have hinvalid : ¬ (Request.reserve o items false).valid = true := fun hv => by
      rw [hfree hv] at hdb
      cases hdb
    simp only [perform, hrow]
    refine ⟨trivial, ?_⟩
    change Decides _ db (if _ then none else some (some false)) (some (some false)) db
    rw [if_neg hinvalid]
    exact .keeps _

/-- The conditional `UPDATE`: the line is done, or it falls short. -/
theorem advances_updates {op : Op} {next : Except Failure (Ans op) → Pc}
    (h : Doing o items ⟨db, tx⟩ (.reserveUpdate item rest))
    (hpt : (Pc.reserveUpdate item rest).point (.reserve o items false) = .wait op next)
    (hfree : (Request.reserve o items false).valid = true →
      item.short (Session.mk db tx).view.stock = true → db.reservations.lookup o = none) :
    Advances o items db (.reserveUpdate item rest) (next (perform op ⟨db, tx⟩).1)
      (perform op ⟨db, tx⟩).2 := by
  cases hpt
  obtain ⟨hvalid, done, written, hu, he⟩ := h
  have hrow : (Session.mk db tx).view.stock.lookup item.productId = some _ := he.row
  by_cases hfits : item.quantity.num ≤ (rowOf (written ∪ db.stock) item.productId).availableQuantity -
      (rowOf (written ∪ db.stock) item.productId).reservedQuantity
  · have hu' : Underway items (done ++ [item]) rest (tx.stock.insert item.productId
        ((rowOf (written ∪ db.stock) item.productId).reserve item.quantity.num))
        ((Session.mk db tx).writeStock item.productId
          ((rowOf (written ∪ db.stock) item.productId).reserve item.quantity.num)) :=
      ⟨by rw [hu.lines, List.append_cons], hu.applied.line he hvalid hfits, hu.reservations⟩
    have hlines : ∀ i ∈ rest, i ∈ items := fun i hi => by
      rw [hu.lines]
      exact List.mem_append_right _ (List.mem_cons_of_mem _ hi)
    simp only [perform, hrow, if_pos hfits]
    refine ⟨doing_nextLine hu', ?_⟩
    change Decides _ db _ ((nextLine rest).outcome _) db
    rw [outcome_nextLine false hlines]
    exact .keeps _
  · simp only [perform, hrow, if_neg hfits]
    refine ⟨trivial, ?_⟩
    change Decides _ db (if _ then none else some (some false)) (some (some false)) db
    split
    · -- The line that falls short refuses the request.
      rename_i hv
      have hlines : reserveLines items db.stock = .error item.productId :=
        hu.lines ▸ hu.applied.short hfits
      have hshort : item.short (Session.mk db tx).view.stock = true := by
        rw [ReservedItem.short, rowOf_of_lookup hrow]
        exact decide_eq_true hfits
      exact decides_refused hlines (hfree hv hshort)
    · exact .keeps _

/-- The `INSERT` of the reservation. -/
theorem advances_inserts {op : Op} {next : Except Failure (Ans op) → Pc}
    (h : Doing o items ⟨db, tx⟩ .reserveInsert)
    (hpt : Pc.reserveInsert.point (.reserve o items false) = .wait op next)
    (hnone : db.reservations.lookup o = none) :
    Advances o items db .reserveInsert (next (perform op ⟨db, tx⟩).1) (perform op ⟨db, tx⟩).2 := by
  cases hpt
  have hrow : (Session.mk db tx).view.reservations.lookup o = none := by
    rw [show (Session.mk db tx).view.reservations = tx.reservations ∪ db.reservations from rfl,
      show tx.reservations = ∅ from h.reservations, Finmap.empty_union, hnone]
  simp only [Request.orderId, Request.items, perform, hrow]
  refine ⟨⟨h.applied, hnone, ?_⟩, .keeps _⟩
  exact congrArg (Finmap.insert o _) h.reservations

/-- The `COMMIT`, at which the request takes effect. -/
theorem advances_commits {op : Op} {next : Except Failure (Ans op) → Pc}
    (h : Doing o items ⟨db, tx⟩ .reserveCommit)
    (hpt : Pc.reserveCommit.point (.reserve o items false) = .wait op next) :
    Advances o items db .reserveCommit (next (perform op ⟨db, tx⟩).1) (perform op ⟨db, tx⟩).2 := by
  cases hpt
  obtain ⟨happlied, hnone, htx⟩ := h
  have hv : (Request.reserve o items false).valid = true :=
    List.all_eq_true.mpr (valid_of_reserveLines happlied.here)
  refine ⟨trivial, ?_⟩
  change Decides _ db (if _ then none else some (some false)) (some (some true))
    (Session.mk db tx).view
  rw [if_pos hv]
  refine .effects ?_
  rw [serve_reserve]
  unfold reserveAlone
  rw [hnone]
  dsimp only
  rw [happlied.here]
  refine congrArg (Prod.mk _) (congrArg (Tables.mk _) ?_)
  rw [show tx.reservations = _ from htx, ← Finmap.insert_union, Finmap.empty_union]

/-- **One statement of a `reserve`**, that does not act on an overtaken read. -/
theorem Doing.step {op : Op} {next : Except Failure (Ans op) → Pc}
    (h : Doing o items ⟨db, tx⟩ pc) (hpt : pc.point (.reserve o items false) = .wait op next)
    (hfree : (Request.reserve o items false).valid = true →
      Sql.overtaken ⟨db, []⟩ ⟨.reserve o items false, pc, tx⟩ = false) :
    Advances o items db pc (next (perform op ⟨db, tx⟩).1) (perform op ⟨db, tx⟩).2 := by
  cases pc with
  | find =>
    cases hpt
    obtain rfl : tx = ∅ := h
    have hview : (Session.mk db ∅).view = db := Session.view_of_empty rfl
    change Advances o items db .find
      (afterFind _ ((Session.mk db ∅).view.reservations.lookup o)) ⟨db, ∅⟩
    rw [hview]
    exact advances_find
  | reserveBegin =>
    cases hpt
    have hu : Underway items [] items (Session.mk db ∅).tx.stock ⟨db, ∅⟩ :=
      ⟨rfl, Applied.start, rfl⟩
    refine ⟨doing_nextLine hu, ?_⟩
    change Decides _ db _ ((nextLine items).outcome _) db
    rw [outcome_nextLine false fun _ hi => hi]
    exact .keeps _
  | reserveFind item rest =>
    cases hpt
    exact advances_reads h
  | reserveSeed item rest =>
    refine advances_seeds h hpt fun hv => ?_
    exact Option.isNone_iff_eq_none.mp (Option.isSome_eq_false_iff.mp (hfree hv))
  | reserveUpdate item rest =>
    refine advances_updates h hpt fun hv hshort => ?_
    have hfree := hfree hv
    rw [Sql.overtaken] at hfree
    simp only [hshort, Bool.true_and, Option.isSome_eq_false_iff, Option.isNone_iff_eq_none]
      at hfree
    exact hfree
  | reserveInsert =>
    have hv := valid_of_underway (o := o) h
    exact advances_inserts h hpt
      (Option.isNone_iff_eq_none.mp (Option.isSome_eq_false_iff.mp (hfree hv)))
  | reserveCommit => exact advances_commits h hpt
  | rollback cause =>
    cases hpt
    exact ⟨trivial, .keeps _⟩
  | returned reply => cases hpt
  | _ => exact h.elim

end Doing

/-! ## All of them -/

/-- **The invariant of the interleaving**: no two transactions have written one row, and the
requests that have taken effect are a serial run. -/
structure Orderly (start : Tables) (s : Sql) : Prop where
  doing : ∀ t ∈ s.threads, ∃ o items b, t.req = .reserve o items b ∧
    (b = true → ∃ reply, t.pc = .returned reply) ∧ Doing o items ⟨s.db, t.tx⟩ t.pc
  apart : ∀ (i j : ℕ) t u k, i ≠ j → s.threads[i]? = some t → s.threads[j]? = some u →
    t.tx.holds k = true → u.tx.holds k = false
  log : ∃ log : List (Request × Option Bool), log.Perm (s.threads.filterMap Thread.verdict) ∧
    serial (log.map Prod.fst) start = (log.map Prod.snd, s.db)

variable {start : Tables} {s s' : Sql}

/-- The log after one more request has taken effect, or none. -/
theorem Decides.log {req : Request} {db db' : Tables} {before after : Option (Option Bool)}
    {log : List (Request × Option Bool)} (h : Decides req db before after db')
    (hlog : serial (log.map Prod.fst) start = (log.map Prod.snd, db)) :
    ∃ new, after.toList.map (fun flag => (req, flag)) =
        before.toList.map (fun flag => (req, flag)) ++ new ∧
      serial ((log ++ new).map Prod.fst) start = ((log ++ new).map Prod.snd, db') := by
  cases h with
  | keeps outcome =>
    refine ⟨[], (List.append_nil _).symm, ?_⟩
    rwa [List.append_nil]
  | @effects flag db' h =>
    refine ⟨[(req, flag)], rfl, ?_⟩
    rw [List.map_append, List.map_append]
    exact serial_concat hlog h

theorem Pc.returned_of_isReturned {pc : Pc} (h : pc.isReturned = true) :
    ∃ reply, pc = .returned reply := by
  cases pc with
  | returned reply => exact ⟨reply, rfl⟩
  | _ => cases h

theorem toList_verdict (t : Thread) :
    t.verdict.toList = (t.pc.outcome t.req).toList.map fun flag => (t.req, flag) := by
  unfold Thread.verdict
  cases t.pc.outcome t.req <;> rfl

namespace Orderly

/-- A statement is executed. -/
theorem exec (h : Orderly start s) {i : ℕ} {t : Thread} {op : Op}
    {next : Except Failure (Ans op) → Pc} (hi : s.threads[i]? = some t)
    (hpt : t.pc.point t.req = .wait op next) (hunlocked : s.locked i (op.writes ⟨s.db, t.tx⟩) = false)
    (hfree : t.req.valid = true → s.overtaken t = false) :
    Orderly start (s.put i t.req (perform op ⟨s.db, t.tx⟩).2 (next (perform op ⟨s.db, t.tx⟩).1)) := by
  obtain ⟨o, items, b, hreq, hred, hdoing⟩ := h.doing t (List.mem_of_getElem? hi)
  obtain rfl : b = false := by
    by_contra hb
    obtain ⟨reply, hpc⟩ := hred (by simpa using hb)
    exact not_returned_of_wait hpt reply hpc
  obtain ⟨req, pc, tx⟩ := t
  obtain rfl : req = .reserve o items false := hreq
  have hdoing : Doing o items ⟨s.db, tx⟩ pc := hdoing
  obtain ⟨hdoing', hdecides⟩ := hdoing.step hpt hfree
  have hlock : ∀ k, (perform op ⟨s.db, tx⟩).2.tx.holds k = true → tx.holds k = true ∨
      ∀ j u, j ≠ i → s.threads[j]? = some u → u.tx.holds k = false := by
    intro k hk
    refine (holds_of_perform hk).imp id fun hwrites j u hj hu => ?_
    rw [hwrites] at hunlocked
    exact Sql.not_holds_of_unlocked hunlocked hj hu
  refine ⟨fun u hu => ?_, fun j k u v key hjk hj hk hkey => ?_, ?_⟩
  · -- doing
    obtain ⟨j, hj⟩ := List.mem_iff_getElem?.mp hu
    obtain ⟨rfl, rfl⟩ | ⟨hne, hj'⟩ := Sql.put_threads hj
    · exact ⟨o, items, false, rfl, fun hcon => absurd hcon (by decide), hdoing'⟩
    · obtain ⟨o', items', b', hreq', hred', hu'⟩ := h.doing u (List.mem_of_getElem? hj')
      have hother : ∀ k, u.tx.holds k = true → tx.holds k = false := fun k hk =>
        h.apart j i u _ k hne hj' hi hk
      refine ⟨o', items', b', hreq', hred', hu'.frame (fun p hp => perform_stock fun hcon => ?_)
        (fun q hq => perform_reservations fun hcon => ?_) fun p hp => mem_stock_of_perform hp⟩
      · have := hother (.stock p) (Finmap.lookup_isSome.mpr hp)
        rw [show tx.holds (.stock p) = true from Finmap.lookup_isSome.mpr hcon] at this
        cases this
      · have := hother (.reservation q) (Finmap.lookup_isSome.mpr hq)
        rw [show tx.holds (.reservation q) = true from Finmap.lookup_isSome.mpr hcon] at this
        cases this
  · -- apart
    obtain ⟨rfl, rfl⟩ | ⟨hji, hj'⟩ := Sql.put_threads hj
    · obtain ⟨hkj, -⟩ | ⟨hkj, hk'⟩ := Sql.put_threads hk
      · exact absurd hkj.symm hjk
      · rcases hlock key hkey with hown | hothers
        · exact h.apart j k _ v key hjk hi hk' hown
        · exact hothers k v hkj hk'
    · obtain ⟨rfl, rfl⟩ | ⟨hki, hk'⟩ := Sql.put_threads hk
      · by_contra hcon
        rcases hlock key (by simpa using hcon) with hown | hothers
        · rw [h.apart k j _ u key (Ne.symm hjk) hi hj' hown] at hkey
          cases hkey
        · rw [hothers j u hji hj'] at hkey
          cases hkey
      · exact h.apart j k u v key hjk hj' hk' hkey
  · -- log
    obtain ⟨log, hperm, hlog⟩ := h.log
    obtain ⟨new, hnew, hlog'⟩ := hdecides.log hlog
    refine ⟨log ++ new, (hperm.append_right new).trans (filterMap_set_perm hi ?_).symm, hlog'⟩
    rw [toList_verdict, toList_verdict]
    exact hnew

/-- A request is delivered. -/
theorem send (h : Orderly start s) {req : Request} (hreq : req.isReserve = true) :
    Orderly start ⟨s.db, s.threads ++ [⟨req, req.start, ∅⟩]⟩ := by
  cases req with
  | confirm o b => cases hreq
  | release o b => cases hreq
  | reserve o items b =>
    refine ⟨fun u hu => ?_, fun j k u v key hjk hj hk hkey => ?_, ?_⟩
    · rcases List.mem_append.mp hu with hu | hu
      · exact h.doing u hu
      · obtain rfl := List.mem_singleton.mp hu
        refine ⟨o, items, b, rfl, fun hb => ⟨_, if_pos hb⟩, ?_⟩
        cases b with
        | true => trivial
        | false => rfl
    · rcases getElem?_append_singleton hj with hj | ⟨-, rfl⟩
      · rcases getElem?_append_singleton hk with hk | ⟨-, rfl⟩
        · exact h.apart j k u v key hjk hj hk hkey
        · cases key <;> rfl
      · cases key <;> cases hkey
    · obtain ⟨log, hperm, hlog⟩ := h.log
      rw [List.filterMap_append]
      cases b with
      | true =>
        -- A redelivered request is nacked at once.
        refine ⟨log ++ [(.reserve o items true, none)], hperm.append_right _, ?_⟩
        rw [List.map_append, List.map_append]
        exact serial_concat hlog rfl
      | false =>
        refine ⟨log, ?_, hlog⟩
        exact (List.append_nil _).symm ▸ hperm

theorem step (h : Orderly start s) {l : Label} (hg : Undisturbed s l) (hs : s.step l = some s') :
    Orderly start s' := by
  obtain ⟨req, rfl, rfl⟩ | ⟨i, t, op, next, rfl, hi, hpt, hunlocked, rfl⟩ |
    ⟨i, t, op, next, message, rfl, hi, hpt, rfl⟩ := Sql.step_cases hs
  · exact h.send hg
  · exact h.exec hi hpt hunlocked (hg t hi)
  · exact hg.elim

/-- Once every handler has returned, all of them are in the log. -/
theorem serializable (h : Orderly start s) (hdone : ∀ t ∈ s.threads, t.pc.isReturned = true) :
    Serializable start s := by
  obtain ⟨log, hperm, hlog⟩ := h.log
  refine ⟨log, hperm.trans (List.Perm.of_eq ?_), hlog⟩
  rw [← List.filterMap_eq_map]
  refine List.filterMap_congr fun t ht => ?_
  obtain ⟨reply, hpc⟩ := Pc.returned_of_isReturned (hdone t ht)
  simp only [Thread.verdict, Function.comp_apply, Thread.flag, hpc]
  rfl

end Orderly

/-- **Concurrent reserves are serializable**, in every run in which no statement acts on an
overtaken read: once all of them have returned, they might have been handled in turn. -/
theorem serializable_of_reach (h : Reach Sql.step (· = ⟨start, []⟩) Undisturbed s)
    (hdone : ∀ t ∈ s.threads, t.pc.isReturned = true) : Serializable start s := by
  refine (h.invariant_from (I := Orderly start) ?_
    fun _ _ _ hinv hg hs => hinv.step hg hs).serializable hdone
  exact ⟨fun t ht => (by cases ht), fun i j t u k _ hi => (by cases hi), [], List.Perm.refl _, rfl⟩

/-! ## Runs -/

instance (s : Sql) : (l : Label) → Decidable (Undisturbed s l)
  | .send req => inferInstanceAs (Decidable (req.isReserve = true))
  | .exec i => inferInstanceAs (Decidable (∀ t ∈ s.threads[i]?, t.req.valid = true →
      s.overtaken t = false))
  | .abort _ _ => inferInstanceAs (Decidable False)

instance : (l : Label) → Decidable (OnlyReserves l)
  | .send req => inferInstanceAs (Decidable (req.isReserve = true))
  | .exec _ => inferInstanceAs (Decidable True)
  | .abort _ _ => inferInstanceAs (Decidable False)

/-- A unit of `"p"` for the order `o`. -/
def oneUnit (o : OrderId) : Request := .reserve o [⟨"p", 1⟩] false

/-- Two orders race for the last unit: one of them gets it, as it would if they had come in
turn. -/
theorem serializable_race :
    ∃ s, Reach Sql.step (· = ⟨oneLeft, []⟩) Undisturbed s ∧
      s.threads.map (fun t => (t.req, t.flag)) =
        [(oneUnit "a", some true), (oneUnit "b", some false)] ∧ Serializable oneLeft s := by
  obtain ⟨s, hreach, hs⟩ := Reach.exists_of_follow Sql.step (· = ⟨oneLeft, []⟩) Undisturbed rfl
    [.send (oneUnit "a"), .send (oneUnit "b"), .exec 0, .exec 1, .exec 0, .exec 1, .exec 0, .exec 1,
      .exec 0, .exec 0, .exec 0, .exec 1, .exec 1]
    (fun s => s.threads.all (fun t => t.pc.isReturned) &&
      decide (s.threads.map (fun t => (t.req, t.flag)) =
        [(oneUnit "a", some true), (oneUnit "b", some false)])) (by decide +kernel)
  rw [Bool.and_eq_true, List.all_eq_true, decide_eq_true_eq] at hs
  exact ⟨s, hreach, hs.2, serializable_of_reach hreach hs.1⟩

/-- Two orders are the first to ask for a product: both find no row for it, and the one whose
seed comes second is refused, although a thousand units are left. -/
theorem not_serializable_of_seeds :
    ¬ ∀ start s, Reach Sql.step (· = ⟨start, []⟩) (fun _ l => OnlyReserves l) s →
      (∀ t ∈ s.threads, t.pc.isReturned = true) → Serializable start s := by
  intro h
  obtain ⟨s, hreach, hs⟩ := Reach.exists_of_follow Sql.step (· = ⟨∅, []⟩)
    (fun _ l => OnlyReserves l) rfl
    [.send (oneUnit "a"), .send (oneUnit "b"), .exec 0, .exec 1, .exec 0, .exec 1, .exec 0, .exec 1,
      .exec 0, .exec 0, .exec 0, .exec 0, .exec 1, .exec 1]
    (fun s => s.threads.all (fun t => t.pc.isReturned) &&
      decide (s.threads.map (fun t => (t.req, t.flag)) =
        [(oneUnit "a", some true), (oneUnit "b", some false)])) (by decide +kernel)
  rw [Bool.and_eq_true, List.all_eq_true, decide_eq_true_eq] at hs
  obtain ⟨order, hperm, hserial⟩ := h ∅ s hreach hs.1
  rw [hs.2, ← List.mem_permutations'] at hperm
  have hall : ∀ order ∈ [(oneUnit "a", some true), (oneUnit "b", some false)].permutations',
      (serial (order.map Prod.fst) ∅).1 ≠ order.map Prod.snd := by decide +kernel
  exact hall order hperm (congrArg Prod.fst hserial)

end Inventory

end Ecommerce
