import Ecommerce.Inventory.Unvalidated
/-!
# Reading a reservation back

`reserve` adds `Number(quantity)` of each line, and what `confirm` and
`release` subtract is what Postgres reads in the quantity's text.
`settledExactly_iff` says for which accepted lists the two are the same
integer: numbers always are, and booleans never; a string or an array is
where Postgres reads its text as JavaScript does. Of that reading no more
is known than `Lawful` states, and `canBeSettled_iff` says which lists are
settled whatever it is otherwise: those without booleans whose texts are
integer numerals.
-/

namespace Ecommerce

namespace Inventory

namespace Unvalidated

open Js (Value Numeric numeral)

/-- **What the statements of `decrement` are known to do**: an integer numeral in the range of
the column is subtracted, and a boolean is rejected. -/
structure Lawful (evaluate : String → Option (ℤ → ℤ)) : Prop where
  numeral : ∀ text n, numeral text.toList = some n → |n| ≤ INT_MAX →
    evaluate text = some fun column => column - n
  rejects_true : evaluate "true" = none
  rejects_false : evaluate "false" = none

/-- The integer `reserve` adds for a quantity. -/
def amount (v : Value) : ℤ := (v.toNumber.map integer).getD 0

/-- A quantity `reserve` accepts: a positive integer in the range of the column. -/
def Accepted (v : Value) : Prop :=
  ∃ n : ℤ, v.toNumber = some (.finite n) ∧ 0 < n ∧ n ≤ INT_MAX

/-- The stock with the lines of a reservation added. -/
def addedStock : List ReservedItem → Stock → Stock
  | [], stock => stock
  | item :: rest, stock => addedStock rest (stock.insert item.productId
    ((rowOf stock item.productId).reserve (amount item.quantity)))

/-- The stock with an integer subtracted from a column of a product's row. -/
def subtract (p : ProductId) (c : StockColumn) (n : ℤ) (stock : Stock) : Stock :=
  match stock.lookup p with
  | some row => stock.insert p (row.set c (row.col c - n))
  | none => stock

/-- The stock with the lines of a reservation confirmed. -/
def confirmedStock : List ReservedItem → Stock → Stock
  | [], stock => stock
  | item :: rest, stock => confirmedStock rest
    (subtract item.productId .reservedQuantity (amount item.quantity)
      (subtract item.productId .availableQuantity (amount item.quantity) stock))

/-- The stock with the lines of a reservation released. -/
def releasedStock : List ReservedItem → Stock → Stock
  | [], stock => stock
  | item :: rest, stock => releasedStock rest
    (subtract item.productId .reservedQuantity (amount item.quantity) stock)

/-- A `decrement` of a quantity is carried out, and subtracts what was added for it. -/
def Subtracts (evaluate : String → Option (ℤ → ℤ)) (v : Value) : Prop :=
  ∀ p c (s : Session), ∃ s', perform evaluate (.decrement p c v) s = (.ok (), s') ∧
    s'.db = s.db ∧ s'.tx.reservations = s.tx.reservations ∧
      s'.view.stock = subtract p c (amount v) s.view.stock

/-- **What was reserved is settled exactly.** -/
structure SettledExactly (evaluate : String → Option (ℤ → ℤ)) (o : OrderId)
    (items : List ReservedItem) (db db' : Tables) : Prop where
  /-- `reserve` has added its integer for each line. -/
  added : db'.stock = addedStock items db.stock
  /-- The statements of `confirm` and `release` subtract that integer for each line. -/
  subtracts : ∀ item ∈ items, Subtracts evaluate item.quantity
  /-- In whatever state the reservation is RESERVED, `confirm` succeeds with it, -/
  confirms : ∀ now : Tables, now.reservations.lookup o = some ⟨items, .reserved⟩ →
    serve evaluate (confirm o false) now = (.ok succeeded,
      ⟨confirmedStock items now.stock, now.reservations.insert o ⟨items, .confirmed⟩⟩)
  /-- and so does `release`. -/
  releases : ∀ now : Tables, now.reservations.lookup o = some ⟨items, .reserved⟩ →
    serve evaluate (release o false) now = (.ok succeeded,
      ⟨releasedStock items now.stock, now.reservations.insert o ⟨items, .released⟩⟩)

/-- **A quantity Postgres reads as JavaScript does.** -/
def Readable (evaluate : String → Option (ℤ → ℤ)) : Value → Prop
  | .number _ => True
  | .bool _ => False
  | v => ∀ text, v.toText = some text → numeral text.toList = none →
    evaluate text = some fun column => column - amount v

/-- What the status read of a handler answers. -/
theorem findReservation_run (evaluate : String → Option (ℤ → ℤ)) (o : OrderId) (db : Tables) :
    (query (.findReservation o)).run (perform evaluate) ⟨db, ∅⟩ =
      (.ok (db.reservations.lookup o), ⟨db, ∅⟩) := by
  have hview : (Session.mk db ∅).view = db := Session.view_of_empty rfl
  change (Except.ok ((Session.mk db ∅).view.reservations.lookup o), Session.mk db ∅) = _
  rw [hview]

/-! ## What `reserve` accepts -/

section Reserve

variable {evaluate : String → Option (ℤ → ℤ)} {item : ReservedItem} {items : List ReservedItem}
variable {s s' : Session}

theorem exists_of_number {v : Value} {x : Numeric}
    (h : (number v).run (perform evaluate) s = (.ok x, s')) : v.toNumber = some x ∧ s' = s := by
  unfold number at h
  cases hv : v.toNumber with
  | none => rw [hv] at h; cases h
  | some y =>
    rw [hv] at h
    obtain ⟨hx, rfl⟩ := Prod.mk.inj h
    exact ⟨congrArg some (Except.ok.inj hx), rfl⟩

/-- After `ensureStockExists` the product has the row `rowOf` says. -/
theorem ensureStockExists_run (evaluate : String → Option (ℤ → ℤ)) (p : ProductId) (s : Session) :
    ∃ s', (ensureStockExists p).run (perform evaluate) s = (.ok (), s') ∧ s'.db = s.db ∧
      s'.tx.reservations = s.tx.reservations ∧
      s'.view.stock = s.view.stock.insert p (rowOf s.view.stock p) := by
  unfold ensureStockExists
  rw [Program.run_await_bind]
  change ∃ s', (Program.done (.ok (s.view.stock.lookup p)) >>= _).run _ s = _ ∧ _
  rw [Program.done_ok_bind]
  cases hrow : s.view.stock.lookup p with
  | some row =>
    refine ⟨s, rfl, rfl, rfl, ?_⟩
    rw [rowOf_of_lookup hrow, Table.insert_lookup hrow]
  | none =>
    refine ⟨s.writeStock p ⟨DEFAULT_STOCK_QUANTITY, 0⟩, ?_, rfl, rfl, ?_⟩
    · change perform evaluate (.insertStock p ⟨DEFAULT_STOCK_QUANTITY, 0⟩) s = _
      simp only [perform, hrow]
    · rw [Session.view_writeStock, rowOf_of_none hrow]

/-- The conditional `UPDATE` that affects a row found the units, and has reserved them. -/
theorem fits_of_increaseReserved {p : ProductId} {q : ℤ} {row : StockItem} {affected : ℕ}
    (hrow : s.view.stock.lookup p = some row)
    (h : (query (.increaseReserved p q)).run (perform evaluate) s = (.ok affected, s'))
    (hne : affected ≠ 0) : q ≤ INT_MAX ∧ s' = s.writeStock p (row.reserve q) := by
  change perform evaluate (.increaseReserved p q) s = _ at h
  simp only [perform, hrow] at h
  split at h
  · cases h
  · rename_i hmax
    split at h
    · obtain ⟨-, rfl⟩ := Prod.mk.inj h
      exact ⟨not_lt.mp hmax, rfl⟩
    · obtain ⟨haffected, -⟩ := Prod.mk.inj h
      exact absurd (Except.ok.inj haffected).symm hne

/-- A valid number is a positive integer, the one `integer` takes from it. -/
theorem finite_of_validNumber {x : Numeric} (h : validNumber x = true) :
    x = .finite (integer x : ℚ) ∧ 0 < integer x := by
  cases x with
  | finite q =>
    refine ⟨congrArg Numeric.finite (num_of_valid h).symm, ?_⟩
    exact Rat.num_pos.mpr (pos_of_valid h)
  | _ => cases h

/-- **A line that goes through is accepted, and added.** -/
theorem accepted_of_reserveItem (h : (reserveItem item).run (perform evaluate) s = (.ok (), s')) :
    Accepted item.quantity ∧ s'.db = s.db ∧ s'.tx.reservations = s.tx.reservations ∧
      s'.view.stock = s.view.stock.insert item.productId
        ((rowOf s.view.stock item.productId).reserve (amount item.quantity)) := by
  obtain ⟨x, s₁, hx, hrest⟩ := Program.exists_of_run_bind _ h
  obtain ⟨hnumber, rfl⟩ := exists_of_number hx
  by_cases hvalid : validNumber x = true
  · rw [if_pos hvalid] at hrest
    obtain ⟨s₂, hrun, hdb, hres, hview⟩ := ensureStockExists_run evaluate item.productId s₁
    rw [Program.run_bind_of_ok _ hrun] at hrest
    obtain ⟨affected, s₃, hupdate, hthrow⟩ := Program.exists_of_run_bind _ hrest
    have hne : affected ≠ 0 := by
      rintro rfl
      cases hthrow
    rw [if_neg hne] at hthrow
    obtain ⟨-, rfl⟩ := Prod.mk.inj hthrow
    have hrow : s₂.view.stock.lookup item.productId =
        some (rowOf s₁.view.stock item.productId) := by
      rw [hview, Finmap.lookup_insert]
    obtain ⟨hmax, rfl⟩ := fits_of_increaseReserved hrow hupdate hne
    obtain ⟨hfinite, hpos⟩ := finite_of_validNumber hvalid
    have hamount : amount item.quantity = integer x := by
      rw [amount, hnumber]
      rfl
    refine ⟨⟨integer x, hnumber.trans (congrArg some hfinite), hpos, hmax⟩, hdb, hres, ?_⟩
    rw [Session.view_writeStock, hview, Finmap.insert_insert, hamount]
  · rw [if_neg hvalid] at hrest
    cases hrest

/-- **A loop that goes through accepts all its lines, and adds them.** -/
theorem accepted_of_reserveItems
    (h : (reserveItems items).run (perform evaluate) s = (.ok (), s')) :
    (∀ item ∈ items, Accepted item.quantity) ∧ s'.db = s.db ∧
      s'.tx.reservations = s.tx.reservations ∧ s'.view.stock = addedStock items s.view.stock := by
  induction items generalizing s with
  | nil =>
    obtain ⟨-, rfl⟩ := Prod.mk.inj h
    exact ⟨fun item hi => (nomatch hi), rfl, rfl, rfl⟩
  | cons item rest ih =>
    obtain ⟨_, s₁, hitem, hrest⟩ := Program.exists_of_run_bind _ h
    obtain ⟨haccepted, hdb, hres, hview⟩ := accepted_of_reserveItem hitem
    obtain ⟨hall, hdb', hres', hview'⟩ := ih hrest
    refine ⟨List.forall_mem_cons.mpr ⟨haccepted, hall⟩, hdb'.trans hdb, hres'.trans hres, ?_⟩
    rw [hview', hview]
    rfl

/-- A transaction that returned is one whose body has. -/
theorem exists_of_transaction {α : Type} {body : Prog α} {a : α}
    (h : (transaction body).run (perform evaluate) s = (.ok a, s')) :
    ∃ s₁, body.run (perform evaluate) s.discard = (.ok a, s₁) ∧ s' = ⟨s₁.view, ∅⟩ := by
  rcases Program.run_tryCatch_cases _ h with h | ⟨e, s₁, -, h⟩
  · obtain ⟨_, s₁, hbegin, h⟩ := Program.exists_of_run_bind _ h
    obtain ⟨-, rfl⟩ := Prod.mk.inj hbegin
    obtain ⟨b, s₂, hbody, h⟩ := Program.exists_of_run_bind _ h
    obtain ⟨_, s₃, hcommit, h⟩ := Program.exists_of_run_bind _ h
    obtain ⟨-, rfl⟩ := Prod.mk.inj hcommit
    obtain ⟨hb, rfl⟩ := Prod.mk.inj h
    obtain rfl := Except.ok.inj hb
    exact ⟨s₂, hbody, rfl⟩
  · -- A `catch` that rolls back throws on.
    cases h

/-- **A `reserve` that succeeds for an order without a reservation accepts its lines, and adds
them.** -/
theorem accepted_of_serve {o : OrderId} {db db' : Tables}
    (hnone : db.reservations.lookup o = none)
    (h : serve evaluate (reserve o items false) db = (.ok succeeded, db')) :
    (∀ item ∈ items, Accepted item.quantity) ∧ db'.stock = addedStock items db.stock := by
  have hview : (Session.mk db ∅).view = db := Session.view_of_empty rfl
  rcases hrun : (reserve o items false).run (perform evaluate) ⟨db, ∅⟩ with ⟨result, s'⟩
  rw [serve, hrun] at h
  obtain ⟨rfl, rfl⟩ := Prod.mk.inj h
  unfold reserve at hrun
  rw [if_neg (by decide)] at hrun
  rcases Program.run_tryCatch_cases _ hrun with hbody | ⟨e, s₁, -, hcaught⟩
  · have hfind := findReservation_run evaluate o db
    rw [hnone] at hfind
    rw [Program.run_bind_of_ok _ hfind] at hbody
    obtain ⟨_, s₂, htx, hdone⟩ := Program.exists_of_run_bind _ hbody
    obtain ⟨-, rfl⟩ := Prod.mk.inj hdone
    obtain ⟨s₃, hlines, rfl⟩ := exists_of_transaction htx
    obtain ⟨_, s₄, hitems, hinsert⟩ := Program.exists_of_run_bind _ hlines
    obtain ⟨hall, hdb, hres, hstock⟩ := accepted_of_reserveItems hitems
    refine ⟨hall, ?_⟩
    change perform evaluate (.insertReservation o ⟨items, .reserved⟩) s₄ = _ at hinsert
    simp only [perform] at hinsert
    split at hinsert
    · cases hinsert
    · obtain ⟨-, rfl⟩ := Prod.mk.inj hinsert
      change s₄.view.stock = addedStock items db.stock
      rw [hstock]
      exact congrArg (fun tables : Tables => addedStock items tables.stock) hview
  · cases e <;> cases hcaught

end Reserve

/-! ## What is read back -/

section Settle

variable {evaluate : String → Option (ℤ → ℤ)} {item : ReservedItem} {items : List ReservedItem}
variable {v : Value}

/-- A `decrement` whose text is evaluated. -/
theorem perform_decrement {x : Numeric} {text : String} {f : ℤ → ℤ} (hnumber : v.toNumber = some x)
    (hx : x ≠ .nan) (htext : v.toText = some text) (hf : evaluate text = some f) (p : ProductId)
    (c : StockColumn) (s : Session) : perform evaluate (.decrement p c v) s =
      match s.view.stock.lookup p with
      | some row => (.ok (), s.writeStock p (row.set c (f (row.col c))))
      | none => (.ok (), s) := by
  cases x with
  | nan => exact absurd rfl hx
  | _ =>
    cases hrow : s.view.stock.lookup p <;>
      simp only [perform, hnumber, htext, Option.bind_some, hf, hrow]

/-- A text that is evaluated to the subtraction of the amount settles its line. -/
theorem subtracts_of_evaluate {x : Numeric} {text : String} (hnumber : v.toNumber = some x)
    (hx : x ≠ .nan) (htext : v.toText = some text)
    (hf : evaluate text = some fun column => column - amount v) : Subtracts evaluate v := by
  intro p c s
  rw [perform_decrement hnumber hx htext hf]
  unfold subtract
  cases hrow : s.view.stock.lookup p with
  | some row => exact ⟨_, rfl, rfl, rfl, Session.view_writeStock _ _⟩
  | none => exact ⟨_, rfl, rfl, rfl, rfl⟩

/-- And is the only one to: a column of every value tells. -/
theorem evaluate_of_subtracts {x : Numeric} {text : String} (hnumber : v.toNumber = some x)
    (hx : x ≠ .nan) (htext : v.toText = some text) (h : Subtracts evaluate v) :
    evaluate text = some fun column => column - amount v := by
  cases hf : evaluate text with
  | none =>
    obtain ⟨s', hperform, -⟩ := h "p" .availableQuantity ⟨∅, ∅⟩
    simp only [perform, hnumber, htext, Option.bind_some, hf] at hperform
    cases x with
    | nan => exact absurd rfl hx
    | _ => cases hperform
  | some f =>
    refine congrArg some (funext fun column => ?_)
    let s : Session := ⟨⟨(∅ : Stock).insert "p" ⟨column, 0⟩, ∅⟩, ∅⟩
    have hrow : s.view.stock.lookup "p" = some ⟨column, 0⟩ := by
      rw [Session.view_of_empty rfl]
      exact Finmap.lookup_insert _
    obtain ⟨s', hperform, -, -, hview⟩ := h "p" .availableQuantity s
    rw [perform_decrement hnumber hx htext hf, hrow] at hperform
    obtain ⟨-, rfl⟩ := Prod.mk.inj hperform
    unfold subtract at hview
    rw [hrow, Session.view_writeStock] at hview
    have hlookup := congrArg (Finmap.lookup "p") hview
    rw [Finmap.lookup_insert, Finmap.lookup_insert, Option.some.injEq] at hlookup
    exact congrArg StockItem.availableQuantity hlookup

/-- The quantities that are read as their texts. -/
theorem subtracts_iff_of_text {n : ℤ} (hlaw : Lawful evaluate) (hpos : 0 < n) (hmax : n ≤ INT_MAX)
    (hnumber : v.toNumber = some (.finite n))
    (htext : v.toNumber = v.toText.map Js.readNumber) :
    Subtracts evaluate v ↔ ∀ text, v.toText = some text → numeral text.toList = none →
      evaluate text = some fun column => column - amount v := by
  have hamount : amount v = n := by
    rw [amount, hnumber]
    exact Rat.num_intCast n
  obtain ⟨text, hv, hread⟩ := Option.map_eq_some_iff.mp (htext.symm.trans hnumber)
  have hnan : Numeric.finite (n : ℚ) ≠ .nan := nofun
  constructor
  · intro h text' hv' _
    exact evaluate_of_subtracts hnumber hnan hv' h
  · intro h
    refine subtracts_of_evaluate hnumber hnan hv ?_
    cases hm : numeral text.toList with
    | none => exact h text hv hm
    | some m =>
      -- JavaScript reads the numeral as the integer it is, since the integer is small.
      have habs : |n| ≤ INT_MAX := by rwa [abs_of_pos hpos]
      have hsmall : |(n : ℚ)| < 2 ^ 53 := by
        have : |n| < 2 ^ 53 := habs.trans_lt (by decide)
        exact_mod_cast this
      obtain rfl : m = n := by exact_mod_cast Js.eq_of_readNumber hm hread hsmall
      rw [hamount]
      exact hlaw.numeral text m hm habs

/-- The text of an accepted number subtracts it. -/
theorem evaluate_numberText {n : ℤ} (hlaw : Lawful evaluate) (hpos : 0 < n) (hmax : n ≤ INT_MAX) :
    evaluate (Js.numberText n) = some fun column => column - n :=
  hlaw.numeral _ n (Js.numeral_numberText hpos (hmax.trans_lt (by decide)))
    (by rwa [abs_of_pos hpos])

/-- **An accepted quantity is settled by the integer it was added as exactly when it is
readable.** -/
theorem subtracts_iff (hlaw : Lawful evaluate) (h : Accepted v) :
    Subtracts evaluate v ↔ Readable evaluate v := by
  obtain ⟨n, hnumber, hpos, hmax⟩ := h
  cases v with
  | null =>
    obtain h0 := Numeric.finite.inj (Option.some.inj hnumber)
    have : (0 : ℚ) < n := by exact_mod_cast hpos
    exact absurd h0 this.ne
  | bool b =>
    refine iff_of_false (fun h => ?_) id
    have heval := evaluate_of_subtracts hnumber nofun rfl h
    cases b with
    | true => exact nomatch hlaw.rejects_true.symm.trans heval
    | false => exact nomatch hlaw.rejects_false.symm.trans heval
  | number x =>
    obtain rfl : x = n := Numeric.finite.inj (Option.some.inj hnumber)
    refine iff_of_true (subtracts_of_evaluate hnumber nofun rfl ?_) trivial
    rw [evaluate_numberText hlaw hpos hmax, amount, hnumber]
    rfl
  | string text => exact subtracts_iff_of_text hlaw hpos hmax hnumber rfl
  | array items => exact subtracts_iff_of_text hlaw hpos hmax hnumber rfl
  | object members => exact subtracts_iff_of_text hlaw hpos hmax hnumber rfl

/-! ## The two settlements -/

/-- What a settlement's loop does: it leaves the stock a function of the stock gives. -/
def Leaves (evaluate : String → Option (ℤ → ℤ)) (loop : Prog Unit) (after : Stock → Stock) : Prop :=
  ∀ s : Session, ∃ s', loop.run (perform evaluate) s = (.ok (), s') ∧ s'.db = s.db ∧
    s'.tx.reservations = s.tx.reservations ∧ s'.view.stock = after s.view.stock

theorem leaves_done : Leaves evaluate (pure ()) id := fun s => ⟨s, rfl, rfl, rfl, rfl⟩

/-- One loop after another. -/
theorem Leaves.andThen {loop loop' : Prog Unit} {after after' : Stock → Stock}
    (h : Leaves evaluate loop after) (h' : Leaves evaluate loop' after') :
    Leaves evaluate (loop >>= fun _ => loop') (after' ∘ after) := by
  intro s
  obtain ⟨s₁, hrun, hdb, hres, hview⟩ := h s
  obtain ⟨s₂, hrun', hdb', hres', hview'⟩ := h' s₁
  refine ⟨s₂, (Program.run_bind_of_ok _ hrun).trans hrun', hdb'.trans hdb, hres'.trans hres, ?_⟩
  rw [hview', hview]
  rfl

theorem leaves_decrement (h : Subtracts evaluate v) (p : ProductId) (c : StockColumn) :
    Leaves evaluate (query (.decrement p c v)) (subtract p c (amount v)) := fun s => h p c s

/-- `confirm`'s loop subtracts every line from both columns. -/
theorem leaves_confirmItems (h : ∀ item ∈ items, Subtracts evaluate item.quantity) :
    Leaves evaluate (confirmItems items) (confirmedStock items) := by
  induction items with
  | nil => exact leaves_done
  | cons item rest ih =>
    obtain ⟨hitem, hrest⟩ := List.forall_mem_cons.mp h
    exact (leaves_decrement hitem _ _).andThen ((leaves_decrement hitem _ _).andThen (ih hrest))

/-- `release`'s loop subtracts it from what is reserved. -/
theorem leaves_releaseItems (h : ∀ item ∈ items, Subtracts evaluate item.quantity) :
    Leaves evaluate (releaseItems items) (releasedStock items) := by
  induction items with
  | nil => exact leaves_done
  | cons item rest ih =>
    obtain ⟨hitem, hrest⟩ := List.forall_mem_cons.mp h
    exact (leaves_decrement hitem _ _).andThen (ih hrest)

/-- **A settlement whose loop goes through commits** the stock it leaves, and the new status. -/
theorem transaction_run {loop : Prog Unit} {after : Stock → Stock} {o : OrderId} {db : Tables}
    {row : Reservation} {status : ReservationStatus} (hloop : Leaves evaluate loop after)
    (hrow : db.reservations.lookup o = some row) (hne : row.status ≠ status) :
    (transaction do
        loop
        saveReservation o { row with status := status }).run (perform evaluate) ⟨db, ∅⟩ =
      (.ok (), ⟨⟨after db.stock, db.reservations.insert o { row with status := status }⟩, ∅⟩) := by
  have hview : (Session.mk db ∅).view = db := Session.view_of_empty rfl
  obtain ⟨s', hrun, hdb, hres, hstock⟩ := hloop ⟨db, ∅⟩
  rw [hview] at hstock
  have hsame : s'.view.reservations = db.reservations := by
    change s'.tx.reservations ∪ s'.db.reservations = _
    rw [hres, hdb]
    exact Finmap.empty_union
  have hlookup : s'.view.reservations.lookup o = some row := by rw [hsame, hrow]
  -- The row is loaded, and its status differs.
  have hsave : (saveReservation o { row with status := status }).run (perform evaluate) s' =
      (.ok (), s'.writeReservation o { row with status := status }) := by
    have hload : (query (.loadReservation o)).run (perform evaluate) s' = (.ok (some row), s') := by
      change (Except.ok (s'.view.reservations.lookup o), s') = _
      rw [hlookup]
    unfold saveReservation
    rw [Program.run_bind_of_ok _ hload]
    dsimp only
    rw [if_neg hne]
    change perform evaluate (.updateStatus o status) s' = _
    simp only [perform, hlookup]
  have hbegin : (query .begin).run (perform evaluate) ⟨db, ∅⟩ = (.ok (), ⟨db, ∅⟩) := rfl
  have hcommit : ∀ s : Session, (query .commit).run (perform evaluate) s = (.ok (), ⟨s.view, ∅⟩) :=
    fun _ => rfl
  unfold transaction
  refine Program.run_tryCatch_of_ok _ ?_
  rw [Program.run_bind_of_ok _ hbegin,
    Program.run_bind_of_ok _ ((Program.run_bind_of_ok _ hrun).trans hsave),
    Program.run_bind_of_ok _ (hcommit _)]
  refine congrArg (fun tables => (Except.ok (), Session.mk tables ∅)) ?_
  exact congrArg₂ Tables.mk hstock ((Session.view_writeReservation _ _).trans (by rw [hsame]))

/-- `confirm` of a RESERVED reservation whose quantities are read back. -/
theorem serve_confirm (h : ∀ item ∈ items, Subtracts evaluate item.quantity) {o : OrderId}
    {db : Tables} (hrow : db.reservations.lookup o = some ⟨items, .reserved⟩) :
    serve evaluate (confirm o false) db = (.ok succeeded,
      ⟨confirmedStock items db.stock, db.reservations.insert o ⟨items, .confirmed⟩⟩) := by
  have hfind := findReservation_run evaluate o db
  rw [hrow] at hfind
  have hsettle := transaction_run (leaves_confirmItems h) hrow
    (nofun : ReservationStatus.reserved ≠ .confirmed)
  rw [serve]
  unfold confirm
  rw [if_neg (by decide), Program.run_tryCatch_of_ok _ ((Program.run_bind_of_ok _ hfind).trans
    (Program.run_bind_of_ok _ hsettle))]
  rfl

/-- `release` of one. -/
theorem serve_release (h : ∀ item ∈ items, Subtracts evaluate item.quantity) {o : OrderId}
    {db : Tables} (hrow : db.reservations.lookup o = some ⟨items, .reserved⟩) :
    serve evaluate (release o false) db = (.ok succeeded,
      ⟨releasedStock items db.stock, db.reservations.insert o ⟨items, .released⟩⟩) := by
  have hfind := findReservation_run evaluate o db
  rw [hrow] at hfind
  have hsettle := transaction_run (leaves_releaseItems h) hrow
    (nofun : ReservationStatus.reserved ≠ .released)
  rw [serve]
  unfold release
  rw [if_neg (by decide), Program.run_tryCatch_of_ok _ ((Program.run_bind_of_ok _ hfind).trans
    (Program.run_bind_of_ok _ hsettle))]
  rfl

end Settle

/-- **What was reserved is settled exactly if and only if every quantity is readable.** -/
theorem settledExactly_iff {evaluate : String → Option (ℤ → ℤ)} (hlaw : Lawful evaluate)
    {o : OrderId} {items : List ReservedItem} {db db' : Tables}
    (haccepted : ∀ item ∈ items, Accepted item.quantity)
    (hadded : db'.stock = addedStock items db.stock) :
    SettledExactly evaluate o items db db' ↔ ∀ item ∈ items, Readable evaluate item.quantity := by
  have hiff : (∀ item ∈ items, Subtracts evaluate item.quantity) ↔
      ∀ item ∈ items, Readable evaluate item.quantity :=
    forall₂_congr fun item hi => subtracts_iff hlaw (haccepted item hi)
  rw [← hiff]
  exact ⟨SettledExactly.subtracts, fun h => ⟨hadded, h, fun now hnow => serve_confirm h hnow,
    fun now hnow => serve_release h hnow⟩⟩

/-! ## Whatever else Postgres makes of a text -/

/-- **What was reserved can be settled**, on the laws alone. -/
def CanBeSettled (o : OrderId) (items : List ReservedItem) (db db' : Tables) : Prop :=
  ∀ evaluate, Lawful evaluate → SettledExactly evaluate o items db db'

/-- **A quantity that is read back**: a number, or a text that is an integer numeral. -/
def ReadsBack : Value → Prop
  | .number _ => True
  | .bool _ => False
  | v => ∀ text, v.toText = some text → (numeral text.toList).isSome

/-- Postgres on integer numerals, and on nothing else. -/
def onNumerals (text : String) : Option (ℤ → ℤ) :=
  (numeral text.toList).map fun n column => column - n

theorem lawful_onNumerals : Lawful onNumerals where
  numeral text n h _ := by rw [onNumerals, h]; rfl
  rejects_true := rfl
  rejects_false := rfl

/-- What is readable on the laws alone is read back. -/
theorem readsBack_iff {v : Value} :
    ReadsBack v ↔ ∀ evaluate, Lawful evaluate → Readable evaluate v := by
  -- A text that is no numeral is rejected by a Postgres that knows only numerals.
  have htexts : ∀ w : Value, (∀ text, w.toText = some text → (numeral text.toList).isSome) ↔
      ∀ evaluate, Lawful evaluate → ∀ text, w.toText = some text →
        numeral text.toList = none → evaluate text = some fun column => column - amount w := by
    intro w
    constructor
    · intro h evaluate _ text htext hnone
      have hsome := h text htext
      rw [hnone] at hsome
      cases hsome
    · intro h text htext
      by_contra hnot
      have hnone := Option.not_isSome_iff_eq_none.mp hnot
      have heval := h onNumerals lawful_onNumerals text htext hnone
      rw [onNumerals, hnone] at heval
      cases heval
  cases v with
  | number x => exact ⟨fun _ _ _ => trivial, fun _ => trivial⟩
  | bool b => exact ⟨False.elim, fun h => h onNumerals lawful_onNumerals⟩
  | null => exact htexts .null
  | string text => exact htexts (.string text)
  | array items => exact htexts (.array items)
  | object members => exact htexts (.object members)

/-- **What was reserved can be settled if and only if every quantity is read back.** The list is
one `reserve` has accepted; it decrements nothing, so `evaluate` has no part in that. -/
theorem canBeSettled_iff {evaluate : String → Option (ℤ → ℤ)} {o : OrderId}
    {items : List ReservedItem} {db db' : Tables} (hnone : db.reservations.lookup o = none)
    (hreserve : serve evaluate (reserve o items false) db = (.ok succeeded, db')) :
    CanBeSettled o items db db' ↔ ∀ item ∈ items, ReadsBack item.quantity := by
  obtain ⟨haccepted, hadded⟩ := accepted_of_serve hnone hreserve
  constructor
  · intro h item hi
    exact readsBack_iff.mpr fun e hlaw =>
      (settledExactly_iff hlaw haccepted hadded).mp (h e hlaw) item hi
  · intro h e hlaw
    exact (settledExactly_iff hlaw haccepted hadded).mpr fun item hi =>
      readsBack_iff.mp (h item hi) e hlaw

/-- Two lines with numbers, for products that have never been seen. -/
theorem canBeSettled_of_numbers :
    CanBeSettled "o" [⟨"p", .number 5⟩, ⟨"q", .number 7⟩] ∅
      ⟨((∅ : Stock).insert "p" ⟨1000, 5⟩).insert "q" ⟨1000, 7⟩,
        (∅ : Table OrderId Reservation).insert "o"
          ⟨[⟨"p", .number 5⟩, ⟨"q", .number 7⟩], .reserved⟩⟩ := by
  have hreserve : serve onNumerals (reserve "o" [⟨"p", .number 5⟩, ⟨"q", .number 7⟩] false) ∅ =
      (.ok succeeded, _) := rfl
  refine (canBeSettled_iff (Finmap.lookup_empty "o") hreserve).mpr fun item hi => ?_
  rcases List.mem_cons.mp hi with rfl | hi
  · trivial
  · obtain rfl := List.mem_singleton.mp hi
    trivial

/-- **A line of `true` is reserved, and neither confirmed nor released.** -/
theorem not_canBeSettled_of_true : ∃ db' : Tables,
    serve onNumerals (reserve "o" [⟨"p", .bool true⟩] false) ∅ = (.ok succeeded, db') ∧
      serve onNumerals (confirm "o" false) db' =
        (.ok (.result ⟨false, some "internal_error"⟩), db') ∧
      serve onNumerals (release "o" false) db' =
        (.ok (.result ⟨false, some "internal_error"⟩), db') ∧
      ¬ CanBeSettled "o" [⟨"p", .bool true⟩] ∅ db' := by
  let db' : Tables := ⟨(∅ : Stock).insert "p" ⟨1000, 1⟩,
    (∅ : Table OrderId Reservation).insert "o" ⟨[⟨"p", .bool true⟩], .reserved⟩⟩
  have hconfirm : serve onNumerals (confirm "o" false) db' =
      (.ok (.result ⟨false, some "internal_error"⟩), db') := rfl
  refine ⟨db', rfl, hconfirm, rfl, fun h => ?_⟩
  have hsucceeds := (h onNumerals lawful_onNumerals).confirms db' (Finmap.lookup_insert _)
  rw [hconfirm] at hsucceeds
  exact absurd (Prod.mk.inj hsucceeds).1 (by decide)

end Unvalidated

end Inventory

end Ecommerce
