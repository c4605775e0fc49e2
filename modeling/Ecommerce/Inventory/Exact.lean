import Ecommerce.Inventory.Reserve
/-!
# What `reserve` accepts

The loop of `reserve` decides line by line, on counters it is changing.
`reserveLines_ok_iff` proves that it goes through exactly when every
quantity is a positive integer and no product is asked for more, in all
its lines together, than it has left; `raised_of_reserveLines` says what
the rows then hold. `reserve_exact` carries both to a request handled
alone, which leaves nothing behind where the loop stops.
-/

namespace Ecommerce

namespace Inventory

/-- The units of a product that are not reserved; a product without a row counts as
freshly seeded. -/
def slack (stock : Stock) (p : ProductId) : ℤ :=
  (rowOf stock p).availableQuantity - (rowOf stock p).reservedQuantity

/-- **What `reserve` is meant to accept**: positive integers, and of no product more than is
left of it. -/
def Fits (items : List ReservedItem) (stock : Stock) : Prop :=
  (∀ item ∈ items, validQuantity item.quantity = true) ∧
    ∀ p, lineTotal items p ≤ (slack stock p : ℚ)

/-- **What it is meant to do**: the products of the lines have their totals added to what is
reserved of them, and nothing else changes. -/
structure Raised (items : List ReservedItem) (stock stock' : Stock) : Prop where
  named : ∀ item ∈ items, ∃ row, stock'.lookup item.productId = some row ∧
    row.availableQuantity = (rowOf stock item.productId).availableQuantity ∧
    (row.reservedQuantity : ℚ) =
      (rowOf stock item.productId).reservedQuantity + lineTotal items item.productId
  others : ∀ p, (∀ item ∈ items, item.productId ≠ p) → stock'.lookup p = stock.lookup p

section Lines

variable {item : ReservedItem} {items rest : List ReservedItem} {stock stock' : Stock}

/-- The row of a product after another one's row was written. -/
theorem rowOf_insert (p q : ProductId) (row : StockItem) :
    rowOf (stock.insert p row) q = if q = p then row else rowOf stock q := by
  rw [rowOf]
  by_cases h : q = p
  · rw [if_pos h, h, Finmap.lookup_insert, Option.getD_some]
  · rw [if_neg h, Finmap.lookup_insert_of_ne _ h, rowOf]

/-- A line takes its units from what is left of its product. -/
theorem slack_reserve (n : ℤ) (p q : ProductId) :
    slack (stock.insert p ((rowOf stock p).reserve n)) q =
      slack stock q - if p = q then n else 0 := by
  rw [slack, rowOf_insert]
  by_cases h : q = p
  · rw [if_pos h, if_pos h.symm, h, slack]
    change (rowOf stock p).availableQuantity - ((rowOf stock p).reservedQuantity + n) = _
    omega
  · rw [if_neg h, if_neg fun heq => h heq.symm, sub_zero, slack]

/-- What a line that goes through leaves. -/
theorem reserveLine_eq_ok_iff : reserveLine item stock = .ok stock' ↔
    validQuantity item.quantity = true ∧ item.quantity.num ≤ slack stock item.productId ∧
      stock' = stock.insert item.productId
        ((rowOf stock item.productId).reserve item.quantity.num) := by
  rw [reserveLine]
  by_cases h : validQuantity item.quantity = true ∧ item.quantity.num ≤
      (rowOf stock item.productId).availableQuantity - (rowOf stock item.productId).reservedQuantity
  · rw [if_pos h]
    exact ⟨fun heq => ⟨h.1, h.2, (Except.ok.inj heq).symm⟩, fun ⟨_, _, heq⟩ => heq ▸ rfl⟩
  · rw [if_neg h]
    exact ⟨fun heq => (nomatch heq), fun ⟨hvalid, hfits, _⟩ => absurd ⟨hvalid, hfits⟩ h⟩

/-- A loop that goes through does its first line and goes on from what that leaves. -/
theorem reserveLines_cons_eq_ok_iff : reserveLines (item :: rest) stock = .ok stock' ↔
    validQuantity item.quantity = true ∧ item.quantity.num ≤ slack stock item.productId ∧
      reserveLines rest (stock.insert item.productId
        ((rowOf stock item.productId).reserve item.quantity.num)) = .ok stock' := by
  rw [reserveLines]
  constructor
  · intro h
    cases hline : reserveLine item stock with
    | error p => rw [hline] at h; cases h
    | ok next =>
      obtain ⟨hvalid, hfits, rfl⟩ := reserveLine_eq_ok_iff.mp hline
      rw [hline] at h
      exact ⟨hvalid, hfits, h⟩
  · rintro ⟨hvalid, hfits, h⟩
    rw [reserveLine_eq_ok_iff.mpr ⟨hvalid, hfits, rfl⟩]
    exact h

/-- The total of a line's product with the line at the head. -/
theorem lineTotal_cons_le_iff {n : ℤ} (hn : (n : ℚ) = item.quantity) :
    (∀ p, lineTotal (item :: rest) p ≤ (slack stock p : ℚ)) ↔
      ∀ p, lineTotal rest p ≤
        (slack (stock.insert item.productId ((rowOf stock item.productId).reserve n)) p : ℚ) := by
  refine forall_congr' fun p => ?_
  rw [lineTotal_cons, slack_reserve, ← hn]
  by_cases h : item.productId = p
  · rw [if_pos h, if_pos h]
    push_cast
    exact le_sub_iff_add_le'.symm
  · rw [if_neg h, if_neg h, sub_zero, zero_add]

/-- What is left stays nonnegative. -/
theorem slack_nonneg_of_fits {n : ℤ} {p : ProductId} (hstock : ∀ p, 0 ≤ slack stock p)
    (hfits : n ≤ slack stock p) (q : ProductId) :
    0 ≤ slack (stock.insert p ((rowOf stock p).reserve n)) q := by
  have hq := hstock q
  rw [slack_reserve]
  by_cases heq : p = q
  · rw [if_pos heq]
    subst heq
    omega
  · rw [if_neg heq]
    omega

/-- **The loop goes through exactly when the lines fit in all.** -/
theorem reserveLines_ok_iff (hstock : ∀ p, 0 ≤ slack stock p) :
    (∃ stock', reserveLines items stock = .ok stock') ↔ Fits items stock := by
  induction items generalizing stock with
  | nil =>
    refine iff_of_true ⟨stock, rfl⟩ ⟨fun item hi => (by cases hi), fun p => ?_⟩
    rw [lineTotal_nil]
    exact_mod_cast hstock p
  | cons item rest ih =>
    rw [Fits, List.forall_mem_cons]
    constructor
    · rintro ⟨stock', h⟩
      obtain ⟨hvalid, hfits, hnext⟩ := reserveLines_cons_eq_ok_iff.mp h
      obtain ⟨hrest, htotals⟩ := (ih (slack_nonneg_of_fits hstock hfits)).mp ⟨stock', hnext⟩
      exact ⟨⟨hvalid, hrest⟩, (lineTotal_cons_le_iff (num_of_valid hvalid)).mpr htotals⟩
    · rintro ⟨⟨hvalid, hrest⟩, htotals⟩
      -- The line's own product has room for it, since the lines after it ask for no less than 0.
      have hfits : item.quantity.num ≤ slack stock item.productId := by
        have htotal := htotals item.productId
        have hnonneg := lineTotal_nonneg (fun i hi => (pos_of_valid (hrest i hi)).le) item.productId
        rw [lineTotal_cons, if_pos rfl, ← num_of_valid hvalid] at htotal
        have : (item.quantity.num : ℚ) ≤ slack stock item.productId := by linarith
        exact_mod_cast this
      obtain ⟨stock', hnext⟩ := (ih (slack_nonneg_of_fits hstock hfits)).mpr
        ⟨hrest, (lineTotal_cons_le_iff (num_of_valid hvalid)).mp htotals⟩
      exact ⟨stock', reserveLines_cons_eq_ok_iff.mpr ⟨hvalid, hfits, hnext⟩⟩

/-- The rows after the loop, with a seeded row for a product that has none. -/
theorem rowOf_of_reserveLines (h : reserveLines items stock = .ok stock') (p : ProductId) :
    (rowOf stock' p).availableQuantity = (rowOf stock p).availableQuantity ∧
      ((rowOf stock' p).reservedQuantity : ℚ) =
        (rowOf stock p).reservedQuantity + lineTotal items p := by
  induction items generalizing stock with
  | nil =>
    obtain rfl : stock = stock' := Except.ok.inj h
    rw [lineTotal_nil, add_zero]
    exact ⟨rfl, rfl⟩
  | cons item rest ih =>
    obtain ⟨hvalid, -, hnext⟩ := reserveLines_cons_eq_ok_iff.mp h
    obtain ⟨havailable, hreserved⟩ := ih hnext
    rw [havailable, hreserved, lineTotal_cons, rowOf_insert]
    by_cases heq : p = item.productId
    · subst heq
      rw [if_pos rfl, if_pos rfl, ← num_of_valid hvalid, ← add_assoc]
      refine ⟨rfl, congrArg (· + _) ?_⟩
      exact Int.cast_add _ _
    · rw [if_neg heq, if_neg fun h => heq h.symm, zero_add]
      exact ⟨rfl, rfl⟩

/-- The products of the lines have rows, and no row is lost. -/
theorem lookup_ne_none_of_reserveLines (h : reserveLines items stock = .ok stock') {p : ProductId}
    (hp : (∃ item ∈ items, item.productId = p) ∨ stock.lookup p ≠ none) :
    stock'.lookup p ≠ none := by
  induction items generalizing stock with
  | nil =>
    obtain rfl : stock = stock' := Except.ok.inj h
    exact hp.resolve_left fun ⟨item, hi, _⟩ => nomatch hi
  | cons item rest ih =>
    obtain ⟨-, -, hnext⟩ := reserveLines_cons_eq_ok_iff.mp h
    refine ih hnext ?_
    by_cases heq : p = item.productId
    · subst heq
      rw [Finmap.lookup_insert]
      exact .inr (Option.some_ne_none _)
    · rw [Finmap.lookup_insert_of_ne _ heq]
      refine hp.imp_left fun ⟨i, hi, hip⟩ => ⟨i, (List.mem_cons.mp hi).resolve_left ?_, hip⟩
      exact fun heqi => heq (by rw [← hip, heqi])

/-- Rows of other products are untouched. -/
theorem lookup_of_reserveLines (h : reserveLines items stock = .ok stock') {p : ProductId}
    (hp : ∀ item ∈ items, item.productId ≠ p) : stock'.lookup p = stock.lookup p := by
  induction items generalizing stock with
  | nil =>
    obtain rfl : stock = stock' := Except.ok.inj h
    rfl
  | cons item rest ih =>
    obtain ⟨-, -, hnext⟩ := reserveLines_cons_eq_ok_iff.mp h
    rw [ih hnext fun i hi => hp i (List.mem_cons_of_mem _ hi),
      Finmap.lookup_insert_of_ne _ fun heq => hp item List.mem_cons_self heq.symm]

/-- **Where it goes through, it raises each product by its total.** -/
theorem raised_of_reserveLines (h : reserveLines items stock = .ok stock') :
    Raised items stock stock' := by
  refine ⟨fun item hi => ?_, fun p hp => lookup_of_reserveLines h hp⟩
  obtain ⟨row, hrow⟩ := Option.ne_none_iff_exists'.mp
    (lookup_ne_none_of_reserveLines h (.inl ⟨item, hi, rfl⟩))
  obtain ⟨havailable, hreserved⟩ := rowOf_of_reserveLines h item.productId
  rw [rowOf_of_lookup hrow] at havailable hreserved
  exact ⟨row, hrow, havailable, hreserved⟩

end Lines

/-! ## The request -/

/-- **What a `reserve` handled alone comes to.** -/
structure ReservedExactly (o : OrderId) (items : List ReservedItem) (db db' : Tables)
    (success : Bool) : Prop where
  /-- It succeeds if and only if the lines fit. -/
  success_iff : success = true ↔ Fits items db.stock
  /-- A success raises the products and adds the reservation. -/
  raised : success = true → Raised items db.stock db'.stock
  added : success = true → db'.reservations = db.reservations.insert o ⟨items, .reserved⟩
  /-- A refusal leaves the tables as they were, without the rows it had seeded. -/
  unchanged : success = false → db' = db

/-- **`reserve` is exact, and all or nothing.** -/
theorem reserve_exact (o : OrderId) (items : List ReservedItem) (db : Tables)
    (hstock : ∀ p row, db.stock.lookup p = some row →
      0 ≤ row.reservedQuantity ∧ row.reservedQuantity ≤ row.availableQuantity)
    (hnone : db.reservations.lookup o = none) :
    ∃ reply db', serve [] (.reserve o items false) db = (.ok (.result reply), db') ∧
      ReservedExactly o items db db' reply.success := by
  have hslack : ∀ p, 0 ≤ slack db.stock p := by
    intro p
    rw [slack]
    cases hrow : db.stock.lookup p with
    | none =>
      rw [rowOf_of_none hrow]
      decide
    | some row =>
      have hp := hstock p row hrow
      rw [rowOf_of_lookup hrow]
      omega
  have hiff : (∃ stock', reserveLines items db.stock = .ok stock') ↔ Fits items db.stock :=
    reserveLines_ok_iff hslack
  rw [serve_reserve, reserveAlone, hnone]
  cases hlines : reserveLines items db.stock with
  | ok stock =>
    rw [hlines] at hiff
    have hfits : Fits items db.stock := hiff.mp ⟨stock, rfl⟩
    exact ⟨_, _, rfl, iff_of_true rfl hfits, fun _ => raised_of_reserveLines hlines, fun _ => rfl,
      fun h => nomatch h⟩
  | error p =>
    rw [hlines] at hiff
    have hnot : ¬ Fits items db.stock := fun hfits => by
      obtain ⟨stock', h⟩ := hiff.mpr hfits
      cases h
    exact ⟨_, _, rfl, iff_of_false Bool.false_ne_true hnot, fun h => (nomatch h),
      fun h => (nomatch h), fun _ => rfl⟩

/-- Two lines of a product that has never been seen, which ask together for what it is seeded
with. -/
theorem reserve_exact_of_unseen : ∃ reply db',
    serve [] (.reserve "o" [⟨"p", 400⟩, ⟨"p", 600⟩] false) ∅ = (.ok (.result reply), db') ∧
      ReservedExactly "o" [⟨"p", 400⟩, ⟨"p", 600⟩] ∅ db' reply.success :=
  reserve_exact "o" [⟨"p", 400⟩, ⟨"p", 600⟩] ∅
    (fun p row h => by
      change (∅ : Stock).lookup p = some row at h
      rw [Finmap.lookup_empty] at h
      cases h)
    (Finmap.lookup_empty _)

end Inventory

end Ecommerce
