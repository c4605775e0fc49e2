import Ecommerce.Saga.Accounts
/-!
# The books at rest

Where messages are delivered once and the orchestrator leaves no stock
behind, an order has at most one payment (`Orderly`), and what the three
databases say of it at rest is one story: the units that have left the
stock are those of the COMPLETED orders, nothing is reserved any more, and
the SUCCESS payments add up to the totals of the COMPLETED orders.
-/

namespace Ecommerce

namespace Saga

/-- The units of a product a COMPLETED order has taken. -/
def unitsSold (p : ProductId) (_ : OrderId) (order : Orders.Order) : ℚ :=
  if order.status = .completed then Inventory.lineTotal (reservedItems order.items) p else 0

/-- The units of a product over all COMPLETED orders. -/
def sold (s : System) (p : ProductId) : ℚ := s.orders.tally (unitsSold p)

/-- What is due of an order once it is COMPLETED. -/
def totalDue (_ : OrderId) (order : Orders.Order) : ℚ :=
  if order.status = .completed then order.total else 0

/-- The totals of all COMPLETED orders. -/
def owed (s : System) : ℚ := s.orders.tally totalDue

/-- What the customers have been charged. -/
def takings (s : System) : ℚ :=
  ((s.payments.filter fun row => row.status = .success).map Payments.Payment.amount).sum

/-- **The books balance.** -/
structure BooksBalance (start : ProductId → ℤ) (s : System) : Prop where
  reserved : ∀ p row, s.inventory.stock.lookup p = some row → row.reservedQuantity = 0
  available : ∀ p row, s.inventory.stock.lookup p = some row →
    (row.availableQuantity : ℚ) = start p - sold s p
  takings : takings s = owed s

/-- The orders have one line, one payment each, and are charged as they should be. -/
structure Orderly (s : System) : Prop where
  paid : PaidOnce s
  charges : Charges s
  distinct : (s.payments.map Payments.Payment.orderId).Nodup

variable {s s' : System} {t u : Token} {o : OrderId} {l : Label} {start : ProductId → ℤ}

/-! ## Runs of messages delivered once -/

theorem lossless_of_exactlyOnce (h : l.exactlyOnce = true) : Lossless l := by
  cases l with
  | createOrder o dto result => exact ⟨rfl, rfl⟩
  | duplicate t => cases h
  | act t c =>
    cases c with
    | reject message =>
      cases t with
      | saga event pc rpc =>
        obtain rfl : pc = .call := of_decide_eq_true h
        exact ⟨rfl, rfl⟩
      | payment event xDeath pc =>
        obtain rfl : pc = .fire := of_decide_eq_true h
        exact ⟨rfl, rfl⟩
      | _ => exact ⟨rfl, rfl⟩
    | crash => cases h
    | lose => exact ⟨by cases t <;> exact h, losesPublish_of_ne (by simp)⟩
    | drop message => cases t <;> cases h
    | _ => exact ⟨h, losesPublish_of_ne (by simp)⟩

theorem storesWork_of_exactlyOnce (h : l.exactlyOnce = true) : l.storesWork = true := by
  cases l with
  | act t c =>
    cases c with
    | reject message => cases t <;> exact h
    | drop message => cases t <;> exact h
    | _ => cases t <;> rfl
  | _ => rfl

/-- What asks for a payment belongs to the line of its order. -/
theorem lineOf_of_requestOf (hformed : t.Formed) (h : t.requestOf = some o) :
    t.lineOf = some o := by
  cases t with
  | queued queue m =>
    obtain ⟨body, xDeath⟩ := m
    cases body with
    | paymentRequested event => exact h
    | _ => cases h
  | saga event pc rpc =>
    cases pc with
    | publishPayment request =>
      cases event with
      | created event =>
        obtain rfl : request = paymentOf event := hformed
        exact h
      | _ event => exact hformed.elim
    | _ => cases h
  | payment event xDeath pc => exact h
  | _ => cases h

theorem requestOf_of_holds (h : t.holds o = true) : t.requestOf = some o := by
  cases t with
  | payment event xDeath pc =>
    cases pc with
    | fire => exact congrArg some (of_decide_eq_true h)
    | save status => exact congrArg some (of_decide_eq_true h)
    | _ => cases h
  | _ => cases h

/-- Where an order has one line, the token that acts is the only one of it. -/
theorem OneLine.requests_of_line (h : OneLine s) (hformed : ∀ t ∈ s.flight, t.Formed)
    (ht : t ∈ s.flight) (hline : t.lineOf = some o) (hu : u ∈ s.flight)
    (hreq : u.requestOf = some o) : u = t := by
  by_contra hne
  exact h.alone ht hline u ((Multiset.mem_erase_of_ne hne).mpr hu)
    (lineOf_of_requestOf (hformed u hu) hreq)

/-- A handler that cancels an order before its payment is alone with it. -/
theorem PaidOnce.cancelsUnasked (h : PaidOnce s) (hformed : ∀ t ∈ s.flight, t.Formed)
    (hs : s.step l = some s') : CancelsUnasked s l := by
  intro o ho
  unfold Label.cancelling at ho
  split at ho
  · rename_i event rpc
    obtain rfl : event.orderId = o := Option.some.inj ho
    have ht := System.mem_of_act hs
    have hline := lineOf_update (.created event) .cancelled rpc
    refine .inr ⟨fun u hu hreq => ?_, fun row hrow => h.unpaid _ ht rfl _ hline row hrow⟩
    obtain rfl := h.line.requests_of_line hformed ht hline hu hreq
    cases hreq
  · cases ho

/-- So is a payment handler that reads. -/
theorem PaidOnce.readsAlone (h : PaidOnce s) (hformed : ∀ t ∈ s.flight, t.Formed)
    (hs : s.step l = some s') : ReadsAlone s l := by
  intro o ho _ u hu
  unfold Label.reading at ho
  split at ho
  · rename_i event xDeath
    obtain rfl : event.orderId = o := Option.some.inj ho
    by_contra hcon
    have hholds : u.holds event.orderId = true := by simpa using hcon
    obtain rfl := h.line.requests_of_line hformed (System.mem_of_act hs) rfl hu
      (requestOf_of_holds hholds)
    cases hholds
  · cases ho

/-- **Every step keeps to one payment an order**, where messages are delivered once. -/
theorem Orderly.step (h : Orderly s) (hback : Backed s) (hformed : ∀ t ∈ s.flight, t.Formed)
    (hl : l.exactlyOnce = true) (hs : s.step l = some s') : Orderly s' := by
  have hlossless := lossless_of_exactlyOnce hl
  refine ⟨h.paid.step hformed (single_of_publishesMayFail hlossless.1) hlossless.2 hs,
    h.charges.step hback hformed (storesWork_of_exactlyOnce hl)
      (h.paid.cancelsUnasked hformed hs) (h.paid.readsAlone hformed hs) hs, ?_⟩
  obtain ⟨o, dto, result, order, event, rfl, hcreate, hfresh, rfl⟩ |
    ⟨t, c, base, out, rfl, ht, hr, rfl⟩ | ⟨t, rfl, ht, rfl⟩ := System.step_cases hs
  · exact h.distinct
  · cases hr with
    | saves event xDeath status =>
      change ((s.payments ++ [_]).map Payments.Payment.orderId).Nodup
      rw [List.map_append, List.map_singleton, List.nodup_append_comm, List.singleton_append,
        List.nodup_cons]
      refine ⟨fun hmem => ?_, h.distinct⟩
      obtain ⟨row, hrow, heq⟩ := List.mem_map.mp hmem
      exact h.paid.unpaid _ ht rfl _ rfl row hrow heq
    | writes event status rpc =>
      change (((s.without _).setStatus _ _).payments.map _).Nodup
      rw [System.setStatus_payments]
      exact h.distinct
    | _ => exact h.distinct
  · exact h.distinct

theorem orderly_of_reach (h : Reach System.step Opens (fun _ l => l.exactlyOnce = true) s) :
    Orderly s := by
  refine h.induct (I := Orderly) (fun s hopens => ⟨.of_opens hopens, .of_opens hopens, ?_⟩)
    fun _ _ _ hreach hinv hl hs => ?_
  · rw [hopens.payments]
    exact List.nodup_nil
  · obtain ⟨hformed, hback⟩ := backed_of_reach hreach
    exact hinv.step hback hformed hl hs

/-! ## At rest -/

/-- What the databases say of each order, once all of them have ended. -/
structure Ended (s : System) : Prop where
  orders : ∀ o order, s.orders.lookup o = some order →
    order.status = .completed ∨ order.status = .cancelled
  completed : ∀ o order, s.orders.lookup o = some order → order.status = .completed →
    ∃ row, s.inventory.reservations.lookup o = some row ∧ row.status = .confirmed
  cancelled : ∀ o order, s.orders.lookup o = some order → order.status = .cancelled →
    ∀ row, s.inventory.reservations.lookup o = some row → row.status = .released
  lines : ∀ o row, s.inventory.reservations.lookup o = some row →
    ∃ order, s.orders.lookup o = some order ∧ row.items = reservedItems order.items

namespace Ended

/-- Nothing is reserved any more. -/
theorem unitsIn_reserved (h : Ended s) (p : ProductId) :
    Inventory.unitsIn .reserved s.inventory p = 0 := by
  refine Table.tally_eq_zero fun o row hrow => if_neg fun hst => ?_
  obtain ⟨order, ho, -⟩ := h.lines o row hrow
  rcases h.orders o order ho with hdone | hdone
  · obtain ⟨row', hrow', hconfirmed⟩ := h.completed o order ho hdone
    obtain rfl : row = row' := Option.some.inj (hrow.symm.trans hrow')
    rw [hst] at hconfirmed
    cases hconfirmed
  · have hreleased := h.cancelled o order ho hdone row hrow
    rw [hst] at hreleased
    cases hreleased

/-- **The CONFIRMED reservations are the COMPLETED orders.** -/
theorem unitsIn_confirmed (h : Ended s) (p : ProductId) :
    Inventory.unitsIn .confirmed s.inventory p = sold s p := by
  refine Table.tally_eq_tally fun o => ?_
  cases hrow : s.inventory.reservations.lookup o with
  | none =>
    rw [Table.weightAt_of_none hrow]
    cases ho : s.orders.lookup o with
    | none => exact (Table.weightAt_of_none ho).symm
    | some order =>
      have hnot : order.status ≠ .completed := fun hdone => by
        obtain ⟨row, hrow', -⟩ := h.completed o order ho hdone
        rw [hrow] at hrow'
        cases hrow'
      rw [Table.weightAt_of_lookup ho, unitsSold, if_neg hnot]
  | some row =>
    obtain ⟨order, ho, hitems⟩ := h.lines o row hrow
    rw [Table.weightAt_of_lookup hrow, Table.weightAt_of_lookup ho, Inventory.units, unitsSold,
      ← hitems]
    rcases h.orders o order ho with hdone | hdone
    · obtain ⟨row', hrow', hconfirmed⟩ := h.completed o order ho hdone
      obtain rfl : row = row' := Option.some.inj (hrow.symm.trans hrow')
      rw [if_pos hconfirmed, if_pos hdone]
    · have hreleased := h.cancelled o order ho hdone row hrow
      rw [if_neg (by rw [hreleased]; decide), if_neg (by rw [hdone]; decide)]

end Ended

/-- **The SUCCESS payments are the COMPLETED orders' totals.** -/
theorem Orderly.takings_eq (h : Orderly s) (hback : Backed s) (hended : Ended s) :
    takings s = owed s := by
  have hdistinct : ((s.payments.filter fun row => row.status = .success).map
      Payments.Payment.orderId).Nodup := h.distinct.sublist (List.filter_sublist.map _)
  refine Table.sum_eq_tally hdistinct (fun row hrow => ?_) fun o hweight => ?_
  · obtain ⟨hmem, hsuccess⟩ := List.mem_filter.mp hrow
    obtain ⟨order, ho, -, htotal⟩ := hback.rows row hmem
    have hpaid := h.charges.of_success ho ⟨row, hmem, rfl, of_decide_eq_true hsuccess⟩
    have hdone := (hended.orders _ order ho).resolve_right hpaid.2
    rw [Table.weightAt_of_lookup ho, totalDue, if_pos hdone, htotal]
  · cases ho : s.orders.lookup o with
    | none => exact absurd (Table.weightAt_of_none ho) hweight
    | some order =>
      rw [Table.weightAt_of_lookup ho] at hweight
      have hdone : order.status = .completed := by
        by_contra hcon
        exact hweight (if_neg hcon)
      obtain ⟨-, row, hrow, horder, hsuccess⟩ := hback.completed o order ho hdone
      exact ⟨row, List.mem_filter.mpr ⟨hrow, decide_eq_true hsuccess⟩, horder⟩

/-- A run of messages delivered once that leaves no stock behind ends all its orders, but
for those left for follow-up. -/
theorem ended_of_rest
    (h : Reach System.step Opens (fun s l => l.exactlyOnce = true ∧ Careful s l) s)
    (hrest : s.flight = 0) (hdone : ∀ o, s.statusOf o ≠ some .inventoryReserved) : Ended s := by
  have hbegun : Begun s := .of_run
    (fun _ _ hg => forgets_of_lossless (lossless_of_exactlyOnce hg.1)) h
  have htidy : Tidy s := h.induct (fun _ => .of_opens) fun s l s' hreach hinv hg hs =>
    hinv.step (backed_of_reach hreach).1 hg.1 hg.2 hs
  have hheld := htidy.noneHeld hrest
  have hback := (backed_of_reach h).2
  refine ⟨fun o order ho => ?_, fun o order ho hst => ?_, fun o order ho hst row hrow => ?_,
    fun o row hrow => ?_⟩
  · have hstatus : s.statusOf o = some order.status := by
      rw [System.statusOf, ho, Option.map_some]
    cases hst : order.status with
    | completed => exact .inl rfl
    | cancelled => exact .inr rfl
    | inventoryReserved => exact absurd (hstatus.trans (congrArg some hst)) (hdone o)
    | pending =>
      obtain ⟨t, ht, -⟩ := hbegun o (hstatus.trans (congrArg some hst))
      rw [hrest] at ht
      cases ht
  · exact Option.map_eq_some_iff.mp (hback.completed o order ho hst).1
  · obtain ⟨hreserved, hconfirmed⟩ := hheld o order ho hst row hrow
    cases hrel : row.status with
    | reserved => exact absurd hrel hreserved
    | confirmed => exact absurd hrel hconfirmed
    | released => rfl
  · obtain ⟨items, ⟨order, ho, rfl⟩, hitems⟩ := (allVetted_of_reach h).reserved o row hrow
    exact ⟨order, ho, hitems⟩

/-- **The books balance at rest**, in every run of messages delivered once in which the
orchestrator leaves no stock behind, once no order is left for follow-up: nothing is
reserved, what has left the stock of each product are the units of the COMPLETED orders,
and the customers have been charged their totals. -/
theorem books_balance_at_rest
    (h : Reach System.step (OpensWith start) (fun s l => l.exactlyOnce = true ∧ Careful s l) s)
    (hrest : s.flight = 0) (hdone : ∀ o, s.statusOf o ≠ some .inventoryReserved) :
    BooksBalance start s := by
  have horderly : ∀ u, Reach System.step (OpensWith start)
      (fun s l => l.exactlyOnce = true ∧ Careful s l) u → Orderly u := fun u hu =>
    orderly_of_reach ((hu.of_init fun _ hopens => hopens.opens).mono fun _ _ hg => hg.1)
  have hopens := h.of_init fun _ hopens => hopens.opens
  have hended := ended_of_rest hopens hrest hdone
  have hledger := (balanced_of_reach (fun u l hu _ => (horderly u hu).charges.once) h).ledger
  refine ⟨fun p row hrow => ?_, fun p row hrow => ?_, ?_⟩
  · have hzero := hledger.reserved p row hrow
    rw [hended.unitsIn_reserved] at hzero
    exact_mod_cast hzero
  · rw [hledger.available p row hrow, hended.unitsIn_confirmed]
  · exact (horderly s h).takings_eq (backed_of_reach hopens).2 hended

/-- One order is completed and another one declined. -/
theorem books_balance_of_two_orders :
    ∃ s, Reach System.step (OpensWith fun _ => Inventory.DEFAULT_STOCK_QUANTITY)
        (fun s l => l.exactlyOnce = true ∧ Careful s l) s ∧ s.flight = 0 ∧
      s.statusOf "o" = some .completed ∧ s.statusOf "o2" = some .cancelled ∧
      BooksBalance (fun _ => Inventory.DEFAULT_STOCK_QUANTITY) s := by
  obtain ⟨s, hreach, hs⟩ := Reach.exists_of_follow System.step
    (OpensWith fun _ => Inventory.DEFAULT_STOCK_QUANTITY)
    (fun s l => l.exactlyOnce = true ∧ Careful s l) opensWith_newShop
    ([someOrder] ++ relayed ++ called (.created someCreated) ++ requested ++ paid ++ completed ++
      [.act (.saga (.succeeded ⟨"o", some 0, .success⟩) (.find .completed) .idle) .go,
        .act (.saga (.succeeded ⟨"o", some 0, .success⟩) (.publishStatus .completed "c") .idle) .go,
        placed "o2" 2000,
        .act (.outbox ⟨"o2", "c", 10000, [⟨"p", 2000, 5⟩]⟩) .go,
        .act (.queued .orderCreated ⟨.orderCreated ⟨"o2", "c", 10000, [⟨"p", 2000, 5⟩]⟩, []⟩) .go,
        .act (.saga (.created ⟨"o2", "c", 10000, [⟨"p", 2000, 5⟩]⟩) .call .idle) .go,
        .act (.saga (.created ⟨"o2", "c", 10000, [⟨"p", 2000, 5⟩]⟩) .call .requested)
          (.serve false []),
        .act (.saga (.created ⟨"o2", "c", 10000, [⟨"p", 2000, 5⟩]⟩) .call
          (.replied ⟨false, some "insufficient_stock:p"⟩)) .go] ++
      cancelled (.created ⟨"o2", "c", 10000, [⟨"p", 2000, 5⟩]⟩))
    (fun s => s.flight = 0 && s.statusOf "o" = some .completed &&
      s.statusOf "o2" = some .cancelled &&
      decide (∀ o ∈ s.orders.keys, s.statusOf o ≠ some .inventoryReserved)) (by decide +kernel)
  simp only [Bool.and_eq_true, decide_eq_true_eq] at hs
  obtain ⟨⟨⟨hrest, hfirst⟩, hsecond⟩, hdone⟩ := hs
  refine ⟨s, hreach, hrest, hfirst, hsecond, books_balance_at_rest hreach hrest fun o hst => ?_⟩
  obtain ⟨order, ho, -⟩ := Option.map_eq_some_iff.mp hst
  exact hdone o (Finmap.mem_keys.mpr (Finmap.mem_of_lookup_eq_some ho)) hst

end Saga

end Ecommerce
