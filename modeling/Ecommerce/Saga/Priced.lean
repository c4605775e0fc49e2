import Ecommerce.Saga.Backed
/-!
# Every charge is for a valid order at the catalog's prices

`createOrder` checks no quantity. What stands between a client and the
gateway is `reserve`: it refuses a line that does not ask for a positive
number of units, and a reservation that is already there was made with the
lines of the same order. So the lines an order was created with travel
with every `order.created` and every `inventory.reserve` (`Lists`), and
whatever comes after a reservation knows them to be valid (`Vetted`).
-/

namespace Ecommerce

namespace Saga

/-- The order was created with these lines. -/
def Lists (s : System) (o : OrderId) (items : List OrderItem) : Prop :=
  ∃ order, s.orders.lookup o = some order ∧ order.items = items

/-- The order exists, and its lines are valid. -/
def Vetted (s : System) (o : OrderId) : Prop :=
  ∃ items, Lists s o items ∧ ∀ item ∈ items, Inventory.validQuantity item.quantity = true

/-- The lines of a `reserve` request. -/
def reservedItems (items : List OrderItem) : List Inventory.ReservedItem :=
  items.map fun item => ⟨item.productId, item.quantity⟩

/-- The handler of `order.created` has reserved. -/
def Pc.reserved : Pc → Bool
  | .update .inventoryReserved => true
  | .publishPayment _ => true
  | _ => false

/-- The reply is a success. -/
def Rpc.succeeded : Rpc → Bool
  | .replied r => r.success
  | _ => false

/-- **What something in flight knows of the lines of its order.** -/
def Token.Vets (s : System) : Token → Prop
  | .outbox event => Lists s event.orderId event.items
  | .queued _ ⟨.orderCreated event, _⟩ => Lists s event.orderId event.items
  | .queued _ ⟨.paymentRequested event, _⟩ => Vetted s event.orderId
  | .saga (.created event) pc rpc => Lists s event.orderId event.items ∧
      ((pc.reserved || rpc.succeeded) = true → Vetted s event.orderId)
  | .request (.reserve o items) => Lists s o items
  | .payment event _ _ => Vetted s event.orderId
  | _ => True

variable {s s' base : System} {t : Token} {c : Choice} {out : Multiset Token} {o : OrderId}
variable {items : List OrderItem}

/-- No order loses its lines. -/
def Keeps (s s' : System) : Prop := ∀ o items, Lists s o items → Lists s' o items

namespace Keeps

theorem vetted (h : Keeps s s') (hv : Vetted s o) : Vetted s' o := by
  obtain ⟨items, hlists, hvalid⟩ := hv
  exact ⟨items, h o items hlists, hvalid⟩

theorem vets (h : Keeps s s') (ht : t.Vets s) : t.Vets s' := by
  unfold Token.Vets at ht ⊢
  split
  · exact h _ _ ht
  · exact h _ _ ht
  · exact h.vetted ht
  · exact ⟨h _ _ ht.1, fun hr => h.vetted (ht.2 hr)⟩
  · exact h _ _ ht
  · exact h.vetted ht
  · trivial

theorem of_orders (ho : s'.orders = s.orders) : Keeps s s' := by
  intro o items h
  unfold Lists at h ⊢
  rwa [ho]

theorem setStatus (s : System) (o : OrderId) (status : OrderStatus) :
    Keeps s (s.setStatus o status) := by
  rintro o' items ⟨order, horder, hitems⟩
  by_cases heq : o' = o
  · subst heq
    refine ⟨{ order with status := status }, ?_, hitems⟩
    rw [System.lookup_setStatus, if_pos rfl, horder, Option.map_some]
  · refine ⟨order, ?_, hitems⟩
    rw [System.lookup_setStatus, if_neg heq, horder]

end Keeps

/-! ## The invariant -/

/-- **The invariant.** -/
structure AllVetted (s : System) : Prop where
  stored : Inventory.Stored s.inventory
  tokens : ∀ t ∈ s.flight, t.Vets s
  reserved : ∀ o row, s.inventory.reservations.lookup o = some row →
    ∃ items, Lists s o items ∧ row.items = reservedItems items
  rows : ∀ row ∈ s.payments, Vetted s row.orderId

namespace AllVetted

/-- An order with a reservation is valid. -/
theorem vetted (h : AllVetted s) (hsome : s.inventory.statusOf o ≠ none) : Vetted s o := by
  obtain ⟨status, hstatus⟩ := Option.ne_none_iff_exists'.mp hsome
  obtain ⟨row, hrow, -⟩ := Option.map_eq_some_iff.mp hstatus
  obtain ⟨items, hlists, hitems⟩ := h.reserved o row hrow
  refine ⟨items, hlists, fun item hitem => ?_⟩
  have hmem : (⟨item.productId, item.quantity⟩ : Inventory.ReservedItem) ∈ row.items := by
    rw [hitems]
    exact List.mem_map_of_mem hitem
  exact h.stored.valid o row hrow _ hmem

/-- The stores stay; other things are in flight. -/
theorem flight (h : AllVetted s) {ts : Multiset Token} (hts : ∀ t ∈ ts, t ∈ s.flight ∨ t.Vets s) :
    AllVetted { s with flight := ts } := by
  have hk : Keeps s { s with flight := ts } := .of_orders rfl
  refine ⟨h.stored, fun t ht => hk.vets ?_, fun o row hrow => ?_, fun row hrow =>
    hk.vetted (h.rows row hrow)⟩
  · exact (hts t ht).elim (h.tokens t) id
  · obtain ⟨items, hlists, hitems⟩ := h.reserved o row hrow
    exact ⟨items, hk o items hlists, hitems⟩

theorem add (h : AllVetted s) {ts : Multiset Token} (hts : ∀ t ∈ ts, t.Vets s) :
    AllVetted (s.add ts) :=
  h.flight fun t ht => (Multiset.mem_add.mp ht).symm.imp id (hts t)

theorem addOne (h : AllVetted s) (ht : t.Vets s) : AllVetted (s.add {t}) :=
  h.add fun _ hu => (Multiset.mem_singleton.mp hu).symm ▸ ht

theorem without (h : AllVetted s) (t : Token) : AllVetted (s.without t) :=
  h.flight fun _ hu => .inl (Multiset.mem_of_mem_erase hu)

/-- The status of an order is written. -/
theorem setStatus (h : AllVetted s) (o : OrderId) (status : OrderStatus) :
    AllVetted (s.setStatus o status) := by
  have hk := Keeps.setStatus s o status
  refine ⟨?_, fun t ht => ?_, fun o' row hrow => ?_, fun row hrow => ?_⟩
  · rw [System.setStatus_inventory]
    exact h.stored
  · rw [System.setStatus_flight] at ht
    exact hk.vets (h.tokens t ht)
  · rw [System.setStatus_inventory] at hrow
    obtain ⟨items, hlists, hitems⟩ := h.reserved o' row hrow
    exact ⟨items, hk o' items hlists, hitems⟩
  · rw [System.setStatus_payments] at hrow
    exact hk.vetted (h.rows row hrow)

/-- A payment of a valid order is inserted. -/
theorem insertPayment (h : AllVetted s) (row : Payments.Payment) (hrow : Vetted s row.orderId) :
    AllVetted (s.insertPayment row) := by
  refine ⟨h.stored, h.tokens, h.reserved, fun r hr => ?_⟩
  rcases List.mem_append.mp hr with hold | hnew
  · exact h.rows r hold
  · obtain rfl := List.mem_singleton.mp hnew
    exact hrow

/-- Inventory-service handles a request for the lines of its order. -/
theorem serve (h : AllVetted s) (faults : List Bool) {req : InventoryRpcRequest}
    (hreq : ∀ o items, req = .reserve o items → Lists s o items) (redelivered : Bool) :
    AllVetted (s.serve faults (req.toRequest redelivered)) := by
  obtain ⟨reply, hreply, hhandled⟩ :=
    Inventory.serve_handled faults (req.toRequest redelivered) h.stored
  refine ⟨hhandled.stored h.stored, h.tokens, fun o row hrow => ?_, h.rows⟩
  rcases hhandled.items hrow with ⟨old, hold, hitems⟩ | ⟨hres, ho, hitems⟩
  · obtain ⟨items, hlists, hsame⟩ := h.reserved o old hold
    exact ⟨items, hlists, hitems ▸ hsame⟩
  · cases req with
    | reserve o' items =>
      obtain rfl : o = o' := ho
      exact ⟨items, hreq o items rfl, hitems⟩
    | confirm o' => cases hres
    | release o' => cases hres

/-- A success of `reserve` vouches for the order. -/
theorem vetted_of_success (h : AllVetted s) (faults : List Bool) {items : List OrderItem}
    (hlists : Lists s o items) (redelivered : Bool)
    (hr : (heard (Inventory.serve faults ((InventoryRpcRequest.reserve o items).toRequest
      redelivered) s.inventory).1).succeeded = true) :
    Vetted (s.serve faults ((InventoryRpcRequest.reserve o items).toRequest redelivered)) o := by
  have hreq : ∀ o' items', InventoryRpcRequest.reserve o items = .reserve o' items' →
      Lists s o' items' := by
    rintro o' items' heq
    cases heq
    exact hlists
  have hserved := h.serve faults hreq redelivered
  obtain ⟨reply, hreply, hreplies, -⟩ := Inventory.serve_replies faults
    ((InventoryRpcRequest.reserve o items).toRequest redelivered) h.stored
  rw [hreply] at hr
  refine hserved.vetted ?_
  obtain ⟨_ | _, reason⟩ | requeue := reply
  · cases hr
  · have hmoved := hreplies.success reason rfl
    change (Inventory.serve _ _ _).2.statusOf o = Inventory.Request.settle _
      (s.inventory.statusOf o) at hmoved
    change (Inventory.serve _ _ _).2.statusOf o ≠ none
    rw [hmoved]
    cases s.inventory.statusOf o <;> exact Option.some_ne_none _
  · cases hr

end AllVetted

/-! ## What the tokens of a step know -/

theorem vets_start {queue : Queue} {m : Message} (h : start queue m = some t)
    (hm : Token.Vets s (.queued queue m)) : t.Vets s := by
  cases starts_of_start h with
  | created event xDeath => exact ⟨hm, fun hr => by cases hr⟩
  | succeeded event xDeath => trivial
  | failed event xDeath => trivial
  | requested event xDeath => exact hm

/-- A handler goes on to a point that it has reserved for, if it needs to. -/
theorem vets_goOn {event : Event} {pc pc' : Pc} {rpc : Rpc} (h : Token.Vets s (.saga event pc rpc))
    (hpc : ∀ e, event = .created e → pc'.reserved = true → (pc.reserved || rpc.succeeded) = true) :
    ∀ u ∈ goOn event pc', u.Vets s := by
  intro u hu
  rw [mem_goOn hu]
  cases event with
  | created event =>
    refine ⟨h.1, fun hr => h.2 (hpc event rfl ?_)⟩
    rwa [show Rpc.idle.succeeded = false from rfl, Bool.or_false] at hr
  | _ event => trivial

theorem vets_abandoned {event : Event} {pc pc' : Pc} {rpc rpc' : Rpc}
    (h : Token.Vets s (.saga event pc rpc)) : ∀ u ∈ abandoned event pc' rpc', u.Vets s := by
  intro u hu
  rw [mem_abandoned hu]
  cases event with
  | created event => exact h.1
  | _ event => trivial

theorem not_reserved_of_tells {pc : Pc} (h : pc.tells = true) : pc.reserved = false := by
  cases pc with
  | find status => rfl
  | publishStatus status customerId => rfl
  | _ => cases h

theorem vets_copy (ht : t.Vets s) : ∀ u ∈ t.copy, u.Vets s := by
  intro u hu
  obtain rfl | ⟨event, rfl, rfl⟩ := mem_copy hu
  · exact ht
  · -- The request a copy of is made carries the lines of its handler.
    cases event with
    | created event => exact ht.1
    | _ event => trivial

/-- **Whatever acts, the invariant is kept.** -/
theorem AllVetted.react (h : AllVetted s) (hformed : t.Formed) (ht : t.Vets s)
    (hr : React s t c base out) : AllVetted (base.add out) := by
  cases hr with
  | relays event => exact h.addOne ht
  | starts hstart => exact h.addOne (vets_start hstart ht)
  | expires m hq =>
    refine h.addOne ?_
    obtain ⟨body, xDeath⟩ := m
    cases body <;> exact ht
  | sends event =>
    refine h.addOne ?_
    cases event with
    | created event => exact ⟨ht.1, fun hr => by cases hr⟩
    | _ event => trivial
  | handled event redelivered faults =>
    cases event with
    | created event =>
      have hreq : ∀ o items, InventoryRpcRequest.reserve event.orderId event.items =
          .reserve o items → Lists s o items := by
        rintro o items heq
        cases heq
        exact ht.1
      have hserved := h.serve faults hreq redelivered
      refine hserved.addOne ⟨ht.1, fun hr => ?_⟩
      exact h.vetted_of_success faults ht.1 redelivered hr
    | succeeded event =>
      have hreq : ∀ o items, InventoryRpcRequest.confirm event.orderId = .reserve o items →
          Lists s o items := fun _ _ heq => by cases heq
      exact (h.serve faults hreq redelivered).addOne trivial
    | failed event =>
      have hreq : ∀ o items, InventoryRpcRequest.release event.orderId = .reserve o items →
          Lists s o items := fun _ _ heq => by cases heq
      exact (h.serve faults hreq redelivered).addOne trivial
  | hears event r =>
    -- Only a success leads on to INVENTORY_RESERVED.
    refine h.add (vets_goOn ht ?_)
    rintro e rfl hreserved
    obtain ⟨_ | _, reason⟩ := r
    · cases hreserved
    · rfl
  | loses event r =>
    refine h.addOne ?_
    cases event with
    | created event => exact ⟨ht.1, fun hr => by cases hr⟩
    | _ event => trivial
  | givesUp event rpc message =>
    refine h.add fun u hu => ?_
    rcases Multiset.mem_add.mp hu with hu | hu
    · exact vets_abandoned ht u hu
    · refine vets_goOn ht ?_ u hu
      rintro e rfl hreserved
      cases hreserved
  | writes event status rpc =>
    have ht' := (Keeps.setStatus s event.orderId status).vets ht
    refine (h.setStatus event.orderId status).add (vets_goOn ht' ?_)
    rintro e rfl hreserved
    cases status <;> first | rfl | cases hreserved
  | writeFails event status rpc message =>
    refine h.add (vets_goOn ht ?_)
    rintro e rfl hreserved
    cases status <;> first | rfl | cases hreserved
  | tells event rpc c hpc hpc' =>
    refine h.add (vets_goOn ht fun e _ hreserved => ?_)
    rcases hpc' with hpc' | rfl
    · rw [not_reserved_of_tells hpc'] at hreserved
      cases hreserved
    · cases hreserved
  | requests event request rpc =>
    -- The payment is requested where the order has been reserved, so its lines are valid.
    refine h.addOne ?_
    cases event with
    | created event =>
      obtain rfl : request = paymentOf event := hformed
      exact ht.2 rfl
    | _ event => exact hformed.elim
  | requestFails event request rpc message => simpa using h
  | crashes event pc rpc =>
    refine h.add fun u hu => ?_
    rcases Multiset.mem_add.mp hu with hu | hu
    · exact vets_abandoned ht u hu
    · obtain rfl := Multiset.mem_singleton.mp hu
      cases event with
      | created event => exact ht.1
      | _ event => trivial
  | serves req redelivered faults =>
    rw [System.add_nothing]
    refine h.serve faults ?_ redelivered
    rintro o items rfl
    exact ht
  | paid row hrow horder => simpa using h
  | unpaid hnone =>
    rw [afterFind_eq_fire hformed.1]
    exact h.addOne ht
  | movesToDlq event xDeath => exact absurd rfl hformed.2.1
  | givenUp event xDeath => exact absurd rfl hformed.2.2
  | charged event xDeath status => exact h.addOne ht
  | chargeFails event xDeath message => exact h.addOne ht
  | retries event xDeath hq => exact h.addOne ht
  | retryDropped event xDeath => simpa using h
  | saves event xDeath status =>
    exact (h.insertPayment ⟨s.payments.length, event.orderId, event.customerId, event.total, status⟩
      ht).addOne ht
  | announces event xDeath id status => exact h.addOne trivial
  | announceFails message hpc => simpa using h
  | requeues event xDeath pc hc => exact h.addOne ht
  | vanishes hgone => simpa using h

/-- An order is created, with the lines its event carries. -/
theorem AllVetted.createOrder (h : AllVetted s) {order : Orders.Order} {event : OrderCreatedEvent}
    {dto : Orders.CreateOrderDto} {result : Except String (Orders.PricesFor dto.productIds)}
    (hcreate : Orders.createOrder o dto result = .ok (order, event))
    (hfresh : s.orders.lookup o = none) :
    AllVetted ({ s with orders := s.orders.insert o order }.add {Token.outbox event}) := by
  have hk : Keeps s { s with orders := s.orders.insert o order } := by
    rintro o' items ⟨order', horder', hitems⟩
    exact ⟨order', Table.lookup_insert_of_fresh hfresh horder', hitems⟩
  have hnext : AllVetted { s with orders := s.orders.insert o order } := by
    refine ⟨h.stored, fun t ht => hk.vets (h.tokens t ht), fun o' row hrow => ?_, fun row hrow =>
      hk.vetted (h.rows row hrow)⟩
    obtain ⟨items, hlists, hitems⟩ := h.reserved o' row hrow
    exact ⟨items, hk o' items hlists, hitems⟩
  obtain ⟨-, rfl, -⟩ := Orders.createOrder_eq hcreate
  exact hnext.addOne ⟨order, Finmap.lookup_insert _, (Orders.createOrder_priced hcreate).1.symm⟩

/-- **Every step keeps the invariant.** -/
theorem AllVetted.step (h : AllVetted s) (hformed : ∀ t ∈ s.flight, t.Formed) {l : Label}
    (hs : s.step l = some s') : AllVetted s' := by
  obtain ⟨o, dto, result, order, event, rfl, hcreate, hfresh, rfl⟩ |
    ⟨t, c, base, out, rfl, ht, hr, rfl⟩ | ⟨t, rfl, ht, rfl⟩ := System.step_cases hs
  · exact h.createOrder hcreate hfresh
  · have hk : Keeps s (s.without t) := .of_orders rfl
    exact (h.without t).react (hformed t ht) (hk.vets (h.tokens t ht)) hr
  · exact h.add (vets_copy (h.tokens t ht))

theorem AllVetted.of_opens (h : Opens s) : AllVetted s := by
  refine ⟨.of_unreserved h.reservations, fun t ht => ?_, fun o row hrow => ?_, fun row hrow => ?_⟩
  · rw [h.flight] at ht
    cases ht
  · rw [h.reservations] at hrow
    cases hrow
  · rw [h.payments] at hrow
    cases hrow

theorem allVetted_of_reach {guard : System → Label → Prop} (h : Reach System.step Opens guard s) :
    AllVetted s :=
  h.induct (I := AllVetted) (fun _ hopens => .of_opens hopens)
    fun _ _ _ hreach hinv _ hs => hinv.step (backed_of_reach hreach).1 hs

/-! ## Where the prices come from -/

/-- The order was created by a step of the run, at the prices the catalog answered then. -/
def Originates (labels : List Label) (o : OrderId) (order : Orders.Order) : Prop :=
  ∃ dto answer, Label.createOrder o dto (.ok answer) ∈ labels ∧
    order.total = Orders.totalOf order.items ∧
    ∀ item ∈ order.items, Orders.priceOf answer.prices item.productId = some item.price

/-- **A charge for what the customer has ordered**: the sum over the lines of the order,
each a positive number of units at the price the catalog had answered for the product. -/
def FairlyCharged (s : System × List Label) (row : Payments.Payment) : Prop :=
  ∃ order dto answer, s.1.orders.lookup row.orderId = some order ∧
    Label.createOrder row.orderId dto (.ok answer) ∈ s.2 ∧
    (∀ item ∈ order.items, Orders.priceOf answer.prices item.productId = some item.price ∧
      ∃ n : ℕ, 0 < n ∧ item.quantity = n) ∧
    row.amount = (order.items.map fun item => item.price * item.quantity).sum ∧
    ((∀ entry ∈ answer.prices, 0 ≤ entry.2) → 0 ≤ row.amount)

theorem Originates.mono {labels : List Label} {order : Orders.Order} {l : Label}
    (h : Originates labels o order) : Originates (labels ++ [l]) o order := by
  obtain ⟨dto, answer, hmem, hrest⟩ := h
  exact ⟨dto, answer, List.mem_append_left _ hmem, hrest⟩

/-- **Every order of a run was created in it.** -/
theorem originates_of_step {s s' : System × List Label} {l : Label}
    (h : ∀ o order, s.1.orders.lookup o = some order → Originates s.2 o order)
    (hs : traced System.step s l = some s') :
    ∀ o order, s'.1.orders.lookup o = some order → Originates s'.2 o order := by
  obtain ⟨hstep, hlabels⟩ := traced_cases hs
  intro o order horder
  rw [hlabels]
  rcases System.step_cases hstep with ⟨o', dto, result, order', event, rfl, hcreate, hfresh, heq⟩ |
    ⟨t, c, base, out, rfl, ht, hr, heq⟩ | ⟨t, rfl, ht, heq⟩
  · rw [heq] at horder
    change (Finmap.insert o' order' s.1.orders).lookup o = some order at horder
    obtain ⟨rfl, rfl⟩ | ⟨-, hold⟩ := Table.lookup_insert_cases horder
    · obtain ⟨-, htotal, answer, rfl, hprices⟩ := Orders.createOrder_priced hcreate
      exact ⟨dto, answer, List.mem_append_right _ (List.mem_singleton.mpr rfl), htotal, hprices⟩
    · exact (h o order hold).mono
  · have hbase : base.orders.lookup o = some order := by
      rw [heq] at horder
      exact horder
    rcases hr.orders with hsame | ⟨event, status, rpc, rfl, rfl, rfl⟩
    · rw [hsame] at hbase
      exact (h o order hbase).mono
    · -- A new status keeps the lines and the total.
      rw [System.lookup_setStatus] at hbase
      split at hbase
      · obtain ⟨old, hold, rfl⟩ := Option.map_eq_some_iff.mp hbase
        rename_i ho
        subst ho
        exact (h _ old hold).mono
      · exact (h o order hbase).mono
  · rw [heq] at horder
    exact (h o order horder).mono

theorem nonneg_of_priced {items : List OrderItem} {prices : List (ProductId × ℚ)}
    (hprices : ∀ item ∈ items, Orders.priceOf prices item.productId = some item.price ∧
      ∃ n : ℕ, 0 < n ∧ item.quantity = n) (hnonneg : ∀ entry ∈ prices, 0 ≤ entry.2) :
    0 ≤ (items.map fun item => item.price * item.quantity).sum := by
  refine List.sum_nonneg fun x hx => ?_
  obtain ⟨item, hitem, rfl⟩ := List.mem_map.mp hx
  obtain ⟨hprice, n, -, hquantity⟩ := hprices item hitem
  obtain ⟨entry, hentry, hvalue⟩ := Option.map_eq_some_iff.mp hprice
  have hmem := List.mem_reverse.mp (List.mem_of_find?_eq_some hentry)
  rw [hquantity, ← hvalue]
  exact mul_nonneg (hnonneg entry hmem) (Nat.cast_nonneg n)

theorem exists_nat_of_valid {q : ℚ} (h : Inventory.validQuantity q = true) :
    ∃ n : ℕ, 0 < n ∧ q = n := by
  have hpos := Inventory.pos_of_valid h
  have hnum : (q.num : ℚ) = q := Inventory.num_of_valid h
  have hnumpos : 0 < q.num := Rat.num_pos.mpr hpos
  refine ⟨q.num.toNat, by omega, ?_⟩
  rw [← hnum]
  have : ((q.num.toNat : ℤ) : ℚ) = (q.num : ℚ) := by rw [Int.toNat_of_nonneg hnumpos.le]
  exact_mod_cast this.symm

/-- **Every charge is for a valid, catalog-priced order**, in every run. -/
theorem fairlyCharged_of_reach {s : System × List Label}
    (h : Reach (traced System.step) (untraced Opens) (fun _ _ => True) s) :
    ∀ row ∈ s.1.payments, FairlyCharged s row := by
  have hplain : Reach System.step Opens (fun _ _ => True) s.1 := h.of_traced fun _ _ => id
  obtain ⟨-, hbacked⟩ := backed_of_reach hplain
  have hvetted := allVetted_of_reach hplain
  have horigin : ∀ o order, s.1.orders.lookup o = some order → Originates s.2 o order := by
    refine h.invariant (I := fun s => ∀ o order, s.1.orders.lookup o = some order →
      Originates s.2 o order) (fun s hopens o order horder => ?_)
      fun _ _ _ hinv _ hs => originates_of_step hinv hs
    rw [hopens.1.orders] at horder
    cases horder
  intro row hrow
  obtain ⟨items, ⟨order, horder, rfl⟩, hvalid⟩ := hvetted.rows row hrow
  obtain ⟨order', horder', -, htotal⟩ := hbacked.rows row hrow
  obtain rfl : order = order' := Option.some.inj (horder.symm.trans horder')
  obtain ⟨dto, answer, hmem, hsum, hprices⟩ := horigin _ order horder
  have hlines : ∀ item ∈ order.items, Orders.priceOf answer.prices item.productId = some item.price ∧
      ∃ n : ℕ, 0 < n ∧ item.quantity = n := fun item hitem =>
    ⟨hprices item hitem, exists_nat_of_valid (hvalid item hitem)⟩
  have hamount : row.amount = (order.items.map fun item => item.price * item.quantity).sum := by
    rw [← htotal, hsum, Orders.totalOf_eq_sum]
  exact ⟨order, dto, answer, horder, hmem, hlines, hamount, fun hnonneg =>
    hamount ▸ nonneg_of_priced hlines hnonneg⟩

/-- An order is charged. -/
theorem fairlyCharged_of_paid :
    ∃ s, Reach (traced System.step) (untraced Opens) (fun _ _ => True) s ∧
      s.1.payments = [⟨0, "o", "c", 10, .success⟩] ∧ ∀ row ∈ s.1.payments, FairlyCharged s row := by
  obtain ⟨s, hreach, hs⟩ := Reach.exists_of_follow (traced System.step) (untraced Opens)
    (fun _ _ => True) (s := (newShop, [])) ⟨opens_newShop, rfl⟩
    ([someOrder] ++ relayed ++ called (.created someCreated) ++ requested ++ paid)
    (fun s => s.1.payments = [⟨0, "o", "c", 10, .success⟩]) (by decide +kernel)
  exact ⟨s, hreach, of_decide_eq_true hs, fairlyCharged_of_reach hreach⟩

end Saga

end Ecommerce
