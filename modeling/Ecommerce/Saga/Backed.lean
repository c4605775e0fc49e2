import Ecommerce.Saga.Tokens
/-!
# A completed order is backed by stock and money

No step is excluded here: messages are duplicated, lost replies, crashes
and rejected statements happen at any time. What carries the agreement of
the three databases is what each token in flight knows (`Knows`), and no
step takes that back: an order keeps its customer and its total, a payment
stays in the table and a CONFIRMED reservation stays CONFIRMED (`Grows`).
-/

namespace Ecommerce

namespace Saga

open Payments (someRequest)

/-- The order `o` is for this customer and this total. -/
def Asks (s : System) (o : OrderId) (customerId : CustomerId) (total : ℚ) : Prop :=
  ∃ order, s.orders.lookup o = some order ∧ order.customerId = customerId ∧ order.total = total

/-- The order has a payment in this status. -/
def Recorded (s : System) (o : OrderId) (status : PaymentStatus) : Prop :=
  ∃ row ∈ s.payments, row.orderId = o ∧ row.status = status

/-- The order's reservation is CONFIRMED. -/
def Confirmed (s : System) (o : OrderId) : Prop := s.inventory.statusOf o = some .confirmed

/-- **Every COMPLETED order is backed.** -/
def AllBacked (s : System) : Prop :=
  ∀ o order, s.orders.lookup o = some order → order.status = .completed →
    (∃ row, s.inventory.reservations.lookup o = some row ∧ row.status = .confirmed) ∧
      ∃ row ∈ s.payments, row.orderId = o ∧ row.status = .success ∧
        row.customerId = order.customerId ∧ row.amount = order.total

/-- What an event says. -/
def Event.Knows (s : System) : Event → Prop
  | .created event => Asks s event.orderId event.customerId event.total
  | .succeeded event => Recorded s event.orderId .success
  | .failed event => Recorded s event.orderId .failed

/-- What is known of the order where a handler stands. -/
def Pc.Knows (s : System) (o : OrderId) : Pc → Prop
  | .update .completed => Confirmed s o ∧ Recorded s o .success
  | .publishPayment request => Asks s request.orderId request.customerId request.total
  | _ => True

/-- What a reply says. -/
def Rpc.Knows (s : System) : Event → Rpc → Prop
  | .succeeded event, .replied r => r.success = true → Confirmed s event.orderId
  | _, _ => True

/-- What a message says in its queue. -/
def MessageKnows (s : System) : Queue → Body → Prop
  | _, .orderCreated event => Asks s event.orderId event.customerId event.total
  | _, .paymentRequested request => Asks s request.orderId request.customerId request.total
  | .paymentSucceeded, .paymentResult event => Recorded s event.orderId .success
  | .paymentFailed, .paymentResult event => Recorded s event.orderId .failed
  | _, _ => True

/-- **What something in flight knows.** -/
def Token.Knows (s : System) : Token → Prop
  | .outbox event => Asks s event.orderId event.customerId event.total
  | .queued queue m => MessageKnows s queue m.body
  | .saga event pc rpc => event.Knows s ∧ pc.Knows s event.orderId ∧ rpc.Knows s event
  | .request _ => True
  | .payment event _ pc => Asks s event.orderId event.customerId event.total ∧
      ∀ id status, pc = .publishSaved id status → Recorded s event.orderId status

/-- **What no step takes back.** -/
structure Grows (s s' : System) : Prop where
  asks : ∀ o c total, Asks s o c total → Asks s' o c total
  payments : ∀ row ∈ s.payments, row ∈ s'.payments
  confirmed : ∀ o, Confirmed s o → Confirmed s' o

variable {s s' : System} {t : Token} {o : OrderId}

namespace Grows

theorem recorded (h : Grows s s') {status : PaymentStatus} (hrec : Recorded s o status) :
    Recorded s' o status := by
  obtain ⟨row, hrow, hrest⟩ := hrec
  exact ⟨row, h.payments row hrow, hrest⟩

theorem event (h : Grows s s') (e : Event) (hknows : e.Knows s) : e.Knows s' := by
  cases e with
  | created event => exact h.asks _ _ _ hknows
  | succeeded event => exact h.recorded hknows
  | failed event => exact h.recorded hknows

theorem pc (h : Grows s s') {pc : Pc} (hknows : pc.Knows s o) : pc.Knows s' o := by
  cases pc with
  | update status =>
    cases status with
    | completed => exact ⟨h.confirmed o hknows.1, h.recorded hknows.2⟩
    | _ => trivial
  | publishPayment request => exact h.asks _ _ _ hknows
  | _ => trivial

theorem rpc (h : Grows s s') {e : Event} {rpc : Rpc} (hknows : rpc.Knows s e) :
    rpc.Knows s' e := by
  cases e with
  | succeeded event =>
    cases rpc with
    | replied r => exact fun hr => h.confirmed _ (hknows hr)
    | _ => trivial
  | _ => trivial

theorem message (h : Grows s s') {queue : Queue} {body : Body}
    (hknows : MessageKnows s queue body) : MessageKnows s' queue body := by
  cases body with
  | orderCreated event => exact h.asks _ _ _ hknows
  | paymentRequested request => exact h.asks _ _ _ hknows
  | paymentResult event =>
    cases queue with
    | paymentSucceeded => exact h.recorded hknows
    | paymentFailed => exact h.recorded hknows
    | _ => trivial
  | statusChanged o c status => trivial

theorem token (h : Grows s s') (hknows : t.Knows s) : t.Knows s' := by
  cases t with
  | outbox event => exact h.asks _ _ _ hknows
  | queued queue m => exact h.message hknows
  | saga event pc rpc => exact ⟨h.event event hknows.1, h.pc hknows.2.1, h.rpc hknows.2.2⟩
  | request req => trivial
  | payment request xDeath pc =>
    exact ⟨h.asks _ _ _ hknows.1, fun id status hpc => h.recorded (hknows.2 id status hpc)⟩

/-- Nothing but what is in flight has changed. -/
theorem of_flight (ho : s'.orders = s.orders) (hi : s'.inventory = s.inventory)
    (hp : s'.payments = s.payments) : Grows s s' := by
  refine ⟨fun o c total h => ?_, fun row h => hp ▸ h, fun o h => ?_⟩
  · unfold Asks at h ⊢
    rwa [ho]
  · unfold Confirmed at h ⊢
    rwa [hi]

end Grows

/-! ## The invariant -/

/-- **The invariant.** -/
structure Backed (s : System) : Prop where
  stored : Inventory.Stored s.inventory
  tokens : ∀ t ∈ s.flight, t.Knows s
  rows : ∀ row ∈ s.payments, Asks s row.orderId row.customerId row.amount
  completed : ∀ o order, s.orders.lookup o = some order → order.status = .completed →
    Confirmed s o ∧ Recorded s o .success

namespace Backed

/-- What a step that takes nothing back has to show: its new tokens, its new payment and
its new COMPLETED order. -/
theorem next (h : Backed s) (hg : Grows s s') (hstored : Inventory.Stored s'.inventory)
    (htokens : ∀ t ∈ s'.flight, t ∈ s.flight ∨ t.Knows s')
    (hrows : ∀ row ∈ s'.payments, row ∈ s.payments ∨
      Asks s' row.orderId row.customerId row.amount)
    (hcompleted : ∀ o order', s'.orders.lookup o = some order' → order'.status = .completed →
      (∃ order, s.orders.lookup o = some order ∧ order.status = .completed) ∨
        Confirmed s' o ∧ Recorded s' o .success) : Backed s' := by
  refine ⟨hstored, fun t ht => ?_, fun row hrow => ?_, fun o order' ho hst => ?_⟩
  · exact (htokens t ht).elim (fun hold => hg.token (h.tokens t hold)) id
  · exact (hrows row hrow).elim (fun hold => hg.asks _ _ _ (h.rows row hold)) id
  · rcases hcompleted o order' ho hst with ⟨order, hold, hst'⟩ | hnew
    · obtain ⟨hconf, hpaid⟩ := h.completed o order hold hst'
      exact ⟨hg.confirmed o hconf, hg.recorded hpaid⟩
    · exact hnew

theorem add (h : Backed s) {ts : Multiset Token} (hts : ∀ t ∈ ts, t.Knows s) :
    Backed (s.add ts) := by
  have hg : Grows s (s.add ts) := .of_flight rfl rfl rfl
  refine h.next hg h.stored (fun t ht => ?_) (fun row hrow => .inl hrow)
    fun o order ho hst => .inl ⟨order, ho, hst⟩
  rcases Multiset.mem_add.mp ht with hnew | hold
  · exact .inr (hg.token (hts t hnew))
  · exact .inl hold

theorem addOne (h : Backed s) (ht : t.Knows s) : Backed (s.add {t}) :=
  h.add fun _ hu => (Multiset.mem_singleton.mp hu).symm ▸ ht

theorem without (h : Backed s) (t : Token) : Backed (s.without t) := by
  refine h.next (.of_flight rfl rfl rfl) h.stored (fun u hu => ?_) (fun row hrow => .inl hrow)
    fun o order ho hst => .inl ⟨order, ho, hst⟩
  exact .inl (Multiset.mem_of_mem_erase hu)

/-- Inventory-service handles a request. -/
theorem serve (h : Backed s) (faults : List Bool) (req : Inventory.Request) :
    Grows s (s.serve faults req) ∧ Backed (s.serve faults req) := by
  obtain ⟨reply, -, hreplies, hstored⟩ := Inventory.serve_replies faults req h.stored
  have hg : Grows s (s.serve faults req) :=
    ⟨fun _ _ _ hasks => hasks, fun _ hrow => hrow, fun o hconf => hreplies.final o hconf⟩
  exact ⟨hg, h.next hg hstored (fun t ht => .inl ht) (fun row hrow => .inl hrow)
    fun o order ho hst => .inl ⟨order, ho, hst⟩⟩

/-- The status of an order is written; COMPLETED needs backing. -/
theorem setStatus (h : Backed s) (o : OrderId) (status : OrderStatus)
    (hback : status = .completed → Confirmed s o ∧ Recorded s o .success) :
    Grows s (s.setStatus o status) ∧ Backed (s.setStatus o status) := by
  have hg : Grows s (s.setStatus o status) := by
    refine ⟨fun o' c total hasks => ?_, fun row hrow => ?_, fun o' hconf => ?_⟩
    · obtain ⟨order, hrow, hc, htotal⟩ := hasks
      by_cases heq : o' = o
      · exact ⟨{ order with status := status }, by
          rw [System.lookup_setStatus, if_pos heq, ← heq, hrow, Option.map_some], hc, htotal⟩
      · exact ⟨order, by rw [System.lookup_setStatus, if_neg heq, hrow], hc, htotal⟩
    · rwa [System.setStatus_payments]
    · unfold Confirmed at hconf ⊢
      rwa [System.setStatus_inventory]
  refine ⟨hg, h.next hg (by rw [System.setStatus_inventory]; exact h.stored)
    (fun t ht => .inl (by rwa [System.setStatus_flight] at ht))
    (fun row hrow => .inl (by rwa [System.setStatus_payments] at hrow))
    fun o' order' ho' hst => ?_⟩
  rw [System.lookup_setStatus] at ho'
  split at ho'
  · obtain ⟨order, -, rfl⟩ := Option.map_eq_some_iff.mp ho'
    obtain ⟨hconf, hpaid⟩ := hback hst
    rename_i heq
    rw [heq]
    exact .inr ⟨hg.confirmed o hconf, hg.recorded hpaid⟩
  · exact .inl ⟨order', ho', hst⟩

/-- A payment over what its order asks for is inserted. -/
theorem insertPayment (h : Backed s) (row : Payments.Payment)
    (hasks : Asks s row.orderId row.customerId row.amount) :
    Grows s (s.insertPayment row) ∧ Backed (s.insertPayment row) := by
  have hg : Grows s (s.insertPayment row) :=
    ⟨fun _ _ _ hold => hold, fun r hr => List.mem_append_left _ hr, fun _ hconf => hconf⟩
  refine ⟨hg, h.next hg h.stored (fun t ht => .inl ht) (fun r hr => ?_)
    fun o order ho hst => .inl ⟨order, ho, hst⟩⟩
  rcases List.mem_append.mp hr with hold | hnew
  · exact .inl hold
  · obtain rfl := List.mem_singleton.mp hnew
    exact .inr hasks

/-- An order is created. -/
theorem createOrder (h : Backed s) {order : Orders.Order} {event : OrderCreatedEvent}
    {dto : Orders.CreateOrderDto} {result : Except String (Orders.PricesFor dto.productIds)}
    (hcreate : Orders.createOrder o dto result = .ok (order, event))
    (hfresh : s.orders.lookup o = none) :
    Backed ({ s with orders := s.orders.insert o order }.add {Token.outbox event}) := by
  obtain ⟨hpending, rfl, hcustomer, htotal⟩ := Orders.createOrder_eq hcreate
  have hg : Grows s { s with orders := s.orders.insert event.orderId order } := by
    refine ⟨fun o' c total hasks => ?_, fun row hrow => hrow, fun o' hconf => hconf⟩
    obtain ⟨order', hrow, hrest⟩ := hasks
    exact ⟨order', Table.lookup_insert_of_fresh hfresh hrow, hrest⟩
  refine addOne (h.next hg h.stored (fun t ht => .inl ht) (fun row hrow => .inl hrow)
    fun o' order' ho' hst => ?_) ⟨order, Finmap.lookup_insert _, hcustomer.symm, htotal.symm⟩
  -- The new order is PENDING; the others are as they were.
  obtain ⟨-, rfl⟩ | ⟨-, hold⟩ := Table.lookup_insert_cases ho'
  · rw [hpending] at hst
    cases hst
  · exact .inl ⟨order', hold, hst⟩

end Backed

/-! ## What the tokens of a step know -/

/-- A handler knows what its message says. -/
theorem knows_start {queue : Queue} {m : Message} (h : start queue m = some t)
    (hknows : MessageKnows s queue m.body) : t.Knows s := by
  cases starts_of_start h with
  | requested event xDeath => exact ⟨hknows, fun id status hpc => by cases hpc⟩
  | _ => exact ⟨hknows, trivial, trivial⟩

theorem knows_goOn {event : Event} {pc : Pc} (hevent : event.Knows s)
    (hpc : pc.Knows s event.orderId) : ∀ u ∈ goOn event pc, u.Knows s := by
  intro u hu
  rw [mem_goOn hu]
  exact ⟨hevent, hpc, by cases event <;> trivial⟩

/-- The answer to the RPC is all a handler needs to know. -/
theorem knows_afterCall {event : Event} {r : Except String Inventory.RpcResult}
    (hevent : event.Knows s) (hr : ∀ result, r = .ok result → (Rpc.replied result).Knows s event) :
    (afterCall event r).Knows s event.orderId := by
  cases event with
  | created event => rcases r with message | ⟨_ | _, reason⟩ <;> trivial
  | succeeded event =>
    rcases r with message | ⟨_ | _, reason⟩
    · trivial
    · trivial
    · exact ⟨hr _ rfl rfl, hevent⟩
  | failed event => trivial

theorem knows_afterStatus {event : Event} (status : OrderStatus) (hevent : event.Knows s) :
    (afterStatus event status).Knows s event.orderId := by
  cases event with
  | created event =>
    cases status with
    | inventoryReserved => exact hevent
    | _ => trivial
  | _ => trivial

theorem knows_afterUpdate {event : Event} (status : OrderStatus) (hevent : event.Knows s) :
    (afterUpdate event status (.ok ())).Knows s event.orderId := by
  change Pc.Knows s _ (if isTerminal status then _ else _)
  split
  · trivial
  · exact knows_afterStatus status hevent

theorem knows_of_tells {pc : Pc} (h : pc.tells = true) : pc.Knows s o := by
  cases pc with
  | find status => trivial
  | publishStatus status customerId => trivial
  | _ => cases h

theorem knows_abandoned (event : Event) (pc : Pc) (rpc : Rpc) :
    ∀ u ∈ abandoned event pc rpc, u.Knows s := by
  intro u hu
  rw [mem_abandoned hu]
  trivial

/-- A requeued message says what it said. -/
theorem knows_message {event : Event} (hevent : event.Knows s) :
    Token.Knows s (.queued event.message.1 event.message.2) := by
  cases event with
  | _ event => exact hevent

/-- A success of `confirm` is one. -/
theorem knows_heard {event : Event} {redelivered : Bool} {faults : List Bool}
    (hst : Inventory.Stored s.inventory) :
    (heard (Inventory.serve faults (event.request.toRequest redelivered) s.inventory).1).Knows
      (s.serve faults (event.request.toRequest redelivered)) event := by
  obtain ⟨reply, hreply, hreplies, -⟩ :=
    Inventory.serve_replies faults (event.request.toRequest redelivered) hst
  rw [hreply]
  generalize hrpc : heard (.ok reply) = rpc
  cases event with
  | succeeded event =>
    cases rpc with
    | replied r =>
      intro hr
      obtain ⟨success, reason⟩ := r
      obtain rfl : success = true := hr
      exact hreplies.success reason (heard_eq_replied hrpc)
    | _ => trivial
  | _ => trivial

theorem knows_copy (hknows : t.Knows s) : ∀ u ∈ t.copy, u.Knows s := by
  intro u hu
  obtain rfl | ⟨event, rfl, rfl⟩ := mem_copy hu
  · exact hknows
  · trivial

/-- **Whatever acts, the invariant is kept.** -/
theorem Backed.react (h : Backed s) {c : Choice} {base : System} {out : Multiset Token}
    (hformed : t.Formed) (ht : t.Knows s) (hr : React s t c base out) : Backed (base.add out) := by
  cases hr with
  | relays event => exact h.addOne ht
  | starts hstart => exact h.addOne (knows_start hstart ht)
  | expires m hq =>
    refine h.addOne ?_
    obtain ⟨body, xDeath⟩ := m
    cases body <;> first | exact ht | trivial
  | sends event => exact h.addOne ⟨ht.1, trivial, by cases event <;> trivial⟩
  | handled event redelivered faults =>
    obtain ⟨hg, hback⟩ := h.serve faults (event.request.toRequest redelivered)
    exact hback.addOne ⟨hg.event event ht.1, trivial, knows_heard h.stored⟩
  | hears event r =>
    refine h.add (knows_goOn ht.1 (knows_afterCall ht.1 fun result heq => ?_))
    obtain rfl := Except.ok.inj heq
    exact ht.2.2
  | loses event r => exact h.addOne ⟨ht.1, trivial, by cases event <;> trivial⟩
  | givesUp event rpc message =>
    refine h.add fun u hu => ?_
    rcases Multiset.mem_add.mp hu with hu | hu
    · exact knows_abandoned event .call rpc u hu
    · exact knows_goOn ht.1 (knows_afterCall ht.1 fun result heq => by cases heq) u hu
  | writes event status rpc =>
    -- Where COMPLETED is written, the handler knows of the stock and of the payment.
    obtain ⟨hg, hback⟩ := h.setStatus event.orderId status (by rintro rfl; exact ht.2.1)
    have hevent := hg.event event ht.1
    exact hback.add (knows_goOn hevent (knows_afterUpdate status hevent))
  | writeFails event status rpc message =>
    exact h.add (knows_goOn ht.1 (knows_afterStatus status ht.1))
  | tells event rpc c hpc hpc' =>
    refine h.add (knows_goOn ht.1 ?_)
    rcases hpc' with hpc' | rfl
    · exact knows_of_tells hpc'
    · trivial
  | requests event request rpc => exact h.addOne ht.2.1
  | requestFails event request rpc message => simpa using h
  | crashes event pc rpc =>
    refine h.add fun u hu => ?_
    rcases Multiset.mem_add.mp hu with hu | hu
    · exact knows_abandoned event pc rpc u hu
    · obtain rfl := Multiset.mem_singleton.mp hu
      exact knows_message ht.1
  | serves req redelivered faults => simpa using (h.serve faults (req.toRequest redelivered)).2
  | paid row hrow horder => simpa using h
  | unpaid hnone =>
    rw [afterFind_eq_fire hformed.1]
    exact h.addOne ⟨ht.1, fun id status hpc => by cases hpc⟩
  | movesToDlq event xDeath => exact absurd rfl hformed.2.1
  | givenUp event xDeath => exact absurd rfl hformed.2.2
  | charged event xDeath status => exact h.addOne ⟨ht.1, fun id status hpc => by cases hpc⟩
  | chargeFails event xDeath message => exact h.addOne ⟨ht.1, fun id status hpc => by cases hpc⟩
  | retries event xDeath hq => exact h.addOne ht.1
  | retryDropped event xDeath => simpa using h
  | saves event xDeath status =>
    -- The row is over what the message asked for, and its delivery has recorded it.
    obtain ⟨hg, hback⟩ := h.insertPayment
      ⟨s.payments.length, event.orderId, event.customerId, event.total, status⟩ ht.1
    refine hback.addOne ⟨hg.asks _ _ _ ht.1, fun id status' hpc => ?_⟩
    obtain ⟨-, rfl⟩ := Payments.Pc.publishSaved.inj hpc
    exact ⟨_, List.mem_append_right _ (List.mem_singleton.mpr rfl), rfl, rfl⟩
  | announces event xDeath id status =>
    refine h.addOne ?_
    cases status with
    | _ => exact ht.2 id _ rfl
  | announceFails message hpc => simpa using h
  | requeues event xDeath pc hc => exact h.addOne ht.1
  | vanishes hgone => simpa using h

namespace Backed

/-- **Every step keeps the invariant.** -/
theorem step (h : Backed s) (hformed : ∀ t ∈ s.flight, t.Formed) {l : Label}
    (hs : s.step l = some s') : Backed s' := by
  obtain ⟨o, dto, result, order, event, rfl, hcreate, hfresh, rfl⟩ |
    ⟨t, c, base, out, rfl, ht, hr, rfl⟩ | ⟨t, rfl, ht, rfl⟩ := System.step_cases hs
  · exact h.createOrder hcreate hfresh
  · have hg : Grows s (s.without t) := .of_flight rfl rfl rfl
    exact (h.without t).react (hformed t ht) (hg.token (h.tokens t ht)) hr
  · exact h.add (knows_copy (h.tokens t ht))

theorem of_opens (h : Opens s) : Backed s := by
  refine ⟨.of_unreserved h.reservations, fun t ht => ?_, fun row hrow => ?_, fun o order ho => ?_⟩
  · rw [h.flight] at ht
    cases ht
  · rw [h.payments] at hrow
    cases hrow
  · rw [h.orders] at ho
    cases ho

theorem allBacked (h : Backed s) : AllBacked s := by
  intro o order ho hst
  obtain ⟨hconf, row, hrow, horder, hsuccess⟩ := h.completed o order ho hst
  obtain ⟨order', ho', hcustomer, htotal⟩ := h.rows row hrow
  obtain rfl : order' = order := by
    rw [horder, ho] at ho'
    exact (Option.some.inj ho').symm
  exact ⟨Option.map_eq_some_iff.mp hconf,
    ⟨row, hrow, horder, hsuccess, hcustomer.symm, htotal.symm⟩⟩

end Backed

/-- Whatever an environment does, what is in flight is well formed and knows its part. -/
theorem backed_of_reach {guard : System → Label → Prop} (h : Reach System.step Opens guard s) :
    (∀ t ∈ s.flight, t.Formed) ∧ Backed s := by
  refine h.invariant (I := fun s => (∀ t ∈ s.flight, t.Formed) ∧ Backed s)
    (fun s hopens => ⟨fun t ht => ?_, .of_opens hopens⟩)
    fun s l s' hinv _ hs => ⟨formed_of_step hinv.1 hs, hinv.2.step hinv.1 hs⟩
  rw [hopens.flight] at ht
  cases ht

/-- **A completed order is backed by stock and money**, in every run: whatever is
duplicated, delayed, lost, rejected or crashes. -/
theorem allBacked_of_reach (h : Reach System.step Opens (fun _ _ => True) s) : AllBacked s :=
  (backed_of_reach h).2.allBacked

/-! ## Runs -/

/-- A unit costs five. -/
def somePrices : Orders.PricesFor ["p"] := ⟨⟨[("p", 5)], []⟩, by decide⟩

/-- An order of so many units. -/
def placed (orderId : OrderId) (quantity : ℚ) : Label :=
  .createOrder orderId ⟨"c", [⟨"p", quantity⟩]⟩ (.ok somePrices)

/-- An order of two units. -/
def someOrder : Label := placed "o" 2

def someCreated : OrderCreatedEvent := ⟨"o", "c", 10, [⟨"p", 2, 5⟩]⟩

/-- The relay publishes the event, and it is delivered. -/
def relayed : List Label :=
  [.act (.outbox someCreated) .go,
    .act (.queued .orderCreated ⟨.orderCreated someCreated, []⟩) .go]

/-- An RPC that is answered with `success`. -/
def called (event : Event) : List Label :=
  [.act (.saga event .call .idle) .go, .act (.saga event .call .requested) (.serve false []),
    .act (.saga event .call (.replied ⟨true, none⟩)) .go]

/-- The reserved order's payment is requested. -/
def requested : List Label :=
  [.act (.saga (.created someCreated) (.update .inventoryReserved) .idle) .go,
    .act (.saga (.created someCreated) (.publishPayment someRequest) .idle) .go,
    .act (.queued .paymentRequested ⟨.paymentRequested someRequest, []⟩) .go]

/-- The customer is charged, and the orchestrator is told. -/
def paid : List Label :=
  [.act (.payment someRequest [] .find) .go, .act (.payment someRequest [] .fire) (.charge .success),
    .act (.payment someRequest [] (.save .success)) .go,
    .act (.payment someRequest [] (.publishSaved 0 .success)) .go,
    .act (.queued .paymentSucceeded ⟨.paymentResult ⟨"o", some 0, .success⟩, []⟩) .go]

/-- The order is completed. -/
def completed : List Label :=
  called (.succeeded ⟨"o", some 0, .success⟩) ++
    [.act (.saga (.succeeded ⟨"o", some 0, .success⟩) (.update .completed) .idle) .go]

/-- An order is reserved, paid and completed. -/
theorem allBacked_of_completed :
    ∃ s, Reach System.step Opens (fun _ _ => True) s ∧ s.statusOf "o" = some .completed ∧
      AllBacked s := by
  obtain ⟨s, hreach, hs⟩ := Reach.exists_of_follow System.step Opens (fun _ _ => True)
    opens_newShop
    ([someOrder] ++ relayed ++ called (.created someCreated) ++ requested ++ paid ++ completed)
    (fun s => s.statusOf "o" = some .completed) (by decide +kernel)
  exact ⟨s, hreach, of_decide_eq_true hs, allBacked_of_reach hreach⟩

end Saga

end Ecommerce
