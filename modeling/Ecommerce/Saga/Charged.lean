import Ecommerce.Saga.Backed
/-!
# Cancelled orders and payments

Three handlers write an order's status without looking at the one they
overwrite. `Charges` is what keeps that apart from the payments in spite
of duplicates: an order whose payment has been requested is not CANCELLED
unless the payment failed. A copy of `order.created` breaks it that
cancels an order whose payment another copy has requested.
-/

namespace Ecommerce

namespace Saga

open Payments (someRequest)

namespace Token

/-- The order a payment is requested for. -/
def requestOf : Token → Option OrderId
  | .queued _ ⟨.paymentRequested event, _⟩ => some event.orderId
  | .saga _ (.publishPayment event) _ => some event.orderId
  | .payment event _ _ => some event.orderId
  | _ => none

/-- A payment handler of the order that has found no payment and not inserted one yet. -/
def holds (o : OrderId) : Token → Bool
  | .payment event _ .fire => event.orderId = o
  | .payment event _ (.save _) => event.orderId = o
  | _ => false

end Token

/-! ## The conditions on a run -/

namespace Label

/-- The databases and the broker work; RPCs and the gateway may fail. -/
def storesWork : Label → Bool
  | act (.saga _ pc _) (.reject _) => pc = .call
  | act (.payment _ _ pc) (.reject _) => pc = .fire
  | act _ (.drop _) => false
  | _ => true

/-- The order a copy of `order.created` is about to write CANCELLED to. -/
def cancelling : Label → Option OrderId
  | act (.saga (.created event) (.update .cancelled) _) .go => some event.orderId
  | _ => none

/-- The order a delivery of `payment.requested` is about to look up. -/
def reading : Label → Option OrderId
  | act (.payment event _ .find) .go => some event.orderId
  | _ => none

end Label

/-- No payment of the order is requested or recorded. -/
def Unasked (s : System) (o : OrderId) : Prop :=
  (∀ t ∈ s.flight, t.requestOf ≠ some o) ∧ ∀ row ∈ s.payments, row.orderId ≠ o

/-- A copy of `order.created` writes CANCELLED only if the payment has failed, or none has
been requested. -/
def CancelsUnasked (s : System) (l : Label) : Prop :=
  ∀ o ∈ l.cancelling, Recorded s o .failed ∨ Unasked s o

/-- A delivery of `payment.requested` finds no payment only if no other one of the order
is between its read and its insert. -/
def ReadsAlone (s : System) (l : Label) : Prop :=
  ∀ o ∈ l.reading, (∀ row ∈ s.payments, row.orderId ≠ o) → ∀ t ∈ s.flight, t.holds o = false

/-! ## The invariant -/

/-- The order was reserved, and is not cancelled unless its payment has failed. -/
def Due (s : System) (o : OrderId) : Prop :=
  ∃ order, s.orders.lookup o = some order ∧ order.status ≠ .pending ∧
    (order.status = .cancelled → Recorded s o .failed)

/-- **The invariant of the charges.** -/
structure Charges (s : System) : Prop where
  due : ∀ t ∈ s.flight, ∀ o, t.requestOf = some o → Due s o
  rows : ∀ row ∈ s.payments, Due s row.orderId
  once : ∀ r₁ ∈ s.payments, ∀ r₂ ∈ s.payments, r₁.orderId = r₂.orderId → r₁.status = r₂.status
  holder : ∀ o, s.flight.countP (fun t => t.holds o = true) ≤ 1
  free : ∀ row ∈ s.payments, ∀ t ∈ s.flight, t.holds row.orderId = false

variable {s s' : System} {t : Token} {o o' : OrderId} {status : OrderStatus}

/-- An order stays due under another payment. -/
theorem Due.insertPayment (h : Due s o) (row : Payments.Payment) : Due (s.insertPayment row) o := by
  obtain ⟨order, ho, hpending, hcancelled⟩ := h
  refine ⟨order, ho, hpending, fun hst => ?_⟩
  obtain ⟨r, hr, hrest⟩ := hcancelled hst
  exact ⟨r, List.mem_append_left _ hr, hrest⟩

/-- And under every status but PENDING, and CANCELLED before its payment has failed. -/
theorem Due.setStatus (h : Due s o') (hpending : status ≠ .pending)
    (hcancel : o' = o → status = .cancelled → Recorded s o .failed) :
    Due (s.setStatus o status) o' := by
  obtain ⟨order, ho, hpending', hcancelled⟩ := h
  have hrec : Recorded s o' .failed → Recorded (s.setStatus o status) o' .failed := by
    unfold Recorded
    rw [System.setStatus_payments]
    exact id
  by_cases heq : o' = o
  · refine ⟨{ order with status := status }, ?_, hpending, fun hst => hrec ?_⟩
    · rw [System.lookup_setStatus, if_pos heq, ← heq, ho, Option.map_some]
    · rw [heq]
      exact hcancel heq hst
  · refine ⟨order, ?_, hpending', fun hst => hrec (hcancelled hst)⟩
    rw [System.lookup_setStatus, if_neg heq, ho]

namespace Charges

/-- More is in flight, and no payment handler that holds its order. -/
theorem add (h : Charges s) {ts : Multiset Token}
    (hdue : ∀ t ∈ ts, ∀ o, t.requestOf = some o → Due s o)
    (hquiet : ∀ t ∈ ts, ∀ o, t.holds o = false) : Charges (s.add ts) := by
  refine ⟨fun t ht => ?_, h.rows, h.once, fun o => ?_, fun row hrow t ht => ?_⟩
  · exact (Multiset.mem_add.mp ht).elim (hdue t) (h.due t)
  · have hzero : ts.countP (fun t => t.holds o = true) = 0 :=
      Multiset.countP_eq_zero.mpr fun t ht hcon => by rw [hquiet t ht o] at hcon; cases hcon
    have hold := h.holder o
    change (ts + s.flight).countP _ ≤ 1
    rw [Multiset.countP_add]
    omega
  · exact (Multiset.mem_add.mp ht).elim (fun hnew => hquiet t hnew _) (h.free row hrow t)

theorem addOne (h : Charges s) (hdue : ∀ o, t.requestOf = some o → Due s o)
    (hquiet : ∀ o, t.holds o = false) : Charges (s.add {t}) :=
  h.add (fun _ hu => (Multiset.mem_singleton.mp hu).symm ▸ hdue)
    fun _ hu => (Multiset.mem_singleton.mp hu).symm ▸ hquiet

/-- A payment handler comes to hold its order, when no other one holds it. -/
theorem addHolder (h : Charges s) (hdue : ∀ o, t.requestOf = some o → Due s o)
    (halone : ∀ o, t.holds o = true → ∀ u ∈ s.flight, u.holds o = false)
    (hfree : ∀ row ∈ s.payments, t.holds row.orderId = false) : Charges (s.add {t}) := by
  refine ⟨fun u hu => ?_, h.rows, h.once, fun o => ?_, fun row hrow u hu => ?_⟩
  · rcases Multiset.mem_add.mp hu with hnew | hold
    · obtain rfl := Multiset.mem_singleton.mp hnew
      exact hdue
    · exact h.due u hold
  · have hold := h.holder o
    change (t ::ₘ s.flight).countP _ ≤ 1
    rw [Multiset.countP_cons]
    split
    · have hzero : s.flight.countP (fun u => u.holds o = true) = 0 :=
        Multiset.countP_eq_zero.mpr fun u hu hcon => by
          rw [halone o ‹_› u hu] at hcon
          cases hcon
      omega
    · omega
  · rcases Multiset.mem_add.mp hu with hnew | hold
    · obtain rfl := Multiset.mem_singleton.mp hnew
      exact hfree row hrow
    · exact h.free row hrow u hold

theorem without (h : Charges s) (t : Token) : Charges (s.without t) :=
  ⟨fun u hu => h.due u (Multiset.mem_of_mem_erase hu), h.rows, h.once,
    fun o => (Multiset.countP_le_of_le _ (Multiset.erase_le t s.flight)).trans (h.holder o),
    fun row hrow u hu => h.free row hrow u (Multiset.mem_of_mem_erase hu)⟩

/-- Who holds an order is the only one that does. -/
theorem alone (h : Charges s) (ht : t ∈ s.flight) (hholds : t.holds o = true) :
    ∀ u ∈ (s.without t).flight, u.holds o = false := by
  intro u hu
  have hu : u ∈ s.flight.erase t := hu
  have hcount := h.holder o
  rw [← Multiset.cons_erase ht, Multiset.countP_cons, if_pos hholds] at hcount
  by_contra hcon
  have := Multiset.countP_pos_of_mem (p := fun u => Token.holds o u = true) hu (by simpa using hcon)
  omega

/-- Inventory-service has no part in it. -/
theorem serve (h : Charges s) (faults : List Bool) (req : Inventory.Request) :
    Charges (s.serve faults req) :=
  ⟨h.due, h.rows, h.once, h.holder, h.free⟩

/-- The status of an order is written. -/
theorem setStatus (h : Charges s) (hpending : status ≠ .pending)
    (hcancel : status = .cancelled → Recorded s o .failed ∨ Unasked s o) :
    Charges (s.setStatus o status) := by
  have hdue : ∀ o', Due s o' → (o' = o → ¬ Unasked s o) → Due (s.setStatus o status) o' :=
    fun o' hd hasked => hd.setStatus hpending fun heq hst =>
      (hcancel hst).resolve_right (hasked heq)
  refine ⟨fun t ht o' hreq => ?_, fun row hrow => ?_, ?_, ?_, ?_⟩
  · rw [System.setStatus_flight] at ht
    exact hdue o' (h.due t ht o' hreq) fun heq hun => hun.1 t ht (heq ▸ hreq)
  · rw [System.setStatus_payments] at hrow
    exact hdue _ (h.rows row hrow) fun heq hun => hun.2 row hrow heq
  · rw [System.setStatus_payments]
    exact h.once
  · rw [System.setStatus_flight]
    exact h.holder
  · rw [System.setStatus_payments, System.setStatus_flight]
    exact h.free

/-- The first payment of an order is inserted. -/
theorem insertPayment (h : Charges s) {row : Payments.Payment} (hdue : Due s row.orderId)
    (hnone : ∀ r ∈ s.payments, r.orderId ≠ row.orderId)
    (hfree : ∀ t ∈ s.flight, t.holds row.orderId = false) : Charges (s.insertPayment row) := by
  have hmem : ∀ r ∈ (s.insertPayment row).payments, r ∈ s.payments ∨ r = row := fun r hr =>
    (List.mem_append.mp hr).imp id List.mem_singleton.mp
  refine ⟨fun t ht o hreq => (h.due t ht o hreq).insertPayment row, fun r hr => ?_,
    fun r₁ hr₁ r₂ hr₂ heq => ?_, h.holder, fun r hr => ?_⟩
  · rcases hmem r hr with hold | rfl
    · exact (h.rows r hold).insertPayment row
    · exact hdue.insertPayment r
  · rcases hmem r₁ hr₁ with hold₁ | rfl <;> rcases hmem r₂ hr₂ with hold₂ | rfl
    · exact h.once r₁ hold₁ r₂ hold₂ heq
    · exact absurd heq (hnone r₁ hold₁)
    · exact absurd heq.symm (hnone r₂ hold₂)
    · rfl
  · rcases hmem r hr with hold | rfl
    · exact h.free r hold
    · exact hfree

/-- An order is created: it has no payment yet. -/
theorem createOrder (h : Charges s) {order : Orders.Order} {event : OrderCreatedEvent}
    (hfresh : s.orders.lookup o = none) :
    Charges ({ s with orders := s.orders.insert o order }.add {Token.outbox event}) := by
  have hdue : ∀ o', Due s o' → Due { s with orders := s.orders.insert o order } o' := by
    rintro o' ⟨order', ho', hrest⟩
    exact ⟨order', Table.lookup_insert_of_fresh hfresh ho', hrest⟩
  exact addOne ⟨fun t ht o' hreq => hdue o' (h.due t ht o' hreq), fun r hr => hdue _ (h.rows r hr),
    h.once, h.holder, h.free⟩ (fun o' hreq => by cases hreq) fun o' => rfl

end Charges

/-! ## The steps -/

theorem requestOf_goOn {event : Event} {pc : Pc} (h : ∀ request, pc ≠ .publishPayment request) :
    ∀ u ∈ goOn event pc, ∀ o, u.requestOf = some o → Due s o := by
  intro u hu o hreq
  rw [mem_goOn hu] at hreq
  cases pc with
  | publishPayment request => exact absurd rfl (h request)
  | _ => cases hreq

theorem holds_goOn (event : Event) (pc : Pc) : ∀ u ∈ goOn event pc, ∀ o, u.holds o = false := by
  intro u hu o
  rw [mem_goOn hu]
  rfl

theorem afterCall_ne (event : Event) (r : Except String Inventory.RpcResult)
    (request : PaymentRequestedEvent) : afterCall event r ≠ .publishPayment request := by
  cases event with
  | created event => rcases r with message | ⟨_ | _, reason⟩ <;> simp [afterCall]
  | succeeded event => rcases r with message | ⟨_ | _, reason⟩ <;> simp [afterCall]
  | failed event => simp [afterCall]

theorem requestOf_start {queue : Queue} {m : Message} {u : Token} (h : start queue m = some u)
    (hreq : u.requestOf = some o) : Token.requestOf (.queued queue m) = some o := by
  cases starts_of_start h with
  | requested event xDeath => exact hreq
  | _ => cases hreq

theorem holds_start {queue : Queue} {m : Message} {u : Token} (h : start queue m = some u) :
    u.holds o = false := by
  cases starts_of_start h <;> rfl

/-- A copy that has written INVENTORY_RESERVED may ask for the payment. -/
theorem due_of_asks {c : CustomerId} {total : ℚ} (h : Asks s o c total) :
    Due (s.setStatus o .inventoryReserved) o := by
  obtain ⟨order, ho, -⟩ := h
  refine ⟨{ order with status := .inventoryReserved }, ?_, by simp, fun hst => by cases hst⟩
  rw [System.lookup_setStatus, if_pos rfl, ho, Option.map_some]

theorem Charges.abandon (h : Charges s) (event : Event) (pc : Pc) (rpc : Rpc) :
    Charges (s.add (abandoned event pc rpc)) := by
  unfold abandoned
  split
  · exact h.addOne (fun o hreq => by cases hreq) fun o => rfl
  · rwa [System.add_nothing]

/-- **Every act keeps the invariant**, under the conditions. -/
theorem Charges.react (h : Charges s) (hback : Backed s) {c : Choice} {base : System}
    {out : Multiset Token} (ht : t ∈ s.flight) (hformed : t.Formed)
    (hwork : (Label.act t c).storesWork = true) (hcancel : CancelsUnasked s (.act t c))
    (hread : ReadsAlone s (.act t c)) (hr : React (s.without t) t c base out) :
    Charges (base.add out) := by
  have hrest := h.without t
  have hdue := h.due t ht
  have hknows := hback.tokens t ht
  cases hr with
  | relays event => exact hrest.addOne (fun o hreq => by cases hreq) fun o => rfl
  | starts hstart =>
    exact hrest.addOne (fun o hreq => hdue o (requestOf_start hstart hreq))
      fun o => holds_start hstart
  | expires m hq =>
    refine hrest.addOne (fun o hreq => hdue o ?_) fun o => rfl
    obtain ⟨body, xDeath⟩ := m
    cases body <;> exact hreq
  | sends event => exact hrest.addOne (fun o hreq => by cases hreq) fun o => rfl
  | handled event redelivered faults =>
    exact (hrest.serve _ _).addOne (fun o hreq => by cases hreq) fun o => rfl
  | hears event r => exact hrest.add (requestOf_goOn (afterCall_ne event _)) (holds_goOn event _)
  | loses event r => exact hrest.addOne (fun o hreq => by cases hreq) fun o => rfl
  | givesUp event rpc message =>
    rw [System.add_more]
    exact (hrest.add (requestOf_goOn (afterCall_ne event _)) (holds_goOn event _)).abandon _ _ _
  | writes event status rpc =>
    -- The one write that is not safe by itself is CANCELLED of a copy of `order.created`.
    cases event with
    | created event =>
      rcases hformed with rfl | rfl
      · refine (hrest.setStatus (by simp) (by simp)).addOne (fun o hreq => ?_) fun o => rfl
        obtain rfl : event.orderId = o := Option.some.inj hreq
        exact due_of_asks (s := s.without _) hknows.1
      · exact (hrest.setStatus (by simp) fun _ => (hcancel _ rfl).imp id fun hun =>
          ⟨fun u hu => hun.1 u (Multiset.mem_of_mem_erase hu), hun.2⟩).add
          (requestOf_goOn (by simp [afterUpdate, isTerminal])) (holds_goOn _ _)
    | succeeded event =>
      obtain rfl : status = .completed := hformed
      exact (hrest.setStatus (by simp) (by simp)).add
        (requestOf_goOn (by simp [afterUpdate, isTerminal])) (holds_goOn _ _)
    | failed event =>
      obtain rfl : status = .cancelled := hformed
      exact (hrest.setStatus (by simp) fun _ => .inl hknows.1).add
        (requestOf_goOn (by simp [afterUpdate, isTerminal])) (holds_goOn _ _)
  | writeFails event status rpc message => simp [Label.storesWork] at hwork
  | tells event rpc c hpc hpc' =>
    refine hrest.add (requestOf_goOn fun request heq => ?_) (holds_goOn event _)
    rcases hpc' with hpc' | rfl
    · rw [heq] at hpc'
      cases hpc'
    · cases heq
  | requests event request rpc => exact hrest.addOne hdue fun o => rfl
  | requestFails event request rpc message => simp [Label.storesWork] at hwork
  | crashes event pc rpc =>
    rw [System.add_more]
    refine (hrest.addOne (fun o hreq => ?_) fun o => rfl).abandon _ _ _
    cases event <;> cases hreq
  | serves req redelivered faults =>
    rw [System.add_nothing]
    exact hrest.serve _ _
  | paid row hrow horder => rwa [System.add_nothing]
  | unpaid hnone =>
    rw [afterFind_eq_fire hformed.1]
    -- It holds its order from here on; the guard says nobody else does.
    refine hrest.addHolder hdue (fun o hholds u hu => ?_) fun row hrow => ?_
    · obtain rfl := of_decide_eq_true hholds
      exact hread _ rfl hnone u (Multiset.mem_of_mem_erase hu)
    · exact decide_eq_false fun heq => hnone row hrow heq.symm
  | movesToDlq event xDeath => exact absurd rfl hformed.2.1
  | givenUp event xDeath => exact absurd rfl hformed.2.2
  | charged event xDeath status =>
    have hfree := fun row hrow => h.free row hrow _ ht
    exact hrest.addHolder hdue (fun o hholds => h.alone ht hholds) hfree
  | chargeFails event xDeath message => exact hrest.addOne hdue fun o => rfl
  | retries event xDeath hq => exact hrest.addOne hdue fun o => rfl
  | retryDropped event xDeath => rwa [System.add_nothing]
  | saves event xDeath status =>
    have hholds : Token.holds event.orderId (.payment event xDeath (.save status)) = true :=
      decide_eq_true rfl
    -- An order that is held has no payment yet, and its holder lets go of it.
    refine (hrest.insertPayment (hdue _ rfl) (fun r hr heq => ?_) (h.alone ht hholds)).addOne
      (fun o hreq => ?_) fun o => rfl
    · have := h.free r hr _ ht
      rw [show r.orderId = event.orderId from heq, hholds] at this
      cases this
    · exact (hdue o hreq).insertPayment _
  | announces event xDeath id status => exact hrest.addOne (fun o hreq => by cases hreq) fun o => rfl
  | announceFails message hpc => rwa [System.add_nothing]
  | requeues event xDeath pc hc => exact hrest.addOne hdue fun o => rfl
  | vanishes hgone => rwa [System.add_nothing]

theorem Charges.copy (h : Charges s) (ht : t ∈ s.flight) : Charges (s.add t.copy) := by
  have hdue := h.due t ht
  unfold Token.copy
  split
  · exact h.addOne (fun o hreq => by cases hreq) fun o => rfl
  · exact h.addOne hdue fun o => rfl
  · exact h.addOne (fun o hreq => by cases hreq) fun o => rfl
  · exact h.addOne (fun o hreq => by cases hreq) fun o => rfl
  · rwa [System.add_nothing]

/-- **Every step keeps the invariant**, under the conditions. -/
theorem Charges.step (h : Charges s) (hback : Backed s) (hformed : ∀ t ∈ s.flight, t.Formed)
    {l : Label} (hwork : l.storesWork = true) (hcancel : CancelsUnasked s l) (hread : ReadsAlone s l)
    (hs : s.step l = some s') : Charges s' := by
  obtain ⟨o, dto, result, order, event, rfl, hcreate, hfresh, rfl⟩ |
    ⟨t, c, base, out, rfl, ht, hr, rfl⟩ | ⟨t, rfl, ht, rfl⟩ := System.step_cases hs
  · exact h.createOrder hfresh
  · exact h.react hback ht (hformed t ht) hwork hcancel hread hr
  · exact h.copy ht

theorem Charges.of_opens (h : Opens s) : Charges s := by
  have hflight : ∀ t, t ∉ s.flight := fun t ht => by rw [h.flight] at ht; cases ht
  have hrows : ∀ row, row ∉ s.payments := fun row hrow => by rw [h.payments] at hrow; cases hrow
  refine ⟨fun t ht => absurd ht (hflight t), fun r hr => absurd hr (hrows r),
    fun r hr => absurd hr (hrows r), fun o => ?_, fun r hr => absurd hr (hrows r)⟩
  rw [h.flight]
  exact Nat.zero_le 1

/-- In a run under the conditions the charges are in order. -/
theorem charges_of_reach {guard : System → Label → Prop}
    (hguard : ∀ s l, guard s l → l.storesWork = true ∧ CancelsUnasked s l ∧ ReadsAlone s l)
    (h : Reach System.step Opens guard s) : Charges s := by
  refine h.induct (fun _ => .of_opens) fun s l s' hreach hinv hg hs => ?_
  obtain ⟨hwork, hcancel, hread⟩ := hguard s l hg
  obtain ⟨hformed, hback⟩ := backed_of_reach hreach
  exact hinv.step hback hformed hwork hcancel hread hs

/-! ## A cancelled order is not charged -/

/-- The handler of `payment.requested`. -/
def Token.isPayment : Token → Bool
  | .payment _ _ _ => true
  | _ => false

/-- A payment handler goes on. -/
def Label.paying : Label → Bool
  | .act (.payment _ _ _) c => c ≠ .crash
  | _ => false

/-- **The payment handler is one atomic step**: nothing else moves while one is under way. -/
def Atomic (s : System) (l : Label) : Prop :=
  l.paying = true ∨ ∀ t ∈ s.flight, t.isPayment = false

/-- **No CANCELLED order is charged.** -/
def NoneCharged (s : System) : Prop :=
  ∀ o order, s.orders.lookup o = some order → order.status = .cancelled →
    ¬ ∃ row ∈ s.payments, row.orderId = o ∧ row.status = .success

theorem Charges.noneCharged (h : Charges s) : NoneCharged s := by
  rintro o order ho hst ⟨row, hrow, rfl, hsuccess⟩
  obtain ⟨order', ho', -, hcancelled⟩ := h.rows row hrow
  obtain rfl : order = order' := Option.some.inj (ho.symm.trans ho')
  obtain ⟨failed, hfailed, heq, hstatus⟩ := hcancelled hst
  have := h.once failed hfailed row hrow heq
  rw [hstatus, hsuccess] at this
  cases this

theorem isPayment_of_holds (h : t.holds o = true) : t.isPayment = true := by
  cases t with
  | payment event xDeath pc => rfl
  | _ => cases h

/-- How many payment handlers are under way. -/
def handlers (ts : Multiset Token) : ℕ := ts.countP fun t => t.isPayment = true

theorem handlers_add (ts us : Multiset Token) : handlers (ts + us) = handlers ts + handlers us :=
  Multiset.countP_add _ _ _

theorem handlers_singleton (t : Token) : handlers {t} ≤ 1 := Multiset.countP_le_card _ _

theorem handlers_erase (h : t ∈ s.flight) :
    handlers s.flight = handlers (s.flight.erase t) + if t.isPayment = true then 1 else 0 := by
  unfold handlers
  conv_lhs => rw [← Multiset.cons_erase h]
  exact Multiset.countP_cons _ _ _

theorem handlers_goOn (event : Event) (pc : Pc) : handlers (goOn event pc) = 0 := by
  cases pc <;> rfl

theorem handlers_abandoned (event : Event) (pc : Pc) (rpc : Rpc) :
    handlers (abandoned event pc rpc) = 0 := by
  unfold abandoned
  split <;> rfl

/-- An act starts at most one payment handler. -/
theorem React.handlers_le_one {c : Choice} {base : System} {out : Multiset Token}
    (hr : React s t c base out) (hformed : t.Formed) : handlers out ≤ 1 := by
  cases hr with
  | hears event r => exact (handlers_goOn _ _).trans_le (Nat.zero_le 1)
  | givesUp event rpc message =>
    rw [handlers_add, handlers_abandoned, handlers_goOn]
    exact Nat.zero_le 1
  | writes event status rpc => exact (handlers_goOn _ _).trans_le (Nat.zero_le 1)
  | writeFails event status rpc message => exact (handlers_goOn _ _).trans_le (Nat.zero_le 1)
  | tells event rpc c hpc hpc' => exact (handlers_goOn _ _).trans_le (Nat.zero_le 1)
  | crashes event pc rpc =>
    rw [handlers_add, handlers_abandoned, zero_add]
    exact handlers_singleton _
  | movesToDlq event xDeath => exact absurd rfl hformed.2.1
  | requestFails event request rpc message => exact Nat.zero_le 1
  | serves req redelivered faults => exact Nat.zero_le 1
  | paid row hrow horder => exact Nat.zero_le 1
  | retryDropped event xDeath => exact Nat.zero_le 1
  | announceFails message hpc => exact Nat.zero_le 1
  | vanishes hgone => exact Nat.zero_le 1
  | _ => exact handlers_singleton _

/-- The only payment handler under way reads alone. -/
theorem readsAlone_of_handlers (h : handlers s.flight ≤ 1) {l : Label}
    (hs : s.step l = some s') : ReadsAlone s l := by
  intro o ho _ u hu
  unfold Label.reading at ho
  split at ho
  · rename_i event xDeath
    obtain rfl : event.orderId = o := Option.some.inj ho
    by_contra hcon
    have hholds : u.holds event.orderId = true := by simpa using hcon
    have hne : u ≠ .payment event xDeath .find := by
      rintro rfl
      cases hholds
    have hrest := Multiset.countP_pos_of_mem (p := fun t => Token.isPayment t = true)
      ((Multiset.mem_erase_of_ne hne).mpr hu) (isPayment_of_holds hholds)
    rw [handlers_erase (System.mem_of_act hs), if_pos (show Token.isPayment (.payment _ _ _) = true
      from rfl)] at h
    unfold handlers at h
    omega
  · cases ho

/-- Where the payment handler is atomic there is never more than one. -/
theorem handlers_of_atomic (h : handlers s.flight ≤ 1) (hformed : ∀ t ∈ s.flight, t.Formed)
    {l : Label} (hl : Atomic s l) (hs : s.step l = some s') : handlers s'.flight ≤ 1 := by
  have hnone : (∀ t ∈ s.flight, t.isPayment = false) → handlers s.flight = 0 := fun hall =>
    Multiset.countP_eq_zero.mpr fun t ht hcon => by rw [hall t ht] at hcon; cases hcon
  obtain ⟨o, dto, result, order, event, rfl, hcreate, hfresh, rfl⟩ |
    ⟨t, c, base, out, rfl, ht, hr, rfl⟩ | ⟨t, rfl, ht, rfl⟩ := System.step_cases hs
  · have hzero := hnone (hl.resolve_left (by simp [Label.paying]))
    change handlers ({.outbox event} + s.flight) ≤ 1
    have := handlers_singleton (.outbox event)
    rw [handlers_add]
    omega
  · have hout := hr.handlers_le_one (hformed t ht)
    have hrest : handlers (s.flight.erase t) = 0 := by
      have hcount := handlers_erase ht
      by_cases hpay : t.isPayment = true
      · rw [if_pos hpay] at hcount
        omega
      · have hzero := hnone (hl.resolve_left fun hcon =>
          hpay (by cases t <;> first | rfl | cases hcon))
        omega
    change handlers (out + base.flight) ≤ 1
    rw [handlers_add, System.flight_of_react hr]
    exact (congrArg _ hrest).trans_le hout
  · have hzero := hnone (hl.resolve_left (by simp [Label.paying]))
    have hcopy : handlers t.copy = 0 := by
      unfold Token.copy
      split <;> rfl
    change handlers (t.copy + s.flight) ≤ 1
    rw [handlers_add]
    omega

/-- A run in which the databases and the broker work and the payment handler is atomic. -/
def AtomicPayments (s : System) (l : Label) : Prop := l.storesWork = true ∧ Atomic s l

/-- **No CANCELLED order is charged**, in every run in which a copy of `order.created`
cancels an order only if its payment has failed or none has been requested. -/
theorem noneCharged_of_reach
    (h : Reach System.step Opens (fun s l => AtomicPayments s l ∧ CancelsUnasked s l) s) :
    NoneCharged s := by
  have hall : Charges s ∧ handlers s.flight ≤ 1 := by
    refine h.induct (I := fun s => Charges s ∧ handlers s.flight ≤ 1)
      (fun s hopens => ⟨.of_opens hopens, by rw [hopens.flight]; exact Nat.zero_le 1⟩)
      fun s l s' hreach hinv hg hs => ?_
    obtain ⟨⟨hwork, hatomic⟩, hcancel⟩ := hg
    obtain ⟨hformed, hback⟩ := backed_of_reach hreach
    exact ⟨hinv.1.step hback hformed hwork hcancel (readsAlone_of_handlers hinv.2 hs) hs,
      handlers_of_atomic hinv.2 hformed hatomic hs⟩
  exact hall.1.noneCharged

/-! ## Runs -/

instance (s : System) (o : OrderId) (status : PaymentStatus) : Decidable (Recorded s o status) :=
  inferInstanceAs (Decidable (∃ row ∈ s.payments, row.orderId = o ∧ row.status = status))

instance (s : System) (o : OrderId) : Decidable (Unasked s o) :=
  inferInstanceAs (Decidable ((∀ t ∈ s.flight, t.requestOf ≠ some o) ∧
    ∀ row ∈ s.payments, row.orderId ≠ o))

instance (s : System) (l : Label) : Decidable (CancelsUnasked s l) :=
  inferInstanceAs (Decidable (∀ o ∈ l.cancelling, Recorded s o .failed ∨ Unasked s o))

instance (s : System) (l : Label) : Decidable (AtomicPayments s l) :=
  inferInstanceAs (Decidable (l.storesWork = true ∧
    (l.paying = true ∨ ∀ t ∈ s.flight, t.isPayment = false)))

/-- The reserve call of a copy of `order.created` times out, and the order is cancelled. -/
def givenUp : List Label :=
  [.act (.saga (.created someCreated) .call .idle) .go,
    .act (.saga (.created someCreated) .call .requested) (.reject "timeout"),
    .act (.saga (.created someCreated) (.update .cancelled) .idle) .go]

/-- A copy of `order.created`. -/
def copied : Label := .duplicate (.outbox someCreated)

/-- The payment is declined, and the order cancelled: a copy may cancel it once more. -/
theorem noneCharged_of_declined :
    ∃ s, Reach System.step Opens (fun s l => AtomicPayments s l ∧ CancelsUnasked s l) s ∧
      s.statusOf "o" = some .cancelled ∧ NoneCharged s := by
  obtain ⟨s, hreach, hs⟩ := Reach.exists_of_follow System.step Opens
    (fun s l => AtomicPayments s l ∧ CancelsUnasked s l) opens_newShop
    ([someOrder, copied] ++ relayed ++ called (.created someCreated) ++ requested ++
      [.act (.payment someRequest [] .find) .go,
        .act (.payment someRequest [] .fire) (.charge .failed),
        .act (.payment someRequest [] (.save .failed)) .go,
        .act (.payment someRequest [] (.publishSaved 0 .failed)) .go] ++ relayed ++ givenUp)
    (fun s => s.statusOf "o" = some .cancelled) (by decide +kernel)
  exact ⟨s, hreach, of_decide_eq_true hs, noneCharged_of_reach hreach⟩

/-- A copy of `order.created` is delivered once the customer has paid; its reserve call
times out, and the paid order is cancelled. -/
theorem not_noneCharged_of_copy :
    ¬ ∀ s, Reach System.step Opens AtomicPayments s → NoneCharged s := by
  intro h
  obtain ⟨s, hreach, hs⟩ := Reach.exists_of_follow System.step Opens AtomicPayments opens_newShop
    ([someOrder, copied] ++ relayed ++ called (.created someCreated) ++ requested ++ paid ++
      relayed ++ givenUp)
    (fun s => s.statusOf "o" = some .cancelled && decide (Recorded s "o" .success))
    (by decide +kernel)
  rw [Bool.and_eq_true, decide_eq_true_eq, decide_eq_true_eq] at hs
  obtain ⟨order, ho, hst⟩ := Option.map_eq_some_iff.mp hs.1
  exact h s hreach "o" order ho hst hs.2

end Saga

end Ecommerce
