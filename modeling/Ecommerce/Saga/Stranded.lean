import Ecommerce.Saga.Backed
import Ecommerce.Saga.Lines
/-!
# A reserved order goes on

When every message is delivered once and no handler crashes, what keeps an
INVENTORY_RESERVED order going is the one token of its line: the handler
that has reserved it, the payment request, the payment handler, the result
and the handler of the result. A publish that fails may end the line: the
errors of the publish of `payment.requested` and of the payment's result
are swallowed, and the handler is acked.
-/

namespace Ecommerce

namespace Saga

open Payments (retryCount someRequest MAX_RETRIES)

/-! ## The conditions on a run -/

namespace Pc

/-- A publish. -/
def publishes : Pc → Bool
  | publishStatus _ _ => true
  | publishPayment _ => true
  | _ => false

end Pc

/-- A publish of the payment handler. -/
def publishesPayment : Payments.Pc → Bool
  | .publishDlq => true
  | .publishGivenUp => true
  | .publishRetry => true
  | .publishSaved _ _ => true
  | _ => false

namespace Label

/-- Every message is delivered once, that of `order.created` by the relay included, and no
handler crashes; the databases of the two handlers work; RPCs, the gateway and every publish
may fail. -/
def publishesMayFail : Label → Bool
  | duplicate _ => false
  | act _ .crash => false
  | act _ (.serve redelivered _) => !redelivered
  | act (.saga _ pc _) (.reject _) => pc = .call || pc.publishes
  | act (.payment _ _ pc) (.reject _) => pc = .fire || publishesPayment pc
  | act (.payment _ _ pc) (.drop _) => publishesPayment pc
  | act (.outbox _) .lose => false
  | _ => true

/-- The publish of `payment.requested`, or of a payment's result, fails; or the message of a
payment handler that throws is not requeued, as it is by default. -/
def losesPublish : Label → Bool
  | act _ (.drop _) => true
  | act (.saga _ (.publishPayment _) _) (.reject _) => true
  | act (.payment _ _ .publishGivenUp) (.reject _) => true
  | act (.payment _ _ (.publishSaved _ _)) (.reject _) => true
  | _ => false

/-- The order whose confirm call fails or is declined: it is left for follow-up. -/
def unconfirmed : Label → Option OrderId
  | act (.saga (.succeeded event) .call _) (.reject _) => some event.orderId
  | act (.saga (.succeeded event) .call (.replied r)) .go =>
    if r.success then none else some event.orderId
  | _ => none

end Label

/-- The confirm call of the order has failed or was declined in the run. -/
def ConfirmFailed (labels : List Label) (o : OrderId) : Prop :=
  ∃ l ∈ labels, l.unconfirmed = some o

/-- A `payment.requested` message in the main or a retry queue, a payment result, or a
handler that works on the order. -/
def Token.attends (o : OrderId) : Token → Bool
  | .queued queue ⟨.paymentRequested event, _⟩ =>
    (queue = .paymentRequested || queue.deadLetter.isSome) && event.orderId = o
  | .queued queue ⟨.paymentResult event, _⟩ =>
    (queue = .paymentSucceeded || queue = .paymentFailed) && event.orderId = o
  | .saga event _ _ => event.orderId = o
  | .payment event _ _ => event.orderId = o
  | _ => false

/-- **No stranded order**: something in flight goes on with every INVENTORY_RESERVED order,
unless its confirm call has failed. -/
def NoneStranded (s : System × List Label) : Prop :=
  ∀ o, s.1.statusOf o = some .inventoryReserved →
    (∃ t ∈ s.1.flight, t.attends o = true) ∨ ConfirmFailed s.2 o

variable {s s' base : System} {t u : Token} {c : Choice} {out : Multiset Token} {o : OrderId}
variable {l : Label}

theorem single_of_publishesMayFail (h : l.publishesMayFail = true) : l.single = true := by
  cases l with
  | createOrder o dto result => rfl
  | act t c =>
    cases c with
    | crash => cases h
    | _ => rfl
  | duplicate t => cases h

/-! ## Before the payment -/

/-- A token that comes before the payment of its order. -/
def Token.beforePayment : Token → Bool
  | .outbox _ => true
  | .queued _ ⟨.orderCreated _, _⟩ => true
  | .queued _ ⟨.paymentRequested _, _⟩ => true
  | .saga (.created _) _ _ => true
  | .payment _ _ (.publishSaved _ _) => false
  | .payment _ _ _ => true
  | _ => false

/-- **The invariant of the payments**: no order is past its payment and before it. -/
structure PaidOnce (s : System) : Prop where
  line : OneLine s
  unpaid : ∀ t ∈ s.flight, t.beforePayment = true → ∀ o, t.lineOf = some o →
    ∀ row ∈ s.payments, row.orderId ≠ o
  rows : ∀ row ∈ s.payments, s.orders.lookup row.orderId ≠ none

theorem beforePayment_start {queue : Queue} {m : Message} (h : start queue m = some u)
    (hu : u.beforePayment = true) : Token.beforePayment (.queued queue m) = true := by
  cases starts_of_start h with
  | created event xDeath => rfl
  | succeeded event xDeath => cases hu
  | failed event xDeath => cases hu
  | requested event xDeath => rfl

theorem beforePayment_goOn {event : Event} {pc pc' : Pc} {rpc : Rpc} (h : u ∈ goOn event pc)
    (hu : u.beforePayment = true) : Token.beforePayment (.saga event pc' rpc) = true := by
  rw [mem_goOn h] at hu
  cases event with
  | created event => rfl
  | _ event => cases hu

/-- **No act takes an order back before its payment**, when no result is lost. -/
theorem React.beforePayment (hr : React s t c base out) (hformed : t.Formed)
    (hl : Label.single (.act t c) = true) (hlost : Label.losesPublish (.act t c) = false)
    (hu : u ∈ out) (h : u.beforePayment = true) : t.beforePayment = true := by
  cases hr with
  | starts hstart =>
    obtain rfl := Multiset.mem_singleton.mp hu
    exact beforePayment_start hstart h
  | expires m hq =>
    obtain rfl := Multiset.mem_singleton.mp hu
    obtain ⟨body, xDeath⟩ := m
    cases body <;> exact h
  | sends event =>
    obtain rfl := Multiset.mem_singleton.mp hu
    cases event <;> exact h
  | handled event redelivered faults =>
    obtain rfl := Multiset.mem_singleton.mp hu
    cases event <;> exact h
  | hears event r => exact beforePayment_goOn hu h
  | loses event r =>
    obtain rfl := Multiset.mem_singleton.mp hu
    cases event <;> exact h
  | givesUp event rpc message =>
    rcases Multiset.mem_add.mp hu with hu | hu
    · rw [mem_abandoned hu] at h
      cases h
    · exact beforePayment_goOn hu h
  | writes event status rpc => exact beforePayment_goOn hu h
  | writeFails event status rpc message => exact beforePayment_goOn hu h
  | tells event rpc c hpc hpc' => exact beforePayment_goOn hu h
  | requests event request rpc =>
    cases event with
    | created event => rfl
    | _ event => exact hformed.elim
  | crashes event pc rpc => cases hl
  | movesToDlq event xDeath => exact absurd rfl hformed.2.1
  | givenUp event xDeath => exact absurd rfl hformed.2.2
  | announces event xDeath id status =>
    obtain rfl := Multiset.mem_singleton.mp hu
    cases h
  | requeues event xDeath pc hc =>
    cases pc with
    | publishSaved id status =>
      rcases hc with rfl | ⟨message, rfl, -⟩
      · cases hl
      · cases hlost
    | _ => rfl
  | saves event xDeath status => rfl
  | relays event => rfl
  | unpaid hnone => rfl
  | charged event xDeath status => rfl
  | chargeFails event xDeath message => rfl
  | retries event xDeath hq => rfl
  | _ => cases hu

namespace PaidOnce

theorem react (h : PaidOnce s) (ht : t ∈ s.flight) (hformed : t.Formed)
    (hl : Label.single (.act t c) = true) (hlost : Label.losesPublish (.act t c) = false)
    (hr : React (s.without t) t c base out) : PaidOnce (base.add out) := by
  have hc : c ≠ .crash := by
    rintro rfl
    cases hl
  -- Only the insert of a payment adds a row, and its token is the only one of the line.
  have hrows : ∀ row ∈ base.payments, row ∈ s.payments ∨
      t.lineOf = some row.orderId ∧ ∀ u ∈ out, u.beforePayment = false := by
    intro row hrow
    cases hr with
    | saves event xDeath status =>
      rcases List.mem_append.mp hrow with hold | hnew
      · exact .inl hold
      · obtain rfl := List.mem_singleton.mp hnew
        refine .inr ⟨rfl, fun u hu => ?_⟩
        obtain rfl := Multiset.mem_singleton.mp hu
        rfl
    | writes event status rpc =>
      rw [System.setStatus_payments] at hrow
      exact .inl hrow
    | _ => exact .inl hrow
  refine ⟨h.line.react ht hformed hc hr, fun u hu hbefore o hline row hrow => ?_, fun row hrow => ?_⟩
  · rcases hrows row hrow with hold | ⟨hrowline, hquiet⟩
    · rcases Multiset.mem_add.mp hu with hu | hu
      · exact h.unpaid t ht (hr.beforePayment hformed hl hlost hu hbefore) o
          (hr.lineOf hformed hc hu hline) row hold
      · rw [System.flight_of_react hr] at hu
        exact h.unpaid u (Multiset.mem_of_mem_erase hu) hbefore o hline row hold
    · rcases Multiset.mem_add.mp hu with hu | hu
      · rw [hquiet u hu] at hbefore
        cases hbefore
      · rw [System.flight_of_react hr] at hu
        rintro rfl
        exact h.line.alone ht hrowline u hu hline
  · refine hr.keeps (s := s.without t) ?_
    rcases hrows row hrow with hold | ⟨hrowline, -⟩
    · exact h.rows row hold
    · exact h.line.known t ht _ (order_of_lineOf hrowline)

theorem createOrder (h : PaidOnce s) {order : Orders.Order} {event : OrderCreatedEvent}
    (hevent : event.orderId = o) (hfresh : s.orders.lookup o = none) :
    PaidOnce ({ s with orders := s.orders.insert o order }.add {Token.outbox event}) := by
  refine ⟨h.line.createOrder hevent hfresh, fun u hu hbefore o' hline row hrow => ?_,
    fun row hrow => ?_⟩
  · rcases Multiset.mem_add.mp hu with hu | hu
    · obtain rfl := Multiset.mem_singleton.mp hu
      obtain rfl : event.orderId = o' := Option.some.inj hline
      intro heq
      rw [← hevent, ← heq] at hfresh
      exact h.rows row hrow hfresh
    · exact h.unpaid u hu hbefore o' hline row hrow
  · have hne : row.orderId ≠ o := by
      rintro rfl
      exact h.rows row hrow hfresh
    change (Finmap.insert _ _ s.orders).lookup _ ≠ none
    rw [Finmap.lookup_insert_of_ne _ hne]
    exact h.rows row hrow

theorem step (h : PaidOnce s) (hformed : ∀ t ∈ s.flight, t.Formed) (hl : l.single = true)
    (hlost : l.losesPublish = false) (hs : s.step l = some s') : PaidOnce s' := by
  obtain ⟨o, dto, result, order, event, rfl, hcreate, hfresh, rfl⟩ |
    ⟨t, c, base, out, rfl, ht, hr, rfl⟩ | ⟨t, rfl, ht, rfl⟩ := System.step_cases hs
  · obtain ⟨-, rfl, -⟩ := Orders.createOrder_eq hcreate
    exact h.createOrder rfl hfresh
  · exact h.react ht (hformed t ht) hl hlost hr
  · cases hl

theorem of_opens (h : Opens s) : PaidOnce s := by
  refine ⟨.of_opens h, fun t ht => ?_, fun row hrow => ?_⟩
  · rw [h.flight] at ht
    cases ht
  · rw [h.payments] at hrow
    cases hrow

end PaidOnce

/-! ## The token that goes on -/

/-- A token of the order's line that goes on with the order. -/
def Carries (o : OrderId) (t : Token) : Prop := t.attends o = true ∧ t.lineOf = some o

/-- The order is carried on, unless it is not reserved, or its confirm call has failed. -/
def Carried (s : System × List Label) : Prop :=
  ∀ o, s.1.statusOf o = some .inventoryReserved →
    (∃ t ∈ s.1.flight, Carries o t) ∨ ConfirmFailed s.2 o

theorem Carried.noneStranded {s : System × List Label} (h : Carried s) : NoneStranded s := by
  intro o hst
  obtain ⟨t, ht, hcarries⟩ | hfailed := h o hst
  · exact .inl ⟨t, ht, hcarries.1⟩
  · exact .inr hfailed

theorem carries_call (event : Event) (rpc : Rpc) :
    Carries event.orderId (.saga event .call rpc) :=
  ⟨decide_eq_true rfl, lineOf_call event rpc⟩

theorem carries_update (event : Event) (status : OrderStatus) (rpc : Rpc) :
    Carries event.orderId (.saga event (.update status) rpc) :=
  ⟨decide_eq_true rfl, lineOf_update event status rpc⟩

theorem carries_payment (event : PaymentRequestedEvent) (xDeath : List Death) (pc : Payments.Pc) :
    Carries event.orderId (.payment event xDeath pc) :=
  ⟨decide_eq_true rfl, rfl⟩

theorem carries_requested (request : PaymentRequestedEvent) (xDeath : List Death) {queue : Queue}
    (h : queue = .paymentRequested ∨ queue.deadLetter.isSome = true) :
    Carries request.orderId (.queued queue ⟨.paymentRequested request, xDeath⟩) :=
  ⟨by simpa [Token.attends] using h, rfl⟩

theorem carries_result (event : PaymentResultEvent) (status : PaymentStatus) (xDeath : List Death) :
    Carries event.orderId (.queued (resultQueue status) ⟨.paymentResult event, xDeath⟩) := by
  refine ⟨?_, rfl⟩
  cases status <;> exact decide_eq_true rfl

/-- No result is in a queue whose messages expire. -/
theorem not_carries_of_deadLetter {queue : Queue} {event : PaymentResultEvent} {xDeath : List Death}
    (h : queue.deadLetter.isSome = true) :
    ¬ Carries o (.queued queue ⟨.paymentResult event, xDeath⟩) := by
  rintro ⟨hattends, -⟩
  cases queue <;> simp [Token.attends, Queue.deadLetter] at h hattends

/-- What carries an order is about it. -/
theorem Carries.order (h : Carries o t) : t.order = some o := order_of_lineOf h.2

/-- A message that carries an order starts a handler that does. -/
theorem carries_start {queue : Queue} {m : Message} (h : start queue m = some u)
    (ht : Carries o (.queued queue m)) : Carries o u := by
  have hline : u.lineOf = some o := (order_start h).2.trans ht.2
  refine ⟨?_, hline⟩
  have horder := order_of_lineOf hline
  cases starts_of_start h <;> exact decide_eq_true (Option.some.inj horder)

/-- While the broker routes every count below the limit to a retry queue. -/
theorem deliver_toRetry_of_lt (request : PaymentRequestedEvent) {xDeath : List Death}
    (h : retryCount xDeath < MAX_RETRIES) : (Payments.toRetry request xDeath).deliver ≠ [] := by
  have hcases : retryCount xDeath = 0 ∨ retryCount xDeath = 1 ∨ retryCount xDeath = 2 := by
    change _ < 3 at h
    omega
  unfold Payments.toRetry
  rcases hcases with hcount | hcount | hcount <;> rw [hcount]
  · rw [Publication.deliver, show route .retry ("payment.requested.retry-" ++ toString (0 + 1)) =
      [.retry1] from route_binding .retry1]
    exact List.cons_ne_nil _ _
  · rw [Publication.deliver, show route .retry ("payment.requested.retry-" ++ toString (1 + 1)) =
      [.retry2] from route_binding .retry2]
    exact List.cons_ne_nil _ _
  · rw [Publication.deliver, show route .retry ("payment.requested.retry-" ++ toString (2 + 1)) =
      [.retry3] from route_binding .retry3]
    exact List.cons_ne_nil _ _

/-- A message that is retried is in a retry queue. -/
theorem retried_of_step {event : PaymentRequestedEvent} {xDeath : List Death}
    (hformed : Token.Formed (.payment event xDeath .publishRetry))
    (hs : s.step (.act (.payment event xDeath .publishRetry) .go) = some s') :
    ∃ t ∈ s'.flight, Carries event.orderId t := by
  rw [System.step, if_pos (System.mem_of_act hs)] at hs
  have hs : (s.without _).add (delivered ((Payments.toRetry event xDeath).deliver ++ []) + 0) = s' :=
    Option.some.inj hs
  obtain ⟨queue, hqueue, hone⟩ := (deliver_toRetry event xDeath).resolve_left
    (deliver_toRetry_of_lt event hformed.1)
  refine ⟨.queued queue ⟨.paymentRequested event, []⟩, ?_, carries_requested event [] (.inr hqueue)⟩
  rw [← hs, hone]
  exact Multiset.mem_cons_self _ _

/-- **What carries an order on goes on**: it puts another such token in flight, or the order
is no longer INVENTORY_RESERVED, or its confirm call fails. -/
theorem carried_of_act (hpaid : PaidOnce s) (hformed : t.Formed) (ht : t ∈ s.flight)
    (hr : React (s.without t) t c base out) (hmay : Label.publishesMayFail (.act t c) = true)
    (hlost : Label.losesPublish (.act t c) = false) (hs : s.step (.act t c) = some (base.add out))
    (hcarries : Carries o t) (hst : base.statusOf o = some .inventoryReserved) :
    (∃ u ∈ (base.add out).flight, Carries o u) ∨ Label.unconfirmed (.act t c) = some o := by
  have horder := hcarries.order
  -- In most acts the one token put in flight carries the order of the token that acts.
  have hone : ∀ {u : Token} {o' : OrderId}, out = {u} → t.order = some o' → Carries o' u →
      ∃ u ∈ (base.add out).flight, Carries o u := by
    intro u o' hout hown hu
    obtain rfl : o' = o := Option.some.inj (hown.symm.trans horder)
    exact ⟨u, Multiset.mem_add.mpr (.inl (hout ▸ Multiset.mem_singleton_self u)), hu⟩
  cases hr with
  | relays event => cases hcarries.1
  | starts hstart => exact .inl (hone rfl horder (carries_start hstart hcarries))
  | expires m hq =>
    obtain ⟨body, xDeath⟩ := m
    cases body with
    | paymentRequested event =>
      exact .inl (hone rfl rfl (carries_requested event _ (.inl rfl)))
    | paymentResult event =>
      exact absurd hcarries (not_carries_of_deadLetter hq)
    | _ => cases hcarries.1
  | sends event =>
    exact .inl (hone rfl rfl (carries_call event _))
  | handled event redelivered faults =>
    exact .inl (hone rfl rfl (carries_call event _))
  | hears event r =>
    obtain rfl : event.orderId = o := Option.some.inj horder
    obtain ⟨success, reason⟩ := r
    cases event with
    | created event =>
      cases success <;> exact .inl (hone rfl rfl (carries_update (.created event) _ _))
    | succeeded event =>
      -- A declined confirm is left for follow-up.
      cases success with
      | true => exact .inl (hone rfl rfl (carries_update (.succeeded event) _ _))
      | false => exact .inr rfl
    | failed event => exact .inl (hone rfl rfl (carries_update (.failed event) _ _))
  | loses event r =>
    exact .inl (hone rfl rfl (carries_call event _))
  | givesUp event rpc message =>
    obtain rfl : event.orderId = o := Option.some.inj horder
    have hgoes : ∀ status, Carries event.orderId (.saga event (.update status) .idle) := fun status =>
      carries_update event status .idle
    cases event with
    | succeeded event => exact .inr rfl
    | _ event =>
      refine .inl ⟨_, Multiset.mem_add.mpr (.inl (Multiset.mem_add.mpr (.inr ?_))), hgoes .cancelled⟩
      exact Multiset.mem_singleton_self _
  | writes event status rpc =>
    obtain rfl : event.orderId = o := Option.some.inj horder
    rw [System.statusOf, System.lookup_setStatus, if_pos rfl] at hst
    obtain ⟨order, horder, hstatus⟩ := Option.map_eq_some_iff.mp hst
    obtain ⟨old, -, rfl⟩ := Option.map_eq_some_iff.mp horder
    obtain rfl : status = .inventoryReserved := hstatus
    cases event with
    | created event => exact .inl (hone rfl rfl ⟨decide_eq_true rfl, rfl⟩)
    | _ event => cases hformed
  | writeFails event status rpc message => cases hmay
  | tells event rpc c hpc hpc' =>
    have hline := hcarries.2
    rw [lineOf_tells event rpc hpc] at hline
    cases hline
  | requests event request rpc =>
    cases event with
    | created event =>
      obtain rfl : request = paymentOf event := hformed
      exact .inl (hone rfl rfl (carries_requested (paymentOf event) [] (.inl rfl)))
    | _ event => exact hformed.elim
  | requestFails event request rpc message => cases hlost
  | crashes event pc rpc => cases hmay
  | serves req redelivered faults => cases hcarries.1
  | paid row hrow heq =>
    -- A request is handled before its order is paid.
    have hline := hcarries.2
    obtain rfl : _ = o := Option.some.inj horder
    exact absurd heq (hpaid.unpaid _ ht rfl _ hline row hrow)
  | unpaid hnone =>
    exact .inl (hone rfl rfl (carries_payment _ _ _))
  | movesToDlq event xDeath => exact absurd rfl hformed.2.1
  | givenUp event xDeath => exact absurd rfl hformed.2.2
  | charged event xDeath status =>
    exact .inl (hone rfl rfl (carries_payment _ _ _))
  | chargeFails event xDeath message =>
    exact .inl (hone rfl rfl (carries_payment _ _ _))
  | retries event xDeath hq =>
    exact .inl (hone rfl rfl (carries_requested event [] (.inr hq)))
  | retryDropped event xDeath =>
    obtain rfl : _ = o := Option.some.inj horder
    exact .inl (retried_of_step hformed hs)
  | saves event xDeath status =>
    exact .inl (hone rfl rfl (carries_payment _ _ _))
  | announces event xDeath id status =>
    exact .inl (hone rfl rfl (carries_result ⟨event.orderId, some id, status⟩ status []))
  | announceFails message hpc =>
    -- The result would be lost, which the condition excludes.
    rcases hpc with rfl | ⟨id, status, rfl⟩
    · cases hlost
    · cases hlost
  | requeues event xDeath pc hc =>
    exact .inl (hone rfl rfl (carries_requested event xDeath (.inl rfl)))
  | vanishes hgone =>
    cases hgone with
    | outbox event => cases hmay
    | thrown event xDeath message hpc => cases hlost

/-- What does not carry an order does not make it INVENTORY_RESERVED. -/
theorem statusOf_of_not_carries (hr : React (s.without t) t c base out) (hnot : ¬ Carries o t) :
    base.statusOf o = s.statusOf o := by
  rcases hr.orders with hsame | ⟨event, status, rpc, rfl, -, rfl⟩
  · exact congrArg (fun orders => (orders.lookup o).map Orders.Order.status) hsame
  · have hne : o ≠ event.orderId := by
      rintro rfl
      exact hnot (carries_update event status rpc)
    rw [System.statusOf, System.lookup_setStatus, if_neg hne]
    rfl

theorem ConfirmFailed.mono {labels : List Label} (h : ConfirmFailed labels o) :
    ConfirmFailed (labels ++ [l]) o := by
  obtain ⟨l', hl', hfailed⟩ := h
  exact ⟨l', List.mem_append_left _ hl', hfailed⟩

/-- **Every step carries the reserved orders on.** -/
theorem Carried.step {s s' : System × List Label} (h : Carried s) (hpaid : PaidOnce s.1)
    (hformed : ∀ t ∈ s.1.flight, t.Formed) (hmay : l.publishesMayFail = true)
    (hlost : l.losesPublish = false) (hs : traced System.step s l = some s') : Carried s' := by
  obtain ⟨hstep, hlabels⟩ := traced_cases hs
  intro o hst
  rw [hlabels]
  rcases System.step_cases hstep with ⟨o', dto, result, order, event, rfl, hcreate, hfresh, heq⟩ |
    ⟨t, c, base, out, rfl, ht, hr, heq⟩ | ⟨t, rfl, ht, heq⟩
  · -- A new order is PENDING.
    rw [heq] at hst ⊢
    have hne : o ≠ o' := by
      rintro rfl
      have hst : ((s.1.orders.insert o order).lookup o).map Orders.Order.status =
        some .inventoryReserved := hst
      rw [Finmap.lookup_insert, Option.map_some, (Orders.createOrder_eq hcreate).1] at hst
      cases hst
    have hold : s.1.statusOf o = some .inventoryReserved := by
      rw [← hst]
      exact congrArg (Option.map Orders.Order.status) (Finmap.lookup_insert_of_ne _ hne).symm
    obtain ⟨t, ht, hcarries⟩ | hfailed := h o hold
    · exact .inl ⟨t, Multiset.mem_add.mpr (.inr ht), hcarries⟩
    · exact .inr hfailed.mono
  · rw [heq] at hstep hst ⊢
    by_cases hcarries : Carries o t
    · obtain hnext | hfails := carried_of_act hpaid (hformed t ht) ht hr hmay hlost hstep hcarries hst
      · exact .inl hnext
      · exact .inr ⟨_, List.mem_append_right _ (List.mem_singleton_self _), hfails⟩
    · have hold := (statusOf_of_not_carries hr hcarries).symm.trans hst
      obtain ⟨u, hu, hcarries'⟩ | hfailed := h o hold
      · have hne : u ≠ t := by
          rintro rfl
          exact hcarries hcarries'
        refine .inl ⟨u, Multiset.mem_add.mpr (.inr ?_), hcarries'⟩
        rw [System.flight_of_react hr]
        exact (Multiset.mem_erase_of_ne hne).mpr hu
      · exact .inr hfailed.mono
  · cases hmay

/-- **No order is stranded**, in every run of messages delivered once in which neither the
publish of a payment request nor that of a payment's result fails and the message of a handler
that throws is requeued. -/
theorem noneStranded_of_reach {s : System × List Label}
    (h : Reach (traced System.step) (untraced Opens)
      (fun _ l => l.publishesMayFail = true ∧ l.losesPublish = false) s) : NoneStranded s := by
  have hinv : PaidOnce s.1 ∧ Carried s := by
    refine h.induct (I := fun s => PaidOnce s.1 ∧ Carried s) (fun s hopens => ⟨.of_opens hopens.1, ?_⟩)
      fun s l s' hreach hinv hl hs => ?_
    · intro o hst
      rw [System.statusOf, hopens.1.orders] at hst
      cases hst
    · have hany : Reach System.step Opens (fun _ _ => True) s.1 :=
        hreach.of_traced fun _ _ _ => trivial
      have hformed := (backed_of_reach hany).1
      exact ⟨hinv.1.step hformed (single_of_publishesMayFail hl.1) hl.2 (traced_cases hs).1,
        hinv.2.step hinv.1 hformed hl.1 hl.2 hs⟩
  exact hinv.2.noneStranded

/-! ## Runs -/

instance (labels : List Label) (o : OrderId) : Decidable (ConfirmFailed labels o) :=
  inferInstanceAs (Decidable (∃ l ∈ labels, l.unconfirmed = some o))

/-- The gateway fails and the retry cannot be published: the message is back in its queue. -/
def requeued : List Label :=
  [.act (.payment someRequest [] .find) .go,
    .act (.payment someRequest [] .fire) (.reject "gateway down"),
    .act (.payment someRequest [] .publishRetry) (.reject "no channel")]

/-- An order that waits for its payment, which is tried again. -/
theorem noneStranded_of_requeued :
    ∃ s, Reach (traced System.step) (untraced Opens)
        (fun _ l => l.publishesMayFail = true ∧ l.losesPublish = false) s ∧
      s.1.statusOf "o" = some .inventoryReserved ∧ NoneStranded s := by
  obtain ⟨s, hreach, hs⟩ := Reach.exists_of_follow (traced System.step) (untraced Opens)
    (fun _ l => l.publishesMayFail = true ∧ l.losesPublish = false) (s := (newShop, []))
    ⟨opens_newShop, rfl⟩
    ([someOrder] ++ relayed ++ called (.created someCreated) ++ requested ++ requeued)
    (fun s => s.1.statusOf "o" = some .inventoryReserved) (by decide +kernel)
  exact ⟨s, hreach, of_decide_eq_true hs, noneStranded_of_reach hreach⟩

/-- The publish of `payment.requested` fails: the order stays INVENTORY_RESERVED, and
nothing is left in flight. -/
theorem not_noneStranded_of_failed_publish :
    ¬ ∀ s, Reach (traced System.step) (untraced Opens) (fun _ l => l.publishesMayFail = true) s →
      NoneStranded s := by
  intro h
  obtain ⟨s, hreach, hs⟩ := Reach.exists_of_follow (traced System.step) (untraced Opens)
    (fun _ l => l.publishesMayFail = true) (s := (newShop, [])) ⟨opens_newShop, rfl⟩
    ([someOrder] ++ relayed ++ called (.created someCreated) ++
      [.act (.saga (.created someCreated) (.update .inventoryReserved) .idle) .go,
        .act (.saga (.created someCreated) (.publishPayment someRequest) .idle)
          (.reject "no channel")])
    (fun s => s.1.flight = 0 && s.1.statusOf "o" = some .inventoryReserved &&
      !decide (ConfirmFailed s.2 "o")) (by decide +kernel)
  simp only [Bool.and_eq_true, decide_eq_true_eq, Bool.not_eq_true', decide_eq_false_iff_not] at hs
  obtain ⟨⟨hquiet, hst⟩, hnot⟩ := hs
  obtain ⟨t, ht, -⟩ | hfailed := h s hreach "o" hst
  · rw [hquiet] at ht
    cases ht
  · exact hnot hfailed

end Saga

end Ecommerce
