import Ecommerce.Saga.System
/-!
# The steps of the composed saga

`System.step_cases` is the inversion of `System.step`: a step creates an
order, duplicates a message or is an act, and `React` lists what acts
there are, with the routing of every publication worked out. Every
invariant of the saga is one case analysis on it.
-/

namespace Ecommerce

namespace Saga

/-! ## Deliveries -/

theorem deliver_orderCreated (event : OrderCreatedEvent) :
    (orderCreated event).deliver = [(.orderCreated, ⟨.orderCreated event, []⟩)] :=
  congrArg (List.map _) (route_binding .orderCreated)

theorem deliver_paymentRequested (request : PaymentRequestedEvent) :
    (paymentRequested request).deliver = [(.paymentRequested, ⟨.paymentRequested request, []⟩)] :=
  congrArg (List.map _) (route_binding .paymentRequested)

theorem deliver_toDlq (request : PaymentRequestedEvent) :
    (Payments.toDlq request).deliver = [(.dlq, ⟨.paymentRequested request, []⟩)] :=
  congrArg (List.map _) (route_binding .dlq)

/-- The queue a result is for. -/
def resultQueue : PaymentStatus → Queue
  | .success => .paymentSucceeded
  | .failed => .paymentFailed

theorem deliver_result (o : OrderId) (status : PaymentStatus) (id : Option ℕ) :
    (Payments.result o status id).deliver =
      [(resultQueue status, ⟨.paymentResult ⟨o, id, status⟩, []⟩)] := by
  cases status with
  | success => exact congrArg (List.map _) (route_binding .paymentSucceeded)
  | failed => exact congrArg (List.map _) (route_binding .paymentFailed)

/-- The customer's notification is no business of the two services. -/
theorem deliver_statusChanged (o : OrderId) (c : CustomerId) (status : OrderStatus) :
    (statusChanged o c status).deliver = [] :=
  congrArg (List.map _) (show route .events "order.status-changed" = [] by decide)

/-- A retry reaches at most one of the retry queues. -/
theorem deliver_toRetry (request : PaymentRequestedEvent) (xDeath : List Death) :
    (Payments.toRetry request xDeath).deliver = [] ∨
      ∃ queue : Queue, queue.deadLetter.isSome ∧
        (Payments.toRetry request xDeath).deliver = [(queue, ⟨.paymentRequested request, []⟩)] := by
  generalize hp : Payments.toRetry request xDeath = p
  obtain ⟨exchange, key, body⟩ := p
  obtain ⟨rfl, -, rfl⟩ : .retry = exchange ∧ _ ∧ .paymentRequested request = body := by
    rw [Payments.toRetry, Publication.mk.injEq] at hp
    exact hp
  unfold Publication.deliver
  by_cases h1 : key = "payment.requested.retry-1"
  · exact .inr ⟨.retry1, rfl, h1 ▸ congrArg (List.map _) (route_binding .retry1)⟩
  by_cases h2 : key = "payment.requested.retry-2"
  · exact .inr ⟨.retry2, rfl, h2 ▸ congrArg (List.map _) (route_binding .retry2)⟩
  by_cases h3 : key = "payment.requested.retry-3"
  · exact .inr ⟨.retry3, rfl, h3 ▸ congrArg (List.map _) (route_binding .retry3)⟩
  · have hroute : route .retry key = [] := by
      refine List.filter_eq_nil_iff.mpr fun q _ hq => ?_
      cases q <;> simp [Queue.binding, eq_comm] at hq <;> contradiction
    exact .inl (congrArg (List.map _) hroute)

/-- A message whose TTL is over is back in the main queue. -/
theorem expire_of_deadLetter {queue : Queue} (h : queue.deadLetter.isSome) (m : Message) :
    expire queue m = [(.paymentRequested, ⟨m.body, recordDeath queue .expired m.xDeath⟩)] := by
  cases queue <;> first | rfl | cases h

/-! ## What a step can do -/

/-- A handler that is telling the customer. -/
def Pc.tells : Pc → Bool
  | .find _ => true
  | .publishStatus _ _ => true
  | _ => false

/-- An act after which nothing is left of a token. -/
inductive Vanishes : Token → Choice → Prop
  /-- The relay passes over an outbox row. -/
  | outbox (event : OrderCreatedEvent) : Vanishes (.outbox event) .lose
  /-- The payment handler throws, and its message is not requeued. -/
  | thrown (event : PaymentRequestedEvent) (xDeath : List Death) {pc : Payments.Pc}
      (message : String)
      (hpc : pc = .find ∨ pc = .publishDlq ∨ pc = .publishRetry ∨ ∃ status, pc = .save status) :
      Vanishes (.payment event xDeath pc) (.drop message)

/-- **What acting can do**: the act of each token, from the system it was taken out of to
the one its results are added to. -/
inductive React (s : System) : Token → Choice → System → Multiset Token → Prop
  /-- The relay publishes an outbox row. -/
  | relays (event : OrderCreatedEvent) : React s (.outbox event) .go
      s {.queued .orderCreated ⟨.orderCreated event, []⟩}
  /-- A message is delivered. -/
  | starts {queue : Queue} {m : Message} {t : Token} (h : start queue m = some t) :
      React s (.queued queue m) .go s {t}
  /-- A message is back from a retry queue. -/
  | expires {queue : Queue} (m : Message) (h : queue.deadLetter.isSome) :
      React s (.queued queue m) .expire
        s {.queued .paymentRequested ⟨m.body, recordDeath queue .expired m.xDeath⟩}
  /-- The RPC request is sent. -/
  | sends (event : Event) : React s (.saga event .call .idle) .go
      s {.saga event .call .requested}
  /-- Inventory-service handles it. -/
  | handled (event : Event) (redelivered : Bool) (faults : List Bool) :
      React s (.saga event .call .requested) (.serve redelivered faults)
        (s.serve faults (event.request.toRequest redelivered)) {.saga event .call
          (heard (Inventory.serve faults (event.request.toRequest redelivered) s.inventory).1)}
  /-- The reply arrives in time. -/
  | hears (event : Event) (r : Inventory.RpcResult) :
      React s (.saga event .call (.replied r)) .go s (goOn event (afterCall event (.ok r)))
  /-- The reply is lost. -/
  | loses (event : Event) (r : Inventory.RpcResult) :
      React s (.saga event .call (.replied r)) .lose s {.saga event .call .lost}
  /-- The breaker is open, or the RPC has timed out. -/
  | givesUp (event : Event) (rpc : Rpc) (message : String) :
      React s (.saga event .call rpc) (.reject message)
        s (abandoned event .call rpc + goOn event (afterCall event (.error message)))
  /-- The status is written. -/
  | writes (event : Event) (status : OrderStatus) (rpc : Rpc) :
      React s (.saga event (.update status) rpc) .go
        (s.setStatus event.orderId status) (goOn event (afterUpdate event status (.ok ())))
  /-- The status could not be written. -/
  | writeFails (event : Event) (status : OrderStatus) (rpc : Rpc) (message : String) :
      React s (.saga event (.update status) rpc) (.reject message)
        s (goOn event (afterStatus event status))
  /-- The customer is told, or not. -/
  | tells (event : Event) {pc pc' : Pc} (rpc : Rpc) (c : Choice) (hpc : pc.tells = true)
      (hpc' : pc'.tells = true ∨ pc' = .returned) :
      React s (.saga event pc rpc) c s (goOn event pc')
  /-- The payment is requested. -/
  | requests (event : Event) (request : PaymentRequestedEvent) (rpc : Rpc) :
      React s (.saga event (.publishPayment request) rpc) .go
        s {.queued .paymentRequested ⟨.paymentRequested request, []⟩}
  /-- It could not be requested. -/
  | requestFails (event : Event) (request : PaymentRequestedEvent) (rpc : Rpc) (message : String) :
      React s (.saga event (.publishPayment request) rpc) (.reject message) s 0
  /-- A handler of the orchestrator crashes. -/
  | crashes (event : Event) (pc : Pc) (rpc : Rpc) : React s (.saga event pc rpc) .crash
      s (abandoned event pc rpc + {.queued event.message.1 event.message.2})
  /-- Inventory-service handles a request nobody waits for. -/
  | serves (req : InventoryRpcRequest) (redelivered : Bool) (faults : List Bool) :
      React s (.request req) (.serve redelivered faults)
        (s.serve faults (req.toRequest redelivered)) 0
  /-- The order has a payment. -/
  | paid {event : PaymentRequestedEvent} {xDeath : List Death} (row : Payments.Payment)
      (hrow : row ∈ s.payments) (horder : row.orderId = event.orderId) :
      React s (.payment event xDeath .find) .go s 0
  /-- The order has no payment yet. -/
  | unpaid {event : PaymentRequestedEvent} {xDeath : List Death}
      (hnone : ∀ row ∈ s.payments, row.orderId ≠ event.orderId) :
      React s (.payment event xDeath .find) .go
        s {.payment event xDeath (Payments.afterFind xDeath none)}
  /-- The message is moved to the DLQ. -/
  | movesToDlq (event : PaymentRequestedEvent) (xDeath : List Death) :
      React s (.payment event xDeath .publishDlq) .go
        s {.queued .dlq ⟨.paymentRequested event, []⟩, .payment event xDeath .publishGivenUp}
  /-- The failure of a message in the DLQ is published. -/
  | givenUp (event : PaymentRequestedEvent) (xDeath : List Death) :
      React s (.payment event xDeath .publishGivenUp) .go
        s {.queued .paymentFailed ⟨.paymentResult ⟨event.orderId, none, .failed⟩, []⟩}
  /-- The gateway answers. -/
  | charged (event : PaymentRequestedEvent) (xDeath : List Death) (status : PaymentStatus) :
      React s (.payment event xDeath .fire) (.charge status)
        s {.payment event xDeath (.save status)}
  /-- The gateway fails. -/
  | chargeFails (event : PaymentRequestedEvent) (xDeath : List Death) (message : String) :
      React s (.payment event xDeath .fire) (.reject message)
        s {.payment event xDeath .publishRetry}
  /-- The message is handed to a retry queue. -/
  | retries {queue : Queue} (event : PaymentRequestedEvent) (xDeath : List Death)
      (h : queue.deadLetter.isSome) : React s (.payment event xDeath .publishRetry) .go
        s {.queued queue ⟨.paymentRequested event, []⟩}
  /-- Or to none, there being no queue for its count. -/
  | retryDropped (event : PaymentRequestedEvent) (xDeath : List Death) :
      React s (.payment event xDeath .publishRetry) .go s 0
  /-- The payment is inserted. -/
  | saves (event : PaymentRequestedEvent) (xDeath : List Death) (status : PaymentStatus) :
      React s (.payment event xDeath (.save status)) .go
        (s.insertPayment ⟨s.payments.length, event.orderId, event.customerId, event.total, status⟩)
        {.payment event xDeath (.publishSaved s.payments.length status)}
  /-- Its result is published. -/
  | announces (event : PaymentRequestedEvent) (xDeath : List Death) (id : ℕ)
      (status : PaymentStatus) : React s (.payment event xDeath (.publishSaved id status)) .go
        s {.queued (resultQueue status) ⟨.paymentResult ⟨event.orderId, some id, status⟩, []⟩}
  /-- The result is lost. -/
  | announceFails {event : PaymentRequestedEvent} {xDeath : List Death} {pc : Payments.Pc}
      (message : String) (hpc : pc = .publishGivenUp ∨ ∃ id status, pc = .publishSaved id status) :
      React s (.payment event xDeath pc) (.reject message) s 0
  /-- The payment handler crashes or throws. -/
  | requeues {c : Choice} (event : PaymentRequestedEvent) (xDeath : List Death) (pc : Payments.Pc)
      (hc : c = .crash ∨ ∃ message, c = .reject message ∧ pc ≠ .fire) :
      React s (.payment event xDeath pc) c
        s {.queued .paymentRequested ⟨.paymentRequested event, xDeath⟩}
  /-- An outbox row is passed over, or a message that is not requeued is gone. -/
  | vanishes {t : Token} {c : Choice} (h : Vanishes t c) : React s t c s 0

/-- **The handlers messages start.** -/
inductive Starts : Queue → Message → Token → Prop
  | created (event : OrderCreatedEvent) (xDeath : List Death) :
      Starts .orderCreated ⟨.orderCreated event, xDeath⟩ (.saga (.created event) .call .idle)
  | succeeded (event : PaymentResultEvent) (xDeath : List Death) :
      Starts .paymentSucceeded ⟨.paymentResult event, xDeath⟩ (.saga (.succeeded event) .call .idle)
  | failed (event : PaymentResultEvent) (xDeath : List Death) :
      Starts .paymentFailed ⟨.paymentResult event, xDeath⟩ (.saga (.failed event) .call .idle)
  | requested (event : PaymentRequestedEvent) (xDeath : List Death) :
      Starts .paymentRequested ⟨.paymentRequested event, xDeath⟩ (.payment event xDeath .find)

theorem starts_of_start {queue : Queue} {m : Message} {t : Token} (h : start queue m = some t) :
    Starts queue m t := by
  obtain ⟨body, xDeath⟩ := m
  unfold start at h
  split at h
  · obtain rfl : body = _ := ‹_›
    cases h
    exact .created _ _
  · obtain rfl : body = _ := ‹_›
    cases h
    exact .succeeded _ _
  · obtain rfl : body = _ := ‹_›
    cases h
    exact .failed _ _
  · obtain rfl : body = _ := ‹_›
    cases h
    exact .requested _ _
  · cases h

/-- A copy is of a message, or of the request of a call that is under way. -/
theorem mem_copy {t u : Token} (h : u ∈ t.copy) :
    u = t ∨ ∃ event, t = .saga event .call .requested ∧ u = .request event.request := by
  unfold Token.copy at h
  split at h
  · exact .inl (Multiset.mem_singleton.mp h)
  · exact .inl (Multiset.mem_singleton.mp h)
  · exact .inr ⟨_, rfl, Multiset.mem_singleton.mp h⟩
  · exact .inl (Multiset.mem_singleton.mp h)
  · cases h

/-- A handler that goes on is the one there was. -/
theorem mem_goOn {event : Event} {pc : Pc} {u : Token} (h : u ∈ goOn event pc) :
    u = .saga event pc .idle := by
  cases pc with
  | returned => cases h
  | _ => exact Multiset.mem_singleton.mp h

/-- Only a call that is under way leaves its request behind. -/
theorem mem_abandoned {event : Event} {pc : Pc} {rpc : Rpc} {u : Token}
    (h : u ∈ abandoned event pc rpc) : u = .request event.request := by
  unfold abandoned at h
  split at h
  · exact Multiset.mem_singleton.mp h
  · cases h

/-- Only a reply is heard. -/
theorem heard_eq_replied {reply : Inventory.Reply} {r : Inventory.RpcResult}
    (h : heard (.ok reply) = .replied r) : reply = .result r := by
  cases reply with
  | result r' => exact congrArg _ (Rpc.replied.inj h)
  | nack requeue => cases h

namespace System

variable {s s' : System} {event : Event} {request : PaymentRequestedEvent}
variable {xDeath : List Death} {c : Choice} {t : Token} {message : String}

/-! ### The stores -/

theorem setStatus_of_lookup {o : OrderId} {order : Orders.Order}
    (h : s.orders.lookup o = some order) (status : OrderStatus) : s.setStatus o status =
      { s with orders := s.orders.insert o { order with status := status } } := by
  simp only [setStatus, h]

theorem setStatus_of_none {o : OrderId} (h : s.orders.lookup o = none) (status : OrderStatus) :
    s.setStatus o status = s := by
  simp only [setStatus, h]

theorem lookup_setStatus (o o' : OrderId) (status : OrderStatus) :
    (s.setStatus o status).orders.lookup o' =
      if o' = o then (s.orders.lookup o).map fun order => { order with status := status }
      else s.orders.lookup o' := by
  cases hrow : s.orders.lookup o with
  | none =>
    rw [setStatus_of_none hrow]
    split
    · rw [‹o' = o›, hrow, Option.map_none]
    · rfl
  | some order =>
    rw [setStatus_of_lookup hrow]
    split
    · rw [‹o' = o›, Finmap.lookup_insert, Option.map_some]
    · rw [Finmap.lookup_insert_of_ne _ ‹_›]

@[simp] theorem setStatus_inventory (o : OrderId) (status : OrderStatus) :
    (s.setStatus o status).inventory = s.inventory := by
  unfold setStatus
  split <;> rfl

@[simp] theorem setStatus_payments (o : OrderId) (status : OrderStatus) :
    (s.setStatus o status).payments = s.payments := by
  unfold setStatus
  split <;> rfl

@[simp] theorem setStatus_flight (o : OrderId) (status : OrderStatus) :
    (s.setStatus o status).flight = s.flight := by
  unfold setStatus
  split <;> rfl

/-! ### The inversion -/

@[simp] theorem add_nothing : s.add 0 = s := by
  unfold add
  rw [zero_add]

theorem add_more (ts us : Multiset Token) : s.add (ts + us) = (s.add us).add ts := by
  unfold add
  rw [add_assoc]

theorem react_of_resolve {pc : Pc} {rpc : Rpc} (h : s.resolve event pc rpc = some s') :
    ∃ base out, React s (.saga event pc rpc) .go base out ∧ s' = base.add out := by
  unfold resolve at h
  cases pc with
  | call =>
    cases rpc with
    | replied r => cases h; exact ⟨_, _, .hears event r, rfl⟩
    | _ => cases h
  | update status => cases h; exact ⟨_, _, .writes event status rpc, rfl⟩
  | find status =>
    cases h
    refine ⟨_, _, .tells event rpc .go rfl ?_, rfl⟩
    cases s.orders.lookup event.orderId with
    | none => exact .inr rfl
    | some order => exact .inl rfl
  | publishStatus status customerId =>
    cases h
    refine ⟨_, _, .tells event rpc .go rfl (.inr rfl), ?_⟩
    change (s.add (delivered _)).add 0 = s.add 0
    rw [deliver_statusChanged]
    exact add_nothing
  | publishPayment request =>
    cases h
    refine ⟨_, _, .requests event request rpc, ?_⟩
    change (s.add (delivered _)).add 0 = _
    rw [deliver_paymentRequested, add_nothing]
    rfl
  | returned => cases h

theorem react_of_refuse {pc : Pc} {rpc : Rpc} (h : s.refuse event pc rpc message = some s') :
    ∃ base out, React s (.saga event pc rpc) (.reject message) base out ∧ s' = base.add out := by
  unfold refuse at h
  cases pc with
  | call => cases h; exact ⟨_, _, .givesUp event rpc message, rfl⟩
  | update status =>
    cases h
    exact ⟨_, _, .writeFails event status rpc message, congrArg s.add (zero_add _)⟩
  | find status =>
    cases h
    exact ⟨_, _, .tells event rpc _ rfl (.inr rfl), congrArg s.add (zero_add _)⟩
  | publishStatus status customerId =>
    cases h
    exact ⟨_, _, .tells event rpc _ rfl (.inr rfl), congrArg s.add (zero_add _)⟩
  | publishPayment request =>
    cases h
    exact ⟨_, _, .requestFails event request rpc message, congrArg s.add (zero_add _)⟩
  | returned => cases h

theorem react_of_actSaga {pc : Pc} {rpc : Rpc} (h : s.actSaga event pc rpc c = some s') :
    ∃ base out, React s (.saga event pc rpc) c base out ∧ s' = base.add out := by
  cases c with
  | go =>
    rw [actSaga] at h
    split at h
    · obtain ⟨rfl, rfl⟩ := ‹pc = .call ∧ rpc = .idle›
      cases h
      exact ⟨_, _, .sends event, rfl⟩
    · exact react_of_resolve h
  | serve redelivered faults =>
    rw [actSaga] at h
    split at h
    · obtain ⟨rfl, rfl⟩ := ‹pc = .call ∧ rpc = .requested›
      cases h
      exact ⟨_, _, .handled event redelivered faults, rfl⟩
    · cases h
  | lose =>
    cases pc with
    | call =>
      cases rpc with
      | replied r => cases h; exact ⟨_, _, .loses event r, rfl⟩
      | _ => cases h
    | _ => cases h
  | reject message => exact react_of_refuse h
  | crash => cases h; exact ⟨_, _, .crashes event pc rpc, rfl⟩
  | drop message => cases h
  | charge status => cases h
  | expire => cases h

theorem react_of_resolvePayment {pc : Payments.Pc}
    (h : s.resolvePayment request xDeath pc none = some s') :
    ∃ base out, React s (.payment request xDeath pc) .go base out ∧ s' = base.add out := by
  unfold resolvePayment at h
  cases pc with
  | find =>
    have hs : s.add (0 + payOn request xDeath (Payments.afterFind xDeath
        (s.payments.find? fun row => row.orderId = request.orderId))) = s' := Option.some.inj h
    subst hs
    rw [zero_add]
    cases hrow : s.payments.find? fun row => row.orderId = request.orderId with
    | none =>
      have hnone : ∀ row ∈ s.payments, row.orderId ≠ request.orderId := by
        simpa using List.find?_eq_none.mp hrow
      refine ⟨_, _, .unpaid hnone, congrArg s.add ?_⟩
      rcases Payments.afterFind_none xDeath with hpc | hpc <;> rw [hpc] <;> rfl
    | some row =>
      exact ⟨_, _, .paid row (List.mem_of_find?_eq_some hrow)
        (by simpa using List.find?_some hrow), rfl⟩
  | publishDlq =>
    have hs : s.add (delivered ((Payments.toDlq request).deliver ++ []) +
        {.payment request xDeath .publishGivenUp}) = s' := Option.some.inj h
    subst hs
    rw [deliver_toDlq]
    exact ⟨_, _, .movesToDlq request xDeath, rfl⟩
  | publishGivenUp =>
    have hs : s.add (delivered ((Payments.result request.orderId .failed none).deliver ++ []) + 0) =
        s' := Option.some.inj h
    subst hs
    rw [deliver_result]
    exact ⟨_, _, .givenUp request xDeath, rfl⟩
  | fire => cases h
  | publishRetry =>
    have hs : s.add (delivered ((Payments.toRetry request xDeath).deliver ++ []) + 0) = s' :=
      Option.some.inj h
    subst hs
    rcases deliver_toRetry request xDeath with hnone | ⟨queue, hqueue, hone⟩
    · rw [hnone]
      exact ⟨_, _, .retryDropped request xDeath, rfl⟩
    · rw [hone]
      exact ⟨_, _, .retries request xDeath hqueue, rfl⟩
  | save status => cases h; exact ⟨_, _, .saves request xDeath status, rfl⟩
  | publishSaved id status =>
    have hs : s.add (delivered ((Payments.result request.orderId status (some id)).deliver ++ []) +
        0) = s' := Option.some.inj h
    subst hs
    rw [deliver_result]
    exact ⟨_, _, .announces request xDeath id status, rfl⟩
  | returned => cases h
  | thrown message => cases h

theorem react_of_actPayment {pc : Payments.Pc} (h : s.actPayment request xDeath pc c = some s') :
    ∃ base out, React s (.payment request xDeath pc) c base out ∧ s' = base.add out := by
  cases c with
  | go => exact react_of_resolvePayment h
  | charge status =>
    rw [actPayment] at h
    split at h
    · obtain rfl := ‹pc = .fire›
      cases h
      exact ⟨_, _, .charged request xDeath status, rfl⟩
    · cases h
  | reject message =>
    cases pc with
    | fire => cases h; exact ⟨_, _, .chargeFails request xDeath message, rfl⟩
    | publishGivenUp => cases h; exact ⟨_, _, .announceFails message (.inl rfl), rfl⟩
    | publishSaved id status =>
      cases h
      exact ⟨_, _, .announceFails message (.inr ⟨id, status, rfl⟩), rfl⟩
    | returned => cases h
    | thrown message => cases h
    | _ => cases h; exact ⟨_, _, .requeues request xDeath _ (.inr ⟨message, rfl, by simp⟩), rfl⟩
  | crash => cases h; exact ⟨_, _, .requeues request xDeath pc (.inl rfl), rfl⟩
  | drop message =>
    have hthrows : (pc = .find ∨ pc = .publishDlq ∨ pc = .publishRetry ∨
        ∃ status, pc = .save status) → s = s' →
        ∃ base out, React s (.payment request xDeath pc) (.drop message) base out ∧
          s' = base.add out :=
      fun hpc hsame => ⟨_, _, .vanishes (.thrown request xDeath message hpc), by
        rw [add_nothing, hsame]⟩
    cases pc with
    | find => exact hthrows (.inl rfl) (Option.some.inj h)
    | publishDlq => exact hthrows (.inr (.inl rfl)) (Option.some.inj h)
    | publishRetry => exact hthrows (.inr (.inr (.inl rfl))) (Option.some.inj h)
    | save status => exact hthrows (.inr (.inr (.inr ⟨status, rfl⟩))) (Option.some.inj h)
    | _ => cases h
  | serve redelivered faults => cases h
  | lose => cases h
  | expire => cases h

theorem react_of_act (h : s.act t c = some s') :
    ∃ base out, React s t c base out ∧ s' = base.add out := by
  cases t with
  | outbox event =>
    cases c with
    | go =>
      cases h
      rw [deliver_orderCreated]
      exact ⟨_, _, .relays event, rfl⟩
    | lose =>
      cases h
      exact ⟨_, _, .vanishes (.outbox event), add_nothing.symm⟩
    | _ => cases h
  | queued queue m =>
    cases c with
    | go =>
      obtain ⟨t, ht, rfl⟩ := Option.map_eq_some_iff.mp h
      exact ⟨_, _, .starts ht, rfl⟩
    | expire =>
      rw [act] at h
      split at h
      · cases h
        rw [expire_of_deadLetter ‹_›]
        exact ⟨_, _, .expires m ‹_›, rfl⟩
      · cases h
    | _ => cases h
  | saga event pc rpc => exact react_of_actSaga h
  | request req =>
    cases c with
    | serve redelivered faults =>
      cases h
      exact ⟨_, _, .serves req redelivered faults, add_nothing.symm⟩
    | _ => cases h
  | payment request xDeath pc => exact react_of_actPayment h

/-- **What a step can do.** -/
theorem step_cases {l : Label} (h : s.step l = some s') :
    (∃ o dto result order event, l = .createOrder o dto result ∧
      Orders.createOrder o dto result = .ok (order, event) ∧ s.orders.lookup o = none ∧
      s' = { s with orders := s.orders.insert o order }.add {Token.outbox event}) ∨
    (∃ t c base out, l = .act t c ∧ t ∈ s.flight ∧ React (s.without t) t c base out ∧
      s' = base.add out) ∨
    (∃ t, l = .duplicate t ∧ t ∈ s.flight ∧ s' = s.add t.copy) := by
  cases l with
  | createOrder o dto result =>
    rw [step] at h
    split at h
    · exact .inl ⟨o, dto, result, _, _, rfl, ‹_›, ‹_›, (Option.some.inj h).symm⟩
    · cases h
  | act t c =>
    rw [step] at h
    split at h
    · obtain ⟨base, out, hreact, hs⟩ := react_of_act h
      exact .inr (.inl ⟨t, c, base, out, rfl, ‹_›, hreact, hs⟩)
    · cases h
  | duplicate t =>
    rw [step] at h
    split at h
    · exact .inr (.inr ⟨t, rfl, ‹_›, (Option.some.inj h).symm⟩)
    · cases h

theorem mem_of_act (h : s.step (.act t c) = some s') : t ∈ s.flight := by
  rw [step] at h
  split at h
  · assumption
  · cases h

/-- An act adds to what else is in flight. -/
theorem flight_of_react {base : System} {out : Multiset Token} (h : React s t c base out) :
    base.flight = s.flight := by
  cases h <;> simp [serve, insertPayment]

end System

/-- Only a status update changes an order. -/
theorem React.orders {s base : System} {t : Token} {c : Choice} {out : Multiset Token}
    (hr : React s t c base out) : base.orders = s.orders ∨
      ∃ event status rpc, t = .saga event (.update status) rpc ∧ c = .go ∧
        base = s.setStatus event.orderId status := by
  cases hr with
  | writes event status rpc => exact .inr ⟨event, status, rpc, rfl, rfl, rfl⟩
  | _ => exact .inl rfl

end Saga

end Ecommerce
