import Ecommerce.Common.Breaker
import Ecommerce.Common.Machine
import Ecommerce.Saga.Model
/-!
# The orchestrator by itself

order-service's orchestrator between the messages it is sent and the
answers it gets. The environment delivers messages, of any kind and in any
order, answers the RPCs, and decides what becomes of every other call.
All RPCs go through the one breaker of the class. A message's handler runs
up to its RPC when it is delivered; an input nobody waits for is ignored.
-/

namespace Ecommerce

namespace Saga

/-- A delivery: the queue and the tag of the message. -/
structure Delivery where
  queue : Queue
  tag : ℕ
deriving DecidableEq

/-- A handler under way. One that has crashed goes no further. -/
structure Handler where
  event : Event
  pc : Pc
deriving DecidableEq

/-- A request that was sent to inventory-service. -/
structure Sent where
  time : ℕ
  delivery : Delivery
  req : InventoryRpcRequest
deriving DecidableEq

/-- The orchestrator, the orders it keeps, and what it has sent and published. -/
structure Orchestrator (β : Type) where
  breaker : β
  orders : Table OrderId Orders.Order
  handlers : Table Delivery Handler
  sent : List Sent
  published : List Publication

/-- The options of the constructor; its window has the ten buckets of the default. That a call
times out is up to the environment. -/
def inventoryOptions : Breaker.Options where
  errorThresholdPercentage := 50
  resetTimeout := 10000
  rollingCountTimeout := 10000

/-- The breaker of the class. -/
def inventoryBreaker : Breaker Breaker.Window := .rolling inventoryOptions

/-- What comes from outside. -/
inductive Input
  /-- A message is delivered. -/
  | deliver (tag : ℕ) (event : Event)
  /-- The RPC of a handler is answered, or has failed. -/
  | answer (d : Delivery) (result : Except String Inventory.RpcResult)
  /-- What else it awaits resolves. -/
  | exec (d : Delivery)
  /-- Or rejects. -/
  | reject (d : Delivery) (message : String)
  /-- The handler ends where it stands, and its message is not acked. -/
  | crash (d : Delivery)

namespace Event

/-- The queue of an event's messages. -/
def queue : Event → Queue
  | created _ => .orderCreated
  | succeeded _ => .paymentSucceeded
  | failed _ => .paymentFailed

end Event

namespace Orchestrator

variable {β : Type}

/-- An instance that has just started, over the orders there are. -/
def start (B : Breaker β) (orders : Table OrderId Orders.Order) : Orchestrator β :=
  ⟨B.closed, orders, ∅, [], []⟩

/-- A handler goes on to `pc`. -/
def put (s : Orchestrator β) (d : Delivery) (event : Event) (pc : Pc) : Orchestrator β :=
  { s with handlers := s.handlers.insert d ⟨event, pc⟩ }

/-- `UPDATE orders SET status = .. WHERE id = ..`. -/
def setStatus (s : Orchestrator β) (o : OrderId) (status : OrderStatus) : Orchestrator β :=
  match s.orders.lookup o with
  | some order => { s with orders := s.orders.insert o { order with status := status } }
  | none => s

/-- The breaker is fired with the RPC of a new handler. -/
def fire (B : Breaker β) (s : Orchestrator β) (t : ℕ) (d : Delivery) (event : Event) :
    Orchestrator β :=
  let (called, breaker) := B.fire s.breaker t
  if called then
    put { s with breaker := breaker, sent := s.sent ++ [⟨t, d, event.request⟩] } d event .call
  else put { s with breaker := breaker } d event (afterCall event (.error "Breaker is open"))

/-- What an awaited call resolves to. An RPC is answered from outside. -/
def perform (s : Orchestrator β) : (op : Op) → Option (Except String (Ans op) × Orchestrator β)
  | .callInventory _ => none
  | .updateStatus o status => some (.ok (), s.setStatus o status)
  | .findOrder o => some (.ok (s.orders.lookup o), s)
  | .publish p => some (.ok (), { s with published := s.published ++ [p] })

/-- What a handler awaits resolves. -/
def resolve (s : Orchestrator β) (d : Delivery) (h : Handler) : Orchestrator β :=
  match h.pc.point h.event with
  | .stop _ => s
  | .wait op next =>
    match s.perform op with
    | some answer => answer.2.put d h.event (next answer.1)
    | none => s

/-- What it awaits rejects. -/
def refuse (s : Orchestrator β) (d : Delivery) (h : Handler) (message : String) : Orchestrator β :=
  match h.pc.point h.event with
  | .stop _ => s
  | .wait _ next => if h.pc = .call then s else s.put d h.event (next (.error message))

/-- What the orchestrator does with an input at a time. -/
def step (B : Breaker β) (s : Orchestrator β) (l : ℕ × Input) : Orchestrator β :=
  match l.2 with
  | .deliver tag event =>
    match s.handlers.lookup ⟨event.queue, tag⟩ with
    | some _ => s
    | none => s.fire B l.1 ⟨event.queue, tag⟩ event
  | .answer d result =>
    match s.handlers.lookup d with
    | some ⟨event, .call⟩ =>
      put { s with breaker := B.note s.breaker l.1 result.isOk } d event (afterCall event result)
    | _ => s
  | .exec d =>
    match s.handlers.lookup d with
    | some h => s.resolve d h
    | none => s
  | .reject d message =>
    match s.handlers.lookup d with
    | some h => s.refuse d h message
    | none => s
  | .crash d =>
    match s.handlers.lookup d with
    | some h => s.put d h.event .returned
    | none => s

/-- A run: the inputs with their times. -/
def run (B : Breaker β) (orders : Table OrderId Orders.Order) (inputs : List (ℕ × Input)) :
    Orchestrator β := inputs.foldl (step B) (start B orders)

/-! ## What an input can do -/

/-- **What the orchestrator does with an input.** -/
inductive Moves (B : Breaker β) (s : Orchestrator β) (t : ℕ) : Input → Orchestrator β → Prop
  /-- Nobody waits for it. -/
  | ignores {l : Input} (h : ∀ tag event, l = .deliver tag event →
      (s.handlers.lookup ⟨event.queue, tag⟩).isSome = true) : Moves B s t l s
  /-- A handler is started, and sends its request. -/
  | calls {tag : ℕ} {event : Event} (hnew : s.handlers.lookup ⟨event.queue, tag⟩ = none)
      (hfire : (B.fire s.breaker t).1 = true) : Moves B s t (.deliver tag event)
        (put { s with
          breaker := (B.fire s.breaker t).2
          sent := s.sent ++ [⟨t, ⟨event.queue, tag⟩, event.request⟩] } ⟨event.queue, tag⟩ event .call)
  /-- A handler is started, and the breaker rejects. -/
  | rejected {tag : ℕ} {event : Event} (hnew : s.handlers.lookup ⟨event.queue, tag⟩ = none)
      (hfire : (B.fire s.breaker t).1 = false) : Moves B s t (.deliver tag event)
        (put { s with breaker := (B.fire s.breaker t).2 } ⟨event.queue, tag⟩ event
          (afterCall event (.error "Breaker is open")))
  /-- The RPC ends. -/
  | answers {d : Delivery} {event : Event} (result : Except String Inventory.RpcResult)
      (h : s.handlers.lookup d = some ⟨event, .call⟩) : Moves B s t (.answer d result)
        (put { s with breaker := B.note s.breaker t result.isOk } d event (afterCall event result))
  /-- The status is written. -/
  | writes {d : Delivery} {event : Event} {status : OrderStatus}
      (h : s.handlers.lookup d = some ⟨event, .update status⟩) : Moves B s t (.exec d)
        ((s.setStatus event.orderId status).put d event (afterUpdate event status (.ok ())))
  /-- The order is looked up. -/
  | finds {d : Delivery} {event : Event} {status : OrderStatus}
      (h : s.handlers.lookup d = some ⟨event, .find status⟩) : Moves B s t (.exec d)
        (s.put d event (afterFind status (.ok (s.orders.lookup event.orderId))))
  /-- The customer is told. -/
  | tells {d : Delivery} {event : Event} {status : OrderStatus} {customerId : CustomerId}
      (h : s.handlers.lookup d = some ⟨event, .publishStatus status customerId⟩) :
      Moves B s t (.exec d)
        (put { s with published := s.published ++ [statusChanged event.orderId customerId status] }
          d event .returned)
  /-- The payment is requested. -/
  | asks {d : Delivery} {event : Event} {request : PaymentRequestedEvent}
      (h : s.handlers.lookup d = some ⟨event, .publishPayment request⟩) : Moves B s t (.exec d)
        (put { s with published := s.published ++ [paymentRequested request] } d event .returned)
  /-- The status could not be written. -/
  | writeFails {d : Delivery} {event : Event} {status : OrderStatus} (message : String)
      (h : s.handlers.lookup d = some ⟨event, .update status⟩) : Moves B s t (.reject d message)
        (s.put d event (afterStatus event status))
  /-- The look-up or a publish fails. -/
  | fails {d : Delivery} {event : Event} {pc : Pc} (message : String)
      (h : s.handlers.lookup d = some ⟨event, pc⟩) :
      Moves B s t (.reject d message) (s.put d event .returned)
  /-- The handler crashes. -/
  | crashes {d : Delivery} {event : Event} {pc : Pc}
      (h : s.handlers.lookup d = some ⟨event, pc⟩) :
      Moves B s t (.crash d) (s.put d event .returned)

variable {B : Breaker β} {s : Orchestrator β} {d : Delivery}

theorem moves_resolve {t : ℕ} {h : Handler} (hd : s.handlers.lookup d = some h) :
    Moves B s t (.exec d) (s.resolve d h) := by
  obtain ⟨event, pc⟩ := h
  cases pc with
  | call => exact .ignores (by simp)
  | update status => exact .writes hd
  | find status => exact .finds hd
  | publishStatus status customerId => exact .tells hd
  | publishPayment request => exact .asks hd
  | returned => exact .ignores (by simp)

theorem moves_refuse {t : ℕ} {h : Handler} {message : String} (hd : s.handlers.lookup d = some h) :
    Moves B s t (.reject d message) (s.refuse d h message) := by
  obtain ⟨event, pc⟩ := h
  cases pc with
  | call => exact .ignores (by simp)
  | update status => exact .writeFails message hd
  | find status => exact .fails message hd
  | publishStatus status customerId => exact .fails message hd
  | publishPayment request => exact .fails message hd
  | returned => exact .ignores (by simp)

/-- **What an input can do.** -/
theorem moves_step (B : Breaker β) (s : Orchestrator β) (l : ℕ × Input) :
    Moves B s l.1 l.2 (step B s l) := by
  obtain ⟨t, l⟩ := l
  cases l with
  | deliver tag event =>
    cases hnew : s.handlers.lookup ⟨event.queue, tag⟩ with
    | some h =>
      rw [show step B s (t, .deliver tag event) = s by simp only [step, hnew]]
      refine .ignores fun tag' event' heq => ?_
      obtain ⟨rfl, rfl⟩ := Input.deliver.inj heq
      rw [hnew]
      rfl
    | none =>
      rw [show step B s (t, .deliver tag event) = s.fire B t ⟨event.queue, tag⟩ event by
        simp only [step, hnew]]
      cases hfire : (B.fire s.breaker t).1 with
      | true =>
        rw [show s.fire B t ⟨event.queue, tag⟩ event = _ from if_pos hfire]
        exact .calls hnew hfire
      | false =>
        rw [show s.fire B t ⟨event.queue, tag⟩ event = _ from if_neg (by rw [hfire]; simp)]
        exact .rejected hnew hfire
  | answer d result =>
    change Moves B s t (.answer d result) (match s.handlers.lookup d with
      | some ⟨event, .call⟩ => put { s with breaker := B.note s.breaker t result.isOk } d event
          (afterCall event result)
      | _ => s)
    split
    · exact .answers result ‹_›
    · exact .ignores (by simp)
  | exec d =>
    change Moves B s t (.exec d) (match s.handlers.lookup d with
      | some h => s.resolve d h
      | none => s)
    split
    · exact moves_resolve ‹_›
    · exact .ignores (by simp)
  | reject d message =>
    change Moves B s t (.reject d message) (match s.handlers.lookup d with
      | some h => s.refuse d h message
      | none => s)
    split
    · exact moves_refuse ‹_›
    · exact .ignores (by simp)
  | crash d =>
    cases h : s.handlers.lookup d with
    | some h' =>
      rw [show step B s (t, .crash d) = s.put d h'.event .returned by simp only [step, h]]
      exact .crashes h
    | none =>
      rw [show step B s (t, .crash d) = s by simp only [step, h]]
      exact .ignores (by simp)

@[simp] theorem setStatus_breaker (o : OrderId) (status : OrderStatus) :
    (s.setStatus o status).breaker = s.breaker := by
  unfold setStatus
  split <;> rfl

@[simp] theorem setStatus_handlers (o : OrderId) (status : OrderStatus) :
    (s.setStatus o status).handlers = s.handlers := by
  unfold setStatus
  split <;> rfl

@[simp] theorem setStatus_sent (o : OrderId) (status : OrderStatus) :
    (s.setStatus o status).sent = s.sent := by
  unfold setStatus
  split <;> rfl

@[simp] theorem setStatus_published (o : OrderId) (status : OrderStatus) :
    (s.setStatus o status).published = s.published := by
  unfold setStatus
  split <;> rfl

theorem lookup_put (event : Event) (pc : Pc) (d' : Delivery) :
    (s.put d event pc).handlers.lookup d' =
      if d' = d then some ⟨event, pc⟩ else s.handlers.lookup d' := by
  split
  · rw [‹d' = d›]
    exact Finmap.lookup_insert _
  · exact Finmap.lookup_insert_of_ne _ ‹_›

end Orchestrator

end Saga

end Ecommerce
