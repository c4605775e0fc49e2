import Ecommerce.Catalog.Model
import Ecommerce.Notification.Model
import Ecommerce.Payment.Model
import Ecommerce.Saga.Model
/-!
# The RabbitMQ handlers

The nine handlers of the system, and whether an exception gets past them.
Eight end in a `catch` or swallow what each of their calls fails with, so
none throws whatever its collaborators do. `handlePaymentRequested` awaits
four calls outside any `catch`; `returns_iff` says which of them must be
answered for it to return.
-/

namespace Ecommerce

/-! ## Eight that never throw -/

namespace Inventory

theorem neverThrows_reserve (orderId : OrderId) (items : List ReservedItem) (redelivered : Bool) :
    (reserve orderId items redelivered).NeverThrows :=
  .ite (.returned _) (.caught fun _ => .returned _)

theorem neverThrows_confirm (orderId : OrderId) (redelivered : Bool) :
    (confirm orderId redelivered).NeverThrows :=
  .ite (.returned _) (.caught fun _ => .returned _)

theorem neverThrows_release (orderId : OrderId) (redelivered : Bool) :
    (release orderId redelivered).NeverThrows :=
  .ite (.returned _) (.caught fun _ => .returned _)

end Inventory

namespace Catalog

theorem neverThrows_getPrices (productIds : List ProductId) (redelivered : Bool) :
    (getPrices productIds redelivered).NeverThrows :=
  .ite (.returned _) (.caught fun _ => .returned _)

end Catalog

namespace Notifications

theorem neverThrows_handleOrderStatusChanged (event : OrderStatusChangedEvent) :
    (handleOrderStatusChanged event).NeverThrows :=
  .caught fun _ => .returned _

end Notifications

namespace Saga

theorem neverThrows_callInventory (req : InventoryRpcRequest) :
    (callInventory req).NeverThrows :=
  .caught fun _ => .returned _

/-- Both halves of `setStatus` swallow their errors. -/
theorem neverThrows_setStatus (orderId : OrderId) (status : OrderStatus) :
    (setStatus orderId status).NeverThrows := by
  refine Program.NeverThrows.andThen (.caught fun _ => .returned _) fun ok => ?_
  exact .ite (.caught fun _ => .returned _) (.returned _)

theorem neverThrows_handleOrderCreated (event : OrderCreatedEvent) :
    (handleOrderCreated event).NeverThrows := by
  refine (neverThrows_callInventory _).andThen fun result => ?_
  cases result with
  | none => exact neverThrows_setStatus _ _
  | some result =>
    dsimp only
    split
    · exact (neverThrows_setStatus _ _).andThen fun _ =>
        .caught fun _ => .returned _
    · exact neverThrows_setStatus _ _

theorem neverThrows_handlePaymentSucceeded (event : PaymentResultEvent) :
    (handlePaymentSucceeded event).NeverThrows := by
  refine (neverThrows_callInventory _).andThen fun result => ?_
  cases result with
  | none => exact .returned _
  | some result =>
    dsimp only
    split
    · exact neverThrows_setStatus _ _
    · exact .returned _

theorem neverThrows_handlePaymentFailed (event : PaymentResultEvent) :
    (handlePaymentFailed event).NeverThrows :=
  (neverThrows_callInventory _).andThen fun _ => neverThrows_setStatus _ _

end Saga

/-! ## One that may -/

namespace Payments

variable {σ : Type}

/-- A call is answered. -/
def IsAnswer {α : Type} (r : Except String α × σ) : Prop := ∃ a, r.1 = .ok a

/-- The calls `handlePaymentRequested` makes outside a `catch` are answered: the read of the
payments; then, of an order without one, the publish to the DLQ once the retries are used up,
and before that the insert where the gateway has answered and the publish to a retry queue where
it has not. -/
def Spared (env : (op : Op) → σ → Except String (Ans op) × σ) (event : PaymentRequestedEvent)
    (xDeath : List Death) (s : σ) : Prop :=
  match env (.findPayment event.orderId) s with
  | (.error _, _) => False
  | (.ok (some _), _) => True
  | (.ok none, s₁) =>
    if retryCount xDeath ≥ MAX_RETRIES then IsAnswer (env (.publish (toDlq event)) s₁)
    else
      match env (.fire event.total) s₁ with
      | (.error _, s₂) => IsAnswer (env (.publish (toRetry event xDeath)) s₂)
      | (.ok status, s₂) =>
        IsAnswer (env (.savePayment event.orderId event.customerId event.total status) s₂)

theorem neverThrows_publishResult (orderId : OrderId) (status : PaymentStatus)
    (paymentId : Option ℕ) : (publishResult orderId status paymentId).NeverThrows :=
  .caught fun _ => .returned _

theorem not_isAnswer_error {α : Type} {message : String} {s : σ} :
    ¬ IsAnswer ((.error message, s) : Except String α × σ) := fun ⟨_, h⟩ => by cases h

/-- A call outside a `catch`, and then something that never throws. -/
theorem isAnswer_call_iff {α : Type} (env : (op : Op) → σ → Except String (Ans op) × σ) (op : Op)
    {rest : Ans op → Prog α} (hrest : ∀ a, (rest a).NeverThrows) (s : σ) :
    IsAnswer ((query op >>= rest).run env s) ↔ IsAnswer (env op s) := by
  rw [Program.run_await_bind]
  generalize env op s = r
  obtain ⟨message | a, s'⟩ := r
  · exact ⟨fun h => (not_isAnswer_error h).elim, fun h => (not_isAnswer_error h).elim⟩
  · exact ⟨fun _ => ⟨a, rfl⟩, fun _ => (hrest a).run_ok env s'⟩

/-- **The handler returns if and only if those calls are answered.** -/
theorem isAnswer_handlePaymentRequested (env : (op : Op) → σ → Except String (Ans op) × σ)
    (event : PaymentRequestedEvent) (xDeath : List Death) (s : σ) :
    IsAnswer ((handlePaymentRequested event xDeath).run env s) ↔ Spared env event xDeath s := by
  unfold handlePaymentRequested processPaymentRequested Spared
  rw [Program.run_await_bind]
  generalize env (.findPayment event.orderId) s = found
  obtain ⟨message | _ | row, s₁⟩ := found
  · exact ⟨fun h => not_isAnswer_error h, False.elim⟩
  · change IsAnswer ((if retryCount xDeath ≥ MAX_RETRIES then _ else _ : Prog Unit).run env s₁) ↔ _
    dsimp only
    split
    · exact isAnswer_call_iff env _ (fun _ => neverThrows_publishResult _ _ _) s₁
    · -- The gateway's rejection is caught, and the message handed on outside the `try`.
      change IsAnswer (Program.run env (Program.call (Op.fire event.total) _) s₁) ↔ _
      rw [Program.run_call]
      generalize env (.fire event.total) s₁ = fired
      obtain ⟨message | status, s₂⟩ := fired
      · change IsAnswer (Program.run env ((query (.publish (toRetry event xDeath)) >>= fun _ =>
          pure none) >>= _) s₂) ↔ _
        rw [Program.bind_assoc]
        exact isAnswer_call_iff env _ (fun _ => .returned _) s₂
      · exact isAnswer_call_iff env _ (fun _ => neverThrows_publishResult _ _ _) s₂
  · exact ⟨fun _ => trivial, fun _ => ⟨(), rfl⟩⟩

end Payments

/-! ## All nine -/

/-- A message for one of the handlers, with what the broker hands over beside it. -/
inductive Delivery
  | reserve (orderId : OrderId) (items : List Inventory.ReservedItem) (redelivered : Bool)
  | confirm (orderId : OrderId) (redelivered : Bool)
  | release (orderId : OrderId) (redelivered : Bool)
  | getPrices (productIds : List ProductId) (redelivered : Bool)
  | orderCreated (event : OrderCreatedEvent)
  | paymentSucceeded (event : PaymentResultEvent)
  | paymentFailed (event : PaymentResultEvent)
  | paymentRequested (event : PaymentRequestedEvent) (xDeath : List Death)
  | orderStatusChanged (event : Notifications.OrderStatusChangedEvent)
deriving DecidableEq

/-- The collaborators of the services: what each answers a call with, or rejects it with, in
every state `σ` of theirs. -/
structure Collaborators (σ : Type) where
  inventory : (op : Inventory.Op) → σ → Except Inventory.Failure (Inventory.Ans op) × σ
  catalog : (op : Catalog.Op) → σ → Except String (Catalog.Ans op) × σ
  orders : (op : Saga.Op) → σ → Except String (Saga.Ans op) × σ
  payments : (op : Payments.Op) → σ → Except String (Payments.Ans op) × σ
  notifications : (op : Notifications.Op) → σ → Except String (Notifications.Ans op) × σ

/-- What a handler returns. -/
inductive Returned
  | reply (r : Inventory.Reply)
  | prices {productIds : List ProductId} (r : Catalog.Reply productIds)
  | nothing
deriving DecidableEq

/-- What a handler throws. -/
inductive Thrown
  | failure (f : Inventory.Failure)
  | error (message : String)
deriving DecidableEq

namespace Delivery

variable {σ : Type}

/-- Handle a message: what comes of it. -/
def handle (c : Collaborators σ) (s : σ) : Delivery → Except Thrown Returned
  | reserve o items b =>
    (((Inventory.reserve o items b).run c.inventory s).1.map .reply).mapError .failure
  | confirm o b => (((Inventory.confirm o b).run c.inventory s).1.map .reply).mapError .failure
  | release o b => (((Inventory.release o b).run c.inventory s).1.map .reply).mapError .failure
  | getPrices ids b => (((Catalog.getPrices ids b).run c.catalog s).1.map .prices).mapError .error
  | orderCreated e =>
    (((Saga.handleOrderCreated e).run c.orders s).1.map fun _ => .nothing).mapError .error
  | paymentSucceeded e =>
    (((Saga.handlePaymentSucceeded e).run c.orders s).1.map fun _ => .nothing).mapError .error
  | paymentFailed e =>
    (((Saga.handlePaymentFailed e).run c.orders s).1.map fun _ => .nothing).mapError .error
  | paymentRequested e xDeath =>
    (((Payments.handlePaymentRequested e xDeath).run c.payments s).1.map fun _ =>
      .nothing).mapError .error
  | orderStatusChanged e =>
    (((Notifications.handleOrderStatusChanged e).run c.notifications s).1.map fun _ =>
      .nothing).mapError .error

/-- **A handler completes by returning.** -/
def Returns (c : Collaborators σ) (s : σ) (d : Delivery) : Prop := ∃ r, d.handle c s = .ok r

/-- The calls that no `catch` surrounds are answered. -/
def Spared (c : Collaborators σ) (s : σ) : Delivery → Prop
  | paymentRequested e xDeath => Payments.Spared c.payments e xDeath s
  | _ => True

/-- What is returned is passed on. -/
theorem exists_ok_iff {ε α : Type} {r : Except ε α} {f : α → Returned} {g : ε → Thrown} :
    (∃ b, (r.map f).mapError g = .ok b) ↔ ∃ a, r = .ok a := by
  cases r with
  | error e => exact ⟨fun ⟨b, h⟩ => (nomatch h), fun ⟨a, h⟩ => (nomatch h)⟩
  | ok a => exact ⟨fun _ => ⟨a, rfl⟩, fun _ => ⟨f a, rfl⟩⟩

/-- What never throws returns. -/
theorem exists_ok_of_neverThrows {Op : Type} {Ans : Op → Type} {ε α : Type}
    {p : Program Op Ans ε α} (hp : p.NeverThrows)
    (env : (op : Op) → σ → Except ε (Ans op) × σ) (s : σ) (f : α → Returned) (g : ε → Thrown) :
    ∃ b, ((p.run env s).1.map f).mapError g = .ok b :=
  exists_ok_iff.mpr (hp.run_ok env s)

/-- **Every handler returns, but for `handlePaymentRequested` when one of the calls it makes
outside a `catch` is rejected.** -/
theorem returns_iff (c : Collaborators σ) (s : σ) (d : Delivery) :
    d.Returns c s ↔ d.Spared c s := by
  cases d with
  | paymentRequested e xDeath =>
    exact exists_ok_iff.trans (Payments.isAnswer_handlePaymentRequested c.payments e xDeath s)
  | reserve o items b =>
    exact iff_of_true
      (exists_ok_of_neverThrows (Inventory.neverThrows_reserve o items b) _ s _ _) trivial
  | confirm o b =>
    exact iff_of_true (exists_ok_of_neverThrows (Inventory.neverThrows_confirm o b) _ s _ _) trivial
  | release o b =>
    exact iff_of_true (exists_ok_of_neverThrows (Inventory.neverThrows_release o b) _ s _ _) trivial
  | getPrices ids b =>
    exact iff_of_true (exists_ok_of_neverThrows (Catalog.neverThrows_getPrices ids b) _ s _ _) trivial
  | orderCreated e =>
    exact iff_of_true
      (exists_ok_of_neverThrows (Saga.neverThrows_handleOrderCreated e) _ s _ _) trivial
  | paymentSucceeded e =>
    exact iff_of_true
      (exists_ok_of_neverThrows (Saga.neverThrows_handlePaymentSucceeded e) _ s _ _) trivial
  | paymentFailed e =>
    exact iff_of_true
      (exists_ok_of_neverThrows (Saga.neverThrows_handlePaymentFailed e) _ s _ _) trivial
  | orderStatusChanged e =>
    exact iff_of_true
      (exists_ok_of_neverThrows (Notifications.neverThrows_handleOrderStatusChanged e) _ s _ _)
        trivial

/-- Collaborators all of whose calls are rejected. -/
def outage : Collaborators Unit where
  inventory _ s := (.error (.error "down"), s)
  catalog _ s := (.error "down", s)
  orders _ s := (.error "down", s)
  payments _ s := (.error "down", s)
  notifications _ s := (.error "down", s)

/-- The read of the payments is not caught. -/
theorem not_returns_of_outage :
    ¬ (paymentRequested ⟨"o", "c", 1⟩ []).Returns outage () := fun ⟨_, h⟩ => nomatch h

end Delivery

end Ecommerce
