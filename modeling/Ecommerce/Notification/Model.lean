import Ecommerce.Common.Program
import Ecommerce.Messaging.Topology
/-!
# Notification-service — the handler of `order.status-changed`

The handler tells the customer through a sender, and logs what the sender
fails with.
-/

namespace Ecommerce

namespace Notifications

/-- `order.status-changed`, as notification-service declares it. -/
structure OrderStatusChangedEvent where
  orderId : OrderId
  customerId : CustomerId
  status : String
deriving DecidableEq

/-- What the handler awaits. -/
inductive Op
  /-- `sender.send(customerId, message)`. -/
  | send (customerId : CustomerId) (message : String)
deriving DecidableEq

/-- What it resolves to. -/
@[reducible]
def Ans : Op → Type
  | .send _ _ => Unit

/-- A computation of the service; it throws the message of an error. -/
abbrev Prog := Program Op Ans String

/-- `NotificationService.handleOrderStatusChanged`. -/
def handleOrderStatusChanged (event : OrderStatusChangedEvent) : Prog Unit := do
  try
    Program.await
      (Op.send event.customerId ("Order " ++ event.orderId ++ " is now " ++ event.status))
  catch _ => pure ()

end Notifications

end Ecommerce
