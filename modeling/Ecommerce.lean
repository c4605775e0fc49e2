import Ecommerce.Auth.Sessions
import Ecommerce.Gateway.Proxy
import Ecommerce.Inventory.Exact
import Ecommerce.Inventory.Runs
import Ecommerce.Inventory.Serializable
import Ecommerce.Inventory.Settlement
import Ecommerce.Inventory.Typed
import Ecommerce.Messaging.Backstop
import Ecommerce.Messaging.Handlers
import Ecommerce.Order.Pricing
import Ecommerce.Outbox.Draining
import Ecommerce.Payment.Result
import Ecommerce.Payment.Retry
import Ecommerce.Payment.Verdict
import Ecommerce.Saga.Books
import Ecommerce.Saga.Interference
import Ecommerce.Saga.Lifecycle
import Ecommerce.Saga.Mailroom
import Ecommerce.Saga.Market
import Ecommerce.Saga.Notices
import Ecommerce.Saga.Refinement
