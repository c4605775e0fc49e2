import Ecommerce.Messaging.Topology
import Mathlib.Algebra.Order.Ring.Rat
/-!
# Order-service — creating an order

`createOrder` prices the requested lines with the catalog's answer and
writes the order and the outbox row of its `order.created` event in one
transaction; what it returns here is that pair.
-/

namespace Ecommerce

namespace Orders

/-- A row of `orders`, named by its id. -/
structure Order where
  customerId : CustomerId
  items : List OrderItem
  total : ℚ
  status : OrderStatus
deriving DecidableEq

/-- A requested line. -/
structure OrderLine where
  productId : ProductId
  quantity : ℚ
deriving DecidableEq

/-- The body of `POST /orders`. -/
structure CreateOrderDto where
  customerId : CustomerId
  items : List OrderLine
deriving DecidableEq

/-- The products that are asked for. -/
abbrev CreateOrderDto.productIds (dto : CreateOrderDto) : List ProductId :=
  dto.items.map OrderLine.productId

/-- The catalog's answer. -/
structure GetPricesResult where
  prices : List (ProductId × ℚ)
  missing : List ProductId
deriving DecidableEq

/-- `priceByProductId.get(productId)`: the last entry of a `Map` wins. -/
def priceOf (prices : List (ProductId × ℚ)) (productId : ProductId) : Option ℚ :=
  (prices.reverse.find? fun entry => entry.1 = productId).map Prod.snd

/-- Each of these ids is priced or listed as missing. -/
def GetPricesResult.Covers (result : GetPricesResult) (productIds : List ProductId) : Prop :=
  ∀ id ∈ productIds, id ∈ result.missing ∨ (priceOf result.prices id).isSome

instance (result : GetPricesResult) (productIds : List ProductId) :
    Decidable (result.Covers productIds) :=
  inferInstanceAs (Decidable (∀ id ∈ productIds, _))

/-- The answer to a request for these ids. -/
structure PricesFor (productIds : List ProductId) extends GetPricesResult where
  covered : toGetPricesResult.Covers productIds
deriving DecidableEq

/-- With nothing missing, every line has its price. -/
theorem PricesFor.isSome_priceOf {items : List OrderLine}
    (result : PricesFor (items.map OrderLine.productId)) (h : ¬ result.missing.length > 0) :
    ∀ item ∈ items, (priceOf result.prices item.productId).isSome := by
  intro item hitem
  have hnil : result.missing = [] := List.eq_nil_of_length_eq_zero (Nat.eq_zero_of_not_pos h)
  rcases result.covered _ (List.mem_map_of_mem hitem) with hmissing | hprice
  · rw [hnil] at hmissing
    cases hmissing
  · exact hprice

/-- `OrderService.priceItems`. `result` is the answer of the `catalog.get-prices` call, or
what it was rejected with. -/
def priceItems (items : List OrderLine)
    (result : Except String (PricesFor (items.map OrderLine.productId))) :
    Except String (List OrderItem) :=
  match result with
  | .error _ => .error "Unable to verify product prices right now"
  | .ok result =>
    if h : result.missing.length > 0 then
      .error ("Unknown product(s): " ++ ", ".intercalate result.missing)
    else .ok (items.pmap (fun item hprice =>
      ⟨item.productId, item.quantity, (priceOf result.prices item.productId).get hprice⟩)
      (result.isSome_priceOf h))

/-- `items.reduce((sum, item) => sum + item.price * item.quantity, 0)`. -/
def totalOf (items : List OrderItem) : ℚ :=
  items.foldl (fun sum item => sum + item.price * item.quantity) 0

/-- `OrderService.createOrder`: the order, and the event of its outbox row. -/
def createOrder (orderId : OrderId) (dto : CreateOrderDto)
    (result : Except String (PricesFor dto.productIds)) :
    Except String (Order × OrderCreatedEvent) := do
  let items ← priceItems dto.items result
  let order : Order := ⟨dto.customerId, items, totalOf items, .pending⟩
  pure (order, ⟨orderId, order.customerId, order.total, order.items⟩)

/-- **The event repeats the order.** -/
theorem createOrder_eq {orderId : OrderId} {dto : CreateOrderDto}
    {result : Except String (PricesFor dto.productIds)} {order : Order}
    {event : OrderCreatedEvent}
    (h : createOrder orderId dto result = .ok (order, event)) :
    order.status = .pending ∧ event.orderId = orderId ∧ event.customerId = order.customerId ∧
      event.total = order.total := by
  unfold createOrder at h
  cases hitems : priceItems dto.items result with
  | error message => rw [hitems] at h; cases h
  | ok items =>
    rw [hitems] at h
    cases h
    exact ⟨rfl, rfl, rfl, rfl⟩

/-- The total is the sum over the lines. -/
theorem totalOf_eq_sum (items : List OrderItem) :
    totalOf items = (items.map fun item => item.price * item.quantity).sum := by
  have hfold : ∀ (l : List OrderItem) (a : ℚ),
      l.foldl (fun sum item => sum + item.price * item.quantity) a =
        a + (l.map fun item => item.price * item.quantity).sum := by
    intro l
    induction l with
    | nil => exact fun a => (add_zero a).symm
    | cons item rest ih => intro a; rw [List.foldl_cons, ih, List.map_cons, List.sum_cons, add_assoc]
  rw [totalOf, hfold, zero_add]

/-- Every line carries the price the catalog has answered. -/
theorem priceOf_of_priceItems {lines : List OrderLine}
    {result : Except String (PricesFor (lines.map OrderLine.productId))} {items : List OrderItem}
    (h : priceItems lines result = .ok items) :
    ∃ answer, result = .ok answer ∧
      ∀ item ∈ items, priceOf answer.prices item.productId = some item.price := by
  unfold priceItems at h
  cases result with
  | error message => cases h
  | ok answer =>
    dsimp only at h
    split at h
    · cases h
    · refine ⟨answer, rfl, fun item hitem => ?_⟩
      obtain rfl := Except.ok.inj h
      obtain ⟨line, hline, rfl⟩ := List.mem_pmap.mp hitem
      exact (Option.some_get _).symm

/-- **What an order is made of.** -/
theorem createOrder_priced {orderId : OrderId} {dto : CreateOrderDto}
    {result : Except String (PricesFor dto.productIds)} {order : Order}
    {event : OrderCreatedEvent}
    (h : createOrder orderId dto result = .ok (order, event)) :
    event.items = order.items ∧ order.total = totalOf order.items ∧
      ∃ answer, result = .ok answer ∧
        ∀ item ∈ order.items, priceOf answer.prices item.productId = some item.price := by
  unfold createOrder at h
  cases hitems : priceItems dto.items result with
  | error message => rw [hitems] at h; cases h
  | ok items =>
    rw [hitems] at h
    cases h
    exact ⟨rfl, rfl, priceOf_of_priceItems hitems⟩

end Orders

end Ecommerce
