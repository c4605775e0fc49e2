import Ecommerce.Common.Program
import Ecommerce.Order.Model
import Mathlib.Data.List.Nodup
/-!
# Catalog-service — the price lookup

`getPrices` reads the products and answers every requested id with its
price or as missing; a failing read leaves every id missing. The table is
keyed by `productId`, which `Products` carries with its rows.
That every requested id is on one of the two lists is carried by the
answer, and `priceOf_priceAll` is what its caller relies on beside it.
-/

namespace Ecommerce

namespace Catalog

open Orders (GetPricesResult PricesFor)

/-- A row of `products`. -/
structure Product where
  productId : ProductId
  price : ℚ
deriving DecidableEq

/-- The rows of `products`; `productId` is a unique column. -/
structure Products where
  rows : List Product
  unique : (rows.map Product.productId).Nodup

/-- What the handler awaits. -/
inductive Op
  /-- `productRepository.find()`. -/
  | find
deriving DecidableEq

/-- What it resolves to. -/
@[reducible]
def Ans : Op → Type
  | .find => List Product

/-- A computation of the service; it throws the message of an error. -/
abbrev Prog := Program Op Ans String

/-- Await one of them. -/
abbrev query (op : Op) : Prog (Ans op) := Program.await op

/-- `byProductId.get(productId)`: the last product of a `Map` wins. -/
def productOf (products : List Product) (productId : ProductId) : Option Product :=
  products.reverse.find? fun p => p.productId = productId

/-- The loop over `request.productIds`. -/
def priceAll (products : List Product) : List ProductId → GetPricesResult → GetPricesResult
  | [], answer => answer
  | productId :: rest, answer =>
    match productOf products productId with
    | some product =>
      priceAll products rest
        { answer with prices := answer.prices ++ [(productId, product.price)] }
    | none => priceAll products rest { answer with missing := answer.missing ++ [productId] }

/-! ## What the answer says -/

section Answers

variable {products : List Product} {ids : List ProductId} {id : ProductId}

/-- The entry of an id, if the catalog has the product. -/
def entryOf (products : List Product) (id : ProductId) : Option (ProductId × ℚ) :=
  (productOf products id).map fun product => (id, product.price)

/-- The loop puts every id on one of the two lists. -/
theorem priceAll_eq (ids : List ProductId) (answer : GetPricesResult) :
    priceAll products ids answer =
      ⟨answer.prices ++ ids.filterMap (entryOf products),
        answer.missing ++ ids.filter fun id => (productOf products id).isNone⟩ := by
  induction ids generalizing answer with
  | nil => rw [List.filterMap_nil, List.filter_nil, List.append_nil, List.append_nil, priceAll]
  | cons id rest ih =>
    rw [priceAll]
    cases hid : productOf products id with
    | some product =>
      have hentry : entryOf products id = some (id, product.price) := by rw [entryOf, hid]; rfl
      dsimp only
      rw [ih, List.filterMap_cons_some hentry, List.filter_cons_of_neg (by simp [hid]),
        List.append_assoc, List.singleton_append]
    | none =>
      have hentry : entryOf products id = none := by rw [entryOf, hid]; rfl
      dsimp only
      rw [ih, List.filterMap_cons_none hentry, List.filter_cons_of_pos (by simp [hid]),
        List.append_assoc, List.singleton_append]

/-- Nothing is missing if every id has a product. -/
theorem missing_eq_nil_iff :
    (priceAll products ids ⟨[], []⟩).missing = [] ↔ ∀ id ∈ ids, (productOf products id).isSome := by
  rw [priceAll_eq]
  change [] ++ ids.filter _ = [] ↔ _
  rw [List.nil_append, List.filter_eq_nil_iff]
  refine forall₂_congr fun id _ => ?_
  cases productOf products id <;> simp

/-- **The prices cover every requested id that has a product**, however often it was requested. -/
theorem priceOf_priceAll (h : id ∈ ids) :
    Orders.priceOf (priceAll products ids ⟨[], []⟩).prices id =
      (productOf products id).map Product.price := by
  rw [priceAll_eq, List.nil_append, Orders.priceOf]
  cases hid : productOf products id with
  | none =>
    -- An entry of this id would come from a product.
    rw [List.find?_eq_none.mpr, Option.map_none, Option.map_none]
    intro entry hentry heq
    rw [List.mem_reverse, List.mem_filterMap] at hentry
    obtain ⟨id', -, hid'⟩ := hentry
    obtain ⟨product, hproduct, rfl⟩ := Option.map_eq_some_iff.mp hid'
    obtain rfl : id' = id := of_decide_eq_true heq
    rw [hid] at hproduct
    cases hproduct
  | some product =>
    have hentry : entryOf products id = some (id, product.price) := by rw [entryOf, hid]; rfl
    have hmem : (id, product.price) ∈ (ids.filterMap (entryOf products)).reverse :=
      List.mem_reverse.mpr (List.mem_filterMap.mpr ⟨id, h, hentry⟩)
    -- All entries of the id agree, so it does not matter which one the `Map` keeps.
    cases hfind : (ids.filterMap (entryOf products)).reverse.find? (fun entry => entry.1 = id) with
    | none => exact absurd (decide_eq_true rfl) (List.find?_eq_none.mp hfind _ hmem)
    | some entry =>
      have heq : entry.1 = id := by simpa using List.find?_some hfind
      obtain ⟨id', -, hid'⟩ := List.mem_filterMap.mp
        (List.mem_reverse.mp (List.mem_of_find?_eq_some hfind))
      obtain ⟨product', hproduct', rfl⟩ := Option.map_eq_some_iff.mp hid'
      obtain rfl : id' = id := heq
      rw [hid] at hproduct'
      obtain rfl := Option.some.inj hproduct'
      rfl

end Answers

/-! ## The handler -/

/-- The loop leaves no id out. -/
theorem covers_priceAll (products : List Product) (productIds : List ProductId) :
    (priceAll products productIds ⟨[], []⟩).Covers productIds := by
  intro id hid
  rw [priceOf_priceAll hid, Option.isSome_map, priceAll_eq]
  cases hfound : productOf products id with
  | none => exact .inl (List.mem_append_right _ (List.mem_filter.mpr ⟨hid, by rw [hfound]; rfl⟩))
  | some product => exact .inr rfl

/-- The answer of the loop. -/
def answerOf (products : List Product) (productIds : List ProductId) : PricesFor productIds :=
  ⟨priceAll products productIds ⟨[], []⟩, covers_priceAll products productIds⟩

theorem prices_answerOf (products : List Product) (productIds : List ProductId) :
    (answerOf products productIds).prices = productIds.filterMap (entryOf products) := by
  change (priceAll products productIds ⟨[], []⟩).prices = _
  rw [priceAll_eq, List.nil_append]

/-- Its answer where the products cannot be read. -/
def allMissing (productIds : List ProductId) : PricesFor productIds :=
  ⟨⟨[], productIds⟩, fun _ hid => .inl hid⟩

/-- What the handler returns: an answer, or `new Nack(requeue)`. -/
inductive Reply (productIds : List ProductId)
  | result (r : PricesFor productIds)
  | nack (requeue : Bool)
deriving DecidableEq

/-- `CatalogService.getPrices`. -/
def getPrices (productIds : List ProductId) (redelivered : Bool) : Prog (Reply productIds) := do
  if redelivered then pure (.nack false)
  else
    try
      let products ← query .find
      pure (.result (answerOf products productIds))
    catch _ => pure (.result (allMissing productIds))

/-- **A unique column names one product.** -/
theorem Products.productOf_eq_some_iff (products : Products) {id : ProductId} {product : Product} :
    productOf products.rows id = some product ↔
      product ∈ products.rows ∧ product.productId = id := by
  constructor
  · intro h
    exact ⟨List.mem_reverse.mp (List.mem_of_find?_eq_some h), by simpa using List.find?_some h⟩
  · rintro ⟨hmem, rfl⟩
    cases hfind : productOf products.rows product.productId with
    | none =>
      exact absurd (decide_eq_true rfl)
        (List.find?_eq_none.mp hfind product (List.mem_reverse.mpr hmem))
    | some found =>
      have hfound := List.mem_reverse.mp (List.mem_of_find?_eq_some hfind)
      have heq : found.productId = product.productId := by simpa using List.find?_some hfind
      rw [List.inj_on_of_nodup_map products.unique hfound hmem heq]

/-- The catalog has the product. -/
def Products.Lists (products : Products) (id : ProductId) : Prop :=
  ∃ product ∈ products.rows, product.productId = id

theorem Products.isSome_productOf_iff (products : Products) {id : ProductId} :
    (productOf products.rows id).isSome ↔ products.Lists id := by
  rw [Option.isSome_iff_exists]
  exact exists_congr fun product => products.productOf_eq_some_iff

end Catalog

end Ecommerce
