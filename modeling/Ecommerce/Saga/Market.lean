import Ecommerce.Catalog.Listed
import Ecommerce.Common.Ranked
import Ecommerce.Saga.Accounts
/-!
# The shop and its catalog

`Market` is the composed saga beside catalog-service: products are
registered at any time, `getPrices` answers from the rows there are when
it reads them, and an order is priced with an answer it has been given,
however old. Since products stay as they were registered, an old answer
is still right, and what a customer is charged is what the catalog lists.
-/

namespace Ecommerce

namespace Saga

open Catalog (Row)

/-- The saga with the labels of its run, catalog-service, and the answers it has given. -/
structure Market where
  shop : System × List Label
  catalog : Catalog.Service.State
  answers : List ((productIds : List ProductId) × Orders.PricesFor productIds)

namespace Market

/-- A step. -/
inductive Move
  /-- Of the saga. -/
  | shop (l : Label)
  /-- Of catalog-service over HTTP. -/
  | catalog (m : Catalog.Service.Move)
  /-- `catalog.get-prices` is handled; its only statement may fail. -/
  | prices (productIds : List ProductId) (redelivered fails : Bool)

/-- What the statement of `getPrices` comes to. -/
def find (rows : List Row) (fails : Bool) (op : Catalog.Op) (_ : Unit) :
    Except String (Catalog.Ans op) × Unit :=
  match op with
  | .find => (if fails then .error "connection terminated" else .ok (rows.map Row.product), ())

/-- What `getPrices` answers. -/
def answer (rows : List Row) (productIds : List ProductId) (redelivered fails : Bool) :
    Option (Orders.PricesFor productIds) :=
  match ((Catalog.getPrices productIds redelivered).run (find rows fails) ()).1 with
  | .ok (.result r) => some r
  | _ => none

/-- Order-service has the answer it prices an order with. -/
def Heard (s : Market) : Label → Prop
  | .createOrder _ dto (.ok r) => ⟨dto.productIds, r⟩ ∈ s.answers
  | _ => True

instance (s : Market) (l : Label) : Decidable (s.Heard l) := by
  unfold Heard
  split <;> infer_instance

def step (s : Market) : Move → Option Market
  | .shop l =>
    if s.Heard l then (traced System.step s.shop l).map fun shop => { s with shop := shop } else none
  | .catalog m => (Catalog.Service.host.step s.catalog m).map fun catalog =>
      { s with catalog := catalog }
  | .prices productIds redelivered fails =>
    (answer s.catalog.shared.products.rows productIds redelivered fails).map fun r =>
      { s with answers := ⟨productIds, r⟩ :: s.answers }

/-- A shop before its first order and its first product. -/
structure Opens (s : Market) : Prop where
  shop : untraced Saga.Opens s.shop
  catalog : Catalog.Service.Opens s.catalog
  answers : s.answers = []

/-- No body of a product carries an id of its own. -/
def Declared : Move → Prop
  | .catalog m => Catalog.Service.Declared m
  | _ => True

/-- The prices an answer gives are listed. -/
def Right (rows : List Row) (r : Orders.GetPricesResult) : Prop :=
  ∀ id price, Orders.priceOf r.prices id = some price →
    ∃ row ∈ rows, row.productId = id ∧ row.price = price

variable {s s' : Market} {m : Move}

/-! ## Answers -/

/-- **`getPrices` answers the prices of the rows there are**, or none at all. -/
theorem right_of_answer {rows : List Row} {productIds : List ProductId}
    {redelivered fails : Bool} {r : Orders.PricesFor productIds}
    (h : answer rows productIds redelivered fails = some r) : Right rows r.toGetPricesResult := by
  intro id price hprice
  cases redelivered with
  | true => cases h
  | false =>
    cases fails with
    | true =>
      obtain rfl := Option.some.inj h
      cases hprice
    | false =>
      obtain rfl := Option.some.inj h
      -- An entry comes from a product.
      rw [Catalog.prices_answerOf] at hprice
      obtain ⟨entry, hentry, rfl⟩ := Option.map_eq_some_iff.mp hprice
      have hid : entry.1 = id := by simpa using List.find?_some hentry
      obtain ⟨id', -, hfound⟩ := List.mem_filterMap.mp
        (List.mem_reverse.mp (List.mem_of_find?_eq_some hentry))
      obtain ⟨product, hproduct, rfl⟩ := Option.map_eq_some_iff.mp hfound
      obtain ⟨row, hrow, hrow', hprice'⟩ := Catalog.Rows.exists_of_productOf hproduct
      exact ⟨row, hrow, hrow'.trans hid, hprice'⟩

theorem Right.mono {rows rows' : List Row} {r : Orders.GetPricesResult} (h : Right rows r)
    (hgrows : ∀ row ∈ rows, row ∈ rows') : Right rows' r := by
  intro id price hprice
  obtain ⟨row, hrow, hrest⟩ := h id price hprice
  exact ⟨row, hgrows row hrow, hrest⟩

/-! ## Runs -/

/-- **What can be relied on**: answers are right, and orders are priced with answers. -/
structure Informed (s : Market) : Prop where
  answers : ∀ entry ∈ s.answers, Right s.catalog.shared.products.rows entry.2.toGetPricesResult
  priced : ∀ o dto r, Label.createOrder o dto (.ok r) ∈ s.shop.2 → ⟨dto.productIds, r⟩ ∈ s.answers
  origin : ∀ o order, s.shop.1.orders.lookup o = some order → Originates s.shop.2 o order

/-- The catalog runs while the market does. -/
theorem catalog_of_reach (h : Reach step Opens (fun _ m => Declared m) s) :
    Reach Catalog.Service.host.step Catalog.Service.Opens
      (fun _ m => Catalog.Service.Declared m) s.catalog := by
  refine h.project Market.catalog (fun s hopens => hopens.catalog) fun s m s' _ hm hs => ?_
  cases m with
  | shop l =>
    rw [step] at hs
    split at hs
    · obtain ⟨shop, -, rfl⟩ := Option.map_eq_some_iff.mp hs
      exact .inl rfl
    · cases hs
  | catalog m =>
    obtain ⟨catalog, hstep, rfl⟩ := Option.map_eq_some_iff.mp hs
    exact .inr ⟨m, hm, hstep⟩
  | prices productIds redelivered fails =>
    obtain ⟨r, -, rfl⟩ := Option.map_eq_some_iff.mp hs
    exact .inl rfl

/-- And so does the saga. -/
theorem shop_of_reach (h : Reach step Opens (fun _ m => Declared m) s) :
    Reach (traced System.step) (untraced Saga.Opens) (fun _ _ => True) s.shop := by
  refine h.project Market.shop (fun s hopens => hopens.shop) fun s m s' _ _ hs => ?_
  cases m with
  | shop l =>
    rw [step] at hs
    split at hs
    · obtain ⟨shop, hstep, rfl⟩ := Option.map_eq_some_iff.mp hs
      exact .inr ⟨l, trivial, hstep⟩
    · cases hs
  | catalog m =>
    obtain ⟨catalog, -, rfl⟩ := Option.map_eq_some_iff.mp hs
    exact .inl rfl
  | prices productIds redelivered fails =>
    obtain ⟨r, -, rfl⟩ := Option.map_eq_some_iff.mp hs
    exact .inl rfl

/-- **Every step keeps what can be relied on.** -/
theorem Informed.step (h : Informed s) (hreach : Reach Market.step Opens (fun _ m => Declared m) s)
    (hm : Declared m) (hs : s.step m = some s') : Informed s' := by
  cases m with
  | shop l =>
    rw [Market.step] at hs
    split at hs
    · rename_i hheard
      obtain ⟨shop, hstep, rfl⟩ := Option.map_eq_some_iff.mp hs
      refine ⟨h.answers, fun o dto r hmem => ?_, originates_of_step h.origin hstep⟩
      rw [(traced_cases hstep).2] at hmem
      rcases List.mem_append.mp hmem with hold | hnew
      · exact h.priced o dto r hold
      · obtain rfl := List.mem_singleton.mp hnew
        exact hheard
    · cases hs
  | catalog m =>
    obtain ⟨catalog, hstep, rfl⟩ := Option.map_eq_some_iff.mp hs
    have hgrows := Catalog.Service.judged.within_of_step (catalog_of_reach hreach) hm hstep
    exact ⟨fun entry he => (h.answers entry he).mono hgrows.rows, h.priced, h.origin⟩
  | prices productIds redelivered fails =>
    obtain ⟨r, hanswer, rfl⟩ := Option.map_eq_some_iff.mp hs
    refine ⟨fun entry he => ?_, fun o dto r' hmem => ?_, h.origin⟩
    · rcases List.mem_cons.mp he with rfl | hold
      · exact right_of_answer hanswer
      · exact h.answers entry hold
    · exact List.mem_cons_of_mem _ (h.priced o dto r' hmem)

theorem informed_of_reach (h : Reach step Opens (fun _ m => Declared m) s) : Informed s := by
  refine h.induct (I := Informed) (fun s hopens => ⟨fun entry he => ?_, fun o dto r hmem => ?_,
    fun o order horder => ?_⟩) fun _ _ _ hreach hinv hm hs => hinv.step hreach hm hs
  · rw [hopens.answers] at he
    cases he
  · rw [hopens.shop.2] at hmem
    cases hmem
  · rw [hopens.shop.1.orders] at horder
    cases horder

/-! ## Charges -/

/-- **A charge at the prices the catalog lists**: of the lines of an order that was placed,
each a positive number of units of a product there is. -/
def ChargedAsListed (s : Market) (row : Payments.Payment) : Prop :=
  ∃ order, s.shop.1.orders.lookup row.orderId = some order ∧
    row.amount = (order.items.map fun item => item.price * item.quantity).sum ∧
    ∀ item ∈ order.items, (∃ n : ℕ, 0 < n ∧ item.quantity = n) ∧
      ∃ product ∈ s.catalog.shared.products.rows,
        product.productId = item.productId ∧ product.price = item.price

/-- **Customers are charged what the catalog lists**, in every run of the shop and its
catalog: whatever is duplicated, lost or crashes, however old the answer an order was priced
with, and whichever products are registered in the meantime. -/
theorem charged_as_listed_of_reach (h : Reach step Opens (fun _ m => Declared m) s) :
    ∀ row ∈ s.shop.1.payments, ChargedAsListed s row := by
  intro row hrow
  have hinformed := informed_of_reach h
  have hshop : Reach System.step Saga.Opens (fun _ _ => True) s.shop.1 :=
    (shop_of_reach h).of_traced fun _ _ => id
  obtain ⟨items, ⟨order, horder, rfl⟩, hvalid⟩ := (allVetted_of_reach hshop).rows row hrow
  obtain ⟨order', horder', -, htotal⟩ := (backed_of_reach hshop).2.rows row hrow
  obtain rfl : order = order' := Option.some.inj (horder.symm.trans horder')
  obtain ⟨dto, r, hcreated, hsum, hprices⟩ := hinformed.origin _ order horder
  have hanswer := hinformed.priced _ dto r hcreated
  refine ⟨order, horder, ?_, fun item hitem => ⟨exists_nat_of_valid (hvalid item hitem), ?_⟩⟩
  · rw [← htotal, hsum, Orders.totalOf_eq_sum]
  · exact hinformed.answers _ hanswer _ _ (hprices item hitem)

instance (m : Move) : Decidable (Declared m) := by
  unfold Declared
  split <;> infer_instance

def newMarket : Market := ⟨(newShop, []), Catalog.Service.emptyCatalog, []⟩

theorem opens_newMarket : Opens newMarket :=
  ⟨⟨opens_newShop, rfl⟩, Catalog.Service.opens_emptyCatalog, rfl⟩

/-- A product is registered, an order is priced, another product is registered, and the order
is paid. -/
theorem charged_as_listed_of_paid :
    ∃ s, Reach step Opens (fun _ m => Declared m) s ∧
      s.shop.1.payments = [⟨0, "o", "c", 10, .success⟩] ∧
      ∀ row ∈ s.shop.1.payments, ChargedAsListed s row := by
  obtain ⟨s, hreach, hs⟩ := Reach.exists_of_follow step Opens (fun _ m => Declared m)
    opens_newMarket
    ([.catalog (.arrive (.create (Catalog.Service.bodyOf none "p" 5))), .catalog (.go 0 .go),
        .catalog (.go 0 (.insert "u1")), .prices ["p"] false false, .shop someOrder,
        .catalog (.arrive (.create (Catalog.Service.bodyOf none "q" 7))), .catalog (.go 1 .go),
        .catalog (.go 1 (.insert "u2"))] ++
      (relayed ++ called (.created someCreated) ++ requested ++ paid).map Move.shop)
    (fun s => s.shop.1.payments = [⟨0, "o", "c", 10, .success⟩]) (by decide +kernel)
  exact ⟨s, hreach, of_decide_eq_true hs, charged_as_listed_of_reach hreach⟩

end Market

end Saga

end Ecommerce
