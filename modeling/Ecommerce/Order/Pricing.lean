import Ecommerce.Catalog.Model
import Ecommerce.Order.Transaction
/-!
# Pricing an order, end to end

`createOrder` against a catalog-service that answers from its table: the
request as a client sends it, the price lookup, and the transaction that
writes the order with its outbox row. `priced_end_to_end` says which
requests become orders and what is saved of them. `pricedLines` is the
map of `priceItems` as the code has it, whose `price` may be `undefined`;
`pricedLines_of_priceItems` proves that behind the check for missing
products it never is.
-/

namespace Ecommerce

namespace Orders

open Catalog (Products Product answerOf productOf)

/-! ## The request -/

/-- A line as the client sends it: the fields `createOrder` reads, and any others. -/
structure ClientLine (X : Type) extends OrderLine where
  others : X

/-- The body of `POST /orders` as the client sends it. -/
structure ClientOrder (X : Type) where
  customerId : CustomerId
  items : List (ClientLine X)
  others : X

/-- What `createOrder` reads of it. -/
def ClientOrder.dto {X : Type} (client : ClientOrder X) : CreateOrderDto :=
  ⟨client.customerId, client.items.map ClientLine.toOrderLine⟩

/-- Two requests that differ only in fields `createOrder` does not read. -/
structure Alike {X Y : Type} (client : ClientOrder X) (client' : ClientOrder Y) : Prop where
  customer : client.customerId = client'.customerId
  lines : List.Forall₂ (fun line line' => line.productId = line'.productId ∧
    line.quantity = line'.quantity) client.items client'.items

/-! ## The lines -/

/-- A line as `priceItems` builds it: `price` is `undefined` where the `Map` has no entry. -/
structure PricedLine where
  productId : ProductId
  quantity : ℚ
  price : Option ℚ
deriving DecidableEq

/-- The map at the end of `priceItems`. -/
def pricedLines (answer : GetPricesResult) (items : List OrderLine) : List PricedLine :=
  items.map fun item => ⟨item.productId, item.quantity, priceOf answer.prices item.productId⟩

/-- A saved line, its price not `undefined`. -/
def OrderItem.priced (item : OrderItem) : PricedLine :=
  ⟨item.productId, item.quantity, some item.price⟩

section Lines

variable {products : Products} {lines : List OrderLine} {items : List OrderItem}
variable {answer : PricesFor (lines.map OrderLine.productId)}

/-- Behind the check the lines are priced. -/
theorem exists_priceItems (hmissing : answer.missing = []) :
    ∃ items, priceItems lines (.ok answer) = .ok items := by
  rw [priceItems, dif_neg (by simp [hmissing])]
  exact ⟨_, rfl⟩

/-- **Behind the check no price is `undefined`**: the lines `priceItems` returns are the ones
the map builds. -/
theorem pricedLines_of_priceItems (h : priceItems lines (.ok answer) = .ok items) :
    pricedLines answer.toGetPricesResult lines = items.map OrderItem.priced := by
  rw [priceItems] at h
  split at h
  · cases h
  · obtain rfl := Except.ok.inj h
    rw [List.map_pmap, pricedLines, ← List.pmap_eq_map (answer.isSome_priceOf ‹_›)]
    refine List.pmap_congr_left lines fun line _ _ hprice => ?_
    exact congrArg (PricedLine.mk line.productId line.quantity) (Option.some_get hprice).symm

/-- The answer of the catalog for the products of the lines. -/
def pricesOf (products : Products) (lines : List OrderLine) :
    PricesFor (lines.map OrderLine.productId) :=
  answerOf products.rows (lines.map OrderLine.productId)

theorem missing_pricesOf_iff :
    (pricesOf products lines).missing = [] ↔ ∀ line ∈ lines, products.Lists line.productId := by
  refine Catalog.missing_eq_nil_iff.trans ?_
  rw [List.forall_mem_map]
  exact forall₂_congr fun line _ => products.isSome_productOf_iff

/-- **The two services agree**: with every product listed, every line has its price. -/
theorem exists_priceItems_pricesOf (h : ∀ line ∈ lines, products.Lists line.productId) :
    ∃ items, priceItems lines (.ok (pricesOf products lines)) = .ok items :=
  exists_priceItems (missing_pricesOf_iff.mpr h)

/-- A product that is not in the catalog stops the order. -/
theorem listed_of_priceItems (h : priceItems lines (.ok (pricesOf products lines)) = .ok items) :
    ∀ line ∈ lines, products.Lists line.productId := by
  rw [← missing_pricesOf_iff]
  rw [priceItems] at h
  split at h
  · cases h
  · exact List.eq_nil_of_length_eq_zero (Nat.eq_zero_of_not_pos ‹_›)

end Lines

/-! ## The service and its database -/

/-- The tables of order-service. -/
structure Database where
  orders : List Saved
  outbox : List OutboxEvent
deriving DecidableEq

/-- The committed rows, and the rows of the open transaction. -/
structure Session where
  db : Database
  tx : Database

/-- Forget the uncommitted rows. -/
def Session.discard (s : Session) : Session := { s with tx := ⟨[], []⟩ }

/-- An order with its outbox row. -/
def Database.add (db : Database) (saved : Saved) : Database :=
  ⟨db.orders ++ [saved], db.outbox ++ [outboxOf saved]⟩

/-- `catalog.get-prices`, answered by `getPrices` from the rows of the catalog. -/
def askCatalog (products : Products) (productIds : List ProductId) :
    Except String (PricesFor productIds) :=
  match ((Catalog.getPrices productIds false).run
    (fun | .find, s => (.ok products.rows, s)) ()).1 with
  | .ok (.result answer) => .ok answer
  | .ok (.nack _) => .error "timeout"
  | .error message => .error message

theorem askCatalog_eq (products : Products) (lines : List OrderLine) :
    askCatalog products (lines.map OrderLine.productId) = .ok (pricesOf products lines) := rfl

/-- What a call of `createOrder` comes to. `newId` is the id the database gives the order. -/
def perform (products : Products) (newId : OrderId) : (op : Op) → Session →
    Except String (Ans op) × Session
  | .getPrices productIds, s => (askCatalog products productIds, s)
  | .begin, s => (.ok (), s.discard)
  | .saveOrder order, s =>
    (.ok ⟨newId, order⟩, { s with tx := { s.tx with orders := s.tx.orders ++ [⟨newId, order⟩] } })
  | .saveOutbox row, s => (.ok (), { s with tx := { s.tx with outbox := s.tx.outbox ++ [row] } })
  | .commit, s => (.ok (), ⟨⟨s.db.orders ++ s.tx.orders, s.db.outbox ++ s.tx.outbox⟩, ⟨[], []⟩⟩)
  | .rollback, s => (.ok (), s.discard)

/-- The same with the statements rejected where `faults` says so. -/
def performWith (products : Products) (newId : OrderId) (op : Op) :
    Session × List Bool → Except String (Ans op) × (Session × List Bool)
  | (s, faults) =>
    match op, faults with
    | .getPrices productIds, faults => (askCatalog products productIds, (s, faults))
    | _, true :: faults => (.error "statement rejected", (s.discard, faults))
    | op, faults => ((perform products newId op s).1, ((perform products newId op s).2, faults.tail))

/-- Handle a request to completion. -/
def place {X : Type} (products : Products) (newId : OrderId) (faults : List Bool)
    (client : ClientOrder X) (db : Database) : Except String Saved × Database :=
  ((createOrderTx client.dto).run (performWith products newId) (⟨db, ⟨[], []⟩⟩, faults)).map
    id (·.1.db)

section Place

variable {X Y : Type} {products : Products} {newId : OrderId} {db : Database}
variable {dto : CreateOrderDto} {faults : List Bool}

/-- What `createOrder` prices the request at. -/
def priced (products : Products) (dto : CreateOrderDto) : Except String (List OrderItem) :=
  priceItems dto.items (.ok (pricesOf products dto.items))

/-- The order a request becomes. -/
def Becomes (products : Products) (newId : OrderId) (dto : CreateOrderDto) (saved : Saved) : Prop :=
  ∃ items, priced products dto = .ok items ∧ saved = ⟨newId, orderOf dto items⟩

/-- What has been written when a call stands at a point; `calm` is that no statement of it is
rejected. -/
def Stage (products : Products) (newId : OrderId) (dto : CreateOrderDto) (db : Database)
    (calm : Prop) (s : Session) : Pc → Prop
  | .getPrices => s.db = db
  | .begin items => s.db = db ∧ priced products dto = .ok items
  | .saveOrder items => s = ⟨db, ⟨[], []⟩⟩ ∧ priced products dto = .ok items
  | .saveOutbox saved => s = ⟨db, ⟨[saved], []⟩⟩ ∧ Becomes products newId dto saved
  | .commit saved => s = ⟨db, ⟨[saved], [outboxOf saved]⟩⟩ ∧ Becomes products newId dto saved
  | .rollback _ => s.db = db ∧ ¬ calm
  | .returned saved => s.db = db.add saved ∧ Becomes products newId dto saved
  | .thrown message => s.db = db ∧ (calm → priced products dto = .error message)

/-- A rejected statement leads to the end of the transaction. -/
theorem Stage.refused {calm : Prop} (hcalm : ¬ calm) {s : Session} {pc : Pc} {op : Op}
    {next : Except String (Ans op) → Pc} (hop : ∀ ids, op ≠ .getPrices ids)
    (hpt : pc.point dto = .wait op next) (h : Stage products newId dto db calm s pc)
    (message : String) : Stage products newId dto db calm s.discard (next (.error message)) := by
  cases pc with
  | getPrices =>
    cases hpt
    exact absurd rfl (hop _)
  | begin items => cases hpt; exact ⟨h.1, hcalm⟩
  | saveOrder items => cases hpt; exact ⟨congrArg Session.db h.1, hcalm⟩
  | saveOutbox saved => cases hpt; exact ⟨congrArg Session.db h.1, hcalm⟩
  | commit saved => cases hpt; exact ⟨congrArg Session.db h.1, hcalm⟩
  | rollback cause => cases hpt; exact ⟨h.1, fun hc => absurd hc h.2⟩
  | returned saved => cases hpt
  | thrown cause => cases hpt

/-- An answered one is carried out. -/
theorem Stage.answered {calm : Prop} {s : Session} {pc : Pc} {op : Op}
    {next : Except String (Ans op) → Pc} (hpt : pc.point dto = .wait op next)
    (h : Stage products newId dto db calm s pc) :
    Stage products newId dto db calm (perform products newId op s).2
      (next (perform products newId op s).1) := by
  cases pc with
  | getPrices =>
    cases hpt
    change Stage _ _ _ _ _ s (afterPrices dto
      (askCatalog products dto.productIds))
    rw [askCatalog_eq, afterPrices]
    cases hpriced : priceItems dto.items (.ok (pricesOf products dto.items)) with
    | ok items => exact ⟨h, hpriced⟩
    | error message => exact ⟨h, fun _ => hpriced⟩
  | begin items =>
    cases hpt
    exact ⟨congrArg (Session.mk · ⟨[], []⟩) h.1, h.2⟩
  | saveOrder items =>
    cases hpt
    obtain ⟨rfl, hitems⟩ := h
    exact ⟨rfl, items, hitems, rfl⟩
  | saveOutbox saved =>
    cases hpt
    obtain ⟨rfl, hsaved⟩ := h
    exact ⟨rfl, hsaved⟩
  | commit saved =>
    cases hpt
    obtain ⟨rfl, hsaved⟩ := h
    exact ⟨rfl, hsaved⟩
  | rollback cause => cases hpt; exact ⟨h.1, fun hc => absurd hc h.2⟩
  | returned saved => cases hpt
  | thrown cause => cases hpt

/-- One call, answered or rejected. -/
theorem Stage.performWith {calm : Prop} {t : Session × List Bool} {pc : Pc} {op : Op}
    {next : Except String (Ans op) → Pc} (hpt : pc.point dto = .wait op next)
    (h : (calm → t.2 = []) ∧ Stage products newId dto db calm t.1 pc) :
    (calm → (Orders.performWith products newId op t).2.2 = []) ∧
      Stage products newId dto db calm (Orders.performWith products newId op t).2.1
        (next (Orders.performWith products newId op t).1) := by
  obtain ⟨s, faults⟩ := t
  obtain ⟨hcalm, hstage⟩ := h
  have hanswered := hstage.answered hpt
  have htail : calm → faults.tail = [] := fun hc => by
    obtain rfl : faults = [] := hcalm hc
    rfl
  cases op with
  | getPrices productIds => exact ⟨hcalm, hanswered⟩
  | _ =>
    rcases faults with _ | ⟨_ | _, faults⟩
    · exact ⟨htail, hanswered⟩
    · exact ⟨htail, hanswered⟩
    · refine ⟨fun hc => (nomatch hcalm hc), hstage.refused (fun hc => ?_) (fun ids => ?_) hpt _⟩
      · exact nomatch hcalm hc
      · exact nofun

/-- **An order is written whole or not at all**, whatever statements are rejected; and where none
is, only its pricing stops it. -/
theorem place_cases (products : Products) (newId : OrderId) (db : Database) (faults : List Bool)
    (client : ClientOrder X) :
    (∃ saved, place products newId faults client db = (.ok saved, db.add saved) ∧
        Becomes products newId client.dto saved) ∨
      ∃ message, place products newId faults client db = (.error message, db) ∧
        (faults = [] → priced products client.dto = .error message) := by
  obtain ⟨pc, hstop, -, hstage⟩ := (laysOut client.dto).run_invariant
    (Orders.performWith products newId)
    (fun pc t => (faults = [] → t.2 = []) ∧
      Stage products newId client.dto db (faults = []) t.1 pc)
    (fun pc t op next hpt h => Stage.performWith hpt h)
    .getPrices (⟨db, ⟨[], []⟩⟩, faults) ⟨id, rfl⟩
  have hcode : Pc.code client.dto .getPrices = createOrderTx client.dto := rfl
  rw [hcode] at hstop hstage
  rw [place]
  generalize (createOrderTx client.dto).run (Orders.performWith products newId)
    (⟨db, ⟨[], []⟩⟩, faults) = ran at hstop hstage ⊢
  obtain ⟨result, s, left⟩ := ran
  cases pc with
  | returned saved =>
    obtain rfl : .ok saved = result := Point.stop.inj hstop
    exact .inl ⟨saved, congrArg (Prod.mk _) hstage.1, hstage.2⟩
  | thrown message =>
    obtain rfl : .error message = result := Point.stop.inj hstop
    exact .inr ⟨message, congrArg (Prod.mk _) hstage.1, hstage.2⟩
  | _ => cases hstop

/-- What a request becomes, the catalog lists. -/
theorem Becomes.listed {saved : Saved} (h : Becomes products newId dto saved) :
    ∀ line ∈ dto.items, products.Lists line.productId := by
  obtain ⟨items, hitems, -⟩ := h
  exact listed_of_priceItems hitems

/-- Requests that differ only in other fields are read alike. -/
theorem Alike.dto_eq {client : ClientOrder X} {client' : ClientOrder Y} (h : Alike client client') :
    client.dto = client'.dto := by
  rw [ClientOrder.dto, ClientOrder.dto, h.customer, CreateOrderDto.mk.injEq]
  refine ⟨rfl, ?_⟩
  have hlines := h.lines
  generalize client.items = lines at hlines
  generalize client'.items = lines' at hlines
  induction hlines with
  | nil => rfl
  | cons hline _ ih =>
    rw [List.map_cons, List.map_cons, ih]
    exact congrArg (· :: _) (congrArg₂ OrderLine.mk hline.1 hline.2)

end Place

/-! ## End to end -/

/-- **The order of a request**: its lines, in their order, at the catalog's prices. -/
structure OrderOf {X : Type} (products : Products) (client : ClientOrder X) (order : Order) :
    Prop where
  customer : order.customerId = client.customerId
  lines : order.items.map (fun item => (item.productId, item.quantity)) =
    client.items.map fun line => (line.productId, line.quantity)
  prices : ∀ item ∈ order.items, ⟨item.productId, item.price⟩ ∈ products.rows
  /-- No price that `priceItems` maps a line to is `undefined`. -/
  defined : pricedLines (pricesOf products client.dto.items).toGetPricesResult client.dto.items =
    order.items.map OrderItem.priced
  total : order.total = (order.items.map fun item => item.price * item.quantity).sum

/-- **What `createOrder` does with a request.** -/
structure PricedEndToEnd {X : Type} (products : Products) (newId : OrderId) (db : Database)
    (client : ClientOrder X) : Prop where
  /-- With no statement rejected, it persists an order if and only if the catalog has every
  product. -/
  persists_iff : (∃ saved, (place products newId [] client db).1 = .ok saved) ↔
    ∀ line ∈ client.items, products.Lists line.productId
  /-- What it persists. -/
  saved : ∀ faults saved, (place products newId faults client db).1 = .ok saved →
    saved.id = newId ∧ OrderOf products client saved.order ∧
      (place products newId faults client db).2 = db.add saved
  /-- In every other case it rejects and writes nothing. -/
  rejects : ∀ faults message, (place products newId faults client db).1 = .error message →
    (place products newId faults client db).2 = db
  /-- Other fields of the request do not matter. -/
  alike : ∀ (Y : Type) (client' : ClientOrder Y), Alike client client' → ∀ faults,
    place products newId faults client' db = place products newId faults client db

/-- A saved order is the order of its request. -/
theorem orderOf_of_becomes {X : Type} {products : Products} {newId : OrderId}
    {client : ClientOrder X} {saved : Saved} (h : Becomes products newId client.dto saved) :
    OrderOf products client saved.order := by
  obtain ⟨items, hitems, rfl⟩ := h
  have hdefined := pricedLines_of_priceItems hitems
  have hlines : (client.dto.items.map fun line => (line.productId, line.quantity)) =
      items.map fun item => (item.productId, item.quantity) := by
    have hread :=
      congrArg (List.map fun line : PricedLine => (line.productId, line.quantity)) hdefined
    rw [pricedLines, List.map_map, List.map_map] at hread
    exact hread
  refine ⟨rfl, ?_, fun item hitem => ?_, hdefined, totalOf_eq_sum items⟩
  · refine hlines.symm.trans ?_
    rw [ClientOrder.dto, List.map_map]
    rfl
  · -- The entry the line was priced with is a row of the catalog.
    obtain ⟨answer, hanswer, hprices⟩ := priceOf_of_priceItems hitems
    obtain rfl := Except.ok.inj hanswer
    have hprice := hprices item hitem
    have hmem : (item.productId, item.quantity) ∈
        client.dto.items.map fun line => (line.productId, line.quantity) := by
      rw [hlines]
      exact List.mem_map_of_mem hitem
    obtain ⟨line, hline, heq⟩ := List.mem_map.mp hmem
    have hid : item.productId ∈ client.dto.items.map OrderLine.productId :=
      List.mem_map.mpr ⟨line, hline, congrArg Prod.fst heq⟩
    obtain ⟨product, hproduct, hrow⟩ := Option.map_eq_some_iff.mp
      ((Catalog.priceOf_priceAll hid).symm.trans hprice)
    obtain ⟨hmem, hname⟩ := products.productOf_eq_some_iff.mp hproduct
    rwa [← hname, ← hrow]

/-- **Pricing, end to end.** -/
theorem priced_end_to_end {X : Type} (products : Products) (newId : OrderId) (db : Database)
    (client : ClientOrder X) : PricedEndToEnd products newId db client := by
  refine ⟨⟨fun ⟨saved, hsaved⟩ => ?_, fun hlisted => ?_⟩, fun faults saved hsaved => ?_,
    fun faults message hmessage => ?_, fun Y client' halike faults => ?_⟩
  · rcases place_cases products newId db [] client with
      ⟨_, -, hbecomes⟩ | ⟨_, hplace, -⟩
    · exact fun line hline => hbecomes.listed _ (List.mem_map_of_mem hline)
    · rw [hplace] at hsaved
      cases hsaved
  · rcases place_cases products newId db [] client with
      ⟨saved, hplace, -⟩ | ⟨_, -, hpriced⟩
    · exact ⟨saved, by rw [hplace]⟩
    · have hlines : ∀ line ∈ client.dto.items, products.Lists line.productId :=
        List.forall_mem_map.mpr hlisted
      obtain ⟨items, hitems⟩ := exists_priceItems_pricesOf hlines
      exact nomatch hitems.symm.trans (hpriced rfl)
  · rcases place_cases products newId db faults client with
      ⟨saved', hplace, hbecomes⟩ | ⟨_, hplace, -⟩
    · rw [hplace] at hsaved ⊢
      obtain rfl := Except.ok.inj hsaved
      exact ⟨by obtain ⟨_, _, rfl⟩ := hbecomes; rfl, orderOf_of_becomes hbecomes, rfl⟩
    · rw [hplace] at hsaved
      cases hsaved
  · rcases place_cases products newId db faults client with
      ⟨_, hplace, -⟩ | ⟨_, hplace, -⟩
    · rw [hplace] at hmessage
      cases hmessage
    · rw [hplace]
  · rw [place, place, halike.dto_eq]

end Orders

end Ecommerce
