import Ecommerce.Auth.Model
import Ecommerce.Catalog.Model
/-!
# Catalog-service — the products

`create`, `findAll` and `findOne` side by side over the table of products.
A body may carry more than `CreateProductDto` declares, and what is a
column gets into the entity: with an `id` of its own, `save` looks for a
row to update. `Listed` is what can be relied on where no body does that:
a product stays as it was registered.
-/

namespace Ecommerce

namespace Catalog

open Auth (Failure)

/-! ## Data -/

/-- A row of `products`, with all its columns. -/
structure Row where
  id : String
  productId : ProductId
  name : String
  price : ℚ
  description : Option String
  createdAt : ℕ
deriving DecidableEq

/-- What `getPrices` reads of it. -/
def Row.product (row : Row) : Product := ⟨row.productId, row.price⟩

/-- The rows of `products`; `id` and `productId` are unique columns. -/
structure Rows where
  rows : List Row
  productIds : (rows.map Row.productId).Nodup
  ids : (rows.map Row.id).Nodup

/-- The body of `POST /products`; the two columns it should not have come first. -/
structure CreateProductDto where
  id : Option String
  createdAt : Option ℕ
  productId : ProductId
  name : String
  price : ℚ
  description : Option String
deriving DecidableEq

/-- The columns an `UPDATE` sets. -/
structure Changes where
  createdAt : Option ℕ
  productId : Option ProductId
  name : Option String
  price : Option ℚ
  description : Option (Option String)
deriving DecidableEq

/-- `some new` if the entity has the column and it is not what is stored. -/
def changed {α : Type} [DecidableEq α] (entity : Option α) (stored : α) : Option α :=
  entity.bind fun new => if new = stored then none else some new

/-- What an entity would change in a row. -/
def CreateProductDto.changes (dto : CreateProductDto) (row : Row) : Changes where
  createdAt := changed dto.createdAt row.createdAt
  productId := changed (some dto.productId) row.productId
  name := changed (some dto.name) row.name
  price := changed (some dto.price) row.price
  description := changed (dto.description.map some) row.description

def Changes.apply (changes : Changes) (row : Row) : Row where
  id := row.id
  productId := changes.productId.getD row.productId
  name := changes.name.getD row.name
  price := changes.price.getD row.price
  description := changes.description.getD row.description
  createdAt := changes.createdAt.getD row.createdAt

/-- The row an entity is inserted as. -/
def CreateProductDto.row (dto : CreateProductDto) (id : String) (now : ℕ) : Row where
  id := dto.id.getD id
  productId := dto.productId
  name := dto.name
  price := dto.price
  description := dto.description
  createdAt := dto.createdAt.getD now

namespace Rows

def empty : Rows := ⟨[], List.nodup_nil, List.nodup_nil⟩

/-- The products of the rows. -/
def products (rows : Rows) : Products where
  rows := rows.rows.map Row.product
  unique := by
    rw [List.map_map]
    exact rows.productIds

/-- `INSERT`: a constraint rejects a second row of a product or of an id. -/
def insert (rows : Rows) (row : Row) : Option Rows :=
  if h : row.productId ∉ rows.rows.map Row.productId ∧ row.id ∉ rows.rows.map Row.id then
    some ⟨row :: rows.rows, List.nodup_cons.mpr ⟨h.1, rows.productIds⟩,
      List.nodup_cons.mpr ⟨h.2, rows.ids⟩⟩
  else none

/-- The rows with one of them changed. -/
def replaced (rows : List Row) (id : String) (changes : Changes) : List Row :=
  rows.map fun row => if row.id = id then changes.apply row else row

theorem ids_replaced (rows : List Row) (id : String) (changes : Changes) :
    (replaced rows id changes).map Row.id = rows.map Row.id := by
  rw [replaced, List.map_map]
  refine List.map_congr_left fun row _ => ?_
  rw [Function.comp_apply]
  split <;> rfl

/-- `UPDATE .. WHERE id = ..`: the constraint rejects a second row of a product. -/
def update (rows : Rows) (id : String) (changes : Changes) : Option Rows :=
  if h : ((replaced rows.rows id changes).map Row.productId).Nodup then
    some ⟨replaced rows.rows id changes, h, ids_replaced rows.rows id changes ▸ rows.ids⟩
  else none

theorem rows_of_insert {rows rows' : Rows} {row : Row} (h : rows.insert row = some rows') :
    rows'.rows = row :: rows.rows := by
  unfold insert at h
  split at h
  · obtain rfl := Option.some.inj h
    rfl
  · cases h

/-- **A row is what `getPrices` finds for its product.** -/
theorem productOf_eq (rows : Rows) {row : Row} (hrow : row ∈ rows.rows) :
    productOf (rows.rows.map Row.product) row.productId = some row.product :=
  rows.products.productOf_eq_some_iff.mpr ⟨List.mem_map_of_mem hrow, rfl⟩

/-- And only a row is found. -/
theorem exists_of_productOf {rows : List Row} {id : ProductId} {product : Product}
    (h : productOf (rows.map Row.product) id = some product) :
    ∃ row ∈ rows, row.productId = id ∧ row.price = product.price := by
  have hmem := List.mem_reverse.mp (List.mem_of_find?_eq_some h)
  have heq : product.productId = id := by simpa using List.find?_some h
  obtain ⟨row, hrow, rfl⟩ := List.mem_map.mp hmem
  exact ⟨row, hrow, heq, rfl⟩

end Rows

/-! ## The handlers -/

namespace Service

/-- What they await. -/
inductive Op
  /-- `productRepository.find()` -/
  | find
  /-- `findOne({ where: { id } })` -/
  | findById (id : String)
  /-- `findOne({ where: { productId } })` -/
  | findByProductId (productId : ProductId)
  /-- `INSERT` of an entity. -/
  | insert (dto : CreateProductDto)
  /-- `UPDATE` of the row of an id. -/
  | update (id : String) (changes : Changes)
deriving DecidableEq

/-- What each of them resolves to. -/
@[reducible]
def Ans : Op → Type
  | .find => List Row
  | .findById _ => Option Row
  | .findByProductId _ => Option Row
  | .insert _ => Row
  | .update _ _ => Unit

/-- A computation of the service; it throws an exception. -/
abbrev Prog := Program Op Ans Failure

/-- Await one of them. -/
abbrev query (op : Op) : Prog (Ans op) := Program.await op

/-- What a request is answered with. -/
inductive Reply
  | product (row : Row)
  | products (rows : List Row)
  /-- The entity that a row was updated with. -/
  | updated (dto : CreateProductDto)
deriving DecidableEq

/-- `productRepository.save(productRepository.create(dto))`. -/
def save (dto : CreateProductDto) : Prog Reply := do
  let stored ← match dto.id with
    | some id => query (.findById id)
    | none => pure none
  match stored with
  | some row =>
    query (.update row.id (dto.changes row))
    pure (.updated dto)
  | none =>
    let row ← query (.insert dto)
    pure (.product row)

/-- `CatalogService.create`. -/
def create (dto : CreateProductDto) : Prog Reply := do
  let existing ← query (.findByProductId dto.productId)
  if existing.isSome then
    throw (.conflict ("Product " ++ dto.productId ++ " already registered"))
  else save dto

/-- `CatalogService.findAll`. -/
def findAll : Prog Reply := do
  let products ← query .find
  pure (.products products)

/-- `CatalogController.findOne`. -/
def findOne (id : String) : Prog Reply := do
  let product ← query (.findById id)
  match product with
  | some product => pure (.product product)
  | none => throw (.notFound ("Product " ++ id ++ " not found"))

/-- The requests. -/
inductive Request
  /-- `POST /products`, which the guard has let pass. -/
  | create (dto : CreateProductDto)
  /-- `GET /products` -/
  | findAll
  /-- `GET /products/:id` -/
  | findOne (id : String)
deriving DecidableEq

def Request.handler : Request → Prog Reply
  | .create dto => Service.create dto
  | .findAll => Service.findAll
  | .findOne id => Service.findOne id

/-! ## The service -/

/-- What the requests share: the table and the clock. `registered` only records which request
has inserted which row. -/
structure Shared where
  products : Rows
  now : ℕ
  registered : List (ℕ × Row)

/-- How an awaited call comes out. -/
inductive Choice
  | go
  /-- The database draws an id. -/
  | insert (id : String)
  /-- What was written is committed, but the answer is lost. -/
  | lose (id message : String)
  /-- The call fails, and has done nothing. -/
  | fail (message : String)
deriving DecidableEq

def Shared.insert (s : Shared) (i : ℕ) (row : Row) : Option Shared :=
  (s.products.insert row).map fun products =>
    { s with products := products, registered := (i, row) :: s.registered }

def Shared.update (s : Shared) (id : String) (changes : Changes) : Option Shared :=
  (s.products.update id changes).map fun products => { s with products := products }

/-- A statement that has committed, or that a constraint has rejected. -/
def committed {α : Type} (s : Shared) (answer : α) : Option Shared → Except Failure α × Shared
  | some s' => (.ok answer, s')
  | none => (.error (.internal "duplicate key value violates unique constraint"), s)

/-- What an awaited call comes to. -/
def perform (i : ℕ) (_ : Request) :
    Choice → (op : Op) → Shared → Option (Except Failure (Ans op) × Shared)
  | .fail message, _, s => some (.error (.internal message), s)
  | .go, .find, s => some (.ok s.products.rows, s)
  | .go, .findById id, s => some (.ok (findBy Row.id s.products.rows id), s)
  | .go, .findByProductId id, s => some (.ok (findBy Row.productId s.products.rows id), s)
  | .insert id, .insert dto, s =>
    some (committed s (dto.row id s.now) (s.insert i (dto.row id s.now)))
  | .lose id message, .insert dto, s =>
    (s.insert i (dto.row id s.now)).map fun s' => (.error (.internal message), s')
  | .go, .update id changes, s => some (committed s () (s.update id changes))
  | .lose _ message, .update id changes, s =>
    (s.update id changes).map fun s' => (.error (.internal message), s')
  | _, _, _ => none

/-- The service; the clock goes on by itself. -/
def host : Host Op Ans Failure Reply Shared Request Choice ℕ where
  handler := Request.handler
  perform := perform
  drift seconds s := some { s with now := s.now + seconds }

/-- The states of a run. -/
abbrev State := Host.State Op Ans Failure Reply Shared Request

abbrev Move := Host.Move Request Choice ℕ

/-- Before the first request: no products. -/
structure Opens (s : State) : Prop where
  rows : s.shared.products.rows = []
  registered : s.shared.registered = []
  threads : s.threads = []

/-- No body carries an id of its own. -/
def Declared : Move → Prop
  | .arrive (.create dto) => dto.id = none
  | _ => True

end Service

end Catalog

end Ecommerce
