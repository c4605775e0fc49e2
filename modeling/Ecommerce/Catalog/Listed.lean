import Ecommerce.Catalog.Service
/-!
# Products as they were registered

Where no body carries an id of its own, rows are only inserted: a product
is registered once, stays as its registration made it, and is shown to
every request that arrives later (`listed_of_reach`), in every
interleaving and whichever statements fail. With such a body `save` turns
into an `UPDATE`, and a product can change (`not_listed_of_id`).
-/

namespace Ecommerce

namespace Catalog

namespace Service

open Auth (Failure eq_of_told internal_of_told)

variable {s s' since : Shared} {i : ℕ} {req : Request} {op : Op}

/-! ## Calls -/

/-- What a call comes to. -/
inductive Answers (i : ℕ) (s : Shared) : (op : Op) → Except Failure (Ans op) → Shared → Prop
  /-- It fails, or a constraint rejects it. -/
  | fails (op : Op) (message : String) : Answers i s op (.error (.internal message)) s
  | finds : Answers i s .find (.ok s.products.rows) s
  | findsId (id : String) :
      Answers i s (.findById id) (.ok (findBy Row.id s.products.rows id)) s
  | findsProduct (id : ProductId) :
      Answers i s (.findByProductId id) (.ok (findBy Row.productId s.products.rows id)) s
  /-- The row is committed, and its handler is told so or not. -/
  | inserts (dto : CreateProductDto) (id : String) (r : Except Failure Row) (s' : Shared)
      (hinsert : s.insert i (dto.row id s.now) = some s')
      (hr : r = .ok (dto.row id s.now) ∨ ∃ message, r = .error (.internal message)) :
      Answers i s (.insert dto) r s'
  | updates (id : String) (changes : Changes) (r : Except Failure Unit) (s' : Shared)
      (hupdate : s.update id changes = some s') : Answers i s (.update id changes) r s'

theorem answers_of_perform (req : Request) {c : Choice} {r : Except Failure (Ans op)}
    (h : perform i req c op s = some (r, s')) : Answers i s op r s' := by
  cases c with
  | fail message => cases op <;> cases h <;> exact .fails _ message
  | go =>
    cases op with
    | find => cases h; exact .finds
    | findById id => cases h; exact .findsId id
    | findByProductId id => cases h; exact .findsProduct id
    | update id changes =>
      have hcommitted := Option.some.inj h
      unfold committed at hcommitted
      split at hcommitted
      · obtain ⟨rfl, rfl⟩ := Prod.mk.inj hcommitted
        exact .updates id changes _ _ ‹_›
      · obtain ⟨rfl, rfl⟩ := Prod.mk.inj hcommitted
        exact .fails _ _
    | insert dto => cases h
  | insert id =>
    cases op with
    | insert dto =>
      have hcommitted := Option.some.inj h
      unfold committed at hcommitted
      split at hcommitted
      · obtain ⟨rfl, rfl⟩ := Prod.mk.inj hcommitted
        exact .inserts dto id _ _ ‹_› (.inl rfl)
      · obtain ⟨rfl, rfl⟩ := Prod.mk.inj hcommitted
        exact .fails _ _
    | _ => cases h
  | lose id message =>
    cases op with
    | insert dto =>
      obtain ⟨s₁, hinsert, heq⟩ := Option.map_eq_some_iff.mp h
      cases heq
      exact .inserts dto id _ _ hinsert (.inr ⟨message, rfl⟩)
    | update id' changes =>
      obtain ⟨s₁, hupdate, heq⟩ := Option.map_eq_some_iff.mp h
      cases heq
      exact .updates id' changes _ _ hupdate
    | _ => cases h

/-! ## What is kept -/

/-- Rows are only added. -/
structure Grows (s s' : Shared) : Prop where
  rows : ∀ row ∈ s.products.rows, row ∈ s'.products.rows
  registered : ∀ entry ∈ s.registered, entry ∈ s'.registered

/-- Every row is one that was inserted. -/
def Recorded (s : Shared) : Prop := s.registered.map Prod.snd = s.products.rows

/-- What every request relies on the others for. -/
abbrev Keeps : Shared → Shared → Prop := Host.Keeping Grows Recorded

theorem Grows.refl (s : Shared) : Grows s s := ⟨fun _ h => h, fun _ h => h⟩

theorem Grows.trans (a b c : Shared) (h : Grows a b) (h' : Grows b c) : Grows a c :=
  ⟨fun row hrow => h'.rows row (h.rows row hrow),
    fun entry he => h'.registered entry (h.registered entry he)⟩

theorem keeps_of_insert {row : Row} (h : s.insert i row = some s') : Keeps s s' := by
  obtain ⟨products, hinsert, rfl⟩ := Option.map_eq_some_iff.mp h
  have hrows := Rows.rows_of_insert hinsert
  refine ⟨⟨fun old hold => hrows ▸ List.mem_cons_of_mem _ hold,
    fun _ => List.mem_cons_of_mem _⟩, fun hrec => ?_⟩
  change row :: s.registered.map Prod.snd = products.rows
  rw [hrec, hrows]

/-- **Every call but an `UPDATE` keeps them.** -/
theorem keeps_of_answers {r : Except Failure (Ans op)} (hop : ∀ id changes, op ≠ .update id changes)
    (h : Answers i s op r s') : Keeps s s' := by
  cases h with
  | inserts dto id r s' hinsert => exact keeps_of_insert hinsert
  | updates id changes => exact absurd rfl (hop id changes)
  | _ => exact Host.Keeping.refl Grows.refl s

/-- One registration a product. -/
theorem Recorded.eq_of_productId (h : Recorded s) {entry entry' : ℕ × Row}
    (he : entry ∈ s.registered) (he' : entry' ∈ s.registered)
    (heq : entry.2.productId = entry'.2.productId) : entry = entry' := by
  have hdistinct : (s.registered.map fun entry => entry.2.productId).Nodup := by
    have hids := s.products.productIds
    rwa [← h, List.map_map] at hids
  exact eq_of_column hdistinct he he' heq

theorem Recorded.mem_rows (h : Recorded s) {entry : ℕ × Row} (he : entry ∈ s.registered) :
    entry.2 ∈ s.products.rows := by
  rw [← h]
  exact List.mem_map_of_mem he

/-! ## The judgement on each handler -/

section Handlers

variable {α : Type} {post : Except Failure α → Shared → Prop}

/-- A handler ends as `post` says, whatever the others do and its calls come to. -/
abbrev Respects (i : ℕ) (req : Request) (p : Prog α) (post : Except Failure α → Shared → Prop)
    (s : Shared) : Prop :=
  p.Respects (host.answers i req) Keeps Keeps post s

/-- An awaited call, read through `Answers`. -/
theorem Respects.awaits {f : Ans op → Prog α} (hop : ∀ id changes, op ≠ .update id changes)
    (hok : ∀ s₁ a s₂, Keeps s s₁ → Answers i s₁ op (.ok a) s₂ → Respects i req (f a) post s₂)
    (herror : ∀ s₁ e s₂ t, Answers i s₁ op (.error e) s₂ → Keeps s₂ t → post (.error e) t) :
    Respects i req (query op >>= f) post s := by
  refine Program.Respects.awaited fun s₁ r s₂ hrely ⟨c, hperform⟩ => ?_
  have hans := answers_of_perform req hperform
  refine ⟨keeps_of_answers hop hans, fun a ha => ?_, fun e he t ht => ?_⟩
  · subst ha
    exact hok s₁ a s₂ hrely hans
  · subst he
    exact herror s₁ e s₂ t hans ht

/-- How a registration ends: with a row of its own, or because the product is there. -/
structure CreateEnds (i : ℕ) (dto : CreateProductDto) (r : Except Failure Reply) (s : Shared) :
    Prop where
  created : ∀ reply, r = .ok reply → ∃ id now, (i, dto.row id now) ∈ s.registered ∧
    reply = .product (dto.row id now)
  taken : ∀ message, r = .error (.conflict message) →
    ∃ row ∈ s.products.rows, row.productId = dto.productId

theorem CreateEnds.internal {dto : CreateProductDto} (message : String) (s : Shared) :
    CreateEnds i dto (.error (.internal message)) s :=
  ⟨fun _ h => (by cases h), fun _ h => (by cases h)⟩

theorem respects_insert (dto : CreateProductDto) (s : Shared) :
    Respects i req (do let row ← query (.insert dto); pure (.product row)) (CreateEnds i dto)
      s := by
  refine Respects.awaits (fun _ _ h => (by cases h)) (fun s₁ row s₂ _ hans => ?_)
    fun s₁ e s₂ t hans _ => ?_
  · cases hans with
    | inserts dto id r s' hinsert hr =>
      obtain ⟨products, -, rfl⟩ := Option.map_eq_some_iff.mp hinsert
      obtain rfl : row = dto.row id s₁.now := eq_of_told hr
      refine Program.Respects.returned fun t ht =>
        ⟨fun reply hreply => ?_, fun _ h => (by cases h)⟩
      obtain rfl := Except.ok.inj hreply
      exact ⟨id, s₁.now, ht.1.registered _ (List.mem_cons_self ..), rfl⟩
  · cases hans with
    | fails op message => exact .internal message t
    | inserts dto id r s' hinsert hr =>
      obtain ⟨message, rfl⟩ := internal_of_told hr
      exact .internal message t

theorem respects_create {dto : CreateProductDto} (hdto : dto.id = none) (s : Shared) :
    Respects i req (create dto) (CreateEnds i dto) s := by
  refine Respects.awaits (fun _ _ h => (by cases h)) (fun s₁ existing s₂ _ hfind => ?_)
    fun s₁ e s₂ t hans _ => ?_
  · cases hfind
    split
    · rename_i hsome
      obtain ⟨row, hrow⟩ := Option.isSome_iff_exists.mp hsome
      obtain ⟨hmem, hproduct⟩ := mem_of_findBy hrow
      exact Program.Respects.thrown fun t ht =>
        ⟨fun _ h => (by cases h), fun _ _ => ⟨row, ht.1.rows row hmem, hproduct⟩⟩
    · -- Without an id of its own the entity is inserted.
      rw [save, hdto]
      exact respects_insert dto s₁
  · cases hans with
    | fails op message => exact .internal message t

/-- How the reading of a product ends. -/
structure FindEnds (id : String) (since : Shared) (r : Except Failure Reply) (s : Shared) :
    Prop where
  found : ∀ reply, r = .ok reply → ∃ row ∈ s.products.rows, row.id = id ∧ reply = .product row
  missed : ∀ e, r = .error e → (∃ message, e = .internal message) ∨
    ∀ row ∈ since.products.rows, row.id ≠ id

theorem respects_findOne (id : String) (s : Shared) :
    Respects i req (findOne id) (FindEnds id s) s := by
  refine Respects.awaits (fun _ _ h => (by cases h)) (fun s₁ found s₂ hsince hfind => ?_)
    fun s₁ e s₂ t hans _ => ?_
  · cases hfind with
    | findsId id =>
      cases hrow : findBy Row.id s₁.products.rows id with
      | none =>
        refine Program.Respects.thrown fun t _ =>
          ⟨fun _ h => (by cases h), fun _ _ => .inr fun row hold heq => ?_⟩
        exact findBy_eq_none_iff.mp hrow (heq ▸ List.mem_map_of_mem (hsince.1.rows row hold))
      | some row =>
        obtain ⟨hmem, hid⟩ := mem_of_findBy hrow
        refine Program.Respects.returned fun t ht =>
          ⟨fun reply hreply => ?_, fun _ h => (by cases h)⟩
        obtain rfl := Except.ok.inj hreply
        exact ⟨row, ht.1.rows row hmem, hid, rfl⟩
  · cases hans with
    | fails op message =>
      exact ⟨fun _ h => (by cases h), fun _ h => .inl ⟨message, (Except.error.inj h).symm⟩⟩

/-- How the reading of all products ends. -/
def AllEnds (since : Shared) (r : Except Failure Reply) (s : Shared) : Prop :=
  ∀ reply, r = .ok reply → ∃ rows, reply = .products rows ∧
    (∀ row ∈ since.products.rows, row ∈ rows) ∧ ∀ row ∈ rows, row ∈ s.products.rows

theorem respects_findAll (s : Shared) : Respects i req findAll (AllEnds s) s := by
  refine Respects.awaits (fun _ _ h => (by cases h)) (fun s₁ rows s₂ hsince hfind => ?_)
    fun s₁ e s₂ t _ _ => fun _ h => (by cases h)
  cases hfind with
  | finds =>
    refine Program.Respects.returned fun t ht reply hreply => ?_
    obtain rfl := Except.ok.inj hreply
    exact ⟨s₁.products.rows, rfl, hsince.1.rows, ht.1.rows⟩

end Handlers

/-! ## Every interleaving -/

/-- How each request ends. -/
def Ends (i : ℕ) (since : Shared) (r : Except Failure Reply) (s : Shared) : Request → Prop
  | .create dto => CreateEnds i dto r s
  | .findAll => AllEnds since r s
  | .findOne id => FindEnds id since r s

/-- **Every request is judged**, where no body carries an id of its own. -/
theorem judged : Host.Judged host Opens (fun _ m => Declared m) Grows Recorded
    fun i req since r s => Ends i since r s req where
  refl := Grows.refl
  trans := Grows.trans
  opens s hopens := by
    refine ⟨?_, hopens.threads⟩
    rw [Recorded, hopens.registered, hopens.rows, List.map_nil]
  drifts s seconds shared hdrift := by
    obtain rfl := Option.some.inj hdrift
    exact ⟨⟨fun _ h => h, fun _ h => h⟩, id⟩
  handles s i req hdeclared := by
    cases req with
    | create dto => exact respects_create hdeclared s.shared
    | findAll => exact respects_findAll s.shared
    | findOne id => exact respects_findOne id s.shared

/-- **A product is what its registration has made it**, to whoever asks. -/
structure Listed (s : State) : Prop where
  /-- Two registrations of a product do not both succeed. -/
  once : ∀ i j dto dto' since since' reply reply', s.Answered i (.create dto) since (.ok reply) →
    s.Answered j (.create dto') since' (.ok reply') → dto.productId = dto'.productId → i = j
  /-- The row a registration has returned is there, as its body says. -/
  kept : ∀ i dto since reply, s.Answered i (.create dto) since (.ok reply) →
    ∃ id now, dto.row id now ∈ s.shared.products.rows ∧ reply = .product (dto.row id now)
  /-- A registration is turned down only if the product has a row. -/
  taken : ∀ i dto since message, s.Answered i (.create dto) since (.error (.conflict message)) →
    ∃ row ∈ s.shared.products.rows, row.productId = dto.productId
  /-- Whoever asks for a row that was there gets it. -/
  shown : ∀ i row since r, s.Answered i (.findOne row.id) since r →
    row ∈ since.products.rows → (∃ message, r = .error (.internal message)) ∨ r = .ok (.product row)
  /-- And so does whoever asks for all of them. -/
  listed : ∀ i row since reply, s.Answered i .findAll since (.ok reply) →
    row ∈ since.products.rows → ∃ rows, reply = .products rows ∧ row ∈ rows

/-- **Products stay as they were registered**, in every interleaving of requests and
whichever of their statements fail, where no body carries an id of its own. -/
theorem listed_of_reach {s : State} (h : Reach host.step Opens (fun _ m => Declared m) s) :
    Listed s := by
  obtain ⟨hrec, hends⟩ := judged.ended_of_reach h
  have hcreated : ∀ {i dto since reply}, s.Answered i (.create dto) since (.ok reply) →
      ∃ id now, (i, dto.row id now) ∈ s.shared.registered ∧ reply = .product (dto.row id now) :=
    fun hans => CreateEnds.created (hends _ _ _ _ hans).2.2 _ rfl
  refine ⟨fun i j dto dto' since since' reply reply' hi hj heq => ?_,
    fun i dto since reply hi => ?_, fun i dto since message hi => ?_,
    fun i row since r hi hrow => ?_, fun i row since reply hi hrow => ?_⟩
  · obtain ⟨id, now, he, -⟩ := hcreated hi
    obtain ⟨id', now', he', -⟩ := hcreated hj
    exact congrArg Prod.fst (hrec.eq_of_productId he he' heq)
  · obtain ⟨id, now, he, hreply⟩ := hcreated hi
    exact ⟨id, now, hrec.mem_rows he, hreply⟩
  · exact CreateEnds.taken (hends _ _ _ _ hi).2.2 message rfl
  · obtain ⟨-, hgrows, hend⟩ := hends _ _ _ _ hi
    cases r with
    | error e =>
      rcases FindEnds.missed hend e rfl with ⟨message, rfl⟩ | hnone
      · exact .inl ⟨message, rfl⟩
      · exact absurd rfl (hnone row hrow)
    | ok reply =>
      obtain ⟨row', hrow', hid, rfl⟩ := FindEnds.found hend reply rfl
      obtain rfl := eq_of_column s.shared.products.ids hrow' (hgrows.rows row hrow) hid
      exact .inr rfl
  · obtain ⟨-, -, hend⟩ := hends _ _ _ _ hi
    obtain ⟨rows, hreply, hsince, -⟩ := hend reply rfl
    exact ⟨rows, hreply, hsince row hrow⟩

/-! ## Runs -/

instance (m : Move) : Decidable (Declared m) := by
  unfold Declared
  split <;> infer_instance

def emptyCatalog : State := ⟨⟨.empty, 0, []⟩, []⟩

theorem opens_emptyCatalog : Opens emptyCatalog := ⟨rfl, rfl, rfl⟩

/-- The body of a product at a price. -/
def bodyOf (id : Option String) (productId : ProductId) (price : ℚ) : CreateProductDto :=
  ⟨id, none, productId, "name", price, none⟩

/-- Two registrations of a product side by side, and a reader of the one that was faster. -/
theorem listed_of_race :
    ∃ s, Reach host.step Opens (fun _ m => Declared m) s ∧
      (∃ since message, s.Answered 0 (.create (bodyOf none "p" 5)) since
        (.error (.internal message))) ∧
      (∃ since, s.Answered 1 (.create (bodyOf none "p" 7)) since
        (.ok (.product ⟨"u1", "p", "name", 7, none, 0⟩))) ∧
      (∃ since, s.Answered 2 (.findOne "u1") since
        (.ok (.product ⟨"u1", "p", "name", 7, none, 0⟩))) ∧ Listed s := by
  obtain ⟨s, hreach, hs⟩ := Reach.exists_of_follow host.step Opens (fun _ m => Declared m)
    opens_emptyCatalog
    [.arrive (.create (bodyOf none "p" 5)), .arrive (.create (bodyOf none "p" 7)), .go 0 .go,
      .go 1 .go, .go 1 (.insert "u1"), .go 0 (.insert "u2"), .arrive (.findOne "u1"), .go 2 .go]
    (fun s => (s.hasAnswered 0 fun req _ r => req = .create (bodyOf none "p" 5) &&
        r = .error (.internal "duplicate key value violates unique constraint")) &&
      (s.hasAnswered 1 fun req _ r => req = .create (bodyOf none "p" 7) &&
        r = .ok (.product ⟨"u1", "p", "name", 7, none, 0⟩)) &&
      s.hasAnswered 2 fun req _ r => req = .findOne "u1" &&
        r = .ok (.product ⟨"u1", "p", "name", 7, none, 0⟩)) (by decide +kernel)
  rw [Bool.and_eq_true, Bool.and_eq_true] at hs
  obtain ⟨req, since, r, hans, hp⟩ := Host.State.answered_of_hasAnswered hs.1.1
  obtain ⟨req', since', r', hans', hp'⟩ := Host.State.answered_of_hasAnswered hs.1.2
  obtain ⟨req'', since'', r'', hans'', hp''⟩ := Host.State.answered_of_hasAnswered hs.2
  rw [Bool.and_eq_true, decide_eq_true_eq, decide_eq_true_eq] at hp hp' hp''
  obtain ⟨rfl, rfl⟩ := hp
  obtain ⟨rfl, rfl⟩ := hp'
  obtain ⟨rfl, rfl⟩ := hp''
  exact ⟨s, hreach, ⟨since, _, hans⟩, ⟨since', hans'⟩, ⟨since'', hans''⟩, listed_of_reach hreach⟩

/-- With the id of its row a product is renamed, and registered again at another price. -/
theorem not_listed_of_id : ∃ s, Reach host.step Opens (fun _ _ => True) s ∧ ¬ Listed s := by
  obtain ⟨s, hreach, hs⟩ := Reach.exists_of_follow host.step Opens (fun _ _ => True)
    opens_emptyCatalog
    [.arrive (.create (bodyOf none "p" 5)), .go 0 .go, .go 0 (.insert "u1"),
      .arrive (.create (bodyOf (some "u1") "q" 1)), .go 1 .go, .go 1 .go, .go 1 .go,
      .arrive (.create (bodyOf (some "u1") "p" 1)), .go 2 .go, .go 2 .go, .go 2 .go]
    (fun s => (s.hasAnswered 0 fun req _ r => req = .create (bodyOf none "p" 5) &&
        r = .ok (.product ⟨"u1", "p", "name", 5, none, 0⟩)) &&
      s.shared.products.rows = [⟨"u1", "p", "name", 1, none, 0⟩]) (by decide +kernel)
  rw [Bool.and_eq_true, decide_eq_true_eq] at hs
  obtain ⟨req, since, r, hans, hp⟩ := Host.State.answered_of_hasAnswered hs.1
  rw [Bool.and_eq_true, decide_eq_true_eq, decide_eq_true_eq] at hp
  obtain ⟨rfl, rfl⟩ := hp
  refine ⟨s, hreach, fun hlisted => ?_⟩
  obtain ⟨id, now, hrow, -⟩ := hlisted.kept _ _ _ _ hans
  rw [hs.2] at hrow
  have hprice : (5 : ℚ) = 1 := congrArg Row.price (List.mem_singleton.mp hrow)
  exact absurd hprice (by decide)

end Service

end Catalog

end Ecommerce
