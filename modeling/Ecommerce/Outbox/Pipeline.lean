import Ecommerce.Order.Transaction
import Ecommerce.Outbox.Relay
/-!
# From an order to its event

Calls of `createOrder` run in parallel, each in a transaction of its own,
and any call they await may be rejected. Debezium appends committed outbox
rows to the topic, each as often as it likes, and the relay publishes what
it decodes. The committed orders and outbox rows correspond, and whatever
the relay publishes is the payload of a committed row.
-/

namespace Ecommerce

namespace Outbox

open Orders (CreateOrderDto GetPricesResult Order OutboxEvent PricesFor Saved)
open Orders (priceItems orderOf outboxOf eventOf)

/-- A call of `createOrder`, and the rows its transaction has written. -/
structure Call where
  dto : CreateOrderDto
  pc : Orders.Pc
  order : Option Saved
  row : Option OutboxEvent

/-- Its transaction is over. -/
def Call.ended (c : Call) : Call := { c with order := none, row := none }

/-- The committed rows, the calls, and what comes after Debezium. -/
structure Pipeline (V : Type) where
  orders : Table OrderId Order
  outbox : List OutboxEvent
  calls : List Call
  relay : Relay V

namespace Pipeline

variable {V : Type}

/-- What the outside contributes to an answer: the catalog's prices, or the id of a new row. -/
inductive Answer
  | prices (result : GetPricesResult)
  | id (orderId : OrderId)
  | done

/-- A step. -/
inductive Label
  /-- `POST /orders`. -/
  | createOrder (dto : CreateOrderDto)
  /-- What the `i`-th call awaits resolves. -/
  | exec (i : ℕ) (answer : Answer)
  /-- What it awaits rejects. -/
  | reject (i : ℕ) (message : String)
  /-- Its `COMMIT` is carried out, and the answer is lost. -/
  | lose (i : ℕ) (message : String)
  /-- Its process dies, and the database rolls its transaction back. -/
  | crash (i : ℕ)
  /-- Debezium appends the `k`-th committed row, its payload encoded once or twice. -/
  | emit (k : ℕ) (twice : Bool)
  /-- The relay acts. -/
  | relay (l : Outbox.Label)

/-- Before the first order. -/
def empty : Pipeline V := ⟨∅, [], [], .empty⟩

def put (s : Pipeline V) (i : ℕ) (c : Call) : Pipeline V := { s with calls := s.calls.set i c }

/-- No row has the id, committed or not. -/
def Free (s : Pipeline V) (o : OrderId) : Prop :=
  s.orders.lookup o = none ∧ ∀ c ∈ s.calls, ∀ saved ∈ c.order, saved.id ≠ o

instance (s : Pipeline V) (o : OrderId) : Decidable (s.Free o) :=
  inferInstanceAs (Decidable (_ ∧ _))

/-- The rows of a transaction are committed. -/
def write (s : Pipeline V) (c : Call) : Pipeline V :=
  { s with
    orders := match c.order with
      | some saved => s.orders.insert saved.id saved.order
      | none => s.orders
    outbox := s.outbox ++ c.row.toList }

/-- What a call resolves to, with the tables and the transaction afterwards. -/
def perform (s : Pipeline V) (c : Call) (answer : Answer) :
    (op : Orders.Op) → Option (Orders.Ans op × Pipeline V × Call)
  | .getPrices productIds =>
    match answer with
    | .prices result => if h : result.Covers productIds then some (⟨result, h⟩, s, c) else none
    | _ => none
  | .begin => some ((), s, c)
  | .saveOrder order =>
    match answer with
    | .id o => if s.Free o then some (⟨o, order⟩, s, { c with order := some ⟨o, order⟩ }) else none
    | _ => none
  | .saveOutbox row => some ((), s, { c with row := some row })
  | .commit => some ((), s.write c, c.ended)
  | .rollback => some ((), s, c.ended)

/-- What a call awaits resolves. -/
def resolve (s : Pipeline V) (i : ℕ) (c : Call) (answer : Answer) : Option (Pipeline V) :=
  match c.pc.point c.dto with
  | .stop _ => none
  | .wait op next => (s.perform c answer op).map fun r =>
      r.2.1.put i { r.2.2 with pc := next (.ok r.1) }

/-- A rejected statement has no effect; where `COMMIT` or `ROLLBACK` fails, the database ends
the transaction. -/
def refused (c : Call) : Orders.Op → Call
  | .commit => c.ended
  | .rollback => c.ended
  | _ => c

/-- What it awaits rejects. -/
def refuse (s : Pipeline V) (i : ℕ) (c : Call) (message : String) : Option (Pipeline V) :=
  match c.pc.point c.dto with
  | .stop _ => none
  | .wait op next => some (s.put i { refused c op with pc := next (.error message) })

/-- A `COMMIT` that is carried out rejects. -/
def lose (s : Pipeline V) (i : ℕ) (c : Call) (message : String) : Option (Pipeline V) :=
  match c.pc.point c.dto with
  | .wait .commit next => some ((s.write c).put i { c.ended with pc := next (.error message) })
  | _ => none

/-- The value of a message of the topic. The payload of a row is the value of its event. -/
def encode (J : Json V) (object : OrderCreatedEvent → V) (row : OutboxEvent) (twice : Bool) :
    String :=
  let text := J.stringify (object row.payload)
  if twice then J.stringify (J.string text) else text

/-- A step. -/
def step (J : Json V) (object : OrderCreatedEvent → V) (s : Pipeline V) :
    Label → Option (Pipeline V)
  | .createOrder dto => some { s with calls := s.calls ++ [⟨dto, .getPrices, none, none⟩] }
  | .exec i answer => s.calls[i]?.bind fun c => s.resolve i c answer
  | .reject i message => s.calls[i]?.bind fun c => s.refuse i c message
  | .lose i message => s.calls[i]?.bind fun c => s.lose i c message
  | .crash i => s.calls[i]?.bind fun c => some (s.put i { c.ended with pc := .thrown "crash" })
  | .emit k twice => s.outbox[k]?.bind fun row =>
    (s.relay.step J (.append (some (encode J object row twice)))).map fun relay =>
      { s with relay := relay }
  | .relay l =>
    match l with
    | .append _ => none
    | l => (s.relay.step J l).map fun relay => { s with relay := relay }

/-! ## What a call can do -/

/-- Where a call stands that writes nothing any more. -/
def Over : Orders.Pc → Prop
  | .rollback _ => True
  | .returned _ => True
  | .thrown _ => True
  | _ => False

/-- **What a step of a call does** to the tables and to the call. -/
inductive Acts (s : Pipeline V) (c : Call) : Pipeline V → Call → Prop
  /-- The lines are priced. -/
  | prices {result : PricesFor c.dto.productIds}
      {items : List OrderItem} (hpc : c.pc = .getPrices)
      (hitems : priceItems c.dto.items (.ok result) = .ok items) :
      Acts s c s { c with pc := .begin items }
  /-- The transaction begins. -/
  | begins {items : List OrderItem} (hpc : c.pc = .begin items) :
      Acts s c s { c with pc := .saveOrder items }
  /-- The order is inserted. -/
  | inserts {items : List OrderItem} {o : OrderId} (hpc : c.pc = .saveOrder items)
      (hfree : s.Free o) : Acts s c s { c with
        order := some ⟨o, orderOf c.dto items⟩
        pc := .saveOutbox ⟨o, orderOf c.dto items⟩ }
  /-- Its outbox row is inserted. -/
  | records {saved : Saved} (hpc : c.pc = .saveOutbox saved) :
      Acts s c s { c with row := some (outboxOf saved), pc := .commit saved }
  /-- Both are committed. -/
  | commits {saved : Saved} {pc : Orders.Pc} (hpc : c.pc = .commit saved) (hover : Over pc) :
      Acts s c (s.write c) { c.ended with pc := pc }
  /-- The call fails, or its transaction ends. -/
  | ends {c' : Call} (horder : c'.order = c.order ∨ c'.order = none) (hover : Over c'.pc) :
      Acts s c s c'

variable {J : Json V} {object : OrderCreatedEvent → V} {s s' : Pipeline V} {c c' : Call} {i : ℕ}
variable {message : String}

theorem acts_resolve {answer : Answer} (h : s.resolve i c answer = some s') :
    ∃ s₁ c', Acts s c s₁ c' ∧ s' = s₁.put i c' := by
  obtain ⟨dto, pc, order, row⟩ := c
  unfold resolve at h
  cases pc with
  | getPrices =>
    cases answer with
    | prices result =>
      obtain ⟨r, hr, rfl⟩ := Option.map_eq_some_iff.mp h
      rw [perform] at hr
      split at hr
      swap
      · cases hr
      obtain rfl := Option.some.inj hr
      change ∃ s₁ c', _ ∧ s.put i ⟨dto, Orders.afterPrices dto (.ok ⟨result, _⟩), order, row⟩ = _
      unfold Orders.afterPrices
      cases hitems : priceItems dto.items (.ok ⟨result, ‹_›⟩) with
      | ok items => exact ⟨_, _, .prices rfl hitems, rfl⟩
      | error message =>
        have hends : Acts s ⟨dto, .getPrices, order, row⟩ s ⟨dto, .thrown message, order, row⟩ :=
          .ends (.inl rfl) trivial
        exact ⟨_, _, hends, rfl⟩
    | _ => cases h
  | begin items => exact ⟨_, _, .begins rfl, (Option.some.inj h).symm⟩
  | saveOrder items =>
    cases answer with
    | id o =>
      obtain ⟨r, hr, rfl⟩ := Option.map_eq_some_iff.mp h
      rw [perform] at hr
      split at hr
      · obtain rfl := Option.some.inj hr
        exact ⟨_, _, .inserts rfl ‹_›, rfl⟩
      · cases hr
    | _ => cases h
  | saveOutbox saved => exact ⟨_, _, .records rfl, (Option.some.inj h).symm⟩
  | commit saved =>
    have hover : Over (.returned saved) := trivial
    exact ⟨_, _, .commits rfl hover, (Option.some.inj h).symm⟩
  | rollback message =>
    have hends : Acts s ⟨dto, .rollback message, order, row⟩ s ⟨dto, .thrown message, none, none⟩ :=
      .ends (.inr rfl) trivial
    exact ⟨_, _, hends, (Option.some.inj h).symm⟩
  | returned saved => cases h
  | thrown message => cases h

theorem acts_refuse (h : s.refuse i c message = some s') :
    ∃ c', Acts s c s c' ∧ s' = s.put i c' := by
  obtain ⟨dto, pc, order, row⟩ := c
  unfold refuse at h
  cases pc with
  | returned saved => cases h
  | thrown message => cases h
  | _ =>
    refine ⟨_, ?_, (Option.some.inj h).symm⟩
    -- `COMMIT` and `ROLLBACK` end the transaction; no other statement touches it.
    first
    | exact .ends (.inl rfl) trivial
    | exact .ends (.inr rfl) trivial

theorem acts_lose (h : s.lose i c message = some s') :
    ∃ s₁ c', Acts s c s₁ c' ∧ s' = s₁.put i c' := by
  obtain ⟨dto, pc, order, row⟩ := c
  unfold lose at h
  cases pc with
  | commit saved =>
    have hover : Over (.rollback message) := trivial
    exact ⟨_, _, .commits rfl hover, (Option.some.inj h).symm⟩
  | _ => cases h

/-- **What a step can do.** -/
theorem step_cases {l : Label} (h : s.step J object l = some s') :
    (∃ dto, s' = { s with calls := s.calls ++ [⟨dto, .getPrices, none, none⟩] }) ∨
    (∃ i c s₁ c', s.calls[i]? = some c ∧ Acts s c s₁ c' ∧ s' = s₁.put i c') ∨
    (∃ (k : ℕ) (row : OutboxEvent) (twice : Bool) (relay : Relay V), s.outbox[k]? = some row ∧
      s.relay.step J (.append (some (encode J object row twice))) = some relay ∧
      s' = { s with relay := relay }) ∨
    (∃ l relay, (∀ value, l ≠ .append value) ∧ s.relay.step J l = some relay ∧
      s' = { s with relay := relay }) := by
  cases l with
  | createOrder dto => exact .inl ⟨dto, (Option.some.inj h).symm⟩
  | exec i answer =>
    obtain ⟨c, hc, h⟩ := Option.bind_eq_some_iff.mp h
    obtain ⟨s₁, c', hacts, hput⟩ := acts_resolve h
    exact .inr (.inl ⟨i, c, s₁, c', hc, hacts, hput⟩)
  | reject i message =>
    obtain ⟨c, hc, h⟩ := Option.bind_eq_some_iff.mp h
    obtain ⟨c', hacts, hput⟩ := acts_refuse h
    exact .inr (.inl ⟨i, c, s, c', hc, hacts, hput⟩)
  | lose i message =>
    obtain ⟨c, hc, h⟩ := Option.bind_eq_some_iff.mp h
    obtain ⟨s₁, c', hacts, hput⟩ := acts_lose h
    exact .inr (.inl ⟨i, c, s₁, c', hc, hacts, hput⟩)
  | crash i =>
    obtain ⟨c, hc, h⟩ := Option.bind_eq_some_iff.mp h
    have hends : Acts s c s { c.ended with pc := .thrown "crash" } := .ends (.inr rfl) trivial
    exact .inr (.inl ⟨i, c, s, _, hc, hends, (Option.some.inj h).symm⟩)
  | emit k twice =>
    obtain ⟨row, hrow, h⟩ := Option.bind_eq_some_iff.mp h
    obtain ⟨relay, hrelay, h⟩ := Option.map_eq_some_iff.mp h
    exact .inr (.inr (.inl ⟨k, row, twice, relay, hrow, hrelay, h.symm⟩))
  | relay l =>
    have hother : ∀ value, l ≠ .append value := by
      rintro value rfl
      cases h
    have h : ((s.relay.step J l).map fun relay => { s with relay := relay }) = some s' := by
      cases l with
      | append value => exact absurd rfl (hother value)
      | _ => exact h
    obtain ⟨relay, hrelay, h⟩ := Option.map_eq_some_iff.mp h
    exact .inr (.inr (.inr ⟨l, relay, hother, hrelay, h.symm⟩))

/-! ## Orders and their rows -/

/-- The call computes this order and its event, from some answer of the catalog. -/
def Made (dto : CreateOrderDto) (saved : Saved) : Prop :=
  ∃ result, Orders.createOrder saved.id dto (.ok result) = .ok (saved.order, eventOf saved)

/-- **What the transaction of a call has written** when the call stands at a point. -/
def Written (c : Call) : Orders.Pc → Prop
  | .begin items => c.order = none ∧ c.row = none ∧
    ∃ result, priceItems c.dto.items (.ok result) = .ok items
  | .saveOrder items => c.order = none ∧ c.row = none ∧
    ∃ result, priceItems c.dto.items (.ok result) = .ok items
  | .saveOutbox saved => c.order = some saved ∧ c.row = none ∧ Made c.dto saved
  | .commit saved => c.order = some saved ∧ c.row = some (outboxOf saved) ∧ Made c.dto saved
  | .getPrices => c.order = none ∧ c.row = none
  | _ => True

theorem written_of_over {pc : Orders.Pc} (h : Over pc) : Written c pc := by
  cases pc with
  | rollback message => trivial
  | returned saved => trivial
  | thrown message => trivial
  | _ => cases h

/-- **The invariant of the tables.** -/
structure Paired (s : Pipeline V) : Prop where
  written : ∀ c ∈ s.calls, Written c c.pc
  fresh : ∀ c ∈ s.calls, ∀ saved ∈ c.order, s.orders.lookup saved.id = none
  apart : ∀ (i j : ℕ) (c d : Call), s.calls[i]? = some c → s.calls[j]? = some d → i ≠ j →
    ∀ a ∈ c.order, ∀ b ∈ d.order, a.id ≠ b.id
  ids : (s.outbox.map OutboxEvent.aggregateId).Nodup
  stored : ∀ o order, s.orders.lookup o = some order → o ∈ s.outbox.map OutboxEvent.aggregateId
  recorded : ∀ row ∈ s.outbox, ∃ (saved : Saved) (dto : CreateOrderDto), row = outboxOf saved ∧
    Made dto saved ∧ s.orders.lookup saved.id = some saved.order

namespace Paired

/-- A call goes on, with the order it had, a new one of a free id, or none. -/
theorem put (h : Paired s) (hi : s.calls[i]? = some c) (hwritten : Written c' c'.pc)
    (horder : ∀ saved ∈ c'.order, c.order = some saved ∨ s.Free saved.id) :
    Paired (s.put i c') := by
  have hc := List.mem_of_getElem? hi
  have hfresh : ∀ saved ∈ c'.order, s.orders.lookup saved.id = none := fun saved hsaved => by
    rcases horder saved hsaved with hold | hfree
    · exact h.fresh c hc saved hold
    · exact hfree.1
  have hapart : ∀ j d, s.calls[j]? = some d → i ≠ j → ∀ a ∈ c'.order, ∀ b ∈ d.order,
      a.id ≠ b.id := fun j d hj hne a ha b hb => by
    rcases horder a ha with hold | hfree
    · exact h.apart i j c d hi hj hne a hold b hb
    · exact Ne.symm (hfree.2 d (List.mem_of_getElem? hj) b hb)
  refine ⟨fun d hd => ?_, fun d hd => ?_, fun j k d e hj hk hne => ?_, h.ids, h.stored, h.recorded⟩
  · rcases List.mem_or_eq_of_mem_set hd with hold | rfl
    · exact h.written d hold
    · exact hwritten
  · rcases List.mem_or_eq_of_mem_set hd with hold | rfl
    · exact h.fresh d hold
    · exact hfresh
  · obtain ⟨rfl, rfl⟩ | ⟨hji, hjold⟩ := getElem?_set_cases hj
    · obtain ⟨rfl, -⟩ | ⟨-, hkold⟩ := getElem?_set_cases hk
      · exact absurd rfl hne
      · exact hapart k e hkold hne
    · obtain ⟨rfl, rfl⟩ | ⟨-, hkold⟩ := getElem?_set_cases hk
      · exact fun a ha b hb => Ne.symm (hapart j d hjold (Ne.symm hji) b hb a ha)
      · exact h.apart j k d e hjold hkold hne

/-- **A commit** puts an order and its row beside the others. -/
theorem write (h : Paired s) {saved : Saved} (horder : c.order = some saved)
    (hrow : c.row = some (outboxOf saved)) (hmade : Made c.dto saved)
    (hnew : s.orders.lookup saved.id = none)
    (hothers : ∀ d ∈ s.calls, ∀ b ∈ d.order, saved.id ≠ b.id) : Paired (s.write c) := by
  have horders : (s.write c).orders = s.orders.insert saved.id saved.order := by
    simp only [Pipeline.write, horder]
  have houtbox : (s.write c).outbox = s.outbox ++ [outboxOf saved] := by
    simp only [Pipeline.write, hrow, Option.toList_some]
  have hids : (s.write c).outbox.map OutboxEvent.aggregateId =
      s.outbox.map OutboxEvent.aggregateId ++ [saved.id] := by
    rw [houtbox, List.map_append]
    rfl
  have hlookup : ∀ {o}, o ≠ saved.id → (s.write c).orders.lookup o = s.orders.lookup o :=
    fun hne => by rw [horders, Finmap.lookup_insert_of_ne _ hne]
  -- The id is not in the outbox, where every row has its order.
  have hunused : saved.id ∉ s.outbox.map OutboxEvent.aggregateId := fun hmem => by
    obtain ⟨row, hrow, hid⟩ := List.mem_map.mp hmem
    obtain ⟨other, dto, rfl, -, hother⟩ := h.recorded row hrow
    have hid : other.id = saved.id := hid
    rw [hid, hnew] at hother
    cases hother
  refine ⟨h.written, fun d hd b hb => ?_, h.apart, ?_, fun o order ho => ?_, fun row hmem => ?_⟩
  · rw [hlookup (Ne.symm (hothers d hd b hb))]
    exact h.fresh d hd b hb
  · rw [hids]
    exact List.nodup_append.mpr ⟨h.ids, List.nodup_singleton _, fun a ha b hb => by
      obtain rfl := List.mem_singleton.mp hb
      rintro rfl
      exact hunused ha⟩
  · rw [hids]
    by_cases hne : o = saved.id
    · subst hne
      exact List.mem_append_right _ (List.mem_singleton_self _)
    · rw [hlookup hne] at ho
      exact List.mem_append_left _ (h.stored o order ho)
  · rw [houtbox] at hmem
    rcases List.mem_append.mp hmem with hold | hnewrow
    · obtain ⟨other, dto, heq, hother, hstored⟩ := h.recorded row hold
      refine ⟨other, dto, heq, hother, ?_⟩
      have hne : other.id ≠ saved.id := fun hid => by
        rw [hid, hnew] at hstored
        cases hstored
      rw [hlookup hne, hstored]
    · obtain rfl := List.mem_singleton.mp hnewrow
      exact ⟨saved, c.dto, rfl, hmade, by rw [horders, Finmap.lookup_insert]⟩

/-- **What a step of a call keeps.** -/
theorem acts (h : Paired s) (hi : s.calls[i]? = some c) {s₁ : Pipeline V} (ha : Acts s c s₁ c') :
    Paired (s₁.put i c') := by
  have hwritten := h.written c (List.mem_of_getElem? hi)
  cases ha with
  | @prices result items hpc hitems =>
    rw [hpc] at hwritten
    obtain ⟨horder, hrow⟩ := hwritten
    exact h.put hi ⟨horder, hrow, result, hitems⟩ fun saved hsaved => .inl hsaved
  | begins hpc =>
    rw [hpc] at hwritten
    exact h.put hi hwritten fun saved hsaved => .inl hsaved
  | @inserts items o hpc hfree =>
    rw [hpc] at hwritten
    obtain ⟨-, hrow, result, hitems⟩ := hwritten
    refine h.put hi ⟨rfl, hrow, result, Orders.createOrder_of_priceItems hitems o⟩ ?_
    intro saved hsaved
    obtain rfl := Option.some.inj hsaved
    exact .inr hfree
  | records hpc =>
    rw [hpc] at hwritten
    obtain ⟨horder, -, hmade⟩ := hwritten
    exact h.put hi ⟨horder, rfl, hmade⟩ fun saved hsaved => .inl hsaved
  | @commits saved pc hpc hover =>
    rw [hpc] at hwritten
    obtain ⟨horder, hrow, hmade⟩ := hwritten
    -- Once the call has let go of its order, no other call has the id.
    have hnext : Paired (s.put i { c.ended with pc := pc }) :=
      h.put hi (written_of_over hover) fun saved hsaved => by cases hsaved
    refine hnext.write horder hrow hmade (h.fresh c (List.mem_of_getElem? hi) saved horder) ?_
    intro d hd b hb
    obtain ⟨j, hj⟩ := List.mem_iff_getElem?.mp hd
    obtain ⟨-, rfl⟩ | ⟨hne, hj⟩ := getElem?_set_cases hj
    · cases hb
    · exact h.apart i j c d hi hj (Ne.symm hne) saved horder b hb
  | ends horder hover =>
    refine h.put hi (written_of_over hover) fun saved hsaved => ?_
    rcases horder with heq | hnone
    · exact .inl (heq ▸ hsaved)
    · rw [hnone] at hsaved
      cases hsaved

theorem createOrder (h : Paired s) (dto : CreateOrderDto) :
    Paired { s with calls := s.calls ++ [⟨dto, .getPrices, none, none⟩] } := by
  refine ⟨fun d hd => ?_, fun d hd => ?_, fun j k d e hj hk hne a ha b hb => ?_, h.ids, h.stored,
    h.recorded⟩
  · rcases List.mem_append.mp hd with hold | hnew
    · exact h.written d hold
    · obtain rfl := List.mem_singleton.mp hnew
      exact ⟨rfl, rfl⟩
  · rcases List.mem_append.mp hd with hold | hnew
    · exact h.fresh d hold
    · obtain rfl := List.mem_singleton.mp hnew
      exact fun saved hsaved => by cases hsaved
  · rcases getElem?_append_singleton hj with hj | ⟨-, rfl⟩
    · rcases getElem?_append_singleton hk with hk | ⟨-, rfl⟩
      · exact h.apart j k d e hj hk hne a ha b hb
      · cases hb
    · cases ha

/-- **Every step keeps the invariant.** -/
theorem step {l : Label} (h : Paired s) (hs : s.step J object l = some s') : Paired s' := by
  obtain ⟨dto, rfl⟩ | ⟨i, c, s₁, c', hi, hacts, rfl⟩ | ⟨-, -, -, relay, -, -, rfl⟩ |
    ⟨-, relay, -, -, rfl⟩ := step_cases hs
  · exact h.createOrder dto
  · exact h.acts hi hacts
  · exact ⟨h.written, h.fresh, h.apart, h.ids, h.stored, h.recorded⟩
  · exact ⟨h.written, h.fresh, h.apart, h.ids, h.stored, h.recorded⟩

theorem of_empty : Paired (empty : Pipeline V) :=
  ⟨fun _ h => (by cases h), fun _ h => (by cases h), fun _ _ _ _ h => (by cases h), .nil,
    fun _ _ h => (by cases h), fun _ h => (by cases h)⟩

end Paired

theorem paired_of_reach {guard : Pipeline V → Label → Prop}
    (h : Reach (step J object) (· = empty) guard s) : Paired s :=
  h.invariant_from .of_empty fun _ _ _ hinv _ hs => hinv.step hs

/-! ## Rows and their messages -/

/-- **The relay undoes the encoding**, the one of a text and the one of a text in a string. -/
theorem decode_encode (hJ : J.Lawful) (hobject : ∀ e, J.asString (object e) = none)
    (row : OutboxEvent) (twice : Bool) :
    decode J (encode J object row twice) = .ok (object row.payload) := by
  have honce : J.parse (J.stringify (object row.payload)) = .ok (object row.payload) :=
    hJ.parse_stringify _
  cases twice with
  | false => exact decode_of_none honce (hobject _)
  | true => exact (decode_of_some (hJ.parse_stringify _) (hJ.asString_string _)).trans honce

/-- **The invariant of the topic**: its messages are committed rows, and what the relay
publishes is in it. -/
structure Emitted (J : Json V) (object : OrderCreatedEvent → V) (s : Pipeline V) : Prop where
  rows : ∀ (k : ℕ) (text : String), s.relay.log[k]? = some (some text) →
    ∃ row ∈ s.outbox, ∃ twice, text = encode J object row twice
  decoded : Relay.Decoded J s.relay

namespace Emitted

/-- The outbox only grows. -/
theorem acts (h : Emitted J object s) {s₁ : Pipeline V} (ha : Acts s c s₁ c') :
    Emitted J object (s₁.put i c') := by
  cases ha with
  | commits hpc hover =>
    refine ⟨fun k text htext => ?_, h.decoded⟩
    obtain ⟨row, hrow, htwice⟩ := h.rows k text htext
    exact ⟨row, List.mem_append_left _ hrow, htwice⟩
  | _ => exact ⟨h.rows, h.decoded⟩

/-- **Every step keeps the invariant.** -/
theorem step {l : Label} (h : Emitted J object s) (hs : s.step J object l = some s') :
    Emitted J object s' := by
  obtain ⟨dto, rfl⟩ | ⟨i, c, s₁, c', -, hacts, rfl⟩ | ⟨k, row, twice, relay, hrow, hrelay, rfl⟩ |
    ⟨l, relay, hother, hrelay, rfl⟩ := step_cases hs
  · exact ⟨h.rows, h.decoded⟩
  · exact h.acts hacts
  · refine ⟨fun j text htext => ?_, h.decoded.step hrelay⟩
    obtain rfl := Option.some.inj hrelay
    rcases getElem?_append_singleton htext with hold | ⟨-, heq⟩
    · exact h.rows j text hold
    · exact ⟨row, List.mem_of_getElem? hrow, twice, Option.some.inj heq⟩
  · refine ⟨fun j text htext => ?_, h.decoded.step hrelay⟩
    have htext : relay.log[j]? = some (some text) := htext
    rw [Relay.log_step hrelay hother] at htext
    exact h.rows j text htext

theorem of_empty : Emitted J object (empty : Pipeline V) :=
  ⟨fun _ _ h => (by cases h), .of_empty J⟩

/-- What is published is the payload of a row. -/
theorem published (h : Emitted J object s) (hJ : J.Lawful)
    (hobject : ∀ e, J.asString (object e) = none) :
    ∀ entry ∈ s.relay.published, ∃ row ∈ s.outbox,
      entry.2 = orderCreated (object row.payload) := by
  intro entry hentry
  obtain ⟨event, heq, text, htext, hevent⟩ := h.decoded.published entry hentry
  obtain ⟨row, hrow, twice, rfl⟩ := h.rows entry.1 text htext
  rw [decode_encode hJ hobject] at hevent
  obtain rfl := Except.ok.inj hevent
  exact ⟨row, hrow, heq⟩

end Emitted

theorem emitted_of_reach {guard : Pipeline V → Label → Prop}
    (h : Reach (step J object) (· = empty) guard s) : Emitted J object s :=
  h.invariant_from .of_empty fun _ _ _ hinv _ hs => hinv.step hs

/-! ## Faithfulness -/

/-- **Orders, outbox rows and published events agree.** -/
structure Faithful (object : OrderCreatedEvent → V) (s : Pipeline V) : Prop where
  /-- No two rows are of one order. -/
  unique : (s.outbox.map OutboxEvent.aggregateId).Nodup
  /-- The rows are those of the orders. -/
  matched : ∀ o, o ∈ s.outbox.map OutboxEvent.aggregateId ↔ o ∈ s.orders
  /-- A payload repeats the order. -/
  repeats : ∀ row ∈ s.outbox, ∃ order, s.orders.lookup row.aggregateId = some order ∧
    row.payload.orderId = row.aggregateId ∧ row.payload.customerId = order.customerId ∧
    row.payload.items = order.items ∧ row.payload.total = order.total
  /-- What the relay publishes is a payload. -/
  relayed : ∀ entry ∈ s.relay.published, ∃ row ∈ s.outbox,
    entry.2 = orderCreated (object row.payload)

/-- **The outbox is faithful** in every run, whichever calls fail and wherever. -/
theorem faithful_of_reach (hJ : J.Lawful) (hobject : ∀ e, J.asString (object e) = none)
    (h : Reach (step J object) (· = empty) (fun _ _ => True) s) : Faithful object s := by
  have hpaired := paired_of_reach h
  refine ⟨hpaired.ids, fun o => ⟨fun hmem => ?_, fun hmem => ?_⟩, fun row hrow => ?_,
    (emitted_of_reach h).published hJ hobject⟩
  · obtain ⟨row, hrow, rfl⟩ := List.mem_map.mp hmem
    obtain ⟨saved, dto, rfl, -, hstored⟩ := hpaired.recorded row hrow
    exact Finmap.mem_of_lookup_eq_some hstored
  · obtain ⟨order, horder⟩ := Finmap.mem_iff.mp hmem
    exact hpaired.stored o order horder
  · obtain ⟨saved, dto, rfl, ⟨result, hmade⟩, hstored⟩ := hpaired.recorded row hrow
    obtain ⟨-, hid, hcustomer, htotal⟩ := Orders.createOrder_eq hmade
    obtain ⟨hitems, -⟩ := Orders.createOrder_priced hmade
    exact ⟨saved.order, hstored, hid, hcustomer, hitems, htotal⟩

/-! ## A run -/

/-- An event as an object. -/
def eventText (event : OrderCreatedEvent) : Json.Text :=
  .object [("orderId", Json.Text.literal event.orderId),
    ("customerId", Json.Text.literal event.customerId), ("total", toString event.total),
    ("items", Json.Text.array (event.items.map fun item => Json.Text.braces
      [("productId", Json.Text.literal item.productId), ("quantity", toString item.quantity),
        ("price", toString item.price)]))]

theorem isNull_eventText (event : OrderCreatedEvent) :
    Json.texts.isNull (eventText event) = false := by
  rw [eventText, Json.isNull_texts, Json.Text.isNull_object]

/-- Two calls at once; the second is rolled back. The row of the first is emitted twice, in
either encoding, and relayed twice. -/
theorem faithful_of_encodings :
    ∃ s : Pipeline Json.Text,
      Reach (step Json.texts eventText) (· = empty) (fun _ _ => True) s ∧
        s.calls.length = 2 ∧ s.outbox.length = 1 ∧ s.relay.published.length = 2 ∧
        Faithful eventText s := by
  have hobject : ∀ e, Json.texts.asString (eventText e) = none := fun _ => rfl
  obtain ⟨s, hreach, hs⟩ := Reach.exists_of_follow (step Json.texts eventText) (· = empty)
    (fun _ _ => True) rfl
    ((Relay.joined 0).map .relay ++
      [.createOrder ⟨"c", [⟨"p", 2⟩]⟩, .createOrder ⟨"d", [⟨"p", 1⟩]⟩,
        .exec 0 (.prices ⟨[("p", 100)], []⟩), .exec 1 (.prices ⟨[("p", 100)], []⟩),
        .exec 0 .done, .exec 1 .done, .exec 0 (.id "o"), .exec 1 (.id "q"),
        .reject 1 "connection lost", .exec 1 .done, .exec 0 .done, .exec 0 .done,
        .emit 0 false, .emit 0 true, .relay (.poll 0), .relay (.exec 0), .relay (.poll 0),
        .relay (.exec 0)])
    (fun s => s.calls.length = 2 && s.outbox.length = 1 && s.relay.published.length = 2)
    (by decide +kernel)
  simp only [Bool.and_eq_true, decide_eq_true_eq] at hs
  exact ⟨s, hreach, hs.1.1, hs.1.2, hs.2,
    faithful_of_reach Json.lawful_texts hobject hreach⟩

end Pipeline

end Outbox

end Ecommerce
