import Ecommerce.Common.Tally
import Ecommerce.Inventory.Runs
import Ecommerce.Saga.Lifecycle
import Ecommerce.Saga.Priced
import Ecommerce.Saga.Settled
import Ecommerce.Saga.Stock
/-!
# The accounts of the shop

Stock follows the payments, in every run: a reservation is made of the
lines of its order, is CONFIRMED only for an order that has been paid and
RELEASED only for one whose payment has failed (`Vouched`). So `confirm`
meets a RELEASED reservation only if an order has payments of both kinds,
and the stock ledger holds in every other run. Where messages are
delivered once and no stock is left behind, the books balance at rest.
-/

namespace Ecommerce

namespace Saga

/-! ## Stock follows the payments -/

/-- What a request that is sent says of the payment. -/
def RequestKnows (s : System) : InventoryRpcRequest → Prop
  | .reserve _ _ => True
  | .confirm o => Recorded s o .success
  | .release o => Recorded s o .failed

/-- What a request nobody waits for says. -/
def Token.Vouches (s : System) : Token → Prop
  | .request req => RequestKnows s req
  | _ => True

/-- **Stock follows the payments.** -/
structure Vouched (s : System) : Prop where
  requests : ∀ t ∈ s.flight, t.Vouches s
  confirmed : ∀ o, s.inventory.statusOf o = some .confirmed → Recorded s o .success
  released : ∀ o, s.inventory.statusOf o = some .released → Recorded s o .failed

variable {s s' base : System} {t u : Token} {c : Choice} {out : Multiset Token} {o : OrderId}
variable {l : Label} {base₀ : ProductId → ℤ} {p : ProductId}

/-- A handler requests what its event entitles it to. -/
theorem requestKnows_of_event {event : Event} (h : event.Knows s) :
    RequestKnows s event.request := by
  cases event with
  | created event => trivial
  | succeeded event => exact h
  | failed event => exact h

/-- A reservation that has moved is where the request wants it. -/
theorem moved_of_replies {db db' : Inventory.Tables} {reply : Inventory.Reply}
    {req : InventoryRpcRequest} {redelivered : Bool} {status : Inventory.ReservationStatus}
    (h : Inventory.Replies (req.toRequest redelivered) db reply db')
    (hstatus : db'.statusOf o = some status) :
    db.statusOf o = some status ∨ status = .reserved ∨
      req = .confirm o ∧ status = .confirmed ∨ req = .release o ∧ status = .released := by
  by_cases hsuccess : ∃ reason, reply = .result ⟨true, reason⟩
  · obtain ⟨reason, hreply⟩ := hsuccess
    have hsettle := h.success reason hreply
    by_cases heq : o = (req.toRequest redelivered).orderId
    · rw [← heq, hstatus] at hsettle
      cases req with
      | reserve o' items =>
        cases hbefore : db.statusOf o <;> rw [hbefore] at hsettle
        · exact .inr (.inl (Option.some.inj hsettle))
        · exact .inl hsettle.symm
      | confirm o' =>
        obtain rfl : o = o' := heq
        exact .inr (.inr (.inl ⟨rfl, Option.some.inj hsettle⟩))
      | release o' =>
        obtain rfl : o = o' := heq
        cases hbefore : db.statusOf o with
        | none => rw [hbefore] at hsettle; cases hsettle
        | some before =>
          rw [hbefore] at hsettle
          cases before with
          | reserved => exact .inr (.inr (.inr ⟨rfl, Option.some.inj hsettle⟩))
          | _ => exact .inl hsettle.symm
    · exact .inl (h.other o heq ▸ hstatus)
  · exact .inl (h.failure (fun reason hreply => hsuccess ⟨reason, hreply⟩) ▸ hstatus)

namespace Vouched

/-- Payments are not taken back, and the reservations stay. -/
theorem next (h : Vouched s) (hpay : ∀ row ∈ s.payments, row ∈ s'.payments)
    (hstock : s'.inventory = s.inventory)
    (hflight : ∀ t ∈ s'.flight, t ∈ s.flight ∨ t.Vouches s') : Vouched s' := by
  have hrec : ∀ o status, Recorded s o status → Recorded s' o status :=
    fun o status ⟨row, hrow, hrest⟩ => ⟨row, hpay row hrow, hrest⟩
  refine ⟨fun t ht => ?_, fun o ho => hrec o _ (h.confirmed o (hstock ▸ ho)),
    fun o ho => hrec o _ (h.released o (hstock ▸ ho))⟩
  rcases hflight t ht with hold | hnew
  · have hknows := h.requests t hold
    cases t with
    | request req =>
      cases req with
      | reserve o items => trivial
      | confirm o => exact hrec o _ hknows
      | release o => exact hrec o _ hknows
    | _ => trivial
  · exact hnew

/-- Inventory-service handles a request that is vouched for. -/
theorem serve (h : Vouched s) (hst : Inventory.Stored s.inventory) {req : InventoryRpcRequest}
    (hreq : RequestKnows s req) (faults : List Bool) (redelivered : Bool) :
    Vouched (s.serve faults (req.toRequest redelivered)) := by
  obtain ⟨reply, -, hreplies, -⟩ :=
    Inventory.serve_replies faults (req.toRequest redelivered) hst
  refine ⟨h.requests, fun o ho => ?_, fun o ho => ?_⟩
  · rcases moved_of_replies hreplies ho with hold | hcon | ⟨rfl, -⟩ | ⟨-, hcon⟩
    · exact h.confirmed o hold
    · cases hcon
    · exact hreq
    · cases hcon
  · rcases moved_of_replies hreplies ho with hold | hcon | ⟨-, hcon⟩ | ⟨rfl, -⟩
    · exact h.released o hold
    · cases hcon
    · cases hcon
    · exact hreq

/-- More is in flight. -/
theorem add (h : Vouched s) {ts : Multiset Token} (hts : ∀ t ∈ ts, t.Vouches s) :
    Vouched (s.add ts) :=
  h.next (fun _ hrow => hrow) rfl fun t ht => (Multiset.mem_add.mp ht).symm.imp id (hts t)

theorem addOne (h : Vouched s) (ht : t.Vouches s) : Vouched (s.add {t}) :=
  h.add fun _ hu => (Multiset.mem_singleton.mp hu).symm ▸ ht

theorem without (h : Vouched s) (t : Token) : Vouched (s.without t) :=
  h.next (fun _ hrow => hrow) rfl fun _ hu => .inl (Multiset.mem_of_mem_erase hu)

end Vouched

theorem vouches_goOn (event : Event) (pc : Pc) : ∀ u ∈ goOn event pc, u.Vouches s := by
  intro u hu
  rw [mem_goOn hu]
  trivial

/-- What a handler leaves behind it was entitled to request. -/
theorem vouches_abandoned {event : Event} (h : event.Knows s) (pc : Pc) (rpc : Rpc) :
    ∀ u ∈ abandoned event pc rpc, u.Vouches s := by
  intro u hu
  rw [mem_abandoned hu]
  exact requestKnows_of_event h

/-- **Whatever acts, stock follows the payments.** -/
theorem Vouched.react (h : Vouched s) (hst : Inventory.Stored s.inventory) (hknows : t.Knows s)
    (ht : t.Vouches s) (hr : React s t c base out) : Vouched (base.add out) := by
  cases hr with
  | handled event redelivered faults =>
    exact (h.serve hst (requestKnows_of_event hknows.1) faults redelivered).addOne trivial
  | serves req redelivered faults =>
    rw [System.add_nothing]
    exact h.serve hst ht faults redelivered
  | hears event r => exact h.add (vouches_goOn event _)
  | givesUp event rpc message =>
    exact h.add fun u hu => (Multiset.mem_add.mp hu).elim (vouches_abandoned hknows.1 _ _ u)
      (vouches_goOn event _ u)
  | writes event status rpc =>
    have hset : Vouched (s.setStatus event.orderId status) :=
      h.next (fun row hrow => by rwa [System.setStatus_payments]) (System.setStatus_inventory _ _)
        fun u hu => .inl (by rwa [System.setStatus_flight] at hu)
    exact hset.add (vouches_goOn event _)
  | writeFails event status rpc message => exact h.add (vouches_goOn event _)
  | tells event rpc c hpc hpc' => exact h.add (vouches_goOn event _)
  | crashes event pc rpc =>
    refine h.add fun u hu => (Multiset.mem_add.mp hu).elim (vouches_abandoned hknows.1 _ _ u)
      fun hu => ?_
    obtain rfl := Multiset.mem_singleton.mp hu
    trivial
  | starts hstart =>
    refine h.addOne ?_
    cases starts_of_start hstart <;> trivial
  | saves event xDeath status =>
    have hsaved : Vouched (s.insertPayment
        ⟨s.payments.length, event.orderId, event.customerId, event.total, status⟩) :=
      h.next (fun row hrow => List.mem_append_left _ hrow) rfl fun u hu => .inl hu
    exact hsaved.addOne trivial
  | movesToDlq event xDeath =>
    refine h.add fun u hu => ?_
    rcases Multiset.mem_cons.mp hu with rfl | hu
    · trivial
    · obtain rfl := Multiset.mem_singleton.mp hu
      trivial
  | requestFails event request rpc message => rwa [System.add_nothing]
  | paid row hrow horder => rwa [System.add_nothing]
  | retryDropped event xDeath => rwa [System.add_nothing]
  | announceFails message hpc => rwa [System.add_nothing]
  | vanishes hgone => rwa [System.add_nothing]
  | _ => exact h.addOne trivial

theorem Vouched.step (h : Vouched s) (hback : Backed s) (hs : s.step l = some s') : Vouched s' := by
  obtain ⟨o, dto, result, order, event, rfl, hcreate, hfresh, rfl⟩ |
    ⟨t, c, base, out, rfl, ht, hr, rfl⟩ | ⟨t, rfl, ht, rfl⟩ := System.step_cases hs
  · have hnew : Vouched { s with orders := s.orders.insert o order } :=
      h.next (fun _ hrow => hrow) rfl fun _ hu => .inl hu
    exact hnew.addOne trivial
  · have hg : Grows s (s.without t) := .of_flight rfl rfl rfl
    exact (h.without t).react hback.stored (hg.token (hback.tokens t ht)) (h.requests t ht) hr
  · refine h.add fun u hu => ?_
    obtain rfl | ⟨event, rfl, rfl⟩ := mem_copy hu
    · exact h.requests u ht
    · exact requestKnows_of_event (hback.tokens _ ht).1

theorem vouched_of_reach {guard : System → Label → Prop} (h : Reach System.step Opens guard s) :
    Vouched s := by
  refine h.induct (I := Vouched) (fun s hopens => ?_) fun _ _ _ hreach hinv _ hs =>
    hinv.step (backed_of_reach hreach).2 hs
  have hnone : ∀ o, s.inventory.statusOf o = none := fun o => by
    rw [Inventory.Tables.statusOf, hopens.reservations]
    rfl
  refine ⟨fun t ht => ?_, fun o ho => ?_, fun o ho => ?_⟩
  · rw [hopens.flight] at ht
    cases ht
  · rw [hnone] at ho
    cases ho
  · rw [hnone] at ho
    cases ho

/-- **Stock moves only with money**: whatever an environment does, a reservation is of an
order that was placed and of exactly its lines, it is CONFIRMED only if the order has a
SUCCESS payment and RELEASED only if it has a FAILED one. -/
theorem stock_moves_with_money (h : Reach System.step Opens (fun _ _ => True) s)
    {row : Inventory.Reservation} (hrow : s.inventory.reservations.lookup o = some row) :
    (∃ order, s.orders.lookup o = some order ∧ row.items = reservedItems order.items) ∧
      (row.status = .confirmed → Recorded s o .success) ∧
      (row.status = .released → Recorded s o .failed) := by
  have hvouched := vouched_of_reach h
  have hstatus := Inventory.statusOf_of_lookup hrow
  obtain ⟨items, ⟨order, ho, rfl⟩, hitems⟩ := (allVetted_of_reach h).reserved o row hrow
  exact ⟨⟨order, ho, hitems⟩, fun hst => hvouched.confirmed o (hst ▸ hstatus),
    fun hst => hvouched.released o (hst ▸ hstatus)⟩

/-! ## The stock ledger -/

/-- A shop before its first order, with `start` units of each product; a product without a
row has what it will be seeded with. -/
structure OpensWith (start : ProductId → ℤ) (s : System) : Prop where
  opens : Opens s
  seeded : Inventory.Seeded start s.inventory
  stocked : ∀ p row, s.inventory.stock.lookup p = some row →
    row.reservedQuantity = 0 ∧ 0 ≤ row.availableQuantity ∧ row.availableQuantity = start p

/-- No order has payments of both kinds. -/
def PaymentsAgree (s : System) : Prop :=
  ∀ r₁ ∈ s.payments, ∀ r₂ ∈ s.payments, r₁.orderId = r₂.orderId → r₁.status = r₂.status

/-- The stock ledger, and what the products without a row will start with. -/
structure Balanced (start : ProductId → ℤ) (s : System) : Prop where
  seeded : Inventory.Seeded start s.inventory
  ledger : Inventory.Ledger start s.inventory

theorem PaymentsAgree.not_both (h : PaymentsAgree s) (hsuccess : Recorded s o .success)
    (hfailed : Recorded s o .failed) : False := by
  obtain ⟨row₁, hrow₁, horder₁, hstatus₁⟩ := hsuccess
  obtain ⟨row₂, hrow₂, horder₂, hstatus₂⟩ := hfailed
  have hsame := h row₁ hrow₁ row₂ hrow₂ (horder₁.trans horder₂.symm)
  rw [hstatus₁, hstatus₂] at hsame
  cases hsame

/-- **No request settles a reservation twice**, while the payments of an order agree. -/
theorem Vouched.settleable (h : Vouched s) (hagree : PaymentsAgree s) {req : InventoryRpcRequest}
    (hreq : RequestKnows s req) {redelivered : Bool} {row : Inventory.Reservation}
    (hguard : Inventory.Settleable (req.toRequest redelivered) row.status)
    (hrow : s.inventory.reservations.lookup (req.toRequest redelivered).orderId = some row) :
    row.status = .reserved ∨ row.items = [] := by
  have hstatus := Inventory.statusOf_of_lookup hrow
  cases req with
  | reserve o items => exact hguard.elim
  | release o => exact .inl hguard
  | confirm o =>
    cases hst : row.status with
    | reserved => exact .inl rfl
    | confirmed => exact absurd hst hguard
    | released =>
      rw [hst] at hstatus
      exact (hagree.not_both hreq (h.released o hstatus)).elim

/-- No request deletes a row of the stock. -/
theorem seeded_of_handled {start : ProductId → ℤ} {req : Inventory.Request}
    {db db' : Inventory.Tables} {reply : Inventory.Reply} (h : Inventory.Handled req db reply db')
    (hseeded : Inventory.Seeded start db) : Inventory.Seeded start db' := by
  cases h with
  | reserves hres hcommits => exact hseeded.mono hcommits.grows
  | settles row hguard hcommits => exact hseeded.mono hcommits.grows
  | _ => exact hseeded

namespace Balanced

variable {start : ProductId → ℤ}

theorem of_inventory (h : Balanced start s) (hsame : s'.inventory = s.inventory) :
    Balanced start s' := ⟨hsame ▸ h.seeded, hsame ▸ h.ledger⟩

theorem serve (h : Balanced start s) (hst : Inventory.Stored s.inventory) (hvouched : Vouched s)
    (hagree : PaymentsAgree s) {req : InventoryRpcRequest} (hreq : RequestKnows s req)
    (faults : List Bool) (redelivered : Bool) :
    Balanced start (s.serve faults (req.toRequest redelivered)) := by
  obtain ⟨reply, -, hhandled⟩ := Inventory.serve_handled faults (req.toRequest redelivered) hst
  exact ⟨seeded_of_handled hhandled h.seeded, hhandled.ledger hst h.seeded h.ledger
    fun row hguard hrow => hvouched.settleable hagree hreq hguard hrow⟩

theorem step (h : Balanced start s) (hback : Backed s) (hvouched : Vouched s)
    (hagree : PaymentsAgree s) (hs : s.step l = some s') : Balanced start s' := by
  obtain ⟨o, dto, result, order, event, rfl, hcreate, hfresh, rfl⟩ |
    ⟨t, c, base, out, rfl, ht, hr, rfl⟩ | ⟨t, rfl, ht, rfl⟩ := System.step_cases hs
  · exact h.of_inventory rfl
  · -- Only inventory-service writes the stock.
    have hrest : Balanced start (s.without t) := h.of_inventory rfl
    have hvouched' := hvouched.without t
    cases hr with
    | handled event redelivered faults =>
      exact (hrest.serve hback.stored hvouched' hagree
        (requestKnows_of_event (hback.tokens _ ht).1) faults redelivered).of_inventory rfl
    | serves req redelivered faults =>
      exact (hrest.serve hback.stored hvouched' hagree (hvouched.requests _ ht) faults
        redelivered).of_inventory rfl
    | writes event status rpc => exact hrest.of_inventory (System.setStatus_inventory _ _)
    | _ => exact hrest.of_inventory rfl
  · exact h.of_inventory rfl

theorem of_opensWith (h : OpensWith start s) : Balanced start s :=
  ⟨h.seeded, .of_unreserved h.opens.reservations h.stocked⟩

end Balanced

theorem balanced_of_reach {start : ProductId → ℤ} {guard : System → Label → Prop}
    (hguard : ∀ s l, Reach System.step (OpensWith start) guard s → guard s l → PaymentsAgree s)
    (h : Reach System.step (OpensWith start) guard s) : Balanced start s := by
  refine h.induct (I := Balanced start) (fun _ => .of_opensWith)
    fun s l s' hreach hinv hg hs => ?_
  have hopens := hreach.of_init fun _ hopens => hopens.opens
  exact hinv.step (backed_of_reach hopens).2 (vouched_of_reach hopens) (hguard s l hreach hg) hs

/-- **The stock ledger holds in every run in which no order gets payments of both kinds**:
whatever is duplicated, lost or crashes, `reservedQuantity` is what the RESERVED
reservations ask for, and `availableQuantity` what there was less what the CONFIRMED ones
have taken, and no more is reserved than there is. -/
theorem stock_ledger_of_reach {start : ProductId → ℤ}
    (h : Reach System.step (OpensWith start) (fun s _ => PaymentsAgree s) s) :
    Inventory.Ledger start s.inventory :=
  (balanced_of_reach (fun _ _ _ => id) h).ledger

/-! ## Runs -/

instance (s : System) : Decidable (PaymentsAgree s) :=
  inferInstanceAs (Decidable (∀ r₁ ∈ s.payments, ∀ r₂ ∈ s.payments,
    r₁.orderId = r₂.orderId → r₁.status = r₂.status))

theorem opensWith_newShop : OpensWith (fun _ => Inventory.DEFAULT_STOCK_QUANTITY) newShop :=
  ⟨opens_newShop, fun _ _ => rfl, fun _ _ hrow => by cases hrow⟩

/-- The order is paid and its stock confirmed. -/
theorem stock_moves_with_money_of_paid :
    ∃ s row, Reach System.step Opens (fun _ _ => True) s ∧
      s.inventory.reservations.lookup "o" = some row ∧ row.status = .confirmed ∧
      (∃ order, s.orders.lookup "o" = some order ∧ row.items = reservedItems order.items) ∧
      (row.status = .confirmed → Recorded s "o" .success) ∧
      (row.status = .released → Recorded s "o" .failed) := by
  obtain ⟨s, hreach, hs⟩ := Reach.exists_of_follow System.step Opens (fun _ _ => True)
    opens_newShop
    ([someOrder] ++ relayed ++ called (.created someCreated) ++ requested ++ paid ++
      called (.succeeded ⟨"o", some 0, .success⟩))
    (fun s => s.inventory.statusOf "o" = some .confirmed) (by decide +kernel)
  obtain ⟨row, hrow, hst⟩ := Option.map_eq_some_iff.mp (of_decide_eq_true hs)
  exact ⟨s, row, hreach, hrow, hst, stock_moves_with_money hreach hrow⟩

/-- A copy of `order.created` is handled again once the order is paid and its stock
confirmed. -/
theorem stock_ledger_of_copy :
    ∃ s, Reach System.step (OpensWith fun _ => Inventory.DEFAULT_STOCK_QUANTITY)
        (fun s _ => PaymentsAgree s) s ∧ s.inventory.stock.lookup "p" = some ⟨998, 0⟩ ∧
      Inventory.Ledger (fun _ => Inventory.DEFAULT_STOCK_QUANTITY) s.inventory := by
  obtain ⟨s, hreach, hs⟩ := Reach.exists_of_follow System.step
    (OpensWith fun _ => Inventory.DEFAULT_STOCK_QUANTITY) (fun s _ => PaymentsAgree s)
    opensWith_newShop
    ([someOrder, copied] ++ relayed ++ called (.created someCreated) ++ requested ++ paid ++
      called (.succeeded ⟨"o", some 0, .success⟩) ++ relayed ++ called (.created someCreated))
    (fun s => s.inventory.stock.lookup "p" = some ⟨998, 0⟩) (by decide +kernel)
  exact ⟨s, hreach, of_decide_eq_true hs, stock_ledger_of_reach hreach⟩

end Saga

end Ecommerce
