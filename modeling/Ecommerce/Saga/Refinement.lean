import Ecommerce.Common.Process
import Ecommerce.Saga.Books
import Mathlib.Data.Fintype.Defs
/-!
# What the saga is for

Seen from outside, an order is one thing that goes through phases, and a
phase is what the three databases say of it together. `refines_of_reach`
proves that the composed saga refines that process, where messages are
delivered once and the orchestrator leaves no stock behind: with any
number of orders under way at once, every step leaves all orders where
they are or takes one of them to its next phase.
-/

namespace Ecommerce

namespace Saga

open Inventory (ReservationStatus)

/-! ## Phases -/

/-- Where an order stands in the three databases. -/
inductive Phase
  | placed
  /-- Its items could not be reserved. -/
  | refused
  /-- Its items are reserved; order-service does not know yet. -/
  | held
  | reserved
  /-- Its payment has succeeded. -/
  | charged
  /-- Its items have left the stock; order-service does not know yet. -/
  | confirmed
  | completed
  /-- Its payment has failed. -/
  | declined
  /-- Its items are back in the stock; order-service does not know yet. -/
  | released
  /-- It is cancelled, and its items are still to be released. -/
  | owed
  | cancelled
deriving DecidableEq

/-- What the databases say of an order: its status, the status of its reservation, and those
of its payments. -/
abbrev View := Option OrderStatus × Option ReservationStatus × List PaymentStatus

namespace Phase

def status : Phase → OrderStatus
  | placed | held => .pending
  | refused | owed | cancelled => .cancelled
  | completed => .completed
  | reserved | charged | confirmed | declined | released => .inventoryReserved

def stock : Phase → Option ReservationStatus
  | placed | refused => none
  | held | reserved | charged | declined | owed => some .reserved
  | confirmed | completed => some .confirmed
  | released | cancelled => some .released

def paid : Phase → Option PaymentStatus
  | placed | refused | held | reserved => none
  | charged | confirmed | completed => some .success
  | declined | released | owed | cancelled => some .failed

def view (p : Phase) : View := (some p.status, p.stock, p.paid.toList)

/-- The phases that come after a phase. -/
def after : Phase → List Phase
  | placed => [held, refused]
  | held => [reserved]
  | reserved => [charged, declined]
  | charged => [confirmed]
  | confirmed => [completed]
  | declined => [released, owed]
  | released => [cancelled]
  | owed => [cancelled]
  | refused | completed | cancelled => []

def next (p q : Phase) : Bool := q ∈ p.after

def all : List Phase :=
  [placed, refused, held, reserved, charged, confirmed, completed, declined, released, owed,
    cancelled]

theorem mem_all (p : Phase) : p ∈ all := by
  cases p <;> decide

instance : Fintype Phase := ⟨⟨all, by decide⟩, mem_all⟩

/-- The phase of a view. -/
def ofView (v : View) : Option Phase := all.find? fun p => p.view = v

variable {p q : Phase} {v : View}

theorem eq_of_view (h : p.view = q.view) : p = q := by
  revert p q
  decide

theorem ofView_eq_some_iff : ofView v = some p ↔ v = p.view := by
  unfold ofView
  constructor
  · intro h
    simpa [eq_comm] using List.find?_some h
  · rintro rfl
    cases hfind : all.find? fun q => q.view = p.view with
    | none => exact absurd (decide_eq_true rfl) (List.find?_eq_none.mp hfind p (mem_all p))
    | some q =>
      have hview : q.view = p.view := by simpa using List.find?_some hfind
      rw [eq_of_view hview]

theorem ofView_none (h : v.1 = none) : ofView v = none := by
  cases hfind : ofView v with
  | none => rfl
  | some p =>
    rw [ofView_eq_some_iff.mp hfind] at h
    cases h

/-! What part of a view says about the phase. -/

theorem of_held (hstock : p.stock = some .reserved) (hpaid : p.paid = none) :
    p = .held ∨ p = .reserved := by
  revert p
  decide

theorem of_unstocked (hstock : p.stock = none) : p = .placed ∨ p = .refused := by
  revert p
  decide

theorem of_confirmed (hstock : p.stock = some .confirmed) : p = .confirmed ∨ p = .completed := by
  revert p
  decide

theorem of_success (hpaid : p.paid = some .success) :
    p = .charged ∨ p = .confirmed ∨ p = .completed := by
  revert p
  decide

theorem of_failed (hpaid : p.paid = some .failed) :
    p = .declined ∨ p = .released ∨ p = .owed ∨ p = .cancelled := by
  revert p
  decide

end Phase

/-! ## Views -/

/-- The statuses of an order's payments. -/
def chargesOf (s : System) (o : OrderId) : List PaymentStatus :=
  (s.payments.filter fun row => row.orderId = o).map Payments.Payment.status

/-- What the databases say of an order. -/
def viewOf (s : System) (o : OrderId) : View :=
  (s.statusOf o, s.inventory.statusOf o, chargesOf s o)

/-- The phase of an order. -/
def phaseOf (s : System) (o : OrderId) : Option Phase := Phase.ofView (viewOf s o)

/-- Every order is in a phase. -/
def Phased (s : System) : Prop := ∀ o, s.statusOf o ≠ none → ∃ p : Phase, viewOf s o = p.view

/-- **What a step does to the orders**: none of them is touched, one is placed, or one of them
goes to its next phase. -/
inductive Advances (s s' : System) : Prop
  | same (h : ∀ o, viewOf s' o = viewOf s o)
  | places (o : OrderId) (hother : ∀ o', o' ≠ o → viewOf s' o' = viewOf s o')
      (hnone : s.statusOf o = none) (hplaced : viewOf s' o = Phase.placed.view)
  | goes (o : OrderId) (p q : Phase) (hother : ∀ o', o' ≠ o → viewOf s' o' = viewOf s o')
      (hp : viewOf s o = p.view) (hq : viewOf s' o = q.view) (hnext : p.next q = true)

variable {s s' base : System} {t : Token} {o : OrderId} {l : Label} {p q : Phase}

theorem mem_chargesOf_iff {status : PaymentStatus} :
    status ∈ chargesOf s o ↔ Recorded s o status := by
  rw [chargesOf, List.mem_map]
  refine exists_congr fun row => ?_
  rw [List.mem_filter, decide_eq_true_eq, and_assoc]

theorem chargesOf_eq_nil_iff :
    chargesOf s o = [] ↔ ∀ row ∈ s.payments, row.orderId ≠ o := by
  rw [chargesOf, List.map_eq_nil_iff, List.filter_eq_nil_iff]
  simp

theorem viewOf_of_same (horders : s'.orders = s.orders) (hinventory : s'.inventory = s.inventory)
    (hpayments : s'.payments = s.payments) (o : OrderId) : viewOf s' o = viewOf s o := by
  rw [viewOf, viewOf, System.statusOf, System.statusOf, chargesOf, chargesOf, horders, hinventory,
    hpayments]

/-- The parts of a phase's view. -/
theorem parts_of_view (h : viewOf s o = p.view) :
    s.statusOf o = some p.status ∧ s.inventory.statusOf o = p.stock ∧
      chargesOf s o = p.paid.toList := by
  obtain ⟨hstatus, hrest⟩ := Prod.mk.inj h
  obtain ⟨hstock, hpaid⟩ := Prod.mk.inj hrest
  exact ⟨hstatus, hstock, hpaid⟩

theorem paid_of_recorded {status : PaymentStatus} (h : viewOf s o = p.view)
    (hrec : Recorded s o status) : p.paid = some status := by
  have hmem := mem_chargesOf_iff.mpr hrec
  rw [(parts_of_view h).2.2] at hmem
  exact Option.mem_toList.mp hmem

theorem paid_of_unpaid (h : viewOf s o = p.view) (hunpaid : ∀ row ∈ s.payments, row.orderId ≠ o) :
    p.paid = none := by
  have hnil := chargesOf_eq_nil_iff.mpr hunpaid
  rw [(parts_of_view h).2.2] at hnil
  cases hpaid : p.paid with
  | none => rfl
  | some status => rw [hpaid] at hnil; cases hnil

/-- An order that stays or goes on. -/
theorem Advances.of_next (hother : ∀ o', o' ≠ o → viewOf s' o' = viewOf s o')
    (hp : viewOf s o = p.view) (hq : viewOf s' o = q.view) (h : q = p ∨ p.next q = true) :
    Advances s s' := by
  rcases h with rfl | hnext
  · refine .same fun o' => ?_
    by_cases heq : o' = o
    · rw [heq, hp, hq]
    · exact hother o' heq
  · exact .goes o p q hother hp hq hnext

theorem Advances.phased (h : Advances s s') (hphased : Phased s) : Phased s' := by
  have hkept : ∀ o, viewOf s' o = viewOf s o → s'.statusOf o ≠ none →
      ∃ p : Phase, viewOf s' o = p.view := by
    intro o hsame hsome
    have hstatus : s'.statusOf o = s.statusOf o := congrArg Prod.fst hsame
    obtain ⟨p, hp⟩ := hphased o (hstatus ▸ hsome)
    exact ⟨p, hsame.trans hp⟩
  intro o hsome
  cases h with
  | same h => exact hkept o (h o) hsome
  | places o' hother hnone hplaced =>
    by_cases heq : o = o'
    · exact ⟨.placed, heq ▸ hplaced⟩
    · exact hkept o (hother o heq) hsome
  | goes o' p q hother hp hq hnext =>
    by_cases heq : o = o'
    · exact ⟨q, heq ▸ hq⟩
    · exact hkept o (hother o heq) hsome

/-- **In the process** that is a step, or none. -/
theorem Advances.simulates (h : Advances s s') : phaseOf s' = phaseOf s ∨
    ∃ m, Process.step Phase.placed Phase.next (phaseOf s) m = some (phaseOf s') := by
  cases h with
  | same h => exact .inl (funext fun o => congrArg Phase.ofView (h o))
  | places o hother hnone hplaced =>
    refine .inr (Process.exists_move (k := o) (fun o' hne => congrArg Phase.ofView (hother o' hne))
      (.inl ⟨Phase.ofView_none hnone, Phase.ofView_eq_some_iff.mpr hplaced⟩))
  | goes o p q hother hp hq hnext =>
    refine .inr (Process.exists_move (k := o) (fun o' hne => congrArg Phase.ofView (hother o' hne))
      (.inr ⟨p, q, Phase.ofView_eq_some_iff.mpr hp, Phase.ofView_eq_some_iff.mpr hq, hnext⟩))

/-! ## What is known in a run -/

/-- The invariants of the runs of messages delivered once that leave no stock behind. -/
structure Steady (s : System) : Prop where
  formed : ∀ t ∈ s.flight, t.Formed
  backed : Backed s
  tidy : Tidy s
  orderly : Orderly s
  vouched : Vouched s
  phased : Phased s

namespace Steady

/-- The order of a token has a phase. -/
theorem exists_phase (h : Steady s) (ht : t ∈ s.flight) (ho : t.order = some o) :
    ∃ p : Phase, viewOf s o = p.view := by
  refine h.phased o fun hnone => h.tidy.known t ht o ho ?_
  exact Option.map_eq_none_iff.mp hnone

/-- An order with no payment holds no released stock. -/
theorem stock_of_freed (h : Steady s) (hunpaid : ∀ row ∈ s.payments, row.orderId ≠ o)
    (hfreed : Freed s o) : s.inventory.statusOf o = none := by
  have hnever : ¬ Recorded s o .failed := fun ⟨row, hrow, horder, _⟩ => hunpaid row hrow horder
  rcases hfreed with hnone | hreleased | ⟨-, hpending⟩
  · exact hnone
  · exact absurd (h.vouched.released o hreleased) hnever
  · exact absurd (h.vouched.requests _ hpending) hnever

end Steady

/-! ## The steps that change a store -/

/-- Order-service writes a status. -/
theorem viewOf_setStatus {status : OrderStatus} (hp : viewOf s o = p.view) :
    viewOf (s.setStatus o status) o = (some status, p.stock, p.paid.toList) := by
  obtain ⟨hstatus, hstock, hpaid⟩ := parts_of_view hp
  obtain ⟨order, ho, -⟩ := Option.map_eq_some_iff.mp hstatus
  rw [viewOf, System.setStatus_inventory, hstock, System.statusOf, System.lookup_setStatus,
    if_pos rfl, ho, chargesOf, System.setStatus_payments, ← chargesOf, hpaid]
  rfl

theorem viewOf_setStatus_of_ne {status : OrderStatus} {o' : OrderId} (hne : o' ≠ o) :
    viewOf (s.setStatus o status) o' = viewOf s o' := by
  rw [viewOf, viewOf, System.setStatus_inventory, System.statusOf, System.lookup_setStatus,
    if_neg hne, chargesOf, System.setStatus_payments]
  rfl

/-- **The status of an order is written** where the other databases allow it. -/
theorem Steady.writes (h : Steady s) {event : Event} {status : OrderStatus} {rpc : Rpc}
    (ht : Token.saga event (.update status) rpc ∈ s.flight) :
    Advances s (s.setStatus event.orderId status) := by
  have hformed : event.Reaches (.update status) := h.formed _ ht
  have hknows := (h.backed.tokens _ ht).2.1
  have hevent := (h.backed.tokens _ ht).1
  obtain ⟨p, hp⟩ := h.exists_phase ht rfl
  obtain ⟨-, hstock, -⟩ := parts_of_view hp
  have hgoes : ∀ q : Phase, (some status, p.stock, p.paid.toList) = q.view →
      (q = p ∨ p.next q = true) → Advances s (s.setStatus event.orderId status) :=
    fun q hq hnext => .of_next (fun o' hne => viewOf_setStatus_of_ne hne) hp
      ((viewOf_setStatus hp).trans hq) hnext
  cases event with
  | created event =>
    have hunpaid := h.orderly.paid.unpaid _ ht rfl _ (lineOf_update (.created event) status rpc)
    rcases hformed with rfl | rfl
    · -- What was reserved is.
      have hheld : s.inventory.statusOf event.orderId = some .reserved :=
        (h.tidy.stage _ ht event.orderId .held rfl).1
      rcases Phase.of_held (hstock.symm.trans hheld) (paid_of_unpaid hp hunpaid) with rfl | rfl
      · exact hgoes .reserved rfl (.inr rfl)
      · exact hgoes .reserved rfl (.inl rfl)
    · -- What was refused is not.
      have hnone := h.stock_of_freed hunpaid (h.tidy.stage _ ht event.orderId .freed rfl)
      rcases Phase.of_unstocked (hstock.symm.trans hnone) with rfl | rfl
      · exact hgoes .refused rfl (.inr rfl)
      · exact hgoes .refused rfl (.inl rfl)
  | succeeded event =>
    obtain rfl : status = .completed := hformed
    rcases Phase.of_confirmed (hstock.symm.trans hknows.1) with rfl | rfl
    · exact hgoes .completed rfl (.inr rfl)
    · exact hgoes .completed rfl (.inl rfl)
  | failed event =>
    obtain rfl : status = .cancelled := hformed
    rcases Phase.of_failed (paid_of_recorded hp hevent) with rfl | rfl | rfl | rfl
    · exact hgoes .owed rfl (.inr rfl)
    · exact hgoes .cancelled rfl (.inr rfl)
    · exact hgoes .owed rfl (.inl rfl)
    · exact hgoes .cancelled rfl (.inl rfl)

/-- The reservation of one order is written. -/
theorem Advances.of_replies {req : Inventory.Request} {reply : Inventory.Reply}
    (horders : s'.orders = s.orders) (hpayments : s'.payments = s.payments)
    (h : Inventory.Replies req s.inventory reply s'.inventory) (hp : viewOf s req.orderId = p.view)
    (hgoes : ∀ reason, reply = .result ⟨true, reason⟩ → ∃ q : Phase,
      (some p.status, req.settle p.stock, p.paid.toList) = q.view ∧ (q = p ∨ p.next q = true)) :
    Advances s s' := by
  obtain ⟨hstatus, hstock, hpaid⟩ := parts_of_view hp
  have hcharges : ∀ o, chargesOf s' o = chargesOf s o := fun o => by
    rw [chargesOf, chargesOf, hpayments]
  have horder : ∀ o, s'.statusOf o = s.statusOf o := fun o => by
    rw [System.statusOf, System.statusOf, horders]
  by_cases hsuccess : ∃ reason, reply = .result ⟨true, reason⟩
  · obtain ⟨reason, hreply⟩ := hsuccess
    obtain ⟨q, hq, hnext⟩ := hgoes reason hreply
    refine .of_next (fun o' hne => ?_) hp ?_ hnext
    · rw [viewOf, viewOf, horder, hcharges, h.other o' hne]
    · rw [viewOf, horder, hcharges, h.success reason hreply, hstatus, hstock, hpaid, hq]
  · exact .same (viewOf_of_same horders (h.failure fun reason hr => hsuccess ⟨reason, hr⟩)
      hpayments)

/-- **Inventory-service moves the stock** where the other databases allow it. -/
theorem Steady.serve (h : Steady s) {req : InventoryRpcRequest} {redelivered : Bool}
    {faults : List Bool} (hknows : RequestKnows s req) (ht : t ∈ s.flight)
    (ho : t.order = some req.orderId)
    (hreserve : ∀ o items, req = .reserve o items →
      s.accepts faults (req.toRequest redelivered) = true →
      s.inventory.statusOf o = none ∧ s.statusOf o ≠ some .cancelled)
    (horders : s'.orders = s.orders) (hpayments : s'.payments = s.payments)
    (hinventory : s'.inventory = (Inventory.serve faults (req.toRequest redelivered)
      s.inventory).2) : Advances s s' := by
  obtain ⟨reply, hreply, hreplies, -⟩ :=
    Inventory.serve_replies faults (req.toRequest redelivered) h.backed.stored
  obtain ⟨p, hp⟩ := h.exists_phase ht ho
  obtain ⟨hstatus, hstock, -⟩ := parts_of_view hp
  rw [← hinventory] at hreplies
  cases req with
  | reserve o items =>
    refine .of_replies horders hpayments hreplies hp fun reason hsuccess => ?_
    obtain ⟨hnone, hopen⟩ := hreserve o items rfl ((accepts_iff hreply).mpr ⟨reason, hsuccess⟩)
    rcases Phase.of_unstocked (hstock.symm.trans hnone) with rfl | rfl
    · exact ⟨.held, rfl, .inr rfl⟩
    · exact absurd hstatus hopen
  | confirm o =>
    refine .of_replies horders hpayments hreplies hp fun reason _ => ?_
    rcases Phase.of_success (paid_of_recorded hp hknows) with rfl | rfl | rfl
    · exact ⟨.confirmed, rfl, .inr rfl⟩
    · exact ⟨.confirmed, rfl, .inl rfl⟩
    · exact ⟨.completed, rfl, .inl rfl⟩
  | release o =>
    refine .of_replies horders hpayments hreplies hp fun reason _ => ?_
    rcases Phase.of_failed (paid_of_recorded hp hknows) with rfl | rfl | rfl | rfl
    · exact ⟨.released, rfl, .inr rfl⟩
    · exact ⟨.released, rfl, .inl rfl⟩
    · exact ⟨.cancelled, rfl, .inr rfl⟩
    · exact ⟨.cancelled, rfl, .inl rfl⟩

/-- **A payment is inserted** for an order that is reserved. -/
theorem Steady.saves (h : Steady s) {event : PaymentRequestedEvent} {xDeath : List Death}
    {status : PaymentStatus} {id : ℕ}
    (ht : Token.payment event xDeath (.save status) ∈ s.flight) :
    Advances s (s.insertPayment ⟨id, event.orderId, event.customerId, event.total, status⟩) := by
  have hunpaid := h.orderly.paid.unpaid _ ht rfl _ rfl
  obtain ⟨p, hp⟩ := h.exists_phase ht rfl
  obtain ⟨hstatus, hstock, hpaid⟩ := parts_of_view hp
  have hheld : s.inventory.statusOf event.orderId = some .reserved :=
    (h.tidy.stage _ ht event.orderId .held rfl).1
  obtain ⟨order, ho, hpending, -⟩ := h.orderly.charges.due _ ht event.orderId rfl
  have hcharges : ∀ o, chargesOf (s.insertPayment
      ⟨id, event.orderId, event.customerId, event.total, status⟩) o =
        chargesOf s o ++ if event.orderId = o then [status] else [] := by
    intro o
    rw [chargesOf, System.insertPayment, List.filter_append, List.map_append, ← chargesOf]
    split
    · rw [List.filter_singleton, decide_eq_true ‹_›]
      rfl
    · rw [List.filter_singleton, decide_eq_false ‹_›]
      rfl
  have hview : ∀ q : Phase, (some p.status, p.stock, [status]) = q.view → p.next q = true →
      Advances s (s.insertPayment
        ⟨id, event.orderId, event.customerId, event.total, status⟩) := by
    refine fun q hq hnext => .goes event.orderId p q (fun o' hne => ?_) hp ?_ hnext
    · rw [viewOf, viewOf, hcharges, if_neg hne.symm, List.append_nil]
      rfl
    · rw [viewOf, hcharges, if_pos rfl, chargesOf_eq_nil_iff.mpr hunpaid, ← hq, ← hstatus, ← hstock]
      rfl
  rcases Phase.of_held (hstock.symm.trans hheld) (paid_of_unpaid hp hunpaid) with rfl | rfl
  · rw [System.statusOf, ho] at hstatus
    exact absurd (Option.some.inj hstatus) hpending
  · cases status with
    | success => exact hview .charged rfl rfl
    | failed => exact hview .declined rfl rfl

/-! ## Every step -/

/-- Only the stores are seen. -/
theorem Advances.of_views {s₁ : System} (h : Advances s s₁)
    (hsame : ∀ o, viewOf s' o = viewOf s₁ o) : Advances s s' := by
  cases h with
  | same h => exact .same fun o => (hsame o).trans (h o)
  | places o hother hnone hplaced =>
    exact .places o (fun o' hne => (hsame o').trans (hother o' hne)) hnone ((hsame o).trans hplaced)
  | goes o p q hother hp hq hnext =>
    exact .goes o p q (fun o' hne => (hsame o').trans (hother o' hne)) hp ((hsame o).trans hq) hnext

theorem setStatus_without (t : Token) (o : OrderId) (status : OrderStatus) :
    (s.without t).setStatus o status = (s.setStatus o status).without t := by
  cases ho : s.orders.lookup o with
  | none =>
    have ho' : (s.without t).orders.lookup o = none := ho
    rw [System.setStatus_of_none ho, System.setStatus_of_none ho']
  | some order =>
    have ho' : (s.without t).orders.lookup o = some order := ho
    rw [System.setStatus_of_lookup ho, System.setStatus_of_lookup ho']
    rfl

/-- A new order is placed. -/
theorem Steady.createOrder (h : Steady s) {dto : Orders.CreateOrderDto}
    {result : Except String (Orders.PricesFor dto.productIds)} {order : Orders.Order}
    {event : OrderCreatedEvent} (hcreate : Orders.createOrder o dto result = .ok (order, event))
    (hfresh : s.orders.lookup o = none) {out : Multiset Token} :
    Advances s ({ s with orders := s.orders.insert o order }.add out) := by
  have hpending := (Orders.createOrder_eq hcreate).1
  have hstock : s.inventory.statusOf o = none := by
    by_contra hcon
    exact h.tidy.stocked o hcon hfresh
  have hcharges : chargesOf s o = [] := chargesOf_eq_nil_iff.mpr fun row hrow horder =>
    h.orderly.paid.rows row hrow (horder ▸ hfresh)
  refine .places o (fun o' hne => ?_) ?_ ?_
  · rw [viewOf, viewOf]
    exact congrArg (fun row : Option Orders.Order =>
      (row.map Orders.Order.status, s.inventory.statusOf o', chargesOf s o'))
      (Finmap.lookup_insert_of_ne _ hne)
  · rw [System.statusOf, hfresh]
    rfl
  · have hview : viewOf ({ s with orders := s.orders.insert o order }.add out) o =
        (((s.orders.insert o order).lookup o).map Orders.Order.status, s.inventory.statusOf o,
          chargesOf s o) := rfl
    rw [hview, Finmap.lookup_insert, Option.map_some, hpending, hstock, hcharges]
    rfl

/-- **Every step takes at most one order on**, and to its next phase. -/
theorem Steady.advances (h : Steady s) (hcareful : Careful s l) (honce : l.exactlyOnce = true)
    (hs : s.step l = some s') : Advances s s' := by
  obtain ⟨o, dto, result, order, event, rfl, hcreate, hfresh, rfl⟩ |
    ⟨t, c, base, out, rfl, ht, hr, rfl⟩ | ⟨t, rfl, ht, rfl⟩ := System.step_cases hs
  · exact h.createOrder hcreate hfresh
  · cases hr with
    | handled event redelivered faults =>
      refine h.serve (requestKnows_of_event (h.backed.tokens _ ht).1) ht ?_
        (fun o items heq _ => ?_) rfl rfl rfl
      · cases event <;> rfl
      · cases event with
        | created event =>
          obtain ⟨rfl, -⟩ := InventoryRpcRequest.reserve.inj heq
          obtain ⟨hnone, -, hopen⟩ := h.tidy.stage _ ht event.orderId .fresh rfl
          exact ⟨hnone, hopen⟩
        | succeeded event => cases heq
        | failed event => cases heq
    | serves req redelivered faults =>
      refine h.serve (h.vouched.requests _ ht) ht rfl (fun o items heq haccepts => ?_) rfl rfl rfl
      -- A reserve request nobody waits for is declined.
      subst heq
      have hdeclined := hcareful.answers
      simp only [Answers, haccepts, Bool.not_true] at hdeclined
      cases hdeclined
    | writes event status rpc =>
      refine (h.writes ht).of_views fun o => ?_
      rw [setStatus_without]
      rfl
    | saves event xDeath status => exact (h.saves ht).of_views fun o => rfl
    | _ => exact .same fun o => rfl
  · cases honce

/-! ## Every run -/

/-- The runs of messages delivered once in which the orchestrator leaves no stock behind. -/
abbrev Orderable (s : System) (l : Label) : Prop := l.exactlyOnce = true ∧ Careful s l

theorem steady_of_phased (h : Reach System.step Opens Orderable s) (hphased : Phased s) :
    Steady s := by
  obtain ⟨hformed, hbacked⟩ := backed_of_reach h
  have horderly : Orderly s := orderly_of_reach (h.mono fun _ _ hg => hg.1)
  have htidy : Tidy s := h.induct (fun _ => .of_opens) fun s l s' hreach hinv hg hs =>
    hinv.step (backed_of_reach hreach).1 hg.1 hg.2 hs
  exact ⟨hformed, hbacked, htidy, horderly, vouched_of_reach h, hphased⟩

theorem advances_of_reach (h : Reach System.step Opens Orderable s) (hphased : Phased s)
    (hl : Orderable s l) (hs : s.step l = some s') : Advances s s' :=
  (steady_of_phased h hphased).advances hl.2 hl.1 hs

theorem phased_of_reach (h : Reach System.step Opens Orderable s) : Phased s := by
  refine h.induct (I := Phased) (fun s hopens o hsome => ?_) fun _ _ _ hreach hinv hl hs =>
    (advances_of_reach hreach hinv hl hs).phased hinv
  rw [System.statusOf, hopens.orders] at hsome
  exact absurd rfl hsome

/-- **The process an order goes through.** -/
abbrev OrderProcess : (OrderId → Option Phase) → Process.Move OrderId Phase →
    Option (OrderId → Option Phase) :=
  Process.step Phase.placed Phase.next

/-- A run of the saga is one of the process. -/
theorem process_of_reach {s₀ : System} (h₀ : Reach System.step Opens Orderable s₀)
    (h : Reach System.step (fun u => u = s₀) Orderable s) :
    Reach OrderProcess (fun u => u = phaseOf s₀) (fun _ _ => True) (phaseOf s) := by
  refine h.project phaseOf (fun u hu => by rw [hu]) fun u l u' hreach hl hs => ?_
  have hrun := h₀.trans hreach
  rcases (advances_of_reach hrun (phased_of_reach hrun) hl hs).simulates with hsame | ⟨m, hm⟩
  · exact .inl hsame
  · exact .inr ⟨m, trivial, hm⟩

/-- **An order only goes on**: from every state of such a run to every later one it takes a
path through the phases. -/
theorem goes_on_of_reach {s₀ : System} (h₀ : Reach System.step Opens Orderable s₀)
    (h : Reach System.step (fun u => u = s₀) Orderable s) (hp : viewOf s₀ o = p.view) :
    ∃ q, viewOf s o = q.view ∧ Relation.ReflTransGen (fun a b => Phase.next a b = true) p q := by
  obtain ⟨q, hq, hpath⟩ := Process.path_of_reach (process_of_reach h₀ h)
    (Phase.ofView_eq_some_iff.mpr hp)
  exact ⟨q, Phase.ofView_eq_some_iff.mp hq, hpath⟩

/-- **What is decided about an order stays so**, in all three databases. -/
theorem final_of_reach {s₀ : System} (h₀ : Reach System.step Opens Orderable s₀)
    (h : Reach System.step (fun u => u = s₀) Orderable s) (hfinal : p.after = [])
    (hp : viewOf s₀ o = p.view) : viewOf s o = p.view := by
  obtain ⟨q, hq, hpath⟩ := goes_on_of_reach h₀ h hp
  have hlast : ∀ q, p.next q = false := fun q => by rw [Phase.next, hfinal]; rfl
  rwa [Process.eq_of_path hlast hpath] at hq

/-! ## Runs -/

/-- One order is completed while another one is placed. -/
def completedRun : List Label :=
  [someOrder] ++ relayed ++ called (.created someCreated) ++ requested ++ paid ++
    [placed "o2" 1] ++ completed

/-- The items of the other order are reserved next. -/
def heldOther : List Label :=
  [.act (.outbox ⟨"o2", "c", 5, [⟨"p", 1, 5⟩]⟩) .go,
    .act (.queued .orderCreated ⟨.orderCreated ⟨"o2", "c", 5, [⟨"p", 1, 5⟩]⟩, []⟩) .go] ++
    (called (.created ⟨"o2", "c", 5, [⟨"p", 1, 5⟩]⟩)).take 2

theorem final_of_completed :
    ∃ s₀ s, Reach System.step Opens Orderable s₀ ∧
      Reach System.step (fun u => u = s₀) Orderable s ∧
      viewOf s₀ "o" = Phase.completed.view ∧ viewOf s "o2" = Phase.held.view ∧
      viewOf s "o" = Phase.completed.view := by
  obtain ⟨s₀, h₀, hs₀⟩ := Reach.exists_of_follow System.step Opens Orderable opens_newShop
    completedRun (fun s => viewOf s "o" = Phase.completed.view &&
      (follow System.step Orderable s heldOther).any fun s => viewOf s "o2" = Phase.held.view)
    (by decide +kernel)
  rw [Bool.and_eq_true, decide_eq_true_eq] at hs₀
  obtain ⟨s, h, hs⟩ := Reach.exists_of_follow System.step (fun u => u = s₀) Orderable rfl heldOther
    (fun s => viewOf s "o2" = Phase.held.view) hs₀.2
  exact ⟨s₀, s, h₀, h, hs₀.1, of_decide_eq_true hs, final_of_reach h₀ h rfl hs₀.1⟩

end Saga

end Ecommerce
