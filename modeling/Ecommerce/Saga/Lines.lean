import Ecommerce.Saga.Tokens
/-!
# The line of events of an order

When every message is delivered once, an order has one line of events:
from the outbox row to the handler that writes its last status at most one
token carries it on. `Stage` is what the orchestrator believes of the
order's stock at that token; no act but a crash splits a line or takes up
one that has ended.
-/

namespace Ecommerce

namespace Saga

/-! ## What the orchestrator believes -/

/-- Where the line of events of an order stands. -/
inductive Stage
  /-- Nothing is reserved yet. -/
  | fresh
  /-- The reply to the reservation was lost. -/
  | begun
  /-- The items are reserved. -/
  | held
  /-- The items are released, or were never reserved. -/
  | freed
  /-- The payment has succeeded. -/
  | settled

/-- A release of the order is on its way. -/
def Pending (s : System) (o : OrderId) : Prop := Token.request (.release o) ∈ s.flight

/-- The order holds no stock, or is about to give it back. -/
def Freed (s : System) (o : OrderId) : Prop :=
  s.inventory.statusOf o = none ∨ s.inventory.statusOf o = some .released ∨
    s.inventory.statusOf o = some .reserved ∧ Pending s o

/-- **What holds of an order at a stage.** -/
def Stage.Holds (s : System) (o : OrderId) : Stage → Prop
  | fresh => s.inventory.statusOf o = none ∧ ¬ Pending s o ∧ s.statusOf o ≠ some .cancelled
  | begun => (s.inventory.statusOf o = none ∨ s.inventory.statusOf o = some .reserved) ∧
      ¬ Pending s o ∧ s.statusOf o ≠ some .cancelled
  | held => s.inventory.statusOf o = some .reserved ∧ ¬ Pending s o ∧
      s.statusOf o ≠ some .cancelled
  | freed => Freed s o
  | settled => s.statusOf o ≠ some .cancelled

/-- The stage at a handler's point; a handler that is telling the customer has done its part. -/
def Event.stage : Event → Pc → Rpc → Option Stage
  | .created _, .call, .replied r => if r.success then some .held else some .fresh
  | .created _, .call, .lost => some .begun
  | .created _, .call, _ => some .fresh
  | .created _, .update .cancelled, _ => some .freed
  | .created _, .update _, _ => some .held
  | .created _, .publishPayment _, _ => some .held
  | .failed _, .call, .idle => some .held
  | .failed _, .call, .requested => some .held
  | .failed _, .call, _ => some .freed
  | .failed _, .update _, _ => some .freed
  | .succeeded _, .call, _ => some .settled
  | .succeeded _, .update _, _ => some .settled
  | _, _, _ => none

namespace Token

/-- The line of events a token belongs to, and its stage. -/
def line : Token → Option (OrderId × Stage)
  | .outbox event => some (event.orderId, .fresh)
  | .queued _ ⟨.orderCreated event, _⟩ => some (event.orderId, .fresh)
  | .queued _ ⟨.paymentRequested event, _⟩ => some (event.orderId, .held)
  | .queued _ ⟨.paymentResult event, _⟩ => some (event.orderId, .held)
  | .saga event pc rpc => (event.stage pc rpc).map fun stage => (event.orderId, stage)
  | .request (.confirm o) => some (o, .settled)
  | .payment event _ _ => some (event.orderId, .held)
  | _ => none

/-- The order of the line a token belongs to. -/
def lineOf (t : Token) : Option OrderId := t.line.map Prod.fst

/-- The order a token is about. -/
def order : Token → Option OrderId
  | .outbox event => some event.orderId
  | .queued _ ⟨.orderCreated event, _⟩ => some event.orderId
  | .queued _ ⟨.paymentRequested event, _⟩ => some event.orderId
  | .queued _ ⟨.paymentResult event, _⟩ => some event.orderId
  | .queued _ ⟨.statusChanged o _ _, _⟩ => some o
  | .saga event _ _ => some event.orderId
  | .request req => some req.orderId
  | .payment event _ _ => some event.orderId

end Token

/-- How many tokens belong to the line of an order. -/
def lines (o : OrderId) (ts : Multiset Token) : ℕ :=
  ts.countP fun t => t.lineOf = some o

variable {s s' base : System} {t u : Token} {c : Choice} {out : Multiset Token} {o o' : OrderId}

/-! ## Lines -/

theorem lineOf_of_line {stage : Stage} (h : t.line = some (o, stage)) : t.lineOf = some o := by
  rw [Token.lineOf, h, Option.map_some]

/-- A token belongs to the line of the order it is about. -/
theorem order_of_lineOf (h : t.lineOf = some o) : t.order = some o := by
  obtain ⟨⟨o', stage⟩, hline, rfl⟩ := Option.map_eq_some_iff.mp h
  unfold Token.line at hline
  split at hline
  · exact congrArg _ (Prod.mk.inj (Option.some.inj hline)).1
  · exact congrArg _ (Prod.mk.inj (Option.some.inj hline)).1
  · exact congrArg _ (Prod.mk.inj (Option.some.inj hline)).1
  · exact congrArg _ (Prod.mk.inj (Option.some.inj hline)).1
  · obtain ⟨stage', -, heq⟩ := Option.map_eq_some_iff.mp hline
    exact congrArg _ (Prod.mk.inj heq).1
  · exact congrArg _ (Prod.mk.inj (Option.some.inj hline)).1
  · exact congrArg _ (Prod.mk.inj (Option.some.inj hline)).1
  · cases hline

theorem lineOf_call (event : Event) (rpc : Rpc) :
    Token.lineOf (.saga event .call rpc) = some event.orderId := by
  cases event with
  | created event => 
    cases rpc with
    | replied r =>
      obtain ⟨success, reason⟩ := r
      cases success <;> rfl
    | _ => rfl
  | succeeded event => rfl
  | failed event => cases rpc <;> rfl

theorem lineOf_update (event : Event) (status : OrderStatus) (rpc : Rpc) :
    Token.lineOf (.saga event (.update status) rpc) = some event.orderId := by
  cases event with
  | created event => cases status <;> rfl
  | _ event => rfl

/-- A handler that has written a terminal status has left the line. -/
theorem lineOf_tells (event : Event) {pc : Pc} (rpc : Rpc) (h : pc.tells = true) :
    Token.lineOf (.saga event pc rpc) = none := by
  cases pc with
  | find status => cases event <;> rfl
  | publishStatus status customerId => cases event <;> rfl
  | _ => cases h

theorem lines_add (o : OrderId) (ts us : Multiset Token) :
    lines o (ts + us) = lines o ts + lines o us := Multiset.countP_add _ _ _

theorem lines_erase (h : t ∈ s.flight) (o : OrderId) : lines o s.flight =
    lines o (s.flight.erase t) + if t.lineOf = some o then 1 else 0 := by
  unfold lines
  conv_lhs => rw [← Multiset.cons_erase h]
  exact Multiset.countP_cons _ _ _

theorem order_goOn (event : Event) (pc : Pc) : ∀ u ∈ goOn event pc, u.order = some event.orderId := by
  intro u hu
  rw [mem_goOn hu]
  rfl

theorem order_abandoned (event : Event) (pc : Pc) (rpc : Rpc) :
    ∀ u ∈ abandoned event pc rpc, u.order = some event.orderId := by
  intro u hu
  rw [mem_abandoned hu]
  cases event <;> rfl

theorem order_start {queue : Queue} {m : Message} (h : start queue m = some u) :
    u.order = Token.order (.queued queue m) ∧ u.lineOf = Token.lineOf (.queued queue m) := by
  cases starts_of_start h <;> exact ⟨rfl, rfl⟩

/-- **An act is about the order of its token.** -/
theorem React.order (hr : React s t c base out) (hformed : t.Formed) :
    ∀ u ∈ out, u.order = t.order := by
  have hone : ∀ {u : Token}, u.order = t.order → ∀ v ∈ ({u} : Multiset Token), v.order = t.order :=
    fun hu v hv => (Multiset.mem_singleton.mp hv).symm ▸ hu
  cases hr with
  | starts h => exact hone (order_start h).1
  | expires m hq =>
    obtain ⟨body, xDeath⟩ := m
    refine hone ?_
    cases body <;> rfl
  | hears event r => exact order_goOn event _
  | givesUp event rpc message =>
    intro u hu
    exact (Multiset.mem_add.mp hu).elim (order_abandoned event .call rpc u) (order_goOn event _ u)
  | writes event status rpc => exact order_goOn event _
  | writeFails event status rpc message => exact order_goOn event _
  | tells event rpc c hpc hpc' => exact order_goOn event _
  | requests event request rpc =>
    refine hone ?_
    cases event with
    | created event =>
      obtain rfl : request = paymentOf event := hformed
      rfl
    | _ event => exact hformed.elim
  | crashes event pc rpc =>
    intro u hu
    refine (Multiset.mem_add.mp hu).elim (order_abandoned event pc rpc u) fun hu => ?_
    obtain rfl := Multiset.mem_singleton.mp hu
    cases event <;> rfl
  | movesToDlq event xDeath => exact absurd rfl hformed.2.1
  | requestFails event request rpc message => intro u hu; cases hu
  | serves req redelivered faults => intro u hu; cases hu
  | paid row hrow horder => intro u hu; cases hu
  | retryDropped event xDeath => intro u hu; cases hu
  | announceFails message hpc => intro u hu; cases hu
  | vanishes hgone => intro u hu; cases hu
  | _ => exact hone rfl

/-- How many tokens belong to any line. -/
def lined (ts : Multiset Token) : ℕ := ts.countP fun t => t.lineOf.isSome

theorem lines_le_lined (o : OrderId) (ts : Multiset Token) : lines o ts ≤ lined ts :=
  Quotient.inductionOn ts fun _ => List.countP_mono_left fun t _ h => by
    rw [decide_eq_true_eq] at h ⊢
    exact Option.isSome_of_eq_some h

theorem lined_singleton (t : Token) : lined {t} ≤ 1 := Multiset.countP_le_card _ _

theorem lined_goOn (event : Event) (pc : Pc) : lined (goOn event pc) ≤ 1 := by
  cases pc with
  | returned => exact Nat.zero_le 1
  | _ => exact lined_singleton _

theorem lined_of_isSome (h : t.lineOf.isSome) : lined {t} = 1 :=
  Multiset.countP_eq_card.mpr fun _ hu => (Multiset.mem_singleton.mp hu).symm ▸ h

theorem lined_of_none (h : ∀ u ∈ out, u.lineOf = none) : lined out = 0 :=
  Multiset.countP_eq_zero.mpr fun u hu => by rw [h u hu]; simp

/-- A caller that gives up either stays in the line or leaves its request there. -/
theorem lined_givesUp (event : Event) (rpc : Rpc) (message : String) :
    lined (abandoned event .call rpc + goOn event (afterCall event (.error message))) ≤ 1 := by
  cases rpc with
  | requested => cases event <;> exact Nat.le_refl 1
  | _ =>
    change lined (0 + _) ≤ 1
    rw [zero_add]
    exact lined_goOn _ _

/-- **No act splits a line**, and none but a crash takes one up again. -/
theorem React.lined_le (hr : React s t c base out) (hformed : t.Formed) (hc : c ≠ .crash) :
    lined out ≤ lined {t} := by
  have hline : t.lineOf.isSome → lined out ≤ 1 → lined out ≤ lined {t} := fun h hout => by
    rwa [lined_of_isSome h]
  cases hr with
  | starts h =>
    unfold lined
    rw [← Multiset.cons_zero, ← Multiset.cons_zero, Multiset.countP_cons, Multiset.countP_cons,
      (order_start h).2]
  | expires m hq =>
    obtain ⟨body, xDeath⟩ := m
    cases body <;> exact le_refl _
  | sends event => exact hline (by rw [lineOf_call]; rfl) (lined_singleton _)
  | handled event redelivered faults =>
    exact hline (by rw [lineOf_call]; rfl) (lined_singleton _)
  | hears event r => exact hline (by rw [lineOf_call]; rfl) (lined_goOn _ _)
  | loses event r => exact hline (by rw [lineOf_call]; rfl) (lined_singleton _)
  | givesUp event rpc message => exact hline (by rw [lineOf_call]; rfl) (lined_givesUp _ _ _)
  | writes event status rpc => exact hline (by rw [lineOf_update]; rfl) (lined_goOn _ _)
  | writeFails event status rpc message =>
    exact hline (by rw [lineOf_update]; rfl) (lined_goOn _ _)
  | tells event rpc c hpc hpc' =>
    refine (lined_of_none fun u hu => ?_).trans_le (Nat.zero_le _)
    rcases hpc' with hpc' | rfl
    · rw [mem_goOn hu]
      exact lineOf_tells event _ hpc'
    · cases hu
  | requests event request rpc =>
    cases event with
    | created event => exact hline rfl (lined_singleton _)
    | _ event => exact hformed.elim
  | requestFails event request rpc message => exact Nat.zero_le _
  | crashes event pc rpc => exact absurd rfl hc
  | serves req redelivered faults => exact Nat.zero_le _
  | paid row hrow horder => exact Nat.zero_le _
  | movesToDlq event xDeath => exact absurd rfl hformed.2.1
  | retryDropped event xDeath => exact Nat.zero_le _
  | announceFails message hpc => exact Nat.zero_le _
  | vanishes hgone => exact Nat.zero_le _
  | _ => exact hline rfl (lined_singleton _)

/-- What an act puts in a line comes out of a token of the line. -/
theorem React.lineOf (hr : React s t c base out) (hformed : t.Formed) (hc : c ≠ .crash)
    (hu : u ∈ out) (h : u.lineOf = some o) : t.lineOf = some o := by
  have hpos : 0 < lined out := Multiset.countP_pos_of_mem hu (by rw [h]; rfl)
  obtain ⟨v, hv, hsome⟩ := Multiset.countP_pos.mp (hpos.trans_le (hr.lined_le hformed hc))
  obtain rfl := Multiset.mem_singleton.mp hv
  obtain ⟨o', ho'⟩ := Option.isSome_iff_exists.mp hsome
  have horder := (order_of_lineOf h).symm.trans (hr.order hformed u hu)
  rw [order_of_lineOf ho'] at horder
  rw [ho', horder]

/-- No act deletes an order. -/
theorem React.keeps (hr : React s t c base out) (h : s.orders.lookup o ≠ none) :
    base.orders.lookup o ≠ none := by
  rcases hr.orders with hsame | ⟨event, status, rpc, -, -, rfl⟩
  · rwa [hsame]
  · rw [System.lookup_setStatus]
    split
    · rename_i heq
      rw [heq] at h
      simpa using h
    · exact h

/-! ## One line an order -/

/-- Every message is delivered once: nothing is duplicated, and no handler crashes. -/
def Label.single : Label → Bool
  | .duplicate _ => false
  | .act _ .crash => false
  | _ => true

/-- **An order has one line**, and is stored before anything of it is in flight. -/
structure OneLine (s : System) : Prop where
  one : ∀ o, lines o s.flight ≤ 1
  known : ∀ t ∈ s.flight, ∀ o, t.order = some o → s.orders.lookup o ≠ none

namespace OneLine

/-- The one token of a line is the only one. -/
theorem alone (h : OneLine s) (ht : t ∈ s.flight) (hline : t.lineOf = some o) :
    ∀ u ∈ s.flight.erase t, u.lineOf ≠ some o := by
  intro u hu hcon
  have hone := h.one o
  have hpos : 0 < lines o (s.flight.erase t) := Multiset.countP_pos_of_mem hu hcon
  rw [lines_erase ht, if_pos hline] at hone
  omega

/-- The lines after an act. -/
theorem lines_le (h : OneLine s) (ht : t ∈ s.flight) (hformed : t.Formed) (hc : c ≠ .crash)
    (hr : React (s.without t) t c base out) (o : OrderId) :
    lines o (out + s.flight.erase t) ≤ 1 := by
  have hone := h.one o
  rw [lines_erase ht] at hone
  have hlined := hr.lined_le hformed hc
  have hle := lines_le_lined o out
  rw [lines_add]
  split at hone
  · have := lined_singleton t
    omega
  · have hzero : lines o out = 0 := by
      refine Multiset.countP_eq_zero.mpr fun u hu hcon => ‹¬ t.lineOf = some o› ?_
      exact hr.lineOf hformed hc hu hcon
    omega

theorem react (h : OneLine s) (ht : t ∈ s.flight) (hformed : t.Formed) (hc : c ≠ .crash)
    (hr : React (s.without t) t c base out) : OneLine (base.add out) := by
  refine ⟨fun o => ?_, fun u hu o horder => hr.keeps (s := s.without t) ?_⟩
  · change lines o (out + base.flight) ≤ 1
    rw [System.flight_of_react hr]
    exact h.lines_le ht hformed hc hr o
  · rcases Multiset.mem_add.mp hu with hnew | hold
    · exact h.known t ht o ((hr.order hformed u hnew).symm.trans horder)
    · rw [System.flight_of_react hr] at hold
      exact h.known u (Multiset.mem_of_mem_erase hold) o horder

/-- A new order starts its line. -/
theorem createOrder (h : OneLine s) {order : Orders.Order} {event : OrderCreatedEvent}
    (hevent : event.orderId = o) (hfresh : s.orders.lookup o = none) :
    OneLine ({ s with orders := s.orders.insert o order }.add {Token.outbox event}) := by
  subst hevent
  have hnew : ∀ u ∈ s.flight, u.order ≠ some event.orderId := fun u hu horder =>
    h.known u hu _ horder hfresh
  refine ⟨fun o => ?_, fun u hu o horder => ?_⟩
  · change lines o (Token.outbox event ::ₘ s.flight) ≤ 1
    have hone := h.one o
    unfold lines at hone ⊢
    rw [Multiset.countP_cons]
    split
    · have hzero : s.flight.countP (fun t => t.lineOf = some o) = 0 := by
        refine Multiset.countP_eq_zero.mpr fun u hu hcon => hnew u hu ?_
        rw [order_of_lineOf hcon]
        exact (‹Token.lineOf (.outbox event) = some o› :).symm
      omega
    · omega
  · by_cases ho : o = event.orderId
    · rw [ho]
      change (Finmap.insert _ _ s.orders).lookup _ ≠ none
      rw [Finmap.lookup_insert]
      exact Option.some_ne_none _
    · change (Finmap.insert _ _ s.orders).lookup _ ≠ none
      rw [Finmap.lookup_insert_of_ne _ ho]
      rcases Multiset.mem_add.mp hu with hu | hu
      · obtain rfl := Multiset.mem_singleton.mp hu
        exact absurd (Option.some.inj horder).symm ho
      · exact h.known u hu o horder

/-- **Every step keeps to one line**, when messages are delivered once. -/
theorem step (h : OneLine s) (hformed : ∀ t ∈ s.flight, t.Formed) {l : Label}
    (hl : l.single = true) (hs : s.step l = some s') : OneLine s' := by
  obtain ⟨o, dto, result, order, event, rfl, hcreate, hfresh, rfl⟩ |
    ⟨t, c, base, out, rfl, ht, hr, rfl⟩ | ⟨t, rfl, ht, rfl⟩ := System.step_cases hs
  · obtain ⟨-, rfl, -⟩ := Orders.createOrder_eq hcreate
    exact h.createOrder rfl hfresh
  · refine h.react ht (hformed t ht) ?_ hr
    rintro rfl
    cases hl
  · cases hl

theorem of_opens (h : Opens s) : OneLine s := by
  refine ⟨fun o => ?_, fun t ht => ?_⟩
  · rw [h.flight]
    exact Nat.zero_le 1
  · rw [h.flight] at ht
    cases ht

end OneLine

end Saga

end Ecommerce
