import Ecommerce.Saga.Orchestrator
import Ecommerce.Saga.Steps
/-!
# What the customer is told

A handler that has written a terminal status publishes
`order.status-changed`, and nothing keeps a second handler of the order
from doing so again. An order's handlers tell the customer once as long as
no terminal status is written for an order whose customer has been told,
or is being told by another handler.
-/

namespace Ecommerce

namespace Saga

/-- An `order.status-changed` message of the order. -/
def notifies (o : OrderId) (p : Publication) : Bool :=
  match p.body with
  | .statusChanged o' _ _ => o' = o
  | _ => false

namespace Orchestrator

variable {β : Type} {B : Breaker β} {s s' : Orchestrator β} {t : ℕ} {l : Input} {d : Delivery}
variable {event : Event} {pc : Pc} {o : OrderId}

/-- How many `order.status-changed` messages have been published for an order. -/
def notices (s : Orchestrator β) (o : OrderId) : ℕ := s.published.countP (notifies o)

/-- The delivery's handler has written a terminal status of the order, and has neither
published it nor failed to. -/
def Telling (s : Orchestrator β) (o : OrderId) (d : Delivery) : Prop :=
  ∃ h ∈ s.handlers.lookup d, h.event.orderId = o ∧ h.pc.tells = true

/-- The order an input makes a handler write a terminal status of. -/
def ends (s : Orchestrator β) : Input → Option OrderId
  | .exec d =>
    match s.handlers.lookup d with
    | some ⟨event, .update status⟩ => if isTerminal status then some event.orderId else none
    | _ => none
  | _ => none

/-- A terminal status is written only while no customer has been told of the order, and none
is being told. -/
def EndsUntold (s : Orchestrator β) (l : ℕ × Input) : Prop :=
  ∀ o ∈ s.ends l.2, s.notices o = 0 ∧ ∀ d, ¬ s.Telling o d

/-- **The invariant of the notices.** -/
structure ToldOnce (s : Orchestrator β) : Prop where
  once : ∀ o, s.notices o ≤ 1
  untold : ∀ o d, s.Telling o d → s.notices o = 0
  alone : ∀ o d d', s.Telling o d → s.Telling o d' → d = d'

theorem telling_put (o : OrderId) (d' : Delivery) : (s.put d event pc).Telling o d' ↔
    if d' = d then event.orderId = o ∧ pc.tells = true else s.Telling o d' := by
  unfold Telling
  rw [lookup_put]
  split <;> simp

namespace ToldOnce

/-- A handler goes on, and is not telling anybody from then on. -/
theorem put_quiet (h : ToldOnce s) (hpc : pc.tells = false) : ToldOnce (s.put d event pc) := by
  have hold : ∀ o d', (s.put d event pc).Telling o d' → s.Telling o d' := by
    intro o d' htell
    rw [telling_put] at htell
    split at htell
    · rw [hpc] at htell
      cases htell.2
    · exact htell
  exact ⟨h.once, fun o d' ht => h.untold o d' (hold o d' ht),
    fun o d₁ d₂ h₁ h₂ => h.alone o d₁ d₂ (hold o d₁ h₁) (hold o d₂ h₂)⟩

/-- A handler goes on to tell the customer, or goes on telling. -/
theorem put_tells (h : ToldOnce s) (huntold : s.notices event.orderId = 0)
    (halone : ∀ d', s.Telling event.orderId d' → d' = d) : ToldOnce (s.put d event pc) := by
  have hold : ∀ o d', (s.put d event pc).Telling o d' → d' = d ∧ event.orderId = o ∨
      d' ≠ d ∧ s.Telling o d' := by
    intro o d' htell
    rw [telling_put] at htell
    split at htell
    · exact .inl ⟨‹_›, htell.1⟩
    · exact .inr ⟨‹_›, htell⟩
  refine ⟨h.once, fun o d' ht => ?_, fun o d₁ d₂ h₁ h₂ => ?_⟩
  · rcases hold o d' ht with ⟨-, rfl⟩ | ⟨-, ht⟩
    · exact huntold
    · exact h.untold o d' ht
  · rcases hold o d₁ h₁ with ⟨hd₁, ho₁⟩ | ⟨hne₁, ht₁⟩ <;>
      rcases hold o d₂ h₂ with ⟨hd₂, ho₂⟩ | ⟨hne₂, ht₂⟩
    · rw [hd₁, hd₂]
    · exact absurd (halone d₂ (ho₁ ▸ ht₂)) hne₂
    · exact absurd (halone d₁ (ho₂ ▸ ht₁)) hne₁
    · exact h.alone o d₁ d₂ ht₁ ht₂

/-- The stores, the breaker and the requests have no part in it. -/
theorem of_same (h : ToldOnce s) (hh : s'.handlers = s.handlers)
    (hp : ∀ o, s'.notices o = s.notices o) : ToldOnce s' := by
  have hold : ∀ o d, s'.Telling o d ↔ s.Telling o d := fun o d => by
    unfold Telling
    rw [hh]
  exact ⟨fun o => by rw [hp]; exact h.once o,
    fun o d ht => by rw [hp]; exact h.untold o d ((hold o d).mp ht),
    fun o d₁ d₂ h₁ h₂ => h.alone o d₁ d₂ ((hold o d₁).mp h₁) ((hold o d₂).mp h₂)⟩

end ToldOnce

/-- Only a handler that has written a terminal status tells. -/
theorem tells_afterCall (event : Event) (result : Except String Inventory.RpcResult) :
    (afterCall event result).tells = false := by
  cases event with
  | created event => rcases result with message | ⟨_ | _, reason⟩ <;> rfl
  | succeeded event => rcases result with message | ⟨_ | _, reason⟩ <;> rfl
  | failed event => rfl

theorem tells_afterStatus (event : Event) (status : OrderStatus) :
    (afterStatus event status).tells = false := by
  cases event <;> cases status <;> rfl

/-- The customer is told by a handler that was telling. -/
theorem ToldOnce.tells (h : ToldOnce s) {status : OrderStatus} {customerId : CustomerId}
    (hd : s.handlers.lookup d = some ⟨event, .publishStatus status customerId⟩) :
    ToldOnce (put { s with published := s.published ++
      [statusChanged event.orderId customerId status] } d event .returned) := by
  have htell : s.Telling event.orderId d := ⟨_, hd, rfl, rfl⟩
  have hcount : ∀ o, (put { s with published := s.published ++
      [statusChanged event.orderId customerId status] } d event .returned).notices o =
        s.notices o + if event.orderId = o then 1 else 0 := by
    intro o
    change (s.published ++ [_]).countP _ = _
    rw [List.countP_append, List.countP_singleton]
    simp [notifies, statusChanged, notices]
  have hold : ∀ o d', (put { s with published := s.published ++
      [statusChanged event.orderId customerId status] } d event .returned).Telling o d' →
        d' ≠ d ∧ s.Telling o d' := by
    intro o d' ht
    rw [telling_put] at ht
    split at ht
    · cases ht.2
    · exact ⟨‹_›, ht⟩
  refine ⟨fun o => ?_, fun o d' ht => ?_, fun o d₁ d₂ h₁ h₂ =>
    h.alone o d₁ d₂ (hold o d₁ h₁).2 (hold o d₂ h₂).2⟩
  · rw [hcount]
    split
    · rename_i ho
      have := h.untold o d (ho ▸ htell)
      omega
    · exact h.once o
  · obtain ⟨hne, ht⟩ := hold o d' ht
    rw [hcount, if_neg, h.untold o d' ht]
    rintro rfl
    exact hne (h.alone _ _ _ ht htell)

/-- **Every input keeps the invariant**, unless a second handler ends an order. -/
theorem ToldOnce.moves (h : ToldOnce s) (hm : Moves B s t l s') (hends : s.EndsUntold (t, l)) :
    ToldOnce s' := by
  cases hm with
  | ignores => exact h
  | calls hnew hfire => exact put_quiet (h.of_same rfl fun _ => rfl) rfl
  | rejected hnew hfire => exact put_quiet (h.of_same rfl fun _ => rfl) (tells_afterCall _ _)
  | answers result hd => exact put_quiet (h.of_same rfl fun _ => rfl) (tells_afterCall _ _)
  | @writes d event status hd =>
    have h' : ToldOnce (s.setStatus event.orderId status) :=
      h.of_same (setStatus_handlers _ _) fun o => by rw [notices, setStatus_published]; rfl
    cases hterminal : isTerminal status with
    | false =>
      refine h'.put_quiet ?_
      rw [afterUpdate, if_neg (by rw [hterminal]; exact Bool.false_ne_true)]
      exact tells_afterStatus _ _
    | true =>
      -- The guard: nobody else tells this customer, or has.
      obtain ⟨huntold, hnobody⟩ := hends event.orderId (by
        rw [ends, hd]
        exact if_pos hterminal)
      refine h'.put_tells ?_ fun d' ht => absurd ?_ (hnobody d')
      · rw [notices, setStatus_published]
        exact huntold
      · unfold Telling at ht ⊢
        rwa [setStatus_handlers] at ht
  | @finds d event status hd =>
    have htell : s.Telling event.orderId d := ⟨_, hd, rfl, rfl⟩
    exact h.put_tells (h.untold _ _ htell) fun d' ht => h.alone _ _ _ ht htell
  | tells hd => exact h.tells hd
  | asks hd =>
    refine ToldOnce.put_quiet (h.of_same rfl fun o => ?_) rfl
    change (s.published ++ [_]).countP _ = _
    rw [List.countP_append, List.countP_singleton]
    rfl
  | writeFails message hd => exact h.put_quiet (tells_afterStatus _ _)
  | fails message hd => exact h.put_quiet rfl
  | crashes hd => exact h.put_quiet rfl

theorem ToldOnce.of_start (B : Breaker β) (orders : Table OrderId Orders.Order) :
    ToldOnce (start B orders) := by
  have hnobody : ∀ o d, ¬ (start B orders).Telling o d := by
    rintro o d ⟨h, hd, -⟩
    cases hd
  exact ⟨fun _ => Nat.zero_le 1, fun o d ht => absurd ht (hnobody o d),
    fun o d _ ht => absurd ht (hnobody o d)⟩

/-- **One notification an order**, in every run in which no terminal status is written for an
order whose customer has been told or is being told. -/
theorem notices_le_of_reach
    (h : Reach (fun s l => some (step B s l)) (fun s => ∃ orders, s = start B orders)
      EndsUntold s) (o : OrderId) : s.notices o ≤ 1 := by
  refine (h.invariant (I := ToldOnce) ?_ fun s l s' hinv hg hs => ?_).once o
  · rintro s ⟨orders, rfl⟩
    exact .of_start B orders
  · obtain rfl := Option.some.inj hs
    exact hinv.moves (moves_step B s l) hg

/-! ## Runs -/

instance (s : Orchestrator β) (o : OrderId) (d : Delivery) : Decidable (s.Telling o d) :=
  inferInstanceAs (Decidable (∃ h ∈ s.handlers.lookup d, h.event.orderId = o ∧ h.pc.tells = true))

instance (s : Orchestrator β) (l : ℕ × Input) : Decidable (s.EndsUntold l) :=
  decidable_of_iff (∀ o ∈ s.ends l.2, s.notices o = 0 ∧ ∀ d ∈ s.handlers.keys, ¬ s.Telling o d)
    (forall_congr' fun _ => imp_congr_right fun _ => and_congr_right fun _ => forall_congr' fun d =>
      ⟨fun h ht => h (Finmap.mem_keys.mpr (by
        obtain ⟨h, hd, -⟩ := ht
        exact Finmap.mem_of_lookup_eq_some hd)) ht, fun h _ => h⟩)

/-- The orders of a shop with one order. -/
def someOrders : Table OrderId Orders.Order :=
  (∅ : Table OrderId Orders.Order).insert "o" ⟨"c", [⟨"p", 2, 5⟩], 10, .inventoryReserved⟩

/-- A delivery of `payment.succeeded` that is confirmed; the order is completed, and the
customer told. -/
def completes (tag : ℕ) : List (ℕ × Input) :=
  [(0, .deliver tag (.succeeded ⟨"o", some 0, .success⟩)),
    (0, .answer ⟨.paymentSucceeded, tag⟩ (.ok ⟨true, none⟩)),
    (0, .exec ⟨.paymentSucceeded, tag⟩), (0, .exec ⟨.paymentSucceeded, tag⟩),
    (0, .exec ⟨.paymentSucceeded, tag⟩)]

/-- A handler crashes before its RPC is answered, and its message is redelivered. -/
theorem notices_le_of_redelivery : ∃ s : Orchestrator Breaker.Window,
    Reach (fun s l => some (step inventoryBreaker s l))
      (fun s => ∃ orders, s = start inventoryBreaker orders) EndsUntold s ∧
      s.notices "o" = 1 ∧ ∀ o, s.notices o ≤ 1 := by
  obtain ⟨s, hreach, hs⟩ := Reach.exists_of_follow (fun s l => some (step inventoryBreaker s l))
    (fun s => ∃ orders, s = start inventoryBreaker orders) EndsUntold ⟨someOrders, rfl⟩
    ([(0, .deliver 0 (.succeeded ⟨"o", some 0, .success⟩)), (0, .crash ⟨.paymentSucceeded, 0⟩)] ++
      completes 1)
    (fun s => s.notices "o" = 1) (by decide +kernel)
  exact ⟨s, hreach, of_decide_eq_true hs, fun o => notices_le_of_reach hreach o⟩

/-- `payment.succeeded` is delivered twice: confirm is idempotent, and the customer is told twice. -/
theorem not_notices_le_of_duplicate : ¬ ∀ s : Orchestrator Breaker.Window,
    Reach (fun s l => some (step inventoryBreaker s l))
      (fun s => ∃ orders, s = start inventoryBreaker orders) (fun _ _ => True) s →
      ∀ o, s.notices o ≤ 1 := by
  intro h
  obtain ⟨s, hreach, hs⟩ := Reach.exists_of_follow (fun s l => some (step inventoryBreaker s l))
    (fun s => ∃ orders, s = start inventoryBreaker orders) (fun _ _ => True) ⟨someOrders, rfl⟩
    (completes 0 ++ completes 1) (fun s => s.notices "o" = 2) (by decide +kernel)
  have hle := h s hreach "o"
  rw [of_decide_eq_true hs] at hle
  omega

end Orchestrator

end Saga

end Ecommerce
