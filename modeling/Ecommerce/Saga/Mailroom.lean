import Ecommerce.Common.Ranked
import Ecommerce.Notification.Model
import Ecommerce.Saga.Lifecycle
import Ecommerce.Saga.Notices
/-!
# What a customer is told

`Mailroom` is the composed saga beside notification-service. What the
orchestrator publishes of an order is queued, delivered in any order and
any number of times, or lost, and each delivery sends the customer a
message. `told_truly_of_reach` proves that every message sent is true and
stays true, in the runs of `Timely`: the databases and the broker work, no
late copy of `order.created` is handled, and no two deliveries of one
order's `payment.requested` overlap between their read and their insert.
-/

namespace Ecommerce

/-- `OrderStatus`, as it is stored and sent. -/
def OrderStatus.text : OrderStatus → String
  | .pending => "PENDING"
  | .inventoryReserved => "INVENTORY_RESERVED"
  | .completed => "COMPLETED"
  | .cancelled => "CANCELLED"

namespace Saga

open Notifications (OrderStatusChangedEvent handleOrderStatusChanged)
open Orchestrator (tells_afterCall tells_afterStatus)
open Payments (someRequest)

/-! ## Notification-service beside the saga -/

/-- What a publication puts in `notification.order-status-changed-queue`, which is bound to
`order.status-changed`. -/
def noticeOf (p : Publication) : Option OrderStatusChangedEvent :=
  if p.exchange = .events ∧ p.routingKey = "order.status-changed" then
    match p.body with
    | .statusChanged o customerId status => some ⟨o, customerId, status.text⟩
    | _ => none
  else none

/-- What a step of the saga publishes. A handler that crashes at a publish may have made it. -/
def published (reached : Bool) : Label → List Publication
  | .act (.saga event pc _) c =>
    match pc.point event with
    | .wait (.publish p) _ => if c = .go ∨ reached = true then [p] else []
    | _ => []
  | _ => []

/-- The saga and notification-service. -/
structure Mailroom where
  shop : System
  queue : Multiset OrderStatusChangedEvent
  /-- What the sender has been given, with the customer it is for. -/
  sent : List (CustomerId × String)

namespace Mailroom

/-- A step. -/
inductive Move
  /-- Of the saga. -/
  | shop (l : Label) (reached : Bool)
  /-- A message is delivered; `answer` is the sender's, and the message is acked or comes again. -/
  | deliver (event : OrderStatusChangedEvent) (answer : Except String Unit) (acked : Bool)
  /-- A message is there once more. -/
  | duplicate (event : OrderStatusChangedEvent)
  /-- A message is lost. -/
  | lose (event : OrderStatusChangedEvent)

/-- The sender. -/
def send (answer : Except String Unit) (op : Notifications.Op) (sent : List (CustomerId × String)) :
    Except String (Notifications.Ans op) × List (CustomerId × String) :=
  match op with
  | .send customerId message => (answer, sent ++ [(customerId, message)])

/-- Notification-service handles a message. -/
def handle (s : Mailroom) (event : OrderStatusChangedEvent) (answer : Except String Unit) :
    Mailroom :=
  { s with sent := ((handleOrderStatusChanged event).run (send answer) s.sent).2 }

def step (s : Mailroom) : Move → Option Mailroom
  | .shop l reached => (s.shop.step l).map fun shop =>
      { s with shop := shop
               queue := Multiset.ofList ((published reached l).filterMap noticeOf) + s.queue }
  | .deliver event answer acked =>
    if event ∈ s.queue then
      let queue := if acked then s.queue.erase event else s.queue
      some { s.handle event answer with queue := queue }
    else none
  | .duplicate event => if event ∈ s.queue then some { s with queue := event ::ₘ s.queue } else none
  | .lose event => if event ∈ s.queue then some { s with queue := s.queue.erase event } else none

/-- A shop before its first order. -/
structure Opens (s : Mailroom) : Prop where
  shop : Saga.Opens s.shop
  queue : s.queue = 0
  sent : s.sent = []

/-- The steps of the saga are timely; the messages to the customers may do anything. -/
def Timely (s : Mailroom) : Move → Prop
  | .shop l _ => Saga.Timely s.shop l
  | _ => True

end Mailroom

/-! ## The end of an order -/

/-- The order of this customer has ended with this status. -/
def EndedAs (s : System) (o : OrderId) (customerId : CustomerId) (status : OrderStatus) : Prop :=
  ∃ order, s.orders.lookup o = some order ∧ order.customerId = customerId ∧
    order.status = status ∧ isTerminal status = true

/-- What a handler that tells the customer knows. -/
def Pc.Told (s : System) (o : OrderId) : Pc → Prop
  | .find status => ∃ customerId, EndedAs s o customerId status
  | .publishStatus status customerId => EndedAs s o customerId status
  | _ => True

/-- And what a token does. -/
def Token.Told (s : System) : Token → Prop
  | .saga event pc _ => pc.Told s event.orderId
  | _ => True

variable {s s' base : System} {t u : Token} {c : Choice} {l : Label} {out : Multiset Token}
variable {o : OrderId} {customerId : CustomerId} {status status' : OrderStatus}

theorem eq_of_edge (h : Edge status status') (hterminal : isTerminal status = true) :
    status' = status := by
  cases status with
  | completed => exact h.symm
  | cancelled => exact h.symm
  | _ => cases hterminal

/-- **An order that has ended stays so.** -/
theorem EndedAs.step (h : EndedAs s o customerId status) (hcharges : Charges s) (hback : Backed s)
    (hformed : ∀ t ∈ s.flight, t.Formed) (hl : Timely s l) (hs : s.step l = some s') :
    EndedAs s' o customerId status := by
  obtain ⟨order, ho, hcustomer, hstatus, hterminal⟩ := h
  obtain ⟨o', dto, result, order', event, rfl, hcreate, hfresh, rfl⟩ |
    ⟨t, c, base, out, rfl, ht, hr, rfl⟩ | ⟨t, rfl, ht, rfl⟩ := System.step_cases hs
  · exact ⟨order, Table.lookup_insert_of_fresh hfresh ho, hcustomer, hstatus, hterminal⟩
  · rcases hr.orders with hsame | ⟨event, status', rpc, rfl, rfl, rfl⟩
    · have ho' : base.orders.lookup o = some order := by rwa [hsame]
      exact ⟨order, ho', hcustomer, hstatus, hterminal⟩
    · have hrow := System.lookup_setStatus (s := s.without (.saga event (.update status') rpc))
        event.orderId o status'
      split at hrow
      · -- The write keeps what has ended.
        rename_i heq
        have hedge := hcharges.edge hback ht (hformed _ ht) hl.reserves hl.cancels (heq ▸ ho)
        rw [hstatus] at hedge
        have ho' : (s.without (.saga event (.update status') rpc)).orders.lookup event.orderId =
            some order := heq ▸ ho
        rw [ho'] at hrow
        exact ⟨{ order with status := status' }, hrow, hcustomer, eq_of_edge hedge hterminal,
          hterminal⟩
      · exact ⟨order, hrow.trans ho, hcustomer, hstatus, hterminal⟩
  · exact ⟨order, ho, hcustomer, hstatus, hterminal⟩

theorem Token.Told.mono (h : t.Told s)
    (hended : ∀ o c status, EndedAs s o c status → EndedAs s' o c status) : t.Told s' := by
  cases t with
  | saga event pc rpc =>
    cases pc with
    | find status => exact h.imp fun c hc => hended _ _ _ hc
    | publishStatus status c => exact hended _ _ _ h
    | _ => trivial
  | _ => trivial

theorem Pc.told_of_quiet {pc : Pc} (h : pc.tells = false) : pc.Told s o := by
  cases pc with
  | find status => cases h
  | publishStatus status c => cases h
  | _ => trivial

theorem told_goOn {event : Event} {pc : Pc} (h : pc.Told s event.orderId) :
    ∀ u ∈ goOn event pc, u.Told s := by
  intro u hu
  rw [mem_goOn hu]
  exact h

theorem told_add {ts : Multiset Token} (h : ∀ u ∈ ts, u.Told s) :
    ∀ u ∈ (s.add ts).flight, u ∈ s.flight ∨ u.Told s := fun u hu =>
  (Multiset.mem_add.mp hu).elim (fun hu => .inr (h u hu)) .inl

theorem told_abandoned {event : Event} {pc : Pc} {rpc : Rpc} {ts : Multiset Token}
    (h : ∀ u ∈ ts, u.Told s) : ∀ u ∈ abandoned event pc rpc + ts, u.Told s := by
  intro u hu
  rcases Multiset.mem_add.mp hu with hu | hu
  · rw [mem_abandoned hu]
    trivial
  · exact h u hu

theorem told_delivered (ms : List (Queue × Message)) : ∀ u ∈ delivered ms, u.Told s := by
  intro u hu
  obtain ⟨m, -, rfl⟩ := List.mem_map.mp (Multiset.mem_coe.mp hu)
  trivial

/-- An act of a handler that tells the customer. -/
theorem told_of_act {event : Event} {pc : Pc} {rpc : Rpc} (hpc : pc.tells = true)
    (h : pc.Told s event.orderId) (hs : s.act (.saga event pc rpc) c = some s') :
    ∀ u ∈ s'.flight, u ∈ s.flight ∨ u.Told s := by
  have hquiet : ∀ u ∈ goOn event .returned, u.Told s := told_goOn trivial
  cases pc with
  | find status =>
    cases c with
    | go =>
      obtain rfl := Option.some.inj hs
      refine told_add (told_goOn ?_)
      obtain ⟨customerId, order, ho, rfl, hrest⟩ := h
      rw [ho]
      exact ⟨order, ho, rfl, hrest⟩
    | reject message =>
      obtain rfl := Option.some.inj hs
      exact told_add (told_abandoned hquiet)
    | crash =>
      obtain rfl := Option.some.inj hs
      exact told_add (told_abandoned (told_delivered _))
    | _ => cases hs
  | publishStatus status customerId =>
    cases c with
    | go =>
      obtain rfl := Option.some.inj hs
      intro u hu
      rcases Multiset.mem_add.mp hu with hu | hu
      · exact .inr (hquiet u hu)
      · exact told_add (told_delivered _) u hu
    | reject message =>
      obtain rfl := Option.some.inj hs
      exact told_add (told_abandoned hquiet)
    | crash =>
      obtain rfl := Option.some.inj hs
      exact told_add (told_abandoned (told_delivered _))
    | _ => cases hs
  | _ => cases hpc

/-- And every other act. -/
theorem React.told (hr : React s t c base out)
    (hquiet : ∀ event pc rpc, t = .saga event pc rpc → pc.tells = false)
    (hknown : ∀ event pc rpc, t = .saga event pc rpc →
      ∃ order, s.orders.lookup event.orderId = some order) : ∀ u ∈ out, u.Told base := by
  have hone : ∀ {s : System} {v : Token}, v.Told s → ∀ u ∈ ({v} : Multiset Token), u.Told s :=
    fun hv u hu => (Multiset.mem_singleton.mp hu).symm ▸ hv
  cases hr with
  | starts h => exact hone (by cases starts_of_start h <;> trivial)
  | hears event r => exact told_goOn (Pc.told_of_quiet (tells_afterCall event _))
  | givesUp event rpc message =>
    exact told_abandoned (told_goOn (Pc.told_of_quiet (tells_afterCall event _)))
  | writes event status rpc =>
    refine told_goOn ?_
    change Pc.Told _ _ (if isTerminal status then _ else _)
    split
    · rename_i hterminal
      obtain ⟨order, ho⟩ := hknown event _ rpc rfl
      refine ⟨order.customerId, { order with status := status }, ?_, rfl, rfl, hterminal⟩
      rw [System.lookup_setStatus, if_pos rfl, ho]
      rfl
    · exact Pc.told_of_quiet (tells_afterStatus event status)
  | writeFails event status rpc message =>
    exact told_goOn (Pc.told_of_quiet (tells_afterStatus event status))
  | tells event rpc c hpc hpc' =>
    rw [hquiet event _ rpc rfl] at hpc
    cases hpc
  | crashes event pc rpc => exact told_abandoned (hone (by trivial))
  | movesToDlq event xDeath =>
    intro u hu
    rcases Multiset.mem_cons.mp hu with rfl | hu
    · trivial
    · exact hone (by trivial) u hu
  | requestFails | serves | paid | retryDropped | announceFails | vanishes => intro u hu; cases hu
  | _ => exact hone (by trivial)

/-- The order of a handler was placed. -/
theorem Backed.known (h : Backed s) {event : Event} {pc : Pc} {rpc : Rpc}
    (ht : Token.saga event pc rpc ∈ s.flight) :
    ∃ order, s.orders.lookup event.orderId = some order := by
  have hrow : ∀ {o status}, Recorded s o status → ∃ order, s.orders.lookup o = some order := by
    rintro o status ⟨row, hrow, rfl, -⟩
    obtain ⟨order, ho, -⟩ := h.rows row hrow
    exact ⟨order, ho⟩
  have hknows := (h.tokens _ ht).1
  cases event with
  | created event =>
    obtain ⟨order, ho, -⟩ := hknows
    exact ⟨order, ho⟩
  | succeeded event => exact hrow hknows
  | failed event => exact hrow hknows

/-! ## Every run -/

/-- What is known of the saga in the runs without a late copy. -/
structure Sound (s : System) : Prop where
  formed : ∀ t ∈ s.flight, t.Formed
  backed : Backed s
  charges : Charges s

theorem sound_of_reach (h : Reach System.step Opens Timely s) : Sound s := by
  obtain ⟨hformed, hbacked⟩ := backed_of_reach h
  exact ⟨hformed, hbacked,
    charges_of_reach (fun _ _ hl => ⟨hl.storesWork, hl.cancels, hl.reads⟩) h⟩

/-- **A handler that tells the customer knows how the order has ended.** -/
theorem Sound.told (h : Sound s) (htold : ∀ t ∈ s.flight, t.Told s) (hl : Timely s l)
    (hs : s.step l = some s') : ∀ t ∈ s'.flight, t.Told s' := by
  have hkept : ∀ o c status, EndedAs s o c status → EndedAs s' o c status :=
    fun o c status hended => hended.step h.charges h.backed h.formed hl hs
  have hold : ∀ u, u ∈ s.flight ∨ u.Told s → u.Told s' := fun u hu =>
    (hu.elim (htold u) id).mono hkept
  obtain ⟨o, dto, result, order, event, rfl, hcreate, hfresh, rfl⟩ |
    ⟨t, c, base, out, rfl, ht, hr, hbase⟩ | ⟨t, rfl, ht, rfl⟩ := System.step_cases hs
  · intro u hu
    rcases Multiset.mem_add.mp hu with hu | hu
    · obtain rfl := Multiset.mem_singleton.mp hu
      trivial
    · exact hold u (.inl hu)
  · have hact : (s.without t).act t c = some s' := by rwa [System.step, if_pos ht] at hs
    have hrest : ∀ u ∈ (s.without t).flight, u ∈ s.flight :=
      fun u hu => Multiset.mem_of_mem_erase hu
    have ht' : t.Told (s.without t) := (htold t ht).mono fun _ _ _ => id
    intro u hu
    by_cases htells : ∃ event pc rpc, t = .saga event pc rpc ∧ pc.tells = true
    · obtain ⟨event, pc, rpc, rfl, hpc⟩ := htells
      refine hold u ((told_of_act hpc ht' hact u hu).imp (hrest u) fun h => ?_)
      exact h.mono fun _ _ _ => id
    · subst hbase
      rcases Multiset.mem_add.mp hu with hu | hu
      · refine hr.told (fun event pc rpc heq => ?_) (fun event pc rpc heq => ?_) u hu
        · exact Bool.eq_false_iff.mpr fun hpc => htells ⟨event, pc, rpc, heq, hpc⟩
        · exact h.backed.known (heq ▸ ht)
      · rw [System.flight_of_react hr] at hu
        exact hold u (.inl (hrest u hu))
  · intro u hu
    rcases Multiset.mem_add.mp hu with hu | hu
    · obtain rfl | ⟨event, rfl, rfl⟩ := mem_copy hu
      · exact hold u (.inl ht)
      · trivial
    · exact hold u (.inl hu)

namespace Mailroom

/-- A message of the queue says how its order has ended. -/
def Noted (s : System) (event : OrderStatusChangedEvent) : Prop :=
  ∃ status, event.status = status.text ∧ EndedAs s event.orderId event.customerId status

/-- And so does what a customer was sent. -/
def Says (s : System) (m : CustomerId × String) : Prop :=
  ∃ o status, m.2 = "Order " ++ o ++ " is now " ++ status.text ∧ EndedAs s o m.1 status

/-- **The invariant of the messages.** -/
structure Truthful (s : Mailroom) : Prop where
  tokens : ∀ t ∈ s.shop.flight, t.Told s.shop
  queue : ∀ event ∈ s.queue, Noted s.shop event
  sent : ∀ m ∈ s.sent, Says s.shop m

variable {s s' : Mailroom} {m : Move}

/-- **What is published was known.** -/
theorem noted_of_published {s s' : System} {reached : Bool} {p : Publication}
    {event : OrderStatusChangedEvent} (htold : ∀ t ∈ s.flight, t.Told s) (hs : s.step l = some s')
    (hp : p ∈ published reached l) (hnotice : noticeOf p = some event) : Noted s event := by
  cases l with
  | act t c =>
    have ht := htold t (System.mem_of_act hs)
    cases t with
    | saga event' pc rpc =>
      unfold published at hp
      cases pc with
      | publishStatus status customerId =>
        dsimp only [Pc.point] at hp
        obtain rfl := List.mem_singleton.mp (List.mem_ite_nil_right.mp hp).2
        obtain rfl := Option.some.inj hnotice
        exact ⟨status, rfl, ht⟩
      | publishPayment request =>
        dsimp only [Pc.point] at hp
        obtain rfl := List.mem_singleton.mp (List.mem_ite_nil_right.mp hp).2
        cases hnotice
      | _ => cases hp
    | _ => cases hp
  | _ => cases hp

/-- The handler sends what its message says. -/
theorem sent_handle (s : Mailroom) (event : OrderStatusChangedEvent) (answer : Except String Unit) :
    (s.handle event answer).sent = s.sent ++
      [(event.customerId, "Order " ++ event.orderId ++ " is now " ++ event.status)] := by
  cases answer <;> rfl

theorem says_of_noted {s : System} {event : OrderStatusChangedEvent} (h : Noted s event) :
    Says s (event.customerId, "Order " ++ event.orderId ++ " is now " ++ event.status) := by
  obtain ⟨status, hstatus, hended⟩ := h
  exact ⟨event.orderId, status, by rw [hstatus], hended⟩

/-- **What a step can do**: the saga takes one and publishes, or notification-service takes
messages from its queue, and sends one of them at most. -/
theorem step_cases (h : s.step m = some s') :
    (∃ l reached shop, m = .shop l reached ∧ s.shop.step l = some shop ∧
      s' = { s with shop := shop
                    queue := Multiset.ofList ((published reached l).filterMap noticeOf) +
                      s.queue }) ∨
    s'.shop = s.shop ∧ (∀ event ∈ s'.queue, event ∈ s.queue) ∧
      (s'.sent = s.sent ∨ ∃ event ∈ s.queue, s'.sent = s.sent ++
        [(event.customerId, "Order " ++ event.orderId ++ " is now " ++ event.status)]) := by
  cases m with
  | shop l reached =>
    obtain ⟨shop, hstep, rfl⟩ := Option.map_eq_some_iff.mp h
    exact .inl ⟨l, reached, shop, rfl, hstep, rfl⟩
  | deliver event answer acked =>
    rw [step] at h
    split at h
    · rename_i hmem
      obtain rfl := Option.some.inj h
      refine .inr ⟨rfl, fun event' hevent => ?_, .inr ⟨event, hmem, sent_handle s event answer⟩⟩
      cases acked with
      | true => exact Multiset.mem_of_mem_erase hevent
      | false => exact hevent
    · cases h
  | duplicate event =>
    rw [step] at h
    split at h
    · rename_i hmem
      obtain rfl := Option.some.inj h
      refine .inr ⟨rfl, fun event' hevent => ?_, .inl rfl⟩
      exact (Multiset.mem_cons.mp hevent).elim (fun heq => heq ▸ hmem) id
    · cases h
  | lose event =>
    rw [step] at h
    split at h
    · obtain rfl := Option.some.inj h
      exact .inr ⟨rfl, fun event' hevent => Multiset.mem_of_mem_erase hevent, .inl rfl⟩
    · cases h

/-- The saga runs while the mailroom does. -/
theorem shop_of_reach {init : Mailroom → Prop} {init' : System → Prop}
    (hinit : ∀ s, init s → init' s.shop) (h : Reach step init Timely s) :
    Reach System.step init' Saga.Timely s.shop := by
  refine h.project Mailroom.shop hinit fun s m s' _ hm hs => ?_
  obtain ⟨l, reached, shop, rfl, hstep, rfl⟩ | ⟨hsame, -⟩ := step_cases hs
  · exact .inr ⟨l, hm, hstep⟩
  · exact .inl hsame

/-- **Every step keeps the messages truthful.** -/
theorem Truthful.step (h : Truthful s) (hsound : Sound s.shop) (hm : s.Timely m)
    (hs : s.step m = some s') : Truthful s' := by
  obtain ⟨l, reached, shop, rfl, hstep, rfl⟩ | ⟨hsame, hqueue, hsent⟩ := step_cases hs
  · have hkept : ∀ o c status, EndedAs s.shop o c status → EndedAs shop o c status :=
      fun o c status hended => hended.step hsound.charges hsound.backed hsound.formed hm hstep
    have hnoted : ∀ event, Noted s.shop event → Noted shop event := fun event hevent =>
      hevent.imp fun status hstatus => hstatus.imp id (hkept _ _ _)
    refine ⟨hsound.told h.tokens hm hstep, fun event hevent => ?_, fun m hm => ?_⟩
    · rcases Multiset.mem_add.mp hevent with hnew | hold
      · obtain ⟨p, hp, hnotice⟩ := List.mem_filterMap.mp (Multiset.mem_coe.mp hnew)
        exact hnoted event (noted_of_published h.tokens hstep hp hnotice)
      · exact hnoted event (h.queue event hold)
    · obtain ⟨o, status, htext, hended⟩ := h.sent m hm
      exact ⟨o, status, htext, hkept _ _ _ hended⟩
  · refine ⟨hsame ▸ h.tokens, fun event hevent => hsame ▸ h.queue event (hqueue event hevent),
      fun m hm => ?_⟩
    rw [hsame]
    rcases hsent with hsent | ⟨event, hevent, hsent⟩
    · exact h.sent m (hsent ▸ hm)
    · rw [hsent] at hm
      rcases List.mem_append.mp hm with hold | hnew
      · exact h.sent m hold
      · obtain rfl := List.mem_singleton.mp hnew
        exact says_of_noted (h.queue event hevent)

theorem Truthful.of_opens (h : Opens s) : Truthful s := by
  refine ⟨fun t ht => ?_, fun event hevent => ?_, fun m hm => ?_⟩
  · rw [h.shop.flight] at ht
    cases ht
  · rw [h.queue] at hevent
    cases hevent
  · rw [h.sent] at hm
    cases hm

theorem truthful_of_reach (h : Reach step Opens Timely s) : Truthful s :=
  h.induct (fun _ => .of_opens) fun _ _ _ hreach hinv hm hs =>
    hinv.step (sound_of_reach (shop_of_reach (fun _ h0 => h0.shop) hreach)) hm hs

/-- What was sent was sent. -/
theorem sent_of_reach {s₀ : Mailroom} (h : Reach step (fun u => u = s₀) Timely s)
    {m : CustomerId × String} (hm : m ∈ s₀.sent) : m ∈ s.sent := by
  refine h.invariant (I := fun s => m ∈ s.sent) (fun s h0 => h0 ▸ hm) fun s l s' hinv _ hs => ?_
  obtain ⟨l, reached, shop, rfl, -, rfl⟩ | ⟨-, -, hsent | ⟨event, -, hsent⟩⟩ := step_cases hs
  · exact hinv
  · rwa [hsent]
  · rw [hsent]
    exact List.mem_append_left _ hinv

/-- **A message tells the truth**: it is for the customer of an order and says how that has
ended, and a completed order is paid and its stock has left, a cancelled one is not paid. -/
def ToldTruly (s : System) (m : CustomerId × String) : Prop :=
  ∃ o order, s.orders.lookup o = some order ∧ order.customerId = m.1 ∧
    m.2 = "Order " ++ o ++ " is now " ++ order.status.text ∧
    (order.status = .completed ∧ Confirmed s o ∧ Recorded s o .success ∨
      order.status = .cancelled ∧ ¬ Recorded s o .success)

theorem told_truly_of_says {s : System} {m : CustomerId × String} (hsound : Sound s)
    (h : Says s m) : ToldTruly s m := by
  obtain ⟨o, status, htext, order, ho, hcustomer, rfl, hterminal⟩ := h
  refine ⟨o, order, ho, hcustomer, htext, ?_⟩
  cases hstatus : order.status with
  | completed => exact .inl ⟨rfl, hsound.backed.completed o order ho hstatus⟩
  | cancelled =>
    exact .inr ⟨rfl, fun hpaid => (hsound.charges.of_success ho hpaid).2 hstatus⟩
  | _ => rw [hstatus] at hterminal; cases hterminal

/-- **What a customer was told is true, and stays true**, in every timely run, however the
messages to the customers are duplicated, delayed and lost. -/
theorem told_truly_of_reach {s₀ : Mailroom} (h₀ : Reach step Opens Timely s₀)
    (h : Reach step (fun u => u = s₀) Timely s) : ∀ m ∈ s₀.sent, ToldTruly s.shop m := by
  intro m hm
  have hreach := h₀.trans h
  exact told_truly_of_says (sound_of_reach (shop_of_reach (fun _ h0 => h0.shop) hreach))
    ((truthful_of_reach hreach).sent m (sent_of_reach h hm))

/-! ## Runs -/

instance (s : Mailroom) (m : Move) : Decidable (s.Timely m) := by
  unfold Timely
  split <;> infer_instance

def newMailroom : Mailroom := ⟨newShop, 0, []⟩

theorem opens_newMailroom : Opens newMailroom := ⟨opens_newShop, rfl, rfl⟩

/-- What the customer is told of the order. -/
def someNotice : OrderStatusChangedEvent := ⟨"o", "c", "COMPLETED"⟩

/-- The handler that has completed the order tells the customer. -/
def told : List Label :=
  [.act (.saga (.succeeded ⟨"o", some 0, .success⟩) (.find .completed) .idle) .go,
    .act (.saga (.succeeded ⟨"o", some 0, .success⟩) (.publishStatus .completed "c") .idle) .go]

/-- A copy of `order.created` is handled while the order is INVENTORY_RESERVED; the order is
completed, and its customer told twice. -/
def toldTwice : List Move :=
  (([someOrder, copied] ++ relayed ++ called (.created someCreated) ++ requested ++ relayed ++
    called (.created someCreated) ++ [reserves] ++ paid ++ completed ++ told).map fun l =>
      .shop l true) ++
    [.deliver someNotice (.ok ()) false, .deliver someNotice (.error "smtp down") true]

/-- The handler of the copy requests the payment once more. -/
def requestedAgain : List Move :=
  [.shop (.act (.saga (.created someCreated) (.publishPayment someRequest) .idle) .go) true,
    .shop (.act (.queued .paymentRequested ⟨.paymentRequested someRequest, []⟩) .go) true,
    .shop (.act (.payment someRequest [] .find) .go) true]

theorem told_truly_of_completed :
    ∃ s₀ s, Reach step Opens Timely s₀ ∧ Reach step (fun u => u = s₀) Timely s ∧
      s₀.sent = [("c", "Order o is now COMPLETED"), ("c", "Order o is now COMPLETED")] ∧
      s.shop.flight = 0 ∧ ∀ m ∈ s₀.sent, ToldTruly s.shop m := by
  obtain ⟨s₀, h₀, hs₀⟩ := Reach.exists_of_follow step Opens Timely opens_newMailroom toldTwice
    (fun s => s.sent = [("c", "Order o is now COMPLETED"), ("c", "Order o is now COMPLETED")] &&
      (follow step Timely s requestedAgain).any fun s => s.shop.flight = 0)
    (by decide +kernel)
  rw [Bool.and_eq_true, decide_eq_true_eq] at hs₀
  obtain ⟨s, h, hs⟩ := Reach.exists_of_follow step (fun u => u = s₀) Timely rfl requestedAgain
    (fun s => s.shop.flight = 0) hs₀.2
  exact ⟨s₀, s, h₀, h, hs₀.1, of_decide_eq_true hs, told_truly_of_reach h₀ h⟩

end Mailroom

end Saga

end Ecommerce
