import Ecommerce.Common.Ranked
import Ecommerce.Saga.Backed
import Ecommerce.Saga.Lines
/-!
# A saga comes to an end

Whatever is duplicated, lost or rejected, what is in flight of an order
has only so much left to do (`Token.work`), and only four things bring in
more: the order itself, a duplicate, a crash and a payment handler whose
call rejects. So the steps of an order are bounded by those
(`steps_le_of_reach`), and nothing in flight is ever stuck, so that a shop
left alone comes to rest (`comes_to_rest_of_reach`).
-/

namespace Ecommerce

namespace Saga

open Payments (someRequest)

/-! ## What is left to do -/

/-- What is left of a call until its caller goes on. -/
def Rpc.work : Rpc → ℕ
  | .lost => 0
  | .replied _ => 1
  | .requested => 2
  | .idle => 3

/-- What is left of a handler of the orchestrator and of what it starts. -/
def Event.work : Event → Pc → Rpc → ℕ
  | .created _, .call, rpc => 16 + rpc.work
  | .created _, .update _, _ => 15
  | _, .publishPayment _, _ => 14
  | _, .call, rpc => 4 + rpc.work
  | _, .update _, _ => 3
  | _, .find _, _ => 2
  | _, .publishStatus _ _, _ => 1
  | _, .returned, _ => 0

/-- What is left of the payment handler and of what it starts, if its calls resolve. -/
def payWork : Payments.Pc → ℕ
  | .publishRetry => 15
  | .find => 12
  | .fire => 11
  | .save _ => 10
  | .publishDlq => 10
  | .publishSaved _ _ => 9
  | .publishGivenUp => 9
  | .returned => 0
  | .thrown _ => 0

/-- What is left to do for a message. -/
def messageWork : Body → ℕ
  | .orderCreated _ => 20
  | .paymentRequested _ => 13
  | .paymentResult _ => 8
  | .statusChanged _ _ _ => 0

/-- **What is left to do for something in flight.** Nobody consumes the DLQ. -/
def Token.work : Token → ℕ
  | .outbox _ => 21
  | .queued queue m =>
    if queue = .dlq then 0 else messageWork m.body + if queue.deadLetter.isSome then 1 else 0
  | .saga event pc rpc => event.work pc rpc
  | .request _ => 1
  | .payment _ _ pc => payWork pc

/-- What is left to do. -/
def effort (ts : Multiset Token) : ℕ := (ts.map Token.work).sum

/-- What is left to do for an order. -/
def effortOf (o : OrderId) (ts : Multiset Token) : ℕ :=
  (ts.map fun t => if t.order = some o then t.work else 0).sum

namespace Label

/-- The order a step is about. -/
def order : Label → Option OrderId
  | createOrder o _ _ => some o
  | act t _ => t.order
  | duplicate t => t.order

/-- What brings in more to do: an order, a duplicate, a crash, or a call of the payment
handler that rejects. -/
def disturbs : Label → Bool
  | createOrder _ _ _ => true
  | duplicate _ => true
  | act _ .crash => true
  | act (.payment _ _ _) (.reject _) => true
  | _ => false

/-- What goes on of itself: messages are delivered, calls are made and answered, TTLs run
out, and a call that is not answered times out. -/
def proceeds : Label → Bool
  | act _ .go => true
  | act _ .expire => true
  | act _ (.charge _) => true
  | act _ (.serve redelivered _) => !redelivered
  | act (.saga _ .call .lost) (.reject _) => true
  | _ => false

end Label

variable {s s' base : System} {t u : Token} {c : Choice} {out : Multiset Token} {o : OrderId}
variable {l : Label}

theorem disturbs_of_proceeds (h : l.proceeds = true) : l.disturbs = false := by
  cases l with
  | createOrder o dto result => cases h
  | duplicate t => cases h
  | act t c =>
    cases c with
    | crash => cases h
    | reject message =>
      cases t with
      | saga event pc rpc => rfl
      | payment event xDeath pc => cases h
      | _ => rfl
    | _ => rfl

@[simp] theorem effort_zero : effort 0 = 0 := rfl

@[simp] theorem effort_singleton (t : Token) : effort {t} = t.work := by
  rw [effort, Multiset.map_singleton, Multiset.sum_singleton]

@[simp] theorem effort_cons (t : Token) (ts : Multiset Token) :
    effort (t ::ₘ ts) = t.work + effort ts := by
  rw [effort, Multiset.map_cons, Multiset.sum_cons, effort]

@[simp] theorem effort_add (ts us : Multiset Token) : effort (ts + us) = effort ts + effort us := by
  rw [effort, Multiset.map_add, Multiset.sum_add, effort, effort]

theorem effortOf_add (ts us : Multiset Token) :
    effortOf o (ts + us) = effortOf o ts + effortOf o us := by
  rw [effortOf, Multiset.map_add, Multiset.sum_add, effortOf, effortOf]

/-- What is all about one order is that order's. -/
theorem effortOf_of_order (h : ∀ u ∈ out, u.order = some o) : effortOf o out = effort out := by
  refine congrArg Multiset.sum (Multiset.map_congr rfl fun u hu => ?_)
  rw [if_pos (h u hu)]

/-- And no other's. -/
theorem effortOf_eq_zero (h : ∀ u ∈ out, u.order ≠ some o) : effortOf o out = 0 := by
  refine Multiset.sum_eq_zero fun n hn => ?_
  obtain ⟨u, hu, rfl⟩ := Multiset.mem_map.mp hn
  rw [if_neg (h u hu)]

theorem effortOf_erase (h : t ∈ s.flight) (o : OrderId) : effortOf o s.flight =
    effortOf o (s.flight.erase t) + if t.order = some o then t.work else 0 := by
  conv_lhs => rw [← Multiset.cons_erase h, ← Multiset.singleton_add, effortOf_add]
  exact add_comm _ _

/-! ## What an act leaves to do -/

@[simp] theorem effort_goOn (event : Event) (pc : Pc) :
    effort (goOn event pc) = event.work pc .idle := by
  cases pc with
  | returned => cases event <;> rfl
  | _ => exact effort_singleton _

theorem effort_abandoned (event : Event) (pc : Pc) (rpc : Rpc) :
    effort (abandoned event pc rpc) ≤ 1 := by
  unfold abandoned
  split
  · exact (effort_singleton _).le
  · exact Nat.zero_le 1

/-- A crash leaves the request of a call that was under way, and the message. -/
theorem effort_crash (event : Event) (pc : Pc) (rpc : Rpc) :
    effort (abandoned event pc rpc + {.queued event.message.1 event.message.2}) < 22 := by
  have hrequest := effort_abandoned event pc rpc
  have hmessage : Token.work (.queued event.message.1 event.message.2) ≤ 20 := by
    cases event <;> simp [Event.message, Token.work, messageWork, Queue.deadLetter]
  rw [effort_add, effort_singleton]
  omega

/-- A message starts a handler with less to do. -/
theorem work_start {queue : Queue} {m : Message} (h : start queue m = some u) :
    u.work < Token.work (.queued queue m) := by
  cases starts_of_start h <;> simp [Token.work, Event.work, Rpc.work, payWork, messageWork,
    Queue.deadLetter]

/-- A caller that gives up has less to do, the request it leaves behind included. -/
theorem work_givesUp (event : Event) (rpc : Rpc) (message : String) :
    effort (abandoned event .call rpc + goOn event (afterCall event (.error message))) <
      event.work .call rpc := by
  rw [effort_add, effort_goOn]
  cases event with
  | _ event => cases rpc <;> simp [abandoned, afterCall, Event.work, Rpc.work, Token.work]

theorem work_call {event : Event} {rpc rpc' : Rpc} (h : rpc.work < rpc'.work) :
    event.work .call rpc < event.work .call rpc' := by
  cases event <;> simpa [Event.work] using h

/-- What is heard of a reply can only be taken up, or given up. -/
theorem work_heard (r : Except Inventory.Failure Inventory.Reply) : (heard r).work < 2 := by
  rcases r with failure | ⟨_ | _⟩ <;> simp [heard, Rpc.work]

theorem work_hears (event : Event) (r : Inventory.RpcResult) :
    event.work (afterCall event (.ok r)) .idle < event.work .call (.replied r) := by
  obtain ⟨success, reason⟩ := r
  cases event with
  | _ event => cases success <;> simp [afterCall, Event.work, Rpc.work]

theorem work_afterStatus {event : Event} {status : OrderStatus} (rpc : Rpc) :
    event.work (afterStatus event status) .idle < event.work (.update status) rpc := by
  cases event with
  | _ event => cases status <;> simp [afterStatus, Event.work]

theorem work_afterUpdate {event : Event} {status : OrderStatus} (rpc : Rpc) :
    event.work (afterUpdate event status (.ok ())) .idle < event.work (.update status) rpc := by
  change event.work (if isTerminal status then _ else _) _ < _
  split
  · cases event <;> simp [Event.work]
  · exact work_afterStatus rpc

/-- A handler that is telling the customer gets on with it. -/
theorem work_of_tells {event : Event} {pc : Pc} {rpc : Rpc} (htells : pc.tells = true)
    (hc : c ≠ .crash) (h : s.actSaga event pc rpc c = some s') :
    ∃ pc', s' = s.add (goOn event pc') ∧ event.work pc' .idle < event.work pc rpc := by
  have hdone : ∀ pc', s' = s.add (delivered [] + goOn event pc') → s' = s.add (goOn event pc') :=
    fun pc' heq => heq.trans (congrArg s.add (zero_add _))
  cases pc with
  | find status =>
    cases c with
    | go =>
      cases h
      cases hrow : s.orders.lookup event.orderId with
      | none => exact ⟨.returned, rfl, by cases event <;> simp [Event.work]⟩
      | some order =>
        exact ⟨.publishStatus status order.customerId, rfl, by cases event <;> simp [Event.work]⟩
    | reject message =>
      cases h
      exact ⟨.returned, hdone _ rfl, by cases event <;> simp [Event.work]⟩
    | crash => exact absurd rfl hc
    | _ => cases h
  | publishStatus status customerId =>
    cases c with
    | go =>
      cases h
      refine ⟨.returned, ?_, by cases event <;> simp [Event.work]⟩
      change (s.add (delivered _)).add _ = _
      rw [deliver_statusChanged]
      exact congrArg (fun s => System.add s 0) System.add_nothing
    | reject message =>
      cases h
      exact ⟨.returned, hdone _ rfl, by cases event <;> simp [Event.work]⟩
    | crash => exact absurd rfl hc
    | _ => cases h
  | _ => cases htells

/-- **What an act leaves to do is less**, unless it is a crash or a rejected call of the
payment handler; those bring in no more than an order does. -/
theorem React.effort_lt (hr : React s t c base out)
    (htells : ∀ event pc rpc, t = .saga event pc rpc → pc.tells = false) :
    effort out + 1 ≤ t.work + if (Label.act t c).disturbs then 22 else 0 := by
  have hquiet : ∀ n, n < t.work → n + 1 ≤ t.work + if (Label.act t c).disturbs then 22 else 0 :=
    fun n hn => by omega
  have hloud : ∀ n, n < 22 → (Label.act t c).disturbs = true →
      n + 1 ≤ t.work + if (Label.act t c).disturbs then 22 else 0 := fun n hn hd => by
    rw [if_pos hd]
    omega
  cases hr with
  | relays event => exact hquiet _ (by simp [Token.work, messageWork, Queue.deadLetter])
  | starts h =>
    rw [effort_singleton]
    exact hquiet _ (work_start h)
  | expires m hq =>
    refine hquiet _ ?_
    rename_i queue
    have hne : queue ≠ .dlq := by
      rintro rfl
      cases hq
    rw [effort_singleton, Token.work, Token.work, if_neg hne, if_pos hq]
    simp [Queue.deadLetter]
  | sends event =>
    rw [effort_singleton]
    exact hquiet _ (work_call (Nat.lt_succ_self 2))
  | handled event redelivered faults =>
    rw [effort_singleton]
    exact hquiet _ (work_call (work_heard _))
  | hears event r =>
    rw [effort_goOn]
    exact hquiet _ (work_hears event r)
  | loses event r =>
    rw [effort_singleton]
    exact hquiet _ (work_call Nat.one_pos)
  | givesUp event rpc message => exact hquiet _ (work_givesUp event rpc message)
  | writes event status rpc =>
    rw [effort_goOn]
    exact hquiet _ (work_afterUpdate rpc)
  | writeFails event status rpc message =>
    rw [effort_goOn]
    exact hquiet _ (work_afterStatus rpc)
  | tells event rpc c hpc hpc' =>
    rw [htells event _ rpc rfl] at hpc
    cases hpc
  | requests event request rpc =>
    exact hquiet _ (by cases event <;> simp [Token.work, Event.work, messageWork, Queue.deadLetter])
  | requestFails event request rpc message =>
    exact hquiet _ (by cases event <;> simp [Token.work, Event.work])
  | crashes event pc rpc => exact hloud _ (effort_crash event pc rpc) (by simp [Label.disturbs])
  | serves req redelivered faults => exact hquiet _ (by simp [Token.work])
  | paid row hrow horder => exact hquiet _ (by simp [Token.work, payWork])
  | unpaid hnone =>
    refine hquiet _ ?_
    rename_i event xDeath
    rw [effort_singleton]
    rcases Payments.afterFind_none xDeath with hpc | hpc <;> rw [hpc] <;> simp [Token.work, payWork]
  | movesToDlq event xDeath =>
    refine hquiet _ ?_
    simp [Token.work, payWork]
  | givenUp event xDeath =>
    exact hquiet _ (by simp [Token.work, payWork, messageWork, Queue.deadLetter])
  | charged event xDeath status => exact hquiet _ (by simp [Token.work, payWork])
  | chargeFails event xDeath message =>
    exact hloud _ (by simp [Token.work, payWork]) (by simp [Label.disturbs])
  | retries event xDeath hq =>
    refine hquiet _ ?_
    rename_i queue
    rw [effort_singleton]
    cases queue <;> simp [Token.work, payWork, messageWork, Queue.deadLetter]
  | retryDropped event xDeath => exact hquiet _ (by simp [Token.work, payWork])
  | saves event xDeath status => exact hquiet _ (by simp [Token.work, payWork])
  | announces event xDeath id status =>
    refine hquiet _ ?_
    cases status <;> simp [Token.work, payWork, messageWork, resultQueue, Queue.deadLetter]
  | announceFails message hpc =>
    refine hquiet _ ?_
    rcases hpc with rfl | ⟨id, status, rfl⟩ <;> simp [Token.work, payWork]
  | requeues event xDeath pc hc =>
    refine hloud _ (by simp [Token.work, messageWork, Queue.deadLetter]) ?_
    rcases hc with rfl | ⟨message, rfl, -⟩ <;> rfl
  | vanishes hgone =>
    refine hquiet _ ?_
    cases hgone with
    | outbox event => simp [Token.work]
    | thrown event xDeath message hpc =>
      rcases hpc with rfl | rfl | rfl | ⟨status, rfl⟩ <;> simp [Token.work, payWork]

/-- What an act puts in flight is about the order of its token, and is less to do. -/
theorem exists_out_of_act (hformed : t.Formed) (hs : s.step (.act t c) = some s') :
    ∃ out, s'.flight = out + s.flight.erase t ∧ (∀ u ∈ out, u.order = t.order) ∧
      effort out + 1 ≤ t.work + if (Label.act t c).disturbs then 22 else 0 := by
  have ht := System.mem_of_act hs
  have hact : (s.without t).act t c = some s' := by rwa [System.step, if_pos ht] at hs
  by_cases htells : ∃ event pc rpc, t = .saga event pc rpc ∧ pc.tells = true
  · obtain ⟨event, pc, rpc, rfl, hpc⟩ := htells
    have hact : (s.without _).actSaga event pc rpc c = some s' := hact
    by_cases hc : c = .crash
    · subst hc
      cases hact
      refine ⟨_, rfl, fun u hu => ?_, ?_⟩
      · rcases Multiset.mem_add.mp hu with hu | hu
        · exact order_abandoned event pc rpc u hu
        · obtain rfl := Multiset.mem_singleton.mp hu
          cases event <;> rfl
      · have hless := effort_crash event pc rpc
        change effort (abandoned event pc rpc + {.queued event.message.1 event.message.2}) + 1 ≤
          _ + 22
        omega
    · obtain ⟨pc', rfl, hless⟩ := work_of_tells hpc hc hact
      refine ⟨_, rfl, order_goOn event pc', ?_⟩
      rw [effort_goOn]
      exact hless.trans_le (Nat.le_add_right _ _)
  · obtain ⟨base, out, hr, rfl⟩ := System.react_of_act hact
    refine ⟨out, ?_, hr.order hformed, hr.effort_lt fun event pc rpc heq => ?_⟩
    · change out + base.flight = _
      rw [System.flight_of_react hr]
      rfl
    · by_contra hcon
      exact htells ⟨event, pc, rpc, heq, by simpa using hcon⟩

theorem work_copy (t : Token) : effort t.copy < 22 := by
  unfold Token.copy
  split
  · simp [Token.work]
  · rename_i queue m
    have hbody : messageWork m.body ≤ 20 := by
      cases m.body <;> simp [messageWork]
    rw [effort_singleton, Token.work]
    split
    · exact Nat.succ_pos 21
    · split <;> omega
  · simp [Token.work]
  · simp [Token.work]
  · simp

theorem order_copy (t : Token) : ∀ u ∈ t.copy, u.order = t.order := by
  intro u hu
  obtain rfl | ⟨event, rfl, rfl⟩ := mem_copy hu
  · rfl
  · cases event <;> rfl

/-- The work that is added to an order's. -/
theorem effortOf_add_le {n : ℕ} (horder : ∀ u ∈ out, u.order = t.order) (hout : effort out < n)
    (ts : Multiset Token) : effortOf o (out + ts) + (if t.order = some o then 1 else 0) ≤
      effortOf o ts + if t.order = some o then n else 0 := by
  rw [effortOf_add]
  by_cases ho : t.order = some o
  · rw [effortOf_of_order fun u hu => (horder u hu).trans ho, if_pos ho, if_pos ho]
    omega
  · rw [effortOf_eq_zero fun u hu hcon => ho ((horder u hu).symm.trans hcon), if_neg ho, if_neg ho]
    omega

/-- **Every step of an order leaves less to do for it**, or brings in more; it leaves the
other orders alone. -/
theorem effortOf_of_step (hformed : ∀ t ∈ s.flight, t.Formed) (hs : s.step l = some s')
    (o : OrderId) : effortOf o s'.flight + (if l.order = some o then 1 else 0) ≤
      effortOf o s.flight + if l.order = some o ∧ l.disturbs = true then 22 else 0 := by
  cases l with
  | createOrder o' dto result =>
    rcases System.step_cases hs with ⟨_, _, _, order, event, heq, hcreate, hfresh, rfl⟩ |
      ⟨_, _, _, _, heq, -⟩ | ⟨_, heq, -⟩ <;> cases heq
    obtain ⟨-, rfl, -⟩ := Orders.createOrder_eq hcreate
    have horder : ∀ u ∈ ({.outbox event} : Multiset Token), u.order = (Token.outbox event).order :=
      fun u hu => by rw [Multiset.mem_singleton.mp hu]
    have hwork : effort {.outbox event} < 22 := by simp [Token.work]
    have hless := effortOf_add_le (o := o) horder hwork s.flight
    simpa [Label.order, Label.disturbs, Token.order, System.add] using hless
  | act t c =>
    obtain ⟨out, hflight, horder, hless⟩ := exists_out_of_act (hformed t (System.mem_of_act hs)) hs
    have hadd := effortOf_add_le (o := o) horder (Nat.lt_of_succ_le hless) (s.flight.erase t)
    have herase := effortOf_erase (System.mem_of_act hs) o
    rw [hflight]
    change _ + (if t.order = some o then 1 else 0) ≤
      _ + if t.order = some o ∧ (Label.act t c).disturbs = true then 22 else 0
    by_cases ho : t.order = some o
    · simp only [ho, if_true, true_and] at hadd herase ⊢
      omega
    · simp only [ho, if_false, false_and] at hadd herase ⊢
      omega
  | duplicate t =>
    rcases System.step_cases hs with ⟨_, _, _, _, _, heq, -⟩ | ⟨_, _, _, _, heq, -⟩ |
      ⟨_, heq, -, rfl⟩ <;> cases heq
    have hless := effortOf_add_le (o := o) (order_copy t) (work_copy t) s.flight
    change effortOf o (t.copy + s.flight) + (if t.order = some o then 1 else 0) ≤
      _ + if t.order = some o ∧ (Label.duplicate t).disturbs = true then 22 else 0
    by_cases ho : t.order = some o
    · simpa only [ho, if_true, true_and, Label.disturbs] using hless
    · simpa only [ho, if_false, false_and] using hless

/-- **The steps of an order are bounded**, in every run: it takes at most 22 for the order,
and for every duplicate, crash and rejected call of a payment handler of the order, no
matter what goes wrong with the RPCs or happens to the other orders. -/
theorem steps_le_of_reach {s : System × List Label}
    (h : Reach (traced System.step) (untraced Opens) (fun _ _ => True) s) (o : OrderId) :
    s.2.countP (fun l => l.order = some o) ≤
      22 * s.2.countP fun l => l.order = some o ∧ l.disturbs = true := by
  have hbound := h.countP_le (I := fun s => ∀ t ∈ s.flight, t.Formed)
    (fun s => effortOf o s.flight) (fun l => l.order = some o)
    (fun l => l.order = some o ∧ l.disturbs = true) 22 (fun s hopens => ?_)
    fun s l s' hformed hs => ?_
  · exact (Nat.le_add_right _ _).trans hbound
  · rw [hopens.flight]
    exact ⟨fun t ht => (by cases ht), rfl⟩
  · refine ⟨formed_of_step hformed hs, ?_⟩
    simpa using effortOf_of_step hformed hs o

/-! ## Nothing is stuck -/

/-- **Where what is in flight can go**: a message is consumed, or is a payment request that
waits for its TTL, and a handler has not ended. -/
def Token.Placed : Token → Prop
  | .queued queue m => (start queue m).isSome ∨
      queue.deadLetter.isSome ∧ ∃ event, m.body = .paymentRequested event
  | .saga _ pc _ => pc ≠ .returned
  | .payment _ _ pc => pc ≠ .returned ∧ ∀ message, pc ≠ .thrown message
  | _ => True

theorem placed_goOn {event : Event} {pc : Pc} : ∀ u ∈ goOn event pc, u.Placed := by
  intro u hu
  cases pc with
  | returned => cases hu
  | _ =>
    obtain rfl := Multiset.mem_singleton.mp hu
    simp [Token.Placed]

theorem placed_abandoned {event : Event} {pc : Pc} {rpc : Rpc} :
    ∀ u ∈ abandoned event pc rpc, u.Placed := by
  intro u hu
  rw [mem_abandoned hu]
  trivial

theorem placed_start {queue : Queue} {m : Message} (h : start queue m = some u) : u.Placed := by
  cases starts_of_start h <;> simp [Token.Placed]

/-- **No act leaves anything stuck.** -/
theorem React.placed (hr : React s t c base out) (hformed : t.Formed) (ht : t.Placed) :
    ∀ u ∈ out, u.Placed := by
  have hone : ∀ {u : Token}, u.Placed → ∀ v ∈ ({u} : Multiset Token), v.Placed :=
    fun hu v hv => (Multiset.mem_singleton.mp hv).symm ▸ hu
  cases hr with
  | relays event => exact hone (.inl rfl)
  | starts h => exact hone (placed_start h)
  | expires m hq =>
    -- Only payment requests wait for a TTL.
    obtain ⟨body, xDeath⟩ := m
    rcases ht with hstart | ⟨-, event, hbody⟩
    · obtain ⟨u, hu⟩ := Option.isSome_iff_exists.mp hstart
      cases starts_of_start hu <;> cases hq
    · obtain rfl : body = _ := hbody
      exact hone (.inl rfl)
  | sends event => exact hone (by simp [Token.Placed])
  | handled event redelivered faults => exact hone (by simp [Token.Placed])
  | hears event r => exact placed_goOn
  | loses event r => exact hone (by simp [Token.Placed])
  | givesUp event rpc message =>
    exact fun u hu => (Multiset.mem_add.mp hu).elim (placed_abandoned u) (placed_goOn u)
  | writes event status rpc => exact placed_goOn
  | writeFails event status rpc message => exact placed_goOn
  | tells event rpc c hpc hpc' => exact placed_goOn
  | requests event request rpc => exact hone (.inl rfl)
  | crashes event pc rpc =>
    refine fun u hu => (Multiset.mem_add.mp hu).elim (placed_abandoned u) fun hu => ?_
    obtain rfl := Multiset.mem_singleton.mp hu
    cases event <;> exact .inl rfl
  | unpaid hnone =>
    rw [afterFind_eq_fire hformed.1]
    exact hone (by simp [Token.Placed])
  | movesToDlq event xDeath => exact absurd rfl hformed.2.1
  | givenUp event xDeath => exact absurd rfl hformed.2.2
  | charged event xDeath status => exact hone (by simp [Token.Placed])
  | chargeFails event xDeath message => exact hone (by simp [Token.Placed])
  | retries event xDeath hq => exact hone (.inr ⟨hq, event, rfl⟩)
  | saves event xDeath status => exact hone (by simp [Token.Placed])
  | announces event xDeath id status => exact hone (by cases status <;> exact .inl rfl)
  | requeues event xDeath pc hc => exact hone (.inl rfl)
  | _ => intro u hu; cases hu

/-- What is in flight is well formed, and nothing of it is stuck. -/
def Moving (s : System) : Prop := ∀ t ∈ s.flight, t.Formed ∧ t.Placed

theorem Moving.step (h : Moving s) (hs : s.step l = some s') : Moving s' := by
  have hformed := formed_of_step (fun t ht => (h t ht).1) hs
  refine fun u hu => ⟨hformed u hu, ?_⟩
  obtain ⟨o, dto, result, order, event, rfl, hcreate, hfresh, rfl⟩ |
    ⟨t, c, base, out, rfl, ht, hr, rfl⟩ | ⟨t, rfl, ht, rfl⟩ := System.step_cases hs
  · rcases Multiset.mem_add.mp hu with hu | hu
    · obtain rfl := Multiset.mem_singleton.mp hu
      trivial
    · exact (h u hu).2
  · rcases Multiset.mem_add.mp hu with hu | hu
    · exact hr.placed (h t ht).1 (h t ht).2 u hu
    · rw [System.flight_of_react hr] at hu
      exact (h u (Multiset.mem_of_mem_erase hu)).2
  · rcases Multiset.mem_add.mp hu with hu | hu
    · obtain rfl | ⟨event, rfl, rfl⟩ := mem_copy hu
      · exact (h _ ht).2
      · trivial
    · exact (h u hu).2

theorem moving_of_reach {guard : System → Label → Prop} (h : Reach System.step Opens guard s) :
    Moving s := by
  refine h.invariant (I := Moving) (fun s hopens t ht => ?_) fun _ _ _ hinv _ hs => hinv.step hs
  rw [hopens.flight] at ht
  cases ht

/-- **Everything in flight can go on** of itself. -/
theorem exists_act (hformed : t.Formed) (hplaced : t.Placed) (ht : t ∈ s.flight) :
    ∃ c, (Label.act t c).proceeds = true ∧ (s.step (.act t c)).isSome = true := by
  have hstep : ∀ c, ((s.without t).act t c).isSome = true → (s.step (.act t c)).isSome = true :=
    fun c h => by rwa [System.step, if_pos ht]
  cases t with
  | outbox event => exact ⟨.go, rfl, hstep _ rfl⟩
  | queued queue m =>
    rcases hplaced with hstart | ⟨hq, -⟩
    · obtain ⟨u, hu⟩ := Option.isSome_iff_exists.mp hstart
      refine ⟨.go, rfl, hstep _ ?_⟩
      rw [System.act, hu]
      rfl
    · refine ⟨.expire, rfl, hstep _ ?_⟩
      rw [System.act, if_pos hq]
      rfl
  | saga event pc rpc =>
    cases pc with
    | call =>
      cases rpc with
      | idle => exact ⟨.go, rfl, hstep _ rfl⟩
      | requested => exact ⟨.serve false [], rfl, hstep _ rfl⟩
      | replied r => exact ⟨.go, rfl, hstep _ rfl⟩
      | lost => exact ⟨.reject "timeout", rfl, hstep _ rfl⟩
    | returned => exact absurd rfl hplaced
    | _ => exact ⟨.go, rfl, hstep _ rfl⟩
  | request req => exact ⟨.serve false [], rfl, hstep _ rfl⟩
  | payment event xDeath pc =>
    cases pc with
    | fire => exact ⟨.charge .success, rfl, hstep _ rfl⟩
    | publishDlq => exact absurd rfl hformed.2.1
    | publishGivenUp => exact absurd rfl hformed.2.2
    | returned => exact absurd rfl hplaced.1
    | thrown message => exact absurd rfl (hplaced.2 message)
    | _ => exact ⟨.go, rfl, hstep _ rfl⟩

/-- A step that brings in nothing leaves less to do. -/
theorem effort_of_step (hformed : ∀ t ∈ s.flight, t.Formed) (hl : l.disturbs = false)
    (hs : s.step l = some s') : effort s'.flight < effort s.flight := by
  cases l with
  | createOrder o dto result => cases hl
  | duplicate t => cases hl
  | act t c =>
    have ht := System.mem_of_act hs
    obtain ⟨out, hflight, -, hless⟩ := exists_out_of_act (hformed t ht) hs
    have herase : effort s.flight = t.work + effort (s.flight.erase t) := by
      conv_lhs => rw [← Multiset.cons_erase ht, effort_cons]
    rw [hl] at hless
    rw [hflight, effort_add]
    simp only [Bool.false_eq_true, if_false] at hless
    omega

/-- What moves and is busy goes on of itself. -/
theorem Moving.goes (h : Moving s) (hbusy : s.flight ≠ 0) :
    ∃ l s', l.proceeds = true ∧ s.step l = some s' := by
  obtain ⟨t, ht⟩ := Multiset.exists_mem_of_ne_zero hbusy
  obtain ⟨c, hc, hsome⟩ := exists_act (h t ht).1 (h t ht).2 ht
  exact ⟨.act t c, _, hc, (Option.some_get hsome).symm⟩

/-- **What moves comes to rest** of itself. -/
theorem Moving.exists_rest (h : Moving s) :
    ∃ s', Reach System.step (fun u => u = s) (fun _ l => l.proceeds = true) s' ∧ s'.flight = 0 := by
  refine Reach.exists_rest (fun u => effort u.flight) (fun u l u' hu hl hs => ?_)
    (fun u hu hbusy => hu.goes hbusy) h
  exact ⟨hu.step hs, effort_of_step (fun t ht => (hu t ht).1) (disturbs_of_proceeds hl) hs⟩

/-- **A shop left alone comes to rest**: from every state it reaches, whatever has gone
wrong before, it can go on of itself until nothing is in flight, and it stops nowhere
else, as long as nothing more is brought in. -/
theorem comes_to_rest_of_reach (h : Reach System.step Opens (fun _ _ => True) s) :
    (∃ s', Reach System.step (fun u => u = s) (fun _ l => l.proceeds = true) s' ∧
        s'.flight = 0) ∧
      ∀ s', Reach System.step (fun u => u = s) (fun _ l => l.disturbs = false) s' →
        (∀ l, l.disturbs = false → s'.step l = none) → s'.flight = 0 := by
  have hmoving := moving_of_reach h
  refine ⟨hmoving.exists_rest, fun s' hreach hstuck => ?_⟩
  have hmoving' : Moving s' := by
    refine hreach.invariant (I := Moving) (fun u hu => ?_) fun _ _ _ hu _ hs => hu.step hs
    obtain rfl : u = s := hu
    exact hmoving
  by_contra hbusy
  obtain ⟨l, u, hl, hu⟩ := hmoving'.goes hbusy
  rw [hstuck l (disturbs_of_proceeds hl)] at hu
  cases hu

/-! ## Runs -/

/-- An order that is completed, its customer told: twenty steps. -/
theorem steps_le_of_completed :
    ∃ s, Reach (traced System.step) (untraced Opens) (fun _ _ => True) s ∧
      s.1.flight = 0 ∧ s.2.length = 20 ∧ s.2.countP (fun l => l.order = some "o") ≤
        22 * s.2.countP fun l => l.order = some "o" ∧ l.disturbs = true := by
  obtain ⟨s, hreach, hs⟩ := Reach.exists_of_follow (traced System.step) (untraced Opens)
    (fun _ _ => True) (s := (newShop, [])) ⟨opens_newShop, rfl⟩
    ([someOrder] ++ relayed ++ called (.created someCreated) ++ requested ++ paid ++ completed ++
      [.act (.saga (.succeeded ⟨"o", some 0, .success⟩) (.find .completed) .idle) .go,
        .act (.saga (.succeeded ⟨"o", some 0, .success⟩) (.publishStatus .completed "c") .idle) .go])
    (fun s => s.1.flight = 0 && s.2.length = 20) (by decide +kernel)
  rw [Bool.and_eq_true, decide_eq_true_eq, decide_eq_true_eq] at hs
  exact ⟨s, hreach, hs.1, hs.2, steps_le_of_reach hreach "o"⟩

/-- The payment handler crashes between the charge and the insert; the shop comes to rest. -/
theorem comes_to_rest_of_crash :
    ∃ s, Reach System.step Opens (fun _ _ => True) s ∧ s.flight ≠ 0 ∧
      (∃ s', Reach System.step (fun u => u = s) (fun _ l => l.proceeds = true) s' ∧
          s'.flight = 0) ∧
        ∀ s', Reach System.step (fun u => u = s) (fun _ l => l.disturbs = false) s' →
          (∀ l, l.disturbs = false → s'.step l = none) → s'.flight = 0 := by
  obtain ⟨s, hreach, hs⟩ := Reach.exists_of_follow System.step Opens (fun _ _ => True)
    opens_newShop
    ([someOrder] ++ relayed ++ called (.created someCreated) ++ requested ++
      [.act (.payment someRequest [] .find) .go,
        .act (.payment someRequest [] .fire) (.charge .success),
        .act (.payment someRequest [] (.save .success)) .crash])
    (fun s => s.flight ≠ 0) (by decide +kernel)
  exact ⟨s, hreach, of_decide_eq_true hs, comes_to_rest_of_reach hreach⟩

end Saga

end Ecommerce
