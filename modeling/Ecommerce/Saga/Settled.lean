import Ecommerce.Saga.Progress
import Ecommerce.Saga.Stranded
/-!
# What becomes of an order

A PENDING order has its outbox row, its message or its handler in flight
(`Begun`), in spite of duplicates and crashes, as long as the orders table
can be written and the relay passes over no outbox row. With the reserved
orders carried on (`Carried`) that leaves an order at rest three ways to
stand: COMPLETED, CANCELLED, or reserved with a confirm call that has
failed. A shop left alone comes to rest, so that every order gets there.
-/

namespace Ecommerce

namespace Saga

/-- What an order begins with, before anything is decided about it. -/
def Token.begins (o : OrderId) : Token → Bool
  | .outbox event => event.orderId = o
  | .queued .orderCreated ⟨.orderCreated event, _⟩ => event.orderId = o
  | .saga (.created event) .call _ => event.orderId = o
  | .saga (.created event) (.update _) _ => event.orderId = o
  | _ => false

/-- The update of an order's status fails, or the relay passes over its event. -/
def Label.forgets : Label → Bool
  | act (.saga _ (.update _) _) (.reject _) => true
  | act (.outbox _) .lose => true
  | _ => false

/-- **Every PENDING order is under way.** -/
def Begun (s : System) : Prop :=
  ∀ o, s.statusOf o = some .pending → ∃ t ∈ s.flight, t.begins o = true

/-- An order has come to its end, or is left for follow-up after its confirm call has failed. -/
def Settled (labels : List Label) (o : OrderId) (status : OrderStatus) : Prop :=
  status = .completed ∨ status = .cancelled ∨
    status = .inventoryReserved ∧ ConfirmFailed labels o

variable {s s' base : System} {t u : Token} {c : Choice} {out : Multiset Token} {o : OrderId}
variable {l : Label}

/-! ## Orders that are PENDING -/

/-- No handler writes PENDING. -/
theorem ne_pending_of_reaches {event : Event} {status : OrderStatus}
    (h : event.Reaches (.update status)) : status ≠ .pending := by
  rintro rfl
  cases event with
  | created event => rcases h with h | h <;> cases h
  | succeeded event => cases h
  | failed event => cases h

/-- So an order that is PENDING has been before. -/
theorem pending_of_react (hr : React s t c base out) (hformed : t.Formed)
    (h : base.statusOf o = some .pending) : s.statusOf o = some .pending ∧
      ∀ event status rpc, t = .saga event (.update status) rpc → c = .go → event.orderId ≠ o := by
  -- What a handler writes to `o` is not PENDING.
  have hwrites : ∀ (event : Event) (status : OrderStatus), event.Reaches (.update status) →
      (s.setStatus event.orderId status).statusOf o = some .pending → event.orderId ≠ o ∧
        s.statusOf o = some .pending := by
    intro event status hreaches hst
    rw [System.statusOf, System.lookup_setStatus] at hst
    split at hst
    · obtain ⟨order, ho, hpending⟩ := Option.map_eq_some_iff.mp hst
      obtain ⟨old, -, rfl⟩ := Option.map_eq_some_iff.mp ho
      exact absurd hpending (ne_pending_of_reaches hreaches)
    · exact ⟨fun heq => ‹¬ o = event.orderId› heq.symm, hst⟩
  rcases hr.orders with hsame | ⟨event, status, rpc, rfl, rfl, rfl⟩
  · refine ⟨(congrArg (fun orders => (orders.lookup o).map Orders.Order.status) hsame).symm.trans h,
      ?_⟩
    rintro event status rpc rfl rfl
    cases hr with
    | writes event status rpc => exact (hwrites event status hformed h).1
    | tells event rpc c hpc hpc' => cases hpc
    | vanishes hgone => cases hgone
  · obtain ⟨hne, hst⟩ := hwrites event status hformed h
    refine ⟨hst, fun event' status' rpc' heq _ => ?_⟩
    obtain ⟨rfl, -, -⟩ := Token.saga.inj heq
    exact hne

theorem begins_update (event : OrderCreatedEvent) (status : OrderStatus) (rpc : Rpc) :
    Token.begins event.orderId (.saga (.created event) (.update status) rpc) = true :=
  decide_eq_true rfl

/-- A reserve call is followed by an update, whatever it has come to. -/
theorem begins_afterCall (event : OrderCreatedEvent) (r : Except String Inventory.RpcResult) :
    ∃ u ∈ goOn (.created event) (afterCall (.created event) r), u.begins event.orderId = true := by
  rcases r with message | ⟨_ | _, reason⟩
  · exact ⟨_, Multiset.mem_singleton_self _, begins_update event _ _⟩
  · exact ⟨_, Multiset.mem_singleton_self _, begins_update event _ _⟩
  · exact ⟨_, Multiset.mem_singleton_self _, begins_update event _ _⟩

/-- **What an order begins with goes on**, until its status is written. -/
theorem begun_of_react (hr : React s t c base out) (hformed : t.Formed)
    (hkeeps : Label.forgets (.act t c) = false) (hbegins : t.begins o = true)
    (hst : base.statusOf o = some .pending) : ∃ u ∈ out, u.begins o = true := by
  have hnot := (pending_of_react hr hformed hst).2
  have hone : ∀ {u : Token}, u.begins o = true →
      ∃ v ∈ ({u} : Multiset Token), v.begins o = true :=
    fun hu => ⟨_, Multiset.mem_singleton_self _, hu⟩
  cases hr with
  | relays event => exact hone hbegins
  | starts h =>
    cases starts_of_start h with
    | created event xDeath => exact hone hbegins
    | _ => cases hbegins
  | expires m hq =>
    rename_i queue
    obtain ⟨body, xDeath⟩ := m
    cases queue <;> first | cases hbegins | cases hq
  | sends event =>
    cases event with
    | created event => exact hone hbegins
    | _ event => cases hbegins
  | handled event redelivered faults =>
    cases event with
    | created event => exact hone hbegins
    | _ event => cases hbegins
  | hears event r =>
    cases event with
    | created event =>
      obtain rfl : event.orderId = o := of_decide_eq_true hbegins
      exact begins_afterCall event (.ok r)
    | _ event => cases hbegins
  | loses event r =>
    cases event with
    | created event => exact hone hbegins
    | _ event => cases hbegins
  | givesUp event rpc message =>
    cases event with
    | created event =>
      obtain rfl : event.orderId = o := of_decide_eq_true hbegins
      obtain ⟨u, hu, hu'⟩ := begins_afterCall event (.error message)
      exact ⟨u, Multiset.mem_add.mpr (.inr hu), hu'⟩
    | _ event => cases hbegins
  | writes event status rpc =>
    cases event with
    | created event => exact absurd (of_decide_eq_true hbegins) (hnot _ _ _ rfl rfl)
    | _ event => cases hbegins
  | writeFails event status rpc message => cases hkeeps
  | tells event rpc c hpc hpc' =>
    rename_i pc pc'
    cases pc with
    | find status => cases event <;> cases hbegins
    | publishStatus status customerId => cases event <;> cases hbegins
    | _ => cases hpc
  | crashes event pc rpc =>
    -- The message is back in its queue.
    cases event with
    | created event =>
      refine ⟨_, Multiset.mem_add.mpr (.inr (Multiset.mem_singleton_self _)), ?_⟩
      cases pc <;> first | exact hbegins | cases hbegins
    | _ event => cases hbegins
  | requests event request rpc => cases event <;> cases hbegins
  | requestFails event request rpc message => cases event <;> cases hbegins
  | vanishes hgone =>
    cases hgone with
    | outbox event => cases hkeeps
    | thrown event xDeath message hpc => cases hbegins
  | _ => cases hbegins

/-- **Every step keeps the PENDING orders under way**, unless it forgets one. -/
theorem Begun.step (h : Begun s) (hformed : ∀ t ∈ s.flight, t.Formed)
    (hkeeps : l.forgets = false) (hs : s.step l = some s') : Begun s' := by
  intro o hst
  obtain ⟨o', dto, result, order, event, rfl, hcreate, hfresh, rfl⟩ |
    ⟨t, c, base, out, rfl, ht, hr, rfl⟩ | ⟨t, rfl, ht, rfl⟩ := System.step_cases hs
  · obtain ⟨-, rfl, -⟩ := Orders.createOrder_eq hcreate
    by_cases heq : event.orderId = o
    · exact ⟨_, Multiset.mem_add.mpr (.inl (Multiset.mem_singleton_self _)), decide_eq_true heq⟩
    · have hold : s.statusOf o = some .pending := hst ▸
        (congrArg (Option.map Orders.Order.status)
          (Finmap.lookup_insert_of_ne _ fun hcon => heq hcon.symm)).symm
      obtain ⟨t, ht, hbegins⟩ := h o hold
      exact ⟨t, Multiset.mem_add.mpr (.inr ht), hbegins⟩
  · obtain ⟨u, hu, hbegins⟩ := h o (pending_of_react hr (hformed t ht) hst).1
    by_cases heq : u = t
    · subst heq
      obtain ⟨v, hv, hv'⟩ := begun_of_react hr (hformed u hu) hkeeps hbegins hst
      exact ⟨v, Multiset.mem_add.mpr (.inl hv), hv'⟩
    · refine ⟨u, Multiset.mem_add.mpr (.inr ?_), hbegins⟩
      rw [System.flight_of_react hr]
      exact (Multiset.mem_erase_of_ne heq).mpr hu
  · obtain ⟨u, hu, hbegins⟩ := h o hst
    exact ⟨u, Multiset.mem_add.mpr (.inr hu), hbegins⟩

/-- So it is in every run whose steps forget no order. -/
theorem Begun.of_run {guard : System → Label → Prop}
    (hguard : ∀ s l, guard s l → l.forgets = false) (h : Reach System.step Opens guard s) :
    Begun s := by
  refine h.induct (I := Begun) (fun s hopens o hst => ?_) fun s l _ hreach hinv hl hs =>
    hinv.step (backed_of_reach hreach).1 (hguard s l hl) hs
  rw [System.statusOf, hopens.orders] at hst
  cases hst

/-- **No PENDING order is forgotten**, in every run in which the updates of the orders table
succeed and the relay publishes every outbox row: whatever else is duplicated, lost or crashes. -/
theorem begun_of_reach (h : Reach System.step Opens (fun _ l => l.forgets = false) s) :
    Begun s :=
  .of_run (fun _ _ => id) h

/-! ## Orders at rest -/

/-- The runs in which messages are delivered once and nothing an order waits for is lost. -/
def Lossless (l : Label) : Prop := l.publishesMayFail = true ∧ l.losesPublish = false

theorem forgets_of_lossless (h : Lossless l) : l.forgets = false := by
  obtain ⟨hmay, -⟩ := h
  cases l with
  | act t c =>
    cases t with
    | saga event pc rpc =>
      cases pc <;> cases c <;> first | rfl | cases hmay
    | outbox event => cases c <;> first | rfl | cases hmay
    | _ => rfl
  | _ => rfl

/-- Only what rejects is lost. -/
theorem losesPublish_of_ne (h : ∀ message, c ≠ .reject message ∧ c ≠ .drop message) :
    Label.losesPublish (.act t c) = false := by
  cases c with
  | reject message => exact absurd rfl (h message).1
  | drop message => exact absurd rfl (h message).2
  | _ => cases t with
    | saga event pc rpc => cases pc <;> rfl
    | payment event xDeath pc => cases pc <;> rfl
    | _ => rfl

theorem lossless_of_proceeds (h : l.proceeds = true) : Lossless l := by
  cases l with
  | createOrder o dto result => cases h
  | duplicate t => cases h
  | act t c =>
    cases c with
    | go => exact ⟨by cases t <;> rfl, losesPublish_of_ne (by simp)⟩
    | expire => exact ⟨by cases t <;> rfl, losesPublish_of_ne (by simp)⟩
    | charge status => exact ⟨by cases t <;> rfl, losesPublish_of_ne (by simp)⟩
    | serve redelivered faults => exact ⟨by cases t <;> exact h, losesPublish_of_ne (by simp)⟩
    | lose => cases t <;> cases h
    | crash => cases t <;> cases h
    | drop message => cases t <;> cases h
    | reject message =>
      cases t with
      | saga event pc rpc => cases pc <;> cases rpc <;> first | exact ⟨rfl, rfl⟩ | cases h
      | _ => cases h

/-- No PENDING order is forgotten and no reserved one stranded, in such a run. -/
theorem carried_of_lossless {s : System × List Label}
    (h : Reach (traced System.step) (untraced Opens) (fun _ l => Lossless l) s) :
    Begun s.1 ∧ Carried s := by
  refine ⟨.of_run (fun _ _ => forgets_of_lossless) (h.of_traced fun _ _ => id), ?_⟩
  have hinv : PaidOnce s.1 ∧ Carried s := by
    refine h.induct (I := fun s => PaidOnce s.1 ∧ Carried s)
      (fun s hopens => ⟨.of_opens hopens.1, fun o hst => ?_⟩) fun s l s' hreach hinv hl hs => ?_
    · rw [System.statusOf, hopens.1.orders] at hst
      cases hst
    · have hany : Reach System.step Opens (fun _ _ => True) s.1 :=
        hreach.of_traced fun _ _ _ => trivial
      have hformed := (backed_of_reach hany).1
      exact ⟨hinv.1.step hformed (single_of_publishesMayFail hl.1) hl.2 (traced_cases hs).1,
        hinv.2.step hinv.1 hformed hl.1 hl.2 hs⟩
  exact hinv.2

/-- What is neither under way nor carried on has been settled. -/
theorem Begun.settled {s : System × List Label} (hbegun : Begun s.1) (hcarried : Carried s)
    (hrest : s.1.flight = 0) {order : Orders.Order} (ho : s.1.orders.lookup o = some order) :
    Settled s.2 o order.status := by
  have hst : s.1.statusOf o = some order.status := by rw [System.statusOf, ho, Option.map_some]
  cases hstatus : order.status with
  | completed => exact .inl rfl
  | cancelled => exact .inr (.inl rfl)
  | pending =>
    -- What it began with would be in flight.
    obtain ⟨t, ht, -⟩ := hbegun o (hst.trans (congrArg some hstatus))
    rw [hrest] at ht
    cases ht
  | inventoryReserved =>
    obtain ⟨t, ht, -⟩ | hfailed := hcarried.noneStranded o (hst.trans (congrArg some hstatus))
    · rw [hrest] at ht
      cases ht
    · exact .inr (.inr ⟨rfl, hfailed⟩)

/-- **At rest every order is settled**, in every such run. -/
theorem settled_of_rest {s : System × List Label}
    (h : Reach (traced System.step) (untraced Opens) (fun _ l => Lossless l) s)
    (hrest : s.1.flight = 0) {order : Orders.Order} (ho : s.1.orders.lookup o = some order) :
    Settled s.2 o order.status := by
  obtain ⟨hbegun, hcarried⟩ := carried_of_lossless h
  exact hbegun.settled hcarried hrest ho

/-- **Every order gets settled**: from every state of such a run the shop can go on of
itself, within such runs, to a state at rest in which every order is settled. -/
theorem settles_of_reach {s : System × List Label}
    (h : Reach (traced System.step) (untraced Opens) (fun _ l => Lossless l) s) :
    ∃ s', Reach (traced System.step) (fun u => u = s) (fun _ l => l.proceeds = true) s' ∧
      s'.1.flight = 0 ∧ ∀ o order, s'.1.orders.lookup o = some order →
        Settled s'.2 o order.status := by
  have hany : Reach System.step Opens (fun _ _ => True) s.1 := h.of_traced fun _ _ _ => trivial
  have hmoving : Moving s.1 := moving_of_reach hany
  obtain ⟨s', hgoes, hrest⟩ := hmoving.exists_rest
  obtain ⟨labels, htraced⟩ := hgoes.exists_traced s.2
  have hrun := h.trans (htraced.mono fun _ _ => lossless_of_proceeds)
  obtain ⟨hbegun, hcarried⟩ := carried_of_lossless hrun
  exact ⟨(s', labels), htraced, hrest, fun o order ho => hbegun.settled hcarried hrest ho⟩

/-! ## Runs -/

instance (l : Label) : Decidable (Lossless l) :=
  inferInstanceAs (Decidable (l.publishesMayFail = true ∧ l.losesPublish = false))

/-- The handler of a copy of `order.created` crashes while its call is under way. -/
theorem begun_of_crash :
    ∃ s, Reach System.step Opens (fun _ l => l.forgets = false) s ∧
      s.statusOf "o" = some .pending ∧ Begun s := by
  obtain ⟨s, hreach, hs⟩ := Reach.exists_of_follow System.step Opens
    (fun _ l => l.forgets = false) opens_newShop
    ([someOrder, .duplicate (.outbox someCreated)] ++ relayed ++
      [.act (.saga (.created someCreated) .call .idle) .go,
        .act (.saga (.created someCreated) .call .requested) .crash])
    (fun s => s.statusOf "o" = some .pending) (by decide +kernel)
  exact ⟨s, hreach, of_decide_eq_true hs, begun_of_reach hreach⟩

/-- The confirm call of a paid order times out: it is left for follow-up. -/
def unconfirmedRun : List Label :=
  [someOrder] ++ relayed ++ called (.created someCreated) ++ requested ++ paid ++
    [.act (.saga (.succeeded ⟨"o", some 0, .success⟩) .call .idle) (.reject "breaker open")]

theorem settled_of_unconfirmed :
    ∃ s order, Reach (traced System.step) (untraced Opens) (fun _ l => Lossless l) s ∧
      s.1.flight = 0 ∧ s.1.orders.lookup "o" = some order ∧ order.status = .inventoryReserved ∧
      Settled s.2 "o" order.status := by
  obtain ⟨s, hreach, hs⟩ := Reach.exists_of_follow (traced System.step) (untraced Opens)
    (fun _ l => Lossless l) (s := (newShop, [])) ⟨opens_newShop, rfl⟩ unconfirmedRun
    (fun s => s.1.flight = 0 && s.1.statusOf "o" = some .inventoryReserved) (by decide +kernel)
  rw [Bool.and_eq_true, decide_eq_true_eq, decide_eq_true_eq] at hs
  obtain ⟨order, ho, hst⟩ := Option.map_eq_some_iff.mp hs.2
  exact ⟨s, order, hreach, hs.1, ho, hst, settled_of_rest hreach hs.1 ho⟩

/-- An order that was just placed. -/
theorem settles_of_placed :
    ∃ s, Reach (traced System.step) (untraced Opens) (fun _ l => Lossless l) s ∧
      s.1.statusOf "o" = some .pending ∧
      ∃ s', Reach (traced System.step) (fun u => u = s) (fun _ l => l.proceeds = true) s' ∧
        s'.1.flight = 0 ∧ ∀ o order, s'.1.orders.lookup o = some order →
          Settled s'.2 o order.status := by
  obtain ⟨s, hreach, hs⟩ := Reach.exists_of_follow (traced System.step) (untraced Opens)
    (fun _ l => Lossless l) (s := (newShop, [])) ⟨opens_newShop, rfl⟩ [someOrder]
    (fun s => s.1.statusOf "o" = some .pending) (by decide +kernel)
  exact ⟨s, hreach, of_decide_eq_true hs, settles_of_reach hreach⟩

end Saga

end Ecommerce
