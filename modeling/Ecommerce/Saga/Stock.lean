import Ecommerce.Saga.Backed
import Ecommerce.Saga.Lines
/-!
# A cancelled order holds no stock

Every message is delivered once, and only RPCs go wrong. The orchestrator
still leaves stock behind where it gives up a reserve call that was, or
will be, carried out, and where it cancels an order whose release was not
sent or not accepted. `Careful` leaves those steps out, and then what the
orchestrator believes of an order is true.
-/

namespace Ecommerce

namespace Saga

open Payments (someRequest)

/-! ## The conditions on a run -/

namespace Label

/-- Every message is delivered once, that of `order.created` by the relay included, and only
RPCs and the gateway fail. -/
def exactlyOnce : Label → Bool
  | duplicate _ => false
  | act _ .crash => false
  | act _ (.serve redelivered _) => !redelivered
  | act (.saga _ pc _) (.reject _) => pc = .call
  | act (.payment _ _ pc) (.reject _) => pc = .fire
  | act _ (.drop _) => false
  | act (.outbox _) .lose => false
  | _ => true

/-- The order whose stock is left alone by a caller that gives up: a reserve call is given
up, or a release is not even sent. -/
def leaves : Label → Option OrderId
  | act (.saga (.created event) .call _) (.reject _) => some event.orderId
  | act (.saga (.failed event) .call .idle) (.reject _) => some event.orderId
  | _ => none

end Label

/-- A request is answered with `success: true`. -/
def System.accepts (s : System) (faults : List Bool) (req : Inventory.Request) : Bool :=
  match (Inventory.serve faults req s.inventory).1 with
  | .ok (.result r) => r.success
  | _ => false

theorem accepts_iff {s : System} {faults : List Bool} {req : Inventory.Request}
    {reply : Inventory.Reply} (h : (Inventory.serve faults req s.inventory).1 = .ok reply) :
    s.accepts faults req = true ↔ ∃ reason, reply = .result ⟨true, reason⟩ := by
  unfold System.accepts
  rw [h]
  rcases reply with ⟨_ | _, reason⟩ | requeue <;> simp

/-- A reserve request nobody waits for is declined, and a release is carried out. -/
def Answers (s : System) : Label → Bool
  | .act (.request (.reserve o items)) (.serve redelivered faults) =>
    !s.accepts faults ((InventoryRpcRequest.reserve o items).toRequest redelivered)
  | .act (.request (.release o)) (.serve redelivered faults) =>
    s.accepts faults ((InventoryRpcRequest.release o).toRequest redelivered)
  | .act (.saga (.failed event) .call .requested) (.serve redelivered faults) =>
    s.accepts faults ((InventoryRpcRequest.release event.orderId).toRequest redelivered)
  | _ => true

/-- **No stock is left behind**: the orchestrator does not give up a reserve call that was
carried out nor a release it has not sent, and what it has sent is answered as it takes it
to be. -/
structure Careful (s : System) (l : Label) : Prop where
  leaves : ∀ o ∈ l.leaves, s.inventory.statusOf o ≠ some .reserved
  answers : Answers s l = true

/-- **The invariant.** -/
structure Tidy (s : System) : Prop where
  stored : Inventory.Stored s.inventory
  stage : ∀ t ∈ s.flight, ∀ o stage, t.line = some (o, stage) → stage.Holds s o
  one : ∀ o, lines o s.flight ≤ 1
  cancelled : ∀ o, s.statusOf o = some .cancelled → Freed s o
  known : ∀ t ∈ s.flight, ∀ o, t.order = some o → s.orders.lookup o ≠ none
  stocked : ∀ o, s.inventory.statusOf o ≠ none → s.orders.lookup o ≠ none

variable {s s' base : System} {t u : Token} {c : Choice} {out : Multiset Token} {o o' : OrderId}
variable {stage : Stage}

/-! ## What stays as it is -/

/-- Nothing about the order has changed. -/
structure SameFor (s s' : System) (o : OrderId) : Prop where
  order : s'.statusOf o = s.statusOf o
  stock : s'.inventory.statusOf o = s.inventory.statusOf o
  pending : Pending s' o ↔ Pending s o

namespace SameFor

theorem freed (h : SameFor s s' o) (hfreed : Freed s o) : Freed s' o := by
  unfold Freed at hfreed ⊢
  rwa [h.stock, h.pending]

theorem holds (h : SameFor s s' o) (hstage : stage.Holds s o) : stage.Holds s' o := by
  cases stage with
  | freed => exact h.freed hstage
  | settled =>
    unfold Stage.Holds at hstage ⊢
    rwa [h.order]
  | _ =>
    unfold Stage.Holds at hstage ⊢
    rwa [h.stock, h.pending, h.order]

end SameFor

theorem order_of_release : Token.order (.request (.release o)) = some o := rfl

/-- The tables say of another order what they said. -/
theorem React.frame (hr : React s t c base out) (hst : Inventory.Stored s.inventory)
    (hne : t.order ≠ some o) : base.statusOf o = s.statusOf o ∧
      base.inventory.statusOf o = s.inventory.statusOf o := by
  have hserve : ∀ faults req, req.orderId ≠ o →
      (s.serve faults req).inventory.statusOf o = s.inventory.statusOf o := by
    intro faults req hreq
    obtain ⟨reply, -, hreplies, -⟩ := Inventory.serve_replies faults req hst
    exact hreplies.other o (Ne.symm hreq)
  cases hr with
  | handled event redelivered faults =>
    refine ⟨rfl, hserve _ _ fun heq => hne ?_⟩
    rw [← heq]
    cases event <;> rfl
  | serves req redelivered faults =>
    refine ⟨rfl, hserve _ _ fun heq => hne ?_⟩
    rw [← heq]
    cases req <;> rfl
  | writes event status rpc =>
    refine ⟨?_, by rw [System.setStatus_inventory]⟩
    have hne : o ≠ event.orderId := fun heq => hne (heq ▸ rfl)
    rw [System.statusOf, System.lookup_setStatus, if_neg hne, System.statusOf]
  | _ => exact ⟨rfl, rfl⟩

/-- **An act is about one order only.** -/
theorem React.same (hr : React (s.without t) t c base out) (hst : Inventory.Stored s.inventory)
    (hformed : t.Formed) (hne : t.order ≠ some o) : SameFor s (base.add out) o := by
  obtain ⟨horder, hstock⟩ := hr.frame hst hne
  refine ⟨horder, hstock, ?_⟩
  change Token.request (.release o) ∈ out + base.flight ↔ _
  rw [Multiset.mem_add, System.flight_of_react hr]
  constructor
  · rintro (hnew | hold)
    · have := hr.order hformed _ hnew
      rw [order_of_release] at this
      exact absurd this.symm hne
    · exact Multiset.mem_of_mem_erase hold
  · intro hold
    refine .inr ((Multiset.mem_erase_of_ne ?_).mpr hold)
    rintro rfl
    exact hne order_of_release

/-- An act that neither takes nor leaves a release. -/
theorem React.pending (hr : React (s.without t) t c base out)
    (ht : ∀ o, t ≠ .request (.release o)) (hout : ∀ o, Token.request (.release o) ∉ out)
    (o : OrderId) : Pending (base.add out) o ↔ Pending s o := by
  change Token.request (.release o) ∈ out + base.flight ↔ _
  rw [Multiset.mem_add, System.flight_of_react hr]
  constructor
  · exact fun h => h.elim (fun hnew => absurd hnew (hout o)) Multiset.mem_of_mem_erase
  · exact fun hold => .inr ((Multiset.mem_erase_of_ne (ht o).symm).mpr hold)

/-- If it does not touch the tables either, it changes nothing for any order. -/
theorem React.sameAll (hr : React (s.without t) t c base out) (ho : base.orders = s.orders)
    (hi : base.inventory = s.inventory) (ht : ∀ o, t ≠ .request (.release o))
    (hout : ∀ o, Token.request (.release o) ∉ out) (o : OrderId) :
    SameFor s (base.add out) o :=
  ⟨congrArg (fun orders => (orders.lookup o).map Orders.Order.status) ho,
    congrArg (fun inventory => inventory.statusOf o) hi, hr.pending ht hout o⟩

namespace Tidy

theorem oneLine (h : Tidy s) : OneLine s := ⟨h.one, h.known⟩

/-- **What an act has to show**: the stages of the tokens it puts in flight, and what it
does to its own order. -/
theorem next (h : Tidy s) (ht : t ∈ s.flight) (hformed : t.Formed) (hc : c ≠ .crash)
    (hr : React (s.without t) t c base out) (hstored : Inventory.Stored base.inventory)
    (hout : ∀ u ∈ out, ∀ o (stage : Stage), u.line = some (o, stage) →
      stage.Holds (base.add out) o)
    (hrest : t.lineOf = none → ∀ o (stage : Stage), t.order = some o → stage.Holds s o →
      stage.Holds (base.add out) o)
    (hcanc : ∀ o, t.order = some o → base.statusOf o = some .cancelled → Freed (base.add out) o) :
    Tidy (base.add out) := by
  have hmem : ∀ u ∈ (base.add out).flight, u ∈ out ∨ u ∈ s.flight.erase t := fun u hu =>
    (Multiset.mem_add.mp hu).imp id fun hold => by rwa [System.flight_of_react hr] at hold
  have hnext := h.oneLine.react ht hformed hc hr
  refine ⟨hstored, fun u hu o stage hline => ?_, hnext.one, fun o ho => ?_, hnext.known,
    fun o ho => ?_⟩
  · rcases hmem u hu with hnew | hold
    · exact hout u hnew o stage hline
    · have hstage := h.stage u (Multiset.mem_of_mem_erase hold) o stage hline
      by_cases horder : t.order = some o
      · -- The acting token is of this order, and not of its line, which has `u` already.
        refine hrest ?_ o stage horder hstage
        by_contra hcon
        obtain ⟨o', ho'⟩ := Option.ne_none_iff_exists'.mp hcon
        obtain rfl : o' = o := Option.some.inj ((order_of_lineOf ho').symm.trans horder)
        exact h.oneLine.alone ht ho' u hold (lineOf_of_line hline)
      · exact (hr.same h.stored hformed horder).holds hstage
  · by_cases horder : t.order = some o
    · exact hcanc o horder ho
    · have hsame := hr.same h.stored hformed horder
      exact hsame.freed (h.cancelled o (hsame.order ▸ ho))
  · refine hr.keeps (s := s.without t) ?_
    by_cases horder : t.order = some o
    · exact h.known t ht o horder
    · have hstock := (hr.frame (s := s.without t) h.stored horder).2
      exact h.stocked o fun hnone => ho (hstock.trans hnone)

/-- An act that changes nothing but how far a line has come. -/
theorem pass (h : Tidy s) (ht : t ∈ s.flight) (hformed : t.Formed) (hc : c ≠ .crash)
    (hr : React (s.without t) t c base out) (ho : base.orders = s.orders)
    (hi : base.inventory = s.inventory) (hreq : ∀ o, t ≠ .request (.release o))
    (hleft : ∀ o, Token.request (.release o) ∉ out)
    (hout : ∀ u ∈ out, ∀ o (stage : Stage), u.line = some (o, stage) →
      ∃ stage' : Stage, t.line = some (o, stage') ∧ (stage'.Holds s o → stage.Holds s o)) :
    Tidy (base.add out) := by
  have hsame := hr.sameAll ho hi hreq hleft
  refine h.next ht hformed hc hr (hi ▸ h.stored) (fun u hu o stage hline => ?_)
    (fun _ o stage _ hstage => (hsame o).holds hstage)
    fun o _ hst => (hsame o).freed (h.cancelled o ((hsame o).order ▸ hst))
  obtain ⟨stage', hline', hstage⟩ := hout u hu o stage hline
  exact (hsame o).holds (hstage (h.stage t ht o stage' hline'))

/-- It puts one token in flight, at the stage of its own or a later one. -/
theorem passOne (h : Tidy s) (ht : t ∈ s.flight) (hformed : t.Formed) (hc : c ≠ .crash)
    (hr : React (s.without t) t c base {u}) (ho : base.orders = s.orders)
    (hi : base.inventory = s.inventory) (hreq : ∀ o, t ≠ .request (.release o))
    (hleft : ∀ o, u ≠ .request (.release o))
    (hout : ∀ o (stage : Stage), u.line = some (o, stage) →
      ∃ stage' : Stage, t.line = some (o, stage') ∧ (stage'.Holds s o → stage.Holds s o)) :
    Tidy (base.add {u}) :=
  h.pass ht hformed hc hr ho hi hreq (fun o hu => hleft o (Multiset.mem_singleton.mp hu).symm)
    fun _ hu => (Multiset.mem_singleton.mp hu).symm ▸ hout

/-- It puts none in flight. -/
theorem passNone (h : Tidy s) (ht : t ∈ s.flight) (hformed : t.Formed) (hc : c ≠ .crash)
    (hr : React (s.without t) t c base 0) (ho : base.orders = s.orders)
    (hi : base.inventory = s.inventory) (hreq : ∀ o, t ≠ .request (.release o)) :
    Tidy (base.add 0) :=
  h.pass ht hformed hc hr ho hi hreq (fun _ hu => by cases hu) fun _ hu => by cases hu

end Tidy

/-! ## The steps -/

theorem freed_of_fresh (h : Stage.fresh.Holds s o) : Stage.freed.Holds s o := .inl h.1

theorem begun_of_fresh (h : Stage.fresh.Holds s o) : Stage.begun.Holds s o :=
  ⟨.inl h.1, h.2⟩

theorem begun_of_held (h : Stage.held.Holds s o) : Stage.begun.Holds s o :=
  ⟨.inr h.1, h.2⟩

/-- A reservation that is not RESERVED at that point was never made. -/
theorem freed_of_begun (h : Stage.begun.Holds s o)
    (hno : s.inventory.statusOf o ≠ some .reserved) : Stage.freed.Holds s o :=
  .inl (h.1.resolve_right hno)

/-- A message hands its stage on to its handler, which may need less. -/
theorem line_start {queue : Queue} {m : Message} (h : start queue m = some u)
    (hline : u.line = some (o, stage)) : ∃ stage', Token.line (.queued queue m) = some (o, stage') ∧
      (stage'.Holds s o → stage.Holds s o) := by
  cases starts_of_start h with
  | succeeded event xDeath =>
    obtain ⟨rfl, rfl⟩ := Prod.mk.inj (Option.some.inj hline)
    exact ⟨.held, rfl, fun hheld => hheld.2.2⟩
  | _ => exact ⟨stage, hline, id⟩

/-- What a handler makes of a reply agrees with the reply. -/
theorem line_hears {event : Event} {r : Inventory.RpcResult}
    (hu : u ∈ goOn event (afterCall event (.ok r))) (hline : u.line = some (o, stage)) :
    ∃ stage', Token.line (.saga event .call (.replied r)) = some (o, stage') ∧
      (stage'.Holds s o → stage.Holds s o) := by
  rw [mem_goOn hu] at hline
  obtain ⟨success, reason⟩ := r
  cases event with
  | created event =>
    cases success with
    | true => exact ⟨stage, hline, id⟩
    | false =>
      obtain ⟨rfl, rfl⟩ := Prod.mk.inj (Option.some.inj hline)
      exact ⟨.fresh, rfl, freed_of_fresh⟩
  | succeeded event =>
    cases success with
    | true => exact ⟨stage, hline, id⟩
    | false => cases hline
  | failed event => exact ⟨stage, hline, id⟩

/-- A lost reply leaves the caller with less. -/
theorem line_loses {event : Event} {r : Inventory.RpcResult}
    (hline : Token.line (.saga event .call .lost) = some (o, stage)) :
    ∃ stage', Token.line (.saga event .call (.replied r)) = some (o, stage') ∧
      (stage'.Holds s o → stage.Holds s o) := by
  obtain ⟨success, reason⟩ := r
  cases event with
  | created event =>
    obtain ⟨rfl, rfl⟩ := Prod.mk.inj (Option.some.inj hline)
    cases success with
    | true => exact ⟨.held, rfl, begun_of_held⟩
    | false => exact ⟨.fresh, rfl, begun_of_fresh⟩
  | _ event => exact ⟨stage, hline, id⟩

theorem line_tells {event : Event} {pc : Pc} (h : pc.tells = true ∨ pc = .returned) :
    ∀ u ∈ goOn event pc, u.line ≠ some (o, stage) := by
  intro u hu hline
  rcases h with htells | rfl
  · rw [mem_goOn hu] at hline
    have := lineOf_of_line hline
    rw [lineOf_tells event _ htells] at this
    cases this
  · cases hu

namespace Tidy

/-- The stage of a caller's order. -/
theorem stage_call (h : Tidy s) {event : Event} {rpc : Rpc}
    (ht : Token.saga event .call rpc ∈ s.flight) (stage : Stage)
    (hstage : event.stage .call rpc = some stage) :
    stage.Holds s event.orderId :=
  h.stage _ ht _ _ (by rw [Token.line, hstage, Option.map_some])

/-- Inventory-service handles the request of a caller. -/
theorem handled (h : Tidy s) {event : Event} {redelivered : Bool} {faults : List Bool}
    (ht : Token.saga event .call .requested ∈ s.flight)
    (hformed : Token.Formed (.saga event .call .requested))
    (hanswers : Answers s (.act (.saga event .call .requested) (.serve redelivered faults)) = true) :
    Tidy (((s.without (.saga event .call .requested)).serve faults
      (event.request.toRequest redelivered)).add {.saga event .call
        (heard (Inventory.serve faults (event.request.toRequest redelivered) s.inventory).1)}) := by
  have hr := React.handled (s := s.without (.saga event .call .requested)) event redelivered faults
  obtain ⟨reply, hreply, hreplies, hstored⟩ :=
    Inventory.serve_replies faults (event.request.toRequest redelivered) h.stored
  have hpending := hr.pending (by simp) (by simp)
  refine h.next ht hformed (by simp) hr hstored (fun u hu o stage hline => ?_)
    (fun hnone => by rw [lineOf_call] at hnone; cases hnone) fun o horder hst => ?_
  · obtain rfl := Multiset.mem_singleton.mp hu
    have hline : Token.line (.saga event .call (heard (Inventory.serve faults
      (event.request.toRequest redelivered) s.inventory).1)) = some (o, stage) := hline
    rw [hreply] at hline
    cases event with
    | created event =>
      obtain ⟨hnone, hnot, hopen⟩ := h.stage_call ht .fresh rfl
      have hnot : ¬ Pending _ event.orderId := fun hp => hnot ((hpending _).mp hp)
      -- The reply says what became of the reservation, unless the message was nacked.
      rcases reply with ⟨_ | _, reason⟩ | requeue
      · obtain ⟨rfl, rfl⟩ := Prod.mk.inj (Option.some.inj hline)
        have hsame := hreplies.failure (by simp)
        exact ⟨(congrArg (fun db => db.statusOf event.orderId) hsame).trans hnone, hnot, hopen⟩
      · obtain ⟨rfl, rfl⟩ := Prod.mk.inj (Option.some.inj hline)
        refine ⟨(hreplies.success reason rfl).trans ?_, hnot, hopen⟩
        exact congrArg (Inventory.Request.settle _) hnone
      · obtain ⟨rfl, rfl⟩ := Prod.mk.inj (Option.some.inj hline)
        have hsame := hreplies.failure (by simp)
        exact ⟨.inl ((congrArg (fun db => db.statusOf event.orderId) hsame).trans hnone), hnot, hopen⟩
    | succeeded event =>
      obtain ⟨rfl, rfl⟩ := Prod.mk.inj (Option.some.inj hline)
      exact h.stage_call ht .settled rfl
    | failed event =>
      obtain ⟨hheld, -, -⟩ := h.stage_call ht .held rfl
      have hok : s.accepts faults ((InventoryRpcRequest.release event.orderId).toRequest
        redelivered) = true := hanswers
      obtain ⟨reason, rfl⟩ := (accepts_iff hreply).mp hok
      obtain ⟨rfl, rfl⟩ := Prod.mk.inj (Option.some.inj hline)
      exact .inr (.inl ((hreplies.success reason rfl).trans
        (congrArg (Inventory.Request.settle _) hheld)))
  · -- An order whose call is under way is not cancelled yet.
    obtain rfl : event.orderId = o := Option.some.inj horder
    have hst : s.statusOf event.orderId = some .cancelled := hst
    cases event with
    | created event => exact absurd hst (h.stage_call ht .fresh rfl).2.2
    | succeeded event => exact absurd hst (h.stage_call ht .settled rfl)
    | failed event => exact absurd hst (h.stage_call ht .held rfl).2.2

/-- The caller of a reserve call gives up. -/
theorem givesUp_created (h : Tidy s) {event : OrderCreatedEvent} {rpc : Rpc} {message : String}
    (ht : Token.saga (.created event) .call rpc ∈ s.flight)
    (hformed : Token.Formed (.saga (.created event) .call rpc))
    (hno : s.inventory.statusOf event.orderId ≠ some .reserved) :
    Tidy ((s.without (.saga (.created event) .call rpc)).add
      (abandoned (.created event) .call rpc +
        goOn (.created event) (afterCall (.created event) (.error message)))) := by
  have hr := React.givesUp (s := s.without (.saga (.created event) .call rpc)) (.created event)
    rpc message
  refine h.pass ht hformed (by simp) hr rfl rfl (by simp) (fun o hu => ?_)
    fun u hu o stage hline => ?_
  · rcases Multiset.mem_add.mp hu with hu | hu
    · cases mem_abandoned hu
    · cases mem_goOn hu
  · rcases Multiset.mem_add.mp hu with hu | hu
    · rw [mem_abandoned hu] at hline
      cases hline
    · rw [mem_goOn hu] at hline
      obtain ⟨rfl, rfl⟩ := Prod.mk.inj (Option.some.inj hline)
      -- Whatever the caller has heard, nothing is reserved.
      cases rpc with
      | replied r =>
        obtain ⟨_ | _, reason⟩ := r
        · exact ⟨.fresh, rfl, freed_of_fresh⟩
        · exact ⟨.held, rfl, fun hheld => absurd hheld.1 hno⟩
      | lost => exact ⟨.begun, rfl, fun hbegun => freed_of_begun hbegun hno⟩
      | idle => exact ⟨.fresh, rfl, freed_of_fresh⟩
      | requested => exact ⟨.fresh, rfl, freed_of_fresh⟩

/-- The caller of a confirm call gives up, and stays out of the order from then on. -/
theorem givesUp_succeeded (h : Tidy s) {event : PaymentResultEvent} {rpc : Rpc} {message : String}
    (ht : Token.saga (.succeeded event) .call rpc ∈ s.flight)
    (hformed : Token.Formed (.saga (.succeeded event) .call rpc)) :
    Tidy ((s.without (.saga (.succeeded event) .call rpc)).add
      (abandoned (.succeeded event) .call rpc +
        goOn (.succeeded event) (afterCall (.succeeded event) (.error message)))) := by
  have hr := React.givesUp (s := s.without (.saga (.succeeded event) .call rpc)) (.succeeded event)
    rpc message
  refine h.pass ht hformed (by simp) hr rfl rfl (by simp) (fun o hu => ?_)
    fun u hu o stage hline => ?_
  · rcases Multiset.mem_add.mp hu with hu | hu
    · cases mem_abandoned hu
    · cases hu
  · rcases Multiset.mem_add.mp hu with hu | hu
    · rw [mem_abandoned hu] at hline
      exact ⟨stage, hline, id⟩
    · cases hu

/-- The caller of a release call gives up on a release that is under way. -/
theorem givesUp_failed (h : Tidy s) {event : PaymentResultEvent} {rpc : Rpc} {message : String}
    (ht : Token.saga (.failed event) .call rpc ∈ s.flight)
    (hformed : Token.Formed (.saga (.failed event) .call rpc))
    (hno : rpc = .idle → s.inventory.statusOf event.orderId ≠ some .reserved) :
    Tidy ((s.without (.saga (.failed event) .call rpc)).add
      (abandoned (.failed event) .call rpc +
        goOn (.failed event) (afterCall (.failed event) (.error message)))) := by
  have hr := React.givesUp (s := s.without (.saga (.failed event) .call rpc)) (.failed event)
    rpc message
  by_cases hreq : rpc = .requested
  · subst hreq
    obtain ⟨hheld, -, hopen⟩ := h.stage_call ht .held rfl
    refine h.next ht hformed (by simp) hr h.stored (fun u hu o stage hline => ?_)
      (fun hnone => by rw [lineOf_call] at hnone; cases hnone) fun o horder hst => ?_
    · rcases Multiset.mem_add.mp hu with hu | hu
      · rw [mem_abandoned hu] at hline
        cases hline
      · rw [mem_goOn hu] at hline
        obtain ⟨rfl, rfl⟩ := Prod.mk.inj (Option.some.inj hline)
        -- The release the caller leaves behind will give the stock back.
        refine .inr (.inr ⟨hheld, Multiset.mem_add.mpr (.inl ?_)⟩)
        exact Multiset.mem_add.mpr (.inl (Multiset.mem_singleton.mpr rfl))
    · obtain rfl : event.orderId = o := Option.some.inj horder
      exact absurd hst hopen
  · have hnone : abandoned (.failed event) .call rpc = 0 := by
      cases rpc with
      | requested => exact absurd rfl hreq
      | _ => rfl
    refine h.pass ht hformed (by simp) hr rfl rfl (by simp) (fun o hu => ?_)
      fun u hu o stage hline => ?_
    · rw [hnone, zero_add] at hu
      cases mem_goOn hu
    · rw [hnone, zero_add] at hu
      rw [mem_goOn hu] at hline
      obtain ⟨rfl, rfl⟩ := Prod.mk.inj (Option.some.inj hline)
      cases rpc with
      | idle => exact ⟨.held, rfl, fun hheld => absurd hheld.1 (hno rfl)⟩
      | requested => exact absurd rfl hreq
      | replied r => exact ⟨.freed, rfl, id⟩
      | lost => exact ⟨.freed, rfl, id⟩

/-- The status is written. -/
theorem writes (h : Tidy s) {event : Event} {status : OrderStatus} {rpc : Rpc}
    (ht : Token.saga event (.update status) rpc ∈ s.flight)
    (hformed : Token.Formed (.saga event (.update status) rpc)) :
    Tidy (((s.without (.saga event (.update status) rpc)).setStatus event.orderId status).add
      (goOn event (afterUpdate event status (.ok ())))) := by
  have hr := React.writes (s := s.without (.saga event (.update status) rpc)) event status rpc
  have hpending := hr.pending (by simp) (fun o hu => by cases mem_goOn hu)
  have hinv : ((s.without (.saga event (.update status) rpc)).setStatus event.orderId
      status).inventory = s.inventory := System.setStatus_inventory _ _
  -- What the order has afterwards is what was written.
  have hstatus : ∀ st, ((s.without (.saga event (.update status) rpc)).setStatus event.orderId
      status).statusOf event.orderId = some st → st = status := by
    intro st hst
    rw [System.statusOf, System.lookup_setStatus, if_pos rfl] at hst
    obtain ⟨order, ho, rfl⟩ := Option.map_eq_some_iff.mp hst
    obtain ⟨order', -, rfl⟩ := Option.map_eq_some_iff.mp ho
    rfl
  refine h.next ht hformed (by simp) hr (by rw [hinv]; exact h.stored)
    (fun u hu o stage hline => ?_)
    (fun hnone => by rw [lineOf_update] at hnone; cases hnone) fun o horder hst => ?_
  · rw [mem_goOn hu] at hline
    cases event with
    | created event =>
      rcases hformed with rfl | rfl
      · obtain ⟨rfl, rfl⟩ := Prod.mk.inj (Option.some.inj hline)
        obtain ⟨hheld, hnot, -⟩ := h.stage _ ht event.orderId .held rfl
        refine ⟨?_, fun hp => hnot ((hpending _).mp hp), fun hcon => ?_⟩
        · exact (congrArg (fun db => db.statusOf event.orderId) hinv).trans hheld
        · cases hstatus _ hcon
      · cases hline
    | succeeded event =>
      obtain rfl : status = .completed := hformed
      cases hline
    | failed event =>
      obtain rfl : status = .cancelled := hformed
      cases hline
  · -- CANCELLED is written at a stage at which no stock is held.
    obtain rfl : event.orderId = o := Option.some.inj horder
    obtain rfl := hstatus _ hst
    have hfreed : Freed s event.orderId := by
      cases event with
      | created event => exact h.stage _ ht event.orderId .freed rfl
      | succeeded event => cases hformed
      | failed event => exact h.stage _ ht event.orderId .freed rfl
    unfold Freed at hfreed ⊢
    rw [hpending]
    change (_ = none ∨ _ = some _ ∨ _)
    rwa [show (((s.without (.saga event (.update .cancelled) rpc)).setStatus event.orderId
      .cancelled).add (goOn event (afterUpdate event .cancelled (.ok ())))).inventory = s.inventory
      from hinv]

/-- A request nobody waits for is handled. -/
theorem served (h : Tidy s) {req : InventoryRpcRequest} {redelivered : Bool} {faults : List Bool}
    (ht : Token.request req ∈ s.flight)
    (hanswers : Answers s (.act (.request req) (.serve redelivered faults)) = true) :
    Tidy (((s.without (.request req)).serve faults (req.toRequest redelivered)).add 0) := by
  have hr := React.serves (s := s.without (.request req)) req redelivered faults
  obtain ⟨reply, hreply, hreplies, hstored⟩ :=
    Inventory.serve_replies faults (req.toRequest redelivered) h.stored
  have haccepts := accepts_iff hreply
  cases req with
  | reserve o items =>
    -- It is declined, so nothing has changed.
    have hno : s.accepts faults ((InventoryRpcRequest.reserve o items).toRequest redelivered) =
        false := by simpa [Answers] using hanswers
    refine h.passNone ht trivial (by simp) hr rfl (hreplies.failure fun reason heq => ?_) (by simp)
    rw [haccepts.mpr ⟨reason, heq⟩] at hno
    cases hno
  | confirm o =>
    refine h.next ht trivial (by simp) hr hstored (fun u hu => by cases hu)
      (fun hnone => by cases hnone) fun o' horder hst => ?_
    obtain rfl : o = o' := Option.some.inj horder
    exact absurd hst (h.stage _ ht o .settled rfl)
  | release o =>
    have hok : s.accepts faults ((InventoryRpcRequest.release o).toRequest redelivered) = true :=
      hanswers
    obtain ⟨reason, rfl⟩ := haccepts.mp hok
    have hsettle : ((s.without (.request (.release o))).serve faults
        ((InventoryRpcRequest.release o).toRequest redelivered)).inventory.statusOf o =
        (Inventory.Request.release o redelivered).settle (s.inventory.statusOf o) :=
      hreplies.success reason rfl
    -- The release was still owed to the order; now it is made good.
    have hfreed : Freed s o → Freed (((s.without (.request (.release o))).serve faults
        ((InventoryRpcRequest.release o).toRequest redelivered)).add 0) o := by
      rintro (hnone | hreleased | ⟨hheld, -⟩)
      · exact .inl (hsettle.trans (congrArg _ hnone))
      · exact .inr (.inl (hsettle.trans (congrArg _ hreleased)))
      · exact .inr (.inl (hsettle.trans (congrArg _ hheld)))
    refine h.next ht trivial (by simp) hr hstored (fun u hu => by cases hu)
      (fun _ o' stage horder hstage => ?_) fun o' horder hst => ?_
    · obtain rfl : o = o' := Option.some.inj horder
      cases stage with
      | freed => exact hfreed hstage
      | settled => exact hstage
      | fresh => exact absurd ht hstage.2.1
      | begun => exact absurd ht hstage.2.1
      | held => exact absurd ht hstage.2.1
    · obtain rfl : o = o' := Option.some.inj horder
      exact hfreed (h.cancelled o hst)

/-- **Every careful act keeps the invariant**, when messages are delivered once. -/
theorem react (h : Tidy s) (ht : t ∈ s.flight) (hformed : t.Formed)
    (honce : (Label.act t c).exactlyOnce = true) (hcareful : Careful s (.act t c))
    (hr : React (s.without t) t c base out) : Tidy (base.add out) := by
  have hr' := hr
  -- Most acts hand the line of the order on at the stage it has reached.
  cases hr with
  | relays event =>
    exact h.passOne ht hformed (by simp) hr' rfl rfl (by simp) (by simp)
      fun o stage hline => ⟨stage, hline, id⟩
  | starts hstart =>
    refine h.passOne ht hformed (by simp) hr' rfl rfl (by simp) (fun o heq => ?_)
      fun o stage hline => line_start hstart hline
    rw [heq] at hstart
    cases starts_of_start hstart
  | expires m hq =>
    refine h.passOne ht hformed (by simp) hr' rfl rfl (by simp) (by simp)
      fun o stage hline => ⟨stage, ?_, id⟩
    obtain ⟨body, xDeath⟩ := m
    cases body <;> exact hline
  | sends event =>
    refine h.passOne ht hformed (by simp) hr' rfl rfl (by simp) (by simp)
      fun o stage hline => ⟨stage, ?_, id⟩
    cases event <;> exact hline
  | handled event redelivered faults => exact h.handled ht hformed hcareful.answers
  | hears event r =>
    exact h.pass ht hformed (by simp) hr' rfl rfl (by simp) (fun o hu => by cases mem_goOn hu)
      fun u hu o stage hline => line_hears hu hline
  | loses event r =>
    exact h.passOne ht hformed (by simp) hr' rfl rfl (by simp) (by simp)
      fun o stage hline => line_loses hline
  | givesUp event rpc message =>
    cases event with
    | created event => exact h.givesUp_created ht hformed (hcareful.leaves _ rfl)
    | succeeded event => exact h.givesUp_succeeded ht hformed
    | failed event =>
      refine h.givesUp_failed ht hformed fun hidle => hcareful.leaves _ ?_
      rw [hidle]
      rfl
  | writes event status rpc => exact h.writes ht hformed
  | writeFails event status rpc message => simp [Label.exactlyOnce] at honce
  | tells event rpc c hpc hpc' =>
    have hc : c ≠ .crash := by
      rintro rfl
      cases honce
    exact h.pass ht hformed hc hr' rfl rfl (by simp) (fun o hu => by cases mem_goOn hu)
      fun u hu o stage hline => absurd hline (line_tells hpc' u hu)
  | requests event request rpc =>
    refine h.passOne ht hformed (by simp) hr' rfl rfl (by simp) (by simp)
      fun o stage hline => ⟨stage, ?_, id⟩
    cases event with
    | created event =>
      obtain rfl : request = paymentOf event := hformed
      exact hline
    | _ event => exact hformed.elim
  | requestFails event request rpc message => simp [Label.exactlyOnce] at honce
  | crashes event pc rpc => simp [Label.exactlyOnce] at honce
  | serves req redelivered faults => exact h.served ht hcareful.answers
  | paid row hrow horder => exact h.passNone ht hformed (by simp) hr' rfl rfl (by simp)
  | unpaid hnone =>
    exact h.passOne ht hformed (by simp) hr' rfl rfl (by simp) (by simp)
      fun o stage hline => ⟨stage, hline, id⟩
  | movesToDlq event xDeath => exact absurd rfl hformed.2.1
  | givenUp event xDeath => exact absurd rfl hformed.2.2
  | charged event xDeath status =>
    exact h.passOne ht hformed (by simp) hr' rfl rfl (by simp) (by simp)
      fun o stage hline => ⟨stage, hline, id⟩
  | chargeFails event xDeath message =>
    exact h.passOne ht hformed (by simp) hr' rfl rfl (by simp) (by simp)
      fun o stage hline => ⟨stage, hline, id⟩
  | retries event xDeath hq =>
    exact h.passOne ht hformed (by simp) hr' rfl rfl (by simp) (by simp)
      fun o stage hline => ⟨stage, hline, id⟩
  | retryDropped event xDeath => exact h.passNone ht hformed (by simp) hr' rfl rfl (by simp)
  | saves event xDeath status =>
    exact h.passOne ht hformed (by simp) hr' rfl rfl (by simp) (by simp)
      fun o stage hline => ⟨stage, hline, id⟩
  | announces event xDeath id status =>
    exact h.passOne ht hformed (by simp) hr' rfl rfl (by simp) (by simp)
      fun o stage hline => ⟨stage, hline, fun hstage => hstage⟩
  | announceFails message hpc => exact h.passNone ht hformed (by simp) hr' rfl rfl (by simp)
  | requeues event xDeath pc hc =>
    rcases hc with rfl | ⟨message, rfl, hpc⟩
    · simp [Label.exactlyOnce] at honce
    · exact absurd (of_decide_eq_true honce) hpc
  | vanishes hgone => cases hgone <;> cases honce

theorem createOrder (h : Tidy s) {order : Orders.Order} {event : OrderCreatedEvent}
    {dto : Orders.CreateOrderDto} {result : Except String (Orders.PricesFor dto.productIds)}
    (hcreate : Orders.createOrder o dto result = .ok (order, event))
    (hfresh : s.orders.lookup o = none) :
    Tidy ({ s with orders := s.orders.insert o order }.add {Token.outbox event}) := by
  obtain ⟨hpending, rfl, -, -⟩ := Orders.createOrder_eq hcreate
  -- Nothing is known of an order before it is created.
  have hnone : s.inventory.statusOf event.orderId = none := by
    by_contra hcon
    exact h.stocked event.orderId hcon hfresh
  have hkeeps : ∀ o, s.orders.lookup o ≠ none →
      (s.orders.insert event.orderId order).lookup o ≠ none := by
    intro o hold
    by_cases heq : o = event.orderId
    · rw [heq, Finmap.lookup_insert]
      simp
    · rwa [Finmap.lookup_insert_of_ne _ heq]
  have hsame : ∀ o, o ≠ event.orderId →
      SameFor s ({ s with orders := s.orders.insert event.orderId order }.add
        {Token.outbox event}) o := by
    refine fun o hne => ⟨?_, rfl, ?_⟩
    · exact congrArg (Option.map Orders.Order.status) (Finmap.lookup_insert_of_ne _ hne)
    · change Token.request (.release o) ∈ _ + s.flight ↔ _
      rw [Multiset.mem_add, Multiset.mem_singleton]
      exact ⟨fun hp => hp.resolve_left (by simp), .inr⟩
  have hnext : OneLine ({ s with orders := s.orders.insert event.orderId order }.add
      {Token.outbox event}) := h.oneLine.createOrder rfl hfresh
  refine ⟨h.stored, fun u hu o stage hline => ?_, hnext.one, fun o ho => ?_, hnext.known,
    fun o ho => hkeeps o (h.stocked o ho)⟩
  · rcases Multiset.mem_add.mp hu with hnew | hold
    · obtain rfl := Multiset.mem_singleton.mp hnew
      obtain ⟨rfl, rfl⟩ := Prod.mk.inj (Option.some.inj hline)
      refine ⟨hnone, fun hp => ?_, fun hst => ?_⟩
      · rcases Multiset.mem_add.mp hp with hp | hp
        · cases Multiset.mem_singleton.mp hp
        · exact h.known _ hp event.orderId rfl hfresh
      · have hst : ((s.orders.insert event.orderId order).lookup event.orderId).map
          Orders.Order.status = some .cancelled := hst
        rw [Finmap.lookup_insert, Option.map_some, hpending] at hst
        cases hst
    · have hne : o ≠ event.orderId := by
        rintro rfl
        exact h.known u hold _ (order_of_lineOf (lineOf_of_line hline)) hfresh
      exact (hsame o hne).holds (h.stage u hold o stage hline)
  · by_cases heq : o = event.orderId
    · exact .inl (heq ▸ hnone)
    · exact (hsame o heq).freed (h.cancelled o ((hsame o heq).order ▸ ho))

theorem step (h : Tidy s) (hformed : ∀ t ∈ s.flight, t.Formed) {l : Label}
    (honce : l.exactlyOnce = true) (hcareful : Careful s l) (hs : s.step l = some s') : Tidy s' := by
  obtain ⟨o, dto, result, order, event, rfl, hcreate, hfresh, rfl⟩ |
    ⟨t, c, base, out, rfl, ht, hr, rfl⟩ | ⟨t, rfl, ht, rfl⟩ := System.step_cases hs
  · exact h.createOrder hcreate hfresh
  · exact h.react ht (hformed t ht) honce hcareful hr
  · cases honce

theorem of_opens (h : Opens s) : Tidy s := by
  have hflight : ∀ t, t ∉ s.flight := fun t ht => by rw [h.flight] at ht; cases ht
  have hstock : ∀ o, s.inventory.statusOf o = none := fun o => by
    rw [Inventory.Tables.statusOf, h.reservations]
    rfl
  refine ⟨.of_unreserved h.reservations, fun t ht => absurd ht (hflight t), fun o => ?_,
    fun o _ => .inl (hstock o), fun t ht => absurd ht (hflight t), fun o ho => absurd (hstock o) ho⟩
  rw [h.flight]
  exact Nat.zero_le 1

end Tidy

/-! ## The claim of a cancelled order -/

/-- **No CANCELLED order holds stock**, once nothing is outstanding. -/
def NoneHeld (s : System) : Prop :=
  s.flight = 0 → ∀ o order, s.orders.lookup o = some order → order.status = .cancelled →
    ∀ row, s.inventory.reservations.lookup o = some row →
      row.status ≠ .reserved ∧ row.status ≠ .confirmed

theorem Tidy.noneHeld (h : Tidy s) : NoneHeld s := by
  intro hquiet o order ho hst row hrow
  have hcancelled : s.statusOf o = some .cancelled := by rw [System.statusOf, ho, Option.map_some, hst]
  have hstock : s.inventory.statusOf o = some row.status := Inventory.statusOf_of_lookup hrow
  rcases h.cancelled o hcancelled with hnone | hreleased | ⟨-, hpending⟩
  · rw [hstock] at hnone
    cases hnone
  · rw [hstock, Option.some.injEq] at hreleased
    rw [hreleased]
    exact ⟨by simp, by simp⟩
  · unfold Pending at hpending
    rw [hquiet] at hpending
    cases hpending

/-- **A cancelled order holds no stock**, in every run of messages delivered once in which
the orchestrator leaves no stock behind. -/
theorem noneHeld_of_reach
    (h : Reach System.step Opens (fun s l => l.exactlyOnce = true ∧ Careful s l) s) :
    NoneHeld s := by
  refine (h.induct (I := Tidy) (fun _ => .of_opens) fun s l s' hreach hinv hg hs => ?_).noneHeld
  exact hinv.step (backed_of_reach hreach).1 hg.1 hg.2 hs

/-! ## Runs -/

instance (s : System) (l : Label) : Decidable (Careful s l) :=
  decidable_of_iff ((∀ o ∈ l.leaves, s.inventory.statusOf o ≠ some .reserved) ∧ Answers s l = true)
    ⟨fun ⟨hleaves, hanswers⟩ => ⟨hleaves, hanswers⟩, fun h => ⟨h.leaves, h.answers⟩⟩

/-- The order is cancelled, and the customer told. -/
def cancelled (event : Event) : List Label :=
  [.act (.saga event (.update .cancelled) .idle) .go, .act (.saga event (.find .cancelled) .idle) .go,
    .act (.saga event (.publishStatus .cancelled "c") .idle) .go]

/-- The payment is declined, and the orchestrator is told. -/
def declined : List Label :=
  [.act (.payment someRequest [] .find) .go, .act (.payment someRequest [] .fire) (.charge .failed),
    .act (.payment someRequest [] (.save .failed)) .go,
    .act (.payment someRequest [] (.publishSaved 0 .failed)) .go,
    .act (.queued .paymentFailed ⟨.paymentResult ⟨"o", some 0, .failed⟩, []⟩) .go]

/-- The payment of an order is declined: its stock is released, and the order cancelled. -/
theorem noneHeld_of_declined :
    ∃ s, Reach System.step Opens (fun s l => l.exactlyOnce = true ∧ Careful s l) s ∧
      s.flight = 0 ∧ s.statusOf "o" = some .cancelled ∧ NoneHeld s := by
  obtain ⟨s, hreach, hs⟩ := Reach.exists_of_follow System.step Opens
    (fun s l => l.exactlyOnce = true ∧ Careful s l) opens_newShop
    ([someOrder] ++ relayed ++ called (.created someCreated) ++ requested ++ declined ++
      called (.failed ⟨"o", some 0, .failed⟩) ++ cancelled (.failed ⟨"o", some 0, .failed⟩))
    (fun s => s.flight = 0 && s.statusOf "o" = some .cancelled) (by decide +kernel)
  rw [Bool.and_eq_true, decide_eq_true_eq, decide_eq_true_eq] at hs
  exact ⟨s, hreach, hs.1, hs.2, noneHeld_of_reach hreach⟩

/-- The reply to a reservation is lost once it is committed: the order is cancelled, and
its stock stays reserved. -/
theorem not_noneHeld_of_lost_reply :
    ¬ ∀ s, Reach System.step Opens (fun _ l => l.exactlyOnce = true) s → NoneHeld s := by
  intro h
  obtain ⟨s, hreach, hs⟩ := Reach.exists_of_follow System.step Opens
    (fun _ l => l.exactlyOnce = true) opens_newShop
    ([someOrder] ++ relayed ++ [.act (.saga (.created someCreated) .call .idle) .go,
      .act (.saga (.created someCreated) .call .requested) (.serve false []),
      .act (.saga (.created someCreated) .call (.replied ⟨true, none⟩)) .lose,
      .act (.saga (.created someCreated) .call .lost) (.reject "timeout")] ++
      cancelled (.created someCreated))
    (fun s => s.flight = 0 && s.statusOf "o" = some .cancelled &&
      s.inventory.statusOf "o" = some .reserved) (by decide +kernel)
  simp only [Bool.and_eq_true, decide_eq_true_eq] at hs
  obtain ⟨⟨hquiet, hst⟩, hstock⟩ := hs
  obtain ⟨order, ho, hcancelled⟩ := Option.map_eq_some_iff.mp hst
  obtain ⟨row, hrow, hreserved⟩ := Option.map_eq_some_iff.mp hstock
  exact (h s hreach hquiet "o" order ho hcancelled row hrow).1 hreserved

end Saga

end Ecommerce
