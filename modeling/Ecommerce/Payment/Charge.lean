import Ecommerce.Common.Machine
import Ecommerce.Payment.Service
/-!
# Charging an order once

The handler reads whether the order has a payment, calls the gateway and
inserts the payment, and nothing ties the insert to the read: the table has
no unique `orderId`, and the breaker gives up on a gateway call that may
still succeed. A delivery that has read "no payment" therefore holds a
right to charge, and so does a gateway call until it has failed. The order
is charged at most once as long as no delivery reads "no payment" while
another one of its order holds that right.
-/

namespace Ecommerce

namespace Payments

/-- Before the gateway call, or before the insert. -/
def Pc.acts : Pc → Bool
  | .fire => true
  | .save _ => true
  | _ => false

/-- A gateway call that has not come back. -/
def GatewayCall.isRunning : GatewayCall → Bool
  | .running => true
  | _ => false

/-- A gateway call that charged the customer. -/
def GatewayCall.charged : GatewayCall → Bool
  | .returned (.ok .success) => true
  | _ => false

namespace Delivery

/-- A delivery that may still charge the customer or insert a payment. -/
def acts (d : Delivery) : Bool := (decide (d.fate = .live) && d.pc.acts) || d.gateway.isRunning

/-- A delivery that acts on the answer that the order has no payment, or has
charged the customer. -/
def holds (d : Delivery) : Bool := d.acts || d.gateway.charged

end Delivery

namespace Service

/-- The gateway calls for an order that returned SUCCESS. -/
def charges (s : Service) (o : OrderId) : ℕ :=
  s.deliveries.countP fun d => d.event.orderId = o ∧ d.gateway.charged

/-- The payments of an order. -/
def rows (s : Service) (o : OrderId) : ℕ :=
  s.store.payments.countP fun row => row.orderId = o

end Service

/-- **No double charge.** -/
def NoDoubleCharge (s : Service) : Prop := ∀ o, s.charges o ≤ 1 ∧ s.rows o ≤ 1

/-- The condition on an idempotency read that finds no payment: no other delivery of
the order acts on an earlier one, and no gateway call for the order is running or
has returned SUCCESS. -/
def ReadsFree (s : Service) : Label → Prop
  | .exec i => ∀ d ∈ s.deliveries[i]?, d.pc = .find →
      (∀ row ∈ s.store.payments, row.orderId ≠ d.event.orderId) →
      ∀ e ∈ s.deliveries.eraseIdx i, e.event.orderId = d.event.orderId → e.holds = false
  | _ => True

/-- **The invariant of the charges.** -/
structure OneCharge (s : Service) : Prop where
  holder : ∀ (i j : ℕ) (d e : Delivery), s.deliveries[i]? = some d → s.deliveries[j]? = some e →
    d.event.orderId = e.event.orderId → d.holds = true → e.holds = true → i = j
  rows : ∀ o, s.rows o ≤ 1
  free : ∀ row ∈ s.store.payments, ∀ d ∈ s.deliveries, d.event.orderId = row.orderId →
    d.acts = false
  answered : ∀ d ∈ s.deliveries, ∀ status, d.pc = .save status →
    d.gateway = .returned (.ok status)

/-! ## What a step does to the right to charge -/

theorem holds_of_acts {d : Delivery} (h : d.acts = true) : d.holds = true := by
  rw [Delivery.holds, h, Bool.true_or]

theorem acts_of_live {d : Delivery} (hlive : d.fate = .live) (hpc : d.pc.acts = true) :
    d.acts = true := by
  rw [Delivery.acts, hlive, hpc]
  rfl

/-- A delivery that moves on and neither starts to act nor comes to hold anything. -/
structure Quiet (d d' : Delivery) : Prop where
  event : d'.event = d.event
  acts : d'.acts = true → d.acts = true
  holds : d'.holds = true → d.holds = true
  answered : (∀ status, d.pc = .save status → d.gateway = .returned (.ok status)) →
    ∀ status, d'.pc = .save status → d'.gateway = .returned (.ok status)

/-- Only the program point has changed, to one that does not act. -/
theorem Quiet.of_pc {d : Delivery} {pc : Pc} (h : pc.acts = false) :
    Quiet d { d with pc := pc } := by
  have hacts : Delivery.acts { d with pc := pc } = true → d.acts = true := by
    intro hact
    rw [Delivery.acts, h, Bool.and_false, Bool.false_or] at hact
    rw [Delivery.acts, hact, Bool.or_true]
  refine ⟨rfl, hacts, fun hhold => ?_, fun _ status hpc => ?_⟩
  · rw [Delivery.holds, Bool.or_eq_true] at hhold ⊢
    exact hhold.imp hacts id
  · obtain rfl : pc = .save status := hpc
    cases h

/-- The delivery is over; a call to the gateway may still be under way. -/
theorem Quiet.of_fate {d : Delivery} {fate : Fate} (h : fate ≠ .live) :
    Quiet d { d with fate := fate } := by
  have hacts : Delivery.acts { d with fate := fate } = true → d.acts = true := by
    intro hact
    have hrun : d.gateway.isRunning = true := by simpa [Delivery.acts, h] using hact
    rw [Delivery.acts, hrun, Bool.or_true]
  refine ⟨rfl, hacts, fun hhold => ?_, fun hsaved => hsaved⟩
  rw [Delivery.holds, Bool.or_eq_true] at hhold ⊢
  exact hhold.imp hacts id

/-- **A step of one delivery**: quiet, or the read that finds no payment, or the
insert. -/
inductive Charging (s : Store) (i : ℕ) (d : Delivery) : Label → Store → Delivery → Prop
  | quiet {l : Label} {s' : Store} {d' : Delivery} (hrows : s'.payments = s.payments)
      (h : Quiet d d') : Charging s i d l s' d'
  | reads (hpc : d.pc = .find)
      (hnone : s.payments.find? (fun row => row.orderId = d.event.orderId) = none) :
      Charging s i d (.exec i) s { d with pc := afterFind d.xDeath none }
  | inserts {l : Label} {pc : Pc} {s' : Store} (hlive : d.fate = .live)
      (status : PaymentStatus) (hpc : d.pc = .save status) (row : Payment)
      (hrow : row.orderId = d.event.orderId) (hrows : s'.payments = s.payments ++ [row])
      (hpc' : pc.acts = false) : Charging s i d l s' { d with pc := pc }

theorem Moves.charging {s s' : Store} {i : ℕ} {d d' : Delivery} {l : Label}
    (h : Moves s i d l s' d') : Charging s i d l s' d' := by
  cases h with
  | starts hlive hpc hidle =>
    have hact : d.acts = true := acts_of_live hlive (by rw [hpc]; rfl)
    refine .quiet rfl ⟨rfl, fun _ => hact, fun _ => holds_of_acts hact, fun _ status hsave => ?_⟩
    rw [show d.pc = .save status from hsave] at hpc
    cases hpc
  | resolves hlive h =>
    cases h with
    | found row hpc hrow => exact .quiet rfl (.of_pc rfl)
    | notFound hpc hnone => exact .reads hpc hnone
    | toDlq hpc => exact .quiet rfl (.of_pc rfl)
    | gaveUp hpc => exact .quiet rfl (.of_pc rfl)
    | fired outcome hpc hout =>
      have hact : d.acts = true := acts_of_live hlive (by rw [hpc]; rfl)
      refine .quiet rfl ⟨rfl, fun _ => hact, fun _ => holds_of_acts hact, fun _ status hsave => ?_⟩
      cases outcome with
      | error message => cases hsave
      | ok answer =>
        obtain rfl : answer = status := Pc.save.inj hsave
        exact hout
    | toRetry hpc => exact .quiet rfl (.of_pc rfl)
    | saved status hpc => exact .inserts hlive status hpc _ rfl rfl rfl
    | announced id status hpc => exact .quiet rfl (.of_pc rfl)
  | refused message hlive h => cases h <;> exact .quiet rfl (.of_pc rfl)
  | returns outcome hrun =>
    have hact : d.acts = true := by rw [Delivery.acts, hrun]; exact Bool.or_true _
    refine .quiet rfl ⟨rfl, fun _ => hact, fun _ => holds_of_acts hact, fun hsaved status hsave => ?_⟩
    rw [hsaved status hsave] at hrun
    cases hrun
  | crashes hlive => exact .quiet rfl (.of_fate (by decide))
  | acks hlive hpc => exact .quiet rfl (.of_fate (by decide))

/-! ## The invariant -/

variable {s s' : Service}

namespace OneCharge

/-- What is known of the other deliveries carries over, once the one that moves has
been looked at. -/
theorem put (h : OneCharge s) {i : ℕ} {d d' : Delivery} {store : Store}
    (hi : s.deliveries[i]? = some d) (hevent : d'.event = d.event)
    (hholder : d'.holds = true → ∀ j e, j ≠ i → s.deliveries[j]? = some e →
      e.event.orderId = d.event.orderId → e.holds = false)
    (hrows : ∀ o, (s.put i store d').rows o ≤ 1)
    (hfree : ∀ row ∈ store.payments, row ∉ s.store.payments → ∀ j e, j ≠ i →
      s.deliveries[j]? = some e → e.event.orderId = row.orderId → e.acts = false)
    (hown : ∀ row ∈ store.payments, d.event.orderId = row.orderId → d'.acts = false)
    (hanswered : ∀ status, d'.pc = .save status → d'.gateway = .returned (.ok status)) :
    OneCharge (s.put i store d') := by
  have hmem : ∀ e ∈ (s.put i store d').deliveries, e = d' ∨
      ∃ j, j ≠ i ∧ s.deliveries[j]? = some e := by
    intro e he
    obtain ⟨j, hj⟩ := List.mem_iff_getElem?.mp he
    exact (getElem?_set_cases hj).imp (fun hc => hc.2) fun hc => ⟨j, hc⟩
  refine ⟨fun j k e f hj hk horder he hf => ?_, hrows, fun row hrow e he horder => ?_,
    fun e he status hpc => ?_⟩
  · obtain ⟨rfl, rfl⟩ | ⟨hji, hj'⟩ := getElem?_set_cases hj
    · obtain ⟨rfl, -⟩ | ⟨hki, hk'⟩ := getElem?_set_cases hk
      · rfl
      · rw [hholder he k f hki hk' (by rw [← horder, hevent])] at hf
        cases hf
    · obtain ⟨rfl, rfl⟩ | ⟨hki, hk'⟩ := getElem?_set_cases hk
      · rw [hholder hf j e hji hj' (by rw [horder, hevent])] at he
        cases he
      · exact h.holder j k e f hj' hk' horder he hf
  · obtain rfl | ⟨j, hji, hj⟩ := hmem e he
    · exact hown row hrow (by rw [← hevent, horder])
    · by_cases hold : row ∈ s.store.payments
      · exact h.free row hold e (List.mem_of_getElem? hj) horder
      · exact hfree row hrow hold j e hji hj horder
  · obtain rfl | ⟨j, hji, hj⟩ := hmem e he
    · exact hanswered status hpc
    · exact h.answered e (List.mem_of_getElem? hj) status hpc

/-- The other deliveries of a holder's order hold nothing. -/
theorem others (h : OneCharge s) {i j : ℕ} {d e : Delivery} (hi : s.deliveries[i]? = some d)
    (hd : d.holds = true) (hne : j ≠ i) (hj : s.deliveries[j]? = some e)
    (horder : e.event.orderId = d.event.orderId) : e.holds = false := by
  by_contra hcon
  exact hne (h.holder j i e d hj hi horder (by simpa using hcon) hd)

/-- **Every step of a delivery keeps the invariant.** -/
theorem moves (h : OneCharge s) {i : ℕ} {d d' : Delivery} {l : Label} {store : Store}
    (hi : s.deliveries[i]? = some d) (hg : ReadsFree s l) (hm : Charging s.store i d l store d') :
    OneCharge (s.put i store d') := by
  have hmem : d ∈ s.deliveries := List.mem_of_getElem? hi
  cases hm with
  | quiet hrows hq =>
    refine h.put hi hq.event (fun hhold j e hne hj horder =>
      h.others hi (hq.holds hhold) hne hj horder) (fun o => ?_) (fun row hrow hnot => ?_)
      (fun row hrow horder => ?_) (hq.answered (h.answered d hmem))
    · have := h.rows o
      unfold Service.rows at this ⊢
      rwa [Service.put, hrows]
    · rw [hrows] at hrow
      exact absurd hrow hnot
    · rw [hrows] at hrow
      by_contra hcon
      have := h.free row hrow d hmem horder
      rw [hq.acts (by simpa using hcon)] at this
      cases this
  | reads hpc hnone =>
    have hnone : ∀ row ∈ s.store.payments, row.orderId ≠ d.event.orderId := by
      simpa using List.find?_eq_none.mp hnone
    refine h.put hi rfl (fun _ j e hne hj horder =>
      hg d hi hpc hnone e (mem_eraseIdx_of_ne hne hj) horder) h.rows
      (fun row hrow hnot => absurd hrow hnot)
      (fun row hrow horder => absurd horder.symm (hnone row hrow)) fun status hsave => ?_
    -- The read leads to the gateway or to the DLQ.
    have hsave : afterFind d.xDeath none = .save status := hsave
    rcases afterFind_none d.xDeath with hpc' | hpc' <;> rw [hpc'] at hsave <;> cases hsave
  | inserts hlive status hpc row hrow hrows hpc' =>
    have hact : d.acts = true := acts_of_live hlive (by rw [hpc]; rfl)
    have hquiet := Quiet.of_pc (d := d) hpc'
    have hgateway := h.answered d hmem status hpc
    -- A delivery that acts is one whose order has no payment yet.
    have hnone : ∀ r ∈ s.store.payments, r.orderId ≠ d.event.orderId := by
      intro r hr horder
      rw [h.free r hr d hmem horder.symm] at hact
      cases hact
    refine h.put hi rfl (fun hhold j e hne hj horder =>
      h.others hi (hquiet.holds hhold) hne hj horder) (fun o => ?_)
      (fun r hr hnot j e hne hj horder => ?_) (fun r _ _ => ?_)
      (hquiet.answered (h.answered d hmem))
    · have hold := h.rows o
      unfold Service.rows at hold ⊢
      rw [Service.put, hrows, List.countP_append, List.countP_singleton]
      split
      · have hzero : s.store.payments.countP (fun r => r.orderId = o) = 0 :=
          List.countP_eq_zero.mpr fun r hr hro => by
            have hro : r.orderId = o := by simpa using hro
            have hrow' : row.orderId = o := by simpa using ‹decide _ = true›
            exact hnone r hr (hro.trans (hrow'.symm.trans hrow))
        omega
      · omega
    · rw [hrows, List.mem_append, List.mem_singleton] at hr
      obtain rfl := hr.resolve_left hnot
      have := h.others hi (holds_of_acts hact) hne hj (horder.trans hrow)
      rw [Delivery.holds, Bool.or_eq_false_iff] at this
      exact this.1
    · rw [Delivery.acts, hpc', hgateway, Bool.and_false]
      rfl

/-- A new delivery has read nothing. -/
theorem deliver (h : OneCharge s) (event : PaymentRequestedEvent) (xDeath : List Death) :
    OneCharge ⟨s.store, s.deliveries ++ [⟨event, xDeath, .find, .idle, .live⟩]⟩ := by
  refine ⟨fun j k e f hj hk horder he hf => ?_, h.rows, fun row hrow e he horder => ?_,
    fun e he status hpc => ?_⟩
  · rcases getElem?_append_singleton hj with hj | ⟨-, rfl⟩
    · rcases getElem?_append_singleton hk with hk | ⟨-, rfl⟩
      · exact h.holder j k e f hj hk horder he hf
      · cases hf
    · cases he
  · rcases List.mem_append.mp he with he | he
    · exact h.free row hrow e he horder
    · obtain rfl := List.mem_singleton.mp he
      rfl
  · rcases List.mem_append.mp he with he | he
    · exact h.answered e he status hpc
    · obtain rfl := List.mem_singleton.mp he
      cases hpc

theorem step (h : OneCharge s) {l : Label} (hg : ReadsFree s l) (hs : s.step l = some s') :
    OneCharge s' := by
  obtain ⟨event, xDeath, rfl, rfl⟩ | ⟨i, d, store, d', hi, hm, rfl⟩ := Service.step_cases hs
  · exact h.deliver event xDeath
  · exact h.moves hi hg hm.charging

theorem noDoubleCharge (h : OneCharge s) : NoDoubleCharge s := by
  intro o
  refine ⟨countP_le_one fun i j d e hi hj hd he => ?_, h.rows o⟩
  obtain ⟨hdo, hdc⟩ : d.event.orderId = o ∧ d.gateway.charged = true := by simpa using hd
  obtain ⟨heo, hec⟩ : e.event.orderId = o ∧ e.gateway.charged = true := by simpa using he
  exact h.holder i j d e hi hj (hdo.trans heo.symm) (by rw [Delivery.holds, hdc, Bool.or_true])
    (by rw [Delivery.holds, hec, Bool.or_true])

end OneCharge

/-- A payments table that is empty, and no delivery yet. -/
def Service.fresh : Service := ⟨⟨[], []⟩, []⟩

/-- **No double charge**, in every run in which no delivery reads "no payment" while
another one of its order holds the right to charge. -/
theorem noDoubleCharge_of_reach (h : Reach Service.step (· = Service.fresh) ReadsFree s) :
    NoDoubleCharge s := by
  refine (h.invariant_from (I := OneCharge) ?_
    fun _ _ _ hinv hg hs => hinv.step hg hs).noDoubleCharge
  exact ⟨fun i j d e hi => (by cases hi), fun o => Nat.zero_le 1, fun row hrow => (by cases hrow),
    fun d hd => (by cases hd)⟩

/-! ## Runs -/

instance (s : Service) : (l : Label) → Decidable (ReadsFree s l)
  | .exec i => inferInstanceAs (Decidable (∀ d ∈ s.deliveries[i]?, d.pc = .find →
      (∀ row ∈ s.store.payments, row.orderId ≠ d.event.orderId) →
      ∀ e ∈ s.deliveries.eraseIdx i, e.event.orderId = d.event.orderId → e.holds = false))
  | .deliver _ _ => inferInstanceAs (Decidable True)
  | .reject _ _ => inferInstanceAs (Decidable True)
  | .gateway _ _ => inferInstanceAs (Decidable True)
  | .crash _ => inferInstanceAs (Decidable True)
  | .ack _ => inferInstanceAs (Decidable True)

/-- A delivery is charged, saved and crashes; the redelivered message finds the
payment. -/
theorem noDoubleCharge_of_redelivery :
    ∃ s, Reach Service.step (· = Service.fresh) ReadsFree s ∧ s.deliveries.length = 2 ∧
      s.charges "o" = 1 ∧ NoDoubleCharge s := by
  obtain ⟨s, hreach, hs⟩ := Reach.exists_of_follow Service.step (· = Service.fresh) ReadsFree rfl
    [.deliver someRequest [], .exec 0, .exec 0, .gateway 0 (.ok .success), .exec 0, .exec 0,
      .crash 0, .deliver someRequest [], .exec 1, .ack 1]
    (fun s => s.deliveries.length = 2 && s.charges "o" = 1) (by decide +kernel)
  rw [Bool.and_eq_true, decide_eq_true_eq, decide_eq_true_eq] at hs
  exact ⟨s, hreach, hs.1, hs.2, noDoubleCharge_of_reach hreach⟩

/-- Two deliveries of one message read before either saves: the customer is charged
twice, and both payments are stored. -/
theorem not_noDoubleCharge_of_overlap :
    ¬ ∀ s, Reach Service.step (· = Service.fresh) (fun _ _ => True) s → NoDoubleCharge s := by
  intro h
  obtain ⟨s, hreach, hs⟩ := Reach.exists_of_follow Service.step (· = Service.fresh)
    (fun _ _ => True) rfl
    [.deliver someRequest [], .deliver someRequest [], .exec 0, .exec 1, .exec 0, .exec 1,
      .gateway 0 (.ok .success), .gateway 1 (.ok .success), .exec 0, .exec 1, .exec 0, .exec 1]
    (fun s => s.charges "o" = 2 && s.rows "o" = 2) (by decide +kernel)
  rw [Bool.and_eq_true, decide_eq_true_eq, decide_eq_true_eq] at hs
  have := (h s hreach "o").1
  omega

end Payments

end Ecommerce
