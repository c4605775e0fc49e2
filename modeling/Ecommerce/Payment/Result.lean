import Ecommerce.Payment.Charge
/-!
# The result of a payment

One message is redelivered until a delivery is acked. The payment is saved
first and its result published after, and a redelivered message whose
payment is found is acked without publishing anything: what happens between
the save and the publish decides whether the saga ever hears of the
payment. Nothing is lost as long as the publish after a save neither fails
nor is cut short by a crash, unless the message was handed on before.
-/

namespace Ecommerce

namespace Payments

/-- One message, delivered again only once every earlier delivery has ended without
an ack. -/
def Redelivery (event : PaymentRequestedEvent) (xDeath : List Death) (s : Service) : Label → Prop
  | .deliver event' xDeath' =>
    event' = event ∧ xDeath' = xDeath ∧ ∀ d ∈ s.deliveries, d.fate = .dead
  | _ => True

/-- The message was handed to a retry or DLQ routing key. -/
def Handed (event : PaymentRequestedEvent) (xDeath : List Death) (s : Store) : Prop :=
  toRetry event xDeath ∈ s.published ∨ toDlq event ∈ s.published

/-- The order has a payment whose status was published. -/
def Announced (event : PaymentRequestedEvent) (s : Store) : Prop :=
  ∃ row ∈ s.payments, row.orderId = event.orderId ∧
    ∃ id, result event.orderId row.status id ∈ s.published

/-- **No lost payment result**: an acked message was handed on, or its payment was
announced. -/
def NoLostResult (event : PaymentRequestedEvent) (xDeath : List Death) (s : Service) : Prop :=
  ∀ d ∈ s.deliveries, d.fate = .acked → Handed event xDeath s.store ∨ Announced event s.store

/-- After the insert, before the publish of the result. -/
def Pc.announces : Pc → Bool
  | .publishSaved _ _ => true
  | _ => false

/-- The condition on a crash and on a rejection: it does not hit the publish after a
save, unless the message was handed on before. -/
def KeepsResult (event : PaymentRequestedEvent) (xDeath : List Death) (s : Service) : Label → Prop
  | .crash i => ∀ d ∈ s.deliveries[i]?, d.pc.announces = true → Handed event xDeath s.store
  | .reject i _ => ∀ d ∈ s.deliveries[i]?, d.pc.announces = true → Handed event xDeath s.store
  | _ => True

variable {event : PaymentRequestedEvent} {xDeath : List Death} {s s' : Service}

/-- Nothing is deleted and nothing is unpublished. -/
structure Store.Grows (s s' : Store) : Prop where
  payments : ∀ row ∈ s.payments, row ∈ s'.payments
  published : ∀ p ∈ s.published, p ∈ s'.published

theorem Store.Grows.refl (s : Store) : s.Grows s := ⟨fun _ h => h, fun _ h => h⟩

theorem Store.Grows.publish (s : Store) (p : Publication) :
    s.Grows ⟨s.payments, s.published ++ [p]⟩ :=
  ⟨fun _ h => h, fun _ h => List.mem_append_left _ h⟩

theorem Store.Grows.save (s : Store) (row : Payment) :
    s.Grows ⟨s.payments ++ [row], s.published⟩ :=
  ⟨fun _ h => List.mem_append_left _ h, fun _ h => h⟩

/-- What an ack requires. -/
def Settled (event : PaymentRequestedEvent) (xDeath : List Death) (s : Store) : Prop :=
  Handed event xDeath s ∨ Announced event s

theorem Settled.mono {s s' : Store} (h : Settled event xDeath s) (hg : s.Grows s') :
    Settled event xDeath s' := by
  rcases h with (h | h) | ⟨row, hrow, horder, id, hid⟩
  · exact .inl (.inl (hg.published _ h))
  · exact .inl (.inr (hg.published _ h))
  · exact .inr ⟨row, hg.payments _ hrow, horder, id, hg.published _ hid⟩

/-- **The invariant of the message.** One delivery at most is not dead; once the
order has a payment the result is out, or that delivery is about to publish it. -/
structure Kept (event : PaymentRequestedEvent) (xDeath : List Death) (s : Service) : Prop where
  same : ∀ d ∈ s.deliveries, d.event = event ∧ d.xDeath = xDeath
  alone : ∀ (i j : ℕ) (d e : Delivery), s.deliveries[i]? = some d → s.deliveries[j]? = some e →
    d.fate ≠ .dead → e.fate ≠ .dead → i = j
  acked : ∀ d ∈ s.deliveries, d.fate = .acked → d.pc = .returned
  settled : ∀ d ∈ s.deliveries, d.fate ≠ .dead → d.pc = .returned ∨ d.pc = .publishGivenUp →
    Settled event xDeath s.store
  pending : ∀ d ∈ s.deliveries, ∀ id status, d.pc = .publishSaved id status →
    ∃ row ∈ s.store.payments, row.orderId = event.orderId ∧ row.status = status
  saved : ∀ row ∈ s.store.payments, row.orderId = event.orderId →
    Settled event xDeath s.store ∨
      ∃ (i : ℕ) (d : Delivery), s.deliveries[i]? = some d ∧ d.fate = .live ∧ d.pc.announces = true

namespace Kept

/-- One delivery has moved on. -/
theorem put (h : Kept event xDeath s) {i : ℕ} {d d' : Delivery} {store : Store}
    (hi : s.deliveries[i]? = some d) (hsame : d'.event = d.event ∧ d'.xDeath = d.xDeath)
    (hfate : d'.fate ≠ .dead → d.fate ≠ .dead) (hg : s.store.Grows store)
    (hacked : d'.fate = .acked → d'.pc = .returned)
    (hover : d'.fate ≠ .dead → d'.pc = .returned ∨ d'.pc = .publishGivenUp →
      Settled event xDeath store)
    (hpending : ∀ id status, d'.pc = .publishSaved id status →
      ∃ row ∈ store.payments, row.orderId = event.orderId ∧ row.status = status)
    (hsaved : Settled event xDeath store ∨ (d'.fate = .live ∧ d'.pc.announces = true) ∨
      (store.payments = s.store.payments ∧ (d.fate = .live → d.pc.announces = true →
        d'.fate = .live ∧ d'.pc.announces = true))) :
    Kept event xDeath (s.put i store d') := by
  have hmem : ∀ e ∈ (s.put i store d').deliveries, e = d' ∨ e ∈ s.deliveries := by
    intro e he
    obtain ⟨j, hj⟩ := List.mem_iff_getElem?.mp he
    exact (getElem?_set_cases hj).imp (fun hc => hc.2) fun hc => List.mem_of_getElem? hc.2
  refine ⟨fun e he => ?_, fun j k e f hj hk he hf => ?_, fun e he hack => ?_,
    fun e he hlive hpc => ?_, fun e he id status hpc => ?_, fun row hrow horder => ?_⟩
  · obtain rfl | hold := hmem e he
    · obtain ⟨hevent, hxDeath⟩ := h.same d (List.mem_of_getElem? hi)
      exact ⟨hsame.1.trans hevent, hsame.2.trans hxDeath⟩
    · exact h.same e hold
  · obtain ⟨rfl, rfl⟩ | ⟨hji, hj'⟩ := getElem?_set_cases hj
    · obtain ⟨rfl, -⟩ | ⟨-, hk'⟩ := getElem?_set_cases hk
      · rfl
      · exact h.alone j k d f hi hk' (hfate he) hf
    · obtain ⟨rfl, rfl⟩ | ⟨-, hk'⟩ := getElem?_set_cases hk
      · exact h.alone j k e d hj' hi he (hfate hf)
      · exact h.alone j k e f hj' hk' he hf
  · obtain rfl | hold := hmem e he
    · exact hacked hack
    · exact h.acked e hold hack
  · obtain rfl | hold := hmem e he
    · exact hover hlive hpc
    · exact (h.settled e hold hlive hpc).mono hg
  · obtain rfl | hold := hmem e he
    · exact hpending id status hpc
    · obtain ⟨row, hrow, hr⟩ := h.pending e hold id status hpc
      exact ⟨row, hg.payments row hrow, hr⟩
  · rcases hsaved with hset | ⟨hlive, hpc⟩ | ⟨hrows, hstays⟩
    · exact .inl hset
    · exact .inr ⟨i, d', getElem?_set_own hi, hlive, hpc⟩
    · have hrow : row ∈ s.store.payments := hrows ▸ hrow
      refine (h.saved row hrow horder).imp (fun hset => hset.mono hg) ?_
      rintro ⟨j, e, hj, hlive, hpc⟩
      by_cases hji : j = i
      · subst hji
        obtain rfl : d = e := Option.some.inj (hi.symm.trans hj)
        exact ⟨j, d', getElem?_set_own hi, hstays hlive hpc⟩
      · exact ⟨j, e, getElem?_set_other hji hj, hlive, hpc⟩

theorem stays_of_quiet {d d' : Delivery} (h : d.pc.announces = false) :
    d.fate = .live → d.pc.announces = true → d'.fate = .live ∧ d'.pc.announces = true := by
  intro _ hann
  rw [h] at hann
  cases hann

/-- A delivery that finds a payment finds an announced one. -/
theorem settled_of_row (h : Kept event xDeath s) {i : ℕ} {d : Delivery}
    (hi : s.deliveries[i]? = some d) (hlive : d.fate = .live) (hpc : d.pc.announces = false)
    {row : Payment} (hrow : row ∈ s.store.payments) (horder : row.orderId = event.orderId) :
    Settled event xDeath s.store := by
  refine (h.saved row hrow horder).resolve_right ?_
  rintro ⟨j, e, hj, he, hpc'⟩
  obtain rfl := h.alone j i e d hj hi (by rw [he]; decide) (by rw [hlive]; decide)
  rw [hi, Option.some.injEq] at hj
  rw [← hj, hpc] at hpc'
  cases hpc'

/-- **What a delivery awaits resolves.** -/
theorem resolves (h : Kept event xDeath s) {i : ℕ} {d : Delivery} {store : Store} {pc : Pc}
    (hi : s.deliveries[i]? = some d) (hlive : d.fate = .live) (hr : Resolves s.store d store pc) :
    Kept event xDeath (s.put i store { d with pc := pc }) := by
  have hmem : d ∈ s.deliveries := List.mem_of_getElem? hi
  have hnotAcked : ∀ pc', d.fate = .acked → pc' = Pc.returned := by
    intro pc' hack
    rw [hlive] at hack
    cases hack
  obtain ⟨hevent, hxDeath⟩ := h.same d hmem
  cases hr with
  | found row hpc hrow =>
    -- No other delivery is left that is about to publish the result of the row, so it is out.
    have hquiet : d.pc.announces = false := by rw [hpc]; rfl
    have hset := h.settled_of_row hi hlive hquiet (List.mem_of_find?_eq_some hrow)
      (by rw [← hevent]; simpa using List.find?_some hrow)
    exact h.put hi ⟨rfl, rfl⟩ id (.refl _) (fun _ => rfl) (fun _ _ => hset) (by simp) (.inl hset)
  | notFound hpc hnone =>
    have hquiet : d.pc.announces = false := by rw [hpc]; rfl
    rcases afterFind_none d.xDeath with hnext | hnext <;> rw [hnext] <;>
      exact h.put hi ⟨rfl, rfl⟩ id (.refl _) (hnotAcked _) (by simp) (by simp)
        (.inr (.inr ⟨rfl, stays_of_quiet hquiet⟩))
  | toDlq hpc =>
    have hset : Settled event xDeath ⟨s.store.payments, s.store.published ++ [toDlq d.event]⟩ :=
      .inl (.inr (by rw [hevent]; exact List.mem_append_right _ List.mem_cons_self))
    exact h.put hi ⟨rfl, rfl⟩ id (.publish _ _) (hnotAcked _) (fun _ _ => hset) (by simp)
      (.inl hset)
  | gaveUp hpc =>
    have hset := (h.settled d hmem (by rw [hlive]; decide) (.inr hpc)).mono
      (.publish s.store (result d.event.orderId .failed none))
    exact h.put hi ⟨rfl, rfl⟩ id (.publish _ _) (fun _ => rfl) (fun _ _ => hset) (by simp)
      (.inl hset)
  | fired outcome hpc hout =>
    have hquiet : d.pc.announces = false := by rw [hpc]; rfl
    cases outcome <;>
      exact h.put hi ⟨rfl, rfl⟩ id (.refl _) (hnotAcked _) (by simp [afterFire])
        (by simp [afterFire]) (.inr (.inr ⟨rfl, stays_of_quiet hquiet⟩))
  | toRetry hpc =>
    have hset : Settled event xDeath
        ⟨s.store.payments, s.store.published ++ [toRetry d.event d.xDeath]⟩ :=
      .inl (.inl (by rw [hevent, hxDeath]; exact List.mem_append_right _ List.mem_cons_self))
    exact h.put hi ⟨rfl, rfl⟩ id (.publish _ _) (fun _ => rfl) (fun _ _ => hset) (by simp)
      (.inl hset)
  | saved status hpc =>
    -- The result is not out yet; this delivery is about to publish it.
    refine h.put hi ⟨rfl, rfl⟩ id (.save _ _) (hnotAcked _) (by simp) (fun id st hst => ?_)
      (.inr (.inl ⟨hlive, rfl⟩))
    obtain ⟨-, rfl⟩ := Pc.publishSaved.inj hst
    exact ⟨_, List.mem_append_right _ List.mem_cons_self, by rw [hevent], rfl⟩
  | announced id status hpc =>
    obtain ⟨row, hrow, horder, hstatus⟩ := h.pending d hmem id status hpc
    have hset : Settled event xDeath
        ⟨s.store.payments, s.store.published ++ [result d.event.orderId status (some id)]⟩ :=
      .inr ⟨row, hrow, horder, some id, by
        rw [hevent, hstatus]; exact List.mem_append_right _ List.mem_cons_self⟩
    exact h.put hi ⟨rfl, rfl⟩ (fun hf => hf) (.publish _ _) (fun _ => rfl) (fun _ _ => hset)
      (by simp) (.inl hset)

/-- **Every step of a delivery keeps the invariant**, when the condition holds. -/
theorem moves (h : Kept event xDeath s) {i : ℕ} {d d' : Delivery} {l : Label} {store : Store}
    (hi : s.deliveries[i]? = some d) (hg : KeepsResult event xDeath s l)
    (hm : Moves s.store i d l store d') : Kept event xDeath (s.put i store d') := by
  have hmem : d ∈ s.deliveries := List.mem_of_getElem? hi
  -- a step that only leaves a program point without publishing
  have hleave : ∀ e : Delivery, (d.pc.announces = true → Handed event xDeath s.store) →
      Settled event xDeath s.store ∨ (e.fate = .live ∧ e.pc.announces = true) ∨
        (s.store.payments = s.store.payments ∧
          (d.fate = .live → d.pc.announces = true → e.fate = .live ∧ e.pc.announces = true)) := by
    intro e hkeeps
    cases hann : d.pc.announces with
    | false => exact .inr (.inr ⟨rfl, fun _ h => by cases h⟩)
    | true => exact .inl (.inl (hkeeps hann))
  cases hm with
  | starts hlive hpc hidle =>
    have hquiet : d.pc.announces = false := by rw [hpc]; rfl
    exact h.put hi ⟨rfl, rfl⟩ id (.refl _) (h.acked d hmem) (h.settled d hmem) (h.pending d hmem)
      (.inr (.inr ⟨rfl, stays_of_quiet hquiet⟩))
  | resolves hlive hr => exact h.resolves hi hlive hr
  | refused message hlive hr =>
    have hkeeps := fun e => hleave e (hg d hi)
    have hnotAcked : ∀ pc', d.fate = .acked → pc' = Pc.returned := by
      intro pc' hack
      rw [hlive] at hack
      cases hack
    cases hr with
    | throws message =>
      exact h.put hi ⟨rfl, rfl⟩ id (.refl _) (hnotAcked _) (by simp) (by simp)
        (hkeeps _)
    | gatewayFails hpc =>
      exact h.put hi ⟨rfl, rfl⟩ id (.refl _) (hnotAcked _) (by simp) (by simp)
        (hkeeps _)
    | givenUpLost hpc =>
      have hset := h.settled d hmem (by rw [hlive]; decide) (.inr hpc)
      exact h.put hi ⟨rfl, rfl⟩ id (.refl _) (fun _ => rfl) (fun _ _ => hset) (by simp) (.inl hset)
    | savedLost id status hpc =>
      have hset : Settled event xDeath s.store := .inl (hg d hi (by rw [hpc]; rfl))
      exact h.put hi ⟨rfl, rfl⟩ (fun hf => hf) (.refl _) (fun _ => rfl) (fun _ _ => hset) (by simp)
        (.inl hset)
  | returns outcome hrun =>
    exact h.put hi ⟨rfl, rfl⟩ id (.refl _) (h.acked d hmem) (h.settled d hmem) (h.pending d hmem)
      (.inr (.inr ⟨rfl, fun hlive hann => ⟨hlive, hann⟩⟩))
  | crashes hlive =>
    exact h.put hi ⟨rfl, rfl⟩ (fun hf => absurd rfl hf) (.refl _) (by simp) (by simp)
      (h.pending d hmem) (hleave _ (hg d hi))
  | acks hlive hpc =>
    have hset := h.settled d hmem (by rw [hlive]; decide) (.inl hpc)
    exact h.put hi ⟨rfl, rfl⟩ (fun _ => by rw [hlive]; decide) (.refl _) (fun _ => hpc)
      (fun _ _ => hset) (h.pending d hmem) (.inl hset)

/-- The message is delivered again. -/
theorem deliver (h : Kept event xDeath s) (hdead : ∀ d ∈ s.deliveries, d.fate = .dead) :
    Kept event xDeath ⟨s.store, s.deliveries ++ [⟨event, xDeath, .find, .idle, .live⟩]⟩ := by
  have hold : ∀ (i : ℕ) (d : Delivery), s.deliveries[i]? = some d → d.fate = .dead :=
    fun i d hi => hdead d (List.mem_of_getElem? hi)
  refine ⟨fun e he => ?_, fun j k e f hj hk he hf => ?_, fun e he hack => ?_,
    fun e he hlive hpc => ?_, fun e he id status hpc => ?_, fun row hrow horder => ?_⟩
  · rcases List.mem_append.mp he with he | he
    · exact h.same e he
    · obtain rfl := List.mem_singleton.mp he
      exact ⟨rfl, rfl⟩
  · rcases getElem?_append_singleton hj with hj | ⟨rfl, -⟩
    · exact absurd (hold j e hj) he
    · rcases getElem?_append_singleton hk with hk | ⟨rfl, -⟩
      · exact absurd (hold k f hk) hf
      · rfl
  · rcases List.mem_append.mp he with he | he
    · exact h.acked e he hack
    · obtain rfl := List.mem_singleton.mp he
      cases hack
  · rcases List.mem_append.mp he with he | he
    · exact absurd (hdead e he) hlive
    · obtain rfl := List.mem_singleton.mp he
      rcases hpc with hpc | hpc <;> cases hpc
  · rcases List.mem_append.mp he with he | he
    · exact h.pending e he id status hpc
    · obtain rfl := List.mem_singleton.mp he
      cases hpc
  · refine (h.saved row hrow horder).imp (fun hset => hset) ?_
    rintro ⟨j, e, hj, hlive, -⟩
    rw [hold j e hj] at hlive
    cases hlive

theorem step (h : Kept event xDeath s) {l : Label} (hd : Redelivery event xDeath s l)
    (hg : KeepsResult event xDeath s l) (hs : s.step l = some s') : Kept event xDeath s' := by
  obtain ⟨event', xDeath', rfl, rfl⟩ | ⟨i, d, store, d', hi, hm, rfl⟩ := Service.step_cases hs
  · obtain ⟨rfl, rfl, hdead⟩ := hd
    exact h.deliver hdead
  · exact h.moves hi hg hm

theorem noLostResult (h : Kept event xDeath s) : NoLostResult event xDeath s := by
  intro d hd hack
  exact h.settled d hd (by rw [hack]; decide) (.inl (h.acked d hd hack))

end Kept

/-- The message is new: its order has no payment, and it was not delivered yet. -/
def Unseen (event : PaymentRequestedEvent) (s : Service) : Prop :=
  s.deliveries = [] ∧ ∀ row ∈ s.store.payments, row.orderId ≠ event.orderId

/-- **No lost payment result**, in every run in which neither a crash nor a rejection
hits the publish after a save of a message that was not handed on. -/
theorem noLostResult_of_reach
    (h : Reach Service.step (Unseen event)
      (fun s l => Redelivery event xDeath s l ∧ KeepsResult event xDeath s l) s) :
    NoLostResult event xDeath s := by
  refine (h.invariant (I := Kept event xDeath) ?_ fun _ _ _ hinv hg hs =>
    hinv.step hg.1 hg.2 hs).noLostResult
  rintro ⟨store, deliveries⟩ ⟨hnil, hnone⟩
  obtain rfl : deliveries = [] := hnil
  exact ⟨fun d hd => (by cases hd), fun i j d e hi => (by cases hi), fun d hd => (by cases hd),
    fun d hd => (by cases hd), fun d hd => (by cases hd),
    fun row hrow horder => absurd horder (hnone row hrow)⟩

/-! ## Runs -/

instance (event : PaymentRequestedEvent) (xDeath : List Death) (s : Service) :
    (l : Label) → Decidable (Redelivery event xDeath s l)
  | .deliver event' xDeath' => inferInstanceAs (Decidable
      (event' = event ∧ xDeath' = xDeath ∧ ∀ d ∈ s.deliveries, d.fate = .dead))
  | .exec _ => inferInstanceAs (Decidable True)
  | .reject _ _ => inferInstanceAs (Decidable True)
  | .gateway _ _ => inferInstanceAs (Decidable True)
  | .crash _ => inferInstanceAs (Decidable True)
  | .ack _ => inferInstanceAs (Decidable True)

instance (event : PaymentRequestedEvent) (xDeath : List Death) (s : Store) :
    Decidable (Handed event xDeath s) :=
  inferInstanceAs (Decidable (toRetry event xDeath ∈ s.published ∨ toDlq event ∈ s.published))

instance (event : PaymentRequestedEvent) (xDeath : List Death) (s : Service) :
    (l : Label) → Decidable (KeepsResult event xDeath s l)
  | .crash i => inferInstanceAs (Decidable (∀ d ∈ s.deliveries[i]?,
      d.pc.announces = true → Handed event xDeath s.store))
  | .reject i _ => inferInstanceAs (Decidable (∀ d ∈ s.deliveries[i]?,
      d.pc.announces = true → Handed event xDeath s.store))
  | .deliver _ _ => inferInstanceAs (Decidable True)
  | .exec _ => inferInstanceAs (Decidable True)
  | .gateway _ _ => inferInstanceAs (Decidable True)
  | .ack _ => inferInstanceAs (Decidable True)

/-- A crash before the insert, then a delivery that publishes what it saved. -/
theorem noLostResult_of_retried_delivery :
    ∃ s, Reach Service.step (Unseen someRequest)
        (fun s l => Redelivery someRequest [] s l ∧ KeepsResult someRequest [] s l) s ∧
      (∃ d ∈ s.deliveries, d.fate = .acked) ∧ NoLostResult someRequest [] s := by
  obtain ⟨s, hreach, hs⟩ := Reach.exists_of_follow Service.step (Unseen someRequest)
    (fun s l => Redelivery someRequest [] s l ∧ KeepsResult someRequest [] s l)
    (s := Service.fresh) ⟨rfl, fun row hrow => by cases hrow⟩
    [.deliver someRequest [], .exec 0, .exec 0, .crash 0, .deliver someRequest [], .exec 1, .exec 1,
      .gateway 1 (.ok .success), .exec 1, .exec 1, .exec 1, .ack 1]
    (fun s => s.deliveries.any fun d => d.fate = .acked) (by decide +kernel)
  obtain ⟨d, hd, hack⟩ := List.any_eq_true.mp hs
  exact ⟨s, hreach, ⟨d, hd, by simpa using hack⟩, noLostResult_of_reach hreach⟩

/-- The process crashes between the save and the publish: the redelivered message
finds the payment and is acked, and nothing was published. -/
theorem not_noLostResult_of_crash :
    ¬ ∀ event xDeath s, Reach Service.step (Unseen event) (Redelivery event xDeath) s →
      NoLostResult event xDeath s := by
  intro h
  obtain ⟨s, hreach, hs⟩ := Reach.exists_of_follow Service.step (Unseen someRequest)
    (Redelivery someRequest []) (s := Service.fresh) ⟨rfl, fun row hrow => by cases hrow⟩
    [.deliver someRequest [], .exec 0, .exec 0, .gateway 0 (.ok .success), .exec 0, .exec 0,
      .crash 0, .deliver someRequest [], .exec 1, .ack 1]
    (fun s => (s.deliveries.any fun d => d.fate = .acked) && s.store.published = [])
    (by decide +kernel)
  rw [Bool.and_eq_true, List.any_eq_true, decide_eq_true_eq] at hs
  obtain ⟨⟨d, hd, hack⟩, hpub⟩ := hs
  rcases h someRequest [] s hreach d hd (by simpa using hack) with (hmem | hmem) | ⟨_, _, _, _, hmem⟩ <;>
    · rw [hpub] at hmem
      cases hmem

end Payments

end Ecommerce
