import Ecommerce.Payment.Service
import Mathlib.Data.List.Induction
/-!
# The verdict on an order

Deliveries handled one after another, none of them cut short. A payment
that is saved settles its order, because every later delivery finds the
row; a message that is given up publishes `payment.failed` and leaves no
row behind. What contradicts it is the first answer of the gateway for
the order, when that comes after and is SUCCESS.
-/

namespace Ecommerce

namespace Payments

/-- A delivery of a message, and what the gateway comes back with should it be called. -/
structure Attempt where
  event : PaymentRequestedEvent
  xDeath : List Death
  outcome : GatewayOutcome

namespace Attempt

/-- What every call of the handler resolves to. -/
def perform (d : Attempt) (op : Op) (s : Store) : Except String (Ans op) × Store :=
  (Payments.perform (some d.outcome) op s).getD (.error "not answered", s)

/-- Handle a delivery to completion. -/
def handle (d : Attempt) (s : Store) : Except String Unit × Store :=
  (processPaymentRequested d.event d.xDeath).run d.perform s

/-- The order of a delivery. -/
def orderId (d : Attempt) : OrderId := d.event.orderId

/-- A message that has been retried too often. -/
def givenUp (d : Attempt) : Bool := decide (retryCount d.xDeath ≥ MAX_RETRIES)

/-- The answer of the gateway, if the message goes there. -/
def answer (d : Attempt) : Option PaymentStatus :=
  if d.givenUp then none
  else match d.outcome with
    | .ok status => some status
    | .error _ => none

end Attempt

/-- The order has a payment. -/
def Store.Paid (s : Store) (o : OrderId) : Prop := ∃ row ∈ s.payments, row.orderId = o

/-- What handling a delivery comes to. -/
inductive Handles (d : Attempt) (s : Store) : Store → Prop
  /-- The order has a payment. -/
  | skips (h : s.Paid d.orderId) : Handles d s s
  /-- The message is moved to the DLQ. -/
  | givesUp (hnot : ¬ s.Paid d.orderId) (h : d.givenUp = true) : Handles d s
      ⟨s.payments, s.published ++ [toDlq d.event, result d.orderId .failed none]⟩
  /-- The message is handed to a retry queue. -/
  | retries (hnot : ¬ s.Paid d.orderId) (h : d.givenUp = false) (hanswer : d.answer = none) :
      Handles d s ⟨s.payments, s.published ++ [toRetry d.event d.xDeath]⟩
  /-- The payment is saved. -/
  | saves (status : PaymentStatus) (hnot : ¬ s.Paid d.orderId) (hanswer : d.answer = some status) :
      Handles d s
        ⟨s.payments ++ [⟨s.payments.length, d.orderId, d.event.customerId, d.event.total, status⟩],
          s.published ++ [result d.orderId status (some s.payments.length)]⟩

/-- **A delivery handled alone returns**, in one of four ways. -/
theorem Attempt.handle_handles (d : Attempt) (s : Store) :
    (d.handle s).1 = .ok () ∧ Handles d s (d.handle s).2 := by
  obtain ⟨event, xDeath, outcome⟩ := d
  have hfind : (query (.findPayment event.orderId)).run
      (Attempt.perform ⟨event, xDeath, outcome⟩) s =
      (.ok (s.payments.find? fun row => row.orderId = event.orderId), s) := rfl
  unfold Attempt.handle processPaymentRequested
  rw [Program.run_bind_of_ok _ hfind]
  cases hrow : s.payments.find? fun row => row.orderId = event.orderId with
  | some row =>
    have horder : row.orderId = event.orderId := by simpa using List.find?_some hrow
    exact ⟨rfl, .skips ⟨row, List.mem_of_find?_eq_some hrow, horder⟩⟩
  | none =>
    have hnot : ¬ s.Paid event.orderId := by
      rintro ⟨row, hmem, horder⟩
      exact absurd horder (by simpa using List.find?_eq_none.mp hrow row hmem)
    dsimp only
    by_cases hcount : retryCount xDeath ≥ MAX_RETRIES
    · rw [if_pos hcount]
      refine ⟨rfl, ?_⟩
      have h := Handles.givesUp (d := ⟨event, xDeath, outcome⟩) hnot (decide_eq_true hcount)
      rwa [List.append_cons] at h
    · rw [if_neg hcount]
      have hcount : Attempt.givenUp ⟨event, xDeath, outcome⟩ = false := decide_eq_false hcount
      cases outcome with
      | error message => exact ⟨rfl, .retries hnot hcount (by rw [Attempt.answer, hcount]; rfl)⟩
      | ok status => exact ⟨rfl, .saves status hnot (by rw [Attempt.answer, hcount]; rfl)⟩

/-- The store after deliveries handled one after another. -/
def settled (payments : List Payment) (ds : List Attempt) : Store :=
  ds.foldl (fun s d => (d.handle s).2) ⟨payments, []⟩

theorem settled_concat (payments : List Payment) (ds : List Attempt) (d : Attempt) :
    settled payments (ds ++ [d]) = (d.handle (settled payments ds)).2 := by
  simp only [settled, List.foldl_append, List.foldl_cons, List.foldl_nil]

/-- The verdict a publication carries on an order. -/
def verdictOf (o : OrderId) (p : Publication) : Option PaymentStatus :=
  match p.body with
  | .paymentResult event => if event.orderId = o then some event.status else none
  | _ => none

/-- The verdicts published on an order. -/
def Store.verdicts (s : Store) (o : OrderId) : List PaymentStatus :=
  s.published.filterMap (verdictOf o)

/-- **The verdict of every order is final.** -/
structure FinalVerdicts (payments : List Payment) (ds : List Attempt) : Prop where
  /-- The result events of an order carry one status. -/
  agree : ∀ o, ∀ status ∈ (settled payments ds).verdicts o,
    ∀ status' ∈ (settled payments ds).verdicts o, status = status'
  /-- No SUCCESS is saved once `payment.failed` is published. -/
  unsaved : ∀ pre post, ds = pre ++ post → ∀ o, .failed ∈ (settled payments pre).verdicts o →
    ∀ row ∈ (settled payments ds).payments, row.orderId = o → row.status = .success →
      row ∈ (settled payments pre).payments

/-- The order has a payment at the start, or the gateway has answered one of the deliveries. -/
def Answered (payments : List Payment) (ds : List Attempt) (o : OrderId) : Prop :=
  (∃ row ∈ payments, row.orderId = o) ∨ ∃ d ∈ ds, d.orderId = o ∧ d.answer.isSome = true

/-- **The first answer of the gateway is not a SUCCESS after a message of the order was given
up.** -/
def NoLateSuccess (payments : List Payment) (ds : List Attempt) : Prop :=
  ∀ pre d post, ds = pre ++ d :: post → d.answer = some .success →
    ¬ Answered payments pre d.orderId → ∀ e ∈ pre, e.orderId = d.orderId → e.givenUp = false

variable {payments : List Payment} {ds : List Attempt} {d : Attempt} {s s' : Store} {o : OrderId}

section Step

theorem verdictOf_result (o : OrderId) (status : PaymentStatus) (id : Option ℕ) :
    verdictOf o (result o status id) = some status := if_pos rfl

theorem verdicts_of_publish (payments : List Payment) (ps : List Publication) :
    (Store.mk payments (s.published ++ ps)).verdicts o =
      s.verdicts o ++ ps.filterMap (verdictOf o) := List.filterMap_append

/-- **What a delivery adds to the verdicts on an order**, and to its payments. -/
inductive Adds (d : Attempt) (s : Store) (o : OrderId) : Store → Prop
  | nothing {s' : Store} (hpaid : s'.Paid o ↔ s.Paid o) (hverdicts : s'.verdicts o = s.verdicts o)
      (hrows : ∀ row ∈ s'.payments, row.orderId = o → row ∈ s.payments)
      (h : s.Paid o ∨ d.orderId ≠ o ∨ d.givenUp = false ∧ d.answer = none) : Adds d s o s'
  | failure {s' : Store} (horder : d.orderId = o) (hnot : ¬ s.Paid o) (h : d.givenUp = true)
      (hpaid : ¬ s'.Paid o) (hverdicts : s'.verdicts o = s.verdicts o ++ [.failed])
      (hrows : ∀ row ∈ s'.payments, row.orderId = o → row ∈ s.payments) : Adds d s o s'
  | payment {s' : Store} (status : PaymentStatus) (horder : d.orderId = o) (hnot : ¬ s.Paid o)
      (hanswer : d.answer = some status) (hpaid : s'.Paid o)
      (hverdicts : s'.verdicts o = s.verdicts o ++ [status])
      (hrows : ∀ row ∈ s'.payments, row.orderId = o → row ∈ s.payments ∨ row.status = status) :
      Adds d s o s'

theorem Handles.adds (h : Handles d s s') (o : OrderId) : Adds d s o s' := by
  cases h with
  | skips hpaid =>
    refine .nothing Iff.rfl rfl (fun row hrow _ => hrow) ?_
    by_cases horder : d.orderId = o
    · exact .inl (horder ▸ hpaid)
    · exact .inr (.inl horder)
  | givesUp hnot hgiven =>
    by_cases horder : d.orderId = o
    · -- Two messages are published; only `payment.failed` is a verdict.
      subst horder
      refine .failure rfl hnot hgiven hnot ?_ fun row hrow _ => hrow
      rw [verdicts_of_publish, List.filterMap_cons_none rfl,
        List.filterMap_cons_some (verdictOf_result _ _ _)]
      rfl
    · refine .nothing Iff.rfl ?_ (fun row hrow _ => hrow) (.inr (.inl horder))
      rw [verdicts_of_publish]
      simp [verdictOf, toDlq, result, horder]
  | retries hnot hgiven hanswer =>
    refine .nothing Iff.rfl ?_ (fun row hrow _ => hrow) (.inr (.inr ⟨hgiven, hanswer⟩))
    rw [verdicts_of_publish]
    exact List.append_nil _
  | saves status hnot hanswer =>
    by_cases horder : d.orderId = o
    · subst horder
      refine .payment status rfl hnot hanswer
        ⟨_, List.mem_append_right _ (List.mem_singleton.mpr rfl), rfl⟩ ?_ fun row hrow _ => ?_
      · rw [verdicts_of_publish, List.filterMap_cons_some (verdictOf_result _ _ _)]
        rfl
      · rcases List.mem_append.mp hrow with hold | hnew
        · exact .inl hold
        · obtain rfl := List.mem_singleton.mp hnew
          exact .inr rfl
    · refine .nothing ⟨?_, ?_⟩ ?_ (fun row hrow hro => ?_) (.inr (.inl horder))
      · rintro ⟨row, hrow, hro⟩
        rcases List.mem_append.mp hrow with hold | hnew
        · exact ⟨row, hold, hro⟩
        · obtain rfl := List.mem_singleton.mp hnew
          exact absurd hro horder
      · rintro ⟨row, hrow, hro⟩
        exact ⟨row, List.mem_append_left _ hrow, hro⟩
      · rw [verdicts_of_publish]
        simp [verdictOf, result, horder]
      · rcases List.mem_append.mp hrow with hold | hnew
        · exact hold
        · obtain rfl := List.mem_singleton.mp hnew
          exact absurd hro horder

end Step

/-! ## The invariant -/

theorem answered_concat : Answered payments (ds ++ [d]) o ↔
    Answered payments ds o ∨ d.orderId = o ∧ d.answer.isSome = true := by
  unfold Answered
  rw [or_assoc]
  refine or_congr Iff.rfl ⟨?_, ?_⟩
  · rintro ⟨e, he, hrest⟩
    rcases List.mem_append.mp he with he | he
    · exact .inl ⟨e, he, hrest⟩
    · obtain rfl := List.mem_singleton.mp he
      exact .inr hrest
  · rintro (⟨e, he, hrest⟩ | hrest)
    · exact ⟨e, List.mem_append_left _ he, hrest⟩
    · exact ⟨d, List.mem_append_right _ (List.mem_singleton.mpr rfl), hrest⟩

/-- **What the store tells of an order.** -/
structure Told (payments : List Payment) (ds : List Attempt) (o : OrderId) (s : Store) : Prop where
  paid : s.Paid o ↔ Answered payments ds o
  success : .success ∈ s.verdicts o → s.Paid o
  failed : .failed ∈ s.verdicts o → s.Paid o ∨ ∃ e ∈ ds, e.orderId = o ∧ e.givenUp = true
  givenUp : ∀ e ∈ ds, e.orderId = o → e.givenUp = true → s.Paid o ∨ .failed ∈ s.verdicts o
  rows : ∀ row ∈ s.payments, row.orderId = o → row ∈ payments ∨ row.status ∈ s.verdicts o

theorem Told.adds (h : Told payments ds o s) (hadds : Adds d s o s') :
    Told payments (ds ++ [d]) o s' := by
  have hold : ∀ {e : Attempt}, e ∈ ds → e ∈ ds ++ [d] := fun he => List.mem_append_left _ he
  cases hadds with
  | nothing hpaid hverdicts hrows hwhy =>
    -- If the gateway has answered for the order, the order had a payment.
    have hanswered : s.Paid o ∨ ¬ (d.orderId = o ∧ d.answer.isSome = true) := by
      rcases hwhy with hpaid | hother | ⟨-, hnone⟩
      · exact .inl hpaid
      · exact .inr fun hcon => hother hcon.1
      · exact .inr fun hcon => by rw [hnone] at hcon; cases hcon.2
    refine ⟨?_, ?_, ?_, fun e he horder hgiven => ?_, fun row hrow hro => ?_⟩
    · rw [hpaid, answered_concat, h.paid]
      exact ⟨.inl, fun hor => hor.elim id fun hd =>
        hanswered.elim h.paid.mp fun hnot => absurd hd hnot⟩
    · rw [hverdicts, hpaid]
      exact h.success
    · rw [hverdicts, hpaid]
      intro hf
      refine (h.failed hf).imp id ?_
      rintro ⟨e, he, hrest⟩
      exact ⟨e, hold he, hrest⟩
    · rw [hpaid, hverdicts]
      rcases List.mem_append.mp he with he | he
      · exact h.givenUp e he horder hgiven
      · obtain rfl := List.mem_singleton.mp he
        rcases hwhy with hpaid | hother | ⟨hnot, -⟩
        · exact .inl hpaid
        · exact absurd horder hother
        · rw [hgiven] at hnot
          cases hnot
    · rw [hverdicts]
      exact h.rows row (hrows row hrow hro) hro
  | failure horder hnot hgiven hpaid hverdicts hrows =>
    -- A message that is given up is not charged.
    have hnone : d.answer = none := by rw [Attempt.answer, hgiven]; rfl
    refine ⟨?_, fun hs => ?_, fun _ => ?_, fun e _ _ _ => ?_, fun row hrow hro => ?_⟩
    · rw [answered_concat, ← h.paid, hnone]
      simp [hpaid, hnot]
    · rw [hverdicts, List.mem_append, List.mem_singleton] at hs
      exact absurd (h.success (hs.resolve_right (by decide))) hnot
    · exact .inr ⟨d, List.mem_append_right _ (List.mem_singleton.mpr rfl), horder, hgiven⟩
    · rw [hverdicts]
      exact .inr (List.mem_append_right _ (List.mem_singleton.mpr rfl))
    · rw [hverdicts]
      exact (h.rows row (hrows row hrow hro) hro).imp id (List.mem_append_left _)
  | payment status horder hnot hanswer hpaid hverdicts hrows =>
    refine ⟨?_, fun _ => hpaid, fun _ => .inl hpaid, fun _ _ _ _ => .inl hpaid,
      fun row hrow hro => ?_⟩
    · rw [answered_concat, hanswer]
      exact ⟨fun _ => .inr ⟨horder, rfl⟩, fun _ => hpaid⟩
    · rw [hverdicts]
      rcases hrows row hrow hro with hrow | hstatus
      · exact (h.rows row hrow hro).imp id (List.mem_append_left _)
      · exact .inr (List.mem_append_right _ (List.mem_singleton.mpr hstatus))

theorem told (payments : List Payment) (ds : List Attempt) (o : OrderId) :
    Told payments ds o (settled payments ds) := by
  induction ds using List.reverseRecOn with
  | nil =>
    refine ⟨?_, fun h => (by cases h), fun h => (by cases h), fun e he => (by cases he),
      fun row hrow _ => .inl hrow⟩
    exact ⟨.inl, fun h => h.resolve_right (by rintro ⟨d, hd, -⟩; cases hd)⟩
  | append_singleton ds d ih =>
    rw [settled_concat]
    exact ih.adds ((d.handle_handles _).2.adds o)

/-! ## Sequences -/

theorem verdicts_mono (pre post : List Attempt) {status : PaymentStatus}
    (h : status ∈ (settled payments pre).verdicts o) :
    status ∈ (settled payments (pre ++ post)).verdicts o := by
  induction post using List.reverseRecOn with
  | nil => rwa [List.append_nil]
  | append_singleton post d ih =>
    rw [← List.append_assoc, settled_concat]
    cases (d.handle_handles (settled payments (pre ++ post))).2.adds o with
    | nothing hpaid hverdicts => rwa [hverdicts]
    | failure horder hnot hgiven hpaid hverdicts => rw [hverdicts]; exact List.mem_append_left _ ih
    | payment status' horder hnot hanswer hpaid hverdicts =>
      rw [hverdicts]
      exact List.mem_append_left _ ih

theorem payments_mono (pre post : List Attempt) {row : Payment}
    (h : row ∈ (settled payments pre).payments) :
    row ∈ (settled payments (pre ++ post)).payments := by
  induction post using List.reverseRecOn with
  | nil => rwa [List.append_nil]
  | append_singleton post d ih =>
    rw [← List.append_assoc, settled_concat]
    have hhandles := (d.handle_handles (settled payments (pre ++ post))).2
    generalize (d.handle (settled payments (pre ++ post))).2 = s' at hhandles
    cases hhandles with
    | saves status hnot hanswer => exact List.mem_append_left _ ih
    | _ => exact ih

theorem NoLateSuccess.prefix (h : NoLateSuccess payments (ds ++ [d])) : NoLateSuccess payments ds :=
  fun pre e post heq => h pre e (post ++ [d]) (by rw [heq, List.append_assoc, List.cons_append])

/-- Both verdicts are never published on an order. -/
theorem not_both (h : NoLateSuccess payments ds) (o : OrderId) :
    ¬ (.success ∈ (settled payments ds).verdicts o ∧ .failed ∈ (settled payments ds).verdicts o) := by
  induction ds using List.reverseRecOn with
  | nil => rintro ⟨hs, -⟩; cases hs
  | append_singleton ds d ih =>
    have hold := ih h.prefix
    have htold := told payments ds o
    rw [settled_concat]
    rintro ⟨hs, hf⟩
    cases (d.handle_handles (settled payments ds)).2.adds o with
    | nothing hpaid hverdicts =>
      rw [hverdicts] at hs hf
      exact hold ⟨hs, hf⟩
    | failure horder hnot hgiven hpaid hverdicts =>
      rw [hverdicts, List.mem_append, List.mem_singleton] at hs
      exact hnot (htold.success (hs.resolve_right (by decide)))
    | payment status horder hnot hanswer hpaid hverdicts =>
      rw [hverdicts, List.mem_append, List.mem_singleton] at hs hf
      have hsuccess : status = .success :=
        (hs.resolve_left fun hold => hnot (htold.success hold)).symm
      -- What failed before was given up, and this answer comes too late for it.
      rcases htold.failed (hf.resolve_right (by rw [hsuccess]; decide)) with hpaid | ⟨e, he, heo, hge⟩
      · exact hnot hpaid
      · have := h ds d [] rfl (hsuccess ▸ hanswer) (fun hans => hnot (htold.paid.mpr (horder ▸ hans)))
          e he (heo.trans horder.symm)
        rw [hge] at this
        cases this

theorem agree_of_not_both {l : List PaymentStatus} (h : ¬ (.success ∈ l ∧ .failed ∈ l)) :
    ∀ status ∈ l, ∀ status' ∈ l, status = status' := by
  intro status hs status' hs'
  cases status <;> cases status' <;> first | rfl | exact absurd ⟨‹_›, ‹_›⟩ h

/-- **The verdict of every order is final exactly as long as no first answer of the gateway is
a SUCCESS that comes after a message of the order was given up.** -/
theorem finalVerdicts_iff (payments : List Payment) (ds : List Attempt) :
    FinalVerdicts payments ds ↔ NoLateSuccess payments ds := by
  constructor
  · rintro h pre d post rfl hanswer hnot e he horder
    by_contra hgiven
    -- `payment.failed` is published before the SUCCESS.
    have hbefore := told payments pre d.orderId
    have hunpaid : ¬ (settled payments pre).Paid d.orderId := fun hpaid => hnot (hbefore.paid.mp hpaid)
    have hfailed := (hbefore.givenUp e he horder (by simpa using hgiven)).resolve_left hunpaid
    have hsuccess : .success ∈ (settled payments (pre ++ [d])).verdicts d.orderId := by
      rw [settled_concat]
      cases (d.handle_handles (settled payments pre)).2.adds d.orderId with
      | nothing hpaid hverdicts hrows hwhy =>
        rcases hwhy with hpaid | hother | ⟨-, hnone⟩
        · exact absurd hpaid hunpaid
        · exact absurd rfl hother
        · rw [hanswer] at hnone; cases hnone
      | failure horder hnot' hgiven' =>
        rw [Attempt.answer, hgiven'] at hanswer
        cases hanswer
      | payment status horder hnot' hanswer' hpaid hverdicts =>
        obtain rfl : status = .success := Option.some.inj (hanswer'.symm.trans hanswer)
        rw [hverdicts]
        exact List.mem_append_right _ (List.mem_singleton.mpr rfl)
    have hall := h.agree d.orderId .success (by
      have := verdicts_mono (pre ++ [d]) post hsuccess
      rwa [List.append_assoc] at this) .failed (verdicts_mono pre (d :: post) hfailed)
    cases hall
  · intro h
    refine ⟨fun o => agree_of_not_both (not_both h o), ?_⟩
    rintro pre post rfl o hfailed row hrow horder hsuccess
    rcases (told payments (pre ++ post) o).rows row hrow horder with hold | hnew
    · exact payments_mono [] pre hold
    · rw [hsuccess] at hnew
      exact absurd ⟨hnew, verdicts_mono pre post hfailed⟩ (not_both h o)

/-- A message whose header counts three deaths is given up, and the order's next message is
charged. -/
theorem not_finalVerdicts_after_givenUp : ¬ ∀ payments ds, FinalVerdicts payments ds := by
  intro h
  have hall := (h [] [⟨⟨"o", "c", 10⟩, [⟨.retry3, .expired, 3⟩], .ok .success⟩,
    ⟨⟨"o", "c", 10⟩, [], .ok .success⟩]).agree "o"
  exact absurd (hall .success (by decide +kernel) .failed (by decide +kernel)) (by decide)

end Payments

end Ecommerce
