import Ecommerce.Saga.Charged
/-!
# The life cycle of an order's status

`setStatus` is an unconditional update, so whether a write is legal depends
on what its handler knows of the order. The result of a payment is such
knowledge: an order with a SUCCESS payment has been reserved and is not
cancelled, and one with a FAILED payment is not completed. A late copy of
`order.created` knows nothing, and takes a COMPLETED or CANCELLED order
back to INVENTORY_RESERVED.
-/

namespace Ecommerce

namespace Saga

/-- **The life cycle.** A status may be written once more. -/
def Edge : OrderStatus → OrderStatus → Prop
  | .pending, .inventoryReserved => True
  | .pending, .cancelled => True
  | .inventoryReserved, .completed => True
  | .inventoryReserved, .cancelled => True
  | status, status' => status = status'

/-- Every stored status changes along the life cycle, if at all. -/
def Lifecycle (s s' : System) : Prop :=
  ∀ o order order', s.orders.lookup o = some order → s'.orders.lookup o = some order' →
    Edge order.status order'.status

/-- The order a copy of `order.created` is about to write INVENTORY_RESERVED to. -/
def Label.reserving : Label → Option OrderId
  | act (.saga (.created event) (.update .inventoryReserved) _) .go => some event.orderId
  | _ => none

/-- A copy of `order.created` writes INVENTORY_RESERVED only while the order is open. -/
def ReservesOpen (s : System) (l : Label) : Prop :=
  ∀ o ∈ l.reserving, ∀ order ∈ s.orders.lookup o, isTerminal order.status = false

/-- **The runs without a late copy**: what a copy of `order.created` writes it writes to an
order that is still open, or before its payment is requested, and deliveries of
`payment.requested` do not overtake each other between their read and their insert. -/
structure Timely (s : System) (l : Label) : Prop where
  storesWork : l.storesWork = true
  reserves : ReservesOpen s l
  cancels : CancelsUnasked s l
  reads : ReadsAlone s l

variable {s s' : System} {t : Token} {o : OrderId} {order : Orders.Order} {status : OrderStatus}

theorem edge_refl (status : OrderStatus) : Edge status status := by
  cases status <;> exact rfl

theorem edge_inventoryReserved (h : isTerminal status = false) :
    Edge status .inventoryReserved := by
  cases status with
  | pending => trivial
  | inventoryReserved => exact rfl
  | completed => cases h
  | cancelled => cases h

theorem edge_cancelled (h : status ≠ .completed) : Edge status .cancelled := by
  cases status with
  | completed => exact absurd rfl h
  | cancelled => exact rfl
  | _ => trivial

theorem edge_completed (hpending : status ≠ .pending) (hcancelled : status ≠ .cancelled) :
    Edge status .completed := by
  cases status with
  | pending => exact absurd rfl hpending
  | cancelled => exact absurd rfl hcancelled
  | inventoryReserved => trivial
  | completed => exact rfl

namespace Charges

/-- The payments of an order agree. -/
theorem not_both (h : Charges s) (hsuccess : Recorded s o .success)
    (hfailed : Recorded s o .failed) : False := by
  obtain ⟨row₁, hrow₁, horder₁, hstatus₁⟩ := hsuccess
  obtain ⟨row₂, hrow₂, horder₂, hstatus₂⟩ := hfailed
  have := h.once row₁ hrow₁ row₂ hrow₂ (horder₁.trans horder₂.symm)
  rw [hstatus₁, hstatus₂] at this
  cases this

/-- An order that is paid has been reserved, and is not cancelled. -/
theorem of_success (h : Charges s) (ho : s.orders.lookup o = some order)
    (hsuccess : Recorded s o .success) : order.status ≠ .pending ∧ order.status ≠ .cancelled := by
  obtain ⟨row, hrow, rfl, hstatus⟩ := hsuccess
  obtain ⟨order', ho', hpending, hcancelled⟩ := h.rows row hrow
  obtain rfl : order = order' := Option.some.inj (ho.symm.trans ho')
  exact ⟨hpending, fun hst => h.not_both ⟨row, hrow, rfl, hstatus⟩ (hcancelled hst)⟩

/-- An order whose payment has failed, or was never asked for, is not completed. -/
theorem not_completed (h : Charges s) (hback : Backed s) (ho : s.orders.lookup o = some order)
    (hcancel : Recorded s o .failed ∨ Unasked s o) : order.status ≠ .completed := by
  intro hst
  obtain ⟨-, hsuccess⟩ := hback.completed o order ho hst
  rcases hcancel with hfailed | hunasked
  · exact h.not_both hsuccess hfailed
  · obtain ⟨row, hrow, horder, -⟩ := hsuccess
    exact hunasked.2 row hrow horder

end Charges

/-- **Each handler's write is legal**, under the conditions. -/
theorem Charges.edge (h : Charges s) (hback : Backed s) {event : Event} {rpc : Rpc}
    (ht : Token.saga event (.update status) rpc ∈ s.flight) (hreaches : event.Reaches (.update status))
    (hreserves : ReservesOpen s (.act (.saga event (.update status) rpc) .go))
    (hcancels : CancelsUnasked s (.act (.saga event (.update status) rpc) .go))
    (ho : s.orders.lookup event.orderId = some order) : Edge order.status status := by
  have hknows := (hback.tokens _ ht).1
  cases event with
  | created event =>
    rcases hreaches with rfl | rfl
    · exact edge_inventoryReserved (hreserves _ rfl order ho)
    · exact edge_cancelled (h.not_completed hback ho (hcancels _ rfl))
  | succeeded event =>
    obtain rfl : status = .completed := hreaches
    obtain ⟨hpending, hcancelled⟩ := h.of_success ho hknows
    exact edge_completed hpending hcancelled
  | failed event =>
    obtain rfl : status = .cancelled := hreaches
    exact edge_cancelled (h.not_completed hback ho (.inl hknows))

/-- Nothing is written. -/
theorem lifecycle_of_eq (h : s'.orders = s.orders) : Lifecycle s s' := by
  intro o order order' ho ho'
  rw [h, ho, Option.some.injEq] at ho'
  rw [ho']
  exact edge_refl _

/-- **The status of an order follows its life cycle**, in every run without a late copy:
every step changes every stored status along the life cycle, if at all. -/
theorem lifecycle_of_reach {l : Label} (h : Reach System.step Opens Timely s) (hl : Timely s l)
    (hs : s.step l = some s') : Lifecycle s s' := by
  obtain ⟨hformed, hback⟩ := backed_of_reach h
  have hcharges := charges_of_reach (fun _ _ hg => ⟨hg.storesWork, hg.cancels, hg.reads⟩) h
  obtain ⟨o, dto, result, order, event, rfl, hcreate, hfresh, rfl⟩ |
    ⟨t, c, base, out, rfl, ht, hr, rfl⟩ | ⟨t, rfl, ht, rfl⟩ := System.step_cases hs
  · intro o' old new ho ho'
    have ho' : (s.orders.insert o order).lookup o' = some new := ho'
    obtain rfl : old = new :=
      Option.some.inj ((Table.lookup_insert_of_fresh hfresh ho).symm.trans ho')
    exact edge_refl _
  · rcases hr.orders with hsame | ⟨event, status, rpc, rfl, rfl, rfl⟩
    · exact lifecycle_of_eq hsame
    · intro o old new ho ho'
      have ho' : ((s.without _).setStatus event.orderId status).orders.lookup o = some new := ho'
      rw [System.lookup_setStatus] at ho'
      split at ho'
      · rename_i heq
        obtain ⟨old', hold, rfl⟩ := Option.map_eq_some_iff.mp ho'
        exact hcharges.edge hback ht (hformed _ ht) hl.reserves hl.cancels (heq ▸ ho)
      · obtain rfl : old = new := Option.some.inj (ho.symm.trans ho')
        exact edge_refl _
  · exact lifecycle_of_eq rfl

/-! ## Runs -/

instance (s : System) (l : Label) : Decidable (ReservesOpen s l) :=
  inferInstanceAs (Decidable (∀ o ∈ l.reserving, ∀ order ∈ s.orders.lookup o,
    isTerminal order.status = false))

instance (s : System) (l : Label) : Decidable (ReadsAlone s l) :=
  inferInstanceAs (Decidable (∀ o ∈ l.reading, (∀ row ∈ s.payments, row.orderId ≠ o) →
    ∀ t ∈ s.flight, t.holds o = false))

instance (s : System) (l : Label) : Decidable (Timely s l) :=
  decidable_of_iff (l.storesWork = true ∧ ReservesOpen s l ∧ CancelsUnasked s l ∧ ReadsAlone s l)
    ⟨fun ⟨hwork, hreserves, hcancels, hreads⟩ => ⟨hwork, hreserves, hcancels, hreads⟩,
      fun h => ⟨h.storesWork, h.reserves, h.cancels, h.reads⟩⟩

/-- The write that completes an order. -/
def completes : Label :=
  .act (.saga (.succeeded ⟨"o", some 0, .success⟩) (.update .completed) .idle) .go

/-- The write of a copy of `order.created` that has reserved. -/
def reserves : Label := .act (.saga (.created someCreated) (.update .inventoryReserved) .idle) .go

/-- A copy of `order.created` is handled while the order is INVENTORY_RESERVED, and the order
is completed. -/
theorem lifecycle_of_completed :
    ∃ s s' l, Reach System.step Opens Timely s ∧ s.step l = some s' ∧
      s.statusOf "o" = some .inventoryReserved ∧ s'.statusOf "o" = some .completed ∧
      Lifecycle s s' := by
  obtain ⟨s, hreach, hs⟩ := Reach.exists_of_follow System.step Opens Timely opens_newShop
    ([someOrder, copied] ++ relayed ++ called (.created someCreated) ++ requested ++ relayed ++
      called (.created someCreated) ++ [reserves] ++ paid ++
      called (.succeeded ⟨"o", some 0, .success⟩))
    (fun s => decide (Timely s completes) && s.statusOf "o" = some .inventoryReserved &&
      (s.step completes).any fun s' => s'.statusOf "o" = some .completed) (by decide +kernel)
  simp only [Bool.and_eq_true, decide_eq_true_eq, Option.any_eq_true_iff_get] at hs
  obtain ⟨⟨htimely, hbefore⟩, hsome, hafter⟩ := hs
  exact ⟨s, _, completes, hreach, (Option.some_get hsome).symm, hbefore, hafter,
    lifecycle_of_reach hreach htimely (Option.some_get hsome).symm⟩

/-- A copy of `order.created` is delivered once the order is COMPLETED: its reservation is
found CONFIRMED, and the order goes back to INVENTORY_RESERVED. -/
theorem not_lifecycle_of_copy :
    ¬ ∀ s l s', Reach System.step Opens (fun _ l => l.storesWork = true) s →
      l.storesWork = true → s.step l = some s' → Lifecycle s s' := by
  intro h
  obtain ⟨s, hreach, hs⟩ := Reach.exists_of_follow System.step Opens
    (fun _ l => l.storesWork = true) opens_newShop
    ([someOrder, copied] ++ relayed ++ called (.created someCreated) ++ requested ++ paid ++
      completed ++ relayed ++ called (.created someCreated))
    (fun s => s.statusOf "o" = some .completed &&
      (s.step reserves).any fun s' => s'.statusOf "o" = some .inventoryReserved)
    (by decide +kernel)
  simp only [Bool.and_eq_true, decide_eq_true_eq, Option.any_eq_true_iff_get] at hs
  obtain ⟨hbefore, hsome, hafter⟩ := hs
  obtain ⟨order, ho, hst⟩ := Option.map_eq_some_iff.mp hbefore
  obtain ⟨order', ho', hst'⟩ := Option.map_eq_some_iff.mp hafter
  have hedge := h s reserves _ hreach rfl (Option.some_get hsome).symm "o" order order' ho ho'
  rw [hst, hst'] at hedge
  cases hedge

end Saga

end Ecommerce
