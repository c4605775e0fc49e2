import Ecommerce.Inventory.Replies
/-!
# The ledger over sequences of requests

`runOf` handles a list of requests one after another, from empty tables.
The ledger holds after every one of them exactly as long as no `confirm`
meets a RELEASED reservation: `confirm` checks for CONFIRMED only, so it
takes the units of a released reservation off both columns once more.
-/

namespace Ecommerce

namespace Inventory

/-- The tables after a list of requests, each handled to completion before the next. -/
def runOf (reqs : List Request) : Tables :=
  reqs.foldl (fun db req => (serve [] req db).2) ∅

@[simp] theorem runOf_nil : runOf [] = ∅ := rfl

@[simp] theorem runOf_append (reqs : List Request) (req : Request) :
    runOf (reqs ++ [req]) = (serve [] req (runOf reqs)).2 := by
  simp only [runOf, List.foldl_append, List.foldl_cons, List.foldl_nil]

/-- A `confirm` that `confirm` handles although the reservation, with its lines, was released. -/
def Resettles (db : Tables) : Request → Prop
  | .confirm o false =>
    ∃ row, db.reservations.lookup o = some row ∧ row.status = .released ∧ row.items ≠ []
  | _ => False

section Step

variable {base : ProductId → ℤ} {db db' : Tables} {req : Request} {reply : Reply}

/-- One handled request keeps the ledger, unless it settles a released reservation. -/
theorem Handled.ledger (h : Handled req db reply db') (hst : Stored db) (hseed : Seeded base db)
    (hled : Ledger base db)
    (hok : ∀ row, Settleable req row.status → db.reservations.lookup req.orderId = some row →
      row.status = .reserved ∨ row.items = []) : Ledger base db' := by
  cases h with
  | reserves hreq h => exact h.ledger hst hseed hled
  | settles row hguard h =>
    exact h.ledger (hok row hguard h.found) (target_ne_reserved req) hst hseed hled
  | _ => exact hled

/-- A request that does not resettle meets a reservation it may settle. -/
theorem settleable_of_not_resettles (hok : ¬ Resettles db req) (hred : req.redelivered = false)
    (row : Reservation) (hguard : Settleable req row.status)
    (hrow : db.reservations.lookup req.orderId = some row) :
    row.status = .reserved ∨ row.items = [] := by
  cases req with
  | reserve o items b => exact hguard.elim
  | release o b => exact Or.inl hguard
  | confirm o b =>
    obtain rfl : b = false := hred
    by_contra hcon
    obtain ⟨hstatus, hitems⟩ := not_or.mp hcon
    refine hok ⟨row, hrow, ?_, hitems⟩
    cases hst : row.status with
    | reserved => exact absurd hst hstatus
    | confirmed => exact absurd hst hguard
    | released => rfl

/-- A redelivered request is not handled. -/
theorem serve_redelivered (hred : req.redelivered = true) : (serve [] req db).2 = db := by
  cases req with
  | reserve o items b => obtain rfl : b = true := hred; rfl
  | confirm o b => obtain rfl : b = true := hred; rfl
  | release o b => obtain rfl : b = true := hred; rfl

theorem serve_ledger (hst : Stored db) (hseed : Seeded base db) (hled : Ledger base db)
    (hok : ¬ Resettles db req) : Ledger base (serve [] req db).2 := by
  cases hred : req.redelivered with
  | true => rwa [serve_redelivered hred]
  | false =>
    obtain ⟨reply, -, h⟩ := serve_handled [] req hst
    exact h.ledger hst hseed hled (settleable_of_not_resettles hok hred)

end Step

/-! ## Sequences -/

theorem runOf_stored (reqs : List Request) : Stored (runOf reqs) := by
  induction reqs using List.reverseRecOn with
  | nil => exact .of_unreserved rfl
  | append_singleton reqs req ih =>
    rw [runOf_append]
    obtain ⟨reply, -, h⟩ := serve_handled [] req ih
    exact h.stored ih

theorem seeded_default (db : Tables) : Seeded (fun _ => DEFAULT_STOCK_QUANTITY) db := fun _ _ => rfl

/-- The ledger after a list of requests none of which resettles. -/
theorem runOf_ledger (reqs : List Request)
    (hok : ∀ pre req, pre ++ [req] <+: reqs → ¬ Resettles (runOf pre) req) :
    Ledger (fun _ => DEFAULT_STOCK_QUANTITY) (runOf reqs) := by
  induction reqs using List.reverseRecOn with
  | nil => exact .of_unreserved rfl fun p row h => by cases h
  | append_singleton reqs req ih =>
    rw [runOf_append]
    exact serve_ledger (runOf_stored reqs) (seeded_default _)
      (ih fun pre r hpre => hok pre r (hpre.trans (List.prefix_append _ _)))
      (hok reqs req (List.prefix_refl _))

/-- **The ledger holds after every request exactly as long as no `confirm` is
handled for a released reservation with lines.** -/
theorem ledger_throughout_iff (reqs : List Request) :
    (∀ pre, pre <+: reqs → Ledger (fun _ => DEFAULT_STOCK_QUANTITY) (runOf pre)) ↔
      ∀ pre req, pre ++ [req] <+: reqs → ¬ Resettles (runOf pre) req := by
  refine ⟨fun hled pre req hpre hre => ?_, fun hok pre hpre => runOf_ledger pre
    fun p r hp => hok p r (hp.trans hpre)⟩
  have hbefore := hled pre ((List.prefix_append _ _).trans hpre)
  have hafter := hled (pre ++ [req]) hpre
  rw [runOf_append] at hafter
  match req, hre with
  | .confirm o false, ⟨row, hrow, hstatus, hitems⟩ =>
    have hset := serve_settles (.confirm o false) (runOf_stored pre) rfl rfl hrow
      (by simp [Settleable, hstatus])
    exact hset.not_ledger (by simp [hstatus]) (target_ne_reserved _) hitems (runOf_stored pre)
      hbefore hafter

/-- A unit is reserved, released and confirmed: one unit too many has left
`reservedQuantity`. -/
theorem not_ledger_after_released_confirm :
    ¬ ∀ reqs pre, pre <+: reqs →
      Ledger (fun _ => DEFAULT_STOCK_QUANTITY) (runOf pre) := by
  intro h
  have hled := h [.reserve "o" [⟨"p", 1⟩] false, .release "o" false, .confirm "o" false] _
    (List.prefix_refl _)
  have hrow : (runOf [.reserve "o" [⟨"p", 1⟩] false, .release "o" false,
      .confirm "o" false]).stock.lookup "p" = some ⟨999, -1⟩ := by decide +kernel
  exact absurd (hled.nonneg "p" _ hrow) (by decide)

end Inventory

end Ecommerce
