import Ecommerce.Inventory.Serial
/-!
# What a caller learns from a reply

Seen from outside, a reservation is its status. `Request.settle` is what a
request answered with success makes of it, and a request answered
otherwise leaves it alone; `serve_replies` proves that of the handlers, in
whatever way their statements are rejected. CONFIRMED is final.
-/

namespace Ecommerce

namespace Inventory

/-- The status of an order's reservation, if it has one. -/
def Tables.statusOf (db : Tables) (o : OrderId) : Option ReservationStatus :=
  (db.reservations.lookup o).map Reservation.status

/-- What a request that is answered with success makes of the status. -/
def Request.settle : Request → Option ReservationStatus → Option ReservationStatus
  | .reserve _ _ _, none => some .reserved
  | .confirm _ _, _ => some .confirmed
  | .release _ _, some .reserved => some .released
  | _, status => status

/-- The reservations before and after a request that was handled. -/
structure Replies (req : Request) (db : Tables) (reply : Reply) (db' : Tables) : Prop where
  success : ∀ reason, reply = .result ⟨true, reason⟩ →
    db'.statusOf req.orderId = req.settle (db.statusOf req.orderId)
  failure : (∀ reason, reply ≠ .result ⟨true, reason⟩) → db' = db
  other : ∀ o, o ≠ req.orderId → db'.statusOf o = db.statusOf o
  reserve : req.isReserve = true → ∀ reason, reply = .result ⟨true, reason⟩ →
    db.statusOf req.orderId ≠ some .released
  final : ∀ o, db.statusOf o = some .confirmed → db'.statusOf o = some .confirmed

variable {req : Request} {db db' : Tables} {reply : Reply} {o : OrderId}

theorem statusOf_of_lookup {row : Reservation} (h : db.reservations.lookup o = some row) :
    db.statusOf o = some row.status := by
  rw [Tables.statusOf, h]
  rfl

theorem statusOf_of_insert {row : Reservation}
    (h : db'.reservations = db.reservations.insert o row) : db'.statusOf o = some row.status :=
  statusOf_of_lookup (by rw [h, Finmap.lookup_insert])

theorem statusOf_of_insert_ne {o' : OrderId} {row : Reservation}
    (h : db'.reservations = db.reservations.insert o row) (hne : o' ≠ o) :
    db'.statusOf o' = db.statusOf o' := by
  rw [Tables.statusOf, h, Finmap.lookup_insert_of_ne _ hne, Tables.statusOf]

/-- A reply after which nothing has changed. -/
theorem Replies.unchanged
    (hsuccess : ∀ reason, reply = .result ⟨true, reason⟩ →
      req.settle (db.statusOf req.orderId) = db.statusOf req.orderId)
    (hreserve : req.isReserve = true → ∀ reason, reply = .result ⟨true, reason⟩ →
      db.statusOf req.orderId ≠ some .released) : Replies req db reply db where
  success reason hr := (hsuccess reason hr).symm
  failure _ := rfl
  other _ _ := rfl
  reserve := hreserve
  final _ h := h

theorem settle_of_settleable {status : ReservationStatus} (h : Settleable req status) :
    req.settle (some status) = some (target req) := by
  cases req with
  | reserve o items b => exact h.elim
  | confirm o b => rfl
  | release o b =>
    obtain rfl : status = .reserved := h
    rfl

theorem Handled.replies (h : Handled req db reply db') : Replies req db reply db' := by
  cases h with
  | nack h => exact .unchanged (fun _ hr => by cases hr) fun _ _ hr => by cases hr
  | declined reason => exact .unchanged (fun _ hr => by cases hr) fun _ _ hr => by cases hr
  | existing row hreq h hrow =>
    cases req with
    | reserve o items b =>
      have hstatus := statusOf_of_lookup h
      refine .unchanged (fun _ _ => ?_) fun _ _ _ hcon => hrow ?_
      · rw [hstatus]; rfl
      · rw [hstatus, Option.some.injEq] at hcon
        exact hcon
    | confirm o b => cases hreq
    | release o b => cases hreq
  | confirmed row hreq h hrow =>
    cases req with
    | reserve o items b => cases hreq
    | confirm o b =>
      refine .unchanged (fun _ _ => ?_) fun hres => by cases hres
      rw [statusOf_of_lookup h, hrow]
      rfl
    | release o b => cases hreq
  | nothing hreq htarget h =>
    cases req with
    | reserve o items b => cases hreq
    | confirm o b => cases htarget
    | release o b =>
      refine .unchanged (fun _ _ => ?_) fun hres => by cases hres
      cases hrow : db.reservations.lookup o with
      | none => simp only [Request.orderId, Tables.statusOf, hrow, Option.map_none]; rfl
      | some row =>
        have hne := h row hrow
        rw [show (Request.release o b).orderId = o from rfl, statusOf_of_lookup hrow]
        cases hst : row.status with
        | reserved => exact absurd hst hne
        | confirmed => rfl
        | released => rfl
  | reserves hreq h =>
    -- The order had no reservation, so what is CONFIRMED is of another order.
    have hbefore : db.statusOf req.orderId = none := by rw [Tables.statusOf, h.fresh]; rfl
    refine ⟨fun _ _ => ?_, fun hno => absurd rfl (hno none), fun o ho =>
      statusOf_of_insert_ne h.reservations ho, fun _ _ _ => by rw [hbefore]; simp, fun o ho => ?_⟩
    · rw [statusOf_of_insert h.reservations, hbefore]
      cases req with
      | reserve o items b => rfl
      | confirm o b => cases hreq
      | release o b => cases hreq
    · have hne : o ≠ req.orderId := by
        rintro rfl
        rw [hbefore] at ho
        cases ho
      rw [statusOf_of_insert_ne h.reservations hne, ho]
  | settles row hguard h =>
    have hbefore := statusOf_of_lookup h.found
    refine ⟨fun _ _ => ?_, fun hno => absurd rfl (hno none), fun o ho =>
      statusOf_of_insert_ne h.reservations ho, fun hres => ?_, fun o ho => ?_⟩
    · rw [statusOf_of_insert h.reservations, hbefore, settle_of_settleable hguard]
    · cases req with
      | reserve o items b => exact hguard.elim
      | confirm o b => cases hres
      | release o b => cases hres
    · have hne : o ≠ req.orderId := by
        rintro rfl
        rw [hbefore, Option.some.injEq] at ho
        cases req with
        | reserve o items b => exact hguard.elim
        | confirm o b => exact hguard ho
        | release o b =>
          rw [show row.status = .reserved from hguard] at ho
          cases ho
      rw [statusOf_of_insert_ne h.reservations hne, ho]

theorem Handled.stored (h : Handled req db reply db') (hst : Stored db) : Stored db' := by
  cases h with
  | reserves hreq h => exact h.stored hst
  | settles row hguard h => exact h.stored hst
  | _ => exact hst

/-- A reservation has the items it was made with. -/
theorem Handled.items (h : Handled req db reply db') {row : Reservation}
    (hrow : db'.reservations.lookup o = some row) :
    (∃ old, db.reservations.lookup o = some old ∧ old.items = row.items) ∨
      req.isReserve = true ∧ o = req.orderId ∧ row.items = req.items := by
  cases h with
  | reserves hreq h =>
    rw [h.reservations] at hrow
    obtain ⟨rfl, rfl⟩ | ⟨-, hold⟩ := Table.lookup_insert_cases hrow
    · exact .inr ⟨hreq, rfl, rfl⟩
    · exact .inl ⟨row, hold, rfl⟩
  | settles old hguard h =>
    rw [h.reservations] at hrow
    obtain ⟨rfl, rfl⟩ | ⟨-, hold⟩ := Table.lookup_insert_cases hrow
    · exact .inl ⟨old, h.found, rfl⟩
    · exact .inl ⟨row, hold, rfl⟩
  | _ => exact .inl ⟨row, hrow, rfl⟩

/-- **What a caller may rely on.** -/
theorem serve_replies (faults : List Bool) (req : Request) (hst : Stored db) :
    ∃ reply, (serve faults req db).1 = .ok reply ∧
      Replies req db reply (serve faults req db).2 ∧ Stored (serve faults req db).2 := by
  obtain ⟨reply, hreply, h⟩ := serve_handled faults req hst
  exact ⟨reply, hreply, h.replies, h.stored hst⟩

end Inventory

end Ecommerce
