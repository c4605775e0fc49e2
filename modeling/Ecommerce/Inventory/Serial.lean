import Ecommerce.Common.Machine
import Ecommerce.Inventory.Ledger
/-!
# Requests handled one at a time

`serve` runs a handler to completion on the committed tables, with some of
its statements rejected. `serve_handled` is what a caller may rely on: the
handler always replies, and `Handled` lists what its reply means. The
ledger over a sequence of requests follows from that list, with one gap
that `confirm`'s guard leaves open: it settles a reservation that has
been released, where `release` settles one that is RESERVED only.
-/

namespace Ecommerce

namespace Inventory

/-- **What a reply means.** -/
inductive Handled (req : Request) (db : Tables) : Reply → Tables → Prop
  /-- The request was redelivered: it goes to the DLQ and nobody is answered. -/
  | nack (h : req.redelivered = true) : Handled req db (.nack false) db
  /-- The handler refused, or one of its statements was rejected. -/
  | declined (reason : Option String) : Handled req db (.result ⟨false, reason⟩) db
  /-- `reserve` found a reservation that was not released. -/
  | existing (row : Reservation) (hreq : req.isReserve = true)
      (h : db.reservations.lookup req.orderId = some row) (hrow : row.status ≠ .released) :
      Handled req db succeeded db
  /-- `confirm` found the reservation CONFIRMED. -/
  | confirmed (row : Reservation) (hreq : target req = .confirmed)
      (h : db.reservations.lookup req.orderId = some row) (hrow : row.status = .confirmed) :
      Handled req db succeeded db
  /-- `release` found nothing RESERVED. -/
  | nothing (hreq : req.isReserve = false) (htarget : target req = .released)
      (h : ∀ row, db.reservations.lookup req.orderId = some row → row.status ≠ .reserved) :
      Handled req db succeeded db
  /-- `reserve` committed. -/
  | reserves {db' : Tables} (hreq : req.isReserve = true)
      (h : Reserves req.orderId req.items db db') : Handled req db succeeded db'
  /-- `confirm` or `release` committed. -/
  | settles {db' : Tables} (row : Reservation) (hguard : Settleable req row.status)
      (h : Settles req.orderId (target req) row db db') : Handled req db succeeded db'

theorem target_ne_reserved (req : Request) : target req ≠ .reserved := by
  cases req <;> simp [target]

/-- The reply of an outer `catch` declines. -/
theorem Handled.failed (req : Request) (db : Tables) (err : Failure) :
    Handled req db (Inventory.failed req err) db := by
  cases req with
  | reserve o items b => cases err <;> exact .declined _
  | confirm o b => exact .declined _
  | release o b => exact .declined _

/-! ## A handler alone -/

/-- The database of a handler alone: a statement is rejected where `faults` says so. -/
def performWith (op : Op) : Session × List Bool → Except Failure (Ans op) × (Session × List Bool)
  | (s, true :: faults) => (.error (.error "statement rejected"), (s.discard, faults))
  | (s, false :: faults) => ((perform op s).1, ((perform op s).2, faults))
  | (s, []) => ((perform op s).1, ((perform op s).2, []))

/-- Handle one request to completion. -/
def serve (faults : List Bool) (req : Request) (db : Tables) : Except Failure Reply × Tables :=
  ((handler req).run performWith (⟨db, ∅⟩, faults)).map id (·.1.db)

/-- What a handler that started on `db` has done when it stands at a point. -/
def Progress (req : Request) (db : Tables) (s : Session) : Pc → Prop
  | .returned reply => Handled req db reply s.db
  | _ => s.db = db

section Progress

variable {req : Request} {db : Tables} {s : Session} {row : Reservation}

theorem progress_nextLine (h : s.db = db) (left : List ReservedItem) :
    Progress req db s (nextLine left) := by
  cases left with
  | nil => exact h
  | cons item rest =>
    rw [nextLine]
    split <;> exact h

theorem progress_nextItem (h : s.db = db) (left : List ReservedItem) :
    Progress req db s (nextItem req row left) := by
  cases left with
  | nil => exact h
  | cons item rest => cases req <;> exact h

/-- What the status read answers at once. -/
theorem progress_afterFind (h : s.db = db) :
    Progress req db s (afterFind req (db.reservations.lookup req.orderId)) := by
  cases hrow : db.reservations.lookup req.orderId with
  | none =>
    cases req with
    | reserve o items b => exact h
    | confirm o b => exact h ▸ .declined _
    | release o b => exact h ▸ .nothing rfl rfl fun r hr => by rw [h, hrow] at hr; cases hr
  | some row =>
    cases req with
    | reserve o items b =>
      change Handled _ db (.result ⟨decide (row.status ≠ .released), none⟩) s.db
      by_cases hst : row.status = .released
      · rw [h, hst]; exact .declined _
      · rw [h, decide_eq_true hst]; exact .existing row rfl hrow hst
    | confirm o b =>
      rw [afterFind]
      split
      · exact h ▸ .confirmed row rfl (h ▸ hrow) ‹_›
      · exact h
    | release o b =>
      rw [afterFind]
      split
      · refine h ▸ .nothing rfl rfl fun r hr => ?_
        rw [h, hrow, Option.some.injEq] at hr
        exact hr ▸ ‹_›
      · exact h

/-- A rejected statement is answered for by a refusal. -/
theorem progress_reject {pc : Pc} {op : Op} {next : Except Failure (Ans op) → Pc}
    (h : Progress req db s pc) (hpt : pc.point req = .wait op next) (err : Failure) :
    Progress req db s.discard (next (.error err)) := by
  cases pc with
  | returned reply => cases hpt
  | find =>
    cases hpt
    obtain rfl : s.db = db := h
    exact .failed req _ err
  | rollback cause =>
    cases hpt
    obtain rfl : s.db = db := h
    exact .failed req _ cause
  | _ => cases hpt; exact h

/-- **An answered statement keeps the account.** -/
theorem Progress.step {pc : Pc} {op : Op} {next : Except Failure (Ans op) → Pc}
    (h : Progress req db s pc) (hok : PcOk req s pc) (hpt : pc.point req = .wait op next) :
    Progress req db (perform op s).2 (next (perform op s).1) := by
  cases pc with
  | find =>
    cases hpt
    have hview : s.view = s.db := Session.view_of_empty hok
    change Progress req db s (afterFind req (s.view.reservations.lookup req.orderId))
    obtain rfl : s.db = db := h
    rw [hview]
    exact progress_afterFind rfl
  | reserveBegin => cases hpt; exact progress_nextLine h _
  | reserveFind item rest =>
    cases hpt
    change Progress req db s (afterStock item rest (s.view.stock.lookup item.productId))
    cases s.view.stock.lookup item.productId <;> exact h
  | reserveSeed item rest =>
    cases hpt
    simp only [perform]
    split <;> exact h
  | reserveUpdate item rest =>
    cases hpt
    simp only [perform]
    split
    · split
      · exact progress_nextLine h _
      · exact h
    · exact h
  | reserveInsert =>
    cases hpt
    simp only [perform]
    split <;> exact h
  | reserveCommit =>
    -- The tables only change here and at the other `COMMIT`.
    cases hpt
    obtain rfl : s.db = db := h
    exact .reserves hok.1.reserves hok.reserves
  | settleBegin row => cases hpt; exact progress_nextItem h _
  | settleAvailable row item rest =>
    cases hpt
    rw [(perform_decrement item.productId .availableQuantity item.quantity s).1]
    exact (perform_db (by simp) s).trans h
  | settleReserved row item rest =>
    cases hpt
    rw [(perform_decrement item.productId .reservedQuantity item.quantity s).1]
    exact progress_nextItem ((perform_db (by simp) s).trans h) _
  | settleLoad row =>
    cases hpt
    change Progress req db s (afterLoad req row (s.view.reservations.lookup req.orderId))
    cases s.view.reservations.lookup req.orderId with
    | none => exact h
    | some old => rw [afterLoad]; split <;> exact h
  | settleStore row =>
    cases hpt
    simp only [perform]
    split <;> exact h
  | settleInsert row => exact hok.elim
  | settleCommit row =>
    cases hpt
    obtain rfl : s.db = db := h
    exact .settles row hok.1.guarded hok.settles
  | rollback cause =>
    cases hpt
    obtain rfl : s.db = db := h
    exact .failed req _ cause
  | returned reply => cases hpt

end Progress

theorem Stored.integral {db : Tables} (h : Stored db) {o : OrderId} {row : Reservation}
    (hrow : db.reservations.lookup o = some row) : ∀ item ∈ row.items, item.quantity.isInt :=
  fun item hi => isInt_of_valid (h.valid o row hrow item hi)

/-- One statement of a handler alone, answered or rejected. -/
theorem Progress.performWith {req : Request} {db : Tables} (hst : Stored db) {pc : Pc}
    {t : Session × List Bool} {op : Op} {next : Except Failure (Ans op) → Pc}
    (hpt : pc.point req = .wait op next) (h : PcOk req t.1 pc ∧ Progress req db t.1 pc) :
    PcOk req (performWith op t).2.1 (next (performWith op t).1) ∧
      Progress req db (performWith op t).2.1 (next (performWith op t).1) := by
  obtain ⟨hok, hprog⟩ := h
  have hdb : t.1.db = db := by
    cases pc with
    | returned reply => cases hpt
    | _ => exact hprog
  have hint : ∀ r, t.1.db.reservations.lookup req.orderId = some r →
      ∀ item ∈ r.items, item.quantity.isInt := fun r hr => hst.integral (hdb ▸ hr)
  obtain ⟨s, _ | ⟨_ | _, faults⟩⟩ := t
  · exact ⟨hok.step hint hpt, hprog.step hok hpt⟩
  · exact ⟨hok.step hint hpt, hprog.step hok hpt⟩
  · exact ⟨PcOk.reject hpt _, progress_reject hprog hpt _⟩

/-- **A handler always replies, and `Handled` says what the reply means.** -/
theorem serve_handled (faults : List Bool) (req : Request) {db : Tables} (hst : Stored db) :
    ∃ reply, (serve faults req db).1 = .ok reply ∧
      Handled req db reply (serve faults req db).2 := by
  have hstart : PcOk req ⟨db, ∅⟩ req.start ∧ Progress req db ⟨db, ∅⟩ req.start := by
    rw [Request.start]
    split
    · exact ⟨rfl, .nack ‹_›⟩
    · exact ⟨rfl, rfl⟩
  obtain ⟨pc, hstop, -, hprog⟩ := (laysOut req).run_invariant performWith
    (fun pc t => PcOk req t.1 pc ∧ Progress req db t.1 pc)
    (fun pc t op next hpt h => Progress.performWith hst hpt h)
    req.start (⟨db, ∅⟩, faults) hstart
  rw [← handler_eq_code] at hstop hprog
  cases pc with
  | returned reply =>
    exact ⟨reply, (Point.stop.inj hstop).symm, hprog⟩
  | _ => cases hstop

/-! ## A settlement that meets no rejection -/

/-- Not on the way to a refusal. -/
def Steady : Pc → Prop
  | .rollback _ => False
  | .returned reply => reply = succeeded
  | _ => True

section Steady

variable {req : Request} {db db' : Tables} {row : Reservation}

theorem steady_nextItem (req : Request) (row : Reservation) (left : List ReservedItem) :
    Steady (nextItem req row left) := by
  cases left with
  | nil => trivial
  | cons item rest => cases req <;> trivial

theorem steady_afterFind (hreq : req.isReserve = false) (row : Reservation) :
    Steady (afterFind req (some row)) := by
  cases req with
  | reserve o items b => cases hreq
  | confirm o b =>
    rw [afterFind]
    split
    · rfl
    · trivial
  | release o b =>
    rw [afterFind]
    split
    · rfl
    · trivial

/-- No answered statement makes `confirm` or `release` refuse. -/
theorem Steady.step {s : Session} {pc : Pc} {op : Op} {next : Except Failure (Ans op) → Pc}
    (h : Steady pc) (hreq : req.isReserve = false) (hok : PcOk req s pc)
    (hfind : ∃ row, s.db.reservations.lookup req.orderId = some row)
    (hpt : pc.point req = .wait op next) : Steady (next (perform op s).1) := by
  have hnot : req.isReserve ≠ true := by simp [hreq]
  cases pc with
  | find =>
    cases hpt
    obtain ⟨row, hrow⟩ := hfind
    have hview : s.view = s.db := Session.view_of_empty hok
    change Steady (afterFind req (s.view.reservations.lookup req.orderId))
    rw [hview, hrow]
    exact steady_afterFind hreq row
  -- A `confirm` or `release` never comes to the points of `reserve`.
  | reserveBegin => exact absurd hok.2.1 hnot
  | reserveFind item rest => exact absurd hok.2.1.reserves hnot
  | reserveSeed item rest => exact absurd hok.2.1.reserves hnot
  | reserveUpdate item rest => exact absurd hok.2.1.reserves hnot
  | reserveInsert => exact absurd hok.1.reserves hnot
  | reserveCommit => exact absurd hok.1.reserves hnot
  | settleBegin row => cases hpt; exact steady_nextItem req _ _
  | settleAvailable row item rest =>
    cases hpt
    rw [(perform_decrement item.productId .availableQuantity item.quantity s).1]
    trivial
  | settleReserved row item rest =>
    cases hpt
    rw [(perform_decrement item.productId .reservedQuantity item.quantity s).1]
    exact steady_nextItem req _ _
  | settleLoad row =>
    cases hpt
    change Steady (afterLoad req row (s.view.reservations.lookup req.orderId))
    cases s.view.reservations.lookup req.orderId with
    | none => trivial
    | some old => rw [afterLoad]; split <;> trivial
  | settleStore row =>
    cases hpt
    simp only [perform]
    split <;> trivial
  | settleInsert row => exact hok.elim
  | settleCommit row => cases hpt; rfl
  | rollback cause => exact h.elim
  | returned reply => cases hpt

/-- **A success is a settlement**, when there was a reservation to settle. -/
theorem Handled.settled (h : Handled req db succeeded db') (hreq : req.isReserve = false)
    (hrow : db.reservations.lookup req.orderId = some row) (hguard : Settleable req row.status) :
    Settles req.orderId (target req) row db db' := by
  generalize hreply : succeeded = reply at h
  cases h with
  | nack h => cases hreply
  | declined reason => cases hreply
  | existing r hres h hr => rw [hreq] at hres; cases hres
  | confirmed r htarget h hr =>
    obtain rfl : r = row := Option.some.inj (h.symm.trans hrow)
    exact absurd (hr.trans htarget.symm) hguard.ne_target
  | nothing hres htarget h =>
    cases req with
    | reserve o items b => cases hreq
    | confirm o b => cases htarget
    | release o b => exact absurd hguard (h row hrow)
  | reserves hres h => rw [hreq] at hres; cases hres
  | settles r hg h =>
    obtain rfl : r = row := Option.some.inj (h.found.symm.trans hrow)
    exact h

/-- **A settlement nothing rejects is carried out.** -/
theorem serve_settles (req : Request) (hst : Stored db) (hreq : req.isReserve = false)
    (hred : req.redelivered = false) (hrow : db.reservations.lookup req.orderId = some row)
    (hguard : Settleable req row.status) :
    Settles req.orderId (target req) row db (serve [] req db).2 := by
  have hstart : req.start = .find := by simp [Request.start, hred]
  obtain ⟨pc, hstop, -, ⟨-, hprog⟩, hsteady⟩ := (laysOut req).run_invariant performWith
    (fun pc t => t.2 = [] ∧ (PcOk req t.1 pc ∧ Progress req db t.1 pc) ∧ Steady pc)
    (fun pc t op next hpt h => by
      obtain ⟨s, faults⟩ := t
      obtain ⟨rfl, hok, hsteady⟩ := h
      refine ⟨rfl, Progress.performWith hst hpt hok, ?_⟩
      by_cases hdb : s.db = db
      · exact hsteady.step hreq hok.1 ⟨row, by rw [hdb, hrow]⟩ hpt
      · cases pc with
        | returned reply => cases hpt
        | _ => exact absurd hok.2 hdb)
    req.start (⟨db, ∅⟩, []) ⟨rfl, ⟨by rw [hstart]; rfl, by rw [hstart]; rfl⟩, by
      rw [hstart]; trivial⟩
  rw [← handler_eq_code] at hstop hprog
  cases pc with
  | returned reply =>
    obtain rfl : reply = succeeded := hsteady
    exact Handled.settled hprog hreq hrow hguard
  | _ => cases hstop

end Steady

end Inventory

end Ecommerce
