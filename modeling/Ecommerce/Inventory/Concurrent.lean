import Ecommerce.Common.Pool
import Ecommerce.Inventory.Serial
/-!
# Handlers in parallel

`Sql` is the committed database and the handlers that run on it, each with
the uncommitted writes of its own transaction. One step is one SQL
statement of one handler, answered or rejected, or a new request. A
statement that would write a row another open transaction has written
waits until that one is over; whether it writes is decided on the rows
it reads then. `step_cases` says once what a step can do.
-/

namespace Ecommerce

namespace Inventory

/-- A running handler: its request, where it stands and what it has not committed yet. -/
structure Thread where
  req : Request
  pc : Pc
  tx : Tables

/-- The state of the database and its clients. -/
structure Sql where
  db : Tables
  threads : List Thread

/-- A step of the system. -/
inductive Label
  /-- A request is delivered to some replica. -/
  | send (req : Request)
  /-- The `i`-th handler's statement is executed and answered. -/
  | exec (i : ℕ)
  /-- The `i`-th handler's statement is rejected, which ends its transaction. -/
  | abort (i : ℕ) (message : String)

/-- A row that can be locked. -/
inductive RowKey
  | stock (productId : ProductId)
  | reservation (orderId : OrderId)
deriving DecidableEq

/-- Whether a transaction has written a row. -/
def Tables.holds (tx : Tables) : RowKey → Bool
  | .stock p => (tx.stock.lookup p).isSome
  | .reservation o => (tx.reservations.lookup o).isSome

/-- The row a statement writes on the rows it reads, if it writes one. -/
def Op.writes (s : Session) : Op → Option RowKey
  | .insertStock p _ => if (s.view.stock.lookup p).isSome then none else some (.stock p)
  | .increaseReserved p q =>
    match s.view.stock.lookup p with
    | some row => if q ≤ row.availableQuantity - row.reservedQuantity then some (.stock p) else none
    | none => none
  | .decrement p _ _ => if (s.view.stock.lookup p).isSome then some (.stock p) else none
  | .insertReservation o _ =>
    if (s.view.reservations.lookup o).isSome then none else some (.reservation o)
  | .updateStatus o _ =>
    if (s.view.reservations.lookup o).isSome then some (.reservation o) else none
  | _ => none

namespace Sql

/-- Whether a transaction other than the `i`-th handler's has written the row. -/
def locked (s : Sql) (i : ℕ) (key : Option RowKey) : Bool :=
  key.any fun k => (s.threads.eraseIdx i).any fun u => u.tx.holds k

/-- The state once the `i`-th handler has moved on. -/
def put (s : Sql) (i : ℕ) (req : Request) (session : Session) (pc : Pc) : Sql :=
  ⟨session.db, s.threads.set i ⟨req, pc, session.tx⟩⟩

/-- The `i`-th handler's statement is executed, unless it has to wait. -/
def exec (s : Sql) (i : ℕ) (t : Thread) : Option Sql :=
  match t.pc.point t.req with
  | .stop _ => none
  | .wait op next =>
    if s.locked i (op.writes ⟨s.db, t.tx⟩) then none
    else some (s.put i t.req (perform op ⟨s.db, t.tx⟩).2 (next (perform op ⟨s.db, t.tx⟩).1))

/-- The `i`-th handler's statement is rejected. -/
def abort (s : Sql) (i : ℕ) (t : Thread) (message : String) : Option Sql :=
  match t.pc.point t.req with
  | .stop _ => none
  | .wait _ next => some (s.put i t.req ⟨s.db, ∅⟩ (next (.error (.error message))))

/-- A step. -/
def step (s : Sql) : Label → Option Sql
  | .send req => some { s with threads := s.threads ++ [⟨req, req.start, ∅⟩] }
  | .exec i => s.threads[i]?.bind fun t => s.exec i t
  | .abort i message => s.threads[i]?.bind fun t => s.abort i t message

/-- **What a step can do.** -/
theorem step_cases {s s' : Sql} {l : Label} (h : s.step l = some s') :
    (∃ req, l = .send req ∧ s' = ⟨s.db, s.threads ++ [⟨req, req.start, ∅⟩]⟩) ∨
    (∃ i t op next, l = .exec i ∧ s.threads[i]? = some t ∧ t.pc.point t.req = .wait op next ∧
      s.locked i (op.writes ⟨s.db, t.tx⟩) = false ∧
      s' = s.put i t.req (perform op ⟨s.db, t.tx⟩).2 (next (perform op ⟨s.db, t.tx⟩).1)) ∨
    (∃ i t op next message, l = .abort i message ∧ s.threads[i]? = some t ∧
      t.pc.point t.req = .wait op next ∧
      s' = s.put i t.req ⟨s.db, ∅⟩ (next (.error (.error message)))) := by
  cases l with
  | send req => exact .inl ⟨req, rfl, (Option.some.inj h).symm⟩
  | exec i =>
    obtain ⟨t, ht, hrun⟩ := Option.bind_eq_some_iff.mp h
    simp only [exec] at hrun
    split at hrun
    · cases hrun
    · rename_i op next hpt
      split at hrun
      · cases hrun
      · rename_i hfree
        exact .inr (.inl ⟨i, t, op, next, rfl, ht, hpt, Bool.not_eq_true _ ▸ hfree,
          (Option.some.inj hrun).symm⟩)
  | abort i message =>
    obtain ⟨t, ht, hrun⟩ := Option.bind_eq_some_iff.mp h
    simp only [abort] at hrun
    split at hrun
    · cases hrun
    · rename_i op next hpt
      exact .inr (.inr ⟨i, t, op, next, message, rfl, ht, hpt, (Option.some.inj hrun).symm⟩)

section Put

variable {s : Sql} {i j : ℕ} {t u : Thread} {req : Request} {session : Session} {pc : Pc}

/-- The handlers after one has moved on. -/
theorem put_threads (h : (s.put i req session pc).threads[j]? = some u) :
    j = i ∧ u = ⟨req, pc, session.tx⟩ ∨ j ≠ i ∧ s.threads[j]? = some u :=
  getElem?_set_cases h

theorem put_other (hj : j ≠ i) (h : s.threads[j]? = some u) :
    (s.put i req session pc).threads[j]? = some u := getElem?_set_other hj h

theorem put_self (h : s.threads[i]? = some t) :
    (s.put i req session pc).threads[i]? = some ⟨req, pc, session.tx⟩ := getElem?_set_own h

/-- A row that is not locked is in no other transaction. -/
theorem not_holds_of_unlocked {k : RowKey} (h : s.locked i (some k) = false) (hj : j ≠ i)
    (hu : s.threads[j]? = some u) : u.tx.holds k = false := by
  rw [locked, Option.any_some, List.any_eq_false] at h
  simpa using h u (mem_eraseIdx_of_ne hj hu)

end Put

end Sql

/-! ## What a statement leaves alone -/

section Perform

variable {op : Op} {s : Session} {p : ProductId} {o : OrderId}

theorem mem_tx_of_writeStock {q : ProductId} {row : StockItem}
    (h : p ∈ (s.writeStock q row).tx.stock) : p ∈ s.tx.stock ∨ p = q := by
  rw [Session.writeStock, Finmap.mem_insert] at h
  exact h.symm

/-- **A statement writes the row it locks and no other.** -/
theorem mem_tx_of_perform (h : p ∈ (perform op s).2.tx.stock) :
    p ∈ s.tx.stock ∨ op.writes s = some (.stock p) := by
  cases op with
  | insertStock q row =>
    simp only [perform] at h
    cases hrow : s.view.stock.lookup q with
    | some r => rw [hrow] at h; cases h
    | none =>
      rw [hrow] at h
      refine (mem_tx_of_writeStock h).imp id fun hp => ?_
      rw [Op.writes, hrow, hp]
      rfl
  | increaseReserved q n =>
    simp only [perform] at h
    cases hrow : s.view.stock.lookup q with
    | none => rw [hrow] at h; exact .inl h
    | some r =>
      simp only [hrow] at h
      split at h
      · rename_i hfits
        refine (mem_tx_of_writeStock h).imp id fun hp => ?_
        simp only [Op.writes, hrow, if_pos hfits, hp]
      · exact .inl h
  | decrement q c v =>
    simp only [perform] at h
    cases hrow : s.view.stock.lookup q with
    | none => rw [hrow] at h; exact .inl h
    | some r =>
      rw [hrow] at h
      refine (mem_tx_of_writeStock h).imp id fun hp => ?_
      rw [Op.writes, hrow, hp]
      rfl
  | insertReservation o row =>
    simp only [perform] at h
    split at h
    · cases h
    · exact .inl h
  | updateStatus o st =>
    simp only [perform] at h
    split at h <;> exact .inl h
  | findReservation o => exact .inl h
  | findStock q => exact .inl h
  | loadReservation o => exact .inl h
  | begin => cases h
  | commit => cases h
  | rollback => cases h

/-- The same of the reservations. -/
theorem mem_reservations_of_perform (h : o ∈ (perform op s).2.tx.reservations) :
    o ∈ s.tx.reservations ∨ op.writes s = some (.reservation o) := by
  cases op with
  | insertReservation q row =>
    simp only [perform] at h
    cases hrow : s.view.reservations.lookup q with
    | some r => rw [hrow] at h; cases h
    | none =>
      rw [hrow] at h
      refine (Finmap.mem_insert.mp h).symm.imp id fun hq => ?_
      rw [Op.writes, hrow, hq]
      rfl
  | updateStatus q st =>
    simp only [perform] at h
    cases hrow : s.view.reservations.lookup q with
    | none => rw [hrow] at h; exact .inl h
    | some r =>
      rw [hrow] at h
      refine (Finmap.mem_insert.mp h).symm.imp id fun hq => ?_
      rw [Op.writes, hrow, hq]
      rfl
  | insertStock q row =>
    simp only [perform] at h
    split at h
    · cases h
    · exact .inl h
  | increaseReserved q n =>
    simp only [perform] at h
    split at h
    · split at h <;> exact .inl h
    · exact .inl h
  | decrement q c v =>
    simp only [perform] at h
    split at h <;> exact .inl h
  | findReservation q => exact .inl h
  | findStock q => exact .inl h
  | loadReservation q => exact .inl h
  | begin => cases h
  | commit => cases h
  | rollback => cases h

/-- A row a statement leaves written was written before, or is the one it has locked. -/
theorem holds_of_perform {k : RowKey} (h : (perform op s).2.tx.holds k = true) :
    s.tx.holds k = true ∨ op.writes s = some k := by
  cases k with
  | stock p =>
    refine (mem_tx_of_perform (Finmap.lookup_isSome.mp h)).imp (fun hmem => ?_) id
    exact Finmap.lookup_isSome.mpr hmem
  | reservation o =>
    refine (mem_reservations_of_perform (Finmap.lookup_isSome.mp h)).imp (fun hmem => ?_) id
    exact Finmap.lookup_isSome.mpr hmem

/-- A stock row the transaction has not written is not changed by its commit. -/
theorem perform_stock (h : p ∉ s.tx.stock) :
    (perform op s).2.db.stock.lookup p = s.db.stock.lookup p := by
  by_cases hop : op = .commit
  · subst hop
    exact Finmap.lookup_union_right h
  · rw [perform_db hop]

/-- Nor is a reservation. -/
theorem perform_reservations (h : o ∉ s.tx.reservations) :
    (perform op s).2.db.reservations.lookup o = s.db.reservations.lookup o := by
  by_cases hop : op = .commit
  · subst hop
    exact Finmap.lookup_union_right h
  · rw [perform_db hop]

/-- No statement takes a stock row away. -/
theorem mem_stock_of_perform (h : p ∈ s.db.stock) : p ∈ (perform op s).2.db.stock := by
  by_cases hop : op = .commit
  · subst hop
    exact mem_view_stock h
  · rwa [perform_db hop]

end Perform

end Inventory

end Ecommerce
