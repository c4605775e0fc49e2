import Ecommerce.Common.Machine
import Ecommerce.Inventory.Concurrent
/-!
# No oversell, no lost update

Any number of orders reserve at once and, once reserved, are confirmed or
released, with handlers interleaved statement by statement and statements
rejected at will. The committed tables are a ledger throughout. `Sound`
is the invariant: every handler is where `PcOk` says, on rows no other
transaction has written, and an order has one handler of each kind, the
second only once the first has answered.
-/

namespace Ecommerce

namespace Inventory

/-- Whether a handler has answered `success: true`. -/
def Pc.succeeded : Pc → Bool
  | .returned (.result r) => r.success
  | _ => false

theorem Pc.returned_of_succeeded {pc : Pc} (h : pc.succeeded = true) :
    ∃ reply, pc = .returned reply := by
  cases pc with
  | returned reply => exact ⟨reply, rfl⟩
  | _ => cases h

/-- **The traffic of the saga.** An order is reserved once, and settled at most
once, after its `reserve` was answered with success. -/
def Traffic (s : Sql) : Label → Prop
  | .send req =>
    if req.isReserve then ∀ t ∈ s.threads, t.req.isReserve = true → t.req.orderId ≠ req.orderId
    else
      (∃ t ∈ s.threads, t.req.isReserve = true ∧ t.req.orderId = req.orderId ∧
        t.pc.succeeded = true) ∧
      ∀ t ∈ s.threads, t.req.isReserve = false → t.req.orderId ≠ req.orderId
  | _ => True

/-- Whether a handler of the order, a `reserve` or not, has returned. -/
def Sql.Returned (s : Sql) (o : OrderId) (isReserve : Bool) : Prop :=
  ∃ (i : ℕ) (t : Thread) (reply : Reply), s.threads[i]? = some t ∧ t.req.isReserve = isReserve ∧
    t.req.orderId = o ∧ t.pc = .returned reply

/-- **The invariant of the interleaving.** -/
structure Sound (base : ProductId → ℤ) (s : Sql) : Prop where
  ledger : Ledger base s.db
  stored : Stored s.db
  seeded : Seeded base s.db
  points : ∀ (i : ℕ) (t : Thread), s.threads[i]? = some t → PcOk t.req ⟨s.db, t.tx⟩ t.pc
  apart : ∀ (i j : ℕ) (t u : Thread) p, i ≠ j → s.threads[i]? = some t → s.threads[j]? = some u →
    p ∈ t.tx.stock → p ∉ u.tx.stock
  once : ∀ (i j : ℕ) (t u : Thread), s.threads[i]? = some t → s.threads[j]? = some u →
    t.req.orderId = u.req.orderId → t.req.isReserve = u.req.isReserve → i = j
  after : ∀ (i : ℕ) (t : Thread), s.threads[i]? = some t → t.req.isReserve = false →
    s.Returned t.req.orderId true
  unsettled : ∀ o row, s.db.reservations.lookup o = some row → row.status = .reserved ∨
    s.Returned o false

variable {base : ProductId → ℤ} {s s' : Sql}

/-- How a statement of a handler changes the committed tables. -/
inductive Commits (req : Request) (db : Tables) : Tables → Pc → Prop
  | nothing (pc : Pc) : Commits req db db pc
  | reserves {db' : Tables} (hreq : req.isReserve = true)
      (h : Reserves req.orderId req.items db db') (reply : Reply) :
      Commits req db db' (.returned reply)
  | settles {db' : Tables} (row : Reservation) (hreq : req.isReserve = false)
      (h : Settles req.orderId (target req) row db db') (reply : Reply) :
      Commits req db db' (.returned reply)

theorem isReserve_of_settleable {req : Request} {status : ReservationStatus}
    (h : Settleable req status) : req.isReserve = false := by
  cases req with
  | reserve o items b => exact h.elim
  | _ => rfl

/-- What a reply means for the committed tables. -/
theorem Handled.commits {req : Request} {db db' : Tables} {reply : Reply}
    (h : Handled req db reply db') : Commits req db db' (.returned reply) := by
  cases h with
  | reserves hreq h => exact .reserves hreq h _
  | settles row hguard h => exact .settles row (isReserve_of_settleable hguard) h _
  | _ => exact .nothing _

theorem Progress.commits {req : Request} {db : Tables} {session : Session} {pc : Pc}
    (h : Progress req db session pc) : Commits req db session.db pc := by
  cases pc with
  | returned reply => exact Handled.commits h
  | _ =>
    obtain rfl : session.db = db := h
    exact .nothing _

theorem progress_start {req : Request} {db : Tables} (tx : Tables) {pc : Pc}
    (h : ∀ reply, pc ≠ .returned reply) : Progress req db ⟨db, tx⟩ pc := by
  cases pc with
  | returned reply => exact absurd rfl (h reply)
  | _ => rfl

namespace Sound

/-- While an order's handler is at work no other handler of the order is. -/
theorem alone (h : Sound base s) {i j : ℕ} {t u : Thread} (hi : s.threads[i]? = some t)
    (hwait : ∀ reply, t.pc ≠ .returned reply) (hj : s.threads[j]? = some u) (hne : j ≠ i)
    (horder : u.req.orderId = t.req.orderId) :
    t.req.isReserve = false ∧ ∃ reply, u.pc = .returned reply := by
  cases ht : t.req.isReserve with
  | true =>
    -- the other one settles, so the `reserve` of the order has returned, and that is `t`
    have hu : u.req.isReserve = false := by
      by_contra hcon
      exact hne (h.once j i u t hj hi horder (by rw [ht]; simpa using hcon))
    obtain ⟨k, v, reply, hk, hv, hvo, hpc⟩ := h.after j u hj hu
    obtain rfl := h.once k i v t hk hi (hvo.trans horder) (hv.trans ht.symm)
    rw [hi, Option.some.injEq] at hk
    exact absurd (hk ▸ hpc) (hwait reply)
  | false =>
    refine ⟨rfl, ?_⟩
    have hu : u.req.isReserve = true := by
      by_contra hcon
      exact hne (h.once j i u t hj hi horder (by rw [ht]; simpa using hcon))
    obtain ⟨k, v, reply, hk, hv, hvo, hpc⟩ := h.after i t hi ht
    obtain rfl := h.once k j v u hk hj (hvo.trans horder.symm) (hv.trans hu.symm)
    rw [hj, Option.some.injEq] at hk
    exact ⟨reply, hk ▸ hpc⟩

/-- A handler that has returned is not the one that moves on. -/
theorem returned_put {i : ℕ} {t : Thread} (hi : s.threads[i]? = some t)
    (hwait : ∀ reply, t.pc ≠ .returned reply) {o : OrderId} {isReserve : Bool}
    {session : Session} {pc : Pc} (h : s.Returned o isReserve) :
    (s.put i t.req session pc).Returned o isReserve := by
  obtain ⟨j, u, reply, hj, hu, huo, hpc⟩ := h
  have hji : j ≠ i := by
    rintro rfl
    rw [hi, Option.some.injEq] at hj
    exact hwait reply (hj ▸ hpc)
  exact ⟨j, u, reply, Sql.put_other hji hj, hu, huo, hpc⟩

/-- A settlement at work meets a RESERVED reservation. -/
theorem reserved (h : Sound base s) {i : ℕ} {t : Thread} (hi : s.threads[i]? = some t)
    (hwait : ∀ reply, t.pc ≠ .returned reply) (hreq : t.req.isReserve = false) {row : Reservation}
    (hrow : s.db.reservations.lookup t.req.orderId = some row) : row.status = .reserved := by
  refine (h.unsettled _ row hrow).resolve_right ?_
  rintro ⟨j, u, reply, hj, hu, huo, hpc⟩
  obtain rfl := h.once j i u t hj hi huo (hu.trans hreq.symm)
  rw [hi, Option.some.injEq] at hj
  exact hwait reply (hj ▸ hpc)

/-- **One handler moves on.** Whatever it commits, the ledger and the other
handlers are undisturbed. -/
theorem put (h : Sound base s) {i : ℕ} {t : Thread} (hi : s.threads[i]? = some t)
    (hwait : ∀ reply, t.pc ≠ .returned reply) {session : Session} {pc : Pc}
    (hown : PcOk t.req session pc)
    (hlocks : ∀ p, p ∈ session.tx.stock →
      p ∈ t.tx.stock ∨ ∀ j u, j ≠ i → s.threads[j]? = some u → p ∉ u.tx.stock)
    (hstock : ∀ p, p ∉ t.tx.stock → session.db.stock.lookup p = s.db.stock.lookup p)
    (hcommit : Commits t.req s.db session.db pc) : Sound base (s.put i t.req session pc) := by
  have hreserved : t.req.isReserve = false → ∀ row,
      s.db.reservations.lookup t.req.orderId = some row → row.status = .reserved :=
    fun hreq row hrow => h.reserved hi hwait hreq hrow
  -- what the commit does to the tables
  obtain ⟨hled, hst, hgrow, hres⟩ : Ledger base session.db ∧ Stored session.db ∧
      (∀ p, p ∈ s.db.stock → p ∈ session.db.stock) ∧
      (∀ o, o ≠ t.req.orderId →
        session.db.reservations.lookup o = s.db.reservations.lookup o) := by
    generalize session.db = db' at hcommit
    cases hcommit with
    | nothing => exact ⟨h.ledger, h.stored, fun _ hp => hp, fun _ _ => rfl⟩
    | reserves hreq hc =>
      exact ⟨hc.ledger h.stored h.seeded h.ledger, hc.stored h.stored, hc.grows, fun o ho => by
        rw [hc.reservations, Finmap.lookup_insert_of_ne _ ho]⟩
    | settles row hreq hc =>
      exact ⟨hc.ledger (.inl (hreserved hreq row hc.found)) (target_ne_reserved _) h.stored h.seeded
        h.ledger, hc.stored h.stored, hc.grows, fun o ho => by
        rw [hc.reservations, Finmap.lookup_insert_of_ne _ ho]⟩
  refine ⟨hled, hst, h.seeded.mono hgrow, fun j u hj => ?_, fun j k u v p hjk hj hk hp => ?_,
    fun j k u v hj hk horder hkind => ?_, fun j u hj hu => ?_, fun o row hrow => ?_⟩
  · -- points
    obtain ⟨rfl, rfl⟩ | ⟨hne, hj'⟩ := Sql.put_threads hj
    · exact hown
    have hok := h.points j u hj'
    by_cases horder : u.req.orderId = t.req.orderId
    · obtain ⟨-, reply, hpc⟩ := h.alone hi hwait hj' hne horder
      rw [hpc] at hok ⊢
      exact hok
    · exact hok.frame (fun row hrow => h.stored.stocked _ row hrow)
        (fun p hp => hstock p fun hpt => h.apart i j t u p (Ne.symm hne) hi hj' hpt hp) hgrow
        (hres _ horder)
  · -- apart
    obtain ⟨rfl, rfl⟩ | ⟨hji, hj'⟩ := Sql.put_threads hj
    · obtain ⟨hkj, -⟩ | ⟨hkj, hk'⟩ := Sql.put_threads hk
      · exact absurd hkj.symm hjk
      · rcases hlocks p hp with hpt | hfree
        · exact h.apart j k t v p hjk hi hk' hpt
        · exact hfree k v hkj hk'
    · obtain ⟨rfl, rfl⟩ | ⟨hki, hk'⟩ := Sql.put_threads hk
      · intro hpk
        rcases hlocks p hpk with hpt | hfree
        · exact h.apart k j t u p (Ne.symm hjk) hi hj' hpt hp
        · exact hfree j u hji hj' hp
      · exact h.apart j k u v p hjk hj' hk' hp
  · -- once
    obtain ⟨rfl, rfl⟩ | ⟨hji, hj'⟩ := Sql.put_threads hj
    · obtain ⟨rfl, -⟩ | ⟨-, hk'⟩ := Sql.put_threads hk
      · rfl
      · exact h.once j k t v hi hk' horder hkind
    · obtain ⟨rfl, rfl⟩ | ⟨-, hk'⟩ := Sql.put_threads hk
      · exact h.once j k u t hj' hi horder hkind
      · exact h.once j k u v hj' hk' horder hkind
  · -- after
    refine returned_put hi hwait ?_
    obtain ⟨rfl, rfl⟩ | ⟨hji, hj'⟩ := Sql.put_threads hj
    · exact h.after j t hi hu
    · exact h.after j u hj' hu
  · -- unsettled
    have hold : s.db.reservations.lookup o = some row → row.status = .reserved ∨
        (s.put i t.req session pc).Returned o false := fun hrow =>
      (h.unsettled o row hrow).imp id (returned_put hi hwait)
    change session.db.reservations.lookup o = some row at hrow
    by_cases ho : o = t.req.orderId
    · generalize hdb' : session.db = db' at hcommit
      cases hcommit with
      | nothing => exact hold (hdb' ▸ hrow)
      | reserves hreq hc reply =>
        rw [hdb', hc.reservations, ho, Finmap.lookup_insert, Option.some.injEq] at hrow
        exact .inl (hrow ▸ rfl)
      | settles r hreq hc reply =>
        exact .inr ⟨i, _, reply, Sql.put_self hi, hreq, ho.symm, rfl⟩
    · exact hold ((hres o ho).symm.trans hrow)

/-- A new request is about an order that is ready for it. -/
theorem send (h : Sound base s) {req : Request} (hg : Traffic s (.send req)) :
    Sound base ⟨s.db, s.threads ++ [⟨req, req.start, ∅⟩]⟩ := by
  have hreturned : ∀ {o : OrderId} {isReserve : Bool}, s.Returned o isReserve →
      Sql.Returned ⟨s.db, s.threads ++ [⟨req, req.start, ∅⟩]⟩ o isReserve := by
    rintro o isReserve ⟨j, u, reply, hj, hu⟩
    exact ⟨j, u, reply, getElem?_append_old hj, hu⟩
  have hnew : ∀ u ∈ s.threads, u.req.orderId = req.orderId →
      u.req.isReserve ≠ req.isReserve := fun u hu horder hkind => by
    simp only [Traffic] at hg
    split at hg
    · exact hg u hu (hkind.trans ‹_›) horder
    · rename_i hreq
      exact hg.2 u hu (hkind.trans (Bool.not_eq_true _ ▸ hreq)) horder
  refine ⟨h.ledger, h.stored, h.seeded, fun j u hj => ?_, fun j k u v p hjk hj hk hp => ?_,
    fun j k u v hj hk horder hkind => ?_, fun j u hj hu => ?_, fun o row hrow => ?_⟩
  · rcases getElem?_append_singleton hj with hj | ⟨-, rfl⟩
    · exact h.points j u hj
    · change PcOk req ⟨s.db, ∅⟩ req.start
      rw [Request.start]
      split <;> rfl
  · rcases getElem?_append_singleton hj with hj | ⟨-, rfl⟩
    · rcases getElem?_append_singleton hk with hk | ⟨-, rfl⟩
      · exact h.apart j k u v p hjk hj hk hp
      · exact Finmap.notMem_empty
    · exact absurd hp Finmap.notMem_empty
  · rcases getElem?_append_singleton hj with hj | ⟨rfl, rfl⟩
    · rcases getElem?_append_singleton hk with hk | ⟨rfl, rfl⟩
      · exact h.once j k u v hj hk horder hkind
      · exact absurd hkind (hnew u (List.mem_of_getElem? hj) horder)
    · rcases getElem?_append_singleton hk with hk | ⟨rfl, rfl⟩
      · exact absurd hkind.symm (hnew v (List.mem_of_getElem? hk) horder.symm)
      · rfl
  · rcases getElem?_append_singleton hj with hj | ⟨rfl, rfl⟩
    · exact hreturned (h.after j u hj hu)
    · simp only [Traffic] at hg
      rw [if_neg (by simpa using hu)] at hg
      obtain ⟨⟨v, hv, hvr, hvo, hpc⟩, -⟩ := hg
      obtain ⟨k, hk⟩ := List.mem_iff_getElem?.mp hv
      obtain ⟨reply, hreply⟩ := Pc.returned_of_succeeded hpc
      exact ⟨k, v, reply, getElem?_append_old hk, hvr, hvo, hreply⟩
  · exact (h.unsettled o row hrow).imp id hreturned

/-- **Every step of the interleaving keeps the invariant.** -/
theorem step (h : Sound base s) {l : Label} (hg : Traffic s l) (hs : s.step l = some s') :
    Sound base s' := by
  obtain ⟨req, rfl, rfl⟩ | ⟨i, t, op, next, rfl, hi, hpt, hfree, rfl⟩ |
    ⟨i, t, op, next, message, rfl, hi, hpt, rfl⟩ := Sql.step_cases hs
  · exact h.send hg
  · have hok := h.points i t hi
    have hwait := not_returned_of_wait hpt
    refine h.put hi hwait (hok.step (fun r hr => h.stored.integral hr) hpt) (fun p hp => ?_)
      (fun p hp => perform_stock hp) ((progress_start t.tx hwait).step hok hpt).commits
    refine (mem_tx_of_perform hp).imp id fun hlock j u hj hu hpu => ?_
    rw [hlock] at hfree
    have := Sql.not_holds_of_unlocked hfree hj hu
    rw [Tables.holds, Option.isSome_eq_false_iff, Option.isNone_iff_eq_none] at this
    exact Finmap.lookup_eq_none.mp this hpu
  · have hwait := not_returned_of_wait hpt
    exact h.put hi hwait (PcOk.reject (s := ⟨s.db, t.tx⟩) hpt _)
      (fun p hp => absurd hp Finmap.notMem_empty) (fun p _ => rfl)
      (progress_reject (progress_start t.tx hwait) hpt _).commits

end Sound

/-- The stock a deployment starts from: nothing is held, and nothing is reserved. -/
structure Fresh (db : Tables) : Prop where
  reservations : db.reservations = ∅
  unreserved : ∀ p row, db.stock.lookup p = some row → row.reservedQuantity = 0
  nonneg : ∀ p row, db.stock.lookup p = some row → 0 ≤ row.availableQuantity

/-- The units a product starts with: its own, or the seeded ones. -/
def startQuantity (db : Tables) (p : ProductId) : ℤ := (rowOf db.stock p).availableQuantity

theorem Fresh.sound {db : Tables} (h : Fresh db) : Sound (startQuantity db) ⟨db, []⟩ where
  ledger := .of_unreserved h.reservations fun p row hrow =>
    ⟨h.unreserved p row hrow, h.nonneg p row hrow, by rw [startQuantity, rowOf_of_lookup hrow]⟩
  stored := .of_unreserved h.reservations
  seeded p hp := by rw [startQuantity, rowOf_of_none hp]
  points i t hi := by cases hi
  apart i j t u p _ hi := by cases hi
  once i j t u hi := by cases hi
  after i t hi := by cases hi
  unsettled o row hrow := by rw [h.reservations] at hrow; cases hrow

/-- **No oversell and no lost update.** Every committed state is the ledger of its
reservations. -/
theorem ledger_of_reach {db : Tables} (hfresh : Fresh db)
    (h : Reach Sql.step (· = ⟨db, []⟩) Traffic s) : Ledger (startQuantity db) s.db :=
  (h.invariant_from hfresh.sound fun _ _ _ hinv hg hs => hinv.step hg hs).ledger

instance (s : Sql) : (l : Label) → Decidable (Traffic s l)
  | .send req => inferInstanceAs (Decidable (if req.isReserve then
      ∀ t ∈ s.threads, t.req.isReserve = true → t.req.orderId ≠ req.orderId
    else
      (∃ t ∈ s.threads, t.req.isReserve = true ∧ t.req.orderId = req.orderId ∧
        t.pc.succeeded = true) ∧
      ∀ t ∈ s.threads, t.req.isReserve = false → t.req.orderId ≠ req.orderId))
  | .exec _ => inferInstanceAs (Decidable True)
  | .abort _ _ => inferInstanceAs (Decidable True)

/-- One unit of `"p"` is left. -/
def oneLeft : Tables := ⟨Finmap.insert "p" ⟨1, 0⟩ ∅, ∅⟩

theorem oneLeft_lookup {p : ProductId} {row : StockItem} (h : oneLeft.stock.lookup p = some row) :
    row = ⟨1, 0⟩ := by
  obtain ⟨-, rfl⟩ | ⟨-, h⟩ := Table.lookup_insert_cases h
  · rfl
  · rw [Finmap.lookup_empty] at h
    cases h

theorem oneLeft_fresh : Fresh oneLeft where
  reservations := rfl
  unreserved _ row h := by rw [oneLeft_lookup h]
  nonneg _ row h := by rw [oneLeft_lookup h]; decide

/-- Two orders race for the last unit, the one that got it is confirmed while the
other is refused: the unit is gone, nothing is held and the ledger stands. -/
theorem ledger_after_race :
    ∃ s, Reach Sql.step (· = ⟨oneLeft, []⟩) Traffic s ∧
      s.db.stock.lookup "p" = some ⟨0, 0⟩ ∧ s.threads.length = 3 ∧
      Ledger (startQuantity oneLeft) s.db := by
  obtain ⟨s, hreach, hs⟩ := Reach.exists_of_follow Sql.step (· = ⟨oneLeft, []⟩) Traffic rfl
    ([.send (.reserve "a" [⟨"p", 1⟩] false), .send (.reserve "b" [⟨"p", 1⟩] false),
      .exec 0, .exec 1, .exec 0, .exec 1, .exec 0, .exec 1, .exec 0, .exec 0, .exec 0,
      .exec 1, .exec 1, .send (.confirm "a" false)] ++ List.replicate 7 (.exec 2))
    (fun s => s.db.stock.lookup "p" = some ⟨0, 0⟩ && s.threads.length = 3) (by decide +kernel)
  simp only [Bool.and_eq_true, decide_eq_true_eq] at hs
  exact ⟨s, hreach, hs.1, hs.2, ledger_of_reach oneLeft_fresh hreach⟩

end Inventory

end Ecommerce
