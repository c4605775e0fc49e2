import Ecommerce.Inventory.Oversell
/-!
# One reservation, several settlements

Handlers of `confirm` and `release` run in parallel on one RESERVED
reservation. The status they check is read before their transaction and
nothing in the transaction checks it again, so two handlers that have both
read RESERVED both settle. As long as no handler reads the status while
another is between its own read and its commit, and no `confirm` reads
RELEASED, the items are settled exactly once.
-/

namespace Ecommerce

namespace Inventory

/-- Between the status read and the reply. -/
def Pc.inFlight : Pc → Bool
  | .find => false
  | .returned _ => false
  | _ => true

/-- Any number of `confirm` and `release` requests of one order; no statement is rejected. -/
def SettlementRequests (o : OrderId) (_ : Sql) : Label → Prop
  | .send req => req.orderId = o ∧ req.isReserve = false ∧ req.redelivered = false
  | .exec _ => True
  | .abort _ _ => False

/-- The condition on a status read: no other handler is in flight, and a `confirm`
does not read RELEASED. -/
def ReadsAlone (s : Sql) : Label → Prop
  | .exec i => ∀ t ∈ s.threads[i]?, t.pc = .find →
      (∀ u ∈ s.threads.eraseIdx i, u.pc.inFlight = false) ∧
      (target t.req = .confirmed → ∀ row ∈ s.db.reservations.lookup t.req.orderId,
        row.status ≠ .released)
  | _ => True

/-- **Settled exactly once**: the reservation is CONFIRMED and its units have left
both columns, or it is RELEASED and they have left `reservedQuantity`. -/
def SettledOnce (o : OrderId) (row : Reservation) (db db' : Tables) : Prop :=
  ∃ status, (status = .confirmed ∨ status = .released) ∧
    db'.reservations.lookup o = some ⟨row.items, status⟩ ∧
    ∀ p r, db.stock.lookup p = some r → ∃ r', db'.stock.lookup p = some r' ∧
      (r'.availableQuantity : ℚ) =
        r.availableQuantity - (if status = .confirmed then lineTotal row.items p else 0) ∧
      (r'.reservedQuantity : ℚ) = r.reservedQuantity - lineTotal row.items p

theorem Settles.settledOnce {o : OrderId} {row : Reservation} {status : ReservationStatus}
    {db db' : Tables} (h : Settles o status row db db')
    (hstatus : status = .confirmed ∨ status = .released) : SettledOnce o row db db' := by
  refine ⟨status, hstatus, by rw [h.reservations, Finmap.lookup_insert], fun p r hr => ?_⟩
  obtain ⟨r', hr'⟩ := Finmap.mem_iff.mp (h.grows p (Finmap.mem_of_lookup_eq_some hr))
  refine ⟨r', hr', ?_, ?_⟩
  · rw [h.available p r' hr', rowOf_of_lookup hr]
  · rw [h.reserved p r' hr', rowOf_of_lookup hr]

/-- A reservation that is RESERVED, with lines `reserve` accepts. -/
structure Held (db : Tables) (o : OrderId) (row : Reservation) : Prop where
  found : db.reservations.lookup o = some row
  reserved : row.status = .reserved
  integral : ∀ item ∈ row.items, item.quantity.isInt

/-- Whether the reservation has been settled, and what that excludes. -/
inductive Phase (db : Tables) (o : OrderId) (row : Reservation) (s : Sql) : Prop
  /-- Nothing is committed, nobody has returned. -/
  | held (hdb : s.db = db)
      (h : ∀ t ∈ s.threads, Steady t.pc ∧ t.pc.isReturned = false)
  /-- One handler has committed, nobody is in flight. -/
  | settled (status : ReservationStatus) (hstatus : status = .confirmed ∨ status = .released)
      (h : Settles o status row db s.db) (hidle : ∀ t ∈ s.threads, t.pc.inFlight = false)

/-- **The invariant of the settlement.** -/
structure Settlement (db : Tables) (o : OrderId) (row : Reservation) (s : Sql) : Prop where
  requests : ∀ t ∈ s.threads, t.req.orderId = o ∧ t.req.isReserve = false
  points : ∀ (i : ℕ) (t : Thread), s.threads[i]? = some t → PcOk t.req ⟨s.db, t.tx⟩ t.pc
  single : ∀ (i j : ℕ) (t u : Thread), s.threads[i]? = some t → s.threads[j]? = some u →
    t.pc.inFlight = true → u.pc.inFlight = true → i = j
  phase : Phase db o row s

variable {db : Tables} {o : OrderId} {row : Reservation} {s s' : Sql}

/-- A handler that is not in flight has written nothing. -/
theorem PcOk.idle {req : Request} {session : Session} {pc : Pc} (h : PcOk req session pc)
    (hpc : pc.inFlight = false) : session.tx = ∅ := by
  cases pc with
  | find => exact h
  | returned reply => exact h
  | _ => cases hpc

theorem PcOk.of_idle {req : Request} {session : Session} {pc : Pc} (h : session.tx = ∅)
    (hpc : pc.inFlight = false) : PcOk req session pc := by
  cases pc with
  | find => exact h
  | returned reply => exact h
  | _ => cases hpc

theorem inFlight_or_find {pc : Pc} (h : ∀ reply, pc ≠ .returned reply) :
    pc.inFlight = true ∨ pc = .find := by
  cases pc with
  | returned reply => exact absurd rfl (h reply)
  | find => exact .inr rfl
  | _ => exact .inl rfl

/-- What a status read decides about a reservation that is settled. -/
theorem afterFind_settled {req : Request} {r : Reservation} (hreq : req.isReserve = false)
    (hr : r.status = .confirmed ∨ r.status = .released)
    (hconfirm : target req = .confirmed → r.status ≠ .released) :
    afterFind req (some r) = .returned succeeded := by
  cases req with
  | reserve o items b => cases hreq
  | confirm o b => rw [afterFind, if_pos (hr.resolve_right (hconfirm rfl))]
  | release o b =>
    rw [afterFind, if_pos]
    rcases hr with hr | hr <;> simp [hr]

/-- Both handlers settle a RESERVED reservation. -/
theorem settleable_reserved {req : Request} (hreq : req.isReserve = false)
    (h : row.status = .reserved) : Settleable req row.status := by
  cases req with
  | reserve o items b => cases hreq
  | confirm o b => simp [Settleable, h]
  | release o b => exact h

theorem target_settled (req : Request) : target req = .confirmed ∨ target req = .released := by
  cases req <;> simp [target]

namespace Settlement

/-- While a handler moves on, the others are idle. -/
theorem idle (h : Settlement db o row s) {i j : ℕ} {t u : Thread} (hi : s.threads[i]? = some t)
    (hwait : ∀ reply, t.pc ≠ .returned reply) (hg : ReadsAlone s (.exec i)) (hne : j ≠ i)
    (hj : s.threads[j]? = some u) : u.pc.inFlight = false := by
  rcases inFlight_or_find hwait with hfly | hfind
  · by_contra hcon
    exact hne (h.single j i u t hj hi (by simpa using hcon) hfly)
  · exact (hg t hi hfind).1 u (mem_eraseIdx_of_ne hne hj)

/-- **One statement keeps the invariant.** -/
theorem exec (hheld : Held db o row) (h : Settlement db o row s) {i : ℕ} {t : Thread} {op : Op}
    {next : Except Failure (Ans op) → Pc} (hi : s.threads[i]? = some t)
    (hpt : t.pc.point t.req = .wait op next) (hg : ReadsAlone s (.exec i)) :
    Settlement db o row
      (s.put i t.req (perform op ⟨s.db, t.tx⟩).2 (next (perform op ⟨s.db, t.tx⟩).1)) := by
  have hwait := not_returned_of_wait hpt
  have hidle := fun j u hne hj => h.idle (j := j) (u := u) hi hwait hg hne hj
  have hmem : t ∈ s.threads := List.mem_of_getElem? hi
  obtain ⟨hto, hreq⟩ := h.requests t hmem
  -- what the statement does, in either phase
  obtain ⟨hown, hphase⟩ : PcOk t.req (perform op ⟨s.db, t.tx⟩).2
        (next (perform op ⟨s.db, t.tx⟩).1) ∧
      Phase db o row
        (s.put i t.req (perform op ⟨s.db, t.tx⟩).2 (next (perform op ⟨s.db, t.tx⟩).1)) := by
    have hok := h.points i t hi
    cases h.phase with
    | held hdb hsteady =>
      have hrow : s.db.reservations.lookup t.req.orderId = some row := by
        rw [hdb, hto, hheld.found]
      have hown := hok.step (fun r hr => by
        obtain rfl : r = row := Option.some.inj (hr.symm.trans hrow)
        exact hheld.integral) hpt
      have hnext := (hsteady t hmem).1.step hreq hok ⟨row, hrow⟩ hpt
      have hprog := (progress_start t.tx hwait).step hok hpt
      refine ⟨hown, ?_⟩
      generalize perform op ⟨s.db, t.tx⟩ = answer at hown hnext hprog ⊢
      generalize next answer.1 = pc at hown hnext hprog ⊢
      cases hpc : pc.isReturned with
      | false =>
        have hdb' : answer.2.db = s.db := by
          cases pc with
          | returned reply => cases hpc
          | _ => exact hprog
        refine .held (hdb'.trans hdb) fun u hu => ?_
        obtain ⟨j, hj⟩ := List.mem_iff_getElem?.mp hu
        obtain ⟨rfl, rfl⟩ | ⟨-, hj'⟩ := Sql.put_threads hj
        · exact ⟨hnext, hpc⟩
        · exact hsteady u (List.mem_of_getElem? hj')
      | true =>
        obtain ⟨reply, rfl⟩ : ∃ reply, pc = .returned reply := by
          cases pc with
          | returned reply => exact ⟨reply, rfl⟩
          | _ => cases hpc
        obtain rfl : reply = succeeded := hnext
        have hset := Handled.settled hprog hreq hrow (settleable_reserved hreq hheld.reserved)
        rw [hdb, hto] at hset
        refine .settled _ (target_settled t.req) hset fun u hu => ?_
        obtain ⟨j, hj⟩ := List.mem_iff_getElem?.mp hu
        obtain ⟨rfl, rfl⟩ | ⟨hne, hj'⟩ := Sql.put_threads hj
        · rfl
        · exact hidle j u hne hj'
    | settled status hstatus hset hrest =>
      -- only a status read is left to do
      obtain ⟨req, pc, tx⟩ := t
      obtain rfl : pc = .find := (inFlight_or_find hwait).resolve_left (by
        rw [hrest _ hmem]; decide)
      cases hpt
      obtain rfl : tx = ∅ := hok
      obtain rfl : req.orderId = o := hto
      have hrow : s.db.reservations.lookup req.orderId = some ⟨row.items, status⟩ := by
        rw [hset.reservations, Finmap.lookup_insert]
      have hview : (Session.mk s.db ∅).view = s.db := Session.view_of_empty rfl
      have hnext : afterFind req (some ⟨row.items, status⟩) = .returned succeeded :=
        afterFind_settled hreq hstatus fun htarget =>
          (hg _ hi rfl).2 htarget _ hrow
      simp only [perform, orFail, hview, hrow, hnext]
      refine ⟨rfl, .settled status hstatus hset fun u hu => ?_⟩
      obtain ⟨j, hj⟩ := List.mem_iff_getElem?.mp hu
      obtain ⟨rfl, rfl⟩ | ⟨hne, hj'⟩ := Sql.put_threads hj
      · rfl
      · exact hidle j u hne hj'
  refine ⟨fun u hu => ?_, fun j u hj => ?_, fun j k u v hj hk hu hv => ?_, hphase⟩
  · obtain ⟨j, hj⟩ := List.mem_iff_getElem?.mp hu
    obtain ⟨rfl, rfl⟩ | ⟨-, hj'⟩ := Sql.put_threads hj
    · exact ⟨hto, hreq⟩
    · exact h.requests u (List.mem_of_getElem? hj')
  · obtain ⟨rfl, rfl⟩ | ⟨hne, hj'⟩ := Sql.put_threads hj
    · exact hown
    · have hrest := hidle j u hne hj'
      have htx : u.tx = ∅ := (h.points j u hj').idle hrest
      exact .of_idle htx hrest
  · obtain ⟨rfl, rfl⟩ | ⟨hji, hj'⟩ := Sql.put_threads hj
    · obtain ⟨rfl, -⟩ | ⟨hki, hk'⟩ := Sql.put_threads hk
      · rfl
      · rw [hidle k v hki hk'] at hv; cases hv
    · rw [hidle j u hji hj'] at hu; cases hu

/-- A new request has read nothing. -/
theorem send (h : Settlement db o row s) {req : Request}
    (hg : SettlementRequests o s (.send req)) :
    Settlement db o row ⟨s.db, s.threads ++ [⟨req, req.start, ∅⟩]⟩ := by
  obtain ⟨hro, hreq, hred⟩ := hg
  have hstart : req.start = .find := by simp [Request.start, hred]
  rw [hstart]
  refine ⟨fun u hu => ?_, fun j u hj => ?_, fun j k u v hj hk hu hv => ?_, ?_⟩
  · rcases List.mem_append.mp hu with hu | hu
    · exact h.requests u hu
    · obtain rfl := List.mem_singleton.mp hu
      exact ⟨hro, hreq⟩
  · rcases getElem?_append_singleton hj with hj | ⟨-, rfl⟩
    · exact h.points j u hj
    · rfl
  · rcases getElem?_append_singleton hj with hj | ⟨-, rfl⟩
    · rcases getElem?_append_singleton hk with hk | ⟨-, rfl⟩
      · exact h.single j k u v hj hk hu hv
      · cases hv
    · cases hu
  · cases h.phase with
    | held hdb hsteady =>
      refine .held hdb fun u hu => ?_
      rcases List.mem_append.mp hu with hu | hu
      · exact hsteady u hu
      · obtain rfl := List.mem_singleton.mp hu
        exact ⟨trivial, rfl⟩
    | settled status hstatus hset hidle =>
      refine .settled status hstatus hset fun u hu => ?_
      rcases List.mem_append.mp hu with hu | hu
      · exact hidle u hu
      · obtain rfl := List.mem_singleton.mp hu
        rfl

theorem step (hheld : Held db o row) (h : Settlement db o row s) {l : Label}
    (hreq : SettlementRequests o s l) (hg : ReadsAlone s l) (hs : s.step l = some s') :
    Settlement db o row s' := by
  obtain ⟨req, rfl, rfl⟩ | ⟨i, t, op, next, rfl, hi, hpt, -, rfl⟩ |
    ⟨i, t, op, next, message, rfl, -⟩ := Sql.step_cases hs
  · exact h.send hreq
  · exact exec hheld h hi hpt hg
  · exact hreq.elim

end Settlement

/-- **Settled exactly once**, in every run in which a status is read while no other
handler of the order is in flight and no `confirm` reads RELEASED. -/
theorem settledOnce_of_reach (hheld : Held db o row)
    (h : Reach Sql.step (· = ⟨db, []⟩) (fun s l => SettlementRequests o s l ∧ ReadsAlone s l) s)
    (hsome : s.threads ≠ []) (hdone : ∀ t ∈ s.threads, t.pc.isReturned = true) :
    SettledOnce o row db s.db := by
  have hinv : Settlement db o row s := by
    refine h.invariant_from ?_ fun _ _ _ hinv hg hs => hinv.step hheld hg.1 hg.2 hs
    exact ⟨fun t ht => (by cases ht), fun i t ht => (by cases ht), fun i j t u ht => (by cases ht),
      .held rfl fun t ht => (by cases ht)⟩
  cases hinv.phase with
  | held hdb hsteady =>
    obtain ⟨t, rest, hcons⟩ := List.exists_cons_of_ne_nil hsome
    have hmem : t ∈ s.threads := hcons ▸ List.mem_cons_self
    have hret := hdone t hmem
    rw [(hsteady t hmem).2] at hret
    cases hret
  | settled status hstatus hset hidle => exact hset.settledOnce hstatus

/-! ## Runs -/

instance (o : OrderId) (s : Sql) : (l : Label) → Decidable (SettlementRequests o s l)
  | .send req =>
    inferInstanceAs (Decidable (req.orderId = o ∧ req.isReserve = false ∧ req.redelivered = false))
  | .exec _ => inferInstanceAs (Decidable True)
  | .abort _ _ => inferInstanceAs (Decidable False)

instance (s : Sql) : (l : Label) → Decidable (ReadsAlone s l)
  | .send _ => inferInstanceAs (Decidable True)
  | .exec i => inferInstanceAs (Decidable (∀ t ∈ s.threads[i]?, t.pc = .find →
      (∀ u ∈ s.threads.eraseIdx i, u.pc.inFlight = false) ∧
      (target t.req = .confirmed → ∀ row ∈ s.db.reservations.lookup t.req.orderId,
        row.status ≠ .released)))
  | .abort _ _ => inferInstanceAs (Decidable True)

/-- One unit of `"p"` is held for order `"o"`. -/
def oneHeld : Tables :=
  ⟨Finmap.insert "p" ⟨1000, 1⟩ ∅, Finmap.insert "o" ⟨[⟨"p", 1⟩], .reserved⟩ ∅⟩

theorem oneHeld_held : Held oneHeld "o" ⟨[⟨"p", 1⟩], .reserved⟩ :=
  ⟨Finmap.lookup_insert _, rfl, by decide⟩

/-- A `confirm` runs alone, then a `release`: the unit has left both columns once. -/
theorem settledOnce_confirm_then_release :
    ∃ s, Reach Sql.step (· = ⟨oneHeld, []⟩)
        (fun s l => SettlementRequests "o" s l ∧ ReadsAlone s l) s ∧
      s.threads.length = 2 ∧ SettledOnce "o" ⟨[⟨"p", 1⟩], .reserved⟩ oneHeld s.db := by
  obtain ⟨s, hreach, hs⟩ := Reach.exists_of_follow Sql.step (· = ⟨oneHeld, []⟩)
    (fun s l => SettlementRequests "o" s l ∧ ReadsAlone s l) rfl
    ([.send (.confirm "o" false), .send (.release "o" false)] ++
      List.replicate 7 (.exec 0) ++ [.exec 1])
    (fun s => s.threads.length = 2 && s.threads.all fun t => t.pc.isReturned) (by decide +kernel)
  rw [Bool.and_eq_true, List.all_eq_true] at hs
  obtain ⟨hlen, hret⟩ := hs
  have hlen : s.threads.length = 2 := of_decide_eq_true hlen
  have hsome : s.threads ≠ [] := by
    intro hnil
    rw [hnil] at hlen
    cases hlen
  exact ⟨s, hreach, hlen, settledOnce_of_reach oneHeld_held hreach hsome hret⟩

/-- Two `confirm`s read RESERVED before either commits: the unit leaves both
columns twice. -/
theorem not_settledOnce_of_overlapping_confirms :
    ¬ ∀ (db : Tables) (o : OrderId) (row : Reservation) (s : Sql), Held db o row →
      Reach Sql.step (· = ⟨db, []⟩) (SettlementRequests o) s → s.threads ≠ [] →
      (∀ t ∈ s.threads, t.pc.isReturned = true) → SettledOnce o row db s.db := by
  intro h
  obtain ⟨s, hreach, hs⟩ := Reach.exists_of_follow Sql.step (· = ⟨oneHeld, []⟩)
    (SettlementRequests "o") rfl
    ([.send (.confirm "o" false), .send (.confirm "o" false), .exec 0, .exec 1] ++
      List.replicate 6 (.exec 0) ++ List.replicate 5 (.exec 1))
    (fun s => s.threads.length = 2 && (s.threads.all (fun t => t.pc.isReturned) &&
      s.db.stock.lookup "p" = some ⟨998, -1⟩)) (by decide +kernel)
  simp only [Bool.and_eq_true, List.all_eq_true, decide_eq_true_eq] at hs
  obtain ⟨hlen, hret, hrow⟩ := hs
  have hsome : s.threads ≠ [] := by
    intro hnil
    rw [hnil] at hlen
    cases hlen
  obtain ⟨status, -, -, hstock⟩ := h oneHeld "o" _ s oneHeld_held hreach hsome hret
  obtain ⟨r, hr, -, hreserved⟩ := hstock "p" ⟨1000, 1⟩ (Finmap.lookup_insert _)
  rw [hrow, Option.some.injEq] at hr
  rw [← hr] at hreserved
  norm_num [lineTotal] at hreserved

end Inventory

end Ecommerce
