import Ecommerce.Inventory.Replies
/-!
# Calls handled one after another

`serveAll` handles a list of calls from any tables, each to completion
before the next and each with some of its statements rejected. The status
of an order's reservation only moves with a call that succeeds
(`Call.statusOf_serve`). What a request has done it therefore finds done
whenever it comes again (`Request.Done`), so copies of it change nothing;
but a reservation that has been released is not closed, and an order that
had none at its release may still get one.
-/

namespace Ecommerce

namespace Inventory

/-- A request, and which statements of its handler are rejected. -/
structure Call where
  req : Request
  faults : List Bool

/-- Handle a call. -/
def Call.serve (c : Call) (db : Tables) : Except Failure Reply × Tables :=
  Inventory.serve c.faults c.req db

/-- Handle calls one after another: their replies, and the tables they leave. -/
def serveAll : List Call → Tables → List (Except Failure Reply) × Tables
  | [], db => ([], db)
  | c :: rest, db =>
    ((c.serve db).1 :: (serveAll rest (c.serve db).2).1, (serveAll rest (c.serve db).2).2)

theorem serveAll_append (cs ds : List Call) (db : Tables) :
    serveAll (cs ++ ds) db = ((serveAll cs db).1 ++ (serveAll ds (serveAll cs db).2).1,
      (serveAll ds (serveAll cs db).2).2) := by
  induction cs generalizing db with
  | nil => rfl
  | cons c cs ih => rw [List.cons_append, serveAll, serveAll, ih]; rfl

/-! ## The status of a reservation -/

variable {db : Tables} {c : Call} {o : OrderId}

/-- The call is answered with success. -/
def Call.Succeeds (c : Call) (db : Tables) : Prop :=
  ∃ reason, (c.serve db).1 = .ok (.result ⟨true, reason⟩)

/-- Some call of a run satisfies `P` on the tables it meets. -/
def Happens (P : Call → Tables → Prop) : List Call → Tables → Prop
  | [], _ => False
  | c :: rest, db => P c db ∨ Happens P rest (c.serve db).2

/-- Some call of a run satisfies `P`, and a later one `Q`. -/
def HappensThen (P Q : Call → Tables → Prop) : List Call → Tables → Prop
  | [], _ => False
  | c :: rest, db => P c db ∧ Happens Q rest (c.serve db).2 ∨ HappensThen P Q rest (c.serve db).2

theorem Call.stored (c : Call) (hst : Stored db) : Stored (c.serve db).2 := by
  obtain ⟨reply, -, -, h⟩ := serve_replies c.faults c.req hst
  exact h

theorem serveAll_stored (cs : List Call) (hst : Stored db) : Stored (serveAll cs db).2 := by
  induction cs generalizing db with
  | nil => exact hst
  | cons c cs ih => exact ih (c.stored hst)

/-- **Only a success moves a status**, and only that of its own order. -/
theorem Call.statusOf_serve (c : Call) (hst : Stored db) (o : OrderId) :
    (c.serve db).2.statusOf o = db.statusOf o ∨
      c.req.orderId = o ∧ c.Succeeds db ∧ (c.serve db).2.statusOf o = c.req.settle (db.statusOf o) := by
  obtain ⟨reply, hreply, hreplies, -⟩ := serve_replies c.faults c.req hst
  by_cases ho : o = c.req.orderId
  · subst ho
    by_cases hsuccess : ∃ reason, reply = .result ⟨true, reason⟩
    · obtain ⟨reason, rfl⟩ := hsuccess
      exact .inr ⟨rfl, ⟨reason, hreply⟩, hreplies.success reason rfl⟩
    · have hsame := hreplies.failure fun reason hcon => hsuccess ⟨reason, hcon⟩
      exact .inl (congrArg (fun db => db.statusOf c.req.orderId) hsame)
  · exact .inl (hreplies.other o ho)

/-- A call that succeeds does what its request is for. -/
theorem Call.Succeeds.statusOf (h : c.Succeeds db) (hst : Stored db) :
    (c.serve db).2.statusOf c.req.orderId = c.req.settle (db.statusOf c.req.orderId) := by
  obtain ⟨reason, hreply⟩ := h
  obtain ⟨reply, hreply', hreplies, -⟩ := serve_replies c.faults c.req hst
  obtain rfl : reply = .result ⟨true, reason⟩ := Except.ok.inj (hreply'.symm.trans hreply)
  exact hreplies.success reason rfl

/-- **The induction on the status of an order.** What every success about the order keeps,
unless it is one of those set apart, holds at the end or one of those has happened. -/
theorem statusOf_serveAll {I : Option ReservationStatus → Prop} {P : Call → Tables → Prop}
    (hkeep : ∀ (c : Call) db, Stored db → c.req.orderId = o → c.Succeeds db → I (db.statusOf o) →
      I (c.req.settle (db.statusOf o)) ∨ P c db) (cs : List Call) (hst : Stored db)
    (h : I (db.statusOf o)) : I ((serveAll cs db).2.statusOf o) ∨ Happens P cs db := by
  induction cs generalizing db with
  | nil => exact .inl h
  | cons c cs ih =>
    have hnext : I ((c.serve db).2.statusOf o) ∨ P c db := by
      rcases c.statusOf_serve hst o with hsame | ⟨horder, hsuccess, hmoved⟩
      · exact .inl (hsame ▸ h)
      · rw [hmoved]
        exact hkeep c db hst horder hsuccess h
    rcases hnext with hnext | hP
    · exact (ih (c.stored hst) hnext).imp id .inr
    · exact .inr (.inl hP)

theorem not_happens {P : Call → Tables → Prop} (hP : ∀ c db, ¬ P c db) (cs : List Call) (db : Tables) :
    ¬ Happens P cs db := by
  induction cs generalizing db with
  | nil => exact id
  | cons c cs ih => exact fun h => h.elim (hP c db) (ih _)

/-! ## Releases -/

/-- A success of `reserve` for the order. -/
def ReservesFor (o : OrderId) (c : Call) (db : Tables) : Prop :=
  (∃ items b, c.req = .reserve o items b) ∧ c.Succeeds db

/-- A success of `confirm` for the order. -/
def ConfirmsFor (o : OrderId) (c : Call) (db : Tables) : Prop :=
  (∃ b, c.req = .confirm o b) ∧ c.Succeeds db

/-- A success of `confirm` for the order while its reservation is RELEASED. -/
def ConfirmsReleased (o : OrderId) (c : Call) (db : Tables) : Prop :=
  ConfirmsFor o c db ∧ db.statusOf o = some .released

/-- **What a release leaves behind**, at once and after later calls. What it has found RESERVED
is final; an order that had no reservation may get one, and have it confirmed. -/
structure Compensates (o : OrderId) (before after : Tables) (later : List Call) : Prop where
  released : after.statusOf o ≠ some .reserved
  consumed : after.statusOf o = some .confirmed → before.statusOf o = some .confirmed
  reserved : (serveAll later after).2.statusOf o = some .reserved →
    before.statusOf o = none ∧ Happens (ReservesFor o) later after
  confirmed : (serveAll later after).2.statusOf o = some .confirmed →
    before.statusOf o = some .confirmed ∨
      before.statusOf o = none ∧ HappensThen (ReservesFor o) (ConfirmsFor o) later after

theorem settle_eq_reserved {req : Request} {status : Option ReservationStatus}
    (h : req.settle status = some .reserved) :
    status = some .reserved ∨ status = none ∧ ∃ items b, req = .reserve req.orderId items b := by
  cases req with
  | reserve o items b =>
    cases status with
    | none => exact .inr ⟨rfl, items, b, rfl⟩
    | some st => exact .inl h
  | confirm o b => cases h
  | release o b =>
    cases status with
    | none => cases h
    | some st => cases st <;> cases h

theorem settle_eq_confirmed {req : Request} {status : Option ReservationStatus}
    (h : req.settle status = some .confirmed) :
    status = some .confirmed ∨ ∃ b, req = .confirm req.orderId b := by
  cases req with
  | reserve o items b =>
    cases status with
    | none => cases h
    | some st => exact .inl h
  | confirm o b => exact .inr ⟨b, rfl⟩
  | release o b =>
    cases status with
    | none => cases h
    | some st =>
      cases st with
      | confirmed => exact .inl rfl
      | reserved => cases h
      | released => cases h

/-- An order whose reservation is not RESERVED is reserved by a later `reserve` only, and only
if it has no reservation. -/
theorem reserved_later (cs : List Call) (hst : Stored db) (h : db.statusOf o ≠ some .reserved)
    (hres : (serveAll cs db).2.statusOf o = some .reserved) :
    db.statusOf o = none ∧ Happens (ReservesFor o) cs db := by
  constructor
  · by_contra hnone
    -- A reservation that is there and not RESERVED never becomes RESERVED.
    have hkeep := statusOf_serveAll (o := o) (P := fun _ _ => False)
      (I := fun st => st ≠ none ∧ st ≠ some .reserved)
      (fun c db _ horder _ hI => .inl ⟨fun hcon => ?_, fun hcon => ?_⟩) cs hst ⟨hnone, h⟩
    · exact (hkeep.resolve_right (not_happens (fun _ _ => id) cs db)).2 hres
    · cases hst : db.statusOf o with
      | none => exact hI.1 hst
      | some st =>
        rw [hst] at hcon
        cases hreq : c.req <;> rw [hreq] at hcon <;> cases st <;> cases hcon
    · rcases settle_eq_reserved hcon with hcon | hcon
      · exact hI.2 hcon
      · exact hI.1 hcon.1
  · refine (statusOf_serveAll (o := o) (I := fun st => st ≠ some .reserved)
      (fun c db _ horder hsuccess hI => ?_) cs hst h).resolve_left (not_not.mpr hres)
    by_contra hcon
    obtain ⟨hmoved, hnot⟩ := not_or.mp hcon
    rcases settle_eq_reserved (not_not.mp hmoved) with hsame | ⟨-, hreq⟩
    · exact hI hsame
    · exact hnot ⟨horder ▸ hreq, hsuccess⟩

/-- An order whose reservation is not CONFIRMED is confirmed by a later `confirm` only. -/
theorem confirmed_later (cs : List Call) (hst : Stored db) (h : db.statusOf o ≠ some .confirmed)
    (hconf : (serveAll cs db).2.statusOf o = some .confirmed) : Happens (ConfirmsFor o) cs db := by
  refine (statusOf_serveAll (o := o) (I := fun st => st ≠ some .confirmed)
    (fun c db _ horder hsuccess hI => ?_) cs hst h).resolve_left (not_not.mpr hconf)
  by_contra hcon
  obtain ⟨hmoved, hnot⟩ := not_or.mp hcon
  rcases settle_eq_confirmed (not_not.mp hmoved) with hsame | hreq
  · exact hI hsame
  · exact hnot ⟨horder ▸ hreq, hsuccess⟩

/-- There is a reservation to confirm. -/
theorem ConfirmsFor.statusOf_ne_none (h : ConfirmsFor o c db) (hst : Stored db) :
    db.statusOf o ≠ none := by
  obtain ⟨⟨b, hreq⟩, reason, hreply⟩ := h
  obtain ⟨reply, hreply', hhandled⟩ := serve_handled c.faults c.req hst
  obtain rfl : reply = .result ⟨true, reason⟩ := Except.ok.inj (hreply'.symm.trans hreply)
  rw [hreq] at hhandled
  have hrow : ∀ {row}, db.reservations.lookup o = some row → db.statusOf o ≠ none := by
    intro row hrow
    rw [statusOf_of_lookup hrow]
    exact Option.some_ne_none _
  generalize (serve c.faults (.confirm o b) db).2 = db' at hhandled
  cases hhandled with
  | existing row _ h _ => exact hrow h
  | confirmed row _ h _ => exact hrow h
  | nothing _ htarget _ => cases htarget
  | reserves hisReserve _ => cases hisReserve
  | settles row _ h => exact hrow h.found

/-- **A reservation that is RELEASED stays so**, unless a `confirm` takes it up. -/
theorem released_later (cs : List Call) (hst : Stored db) (h : db.statusOf o = some .released)
    (hlate : ¬ Happens (ConfirmsReleased o) cs db) :
    (serveAll cs db).2.statusOf o = some .released := by
  refine (statusOf_serveAll (o := o) (I := fun st => st = some .released)
    (fun c db _ horder hsuccess hI => ?_) cs hst h).resolve_right hlate
  cases hreq : c.req with
  | confirm o' b =>
    rw [hreq] at horder
    obtain rfl : o' = o := horder
    exact .inr ⟨⟨⟨b, hreq⟩, hsuccess⟩, hI⟩
  | _ => exact .inl (by rw [hI]; rfl)

/-- An order without a reservation is CONFIRMED by a later `reserve` and a `confirm` after it. -/
theorem confirmed_later_of_none (cs : List Call) (hst : Stored db) (h : db.statusOf o = none)
    (hconf : (serveAll cs db).2.statusOf o = some .confirmed) :
    HappensThen (ReservesFor o) (ConfirmsFor o) cs db := by
  induction cs generalizing db with
  | nil =>
    rw [show (serveAll [] db).2 = db from rfl, h] at hconf
    cases hconf
  | cons c cs ih =>
    rcases c.statusOf_serve hst o with hsame | ⟨horder, hsuccess, hmoved⟩
    · exact .inr (ih (c.stored hst) (hsame.trans h) hconf)
    · rw [h] at hmoved
      cases hreq : c.req with
      | reserve o' items b =>
        rw [hreq] at horder hmoved
        obtain rfl : o' = o := horder
        refine .inl ⟨⟨⟨items, b, hreq⟩, hsuccess⟩, confirmed_later cs (c.stored hst) ?_ hconf⟩
        rw [hmoved]
        exact fun hcon => by cases hcon
      | confirm o' b =>
        rw [hreq] at horder
        obtain rfl : o' = o := horder
        exact absurd h (ConfirmsFor.statusOf_ne_none ⟨⟨b, hreq⟩, hsuccess⟩ hst)
      | release o' b =>
        rw [hreq] at hmoved
        exact .inr (ih (c.stored hst) hmoved hconf)

/-- **What a release that succeeds is worth**, as long as no `confirm` takes up a reservation
that is RELEASED: what it has found RESERVED is neither RESERVED nor CONFIRMED ever after, and
only an order that had no reservation may be reserved and confirmed again. -/
theorem compensates_of_release (pre : List Call) (c : Call) (later : List Call) {b : Bool}
    (hst : Stored db) (hreq : c.req = .release o b) (hsuccess : c.Succeeds (serveAll pre db).2)
    (hlate : ¬ Happens (ConfirmsReleased o) later (c.serve (serveAll pre db).2).2) :
    Compensates o (serveAll pre db).2 (c.serve (serveAll pre db).2).2 later := by
  have hbefore := serveAll_stored pre hst
  generalize (serveAll pre db).2 = before at *
  have hafter := c.stored hbefore
  have hmoved := hsuccess.statusOf hbefore
  rw [hreq] at hmoved
  change (c.serve before).2.statusOf o = Request.settle _ (before.statusOf o) at hmoved
  have hreleased : (c.serve before).2.statusOf o ≠ some .reserved := by
    rw [hmoved]
    intro hcon
    cases hstatus : before.statusOf o with
    | none => rw [hstatus] at hcon; cases hcon
    | some st => rw [hstatus] at hcon; cases st <;> cases hcon
  have hconsumed : (c.serve before).2.statusOf o = some .confirmed →
      before.statusOf o = some .confirmed := by
    rw [hmoved]
    intro hcon
    refine (settle_eq_confirmed hcon).resolve_right ?_
    rintro ⟨b', hb'⟩
    cases hb'
  have hnothing : (c.serve before).2.statusOf o = none → before.statusOf o = none := by
    rw [hmoved]
    intro hnone
    cases hstatus : before.statusOf o with
    | none => rfl
    | some st => rw [hstatus] at hnone; cases st <;> cases hnone
  refine ⟨hreleased, hconsumed, fun hres => ?_, fun hconf => ?_⟩
  · obtain ⟨hnone, hhappens⟩ := reserved_later later hafter hreleased hres
    exact ⟨hnothing hnone, hhappens⟩
  · cases hstatus : (c.serve before).2.statusOf o with
    | none => exact .inr ⟨hnothing hstatus, confirmed_later_of_none later hafter hstatus hconf⟩
    | some st =>
      cases st with
      | reserved => exact absurd hstatus hreleased
      | confirmed => exact .inl (hconsumed hstatus)
      | released =>
        rw [released_later later hafter hstatus hlate] at hconf
        cases hconf

/-- A call nothing is rejected of. -/
def plain (req : Request) : Call := ⟨req, []⟩

/-- A reserved order is released, and a late copy of its `reserve` finds it released. -/
theorem compensates_after_reserve :
    (serveAll [plain (.release "o" false), plain (.reserve "o" [⟨"p", 1⟩] false)]
        (serveAll [plain (.reserve "o" [⟨"p", 1⟩] false)] ∅).2).2.statusOf "o" = some .released ∧
      Compensates "o" (serveAll [plain (.reserve "o" [⟨"p", 1⟩] false)] ∅).2
        ((plain (.release "o" false)).serve
          (serveAll [plain (.reserve "o" [⟨"p", 1⟩] false)] ∅).2).2
        [plain (.reserve "o" [⟨"p", 1⟩] false)] :=
  ⟨by decide +kernel, compensates_of_release _ _ _ (.of_unreserved rfl) rfl ⟨none, rfl⟩
    fun h => h.elim (fun hconfirms => by cases hconfirms.1.1.choose_spec) id⟩

/-- A release that comes before its `reserve` succeeds, and the order is RESERVED after all. -/
theorem not_final_of_early_release :
    ¬ ∀ (db : Tables) (pre : List Call) (c : Call) (later : List Call) (o : OrderId) (b : Bool),
      Stored db → c.req = .release o b → c.Succeeds (serveAll pre db).2 → (serveAll later
        (c.serve (serveAll pre db).2).2).2.statusOf o ≠ some .reserved ∧
        (serveAll later (c.serve (serveAll pre db).2).2).2.statusOf o ≠ some .confirmed := by
  intro h
  have hres := (h ∅ [] (plain (.release "o" false)) [plain (.reserve "o" [⟨"p", 1⟩] false)] "o" false
    (.of_unreserved rfl) rfl ⟨none, rfl⟩).1
  exact hres (by decide +kernel)

/-! ## Copies -/

/-- What a request is for is done. -/
def Request.Done : Request → ReservationStatus → Prop
  | .reserve _ _ _, _ => True
  | .confirm _ _, status => status = .confirmed
  | .release _ _, status => status ≠ .reserved

/-- The request once more, not marked as redelivered. -/
def Request.copy : Request → Request
  | .reserve o items _ => .reserve o items false
  | .confirm o _ => .confirm o false
  | .release o _ => .release o false

/-- The order of a request has a reservation for which it is done. -/
def DoneIn (req : Request) (db : Tables) : Prop :=
  ∃ status, db.statusOf req.orderId = some status ∧ req.Done status

/-- A success has done it, if there is a reservation. -/
theorem Call.Succeeds.doneIn (h : c.Succeeds db) (hst : Stored db)
    (hrow : (c.serve db).2.statusOf c.req.orderId ≠ none) : DoneIn c.req (c.serve db).2 := by
  have hmoved := h.statusOf hst
  obtain ⟨status, hstatus⟩ := Option.ne_none_iff_exists'.mp hrow
  refine ⟨status, hstatus, ?_⟩
  rw [hmoved] at hstatus
  cases hreq : c.req with
  | reserve o items b => trivial
  | confirm o b =>
    rw [hreq] at hstatus
    exact (Option.some.inj hstatus).symm
  | release o b =>
    rw [hreq] at hstatus
    rintro rfl
    rcases settle_eq_reserved hstatus with hsame | ⟨-, items, b', hcon⟩
    · rw [hsame] at hstatus
      cases hstatus
    · cases hcon

/-- What is done stays done. -/
theorem DoneIn.serve {req : Request} (h : DoneIn req db) (hst : Stored db) (c : Call) :
    DoneIn req (c.serve db).2 := by
  obtain ⟨status, hstatus, hdone⟩ := h
  rcases c.statusOf_serve hst req.orderId with hsame | ⟨-, -, hmoved⟩
  · exact ⟨status, hsame.trans hstatus, hdone⟩
  · rw [hstatus] at hmoved
    obtain ⟨status', hstatus'⟩ : ∃ status', c.req.settle (some status) = some status' := by
      cases c.req with
      | reserve o items b => exact ⟨_, rfl⟩
      | confirm o b => exact ⟨_, rfl⟩
      | release o b => cases status <;> exact ⟨_, rfl⟩
    refine ⟨status', hmoved.trans hstatus', ?_⟩
    cases req with
    | reserve o items b => trivial
    | confirm o b =>
      obtain rfl : status = .confirmed := hdone
      cases hreq : c.req <;> rw [hreq] at hstatus' <;> exact (Option.some.inj hstatus').symm
    | release o b =>
      rintro rfl
      rcases settle_eq_reserved hstatus' with hcon | hcon
      · exact hdone (Option.some.inj hcon)
      · cases hcon.1

/-- **A request that is done changes nothing.** -/
theorem DoneIn.unchanged (h : DoneIn c.req db) (hst : Stored db) : (c.serve db).2 = db := by
  obtain ⟨status, hstatus, hdone⟩ := h
  obtain ⟨row, hrow, rfl⟩ := Option.map_eq_some_iff.mp hstatus
  obtain ⟨reply, -, hhandled⟩ := serve_handled c.faults c.req hst
  change Handled c.req db reply (c.serve db).2 at hhandled
  generalize (c.serve db).2 = db' at hhandled
  cases hhandled with
  | reserves hreq h =>
    rw [h.fresh] at hrow
    cases hrow
  | settles row' hguard h =>
    obtain rfl : row' = row := Option.some.inj (h.found.symm.trans hrow)
    cases hreq : c.req with
    | reserve o items b => rw [hreq] at hguard; exact hguard.elim
    | confirm o b => rw [hreq] at hguard hdone; exact absurd hdone hguard
    | release o b => rw [hreq] at hguard hdone; exact absurd hguard hdone
  | _ => rfl

theorem doneIn_copy {req : Request} : DoneIn req.copy db ↔ DoneIn req db := by
  cases req <;> rfl

/-- The calls of a run that are not marked as copies. -/
def originals (cs : List (Bool × Call)) : List Call := (cs.filter fun c => !c.1).map Prod.snd

/-- The replies to them. -/
def repliesTo (cs : List (Bool × Call)) (replies : List (Except Failure Reply)) :
    List (Except Failure Reply) :=
  ((cs.zip replies).filter fun c => !c.1.1).map Prod.snd

/-- **Copies of what is done change nothing**: neither the tables nor any other reply. -/
theorem copies_of_doneIn {req : Request} (cs : List (Bool × Call)) (h : DoneIn req db)
    (hst : Stored db) (hcopies : ∀ c ∈ cs, c.1 = true → c.2.req = req.copy) :
    (serveAll (cs.map Prod.snd) db).2 = (serveAll (originals cs) db).2 ∧
      repliesTo cs (serveAll (cs.map Prod.snd) db).1 = (serveAll (originals cs) db).1 := by
  induction cs generalizing db with
  | nil => exact ⟨rfl, rfl⟩
  | cons c cs ih =>
    obtain ⟨mark, c⟩ := c
    have hrest := fun c hc => hcopies c (List.mem_cons_of_mem _ hc)
    cases mark with
    | false =>
      obtain ⟨htables, hreplies⟩ := ih (h.serve hst c) (c.stored hst) hrest
      exact ⟨htables, congrArg (List.cons _) hreplies⟩
    | true =>
      have hcopy : c.req = req.copy := hcopies (true, c) List.mem_cons_self rfl
      have hsame : (c.serve db).2 = db := by
        refine DoneIn.unchanged ?_ hst
        rw [hcopy]
        exact doneIn_copy.mpr h
      obtain ⟨htables, hreplies⟩ := ih h hst hrest
      change (serveAll (cs.map Prod.snd) (c.serve db).2).2 = _ ∧
        repliesTo cs (serveAll (cs.map Prod.snd) (c.serve db).2).1 = _
      rw [hsame]
      exact ⟨htables, hreplies⟩

/-- **Inventory is safe under at-least-once delivery.** Copies of a request that has
succeeded, put in anywhere behind it, change neither the tables at the end nor the reply
to any other call. -/
theorem copies_change_nothing (pre : List Call) (c : Call) (later : List (Bool × Call))
    (hst : Stored db) (hsuccess : c.Succeeds (serveAll pre db).2)
    (hrow : (c.serve (serveAll pre db).2).2.reservations.lookup c.req.orderId ≠ none)
    (hcopies : ∀ d ∈ later, d.1 = true → d.2.req = c.req.copy) :
    let run := pre.map (Prod.mk false) ++ (false, c) :: later
    (serveAll (run.map Prod.snd) db).2 = (serveAll (originals run) db).2 ∧
      repliesTo run (serveAll (run.map Prod.snd) db).1 = (serveAll (originals run) db).1 := by
  intro run
  induction pre generalizing db with
  | nil =>
    have hdone : DoneIn c.req (c.serve db).2 :=
      hsuccess.doneIn hst fun hnone => hrow (Option.map_eq_none_iff.mp hnone)
    obtain ⟨htables, hreplies⟩ := copies_of_doneIn later hdone (c.stored hst) hcopies
    exact ⟨htables, congrArg (List.cons _) hreplies⟩
  | cons d pre ih =>
    obtain ⟨htables, hreplies⟩ := ih (d.stored hst) hsuccess hrow
    exact ⟨htables, congrArg (List.cons _) hreplies⟩

/-- A `reserve` comes again before and after its order is confirmed. -/
theorem copies_around_confirm :
    let run := [(false, plain (.reserve "o" [⟨"p", 1⟩] false)),
      (true, plain (.reserve "o" [⟨"p", 1⟩] false)), (false, plain (.confirm "o" false)),
      (true, plain (.reserve "o" [⟨"p", 1⟩] false))]
    (serveAll (run.map Prod.snd) ∅).2.stock.lookup "p" = some ⟨999, 0⟩ ∧
      (serveAll (run.map Prod.snd) ∅).2 = (serveAll (originals run) ∅).2 ∧
      repliesTo run (serveAll (run.map Prod.snd) ∅).1 = (serveAll (originals run) ∅).1 :=
  ⟨by decide +kernel, copies_change_nothing [] (plain (.reserve "o" [⟨"p", 1⟩] false))
    [(true, plain (.reserve "o" [⟨"p", 1⟩] false)), (false, plain (.confirm "o" false)),
      (true, plain (.reserve "o" [⟨"p", 1⟩] false))] (.of_unreserved rfl) ⟨none, rfl⟩
    (by decide +kernel) (fun d hd hmark => by
      simp only [List.mem_cons, List.not_mem_nil, or_false] at hd
      rcases hd with rfl | rfl | rfl
      · rfl
      · cases hmark
      · rfl)⟩

end Inventory

end Ecommerce
