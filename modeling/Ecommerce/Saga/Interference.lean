import Ecommerce.Saga.Orchestrator
import Mathlib.Data.List.Induction
/-!
# What reserve calls do to the settlement

Runs are compared that get the same payment messages at the same times and
the same outcomes of the calls they lead to. What such runs have in common
is what they would send through a breaker that never opens. A run sends
just that iff the one breaker of the class is ready at every new payment
message, and it is while few calls fail (`admitted_of_tolerated`). There
always is such a run: reserve calls that succeed outweigh whatever fails.
-/

namespace Ecommerce

namespace Saga

/-- A confirm or a release. -/
def InventoryRpcRequest.settles : InventoryRpcRequest → Bool
  | .reserve _ _ => false
  | _ => true

/-- The settlement side of the inputs: the payment messages, and what becomes of their calls. -/
def Input.settles : Input → Bool
  | .deliver _ event => event.queue ≠ .orderCreated
  | .answer d _ => d.queue ≠ .orderCreated
  | .crash d => d.queue ≠ .orderCreated
  | _ => false

/-- The settlement side of a run. -/
def settlement (inputs : List (ℕ × Input)) : List (ℕ × Input) :=
  inputs.filter fun l => l.2.settles

/-- **The same payment messages at the same times**, with the same outcomes. -/
def SameSettlement (inputs inputs' : List (ℕ × Input)) : Prop :=
  settlement inputs = settlement inputs'

/-- The delivery an input starts a handler for. -/
def Input.delivers (d : Delivery) : Input → Bool
  | .deliver tag event => d = ⟨event.queue, tag⟩
  | _ => false

namespace Orchestrator

variable {β : Type} {B : Breaker β} {s s' : Orchestrator β} {t : ℕ} {l : Input} {d : Delivery}
variable {orders orders' : Table OrderId Orders.Order} {inputs inputs' : List (ℕ × Input)}

/-- The confirm and release requests that were sent, in order. -/
def requests (s : Orchestrator β) : List Sent := s.sent.filter fun sent => sent.req.settles

/-- **The breaker is ready for an input**: if it is a new payment message, then before its call
the breaker is closed, or its reset timeout is over and no trial call is under way. -/
def Admits (o : Breaker.Options) (s : Orchestrator Breaker.Window) (t : ℕ) : Input → Prop
  | .deliver tag event => event.queue ≠ .orderCreated →
    s.handlers.lookup ⟨event.queue, tag⟩ = none → s.breaker.ready o t = true
  | _ => True

/-- **The breaker is ready at every new payment message** of the inputs that follow. -/
def Admitted (o : Breaker.Options) (s : Orchestrator Breaker.Window)
    (inputs : List (ℕ × Input)) : Prop :=
  Along (step (.rolling o)) (fun s l => Admits o s l.1 l.2) s inputs

/-! ## One input -/

/-- The request of the settlement an input makes the orchestrator send. -/
def asked (B : Breaker β) (s : Orchestrator β) (t : ℕ) : Input → List Sent
  | .deliver tag event =>
    if event.queue ≠ .orderCreated ∧ s.handlers.lookup ⟨event.queue, tag⟩ = none ∧
      (B.fire s.breaker t).1 = true then [⟨t, ⟨event.queue, tag⟩, event.request⟩] else []
  | _ => []

/-- A payment message asks for a confirm or a release. -/
theorem settles_request (event : Event) :
    event.request.settles = true ↔ event.queue ≠ .orderCreated := by
  cases event <;> simp [Event.request, Event.queue, InventoryRpcRequest.settles]

theorem Moves.requests (h : Moves B s t l s') : s'.requests = s.requests ++ s.asked B t l := by
  have hquiet : ∀ {s' : Orchestrator β}, s'.sent = s.sent → s'.requests = s.requests ++ [] := by
    intro s' hsent
    rw [List.append_nil, Orchestrator.requests, hsent]
    rfl
  cases h with
  | ignores hknown =>
    cases l with
    | deliver tag event =>
      have hsome := hknown tag event rfl
      rw [asked, if_neg, List.append_nil]
      rintro ⟨-, hnone, -⟩
      rw [hnone] at hsome
      cases hsome
    | _ => exact hquiet rfl
  | @calls tag event hnew hfire =>
    change (s.sent ++ [_]).filter _ = _
    rw [List.filter_append, asked]
    congr 1
    by_cases hqueue : event.queue ≠ .orderCreated
    · rw [if_pos ⟨hqueue, hnew, hfire⟩]
      exact List.filter_cons_of_pos ((settles_request event).mpr hqueue)
    · rw [if_neg fun h => hqueue h.1]
      exact List.filter_cons_of_neg fun h => hqueue ((settles_request event).mp h)
  | rejected hnew hfire =>
    rw [asked, if_neg fun h => by rw [hfire] at h; exact Bool.false_ne_true h.2.2]
    exact hquiet rfl
  | writes h => exact hquiet (setStatus_sent _ _)
  | _ => exact hquiet rfl

/-- Handlers are started by deliveries, and stay. -/
theorem Moves.isSome (h : Moves B s t l s') (d : Delivery) :
    (s'.handlers.lookup d).isSome = ((s.handlers.lookup d).isSome || l.delivers d) := by
  have hkeep : ∀ {s' : Orchestrator β} {d' : Delivery} {h : Handler} (event : Event) (pc : Pc),
      s'.handlers = s.handlers → s.handlers.lookup d' = some h →
      ((s'.put d' event pc).handlers.lookup d).isSome = ((s.handlers.lookup d).isSome || false) := by
    intro s' d' h event pc hsame hd'
    rw [lookup_put, hsame, Bool.or_false]
    split
    · rw [‹d = d'›, hd']
      rfl
    · rfl
  have hstart : ∀ {s' : Orchestrator β} (tag : ℕ) (event : Event) (pc : Pc),
      s'.handlers = s.handlers →
      ((s'.put ⟨event.queue, tag⟩ event pc).handlers.lookup d).isSome =
        ((s.handlers.lookup d).isSome || decide (d = ⟨event.queue, tag⟩)) := by
    intro s' tag event pc hsame
    rw [lookup_put, hsame]
    split
    · rw [decide_eq_true ‹d = _›, Bool.or_true]
      rfl
    · rw [decide_eq_false ‹d ≠ _›, Bool.or_false]
  cases h with
  | ignores hknown =>
    cases l with
    | deliver tag event =>
      by_cases hd : d = ⟨event.queue, tag⟩
      · rw [hd, hknown tag event rfl, Bool.true_or]
      · rw [Input.delivers, decide_eq_false hd, Bool.or_false]
    | _ => exact (Bool.or_false _).symm
  | calls hnew hfire => exact hstart _ _ _ rfl
  | rejected hnew hfire => exact hstart _ _ _ rfl
  | answers result h => exact hkeep _ _ rfl h
  | writes h => exact hkeep _ _ (setStatus_handlers _ _) h
  | finds h => exact hkeep _ _ rfl h
  | tells h => exact hkeep _ _ rfl h
  | asks h => exact hkeep _ _ rfl h
  | writeFails message h => exact hkeep _ _ rfl h
  | fails message h => exact hkeep _ _ rfl h
  | crashes h => exact hkeep _ _ rfl h

/-- An input that is no part of the settlement asks for nothing. -/
theorem asked_of_not_settles (h : l.settles = false) : s.asked B t l = [] := by
  cases l with
  | deliver tag event =>
    refine if_neg fun hcon => ?_
    rw [Input.settles, decide_eq_false_iff_not] at h
    exact h hcon.1
  | _ => rfl

theorem not_delivers_of_not_settles (h : l.settles = false) (hd : d.queue ≠ .orderCreated) :
    l.delivers d = false := by
  cases l with
  | deliver tag event =>
    refine decide_eq_false fun heq => ?_
    rw [Input.settles, decide_eq_false_iff_not, not_not] at h
    rw [heq] at hd
    exact hd h
  | _ => rfl

/-! ## Runs -/

theorem run_concat (inputs : List (ℕ × Input)) (l : ℕ × Input) :
    run B orders (inputs ++ [l]) = step B (run B orders inputs) l := by
  unfold run
  rw [List.foldl_append, List.foldl_cons, List.foldl_nil]

theorem settlement_concat_of_settles {l : ℕ × Input} (h : l.2.settles = true) :
    settlement (inputs ++ [l]) = settlement inputs ++ [l] := by
  unfold settlement
  rw [List.filter_append, List.filter_cons_of_pos (by simpa using h), List.filter_nil]

theorem settlement_concat_of_not {l : ℕ × Input} (h : l.2.settles = false) :
    settlement (inputs ++ [l]) = settlement inputs := by
  unfold settlement
  rw [List.filter_append, List.filter_cons_of_neg (by simp [h]), List.filter_nil, List.append_nil]

/-- **A handler is there iff its message has been delivered**, whatever the breaker. -/
theorem isSome_run (inputs : List (ℕ × Input)) :
    ((run B orders inputs).handlers.lookup d).isSome = inputs.any fun l => l.2.delivers d := by
  induction inputs using List.reverseRecOn with
  | nil => rfl
  | append_singleton inputs l ih =>
    rw [run_concat, (moves_step B _ l).isSome, ih, List.any_append, List.any_cons, List.any_nil,
      Bool.or_false]

/-- The settlement side delivers the same payment messages. -/
theorem any_settlement (inputs : List (ℕ × Input)) (hd : d.queue ≠ .orderCreated) :
    ((settlement inputs).any fun l => l.2.delivers d) = inputs.any fun l => l.2.delivers d := by
  induction inputs with
  | nil => rfl
  | cons l inputs ih =>
    unfold settlement at ih ⊢
    cases hl : l.2.settles with
    | true => rw [List.filter_cons_of_pos (by simpa using hl), List.any_cons, List.any_cons, ih]
    | false =>
      rw [List.filter_cons_of_neg (by simp [hl]), List.any_cons, ih,
        not_delivers_of_not_settles hl hd, Bool.false_or]

/-- Who has sent a request has a handler. -/
theorem isSome_of_mem_requests {sent : Sent} (h : sent ∈ (run B orders inputs).requests) :
    ((run B orders inputs).handlers.lookup sent.delivery).isSome = true := by
  induction inputs using List.reverseRecOn with
  | nil => cases h
  | append_singleton inputs l ih =>
    rw [run_concat, (moves_step B _ l).requests] at h
    rw [run_concat, (moves_step B _ l).isSome]
    rcases List.mem_append.mp h with hold | hnew
    · rw [ih hold, Bool.true_or]
    · obtain ⟨t, l⟩ := l
      cases l with
      | deliver tag event =>
        rw [asked] at hnew
        split at hnew
        · obtain rfl := List.mem_singleton.mp hnew
          rw [Input.delivers, decide_eq_true rfl, Bool.or_true]
        · cases hnew
      | _ => cases hnew

/-! ## Two breakers -/

section Compare

variable {γ : Type} {C : Breaker γ} {s' : Orchestrator γ}
variable (hsame : ∀ d : Delivery, d.queue ≠ .orderCreated →
  (s.handlers.lookup d).isSome = (s'.handlers.lookup d).isSome)

include hsame

theorem lookup_none_iff (hd : d.queue ≠ .orderCreated) :
    s.handlers.lookup d = none ↔ s'.handlers.lookup d = none := by
  rw [← Option.not_isSome_iff_eq_none, ← Option.not_isSome_iff_eq_none, hsame d hd]

/-- What one more input asks for is asked for the first time. -/
theorem append_asked_inj {sent sent' : List Sent}
    (hsent : ∀ e ∈ sent, (s.handlers.lookup e.delivery).isSome = true)
    (hsent' : ∀ e ∈ sent', (s'.handlers.lookup e.delivery).isSome = true)
    (heq : sent ++ s.asked B t l = sent' ++ s'.asked C t l) :
    sent = sent' ∧ s.asked B t l = s'.asked C t l := by
  cases l with
  | deliver tag event =>
    rw [asked, asked] at heq ⊢
    split at heq <;> split at heq
    · rename_i h h'
      rw [if_pos h, if_pos h']
      exact ⟨List.append_cancel_right heq, rfl⟩
    · -- The request would have been sent before its message was delivered.
      rename_i h _
      rw [List.append_nil] at heq
      have hmem := hsent' _ (heq ▸ List.mem_append_right _ (List.mem_singleton_self _))
      rw [(lookup_none_iff hsame h.1).mp h.2.1] at hmem
      cases hmem
    · rename_i h
      rw [List.append_nil] at heq
      have hmem := hsent _ (heq ▸ List.mem_append_right _ (List.mem_singleton_self _))
      rw [(lookup_none_iff hsame h.1).mpr h.2.1] at hmem
      cases hmem
    · rename_i h h'
      rw [List.append_nil, List.append_nil] at heq
      rw [if_neg h, if_neg h']
      exact ⟨heq, rfl⟩
  | _ => exact ⟨List.append_cancel_right (show sent ++ [] = sent' ++ [] from heq), rfl⟩

/-- Two instances that know the same messages ask for the same where their breakers agree. -/
theorem asked_eq (h : ∀ tag event, l = .deliver tag event → event.queue ≠ .orderCreated →
    s.handlers.lookup ⟨event.queue, tag⟩ = none →
    (B.fire s.breaker t).1 = (C.fire s'.breaker t).1) : s.asked B t l = s'.asked C t l := by
  cases l with
  | deliver tag event =>
    rw [asked, asked]
    refine if_congr ?_ rfl rfl
    constructor
    · rintro ⟨hqueue, hnew, hfire⟩
      exact ⟨hqueue, (lookup_none_iff hsame hqueue).mp hnew,
        (h tag event rfl hqueue hnew).symm.trans hfire⟩
    · rintro ⟨hqueue, hnew, hfire⟩
      have hnew := (lookup_none_iff hsame hqueue).mpr hnew
      exact ⟨hqueue, hnew, (h tag event rfl hqueue hnew).trans hfire⟩
  | _ => rfl

end Compare

/-! ## Against a breaker that never opens -/

variable {o : Breaker.Options}

/-- It asks for what would be asked for without a breaker iff its breaker is ready. -/
theorem asked_eq_iff {s : Orchestrator Breaker.Window} {s' : Orchestrator Unit}
    (hsame : ∀ d : Delivery, d.queue ≠ .orderCreated →
      (s.handlers.lookup d).isSome = (s'.handlers.lookup d).isSome) :
    s.asked (.rolling o) t l = s'.asked .inert t l ↔ Admits o s t l := by
  constructor
  · intro h
    cases l with
    | deliver tag event =>
      intro hqueue hnew
      have hnew' := (lookup_none_iff hsame hqueue).mp hnew
      have hasked : s'.asked .inert t (.deliver tag event) =
        [⟨t, ⟨event.queue, tag⟩, event.request⟩] := if_pos ⟨hqueue, hnew', rfl⟩
      by_contra hready
      have hnothing : s.asked (.rolling o) t (.deliver tag event) = [] :=
        if_neg fun hcon => hready (Breaker.fire_eq_ready.symm.trans hcon.2.2)
      rw [hasked, hnothing] at h
      cases h
    | _ => trivial
  · intro h
    refine asked_eq hsame fun tag event hl hqueue hnew => ?_
    subst hl
    exact Breaker.fire_eq_ready.trans (h hqueue hnew)

/-- **A run sends what would be sent without a breaker iff it is admitted.** -/
theorem requests_inert_iff : (run (.rolling o) orders inputs).requests =
    (run .inert orders inputs).requests ↔ Admitted o (start (.rolling o) orders) inputs := by
  induction inputs using List.reverseRecOn with
  | nil => exact ⟨fun _ => trivial, fun _ => rfl⟩
  | append_singleton inputs l ih =>
    have hsame : ∀ d : Delivery, d.queue ≠ .orderCreated →
        ((run (.rolling o) orders inputs).handlers.lookup d).isSome =
          ((run .inert orders inputs).handlers.lookup d).isSome := by
      intro d _
      rw [isSome_run, isSome_run]
    rw [Admitted, along_concat]
    change _ ↔ Admitted o (start (.rolling o) orders) inputs ∧ _
    rw [← ih, run_concat, run_concat, (moves_step _ _ l).requests,
      (moves_step _ _ l).requests]
    change _ ↔ _ ∧ Admits o (run (.rolling o) orders inputs) l.1 l.2
    rw [← asked_eq_iff hsame]
    refine ⟨append_asked_inj hsame (fun _ => isSome_of_mem_requests)
      fun _ => isSome_of_mem_requests, fun ⟨hsent, hasked⟩ => ?_⟩
    rw [hsent, hasked]

/-- Without a breaker the settlement side is all that matters. -/
theorem requests_inert_settlement (inputs : List (ℕ × Input)) :
    (run .inert orders inputs).requests = (run .inert orders' (settlement inputs)).requests := by
  induction inputs using List.reverseRecOn with
  | nil => rfl
  | append_singleton inputs l ih =>
    have hsame : ∀ d : Delivery, d.queue ≠ .orderCreated →
        ((run .inert orders inputs).handlers.lookup d).isSome =
          ((run .inert orders' (settlement inputs)).handlers.lookup d).isSome := by
      intro d hd
      rw [isSome_run, isSome_run, any_settlement inputs hd]
    rw [run_concat, (moves_step _ _ l).requests, ih]
    cases hl : l.2.settles with
    | true =>
      rw [settlement_concat_of_settles hl, run_concat, (moves_step _ _ l).requests]
      congr 1
      exact asked_eq hsame fun _ _ _ _ _ => rfl
    | false => rw [settlement_concat_of_not hl, asked_of_not_settles hl, List.append_nil]

/-- Without a breaker runs with the same settlement send the same. -/
theorem requests_inert_of_same (h : SameSettlement inputs inputs') :
    (run .inert orders inputs).requests = (run .inert orders' inputs').requests := by
  calc (run .inert orders inputs).requests
      = (run .inert orders' (settlement inputs)).requests := requests_inert_settlement inputs
    _ = (run .inert orders' (settlement inputs')).requests := by rw [h]
    _ = (run .inert orders' inputs').requests := (requests_inert_settlement inputs').symm

/-! ## While few calls fail -/

/-- A call that fails leaves the share of failures in the window at the threshold or below. -/
def Tolerates (o : Breaker.Options) (s : Orchestrator Breaker.Window) (t : ℕ) : Input → Prop
  | .answer d (.error _) => (∃ event, s.handlers.lookup d = some ⟨event, .call⟩) →
      (s.breaker.fail t).exceeds o t = false
  | _ => True

section Tolerate

variable {s s' : Orchestrator Breaker.Window}

theorem admits_of_closed (h : s.breaker.mode = .closed) : Admits o s t l := by
  cases l with
  | deliver tag event =>
    intro _ _
    rw [Breaker.Window.ready, h]
  | _ => trivial

/-- **Only a share of failures over the threshold opens the breaker.** -/
theorem closed_of_moves (h : s.breaker.mode = .closed) (hl : Tolerates o s t l)
    (hmoves : Moves (.rolling o) s t l s') : s'.breaker.mode = .closed := by
  have hfire : (Breaker.rolling o).fire s.breaker t =
    (true, { s.breaker with fires := t :: s.breaker.fires }) := Breaker.fire_of_closed h
  cases hmoves with
  | calls hnew hcalled =>
    change ((Breaker.rolling o).fire s.breaker t).2.mode = _
    rw [hfire]
    exact h
  | rejected hnew hcalled =>
    rw [hfire] at hcalled
    cases hcalled
  | answers result hcall =>
    cases result with
    | ok reply => exact (congrArg Breaker.Window.mode (Breaker.note_of_closed h)).trans h
    | error message =>
      have hshare := hl ⟨_, hcall⟩
      exact (congrArg Breaker.Window.mode (Breaker.closed_of_not_exceeds h hshare)).trans h
  | writes hcall => exact (congrArg _ (setStatus_breaker _ _)).trans h
  | _ => exact h

theorem failures_le_of_moves (hmoves : Moves (.rolling o) s t l s') :
    s'.breaker.failures.length ≤ s.breaker.failures.length + 1 := by
  have hsame : ∀ {s' : Orchestrator Breaker.Window}, s'.breaker.failures = s.breaker.failures →
      s'.breaker.failures.length ≤ s.breaker.failures.length + 1 := fun hfailures =>
    hfailures ▸ Nat.le_succ _
  cases hmoves with
  | calls hnew hcalled => exact hsame (Breaker.failures_fire o s.breaker t)
  | rejected hnew hcalled => exact hsame (Breaker.failures_fire o s.breaker t)
  | answers result hcall => exact Breaker.failures_note_le o s.breaker t result.isOk
  | writes hcall => exact hsame (congrArg _ (setStatus_breaker _ _))
  | _ => exact hsame rfl

/-- **A run is admitted while few calls fail**: as long as no failed call takes the share of
failures in its window over the threshold. -/
theorem admitted_of_tolerated (h : s.breaker.mode = .closed)
    (hinputs : Along (step (.rolling o)) (fun s l => Tolerates o s l.1 l.2) s inputs) :
    Admitted o s inputs := by
  refine hinputs.of_invariant (I := fun s => s.breaker.mode = .closed) (fun s l hclosed hl => ?_) h
  exact ⟨admits_of_closed hclosed, closed_of_moves hclosed hl (moves_step _ _ l)⟩

end Tolerate

/-! ## Outweighing the failures -/

/-- Another order. -/
def otherOrder : Event := .created ⟨"p", "c", 5, [⟨"q", 1, 5⟩]⟩

/-- `n` orders are created at a time, and their reserve calls are answered at once. -/
def reserves (t : ℕ) : ℕ → ℕ → List (ℕ × Input)
  | _, 0 => []
  | tag, n + 1 => (t, .deliver tag otherOrder) ::
      (t, .answer ⟨.orderCreated, tag⟩ (.ok ⟨true, none⟩)) :: reserves t (tag + 1) n

/-- The inputs, each after `n` reserve calls that succeed. -/
def diluted (n : ℕ) : ℕ → List (ℕ × Input) → List (ℕ × Input)
  | _, [] => []
  | tag, l :: inputs => reserves l.1 tag n ++ l :: diluted n (tag + n) inputs

/-- The breaker is closed, few calls have failed, and orders are yet to come. -/
structure Calm (tag failed : ℕ) (s : Orchestrator Breaker.Window) : Prop where
  closed : s.breaker.mode = .closed
  failures_le : s.breaker.failures.length ≤ failed
  fresh : ∀ tag', tag ≤ tag' → s.handlers.lookup ⟨.orderCreated, tag'⟩ = none

section Dilute

variable {s s' : Orchestrator Breaker.Window} {tag failed n : ℕ}

/-- One more reserve call that succeeds. -/
theorem Calm.after_reserve (h : Calm tag failed s) :
    Calm (tag + 1) failed ((reserves t tag 1).foldl (step (.rolling o)) s) ∧
      ((reserves t tag 1).foldl (step (.rolling o)) s).breaker.fires = t :: s.breaker.fires := by
  have hnew : s.handlers.lookup ⟨otherOrder.queue, tag⟩ = none := h.fresh tag (Nat.le_refl tag)
  have hfire : (Breaker.rolling o).fire s.breaker t =
    (true, { s.breaker with fires := t :: s.breaker.fires }) := Breaker.fire_of_closed h.closed
  set called : Orchestrator Breaker.Window := { s with
    breaker := { s.breaker with fires := t :: s.breaker.fires }
    sent := s.sent ++ [⟨t, ⟨otherOrder.queue, tag⟩, otherOrder.request⟩] } with hcalled
  have hdeliver : step (.rolling o) s (t, .deliver tag otherOrder) =
      called.put ⟨.orderCreated, tag⟩ otherOrder .call := by
    simp only [step, hnew, fire, hfire]
    rfl
  have hnote : (Breaker.rolling o).note called.breaker t true = called.breaker :=
    Breaker.note_of_closed h.closed
  have hanswer : step (.rolling o) (called.put ⟨.orderCreated, tag⟩ otherOrder .call)
      (t, .answer ⟨.orderCreated, tag⟩ (.ok ⟨true, none⟩)) =
        (called.put ⟨.orderCreated, tag⟩ otherOrder .call).put ⟨.orderCreated, tag⟩ otherOrder
          (afterCall otherOrder (.ok ⟨true, none⟩)) := by
    simp only [step, lookup_put, if_true]
    exact congrArg (fun breaker => put { called.put ⟨.orderCreated, tag⟩ otherOrder .call with
      breaker := breaker } _ _ _) hnote
  rw [reserves, reserves, List.foldl_cons, List.foldl_cons, List.foldl_nil, hdeliver, hanswer]
  refine ⟨⟨h.closed, h.failures_le, fun tag' htag => ?_⟩, rfl⟩
  have hne : (⟨.orderCreated, tag'⟩ : Delivery) ≠ ⟨.orderCreated, tag⟩ := by
    intro heq
    have := congrArg Delivery.tag heq
    dsimp only at this
    omega
  rw [lookup_put, if_neg hne, lookup_put, if_neg hne]
  exact h.fresh tag' (by omega)

/-- The reserve calls of one moment leave the breaker closed, and are in its window. -/
theorem Calm.after_reserves (hbuckets : 0 < o.rollingCountBuckets) (h : Calm tag failed s) :
    Admitted o s (reserves t tag n) ∧
      Calm (tag + n) failed ((reserves t tag n).foldl (step (.rolling o)) s) ∧
      Breaker.Window.recent o t
        ((reserves t tag n).foldl (step (.rolling o)) s).breaker.fires =
          Breaker.Window.recent o t s.breaker.fires + n := by
  induction n generalizing tag s with
  | zero => exact ⟨trivial, h, rfl⟩
  | succ n ih =>
    obtain ⟨hone, hfires⟩ := h.after_reserve (o := o) (t := t)
    obtain ⟨hadmitted, hcalm, hrecent⟩ := ih hone
    have hsplit : reserves t tag (n + 1) = reserves t tag 1 ++ reserves t (tag + 1) n := rfl
    rw [hfires, Breaker.recent_cons _ hbuckets, Nat.add_assoc, Nat.add_comm 1 n] at hrecent
    rw [hsplit, Admitted, along_append, List.foldl_append, ← Nat.add_assoc, Nat.add_right_comm]
    exact ⟨⟨⟨admits_of_closed h.closed, trivial, trivial⟩, hadmitted⟩, hcalm, hrecent⟩

/-- One input of the settlement leaves it closed, if the window outweighs one more failure. -/
theorem Calm.moves (h : Calm tag failed s) (hsettles : l.settles = true)
    (hmoves : Moves (.rolling o) s t l s')
    (hshare : 100 * (failed + 1) ≤
      o.errorThresholdPercentage * Breaker.Window.recent o t s.breaker.fires) :
    Calm tag (failed + 1) s' := by
  have hfresh : ∀ tag', tag ≤ tag' → s'.handlers.lookup ⟨.orderCreated, tag'⟩ = none := by
    intro tag' htag
    rw [← Option.not_isSome_iff_eq_none, hmoves.isSome, h.fresh tag' htag, Option.isSome_none,
      Bool.false_or, Bool.not_eq_true]
    cases l with
    | deliver tag'' event =>
      refine decide_eq_false fun heq => ?_
      rw [Input.settles, decide_eq_true_iff] at hsettles
      exact hsettles (congrArg Delivery.queue heq).symm
    | _ => rfl
  have htolerated : Tolerates o s t l := by
    cases l with
    | answer d result =>
      cases result with
      | ok reply => trivial
      | error message =>
        have hfailed := Nat.mul_le_mul_left 100 (Nat.succ_le_succ h.failures_le)
        exact fun _ => Breaker.not_exceeds_of_le (Nat.le_trans hfailed hshare)
    | _ => trivial
  exact ⟨closed_of_moves h.closed htolerated hmoves,
    (failures_le_of_moves hmoves).trans (Nat.succ_le_succ h.failures_le), hfresh⟩

/-- After a hundred reserve calls for every call that may fail the breaker stays closed. -/
theorem Calm.admitted_diluted {failures : ℕ} (hthreshold : 0 < o.errorThresholdPercentage)
    (hbuckets : 0 < o.rollingCountBuckets) (h : Calm tag failed s)
    (hinputs : ∀ l ∈ inputs, l.2.settles = true) (hfailed : failed + inputs.length ≤ failures) :
    Admitted o s (diluted (100 * failures) tag inputs) := by
  induction inputs generalizing tag failed s with
  | nil => trivial
  | cons l inputs ih =>
    obtain ⟨hadmitted, hcalm, hrecent⟩ := h.after_reserves (n := 100 * failures) (t := l.1) hbuckets
    rw [List.length_cons] at hfailed
    have hshare : 100 * (failed + 1) ≤ o.errorThresholdPercentage *
        Breaker.Window.recent o l.1
          ((reserves l.1 tag (100 * failures)).foldl (step (.rolling o)) s).breaker.fires :=
      calc 100 * (failed + 1) ≤ 100 * failures := by omega
        _ ≤ _ := by rw [hrecent]; exact Nat.le_add_left _ _
        _ ≤ _ := Nat.le_mul_of_pos_left _ hthreshold
    rw [diluted, Admitted, along_append]
    exact ⟨hadmitted, admits_of_closed hcalm.closed,
      ih (hcalm.moves (hinputs l List.mem_cons_self) (moves_step _ _ l) hshare)
        (fun l' hl' => hinputs l' (List.mem_cons_of_mem l hl')) (by omega)⟩

end Dilute

theorem settlement_reserves (t tag n : ℕ) : settlement (reserves t tag n) = [] := by
  induction n generalizing tag with
  | zero => rfl
  | succ n ih => exact ih (tag + 1)

/-- The reserve calls are no part of the settlement. -/
theorem settlement_diluted (n tag : ℕ) (inputs : List (ℕ × Input)) :
    settlement (diluted n tag inputs) = settlement inputs := by
  induction inputs generalizing tag with
  | nil => rfl
  | cons l inputs ih =>
    have hreserves := settlement_reserves l.1 tag n
    have hrest := ih (tag + n)
    unfold settlement at hreserves hrest ⊢
    rw [diluted, List.filter_append, hreserves, List.nil_append, List.filter_cons,
      List.filter_cons, hrest]

theorem settlement_settlement (inputs : List (ℕ × Input)) :
    settlement (settlement inputs) = settlement inputs := by
  unfold settlement
  rw [List.filter_filter]
  simp only [Bool.and_self]

/-- **There is a run in which the breaker never opens**, with the payment messages of any run. -/
theorem exists_admitted (hthreshold : 0 < o.errorThresholdPercentage)
    (hbuckets : 0 < o.rollingCountBuckets) (orders : Table OrderId Orders.Order)
    (inputs : List (ℕ × Input)) :
    ∃ inputs', SameSettlement inputs inputs' ∧
      Admitted o (start (.rolling o) orders) inputs' := by
  have hcalm : Calm 0 0 (start (.rolling o) orders) :=
    ⟨rfl, Nat.le_refl 0, fun _ _ => Finmap.lookup_empty _⟩
  refine ⟨diluted (100 * (settlement inputs).length) 0 (settlement inputs), ?_,
    hcalm.admitted_diluted hthreshold hbuckets (fun l hl => (List.mem_filter.mp hl).2)
      (Nat.zero_add _).le⟩
  rw [SameSettlement, settlement_diluted, settlement_settlement]

/-- **When failures of reserve leave the settlement alone**: a run sends the same confirm and
release requests as every admitted run with the same settlement, iff it is admitted itself. -/
theorem sendsAlike_iff (orders : Table OrderId Orders.Order) (inputs : List (ℕ × Input)) :
    (∀ orders' inputs', SameSettlement inputs inputs' →
      Admitted inventoryOptions (start inventoryBreaker orders') inputs' →
        (run inventoryBreaker orders inputs).requests =
          (run inventoryBreaker orders' inputs').requests) ↔
    Admitted inventoryOptions (start inventoryBreaker orders) inputs := by
  constructor
  · intro h
    obtain ⟨inputs', hsame, hadmitted⟩ := exists_admitted (o := inventoryOptions) (by decide)
      (by decide) orders inputs
    refine requests_inert_iff.mp ?_
    calc (run inventoryBreaker orders inputs).requests
        = (run inventoryBreaker orders inputs').requests := h orders inputs' hsame hadmitted
      _ = (run .inert orders inputs').requests := requests_inert_iff.mpr hadmitted
      _ = (run .inert orders inputs).requests := (requests_inert_of_same hsame).symm
  · intro h orders' inputs' hsame hadmitted
    calc (run inventoryBreaker orders inputs).requests
        = (run .inert orders inputs).requests := requests_inert_iff.mpr h
      _ = (run .inert orders' inputs').requests := requests_inert_of_same hsame
      _ = (run inventoryBreaker orders' inputs').requests :=
        (requests_inert_iff.mpr hadmitted).symm

/-! ## An outage -/

section Outage

variable {s s' : Orchestrator Breaker.Window} {since : ℕ}

/-- While the breaker is open it stays open, and nothing is asked for. -/
theorem opened_of_step {t : ℕ} {l : Input} (h : s.breaker.mode = .opened since)
    (ht : t < since + o.resetTimeout) (hmoves : Moves (.rolling o) s t l s') :
    s'.breaker.mode = .opened since ∧ s'.requests = s.requests := by
  obtain ⟨hfire, hopened⟩ := Breaker.rejects_of_opened h ht
  have hfire : ((Breaker.rolling o).fire s.breaker t).1 = false := hfire
  constructor
  · cases hmoves with
    | ignores => exact h
    | calls hnew hcalled => exact hopened
    | rejected hnew hcalled => exact hopened
    | answers result hcall => exact Breaker.opened_of_note h ht _
    | writes hcall => exact (congrArg _ (setStatus_breaker _ _)).trans h
    | _ => exact h
  · rw [hmoves.requests]
    cases l with
    | deliver tag event =>
      rw [asked, if_neg fun hcon => Bool.false_ne_true (hfire.symm.trans hcon.2.2), List.append_nil]
    | _ => exact List.append_nil _

theorem requests_of_opened {rest : List (ℕ × Input)} (h : s.breaker.mode = .opened since)
    (hrest : ∀ l ∈ rest, l.1 < since + o.resetTimeout) :
    (rest.foldl (step (.rolling o)) s).requests = s.requests := by
  induction rest generalizing s with
  | nil => rfl
  | cons l rest ih =>
    obtain ⟨hopened, hsent⟩ := opened_of_step h (hrest l List.mem_cons_self)
      (moves_step (.rolling o) s l)
    rw [List.foldl_cons, ih hopened fun l' hl' => hrest l' (List.mem_cons_of_mem l hl'), hsent]

/-- **No paid order is confirmed during an outage**: one failed call that takes the share of
failures over the threshold, of whatever order and operation, ends the settlement of every
order until the reset timeout. -/
theorem requests_of_outage {rest : List (ℕ × Input)} {t : ℕ} {message : String} {event : Event}
    (hclosed : (run (.rolling o) orders inputs).breaker.mode = .closed)
    (hcall : (run (.rolling o) orders inputs).handlers.lookup d = some ⟨event, .call⟩)
    (hshare : ((run (.rolling o) orders inputs).breaker.fail t).exceeds o t = true)
    (hrest : ∀ l ∈ rest, l.1 < t + o.resetTimeout) :
    (run (.rolling o) orders (inputs ++ (t, .answer d (.error message)) :: rest)).requests =
      (run (.rolling o) orders inputs).requests := by
  have hstep : step (.rolling o) (run (.rolling o) orders inputs) (t, .answer d (.error message)) =
      put { run (.rolling o) orders inputs with
        breaker := Breaker.Window.note o (run (.rolling o) orders inputs).breaker t false } d event
          (afterCall event (.error message)) := by
    simp only [step, hcall]
    rfl
  have hopened := Breaker.opened_of_exceeds hclosed hshare
  rw [run, List.foldl_append, List.foldl_cons]
  change (rest.foldl _ (step _ (run (.rolling o) orders inputs) _)).requests = _
  rw [hstep, requests_of_opened hopened hrest]
  rfl

end Outage

/-! ## Runs -/

/-- An order is paid a minute into the run. -/
def paidOrder : ℕ × Input := (60000, .deliver 0 (.succeeded ⟨"o", some 0, .success⟩))

/-- The reserve call of another order has failed five seconds before. -/
def failedReserve : List (ℕ × Input) :=
  [(54000, .deliver 0 otherOrder), (55000, .answer ⟨.orderCreated, 0⟩ (.error "no reply"))]

/-- One reserve call that has failed keeps a paid order from being confirmed. -/
theorem not_sendsAlike_of_failed_reserve :
    ¬ ∀ orders orders' inputs inputs', SameSettlement inputs inputs' →
      (run inventoryBreaker orders inputs).requests =
        (run inventoryBreaker orders' inputs').requests := by
  intro h
  have hsent : (run inventoryBreaker ∅ [paidOrder]).requests ≠
      (run inventoryBreaker ∅ (failedReserve ++ [paidOrder])).requests := by decide +kernel
  exact hsent (h ∅ ∅ [paidOrder] (failedReserve ++ [paidOrder]) rfl)

end Orchestrator

end Saga

end Ecommerce
