import Ecommerce.Common.Redelivery
import Ecommerce.Common.Rely
import Ecommerce.Saga.Model
/-!
# Requests that come back

The three RPC handlers of inventory-service refuse a message the broker
has delivered before. Until then they answer, whatever their statements
come to. So each request is worked on at most once (`handled_once`), in
spite of a broker that delivers at least once and processes that die.
-/

namespace Ecommerce

namespace Inventory

open Saga (InventoryRpcRequest)

/-- The consumers of the three RPC queues. The payload is what the orchestrator sends. -/
def consumer : Consumer Op Ans Failure Reply InventoryRpcRequest where
  handler req redelivered := handler (req.toRequest redelivered)
  refuses reply := reply = .nack false

/-! ## The first delivery is answered -/

/-- A program with any statements and any end. -/
theorem respects_any {α : Type} (p : Prog α) : p.Respects (fun _ _ _ _ => True)
    (fun _ _ => True) (fun _ _ => True) (fun _ _ => True) () := by
  induction p with
  | done r => exact fun _ _ => trivial
  | call op k ih => exact fun _ r _ _ _ => ⟨trivial, ih r⟩

/-- It ends with a result, if it returns. -/
def Answers (p : Prog Reply) : Prop := p.Respects (fun _ _ _ _ => True) (fun _ _ => True)
  (fun _ _ => True) (fun r (_ : Unit) => ∀ a, r = .ok a → ∃ result, a = .result result) ()

theorem answers_result (result : RpcResult) : Answers (pure (.result result)) :=
  .returned fun _ _ _ ha => ⟨result, (Except.ok.inj ha).symm⟩

theorem answers_after {α : Type} (p : Prog α) {f : α → Prog Reply} (h : ∀ a, Answers (f a)) :
    Answers (p >>= f) :=
  (respects_any p).andThen (fun _ => trivial) (fun a _ _ => h a) fun _ _ _ _ ha => (by cases ha)

theorem answers_caught {p : Prog Reply} {f : Failure → Prog Reply} (hp : Answers p)
    (hf : ∀ e, Answers (f e)) : Answers (tryCatch p f) :=
  Program.Respects.caught (fun _ => trivial) hp (fun _ _ => id) fun e _ _ => hf e

theorem answers_of_path {p rest : Prog Reply} {calls : List (Program.Call Op Ans Failure)}
    (h : Answers p) (hpath : p.Path calls rest) : Answers rest := by
  induction hpath with
  | start => exact h
  | call r _ ih => exact (ih () r () trivial trivial).2

theorem answers_reserve (o : OrderId) (items : List ReservedItem) :
    Answers (reserve o items false) := by
  refine answers_caught (answers_after _ fun existing => ?_) fun e => ?_
  · cases existing with
    | some row => exact answers_result _
    | none => exact answers_after _ fun _ => answers_result _
  · cases e with
    | insufficientStock p => exact answers_result _
    | error message => exact answers_result _

theorem answers_confirm (o : OrderId) : Answers (confirm o false) := by
  refine answers_caught (answers_after _ fun reservation => ?_) fun e => answers_result _
  cases reservation with
  | none => exact answers_result _
  | some row =>
    change Answers (if row.status = .confirmed then _ else _)
    split
    · exact answers_result _
    · exact answers_after _ fun _ => answers_result _

theorem answers_release (o : OrderId) : Answers (release o false) := by
  refine answers_caught (answers_after _ fun reservation => ?_) fun e => answers_result _
  cases reservation with
  | none => exact answers_result _
  | some row =>
    change Answers (if row.status ≠ .reserved then _ else _)
    split
    · exact answers_result _
    · exact answers_after _ fun _ => answers_result _

/-- **The handlers refuse what comes back**, and nothing else. -/
theorem backstop_consumer : consumer.Backstop where
  again req := by
    cases req with
    | _ => exact ⟨.nack false, rfl, rfl⟩
  first req calls a hpath := by
    have hanswers : Answers (consumer.handler req false) := by
      cases req with
      | reserve o items => exact answers_reserve o _
      | confirm o => exact answers_confirm o
      | release o => exact answers_release o
    obtain ⟨result, rfl⟩ := answers_of_path hanswers hpath () trivial a rfl
    rfl

/-- **Each request of the orchestrator is worked on at most once**: whatever is redelivered and
wherever a process dies, the statements sent for it are the beginning of one run of its handler,
and at most that run's result is replied; it is acked only with the run complete, and in the
dead-letter queue only once it was delivered again. -/
theorem handled_once_of_reach
    {s : List (Consumer.Letter Op Ans Failure Reply InventoryRpcRequest)}
    {m : Consumer.Letter Op Ans Failure Reply InventoryRpcRequest}
    (h : Reach consumer.step (· = []) (fun _ _ => True) s) (hm : m ∈ s) :
    Consumer.HandledOnce consumer m := backstop_consumer.handledOnce_of_reach h hm

/-- Every statement finds nothing. -/
def findsNothing : (op : Op) → Except Failure (Ans op)
  | .findReservation _ => .ok none
  | .findStock _ => .ok none
  | .loadReservation _ => .ok none
  | .increaseReserved _ _ => .ok 0
  | .begin => .ok ()
  | .commit => .ok ()
  | .rollback => .ok ()
  | .insertStock _ _ => .ok ()
  | .decrement _ _ _ => .ok ()
  | .insertReservation _ _ => .ok ()
  | .updateStatus _ _ => .ok ()

/-- A release is replied to and acked. The process that reserves dies after a statement, and the
one that confirms after its reply: both requests come back and are dead-lettered. -/
theorem handled_once_of_crashes :
    ∃ s, Reach consumer.step (· = []) (fun _ _ => True) s ∧
      s.map (fun m => (m.deliveries, m.calls.length, m.replies.length)) =
        [(1, 1, 1), (2, 2, 0), (2, 1, 1)] ∧ ∀ m ∈ s, Consumer.HandledOnce consumer m := by
  obtain ⟨s, hreach, hs⟩ := Reach.exists_of_follow consumer.step (· = []) (fun _ _ => True) rfl
    [.publish (.release "o"), .publish (.reserve "p" [⟨"x", 1, 5⟩]), .publish (.confirm "q"),
      .deliver 0, .deliver 1, .deliver 2, .answer 0 findsNothing, .answer 1 findsNothing,
      .answer 1 findsNothing, .answer 2 findsNothing, .finish 0, .finish 2, .ack 0, .crash 1,
      .crash 2, .deliver 1, .deliver 2, .finish 1, .finish 2]
    (fun s => s.map (fun m => (m.deliveries, m.calls.length, m.replies.length)) =
      [(1, 1, 1), (2, 2, 0), (2, 1, 1)]) (by decide +kernel)
  exact ⟨s, hreach, of_decide_eq_true hs, fun m hm => handled_once_of_reach hreach hm⟩

end Inventory

end Ecommerce
