import Ecommerce.Common.Machine
import Ecommerce.Saga.Steps
/-!
# The tokens of the composed saga

What holds of everything in flight, in every run: a handler stands at a
point its event leads to, and a `payment.requested` message never carries
a count that would send it to the DLQ.
-/

namespace Ecommerce

namespace Saga

open Payments (retryCount MAX_RETRIES)

/-- The points the handler of an event gets to. -/
def Event.Reaches : Event → Pc → Prop
  | .created _, .update status => status = .inventoryReserved ∨ status = .cancelled
  | .succeeded _, .update status => status = .completed
  | .failed _, .update status => status = .cancelled
  | .created event, .publishPayment request => request = paymentOf event
  | _, .publishPayment _ => False
  | _, _ => True

/-- **The shape of what is in flight.** -/
def Token.Formed : Token → Prop
  | .queued queue m => retryCount m.xDeath < MAX_RETRIES ∧ (queue.deadLetter.isSome → m.xDeath = [])
  | .saga event pc _ => event.Reaches pc
  | .payment _ xDeath pc =>
    retryCount xDeath < MAX_RETRIES ∧ pc ≠ .publishDlq ∧ pc ≠ .publishGivenUp
  | _ => True

variable {s s' : System} {t : Token} {c : Choice} {base : System} {out : Multiset Token}

theorem formed_of_queued (queue : Queue) (body : Body) :
    Token.Formed (.queued queue ⟨body, []⟩) :=
  ⟨show retryCount [] < MAX_RETRIES by decide, fun _ => rfl⟩

/-- What is left of a count after one expiry. -/
theorem retryCount_recordDeath (queue : Queue) :
    retryCount (recordDeath queue .expired []) < MAX_RETRIES := by
  change 1 < 3
  omega

theorem formed_of_tells {event : Event} {pc : Pc} (h : pc.tells = true) : event.Reaches pc := by
  cases pc with
  | find status => cases event <;> trivial
  | publishStatus status customerId => cases event <;> trivial
  | _ => cases h

theorem reaches_afterCall (event : Event) (r : Except String Inventory.RpcResult) :
    event.Reaches (afterCall event r) := by
  cases event with
  | created event =>
    rcases r with message | ⟨_ | _, reason⟩
    · exact .inr rfl
    · exact .inr rfl
    · exact .inl rfl
  | succeeded event =>
    rcases r with message | ⟨_ | _, reason⟩
    · trivial
    · trivial
    · exact rfl
  | failed event => exact rfl

theorem reaches_afterStatus (event : Event) (status : OrderStatus) :
    event.Reaches (afterStatus event status) := by
  cases event with
  | created event =>
    cases status with
    | inventoryReserved => exact rfl
    | _ => trivial
  | _ => trivial

theorem formed_goOn {event : Event} {pc : Pc} (h : event.Reaches pc) :
    ∀ u ∈ goOn event pc, u.Formed := by
  intro u hu
  rw [mem_goOn hu]
  exact h

theorem formed_abandoned (event : Event) (pc : Pc) (rpc : Rpc) :
    ∀ u ∈ abandoned event pc rpc, u.Formed := by
  intro u hu
  rw [mem_abandoned hu]
  trivial

/-- The idempotency read leads to the gateway. -/
theorem afterFind_eq_fire {xDeath : List Death} (h : retryCount xDeath < MAX_RETRIES) :
    Payments.afterFind xDeath none = .fire := if_neg (Nat.not_le.mpr h)

theorem formed_start {queue : Queue} {m : Message} (h : start queue m = some t)
    (hm : retryCount m.xDeath < MAX_RETRIES) : t.Formed := by
  cases starts_of_start h with
  | requested event xDeath => exact ⟨hm, by simp, by simp⟩
  | _ => trivial

/-- **What a well-formed token puts in flight is well formed.** -/
theorem React.formed (hr : React s t c base out) (ht : t.Formed) : ∀ u ∈ out, u.Formed := by
  have hone : ∀ {u : Token}, u.Formed → ∀ v ∈ ({u} : Multiset Token), v.Formed :=
    fun hu v hv => (Multiset.mem_singleton.mp hv).symm ▸ hu
  cases hr with
  | relays event => exact hone (formed_of_queued _ _)
  | starts h => exact hone (formed_start h ht.1)
  | expires m hq =>
    have hheader := ht.2 hq
    obtain ⟨body, xDeath⟩ := m
    obtain rfl : xDeath = [] := hheader
    exact hone ⟨retryCount_recordDeath _, fun hcon => by cases hcon⟩
  | sends event => exact hone (by cases event <;> trivial)
  | handled event redelivered faults => exact hone (by cases event <;> trivial)
  | hears event r => exact formed_goOn (reaches_afterCall event _)
  | loses event r => exact hone (by cases event <;> trivial)
  | givesUp event rpc message =>
    intro u hu
    rcases Multiset.mem_add.mp hu with hu | hu
    · exact formed_abandoned event .call rpc u hu
    · exact formed_goOn (reaches_afterCall event _) u hu
  | writes event status rpc =>
    refine formed_goOn ?_
    change event.Reaches (if isTerminal status then _ else _)
    split
    · exact formed_of_tells rfl
    · exact reaches_afterStatus event status
  | writeFails event status rpc message => exact formed_goOn (reaches_afterStatus event status)
  | tells event rpc c hpc hpc' =>
    refine formed_goOn ?_
    rcases hpc' with hpc' | rfl
    · exact formed_of_tells hpc'
    · cases event <;> trivial
  | requests event request rpc => exact hone (formed_of_queued _ _)
  | crashes event pc rpc =>
    intro u hu
    rcases Multiset.mem_add.mp hu with hu | hu
    · exact formed_abandoned event pc rpc u hu
    · obtain rfl := Multiset.mem_singleton.mp hu
      cases event with
      | _ event => exact formed_of_queued _ _
  | unpaid hnone =>
    rw [afterFind_eq_fire ht.1]
    exact hone ⟨ht.1, by simp, by simp⟩
  | movesToDlq event xDeath => exact absurd rfl ht.2.1
  | givenUp event xDeath => exact absurd rfl ht.2.2
  | charged event xDeath status => exact hone ⟨ht.1, by simp, by simp⟩
  | chargeFails event xDeath message => exact hone ⟨ht.1, by simp, by simp⟩
  | retries event xDeath hq => exact hone (formed_of_queued _ _)
  | saves event xDeath status => exact hone ⟨ht.1, by simp, by simp⟩
  | announces event xDeath id status => exact hone (formed_of_queued _ _)
  | requeues event xDeath pc hc => exact hone ⟨ht.1, fun hcon => by cases hcon⟩
  | _ => intro u hu; cases hu

theorem formed_copy (ht : t.Formed) : ∀ u ∈ t.copy, u.Formed := by
  intro u hu
  obtain rfl | ⟨event, rfl, rfl⟩ := mem_copy hu
  · exact ht
  · trivial

/-- **Every step keeps what is in flight well formed.** -/
theorem formed_of_step {l : Label} (h : ∀ t ∈ s.flight, t.Formed) (hs : s.step l = some s') :
    ∀ t ∈ s'.flight, t.Formed := by
  obtain ⟨o, dto, result, order, event, rfl, hcreate, hfresh, rfl⟩ |
    ⟨t, c, base, out, rfl, ht, hr, rfl⟩ | ⟨t, rfl, ht, rfl⟩ := System.step_cases hs
  · intro u hu
    rcases Multiset.mem_add.mp hu with hu | hu
    · obtain rfl := Multiset.mem_singleton.mp hu
      trivial
    · exact h u hu
  · intro u hu
    rcases Multiset.mem_add.mp hu with hu | hu
    · exact hr.formed (h t ht) u hu
    · rw [System.flight_of_react hr] at hu
      exact h u (Multiset.mem_of_mem_erase hu)
  · intro u hu
    rcases Multiset.mem_add.mp hu with hu | hu
    · exact formed_copy (h t ht) u hu
    · exact h u hu

end Saga

end Ecommerce
