import Ecommerce.Common.Program
/-!
# Two programs call by call

`Lockstep` relates two programs over different calls: each makes a call
that matches the other's, and whatever matching answers the two are given
they go on in lockstep, to the end. It has a rule for each way of composing
programs, and `Lockstep.run` for what it is about: environments that answer
matching calls alike bring the two to matching results.
-/

namespace Ecommerce

variable {Op Op' : Type} {Ans : Op → Type} {Ans' : Op' → Type} {ε α α' β β' σ σ' : Type}

/-- Results that are both errors, the same one, or both values that `R` relates. -/
inductive Results (R : α → α' → Prop) : Except ε α → Except ε α' → Prop
  | ok {a : α} {a' : α'} (h : R a a') : Results R (.ok a) (.ok a')
  | error (e : ε) : Results R (.error e) (.error e)

theorem Results.eq {r r' : Except ε α} (h : Results Eq r r') : r' = r := by
  cases h with
  | ok h => rw [h]
  | error e => rfl

namespace Program

/-- **Two programs in lockstep.** `C` says which calls match, and `A` which of their answers;
`R` relates what the two return. -/
inductive Lockstep (C : Op → Op' → Prop) (A : (op : Op) → (op' : Op') → Ans op → Ans' op' → Prop)
    (R : α → α' → Prop) : Program Op Ans ε α → Program Op' Ans' ε α' → Prop
  /-- Both have stopped. -/
  | done {r : Except ε α} {r' : Except ε α'} (h : Results R r r') :
    Lockstep C A R (.done r) (.done r')
  /-- Both wait. -/
  | call {op : Op} {op' : Op'} {k : Except ε (Ans op) → Program Op Ans ε α}
    {k' : Except ε (Ans' op') → Program Op' Ans' ε α'} (h : C op op')
    (hnext : ∀ r r', Results (A op op') r r' → Lockstep C A R (k r) (k' r')) :
    Lockstep C A R (.call op k) (.call op' k')

namespace Lockstep

variable {C : Op → Op' → Prop} {A : (op : Op) → (op' : Op') → Ans op → Ans' op' → Prop}
variable {R : α → α' → Prop} {Q : β → β' → Prop}
variable {p : Program Op Ans ε α} {p' : Program Op' Ans' ε α'}

theorem returned {a : α} {a' : α'} (h : R a a') :
    Lockstep (ε := ε) C A R (pure a) (pure a') := .done (.ok h)

theorem thrown (e : ε) :
    Lockstep C A R (throw e : Program Op Ans ε α) (throw e : Program Op' Ans' ε α') :=
  .done (.error e)

theorem awaited {op : Op} {op' : Op'} (h : C op op') :
    Lockstep (ε := ε) C A (A op op') (await op) (await op') := .call h fun _ _ hr => .done hr

/-- Less may be asked of what they return. -/
theorem imp {R' : α → α' → Prop} (h : Lockstep C A R p p') (himp : ∀ a a', R a a' → R' a a') :
    Lockstep C A R' p p' := by
  induction h with
  | done h =>
    cases h with
    | ok h => exact .done (.ok (himp _ _ h))
    | error e => exact .done (.error e)
  | call h _ ih => exact .call h fun r r' hr => ih r r' hr

/-- Two halves each. -/
theorem andThen {f : α → Program Op Ans ε β} {f' : α' → Program Op' Ans' ε β'}
    (h : Lockstep C A R p p') (hf : ∀ a a', R a a' → Lockstep C A Q (f a) (f' a')) :
    Lockstep C A Q (p >>= f) (p' >>= f') := by
  induction h with
  | done h =>
    cases h with
    | ok h => exact hf _ _ h
    | error e => exact .done (.error e)
  | call h _ ih => exact .call h fun r r' hr => ih r r' hr

/-- A body and a `catch` each. -/
theorem caught {h : ε → Program Op Ans ε α} {h' : ε → Program Op' Ans' ε α'}
    (hp : Lockstep C A R p p') (hh : ∀ e, Lockstep C A R (h e) (h' e)) :
    Lockstep C A R (tryCatch p h) (tryCatch p' h') := by
  induction hp with
  | done h =>
    cases h with
    | ok h => exact .done (.ok h)
    | error e => exact hh e
  | call h _ ih => exact .call h fun r r' hr => ih r r' hr

/-- One decision for both. -/
theorem ite {c : Prop} [Decidable c] {q : Program Op Ans ε α} {q' : Program Op' Ans' ε α'}
    (hp : c → Lockstep C A R p p') (hq : ¬ c → Lockstep C A R q q') :
    Lockstep C A R (if c then p else q) (if c then p' else q') := by
  split
  · exact hp ‹_›
  · exact hq ‹_›

/-- **Environments that answer matching calls alike bring the two to matching ends.** -/
theorem run {env : (op : Op) → σ → Except ε (Ans op) × σ}
    {env' : (op : Op') → σ' → Except ε (Ans' op) × σ'} {S : σ → σ' → Prop}
    (henv : ∀ op op' s s', C op op' → S s s' →
      Results (A op op') (env op s).1 (env' op' s').1 ∧ S (env op s).2 (env' op' s').2)
    (h : Lockstep C A R p p') {s : σ} {s' : σ'} (hs : S s s') :
    Results R (p.run env s).1 (p'.run env' s').1 ∧ S (p.run env s).2 (p'.run env' s').2 := by
  induction h generalizing s s' with
  | done h => exact ⟨h, hs⟩
  | call h _ ih =>
    obtain ⟨hr, hs'⟩ := henv _ _ _ _ h hs
    exact ih _ _ hr hs'

end Lockstep

end Program

end Ecommerce
