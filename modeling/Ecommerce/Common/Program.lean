import Mathlib.Control.Basic
/-!
# Programs that await

An asynchronous handler computes, awaits the answer of a collaborator and
goes on, and an awaited call either resolves or rejects. `Program` is the
tree of such a handler: a leaf returns or throws, a node names the call
awaited and continues with its answer. `try`/`catch` and the monad laws
are here, and two readings of a program: run alone against an
environment (`Program.run`), and laid out as a table of program points
(`LaysOut`), which is what an interleaving of several handlers steps
through. `LaysOut.run_invariant` carries an invariant of the points to
the run. `Program.NeverThrows` says that no answer of a collaborator makes
a program throw, and has a rule for each way of composing two.
-/

namespace Ecommerce

/-- A handler over the calls `Op`, whose answers have the types `Ans`, throwing
`ε` and returning `α`. -/
inductive Program (Op : Type) (Ans : Op → Type) (ε α : Type) : Type
  /-- The handler returned or threw. -/
  | done (r : Except ε α) : Program Op Ans ε α
  /-- The handler awaits `op` and continues with its answer. -/
  | call (op : Op) (k : Except ε (Ans op) → Program Op Ans ε α) : Program Op Ans ε α

variable {Op : Type} {Ans : Op → Type} {ε α β γ σ Pc : Type}

namespace Program

/-- Sequencing. -/
def bind : Program Op Ans ε α → (α → Program Op Ans ε β) → Program Op Ans ε β
  | done (.ok a), f => f a
  | done (.error e), _ => done (.error e)
  | call op k, f => call op fun r => (k r).bind f

/-- `try p catch e => h e`. -/
def catching : Program Op Ans ε α → (ε → Program Op Ans ε α) → Program Op Ans ε α
  | done (.ok a), _ => done (.ok a)
  | done (.error e), h => h e
  | call op k, h => call op fun r => (k r).catching h

/-- `await op`: a rejected call throws what it was rejected with. -/
def await (op : Op) : Program Op Ans ε (Ans op) := call op done

instance : Monad (Program Op Ans ε) where
  pure a := done (.ok a)
  bind := bind

instance : MonadExceptOf ε (Program Op Ans ε) where
  throw e := done (.error e)
  tryCatch := catching

@[simp] theorem pure_eq (a : α) : (pure a : Program Op Ans ε α) = done (.ok a) := rfl

@[simp] theorem throw_eq (e : ε) : (throw e : Program Op Ans ε α) = done (.error e) := rfl

@[simp] theorem done_ok_bind (a : α) (f : α → Program Op Ans ε β) :
    (done (.ok a) : Program Op Ans ε α) >>= f = f a := rfl

@[simp] theorem done_error_bind (e : ε) (f : α → Program Op Ans ε β) :
    (done (.error e) : Program Op Ans ε α) >>= f = done (.error e) := rfl

@[simp] theorem call_bind (op : Op) (k : Except ε (Ans op) → Program Op Ans ε α)
    (f : α → Program Op Ans ε β) : call op k >>= f = call op fun r => k r >>= f := rfl

@[simp] theorem tryCatch_done_ok (a : α) (h : ε → Program Op Ans ε α) :
    tryCatch (done (.ok a) : Program Op Ans ε α) h = done (.ok a) := rfl

@[simp] theorem tryCatch_done_error (e : ε) (h : ε → Program Op Ans ε α) :
    tryCatch (done (.error e) : Program Op Ans ε α) h = h e := rfl

@[simp] theorem tryCatch_call (op : Op) (k : Except ε (Ans op) → Program Op Ans ε α)
    (h : ε → Program Op Ans ε α) :
    tryCatch (call op k) h = call op fun r => tryCatch (k r) h := rfl

@[simp] theorem await_eq (op : Op) : (await op : Program Op Ans ε (Ans op)) = call op done := rfl

@[simp] theorem bind_assoc (p : Program Op Ans ε α) (f : α → Program Op Ans ε β)
    (g : β → Program Op Ans ε γ) : p >>= f >>= g = p >>= fun a => f a >>= g := by
  induction p with
  | done r => cases r <;> rfl
  | call op k ih =>
    simp only [call_bind]
    congr 1
    exact funext ih

@[simp] theorem bind_pure (p : Program Op Ans ε α) : p >>= pure = p := by
  induction p with
  | done r => cases r <;> rfl
  | call op k ih =>
    rw [call_bind]
    congr 1
    exact funext ih

/-! ## Running alone -/

/-- The run of a program against an environment that answers every call at once. -/
def run (env : (op : Op) → σ → Except ε (Ans op) × σ) :
    Program Op Ans ε α → σ → Except ε α × σ
  | done r, s => (r, s)
  | call op k, s => run env (k (env op s).1) (env op s).2

section Run

variable (env : (op : Op) → σ → Except ε (Ans op) × σ)

@[simp] theorem run_done (r : Except ε α) (s : σ) : (done r : Program Op Ans ε α).run env s = (r, s) :=
  rfl

@[simp] theorem run_call (op : Op) (k : Except ε (Ans op) → Program Op Ans ε α) (s : σ) :
    (call op k).run env s = (k (env op s).1).run env (env op s).2 := rfl

/-- An awaited call is answered, and the rest runs from there. -/
theorem run_await_bind (op : Op) (f : Ans op → Program Op Ans ε α) (s : σ) :
    (await op >>= f).run env s = (done (env op s).1 >>= f).run env (env op s).2 := rfl

/-- A sequence runs its second half where the first half has stopped. -/
theorem run_bind_of_ok {p : Program Op Ans ε α} {f : α → Program Op Ans ε β} {s s' : σ} {a : α}
    (h : p.run env s = (.ok a, s')) : (p >>= f).run env s = (f a).run env s' := by
  induction p generalizing s with
  | done r =>
    obtain ⟨rfl, rfl⟩ := Prod.mk.inj h
    rfl
  | call op k ih => exact ih _ h

/-- What the first half throws the sequence throws. -/
theorem run_bind_of_error {p : Program Op Ans ε α} {f : α → Program Op Ans ε β} {s s' : σ} {e : ε}
    (h : p.run env s = (.error e, s')) : (p >>= f).run env s = (.error e, s') := by
  induction p generalizing s with
  | done r =>
    obtain ⟨rfl, rfl⟩ := Prod.mk.inj h
    rfl
  | call op k ih => exact ih _ h

/-- A `catch` is not reached by what returns. -/
theorem run_tryCatch_of_ok {p : Program Op Ans ε α} {f : ε → Program Op Ans ε α} {s s' : σ} {a : α}
    (h : p.run env s = (.ok a, s')) : (tryCatch p f).run env s = (.ok a, s') := by
  induction p generalizing s with
  | done r =>
    obtain ⟨rfl, rfl⟩ := Prod.mk.inj h
    rfl
  | call op k ih => exact ih _ h

/-- A `catch` goes on where the body has thrown. -/
theorem run_tryCatch_of_error {p : Program Op Ans ε α} {f : ε → Program Op Ans ε α} {s s' : σ}
    {e : ε} (h : p.run env s = (.error e, s')) :
    (tryCatch p f).run env s = (f e).run env s' := by
  induction p generalizing s with
  | done r =>
    obtain ⟨rfl, rfl⟩ := Prod.mk.inj h
    rfl
  | call op k ih => exact ih _ h

/-- A sequence that returned ran both its halves. -/
theorem exists_of_run_bind {p : Program Op Ans ε α} {f : α → Program Op Ans ε β} {s s' : σ} {b : β}
    (h : (p >>= f).run env s = (.ok b, s')) :
    ∃ a s₁, p.run env s = (.ok a, s₁) ∧ (f a).run env s₁ = (.ok b, s') := by
  rcases hp : p.run env s with ⟨e | a, s₁⟩
  · rw [run_bind_of_error env hp] at h
    cases h
  · rw [run_bind_of_ok env hp] at h
    exact ⟨a, s₁, rfl, h⟩

/-- What a `try` returned its body has returned, or its `catch`. -/
theorem run_tryCatch_cases {p : Program Op Ans ε α} {f : ε → Program Op Ans ε α} {s s' : σ} {a : α}
    (h : (tryCatch p f).run env s = (.ok a, s')) :
    p.run env s = (.ok a, s') ∨
      ∃ e s₁, p.run env s = (.error e, s₁) ∧ (f e).run env s₁ = (.ok a, s') := by
  rcases hp : p.run env s with ⟨e | a', s₁⟩
  · rw [run_tryCatch_of_error env hp] at h
    exact .inr ⟨e, s₁, rfl, h⟩
  · rw [run_tryCatch_of_ok env hp] at h
    exact .inl h

end Run

/-! ## Programs that never throw -/

/-- **Whatever its calls come to, the program returns.** -/
def NeverThrows : Program Op Ans ε α → Prop
  | done (.ok _) => True
  | done (.error _) => False
  | call _ k => ∀ r, (k r).NeverThrows

theorem NeverThrows.returned (a : α) : (pure a : Program Op Ans ε α).NeverThrows := trivial

theorem NeverThrows.ite {c : Prop} [Decidable c] {p q : Program Op Ans ε α} (hp : p.NeverThrows)
    (hq : q.NeverThrows) : (if c then p else q).NeverThrows := by
  split
  · exact hp
  · exact hq

/-- Two halves that never throw make a whole that never does. -/
theorem NeverThrows.andThen {p : Program Op Ans ε α} {f : α → Program Op Ans ε β}
    (hp : p.NeverThrows) (hf : ∀ a, (f a).NeverThrows) : (p >>= f).NeverThrows := by
  induction p with
  | done r =>
    cases r with
    | ok a => exact hf a
    | error e => exact hp.elim
  | call op k ih => exact fun r => ih r (hp r)

/-- A `catch` that never throws ends what its body throws. -/
theorem NeverThrows.caught {p : Program Op Ans ε α} {h : ε → Program Op Ans ε α}
    (hh : ∀ e, (h e).NeverThrows) : (tryCatch p h).NeverThrows := by
  induction p with
  | done r =>
    cases r with
    | ok a => trivial
    | error e => exact hh e
  | call op k ih => exact fun r => ih r

/-- **It returns against every environment.** -/
theorem NeverThrows.run_ok {p : Program Op Ans ε α} (hp : p.NeverThrows)
    (env : (op : Op) → σ → Except ε (Ans op) × σ) (s : σ) : ∃ a, (p.run env s).1 = .ok a := by
  induction p generalizing s with
  | done r =>
    cases r with
    | ok a => exact ⟨a, rfl⟩
    | error e => exact hp.elim
  | call op k ih => exact ih _ (hp _) _

end Program

/-! ## Program points -/

/-- What a program does at one of its points: it has stopped, or it waits for
the answer to a call. -/
inductive Point (Op : Type) (Ans : Op → Type) (ε α Pc : Type) : Type
  /-- The program returned or threw. -/
  | stop (r : Except ε α) : Point Op Ans ε α Pc
  /-- The program awaits `op`; its answer decides the next point. -/
  | wait (op : Op) (next : Except ε (Ans op) → Pc) : Point Op Ans ε α Pc

/-- The program a point stands for, given the programs of the points after it. -/
def Point.unroll (code : Pc → Program Op Ans ε α) :
    Point Op Ans ε α Pc → Program Op Ans ε α
  | .stop r => .done r
  | .wait op next => .call op fun a => code (next a)

/-- **The table of points is the program.** From every point the program left
to run is the one the table describes. -/
def LaysOut (point : Pc → Point Op Ans ε α Pc) (code : Pc → Program Op Ans ε α) : Prop :=
  ∀ pc, code pc = (point pc).unroll code

/-- **An invariant of the points is one of the run.** What every answered call
preserves holds where the run stops, and the run stops at a point of the
table. -/
theorem LaysOut.run_invariant {point : Pc → Point Op Ans ε α Pc}
    {code : Pc → Program Op Ans ε α} (h : LaysOut point code)
    (env : (op : Op) → σ → Except ε (Ans op) × σ) (I : Pc → σ → Prop)
    (hstep : ∀ pc s op next, point pc = .wait op next → I pc s →
      I (next (env op s).1) (env op s).2)
    (pc : Pc) (s : σ) (h0 : I pc s) :
    ∃ pc', point pc' = .stop ((code pc).run env s).1 ∧ I pc' ((code pc).run env s).2 := by
  generalize hP : code pc = P
  induction P generalizing pc s with
  | done r =>
    have hpc := h pc
    rw [hP] at hpc
    cases hpt : point pc with
    | stop r' =>
      rw [hpt, Point.unroll, Program.done.injEq] at hpc
      exact ⟨pc, by rw [hpt, ← hpc]; rfl, h0⟩
    | wait op next => rw [hpt] at hpc; cases hpc
  | call op k ih =>
    have hpc := h pc
    rw [hP] at hpc
    cases hpt : point pc with
    | stop r' => rw [hpt] at hpc; cases hpc
    | wait op' next =>
      rw [hpt] at hpc
      obtain ⟨rfl, hk⟩ : op = op' ∧ HEq k fun a => code (next a) := by
        simpa [Point.unroll] using hpc
      obtain rfl := eq_of_heq hk
      exact ih _ _ _ (hstep pc s op next hpt h0) rfl

end Ecommerce
