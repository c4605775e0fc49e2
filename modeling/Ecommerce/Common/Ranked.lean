import Ecommerce.Common.Machine
/-!
# Machines that come to rest

A rank bounds the work a state has left. Where every step lowers it but
those that bring in new work, the work brought in bounds the steps of a
run (`Reach.countP_le`); and a machine that can go on without new work
until it rests comes to rest from every state (`Reach.exists_rest`).
-/

namespace Ecommerce

variable {σ ℓ : Type*} {step : σ → ℓ → Option σ} {init : σ → Prop} {guard : σ → ℓ → Prop}

/-- Runs go on from where others have ended. -/
theorem Reach.trans {s s' : σ} (h : Reach step init guard s)
    (h' : Reach step (fun u => u = s) guard s') : Reach step init guard s' := by
  induction h' with
  | start h0 => exact h0 ▸ h
  | step _ hg hs ih => exact .step ih hg hs

/-- A run from the next state is one from this. -/
theorem Reach.head {s s' u : σ} {l : ℓ} (hg : guard s l) (hs : step s l = some s')
    (h : Reach step (fun u => u = s') guard u) : Reach step (fun u => u = s) guard u :=
  Reach.trans (.step (.start rfl) hg hs) h

/-- Runs that start in fewer states are runs. -/
theorem Reach.of_init {init' : σ → Prop} (hinit : ∀ s, init s → init' s) {s : σ}
    (h : Reach step init guard s) : Reach step init' guard s := by
  induction h with
  | start h0 => exact .start (hinit _ h0)
  | step _ hg hs ih => exact .step ih hg hs

/-- **A part of a machine runs** while the whole does: each step of the whole moves the part by
one of its own, or leaves it. -/
theorem Reach.project {τ ℓ' : Type*} {step' : τ → ℓ' → Option τ} {init' : τ → Prop}
    {guard' : τ → ℓ' → Prop} (part : σ → τ) (hinit : ∀ s, init s → init' (part s))
    (hstep : ∀ s l s', Reach step init guard s → guard s l → step s l = some s' →
      part s' = part s ∨ ∃ l', guard' (part s) l' ∧ step' (part s) l' = some (part s')) {s : σ}
    (h : Reach step init guard s) : Reach step' init' guard' (part s) := by
  induction h with
  | start h0 => exact .start (hinit _ h0)
  | step hreach hg hs ih =>
    rcases hstep _ _ _ hreach hg hs with hsame | ⟨l', hg', hs'⟩
    · rw [hsame]
      exact ih
    · exact .step ih hg' hs'

/-- A run that goes on from a state goes on from any trace that has led there. -/
theorem Reach.exists_traced {s s' : σ} (h : Reach step (fun u => u = s) guard s') (ls : List ℓ) :
    ∃ ls', Reach (traced step) (fun u => u = (s, ls)) (fun u l => guard u.1 l) (s', ls') := by
  induction h with
  | start h0 => exact ⟨ls, .start (by rw [h0])⟩
  | step _ hg hs ih =>
    obtain ⟨ls', hreach⟩ := ih
    exact ⟨ls' ++ [_], .step hreach hg (by rw [traced, hs]; rfl)⟩

/-- **The work brought in bounds the steps.** Each counted step lowers the rank, and each
label that costs raises it by less than `n`. -/
theorem Reach.countP_le {I : σ → Prop} {guard : σ × List ℓ → ℓ → Prop} (rank : σ → ℕ)
    (counts costs : ℓ → Bool) (n : ℕ) (hinit : ∀ s, init s → I s ∧ rank s = 0)
    (hstep : ∀ s l s', I s → step s l = some s' → I s' ∧
      rank s' + (if counts l then 1 else 0) ≤ rank s + if costs l then n else 0)
    {s : σ × List ℓ} (h : Reach (traced step) (untraced init) guard s) :
    s.2.countP counts + rank s.1 ≤ n * s.2.countP costs := by
  have hinv : I s.1 ∧ s.2.countP counts + rank s.1 ≤ n * s.2.countP costs := by
    refine h.invariant (I := fun s => I s.1 ∧ s.2.countP counts + rank s.1 ≤ n * s.2.countP costs)
      (fun s h0 => ?_) fun s l s' hinv _ hs => ?_
    · obtain ⟨hI, hrank⟩ := hinit s.1 h0.1
      exact ⟨hI, by rw [h0.2, hrank]; exact Nat.zero_le _⟩
    · obtain ⟨hnext, hlabels⟩ := traced_cases hs
      obtain ⟨hI, hrank⟩ := hstep s.1 l s'.1 hinv.1 hnext
      have hold := hinv.2
      have hcost : n * (if costs l then 1 else 0) = if costs l then n else 0 := by split <;> simp
      refine ⟨hI, ?_⟩
      rw [hlabels, List.countP_append, List.countP_append, List.countP_singleton,
        List.countP_singleton, Nat.mul_add, hcost]
      omega
  exact hinv.2

/-- **A machine that can go on until it rests comes to rest**, when no step it goes on by
raises the rank. -/
theorem Reach.exists_rest {I rests : σ → Prop} (rank : σ → ℕ)
    (hstep : ∀ s l s', I s → guard s l → step s l = some s' → I s' ∧ rank s' < rank s)
    (hgoes : ∀ s, I s → ¬ rests s → ∃ l s', guard s l ∧ step s l = some s') {s : σ} (h : I s) :
    ∃ s', Reach step (fun u => u = s) guard s' ∧ rests s' := by
  induction hn : rank s using Nat.strongRecOn generalizing s with
  | ind n ih =>
    by_cases hrest : rests s
    · exact ⟨s, .start rfl, hrest⟩
    · obtain ⟨l, t, hg, ht⟩ := hgoes s h hrest
      obtain ⟨hI, hlt⟩ := hstep s l t h hg ht
      obtain ⟨s', hreach, hrests⟩ := ih (rank t) (hn ▸ hlt) hI rfl
      have hfirst : Reach step (fun u => u = s) guard t := .step (.start rfl) hg ht
      exact ⟨s', hfirst.trans hreach, hrests⟩

end Ecommerce
