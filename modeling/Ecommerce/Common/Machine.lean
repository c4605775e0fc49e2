import Mathlib.Data.List.Basic
/-!
# Guarded machines

A machine is a partial step function on states and labels. `Reach` is the
set of states its runs reach when every step is one a guard allows, and
the guard is where an environment (which faults it may inject) or a
condition on runs is stated. `Reach.invariant` is the induction every
safety result goes through, and `Reach.exists_of_follow` turns a list of
labels into a reachable state. For a machine that takes every label,
`Along` is a condition on all steps of a run.
-/

namespace Ecommerce

variable {σ ℓ : Type*} {step : σ → ℓ → Option σ} {init : σ → Prop} {guard : σ → ℓ → Prop}

/-- The states reached from an initial one by steps the guard allows. -/
inductive Reach (step : σ → ℓ → Option σ) (init : σ → Prop) (guard : σ → ℓ → Prop) : σ → Prop
  /-- A run starts in an initial state. -/
  | start {s : σ} : init s → Reach step init guard s
  /-- A run goes on by an enabled step the guard allows. -/
  | step {s s' : σ} {l : ℓ} :
      Reach step init guard s → guard s l → step s l = some s' → Reach step init guard s'

/-- **The induction on runs.** What holds initially and is kept by every allowed
step holds of every reached state. -/
theorem Reach.invariant {I : σ → Prop} (hinit : ∀ s, init s → I s)
    (hstep : ∀ s l s', I s → guard s l → step s l = some s' → I s') {s : σ}
    (h : Reach step init guard s) : I s := by
  induction h with
  | start h0 => exact hinit _ h0
  | step _ hg hs ih => exact hstep _ _ _ ih hg hs

/-- The same induction on the runs from one state. -/
theorem Reach.invariant_from {I : σ → Prop} {s₀ s : σ} (h : Reach step (· = s₀) guard s)
    (h₀ : I s₀) (hstep : ∀ s l s', I s → guard s l → step s l = some s' → I s') : I s :=
  h.invariant (fun _ heq => heq ▸ h₀) hstep

/-- The same induction, where a step may use what is known of every reached state. -/
theorem Reach.induct {I : σ → Prop} (hinit : ∀ s, init s → I s)
    (hstep : ∀ s l s', Reach step init guard s → I s → guard s l → step s l = some s' → I s')
    {s : σ} (h : Reach step init guard s) : I s := by
  induction h with
  | start h0 => exact hinit _ h0
  | step hreach hg hs ih => exact hstep _ _ _ hreach ih hg hs

/-- A weaker guard reaches more. -/
theorem Reach.mono {guard' : σ → ℓ → Prop} (hg : ∀ s l, guard s l → guard' s l) {s : σ}
    (h : Reach step init guard s) : Reach step init guard' s := by
  induction h with
  | start h0 => exact .start h0
  | step _ hl hs ih => exact .step ih (hg _ _ hl) hs

/-! ## The labels of a run -/

/-- The machine that keeps the labels of its run. -/
def traced (step : σ → ℓ → Option σ) (s : σ × List ℓ) (l : ℓ) : Option (σ × List ℓ) :=
  (step s.1 l).map fun s' => (s', s.2 ++ [l])

/-- It starts with none. -/
def untraced (init : σ → Prop) (s : σ × List ℓ) : Prop := init s.1 ∧ s.2 = []

theorem traced_cases {s s' : σ × List ℓ} {l : ℓ} (h : traced step s l = some s') :
    step s.1 l = some s'.1 ∧ s'.2 = s.2 ++ [l] := by
  obtain ⟨t, ht, rfl⟩ := Option.map_eq_some_iff.mp h
  exact ⟨ht, rfl⟩

/-- Keeping the labels changes nothing else. -/
theorem Reach.of_traced {guard : σ × List ℓ → ℓ → Prop} {guard' : σ → ℓ → Prop}
    (hg : ∀ s l, guard s l → guard' s.1 l) {s : σ × List ℓ}
    (h : Reach (traced step) (untraced init) guard s) : Reach step init guard' s.1 := by
  induction h with
  | start h0 => exact .start h0.1
  | step _ hl hs ih => exact .step ih (hg _ _ hl) (traced_cases hs).1

/-! ## Concrete runs -/

/-- The state a list of labels leads to, when every step is enabled and allowed. -/
def follow (step : σ → ℓ → Option σ) (guard : σ → ℓ → Prop)
    [∀ s l, Decidable (guard s l)] (s : σ) : List ℓ → Option σ
  | [] => some s
  | l :: ls => if guard s l then (step s l).bind fun s' => follow step guard s' ls else none

theorem Reach.of_follow [∀ s l, Decidable (guard s l)] {ls : List ℓ} :
    ∀ {s s' : σ}, Reach step init guard s → follow step guard s ls = some s' →
      Reach step init guard s' := by
  induction ls with
  | nil =>
    intro s s' h hf
    obtain rfl : s = s' := Option.some.inj hf
    exact h
  | cons l ls ih =>
    intro s s' h hf
    rw [follow] at hf
    split at hf
    · obtain ⟨t, ht, hrest⟩ := Option.bind_eq_some_iff.mp hf
      exact ih (.step h ‹_› ht) hrest
    · cases hf

/-- **A run that was followed is a run.** The state a list of labels leads to is
reachable, and has the property it was checked for. -/
theorem Reach.exists_of_follow (step : σ → ℓ → Option σ) (init : σ → Prop) (guard : σ → ℓ → Prop)
    [∀ s l, Decidable (guard s l)] {s : σ} (h : init s) (ls : List ℓ) (p : σ → Bool)
    (hp : (follow step guard s ls).any p = true) :
    ∃ s', Reach step init guard s' ∧ p s' = true := by
  cases hf : follow step guard s ls with
  | none => rw [hf] at hp; cases hp
  | some s' => exact ⟨s', .of_follow (.start h) hf, by simpa [hf] using hp⟩

/-! ## Total machines -/

section Total

variable {next : σ → ℓ → σ} {P Q : σ → ℓ → Prop} {s : σ} {ls rest : List ℓ}

/-- Every step of a run meets a condition. -/
def Along (next : σ → ℓ → σ) (P : σ → ℓ → Prop) : σ → List ℓ → Prop
  | _, [] => True
  | s, l :: ls => P s l ∧ Along next P (next s l) ls

theorem along_append :
    Along next P s (ls ++ rest) ↔ Along next P s ls ∧ Along next P (ls.foldl next s) rest := by
  induction ls generalizing s with
  | nil => exact ⟨fun h => ⟨trivial, h⟩, And.right⟩
  | cons l ls ih =>
    rw [List.cons_append, Along, Along, ih, and_assoc]
    rfl

theorem along_concat {l : ℓ} :
    Along next P s (ls ++ [l]) ↔ Along next P s ls ∧ P (ls.foldl next s) l := by
  rw [along_append]
  exact and_congr_right fun _ => and_iff_left trivial

/-- **An invariant turns one condition on the steps into another.** -/
theorem Along.of_invariant {I : σ → Prop} (hstep : ∀ s l, I s → P s l → Q s l ∧ I (next s l))
    (hs : I s) (h : Along next P s ls) : Along next Q s ls := by
  induction ls generalizing s with
  | nil => trivial
  | cons l ls ih =>
    obtain ⟨hl, hrest⟩ := h
    obtain ⟨hq, hnext⟩ := hstep s l hs hl
    exact ⟨hq, ih hnext hrest⟩

end Total

end Ecommerce
