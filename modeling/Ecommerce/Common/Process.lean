import Ecommerce.Common.Ranked
import Mathlib.Logic.Function.Basic
import Mathlib.Logic.Relation
/-!
# Processes

A process takes each of its items through phases: an item is placed in
the first one and goes on along `next`, one item at a time and in one
indivisible step. It says what a system is for where the system itself
takes many steps on many stores. `Process.exists_move` is what one step
of such a system has to show, and `Process.path_of_reach` what a run then
makes of each item.
-/

namespace Ecommerce

/-- A step of a process. -/
inductive Process.Move (κ φ : Type*)
  /-- An item is placed. -/
  | place (k : κ)
  /-- It goes on to a phase. -/
  | go (k : κ) (p : φ)

namespace Process

variable {κ φ : Type*} [DecidableEq κ] {first : φ} {next : φ → φ → Bool}

/-- The process: the phase of each item that was placed. -/
def step (first : φ) (next : φ → φ → Bool) (s : κ → Option φ) : Move κ φ → Option (κ → Option φ)
  | .place k =>
    match s k with
    | none => some (Function.update s k (some first))
    | some _ => none
  | .go k p =>
    match s k with
    | none => none
    | some q => if next q p then some (Function.update s k (some p)) else none

/-- What may become of an item in one step. -/
def Steps (first : φ) (next : φ → φ → Bool) (p p' : Option φ) : Prop :=
  p = none ∧ p' = some first ∨ ∃ q q', p = some q ∧ p' = some q' ∧ next q q' = true

variable {s s' : κ → Option φ} {k : κ} {p : φ}

/-- **One item that goes a step** is a step of the process. -/
theorem exists_move (hother : ∀ k', k' ≠ k → s' k' = s k') (h : Steps first next (s k) (s' k)) :
    ∃ m, step first next s m = some s' := by
  have hupdate : Function.update s k (s' k) = s' := by
    funext k'
    by_cases hk : k' = k
    · rw [hk, Function.update_self]
    · rw [Function.update_of_ne hk, hother k' hk]
  rcases h with ⟨hnone, hfirst⟩ | ⟨q, q', hq, hq', hnext⟩
  · refine ⟨.place k, ?_⟩
    rw [hfirst] at hupdate
    simp only [step, hnone, hupdate]
  · refine ⟨.go k q', ?_⟩
    rw [hq'] at hupdate
    simp only [step, hq, hnext, hupdate, if_true]

/-- A step takes an item along `next`, if at all. -/
theorem next_of_step {m : Move κ φ} (hs : step first next s m = some s') (hp : s k = some p) :
    ∃ q, s' k = some q ∧ (q = p ∨ next p q = true) := by
  cases m with
  | place k' =>
    simp only [step] at hs
    cases hk' : s k' with
    | some q =>
      rw [hk'] at hs
      cases hs
    | none =>
      rw [hk'] at hs
      obtain rfl := Option.some.inj hs
      have hne : k ≠ k' := by
        rintro rfl
        rw [hk'] at hp
        cases hp
      exact ⟨p, by rw [Function.update_of_ne hne, hp], .inl rfl⟩
  | go k' q =>
    simp only [step] at hs
    cases hk' : s k' with
    | none =>
      rw [hk'] at hs
      cases hs
    | some q₀ =>
      rw [hk'] at hs
      simp only [Option.ite_none_right_eq_some] at hs
      obtain ⟨hnext, heq⟩ := hs
      obtain rfl := Option.some.inj heq
      by_cases hk : k = k'
      · subst hk
        obtain rfl := Option.some.inj (hp.symm.trans hk')
        exact ⟨q, by rw [Function.update_self], .inr hnext⟩
      · exact ⟨p, by rw [Function.update_of_ne hk, hp], .inl rfl⟩

/-- **What becomes of an item** is a path along `next`. -/
theorem path_of_reach {t : κ → Option φ}
    (h : Reach (step first next) (fun u => u = s) (fun _ _ => True) t) (hp : s k = some p) :
    ∃ q, t k = some q ∧ Relation.ReflTransGen (fun a b => next a b = true) p q := by
  refine h.invariant (I := fun t => ∃ q, t k = some q ∧
    Relation.ReflTransGen (fun a b => next a b = true) p q) (fun t h0 => ?_)
    fun t m t' hinv _ hs => ?_
  · subst h0
    exact ⟨p, hp, .refl⟩
  · obtain ⟨q, hq, hpath⟩ := hinv
    obtain ⟨q', hq', rfl | hnext⟩ := next_of_step hs hq
    · exact ⟨q', hq', hpath⟩
    · exact ⟨q', hq', hpath.tail hnext⟩

/-- A phase nothing comes after is final. -/
theorem eq_of_path {q : φ} (hfinal : ∀ q, next p q = false)
    (h : Relation.ReflTransGen (fun a b => next a b = true) p q) : q = p := by
  rcases Relation.ReflTransGen.cases_head h with heq | ⟨q', hnext, -⟩
  · exact heq.symm
  · rw [hfinal q'] at hnext
    cases hnext

end Process

end Ecommerce
