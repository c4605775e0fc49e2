import Mathlib.Data.Finmap
import Mathlib.Algebra.Order.BigOperators.Group.Multiset
import Mathlib.Tactic.Abel
/-!
# Tables

A table with a unique column is a finite map from that column to the rest
of the row, and `lookup_insert_cases` says what rows a write leaves.
`Table.tally` sums a weight over the rows. An inserted row adds its weight,
and a replaced row trades its old weight for the new one, so a tally is
known after every statement without walking the table.
-/

namespace Ecommerce

/-- A table whose rows `ρ` are named by a unique column `κ`. -/
abbrev Table (κ ρ : Type) := Finmap fun _ : κ => ρ

namespace Table

variable {κ ρ M : Type} [DecidableEq κ] {t u : Table κ ρ} {k k' : κ} {r r₀ : ρ}

theorem lookup_union : (t ∪ u).lookup k = (t.lookup k).or (u.lookup k) := by
  by_cases h : k ∈ t
  · obtain ⟨r, hr⟩ := Finmap.mem_iff.mp h
    rw [Finmap.lookup_union_left h, hr]
    rfl
  · rw [Finmap.lookup_union_right h, Finmap.lookup_eq_none.mpr h]
    rfl

/-- A replaced row is an erased one, inserted again. -/
theorem insert_erase : (t.erase k).insert k r = t.insert k r := by
  refine Finmap.ext_lookup fun x => ?_
  by_cases hx : x = k
  · subst hx
    simp only [Finmap.lookup_insert]
  · rw [Finmap.lookup_insert_of_ne _ hx, Finmap.lookup_insert_of_ne _ hx,
      Finmap.lookup_erase_ne hx]

/-- Writing a row back changes nothing. -/
theorem insert_lookup (h : t.lookup k = some r) : t.insert k r = t := by
  refine Finmap.ext_lookup fun x => ?_
  by_cases hx : x = k
  · subst hx
    rw [Finmap.lookup_insert, h]
  · rw [Finmap.lookup_insert_of_ne _ hx]

/-- **A row after an insert** is the inserted one, or was there before. -/
theorem lookup_insert_cases (h : (t.insert k r).lookup k' = some r₀) :
    k' = k ∧ r₀ = r ∨ k' ≠ k ∧ t.lookup k' = some r₀ := by
  by_cases hk : k' = k
  · rw [hk, Finmap.lookup_insert, Option.some.injEq] at h
    exact .inl ⟨hk, h.symm⟩
  · rw [Finmap.lookup_insert_of_ne _ hk] at h
    exact .inr ⟨hk, h⟩

/-- An insert under a new key leaves every row. -/
theorem lookup_insert_of_fresh (hfresh : t.lookup k = none) (h : t.lookup k' = some r₀) :
    (t.insert k r).lookup k' = some r₀ := by
  have hne : k' ≠ k := by
    rintro rfl
    rw [hfresh] at h
    cases h
  rw [Finmap.lookup_insert_of_ne _ hne, h]

section Tally

variable [AddCommMonoid M] {w : κ → ρ → M}

/-- The sum of a weight over the rows. -/
def tally (w : κ → ρ → M) (t : Table κ ρ) : M :=
  (t.entries.map fun e => w e.1 e.2).sum

omit [DecidableEq κ] in
@[simp] theorem tally_empty : tally w (∅ : Table κ ρ) = 0 := rfl

/-- **An inserted row adds its weight.** -/
theorem tally_insert_of_notMem (h : k ∉ t) : tally w (t.insert k r) = w k r + tally w t := by
  rw [tally, Finmap.entries_insert_of_notMem h, Multiset.map_cons, Multiset.sum_cons]
  rfl

/-- **A replaced row trades its weight.** -/
theorem tally_insert_of_lookup (h : t.lookup k = some r₀) :
    tally w (t.insert k r) + w k r₀ = tally w t + w k r := by
  have hnot : k ∉ t.erase k := Finmap.notMem_erase_self
  have hback : tally w t = w k r₀ + tally w (t.erase k) := by
    rw [← tally_insert_of_notMem hnot, insert_erase, insert_lookup h]
  rw [← insert_erase, tally_insert_of_notMem hnot, hback]
  abel

theorem tally_eq_zero (h : ∀ k r, t.lookup k = some r → w k r = 0) : tally w t = 0 := by
  refine Multiset.sum_eq_zero fun x hx => ?_
  obtain ⟨e, he, rfl⟩ := Multiset.mem_map.mp hx
  exact h e.1 e.2 (Finmap.mem_lookup_iff.mpr he)

theorem tally_nonneg [PartialOrder M] [IsOrderedAddMonoid M]
    (h : ∀ k r, t.lookup k = some r → 0 ≤ w k r) : 0 ≤ tally w t := by
  refine Multiset.sum_nonneg fun x hx => ?_
  obtain ⟨e, he, rfl⟩ := Multiset.mem_map.mp hx
  exact h e.1 e.2 (Finmap.mem_lookup_iff.mpr he)

end Tally

end Table

end Ecommerce
