import Ecommerce.Common.Table
import Mathlib.Algebra.BigOperators.Group.Finset.Basic
/-!
# Comparing tallies

A tally is a sum over the keys of its table (`tally_eq_sum`), so two
tallies that give every key the same weight are equal, also over tables of
different rows, and so is the sum over a list that has the weights of a
table under different keys.
-/

namespace Ecommerce

namespace Table

variable {κ ρ ρ' β M : Type} [DecidableEq κ] [AddCommMonoid M]
variable {w : κ → ρ → M} {w' : κ → ρ' → M} {t : Table κ ρ} {u : Table κ ρ'} {k : κ} {r : ρ}

/-- What a key adds to a tally. -/
def weightAt (w : κ → ρ → M) (t : Table κ ρ) (k : κ) : M :=
  match t.lookup k with
  | some r => w k r
  | none => 0

theorem weightAt_of_lookup (h : t.lookup k = some r) : weightAt w t k = w k r := by
  rw [weightAt, h]

theorem weightAt_of_none (h : t.lookup k = none) : weightAt w t k = 0 := by
  rw [weightAt, h]

theorem weightAt_of_notMem (h : k ∉ t.keys) : weightAt w t k = 0 :=
  weightAt_of_none (Finmap.lookup_eq_none.mpr fun hmem => h (Finmap.mem_keys.mpr hmem))

/-- **A tally is the sum over its keys.** -/
theorem tally_eq_sum : tally w t = ∑ k ∈ t.keys, weightAt w t k := by
  change (t.entries.map fun e => w e.1 e.2).sum =
    ((t.entries.map Sigma.fst).map fun k => weightAt w t k).sum
  rw [Multiset.map_map]
  refine congrArg Multiset.sum (Multiset.map_congr rfl fun e he => ?_)
  exact (weightAt_of_lookup (Finmap.mem_lookup_iff.mpr he)).symm

/-- The sum over any keys that include every key with a weight. -/
theorem tally_eq_sum_of_subset {ks : Finset κ} (h : ∀ k, k ∉ ks → weightAt w t k = 0) :
    tally w t = ∑ k ∈ ks, weightAt w t k := by
  have hleft : ∑ k ∈ t.keys, weightAt w t k = ∑ k ∈ t.keys ∪ ks, weightAt w t k :=
    Finset.sum_subset Finset.subset_union_left fun k _ hk => weightAt_of_notMem hk
  have hright : ∑ k ∈ ks, weightAt w t k = ∑ k ∈ t.keys ∪ ks, weightAt w t k :=
    Finset.sum_subset Finset.subset_union_right fun k _ hk => h k hk
  rw [tally_eq_sum, hleft, hright]

/-- **Tallies that give every key the same weight are equal.** -/
theorem tally_eq_tally (h : ∀ k, weightAt w t k = weightAt w' u k) : tally w t = tally w' u := by
  have hother : tally w' u = ∑ k ∈ t.keys, weightAt w' u k :=
    tally_eq_sum_of_subset fun k hk => by rw [← h k, weightAt_of_notMem hk]
  rw [tally_eq_sum, hother]
  exact Finset.sum_congr rfl fun k _ => h k

/-- **A list that has the weights of a table under different keys sums to its tally.** -/
theorem sum_eq_tally {rows : List β} {key : β → κ} {v : β → M} (hnodup : (rows.map key).Nodup)
    (hrows : ∀ row ∈ rows, weightAt w t (key row) = v row)
    (hall : ∀ k, weightAt w t k ≠ 0 → ∃ row ∈ rows, key row = k) :
    (rows.map v).sum = tally w t := by
  have hzero : ∀ k, k ∉ (rows.map key).toFinset → weightAt w t k = 0 := by
    intro k hk
    by_contra hcon
    obtain ⟨row, hrow, rfl⟩ := hall k hcon
    exact hk (List.mem_toFinset.mpr (List.mem_map_of_mem hrow))
  rw [tally_eq_sum_of_subset hzero, List.sum_toFinset _ hnodup, List.map_map]
  exact congrArg List.sum (List.map_congr_left fun row hrow => (hrows row hrow).symm)

end Table

end Ecommerce
