import Mathlib.Data.List.Nodup
/-!
# Unique columns

A table with several unique columns is a list of rows that are distinct in
each of them. `findBy` is the query by such a column, and what it finds is
decided by the rows alone, whatever their order.
-/

namespace Ecommerce

variable {ρ κ : Type*} [DecidableEq κ] {key : ρ → κ} {rows : List ρ} {k : κ} {r r' : ρ}

/-- `findOne` by a column. -/
def findBy (key : ρ → κ) (rows : List ρ) (k : κ) : Option ρ := rows.find? fun r => key r = k

omit [DecidableEq κ] in
/-- Rows that agree in a unique column are the same. -/
theorem eq_of_column (h : (rows.map key).Nodup) (hr : r ∈ rows) (hr' : r' ∈ rows)
    (heq : key r = key r') : r = r' :=
  List.inj_on_of_nodup_map h hr hr' heq

theorem mem_of_findBy (h : findBy key rows k = some r) : r ∈ rows ∧ key r = k :=
  ⟨List.mem_of_find?_eq_some h, by simpa using List.find?_some h⟩

theorem findBy_eq_none_iff : findBy key rows k = none ↔ k ∉ rows.map key := by
  rw [findBy, List.find?_eq_none, List.mem_map]
  simp

/-- **The query finds the row of the column.** -/
theorem findBy_eq_some_iff (h : (rows.map key).Nodup) :
    findBy key rows k = some r ↔ r ∈ rows ∧ key r = k := by
  refine ⟨mem_of_findBy, fun ⟨hr, hk⟩ => ?_⟩
  cases hfind : findBy key rows k with
  | none => exact absurd (List.mem_map.mpr ⟨r, hr, hk⟩) (findBy_eq_none_iff.mp hfind)
  | some found =>
    obtain ⟨hfound, hkey⟩ := mem_of_findBy hfind
    rw [eq_of_column h hfound hr (hkey.trans hk.symm)]

end Ecommerce
