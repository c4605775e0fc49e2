import Mathlib.Data.List.Basic
import Mathlib.Data.List.Count
import Mathlib.Data.List.Perm.Basic
/-!
# Pools

The processes of a system are the entries of a list, and a process keeps
its index for life: a step replaces the entry of one process (`List.set`)
or appends a new one. The lemmas say which entries the new list has, and
that a property only one process has is counted at most once.
-/

namespace Ecommerce

variable {α : Type*} {l : List α} {a b : α} {i j : ℕ}

/-- An entry of a pool after one process has moved on. -/
theorem getElem?_set_cases (h : (l.set i a)[j]? = some b) :
    j = i ∧ b = a ∨ j ≠ i ∧ l[j]? = some b := by
  by_cases hj : j = i
  · subst hj
    have hlt : j < l.length := by
      have := (List.getElem?_eq_some_iff.mp h).1
      rwa [List.length_set] at this
    rw [List.getElem?_set_self hlt, Option.some.injEq] at h
    exact .inl ⟨rfl, h.symm⟩
  · rw [List.getElem?_set_ne (Ne.symm hj)] at h
    exact .inr ⟨hj, h⟩

theorem getElem?_set_other (hj : j ≠ i) (h : l[j]? = some b) : (l.set i a)[j]? = some b := by
  rw [List.getElem?_set_ne (Ne.symm hj), h]

theorem getElem?_set_own (h : l[i]? = some b) : (l.set i a)[i]? = some a := by
  rw [List.getElem?_set_self (List.getElem?_eq_some_iff.mp h).1]

/-- An entry of a pool after a process has joined. -/
theorem getElem?_append_singleton (h : (l ++ [a])[j]? = some b) :
    l[j]? = some b ∨ j = l.length ∧ b = a := by
  rcases Nat.lt_trichotomy j l.length with hj | hj | hj
  · rw [List.getElem?_append_left hj] at h
    exact .inl h
  · subst hj
    rw [List.getElem?_append_right (Nat.le_refl _), Nat.sub_self, List.getElem?_cons_zero,
      Option.some.injEq] at h
    exact .inr ⟨rfl, h.symm⟩
  · rw [List.getElem?_append_right (Nat.le_of_lt hj)] at h
    have := (List.getElem?_eq_some_iff.mp h).1
    simp only [List.length_singleton] at this
    omega

theorem getElem?_append_old (h : l[j]? = some b) : (l ++ [a])[j]? = some b := by
  rw [List.getElem?_append_left (List.getElem?_eq_some_iff.mp h).1, h]

/-- Another process is not the one that moves on. -/
theorem mem_eraseIdx_of_ne (hj : j ≠ i) (h : l[j]? = some b) : b ∈ l.eraseIdx i :=
  List.mem_eraseIdx_iff_getElem?.mpr ⟨j, hj, h⟩

/-- **What the processes have to show grows by what one of them adds.** -/
theorem filterMap_set_perm {β : Type*} {f : α → Option β} {new : List β} (h : l[i]? = some a)
    (hf : (f b).toList = (f a).toList ++ new) :
    ((l.set i b).filterMap f).Perm (l.filterMap f ++ new) := by
  obtain ⟨hlt, ha⟩ := List.getElem?_eq_some_iff.mp h
  have hcons : ∀ x : α, (x :: l.eraseIdx i).filterMap f =
      (f x).toList ++ (l.eraseIdx i).filterMap f := fun x => by
    cases hx : f x <;> simp [hx]
  have hset : ((l.set i b).filterMap f).Perm ((f b).toList ++ (l.eraseIdx i).filterMap f) :=
    hcons b ▸ (List.set_perm_cons_eraseIdx hlt b).filterMap f
  have hold : ((f a).toList ++ (l.eraseIdx i).filterMap f).Perm (l.filterMap f) :=
    hcons a ▸ (ha ▸ List.getElem_cons_eraseIdx_perm hlt).filterMap f
  calc ((l.set i b).filterMap f).Perm (((f a).toList ++ new) ++ (l.eraseIdx i).filterMap f) :=
        hf ▸ hset
    List.Perm _ (((f a).toList ++ (l.eraseIdx i).filterMap f) ++ new) := by
        rw [List.append_assoc, List.append_assoc]
        exact List.perm_append_comm.append_left _
    List.Perm _ (l.filterMap f ++ new) := hold.append_right _

/-- **What only one process satisfies is counted at most once.** -/
theorem countP_le_one {p : α → Bool}
    (h : ∀ (i j : ℕ) (a b : α), l[i]? = some a → l[j]? = some b → p a = true → p b = true → i = j) :
    l.countP p ≤ 1 := by
  induction l with
  | nil => exact Nat.zero_le 1
  | cons x rest ih =>
    have hrest : rest.countP p ≤ 1 := ih fun i j a b hi hj ha hb => by
      have := h (i + 1) (j + 1) a b hi hj ha hb
      omega
    rw [List.countP_cons]
    split
    · rename_i hx
      have hzero : rest.countP p = 0 := List.countP_eq_zero.mpr fun y hy hpy => by
        obtain ⟨k, hk⟩ := List.mem_iff_getElem?.mp hy
        have := h 0 (k + 1) x y rfl hk hx hpy
        omega
      omega
    · omega

end Ecommerce
