/-
  The total weight of the values of a finite map.

  One entry is written at a time, so the total is known from what it was before, from what
  the entry weighed and from what it weighs now.
-/

import Mathlib.Algebra.BigOperators.Group.List.Basic
import Mathlib.Algebra.Order.Ring.Nat
import Mathlib.Data.List.Perm.Basic
import Std.Data.ExtTreeMap

namespace Weight

variable {K V : Type} [Ord K] [Std.TransOrd K]

/-- The sum of the weights of all values. -/
def total (weight : V → Nat) (t : Std.ExtTreeMap K V compare) : Nat :=
  (t.toList.map fun row => weight row.2).sum

variable {weight : V → Nat} {t : Std.ExtTreeMap K V compare} {k : K} {v : V}

/-- Values that weigh the same. -/
theorem total_map (weight : V → Nat) (t : Std.ExtTreeMap K V compare) {f : K → V → V}
    (h : ∀ k v, weight (f k v) = weight v) : total weight (t.map f) = total weight t := by
  rw [total, total, Std.ExtTreeMap.toList_map, List.map_map]
  exact congrArg List.sum (List.map_congr_left fun row _ => h row.1 row.2)

variable [Std.LawfulEqOrd K]

/-- The rows of a map with one key written: the row of that key, and the other rows. -/
theorem toList_insert_perm [DecidableEq K] (t : Std.ExtTreeMap K V compare) (k : K) (v : V) :
    (t.insert k v).toList.Perm ((k, v) :: t.toList.filter fun row => row.1 ≠ k) := by
  have hnodup : ∀ u : Std.ExtTreeMap K V compare, u.toList.Nodup := fun u =>
    Std.ExtTreeMap.distinct_keys_toList.imp fun hne heq => hne (by simp [heq])
  refine (List.perm_ext_iff_of_nodup (hnodup _) ?_).mpr fun row => ?_
  · exact List.nodup_cons.mpr ⟨by simp, (hnodup t).filter _⟩
  · obtain ⟨key, value⟩ := row
    rw [Std.ExtTreeMap.mem_toList_iff_getElem?_eq_some, Std.ExtTreeMap.getElem?_insert]
    simp only [List.mem_cons, List.mem_filter, Std.ExtTreeMap.mem_toList_iff_getElem?_eq_some,
      Std.LawfulEqOrd.compare_eq_iff_eq, Prod.mk.injEq, ne_eq, decide_not, Bool.not_eq_true',
      decide_eq_false_iff_not]
    by_cases hkey : k = key
    · subst hkey
      simp [eq_comm]
    · simp [hkey, Ne.symm hkey]

theorem total_insert [DecidableEq K] :
    total weight (t.insert k v)
      = weight v + ((t.toList.filter fun row => row.1 ≠ k).map fun row => weight row.2).sum := by
  rw [total, ((toList_insert_perm t k v).map _).sum_eq, List.map_cons, List.sum_cons]

/-- A new key adds the weight of its value. -/
theorem total_insert_of_none [DecidableEq K] (weight : V → Nat) (v : V) (h : t[k]? = none) :
    total weight (t.insert k v) = weight v + total weight t := by
  rw [total_insert, total, List.filter_eq_self.mpr]
  rintro ⟨key, value⟩ hrow
  rw [Std.ExtTreeMap.mem_toList_iff_getElem?_eq_some] at hrow
  rw [decide_eq_true_eq]
  rintro rfl
  exact absurd (hrow.symm.trans h) nofun

/-- A value that is written over is taken out. -/
theorem total_insert_of_some [DecidableEq K] (weight : V → Nat) (v : V) {v₀ : V}
    (h : t[k]? = some v₀) :
    total weight (t.insert k v) + weight v₀ = total weight t + weight v := by
  have hsame : t.insert k v₀ = t := by
    apply Std.ExtTreeMap.ext_getElem?
    intro key
    rw [Std.ExtTreeMap.getElem?_insert]
    by_cases hkey : k = key
    · subst hkey
      simp [h]
    · simp [hkey]
  have htotal : total weight t
      = weight v₀ + ((t.toList.filter fun row => row.1 ≠ k).map fun row => weight row.2).sum := by
    rw [← total_insert, hsame]
  rw [total_insert, htotal]
  omega

/-- A value that is removed takes its weight with it. -/
theorem total_erase [DecidableEq K] (weight : V → Nat) (h : t[k]? = some v) :
    total weight (t.erase k) + weight v = total weight t := by
  have hsame : (t.erase k).insert k v = t := by
    apply Std.ExtTreeMap.ext_getElem?
    intro key
    rw [Std.ExtTreeMap.getElem?_insert, Std.ExtTreeMap.getElem?_erase]
    by_cases hkey : k = key
    · subst hkey
      simp [h]
    · simp [hkey]
  have hnone : (t.erase k)[k]? = none := by simp
  conv_rhs => rw [← hsame, total_insert_of_none weight v hnone]
  omega

/-- A bound on every weight, in terms of another one, is a bound on the total. -/
theorem total_le_mul {count : V → Nat} {bound : Nat}
    (h : ∀ (k : K) v, t[k]? = some v → weight v ≤ bound * count v) :
    total weight t ≤ bound * total count t := by
  have hrows : ∀ row ∈ t.toList, weight row.2 ≤ bound * count row.2 := by
    rintro ⟨key, value⟩ hrow
    exact h key value (Std.ExtTreeMap.mem_toList_iff_getElem?_eq_some.mp hrow)
  unfold total
  generalize t.toList = rows at hrows
  induction rows with
  | nil => exact Nat.zero_le _
  | cons row rows ih =>
    obtain ⟨hrow, hrest⟩ := List.forall_mem_cons.mp hrows
    rw [List.map_cons, List.sum_cons, List.map_cons, List.sum_cons, Nat.mul_add]
    exact Nat.add_le_add hrow (ih hrest)

/-- Where every value weighs no more than this, the total does not for each key. -/
theorem total_le_mul_size {bound : Nat} (h : ∀ (k : K) v, t[k]? = some v → weight v ≤ bound) :
    total weight t ≤ bound * t.size := by
  have hsize : total (fun _ => 1) t = t.size := by
    simp [total, List.map_const', Std.ExtTreeMap.length_toList]
  rw [← hsize]
  exact total_le_mul fun k v hget =>
    Nat.le_trans (h k v hget) (Nat.le_of_eq (Nat.mul_one bound).symm)

/-! ## Lists -/

/-- An element that is written over is taken out. -/
theorem sum_set {α : Type} (weight : α → Nat) {l : List α} {n : Nat} {a : α} (b : α)
    (h : l[n]? = some a) :
    ((l.set n b).map weight).sum + weight a = (l.map weight).sum + weight b := by
  induction l generalizing n with
  | nil => cases h
  | cons c l ih =>
    cases n with
    | zero =>
      cases h
      simp only [List.set_cons_zero, List.map_cons, List.sum_cons]
      omega
    | succ n =>
      have hrest := ih h
      simp only [List.set_cons_succ, List.map_cons, List.sum_cons]
      omega

/-- Lighter elements have a lighter sum. -/
theorem sum_le {α : Type} {weight weight' : α → Nat} (h : ∀ a, weight a ≤ weight' a)
    (l : List α) : (l.map weight).sum ≤ (l.map weight').sum := by
  induction l with
  | nil => exact Nat.le_refl _
  | cons a l ih =>
    simp only [List.map_cons, List.sum_cons]
    exact Nat.add_le_add (h a) ih

end Weight
