import Mathlib.Data.List.Nodup

/-!
Lists sorted by a key. Sorting is stable, so the elements of one key keep their order; where no two
elements share a key there is no order left to keep, and the order before the sorting does not show.
-/

namespace Forwarding

section

variable {α : Type} (key : α → String)

/-- The elements in the order of their keys; equal keys keep their order. -/
def sortByKey (l : List α) : List α :=
  l.mergeSort fun a b => key a ≤ key b

theorem sortByKey_perm (l : List α) : (sortByKey key l).Perm l :=
  List.mergeSort_perm l _

theorem keyLe_trans (a b c : α) (hab : decide (key a ≤ key b) = true)
    (hbc : decide (key b ≤ key c) = true) : decide (key a ≤ key c) = true :=
  decide_eq_true (String.le_trans (of_decide_eq_true hab) (of_decide_eq_true hbc))

theorem keyLe_total (a b : α) : (decide (key a ≤ key b) || decide (key b ≤ key a)) = true := by
  simpa using String.le_total (key a) (key b)

theorem pairwise_sortByKey (l : List α) :
    (sortByKey key l).Pairwise fun a b => key a ≤ key b :=
  (List.pairwise_mergeSort (keyLe_trans key) (keyLe_total key) l).imp of_decide_eq_true

/-- There is one way to list elements with different keys in the order of the keys. -/
theorem eq_of_perm_of_pairwise {l l' : List α} (order : l.Perm l')
    (sorted : l.Pairwise fun a b => key a ≤ key b) (sorted' : l'.Pairwise fun a b => key a ≤ key b)
    (distinct : (l.map key).Nodup) : l = l' := by
  refine List.Perm.eq_of_pairwise ?_ sorted sorted' order
  intro a b ha hb hab hba
  exact List.inj_on_of_nodup_map distinct ha (order.mem_iff.mpr hb) (String.le_antisymm hab hba)

/-- Sorting undoes any change of order among elements with different keys. -/
theorem sortByKey_eq_of_perm {l l' : List α} (order : l.Perm l') (distinct : (l.map key).Nodup) :
    sortByKey key l = sortByKey key l' := by
  refine eq_of_perm_of_pairwise key ?_ (pairwise_sortByKey key l) (pairwise_sortByKey key l') ?_
  · exact (sortByKey_perm key l).trans (order.trans (sortByKey_perm key l').symm)
  · exact ((sortByKey_perm key l).map key).nodup_iff.mpr distinct

/-- The elements with one key keep their order. -/
theorem filter_sortByKey (k : String) (l : List α) :
    (sortByKey key l).filter (fun a => key a = k) = l.filter fun a => key a = k := by
  have chosen : ∀ a ∈ l.filter fun a => key a = k, key a = k := fun a ha =>
    of_decide_eq_true (List.mem_filter.mp ha).2
  have kept : (l.filter fun a => key a = k).Sublist (sortByKey key l) := by
    refine List.sublist_mergeSort (keyLe_trans key) (keyLe_total key) ?_ List.filter_sublist
    refine List.pairwise_of_forall_mem_list fun a ha b hb => ?_
    rw [chosen a ha, chosen b hb]
    exact decide_eq_true (String.le_refl k)
  have within := kept.filter fun a => key a = k
  rw [List.filter_eq_self.mpr fun a ha => decide_eq_true (chosen a ha)] at within
  refine (within.eq_of_length ?_).symm
  exact ((sortByKey_perm key l).filter _).length_eq.symm

end

end Forwarding
