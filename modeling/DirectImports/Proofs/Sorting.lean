import Mathlib.Data.List.Sort

/-! Sorting by an order in which some things tie. Those keep the order they have, and where only a
thing and itself tie, it does not matter in which order the things are given. -/

namespace DirectImports

section Sorting

variable {α : Type} {precedes : α → α → Bool}
  (htrans : ∀ a b c, precedes a b = true → precedes b c = true → precedes a c = true)
  (htotal : ∀ a b, (precedes a b || precedes b a) = true)
include htrans htotal

theorem filter_mergeSort {p : α → Bool}
    (hties : ∀ a b, p a = true → p b = true → precedes a b = true) (list : List α) :
    (list.mergeSort precedes).filter p = list.filter p := by
  have hordered : (list.filter p).Pairwise fun a b => precedes a b = true :=
    List.pairwise_of_forall_mem_list fun a ha b hb =>
      hties a b (List.of_mem_filter ha) (List.of_mem_filter hb)
  -- What ties is in order as it is, so that sorting keeps it as it is.
  have hkept : (list.filter p).Sublist (list.mergeSort precedes) :=
    List.sublist_mergeSort htrans htotal hordered List.filter_sublist
  have hsame := hkept.filter p
  rw [List.filter_filter] at hsame
  simp only [Bool.and_self] at hsame
  exact (hsame.eq_of_length ((List.mergeSort_perm list precedes).filter p).length_eq.symm).symm

theorem mergeSort_eq_of_perm {list others : List α} (hp : others.Perm list)
    (hties : ∀ a ∈ list, ∀ b ∈ list, precedes a b = true → precedes b a = true → a = b) :
    others.mergeSort precedes = list.mergeSort precedes := by
  have hothers : (others.mergeSort precedes).Perm others := List.mergeSort_perm _ _
  have hlist : (list.mergeSort precedes).Perm list := List.mergeSort_perm _ _
  refine ((hothers.trans hp).trans hlist.symm).eq_of_pairwise ?_
    (List.pairwise_mergeSort htrans htotal others) (List.pairwise_mergeSort htrans htotal list)
  exact fun a b ha hb => hties a (hp.subset (hothers.subset ha)) b (hlist.subset hb)

end Sorting

end DirectImports
