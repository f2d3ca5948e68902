import Mathlib.Data.List.Sort

/-!
# What a stable sort does to the order of a list

A stable sort moves an item past another one only when it is strictly less.  So a
relation that sorting cannot set right fails in the sorted list exactly where it fails
among items that may stay as they are.
-/

namespace StableOrder

open List

variable {α : Type*} {r : α → α → Prop} [DecidableRel r] [IsTrans α r]

/-- The items that are as great as one of them keep their order. -/
theorem filter_insertionSort (a : α) (items : List α) :
    (items.insertionSort r).filter (fun b => r a b ∧ r b a) =
      items.filter fun b => r a b ∧ r b a := by
  have hsorted : (items.filter fun b => r a b ∧ r b a).Pairwise r := by
    rw [pairwise_iff_forall_sublist]
    intro b c hsublist
    have hb := (mem_filter.1 (hsublist.subset mem_cons_self)).2
    have hc := (mem_filter.1 (hsublist.subset (mem_cons_of_mem b mem_cons_self))).2
    rw [decide_eq_true_eq] at hb hc
    exact IsTrans.trans _ _ _ hb.2 hc.1
  have hkept := (sublist_insertionSort hsorted filter_sublist).filter fun b => r a b ∧ r b a
  rw [filter_filter] at hkept
  simp only [Bool.and_self] at hkept
  exact (hkept.eq_of_length ((perm_insertionSort r items).filter _).length_eq.symm).symm

/-- A pair that may stand either way stands in the sorted list as before. -/
theorem pair_sublist_of_insertionSort {a b : α} {items : List α} (hab : r a b) (hba : r b a)
    (hsublist : [a, b] <+ items.insertionSort r) : [a, b] <+ items := by
  have haa : r a a := IsTrans.trans _ _ _ hab hba
  have hpair := hsublist.filter fun c => r a c ∧ r c a
  rw [filter_insertionSort] at hpair
  simp only [filter_cons, filter_nil, haa, hab, hba, and_self, decide_true, if_true] at hpair
  exact hpair.trans filter_sublist

variable [Std.Total r]

/-- Pairs that a sort cannot set right. -/
theorem pairwise_insertionSort_iff {bad : α → α → Prop} (hbad : ∀ a b, bad a b → r b a)
    (items : List α) :
    (items.insertionSort r).Pairwise (fun a b => ¬bad a b) ↔
      items.Pairwise fun a b => r a b → ¬bad a b := by
  rw [pairwise_iff_forall_sublist, pairwise_iff_forall_sublist]
  constructor
  · intro hpairs a b hsublist hab
    exact hpairs (pair_sublist_insertionSort hab hsublist)
  · intro hpairs a b hsublist hab
    have hsorted : r a b :=
      pairwise_iff_forall_sublist.1 (pairwise_insertionSort r items) hsublist
    exact hpairs (pair_sublist_of_insertionSort hsorted (hbad a b hab) hsublist) hsorted hab

end StableOrder
