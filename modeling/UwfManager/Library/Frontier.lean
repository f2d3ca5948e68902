import Mathlib.Data.List.Nodup
import Mathlib.Tactic.Common

/-!
# Frontiers

The entries of a list down to the first one that satisfies a predicate, all of them when there
is none.
-/

namespace Frontier

variable {α : Type*} (p : α → Bool)

def downTo : List α → List α
  | [] => []
  | entry :: rest => if p entry then [entry] else entry :: downTo rest

variable {p} {front back : List α} {entry : α}

theorem mem_of_mem_downTo {list : List α} (hmem : entry ∈ downTo p list) : entry ∈ list := by
  induction list with
  | nil => exact hmem
  | cons head rest ih =>
      rw [downTo] at hmem
      split_ifs at hmem
      · rw [List.mem_singleton.1 hmem]
        exact List.mem_cons_self
      · rcases List.mem_cons.1 hmem with rfl | hmem
        · exact List.mem_cons_self
        · exact List.mem_cons_of_mem _ (ih hmem)

/-- An entry stands down to the frontier if nothing in front of it satisfies the predicate. -/
theorem mem_downTo_iff (hnodup : (front ++ entry :: back).Nodup) :
    entry ∈ downTo p (front ++ entry :: back) ↔ ∀ other ∈ front, p other = false := by
  induction front with
  | nil =>
      rw [List.nil_append, downTo]
      split_ifs <;> simp
  | cons head rest ih =>
      have hother : entry ≠ head := by
        rintro rfl
        exact (List.nodup_cons.1 hnodup).1 (List.mem_append_right _ List.mem_cons_self)
      rw [List.cons_append, downTo]
      split_ifs with hhead
      · refine ⟨fun hmem => absurd (List.mem_singleton.1 hmem) hother, fun hfront => ?_⟩
        rw [hfront head List.mem_cons_self] at hhead
        cases hhead
      · rw [List.mem_cons, or_iff_right hother, ih (List.nodup_cons.1 hnodup).2,
          List.forall_mem_cons, and_iff_right (Bool.eq_false_iff.2 hhead)]

/-- The front lies before the frontier if the frontier is none of it. -/
theorem find?_ne_iff (back : List α) :
    (∀ other ∈ front, (front ++ back).find? p ≠ some other) ↔ ∀ other ∈ front, p other = false := by
  constructor
  · intro hfront other hmem
    by_contra hother
    obtain ⟨first, hfirst⟩ := Option.isSome_iff_exists.1
      (List.find?_isSome.2 ⟨other, hmem, Bool.not_eq_false _ ▸ hother⟩)
    refine hfront first (List.mem_of_find?_eq_some hfirst) ?_
    rw [List.find?_append, hfirst, Option.some_or]
  · intro hfront other hmem hfound
    have hother := List.find?_some hfound
    rw [hfront other hmem] at hother
    cases hother

theorem find?_of_front (hfront : ∀ other ∈ front, p other = false) (hentry : p entry = true) :
    (front ++ entry :: back).find? p = some entry := by
  rw [List.find?_append, List.find?_eq_none.2 fun other hmem => by simp [hfront other hmem],
    Option.none_or, List.find?_cons_of_pos hentry]

/-- The predicate matters down to the frontier only. -/
theorem downTo_congr {q : α → Bool} {list : List α}
    (hsame : ∀ entry ∈ downTo p list, q entry = p entry) :
    downTo q list = downTo p list ∧ list.find? q = list.find? p := by
  induction list with
  | nil => exact ⟨rfl, rfl⟩
  | cons head rest ih =>
      have hhead : q head = p head := by
        refine hsame head ?_
        rw [downTo]
        split_ifs <;> exact List.mem_cons_self
      rw [downTo, downTo, List.find?_cons, List.find?_cons, hhead]
      cases htail : p head with
      | true => exact ⟨rfl, rfl⟩
      | false =>
          obtain ⟨hdown, hfind⟩ := ih fun entry hentry => hsame entry (by
            rw [downTo, htail]
            exact List.mem_cons_of_mem _ hentry)
          exact ⟨congrArg (List.cons head) hdown, hfind⟩

theorem mem_downTo_of_find? {list : List α} (hfound : list.find? p = some entry) :
    entry ∈ downTo p list := by
  induction list with
  | nil => cases hfound
  | cons head rest ih =>
      rw [List.find?_cons] at hfound
      rw [downTo]
      cases hhead : p head with
      | true =>
          rw [hhead] at hfound
          exact List.mem_singleton.2 (Option.some_inj.1 hfound).symm
      | false =>
          rw [hhead] at hfound
          exact List.mem_cons_of_mem _ (ih hfound)

/-- Down to the frontier nothing but the frontier itself satisfies the predicate. -/
theorem eq_of_mem_downTo {list : List α} (hmem : entry ∈ downTo p list) (hentry : p entry = true) :
    list.find? p = some entry := by
  induction list with
  | nil => cases hmem
  | cons head rest ih =>
      rw [downTo] at hmem
      split_ifs at hmem with hhead
      · rw [List.mem_singleton.1 hmem, List.find?_cons_of_pos hhead]
      · rcases List.mem_cons.1 hmem with rfl | hmem
        · exact absurd hentry hhead
        · rw [List.find?_cons_of_neg hhead]
          exact ih hmem

end Frontier
