import Mathlib.Data.List.Sort
import Mathlib.Data.List.Destutter

/-!
# Sorting by a key and dropping repeated keys

A stable sort followed by a pass that keeps the first item of each run of equal
keys, as `std::stable_sort` and `std::unique` do.
-/

namespace SortUnique

open List

variable {α β : Type*} [LinearOrder β] (key : α → β)

def sortUniqueBy (items : List α) : List α :=
  (items.insertionSort fun first second => key first ≤ key second).destutter
    fun first second => key first ≠ key second

theorem sortUniqueBy_subset (items : List α) : sortUniqueBy key items ⊆ items := fun _ hmem =>
  (mem_insertionSort _).1 ((destutter_sublist _ _).mem hmem)

/-- The pass keeps an item for the key of every item it drops. -/
theorem exists_mem_destutter' {first other : α} {items : List α} (hmem : other ∈ first :: items) :
    ∃ kept ∈ items.destutter' (fun a b => key a ≠ key b) first, key kept = key other := by
  induction items generalizing first other with
  | nil => exact ⟨first, by simp, by rw [List.mem_singleton.1 hmem]⟩
  | cons next rest ih =>
      by_cases hnew : key first ≠ key next
      · rw [destutter'_cons_pos rest hnew]
        rcases List.mem_cons.1 hmem with rfl | hmem
        · exact ⟨other, mem_cons_self, rfl⟩
        · obtain ⟨kept, hkept, heq⟩ := ih hmem
          exact ⟨kept, mem_cons_of_mem first hkept, heq⟩
      · rw [destutter'_cons_neg rest hnew]
        rw [not_not] at hnew
        rcases List.mem_cons.1 hmem with hfirst | hmem
        · exact ih (hfirst ▸ mem_cons_self)
        rcases List.mem_cons.1 hmem with hnext | hmem
        · obtain ⟨kept, hkept, heq⟩ := ih (mem_cons_self : first ∈ first :: rest)
          exact ⟨kept, hkept, by rw [heq, hnew, hnext]⟩
        · exact ih (mem_cons_of_mem first hmem)

theorem exists_mem_sortUniqueBy {items : List α} {item : α} (hmem : item ∈ items) :
    ∃ kept ∈ sortUniqueBy key items, key kept = key item := by
  have hsorted := (mem_insertionSort fun first second => key first ≤ key second).2 hmem
  rw [sortUniqueBy]
  cases hitems : items.insertionSort fun first second => key first ≤ key second with
  | nil => simp [hitems] at hsorted
  | cons first rest =>
      rw [hitems] at hsorted
      exact exists_mem_destutter' key hsorted

/-- In a sorted list whose neighbours differ all items differ. -/
theorem nodup_map_of_sorted {items : List α}
    (hsorted : items.Pairwise fun first second => key first ≤ key second)
    (hchain : items.IsChain fun first second => key first ≠ key second) :
    (items.map key).Nodup := by
  suffices hlt : items.Pairwise fun first second => key first < key second by
    rw [List.Nodup, List.pairwise_map]
    exact hlt.imp ne_of_lt
  induction items with
  | nil => exact Pairwise.nil
  | cons first rest ih =>
      rw [pairwise_cons] at hsorted
      have hrest := ih hsorted.2 hchain.tail
      refine pairwise_cons.2 ⟨fun other hother => ?_, hrest⟩
      cases rest with
      | nil => simp at hother
      | cons next rest =>
          have hnext : key first < key next :=
            lt_of_le_of_ne (hsorted.1 next mem_cons_self) (isChain_cons_cons.1 hchain).1
          rcases List.mem_cons.1 hother with rfl | hother
          · exact hnext
          · exact hnext.trans ((pairwise_cons.1 hrest).1 other hother)

/-- No two of the kept items have the same key. -/
theorem nodup_map_sortUniqueBy (items : List α) : ((sortUniqueBy key items).map key).Nodup := by
  have : Std.Total fun first second : α => key first ≤ key second := ⟨fun _ _ => le_total _ _⟩
  have : IsTrans α fun first second => key first ≤ key second := ⟨fun _ _ _ => le_trans⟩
  exact nodup_map_of_sorted key ((pairwise_insertionSort _ items).sublist (destutter_sublist _ _))
    (isChain_destutter _ _)

end SortUnique
