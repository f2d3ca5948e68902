import Mathlib.Data.List.Basic

/-!
# The last item of each key

Of a list the items are kept that no later item with the same key follows.  What is read from
the items of one key alone is then the last of what is read from the whole list.
-/

namespace LastByKey

variable {α κ β : Type*} [DecidableEq κ] (key : α → κ)

def lastByKey : List α → List α
  | [] => []
  | item :: rest =>
      if rest.any fun later => key later = key item then lastByKey rest
      else item :: lastByKey rest

variable {key}

theorem lastByKey_subset (items : List α) : lastByKey key items ⊆ items := by
  induction items with
  | nil => exact List.Subset.refl _
  | cons item rest ih =>
      rw [lastByKey]
      split_ifs
      · exact List.subset_cons_of_subset item ih
      · exact List.cons_subset_cons item ih

/-- A reading of the items with this key sees only the last of them. -/
theorem filterMap_lastByKey {read : α → Option β} {wanted : κ} {items : List α}
    (hread : ∀ item ∈ items, (read item).isSome = true ↔ key item = wanted) :
    (lastByKey key items).filterMap read = (items.filterMap read).getLast?.toList := by
  induction items with
  | nil => rfl
  | cons item rest ih =>
      have hrest : ∀ later ∈ rest, (read later).isSome = true ↔ key later = wanted :=
        fun later hlater => hread later (List.mem_cons_of_mem item hlater)
      have hitem := hread item List.mem_cons_self
      have htail := ih hrest
      rw [lastByKey]
      cases hvalue : read item with
      | none =>
          rw [List.filterMap_cons_none hvalue]
          split_ifs
          · exact htail
          · rw [List.filterMap_cons_none hvalue]
            exact htail
      | some value =>
          have hkey : key item = wanted := hitem.mp (by rw [hvalue]; rfl)
          rw [List.filterMap_cons_some hvalue]
          split_ifs with hlater
          · obtain ⟨later, hmem, hsame⟩ := List.any_eq_true.mp hlater
            have hlaterKey : key later = wanted := (of_decide_eq_true hsame).trans hkey
            obtain ⟨other, hother⟩ := Option.isSome_iff_exists.mp ((hrest later hmem).mpr hlaterKey)
            have hnonempty : rest.filterMap read ≠ [] :=
              List.ne_nil_of_mem (List.mem_filterMap.mpr ⟨later, hmem, hother⟩)
            rw [htail, List.getLast?_cons_of_ne_nil hnonempty]
          · have hnone : rest.filterMap read = [] := by
              rw [List.filterMap_eq_nil_iff]
              intro later hmem
              by_contra hsome
              have hlaterKey := (hrest later hmem).mp (Option.isSome_iff_ne_none.mpr hsome)
              exact hlater (List.any_eq_true.mpr
                ⟨later, hmem, decide_eq_true (hlaterKey.trans hkey.symm)⟩)
            rw [List.filterMap_cons_some hvalue, htail, hnone]
            rfl

/-- The order of at most one item does not matter. -/
theorem eq_toList_of_perm {values : List β} {last : Option β} (hperm : values.Perm last.toList) :
    values = last.toList := by
  cases last with
  | none => exact List.perm_nil.mp hperm
  | some value => exact List.perm_singleton.mp hperm

end LastByKey
