import Mathlib.Data.Set.BooleanAlgebra
import Mathlib.Data.Set.Disjoint
import Mathlib.Data.Set.Insert
import Mathlib.Order.CompletePartialOrder
import Mathlib.Tactic.Tauto

/-!
# A set with pending additions and removals

Edits of a set that are not written yet.  An edit that undoes an earlier one
cancels it, so that additions are never in the base and removals always are.
-/

@[ext]
structure PendingSet (κ : Type*) where
  base : Set κ
  added : Set κ
  removed : Set κ
  disjoint : Disjoint added base
  subset : removed ⊆ base

namespace PendingSet

variable {κ : Type*} (edits : PendingSet κ) (key : κ)

/-- The set the edits lead to. -/
def effective : Set κ := edits.base \ edits.removed ∪ edits.added

open Classical in
/-- Cancels the removal of the key, or adds the key when it is missing. -/
noncomputable def add : PendingSet κ :=
  if key ∈ edits.removed then
    { edits with
      removed := edits.removed \ {key}
      subset := show edits.removed \ {key} ⊆ edits.base from fun _ hother => edits.subset hother.1 }
  else if hpresent : key ∈ edits.base then edits
  else
    { edits with
      added := insert key edits.added
      disjoint := Set.disjoint_insert_left.2 ⟨hpresent, edits.disjoint⟩ }

open Classical in
/-- Cancels the addition of the key, or removes the key when the base has it. -/
noncomputable def remove : PendingSet κ :=
  if key ∈ edits.added then
    { edits with
      added := edits.added \ {key}
      disjoint := edits.disjoint.mono_left
        (show edits.added \ {key} ⊆ edits.added from fun _ hother => hother.1) }
  else if hpresent : key ∈ edits.base then
    { edits with
      removed := insert key edits.removed
      subset := Set.insert_subset hpresent edits.subset }
  else edits

section Cases

variable {key}

theorem add_of_mem_removed (hremoved : key ∈ edits.removed) :
    (edits.add key).base = edits.base ∧ (edits.add key).added = edits.added ∧
      (edits.add key).removed = edits.removed \ {key} := by
  rw [add, if_pos hremoved]
  exact ⟨rfl, rfl, rfl⟩

theorem add_of_mem_base (hkept : key ∉ edits.removed) (hpresent : key ∈ edits.base) :
    edits.add key = edits := by
  rw [add, if_neg hkept, dif_pos hpresent]

theorem add_of_not_mem_base (hmissing : key ∉ edits.base) :
    (edits.add key).base = edits.base ∧ (edits.add key).added = insert key edits.added ∧
      (edits.add key).removed = edits.removed := by
  rw [add, if_neg fun hremoved => hmissing (edits.subset hremoved), dif_neg hmissing]
  exact ⟨rfl, rfl, rfl⟩

theorem remove_of_mem_added (hadded : key ∈ edits.added) :
    (edits.remove key).base = edits.base ∧ (edits.remove key).added = edits.added \ {key} ∧
      (edits.remove key).removed = edits.removed := by
  rw [remove, if_pos hadded]
  exact ⟨rfl, rfl, rfl⟩

theorem remove_of_mem_base (hpresent : key ∈ edits.base) :
    (edits.remove key).base = edits.base ∧ (edits.remove key).added = edits.added ∧
      (edits.remove key).removed = insert key edits.removed := by
  rw [remove, if_neg (Set.disjoint_right.1 edits.disjoint hpresent), dif_pos hpresent]
  exact ⟨rfl, rfl, rfl⟩

theorem remove_of_not_mem (hadded : key ∉ edits.added) (hmissing : key ∉ edits.base) :
    edits.remove key = edits := by
  rw [remove, if_neg hadded, dif_neg hmissing]

end Cases

/-- An addition puts the key into the effective set and changes nothing else. -/
theorem effective_add : (edits.add key).effective = insert key edits.effective := by
  ext other
  rw [add]
  split_ifs with hremoved hpresent
  · have hbase := edits.subset hremoved
    by_cases heq : other = key
    · subst heq
      simp [effective, hbase]
    · simp [effective, heq]
  · by_cases heq : other = key
    · subst heq
      simp [effective, hpresent, hremoved]
    · simp [effective, heq]
  · simp only [effective, Set.mem_union, Set.mem_insert_iff]
    tauto

/-- A removal takes the key out of the effective set and changes nothing else. -/
theorem effective_remove : (edits.remove key).effective = edits.effective \ {key} := by
  ext other
  rw [remove]
  split_ifs with hadded hpresent
  · have hbase := Set.disjoint_left.1 edits.disjoint hadded
    by_cases heq : other = key
    · subst heq
      simp [effective, hbase]
    · simp [effective, heq]
  · by_cases heq : other = key
    · subst heq
      simp [effective, hadded]
    · simp [effective, heq]
  · by_cases heq : other = key
    · subst heq
      simp [effective, hadded, hpresent]
    · simp [effective, heq]

end PendingSet
