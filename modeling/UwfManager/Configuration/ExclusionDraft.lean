import UwfManager.Library.PendingSet
import UwfManager.Paths.PathPolicy

/-!
# The draft of a list of exclusions

The entries of the two sessions and the pending additions and removals of the
next one.  Entries are compared without regard to case, so that the draft is a
set of folded texts with pending edits.  A `QSet` is a list whose order is not
relied on.
-/

namespace UwfManager

inductive ExclusionImportOutcome where
  | applied
  | noOp
  | rejectedNotOnVolume
  | rejectedForbidden
  | rejectedConflict
  | rejectedRequired
  deriving DecidableEq, Repr

structure PersistenceFlagDraft where
  baseCurrent : Bool := false
  baseNext : Bool := false
  pendingNext : Option Bool := none
  deriving DecidableEq

structure ExclusionDraft where
  current : List Text := []
  next : List Text := []
  added : List Text := []
  removed : List Text := []
  domainSecretKey : PersistenceFlagDraft := {}
  tscal : PersistenceFlagDraft := {}
  deriving DecidableEq

namespace PersistenceFlagDraft

def toggle (flag : PersistenceFlagDraft) : PersistenceFlagDraft :=
  if flag.pendingNext = some true then { flag with pendingNext := none }
  else if flag.baseNext then { flag with pendingNext := some false }
  else flag

def enable (flag : PersistenceFlagDraft) : PersistenceFlagDraft :=
  if flag.pendingNext = some false then { flag with pendingNext := none }
  else if !flag.baseNext then { flag with pendingNext := some true }
  else flag

end PersistenceFlagDraft

variable (qt : Qt)

/-- The search in a `QSet`; `Qt.containsText` is the one in a list. -/
def containsExclusion (set : List Text) (key : Text) : Bool := set.any (qt.sameText · key)

def removeExclusion (set : List Text) (key : Text) : List Text :=
  set.filter fun other => !qt.sameText other key

namespace ExclusionDraft

/-- Returns whether the draft has changed. -/
def add (draft : ExclusionDraft) (p : Text) : Bool × ExclusionDraft :=
  if containsExclusion qt draft.removed p then
    (true, { draft with removed := removeExclusion qt draft.removed p })
  else if !qt.containsText draft.next p && !containsExclusion qt draft.added p then
    (true, { draft with added := draft.added ++ [p] })
  else (false, draft)

def remove (draft : ExclusionDraft) (p : Text) : Bool × ExclusionDraft :=
  if containsExclusion qt draft.added p then
    (true, { draft with added := removeExclusion qt draft.added p })
  else if qt.containsText draft.next p && !containsExclusion qt draft.removed p then
    (true, { draft with removed := draft.removed ++ [p] })
  else (false, draft)

def reset (draft : ExclusionDraft) : ExclusionDraft :=
  { draft with
    added := []
    removed := []
    domainSecretKey := { draft.domainSecretKey with pendingNext := none }
    tscal := { draft.tscal with pendingNext := none } }

def toggleDomainSecretKey (draft : ExclusionDraft) : ExclusionDraft :=
  { draft with domainSecretKey := draft.domainSecretKey.toggle }

/-- The exclusions of the next session once the edits are applied. -/
def effectiveNext (draft : ExclusionDraft) : List Text :=
  draft.next.filter (fun path => !containsExclusion qt draft.removed path) ++ draft.added

end ExclusionDraft

/-! ## Folded texts -/

/-- The texts of a list, up to case. -/
def foldedSet (texts : List Text) : Set Text := { key | ∃ text ∈ texts, text.map qt.foldCase = key }

theorem mem_foldedSet {texts : List Text} {key : Text} :
    key ∈ foldedSet qt texts ↔ ∃ text ∈ texts, text.map qt.foldCase = key := Iff.rfl

theorem containsExclusion_iff {set : List Text} {key : Text} :
    containsExclusion qt set key = true ↔ key.map qt.foldCase ∈ foldedSet qt set := by
  simp [containsExclusion, mem_foldedSet, qt.sameText_iff]

theorem containsText_eq (texts : List Text) (key : Text) :
    qt.containsText texts key = containsExclusion qt texts key := rfl

theorem foldedSet_append (first second : List Text) :
    foldedSet qt (first ++ second) = foldedSet qt first ∪ foldedSet qt second := by
  ext key
  simp only [mem_foldedSet, Set.mem_union, List.mem_append, or_and_right, exists_or]

theorem foldedSet_singleton (text : Text) :
    foldedSet qt [text] = {text.map qt.foldCase} := by
  ext key
  simp [mem_foldedSet, eq_comm]

theorem foldedSet_removeExclusion (set : List Text) (key : Text) :
    foldedSet qt (removeExclusion qt set key) = foldedSet qt set \ {key.map qt.foldCase} := by
  ext other
  simp only [mem_foldedSet, removeExclusion, List.mem_filter, Bool.not_eq_true',
    ← Bool.not_eq_true, qt.sameText_iff, Set.mem_sdiff, Set.mem_singleton_iff]
  constructor
  · rintro ⟨text, ⟨hmem, hne⟩, rfl⟩
    exact ⟨⟨text, hmem, rfl⟩, hne⟩
  · rintro ⟨⟨text, hmem, rfl⟩, hne⟩
    exact ⟨text, ⟨hmem, hne⟩, rfl⟩

/-- No two texts of the list are the same up to case. -/
def DistinctTexts (texts : List Text) : Prop :=
  (texts.map fun text => text.map qt.foldCase).Nodup

theorem distinctTexts_removeExclusion {set : List Text} (key : Text)
    (hdistinct : DistinctTexts qt set) : DistinctTexts qt (removeExclusion qt set key) :=
  List.Nodup.sublist ((List.filter_sublist).map _) hdistinct

theorem distinctTexts_append {set : List Text} {key : Text} (hdistinct : DistinctTexts qt set)
    (hmissing : containsExclusion qt set key = false) : DistinctTexts qt (set ++ [key]) := by
  rw [← Bool.not_eq_true, containsExclusion_iff] at hmissing
  rw [DistinctTexts, List.map_append, List.nodup_append]
  refine ⟨hdistinct, List.nodup_singleton _, ?_⟩
  intro folded hfolded other hother heq
  obtain ⟨text, hmem, rfl⟩ := List.mem_map.1 hfolded
  rw [List.map_singleton, List.mem_singleton] at hother
  exact hmissing ⟨text, hmem, heq.trans hother⟩

theorem foldedSet_sortUnique (texts : List Text) :
    foldedSet qt (qt.sortUnique texts) = foldedSet qt texts := by
  ext key
  constructor
  · rintro ⟨text, hmem, rfl⟩
    exact ⟨text, SortUnique.sortUniqueBy_subset _ texts hmem, rfl⟩
  · rintro ⟨text, hmem, rfl⟩
    exact SortUnique.exists_mem_sortUniqueBy (fun text => text.map qt.foldCase) hmem

theorem distinctTexts_sortUnique (texts : List Text) : DistinctTexts qt (qt.sortUnique texts) :=
  SortUnique.nodup_map_sortUniqueBy _ texts

/-! ## The draft as a set with pending edits -/

namespace ExclusionDraft

/-- Additions are not in the next session, removals are, and no entry is listed twice. -/
structure Consistent (draft : ExclusionDraft) : Prop where
  disjoint : Disjoint (foldedSet qt draft.added) (foldedSet qt draft.next)
  subset : foldedSet qt draft.removed ⊆ foldedSet qt draft.next
  addedDistinct : DistinctTexts qt draft.added
  removedDistinct : DistinctTexts qt draft.removed

/-- The edits of a consistent draft. -/
def pendingSet (draft : ExclusionDraft) (hdraft : draft.Consistent qt) : PendingSet Text where
  base := foldedSet qt draft.next
  added := foldedSet qt draft.added
  removed := foldedSet qt draft.removed
  disjoint := hdraft.disjoint
  subset := hdraft.subset

theorem foldedSet_effectiveNext (draft : ExclusionDraft) (hdraft : draft.Consistent qt) :
    foldedSet qt (draft.effectiveNext qt) = (draft.pendingSet qt hdraft).effective := by
  rw [effectiveNext, foldedSet_append]
  refine congrArg₂ _ ?_ rfl
  ext key
  simp only [mem_foldedSet, List.mem_filter, Bool.not_eq_true', ← Bool.not_eq_true,
    containsExclusion_iff, pendingSet, Set.mem_sdiff]
  constructor
  · rintro ⟨text, ⟨hmem, hkept⟩, rfl⟩
    exact ⟨⟨text, hmem, rfl⟩, hkept⟩
  · rintro ⟨⟨text, hmem, rfl⟩, hkept⟩
    exact ⟨text, ⟨hmem, hkept⟩, rfl⟩

/-- Adding keeps a draft consistent and is the addition of the abstract set. -/
theorem add_refines {draft : ExclusionDraft} (hdraft : draft.Consistent qt) (p : Text) :
    ∃ hadded : (draft.add qt p).2.Consistent qt,
      (draft.add qt p).2.pendingSet qt hadded =
        (draft.pendingSet qt hdraft).add (p.map qt.foldCase) := by
  by_cases hremoved : containsExclusion qt draft.removed p = true
  · obtain ⟨hbase, hadds, hremoves⟩ := PendingSet.add_of_mem_removed
      (draft.pendingSet qt hdraft) ((containsExclusion_iff qt).1 hremoved)
    rw [add, if_pos hremoved]
    refine ⟨⟨hdraft.disjoint, ?_, hdraft.addedDistinct,
      distinctTexts_removeExclusion qt p hdraft.removedDistinct⟩,
      PendingSet.ext hbase.symm hadds.symm
        ((foldedSet_removeExclusion qt draft.removed p).trans hremoves.symm)⟩
    rw [foldedSet_removeExclusion]
    exact fun _ hkey => hdraft.subset hkey.1
  rw [add, if_neg hremoved]
  by_cases hpresent : containsExclusion qt draft.next p = true
  · rw [if_neg (by rw [containsText_eq, hpresent]; simp)]
    exact ⟨hdraft, (PendingSet.add_of_mem_base _
      (fun hmem => hremoved ((containsExclusion_iff qt).2 hmem))
      ((containsExclusion_iff qt).1 hpresent)).symm⟩
  have hmissing : p.map qt.foldCase ∉ foldedSet qt draft.next :=
    fun hmem => hpresent ((containsExclusion_iff qt).2 hmem)
  obtain ⟨hbase, hadds, hremoves⟩ := PendingSet.add_of_not_mem_base
    (draft.pendingSet qt hdraft) hmissing
  by_cases hadded : containsExclusion qt draft.added p = true
  · rw [if_neg (by rw [hadded]; simp)]
    exact ⟨hdraft, PendingSet.ext hbase.symm ((Set.insert_eq_of_mem
      ((containsExclusion_iff qt).1 hadded)).symm.trans hadds.symm) hremoves.symm⟩
  · rw [Bool.not_eq_true] at hpresent hadded
    rw [if_pos (by rw [containsText_eq, hpresent, hadded]; rfl)]
    have hset : foldedSet qt (draft.added ++ [p]) =
        insert (p.map qt.foldCase) (foldedSet qt draft.added) := by
      rw [foldedSet_append, foldedSet_singleton, Set.union_singleton]
    refine ⟨⟨?_, hdraft.subset, distinctTexts_append qt hdraft.addedDistinct hadded,
      hdraft.removedDistinct⟩,
      PendingSet.ext hbase.symm (hset.trans hadds.symm) hremoves.symm⟩
    rw [hset, Set.disjoint_insert_left]
    exact ⟨hmissing, hdraft.disjoint⟩

/-- Removing keeps a draft consistent and is the removal of the abstract set. -/
theorem remove_refines {draft : ExclusionDraft} (hdraft : draft.Consistent qt) (p : Text) :
    ∃ hremoved : (draft.remove qt p).2.Consistent qt,
      (draft.remove qt p).2.pendingSet qt hremoved =
        (draft.pendingSet qt hdraft).remove (p.map qt.foldCase) := by
  by_cases hadded : containsExclusion qt draft.added p = true
  · obtain ⟨hbase, hadds, hremoves⟩ := PendingSet.remove_of_mem_added
      (draft.pendingSet qt hdraft) ((containsExclusion_iff qt).1 hadded)
    rw [remove, if_pos hadded]
    refine ⟨⟨?_, hdraft.subset, distinctTexts_removeExclusion qt p hdraft.addedDistinct,
      hdraft.removedDistinct⟩,
      PendingSet.ext hbase.symm
        ((foldedSet_removeExclusion qt draft.added p).trans hadds.symm) hremoves.symm⟩
    rw [foldedSet_removeExclusion]
    exact hdraft.disjoint.mono_left
      (show _ \ _ ⊆ foldedSet qt draft.added from fun _ hkey => hkey.1)
  rw [remove, if_neg hadded]
  by_cases hpresent : containsExclusion qt draft.next p = true
  · have hmem := (containsExclusion_iff qt).1 hpresent
    obtain ⟨hbase, hadds, hremoves⟩ := PendingSet.remove_of_mem_base
      (draft.pendingSet qt hdraft) hmem
    by_cases hremoved : containsExclusion qt draft.removed p = true
    · rw [if_neg (by rw [hremoved]; simp)]
      exact ⟨hdraft, PendingSet.ext hbase.symm hadds.symm ((Set.insert_eq_of_mem
        ((containsExclusion_iff qt).1 hremoved)).symm.trans hremoves.symm)⟩
    · rw [Bool.not_eq_true] at hremoved
      rw [if_pos (by rw [containsText_eq, hpresent, hremoved]; rfl)]
      have hset : foldedSet qt (draft.removed ++ [p]) =
          insert (p.map qt.foldCase) (foldedSet qt draft.removed) := by
        rw [foldedSet_append, foldedSet_singleton, Set.union_singleton]
      refine ⟨⟨hdraft.disjoint, ?_, hdraft.addedDistinct,
        distinctTexts_append qt hdraft.removedDistinct hremoved⟩,
        PendingSet.ext hbase.symm hadds.symm (hset.trans hremoves.symm)⟩
      rw [hset]
      exact Set.insert_subset hmem hdraft.subset
  · have hmissing : containsExclusion qt draft.next p = false := Bool.not_eq_true _ ▸ hpresent
    rw [if_neg (by rw [containsText_eq, hmissing]; simp)]
    exact ⟨hdraft, (PendingSet.remove_of_not_mem _
      (fun hmem => hadded ((containsExclusion_iff qt).2 hmem))
      (fun hmem => hpresent ((containsExclusion_iff qt).2 hmem))).symm⟩

/-- After an addition the effective set has the entry, and the others as before. -/
theorem effectiveNext_add {draft : ExclusionDraft} (hdraft : draft.Consistent qt) (p : Text) :
    foldedSet qt ((draft.add qt p).2.effectiveNext qt) =
      insert (p.map qt.foldCase) (foldedSet qt (draft.effectiveNext qt)) := by
  obtain ⟨hadded, heq⟩ := add_refines qt hdraft p
  rw [foldedSet_effectiveNext qt _ hadded, heq, PendingSet.effective_add,
    foldedSet_effectiveNext qt _ hdraft]

theorem effectiveNext_remove {draft : ExclusionDraft} (hdraft : draft.Consistent qt) (p : Text) :
    foldedSet qt ((draft.remove qt p).2.effectiveNext qt) =
      foldedSet qt (draft.effectiveNext qt) \ {p.map qt.foldCase} := by
  obtain ⟨hremoved, heq⟩ := remove_refines qt hdraft p
  rw [foldedSet_effectiveNext qt _ hremoved, heq, PendingSet.effective_remove,
    foldedSet_effectiveNext qt _ hdraft]

end ExclusionDraft

end UwfManager
