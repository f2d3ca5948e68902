import Mathlib.Data.List.Nodup
import Mathlib.Data.List.Perm.Basic
import Mathlib.Logic.Function.Basic
import Mathlib.Tactic.Common

/-!
# Sequences of keyed writes

A write stores a value under a key.  Replaying a sequence of writes leaves the
last value under each key; a list that holds at most one write for each key is
kept in this form by replacing an earlier write in place.
-/

namespace KeyedWrites

variable {κ ν α : Type*} [DecidableEq κ]

/-- Executes the writes in order. -/
def replay (writes : List (κ × ν)) (state : κ → Option ν) : κ → Option ν :=
  writes.foldl (fun state write => Function.update state write.1 (some write.2)) state

/-- The value of the last write under a key. -/
def lastValue (key : κ) : List (κ × ν) → Option ν
  | [] => none
  | write :: rest =>
      (lastValue key rest).or (if write.1 = key then some write.2 else none)

@[simp]
theorem lastValue_nil (key : κ) : lastValue key ([] : List (κ × ν)) = none := rfl

theorem lastValue_cons (key : κ) (write : κ × ν) (rest : List (κ × ν)) :
    lastValue key (write :: rest) =
      (lastValue key rest).or (if write.1 = key then some write.2 else none) := rfl

theorem lastValue_append (key : κ) (first second : List (κ × ν)) :
    lastValue key (first ++ second) = (lastValue key second).or (lastValue key first) := by
  induction first with
  | nil => simp
  | cons write first ih =>
      rw [List.cons_append, lastValue_cons, ih, lastValue_cons, Option.or_assoc]

/-- A replay keeps the old value under a key that is not written. -/
theorem replay_apply (writes : List (κ × ν)) (state : κ → Option ν) (key : κ) :
    replay writes state key = (lastValue key writes).or (state key) := by
  induction writes generalizing state with
  | nil => rfl
  | cons write rest ih =>
      have hstep : replay (write :: rest) state =
          replay rest (Function.update state write.1 (some write.2)) := rfl
      rw [hstep, ih, lastValue_cons, Option.or_assoc]
      congr 1
      by_cases hkey : write.1 = key
      · rw [if_pos hkey, ← hkey, Function.update_self]
        rfl
      · rw [if_neg hkey, Function.update_of_ne (Ne.symm hkey)]
        rfl

theorem lastValue_eq_none_iff {key : κ} {writes : List (κ × ν)} :
    lastValue key writes = none ↔ key ∉ writes.map Prod.fst := by
  induction writes with
  | nil => simp
  | cons write rest ih =>
      rw [lastValue_cons, Option.or_eq_none_iff, ih, List.map_cons, List.mem_cons, not_or,
        and_comm]
      by_cases hkey : write.1 = key
      · simp [hkey]
      · simp [hkey, Ne.symm hkey]

/-- When no key is written twice, the order of the writes does not matter. -/
theorem lastValue_eq_some_iff {key : κ} {value : ν} {writes : List (κ × ν)}
    (hnodup : (writes.map Prod.fst).Nodup) :
    lastValue key writes = some value ↔ (key, value) ∈ writes := by
  induction writes with
  | nil => simp
  | cons write rest ih =>
      rw [List.map_cons, List.nodup_cons] at hnodup
      by_cases hkey : write.1 = key
      · have hnone : lastValue key rest = none :=
          lastValue_eq_none_iff.2 (hkey ▸ hnodup.1)
        have hrest : (key, value) ∉ rest := fun hmem =>
          hnodup.1 (hkey ▸ List.mem_map_of_mem (f := Prod.fst) hmem)
        rw [lastValue_cons, hnone, if_pos hkey, List.mem_cons, or_iff_left hrest, Option.none_or,
          Option.some.injEq, Prod.ext_iff]
        exact ⟨fun h => ⟨hkey.symm, h.symm⟩, fun h => h.2.symm⟩
      · have hhead : (key, value) ≠ write := fun h => hkey (congrArg Prod.fst h).symm
        rw [lastValue_cons, if_neg hkey, Option.or_none, ih hnodup.2, List.mem_cons,
          or_iff_right hhead]

/-! ## At most one entry for each key -/

section Upsert

variable (write : α → κ × ν)

/-- Replaces the first entry under the key of the new one, or appends it. -/
def upsert (entry : α) : List α → List α
  | [] => [entry]
  | first :: rest =>
      if (write first).1 = (write entry).1 then entry :: rest else first :: upsert entry rest

theorem upsert_eq_findIdx? (entry : α) (entries : List α) :
    upsert write entry entries =
      match (entries.map fun e => (write e).1).findIdx? (fun key => key = (write entry).1) with
      | some index => entries.set index entry
      | none => entries ++ [entry] := by
  induction entries with
  | nil => rfl
  | cons first rest ih =>
      rw [upsert, List.map_cons, List.findIdx?_cons]
      by_cases hkey : (write first).1 = (write entry).1
      · rw [if_pos hkey, if_pos (decide_eq_true hkey)]
        rfl
      · rw [if_neg hkey, if_neg (mt of_decide_eq_true hkey), ih]
        cases (rest.map fun e => (write e).1).findIdx? (fun key => key = (write entry).1) <;> rfl

/-- Inserts the updates one after the other. -/
def merge (entries updates : List α) : List α :=
  updates.foldl (fun entries entry => upsert write entry entries) entries

/-- The keys stay where they are. -/
theorem keys_upsert_of_mem {entry : α} {entries : List α}
    (hmem : (write entry).1 ∈ entries.map fun e => (write e).1) :
    (upsert write entry entries).map (fun e => (write e).1) =
      entries.map fun e => (write e).1 := by
  induction entries with
  | nil => simp at hmem
  | cons first rest ih =>
      rw [upsert]
      by_cases hkey : (write first).1 = (write entry).1
      · simp [hkey]
      · rw [List.map_cons, List.mem_cons, or_iff_right (Ne.symm hkey)] at hmem
        rw [if_neg hkey, List.map_cons, ih hmem, List.map_cons]

/-- A new key comes last. -/
theorem keys_upsert_of_not_mem {entry : α} {entries : List α}
    (hmem : (write entry).1 ∉ entries.map fun e => (write e).1) :
    (upsert write entry entries).map (fun e => (write e).1) =
      entries.map (fun e => (write e).1) ++ [(write entry).1] := by
  induction entries with
  | nil => rfl
  | cons first rest ih =>
      rw [List.map_cons, List.mem_cons, not_or] at hmem
      rw [upsert, if_neg (Ne.symm hmem.1), List.map_cons, ih hmem.2, List.map_cons,
        List.cons_append]

theorem nodup_keys_upsert_iff (entry : α) (entries : List α) :
    ((upsert write entry entries).map fun e => (write e).1).Nodup ↔
      (entries.map fun e => (write e).1).Nodup := by
  by_cases hmem : (write entry).1 ∈ entries.map (fun e => (write e).1)
  · rw [keys_upsert_of_mem write hmem]
  · rw [keys_upsert_of_not_mem write hmem, List.nodup_append_comm, List.singleton_append,
      List.nodup_cons, and_iff_right hmem]

theorem lastValue_upsert {entry : α} {entries : List α} (key : κ)
    (hnodup : (entries.map fun e => (write e).1).Nodup) :
    lastValue key ((upsert write entry entries).map write) =
      (if (write entry).1 = key then some (write entry).2 else none).or
        (lastValue key (entries.map write)) := by
  induction entries with
  | nil => simp [upsert, lastValue_cons]
  | cons first rest ih =>
      rw [List.map_cons, List.nodup_cons] at hnodup
      rw [upsert]
      by_cases hfirst : (write first).1 = (write entry).1
      · rw [if_pos hfirst, List.map_cons, List.map_cons, lastValue_cons, lastValue_cons, hfirst]
        by_cases hkey : (write entry).1 = key
        · have hnone : lastValue key (rest.map write) = none := by
            rw [lastValue_eq_none_iff, List.map_map, ← hkey, ← hfirst]
            exact hnodup.1
          simp [hkey, hnone]
        · simp [hkey]
      · rw [if_neg hfirst, List.map_cons, List.map_cons, lastValue_cons, lastValue_cons,
          ih hnodup.2, Option.or_assoc]

/-- Merging keeps the keys of the entries in place and appends new ones. -/
theorem keys_merge (entries updates : List α) :
    ∃ added, (merge write entries updates).map (fun e => (write e).1) =
      entries.map (fun e => (write e).1) ++ added := by
  induction updates generalizing entries with
  | nil => exact ⟨[], by simp [merge]⟩
  | cons entry updates ih =>
      obtain ⟨added, hadded⟩ := ih (upsert write entry entries)
      by_cases hmem : (write entry).1 ∈ entries.map (fun e => (write e).1)
      · rw [keys_upsert_of_mem write hmem] at hadded
        exact ⟨added, hadded⟩
      · rw [keys_upsert_of_not_mem write hmem, List.append_assoc] at hadded
        exact ⟨(write entry).1 :: added, hadded⟩

theorem nodup_keys_merge_iff (entries updates : List α) :
    ((merge write entries updates).map fun e => (write e).1).Nodup ↔
      (entries.map fun e => (write e).1).Nodup := by
  induction updates generalizing entries with
  | nil => rfl
  | cons entry updates ih => exact (ih _).trans (nodup_keys_upsert_iff write entry entries)

/-- An update wins over the entry it replaces, and a later update over an
earlier one. -/
theorem lastValue_merge {entries updates : List α} (key : κ)
    (hnodup : (entries.map fun e => (write e).1).Nodup) :
    lastValue key ((merge write entries updates).map write) =
      (lastValue key (updates.map write)).or (lastValue key (entries.map write)) := by
  induction updates generalizing entries with
  | nil => simp [merge]
  | cons entry updates ih =>
      have hstep : merge write entries (entry :: updates) =
          merge write (upsert write entry entries) updates := rfl
      rw [hstep, ih ((nodup_keys_upsert_iff write entry entries).2 hnodup),
        lastValue_upsert write key hnodup, List.map_cons, lastValue_cons, Option.or_assoc]

end Upsert

end KeyedWrites
