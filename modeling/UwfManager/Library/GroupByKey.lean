import Mathlib.Algebra.BigOperators.Group.List.Basic
import Mathlib.Data.List.Induction
import Mathlib.Data.List.Nodup
import Mathlib.Tactic.Common

/-!
# Merging the items of a key

Items are taken one by one.  An item whose key is known is merged into the item that stands
for the key, and an item with a new key is appended.
-/

namespace GroupByKey

variable {α κ : Type*} [DecidableEq κ] (key : α → κ) (merge : α → α → α)

def insert (item : α) : List α → List α
  | [] => [item]
  | first :: rest =>
      if key first = key item then merge first item :: rest else first :: insert item rest

def group (items : List α) : List α :=
  items.foldl (fun groups item => insert key merge item groups) []

/-- The items merged into the first one. -/
def mergeAll : List α → Option α
  | [] => none
  | first :: rest => some (rest.foldl merge first)

theorem group_concat (items : List α) (item : α) :
    group key merge (items ++ [item]) = insert key merge item (group key merge items) := by
  rw [group, List.foldl_append]
  rfl

theorem mergeAll_concat (items : List α) (item : α) :
    mergeAll merge (items ++ [item]) = some ((mergeAll merge items).elim item (merge · item)) := by
  cases items with
  | nil => rfl
  | cons first rest =>
      rw [List.cons_append, mergeAll, List.foldl_append]
      rfl

variable {key merge}

theorem insert_of_new {item : α} {groups : List α} (hnew : key item ∉ groups.map key) :
    insert key merge item groups = groups ++ [item] := by
  induction groups with
  | nil => rfl
  | cons first rest ih =>
      rw [List.map_cons, List.mem_cons, not_or] at hnew
      rw [insert, if_neg (Ne.symm hnew.1), ih hnew.2, List.cons_append]

/-- Items with different keys stay as they are. -/
theorem group_of_nodup {items : List α} (hnodup : (items.map key).Nodup) :
    group key merge items = items := by
  induction items using List.reverseRecOn with
  | nil => rfl
  | append_singleton items item ih =>
      rw [List.map_append, List.map_singleton, List.nodup_append] at hnodup
      rw [group_concat, ih hnodup.1]
      apply insert_of_new
      intro hmem
      exact hnodup.2.2 _ hmem _ (List.mem_singleton_self _) rfl

/-- What merging adds up is neither lost nor counted twice. -/
theorem sum_group {M : Type*} [AddCommMonoid M] {measure : α → M}
    (hmerge : ∀ first item, measure (merge first item) = measure first + measure item)
    (items : List α) :
    ((group key merge items).map measure).sum = (items.map measure).sum := by
  have hinsert : ∀ (item : α) (groups : List α),
      ((insert key merge item groups).map measure).sum =
        (groups.map measure).sum + measure item := by
    intro item groups
    induction groups with
    | nil => simp [insert]
    | cons first rest ih =>
        rw [insert]
        split
        · rw [List.map_cons, List.sum_cons, hmerge, List.map_cons, List.sum_cons, add_right_comm]
        · rw [List.map_cons, List.sum_cons, ih, List.map_cons, List.sum_cons, add_assoc]
  induction items using List.reverseRecOn with
  | nil => rfl
  | append_singleton items item ih =>
      rw [group_concat, hinsert, ih, List.map_append, List.map_singleton, List.sum_append,
        List.sum_singleton]

theorem measure_mergeAll {M : Type*} [AddCommMonoid M] {measure : α → M}
    (hmerge : ∀ first item, measure (merge first item) = measure first + measure item)
    (items : List α) :
    (mergeAll merge items).map measure =
      if items = [] then none else some (items.map measure).sum := by
  cases items with
  | nil => rfl
  | cons first rest =>
      rw [if_neg (List.cons_ne_nil _ _), mergeAll, Option.map_some, Option.some_inj]
      induction rest generalizing first with
      | nil => simp
      | cons item rest ih =>
          rw [List.foldl_cons, ih, List.map_cons, List.sum_cons, hmerge, List.map_cons,
            List.sum_cons, List.map_cons, List.sum_cons, add_assoc]

variable (hkey : ∀ first item, key first = key item → key (merge first item) = key first)
include hkey

theorem keys_insert (item : α) (groups : List α) :
    (insert key merge item groups).map key =
      if key item ∈ groups.map key then groups.map key else groups.map key ++ [key item] := by
  induction groups with
  | nil => rfl
  | cons first rest ih =>
      rw [insert]
      by_cases hfirst : key first = key item
      · rw [if_pos hfirst, List.map_cons, hkey first item hfirst, List.map_cons,
          if_pos (hfirst ▸ List.mem_cons_self)]
      · have hother : key item ≠ key first := Ne.symm hfirst
        rw [if_neg hfirst, List.map_cons, ih, List.map_cons]
        by_cases hmem : key item ∈ rest.map key
        · rw [if_pos hmem, if_pos (List.mem_cons_of_mem _ hmem)]
        · rw [if_neg hmem, if_neg (List.not_mem_cons_of_ne_of_not_mem hother hmem),
            List.cons_append]

/-- One item stands for a key. -/
theorem nodup_group (items : List α) : ((group key merge items).map key).Nodup := by
  induction items using List.reverseRecOn with
  | nil => exact List.nodup_nil
  | append_singleton items item ih =>
      rw [group_concat, keys_insert hkey]
      split
      next => exact ih
      next hnew =>
        rw [List.nodup_append]
        refine ⟨ih, List.nodup_singleton _, ?_⟩
        intro a ha b hb hsame
        rw [hsame, List.mem_singleton.1 hb] at ha
        exact hnew ha

theorem find?_insert (k : κ) (item : α) (groups : List α) :
    (insert key merge item groups).find? (fun a => key a = k) =
      if key item = k then
        some ((groups.find? fun a => key a = k).elim item (merge · item))
      else groups.find? fun a => key a = k := by
  induction groups with
  | nil => by_cases hitem : key item = k <;> simp [insert, hitem]
  | cons first rest ih =>
      rw [insert]
      by_cases hsame : key first = key item
      · have hmerged := hkey first item hsame
        rw [if_pos hsame, List.find?_cons, List.find?_cons, hmerged]
        by_cases hk : key first = k
        · simp [hk, hsame ▸ hk]
        · simp [hk, hsame ▸ hk]
      · rw [if_neg hsame, List.find?_cons, ih, List.find?_cons]
        by_cases hk : key first = k
        · have hitem : key item ≠ k := fun h => hsame (hk.trans h.symm)
          simp [hk, hitem]
        · simp [hk]

/-- The item that stands for a key is all items of the key merged. -/
theorem find?_group (k : κ) (items : List α) :
    (group key merge items).find? (fun a => key a = k) =
      mergeAll merge (items.filter fun a => key a = k) := by
  induction items using List.reverseRecOn with
  | nil => rfl
  | append_singleton items item ih =>
      rw [group_concat, find?_insert hkey, ih, List.filter_append]
      by_cases hitem : key item = k
      · rw [if_pos hitem, List.filter_singleton, decide_eq_true hitem, cond_true, mergeAll_concat]
      · rw [if_neg hitem, List.filter_singleton, decide_eq_false hitem, cond_false,
          List.append_nil]

/-- The order of the items does not matter to what merging adds up for a key. -/
theorem measure_find?_group_perm {M : Type*} [AddCommMonoid M] {measure : α → M}
    (hmerge : ∀ first item, measure (merge first item) = measure first + measure item)
    {items others : List α} (hperm : items.Perm others) (k : κ) :
    ((group key merge items).find? fun a => key a = k).map measure =
      ((group key merge others).find? fun a => key a = k).map measure := by
  have hfilter := hperm.filter fun a => decide (key a = k)
  rw [find?_group hkey, find?_group hkey, measure_mergeAll hmerge, measure_mergeAll hmerge,
    (hfilter.map measure).sum_eq]
  congr 1
  rw [eq_iff_iff]
  constructor
  · intro h
    exact List.nil_perm.1 (h ▸ hfilter)
  · intro h
    exact List.perm_nil.1 (h ▸ hfilter)

end GroupByKey

namespace GroupByKey

variable {α κ : Type*} [DecidableEq κ] {key : α → κ}

/-- An item is found by its key wherever it stands. -/
theorem find?_perm {items others : List α} (hperm : items.Perm others)
    (hnodup : (items.map key).Nodup) (k : κ) :
    (items.find? fun a => key a = k) = others.find? fun a => key a = k := by
  have hfound : ∀ {list : List α}, (list.map key).Nodup → ∀ a,
      (list.find? fun a => key a = k) = some a ↔ a ∈ list ∧ key a = k := by
    intro list hlist a
    constructor
    · intro h
      exact ⟨List.mem_of_find?_eq_some h, by simpa using List.find?_some h⟩
    · rintro ⟨hmem, hk⟩
      cases hfind : list.find? fun a => key a = k with
      | none => exact absurd hk (by simpa using List.find?_eq_none.1 hfind a hmem)
      | some b =>
          have hb : key b = k := by simpa using List.find?_some hfind
          rw [List.inj_on_of_nodup_map hlist (List.mem_of_find?_eq_some hfind) hmem
            (hb.trans hk.symm)]
  apply Option.ext
  intro a
  rw [hfound hnodup, hfound ((hperm.map key).nodup_iff.1 hnodup), hperm.mem_iff]

end GroupByKey
