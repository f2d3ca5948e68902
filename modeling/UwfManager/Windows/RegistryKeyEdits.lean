import UwfManager.Windows.RegistryKeyTree

/-!
# Creating and deleting keys

With a key the keys on the way to it are created, and with a key everything below it is
deleted.  Both leave a tree well formed.
-/

namespace UwfManager

namespace RegKey

namespace Subkeys

/-- The keys on a path of which none is there yet. -/
def chain : List Text → Subkeys
  | [] => none
  | name :: path => key name (chain path) none

section

variable (fold : Text → Text)

/-- `RegCreateKeyExW` -/
def create : Subkeys → List Text → Subkeys
  | none, path => chain path
  | key other below others, [] => key other below others
  | key other below others, name :: path =>
      if fold other = fold name then key other (below.create path) others
      else key other below (others.create (name :: path))

/-- Deletes the key at the path, with the keys below it. -/
def erase : Subkeys → List Text → Subkeys
  | none, _ => none
  | key other below others, [] => key other below others
  | key other below others, name :: path =>
      if fold other = fold name then
        if path = [] then others else key other (below.erase path) others
      else key other below (others.erase (name :: path))

end

variable {fold : Text → Text}

theorem chain_wellFormed {path : List Text} (hpath : ∀ name ∈ path, IsName name) :
    (chain path).WellFormed fold := by
  induction path with
  | nil => trivial
  | cons name path ih =>
      obtain ⟨hname, hrest⟩ := List.forall_mem_cons.1 hpath
      exact ⟨hname, by simp [names], ih hrest, trivial⟩

/-- The only new name is the first of the path. -/
theorem names_create {keys : Subkeys} {path : List Text} :
    ∀ other ∈ (keys.create fold path).names, other ∈ keys.names ∨ other ∈ path.head? := by
  induction keys with
  | none =>
      intro other hother
      cases path with
      | nil => cases hother
      | cons name path =>
          rw [create, chain, names, names, List.mem_singleton] at hother
          rw [hother]
          exact Or.inr rfl
  | key first below others _ hothers =>
      intro other hother
      cases path with
      | nil => exact Or.inl hother
      | cons name path =>
          rw [create] at hother
          split_ifs at hother
          · exact Or.inl hother
          · rcases List.mem_cons.1 hother with rfl | hother
            · exact Or.inl List.mem_cons_self
            · exact (hothers other hother).imp_left (List.mem_cons_of_mem _)

theorem create_wellFormed {keys : Subkeys} (hkeys : keys.WellFormed fold) {path : List Text}
    (hpath : ∀ name ∈ path, IsName name) : (keys.create fold path).WellFormed fold := by
  induction keys generalizing path with
  | none => exact chain_wellFormed hpath
  | key first below others hbelow hothers =>
      obtain ⟨hfirst, hdistinct, hkeysBelow, hkeysOthers⟩ := hkeys
      cases path with
      | nil => exact ⟨hfirst, hdistinct, hkeysBelow, hkeysOthers⟩
      | cons name path =>
          rw [create]
          split_ifs with hsame
          · exact ⟨hfirst, hdistinct,
              hbelow hkeysBelow (fun part hpart => hpath part (List.mem_cons_of_mem _ hpart)),
              hkeysOthers⟩
          · refine ⟨hfirst, fun other hother => ?_, hkeysBelow, hothers hkeysOthers hpath⟩
            rcases names_create other hother with hold | hnew
            · exact hdistinct other hold
            · rw [← Option.some_inj.1 hnew]
              exact Ne.symm hsame

theorem names_erase {keys : Subkeys} {path : List Text} :
    ∀ other ∈ (keys.erase fold path).names, other ∈ keys.names := by
  induction keys with
  | none => exact fun _ hother => hother
  | key first below others _ hothers =>
      intro other hother
      cases path with
      | nil => exact hother
      | cons name path =>
          rw [erase] at hother
          split_ifs at hother
          · exact List.mem_cons_of_mem _ hother
          · exact hother
          · rcases List.mem_cons.1 hother with rfl | hother
            · exact List.mem_cons_self
            · exact List.mem_cons_of_mem _ (hothers other hother)

theorem erase_wellFormed {keys : Subkeys} (hkeys : keys.WellFormed fold) (path : List Text) :
    (keys.erase fold path).WellFormed fold := by
  induction keys generalizing path with
  | none => trivial
  | key first below others hbelow hothers =>
      obtain ⟨hfirst, hdistinct, hkeysBelow, hkeysOthers⟩ := hkeys
      cases path with
      | nil => exact ⟨hfirst, hdistinct, hkeysBelow, hkeysOthers⟩
      | cons name path =>
          rw [erase]
          split_ifs
          · exact hkeysOthers
          · exact ⟨hfirst, hdistinct, hbelow hkeysBelow path, hkeysOthers⟩
          · exact ⟨hfirst, fun other hother => hdistinct other (names_erase other hother),
              hkeysBelow, hothers hkeysOthers (name :: path)⟩

theorem descend_chain (path : List Text) : ((chain path).descend fold path).isSome = true := by
  induction path with
  | nil => rfl
  | cons name path ih =>
      rw [chain, descend, find, if_pos rfl, Option.bind_some]
      exact ih

/-- A key that was created is there. -/
theorem descend_create (keys : Subkeys) (path : List Text) :
    ((keys.create fold path).descend fold path).isSome = true := by
  induction keys generalizing path with
  | none => exact descend_chain path
  | key first below others hbelow hothers =>
      cases path with
      | nil => rfl
      | cons name path =>
          rw [create]
          split_ifs with hsame
          · rw [descend, find, if_pos hsame, Option.bind_some]
            exact hbelow path
          · rw [descend, find, if_neg hsame]
            exact hothers (name :: path)

end Subkeys

end RegKey

end UwfManager
