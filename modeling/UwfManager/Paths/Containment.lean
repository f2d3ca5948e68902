import UwfManager.Paths.PathPolicy

/-!
# Containment of paths

Containment orders the paths by their segments, up to the case, the style of the separators
and the separators at the end.
-/

namespace UwfManager

namespace Paths

variable (qt : Qt)

/-- What containment sees of a path: its separators are converted, the last ones are
dropped and the case is folded. -/
def form (path : Text) : Text := ((native qt path).rdropWhile isSeparator).map qt.foldCase

variable {qt}

theorem form_eq_nil {path : Text} :
    form qt path = [] ↔ (native qt path).rdropWhile isSeparator = [] := List.map_eq_nil_iff

/-- The path contains another one whose text goes on with a separator, if it goes on. -/
theorem contains_iff_form {parent path : Text} :
    contains qt parent path = true ↔
      form qt parent ≠ [] ∧ ∃ front back, native qt path = front ++ back ∧
        front.map qt.foldCase = form qt parent ∧ ∀ c ∈ back.head?, isSeparator c = true := by
  rw [contains_iff, Ne, Ne, form_eq_nil]
  rfl

/-- A path is its text without the last separators, and separators. -/
theorem exists_native_eq (path : Text) :
    ∃ back, native qt path = (native qt path).rdropWhile isSeparator ++ back ∧
      ∀ c ∈ back, isSeparator c = true := by
  refine ⟨(native qt path).rtakeWhile isSeparator, ?_, ?_⟩
  · exact List.rdropWhile_append_rtakeWhile.symm
  · exact fun c hc => List.mem_rtakeWhile_imp hc

theorem contains_of_form_eq {parent path : Text} (hne : form qt parent ≠ [])
    (hsame : form qt path = form qt parent) : contains qt parent path = true := by
  obtain ⟨back, hback, hseparators⟩ := @exists_native_eq qt path
  apply contains_iff_form.2
  exact ⟨hne, _, back, hback, hsame, fun c hc => hseparators c (List.mem_of_mem_head? hc)⟩

/-- A path contains itself unless it is made of separators only. -/
theorem contains_self_iff {path : Text} : contains qt path path = true ↔ form qt path ≠ [] := by
  constructor
  · intro hcontains
    exact (contains_iff_form.1 hcontains).1
  · intro hne
    exact contains_of_form_eq hne rfl

/-- A longer last segment is another segment. -/
theorem not_contains_of_longer {parent path front back : Text}
    (hpath : native qt path = front ++ back) (hfront : front.map qt.foldCase = form qt parent)
    (hback : ∃ c ∈ back.head?, isSeparator c = false) : contains qt parent path = false := by
  rw [← Bool.not_eq_true]
  intro hcontains
  obtain ⟨-, other, rest, hpath', hother, hrest⟩ := contains_iff_form.1 hcontains
  have hlength : front.length = other.length := by
    calc
      front.length = (front.map qt.foldCase).length := (List.length_map _).symm
      _ = (other.map qt.foldCase).length := by rw [hfront, hother]
      _ = other.length := List.length_map _
  obtain ⟨-, rfl⟩ := List.append_inj (hpath.symm.trans hpath') hlength
  obtain ⟨c, hc, hvisible⟩ := hback
  rw [hrest c hc] at hvisible
  cases hvisible

section FoldsLetters

variable (hqt : qt.FoldsLetters)
include hqt

/-- A text that is folded to a form ends with no separator. -/
theorem kept_of_form {path front : Text} (hfront : front.map qt.foldCase = form qt path) :
    front.rdropWhile isSeparator = front := by
  rw [List.rdropWhile_eq_self_iff]
  intro hne hseparator
  have hroot : (native qt path).rdropWhile isSeparator ≠ [] := by
    intro hnil
    rw [form, hnil, List.map_nil, List.map_eq_nil_iff] at hfront
    exact hne hfront
  have hlast := congrArg List.getLast? hfront
  rw [form, List.getLast?_map, List.getLast?_map, List.getLast?_eq_some_getLast hne,
    List.getLast?_eq_some_getLast hroot, Option.map_some, Option.map_some, Option.some_inj] at hlast
  apply List.rdropWhile_last_not isSeparator _ hroot
  rw [← isSeparator_foldCase hqt, ← hlast, isSeparator_foldCase hqt]
  exact hseparator

/-- What a path contains begins with its form, and goes on with a separator. -/
theorem form_of_contains {parent path : Text} (hcontains : contains qt parent path = true) :
    ∃ back, form qt path = form qt parent ++ back ∧ ∀ c ∈ back.head?, isSeparator c = true := by
  obtain ⟨-, front, back, hpath, hfront, hback⟩ := contains_iff_form.1 hcontains
  refine ⟨(back.rdropWhile isSeparator).map qt.foldCase, ?_, ?_⟩
  · rw [form, hpath, rdropWhile_append (kept_of_form hqt hfront), List.map_append, hfront]
  · intro c hc
    cases hkept : back.rdropWhile isSeparator with
    | nil =>
        rw [hkept] at hc
        cases hc
    | cons first rest =>
        obtain ⟨tail, htail⟩ := List.rdropWhile_prefix isSeparator back
        rw [hkept] at hc htail
        obtain rfl : qt.foldCase first = c := Option.some_inj.1 hc
        rw [isSeparator_foldCase hqt]
        apply hback
        rw [← htail]
        rfl

theorem contains_trans {first second third : Text} (hfirst : contains qt first second = true)
    (hsecond : contains qt second third = true) : contains qt first third = true := by
  have hne := (contains_iff_form.1 hfirst).1
  obtain ⟨middle, hform, hmiddle⟩ := form_of_contains hqt hfirst
  obtain ⟨-, front, back, hpath, hfront, hback⟩ := contains_iff_form.1 hsecond
  rw [hform, List.map_eq_append_iff] at hfront
  obtain ⟨start, rest, rfl, hstart, hrest⟩ := hfront
  apply contains_iff_form.2
  refine ⟨hne, start, rest ++ back, by rw [hpath, List.append_assoc], hstart, fun c hc => ?_⟩
  cases rest with
  | nil => exact hback c hc
  | cons d rest =>
      obtain rfl : d = c := Option.some_inj.1 hc
      rw [← isSeparator_foldCase hqt]
      apply hmiddle
      rw [← hrest]
      rfl

/-- Two paths contain each other when they have the same form. -/
theorem contains_antisymm_iff {first second : Text} :
    contains qt first second = true ∧ contains qt second first = true ↔
      form qt first ≠ [] ∧ form qt first = form qt second := by
  constructor
  · rintro ⟨hfirst, hsecond⟩
    obtain ⟨back, hback, -⟩ := form_of_contains hqt hfirst
    obtain ⟨back', hback', -⟩ := form_of_contains hqt hsecond
    refine ⟨(contains_iff_form.1 hfirst).1, ?_⟩
    apply List.IsPrefix.eq_of_length_le
    · exact ⟨back, hback.symm⟩
    · rw [hback', List.length_append]
      exact Nat.le_add_right _ _
  · rintro ⟨hne, hsame⟩
    exact ⟨contains_of_form_eq hne hsame.symm, contains_of_form_eq (hsame ▸ hne) hsame⟩

end FoldsLetters

/-! ## The order -/

/-- Containment is a preorder on the paths that are more than separators, which identifies
the paths of one form and keeps the segments apart.  Where the separators are converted one
by one, the form is read off the text. -/
theorem containment_preorder (hqt : qt.FoldsLetters) :
    (∀ path, contains qt path path = true ↔ form qt path ≠ []) ∧
      (∀ first second third, contains qt first second = true → contains qt second third = true →
        contains qt first third = true) ∧
      (∀ first second, contains qt first second = true ∧ contains qt second first = true ↔
        form qt first ≠ [] ∧ form qt first = form qt second) ∧
      (∀ parent path front back, native qt path = front ++ back →
        front.map qt.foldCase = form qt parent → (∃ c ∈ back.head?, isSeparator c = false) →
          contains qt parent path = false) ∧
      (qt.ConvertsSeparators → ∀ path, qt.Converts path →
        native qt path = path.map toBackslash ∧
        form qt path = (stripTrailingSeparators (path.map toBackslash)).map qt.foldCase) := by
  refine ⟨fun path => contains_self_iff, fun first second third => contains_trans hqt,
    fun first second => contains_antisymm_iff hqt,
    fun parent path front back => not_contains_of_longer, fun hconverts path hpath => ?_⟩
  have hnative := native_eq_map hconverts hpath
  refine ⟨hnative, ?_⟩
  rw [form, hnative]
  rfl

theorem containment_preorder_ascii :
    contains Qt.ascii "C:\\Data\\".toList "c:/data".toList = true ∧
      contains Qt.ascii "C:\\Data\\".toList "c:/database".toList = false := by
  obtain ⟨-, -, hsame, hlonger, -⟩ := containment_preorder Qt.ascii_foldsLetters
  refine ⟨((hsame _ _).2 (by decide)).1, ?_⟩
  exact hlonger "C:\\Data\\".toList "c:/database".toList "c:\\data".toList "base".toList rfl
    (by decide) ⟨'b', rfl, rfl⟩

/-- The root of the current drive does not contain itself. -/
theorem separators_not_contained :
    ¬∀ path, contains Qt.ascii path path = true := by
  intro hself
  have hroot := hself ['\\']
  revert hroot
  decide

end Paths

end UwfManager
