import UwfManager.Paths.PathExclusionIndex

/-!
# The index and the list of exclusions

The index covers a path exactly if the search through the list of exclusions finds one
that does, and it answers with the longest excluded path that covers it.
-/

namespace UwfManager

variable {qt : Qt}

namespace Paths

/-- The separators of a path are converted one by one, with those at its end and without. -/
def EndsConvert (qt : Qt) (path : Text) : Prop :=
  qt.Converts path ∧ qt.Converts (stripTrailingSeparators path)

theorem endsConvert_of_plain (hqt : qt.ConvertsSeparators) {path : Text}
    (hplain : Qt.hasLongPathPrefix path = false) : EndsConvert qt path :=
  ⟨hqt.fromNative path hplain, converts_strip hqt hplain⟩

/-- A text ends in separators if a text of the same folding does. -/
theorem rdropWhile_eq_self_of_sameText (hfold : qt.FoldsLetters) {first second : Text}
    (hsame : first.map qt.foldCase = second.map qt.foldCase)
    (hsecond : second.rdropWhile isSeparator = second) : first.rdropWhile isSeparator = first := by
  have hcomp : isSeparator ∘ qt.foldCase = isSeparator := funext (isSeparator_foldCase hfold)
  have hmap : ∀ text : Text, (text.map qt.foldCase).rdropWhile isSeparator =
      (text.rdropWhile isSeparator).map qt.foldCase := fun text => by
    simp only [List.rdropWhile, ← List.map_reverse, List.dropWhile_map, hcomp]
  have hlength : (first.rdropWhile isSeparator).length = first.length := by
    calc
      (first.rdropWhile isSeparator).length =
          ((first.map qt.foldCase).rdropWhile isSeparator).length := by
        rw [hmap, List.length_map]
      _ = ((second.rdropWhile isSeparator).map qt.foldCase).length := by rw [hsame, hmap]
      _ = (first.map qt.foldCase).length := by rw [hsecond, hsame]
      _ = first.length := List.length_map _
  exact (List.rdropWhile_prefix isSeparator first).eq_of_length hlength

/-- Separators at the end of the parent and of the path do not matter. -/
theorem contains_strip_strip (hqt : qt.ConvertsSeparators) (hfold : qt.FoldsLetters)
    {parent path : Text} (hparent : EndsConvert qt parent) (hpath : EndsConvert qt path) :
    contains qt (stripTrailingSeparators parent) (stripTrailingSeparators path) = true ↔
      contains qt parent path = true := by
  rw [contains_iff, contains_iff, native_strip hqt hparent.1 hparent.2,
    native_strip hqt hpath.1 hpath.2, List.rdropWhile_idempotent]
  apply and_congr_right
  intro _
  constructor
  · rintro ⟨front, back, hpath, hfront, hback⟩
    have hsplit : (native qt path).rdropWhile isSeparator ++
        (native qt path).rtakeWhile isSeparator = native qt path :=
      List.rdropWhile_append_rtakeWhile
    refine ⟨front, back ++ (native qt path).rtakeWhile isSeparator, ?_, hfront, fun c hc => ?_⟩
    · rw [← List.append_assoc, ← hpath, hsplit]
    · cases back with
      | nil => exact List.mem_rtakeWhile_imp (List.mem_of_mem_head? hc)
      | cons d rest => exact hback c hc
  · rintro ⟨front, back, hpath, hfront, hback⟩
    refine ⟨front, back.rdropWhile isSeparator, ?_, hfront, fun c hc => ?_⟩
    · have hkept : front.rdropWhile isSeparator = front :=
        rdropWhile_eq_self_of_sameText hfold hfront (List.rdropWhile_idempotent _ _)
      rw [hpath, rdropWhile_append hkept]
    · obtain ⟨tail, htail⟩ := List.rdropWhile_prefix isSeparator back
      apply hback
      rw [← htail, Option.mem_def, List.head?_append, Option.mem_def.1 hc]
      rfl

end Paths

namespace PathExclusionIndex

/-- Each root comes from an exclusion. -/
theorem exists_of_mem_roots {exclusions : List Text} {index : PathExclusionIndex} {root : Text}
    (hroot : root ∈ (exclusions.foldl (add qt) index).roots) :
    root ∈ index.roots ∨ ∃ exclusion ∈ exclusions, trimmed qt exclusion = root := by
  induction exclusions generalizing index with
  | nil => exact Or.inl hroot
  | cons exclusion rest ih =>
      rcases ih hroot with hadded | ⟨other, hother, htrimmed⟩
      · rw [add] at hadded
        split_ifs at hadded
        · exact Or.inl hadded
        · rcases List.mem_append.1 hadded with hold | hnew
          · exact Or.inl hold
          · exact Or.inr ⟨exclusion, List.mem_cons_self, (List.mem_singleton.1 hnew).symm⟩
      · exact Or.inr ⟨other, List.mem_cons_of_mem exclusion hother, htrimmed⟩

/-- What the walk finds is a root that is the text or one of its ancestors. -/
theorem coveringFrom_spec {index : PathExclusionIndex} {fuel : ℕ} {text : Text}
    (hfound : index.coveringFrom qt fuel text ≠ []) :
    index.coveringFrom qt fuel text ∈ index.roots ∧
      ∃ front back, text = front ++ back ∧
        qt.sameText (index.coveringFrom qt fuel text) front = true ∧ ∀ c ∈ back.head?, c = '\\' := by
  induction fuel generalizing text with
  | zero => exact absurd rfl hfound
  | succ fuel ih =>
      rw [coveringFrom] at hfound ⊢
      cases hfind : index.roots.find? (qt.sameText · text) with
      | some root =>
          have hsame := List.find?_some hfind
          exact ⟨List.mem_of_find?_eq_some hfind, text, [], (List.append_nil text).symm, hsame,
            (by rintro _ ⟨⟩)⟩
      | none =>
          rw [hfind] at hfound
          dsimp only at hfound ⊢
          cases hbefore : CommitPlan.beforeLastBackslash text with
          | none =>
              rw [hbefore] at hfound
              exact absurd rfl hfound
          | some shorter =>
              rw [hbefore] at hfound
              obtain ⟨hmem, front, back, hsplit, hsame, hback⟩ := ih hfound
              obtain ⟨tail, htext, -⟩ := CommitPlan.beforeLastBackslash_eq_some hbefore
              refine ⟨hmem, front, back ++ '\\' :: tail, ?_, hsame, fun c hc => ?_⟩
              · rw [htext, hsplit, List.append_assoc]
              · cases back with
                | nil => exact (Option.some.inj hc).symm
                | cons d rest => exact hback c hc

theorem trimmed_eq (hqt : qt.ConvertsSeparators) (path : Text) :
    trimmed qt path = (Paths.native qt path).rdropWhile Paths.isSeparator :=
  (rdropWhile_eq_of_no_slash (slash_not_mem_native hqt path)).symm

/-- A path that the index covers is contained in the exclusion of the root that is found. -/
theorem exclusion_of_covering (hqt : qt.ConvertsSeparators) {exclusions : List Text}
    {path : Text} (hfound : (ofExclusions qt exclusions).covering qt path ≠ []) :
    ∃ exclusion ∈ exclusions, Paths.contains qt exclusion path = true ∧
      (ofExclusions qt exclusions).covering qt path = trimmed qt exclusion := by
  rw [covering] at hfound ⊢
  split_ifs at hfound ⊢
  · exact absurd rfl hfound
  · obtain ⟨hmem, front, back, hsplit, hsame, hback⟩ := coveringFrom_spec hfound
    obtain ⟨exclusion, hexclusion, htrimmed⟩ :=
      (exists_of_mem_roots hmem).resolve_left List.not_mem_nil
    refine ⟨exclusion, hexclusion, (Paths.contains_iff qt).2 ⟨?_, front, back, hsplit, ?_, ?_⟩,
      htrimmed.symm⟩
    · rw [← trimmed_eq hqt, htrimmed]
      exact hfound
    · rw [← trimmed_eq hqt, htrimmed]
      exact (qt.sameText_iff.1 hsame).symm
    · intro c hc
      rw [hback c hc]
      rfl

/-- An exclusion that contains the path is no longer than the root that is found. -/
theorem length_le_covering (hqt : qt.ConvertsSeparators) {exclusions : List Text}
    {exclusion path : Text} (hmem : exclusion ∈ exclusions)
    (hcontains : Paths.contains qt exclusion path = true) :
    (trimmed qt exclusion).length ≤ ((ofExclusions qt exclusions).covering qt path).length := by
  obtain ⟨hne, front, back, hpath, hfront, hback⟩ := (Paths.contains_iff qt).1 hcontains
  rw [← trimmed_eq hqt] at hne hfront
  obtain ⟨root, hroot, hsame⟩ := (@ofExclusions_holds qt exclusions).complete exclusion hmem hne
  have hsame' : qt.sameText root front = true := by
    rw [Qt.sameText_iff] at hsame ⊢
    exact hsame.trans hfront.symm
  have hlength : root.length = (trimmed qt exclusion).length := by
    simpa using congrArg List.length (qt.sameText_iff.1 hsame)
  have hroots : (ofExclusions qt exclusions).roots.isEmpty = false :=
    List.isEmpty_eq_false_iff.2 (List.ne_nil_of_mem hroot)
  rw [covering, hroots, if_neg Bool.false_ne_true, ← hlength, hpath]
  refine length_le_coveringFrom hroot hsame' (fun c hc => ?_) (Nat.lt_succ_self _)
  have hseparator := hback c hc
  rw [Paths.isSeparator, Bool.or_eq_true, beq_iff_eq, beq_iff_eq] at hseparator
  refine hseparator.resolve_right ?_
  rintro rfl
  apply slash_not_mem_native hqt path
  rw [hpath]
  exact List.mem_append_right _ (List.mem_of_mem_head? hc)

/-- The index covers what the search through the list finds covered, and answers with the
longest exclusion that does. -/
theorem covering_agrees (hqt : qt.ConvertsSeparators) (hfold : qt.FoldsLetters)
    (exclusions : List Text) (path : Text)
    (htexts : ∀ text ∈ path :: exclusions, Paths.EndsConvert qt text) :
    let index := ofExclusions qt exclusions
    (index.contains qt path = true ↔
        (Paths.findCoveringExclusion qt exclusions path).isEmpty = false) ∧
      (index.contains qt path = true →
        (∃ exclusion ∈ exclusions, Paths.contains qt exclusion path = true ∧
          index.covering qt path = trimmed qt exclusion) ∧
        ∀ exclusion ∈ exclusions, Paths.contains qt exclusion path = true →
          (trimmed qt exclusion).length ≤ (index.covering qt path).length) := by
  intro index
  have hcontains : index.contains qt path = true ↔ index.covering qt path ≠ [] := by
    rw [contains, Bool.not_eq_true', List.isEmpty_eq_false_iff]
  have hpath := htexts path List.mem_cons_self
  refine ⟨⟨fun hindex => ?_, fun hlinear => ?_⟩, fun hindex => ?_⟩
  · obtain ⟨exclusion, hmem, hcovers, -⟩ := exclusion_of_covering hqt (hcontains.1 hindex)
    exact Paths.findCoveringExclusion_of_contains hqt hmem
      ((Paths.contains_strip_strip hqt hfold (htexts _ (List.mem_cons_of_mem _ hmem)) hpath).2
        hcovers)
  · obtain ⟨exclusion, hmem, hcovers⟩ := Paths.exists_of_findCoveringExclusion qt hlinear
    exact contains_of_exclusion hqt hmem
      ((Paths.contains_strip_strip hqt hfold (htexts _ (List.mem_cons_of_mem _ hmem)) hpath).1
        hcovers)
  · exact ⟨exclusion_of_covering hqt (hcontains.1 hindex),
      fun exclusion hmem hcovers => length_le_covering hqt hmem hcovers⟩

/-- The root of a drive, a folder on it in two spellings and one with doubled separators. -/
theorem covering_agrees_nested :
    let exclusions := ["c:\\".toList, "C:\\Data".toList, "c:/data\\".toList, "C:\\Data\\\\x".toList]
    let index := ofExclusions Qt.ascii exclusions
    index.covering Qt.ascii "C:\\DATA\\x\\".toList = "C:\\Data".toList ∧
      (Paths.findCoveringExclusion Qt.ascii exclusions "C:\\DATA\\x\\".toList).isEmpty = false := by
  intro exclusions index
  have hplain : ∀ text ∈ "C:\\DATA\\x\\".toList :: exclusions, Qt.hasLongPathPrefix text = false := by
    decide
  have hagrees := covering_agrees Qt.ascii_convertsSeparators Qt.ascii_foldsLetters exclusions
    "C:\\DATA\\x\\".toList fun text htext =>
      Paths.endsConvert_of_plain Qt.ascii_convertsSeparators (hplain text htext)
  exact ⟨by decide +kernel, hagrees.1.1 (by decide +kernel)⟩

end PathExclusionIndex

end UwfManager
