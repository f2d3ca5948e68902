import UwfManager.Commit.CommitPlan

/-!
# An index of excluded paths

The index looks a path and then each of its ancestors up in a set of excluded
paths, so that the cost depends on the depth of the path only.  It finds what a
comparison with every exclusion finds.
-/

namespace UwfManager

/-- The excluded paths, without trailing separators and each once up to case. -/
structure PathExclusionIndex where
  roots : List Text := []

namespace PathExclusionIndex

variable (qt : Qt)

def trimmed (path : Text) : Text := (Paths.native qt path).rdropWhile (· == '\\')

def add (index : PathExclusionIndex) (path : Text) : PathExclusionIndex :=
  if (trimmed qt path).isEmpty || index.roots.any (qt.sameText · (trimmed qt path)) then index
  else ⟨index.roots ++ [trimmed qt path]⟩

def ofExclusions (exclusions : List Text) : PathExclusionIndex := exclusions.foldl (add qt) {}

/-- The root that is the text or one of its ancestors.  Each round shortens the text. -/
def coveringFrom (index : PathExclusionIndex) : ℕ → Text → Text
  | 0, _ => []
  | fuel + 1, ancestor =>
      match index.roots.find? (qt.sameText · ancestor) with
      | some root => root
      | none =>
          match CommitPlan.beforeLastBackslash ancestor with
          | none => []
          | some front => coveringFrom index fuel front

def covering (index : PathExclusionIndex) (path : Text) : Text :=
  if index.roots.isEmpty then []
  else coveringFrom qt index ((Paths.native qt path).length + 1) (Paths.native qt path)

def contains (index : PathExclusionIndex) (path : Text) : Bool := !(index.covering qt path).isEmpty

/-! ## What the index holds -/

variable {qt}

/-- An exclusion has a root in the index, and no root is empty. -/
structure Holds (qt : Qt) (index : PathExclusionIndex) (exclusions : List Text) : Prop where
  nonempty : ∀ root ∈ index.roots, root ≠ []
  complete : ∀ exclusion ∈ exclusions, trimmed qt exclusion ≠ [] →
    ∃ root ∈ index.roots, qt.sameText root (trimmed qt exclusion) = true

theorem add_holds {index : PathExclusionIndex} {exclusions : List Text}
    (hholds : Holds qt index exclusions) (path : Text) :
    Holds qt (index.add qt path) (exclusions ++ [path]) := by
  rw [add]
  by_cases hknown : ((trimmed qt path).isEmpty ||
      index.roots.any (qt.sameText · (trimmed qt path))) = true
  · rw [if_pos hknown]
    refine ⟨hholds.nonempty, fun exclusion hmem hne => ?_⟩
    rcases List.mem_append.1 hmem with hold | hnew
    · exact hholds.complete exclusion hold hne
    · rw [List.mem_singleton.1 hnew] at hne ⊢
      rw [Bool.or_eq_true, List.isEmpty_iff, List.any_eq_true] at hknown
      exact hknown.resolve_left hne
  · rw [if_neg hknown]
    rw [Bool.or_eq_true, List.isEmpty_iff, not_or] at hknown
    refine ⟨fun root hroot => ?_, fun exclusion hmem hne => ?_⟩
    · rcases List.mem_append.1 hroot with hold | hnew
      · exact hholds.nonempty root hold
      · rw [List.mem_singleton.1 hnew]
        exact hknown.1
    · rcases List.mem_append.1 hmem with hold | hnew
      · obtain ⟨root, hroot, hsame⟩ := hholds.complete exclusion hold hne
        exact ⟨root, List.mem_append_left _ hroot, hsame⟩
      · rw [List.mem_singleton.1 hnew]
        exact ⟨trimmed qt path, List.mem_append_right _ List.mem_cons_self, qt.sameText_self _⟩

theorem foldl_add_holds {index : PathExclusionIndex} {before : List Text}
    (hholds : Holds qt index before) (exclusions : List Text) :
    Holds qt (exclusions.foldl (add qt) index) (before ++ exclusions) := by
  induction exclusions generalizing index before with
  | nil =>
      rw [List.append_nil]
      exact hholds
  | cons exclusion rest ih =>
      have hrest := ih (add_holds hholds exclusion)
      rw [List.append_assoc] at hrest
      exact hrest

theorem ofExclusions_holds (exclusions : List Text) :
    Holds qt (ofExclusions qt exclusions) exclusions :=
  foldl_add_holds ⟨fun _ hroot => absurd hroot List.not_mem_nil,
    fun _ hmem => absurd hmem List.not_mem_nil⟩ exclusions

/-! ## What the index covers -/

/-- A root that is the text or one of its ancestors is found, or a longer one is. -/
theorem length_le_coveringFrom {index : PathExclusionIndex} {root : Text} (hroot : root ∈ index.roots)
    {fuel : ℕ} {front back : Text} (hsame : qt.sameText root front = true)
    (hback : ∀ c ∈ back.head?, c = '\\') (hfuel : (front ++ back).length < fuel) :
    root.length ≤ (index.coveringFrom qt fuel (front ++ back)).length := by
  induction fuel generalizing back with
  | zero => exact absurd hfuel (Nat.not_lt_zero _)
  | succ fuel ih =>
      rw [coveringFrom]
      cases hfind : index.roots.find? (qt.sameText · (front ++ back)) with
      | some found =>
          have hfound := List.find?_some hfind
          have hlong := congrArg List.length (qt.sameText_iff.1 hfound)
          have hshort := congrArg List.length (qt.sameText_iff.1 hsame)
          rw [List.length_map, List.length_map] at hlong hshort
          rw [List.length_append] at hlong
          dsimp only
          omega
      | none =>
          cases back with
          | nil =>
              rw [List.append_nil] at hfind
              exact absurd hsame (List.find?_eq_none.1 hfind root hroot)
          | cons c tail =>
              rw [hback c rfl] at hfuel ⊢
              cases hbefore : CommitPlan.beforeLastBackslash (front ++ '\\' :: tail) with
              | none =>
                  have hfree := CommitPlan.beforeLastBackslash_eq_none hbefore
                  exact absurd (List.mem_append_right _ List.mem_cons_self) hfree
              | some shorter =>
                  obtain ⟨last, hsplit, hfree⟩ := CommitPlan.beforeLastBackslash_eq_some hbefore
                  have hlength := congrArg List.length hsplit
                  rw [List.length_append, List.length_append, List.length_cons,
                    List.length_cons] at hlength
                  rw [List.length_append, List.length_cons] at hfuel
                  -- the cut is not in front of the root, for no separator follows it
                  rcases List.append_eq_append_iff.1 hsplit with
                    ⟨inner, hinner, hrest⟩ | ⟨inner, hinner, hrest⟩
                  · dsimp only
                    rw [hinner]
                    rw [hinner, List.length_append] at hlength
                    apply ih
                    · intro d hd
                      cases inner with
                      | nil => cases hd
                      | cons e inner =>
                          rw [List.cons_append, List.cons.injEq] at hrest
                          exact (Option.some.inj hd).symm.trans hrest.1.symm
                    · rw [List.length_append]
                      omega
                  · cases inner with
                    | nil =>
                        rw [List.append_nil] at hinner
                        dsimp only
                        rw [← hinner, ← List.append_nil front]
                        exact ih nofun (by rw [List.length_append, List.length_nil]; omega)
                    | cons e inner =>
                        rw [List.cons_append, List.cons.injEq] at hrest
                        exact absurd (by rw [hrest.2]; simp) hfree

theorem slash_not_mem_native (hqt : qt.ConvertsSeparators) (path : Text) :
    '/' ∉ Paths.native qt path := by
  rw [Paths.native, hqt.toNative]
  intro hslash
  obtain ⟨c, -, hc⟩ := List.mem_map.1 hslash
  split_ifs at hc with hequal
  · cases hc
  · exact hequal hc

/-- A text without slashes has no other separators than backslashes. -/
theorem rdropWhile_eq_of_no_slash {text : Text} (hslash : '/' ∉ text) :
    text.rdropWhile Paths.isSeparator = text.rdropWhile (· == '\\') := by
  induction text using List.reverseRecOn with
  | nil => rfl
  | append_singleton text c ih =>
      rw [List.mem_append, not_or, List.mem_singleton] at hslash
      have hsame : Paths.isSeparator c = (c == '\\') := by
        rw [Paths.isSeparator, beq_eq_false_iff_ne.2 (Ne.symm hslash.2), Bool.or_false]
      by_cases hc : c = '\\'
      · have hdropped : (text ++ [c]).rdropWhile (· == '\\') = text.rdropWhile (· == '\\') :=
          List.rdropWhile_concat_pos _ _ _ (beq_iff_eq.2 hc)
        rw [List.rdropWhile_concat_pos _ _ _ (hsame.trans (beq_iff_eq.2 hc)), hdropped,
          ih hslash.1]
      · have hkept : (text ++ [c]).rdropWhile (· == '\\') = text ++ [c] :=
          List.rdropWhile_concat_neg _ _ _ (by simpa using hc)
        rw [List.rdropWhile_concat_neg _ _ _ (by rw [hsame]; simpa using hc), hkept]

/-- The index contains each path that one of its exclusions contains. -/
theorem contains_of_exclusion (hqt : qt.ConvertsSeparators) {exclusions : List Text}
    {exclusion path : Text} (hmem : exclusion ∈ exclusions)
    (hcontains : Paths.contains qt exclusion path = true) :
    (ofExclusions qt exclusions).contains qt path = true := by
  have hholds := @ofExclusions_holds qt exclusions
  obtain ⟨hne, front, back, hpath, hfront, hback⟩ := (Paths.contains_iff qt).1 hcontains
  rw [rdropWhile_eq_of_no_slash (slash_not_mem_native hqt exclusion)] at hne hfront
  obtain ⟨root, hroot, hsame⟩ := hholds.complete exclusion hmem hne
  have hsame' : qt.sameText root front = true := by
    rw [Qt.sameText_iff] at hsame ⊢
    exact hsame.trans hfront.symm
  have hback' : ∀ c ∈ back.head?, c = '\\' := by
    intro c hc
    have hseparator := hback c hc
    rw [Paths.isSeparator, Bool.or_eq_true, beq_iff_eq, beq_iff_eq] at hseparator
    refine hseparator.resolve_right ?_
    rintro rfl
    apply slash_not_mem_native hqt path
    rw [hpath]
    exact List.mem_append_right _ (List.mem_of_mem_head? hc)
  have hlength := length_le_coveringFrom hroot hsame' hback'
    (Nat.lt_succ_self (front ++ back).length)
  have hfound : (ofExclusions qt exclusions).coveringFrom qt ((front ++ back).length + 1)
      (front ++ back) ≠ [] := by
    intro hnil
    rw [hnil] at hlength
    exact hholds.nonempty root hroot (List.length_eq_zero_iff.1 (Nat.le_zero.1 hlength))
  have hroots : (ofExclusions qt exclusions).roots.isEmpty = false :=
    List.isEmpty_eq_false_iff.2 (List.ne_nil_of_mem hroot)
  rw [contains, covering, hroots, if_neg Bool.false_ne_true, hpath, Bool.not_eq_true',
    List.isEmpty_eq_false_iff]
  exact hfound

end PathExclusionIndex

end UwfManager
