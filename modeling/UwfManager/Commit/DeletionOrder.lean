import UwfManager.Commit.CommitPreparation
import UwfManager.Library.StableOrder

/-!
# The order of a deletion

A deletion takes the targets with the most backslashes first, so that a container comes
after what is below it.  The root of a drive ends with a backslash and has as many as its
children, and these keep the order of their records.
-/

namespace UwfManager

namespace CommitPlan

variable (qt : Qt)

/-- The path continues the other one behind a separator, up to case. -/
def StrictlyBelow (path parent : Text) : Prop :=
  ∃ front rest, path = front ++ rest ∧ qt.sameText front parent = true ∧ rest ≠ [] ∧
    (parent.getLast?.any Paths.isSeparator = true ∨ rest.head?.any Paths.isSeparator = true)

/-- A container that is deleted before something below it. -/
def Precedes (earlier later : CommitNode) : Prop :=
  earlier.kind.container = true ∧ StrictlyBelow qt later.path earlier.path

/-- Every container is deleted after all targets below it. -/
def ChildrenFirst (plan : CommitPlan) : Prop :=
  (plan.targets qt).Pairwise fun earlier later => ¬Precedes qt earlier later

/-- The nodes that a deletion takes, in the order of their records. -/
def taken (plan : CommitPlan) : List CommitNode :=
  ((plan.records.filter fun record => record.status = .succeeded).map (·.node)).filter
    (plan.deletes qt)

/-- No container is recorded before something below it that has no more backslashes. -/
def RootsLast (plan : CommitPlan) : Prop :=
  (plan.taken qt).Pairwise fun earlier later =>
    later.path.count '\\' ≤ earlier.path.count '\\' → ¬Precedes qt earlier later

variable {qt}

theorem count_map_foldCase (hqt : qt.FoldsLetters) (text : Text) :
    (text.map qt.foldCase).count '\\' = text.count '\\' := by
  rw [List.count_eq_countP, List.count_eq_countP, List.countP_map]
  apply List.countP_congr
  intro c _
  rw [Function.comp_apply, beq_iff_eq, beq_iff_eq]
  exact hqt.backslash c

/-- What is below a path has no fewer backslashes. -/
theorem count_le_of_strictlyBelow (hqt : qt.FoldsLetters) {path parent : Text}
    (hbelow : StrictlyBelow qt path parent) : parent.count '\\' ≤ path.count '\\' := by
  obtain ⟨front, rest, hpath, hfront, -, -⟩ := hbelow
  calc
    parent.count '\\' = (parent.map qt.foldCase).count '\\' := (count_map_foldCase hqt parent).symm
    _ = (front.map qt.foldCase).count '\\' := by rw [qt.sameText_iff.1 hfront]
    _ = front.count '\\' := count_map_foldCase hqt front
    _ ≤ path.count '\\' := by
      rw [hpath, List.count_append]
      exact Nat.le_add_right _ _

/-- With a backslash behind the parent there is one more. -/
theorem count_lt_of_backslash (hqt : qt.FoldsLetters) {front parent : Text}
    (hfront : qt.sameText front parent = true) (rest : Text) :
    parent.count '\\' < (front ++ '\\' :: rest).count '\\' := by
  have hcount := congrArg (List.count '\\') (qt.sameText_iff.1 hfront)
  rw [count_map_foldCase hqt, count_map_foldCase hqt] at hcount
  rw [List.count_append, List.count_cons_self, hcount]
  omega

/-- A plan deletes children first if and only if it has recorded no container before
something below it that has no more backslashes. -/
theorem targets_children_first_iff (hqt : qt.FoldsLetters) {plan : CommitPlan}
    (hcanceled : plan.canceled = false)
    (hoperation : plan.request.operation = .deleteAndPersist) :
    plan.ChildrenFirst qt ↔ plan.RootsLast qt := by
  have : Std.Total fun first second : CommitNode =>
      second.path.count '\\' ≤ first.path.count '\\' := ⟨fun _ _ => Nat.le_total _ _⟩
  have : IsTrans CommitNode fun first second => second.path.count '\\' ≤ first.path.count '\\' :=
    ⟨fun _ _ _ hfirst hsecond => Nat.le_trans hsecond hfirst⟩
  rw [ChildrenFirst, targets, hcanceled, hoperation]
  exact StableOrder.pairwise_insertionSort_iff
    (fun earlier later hprecedes => count_le_of_strictlyBelow hqt hprecedes.2) _

/-- A plan without roots of drives, whose paths have no slashes, deletes children first. -/
theorem rootsLast_of_trimmed (hqt : qt.FoldsLetters) {plan : CommitPlan}
    (hslash : ∀ node ∈ plan.taken qt, '/' ∉ node.path)
    (htrimmed : ∀ node ∈ plan.taken qt, node.kind.container = true →
      node.path.getLast? ≠ some '\\') : plan.RootsLast qt := by
  apply List.pairwise_of_forall_mem_list
  rintro earlier hearlier later hlater hcount ⟨hcontainer, front, rest, hpath, hfront, -, hends⟩
  rcases hends with hends | hends
  · rw [Option.any_eq_true] at hends
    obtain ⟨c, hc, hseparator⟩ := hends
    rw [Paths.isSeparator, Bool.or_eq_true, beq_iff_eq, beq_iff_eq] at hseparator
    rcases hseparator with rfl | rfl
    · exact htrimmed earlier hearlier hcontainer hc
    · exact hslash earlier hearlier (List.mem_of_getLast? hc)
  · rw [Option.any_eq_true] at hends
    obtain ⟨c, hc, hseparator⟩ := hends
    obtain ⟨tail, rfl⟩ := List.head?_eq_some_iff.1 hc
    rw [Paths.isSeparator, Bool.or_eq_true, beq_iff_eq, beq_iff_eq] at hseparator
    rcases hseparator with rfl | rfl
    · have hlt := count_lt_of_backslash hqt hfront tail
      rw [← hpath] at hlt
      exact absurd hcount (Nat.not_le.2 hlt)
    · apply hslash later hlater
      rw [hpath]
      exact List.mem_append_right _ List.mem_cons_self

end CommitPlan

/-! ## The root of a drive -/

namespace DriveRootDeletion

def root : CommitNode := { kind := .folder, path := "D:\\".toList }

def folder : CommitNode := { kind := .folder, path := "D:\\T".toList }

/-- A drive that holds one empty folder. -/
def source : TraversalSource Unit where
  inspect node state := (.ok (some { node with kind := .folder }), state)
  read node state := (⟨if node = root then [folder] else [], .ok []⟩, state)
  stopRequested _ := false
  stop_inspect _ _ hstop := hstop
  stop_read _ _ hstop := hstop

/-- The plan that is prepared for the target. -/
def prepared (target : CommitNode) : CommitPlan :=
  let request : CommitRequest := { operation := .deleteAndPersist, target := target }
  ((prepareCommit Qt.ascii source 2 request { request := request } ()).map (·.plan)).getD
    { request := request }

theorem targets_children_first_folder :
    (prepared folder).ChildrenFirst Qt.ascii ↔ (prepared folder).RootsLast Qt.ascii :=
  CommitPlan.targets_children_first_iff Qt.ascii_foldsLetters (by decide +kernel)
    (by decide +kernel)

/-- The root of the drive is deleted before the folder in it. -/
theorem root_before_folder :
    (prepared root).targets Qt.ascii = [root, folder] ∧
      ¬(prepared root).ChildrenFirst Qt.ascii := by
  have htargets : (prepared root).targets Qt.ascii = [root, folder] := by decide +kernel
  refine ⟨htargets, fun hfirst => ?_⟩
  rw [CommitPlan.ChildrenFirst, htargets, List.pairwise_pair] at hfirst
  exact hfirst ⟨rfl, root.path, "T".toList, rfl, Qt.ascii.sameText_self _, by decide,
    Or.inl (by decide)⟩

end DriveRootDeletion

end UwfManager
