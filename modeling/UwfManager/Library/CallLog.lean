import Mathlib.Data.List.Basic
import Mathlib.Tactic.Common

/-!
# Logs of calls

A loop makes one call for each item, and the answer to a call may depend on all calls so
far.  Where a call stands in a log that is put together from parts follows from the parts
that do not contain it.
-/

namespace CallLog

variable {ι κ ρ : Type*}

/-! ## Loops of calls -/

section Answered

variable (call : ι → κ) (answer : ι → List κ → ρ)

/-- The answers to one call for each item, made one after the other. -/
def answered : List ι → List κ → List (ι × ρ)
  | [], _ => []
  | item :: rest, calls => (item, answer item calls) :: answered rest (calls ++ [call item])

/-- The items whose answer is of this kind. -/
def itemsWith (kind : ρ → Bool) (answers : List (ι × ρ)) : List ι :=
  (answers.filter fun entry => kind entry.2).map Prod.fst

variable {call answer}

theorem answered_fst (items : List ι) (calls : List κ) :
    (answered call answer items calls).map Prod.fst = items := by
  induction items generalizing calls with
  | nil => rfl
  | cons item rest ih => rw [answered, List.map_cons, ih]

/-- Each answer was given at some time of the loop. -/
theorem exists_of_mem_answered {items : List ι} {calls : List κ} {item : ι} {result : ρ}
    (hmem : (item, result) ∈ answered call answer items calls) :
    ∃ earlier, calls <+: earlier ∧ earlier ++ [call item] <+: calls ++ items.map call ∧
      answer item earlier = result := by
  induction items generalizing calls with
  | nil => simp [answered] at hmem
  | cons first rest ih =>
    rw [answered] at hmem
    rcases List.mem_cons.1 hmem with hfirst | hlater
    · obtain ⟨rfl, rfl⟩ := Prod.mk.inj hfirst
      exact ⟨calls, List.prefix_rfl, by simp, rfl⟩
    · obtain ⟨earlier, hstart, hprefix, hanswer⟩ := ih hlater
      refine ⟨earlier, (List.prefix_append _ _).trans hstart, ?_, hanswer⟩
      simpa using hprefix

theorem exists_of_mem_itemsWith {kind : ρ → Bool} {items : List ι} {calls : List κ} {item : ι}
    (hmem : item ∈ itemsWith kind (answered call answer items calls)) :
    ∃ earlier, calls <+: earlier ∧ earlier ++ [call item] <+: calls ++ items.map call ∧
      kind (answer item earlier) = true := by
  obtain ⟨entry, hentry, rfl⟩ := List.mem_map.1 hmem
  obtain ⟨hentry, hkind⟩ := List.mem_filter.1 hentry
  obtain ⟨earlier, hstart, hprefix, hanswer⟩ := exists_of_mem_answered hentry
  refine ⟨earlier, hstart, hprefix, ?_⟩
  rw [hanswer]
  exact hkind

theorem itemsWith_subset {kind : ρ → Bool} {items : List ι} {calls : List κ} :
    itemsWith kind (answered call answer items calls) ⊆ items := by
  intro item hmem
  obtain ⟨entry, hentry, rfl⟩ := List.mem_map.1 hmem
  have hfst : entry.1 ∈ (answered call answer items calls).map Prod.fst :=
    List.mem_map_of_mem (List.mem_of_mem_filter hentry)
  rwa [answered_fst] at hfst

end Answered

/-! ## The place of a call -/

section Split

variable {front back before after : List κ} {call : κ}

/-- A call that the front does not contain stands in the back. -/
theorem split_back (hsplit : front ++ back = before ++ call :: after) (hfront : call ∉ front) :
    ∃ between, before = front ++ between ∧ back = between ++ call :: after := by
  rcases List.append_eq_append_iff.1 hsplit with hback | ⟨between, rfl, hrest⟩
  · exact hback
  · cases between with
    | nil => exact ⟨[], by simp, by simpa using hrest.symm⟩
    | cons first rest =>
      obtain ⟨rfl, -⟩ := List.cons.inj hrest
      simp at hfront

/-- A call that the back does not contain stands in the front. -/
theorem split_front (hsplit : front ++ back = before ++ call :: after) (hback : call ∉ back) :
    ∃ between, front = before ++ call :: between ∧ after = between ++ back := by
  rcases List.append_eq_append_iff.1 hsplit with ⟨between, -, rfl⟩ | ⟨between, rfl, hrest⟩
  · simp at hback
  · cases between with
    | nil =>
      rw [List.nil_append] at hrest
      exact absurd (hrest ▸ List.mem_cons_self) hback
    | cons first rest =>
      obtain ⟨rfl, rfl⟩ := List.cons.inj hrest
      exact ⟨rest, rfl, rfl⟩

/-- A call that is made once stands in one place. -/
theorem split_unique (hsplit : front ++ call :: back = before ++ call :: after)
    (hfront : call ∉ front) (hback : call ∉ back) : before = front ∧ after = back := by
  obtain ⟨between, rfl, hrest⟩ := split_back hsplit hfront
  cases between with
  | nil => exact ⟨by simp, (List.cons.inj hrest).2.symm⟩
  | cons first rest =>
    obtain ⟨-, rfl⟩ := List.cons.inj hrest
    simp at hback

end Split

end CallLog
