import Mathlib.Data.List.Forall2
import Mathlib.Tactic.Common

/-!
# Lists mapped by a function that may fail

The map returns a list when the function returns for each item, and the results
stand in the order of the items.
-/

namespace ExceptTraverse

variable {A B E : Type*} {f : A → Except E B}

theorem mapM_cons_eq_ok {first : A} {rest : List A} {results : List B} :
    (first :: rest).mapM f = .ok results ↔
      ∃ head tail, f first = .ok head ∧ rest.mapM f = .ok tail ∧ results = head :: tail := by
  rw [List.mapM_cons]
  constructor
  · intro hresults
    cases hhead : f first with
    | error failure =>
        rw [hhead] at hresults
        cases hresults
    | ok head =>
        cases htail : rest.mapM f with
        | error failure =>
            rw [hhead, htail] at hresults
            cases hresults
        | ok tail =>
            rw [hhead, htail] at hresults
            exact ⟨head, tail, rfl, rfl, (Except.ok.inj hresults).symm⟩
  · rintro ⟨head, tail, hhead, htail, rfl⟩
    rw [hhead, htail]
    rfl

theorem mapM_eq_ok_iff {items : List A} {results : List B} :
    items.mapM f = .ok results ↔
      List.Forall₂ (fun item result => f item = .ok result) items results := by
  induction items generalizing results with
  | nil =>
      rw [List.mapM_nil, List.forall₂_nil_left_iff]
      exact ⟨fun hnil => (Except.ok.inj hnil).symm, fun hnil => by rw [hnil]; rfl⟩
  | cons first rest ih =>
      rw [mapM_cons_eq_ok, List.forall₂_cons_left_iff]
      simp only [ih]

/-- A function that inverts another one on the items maps the results back. -/
theorem mapM_inverse {g : B → Except E A} {items : List A} {results : List B}
    (hresults : items.mapM f = .ok results)
    (hinverse : ∀ item ∈ items, ∀ result ∈ results, f item = .ok result → g result = .ok item) :
    results.mapM g = .ok items := by
  rw [mapM_eq_ok_iff] at hresults ⊢
  induction hresults with
  | nil => exact List.Forall₂.nil
  | cons hhead htail ih =>
      refine List.Forall₂.cons (hinverse _ List.mem_cons_self _ List.mem_cons_self hhead) (ih ?_)
      intro item hitem result hresult
      exact hinverse item (List.mem_cons_of_mem _ hitem) result (List.mem_cons_of_mem _ hresult)

/-- Each result comes from an item. -/
theorem exists_item_of_mem {items : List A} {results : List B} {result : B}
    (hresults : items.mapM f = .ok results) (hmem : result ∈ results) :
    ∃ item ∈ items, f item = .ok result := by
  rw [mapM_eq_ok_iff] at hresults
  induction hresults with
  | nil => cases hmem
  | cons hhead htail ih =>
      rcases List.mem_cons.1 hmem with rfl | hrest
      · exact ⟨_, List.mem_cons_self, hhead⟩
      · obtain ⟨item, hitem, hresult⟩ := ih hrest
        exact ⟨item, List.mem_cons_of_mem _ hitem, hresult⟩

/-- Each item has a result. -/
theorem exists_result_of_mem {items : List A} {results : List B} {item : A}
    (hresults : items.mapM f = .ok results) (hmem : item ∈ items) :
    ∃ result ∈ results, f item = .ok result := by
  rw [mapM_eq_ok_iff] at hresults
  induction hresults with
  | nil => cases hmem
  | cons hhead htail ih =>
      rcases List.mem_cons.1 hmem with rfl | hrest
      · exact ⟨_, List.mem_cons_self, hhead⟩
      · obtain ⟨result, hmem, hresult⟩ := ih hrest
        exact ⟨result, List.mem_cons_of_mem _ hmem, hresult⟩

end ExceptTraverse
