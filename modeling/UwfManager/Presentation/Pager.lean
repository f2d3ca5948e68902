import Mathlib.Algebra.Order.Ring.Int
import Mathlib.Tactic.Linarith

/-!
# Pages of a list

The pages of a list that is shown a page at a time.  An `int` is an integer, and each
operation on it has no result when the C++ operation would overflow.
-/

namespace UwfManager

/-- `std::numeric_limits<int>::max()` -/
def kMaximumInt : ℤ := 2147483647

/-- `std::numeric_limits<std::int64_t>::max()` -/
def kMaximumInt64 : ℤ := 9223372036854775807

def IsInt (value : ℤ) : Prop := -kMaximumInt - 1 ≤ value ∧ value ≤ kMaximumInt

instance (value : ℤ) : Decidable (IsInt value) := by
  unfold IsInt
  infer_instance

/-- A value of the type `int`. -/
abbrev CInt := { value : ℤ // IsInt value }

/-- The result of an operation on `int`. -/
def toInt (value : ℤ) : Option ℤ := if IsInt value then some value else none

/-- The result of an operation on `std::int64_t`. -/
def toInt64 (value : ℤ) : Option ℤ :=
  if -kMaximumInt64 - 1 ≤ value ∧ value ≤ kMaximumInt64 then some value else none

theorem toInt_eq {value : ℤ} (hint : IsInt value) : toInt value = some value := if_pos hint

structure Pager where
  pageSize : ℤ := 1
  currentPage : ℤ := 0
  deriving DecidableEq, Repr

namespace Pager

/-- The number of pages; no pages without entries. -/
def pageCount (pager : Pager) (total : ℤ) : Option ℤ :=
  if total ≤ 0 then some 0
  else do
    let last ← toInt (total - 1)
    let full ← toInt (last.tdiv (max 1 pager.pageSize))
    toInt (1 + full)

def clamp (pager : Pager) (total : ℤ) : Option Pager := do
  let pages ← pager.pageCount total
  let last ← (if pages > 0 then toInt (pages - 1) else some 0 : Option ℤ)
  some { pager with currentPage :=
    if pager.currentPage < 0 then 0
    else if last < pager.currentPage then last
    else pager.currentPage }

def pageStart (pager : Pager) : Option ℤ := do
  let start ← toInt64 (max 0 pager.currentPage * max 1 pager.pageSize)
  toInt (min start kMaximumInt)

def pageEnd (pager : Pager) (total : ℤ) : Option ℤ :=
  if total ≤ 0 then some 0
  else do
    let start := min (← pager.pageStart) total
    let left ← toInt (total - start)
    toInt (start + min (max 1 pager.pageSize) left)

def setPageSize (pager : Pager) (newSize : ℤ) : Option (Pager × Bool) :=
  let newSize := max 1 newSize
  if newSize = pager.pageSize then some (pager, false)
  else do
    let firstIdx ← pager.pageStart
    let page ← toInt (firstIdx.tdiv newSize)
    some (⟨newSize, page⟩, true)

def goFirst (pager : Pager) : Pager := { pager with currentPage := 0 }

def goPrev (pager : Pager) : Option Pager :=
  if pager.currentPage > 0 then do
    let page ← toInt (pager.currentPage - 1)
    some { pager with currentPage := page }
  else some pager

def goNext (pager : Pager) (total : ℤ) : Option Pager := do
  let pages ← pager.pageCount total
  let last ← toInt (pages - 1)
  if pager.currentPage ≥ 0 ∧ pager.currentPage < last then do
    let page ← toInt (pager.currentPage + 1)
    some { pager with currentPage := page }
  else some pager

def goLast (pager : Pager) (total : ℤ) : Option Pager := do
  let pages ← pager.pageCount total
  let last ← (if pages > 0 then toInt (pages - 1) else some 0 : Option ℤ)
  some { pager with currentPage := last }

/-! ## Changes -/

/-- The changes of a pager and of the number of entries. -/
inductive Change where
  | setPageSize (size : CInt)
  | setPage (page : CInt)
  | setTotal (total : CInt)
  | goFirst
  | goPrev
  | goNext
  | goLast
  | clamp

/-- A pager with the number of its entries. -/
structure View where
  pager : Pager := {}
  total : ℤ := 0

def change (view : View) : Change → Option View
  | .setPageSize size => (view.pager.setPageSize size).map fun (pager, _) => { view with pager }
  | .setPage page => some { view with pager := { view.pager with currentPage := page } }
  | .setTotal total => some { view with total := total }
  | .goFirst => some { view with pager := view.pager.goFirst }
  | .goPrev => view.pager.goPrev.map fun pager => { view with pager }
  | .goNext => (view.pager.goNext view.total).map fun pager => { view with pager }
  | .goLast => (view.pager.goLast view.total).map fun pager => { view with pager }
  | .clamp => (view.pager.clamp view.total).map fun pager => { view with pager }

/-- A view after changes; none when a computation overflows. -/
def run (view : View) (changes : List Change) : Option View := changes.foldlM change view

/-! ## Values -/

/-- The values of a pager are of the type `int`, and a page has room for an entry. -/
structure Proper (pager : Pager) : Prop where
  room : 1 ≤ pager.pageSize
  size : IsInt pager.pageSize
  page : IsInt pager.currentPage

variable {pager : Pager} {total : ℤ}

/-- The number of pages that the entries need. -/
def pages (pager : Pager) (total : ℤ) : ℤ := if total ≤ 0 then 0 else 1 + (total - 1) / pager.pageSize

theorem pages_nonneg (hproper : pager.Proper) (total : ℤ) : 0 ≤ pager.pages total := by
  rw [pages]
  split_ifs with htotal
  · exact le_refl 0
  · have hquotient := Int.ediv_nonneg (show 0 ≤ total - 1 by omega)
      (show 0 ≤ pager.pageSize by have := hproper.room; omega)
    omega

theorem pages_le (pager : Pager) (total : ℤ) : pager.pages total ≤ max 0 total := by
  rw [pages]
  split_ifs with htotal
  · exact le_max_left _ _
  · have hquotient := Int.ediv_le_self (b := pager.pageSize) (show 0 ≤ total - 1 by omega)
    have hbound := le_max_right 0 total
    omega

theorem pageCount_eq (hproper : pager.Proper) (htotal : IsInt total) :
    pager.pageCount total = some (pager.pages total) := by
  have hroom := hproper.room
  rw [pageCount, pages]
  split_ifs with hempty
  · rfl
  · have hmax : max 1 pager.pageSize = pager.pageSize := max_eq_right hroom
    have hquotient := Int.ediv_nonneg (show 0 ≤ total - 1 by omega)
      (show 0 ≤ pager.pageSize by omega)
    have hless := Int.ediv_le_self (b := pager.pageSize) (show 0 ≤ total - 1 by omega)
    simp only [IsInt, kMaximumInt] at htotal
    have hlast : IsInt (total - 1) := by simp only [IsInt, kMaximumInt]; omega
    have hfull : IsInt ((total - 1) / pager.pageSize) := by simp only [IsInt, kMaximumInt]; omega
    have hcount : IsInt (1 + (total - 1) / pager.pageSize) := by
      simp only [IsInt, kMaximumInt]; omega
    rw [hmax]
    simp only [toInt_eq hlast, Option.bind_eq_bind, Option.bind_some,
      Int.tdiv_eq_ediv_of_nonneg (show 0 ≤ total - 1 by omega), toInt_eq hfull, toInt_eq hcount]

theorem isInt_pages (hproper : pager.Proper) (htotal : IsInt total) :
    IsInt (pager.pages total) := by
  have hnonneg := pages_nonneg hproper total
  have hle := pages_le pager total
  simp only [IsInt, kMaximumInt] at htotal ⊢
  omega

/-- The last page, or the first one when there are no pages. -/
def lastPage (pager : Pager) (total : ℤ) : ℤ := max 0 (pager.pages total - 1)

theorem isInt_lastPage (hproper : pager.Proper) (htotal : IsInt total) :
    IsInt (pager.lastPage total) := by
  have hpages := isInt_pages hproper htotal
  have hnonneg := pages_nonneg hproper total
  simp only [IsInt, kMaximumInt, lastPage] at hpages ⊢
  omega

theorem toInt_lastPage (hproper : pager.Proper) (htotal : IsInt total) :
    (if pager.pages total > 0 then toInt (pager.pages total - 1) else some 0) =
      some (pager.lastPage total) := by
  have hlast := isInt_lastPage hproper htotal
  rw [lastPage] at hlast ⊢
  split_ifs with hsome
  · rw [max_eq_right (by omega)] at hlast ⊢
    exact toInt_eq hlast
  · rw [max_eq_left (by omega)]

/-- The current page is one of the pages, or the first one when there are none. -/
def Valid (pager : Pager) (total : ℤ) : Prop :=
  0 ≤ pager.currentPage ∧ pager.currentPage ≤ pager.lastPage total

theorem clamp_spec (hproper : pager.Proper) (htotal : IsInt total) :
    ∃ clamped, pager.clamp total = some clamped ∧ clamped.pageSize = pager.pageSize ∧
      clamped.Valid total ∧ clamped.Proper ∧
        (pager.Valid total → clamped.currentPage = pager.currentPage) := by
  have hlast := isInt_lastPage hproper htotal
  have hnonneg : 0 ≤ pager.lastPage total := le_max_left _ _
  have hpage := hproper.page
  rw [clamp, pageCount_eq hproper htotal]
  simp only [Option.bind_eq_bind, Option.bind_some, toInt_lastPage hproper htotal]
  refine ⟨_, rfl, rfl, ?_, ⟨hproper.room, hproper.size, ?_⟩, ?_⟩
  · rw [Valid]
    dsimp only
    change _ ∧ _ ≤ pager.lastPage total
    split_ifs <;> omega
  · change IsInt (if pager.currentPage < 0 then 0 else _)
    split_ifs
    · decide
    · exact hlast
    · exact hpage
  · rintro ⟨hlow, hhigh⟩
    change (if pager.currentPage < 0 then 0 else _) = pager.currentPage
    rw [if_neg (by omega), if_neg (by omega)]

/-! ## Pages -/

theorem pageStart_eq (hproper : pager.Proper) :
    pager.pageStart = some (min (max 0 pager.currentPage * pager.pageSize) kMaximumInt) := by
  obtain ⟨hroom, hsize, hpage⟩ := hproper
  have hmax : max 1 pager.pageSize = pager.pageSize := max_eq_right hroom
  simp only [IsInt, kMaximumInt] at hsize hpage
  have hlow : 0 ≤ max 0 pager.currentPage * pager.pageSize :=
    mul_nonneg (le_max_left _ _) (by omega)
  have hhigh : max 0 pager.currentPage * pager.pageSize ≤ 2147483647 * 2147483647 :=
    mul_le_mul (by omega) hsize.2 (by omega) (by norm_num)
  have hproduct : toInt64 (max 0 pager.currentPage * pager.pageSize) =
      some (max 0 pager.currentPage * pager.pageSize) := by
    rw [toInt64, if_pos]
    simp only [kMaximumInt64]
    constructor
    · linarith
    · linarith
  rw [pageStart, hmax, hproduct]
  apply toInt_eq
  simp only [IsInt, kMaximumInt]
  omega

/-- The first entry of a page is one of the entries. -/
theorem pageStart_lt (hproper : pager.Proper) {page : ℤ} (hlow : 0 ≤ page)
    (hpage : page < pager.pages total) : 0 < total ∧ page * pager.pageSize < total := by
  have hroom := hproper.room
  rw [pages] at hpage
  split_ifs at hpage with hempty
  · omega
  · refine ⟨by omega, ?_⟩
    have hquotient : page * pager.pageSize ≤ (total - 1) / pager.pageSize * pager.pageSize :=
      mul_le_mul_of_nonneg_right (by omega) (by omega)
    have hwhole := Int.ediv_mul_le (total - 1) (show pager.pageSize ≠ 0 by omega)
    omega

/-- The entries that a page shows. -/
def pageRange (pager : Pager) (total page : ℤ) : Option (ℤ × ℤ) := do
  let shown := { pager with currentPage := page }
  let start ← shown.pageStart
  let stop ← shown.pageEnd total
  some (start, stop)

theorem pageRange_eq (hproper : pager.Proper) (htotal : IsInt total) {page : ℤ} (hlow : 0 ≤ page)
    (hpage : page < pager.pages total) :
    pager.pageRange total page =
      some (page * pager.pageSize, min total ((page + 1) * pager.pageSize)) := by
  obtain ⟨hsome, hstart⟩ := pageStart_lt hproper hlow hpage
  have hroom := hproper.room
  have hcount := isInt_pages hproper htotal
  have hnonneg : 0 ≤ page * pager.pageSize := mul_nonneg hlow (by omega)
  have hmax : max 1 pager.pageSize = pager.pageSize := max_eq_right hroom
  have hsucc : (page + 1) * pager.pageSize = page * pager.pageSize + pager.pageSize := by
    rw [add_mul, one_mul]
  simp only [IsInt, kMaximumInt] at hcount htotal
  have hshown : ({ pager with currentPage := page } : Pager).Proper :=
    ⟨hproper.room, hproper.size, by simp only [IsInt, kMaximumInt]; omega⟩
  have hbegin : ({ pager with currentPage := page } : Pager).pageStart =
      some (page * pager.pageSize) := by
    rw [pageStart_eq hshown]
    simp only [kMaximumInt, max_eq_right hlow, Option.some_inj]
    omega
  have hend : ({ pager with currentPage := page } : Pager).pageEnd total =
      some (min total ((page + 1) * pager.pageSize)) := by
    rw [pageEnd, if_neg (by omega), hbegin]
    simp only [Option.bind_eq_bind, Option.bind_some, hmax, min_eq_left (le_of_lt hstart)]
    rw [toInt_eq (by simp only [IsInt, kMaximumInt]; omega), Option.bind_some,
      toInt_eq (by simp only [IsInt, kMaximumInt]; omega), Option.some_inj, hsucc]
    omega
  rw [pageRange, hbegin, hend]
  rfl

/-- Each entry is on the page that its number divided by the page size gives. -/
theorem mem_pageRange_iff (hproper : pager.Proper) {page entry : ℤ} (hbound : entry < total) :
    (page * pager.pageSize ≤ entry ∧ entry < min total ((page + 1) * pager.pageSize)) ↔
      page = entry / pager.pageSize := by
  have hroom := hproper.room
  have hpos : 0 < pager.pageSize := by omega
  rw [lt_min_iff]
  constructor
  · rintro ⟨hlow, -, hhigh⟩
    apply le_antisymm
    · exact (Int.le_ediv_iff_mul_le hpos).2 hlow
    · exact Int.lt_add_one_iff.1 ((Int.ediv_lt_iff_lt_mul hpos).2 hhigh)
  · rintro rfl
    refine ⟨Int.ediv_mul_le _ (by omega), hbound, ?_⟩
    exact Int.lt_ediv_add_one_mul_self _ hpos

theorem ediv_lt_pages (hproper : pager.Proper) {entry : ℤ} (hentry : 0 ≤ entry)
    (hbound : entry < total) : 0 ≤ entry / pager.pageSize ∧
      entry / pager.pageSize < pager.pages total := by
  have hroom := hproper.room
  refine ⟨Int.ediv_nonneg hentry (by omega), ?_⟩
  rw [pages, if_neg (by omega)]
  have hmono := Int.ediv_le_ediv (show 0 < pager.pageSize by omega) (show entry ≤ total - 1 by omega)
  omega

/-! ## Runs -/

/-- What holds after every change, with a clamp or without. -/
structure View.Proper (view : View) : Prop where
  pager : view.pager.Proper
  total : IsInt view.total

theorem setPageSize_spec (hproper : pager.Proper) (size : CInt) :
    ∃ resized changed, pager.setPageSize size = some (resized, changed) ∧ resized.Proper ∧
      resized.pageSize = max 1 size.1 ∧
        (resized = pager ∨ ∃ first, pager.pageStart = some first ∧
          resized.currentPage = first / max 1 size.1) := by
  obtain ⟨size, hsize⟩ := size
  have hfits : IsInt (max 1 size) := by
    simp only [IsInt, kMaximumInt] at hsize ⊢
    omega
  rw [setPageSize]
  simp only
  split_ifs with hsame
  · exact ⟨pager, false, rfl, hproper, hsame.symm, Or.inl rfl⟩
  · have hstart := pageStart_eq hproper
    have hnonneg : 0 ≤ max 0 pager.currentPage * pager.pageSize :=
      mul_nonneg (le_max_left _ _) (by have := hproper.room; omega)
    generalize max 0 pager.currentPage * pager.pageSize = start at hstart hnonneg
    have hfirst : 0 ≤ min start kMaximumInt := le_min hnonneg (by decide)
    have hquotient := Int.ediv_nonneg hfirst (show 0 ≤ max 1 size by omega)
    have hless := Int.ediv_le_self (b := max 1 size) hfirst
    have hbound : min start kMaximumInt ≤ kMaximumInt := min_le_right _ _
    have hpage : IsInt (min start kMaximumInt / max 1 size) := by
      simp only [IsInt]
      have hmaximum : 0 ≤ kMaximumInt := by decide
      omega
    rw [hstart]
    simp only [Option.bind_eq_bind, Option.bind_some, Int.tdiv_eq_ediv_of_nonneg hfirst,
      toInt_eq hpage]
    exact ⟨_, _, rfl, ⟨le_max_left _ _, hfits, hpage⟩, rfl, Or.inr ⟨_, rfl, rfl⟩⟩

/-- No change overflows, and each keeps the values proper. -/
theorem change_spec {view : View} (hproper : view.Proper) (next : Change) :
    ∃ changed, change view next = some changed ∧ changed.Proper := by
  obtain ⟨hpager, htotal⟩ := hproper
  have hcount := pageCount_eq hpager htotal
  have hpages := isInt_pages hpager htotal
  have hnonneg := pages_nonneg hpager view.total
  have hpage := hpager.page
  have hmoved : ∀ {page}, IsInt page →
      View.Proper { view with pager := { view.pager with currentPage := page } } :=
    fun hint => ⟨⟨hpager.room, hpager.size, hint⟩, htotal⟩
  cases next with
  | setPageSize size =>
      obtain ⟨resized, changed, hresized, hproper, -⟩ := setPageSize_spec hpager size
      exact ⟨{ view with pager := resized }, by rw [change, hresized]; rfl, hproper, htotal⟩
  | setPage page => exact ⟨_, rfl, hmoved page.2⟩
  | setTotal total => exact ⟨_, rfl, hpager, total.2⟩
  | goFirst => exact ⟨_, rfl, hmoved (by decide)⟩
  | goPrev =>
      rw [change, goPrev]
      split_ifs with hlater
      · have hint : IsInt (view.pager.currentPage - 1) := by
          simp only [IsInt] at hpage ⊢
          omega
        rw [toInt_eq hint]
        exact ⟨_, rfl, hmoved hint⟩
      · exact ⟨_, rfl, hpager, htotal⟩
  | goNext =>
      have hlast : IsInt (view.pager.pages view.total - 1) := by
        simp only [IsInt, kMaximumInt] at hpages ⊢
        omega
      rw [change, goNext, hcount]
      simp only [Option.bind_eq_bind, Option.bind_some, toInt_eq hlast]
      split_ifs with hbefore
      · have hint : IsInt (view.pager.currentPage + 1) := by
          simp only [IsInt] at hpage hlast ⊢
          omega
        rw [toInt_eq hint]
        exact ⟨_, rfl, hmoved hint⟩
      · exact ⟨_, rfl, hpager, htotal⟩
  | goLast =>
      rw [change, goLast, hcount]
      simp only [Option.bind_eq_bind, Option.bind_some, toInt_lastPage hpager htotal]
      exact ⟨_, rfl, hmoved (isInt_lastPage hpager htotal)⟩
  | clamp =>
      obtain ⟨clamped, hclamped, -, -, hproper, -⟩ := clamp_spec hpager htotal
      exact ⟨{ view with pager := clamped }, by rw [change, hclamped]; rfl, hproper, htotal⟩

theorem run_spec {view : View} (hproper : view.Proper) (changes : List Change) :
    ∃ changed, run view changes = some changed ∧ changed.Proper := by
  induction changes generalizing view with
  | nil => exact ⟨view, rfl, hproper⟩
  | cons next rest ih =>
      obtain ⟨changed, hchanged, hproper'⟩ := change_spec hproper next
      obtain ⟨last, hlast, hproper''⟩ := ih hproper'
      refine ⟨last, ?_, hproper''⟩
      rw [run, List.foldlM_cons, hchanged]
      exact hlast

/-- A new page size leaves the first entry of a valid page on the current page. -/
theorem setPageSize_keeps_first (hproper : pager.Proper) (htotal : IsInt total)
    (hvalid : pager.Valid total) (hsome : 0 < total) (size : CInt) :
    ∃ first resized changed clamped start stop, pager.pageStart = some first ∧
      pager.setPageSize size = some (resized, changed) ∧ resized.pageSize = max 1 size.1 ∧
        resized.clamp total = some clamped ∧ clamped.pageRange total clamped.currentPage = some (start, stop) ∧
          start ≤ first ∧ first < stop := by
  have hpages : 0 < pager.pages total := by
    obtain ⟨hlow, hhigh⟩ := ediv_lt_pages hproper le_rfl hsome
    omega
  obtain ⟨hlow, hhigh⟩ := hvalid
  have hpage : pager.currentPage < pager.pages total := by
    rw [lastPage] at hhigh
    omega
  have hbound := (pageStart_lt hproper hlow hpage).2
  have hfirst : pager.pageStart = some (pager.currentPage * pager.pageSize) := by
    have hfits : pager.currentPage * pager.pageSize ≤ kMaximumInt := by
      have := htotal.2
      omega
    rw [pageStart_eq hproper, max_eq_right hlow, min_eq_left hfits]
  have hnonneg : 0 ≤ pager.currentPage * pager.pageSize :=
    mul_nonneg hlow (by have := hproper.room; omega)
  obtain ⟨resized, changed, hresized, hproper', hsize, hmoved⟩ := setPageSize_spec hproper size
  -- either way the current page is the one of the first entry
  have hcurrent : resized.currentPage =
      pager.currentPage * pager.pageSize / resized.pageSize := by
    rcases hmoved with rfl | ⟨first, hstart, hpage⟩
    · have hroom := hproper.room
      exact (Int.mul_ediv_cancel _ (by omega)).symm
    · obtain rfl := Option.some_inj.1 (hfirst.symm.trans hstart)
      rw [hpage, hsize]
  obtain ⟨hlow', hhigh'⟩ := ediv_lt_pages hproper' hnonneg hbound
  rw [← hcurrent] at hlow' hhigh'
  obtain ⟨clamped, hclamped, hkept, -, hproper'', hsame⟩ := clamp_spec hproper' htotal
  have hvalid' : resized.Valid total := by
    refine ⟨hlow', ?_⟩
    rw [lastPage]
    omega
  have hpages' : clamped.pages total = resized.pages total := by
    rw [pages, pages, hkept]
  refine ⟨_, resized, changed, clamped, _, _, hfirst, hresized, hsize, hclamped,
    pageRange_eq hproper'' htotal (by rwa [hsame hvalid']) (by rwa [hsame hvalid', hpages']), ?_⟩
  apply (mem_pageRange_iff hproper'' hbound).2
  rw [hsame hvalid', hcurrent, hkept]

/-- After any changes nothing has overflowed, and a clamp leaves a valid page, pages that
share the entries out among them, and an entry that stays in view under a new page size. -/
theorem pages_partition (changes : List Change) :
    ∃ view clamped pages, run {} changes = some view ∧ view.pager.clamp view.total = some clamped ∧
      clamped.pageCount view.total = some pages ∧
      0 ≤ clamped.currentPage ∧ clamped.currentPage ≤ max 0 (pages - 1) ∧
      (∀ page, 0 ≤ page → page < pages → ∃ start stop,
        clamped.pageRange view.total page = some (start, stop) ∧
          0 ≤ start ∧ start < stop ∧ stop ≤ view.total) ∧
      (∀ entry, 0 ≤ entry → entry < view.total → ∃! page, 0 ≤ page ∧ page < pages ∧
        ∃ range ∈ clamped.pageRange view.total page, range.1 ≤ entry ∧ entry < range.2) ∧
      (0 < view.total → ∀ size : CInt, ∃ first resized changed settled start stop,
        clamped.pageStart = some first ∧ clamped.setPageSize size = some (resized, changed) ∧
          resized.pageSize = max 1 size.1 ∧ resized.clamp view.total = some settled ∧
            settled.pageRange view.total settled.currentPage = some (start, stop) ∧
              start ≤ first ∧ first < stop) := by
  have hinitial : View.Proper {} := ⟨⟨le_rfl, by decide, by decide⟩, by decide⟩
  obtain ⟨view, hview, hpager, htotal⟩ := run_spec hinitial changes
  obtain ⟨clamped, hclamped, -, hvalid, hproper, -⟩ := clamp_spec hpager htotal
  refine ⟨view, clamped, _, hview, hclamped, pageCount_eq hproper htotal, hvalid.1, hvalid.2,
    ?_, ?_, fun hsome size => setPageSize_keeps_first hproper htotal hvalid hsome size⟩
  · intro page hlow hpage
    obtain ⟨-, hstart⟩ := pageStart_lt hproper hlow hpage
    have hroom := hproper.room
    refine ⟨_, _, pageRange_eq hproper htotal hlow hpage, mul_nonneg hlow (by omega), ?_,
      min_le_left _ _⟩
    rw [lt_min_iff, add_mul, one_mul]
    exact ⟨hstart, by omega⟩
  · intro entry hentry hbound
    obtain ⟨hlow, hhigh⟩ := ediv_lt_pages hproper hentry hbound
    refine ⟨entry / clamped.pageSize, ⟨hlow, hhigh, _, pageRange_eq hproper htotal hlow hhigh,
      (mem_pageRange_iff hproper hbound).2 rfl⟩, ?_⟩
    rintro page ⟨hlow', hhigh', range, hrange, hmem⟩
    rw [pageRange_eq hproper htotal hlow' hhigh'] at hrange
    obtain rfl := Option.some_inj.1 hrange
    exact (mem_pageRange_iff hproper hbound).1 hmem

/-- The fifth page of ten entries begins with entry 40, which a page of thirty still shows. -/
theorem pages_partition_resized :
    let changes : List Change :=
      [.setTotal ⟨95, by decide⟩, .setPageSize ⟨10, by decide⟩, .setPage ⟨4, by decide⟩]
    run {} changes = some ⟨⟨10, 4⟩, 95⟩ ∧
      ∃ resized changed settled start stop,
        setPageSize ⟨10, 4⟩ 30 = some (resized, changed) ∧ resized.pageSize = 30 ∧
          resized.clamp 95 = some settled ∧
            settled.pageRange 95 settled.currentPage = some (start, stop) ∧
              start ≤ 40 ∧ 40 < stop := by
  intro changes
  have hrun : run {} changes = some ⟨⟨10, 4⟩, 95⟩ := rfl
  obtain ⟨view, clamped, pages, hview, hclamped, -, -, -, -, -, hkeeps⟩ := pages_partition changes
  obtain rfl := Option.some_inj.1 (hrun.symm.trans hview)
  have hvalid : clamp ⟨10, 4⟩ 95 = some ⟨10, 4⟩ := rfl
  obtain rfl := Option.some_inj.1 (hvalid.symm.trans hclamped)
  obtain ⟨first, resized, changed, settled, start, stop, hfirst, hresized, hsize, hsettled, hrange,
    hlow, hhigh⟩ := hkeeps (by decide) ⟨30, by decide⟩
  have hstart : pageStart ⟨10, 4⟩ = some 40 := rfl
  obtain rfl := Option.some_inj.1 (hstart.symm.trans hfirst)
  exact ⟨hrun, resized, changed, settled, start, stop, hresized, hsize, hsettled, hrange, hlow,
    hhigh⟩

end Pager

end UwfManager
