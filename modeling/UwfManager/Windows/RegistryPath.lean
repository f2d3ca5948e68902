import UwfManager.Configuration.ExclusionRules

/-!
# The normal form of a registry key

Each pass of the normalization is made once, so a pass can expose text that an earlier one
would have removed.  Only one such case exists: behind the trailing backslashes of a key
there can be a blank.
-/

namespace UwfManager

namespace RegKey

/-- The key without the blanks around it and then without its trailing backslashes. -/
def stripped (key : Text) : Text := (trim key).rdropWhile (· == '\\')

/-- The root key that the text in front of the first backslash names. -/
def hiveOf (path : Text) : Option RegistryHiveName :=
  registryHiveNames.find? fun h =>
    toUpperAscii (path.takeWhile (· != '\\')) == h.shortForm ||
      toUpperAscii (path.takeWhile (· != '\\')) == h.longForm

/-- Spells the root key out when it is known. -/
def expandHive (path : Text) : Text :=
  match hiveOf path with
  | some h => h.longForm ++ path.dropWhile (· != '\\')
  | none => path

theorem normalize_eq (key : Text) : normalize key = expandHive (stripped key) := rfl

theorem expandHive_of_none {path : Text} (hhive : hiveOf path = none) :
    expandHive path = path := by
  rw [expandHive, hhive]

theorem expandHive_of_some {path : Text} {h : RegistryHiveName} (hhive : hiveOf path = some h) :
    expandHive path = h.longForm ++ path.dropWhile (· != '\\') := by
  rw [expandHive, hhive]

/-- A blank is left at the end when the trailing backslashes are gone. -/
def EndsInBlank (path : Text) : Prop := ∃ c ∈ path.getLast?, isAsciiWhitespace c = true

instance (path : Text) : Decidable (EndsInBlank path) := by
  apply decidable_of_iff (path.getLast?.any isAsciiWhitespace = true)
  simp only [EndsInBlank, Option.any_eq_true, Option.mem_def]

/-! ## Root keys -/

theorem longForm_ne_nil {h : RegistryHiveName} (hmem : h ∈ registryHiveNames) :
    h.longForm ≠ [] := by
  revert h
  decide

theorem longForm_no_backslash {h : RegistryHiveName} (hmem : h ∈ registryHiveNames) :
    ∀ c ∈ h.longForm, (c != '\\') = true := by
  apply List.all_eq_true.1
  revert h
  decide

theorem longForm_visible {h : RegistryHiveName} (hmem : h ∈ registryHiveNames) :
    ∀ c ∈ h.longForm, isAsciiWhitespace c = false := by
  have hnone : h.longForm.any isAsciiWhitespace = false := by
    revert h
    decide
  simpa only [List.any_eq_false, Bool.not_eq_true] using hnone

theorem shortForm_visible {h : RegistryHiveName} (hmem : h ∈ registryHiveNames) :
    ∀ c ∈ h.shortForm, isAsciiWhitespace c = false := by
  have hnone : h.shortForm.any isAsciiWhitespace = false := by
    revert h
    decide
  simpa only [List.any_eq_false, Bool.not_eq_true] using hnone

/-- The spelled out name of a root key names that root key. -/
theorem longForm_of_find {h : RegistryHiveName} (hmem : h ∈ registryHiveNames) :
    (registryHiveNames.find? fun other =>
      toUpperAscii h.longForm == other.shortForm ||
        toUpperAscii h.longForm == other.longForm).map (·.longForm) = some h.longForm := by
  revert h
  decide

theorem mem_of_hiveOf {path : Text} {h : RegistryHiveName} (hhive : hiveOf path = some h) :
    h ∈ registryHiveNames := List.mem_of_find?_eq_some hhive

/-- A named root key is the text in front of the first backslash, up to the case. -/
theorem upper_of_hiveOf {path : Text} {h : RegistryHiveName} (hhive : hiveOf path = some h) :
    toUpperAscii (path.takeWhile (· != '\\')) = h.shortForm ∨
      toUpperAscii (path.takeWhile (· != '\\')) = h.longForm := by
  have hfound := List.find?_some hhive
  rwa [Bool.or_eq_true, beq_iff_eq, beq_iff_eq] at hfound

theorem dropWhile_backslash (path : Text) :
    path.dropWhile (· != '\\') = [] ∨ (path.dropWhile (· != '\\')).head? = some '\\' := by
  cases hrest : path.dropWhile (· != '\\') with
  | nil => exact Or.inl rfl
  | cons c rest =>
      right
      have hc := List.head?_dropWhile_not (· != '\\') path
      rw [hrest] at hc
      simpa using hc

/-- Behind a root key that is spelled out the path goes on as before. -/
theorem takeWhile_longForm {h : RegistryHiveName} (hmem : h ∈ registryHiveNames) {rest : Text}
    (hrest : rest = [] ∨ rest.head? = some '\\') :
    (h.longForm ++ rest).takeWhile (· != '\\') = h.longForm ∧
      (h.longForm ++ rest).dropWhile (· != '\\') = rest := by
  have hall := longForm_no_backslash hmem
  rw [List.takeWhile_append_of_pos hall, List.dropWhile_append_of_pos hall]
  rcases hrest with rfl | hrest
  · simp
  · cases rest with
    | nil => cases hrest
    | cons c rest =>
        obtain rfl : c = '\\' := Option.some_inj.1 hrest
        simp

theorem expandHive_longForm {h : RegistryHiveName} (hmem : h ∈ registryHiveNames) {rest : Text}
    (hrest : rest = [] ∨ rest.head? = some '\\') :
    expandHive (h.longForm ++ rest) = h.longForm ++ rest := by
  obtain ⟨htake, hdrop⟩ := takeWhile_longForm hmem hrest
  obtain ⟨other, hfound, hlong⟩ := Option.map_eq_some_iff.1 (longForm_of_find hmem)
  have hhive : hiveOf (h.longForm ++ rest) = some other := by rw [hiveOf, htake, hfound]
  rw [expandHive, hhive, hdrop]
  exact congrArg (· ++ rest) hlong

theorem expandHive_idempotent (path : Text) : expandHive (expandHive path) = expandHive path := by
  cases hhive : hiveOf path with
  | none =>
      have hsame := expandHive_of_none hhive
      rw [hsame, hsame]
  | some h =>
      rw [expandHive_of_some hhive]
      exact expandHive_longForm (mem_of_hiveOf hhive) (dropWhile_backslash path)

/-! ## The end of a path -/

theorem endsInBlank_append {front back : Text} (hback : back ≠ []) :
    EndsInBlank (front ++ back) ↔ EndsInBlank back := by
  rw [EndsInBlank, EndsInBlank, List.getLast?_append_of_ne_nil _ hback]

theorem not_endsInBlank_of_visible {path : Text}
    (hvisible : ∀ c ∈ path, isAsciiWhitespace c = false) : ¬EndsInBlank path := by
  rintro ⟨c, hlast, hblank⟩
  rw [hvisible c (List.mem_of_getLast? hlast)] at hblank
  cases hblank

/-- The text of a root key does not end in a blank. -/
theorem visible_of_hiveOf {path : Text} {h : RegistryHiveName} (hhive : hiveOf path = some h) :
    ∀ c ∈ path.takeWhile (· != '\\'), isAsciiWhitespace c = false := by
  intro c hc
  have hmem := mem_of_hiveOf hhive
  have hupper : upperAscii c ∈ toUpperAscii (path.takeWhile (· != '\\')) :=
    List.mem_map_of_mem hc
  have hvisible : isAsciiWhitespace (upperAscii c) = false := by
    rcases upper_of_hiveOf hhive with hform | hform
    · exact shortForm_visible hmem _ (hform ▸ hupper)
    · exact longForm_visible hmem _ (hform ▸ hupper)
  by_contra hblank
  rw [Bool.not_eq_false] at hblank
  have hsame : upperAscii c = c := by
    simp only [isAsciiWhitespace, Bool.or_eq_true, beq_iff_eq] at hblank
    rcases hblank with ((((rfl | rfl) | rfl) | rfl) | rfl) | rfl <;> rfl
  rw [hsame, hblank] at hvisible
  cases hvisible

/-- Spelling the root key out does not change how a path ends. -/
theorem endsInBlank_expandHive (path : Text) : EndsInBlank (expandHive path) ↔ EndsInBlank path := by
  cases hhive : hiveOf path with
  | none => rw [expandHive_of_none hhive]
  | some h =>
      rw [expandHive_of_some hhive]
      by_cases hrest : path.dropWhile (· != '\\') = []
      · have hwhole : path.takeWhile (· != '\\') = path := by
          have happend := List.takeWhile_append_dropWhile (p := (· != '\\')) (l := path)
          rwa [hrest, List.append_nil] at happend
        rw [hrest, List.append_nil]
        constructor
        · intro hends
          exact absurd hends (not_endsInBlank_of_visible (longForm_visible (mem_of_hiveOf hhive)))
        · intro hends
          exact absurd hends
            (not_endsInBlank_of_visible (hwhole ▸ visible_of_hiveOf hhive))
      · rw [endsInBlank_append hrest]
        conv_rhs => rw [← List.takeWhile_append_dropWhile (p := (· != '\\')) (l := path)]
        exact (endsInBlank_append hrest).symm

/-! ## Keys that are in normal form already -/

/-- A stripped key is as it is found in the key: it begins with a visible character and
does not end with a backslash. -/
theorem head_stripped (key : Text) : ∀ c ∈ (stripped key).head?, isAsciiWhitespace c = false := by
  intro c hc
  have hleft : ∀ c ∈ (key.dropWhile isAsciiWhitespace).head?, isAsciiWhitespace c = false := by
    intro c hc
    have hfirst := List.head?_dropWhile_not isAsciiWhitespace key
    rw [Option.mem_def.1 hc] at hfirst
    exact hfirst
  have hstart : stripped key <+: key.dropWhile isAsciiWhitespace :=
    (List.rdropWhile_prefix _ _).trans (List.rdropWhile_prefix _ _)
  obtain ⟨tail, htail⟩ := hstart
  apply hleft
  rw [← htail]
  cases hkept : stripped key with
  | nil =>
      rw [hkept] at hc
      cases hc
  | cons first rest =>
      rw [hkept] at hc
      exact hc

theorem last_stripped (key : Text) : ∀ c ∈ (stripped key).getLast?, c ≠ '\\' := by
  intro c hc hback
  obtain ⟨hne, rfl⟩ := List.mem_getLast?_eq_getLast hc
  exact List.rdropWhile_last_not (· == '\\') (trim key) hne (beq_iff_eq.2 hback)

/-- A text with a visible beginning and an end that is no blank and no backslash. -/
theorem stripped_eq_self {path : Text} (hhead : ∀ c ∈ path.head?, isAsciiWhitespace c = false)
    (hblank : ¬EndsInBlank path) (hlast : ∀ c ∈ path.getLast?, c ≠ '\\') :
    stripped path = path := by
  have htrim : trim path = path := by
    apply trim_eq_self hhead
    intro c hc
    by_contra hspace
    exact hblank ⟨c, hc, by rwa [Bool.not_eq_false] at hspace⟩
  rw [stripped, htrim, List.rdropWhile_eq_self_iff]
  intro hne hback
  exact hlast _ (List.getLast?_eq_some_getLast hne) (beq_iff_eq.1 hback)

/-- The spelled out root key leaves the last character a visible one. -/
theorem last_expandHive {path : Text} (hlast : ∀ c ∈ path.getLast?, c ≠ '\\') :
    ∀ c ∈ (expandHive path).getLast?, c ≠ '\\' := by
  cases hhive : hiveOf path with
  | none => rwa [expandHive_of_none hhive]
  | some h =>
      have hmem := mem_of_hiveOf hhive
      rw [expandHive_of_some hhive]
      intro c hc
      by_cases hrest : path.dropWhile (· != '\\') = []
      · rw [hrest, List.append_nil] at hc
        exact bne_iff_ne.1 (longForm_no_backslash hmem c (List.mem_of_getLast? hc))
      · rw [List.getLast?_append_of_ne_nil _ hrest] at hc
        apply hlast
        rw [← List.takeWhile_append_dropWhile (p := (· != '\\')) (l := path),
          List.getLast?_append_of_ne_nil _ hrest]
        exact hc

theorem stripped_expandHive {path : Text} (hhead : ∀ c ∈ path.head?, isAsciiWhitespace c = false)
    (hblank : ¬EndsInBlank path) (hlast : ∀ c ∈ path.getLast?, c ≠ '\\') :
    stripped (expandHive path) = expandHive path := by
  apply stripped_eq_self
  · cases hhive : hiveOf path with
    | none => rwa [expandHive_of_none hhive]
    | some h =>
        have hmem := mem_of_hiveOf hhive
        rw [expandHive_of_some hhive]
        intro c hc
        rw [List.head?_append_of_ne_nil _ (longForm_ne_nil hmem)] at hc
        exact longForm_visible hmem c (List.mem_of_mem_head? hc)
  · rwa [endsInBlank_expandHive]
  · exact last_expandHive hlast

/-- A key that ends in a blank is shortened. -/
theorem length_stripped_lt {path : Text} (hblank : EndsInBlank path) :
    (stripped path).length < path.length := by
  obtain ⟨c, hlast, hspace⟩ := hblank
  obtain ⟨front, rfl⟩ := List.getLast?_eq_some_iff.1 hlast
  rw [stripped, trim_concat_whitespace _ hspace, List.length_append, List.length_singleton]
  apply Nat.lt_succ_of_le
  calc
    ((trim front).rdropWhile (· == '\\')).length ≤ (trim front).length :=
      (List.rdropWhile_prefix _ _).length_le
    _ ≤ (front.dropWhile isAsciiWhitespace).length := (List.rdropWhile_prefix _ _).length_le
    _ ≤ front.length := (List.dropWhile_suffix _).length_le

/-- A key that begins with a visible character is only cut off at its end. -/
theorem stripped_prefix {path : Text} (hhead : ∀ c ∈ path.head?, isAsciiWhitespace c = false) :
    stripped path <+: path := by
  have hkept : path.dropWhile isAsciiWhitespace = path := by
    cases path with
    | nil => rfl
    | cons first rest => rw [List.dropWhile_cons_of_neg (by rw [hhead first rfl]; rintro ⟨⟩)]
  have hboth := (List.rdropWhile_prefix (· == '\\') (trim path)).trans
    (List.rdropWhile_prefix isAsciiWhitespace (path.dropWhile isAsciiWhitespace))
  rwa [hkept] at hboth

/-- A text that starts as `front ++ back` does and reaches all of `back` is the whole of it. -/
theorem eq_append_of_prefix {p : Char → Bool} {text front back : Text}
    (hstart : text <+: front ++ back) (hfront : ∀ c ∈ front, p c = true)
    (hback : text.dropWhile p = back) (hne : back ≠ []) : text = front ++ back := by
  have hlonger : front.length ≤ text.length := by
    by_contra hless
    have hinside : text <+: front := by
      apply List.prefix_of_prefix_length_le hstart (List.prefix_append _ _)
      omega
    apply hne
    rw [← hback]
    exact List.dropWhile_eq_nil_iff.2 fun c hc => hfront c (hinside.subset hc)
  obtain ⟨tail, rfl⟩ : front <+: text :=
    List.prefix_of_prefix_length_le (List.prefix_append _ _) hstart hlonger
  rw [List.dropWhile_append_of_pos hfront] at hback
  have hshort : back.length ≤ tail.length := by
    rw [← hback]
    exact (List.dropWhile_suffix p).length_le
  rw [((List.prefix_append_right_inj front).1 hstart).eq_of_length_le hshort]

/-- A key in normal form does not end in a blank. -/
theorem not_endsInBlank_of_fixed {path : Text} (hfixed : normalize path = path) :
    ¬EndsInBlank path := by
  intro hblank
  have hshorter := length_stripped_lt hblank
  rw [normalize_eq] at hfixed
  cases hhive : hiveOf (stripped path) with
  | none =>
      rw [expandHive_of_none hhive] at hfixed
      rw [hfixed] at hshorter
      exact lt_irrefl _ hshorter
  | some h =>
      have hmem := mem_of_hiveOf hhive
      rw [expandHive_of_some hhive] at hfixed
      have hhead : ∀ c ∈ path.head?, isAsciiWhitespace c = false := by
        intro c hc
        rw [← hfixed, List.head?_append_of_ne_nil _ (longForm_ne_nil hmem)] at hc
        exact longForm_visible hmem c (List.mem_of_mem_head? hc)
      have hne : (stripped path).dropWhile (· != '\\') ≠ [] := by
        intro hnil
        rw [hnil, List.append_nil] at hfixed
        exact not_endsInBlank_of_visible (hfixed ▸ longForm_visible hmem) hblank
      -- nothing but the long form stands in front of the first backslash
      have hfront : stripped path <+: h.longForm ++ (stripped path).dropWhile (· != '\\') := by
        rw [hfixed]
        exact stripped_prefix hhead
      have hsame := eq_append_of_prefix hfront (longForm_no_backslash hmem) rfl hne
      rw [hsame.trans hfixed] at hshorter
      exact lt_irrefl _ hshorter

/-! ## The fixed point -/

/-- The judgement depends on the normal form only. -/
theorem classify_congr {first second : Text} (hnormal : normalize first = normalize second) :
    classifyRegistryExclusion first = classifyRegistryExclusion second := by
  unfold classifyRegistryExclusion
  rw [hnormal]

/-- Without a blank at its end a key is brought into its normal form at once. -/
theorem normalize_normalize {key : Text} (hends : ¬EndsInBlank (stripped key)) :
    normalize (normalize key) = normalize key := by
  rw [normalize_eq, normalize_eq,
    stripped_expandHive (head_stripped key) hends (last_stripped key)]
  exact expandHive_idempotent _

/-- Normalizing again changes nothing, and so does not change how a key is judged, exactly
when no blank is left behind the trailing backslashes. -/
theorem normalize_fixed_iff (key : Text) :
    (normalize (normalize key) = normalize key ∧
      classifyRegistryExclusion key = classifyRegistryExclusion (normalize key)) ↔
        ¬EndsInBlank (stripped key) := by
  constructor
  · rintro ⟨hfixed, -⟩
    have hends := not_endsInBlank_of_fixed hfixed
    rwa [normalize_eq, endsInBlank_expandHive] at hends
  · intro hends
    have hfixed := normalize_normalize hends
    exact ⟨hfixed, (classify_congr hfixed).symm⟩

/-- The key of the machine account with a blank and a backslash behind it may be excluded,
and its normal form may not. -/
theorem blank_behind_backslash_reclassified :
    let key := "HKLM\\SECURITY\\Policy\\Secrets\\$MACHINE.ACC \\".toList
    normalize (normalize key) ≠ normalize key ∧
      classifyRegistryExclusion key = .allowed ∧
      classifyRegistryExclusion (normalize key) = .machineAccount := by
  decide +kernel

end RegKey

end UwfManager
