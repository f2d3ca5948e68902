import UwfManager.Uwf.UwfProvider

/-!
# The selection of volume rows

Rows of one session and letter are told apart by the mounted volumes.  Which rows are
selected, and whether there is a selection at all, does not depend on the order in which the
provider lists them.
-/

namespace UwfManager

variable {W : Type*} {wmi : WmiOperations W} {mounts : Text → Except WmiFailure (List Text)}

/-! ## Decoded rows -/

/-- The rows are not the same volume at the same letter in the same session. -/
def VolumeRow.Distinct (first second : VolumeRow) : Prop :=
  ¬(first.currentSession = second.currentSession ∧ first.driveLetter = second.driveLetter ∧
    toUpperAscii first.volumeName = toUpperAscii second.volumeName)

theorem VolumeRow.Distinct.symm {first second : VolumeRow} (hdistinct : first.Distinct second) :
    second.Distinct first := fun hsame =>
  hdistinct ⟨hsame.1.symm, hsame.2.1.symm, hsame.2.2.symm⟩

/-- The managed volume of a row, if there is one. -/
def managedVolume (source : WmiRow) : Option VolumeRow :=
  match decodeManagedVolume source with
  | .ok decoded => decoded
  | .error _ => none

/-- One round of the loop in `decodeVolumes`. -/
def decodeRow (volumes : List VolumeRow) (row : WmiRow) : Except WmiFailure (List VolumeRow) := do
  match ← decodeManagedVolume row with
  | none => return volumes
  | some decoded =>
      if volumes.any fun other =>
          other.currentSession == decoded.currentSession &&
            other.driveLetter == decoded.driveLetter &&
            toUpperAscii other.volumeName == toUpperAscii decoded.volumeName then
        .error (.of .protocol "read UWF_Volume".toList
          ("duplicate ".toList ++ sessionText decoded.currentSession ++
            " session instance for ".toList ++ decoded.driveLetter ++ " / ".toList ++
            decoded.volumeName))
      else return volumes ++ [decoded]

theorem decodeVolumes_eq (rows : List WmiRow) : decodeVolumes rows = rows.foldlM decodeRow [] := rfl

theorem not_any_iff_distinct {volumes : List VolumeRow} {decoded : VolumeRow} :
    (volumes.any fun other => other.currentSession == decoded.currentSession &&
        other.driveLetter == decoded.driveLetter &&
        toUpperAscii other.volumeName == toUpperAscii decoded.volumeName) = false ↔
      ∀ other ∈ volumes, other.Distinct decoded := by
  rw [List.any_eq_false]
  apply forall₂_congr
  intro other _
  simp only [Bool.and_eq_true, beq_iff_eq, and_assoc]
  rfl

theorem decodeRow_eq_ok {volumes after : List VolumeRow} {row : WmiRow} :
    decodeRow volumes row = .ok after ↔
      ∃ decoded, decodeManagedVolume row = .ok decoded ∧ after = volumes ++ decoded.toList ∧
        ∀ other ∈ volumes, ∀ volume ∈ decoded, other.Distinct volume := by
  rw [decodeRow]
  cases decodeManagedVolume row with
  | error failure =>
      constructor
      · rintro ⟨⟩
      · rintro ⟨decoded, ⟨⟩, -⟩
  | ok decoded =>
      cases decoded with
      | none =>
          constructor
          · rintro ⟨⟩
            exact ⟨none, rfl, (List.append_nil volumes).symm, nofun⟩
          · rintro ⟨decoded, ⟨⟩, rfl, -⟩
            rw [Option.toList_none, List.append_nil]
            rfl
      | some decoded =>
          change (if _ then _ else _) = _ ↔ _
          split_ifs with hknown
          · constructor
            · rintro ⟨⟩
            · rintro ⟨other, ⟨⟩, -, hdistinct⟩
              rw [not_any_iff_distinct.2 fun other hother => hdistinct other hother decoded rfl]
                at hknown
              cases hknown
          · rw [Bool.not_eq_true, not_any_iff_distinct] at hknown
            constructor
            · rintro ⟨⟩
              refine ⟨some decoded, rfl, rfl, fun other hother volume hvolume => ?_⟩
              cases hvolume
              exact hknown other hother
            · rintro ⟨other, ⟨⟩, rfl, -⟩
              rfl

theorem foldlM_decodeRow {rows : List WmiRow} {before volumes : List VolumeRow}
    (hbefore : before.Pairwise VolumeRow.Distinct) :
    rows.foldlM decodeRow before = .ok volumes ↔
      (∀ row ∈ rows, ∃ decoded, decodeManagedVolume row = .ok decoded) ∧
        volumes = before ++ rows.filterMap managedVolume ∧ volumes.Pairwise VolumeRow.Distinct := by
  induction rows generalizing before with
  | nil =>
      rw [List.foldlM_nil, List.filterMap_nil, List.append_nil]
      constructor
      · rintro ⟨⟩
        exact ⟨nofun, rfl, hbefore⟩
      · rintro ⟨-, rfl, -⟩
        rfl
  | cons row rest ih =>
      rw [List.foldlM_cons, List.forall_mem_cons]
      cases hrow : decodeRow before row with
      | error failure =>
          constructor
          · rintro ⟨⟩
          · rintro ⟨⟨⟨decoded, hdecoded⟩, -⟩, rfl, hpairwise⟩
            have hok : decodeRow before row = .ok (before ++ decoded.toList) := by
              refine decodeRow_eq_ok.2 ⟨decoded, hdecoded, rfl, fun other hother volume hvolume => ?_⟩
              refine (List.pairwise_append.1 hpairwise).2.2 other hother volume ?_
              rw [List.mem_filterMap]
              refine ⟨row, List.mem_cons_self, ?_⟩
              rw [managedVolume, hdecoded]
              exact hvolume
            rw [hrow] at hok
            cases hok
      | ok after =>
          obtain ⟨decoded, hdecoded, rfl, hdistinct⟩ := decodeRow_eq_ok.1 hrow
          have hmanaged : managedVolume row = decoded := by rw [managedVolume, hdecoded]
          have hcons : before ++ (row :: rest).filterMap managedVolume =
              before ++ decoded.toList ++ rest.filterMap managedVolume := by
            cases decoded with
            | none => rw [List.filterMap_cons_none hmanaged, Option.toList_none, List.append_nil]
            | some decoded =>
                rw [List.filterMap_cons_some hmanaged, List.append_cons]
                rfl
          have hafter : (before ++ decoded.toList).Pairwise VolumeRow.Distinct := by
            refine List.pairwise_append.2 ⟨hbefore, ?_, fun other hother volume hvolume =>
              hdistinct other hother volume (Option.mem_toList.1 hvolume)⟩
            cases decoded with
            | none => exact List.Pairwise.nil
            | some decoded => exact List.pairwise_singleton _ _
          rw [hcons]
          refine (ih hafter).trans ?_
          rw [and_iff_right (⟨decoded, hdecoded⟩ : ∃ decoded, decodeManagedVolume row = .ok decoded)]

/-- The rows that are read are those of the managed volumes, no identity twice. -/
theorem decodeVolumes_eq_ok {rows : List WmiRow} {volumes : List VolumeRow} :
    decodeVolumes rows = .ok volumes ↔
      (∀ row ∈ rows, ∃ decoded, decodeManagedVolume row = .ok decoded) ∧
        volumes = rows.filterMap managedVolume ∧ volumes.Pairwise VolumeRow.Distinct := by
  rw [decodeVolumes_eq, foldlM_decodeRow List.Pairwise.nil, List.nil_append]

theorem decodeVolumes_perm {rows rows' : List WmiRow} (hperm : rows.Perm rows')
    {volumes : List VolumeRow} (hvolumes : decodeVolumes rows = .ok volumes) :
    ∃ volumes', decodeVolumes rows' = .ok volumes' ∧ volumes.Perm volumes' := by
  obtain ⟨hall, rfl, hpairwise⟩ := decodeVolumes_eq_ok.1 hvolumes
  have hvolumes := hperm.filterMap managedVolume
  refine ⟨_, decodeVolumes_eq_ok.2 ⟨fun row hrow => hall row (hperm.mem_iff.2 hrow), rfl, ?_⟩,
    hvolumes⟩
  exact (hvolumes.pairwise_iff VolumeRow.Distinct.symm).1 hpairwise

/-! ## Rows that apply -/

/-- What is mounted where depends on the volume alone, whose name is the same in any case. -/
def WmiOperations.LooksUp (wmi : WmiOperations W) (mounts : Text → Except WmiFailure (List Text)) :
    Prop :=
  ∀ volume state, (wmi.mountedLetters volume state).1 = mounts (toUpperAscii volume)

def mountPath (volumeName : Text) : Text := "\\\\?\\".toList ++ volumeName ++ "\\".toList

theorem toUpperAscii_mountPath (volumeName : Text) :
    toUpperAscii (mountPath volumeName) = mountPath (toUpperAscii volumeName) := by
  rw [mountPath, mountPath, toUpperAscii, List.map_append, List.map_append]
  rfl

/-- Whether the row applies, or nothing if its volume cannot be looked up. -/
def applies (mounts : Text → Except WmiFailure (List Text)) (row : VolumeRow) : Option Bool :=
  if !row.currentSession && row.bindByDriveLetter then some true
  else
    (mounts (mountPath (toUpperAscii row.volumeName))).toOption.map (·.contains row.driveLetter)

/-- The cache holds answers of the lookup. -/
def Sound (mounts : Text → Except WmiFailure (List Text)) (cache : MountCache) : Prop :=
  ∀ key letters, cache.lookup key = some letters → mounts (mountPath key) = .ok letters

theorem rowApplies_meets (hmounts : wmi.LooksUp mounts) {cache : MountCache}
    (hsound : Sound mounts cache) (row : VolumeRow) :
    (rowApplies wmi cache row).Meets
      (fun result => Sound mounts result.2 ∧ applies mounts row = some result.1)
      (applies mounts row = none) := by
  rw [rowApplies, applies]
  by_cases hbound : (!row.currentSession && row.bindByDriveLetter) = true
  · rw [if_pos hbound, if_pos hbound]
    exact .pure ⟨hsound, rfl⟩
  · rw [if_neg hbound, if_neg hbound, mountedAtDrive]
    cases hcache : cache.lookup (toUpperAscii row.volumeName) with
    | some letters =>
        refine .pure ⟨hsound, ?_⟩
        rw [hsound _ letters hcache]
        rfl
    | none =>
        have hlookup : (wmi.mountedLetters (mountPath row.volumeName)).Meets
            (fun letters => mounts (mountPath (toUpperAscii row.volumeName)) = .ok letters)
            (((mounts (mountPath (toUpperAscii row.volumeName))).toOption.map
              (·.contains row.driveLetter)) = none) := by
          intro state
          rw [hmounts, toUpperAscii_mountPath]
          refine ⟨fun letters hletters => hletters, fun failure hfailure => ?_⟩
          rw [hfailure]
          rfl
        refine .bind hlookup fun letters hletters => .pure ⟨fun key other hother => ?_, ?_⟩
        · rw [List.lookup_cons] at hother
          split at hother
          · rename_i hkey
            rw [beq_iff_eq.1 hkey, hletters, Option.some.inj hother]
          · exact hsound key other hother
        · rw [hletters]
          rfl

/-- The rows can be told apart: all can be looked up, and at most one applies. -/
structure Clear (mounts : Text → Except WmiFailure (List Text)) (rows : List VolumeRow) : Prop where
  known : ∀ row ∈ rows, applies mounts row ≠ none
  single : (rows.filter (applies mounts · = some true)).length ≤ 1

instance (mounts : Text → Except WmiFailure (List Text)) (rows : List VolumeRow) :
    Decidable (Clear mounts rows) :=
  decidable_of_iff ((∀ row ∈ rows, applies mounts row ≠ none) ∧
      (rows.filter (applies mounts · = some true)).length ≤ 1)
    ⟨fun h => ⟨h.1, h.2⟩, fun h => ⟨h.known, h.single⟩⟩

/-- What the loop over the rows of one letter has found out, with these rows to go. -/
structure ToldApart (mounts : Text → Except WmiFailure (List Text)) (rows dropped : List VolumeRow)
    (rest : List VolumeRow) (state : Disambiguation) : Prop where
  sound : Sound mounts state.cache
  split : ∃ done, rows = done ++ rest ∧ (∀ row ∈ done, applies mounts row ≠ none) ∧
    done.filter (applies mounts · = some true) = state.found.toList ∧
    ∀ row, row ∈ state.dropped ↔ row ∈ dropped ∨ row ∈ done ∧ applies mounts row = some false

theorem disambiguate_meets (hmounts : wmi.LooksUp mounts) {rows dropped rest : List VolumeRow}
    {row : VolumeRow} {state : Disambiguation}
    (hstate : ToldApart mounts rows dropped (row :: rest) state) :
    (disambiguate wmi state row).Meets (ToldApart mounts rows dropped rest)
      (¬Clear mounts rows) := by
  obtain ⟨hsound, done, rfl, hknown, hfound, hdropped⟩ := hstate
  have hmem : row ∈ done ++ row :: rest := List.mem_append_right _ List.mem_cons_self
  have hrow := rowApplies_meets hmounts hsound row
  have hfailed : (rowApplies wmi state.cache row).Meets
      (fun result => Sound mounts result.2 ∧ applies mounts row = some result.1)
      (¬Clear mounts (done ++ row :: rest)) := fun start =>
    ⟨(hrow start).1, fun failure hfailure hclear =>
      hclear.known row hmem ((hrow start).2 failure hfailure)⟩
  rw [disambiguate]
  refine .bind hfailed ?_
  rintro ⟨holds, cache⟩ ⟨hcache, happlies⟩
  dsimp only at hcache happlies ⊢
  have hdone : ∀ other ∈ done ++ [row], applies mounts other ≠ none := by
    intro other hother
    rcases List.mem_append.1 hother with hother | hother
    · exact hknown other hother
    · rw [List.mem_singleton.1 hother, happlies]
      exact Option.some_ne_none _
  cases holds with
  | false =>
      refine .pure ⟨hcache, done ++ [row], List.append_cons _ _ _, hdone, ?_, fun other => ?_⟩
      · rw [List.filter_append, hfound, List.filter_singleton, happlies]
        exact List.append_nil _
      · rw [List.mem_cons, hdropped, List.mem_append, List.mem_singleton]
        constructor
        · rintro (rfl | hold | hold)
          · exact Or.inr ⟨Or.inr rfl, happlies⟩
          · exact Or.inl hold
          · exact Or.inr ⟨Or.inl hold.1, hold.2⟩
        · rintro (hold | ⟨hold | rfl, hfalse⟩)
          · exact Or.inr (Or.inl hold)
          · exact Or.inr (Or.inr ⟨hold, hfalse⟩)
          · exact Or.inl rfl
  | true =>
      cases hstate : state.found with
      | some other =>
          refine .fail fun hclear => ?_
          have hsingle := hclear.single
          rw [List.filter_append, hfound, hstate,
            List.filter_cons_of_pos (by rw [happlies]; rfl)] at hsingle
          simp at hsingle
      | none =>
          refine .pure ⟨hcache, done ++ [row], List.append_cons _ _ _, hdone, ?_, fun other => ?_⟩
          · rw [List.filter_append, hfound, hstate, List.filter_singleton, happlies]
            rfl
          · rw [hdropped, List.mem_append, List.mem_singleton]
            constructor
            · rintro (hold | hold)
              · exact Or.inl hold
              · exact Or.inr ⟨Or.inl hold.1, hold.2⟩
            · rintro (hold | ⟨hold | rfl, hfalse⟩)
              · exact Or.inl hold
              · exact Or.inr ⟨hold, hfalse⟩
              · rw [happlies] at hfalse
                cases hfalse

/-! ## The selection -/

def VolumeRow.slot (row : VolumeRow) : Bool × Text := (row.currentSession, row.driveLetter)

/-- The rows of one session and letter. -/
def slotRows (volumes : List VolumeRow) (identity : Bool × Text) : List VolumeRow :=
  volumes.filter fun row => row.currentSession == identity.1 && row.driveLetter == identity.2

theorem mem_slotRows {volumes : List VolumeRow} {identity : Bool × Text} {row : VolumeRow} :
    row ∈ slotRows volumes identity ↔ row ∈ volumes ∧ row.slot = identity := by
  rw [slotRows, List.mem_filter, Bool.and_eq_true, beq_iff_eq, beq_iff_eq, VolumeRow.slot,
    Prod.ext_iff]

/-- A row alone in its slot needs no lookup. -/
def Resolved (mounts : Text → Except WmiFailure (List Text)) (volumes : List VolumeRow)
    (identity : Bool × Text) : Prop :=
  (slotRows volumes identity).length = 1 ∨ Clear mounts (slotRows volumes identity)

instance (mounts : Text → Except WmiFailure (List Text)) (volumes : List VolumeRow)
    (identity : Bool × Text) : Decidable (Resolved mounts volumes identity) :=
  inferInstanceAs (Decidable (_ ∨ _))

def Selected (mounts : Text → Except WmiFailure (List Text)) (volumes : List VolumeRow)
    (row : VolumeRow) : Bool :=
  (slotRows volumes row.slot).length = 1 || applies mounts row ≠ some false

/-- What the loop over the slots has found out, with these slots to go. -/
structure Resolving (mounts : Text → Except WmiFailure (List Text)) (volumes : List VolumeRow)
    (identities rest : List (Bool × Text)) (state : MountCache × List VolumeRow) : Prop where
  sound : Sound mounts state.1
  split : ∃ done, identities = done ++ rest ∧ (∀ identity ∈ done, Resolved mounts volumes identity) ∧
    ∀ row, row ∈ state.2 ↔ row.slot ∈ done ∧ row ∈ volumes ∧ Selected mounts volumes row = false

theorem resolveIdentity_meets (hmounts : wmi.LooksUp mounts) {volumes : List VolumeRow}
    {identities rest : List (Bool × Text)} {identity : Bool × Text}
    {state : MountCache × List VolumeRow}
    (hstate : Resolving mounts volumes identities (identity :: rest) state) :
    (resolveIdentity wmi volumes state identity).Meets (Resolving mounts volumes identities rest)
      (∃ identity ∈ identities, ¬Resolved mounts volumes identity) := by
  obtain ⟨hsound, done, rfl, hdone, hdropped⟩ := hstate
  rw [resolveIdentity]
  change StatefulAction.Meets (if (slotRows volumes identity).length = 1 then _ else _) _ _
  have hresolved : Resolved mounts volumes identity →
      ∀ other ∈ done ++ [identity], Resolved mounts volumes other := fun hidentity other hother => by
    rcases List.mem_append.1 hother with hother | hother
    · exact hdone other hother
    · rw [List.mem_singleton.1 hother]
      exact hidentity
  split_ifs with halone
  · refine .pure ⟨hsound, done ++ [identity], List.append_cons _ _ _, hresolved (Or.inl halone),
      fun row => ?_⟩
    rw [hdropped, List.mem_append, List.mem_singleton]
    refine ⟨fun hrow => ⟨Or.inl hrow.1, hrow.2⟩, ?_⟩
    rintro ⟨hslot | rfl, hmem, hselected⟩
    · exact ⟨hslot, hmem, hselected⟩
    · rw [Selected, decide_eq_true halone, Bool.true_or] at hselected
      cases hselected
  · have hrows : ((slotRows volumes identity).foldlM (disambiguate wmi) ⟨state.1, state.2, none⟩).Meets
        (ToldApart mounts (slotRows volumes identity) state.2 [])
        (∃ other ∈ done ++ identity :: rest, ¬Resolved mounts volumes other) := by
      have hstart : ToldApart mounts (slotRows volumes identity) state.2 (slotRows volumes identity)
          ⟨state.1, state.2, none⟩ :=
        ⟨hsound, [], rfl, nofun, rfl, fun row => ⟨Or.inl, fun hrow => hrow.resolve_right nofun⟩⟩
      have hfold := @StatefulAction.Meets.foldlM _ _ _ _ (¬Clear mounts (slotRows volumes identity))
        (disambiguate wmi) (ToldApart mounts (slotRows volumes identity) state.2)
        (fun row rest value hvalue => disambiguate_meets hmounts hvalue) _ _ hstart
      intro start
      obtain ⟨hreturned, hfailed⟩ := hfold start
      refine ⟨hreturned, fun failure hfailure => ⟨identity, List.mem_append_right _
        List.mem_cons_self, fun hidentity => ?_⟩⟩
      exact hfailed failure hfailure (hidentity.resolve_left halone)
    refine .bind hrows fun result hresult => .pure ?_
    obtain ⟨hcache, told, hsplit, hknown, hfound, hmem⟩ := hresult
    rw [List.append_nil] at hsplit
    rw [← hsplit] at hknown hfound hmem
    have hclear : Clear mounts (slotRows volumes identity) := by
      refine ⟨hknown, ?_⟩
      rw [hfound]
      cases result.found with
      | none => exact Nat.zero_le 1
      | some row => exact Nat.le_refl 1
    refine ⟨hcache, done ++ [identity], List.append_cons _ _ _, hresolved (Or.inr hclear),
      fun row => ?_⟩
    rw [hmem, hdropped, List.mem_append, List.mem_singleton, mem_slotRows]
    have hselected : row.slot = identity →
        (Selected mounts volumes row = false ↔ applies mounts row = some false) := by
      rintro rfl
      rw [Selected, decide_eq_false halone, Bool.false_or, decide_eq_false_iff_not, not_not]
    constructor
    · rintro (⟨hslot, hrow, hdropped⟩ | ⟨⟨hrow, hslot⟩, hfalse⟩)
      · exact ⟨Or.inl hslot, hrow, hdropped⟩
      · exact ⟨Or.inr hslot, hrow, (hselected hslot).2 hfalse⟩
    · rintro ⟨hslot | hslot, hrow, hdropped⟩
      · exact Or.inl ⟨hslot, hrow, hdropped⟩
      · exact Or.inr ⟨⟨hrow, hslot⟩, (hselected hslot).1 hdropped⟩

/-- What `readVolumes` does once the provider has listed its rows. -/
def selectVolumes (wmi : WmiOperations W) (rows : List WmiRow) :
    StatefulAction WmiFailure W (List VolumeRow) := do
  let volumes ← .ofExcept (decodeVolumes rows)
  let identities := ((volumes.map fun row => (row.currentSession, row.driveLetter)).dedup).mergeSort
    identityLe
  let (_, dropped) ← identities.foldlM (resolveIdentity wmi volumes) ([], [])
  return volumes.filter fun row => !dropped.contains row

theorem readVolumes_eq (wmi : WmiOperations W) :
    readVolumes wmi =
      wmi.queryInstances "SELECT * FROM UWF_Volume".toList >>= selectVolumes wmi := rfl

/-- The rows that decode can all be told apart. -/
def Selectable (mounts : Text → Except WmiFailure (List Text)) (rows : List WmiRow) : Prop :=
  ∃ volumes, decodeVolumes rows = .ok volumes ∧
    ∀ row ∈ volumes, Resolved mounts volumes row.slot

theorem selectVolumes_meets (hmounts : wmi.LooksUp mounts) (rows : List WmiRow) :
    (selectVolumes wmi rows).Meets
      (fun managed => ∃ volumes, decodeVolumes rows = .ok volumes ∧
        (∀ row ∈ volumes, Resolved mounts volumes row.slot) ∧
        managed = volumes.filter (Selected mounts volumes))
      (¬Selectable mounts rows) := by
  rw [selectVolumes]
  cases hdecoded : decodeVolumes rows with
  | error failure =>
      intro state
      refine ⟨fun managed hmanaged => (by cases hmanaged), ?_⟩
      rintro error - ⟨volumes, hvolumes, -⟩
      rw [hdecoded] at hvolumes
      cases hvolumes
  | ok volumes =>
      set identities := ((volumes.map fun row =>
        (row.currentSession, row.driveLetter)).dedup).mergeSort identityLe with hidentities
      have hslots : ∀ identity, identity ∈ identities ↔ ∃ row ∈ volumes, row.slot = identity := by
        intro identity
        rw [hidentities, List.mem_mergeSort, List.mem_dedup, List.mem_map]
        rfl
      have hfold := @StatefulAction.Meets.foldlM _ _ _ _
        (∃ identity ∈ identities, ¬Resolved mounts volumes identity) (resolveIdentity wmi volumes)
        (Resolving mounts volumes identities)
        (fun identity rest value hvalue => resolveIdentity_meets hmounts hvalue) identities ([], [])
        ⟨nofun, [], rfl, nofun, fun row => ⟨nofun, fun hrow => nomatch hrow.1⟩⟩
      have hselected : (identities.foldlM (resolveIdentity wmi volumes) ([], [])).Meets
          (Resolving mounts volumes identities []) (¬Selectable mounts rows) := by
        intro state
        refine ⟨(hfold state).1, ?_⟩
        rintro failure hfailure ⟨others, hothers, hresolved⟩
        rw [hdecoded] at hothers
        cases hothers
        obtain ⟨identity, hidentity, hunresolved⟩ := (hfold state).2 failure hfailure
        obtain ⟨row, hrow, rfl⟩ := (hslots identity).1 hidentity
        exact hunresolved (hresolved row hrow)
      change StatefulAction.Meets (identities.foldlM (resolveIdentity wmi volumes) ([], []) >>= _) _ _
      refine .bind hselected fun result hresult => .pure ?_
      obtain ⟨-, done, hdone, hresolved, hdropped⟩ := hresult
      rw [List.append_nil] at hdone
      subst hdone
      refine ⟨volumes, rfl, fun row hrow => hresolved _ ((hslots _).2 ⟨row, hrow, rfl⟩), ?_⟩
      apply List.filter_congr
      intro row hrow
      have hmem : row ∈ result.2 ↔ Selected mounts volumes row = false :=
        (hdropped row).trans ⟨fun hdropped => hdropped.2.2,
          fun hselected => ⟨(hslots _).2 ⟨row, hrow, rfl⟩, hrow, hselected⟩⟩
      rw [Bool.eq_iff_iff, Bool.not_eq_true', ← Bool.not_eq_true, List.contains_iff_mem, hmem,
        Bool.not_eq_false]

/-! ## The order of the rows -/

theorem slotRows_perm {volumes volumes' : List VolumeRow} (hperm : volumes.Perm volumes')
    (identity : Bool × Text) : (slotRows volumes identity).Perm (slotRows volumes' identity) :=
  hperm.filter _

theorem Resolved.perm {volumes volumes' : List VolumeRow} (hperm : volumes.Perm volumes')
    {identity : Bool × Text} (hresolved : Resolved mounts volumes identity) :
    Resolved mounts volumes' identity := by
  have hslot := slotRows_perm hperm identity
  rcases hresolved with halone | ⟨hknown, hsingle⟩
  · exact Or.inl (hslot.length_eq ▸ halone)
  · exact Or.inr ⟨fun row hrow => hknown row (hslot.mem_iff.2 hrow),
      (hslot.filter _).length_eq ▸ hsingle⟩

theorem selected_perm {volumes volumes' : List VolumeRow} (hperm : volumes.Perm volumes')
    (row : VolumeRow) : Selected mounts volumes row = Selected mounts volumes' row := by
  rw [Selected, Selected, (slotRows_perm hperm row.slot).length_eq]

theorem Selectable.perm {rows rows' : List WmiRow} (hperm : rows.Perm rows')
    (hselectable : Selectable mounts rows) : Selectable mounts rows' := by
  obtain ⟨volumes, hvolumes, hresolved⟩ := hselectable
  obtain ⟨volumes', hvolumes', hperm'⟩ := decodeVolumes_perm hperm hvolumes
  exact ⟨volumes', hvolumes', fun row hrow =>
    (hresolved row (hperm'.mem_iff.2 hrow)).perm hperm'⟩

/-- No two selected rows are of one session and letter. -/
theorem selected_apart {volumes : List VolumeRow}
    (hresolved : ∀ row ∈ volumes, Resolved mounts volumes row.slot) :
    (volumes.filter (Selected mounts volumes)).Pairwise fun first second =>
      first.slot ≠ second.slot := by
  rw [List.pairwise_iff_forall_sublist]
  intro first second hsublist hslot
  have hfirst : first ∈ volumes :=
    (List.mem_filter.1 (hsublist.subset List.mem_cons_self)).1
  have hselected : ∀ row ∈ [first, second], Selected mounts volumes row = true := fun row hrow =>
    (List.mem_filter.1 (hsublist.subset hrow)).2
  have hpair : [first, second].Sublist (slotRows volumes first.slot) := by
    have hkept := (hsublist.trans List.filter_sublist).filter fun row =>
      row.currentSession == first.slot.1 && row.driveLetter == first.slot.2
    rwa [List.filter_eq_self.2] at hkept
    intro row hrow
    have hsame : row.slot = first.slot := by
      rcases List.mem_pair.1 hrow with rfl | rfl
      · rfl
      · exact hslot.symm
    rw [← hsame, VolumeRow.slot, beq_self_eq_true, beq_self_eq_true, Bool.true_and]
  have hlength : 2 ≤ (slotRows volumes first.slot).length := hpair.length_le
  have halone : (slotRows volumes first.slot).length ≠ 1 := by omega
  obtain ⟨hknown, hsingle⟩ := (hresolved first hfirst).resolve_left halone
  have happly : ∀ row ∈ [first, second], applies mounts row = some true := by
    intro row hrow
    have hsame : row.slot = first.slot := by
      rcases List.mem_pair.1 hrow with rfl | rfl
      · rfl
      · exact hslot.symm
    have hrow' := hselected row hrow
    rw [Selected, hsame, decide_eq_false halone, Bool.false_or, decide_eq_true_eq] at hrow'
    cases hvalue : applies mounts row with
    | none => exact absurd hvalue (hknown row (hpair.subset hrow))
    | some holds =>
        cases holds with
        | true => rfl
        | false => exact absurd hvalue hrow'
  have htwo := (hpair.filter (applies mounts · = some true)).length_le
  rw [List.filter_eq_self.2 fun row hrow => decide_eq_true (happly row hrow)] at htwo
  exact absurd (htwo.trans hsingle) (Nat.not_succ_le_self 1)

/-- The reading fails, or its rows are of different sessions or letters and keep every row
that is alone in its slot; another order of the rows gives the same rows, or fails too. -/
theorem readVolumes_order_independent (hmounts : wmi.LooksUp mounts) {rows rows' : List WmiRow}
    (hperm : rows.Perm rows') {state between state' between' : W}
    (hrows : wmi.queryInstances "SELECT * FROM UWF_Volume".toList state = (.ok rows, between))
    (hrows' : wmi.queryInstances "SELECT * FROM UWF_Volume".toList state' = (.ok rows', between')) :
    (∀ managed, (readVolumes wmi state).1 = .ok managed →
      (managed.Pairwise fun first second => ¬(first.currentSession = second.currentSession ∧
        first.driveLetter = second.driveLetter)) ∧
      (∀ volumes, decodeVolumes rows = .ok volumes →
        managed ⊆ volumes ∧
        ∀ row, volumes.filter (fun other => other.currentSession == row.currentSession &&
          other.driveLetter == row.driveLetter) = [row] → row ∈ managed) ∧
      ∃ managed', (readVolumes wmi state').1 = .ok managed' ∧ managed.Perm managed') ∧
    ∀ error, (readVolumes wmi state).1 = .error error →
      ∃ error', (readVolumes wmi state').1 = .error error' := by
  rw [readVolumes_eq, StatefulAction.bind_of_ok hrows, StatefulAction.bind_of_ok hrows']
  obtain ⟨hreturned, hfailed⟩ := selectVolumes_meets hmounts rows between
  obtain ⟨hreturned', hfailed'⟩ := selectVolumes_meets hmounts rows' between'
  refine ⟨fun managed hmanaged => ?_, fun error herror => ?_⟩
  · obtain ⟨volumes, hvolumes, hresolved, rfl⟩ := hreturned managed hmanaged
    refine ⟨(selected_apart hresolved).imp fun hslot hsame => hslot (Prod.ext hsame.1 hsame.2),
      fun others hothers => ?_, ?_⟩
    · rw [hvolumes] at hothers
      cases hothers
      refine ⟨List.filter_sublist.subset, fun row hrow => ?_⟩
      have hmem : row ∈ volumes := (List.mem_filter.1 (hrow ▸ List.mem_cons_self)).1
      refine List.mem_filter.2 ⟨hmem, ?_⟩
      have hslot : slotRows volumes row.slot = [row] := hrow
      rw [Selected, hslot]
      rfl
    · cases hother : (selectVolumes wmi rows' between').1 with
      | error error =>
          exact absurd (Selectable.perm hperm ⟨volumes, hvolumes, hresolved⟩)
            (hfailed' error hother)
      | ok managed' =>
          obtain ⟨volumes', hvolumes', -, rfl⟩ := hreturned' managed' hother
          obtain ⟨others, hothers, hperm'⟩ := decodeVolumes_perm hperm hvolumes
          rw [hvolumes'] at hothers
          cases hothers
          refine ⟨_, rfl, (hperm'.filter _).trans ?_⟩
          rw [List.filter_congr fun row _ => selected_perm hperm' row]
  · cases hother : (selectVolumes wmi rows' between').1 with
    | error error' => exact ⟨error', rfl⟩
    | ok managed' =>
        obtain ⟨volumes', hvolumes', hresolved', -⟩ := hreturned' managed' hother
        exact absurd (Selectable.perm hperm.symm ⟨volumes', hvolumes', hresolved'⟩)
          (hfailed error herror)

/-! ## Two volumes that claim one letter -/

namespace SharedLetter

def row (currentSession : Bool) (driveLetter volumeName : String) : WmiRow :=
  [("__PATH".toList, .string volumeName.toList), ("CurrentSession".toList, .bool currentSession),
    ("VolumeName".toList, .string volumeName.toList),
    ("DriveLetter".toList, .string driveLetter.toList), ("BindByDriveLetter".toList, .bool false),
    ("CommitPending".toList, .bool false), ("Protected".toList, .bool true)]

def rows : List WmiRow :=
  [row true "C:" "Volume{a}", row false "D:" "Volume{b}", row true "C:" "Volume{c}"]

def mountedAt (volume : Text) : Except WmiFailure (List Text) :=
  .ok (if volume = mountPath "VOLUME{C}".toList then ["C:".toList] else [])

/-- The state tells in which order the rows are listed. -/
def provider : WmiOperations Bool where
  ensureConnected := pure ()
  queryInstances _ state := (.ok (if state then rows else rows.reverse), state)
  mountedLetters volume state := (mountedAt (toUpperAscii volume), state)
  getObject _ := .fail .other
  callMethodRead _ _ _ := .fail .other
  invokeMethod _ _ _ := .fail .other
  putInstance _ _ _ := pure ()

theorem looksUp : provider.LooksUp mountedAt := fun _ _ => rfl

def volumes : List VolumeRow := (decodeVolumes rows).toOption.getD []

theorem selectable : Selectable mountedAt rows :=
  ⟨volumes, by decide +kernel, by decide +kernel⟩

/-- The rows of two volumes at one letter, listed in two orders. -/
theorem readVolumes_order_independent_shared :
    ∃ managed managed', (readVolumes provider true).1 = .ok managed ∧
      (readVolumes provider false).1 = .ok managed' ∧ managed.Perm managed' := by
  have hindependent := readVolumes_order_independent looksUp (List.reverse_perm rows).symm
    (rfl : provider.queryInstances "SELECT * FROM UWF_Volume".toList true = (.ok rows, true))
    (rfl : provider.queryInstances "SELECT * FROM UWF_Volume".toList false =
      (.ok rows.reverse, false))
  cases hread : (readVolumes provider true).1 with
  | error failure =>
      exact absurd selectable ((selectVolumes_meets looksUp rows true).2 failure hread)
  | ok managed =>
      obtain ⟨-, -, managed', hmanaged', hperm⟩ := hindependent.1 managed hread
      exact ⟨managed, managed', rfl, hmanaged', hperm⟩

end SharedLetter

end UwfManager
