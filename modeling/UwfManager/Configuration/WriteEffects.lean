import UwfManager.Configuration.ApplyRule
import UwfManager.Uwf.UwfProvider

/-!
# What an apply tells of its effects

A call of the session changes the configuration only when it writes, and it
either returns or throws that its outcome is uncertain.  On the way to the
journal the exception of a write passes its verification, the classes of the
provider and the handlers of the apply; none of them may lose the effect.
-/

namespace UwfManager

variable {W C : Type*} {wmi : WmiOperations W} {view : W → C}

/-! ## Reads change nothing -/

open StatefulAction in
theorem keeps_requirePath (path : Text) (operation className : String) :
    (requirePath path operation className : StatefulAction WmiThrown W Unit).Keeps view := by
  rw [requirePath]
  split_ifs
  · exact Keeps.fail _
  · exact Keeps.pure _

open StatefulAction in
theorem keeps_normalizeVolumePath (row : VolumeRow) (fileName : Text) :
    (normalizeVolumePath row fileName : StatefulAction WmiThrown W Text).Keeps view := by
  rw [normalizeVolumePath]
  split_ifs
  · exact Keeps.pure _
  · exact Keeps.fail _
  · exact Keeps.pure _

namespace WmiOperations.ChangesInWrites

open StatefulAction

variable (hchanges : wmi.ChangesInWrites view)
include hchanges

theorem keeps_readSingle {Row : Type} (className : String)
    (decode : WmiRow → Except WmiFailure Row) :
    (readSingle wmi className decode).Keeps view := by
  refine (hchanges.queryInstances _).bind fun rows => ?_
  split
  · exact Keeps.ofExcept _
  · exact Keeps.fail _

theorem keeps_readSession {Row : Type} (className : String)
    (decode : WmiRow → Except WmiFailure Row) (currentSession : Row → Bool) (session : Session) :
    (readSession wmi className decode currentSession session).Keeps view := by
  refine (hchanges.queryInstances _).bind fun rows => (Keeps.ofExcept _).bind fun decoded => ?_
  dsimp only
  split
  · exact Keeps.pure _
  · exact Keeps.fail _

theorem keeps_mountedAtDrive (cache : MountCache) (row : VolumeRow) :
    (mountedAtDrive wmi cache row).Keeps view := by
  rw [mountedAtDrive]
  split
  · exact Keeps.pure _
  · exact (hchanges.mountedLetters _).bind fun letters => Keeps.pure _

theorem keeps_rowApplies (cache : MountCache) (row : VolumeRow) :
    (rowApplies wmi cache row).Keeps view := by
  rw [rowApplies]
  split_ifs
  · exact Keeps.pure _
  · exact hchanges.keeps_mountedAtDrive _ _

theorem keeps_disambiguate (state : Disambiguation) (row : VolumeRow) :
    (disambiguate wmi state row).Keeps view := by
  refine (hchanges.keeps_rowApplies _ _).bind fun result => ?_
  dsimp only
  split_ifs
  · exact Keeps.pure _
  · split
    · exact Keeps.fail _
    · exact Keeps.pure _

theorem keeps_resolveIdentity (volumes : List VolumeRow) (state : MountCache × List VolumeRow)
    (identity : Bool × Text) : (resolveIdentity wmi volumes state identity).Keeps view := by
  rw [resolveIdentity]
  split_ifs
  · exact Keeps.pure _
  · exact (Keeps.foldlM hchanges.keeps_disambiguate _ _).bind fun _ => Keeps.pure _

theorem keeps_readVolumes : (readVolumes wmi).Keeps view := by
  refine (hchanges.queryInstances _).bind fun rows => (Keeps.ofExcept _).bind fun volumes => ?_
  refine (Keeps.foldlM (hchanges.keeps_resolveIdentity volumes) _ _).bind fun _ => ?_
  exact Keeps.pure _

/-- Every request but the registration of a volume only reads. -/
theorem keeps_uwfRequest (request : ProviderRequest)
    (hrequest : ∀ driveLetter, request ≠ .ensureNextSessionEntry driveLetter) :
    (uwfRequest wmi request).Keeps view := by
  cases request with
  | ensureConnected => exact hchanges.ensureConnected
  | readFilter => exact hchanges.keeps_readSingle _ _
  | readOverlay => exact hchanges.keeps_readSingle _ _
  | readOverlayConfig session => exact hchanges.keeps_readSession _ _ _ session
  | readVolumes => exact hchanges.keeps_readVolumes
  | ensureNextSessionEntry driveLetter => exact absurd rfl (hrequest driveLetter)
  | readRegistryFilter session => exact hchanges.keeps_readSession _ _ _ session

end WmiOperations.ChangesInWrites

/-! ## The errors of writes -/

/-- The call returned, or threw that its outcome is uncertain. -/
def Invoked (result : Except WmiThrown Unit) : Prop :=
  result = .ok () ∨ ∃ what, result = .error (.failure (.wmi .invocationUncertain what))

/-- The exception tells the journal of an uncertain effect. -/
def WmiThrown.TellsUncertain (thrown : WmiThrown) : Prop :=
  ∃ error, thrown.thrown = .standard error ∧ error.writeEffect = some .uncertain

theorem stateVerificationError_tells (operation detail : Text) :
    (stateVerificationError operation detail).TellsUncertain := ⟨_, rfl, rfl⟩

/-- No exception of the session claims a confirmed write. -/
theorem WmiFailure.error_writeEffect (failure : WmiFailure) :
    failure.error.writeEffect ≠ some .confirmed := by
  cases failure with
  | wmi kind what => cases kind <;> simp [WmiFailure.error, WmiExceptionKind.writeEffect]
  | standard what => simp [WmiFailure.error]

theorem WmiThrown.thrown_writeEffect (thrown : WmiThrown) {error : StandardError}
    (herror : thrown.thrown = .standard error) : error.writeEffect ≠ some .confirmed := by
  cases thrown with
  | failure failure =>
      obtain rfl : failure.error = error := Thrown.standard.inj herror
      exact failure.error_writeEffect
  | other => exact absurd herror (by simp [WmiThrown.thrown])

section Verification

variable {operation : Text} {invoke : StatefulAction WmiThrown W Unit}
  {observe : StatefulAction WmiThrown W Bool} {state : W}

theorem confirmWrite_ok {uncertainInvocation : Option Text}
    (hok : (confirmWrite operation uncertainInvocation observe state).1 = .ok ()) :
    (observe state).1 = .ok true := by
  revert hok
  simp only [confirmWrite]
  rcases observe state with ⟨(_ | _) | (_ | _), after⟩
  · exact nofun
  · exact nofun
  · exact nofun
  · exact fun _ => rfl

theorem confirmWrite_error {uncertainInvocation : Option Text} {thrown : WmiThrown}
    (herror : (confirmWrite operation uncertainInvocation observe state).1 = .error thrown) :
    thrown.TellsUncertain := by
  revert herror
  simp only [confirmWrite]
  rcases observe state with ⟨(_ | _) | (_ | _), after⟩
  · exact fun herror => Except.error.inj herror ▸ stateVerificationError_tells _ _
  · exact fun herror => Except.error.inj herror ▸ stateVerificationError_tells _ _
  · exact fun herror => Except.error.inj herror ▸ stateVerificationError_tells _ _
  · exact fun herror => absurd herror (by simp)

/-- A verified write that returns was called, and a reread has confirmed it. -/
theorem invokeAndConfirm_ok (hok : (invokeAndConfirm operation invoke observe state).1 = .ok ()) :
    Invoked (invoke state).1 ∧ (observe (invoke state).2).1 = .ok true := by
  revert hok
  rw [invokeAndConfirm]
  split
  · next after hinvoke =>
      rw [hinvoke]
      exact fun hok => ⟨Or.inl rfl, confirmWrite_ok hok⟩
  · next what after hinvoke =>
      rw [hinvoke]
      exact fun hok => ⟨Or.inr ⟨what, rfl⟩, confirmWrite_ok hok⟩
  · exact fun hok => absurd hok (by simp)

/-- A verified write that throws after a change tells of it. -/
theorem invokeAndConfirm_error {thrown : WmiThrown}
    (hinvoke : ∀ state thrown, (invoke state).1 = .error thrown →
      (∀ what, thrown ≠ .failure (.wmi .invocationUncertain what)) →
      view (invoke state).2 = view state)
    (herror : (invokeAndConfirm operation invoke observe state).1 = .error thrown)
    (hchanged : view (invokeAndConfirm operation invoke observe state).2 ≠ view state) :
    thrown.TellsUncertain := by
  revert herror hchanged
  rw [invokeAndConfirm]
  split
  · exact fun herror _ => confirmWrite_error herror
  · exact fun herror _ => confirmWrite_error herror
  · next refused after hrefused hresult =>
      intro _ hchanged
      have hkept := hinvoke state refused (by rw [hresult]) hrefused
      rw [hresult] at hkept
      exact absurd hkept hchanged

end Verification

namespace VerifiedWrite

/-- The call was made and a later reread has confirmed the write. -/
def Confirmed (write : VerifiedWrite W) (state : W) : Prop :=
  ∃ prepared, (write.prepare state).1 = .ok prepared ∧ Invoked (write.invoke prepared state).1 ∧
    (write.observe prepared (write.invoke prepared state).2).1 = .ok true

/-- The preparation changes nothing, and the call only as far as it tells. -/
structure Tells (write : VerifiedWrite W) (view : W → C) : Prop where
  prepare : ∀ state, (write.prepare state).2 = state
  invoke : ∀ prepared state thrown, (write.invoke prepared state).1 = .error thrown →
    (∀ what, thrown ≠ .failure (.wmi .invocationUncertain what)) →
    view (write.invoke prepared state).2 = view state

variable {write : VerifiedWrite W} {state : W}

/-- A write either fails before its call, in the same state, or is called and confirmed. -/
theorem perform_cases (htells : write.Tells view) (state : W) :
    (∃ thrown, write.perform state = (.error thrown, state)) ∨
      ∃ prepared, (write.prepare state).1 = .ok prepared ∧ write.perform state =
        invokeAndConfirm write.operation.toList (write.invoke prepared) (write.observe prepared)
          state := by
  have hpath : ∀ state : W, (requirePath write.path write.operation write.className state).2 =
      state := fun state => @keeps_requirePath W W id _ _ _ state
  have hpathState := hpath state
  have hprepare := htells.prepare state
  change (∃ thrown, StatefulAction.bind _ _ state = (.error thrown, state)) ∨
    ∃ prepared, _ ∧ StatefulAction.bind _ _ state = _
  simp only [StatefulAction.bind]
  revert hpathState
  rcases requirePath write.path write.operation write.className state with ⟨refused | _, after⟩
  · exact fun hpathState => Or.inl ⟨refused, by rw [show after = state from hpathState]⟩
  · intro hpathState
    obtain rfl : after = state := hpathState
    change (∃ thrown, StatefulAction.bind _ _ after = (.error thrown, after)) ∨
      ∃ prepared, _ ∧ StatefulAction.bind _ _ after = _
    simp only [StatefulAction.bind]
    revert hprepare
    rcases write.prepare after with ⟨refused | prepared, prepareState⟩
    · exact fun hprepare => Or.inl ⟨refused, by rw [show prepareState = after from hprepare]⟩
    · intro hprepare
      obtain rfl : prepareState = after := hprepare
      exact Or.inr ⟨prepared, rfl, rfl⟩

theorem perform_ok (htells : write.Tells view) (hok : (write.perform state).1 = .ok ()) :
    write.Confirmed state := by
  rcases perform_cases htells state with ⟨thrown, hperform⟩ | ⟨prepared, hprepare, hperform⟩
  · rw [hperform] at hok
    exact absurd hok (by simp)
  · rw [hperform] at hok
    exact ⟨prepared, hprepare, invokeAndConfirm_ok hok⟩

theorem perform_error (htells : write.Tells view) {thrown : WmiThrown}
    (herror : (write.perform state).1 = .error thrown)
    (hchanged : view (write.perform state).2 ≠ view state) : thrown.TellsUncertain := by
  rcases perform_cases htells state with ⟨refused, hperform⟩ | ⟨prepared, _, hperform⟩
  · rw [hperform] at hchanged
    exact absurd rfl hchanged
  · rw [hperform] at herror hchanged
    exact invokeAndConfirm_error (htells.invoke prepared) herror hchanged

end VerifiedWrite

/-- Every write of the provider tells of its change. -/
theorem verifiedWrite_tells (hchanges : wmi.ChangesInWrites view) (write : ProviderWrite) :
    (verifiedWrite wmi write).Tells view := by
  have hmethod : ∀ (path method : Text) (inputs : WmiRow) (state : W) (thrown : WmiThrown),
      (wmi.invokeMethod path method inputs state).1 = .error thrown →
      (∀ what, thrown ≠ .failure (.wmi .invocationUncertain what)) →
      view (wmi.invokeMethod path method inputs state).2 = view state := hchanges.invokeMethod
  cases write with
  | addFileExclusion row fileName =>
      exact ⟨@keeps_normalizeVolumePath W W id row fileName,
        fun normalized => hmethod row.path _ (fileInput normalized)⟩
  | removeFileExclusion row fileName =>
      exact ⟨@keeps_normalizeVolumePath W W id row fileName,
        fun normalized => hmethod row.path _ (fileInput normalized)⟩
  | setPersistence row persistence =>
      refine ⟨fun _ => rfl, fun _ state thrown herror hcertain => ?_⟩
      have hput := hchanges.putInstance "UWF_RegistryFilter".toList
        [("CurrentSession".toList, .bool row.currentSession),
          ("PersistDomainSecretKey".toList, .bool persistence.domainSecretKey),
          ("PersistTSCAL".toList, .bool persistence.terminalServicesClientAccessLicense)]
        .updateOnly state
      revert herror hput
      simp only [verifiedWrite, StatefulAction.mapError]
      rcases wmi.putInstance _ _ _ _ with ⟨failure | _, after⟩
      · intro herror hput
        refine hput failure rfl fun what heq => hcertain what ?_
        rw [← Except.error.inj herror, heq]
      · exact fun herror => absurd herror (by simp)
  | _ => exact ⟨fun _ => rfl, fun _ => hmethod _ _ _⟩

/-! ## Registering a volume -/

section Registration

variable (wmi) {current : VolumeRow} {normalizedDrive : Text} {state : W}

/-- The instance was put, and a later reread has found it. -/
def RegistrationConfirmed (driveLetter : Text) (state : W) : Prop :=
  ∃ current row,
    let called := (readVolumes wmi state).2
    let put := wmi.putInstance "UWF_Volume".toList
      (nextSessionProperties current (Drive.normalize driveLetter)) .createOnly called
    (put.1 = .ok () ∨ ∃ what, put.1 = .error (.wmi .invocationUncertain what)) ∧
    (reread wmi (nextSessionPath current (Drive.normalize driveLetter)) decodeManagedVolume
      put.2).1 = .ok (some row) ∧
    isNextSessionEntry current (Drive.normalize driveLetter) row = true

theorem confirmRegistration_ok {outcome : VolumeRegistrationDisposition} {uncertainFailure : Text}
    {registration : VolumeRegistration}
    (hok : (confirmRegistration wmi current normalizedDrive outcome uncertainFailure state).1 =
      .ok registration) :
    registration.disposition = outcome ∧
      ∃ row, (reread wmi (nextSessionPath current normalizedDrive) decodeManagedVolume state).1 =
          .ok (some row) ∧
        isNextSessionEntry current normalizedDrive row = true := by
  revert hok
  simp only [confirmRegistration]
  rcases reread wmi (nextSessionPath current normalizedDrive) decodeManagedVolume state with
    ⟨(_ | _) | observed, after⟩
  · exact fun hok => (by cases hok)
  · exact fun hok => (by cases hok)
  · dsimp only
    cases hrequested : observed.filter (isNextSessionEntry current normalizedDrive) with
    | none => exact fun hok => (by cases hok)
    | some row =>
        intro hok
        obtain rfl := Except.ok.inj hok
        obtain ⟨hobserved, hentry⟩ := Option.filter_eq_some_iff.1 hrequested
        exact ⟨rfl, row, by rw [hobserved], hentry⟩

theorem confirmRegistration_error {outcome : VolumeRegistrationDisposition}
    {uncertainFailure : Text} {failure : WmiFailure}
    (herror : (confirmRegistration wmi current normalizedDrive outcome uncertainFailure state).1 =
      .error failure) : failure.error.writeEffect = some .uncertain := by
  revert herror
  simp only [confirmRegistration]
  rcases reread wmi (nextSessionPath current normalizedDrive) decodeManagedVolume state with
    ⟨(_ | _) | observed, after⟩
  · exact fun herror => Except.error.inj herror ▸ rfl
  · exact fun herror => Except.error.inj herror ▸ rfl
  · dsimp only
    cases observed.filter (isNextSessionEntry current normalizedDrive) with
    | none => exact fun herror => Except.error.inj herror ▸ rfl
    | some row => exact fun herror => (by cases herror)

/-- A registration that reports a write was put and found again. -/
theorem createNextSessionEntry_ok {registration : VolumeRegistration}
    (hok : (createNextSessionEntry wmi current normalizedDrive state).1 = .ok registration)
    (hwritten : registration.disposition = .created ∨
      registration.disposition = .confirmedAfterUncertainWrite) :
    let put := wmi.putInstance "UWF_Volume".toList
      (nextSessionProperties current normalizedDrive) .createOnly state
    (put.1 = .ok () ∨ ∃ what, put.1 = .error (.wmi .invocationUncertain what)) ∧
      ∃ row, (reread wmi (nextSessionPath current normalizedDrive) decodeManagedVolume put.2).1 =
          .ok (some row) ∧
        isNextSessionEntry current normalizedDrive row = true := by
  revert hok
  simp only [createNextSessionEntry]
  split
  · next after hput =>
      rw [hput]
      exact fun hok => ⟨Or.inl rfl, (confirmRegistration_ok wmi hok).2⟩
  · next what after hput =>
      rw [hput]
      exact fun hok => ⟨Or.inr ⟨what, rfl⟩, (confirmRegistration_ok wmi hok).2⟩
  · split_ifs
    · intro hok
      rw [(confirmRegistration_ok wmi hok).1] at hwritten
      exact absurd hwritten (by simp)
    · exact fun hok => (by cases hok)
  · exact fun hok => (by cases hok)

theorem createNextSessionEntry_error (hchanges : wmi.ChangesInWrites view) {failure : WmiFailure}
    (herror : (createNextSessionEntry wmi current normalizedDrive state).1 = .error failure)
    (hchanged : view (createNextSessionEntry wmi current normalizedDrive state).2 ≠ view state) :
    failure.error.writeEffect = some .uncertain := by
  have hput := hchanges.putInstance "UWF_Volume".toList
    (nextSessionProperties current normalizedDrive) .createOnly state
  revert herror hchanged
  simp only [createNextSessionEntry]
  split
  · exact fun herror _ => confirmRegistration_error wmi herror
  · exact fun herror _ => confirmRegistration_error wmi herror
  · next hresult =>
      split_ifs
      · exact fun herror _ => confirmRegistration_error wmi herror
      · rw [hresult] at hput
        exact fun _ hchanged => absurd (hput _ rfl (fun _ => by simp)) hchanged
  · next refused after hrefused _ hresult =>
      rw [hresult] at hput
      exact fun _ hchanged => absurd (hput _ rfl hrefused) hchanged

end Registration

/-- A registration that puts no instance changes nothing and reports no write. -/
theorem ensureNextSessionEntry_cases (hchanges : wmi.ChangesInWrites view) (driveLetter : Text)
    (state : W) :
    (view (ensureNextSessionEntry wmi driveLetter state).2 = view state ∧
      ∀ registration, (ensureNextSessionEntry wmi driveLetter state).1 = .ok registration →
        registration.disposition = .alreadyPresent) ∨
      ∃ current, ensureNextSessionEntry wmi driveLetter state =
        createNextSessionEntry wmi current (Drive.normalize driveLetter)
          (readVolumes wmi state).2 := by
  have hread := hchanges.keeps_readVolumes state
  rw [ensureNextSessionEntry]
  split_ifs
  · exact Or.inl ⟨rfl, fun _ hok => (by cases hok)⟩
  · change (view (StatefulAction.bind _ _ state).2 = _ ∧ ∀ registration,
      (StatefulAction.bind _ _ state).1 = _ → _) ∨ ∃ current, StatefulAction.bind _ _ state = _
    simp only [StatefulAction.bind]
    revert hread
    rcases readVolumes wmi state with ⟨failure | volumes, after⟩
    · exact fun hread => Or.inl ⟨hread, fun _ hok => (by cases hok)⟩
    · intro hread
      dsimp only
      cases findVolume volumes false (Drive.normalize driveLetter) with
      | some existing =>
          refine Or.inl ⟨hread, fun registration hok => ?_⟩
          obtain rfl := Except.ok.inj hok
          rfl
      | none =>
          dsimp only
          cases findVolume volumes true (Drive.normalize driveLetter) with
          | none => exact Or.inl ⟨hread, fun _ hok => (by cases hok)⟩
          | some current => exact Or.inr ⟨current, rfl⟩

/-! ## The provider of an apply -/

/-- The calls of a provider, as the journal sees them. -/
inductive ProviderCall where
  | request (request : ProviderRequest)
  | write (write : ProviderWrite)

/-- The same provider, which keeps a log of its calls and their states. -/
def ProviderOperations.logged {P : Type*} (ops : ProviderOperations P) :
    ProviderOperations (P × List (ProviderCall × P)) where
  request request state :=
    let result := ops.request request state.1
    (result.1, result.2, state.2 ++ [(.request request, state.1)])
  write write state :=
    let result := ops.write write state.1
    (result.1, result.2, state.2 ++ [(.write write, state.1)])

/-- A logged call that wrote: the write was called, and a later reread has confirmed it. -/
def CallConfirmed (wmi : WmiOperations W) : ProviderCall × W → Prop
  | (.write write, state) => (verifiedWrite wmi write).Confirmed state
  | (.request (.ensureNextSessionEntry driveLetter), state) =>
      RegistrationConfirmed wmi driveLetter state
  | _ => False

/-- What the journal relies on: a change is told of by the result of its call,
and what claims a confirmed write has evidence of one. -/
structure TellsEffects {P : Type*} (ops : ProviderOperations P) (view : P → C)
    (evidence : P → Prop) : Prop where
  read : ∀ request provider, (∀ driveLetter, request ≠ .ensureNextSessionEntry driveLetter) →
    view (ops.request request provider).2 = view provider
  failed : ∀ request provider error, (ops.request request provider).1 = .error error →
    error.writeEffect ≠ some .confirmed ∧
      (view (ops.request request provider).2 ≠ view provider →
        error.writeEffect = some .uncertain)
  registered : ∀ driveLetter provider registration,
    (ops.request (.ensureNextSessionEntry driveLetter) provider).1 = .ok registration →
    registration.disposition = .created ∨
      registration.disposition = .confirmedAfterUncertainWrite →
    evidence (ops.request (.ensureNextSessionEntry driveLetter) provider).2
  wrote : ∀ write provider, (ops.write write provider).1 = .ok () →
    evidence (ops.write write provider).2
  refused : ∀ write provider thrown, (ops.write write provider).1 = .error thrown →
    (∀ error, thrown = .standard error → error.writeEffect ≠ some .confirmed) ∧
      (view (ops.write write provider).2 ≠ view provider →
        ∃ error, thrown = .standard error ∧ error.writeEffect = some .uncertain)
  keptByRequest : ∀ request provider, evidence provider →
    evidence (ops.request request provider).2
  keptByWrite : ∀ write provider, evidence provider → evidence (ops.write write provider).2

theorem uwfRequest_error (hchanges : wmi.ChangesInWrites view) {request : ProviderRequest}
    {state : W} {failure : WmiFailure} (herror : (uwfRequest wmi request state).1 = .error failure)
    (hchanged : view (uwfRequest wmi request state).2 ≠ view state) :
    failure.error.writeEffect = some .uncertain := by
  by_cases hrequest : ∀ driveLetter, request ≠ .ensureNextSessionEntry driveLetter
  · exact absurd (hchanges.keeps_uwfRequest request hrequest state) hchanged
  · push Not at hrequest
    obtain ⟨driveLetter, rfl⟩ := hrequest
    rcases ensureNextSessionEntry_cases hchanges driveLetter state with
      ⟨hkept, _⟩ | ⟨current, hcreate⟩
    · exact absurd hkept hchanged
    · have hread := hchanges.keeps_readVolumes state
      change (ensureNextSessionEntry wmi driveLetter state).1 = _ at herror
      change view (ensureNextSessionEntry wmi driveLetter state).2 ≠ _ at hchanged
      rw [hcreate] at herror hchanged
      rw [← hread] at hchanged
      exact createNextSessionEntry_error wmi hchanges herror hchanged

theorem ensureNextSessionEntry_confirmed (hchanges : wmi.ChangesInWrites view)
    {driveLetter : Text} {state : W} {registration : VolumeRegistration}
    (hok : (ensureNextSessionEntry wmi driveLetter state).1 = .ok registration)
    (hwritten : registration.disposition = .created ∨
      registration.disposition = .confirmedAfterUncertainWrite) :
    RegistrationConfirmed wmi driveLetter state := by
  rcases ensureNextSessionEntry_cases hchanges driveLetter state with
    ⟨_, hpresent⟩ | ⟨current, hcreate⟩
  · rw [hpresent registration hok] at hwritten
    exact absurd hwritten (by simp)
  · rw [hcreate] at hok
    obtain ⟨hput, row, hfound⟩ := createNextSessionEntry_ok wmi hok hwritten
    exact ⟨current, row, hput, hfound⟩

/-- The provider over WMI, with its log as the evidence. -/
theorem uwfProvider_tellsEffects (hchanges : wmi.ChangesInWrites view) :
    TellsEffects (uwfProvider wmi).logged (fun state => view state.1)
      (fun state => ∃ call ∈ state.2, CallConfirmed wmi call) where
  read request provider hrequest := by
    have hkeeps := hchanges.keeps_uwfRequest request hrequest provider.1
    rwa [← StatefulAction.mapError_state WmiFailure.error] at hkeeps
  failed request provider error herror := by
    obtain ⟨failure, hfailure, rfl⟩ :=
      (StatefulAction.mapError_error_iff WmiFailure.error (uwfRequest wmi request) provider.1).1
        herror
    refine ⟨failure.error_writeEffect, fun hchanged => ?_⟩
    exact uwfRequest_error hchanges hfailure fun hkept =>
      hchanged ((congrArg view (StatefulAction.mapError_state _ _ _)).trans hkept)
  registered driveLetter provider registration hok hwritten := by
    refine ⟨_, List.mem_append_right _ List.mem_cons_self, ?_⟩
    exact ensureNextSessionEntry_confirmed hchanges
      ((StatefulAction.mapError_ok_iff WmiFailure.error (ensureNextSessionEntry wmi driveLetter)
        provider.1).1 hok) hwritten
  wrote write provider hok := by
    refine ⟨_, List.mem_append_right _ List.mem_cons_self, ?_⟩
    exact VerifiedWrite.perform_ok (verifiedWrite_tells hchanges write)
      ((StatefulAction.mapError_ok_iff WmiThrown.thrown (verifiedWrite wmi write).perform
        provider.1).1 hok)
  refused write provider thrown herror := by
    obtain ⟨cause, hcause, rfl⟩ :=
      (StatefulAction.mapError_error_iff WmiThrown.thrown (verifiedWrite wmi write).perform
        provider.1).1 herror
    refine ⟨fun error => cause.thrown_writeEffect, fun hchanged => ?_⟩
    exact VerifiedWrite.perform_error (verifiedWrite_tells hchanges write) hcause fun hkept =>
      hchanged ((congrArg view (StatefulAction.mapError_state _ _ _)).trans hkept)
  keptByRequest request provider hevidence := by
    obtain ⟨call, hcall, hconfirmed⟩ := hevidence
    exact ⟨call, List.mem_append_left _ hcall, hconfirmed⟩
  keptByWrite write provider hevidence := by
    obtain ⟨call, hcall, hconfirmed⟩ := hevidence
    exact ⟨call, List.mem_append_left _ hcall, hconfirmed⟩

/-! ## The journal -/

/-- Between the two moments, a change was told to the journal, and what it
newly calls confirmed has evidence. -/
structure Tells {P : Type*} (view : P → C) (evidence : P → Prop) (before after : Execution P) :
    Prop where
  changed : view after.provider ≠ view before.provider →
    after.journal.reconciliationRequired = true
  reconciled : before.journal.reconciliationRequired = true →
    after.journal.reconciliationRequired = true
  confirmed : after.journal.anyWriteConfirmed = true →
    before.journal.anyWriteConfirmed = true ∨
      after.journal.reconciliationRequired = true ∧ evidence after.provider
  kept : evidence before.provider → evidence after.provider

namespace Tells

variable {P : Type*} {view : P → C} {evidence : P → Prop}

theorem trans {first second third : Execution P} (hfirst : Tells view evidence first second)
    (hsecond : Tells view evidence second third) : Tells view evidence first third where
  changed hchanged := by
    by_cases hlate : view third.provider = view second.provider
    · exact hsecond.reconciled (hfirst.changed (hlate ▸ hchanged))
    · exact hsecond.changed hlate
  reconciled hbefore := hsecond.reconciled (hfirst.reconciled hbefore)
  confirmed hafter := by
    rcases hsecond.confirmed hafter with hmiddle | hnow
    · rcases hfirst.confirmed hmiddle with hbefore | ⟨hreconciled, hevidence⟩
      · exact Or.inl hbefore
      · exact Or.inr ⟨hsecond.reconciled hreconciled, hsecond.kept hevidence⟩
    · exact Or.inr hnow
  kept hevidence := hsecond.kept (hfirst.kept hevidence)

/-- What the journal calls confirmed after a start without any. -/
theorem claimed {before after : Execution P} (htells : Tells view evidence before after)
    (hstart : before.journal.anyWriteConfirmed = false)
    (hafter : after.journal.anyWriteConfirmed = true) :
    after.journal.reconciliationRequired = true ∧ evidence after.provider := by
  refine (htells.confirmed hafter).resolve_left fun hbefore => ?_
  rw [hstart] at hbefore
  exact absurd hbefore (by decide)

/-- A record that is silent about effects. -/
theorem of_flags {execution : Execution P} {journal : ApplyJournal} {provider : P}
    (hconfirmed : journal.anyWriteConfirmed = execution.journal.anyWriteConfirmed)
    (hreconciled : journal.reconciliationRequired = execution.journal.reconciliationRequired)
    (hview : view provider = view execution.provider)
    (hkept : evidence execution.provider → evidence provider) :
    Tells view evidence execution ⟨journal, provider⟩ where
  changed hchanged := absurd hview hchanged
  reconciled hbefore := hreconciled.trans hbefore
  confirmed hafter := Or.inl (hconfirmed.symm.trans hafter)
  kept := hkept

/-- The record of an error requires a reconciliation when the error tells of an effect. -/
theorem of_recordError {execution : Execution P} (journal : ApplyJournal) {provider : P}
    (hconfirmed : journal.anyWriteConfirmed = execution.journal.anyWriteConfirmed)
    (hreconciled : journal.reconciliationRequired = execution.journal.reconciliationRequired)
    (context : Message) {error : StandardError} (hclaims : error.writeEffect ≠ some .confirmed)
    (hchanged : view provider ≠ view execution.provider → error.writeEffect = some .uncertain)
    (hkept : evidence execution.provider → evidence provider) :
    Tells view evidence execution ⟨journal.recordError context error, provider⟩ := by
  have hany : (journal.recordError context error).anyWriteConfirmed =
      execution.journal.anyWriteConfirmed := by
    change (journal.observeEffect error).anyWriteConfirmed = _
    rw [ApplyJournal.observeEffect, ← hconfirmed]
    cases heffect : error.writeEffect with
    | none => rfl
    | some effect =>
        have hnot : effect ≠ .confirmed := fun h => hclaims (h ▸ heffect)
        simp [hnot]
  have hrequired : (journal.recordError context error).reconciliationRequired =
      (execution.journal.reconciliationRequired ||
        decide (∃ effect, error.writeEffect = some effect ∧ effect ≠ .none)) := by
    change (journal.observeEffect error).reconciliationRequired = _
    rw [ApplyJournal.observeEffect, ← hreconciled]
    cases heffect : error.writeEffect with
    | none => simp
    | some effect => simp
  refine ⟨fun hchange => ?_, fun hbefore => ?_, fun hafter => Or.inl (hany.symm.trans hafter), hkept⟩
  · change (journal.recordError context error).reconciliationRequired = true
    rw [hrequired, hchanged hchange]
    simp
  · change (journal.recordError context error).reconciliationRequired = true
    rw [hrequired, hbefore, Bool.true_or]

/-- An action under the journal, whatever it acts on. -/
theorem of_execute {execution : Execution P} (context : Message)
    {action : P → Except Thrown Unit × P}
    (hwrote : (action execution.provider).1 = .ok () → evidence (action execution.provider).2)
    (hrefused : ∀ thrown, (action execution.provider).1 = .error thrown →
      (∀ error, thrown = .standard error → error.writeEffect ≠ some .confirmed) ∧
        (view (action execution.provider).2 ≠ view execution.provider →
          ∃ error, thrown = .standard error ∧ error.writeEffect = some .uncertain))
    (hkept : evidence execution.provider → evidence (action execution.provider).2) :
    Tells view evidence execution (execution.execute context action).2 := by
  rw [Execution.execute]
  revert hwrote hrefused hkept
  rcases action execution.provider with ⟨(error | _) | _, provider⟩
  · intro _ hrefused hkept
    obtain ⟨hclaims, hchanged⟩ := hrefused _ rfl
    refine of_recordError { execution.journal with stepEffect := .none } rfl rfl context
      (hclaims error rfl) (fun hchange => ?_) hkept
    obtain ⟨other, hother, heffect⟩ := hchanged hchange
    rw [Thrown.standard.inj hother]
    exact heffect
  · intro _ hrefused hkept
    refine of_flags rfl rfl ?_ hkept
    by_contra hchange
    obtain ⟨_, hother, _⟩ := (hrefused _ rfl).2 hchange
    exact absurd hother (by simp)
  · exact fun hwrote _ _ => ⟨fun _ => rfl, fun _ => rfl, fun _ => Or.inr ⟨rfl, hwrote rfl⟩,
      fun _ => hwrote rfl⟩

theorem of_applyOperation {execution : Execution P} {action : P → Except Thrown Unit × P}
    (kind : ConfigurationOperationKind) (target : Text) (messages : ApplyMessages)
    (hwrote : (action execution.provider).1 = .ok () → evidence (action execution.provider).2)
    (hrefused : ∀ thrown, (action execution.provider).1 = .error thrown →
      (∀ error, thrown = .standard error → error.writeEffect ≠ some .confirmed) ∧
        (view (action execution.provider).2 ≠ view execution.provider →
          ∃ error, thrown = .standard error ∧ error.writeEffect = some .uncertain))
    (hkept : evidence execution.provider → evidence (action execution.provider).2) :
    Tells view evidence execution
      (execution.applyOperation kind target messages action true).2 := by
  have hbegin : Tells view evidence execution
      ⟨execution.journal.begin kind target, execution.provider⟩ := of_flags rfl rfl rfl id
  have hexecute : Tells view evidence ⟨execution.journal.begin kind target, execution.provider⟩
      _ := of_execute messages.failure hwrote hrefused hkept
  have hdone := hbegin.trans hexecute
  rw [Execution.applyOperation, Execution.apply, if_pos rfl]
  revert hdone
  rcases Execution.execute messages.failure action _ with ⟨_ | _, after⟩
  · exact fun hdone => hdone.trans (of_flags rfl rfl rfl id)
  · exact fun hdone => hdone

/-- The rule of an apply holds for what it tells. -/
theorem applyRule {ops : ProviderOperations P} (htells : TellsEffects ops view evidence) :
    ApplyRule ops (Tells view evidence) where
  refl execution := of_flags rfl rfl rfl id
  trans := trans
  journal execution journal hconfirmed hreconciled :=
    of_flags hconfirmed hreconciled rfl id
  reconcile execution := ⟨fun _ => rfl, fun _ => rfl, Or.inl, id⟩
  failed execution request error provider context hresult := by
    have hfailed := htells.failed request execution.provider error (by rw [hresult])
    have hkept := htells.keptByRequest request execution.provider
    rw [hresult] at hfailed hkept
    exact of_recordError execution.journal rfl rfl context hfailed.1 hfailed.2 hkept
  answered execution request response provider hrequest hresult := by
    have hread := htells.read request execution.provider hrequest
    have hkept := htells.keptByRequest request execution.provider
    rw [hresult] at hread hkept
    exact of_flags rfl rfl hread hkept
  registered execution driveLetter registration provider hresult := by
    have hregistered := htells.registered driveLetter execution.provider registration
      (by rw [hresult])
    have hkept := htells.keptByRequest (.ensureNextSessionEntry driveLetter) execution.provider
    rw [hresult] at hregistered hkept
    refine ⟨fun _ => rfl, fun _ => rfl, fun hafter => ?_, hkept⟩
    change (execution.journal.anyWriteConfirmed || decide _) = true at hafter
    rw [Bool.or_eq_true, decide_eq_true_eq] at hafter
    exact hafter.imp_right fun hwritten => ⟨rfl, hregistered hwritten⟩
  execute execution context write :=
    of_execute context (htells.wrote write execution.provider)
      (htells.refused write execution.provider) (htells.keptByWrite write execution.provider)

end Tells

/-! ## The apply -/

/-- A write of the staging list that changes the stored list and fails tells of
it, and its failure claims no confirmed write. -/
structure StagingTells {S D : Type*} (write : S → FileStagingWriteResult × S) (stored : S → D) :
    Prop where
  claims : ∀ state error, (write state).1.failure = some (.standard error) →
    error.writeEffect ≠ some .confirmed
  changed : ∀ state thrown, (write state).1.failure = some thrown →
    stored (write state).2 ≠ stored state →
    ∃ error, thrown = .standard error ∧ error.writeEffect = some .uncertain

section Apply

variable {S D : Type*} {stored : S → D}

/-- What saving the list tells. -/
theorem saveStaging_tells {writeStaging : Option (S → FileStagingWriteResult × S)}
    (hstaging : ∀ write, writeStaging = some write → StagingTells write stored) (state : S) :
    Tells (fun saved : S × Option FileStagingWriteResult => stored saved.1)
      (fun _ => ∃ write, writeStaging = some write ∧ (write state).1.failure = none)
      ⟨{}, (state, none)⟩ (saveStaging writeStaging {} state).2 := by
  refine Tells.of_applyOperation .staging [] _ (fun hok => ?_) (fun thrown herror => ?_) id
  · cases writeStaging with
    | none => exact absurd hok (fun h => (by cases h))
    | some write =>
        refine ⟨write, rfl, ?_⟩
        simp only [performStaging] at hok
        cases hfailure : (write state).1.failure with
        | none => rfl
        | some thrown =>
            rw [hfailure] at hok
            exact absurd hok (fun h => (by cases h))
  · cases writeStaging with
    | none =>
        obtain rfl := Except.error.inj herror
        exact ⟨fun error heq => Thrown.standard.inj heq ▸ (fun h => (by cases h)),
          fun hchanged => absurd rfl hchanged⟩
    | some write =>
        simp only [performStaging] at herror ⊢
        cases hfailure : (write state).1.failure with
        | none =>
            rw [hfailure] at herror
            exact absurd herror (fun h => (by cases h))
        | some failure =>
            rw [hfailure] at herror
            obtain rfl := Except.error.inj herror
            refine ⟨fun error heq => (hstaging write rfl).claims state error (heq ▸ hfailure), ?_⟩
            exact (hstaging write rfl).changed state failure hfailure

/-- The journal of an apply tells of every change that it caused, and what it
calls confirmed was confirmed. -/
theorem executePlan_tells_effects (hchanges : wmi.ChangesInWrites view)
    {writeStaging : Option (S → FileStagingWriteResult × S)}
    (hstaging : ∀ write, writeStaging = some write → StagingTells write stored)
    (plan : ConfigurationPlan) (provider : W) (state : S) :
    let applied := executePlan (uwfProvider wmi).logged plan writeStaging (provider, []) state
    (view applied.2.1.1 ≠ view provider ∨ stored applied.2.2 ≠ stored state →
      applied.1.reconciliationRequired = true) ∧
    (applied.1.anyWriteConfirmed = true → applied.1.reconciliationRequired = true) ∧
    (applied.1.anyWriteConfirmed = true →
      (∃ write, writeStaging = some write ∧ (write state).1.failure = none) ∨
        ∃ call ∈ applied.2.1.2, CallConfirmed wmi call) := by
  have hrule := Tells.applyRule (uwfProvider_tellsEffects hchanges)
  have hsaved := saveStaging_tells hstaging state
  have hconnected := (uwfProvider_tellsEffects hchanges).read .ensureConnected (provider, [])
    (fun _ => by simp)
  dsimp only
  rw [executePlan]
  cases hconnect : (uwfProvider wmi).logged.request .ensureConnected (provider, []) with
  | mk result after =>
      rw [hconnect] at hconnected
      cases result with
      | error error =>
          have hfailed := hrule.failed ⟨{}, (provider, [])⟩ .ensureConnected error after
            (.plain "✘ Failed to connect to the system") hconnect
          refine ⟨fun hchanged => ?_, fun hafter => ?_, fun hafter => ?_⟩
          · exact hfailed.changed (hchanged.resolve_right fun h => h rfl)
          · exact (hfailed.claimed rfl hafter).1
          · exact Or.inr (hfailed.claimed rfl hafter).2
      | ok connected =>
          have hstart := hrule.answered ⟨{}, (provider, [])⟩ .ensureConnected connected after
            (fun _ => by simp) hconnect
          dsimp only
          cases plan.staging with
          | none =>
              have hrun := hstart.trans (hrule.applyChanges plan _)
              refine ⟨fun hchanged => ?_, fun hafter => ?_, fun hafter => ?_⟩
              · exact hrun.changed (hchanged.resolve_right fun h => h rfl)
              · exact (hrun.claimed rfl hafter).1
              · exact Or.inr (hrun.claimed rfl hafter).2
          | some edits =>
              revert hsaved
              dsimp only
              rcases saveStaging writeStaging {} state with ⟨_ | _, saved⟩
              · intro hsaved
                have hrun := hrule.applyChanges plan ⟨saved.journal, after⟩
                refine ⟨fun hchanged => ?_, fun hafter => ?_, fun hafter => ?_⟩
                · rcases hchanged with hchanged | hchanged
                  · exact hrun.changed fun heq => hchanged (heq.trans hconnected)
                  · exact hrun.reconciled (hsaved.changed hchanged)
                · rcases hrun.confirmed hafter with hbefore | ⟨hreconciled, _⟩
                  · exact hrun.reconciled (hsaved.claimed rfl hbefore).1
                  · exact hreconciled
                · rcases hrun.confirmed hafter with hbefore | ⟨_, hevidence⟩
                  · exact Or.inl (hsaved.claimed rfl hbefore).2
                  · exact Or.inr hevidence
              · intro hsaved
                refine ⟨fun hchanged => ?_, fun hafter => ?_, fun hafter => ?_⟩
                · rcases hchanged with hchanged | hchanged
                  · exact absurd hconnected hchanged
                  · exact hsaved.changed hchanged
                · exact (hsaved.claimed rfl hafter).1
                · exact Or.inl (hsaved.claimed rfl hafter).2

end Apply

/-! ## The draft and a small session -/

section Draft

variable {S : Type*} (qt : Qt) (store : FileStagingStore S)

/-- A write that fails was attempted and tells of an uncertain effect, or it only loaded. -/
theorem performWrite_failure (edits : FileStagingChanges) {state : S} {thrown : Thrown}
    (hfailure : (FileStagingDraft.performWrite qt store edits state).1.failure = some thrown) :
    (∃ error, thrown = .standard error ∧ error.writeEffect = some .uncertain) ∨
      (FileStagingDraft.performWrite qt store edits state).2 = (store.load state).2 ∧
        ((store.load state).1 = .error thrown ∨ thrown = FileStagingDraft.savedListChanged) := by
  have hobserved : ∀ cause state',
      (FileStagingDraft.observeFailure store cause state').1.failure = some thrown →
      ∃ error, thrown = .standard error ∧ error.writeEffect = some .uncertain := by
    intro cause state' hsome
    rw [(FileStagingDraft.observeFailure_failed store cause state').2] at hsome
    rw [← Option.some.inj hsome]
    cases cause with
    | standard error => exact ⟨_, rfl, rfl⟩
    | other => exact ⟨_, rfl, rfl⟩
  revert hfailure
  rw [FileStagingDraft.performWrite]
  rcases store.load state with ⟨cause | current, loaded⟩
  · exact fun hfailure => Or.inr ⟨rfl, Or.inl (congrArg _ (Option.some.inj hfailure))⟩
  · dsimp only
    split_ifs
    · exact fun hfailure => Or.inr ⟨rfl, Or.inr (Option.some.inj hfailure).symm⟩
    · rcases store.replace edits.after loaded with ⟨cause | _, replaced⟩
      · exact fun hfailure => Or.inl (hobserved cause replaced hfailure)
      · dsimp only
        rcases store.load replaced with ⟨cause | observed, reread⟩
        · exact fun hfailure => Or.inl (hobserved cause reread hfailure)
        · dsimp only
          split_ifs
          · exact fun hfailure => absurd hfailure (by simp)
          · exact fun hfailure => Or.inl (hobserved _ reread hfailure)

/-- The write of the draft tells of its change when the store's loads change nothing. -/
theorem performWrite_tells {content : S → List FileStagingEntry} (hreads : store.Reads content)
    (hclaims : ∀ state error, (store.load state).1 = .error (.standard error) →
      error.writeEffect ≠ some .confirmed) (edits : FileStagingChanges) :
    StagingTells (FileStagingDraft.performWrite qt store edits) content where
  claims state error hfailure := by
    rcases performWrite_failure qt store edits hfailure with ⟨other, hother, heffect⟩ | ⟨_, hload⟩
    · rw [Thrown.standard.inj hother, heffect]
      decide
    · rcases hload with hload | hchanged
      · exact hclaims state error hload
      · rw [Thrown.standard.inj hchanged]
        decide
  changed state thrown hfailure hchanged := by
    refine (performWrite_failure qt store edits hfailure).resolve_right fun hloaded => ?_
    rw [hloaded.1] at hchanged
    exact hchanged (hreads.unchanged state)

end Draft

namespace UncertainFilter

/-- A session with a filter whose enabling takes effect but loses its answer. -/
def session : WmiOperations Bool where
  ensureConnected := pure ()
  queryInstances := fun _ enabled =>
    (.ok [[("__PATH".toList, .string "UWF_Filter".toList), ("CurrentEnabled".toList, .bool false),
      ("NextEnabled".toList, .bool enabled)]], enabled)
  mountedLetters := fun _ => pure []
  getObject := fun _ enabled =>
    (.ok [("__PATH".toList, .string "UWF_Filter".toList), ("CurrentEnabled".toList, .bool false),
      ("NextEnabled".toList, .bool enabled)], enabled)
  callMethodRead := fun _ _ _ => pure ⟨[]⟩
  invokeMethod := fun _ _ _ _ => (.error (.failure (.wmi .invocationUncertain [])), true)
  putInstance := fun _ _ _ => .fail (.of .provider "refused".toList [])

theorem changesInWrites : session.ChangesInWrites id where
  ensureConnected _ := rfl
  queryInstances _ _ := rfl
  mountedLetters _ _ := rfl
  getObject _ _ := rfl
  callMethodRead _ _ _ _ := rfl
  invokeMethod _ _ _ _ _ hthrown hcertain := absurd (Except.error.inj hthrown).symm (hcertain [])
  putInstance _ _ _ _ _ _ _ := rfl

def edits : FileStagingChanges := ⟨[], [⟨.file, "C:\\a".toList⟩], false⟩

def plan : ConfigurationPlan where
  changes := { setFilterEnabled := some true }
  snapshot := {}
  staging := some edits
  stagingCompletionAlternatives := []

end UncertainFilter

open UncertainFilter in
/-- The list is saved and the answer to the enabling is lost. -/
theorem executePlan_tells_effects_uncertain :
    let applied := executePlan (uwfProvider session).logged plan
      (some (FileStagingDraft.performWrite Qt.ascii StagingWorld.memoryStore edits)) (false, []) []
    applied.2.1.1 = true ∧ applied.2.2 = edits.after ∧
      applied.1.reconciliationRequired = true := by
  have hstaging : ∀ write,
      some (FileStagingDraft.performWrite Qt.ascii StagingWorld.memoryStore edits) = some write →
        StagingTells write (id : List FileStagingEntry → List FileStagingEntry) := by
    intro write hwrite
    obtain rfl := Option.some.inj hwrite
    exact performWrite_tells Qt.ascii _ StagingWorld.memoryStore_reads
      (fun _ _ hload => by cases hload) edits
  have hchanged : (executePlan (uwfProvider session).logged plan
      (some (FileStagingDraft.performWrite Qt.ascii StagingWorld.memoryStore edits))
        (false, []) []).2.1.1 = true := by
    decide +kernel
  refine ⟨hchanged, by decide +kernel,
    (executePlan_tells_effects changesInWrites hstaging plan false []).1 (Or.inl ?_)⟩
  rw [id, hchanged]
  decide

end UwfManager
