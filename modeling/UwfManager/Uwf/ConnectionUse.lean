import UwfManager.Uwf.WmiSession

/-!
# A connection that failed is not used again

Whatever is called in whatever order and whatever the system answers, no request is made over
a connection after one of its requests came back with a connection failure.
-/

namespace UwfManager

open WmiStatus

theorem WmiStatus.failed_of_connectionFailure {hresult : ℕ}
    (hfailure : isWmiConnectionFailure hresult = true) : failed hresult = true := by
  simp only [isWmiConnectionFailure, List.contains_eq_mem, List.mem_cons, List.not_mem_nil,
    or_false, decide_eq_true_eq] at hfailure
  simp only [failed, decide_eq_true_eq]
  omega

namespace WmiSession

/-! ## What a session keeps -/

/-- The connections of the log are known, and none was used after it had failed. -/
structure Orderly (session : WmiSession) : Prop where
  numbered : ∀ entry ∈ session.log, ∀ number, entry.connection = some number →
    number < session.connections
  current : ∀ number, session.services = some number → number < session.connections
  given_up : ∀ earlier entry later, session.log = earlier ++ entry :: later →
    isWmiConnectionFailure entry.status = true →
    ∀ other ∈ later, other.connection = none ∨ other.connection ≠ entry.connection

/-- In addition, the connection in use has not failed. -/
structure Sound (session : WmiSession) : Prop extends Orderly session where
  alive : ∀ number, session.services = some number →
    ∀ entry ∈ session.log, entry.connection = some number →
      isWmiConnectionFailure entry.status = false

theorem Orderly.invalidate {session : WmiSession} (horderly : Orderly session) :
    Sound session.invalidate where
  numbered := horderly.numbered
  current := by
    intro number hnumber
    cases hnumber
  given_up := horderly.given_up
  alive := by
    intro number hnumber
    cases hnumber

/-- The log after one more request. -/
theorem Sound.append {session : WmiSession} (hsound : Sound session) (entry : WmiSessionEntry)
    (hentry : entry.connection = session.services) :
    Orderly { session with log := session.log ++ [entry] } where
  numbered := by
    intro other hother number hnumber
    rcases List.mem_append.1 hother with hold | hnew
    · exact hsound.numbered other hold number hnumber
    · obtain rfl := List.mem_singleton.1 hnew
      exact hsound.current number (hentry.symm.trans hnumber)
  current := hsound.current
  given_up := by
    intro earlier failing later hsplit hfailure other hother
    rcases List.append_eq_append_iff.1 hsplit with ⟨between, -, hrest⟩ | ⟨between, hlog, hrest⟩
    · cases between with
      | nil =>
        obtain ⟨-, rfl⟩ := List.cons.inj hrest
        cases hother
      | cons first rest =>
        have hlength := congrArg List.length hrest
        simp at hlength
    · cases between with
      | nil =>
        obtain ⟨-, rfl⟩ := List.cons.inj hrest
        cases hother
      | cons first rest =>
        obtain ⟨rfl, rfl⟩ := List.cons.inj hrest
        rcases List.mem_append.1 hother with hold | hnew
        · exact hsound.given_up earlier failing rest hlog hfailure other hold
        · obtain rfl := List.mem_singleton.1 hnew
          cases hservices : session.services with
          | none => exact .inl (hentry.trans hservices)
          | some number =>
            refine .inr ?_
            intro hsame
            have halive := hsound.alive number hservices failing (by simp [hlog])
              (hsame.symm.trans (hentry.trans hservices))
            rw [hfailure] at halive
            cases halive

/-- A request that did not find the connection broken leaves it in use. -/
theorem Sound.append_alive {session : WmiSession} (hsound : Sound session)
    (entry : WmiSessionEntry) (hentry : entry.connection = session.services)
    (hstatus : session.services = none ∨ isWmiConnectionFailure entry.status = false) :
    Sound { session with log := session.log ++ [entry] } where
  toOrderly := hsound.append entry hentry
  alive := by
    intro number hnumber other hother hconnection
    rcases List.mem_append.1 hother with hold | hnew
    · exact hsound.alive number hnumber other hold hconnection
    · obtain rfl := List.mem_singleton.1 hnew
      rcases hstatus with hnone | hstatus
      · have hservices : session.services = some number := hnumber
        rw [hnone] at hservices
        cases hservices
      · exact hstatus

/-! ## What an action keeps -/

/-- The exception after which a connection is given up. -/
def GivesUp : WmiSessionThrown → Prop
  | .wmi exception => exception.code.any isWmiConnectionFailure = true ∧
      (exception.kind = .transport ∨ exception.kind = .invocationUncertain)
  | _ => False

/-- From a sound session the action ends in a sound one, or with an exception that gives the
connection up. -/
def Keeping {A : Type} (action : WmiSessionAction A) : Prop :=
  ∀ session, Sound session → Sound (action session).2 ∨
    (Orderly (action session).2 ∧ ∃ thrown, (action session).1 = .error thrown ∧ GivesUp thrown)

/-- The same of an action that starts without a connection. -/
def Connecting {A : Type} (action : WmiSessionAction A) : Prop :=
  ∀ session, Sound session → session.services = none → Sound (action session).2 ∨
    (Orderly (action session).2 ∧ ∃ thrown, (action session).1 = .error thrown ∧ GivesUp thrown)

/-- An action that is taken where the connection has failed. -/
def Leaving {A : Type} (action : WmiSessionAction A) : Prop :=
  ∀ session, Orderly session → Sound (action session).2 ∨
    (Orderly (action session).2 ∧ ∃ thrown, (action session).1 = .error thrown ∧ GivesUp thrown)

section Actions

variable {A B : Type}

theorem Leaving.keeping {action : WmiSessionAction A} (haction : Leaving action) :
    Keeping action := fun session hsound => haction session hsound.toOrderly

theorem Keeping.connecting {action : WmiSessionAction A} (haction : Keeping action) :
    Connecting action := fun session hsound _ => haction session hsound

theorem Keeping.of_unchanged {action : WmiSessionAction A}
    (hsame : ∀ session, (action session).2 = session) : Keeping action := by
  intro session hsound
  rw [hsame]
  exact .inl hsound

theorem Keeping.bind {action : WmiSessionAction A} {next : A → WmiSessionAction B}
    (haction : Keeping action) (hnext : ∀ value, Keeping (next value)) :
    Keeping (action >>= next) := by
  intro session hsound
  have hstart := haction session hsound
  rcases hrun : action session with ⟨thrown | value, after⟩
  · rw [StatefulAction.bind_of_error hrun]
    rw [hrun] at hstart
    rcases hstart with hafter | ⟨horderly, failure, hfailure, hgives⟩
    · exact .inl hafter
    · obtain rfl := Except.error.inj hfailure
      exact .inr ⟨horderly, thrown, rfl, hgives⟩
  · rw [StatefulAction.bind_of_ok hrun]
    rw [hrun] at hstart
    rcases hstart with hafter | ⟨-, failure, hfailure, -⟩
    · exact hnext value after hafter
    · cases hfailure

theorem throwWmi_keeping (kind : WmiExceptionKind) (code : Option ℕ) (operation detail : Text) :
    Keeping (throwWmi kind code operation detail : WmiSessionAction A) :=
  .of_unchanged fun _ => rfl

theorem throwTransport_leaving {hresult : ℕ} (hfailure : isWmiConnectionFailure hresult = true)
    (operation detail : Text) :
    Leaving (throwWmi .transport (some hresult) operation detail : WmiSessionAction A) :=
  fun _ horderly => .inr ⟨horderly, _, rfl, hfailure, .inl rfl⟩

theorem throwComFailure_keeping (hresult : ℕ) (operation detail : Text) :
    Keeping (throwComFailure hresult operation detail : WmiSessionAction A) := by
  rw [throwComFailure]
  split_ifs
  · exact throwWmi_keeping _ _ _ _
  · exact throwWmi_keeping _ _ _ _

theorem throwComFailure_leaving {hresult : ℕ} (hfailure : isWmiConnectionFailure hresult = true)
    (operation detail : Text) :
    Leaving (throwComFailure hresult operation detail : WmiSessionAction A) := by
  rw [throwComFailure, if_pos hfailure]
  exact throwTransport_leaving hfailure _ _

theorem throwWriteInvocationFailure_keeping (hresult : ℕ) (operation detail : Text) :
    Keeping (throwWriteInvocationFailure hresult operation detail : WmiSessionAction A) := by
  rw [throwWriteInvocationFailure]
  split_ifs
  · exact throwComFailure_keeping _ _ _
  · exact throwWmi_keeping _ _ _ _

theorem throwWriteInvocationFailure_leaving {hresult : ℕ}
    (hfailure : isWmiConnectionFailure hresult = true) (operation detail : Text) :
    Leaving (throwWriteInvocationFailure hresult operation detail : WmiSessionAction A) := by
  rw [throwWriteInvocationFailure]
  split_ifs
  · exact throwComFailure_leaving hfailure _ _
  · exact fun _ horderly => .inr ⟨horderly, _, rfl, hfailure, .inr rfl⟩

variable (answers : WmiSessionAnswers)

theorem returned_keeping (sent : WmiRequest) : Keeping (returned answers sent) :=
  .of_unchanged fun _ => rfl

/-- A request over the connection in use: what follows depends on whether it has failed. -/
theorem Keeping.request {sent : WmiRequest} {next : ℕ → WmiSessionAction A}
    (hfailed : ∀ hr, isWmiConnectionFailure hr = true → Leaving (next hr))
    (hnext : ∀ hr, isWmiConnectionFailure hr = false → Keeping (next hr)) :
    Keeping (WmiSession.request answers sent >>= next) := by
  intro session hsound
  have hrun : WmiSession.request answers sent session =
      (.ok (answers.status sent session.log), { session with log := session.log ++
        [⟨session.services, sent, answers.status sent session.log⟩] }) := rfl
  rw [StatefulAction.bind_of_ok hrun]
  cases hstatus : isWmiConnectionFailure (answers.status sent session.log) with
  | true => exact hfailed _ hstatus _ (hsound.append _ rfl)
  | false => exact hnext _ hstatus _ (hsound.append_alive _ rfl (.inr hstatus))

/-- A request before there is a connection. -/
theorem Connecting.request {sent : WmiRequest} {next : ℕ → WmiSessionAction A}
    (hnext : ∀ hr, Connecting (next hr)) :
    Connecting (WmiSession.request answers sent >>= next) := by
  intro session hsound hnone
  have hrun : WmiSession.request answers sent session =
      (.ok (answers.status sent session.log), { session with log := session.log ++
        [⟨session.services, sent, answers.status sent session.log⟩] }) := rfl
  rw [StatefulAction.bind_of_ok hrun]
  exact hnext _ _ (hsound.append_alive _ rfl (.inl hnone)) hnone

theorem Leaving.returned {sent : WmiRequest} {next : Bool → WmiSessionAction A}
    (hnext : ∀ present, Leaving (next present)) :
    Leaving (WmiSession.returned answers sent >>= next) :=
  fun session horderly => hnext (answers.present sent session.log) session horderly

theorem Connecting.returned {sent : WmiRequest} {next : Bool → WmiSessionAction A}
    (hnext : ∀ present, Connecting (next present)) :
    Connecting (WmiSession.returned answers sent >>= next) :=
  fun session hsound hnone => hnext (answers.present sent session.log) session hsound hnone

/-- Whatever was wrong with the connection is gone with it. -/
theorem Leaving.reset {next : WmiSessionAction A} (hnext : Keeping next) :
    Leaving (WmiSession.reset >>= fun _ => next) :=
  fun session horderly => hnext session.invalidate horderly.invalidate

theorem Keeping.reset {next : WmiSessionAction A} (hnext : Connecting next) :
    Keeping (WmiSession.reset >>= fun _ => next) :=
  fun session hsound => hnext session.invalidate hsound.toOrderly.invalidate rfl

/-- A new connection has a number that no request has used. -/
theorem Connecting.establish {next : WmiSessionAction A} (hnext : Keeping next) :
    Connecting (WmiSession.establish >>= fun _ => next) := by
  intro session hsound _
  refine hnext { session with services := some session.connections
                              connections := session.connections + 1 } ?_
  refine ⟨⟨?_, ?_, hsound.given_up⟩, ?_⟩
  · intro entry hentry number hnumber
    exact Nat.lt_succ_of_lt (hsound.numbered entry hentry number hnumber)
  · intro number hnumber
    obtain rfl := Option.some.inj hnumber
    exact Nat.lt_succ_self _
  · intro number hnumber entry hentry hconnection
    obtain rfl := Option.some.inj hnumber
    exact absurd (hsound.numbered entry hentry _ hconnection) (Nat.lt_irrefl _)

/-! ## The operations -/

theorem reconnect_keeping (namespacePath : Text) :
    Keeping (reconnectWithinOperation answers namespacePath) := by
  rw [reconnectWithinOperation]
  refine .reset (.request answers fun hr => ?_)
  split_ifs
  · exact (throwWmi_keeping _ _ _ _).connecting
  refine .request answers fun hr => .returned answers fun located => ?_
  split_ifs
  · exact (Leaving.reset (throwWmi_keeping _ _ _ _)).keeping.connecting
  refine .request answers fun hr => .returned answers fun connected => ?_
  split_ifs
  · exact (Leaving.reset (throwComFailure_keeping _ _ _)).keeping.connecting
  refine .establish (.request answers (fun hr hfailure => ?_) fun hr _ => ?_)
  · rw [if_pos (failed_of_connectionFailure hfailure)]
    exact .reset (throwComFailure_keeping _ _ _)
  · split_ifs
    · exact (Leaving.reset (throwComFailure_keeping _ _ _)).keeping
    · exact .of_unchanged fun _ => rfl

theorem ensureConnected_keeping (namespacePath : Text) :
    Keeping (ensureConnectedWithinOperation answers namespacePath) := by
  intro session hsound
  rw [ensureConnectedWithinOperation]
  split_ifs
  · exact reconnect_keeping answers namespacePath session hsound
  · exact .inl hsound

theorem putValues_keeping (operation : Text) (subject failure : Text → Text) (row : WmiRow) :
    Keeping (putValues answers operation subject failure row) := by
  induction row with
  | nil => exact .of_unchanged fun _ => rfl
  | cons field rest ih =>
    obtain ⟨name, value⟩ := field
    rw [putValues]
    cases valueToVariant value with
    | some reason => exact throwWmi_keeping _ _ _ _
    | none =>
      refine .request answers (fun hr hfailure => ?_) fun hr _ => ?_
      · rw [if_pos (failed_of_connectionFailure hfailure)]
        exact throwComFailure_leaving hfailure _ _
      · split_ifs
        · exact throwComFailure_keeping _ _ _
        · exact ih

theorem prepareMethodCall_keeping (objectPath methodName : Text) (inputs : WmiRow) :
    Keeping (prepareMethodCall answers objectPath methodName inputs) := by
  have hspawn : ∀ operation member signature,
      Keeping (prepareMethodCall.spawnInputs answers operation member signature) := by
    intro operation member signature
    rw [prepareMethodCall.spawnInputs]
    split_ifs
    · refine .request answers (fun hr hfailure => ?_) fun hr _ => ?_
      · rw [if_pos (failed_of_connectionFailure hfailure)]
        exact throwComFailure_leaving hfailure _ _
      · split_ifs
        · exact throwComFailure_keeping _ _ _
        · exact returned_keeping answers _
    · exact .of_unchanged fun _ => rfl
  rw [prepareMethodCall]
  split_ifs
  · exact throwWmi_keeping _ _ _ _
  · exact throwWmi_keeping _ _ _ _
  refine .request answers (fun hr hfailure => .returned answers fun found => ?_) fun hr _ =>
    (returned_keeping answers _).bind fun found => ?_
  · have hfailed := failed_of_connectionFailure hfailure
    rw [failureOf, if_pos hfailed, if_pos (by rw [hfailed]; rfl)]
    exact throwComFailure_leaving hfailure _ _
  split_ifs
  · exact throwComFailure_keeping _ _ _
  refine .request answers (fun hr hfailure => ?_) fun hr _ => ?_
  · rw [if_pos (failed_of_connectionFailure hfailure)]
    exact throwComFailure_leaving hfailure _ _
  split_ifs
  · exact throwComFailure_keeping _ _ _
  refine (returned_keeping answers _).bind fun signature => (hspawn _ _ _).bind fun spawned => ?_
  split_ifs
  · exact throwWmi_keeping _ _ _ _
  · exact (putValues_keeping answers _ _ _ _).bind fun _ => .of_unchanged fun _ => rfl

theorem prepareInstance_keeping (className operation : Text) (props : WmiRow) :
    Keeping (prepareInstance answers className operation props) := by
  rw [prepareInstance]
  refine .request answers (fun hr hfailure => ?_) fun hr _ => ?_
  · rw [if_pos (failed_of_connectionFailure hfailure)]
    exact throwComFailure_leaving hfailure _ _
  split_ifs
  · exact throwComFailure_keeping _ _ _
  refine (returned_keeping answers _).bind fun found => ?_
  split_ifs
  · exact throwWmi_keeping _ _ _ _
  refine .request answers (fun hr hfailure => ?_) fun hr _ => ?_
  · rw [if_pos (failed_of_connectionFailure hfailure)]
    exact throwComFailure_leaving hfailure _ _
  split_ifs
  · exact throwComFailure_keeping _ _ _
  refine (returned_keeping answers _).bind fun spawned => ?_
  split_ifs
  · exact throwWmi_keeping _ _ _ _
  · exact putValues_keeping answers _ _ _ _

theorem throwDecodeFailure_state (operation : Text) (failure : WmiDecodeFailure)
    (session : WmiSession) :
    ((throwDecodeFailure operation failure : WmiSessionAction A) session).2 = session := by
  cases failure <;> rfl

theorem decodeVerdict_keeping (operation : Text) : Keeping (decodeVerdict answers operation) := by
  refine .of_unchanged fun session => ?_
  rw [decodeVerdict]
  cases answers.returnValue session.log with
  | error failure => exact throwDecodeFailure_state operation failure session
  | ok value =>
    dsimp only
    split_ifs
    · rfl
    · cases answers.outputs session.log with
      | error failure => exact throwDecodeFailure_state operation failure session
      | ok output => rfl

theorem decodeMethodOutput_keeping (className methodName : Text) :
    Keeping (decodeMethodOutput answers className methodName) := by
  rw [decodeMethodOutput]
  refine .request answers (fun hr hfailure => ?_) fun hr hconnection => ?_
  · rw [if_pos hfailure]
    exact throwTransport_leaving hfailure _ _
  · rw [if_neg (by simp [hconnection])]
    split_ifs
    · exact throwWmi_keeping _ _ _ _
    · exact decodeVerdict_keeping answers _

/-- The uncertain exception of a decoding keeps the status of the one it stands for. -/
theorem decodeWriteMethodOutput_keeping (className methodName operation : Text) :
    Keeping (decodeWriteMethodOutput answers className methodName operation) := by
  intro session hsound
  have hdecoded := decodeMethodOutput_keeping answers className methodName session hsound
  rw [decodeWriteMethodOutput]
  rcases hrun : decodeMethodOutput answers className methodName session with
    ⟨thrown | output, after⟩
  · rw [hrun] at hdecoded
    cases thrown with
    | wmi exception =>
      dsimp only
      split_ifs with hprovider
      · exact hdecoded
      · rcases hdecoded with hafter | ⟨horderly, thrown, hthrown, hgives⟩
        · exact .inl hafter
        · obtain rfl := Except.error.inj hthrown
          exact .inr ⟨horderly, _, rfl, hgives.1, .inr rfl⟩
    | standard what =>
      rcases hdecoded with hafter | ⟨-, thrown, hthrown, hgives⟩
      · exact .inl hafter
      · obtain rfl := Except.error.inj hthrown
        exact hgives.elim
    | other =>
      rcases hdecoded with hafter | ⟨-, thrown, hthrown, hgives⟩
      · exact .inl hafter
      · obtain rfl := Except.error.inj hthrown
        exact hgives.elim
  · rw [hrun] at hdecoded
    rcases hdecoded with hafter | ⟨-, thrown, hthrown, -⟩
    · exact .inl hafter
    · cases hthrown

theorem methodFailureDetail_leaving {hresult : ℕ} {next : Text → WmiSessionAction A}
    (hnext : ∀ detail, Leaving (next detail)) :
    Leaving (methodFailureDetail answers hresult >>= next) :=
  fun session horderly => hnext _ session horderly

theorem methodFailureDetail_keeping (hresult : ℕ) :
    Keeping (methodFailureDetail answers hresult) := .of_unchanged fun _ => rfl

theorem sendMethod_keeping (objectPath methodName className operation : Text) :
    Keeping (sendMethod answers objectPath methodName className operation) := by
  rw [sendMethod]
  refine .request answers (fun hr hfailure => ?_) fun hr _ => ?_
  · rw [if_pos (failed_of_connectionFailure hfailure)]
    exact methodFailureDetail_leaving answers fun detail =>
      throwWriteInvocationFailure_leaving hfailure _ _
  split_ifs
  · exact (methodFailureDetail_keeping answers hr).bind fun detail =>
      throwWriteInvocationFailure_keeping _ _ _
  refine (returned_keeping answers _).bind fun responded => ?_
  split_ifs
  · exact throwWmi_keeping _ _ _ _
  · exact (decodeWriteMethodOutput_keeping answers _ _ _).bind fun _ => .of_unchanged fun _ => rfl

theorem sendInstance_keeping (className operation : Text) (mode : WmiPutMode) :
    Keeping (sendInstance answers className operation mode) := by
  rw [sendInstance]
  refine .request answers (fun hr hfailure => ?_) fun hr _ => ?_
  · rw [if_pos (failed_of_connectionFailure hfailure)]
    exact throwWriteInvocationFailure_leaving hfailure _ _
  split_ifs
  · exact throwWriteInvocationFailure_keeping _ _ _
  · exact .of_unchanged fun _ => rfl

/-- The lookup of a class, with the two answers that only say that it is missing. -/
theorem classStatus_keeping (className operation : Text) :
    Keeping (do
      let hr ← request answers (.getObject className)
      if hr = 0x80041010 ∨ hr = 0x80041002 then pure .missing
      else if failed hr then throwComFailure hr operation (answers.hrText hr)
      else do
        let found ← returned answers (.getObject className)
        if !found then
          throwWmi .protocol none operation "provider returned no class object".toList
        else pure .present : WmiSessionAction WmiClassStatus) := by
  refine .request answers (fun hr hfailure => ?_) fun hr _ => ?_
  · have hknown : ¬(hr = 0x80041010 ∨ hr = 0x80041002) := by
      rintro (rfl | rfl) <;> exact absurd hfailure (by decide)
    rw [if_neg hknown, if_pos (failed_of_connectionFailure hfailure)]
    exact throwComFailure_leaving hfailure _ _
  split_ifs
  · exact .of_unchanged fun _ => rfl
  · exact throwComFailure_keeping _ _ _
  refine (returned_keeping answers _).bind fun found => ?_
  split_ifs
  · exact throwWmi_keeping _ _ _ _
  · exact .of_unchanged fun _ => rfl

theorem readObjectProps_keeping (operation : Text) :
    Keeping (readObjectProps answers operation) := by
  refine .of_unchanged fun session => ?_
  rw [readObjectProps]
  cases answers.properties session.log with
  | error failure => exact throwDecodeFailure_state operation failure session
  | ok row => rfl

end Actions

/-! ## Whole operations -/

/-- Every end of the action leaves a sound session that is ready for the next operation. -/
def Settled {A : Type} (action : WmiSessionAction A) : Prop :=
  ∀ session, Sound session → Sound (action session).2

section Settled

variable {A : Type} {action : WmiSessionAction A}

theorem Sound.active {session : WmiSession} (hsound : Sound session) (operationActive : Bool) :
    Sound { session with operationActive := operationActive } :=
  ⟨⟨hsound.numbered, hsound.current, hsound.given_up⟩, hsound.alive⟩

theorem Keeping.attempted (haction : Keeping action) : Settled (attempted action) := by
  intro session hsound
  have hkept := haction session hsound
  rw [WmiSession.attempted]
  rcases hrun : action session with ⟨thrown | value, after⟩
  · rw [hrun] at hkept
    have horderly : Orderly after := by
      rcases hkept with hafter | ⟨horderly, -⟩
      · exact hafter.toOrderly
      · exact horderly
    cases thrown with
    | wmi exception =>
      dsimp only
      split_ifs with hgiven
      · exact horderly.invalidate
      · rcases hkept with hafter | ⟨-, thrown, hthrown, hgives⟩
        · exact hafter
        · obtain rfl := Except.error.inj hthrown
          obtain ⟨hcode, hkind⟩ := hgives
          refine absurd ?_ hgiven
          exact hkind.imp_right fun huncertain => ⟨huncertain, hcode⟩
    | standard what =>
      rcases hkept with hafter | ⟨-, thrown, hthrown, hgives⟩
      · exact hafter
      · obtain rfl := Except.error.inj hthrown
        exact hgives.elim
    | other =>
      rcases hkept with hafter | ⟨-, thrown, hthrown, hgives⟩
      · exact hafter
      · obtain rfl := Except.error.inj hthrown
        exact hgives.elim
  · rw [hrun] at hkept
    rcases hkept with hafter | ⟨-, thrown, hthrown, -⟩
    · exact hafter
    · cases hthrown

theorem Keeping.retried (haction : Keeping action) : Settled (retried action) := by
  intro session hsound
  have hfirst := haction.attempted session hsound
  rw [WmiSession.retried]
  rcases hrun : WmiSession.attempted action session with ⟨thrown | value, after⟩
  · rw [hrun] at hfirst
    cases thrown with
    | wmi exception =>
      dsimp only
      split_ifs
      · exact haction.attempted after hfirst
      · exact hfirst
    | standard what => exact hfirst
    | other => exact hfirst
  · rw [hrun] at hfirst
    exact hfirst

theorem Settled.guarded (haction : Settled action) (operation : Text) :
    Settled (guarded operation action) := by
  intro session hsound
  rw [WmiSession.guarded]
  split_ifs
  · exact hsound
  · exact (haction _ (hsound.active true)).active false

/-- The guard is free again after every operation. -/
theorem guarded_idle (operation : Text) {session : WmiSession}
    (hidle : session.operationActive = false) :
    (guarded operation action session).2.operationActive = false := by
  rw [WmiSession.guarded, if_neg (by simp [hidle])]

end Settled

variable (answers : WmiSessionAnswers) (namespacePath : Text)

theorem executeReadMethodOnce_settled (objectPath methodName : Text) (inputs : WmiRow) :
    Settled (executeReadMethodOnce answers namespacePath objectPath methodName inputs) := by
  refine Settled.guarded (Keeping.attempted ?_) _
  refine (ensureConnected_keeping answers namespacePath).bind fun _ =>
    (prepareMethodCall_keeping answers _ _ _).bind fun className => ?_
  refine .request answers (fun hr hfailure => ?_) fun hr _ => ?_
  · rw [if_pos (failed_of_connectionFailure hfailure)]
    exact methodFailureDetail_leaving answers fun detail => throwComFailure_leaving hfailure _ _
  split_ifs
  · exact (methodFailureDetail_keeping answers hr).bind fun detail =>
      throwComFailure_keeping _ _ _
  refine (returned_keeping answers _).bind fun responded => ?_
  split_ifs
  · exact throwWmi_keeping _ _ _ _
  · exact decodeMethodOutput_keeping answers _ _

theorem getObject_settled (objectPath : Text) :
    Settled (getObject answers namespacePath objectPath) := by
  refine Settled.guarded (Keeping.retried ?_) _
  refine (ensureConnected_keeping answers namespacePath).bind fun _ => ?_
  refine .request answers (fun hr hfailure => ?_) fun hr _ => ?_
  · rw [if_pos (failed_of_connectionFailure hfailure)]
    exact throwComFailure_leaving hfailure _ _
  split_ifs
  · exact throwComFailure_keeping _ _ _
  refine (returned_keeping answers _).bind fun found => ?_
  split_ifs
  · exact throwWmi_keeping _ _ _ _
  · exact readObjectProps_keeping answers _

/-- What one attempt of a method keeps, two keep: the second one finds the session as the
first one has left it. -/
theorem callMethodRead_keeps {objectPath methodName : Text} {inputs : WmiRow}
    {P : WmiSession → Prop} (honce : ∀ session, P session →
      P (executeReadMethodOnce answers namespacePath objectPath methodName inputs session).2)
    {session : WmiSession} (hsession : P session) :
    P (callMethodRead answers namespacePath objectPath methodName inputs session).2 := by
  have hfirst := honce session hsession
  rw [callMethodRead]
  rcases hrun : executeReadMethodOnce answers namespacePath objectPath methodName inputs session
    with ⟨thrown | value, after⟩
  · rw [hrun] at hfirst
    cases thrown with
    | wmi exception =>
      dsimp only
      split_ifs
      · exact honce after hfirst
      · exact hfirst
    | standard what => exact hfirst
    | other => exact hfirst
  · rw [hrun] at hfirst
    exact hfirst

/-- One operation keeps what holds of a session between operations. -/
theorem operate_sound {session : WmiSession} (hsound : Sound session)
    (hidle : session.operationActive = false) (operation : Operation) :
    Sound (operate answers namespacePath session operation) ∧
      (operate answers namespacePath session operation).operationActive = false := by
  cases operation with
  | ensureConnected =>
    exact ⟨Settled.guarded (ensureConnected_keeping answers namespacePath).retried _ session
      hsound, guarded_idle _ hidle⟩
  | classStatus className =>
    refine ⟨Settled.guarded (Keeping.retried ?_) _ session hsound, guarded_idle _ hidle⟩
    exact (ensureConnected_keeping answers namespacePath).bind fun _ =>
      classStatus_keeping answers className _
  | getObject objectPath =>
    exact ⟨getObject_settled answers namespacePath objectPath session hsound,
      guarded_idle _ hidle⟩
  | callMethodRead objectPath methodName inputs =>
    refine ⟨?_, ?_⟩
    · refine callMethodRead_keeps answers namespacePath ?_ hsound
      exact executeReadMethodOnce_settled answers namespacePath objectPath methodName inputs
    · refine callMethodRead_keeps (P := fun session => session.operationActive = false) answers
        namespacePath ?_ hidle
      exact fun _ hfree => guarded_idle _ hfree
  | invokeMethod objectPath methodName inputs =>
    refine ⟨Settled.guarded (Keeping.attempted ?_) _ session hsound, guarded_idle _ hidle⟩
    exact (ensureConnected_keeping answers namespacePath).bind fun _ =>
      (prepareMethodCall_keeping answers _ _ _).bind fun className =>
        sendMethod_keeping answers _ _ _ _
  | putInstance className props mode =>
    refine ⟨Settled.guarded (Keeping.attempted ?_) _ session hsound, guarded_idle _ hidle⟩
    exact (ensureConnected_keeping answers namespacePath).bind fun _ =>
      (prepareInstance_keeping answers _ _ _).bind fun _ => sendInstance_keeping answers _ _ _

/-- In every run: a connection over which a request has failed for the connection's sake is
never used again, the one in use has not failed, and the guard is free. -/
theorem run_sound (operations : List Operation) :
    Sound (run answers namespacePath operations) ∧
      (run answers namespacePath operations).operationActive = false := by
  have hsteps : ∀ session : WmiSession, Sound session → session.operationActive = false →
      Sound (operations.foldl (operate answers namespacePath) session) ∧
        (operations.foldl (operate answers namespacePath) session).operationActive = false := by
    induction operations with
    | nil => exact fun session hsound hidle => ⟨hsound, hidle⟩
    | cons operation rest ih =>
      intro session hsound hidle
      obtain ⟨hafter, hfree⟩ := operate_sound answers namespacePath hsound hidle operation
      exact ih _ hafter hfree
  refine hsteps {} ⟨⟨?_, ?_, ?_⟩, ?_⟩ rfl
  · intro entry hentry
    cases hentry
  · intro number hnumber
    cases hnumber
  · intro earlier entry later hsplit
    simp at hsplit
  · intro number hnumber
    cases hnumber

end WmiSession

end UwfManager
