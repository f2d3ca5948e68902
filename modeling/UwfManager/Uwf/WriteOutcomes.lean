import UwfManager.Uwf.WmiSession

/-!
# A write is sent once and its exception tells of it

Everything that comes before the request of a write fails without an effect.  Once it was
sent, an exception without an effect means that WMI or the provider has refused it.
-/

namespace UwfManager

open WmiStatus

def WmiRequest.isWrite : WmiRequest → Bool
  | .execMethod _ _ => true
  | .putInstance _ _ => true
  | _ => false

namespace WmiSession

/-- The writes a session has sent. -/
def writes (session : WmiSession) : List WmiSessionEntry :=
  session.log.filter fun entry => entry.request.isWrite

@[simp] theorem invalidate_writes (session : WmiSession) :
    session.invalidate.writes = session.writes := rfl

/-! ## The preparation -/

/-- The action sends no write, and its exceptions tell of none. -/
def Preparing {A : Type} (action : WmiSessionAction A) : Prop :=
  ∀ session, (action session).2.writes = session.writes ∧
    ∀ thrown, (action session).1 = .error thrown →
      ∃ exception, thrown = .wmi exception ∧ exception.kind.writeEffect = .none

namespace Preparing

variable {A B : Type}

/-- What always returns and sends no write. -/
theorem of_returns {action : WmiSessionAction A} (hreturns : ∀ session, ∃ value after,
    action session = (.ok value, after) ∧ after.writes = session.writes) : Preparing action := by
  intro session
  obtain ⟨value, after, hrun, hwrites⟩ := hreturns session
  rw [hrun]
  refine ⟨hwrites, ?_⟩
  intro thrown hthrown
  cases hthrown

theorem pure (value : A) : Preparing (Pure.pure value) :=
  of_returns fun session => ⟨value, session, rfl, rfl⟩

theorem bind {action : WmiSessionAction A} {next : A → WmiSessionAction B}
    (haction : Preparing action) (hnext : ∀ value, Preparing (next value)) :
    Preparing (action >>= next) := by
  intro session
  have hstart := haction session
  rcases hrun : action session with ⟨thrown | value, after⟩
  · rw [StatefulAction.bind_of_error hrun]
    rw [hrun] at hstart
    refine ⟨hstart.1, ?_⟩
    intro failure hfailure
    obtain rfl := Except.error.inj hfailure
    exact hstart.2 thrown rfl
  · rw [StatefulAction.bind_of_ok hrun]
    rw [hrun] at hstart
    exact ⟨(hnext value after).1.trans hstart.1, (hnext value after).2⟩

theorem throwWmi {kind : WmiExceptionKind} (hkind : kind.writeEffect = .none)
    (code : Option ℕ) (operation detail : Text) :
    Preparing (UwfManager.throwWmi kind code operation detail : WmiSessionAction A) := by
  intro session
  refine ⟨rfl, ?_⟩
  intro thrown hthrown
  obtain rfl := Except.error.inj hthrown
  exact ⟨_, rfl, hkind⟩

theorem throwComFailure (hresult : ℕ) (operation detail : Text) :
    Preparing (UwfManager.throwComFailure hresult operation detail : WmiSessionAction A) := by
  rw [UwfManager.throwComFailure]
  split_ifs
  · exact throwWmi rfl _ _ _
  · exact throwWmi rfl _ _ _

variable (answers : WmiSessionAnswers)

theorem request {sent : WmiRequest} (hsent : sent.isWrite = false) :
    Preparing (WmiSession.request answers sent) :=
  of_returns fun session => ⟨_, _, rfl, by simp [writes, hsent]⟩

theorem returned (sent : WmiRequest) : Preparing (WmiSession.returned answers sent) :=
  of_returns fun session => ⟨_, session, rfl, rfl⟩

theorem reset : Preparing WmiSession.reset :=
  of_returns fun session => ⟨(), session.invalidate, rfl, rfl⟩

theorem establish : Preparing WmiSession.establish :=
  of_returns fun _ => ⟨(), _, rfl, rfl⟩

theorem ensureConnected (namespacePath : Text) :
    Preparing (ensureConnectedWithinOperation answers namespacePath) := by
  have hreconnect : Preparing (reconnectWithinOperation answers namespacePath) := by
    rw [reconnectWithinOperation]
    refine bind reset fun _ => bind (request answers rfl) fun hr => ?_
    split_ifs
    · exact throwWmi rfl _ _ _
    · refine bind (request answers rfl) fun hr => bind (returned answers _) fun located => ?_
      split_ifs
      · exact bind reset fun _ => throwWmi rfl _ _ _
      · refine bind (request answers rfl) fun hr => bind (returned answers _) fun connected => ?_
        split_ifs
        · exact bind reset fun _ => throwComFailure _ _ _
        · refine bind establish fun _ => bind (request answers rfl) fun hr => ?_
          split_ifs
          · exact bind reset fun _ => throwComFailure _ _ _
          · exact pure ()
  intro session
  rw [ensureConnectedWithinOperation]
  split_ifs
  · exact hreconnect session
  · refine ⟨rfl, ?_⟩
    intro thrown hthrown
    cases hthrown

theorem putValues (operation : Text) (subject failure : Text → Text) (row : WmiRow) :
    Preparing (WmiSession.putValues answers operation subject failure row) := by
  induction row with
  | nil => exact pure ()
  | cons field rest ih =>
    obtain ⟨name, value⟩ := field
    rw [WmiSession.putValues]
    cases valueToVariant value with
    | some reason => exact throwWmi rfl _ _ _
    | none =>
      refine bind (request answers rfl) fun hr => ?_
      split_ifs
      · exact throwComFailure _ _ _
      · exact ih

theorem prepareMethodCall (objectPath methodName : Text) (inputs : WmiRow) :
    Preparing (WmiSession.prepareMethodCall answers objectPath methodName inputs) := by
  have hspawn : ∀ operation member signature, Preparing
      (WmiSession.prepareMethodCall.spawnInputs answers operation member signature) := by
    intro operation member signature
    rw [WmiSession.prepareMethodCall.spawnInputs]
    split_ifs
    · refine bind (request answers rfl) fun hr => ?_
      split_ifs
      · exact throwComFailure _ _ _
      · exact returned answers _
    · exact pure false
  rw [WmiSession.prepareMethodCall]
  split_ifs
  · exact throwWmi rfl _ _ _
  · exact throwWmi rfl _ _ _
  · refine bind (request answers rfl) fun hr => bind (returned answers _) fun found => ?_
    split_ifs
    · exact throwComFailure _ _ _
    · refine bind (request answers rfl) fun hr => ?_
      split_ifs
      · exact throwComFailure _ _ _
      · refine bind (returned answers _) fun signature => bind (hspawn _ _ _) fun spawned => ?_
        split_ifs
        · exact throwWmi rfl _ _ _
        · exact bind (putValues answers _ _ _ _) fun _ => pure _

theorem prepareInstance (className operation : Text) (props : WmiRow) :
    Preparing (WmiSession.prepareInstance answers className operation props) := by
  rw [WmiSession.prepareInstance]
  refine bind (request answers rfl) fun hr => ?_
  split_ifs
  · exact throwComFailure _ _ _
  · refine bind (returned answers _) fun found => ?_
    split_ifs
    · exact throwWmi rfl _ _ _
    · refine bind (request answers rfl) fun hr => ?_
      split_ifs
      · exact throwComFailure _ _ _
      · refine bind (returned answers _) fun spawned => ?_
        split_ifs
        · exact throwWmi rfl _ _ _
        · exact putValues answers _ _ _ _

end Preparing

/-! ## The request -/

/-- The provider has answered the method with a value other than zero. -/
structure Verdict (answers : WmiSessionAnswers) (sent : WmiRequest) (exception : WmiException)
    (after : WmiSession) : Prop where
  method : ∃ objectPath methodName, sent = .execMethod objectPath methodName
  kind : exception.kind = .provider
  value : ∃ value, answers.returnValue after.log = .ok value ∧ value ≠ 0

/-- What the end of a write tells: it was not sent and the exception tells of no effect, or it
was sent once, and an exception without an effect stands for a refusal. -/
inductive Told (answers : WmiSessionAnswers) (sent : WmiRequest) (before : WmiSession) :
    Except WmiSessionThrown Unit × WmiSession → Prop
  | unsent {exception : WmiException} {after : WmiSession} (hwrites : after.writes = before.writes)
      (heffect : exception.kind.writeEffect = .none) :
      Told answers sent before (.error (.wmi exception), after)
  | done {entry : WmiSessionEntry} {after : WmiSession}
      (hwrites : after.writes = before.writes ++ [entry]) (hentry : entry.request = sent)
      (hstatus : failed entry.status = false) : Told answers sent before (.ok (), after)
  | refused {entry : WmiSessionEntry} {exception : WmiException} {after : WmiSession}
      (hwrites : after.writes = before.writes ++ [entry]) (hentry : entry.request = sent)
      (heffect : exception.kind.writeEffect = .none)
      (hrefused : isKnownPreInvocationRejection entry.status = true ∨
        Verdict answers sent exception after) :
      Told answers sent before (.error (.wmi exception), after)
  | uncertain {entry : WmiSessionEntry} {exception : WmiException} {after : WmiSession}
      (hwrites : after.writes = before.writes ++ [entry]) (hentry : entry.request = sent)
      (heffect : exception.kind.writeEffect = .uncertain) :
      Told answers sent before (.error (.wmi exception), after)

namespace Told

variable {answers : WmiSessionAnswers} {sent : WmiRequest} {before session : WmiSession}
  {run : Except WmiSessionThrown Unit × WmiSession}

/-- What is told depends on the writes before only, and on the log after. -/
theorem transfer (htold : Told answers sent session run) (hbefore : before.writes = session.writes)
    {after : WmiSession} (hlog : after.log = run.2.log) :
    Told answers sent before (run.1, after) := by
  have hafter : after.writes = run.2.writes := by rw [writes, writes, hlog]
  cases htold with
  | unsent hwrites heffect => exact .unsent (hafter.trans (hwrites.trans hbefore.symm)) heffect
  | done hwrites hentry hstatus =>
    exact .done (hafter.trans (hwrites.trans (by rw [hbefore]))) hentry hstatus
  | refused hwrites hentry heffect hrefused =>
    refine .refused (hafter.trans (hwrites.trans (by rw [hbefore]))) hentry heffect ?_
    refine hrefused.imp_right fun hverdict => ⟨hverdict.method, hverdict.kind, ?_⟩
    rw [hlog]
    exact hverdict.value
  | uncertain hwrites hentry heffect =>
    exact .uncertain (hafter.trans (hwrites.trans (by rw [hbefore]))) hentry heffect

/-- A write whose preparation failed was not sent, and after it the request decides. -/
theorem after_preparing {A : Type} {prepare : WmiSessionAction A}
    {send : A → WmiSessionAction Unit} (hprepare : Preparing prepare)
    (hsend : ∀ value session, Told answers sent session (send value session)) :
    Told answers sent before ((prepare >>= send) before) := by
  have hstart := hprepare before
  rcases hrun : prepare before with ⟨thrown | value, after⟩
  · rw [hrun] at hstart
    obtain ⟨exception, rfl, heffect⟩ := hstart.2 thrown rfl
    rw [StatefulAction.bind_of_error hrun]
    exact .unsent hstart.1 heffect
  · rw [hrun] at hstart
    rw [StatefulAction.bind_of_ok hrun]
    exact (hsend value after).transfer hstart.1.symm rfl

theorem attempted {action : WmiSessionAction Unit}
    (haction : Told answers sent before (action before)) :
    Told answers sent before (WmiSession.attempted action before) := by
  rw [WmiSession.attempted]
  rcases hrun : action before with ⟨thrown | value, after⟩
  · rw [hrun] at haction
    cases thrown with
    | wmi exception =>
      dsimp only
      split_ifs
      · exact haction.transfer rfl rfl
      · exact haction
    | standard what => exact haction
    | other => exact haction
  · rw [hrun] at haction
    exact haction

theorem guarded {operation : Text} {action : WmiSessionAction Unit}
    (haction : ∀ session, Told answers sent session (action session)) :
    Told answers sent before (WmiSession.guarded operation action before) := by
  rw [WmiSession.guarded]
  split_ifs
  · exact .unsent rfl rfl
  · have hinner := haction { before with operationActive := true }
    have hbefore : before.writes =
        ({ before with operationActive := true } : WmiSession).writes := rfl
    exact hinner.transfer hbefore rfl

end Told

variable (answers : WmiSessionAnswers)

/-- The write itself, and what was answered to it. -/
theorem request_writes {sent : WmiRequest} (hsent : sent.isWrite = true) (session : WmiSession) :
    ∃ after, request answers sent session = (.ok (answers.status sent session.log), after) ∧
      after.writes = session.writes ++
        [⟨session.services, sent, answers.status sent session.log⟩] :=
  ⟨_, rfl, by simp [writes, hsent]⟩

theorem told_of_writeInvocationFailure {sent : WmiRequest} {before after : WmiSession}
    {entry : WmiSessionEntry} (hwrites : after.writes = before.writes ++ [entry])
    (hentry : entry.request = sent) (operation detail : Text) :
    Told answers sent before
      (throwWriteInvocationFailure entry.status operation detail after) := by
  rw [throwWriteInvocationFailure]
  split_ifs with hknown
  · rw [throwComFailure]
    split_ifs
    · exact .refused hwrites hentry rfl (.inl hknown)
    · exact .refused hwrites hentry rfl (.inl hknown)
  · exact .uncertain hwrites hentry rfl

theorem sendInstance_told (className operation : Text) (mode : WmiPutMode)
    (session : WmiSession) :
    Told answers (.putInstance className mode) session
      (sendInstance answers className operation mode session) := by
  obtain ⟨after, hrun, hwrites⟩ :=
    request_writes answers (show (WmiRequest.putInstance className mode).isWrite = true from rfl)
      session
  rw [sendInstance, StatefulAction.bind_of_ok hrun]
  split_ifs with hfailed
  · exact told_of_writeInvocationFailure answers hwrites rfl _ _
  · exact .done hwrites rfl (by simpa using hfailed)

/-! ## The response of a method -/

/-- The decoding sends nothing; it succeeds, refuses by the verdict of the provider, or fails
otherwise. -/
inductive Decoded (before : WmiSession) :
    Except WmiSessionThrown WmiMethodOutput × WmiSession → Prop
  | output {output : WmiMethodOutput} {after : WmiSession}
      (hwrites : after.writes = before.writes) :
      Decoded before (.ok output, after)
  | verdict {exception : WmiException} {after : WmiSession} (hwrites : after.writes = before.writes)
      (hkind : exception.kind = .provider)
      (hvalue : ∃ value, answers.returnValue after.log = .ok value ∧ value ≠ 0) :
      Decoded before (.error (.wmi exception), after)
  | failed {exception : WmiException} {after : WmiSession} (hwrites : after.writes = before.writes)
      (hkind : exception.kind ≠ .provider) : Decoded before (.error (.wmi exception), after)
  | standard {what : Text} {after : WmiSession} (hwrites : after.writes = before.writes) :
      Decoded before (.error (.standard what), after)
  | other {after : WmiSession} (hwrites : after.writes = before.writes) :
      Decoded before (.error .other, after)

theorem throwDecodeFailure_decoded (operation : Text) (failure : WmiDecodeFailure)
    {before after : WmiSession} (hwrites : after.writes = before.writes) :
    Decoded answers before (throwDecodeFailure operation failure after) := by
  cases failure with
  | transport hresult detail => exact .failed hwrites (by simp)
  | decode detail => exact .failed hwrites (by simp)
  | conversion what => exact .failed hwrites (by simp)
  | standard what => exact .standard hwrites
  | other => exact .other hwrites

theorem decodeVerdict_decoded (operation : Text) {before after : WmiSession}
    (hwrites : after.writes = before.writes) :
    Decoded answers before (decodeVerdict answers operation after) := by
  rw [decodeVerdict]
  cases hvalue : answers.returnValue after.log with
  | error failure => exact throwDecodeFailure_decoded answers _ failure hwrites
  | ok value =>
    dsimp only
    split_ifs with hverdict
    · exact .verdict hwrites rfl ⟨value, hvalue, hverdict⟩
    · cases answers.outputs after.log with
      | error failure => exact throwDecodeFailure_decoded answers _ failure hwrites
      | ok output => exact .output hwrites

theorem decodeMethodOutput_decoded (className methodName : Text) (session : WmiSession) :
    Decoded answers session (decodeMethodOutput answers className methodName session) := by
  have hread := (Preparing.request answers
    (show WmiRequest.getReturnValue.isWrite = false from rfl) session).1
  rcases hrun : request answers .getReturnValue session with ⟨thrown | hr, after⟩
  · cases (Prod.mk.inj hrun).1
  rw [hrun] at hread
  rw [decodeMethodOutput]
  dsimp only
  rw [StatefulAction.bind_of_ok hrun]
  split_ifs
  · exact .failed hread (by simp)
  · exact .failed hread (by simp)
  · exact decodeVerdict_decoded answers _ hread

/-- What is not a verdict of the provider leaves the effect uncertain. -/
theorem decodeWriteMethodOutput_uncertain {className methodName : Text} (operation : Text)
    {thrown : WmiSessionThrown} {session after : WmiSession}
    (hrun : decodeMethodOutput answers className methodName session = (.error thrown, after))
    (hkind : ∀ exception, thrown = .wmi exception → exception.kind ≠ .provider) :
    ∃ exception, decodeWriteMethodOutput answers className methodName operation session =
        (.error (.wmi exception), after) ∧ exception.kind.writeEffect = .uncertain := by
  rw [decodeWriteMethodOutput, hrun]
  cases thrown with
  | wmi exception => exact ⟨_, if_neg (hkind exception rfl), rfl⟩
  | standard what => exact ⟨_, rfl, rfl⟩
  | other => exact ⟨_, rfl, rfl⟩

/-- The end of a method that was sent: the decoding turns every doubt into an uncertain
effect. -/
theorem decodeWriteMethodOutput_told {sent : WmiRequest} {before after : WmiSession}
    {entry : WmiSessionEntry} (className methodName operation : Text)
    (hmethod : ∃ objectPath name, sent = .execMethod objectPath name)
    (hwrites : after.writes = before.writes ++ [entry]) (hentry : entry.request = sent)
    (hstatus : WmiStatus.failed entry.status = false) :
    Told answers sent before ((do
      let _ ← decodeWriteMethodOutput answers className methodName operation
      pure () : WmiSessionAction Unit) after) := by
  have hdecoded := decodeMethodOutput_decoded answers className methodName after
  rcases hrun : decodeMethodOutput answers className methodName after with ⟨result, decoded⟩
  rw [hrun] at hdecoded
  cases hdecoded with
  | @output output _ hsame =>
    have hwrite : decodeWriteMethodOutput answers className methodName operation after =
        (.ok output, decoded) := by rw [decodeWriteMethodOutput, hrun]
    rw [StatefulAction.bind_of_ok hwrite]
    exact .done (hsame.trans hwrites) hentry hstatus
  | @verdict exception _ hsame hkind hvalue =>
    have hwrite : decodeWriteMethodOutput answers className methodName operation after =
        (.error (.wmi exception), decoded) := by
      rw [decodeWriteMethodOutput, hrun]
      exact if_pos hkind
    rw [StatefulAction.bind_of_error hwrite]
    refine .refused (hsame.trans hwrites) hentry ?_ (.inr ⟨hmethod, hkind, hvalue⟩)
    rw [hkind]
    rfl
  | @failed exception _ hsame hkind =>
    obtain ⟨doubt, hwrite, heffect⟩ := decodeWriteMethodOutput_uncertain answers operation hrun
      (fun cause hcause => by
        obtain rfl := WmiSessionThrown.wmi.inj hcause
        exact hkind)
    rw [StatefulAction.bind_of_error hwrite]
    exact .uncertain (hsame.trans hwrites) hentry heffect
  | @standard what _ hsame =>
    obtain ⟨doubt, hwrite, heffect⟩ := decodeWriteMethodOutput_uncertain answers operation hrun
      (fun cause hcause => by cases hcause)
    rw [StatefulAction.bind_of_error hwrite]
    exact .uncertain (hsame.trans hwrites) hentry heffect
  | other hsame =>
    obtain ⟨doubt, hwrite, heffect⟩ := decodeWriteMethodOutput_uncertain answers operation hrun
      (fun cause hcause => by cases hcause)
    rw [StatefulAction.bind_of_error hwrite]
    exact .uncertain (hsame.trans hwrites) hentry heffect

theorem sendMethod_told (objectPath methodName className operation : Text)
    (session : WmiSession) :
    Told answers (.execMethod objectPath methodName) session
      (sendMethod answers objectPath methodName className operation session) := by
  obtain ⟨after, hrun, hwrites⟩ := request_writes answers
    (show (WmiRequest.execMethod objectPath methodName).isWrite = true from rfl) session
  rw [sendMethod, StatefulAction.bind_of_ok hrun]
  split_ifs with hfailed
  · exact told_of_writeInvocationFailure answers hwrites rfl _ _
  · have hreturned : returned answers (.execMethod objectPath methodName) after =
        (.ok (answers.present (.execMethod objectPath methodName) after.log), after) := rfl
    rw [StatefulAction.bind_of_ok hreturned]
    split_ifs
    · exact .uncertain hwrites rfl rfl
    · exact decodeWriteMethodOutput_told answers _ _ _ ⟨objectPath, methodName, rfl⟩ hwrites rfl
        (by simpa using hfailed)

/-- Whatever the system answers, a method and an instance are sent at most once, and the end
of the call tells whether they were. -/
theorem writes_told (namespacePath : Text) (session : WmiSession) :
    (∀ objectPath methodName inputs,
      Told answers (.execMethod objectPath methodName) session
        (invokeMethod answers namespacePath objectPath methodName inputs session)) ∧
    ∀ className props mode,
      Told answers (.putInstance className mode) session
        (putInstance answers namespacePath className props mode session) := by
  refine ⟨?_, ?_⟩
  · intro objectPath methodName inputs
    refine Told.guarded fun active => Told.attempted ?_
    refine Told.after_preparing (Preparing.ensureConnected answers namespacePath) ?_
    intro _ connected
    refine Told.after_preparing (Preparing.prepareMethodCall answers _ _ _) ?_
    intro className prepared
    exact sendMethod_told answers _ _ _ _ prepared
  · intro className props mode
    refine Told.guarded fun active => Told.attempted ?_
    refine Told.after_preparing (Preparing.ensureConnected answers namespacePath) ?_
    intro _ connected
    refine Told.after_preparing (Preparing.prepareInstance answers _ _ _) ?_
    intro _ prepared
    exact sendInstance_told answers _ _ _ prepared

end WmiSession

end UwfManager
