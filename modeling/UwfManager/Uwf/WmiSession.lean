import UwfManager.Uwf.WmiOperations

/-!
# The session behind the WMI calls

A session keeps one connection and gives it up when a call over it fails.  A call that reads
is made once more after such a failure.  A call that writes is made once, and its exception
says whether the write may have had an effect.
-/

namespace UwfManager

/-! ## Status codes -/

namespace WmiStatus

def failed (hresult : ℕ) : Bool := decide (0x80000000 ≤ hresult)

/-- `E_UNEXPECTED`, for an object that is missing though nothing failed. -/
def unexpected : ℕ := 0x8000ffff

/-- The status codes after which a connection is of no use any more. -/
def isWmiConnectionFailure (hresult : ℕ) : Bool :=
  [0x80010108, 0x80010007, 0x80010012, 0x80080008, 0x800401fd, 0x800706ba, 0x800706be,
    0x800706bf, 0x80041015, 0x80041086, 0x80041071, 0x80041033].contains hresult

/-- What WMI refuses before it calls a provider; any other failure may come after. -/
def isKnownPreInvocationRejection (hresult : ℕ) : Bool :=
  [0x80070057, 0x80070005, 0x80041003, 0x80041008, 0x8004102e, 0x8004102f, 0x8004100c,
    0x8004103a, 0x80041010, 0x80041002, 0x80041019, 0x80041005, 0x80041023, 0x80041016,
    0x80041031, 0x80041056].contains hresult

end WmiStatus

open WmiStatus

/-! ## Exceptions -/

/-- An exception with its status where it is one of WMI. -/
structure WmiException where
  kind : WmiExceptionKind
  code : Option ℕ
  operation : Text
  detail : Text

def WmiException.what (exception : WmiException) : Text :=
  composeMessage exception.operation exception.detail

inductive WmiSessionThrown where
  | wmi (exception : WmiException)
  | standard (what : Text)
  | other

/-! ## The session -/

inductive WmiRequest where
  | contextToken
  | createLocator
  | connectServer
  | proxyBlanket
  | getObject (path : Text)
  | getMethod (name : Text)
  | spawnInstance
  | put (name : Text)
  | execMethod (path name : Text)
  | getReturnValue
  | putInstance (className : Text) (mode : WmiPutMode)
  deriving DecidableEq

/-- A request with the connection it was made over and the status it came back with. -/
structure WmiSessionEntry where
  connection : Option ℕ
  request : WmiRequest
  status : ℕ

/-- The connections are numbered as they are established. -/
structure WmiSession where
  services : Option ℕ := none
  connections : ℕ := 0
  operationActive : Bool := false
  log : List WmiSessionEntry := []

/-- How the decoding of a response fails. -/
inductive WmiDecodeFailure where
  | transport (hresult : ℕ) (detail : Text)
  | decode (detail : Text)
  | conversion (what : Text)
  | standard (what : Text)
  | other

/-- What the system answers after the requests so far, and how it shows a status. -/
structure WmiSessionAnswers where
  status : WmiRequest → List WmiSessionEntry → ℕ
  present : WmiRequest → List WmiSessionEntry → Bool
  returnValue : List WmiSessionEntry → Except WmiDecodeFailure ℕ
  outputs : List WmiSessionEntry → Except WmiDecodeFailure WmiMethodOutput
  properties : List WmiSessionEntry → Except WmiDecodeFailure WmiRow
  extendedErrorDetail : List WmiSessionEntry → Text
  hrText : ℕ → Text

abbrev WmiSessionAction := StatefulAction WmiSessionThrown WmiSession

def throwWmi {A : Type} (kind : WmiExceptionKind) (code : Option ℕ) (operation detail : Text) :
    WmiSessionAction A :=
  StatefulAction.fail (.wmi
    { kind := kind, code := code, operation := operation, detail := detail })

def throwComFailure {A : Type} (hresult : ℕ) (operation detail : Text) : WmiSessionAction A :=
  if isWmiConnectionFailure hresult then throwWmi .transport (some hresult) operation detail
  else throwWmi (.infrastructure hresult) (some hresult) operation detail

def throwWriteInvocationFailure {A : Type} (hresult : ℕ) (operation detail : Text) :
    WmiSessionAction A :=
  if isKnownPreInvocationRejection hresult then throwComFailure hresult operation detail
  else throwWmi .invocationUncertain (some hresult) operation detail

namespace WmiSession

variable (answers : WmiSessionAnswers)

def request (sent : WmiRequest) : WmiSessionAction ℕ := fun session =>
  let status := answers.status sent session.log
  (.ok status, { session with log := session.log ++ [⟨session.services, sent, status⟩] })

/-- Whether the request returned an object as well. -/
def returned (sent : WmiRequest) : WmiSessionAction Bool := fun session =>
  (.ok (answers.present sent session.log), session)

/-! ## The connection -/

def invalidate (session : WmiSession) : WmiSession := { session with services := none }

def reset : WmiSessionAction Unit := fun session => (.ok (), session.invalidate)

def establish : WmiSessionAction Unit := fun session =>
  (.ok (), { session with services := some session.connections
                          connections := session.connections + 1 })

/-- The status that stands for a request without its object. -/
def failureOf (hresult : ℕ) : ℕ := if failed hresult then hresult else unexpected

def reconnectWithinOperation (namespacePath : Text) : WmiSessionAction Unit := do
  reset
  let hr ← request answers .contextToken
  if failed hr then
    throwWmi (.infrastructure hr) (some hr) "obtain COM apartment".toList (answers.hrText hr)
  else
  let hr ← request answers .createLocator
  let located ← returned answers .createLocator
  if failed hr || !located then do
    reset
    throwWmi (.infrastructure (failureOf hr)) (some (failureOf hr)) "create WMI locator".toList
      (answers.hrText (failureOf hr))
  else
  let hr ← request answers .connectServer
  let connected ← returned answers .connectServer
  if failed hr || !connected then do
    reset
    throwComFailure (failureOf hr) ("connect WMI namespace ".toList ++ namespacePath)
      (answers.hrText (failureOf hr))
  else
  establish
  let hr ← request answers .proxyBlanket
  if failed hr then do
    reset
    throwComFailure hr "configure WMI proxy security".toList (answers.hrText hr)
  else pure ()

def ensureConnectedWithinOperation (namespacePath : Text) : WmiSessionAction Unit :=
  fun session =>
    if session.services.isNone then reconnectWithinOperation answers namespacePath session
    else (.ok (), session)

/-- `OperationGuard`: one operation at a time on the thread of the session. -/
def guarded {A : Type} (operation : Text) (action : WmiSessionAction A) : WmiSessionAction A :=
  fun session =>
    if session.operationActive then
      (.error (.wmi { kind := .protocol, code := none, operation := operation
                      detail := "reentrant request on the same thread".toList }), session)
    else
      let (result, after) := action { session with operationActive := true }
      (result, { after with operationActive := false })

/-- The handlers of one attempt: a connection that failed is given up. -/
def attempted {A : Type} (action : WmiSessionAction A) : WmiSessionAction A := fun session =>
  match action session with
  | (.error (.wmi exception), after) =>
      if exception.kind = .transport ∨ (exception.kind = .invocationUncertain ∧
          exception.code.any isWmiConnectionFailure) then
        (.error (.wmi exception), after.invalidate)
      else (.error (.wmi exception), after)
  | (result, after) => (result, after)

/-- A second attempt is made where the connection of the first one failed. -/
def retried {A : Type} (action : WmiSessionAction A) : WmiSessionAction A := fun session =>
  match attempted action session with
  | (.error (.wmi exception), after) =>
      if exception.kind = .transport then attempted action after
      else (.error (.wmi exception), after)
  | (result, after) => (result, after)

def ensureConnected (namespacePath : Text) : WmiSessionAction Unit :=
  guarded "connect WMI session".toList
    (retried (ensureConnectedWithinOperation answers namespacePath))

/-! ## Methods and instances -/

/-- The class in an object path. -/
def classNameFromObjectPath (objectPath : Text) : Text :=
  let className :=
    if ['\\', '\\'].isPrefixOf objectPath then
      match objectPath.dropWhile (· ≠ ':') with
      | [] => objectPath
      | _ :: rest => rest
    else objectPath
  className.takeWhile (· ≠ '.')

/-- What is wrong with a value that cannot be handed over. -/
def valueToVariant : WmiValue → Option Text
  | .bool _ => none
  | .int value =>
      if value < -2147483648 ∨ 2147483647 < value then
        some " is outside the supported Int32 range".toList
      else none
  | .uint value =>
      if 4294967295 < value then some " is outside the supported UInt32 input range".toList
      else none
  | .double => none
  | .string _ => none
  | .none => some " is null or has an unsupported type".toList

/-- Puts one value after the other, under the words of the caller. -/
def putValues (operation : Text) (subject failure : Text → Text) :
    WmiRow → WmiSessionAction Unit
  | [] => pure ()
  | (name, value) :: rest =>
      match valueToVariant value with
      | some reason => throwWmi .protocol none operation (subject name ++ reason)
      | none => do
          let hr ← request answers (.put name)
          if failed hr then throwComFailure hr operation (failure name ++ answers.hrText hr)
          else putValues operation subject failure rest

/-- Builds the arguments of a call and returns the class of its object. -/
def prepareMethodCall (objectPath methodName : Text) (inputs : WmiRow) :
    WmiSessionAction Text :=
  let operation := "prepare WMI method ".toList ++ methodName ++ " on ".toList ++ objectPath
  let className := classNameFromObjectPath objectPath
  let member := className ++ "::".toList ++ methodName
  if objectPath.isEmpty then
    throwWmi .protocol none operation
      "object path is empty; read the row before invoking an instance method".toList
  else if className.isEmpty then
    throwWmi .protocol none operation "object path has no class name".toList
  else do
    let hr ← request answers (.getObject className)
    let found ← returned answers (.getObject className)
    if failed hr || !found then
      throwComFailure (failureOf hr) operation
        ("GetObject(".toList ++ className ++ ") failed: ".toList ++ answers.hrText (failureOf hr))
    else do
      let hr ← request answers (.getMethod methodName)
      if failed hr then
        throwComFailure hr operation
          ("GetMethod(".toList ++ member ++ ") failed: ".toList ++ answers.hrText hr)
      else do
        let signature ← returned answers (.getMethod methodName)
        let spawned ← spawnInputs operation member signature
        if !inputs.isEmpty && !spawned then
          throwWmi .protocol none operation (member ++ " has no input signature".toList)
        else do
          putValues answers operation ("input parameter ".toList ++ ·)
            (fun name => "inParams->Put(".toList ++ name ++ ") failed: ".toList) inputs
          pure className
where
  /-- The instance of the arguments, where the method takes some. -/
  spawnInputs (operation member : Text) (signature : Bool) : WmiSessionAction Bool :=
    if signature then do
      let hr ← request answers .spawnInstance
      if failed hr then
        throwComFailure hr operation
          ("SpawnInstance(".toList ++ member ++ ") failed: ".toList ++ answers.hrText hr)
      else returned answers .spawnInstance
    else pure false

/-- The exception of a failed decoding. -/
def throwDecodeFailure {A : Type} (operation : Text) : WmiDecodeFailure → WmiSessionAction A
  | .transport hresult detail => throwWmi .transport (some hresult) operation detail
  | .decode detail => throwWmi .decode none operation detail
  | .conversion what =>
      throwWmi .protocol none operation ("response has an invalid ReturnValue: ".toList ++ what)
  | .standard what => StatefulAction.fail (.standard what)
  | .other => StatefulAction.fail .other

/-- The outputs count only after the provider has returned zero. -/
def decodeVerdict (operation : Text) : WmiSessionAction WmiMethodOutput := fun session =>
  match answers.returnValue session.log with
  | .error failure => throwDecodeFailure operation failure session
  | .ok value =>
      if value ≠ 0 then throwWmi .provider (some value) operation [] session
      else
        match answers.outputs session.log with
        | .error failure => throwDecodeFailure operation failure session
        | .ok output => (.ok output, session)

/-- The return value is the verdict of the provider and is read before all other outputs. -/
def decodeMethodOutput (className methodName : Text) : WmiSessionAction WmiMethodOutput :=
  let operation := "invoke WMI method ".toList ++ className ++ "::".toList ++ methodName
  do
    let hr ← request answers .getReturnValue
    let detail := "reading ReturnValue failed: ".toList ++ answers.hrText hr
    if isWmiConnectionFailure hr then throwWmi .transport (some hr) operation detail
    else if failed hr then throwWmi .decode none operation detail
    else decodeVerdict answers operation

/-- Once a write was sent, only a verdict of the provider is certain. -/
def decodeWriteMethodOutput (className methodName operation : Text) :
    WmiSessionAction WmiMethodOutput := fun session =>
  match decodeMethodOutput answers className methodName session with
  | (.ok output, after) => (.ok output, after)
  | (.error (.wmi exception), after) =>
      if exception.kind = .provider then (.error (.wmi exception), after)
      else throwWmi .invocationUncertain exception.code operation
        ("provider outcome could not be decoded: ".toList ++ exception.what) after
  | (.error (.standard what), after) =>
      throwWmi .invocationUncertain none operation
        ("provider outcome could not be decoded: ".toList ++ what) after
  | (.error .other, after) =>
      throwWmi .invocationUncertain none operation
        "provider outcome could not be decoded because of a non-standard exception".toList after

/-- The words for a failed method, with what the provider adds to them. -/
def methodFailureDetail (hresult : ℕ) : WmiSessionAction Text := fun session =>
  let extended := answers.extendedErrorDetail session.log
  (.ok (if extended.isEmpty then answers.hrText hresult
    else answers.hrText hresult ++ "; provider detail: ".toList ++ extended), session)

/-- Sends a method whose arguments are prepared. -/
def sendMethod (objectPath methodName className operation : Text) : WmiSessionAction Unit := do
  let hr ← request answers (.execMethod objectPath methodName)
  if failed hr then do
    let detail ← methodFailureDetail answers hr
    throwWriteInvocationFailure hr operation detail
  else do
    let responded ← returned answers (.execMethod objectPath methodName)
    if !responded then
      throwWmi .invocationUncertain none operation
        "provider returned no output parameters".toList
    else do
      let _ ← decodeWriteMethodOutput answers className methodName operation
      pure ()

def invokeMethod (namespacePath objectPath methodName : Text) (inputs : WmiRow) :
    WmiSessionAction Unit :=
  guarded ("invoke WMI method ".toList ++ methodName) (attempted do
    ensureConnectedWithinOperation answers namespacePath
    let className ← prepareMethodCall answers objectPath methodName inputs
    sendMethod answers objectPath methodName className
      ("invoke WMI method ".toList ++ methodName ++ " on ".toList ++ objectPath))

/-- Builds the instance that is written. -/
def prepareInstance (className operation : Text) (props : WmiRow) : WmiSessionAction Unit := do
  let hr ← request answers (.getObject className)
  if failed hr then
    throwComFailure hr operation ("GetObject failed: ".toList ++ answers.hrText hr)
  else do
    let found ← returned answers (.getObject className)
    if !found then
      throwWmi .protocol none operation "provider returned no class object".toList
    else do
      let hr ← request answers .spawnInstance
      if failed hr then
        throwComFailure hr operation ("SpawnInstance failed: ".toList ++ answers.hrText hr)
      else do
        let spawned ← returned answers .spawnInstance
        if !spawned then
          throwWmi .protocol none operation "provider returned no writable instance".toList
        else
          putValues answers operation ("property ".toList ++ ·)
            (fun name => "setting property ".toList ++ name ++ " failed: ".toList) props

def sendInstance (className operation : Text) (mode : WmiPutMode) : WmiSessionAction Unit := do
  let hr ← request answers (.putInstance className mode)
  if failed hr then throwWriteInvocationFailure hr operation (answers.hrText hr)
  else pure ()

def putInstance (namespacePath className : Text) (props : WmiRow) (mode : WmiPutMode) :
    WmiSessionAction Unit :=
  guarded ("write WMI instance ".toList ++ className) (attempted do
    ensureConnectedWithinOperation answers namespacePath
    prepareInstance answers className ("write WMI instance ".toList ++ className) props
    sendInstance answers className ("write WMI instance ".toList ++ className) mode)

/-! ## Reads -/

inductive WmiClassStatus where
  | missing
  | present
  deriving DecidableEq, Repr

def classStatus (namespacePath className : Text) : WmiSessionAction WmiClassStatus :=
  let operation := "probe WMI class ".toList ++ className
  guarded "probe WMI class".toList (retried do
    ensureConnectedWithinOperation answers namespacePath
    let hr ← request answers (.getObject className)
    if hr = 0x80041010 ∨ hr = 0x80041002 then pure .missing
    else if failed hr then throwComFailure hr operation (answers.hrText hr)
    else do
      let found ← returned answers (.getObject className)
      if !found then
        throwWmi .protocol none operation "provider returned no class object".toList
      else pure .present)

/-- The fields of an object and its path. -/
def readObjectProps (operation : Text) : WmiSessionAction WmiRow := fun session =>
  match answers.properties session.log with
  | .error failure => throwDecodeFailure operation failure session
  | .ok row => (.ok row, session)

def getObject (namespacePath objectPath : Text) : WmiSessionAction WmiRow :=
  let operation := "read WMI object ".toList ++ objectPath
  guarded "read WMI object".toList (retried do
    ensureConnectedWithinOperation answers namespacePath
    let hr ← request answers (.getObject objectPath)
    if failed hr then throwComFailure hr operation (answers.hrText hr)
    else do
      let found ← returned answers (.getObject objectPath)
      if !found then throwWmi .protocol none operation "provider returned no object".toList
      else readObjectProps answers ("decode WMI object ".toList ++ objectPath))

def executeReadMethodOnce (namespacePath objectPath methodName : Text) (inputs : WmiRow) :
    WmiSessionAction WmiMethodOutput :=
  let operation := "invoke WMI method ".toList ++ methodName ++ " on ".toList ++ objectPath
  guarded ("invoke WMI method ".toList ++ methodName) (attempted do
    ensureConnectedWithinOperation answers namespacePath
    let className ← prepareMethodCall answers objectPath methodName inputs
    let hr ← request answers (.execMethod objectPath methodName)
    if failed hr then do
      let detail ← methodFailureDetail answers hr
      throwComFailure hr operation detail
    else do
      let responded ← returned answers (.execMethod objectPath methodName)
      if !responded then
        throwWmi .protocol none operation "provider returned no output parameters".toList
      else decodeMethodOutput answers className methodName)

/-- The guard is taken anew for the second attempt. -/
def callMethodRead (namespacePath objectPath methodName : Text) (inputs : WmiRow) :
    WmiSessionAction WmiMethodOutput := fun session =>
  match executeReadMethodOnce answers namespacePath objectPath methodName inputs session with
  | (.error (.wmi exception), after) =>
      if exception.kind = .transport then
        executeReadMethodOnce answers namespacePath objectPath methodName inputs after
      else (.error (.wmi exception), after)
  | (result, after) => (result, after)

/-! ## Runs -/

inductive Operation where
  | ensureConnected
  | classStatus (className : Text)
  | getObject (objectPath : Text)
  | callMethodRead (objectPath methodName : Text) (inputs : WmiRow)
  | invokeMethod (objectPath methodName : Text) (inputs : WmiRow)
  | putInstance (className : Text) (props : WmiRow) (mode : WmiPutMode)

/-- What an operation leaves, whatever it returned or threw. -/
def operate (namespacePath : Text) (session : WmiSession) : Operation → WmiSession
  | .ensureConnected => (ensureConnected answers namespacePath session).2
  | .classStatus className => (classStatus answers namespacePath className session).2
  | .getObject objectPath => (getObject answers namespacePath objectPath session).2
  | .callMethodRead objectPath methodName inputs =>
      (callMethodRead answers namespacePath objectPath methodName inputs session).2
  | .invokeMethod objectPath methodName inputs =>
      (invokeMethod answers namespacePath objectPath methodName inputs session).2
  | .putInstance className props mode =>
      (putInstance answers namespacePath className props mode session).2

/-- A new session after these operations. -/
def run (namespacePath : Text) (operations : List Operation) : WmiSession :=
  operations.foldl (operate answers namespacePath) {}

end WmiSession

end UwfManager
