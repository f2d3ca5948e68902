import Mathlib.Algebra.GroupWithZero.Nat
import UwfManager.Library.StatefulAction
import UwfManager.Configuration.ConfigurationExecutor

/-!
# WMI

The values and rows of a WMI provider, the exceptions of its calls, and the
strict decoding of the rows.  A call that answers with data changes nothing; a
call that writes may fail before or after its effect.
-/

namespace UwfManager

/-! ## Exceptions -/

/-- The classes of `WmiException`; an error of the infrastructure keeps its status. -/
inductive WmiExceptionKind where
  | transport
  | infrastructure (hresult : ℕ)
  | provider
  | protocol
  | decode
  | invocationUncertain
  | stateVerification
  | cancelled
  deriving DecidableEq, Repr

/-- The two write outcome errors tell of an uncertain effect, the others of none. -/
def WmiExceptionKind.writeEffect : WmiExceptionKind → WriteEffect
  | .invocationUncertain => .uncertain
  | .stateVerification => .uncertain
  | _ => .none

/-- A `std::exception` of a WMI call. -/
inductive WmiFailure where
  | wmi (kind : WmiExceptionKind) (what : Text)
  | standard (what : Text)
  deriving DecidableEq

inductive WmiThrown where
  | failure (failure : WmiFailure)
  | other
  deriving DecidableEq

def composeMessage (operation detail : Text) : Text :=
  if detail.isEmpty then operation else operation ++ ": ".toList ++ detail

namespace WmiFailure

def of (kind : WmiExceptionKind) (operation detail : Text) : WmiFailure :=
  .wmi kind (composeMessage operation detail)

def what : WmiFailure → Text
  | .wmi _ what => what
  | .standard what => what

def error : WmiFailure → StandardError
  | .wmi kind what => ⟨what, some kind.writeEffect⟩
  | .standard what => ⟨what, none⟩

end WmiFailure

def WmiThrown.thrown : WmiThrown → Thrown
  | .failure cause => .standard cause.error
  | .other => .other

/-- The status of an instance that exists already. -/
def wbemAlreadyExists : ℕ := 0x80041019

def isAlreadyExists (hresult : ℕ) : Bool := hresult == wbemAlreadyExists

/-! ## Values and rows -/

inductive WmiValue where
  | none
  | bool (value : Bool)
  | int (value : ℤ)
  | uint (value : ℕ)
  | double
  | string (value : Text)
  deriving DecidableEq

abbrev WmiRow := List (Text × WmiValue)

structure WmiMethodOutput where
  values : WmiRow

inductive WmiPutMode where
  | createOnly
  | updateOnly
  deriving DecidableEq, Repr

namespace WmiRow

def throwFieldError {α : Type*} (key : Text) (reason : String) : Except WmiFailure α :=
  .error (.of .decode "decode WMI row".toList
    ("field '".toList ++ key ++ "' ".toList ++ reason.toList))

def requireBool (row : WmiRow) (key : Text) : Except WmiFailure Bool :=
  match row.lookup key with
  | none => throwFieldError key "is missing"
  | some (.bool value) => .ok value
  | some _ => throwFieldError key "has the wrong type"

def requireBoolOrFalseIfNull (row : WmiRow) (key : Text) : Except WmiFailure Bool :=
  match row.lookup key with
  | none => throwFieldError key "is missing"
  | some .none => .ok false
  | some (.bool value) => .ok value
  | some _ => throwFieldError key "has the wrong type"

/-- The decimal digits of a text, without a sign. -/
def decimal? (text : Text) : Option ℕ :=
  if text.isEmpty || !text.all Char.isDigit then none
  else some (text.foldl (fun value digit => value * 10 + (digit.toNat - '0'.toNat)) 0)

def toUInt64? : WmiValue → Option ℕ
  | .int value => if 0 ≤ value then some value.toNat else none
  | .uint value => some value
  | .string text => (decimal? text).filter (· < 2 ^ 64)
  | _ => none

def isIntegerLike : WmiValue → Bool
  | .int _ => true
  | .uint _ => true
  | .string _ => true
  | _ => false

def requireUInt (row : WmiRow) (key : Text) : Except WmiFailure UInt32 :=
  match row.lookup key with
  | none => throwFieldError key "is missing"
  | some value =>
      if isIntegerLike value then
        match (toUInt64? value).filter (· < 2 ^ 32) with
        | some number => .ok (UInt32.ofNat number)
        | none => throwFieldError key "is not a valid UInt32"
      else throwFieldError key "has the wrong type"

def requireString (row : WmiRow) (key : Text) (rejectEmpty : Bool) : Except WmiFailure Text :=
  match row.lookup key with
  | none => throwFieldError key "is missing"
  | some (.string value) =>
      if rejectEmpty && value.isEmpty then throwFieldError key "is empty" else .ok value
  | some _ => throwFieldError key "has the wrong type"

end WmiRow

/-! ## The session -/

/-- The calls of a WMI session and the lookup of mounted letters, with states of
any kind.  A call whose failure is taken only as a `std::exception` throws no other. -/
structure WmiOperations (W : Type*) where
  ensureConnected : StatefulAction WmiFailure W Unit
  queryInstances : Text → StatefulAction WmiFailure W (List WmiRow)
  mountedLetters : Text → StatefulAction WmiFailure W (List Text)
  getObject : Text → StatefulAction WmiThrown W WmiRow
  callMethodRead : Text → Text → WmiRow → StatefulAction WmiThrown W WmiMethodOutput
  invokeMethod : Text → Text → WmiRow → StatefulAction WmiThrown W Unit
  putInstance : Text → WmiRow → WmiPutMode → StatefulAction WmiFailure W Unit

/-- The viewed part of the state changes only in calls that write, and there
only when the call returns or throws that its outcome is uncertain. -/
structure WmiOperations.ChangesInWrites {W C : Type*} (wmi : WmiOperations W) (view : W → C) :
    Prop where
  ensureConnected : wmi.ensureConnected.Keeps view
  queryInstances : ∀ query, (wmi.queryInstances query).Keeps view
  mountedLetters : ∀ volume, (wmi.mountedLetters volume).Keeps view
  getObject : ∀ path, (wmi.getObject path).Keeps view
  callMethodRead : ∀ path method inputs, (wmi.callMethodRead path method inputs).Keeps view
  invokeMethod : ∀ path method inputs state thrown,
    (wmi.invokeMethod path method inputs state).1 = .error thrown →
    (∀ what, thrown ≠ .failure (.wmi .invocationUncertain what)) →
    view (wmi.invokeMethod path method inputs state).2 = view state
  putInstance : ∀ name properties mode state failure,
    (wmi.putInstance name properties mode state).1 = .error failure →
    (∀ what, failure ≠ .wmi .invocationUncertain what) →
    view (wmi.putInstance name properties mode state).2 = view state

end UwfManager
