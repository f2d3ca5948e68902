import UwfManager.Library.ExceptTraverse
import UwfManager.Library.LittleEndian
import UwfManager.Library.Utf16
import UwfManager.Library.Utf8
import UwfManager.Shared.Text

/-!
# Lists of texts as values of the registry

A list of texts is one value of the registry: each text is written in UTF-16 and
ends with a null, and one more null ends the list.  The texts of the program are
UTF-8, and both conversions of the Windows interface refuse what is no text.
-/

namespace UwfManager

/-- What the calls of this layer throw.  A system error has the status that the code
names itself, if any, and `unfinished` stands for a loop that is still running. -/
inductive StorageFailure where
  | invalidArgument (what : Text)
  | lengthError (what : Text)
  | runtimeError (what : Text)
  | systemError (status : Option ℕ) (operation : Text)
  | unfinished
  deriving DecidableEq

/-! ## `UnicodeConversion` -/

namespace Windows

/-- `std::numeric_limits<int>::max()` -/
def maximumInt : ℕ := 2 ^ 31 - 1

/-- `std::numeric_limits<DWORD>::max()` -/
def maximumDword : ℕ := 2 ^ 32 - 1

def utf8ToWide (utf8 : List UInt8) : Except StorageFailure (List UInt16) :=
  if utf8.isEmpty then .ok []
  else if utf8.length > maximumInt then
    .error (.lengthError "UTF-8 input is too large to convert".toList)
  else
    match Utf8.decodeStrict utf8 with
    | some text => .ok (Utf16.encode text)
    | none => .error (.systemError none "convert UTF-8 to UTF-16".toList)

def wideToUtf8 (wide : List UInt16) : Except StorageFailure (List UInt8) :=
  if wide.isEmpty then .ok []
  else if wide.length > maximumInt then
    .error (.lengthError "UTF-16 input is too large to convert".toList)
  else
    match Utf16.decodeStrict wide with
    | some text =>
        -- the count of bytes that the interface returns is an `int`
        if (Utf8.encode text).length > maximumInt then
          .error (.systemError none "convert UTF-16 to UTF-8".toList)
        else .ok (Utf8.encode text)
    | none => .error (.systemError none "convert UTF-16 to UTF-8".toList)

/-- What is converted is a text, and is converted to the same text. -/
theorem utf8ToWide_eq_ok {utf8 : List UInt8} {wide : List UInt16}
    (hwide : utf8ToWide utf8 = .ok wide) :
    ∃ text, Utf8.encode text = utf8 ∧ Utf16.encode text = wide ∧ utf8.length ≤ maximumInt := by
  rw [utf8ToWide] at hwide
  split_ifs at hwide with hempty hlarge
  · have hnil := List.isEmpty_iff.1 hempty
    exact ⟨[], hnil.symm, Except.ok.inj hwide, hnil ▸ Nat.zero_le _⟩
  · cases hread : Utf8.decodeStrict utf8 with
    | none => simp [hread] at hwide
    | some text =>
        simp only [hread, Except.ok.injEq] at hwide
        exact ⟨text, Utf8.decodeStrict_eq_some.1 hread, hwide, Nat.le_of_not_gt hlarge⟩

theorem utf8ToWide_encode {text : List Char}
    (hlength : (Utf8.encode text).length ≤ maximumInt) :
    utf8ToWide (Utf8.encode text) = .ok (Utf16.encode text) := by
  by_cases hempty : (Utf8.encode text).isEmpty = true
  · have htext : text = [] := Utf8.encode_injective (List.isEmpty_iff.1 hempty)
    rw [htext]
    rfl
  · rw [utf8ToWide, if_neg hempty, if_neg (by omega), Utf8.decodeStrict_encode]

theorem length_wide_le (text : List Char) :
    (Utf16.encode text).length ≤ (Utf8.encode text).length := by
  induction text with
  | nil => exact Nat.le_refl _
  | cons c text ih =>
      have hchar : (Utf16.encodeChar c).length ≤ (String.utf8EncodeChar c).length := by
        rw [String.length_utf8EncodeChar, Utf16.encodeChar]
        split_ifs with hbasic
        · exact c.utf8Size_pos
        · have hvalue : 0x10000 ≤ c.val.toNat := Nat.le_of_not_lt hbasic
          rw [Char.utf8Size]
          split_ifs with hone htwo hthree
          · exact absurd (UInt32.le_iff_toNat_le.1 hone) (by simp; omega)
          · exact Nat.le_refl 2
          · exact Nat.le_succ 2
          · exact Nat.le_of_ble_eq_true rfl
      rw [Utf16.encode_cons, Utf8.encode_cons, List.length_append, List.length_append]
      exact Nat.add_le_add hchar ih

theorem wideToUtf8_encode {text : List Char}
    (hlength : (Utf8.encode text).length ≤ maximumInt) :
    wideToUtf8 (Utf16.encode text) = .ok (Utf8.encode text) := by
  have hwide := length_wide_le text
  by_cases hempty : (Utf16.encode text).isEmpty = true
  · have htext : text = [] := by
      rw [← Utf16.decode_encode text, List.isEmpty_iff.1 hempty]
      rfl
    rw [htext]
    rfl
  · rw [wideToUtf8, if_neg hempty, if_neg (by omega), Utf16.decodeStrict_encode]
    exact if_neg (by omega)

theorem wideToUtf8_ne_unfinished (wide : List UInt16) : wideToUtf8 wide ≠ .error .unfinished := by
  rw [wideToUtf8]
  split_ifs
  · exact nofun
  · exact nofun
  · split
    · split_ifs <;> exact nofun
    · exact nofun

/-- A text that is converted from UTF-8 is converted back. -/
theorem wideToUtf8_of_utf8ToWide {utf8 : List UInt8} {wide : List UInt16}
    (hwide : utf8ToWide utf8 = .ok wide) : wideToUtf8 wide = .ok utf8 := by
  obtain ⟨text, rfl, rfl, hlength⟩ := utf8ToWide_eq_ok hwide
  exact wideToUtf8_encode hlength

end Windows

/-! ## `RegistryKey` -/

/-- A value of the registry: its type and its bytes. -/
structure RegistryValue where
  type : ℕ
  data : List UInt8
  deriving DecidableEq

namespace RegKey

def regMultiSz : ℕ := 7

def errorSuccess : ℕ := 0

def errorFileNotFound : ℕ := 2

def errorPathNotFound : ℕ := 3

def errorInvalidData : ℕ := 13

def errorMoreData : ℕ := 234

def errorDatatypeMismatch : ℕ := 1629

def isNotFound (status : ℕ) : Bool := status == errorFileNotFound || status == errorPathNotFound

def registryProbeError (status : ℕ) (operation : String) : StorageFailure :=
  .systemError (some status) operation.toList

def registryTypeError (actualType : ℕ) (expectedType : String) : StorageFailure :=
  .systemError (some errorDatatypeMismatch)
    ("read registry value: expected ".toList ++ expectedType.toList ++ ", got type ".toList ++
      Nat.toDigits 10 actualType)

/-- The bytes of `wchar_t` units in memory. -/
def unitBytes (units : List UInt16) : List UInt8 :=
  units.flatMap fun unit => LittleEndian.encode 2 unit.toNat

/-- The `wchar_t` units that bytes in memory hold. -/
def bytesUnits : List UInt8 → List UInt16
  | low :: high :: rest =>
      UInt16.ofNat (LittleEndian.decode [low, high]) :: bytesUnits rest
  | _ => []

/-- The loop that cuts the buffer `data` into texts, from the unit at `offset`.  It
returns the texts and where it has stopped, and `none` if that takes more than `fuel`
passes. -/
def readValues (data : List UInt16) (characters : ℕ) :
    ℕ → ℕ → List (List UInt8) → Option (Except StorageFailure (List (List UInt8) × ℕ))
  | 0, _, _ => none
  | fuel + 1, offset, values =>
      if offset + 1 < characters ∧ data[offset]? ≠ some 0 then
        let value := (data.drop offset).takeWhile (· != 0)
        if offset + value.length = data.length then
          some (.error (registryProbeError errorInvalidData
            "read malformed registry multi-string"))
        else
          match Windows.wideToUtf8 value with
          | .error failure => some (.error failure)
          | .ok text =>
              readValues data characters fuel (offset + value.length + 1) (values ++ [text])
      else some (.ok (values, offset))

/-- Reads the texts in a buffer whose first `characters` units have been filled. -/
def parseMultiString (data : List UInt16) (characters : ℕ) :
    Except StorageFailure (List (List UInt8)) :=
  if data[characters - 1]? ≠ some 0 ∨ data[characters - 2]? ≠ some 0 then
    .error (registryProbeError errorInvalidData
      "read registry multi-string without a double-NUL terminator")
  else
    match readValues data characters (data.length + 1) 0 [] with
    | none => .error .unfinished
    | some (.error failure) => .error failure
    | some (.ok (values, offset)) =>
        if (data.drop offset).any (· != 0) then
          .error (registryProbeError errorInvalidData
            "read registry multi-string with data after its terminator")
        else .ok values

def invalidByteLength (bytes : ℕ) : Bool := bytes < 2 * 2 || bytes % 2 != 0

/-- The registry may change between the calls that open the key, ask for the size of
the value and read it; each call answers with a status or with what it has found. -/
def readMultiString (opened : Except ℕ Unit) (sized read : Except ℕ RegistryValue) :
    Except StorageFailure (Option (List (List UInt8))) :=
  match opened with
  | .error status =>
      if isNotFound status then .ok none
      else .error (registryProbeError status "open registry key for reading")
  | .ok () =>
      match sized with
      | .error status =>
          if isNotFound status then .ok none
          else .error (registryProbeError status "read registry multi-string size")
      | .ok sizing =>
          if sizing.type ≠ regMultiSz then .error (registryTypeError sizing.type "REG_MULTI_SZ")
          else if invalidByteLength sizing.data.length then
            .error (registryProbeError errorInvalidData
              "read registry multi-string with an invalid byte length")
          else
            -- a value that has grown does not fit into the buffer
            match read.bind fun value =>
              if value.data.length > sizing.data.length then .error errorMoreData
              else .ok value with
            | .error status =>
                if isNotFound status then .ok none
                else .error (registryProbeError status "read registry multi-string")
            | .ok value =>
                if value.type ≠ regMultiSz then
                  .error (registryTypeError value.type "REG_MULTI_SZ")
                else if invalidByteLength value.data.length then
                  .error (registryProbeError errorInvalidData
                    "read registry multi-string with an invalid byte length")
                else
                  (parseMultiString
                    (bytesUnits (value.data ++
                      List.replicate (sizing.data.length - value.data.length) 0))
                    (value.data.length / 2)).map some

/-- One text of a list, as it is written. -/
def multiStringUnits (value : List UInt8) : Except StorageFailure (List UInt16) :=
  if value.isEmpty then
    .error (.invalidArgument "registry multi-string entries cannot be empty".toList)
  else if value.contains 0 then
    .error (.invalidArgument "registry multi-string entries cannot contain NUL characters".toList)
  else
    match Windows.utf8ToWide value with
    | .error failure => .error failure
    | .ok wide => .ok (wide ++ [0])

/-- The units that a list is written as. -/
def multiStringData (values : List (List UInt8)) : Except StorageFailure (List UInt16) :=
  match values.mapM multiStringUnits with
  | .error failure => .error failure
  | .ok written =>
      let data := written.flatten ++ [0] ++ if values.isEmpty then [0] else []
      if data.length > Windows.maximumDword / 2 then
        .error (.lengthError "registry multi-string is too large".toList)
      else .ok data

/-- Writes a value where one may be stored.  The call that creates the key and the call
that sets the value answer with a status. -/
def writeMultiString (createStatus setStatus : ℕ) (values : List (List UInt8))
    (stored : Option RegistryValue) : Except StorageFailure Unit × Option RegistryValue :=
  if createStatus ≠ errorSuccess then
    (.error (registryProbeError createStatus "create registry key for writing"), stored)
  else
    match multiStringData values with
    | .error failure => (.error failure, stored)
    | .ok data =>
        if setStatus ≠ errorSuccess then
          (.error (registryProbeError setStatus "write registry multi-string"), stored)
        else (.ok (), some ⟨regMultiSz, unitBytes data⟩)

/-! ## The loop ends -/

/-- Each pass of the loop moves on by one unit or more. -/
theorem readValues_ends (data : List UInt16) (characters : ℕ) {fuel offset : ℕ}
    (hoffset : offset ≤ data.length) (hfuel : data.length < fuel + offset)
    (values : List (List UInt8)) :
    ∃ result, readValues data characters fuel offset values = some result ∧
      result ≠ .error .unfinished := by
  induction fuel generalizing offset values with
  | zero => omega
  | succ fuel ih =>
      have hvalue : offset + ((data.drop offset).takeWhile (· != 0)).length ≤ data.length := by
        have hlength := (List.takeWhile_prefix (· != 0) (l := data.drop offset)).length_le
        rw [List.length_drop] at hlength
        omega
      rw [readValues]
      by_cases hmore : offset + 1 < characters ∧ data[offset]? ≠ some 0
      · rw [if_pos hmore]
        by_cases hend : offset + ((data.drop offset).takeWhile (· != 0)).length = data.length
        · rw [if_pos hend]
          exact ⟨_, rfl, nofun⟩
        · rw [if_neg hend]
          cases hwide : Windows.wideToUtf8 ((data.drop offset).takeWhile (· != 0)) with
          | error failure =>
              refine ⟨_, rfl, ?_⟩
              intro hunfinished
              rw [Except.error.inj hunfinished] at hwide
              exact Windows.wideToUtf8_ne_unfinished _ hwide
          | ok text => exact ih (by omega) (by omega) _
      · rw [if_neg hmore]
        exact ⟨_, rfl, nofun⟩

theorem parseMultiString_ends (data : List UInt16) (characters : ℕ) :
    parseMultiString data characters ≠ .error .unfinished := by
  obtain ⟨result, hresult, hended⟩ := readValues_ends data characters (Nat.zero_le data.length)
    (Nat.lt_succ_self data.length) []
  rw [parseMultiString, hresult]
  split_ifs with hterminated
  · exact nofun
  · cases result with
    | error failure => exact fun heq => hended (congrArg Except.error (Except.error.inj heq))
    | ok values =>
        simp only
        split_ifs <;> exact nofun

/-- Whatever the registry holds, reading a list ends. -/
theorem readMultiString_ends (opened : Except ℕ Unit) (sized read : Except ℕ RegistryValue) :
    readMultiString opened sized read ≠ .error .unfinished := by
  unfold readMultiString
  split
  · split_ifs <;> exact nofun
  · split
    · split_ifs <;> exact nofun
    · split_ifs
      · exact nofun
      · exact nofun
      · split
        · split_ifs <;> exact nofun
        · rename_i sizing _ _ _ value _
          split_ifs
          · exact nofun
          · exact nofun
          · intro hunfinished
            cases hparsed : parseMultiString (bytesUnits (value.data ++
                List.replicate (sizing.data.length - value.data.length) 0))
                (value.data.length / 2) with
            | error failure =>
                rw [hparsed] at hunfinished
                have hfailure : failure = .unfinished := Except.error.inj hunfinished
                exact parseMultiString_ends _ _ (hfailure ▸ hparsed)
            | ok values =>
                rw [hparsed] at hunfinished
                cases hunfinished

/-! ## What is written is read back -/

theorem bytesUnits_unitBytes (units : List UInt16) : bytesUnits (unitBytes units) = units := by
  induction units with
  | nil => rfl
  | cons unit rest ih =>
      have hunit : unit.toNat < 256 ^ 2 := unit.toNat_lt
      have hread : UInt16.ofNat (LittleEndian.decode (LittleEndian.encode 2 unit.toNat)) = unit := by
        rw [LittleEndian.decode_encode hunit, UInt16.ofNat_toNat]
      calc bytesUnits (unitBytes (unit :: rest))
          = UInt16.ofNat (LittleEndian.decode (LittleEndian.encode 2 unit.toNat)) ::
              bytesUnits (unitBytes rest) := rfl
        _ = unit :: rest := by rw [hread, ih]

theorem length_unitBytes (units : List UInt16) : (unitBytes units).length = 2 * units.length := by
  induction units with
  | nil => rfl
  | cons unit rest ih =>
      have hcons : unitBytes (unit :: rest) =
          LittleEndian.encode 2 unit.toNat ++ unitBytes rest := rfl
      rw [hcons, List.length_append, LittleEndian.length_encode, ih, List.length_cons]
      omega

theorem length_le_of_wideToUtf8 {wide : List UInt16} {utf8 : List UInt8}
    (hutf8 : Windows.wideToUtf8 wide = .ok utf8) : utf8.length ≤ Windows.maximumInt := by
  rw [Windows.wideToUtf8] at hutf8
  split_ifs at hutf8
  · rw [← Except.ok.inj hutf8]
    exact Nat.zero_le _
  · split at hutf8
    · split_ifs at hutf8 with hlarge
      rw [← Except.ok.inj hutf8]
      exact Nat.le_of_not_gt hlarge
    · cases hutf8

/-- A text that is written ends at the null behind it, and is converted back. -/
theorem multiStringUnits_eq_ok {value : List UInt8} {units : List UInt16}
    (hunits : multiStringUnits value = .ok units) :
    ∃ wide, units = wide ++ [0] ∧ wide ≠ [] ∧ 0 ∉ wide ∧
      Windows.wideToUtf8 wide = .ok value := by
  rw [multiStringUnits] at hunits
  split_ifs at hunits with hempty hnull
  cases hwide : Windows.utf8ToWide value with
  | error failure => simp [hwide] at hunits
  | ok wide =>
      simp only [hwide, Except.ok.injEq] at hunits
      obtain ⟨text, rfl, rfl, -⟩ := Windows.utf8ToWide_eq_ok hwide
      refine ⟨Utf16.encode text, hunits.symm, ?_, ?_, Windows.wideToUtf8_of_utf8ToWide hwide⟩
      · intro hnil
        have htext : text = [] := by
          rw [← Utf16.decode_encode text, hnil]
          rfl
        rw [htext] at hempty
        exact hempty rfl
      · intro hzero
        apply hnull
        rw [List.contains_iff_mem]
        exact Utf8.zero_mem_encode (Utf16.zero_mem_encode.1 hzero)

theorem takeWhile_text {wide : List UInt16} (hnull : 0 ∉ wide) (rest : List UInt16) :
    (wide ++ 0 :: rest).takeWhile (· != 0) = wide := by
  have hall : ∀ unit ∈ wide, (unit != 0) = true := by
    intro unit hunit
    rw [bne_iff_ne]
    rintro rfl
    exact hnull hunit
  rw [List.takeWhile_append_of_pos hall, List.takeWhile_cons_of_neg (by simp), List.append_nil]

/-- The loop reads what has been written behind the texts that it has passed. -/
theorem readValues_written {values : List (List UInt8)} {written : List (List UInt16)}
    (hwritten : values.mapM multiStringUnits = .ok written) (passed : List UInt16) {fuel : ℕ}
    (hfuel : (passed ++ written.flatten ++ [0]).length < fuel + passed.length)
    (values' : List (List UInt8)) :
    readValues (passed ++ written.flatten ++ [0]) (passed ++ written.flatten ++ [0]).length fuel
        passed.length values' =
      some (.ok (values' ++ values, passed.length + written.flatten.length)) := by
  induction values generalizing written passed fuel values' with
  | nil =>
      have hnil : written = [] := (Except.ok.inj hwritten).symm
      subst hnil
      cases fuel with
      | zero =>
          simp only [List.length_append] at hfuel
          omega
      | succ fuel =>
          rw [readValues, if_neg (by simp)]
          simp
  | cons value rest ih =>
      obtain ⟨head, tail, hhead, htail, rfl⟩ := ExceptTraverse.mapM_cons_eq_ok.1 hwritten
      obtain ⟨wide, rfl, hne, hnull, hback⟩ := multiStringUnits_eq_ok hhead
      have hdata : passed ++ ((wide ++ [0]) :: tail).flatten ++ [0] =
          passed ++ (wide ++ 0 :: (tail.flatten ++ [0])) := by simp
      have hnext : passed ++ ((wide ++ [0]) :: tail).flatten ++ [0] =
          (passed ++ wide ++ [0]) ++ tail.flatten ++ [0] := by simp
      have hpositive : 0 < wide.length := List.length_pos_iff.2 hne
      have hvalue : ((passed ++ ((wide ++ [0]) :: tail).flatten ++ [0]).drop
          passed.length).takeWhile (· != 0) = wide := by
        rw [hdata, List.drop_left]
        exact takeWhile_text hnull _
      have hfirst : (passed ++ ((wide ++ [0]) :: tail).flatten ++ [0])[passed.length]? ≠
          some 0 := by
        rw [hdata, List.getElem?_append_right (Nat.le_refl _), Nat.sub_self,
          List.getElem?_append_left hpositive, List.getElem?_eq_getElem hpositive]
        intro hzero
        exact hnull (Option.some.inj hzero ▸ List.getElem_mem hpositive)
      cases fuel with
      | zero =>
          simp only [List.length_append] at hfuel
          omega
      | succ fuel =>
          have hmore : passed.length + 1 <
              (passed ++ ((wide ++ [0]) :: tail).flatten ++ [0]).length := by
            rw [hdata]
            simp only [List.length_append, List.length_cons]
            omega
          have hinside : passed.length + wide.length ≠
              (passed ++ ((wide ++ [0]) :: tail).flatten ++ [0]).length := by
            rw [hdata]
            simp only [List.length_append, List.length_cons]
            omega
          rw [readValues, if_pos ⟨hmore, hfirst⟩]
          simp only [hvalue, hback]
          rw [if_neg hinside]
          have hoffset : passed.length + wide.length + 1 = (passed ++ wide ++ [0]).length := by
            simp only [List.length_append, List.length_singleton]
          rw [hoffset, hnext]
          rw [hnext] at hfuel
          rw [ih htail (passed ++ wide ++ [0]) (by omega) (values' ++ [value])]
          have hvalues : values' ++ [value] ++ rest = values' ++ value :: rest := by simp
          have hstop : (passed ++ wide ++ [0]).length + tail.flatten.length =
              passed.length + ((wide ++ [0]) :: tail).flatten.length := by
            simp only [List.flatten_cons, List.length_append, Nat.add_assoc]
          rw [hvalues, hstop]

/-- A list is written only when each of its texts can be converted. -/
theorem length_le_of_multiStringData {values : List (List UInt8)} {data : List UInt16}
    (hdata : multiStringData values = .ok data) :
    ∀ value ∈ values, value.length ≤ Windows.maximumInt := by
  intro value hvalue
  rw [multiStringData] at hdata
  cases hwritten : values.mapM multiStringUnits with
  | error failure => simp [hwritten] at hdata
  | ok written =>
      obtain ⟨units, -, hunits⟩ :=
        ExceptTraverse.exists_result_of_mem hwritten hvalue
      obtain ⟨wide, -, -, -, hback⟩ := multiStringUnits_eq_ok hunits
      exact length_le_of_wideToUtf8 hback

/-- The last unit of a list of texts is the null behind the last text. -/
theorem flatten_written {values : List (List UInt8)} {written : List (List UInt16)}
    (hvalues : values ≠ []) (hwritten : values.mapM multiStringUnits = .ok written) :
    ∃ front, written.flatten = front ++ [0] := by
  induction values generalizing written with
  | nil => contradiction
  | cons value rest ih =>
      obtain ⟨head, tail, hhead, htail, rfl⟩ := ExceptTraverse.mapM_cons_eq_ok.1 hwritten
      obtain ⟨wide, rfl, -⟩ := multiStringUnits_eq_ok hhead
      by_cases hrest : rest = []
      · subst hrest
        have hnil : tail = [] := (Except.ok.inj htail).symm
        exact ⟨wide, by rw [hnil]; simp⟩
      · obtain ⟨front, hfront⟩ := ih hrest htail
        refine ⟨wide ++ [0] ++ front, ?_⟩
        rw [List.flatten_cons, hfront, List.append_assoc (wide ++ [0])]

/-- The units of a list are read as the list. -/
theorem parseMultiString_data {values : List (List UInt8)} {data : List UInt16}
    (hdata : multiStringData values = .ok data) :
    2 ≤ data.length ∧ parseMultiString data data.length = .ok values := by
  rw [multiStringData] at hdata
  cases hwritten : values.mapM multiStringUnits with
  | error failure => simp [hwritten] at hdata
  | ok written =>
      simp only [hwritten] at hdata
      by_cases hempty : values = []
      · subst hempty
        have hnil : written = [] := (Except.ok.inj hwritten).symm
        subst hnil
        have hunits : data = [0, 0] := (Except.ok.inj hdata).symm
        subst hunits
        exact ⟨Nat.le_refl 2, by decide⟩
      · have hend : (if values.isEmpty then [0] else []) = ([] : List UInt16) :=
          if_neg (by rwa [List.isEmpty_iff])
        simp only [hend, List.append_nil] at hdata
        split_ifs at hdata
        obtain ⟨front, hfront⟩ := flatten_written hempty hwritten
        have hunits : data = written.flatten ++ [0] := (Except.ok.inj hdata).symm
        have hlength : data.length = front.length + 2 := by
          rw [hunits, hfront]
          simp
        have hterminated : ¬(data[data.length - 1]? ≠ some 0 ∨ data[data.length - 2]? ≠ some 0) := by
          rw [hlength, hunits, hfront]
          simp
        have hfuel : ([] ++ written.flatten ++ [0]).length < data.length + 1 + 0 := by
          rw [List.nil_append, ← hunits]
          exact Nat.lt_succ_self _
        have hloop := readValues_written hwritten [] hfuel []
        rw [List.nil_append, ← hunits, List.nil_append, List.length_nil, Nat.zero_add] at hloop
        have hrest : data.drop written.flatten.length = [0] := by rw [hunits, List.drop_left]
        refine ⟨by omega, ?_⟩
        rw [parseMultiString, if_neg hterminated, hloop]
        simp only [hrest]
        rfl

/-- A list that is stored by a call that returns is read as it was. -/
theorem readMultiString_written {values : List (List UInt8)} {data : List UInt16}
    (hdata : multiStringData values = .ok data) :
    readMultiString (.ok ()) (.ok ⟨regMultiSz, unitBytes data⟩) (.ok ⟨regMultiSz, unitBytes data⟩) =
      .ok (some values) := by
  obtain ⟨hlength, hparsed⟩ := parseMultiString_data hdata
  have hbytes := length_unitBytes data
  have hvalid : invalidByteLength (unitBytes data).length = false := by
    rw [hbytes, invalidByteLength]
    simp only [Bool.or_eq_false_iff, decide_eq_false_iff_not, bne_eq_false_iff_eq]
    omega
  have hcount : (unitBytes data).length / 2 = data.length := by omega
  simp only [readMultiString, Except.bind, hvalid, Nat.lt_irrefl, Nat.sub_self,
    List.replicate_zero, List.append_nil, bytesUnits_unitBytes, hcount, hparsed, if_false,
    ne_eq, not_true_eq_false, Bool.false_eq_true]
  rfl


/-- A call that returns has written the units of the list. -/
theorem writeMultiString_eq_ok {createStatus setStatus : ℕ} {values : List (List UInt8)}
    {before after : Option RegistryValue}
    (hwritten : writeMultiString createStatus setStatus values before = (.ok (), after)) :
    ∃ data, multiStringData values = .ok data ∧ after = some ⟨regMultiSz, unitBytes data⟩ := by
  rw [writeMultiString] at hwritten
  by_cases hcreated : createStatus = errorSuccess
  · rw [if_neg (not_not_intro hcreated)] at hwritten
    cases hdata : multiStringData values with
    | error failure =>
        rw [hdata] at hwritten
        cases hwritten
    | ok data =>
        simp only [hdata] at hwritten
        by_cases hset : setStatus = errorSuccess
        · rw [if_neg (not_not_intro hset)] at hwritten
          exact ⟨data, rfl, (Prod.mk.inj hwritten).2.symm⟩
        · rw [if_pos hset] at hwritten
          cases hwritten
  · rw [if_pos hcreated] at hwritten
    cases hwritten

end RegKey

end UwfManager
