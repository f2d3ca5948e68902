import UwfManager.Staging.FileStagingEditor
import UwfManager.Windows.RegistryMultiString

/-!
# The stored form of the file staging list

An entry is stored as one text: a letter for its kind, a bar and its path.  The
path is a `QString`, which may hold a surrogate that is in no pair.  Encoding
replaces such a surrogate, while decoding and the registry refuse it.
-/

namespace UwfManager

namespace FileStagingCodec

/-- An entry whose path is any sequence of UTF-16 code units. -/
structure Entry where
  kind : FileStagingKind
  path : List UInt16
  deriving DecidableEq

/-- An entry whose path is a text, as `QString` holds it. -/
def Entry.ofText (entry : FileStagingEntry) : Entry := ⟨entry.kind, Utf16.encode entry.path⟩

def Entry.toText (entry : Entry) : FileStagingEntry := ⟨entry.kind, Utf16.decode entry.path⟩

@[simp]
theorem Entry.toText_ofText (entry : FileStagingEntry) : (Entry.ofText entry).toText = entry := by
  rw [ofText, toText, Utf16.decode_encode]

/-- `QString::toUtf8`, which writes a question mark for a surrogate that is in no pair. -/
def toUtf8 (text : List UInt16) : List UInt8 :=
  Utf8.encode ((Utf16.scan text).map fun c => c.getD '?')

theorem toUtf8_encode (text : Text) : toUtf8 (Utf16.encode text) = Utf8.encode text := by
  have hget : (fun c : Option Char => c.getD '?') ∘ some = id := rfl
  rw [toUtf8, Utf16.scan_encode, List.map_map, hget, List.map_id]

/-- The check reads ASCII characters at the start of the path, which a surrogate is not. -/
def isAbsoluteLocalFileStagingPath (path : List UInt16) : Bool :=
  UwfManager.isAbsoluteLocalFileStagingPath (Utf16.decode path)

/-- `F|` -/
def filePrefix : List UInt8 := [0x46, 0x7c]

/-- `D|` -/
def directoryPrefix : List UInt8 := [0x44, 0x7c]

def prefixFor : FileStagingKind → List UInt8
  | .file => filePrefix
  | .directory => directoryPrefix

def encodeEntry (entry : Entry) : Except StorageFailure (List UInt8) :=
  if entry.path.contains 0 then
    .error (.invalidArgument "file staging paths cannot contain NUL characters".toList)
  else if !isAbsoluteLocalFileStagingPath entry.path then
    .error (.invalidArgument
      "file staging entries require an absolute path on a local drive".toList)
  else .ok (prefixFor entry.kind ++ toUtf8 entry.path)

def encodeFileStagingEntries (entries : List Entry) : Except StorageFailure (List (List UInt8)) :=
  entries.mapM encodeEntry

/-- The path behind the first `prefixLength` bytes of a record. -/
def decodePath (kind : FileStagingKind) (prefixLength : ℕ) (record : List UInt8) :
    Except StorageFailure Entry :=
  match Windows.utf8ToWide (record.drop prefixLength) with
  | .error failure => .error failure
  | .ok path =>
      if path.contains 0 then
        .error (.runtimeError "file staging registry data contains a NUL character".toList)
      else if !isAbsoluteLocalFileStagingPath path then
        .error (.runtimeError
          "file staging registry data contains a path outside a local drive".toList)
      else .ok ⟨kind, path⟩

def decodeEntry (record : List UInt8) : Except StorageFailure Entry :=
  if filePrefix.isPrefixOf record then decodePath .file filePrefix.length record
  else if directoryPrefix.isPrefixOf record then
    decodePath .directory directoryPrefix.length record
  else .error (.runtimeError "file staging registry data contains an unknown entry type".toList)

def decodeFileStagingEntries (records : List (List UInt8)) : Except StorageFailure (List Entry) :=
  records.mapM decodeEntry

/-! ## One entry -/

theorem encodeEntry_eq_ok {entry : Entry} {record : List UInt8} :
    encodeEntry entry = .ok record ↔
      0 ∉ entry.path ∧ isAbsoluteLocalFileStagingPath entry.path = true ∧
        prefixFor entry.kind ++ toUtf8 entry.path = record := by
  rw [encodeEntry]
  split_ifs with hnull hlocal
  · simp [List.contains_iff_mem.1 hnull]
  · simp only [Bool.not_eq_true'] at hlocal
    simp [hlocal]
  · simp only [List.contains_iff_mem, Bool.not_eq_true, Bool.not_eq_false'] at hnull hlocal
    simp [hnull, hlocal]

/-- The prefix of a record tells the kind that it was written for. -/
theorem decodeEntry_prefixFor (kind : FileStagingKind) (path : List UInt8) :
    decodeEntry (prefixFor kind ++ path) = decodePath kind 2 (prefixFor kind ++ path) := by
  cases kind with
  | file => rfl
  | directory => rfl

theorem drop_prefixFor (kind : FileStagingKind) (path : List UInt8) :
    (prefixFor kind ++ path).drop 2 = path := by
  cases kind with
  | file => rfl
  | directory => rfl

/-- A record that is decoded has the prefix of its kind, and what follows is decoded. -/
theorem decodeEntry_eq_decodePath {record : List UInt8} {entry : Entry}
    (hdecoded : decodeEntry record = .ok entry) :
    ∃ kind path, record = prefixFor kind ++ path ∧
      decodePath kind 2 (prefixFor kind ++ path) = .ok entry := by
  rw [decodeEntry] at hdecoded
  split_ifs at hdecoded with hfile hdirectory
  · obtain ⟨path, rfl⟩ := List.isPrefixOf_iff_prefix.1 hfile
    exact ⟨.file, path, rfl, hdecoded⟩
  · obtain ⟨path, rfl⟩ := List.isPrefixOf_iff_prefix.1 hdirectory
    exact ⟨.directory, path, rfl, hdecoded⟩

/-- The path of a decoded entry is a text, and is written as what it was read from. -/
theorem decodePath_eq_ok {kind : FileStagingKind} {path : List UInt8} {entry : Entry}
    (hdecoded : decodePath kind 2 (prefixFor kind ++ path) = .ok entry) :
    entry.kind = kind ∧ Utf16.WellFormed entry.path ∧ toUtf8 entry.path = path ∧
      0 ∉ entry.path ∧ isAbsoluteLocalFileStagingPath entry.path = true := by
  rw [decodePath, drop_prefixFor] at hdecoded
  cases hwide : Windows.utf8ToWide path with
  | error failure => simp [hwide] at hdecoded
  | ok units =>
      simp only [hwide] at hdecoded
      split_ifs at hdecoded with hnull hlocal
      have hentry := Except.ok.inj hdecoded
      subst hentry
      obtain ⟨text, rfl, rfl, -⟩ := Windows.utf8ToWide_eq_ok hwide
      refine ⟨rfl, Utf16.wellFormed_encode text, ?_, ?_, ?_⟩
      · exact toUtf8_encode text
      · rwa [List.contains_iff_mem] at hnull
      · simpa using hlocal

/-- A decoded entry is encoded as the record that it was decoded from. -/
theorem encodeEntry_decodeEntry {record : List UInt8} {entry : Entry}
    (hdecoded : decodeEntry record = .ok entry) : encodeEntry entry = .ok record := by
  obtain ⟨kind, path, rfl, hpath⟩ := decodeEntry_eq_decodePath hdecoded
  obtain ⟨hkind, -, hbytes, hnull, hlocal⟩ := decodePath_eq_ok hpath
  rw [encodeEntry_eq_ok, hkind, hbytes]
  exact ⟨hnull, hlocal, rfl⟩

theorem wellFormed_of_decodeEntry {record : List UInt8} {entry : Entry}
    (hdecoded : decodeEntry record = .ok entry) : Utf16.WellFormed entry.path := by
  obtain ⟨kind, path, rfl, hpath⟩ := decodeEntry_eq_decodePath hdecoded
  exact (decodePath_eq_ok hpath).2.1

/-- An entry with a path that is a text is decoded from what it is encoded as. -/
theorem decodeEntry_encodeEntry {entry : Entry} {record : List UInt8}
    (hwell : Utf16.WellFormed entry.path) (hencoded : encodeEntry entry = .ok record)
    (hlength : record.length ≤ Windows.maximumInt) : decodeEntry record = .ok entry := by
  obtain ⟨hnull, hlocal, rfl⟩ := encodeEntry_eq_ok.1 hencoded
  obtain ⟨text, htext⟩ := Utf16.wellFormed_iff.1 hwell
  have hbytes : toUtf8 entry.path = Utf8.encode text := by
    rw [← htext, toUtf8_encode]
  have hwide : Windows.utf8ToWide (toUtf8 entry.path) = .ok entry.path := by
    rw [hbytes, Windows.utf8ToWide_encode, htext]
    rw [hbytes, List.length_append] at hlength
    omega
  rw [decodeEntry_prefixFor, decodePath, drop_prefixFor, hwide]
  simp only [List.contains_iff_mem, hnull, hlocal, if_false, Bool.not_true, Bool.false_eq_true]

/-! ## Lists -/

theorem decode_encode {entries : List Entry} {records : List (List UInt8)}
    (hencoded : encodeFileStagingEntries entries = .ok records)
    (hlength : ∀ record ∈ records, record.length ≤ Windows.maximumInt)
    (hwell : ∀ entry ∈ entries, Utf16.WellFormed entry.path) :
    decodeFileStagingEntries records = .ok entries :=
  ExceptTraverse.mapM_inverse hencoded fun entry hentry record hrecord hresult =>
    decodeEntry_encodeEntry (hwell entry hentry) hresult (hlength record hrecord)

theorem encode_decode {entries : List Entry} {records : List (List UInt8)}
    (hdecoded : decodeFileStagingEntries records = .ok entries) :
    encodeFileStagingEntries entries = .ok records :=
  ExceptTraverse.mapM_inverse hdecoded fun _ _ _ _ hresult => encodeEntry_decodeEntry hresult

/-- Only texts are decoded. -/
theorem wellFormed_of_decode {entries : List Entry} {records : List (List UInt8)}
    (hdecoded : decodeFileStagingEntries records = .ok entries) :
    ∀ entry ∈ entries, Utf16.WellFormed entry.path := by
  intro entry hentry
  obtain ⟨record, -, hrecord⟩ := ExceptTraverse.exists_item_of_mem hdecoded hentry
  exact wellFormed_of_decodeEntry hrecord

end FileStagingCodec

/-! ## `RegistryFileStagingStore` -/

namespace RegistryFileStagingStore

open FileStagingCodec

/-- The list that the calls on the registry find. -/
def load (opened : Except ℕ Unit) (sized read : Except ℕ RegistryValue) :
    Except StorageFailure (List Entry) :=
  match RegKey.readMultiString opened sized read with
  | .error failure => .error failure
  | .ok none => .ok []
  | .ok (some records) => decodeFileStagingEntries records

/-- The list that a registry with this value under the key of the list holds. -/
def loadStored : Option RegistryValue → Except StorageFailure (List Entry)
  | none => load (.ok ()) (.error RegKey.errorFileNotFound) (.error RegKey.errorFileNotFound)
  | some value => load (.ok ()) (.ok value) (.ok value)

/-- `regkey::deleteTree` of the root that the key of the list is under. -/
def deleteTree (deleteStatus : ℕ) (stored : Option RegistryValue) :
    Except StorageFailure Unit × Option RegistryValue :=
  if deleteStatus = RegKey.errorSuccess then (.ok (), none)
  else if RegKey.isNotFound deleteStatus then (.ok (), stored)
  else (.error (RegKey.registryProbeError deleteStatus "recursively delete registry key"), stored)

/-- The three calls on the registry answer with a status. -/
def replace (createStatus setStatus deleteStatus : ℕ) (entries : List Entry)
    (stored : Option RegistryValue) : Except StorageFailure Unit × Option RegistryValue :=
  if entries.isEmpty then deleteTree deleteStatus stored
  else
    match encodeFileStagingEntries entries with
    | .error failure => (.error failure, stored)
    | .ok records => RegKey.writeMultiString createStatus setStatus records stored

/-- A list of texts is found as it has been written. -/
theorem loadStored_written {records : List (List UInt8)} {data : List UInt16}
    (hdata : RegKey.multiStringData records = .ok data) :
    loadStored (some ⟨RegKey.regMultiSz, RegKey.unitBytes data⟩) =
      decodeFileStagingEntries records := by
  rw [loadStored, load, RegKey.readMultiString_written hdata]

/-- A list that has been written is found again when its paths are texts, and only then. -/
theorem loadStored_encoded_iff {entries : List Entry} {records : List (List UInt8)}
    {data : List UInt16} (hencoded : encodeFileStagingEntries entries = .ok records)
    (hdata : RegKey.multiStringData records = .ok data) :
    loadStored (some ⟨RegKey.regMultiSz, RegKey.unitBytes data⟩) = .ok entries ↔
      ∀ entry ∈ entries, Utf16.WellFormed entry.path := by
  rw [loadStored_written hdata]
  constructor
  · exact wellFormed_of_decode
  · exact decode_encode hencoded (RegKey.length_le_of_multiStringData hdata)

/-- After a call that returns the store holds the list, if its paths are texts.  A root
that is not found holds no value. -/
theorem loadStored_replace_iff {createStatus setStatus deleteStatus : ℕ} {entries : List Entry}
    {before after : Option RegistryValue}
    (habsent : RegKey.isNotFound deleteStatus = true → before = none)
    (hreplaced : replace createStatus setStatus deleteStatus entries before = (.ok (), after)) :
    loadStored after = .ok entries ↔ ∀ entry ∈ entries, Utf16.WellFormed entry.path := by
  rw [replace] at hreplaced
  by_cases hempty : entries = []
  · subst hempty
    have hafter : after = none := by
      simp only [List.isEmpty_nil, if_true, deleteTree] at hreplaced
      split_ifs at hreplaced with hdeleted hmissing
      · exact (Prod.mk.inj hreplaced).2.symm
      · exact (Prod.mk.inj hreplaced).2.symm.trans (habsent hmissing)
      · cases hreplaced
    rw [hafter]
    exact ⟨fun _ _ hentry => absurd hentry List.not_mem_nil, fun _ => rfl⟩
  · rw [if_neg (by rwa [List.isEmpty_iff])] at hreplaced
    cases hencoded : encodeFileStagingEntries entries with
    | error failure => simp [hencoded] at hreplaced
    | ok records =>
        simp only [hencoded] at hreplaced
        obtain ⟨data, hdata, hafter⟩ := RegKey.writeMultiString_eq_ok hreplaced
        rw [hafter]
        exact loadStored_encoded_iff hencoded hdata

/-- A list of texts is found again after a call that returns. -/
theorem loadStored_replace_ofText {createStatus setStatus deleteStatus : ℕ}
    {entries : List FileStagingEntry} {before after : Option RegistryValue}
    (habsent : RegKey.isNotFound deleteStatus = true → before = none)
    (hreplaced : replace createStatus setStatus deleteStatus (entries.map Entry.ofText) before =
      (.ok (), after)) :
    (loadStored after).map (·.map Entry.toText) = .ok entries := by
  have hload : loadStored after = .ok (entries.map Entry.ofText) := by
    rw [loadStored_replace_iff habsent hreplaced]
    intro entry hentry
    obtain ⟨text, -, rfl⟩ := List.mem_map.1 hentry
    exact Utf16.wellFormed_encode text.path
  rw [hload]
  simp [Except.map, Function.comp_def]

/-- A stored list is found as it was exactly when all surrogates in its paths are paired.
What is decoded is always encoded again as it was, and reading ends on every buffer. -/
theorem stored_list_roundTrip_iff (entries : List Entry) :
    (∀ records data, encodeFileStagingEntries entries = .ok records →
      RegKey.multiStringData records = .ok data →
      (loadStored (some ⟨RegKey.regMultiSz, RegKey.unitBytes data⟩) = .ok entries ↔
        ∀ entry ∈ entries, Utf16.WellFormed entry.path)) ∧
      (∀ records, decodeFileStagingEntries records = .ok entries →
        encodeFileStagingEntries entries = .ok records) ∧
      ∀ opened sized read, RegKey.readMultiString opened sized read ≠ .error .unfinished := by
  refine ⟨?_, ?_, ?_⟩
  · intro records data hencoded hdata
    exact loadStored_encoded_iff hencoded hdata
  · intro records hdecoded
    exact encode_decode hdecoded
  · exact RegKey.readMultiString_ends

theorem stored_list_roundTrip_file :
    loadStored (some ⟨RegKey.regMultiSz,
        RegKey.unitBytes [0x46, 0x7c, 0x43, 0x3a, 0x5c, 0x61, 0, 0]⟩) =
      .ok [⟨.file, [0x43, 0x3a, 0x5c, 0x61]⟩] := by
  have hencoded : encodeFileStagingEntries [⟨.file, [0x43, 0x3a, 0x5c, 0x61]⟩] =
      .ok [[0x46, 0x7c, 0x43, 0x3a, 0x5c, 0x61]] := by decide +kernel
  have hdata : RegKey.multiStringData [[0x46, 0x7c, 0x43, 0x3a, 0x5c, 0x61]] =
      .ok [0x46, 0x7c, 0x43, 0x3a, 0x5c, 0x61, 0, 0] := by decide +kernel
  exact ((stored_list_roundTrip_iff _).1 _ _ hencoded hdata).2 (by decide +kernel)

/-- A surrogate without a partner comes back as a question mark. -/
theorem unpaired_surrogate_replaced :
    ∃ records data read,
      encodeFileStagingEntries [⟨.file, [0x43, 0x3a, 0x5c, 0xd800]⟩] = .ok records ∧
        RegKey.multiStringData records = .ok data ∧
        loadStored (some ⟨RegKey.regMultiSz, RegKey.unitBytes data⟩) = .ok read ∧
        read = [⟨.file, [0x43, 0x3a, 0x5c, 0x3f]⟩] ∧
        read ≠ [⟨.file, [0x43, 0x3a, 0x5c, 0xd800]⟩] := by
  have hencoded : encodeFileStagingEntries [⟨.file, [0x43, 0x3a, 0x5c, 0xd800]⟩] =
      .ok [[0x46, 0x7c, 0x43, 0x3a, 0x5c, 0x3f]] := by decide +kernel
  have hdata : RegKey.multiStringData [[0x46, 0x7c, 0x43, 0x3a, 0x5c, 0x3f]] =
      .ok [0x46, 0x7c, 0x43, 0x3a, 0x5c, 0x3f, 0, 0] := by decide +kernel
  have hread : loadStored (some ⟨RegKey.regMultiSz,
      RegKey.unitBytes [0x46, 0x7c, 0x43, 0x3a, 0x5c, 0x3f, 0, 0]⟩) =
      .ok [⟨.file, [0x43, 0x3a, 0x5c, 0x3f]⟩] := by decide +kernel
  exact ⟨_, _, _, hencoded, hdata, hread, rfl, by decide⟩

end RegistryFileStagingStore

end UwfManager
