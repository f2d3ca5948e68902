import UwfManager.Configuration.CommandQuoting

/-!
# The text form of `uwfmgr` commands

Rendering of commands as single lines and as a complete batch script, and the
parser for both.  Dependent commands share one line and are joined by `&&`.
-/

namespace UwfManager.Commands

inductive UwfmgrKind where
  | unknown
  | filterEnable
  | filterDisable
  | overlaySetType
  | overlaySetSize
  | overlaySetWarningThreshold
  | overlaySetCriticalThreshold
  | volumeProtect
  | volumeUnprotect
  | fileAddExclusion
  | fileRemoveExclusion
  | registryAddExclusion
  | registryRemoveExclusion
  deriving DecidableEq, Repr

inductive ParseError where
  | none
  | comment
  | incomplete
  | missingSizeArg
  | invalidSize
  | missingTypeArg
  | unknownType
  | missingVolumeArg
  | invalidVolume
  | missingPathArg
  | missingRegistryKeyArg
  | malformedQuoting
  | unexpectedArgument
  | unsupported
  deriving DecidableEq, Repr

structure UwfmgrCommand where
  kind : UwfmgrKind := .unknown
  args : List Text := []
  requiresPrevious : Bool := false
  sourceLineNo : ℕ := 0
  rawLine : Text := []
  parseError : ParseError := .none
  parseErrorContext : Text := []
  deriving DecidableEq

def makeCmd (kind : UwfmgrKind) (args : List Text := []) : UwfmgrCommand :=
  { kind := kind, args := args }

/-! ## Rendering -/

def renderCommand (cmd : UwfmgrCommand) : Text :=
  let a0 := cmd.args.headD []
  match cmd.kind with
  | .filterEnable => "uwfmgr.exe filter enable".toList
  | .filterDisable => "uwfmgr.exe filter disable".toList
  | .overlaySetType => "uwfmgr.exe overlay set-type ".toList ++ a0
  | .overlaySetSize => "uwfmgr.exe overlay set-size ".toList ++ a0
  | .overlaySetWarningThreshold => "uwfmgr.exe overlay set-warningthreshold ".toList ++ a0
  | .overlaySetCriticalThreshold => "uwfmgr.exe overlay set-criticalthreshold ".toList ++ a0
  | .volumeProtect => "uwfmgr.exe volume protect ".toList ++ a0
  | .volumeUnprotect => "uwfmgr.exe volume unprotect ".toList ++ a0
  | .fileAddExclusion => "uwfmgr.exe file add-exclusion ".toList ++ quoteArg a0
  | .fileRemoveExclusion => "uwfmgr.exe file remove-exclusion ".toList ++ quoteArg a0
  | .registryAddExclusion => "uwfmgr.exe registry add-exclusion ".toList ++ quoteArg a0
  | .registryRemoveExclusion => "uwfmgr.exe registry remove-exclusion ".toList ++ quoteArg a0
  | .unknown => []

/-- One step of `renderCommandLines`: a dependent command is appended to the
line of its predecessor. -/
def appendRendered (lines : List Text) (command : UwfmgrCommand) : Except Text (List Text) :=
  let line := renderCommand command
  if command.requiresPrevious then
    match lines.getLast? with
    | none => .error "dependent command has no predecessor".toList
    | some last => .ok (lines.dropLast ++ [last ++ " && ".toList ++ line])
  else .ok (lines ++ [line])

def renderCommandLines (commands : List UwfmgrCommand) : Except Text (List Text) :=
  commands.foldlM appendRendered []

def kUwfmgrScriptMarker : Text := ":: UWF Manager CMD script (UTF-8)".toList

def kScriptPreamble : List Text :=
  [kUwfmgrScriptMarker, "@echo off".toList, "setlocal DisableDelayedExpansion".toList,
    "for /f \"tokens=2 delims=:\" %%C in ('chcp') do set \"_uwf_codepage=%%C\"".toList,
    "chcp 65001 >nul".toList]

def kScriptEpilogue : List Text :=
  ["set \"_uwf_exit=%errorlevel%\"".toList, "chcp %_uwf_codepage% >nul".toList,
    "endlocal & exit /b %_uwf_exit%".toList]

/-- A batch file reads two percent signs as one. -/
def escapePercents (line : Text) : Text :=
  line.flatMap fun character => if character = '%' then ['%', '%'] else [character]

def scriptLine (line : Text) : Text := line ++ "\r\n".toList

def renderCommandScript (commands : List UwfmgrCommand) : Except Text Text := do
  let lines ← renderCommandLines commands
  return kScriptPreamble.flatMap scriptLine ++
    lines.flatMap (fun line => scriptLine (escapePercents line)) ++
    kScriptEpilogue.flatMap scriptLine

/-! ## Parsing one command -/

def decodeBatchPercents : Text → Option Text
  | [] => some []
  | [c] => if c = '%' then none else some [c]
  | c :: next :: rest =>
      if c = '%' then
        if next = '%' then (decodeBatchPercents rest).map ('%' :: ·) else none
      else (decodeBatchPercents (next :: rest)).map (c :: ·)

def uint64Max : ℕ := 2 ^ 64 - 1

/-- The loop of `parseUInt`; the current digit takes part in the overflow check. -/
def parseUIntLoop (out : ℕ) : Text → Option ℕ
  | [] => some out
  | c :: rest =>
      if c < '0' ∨ c > '9' then none
      else
        let digit := c.toNat - '0'.toNat
        if out > (uint64Max - digit) / 10 then none
        else parseUIntLoop (out * 10 + digit) rest

def parseUInt (s : Text) : Option ℕ :=
  if s.isEmpty then none else parseUIntLoop 0 s

theorem parseUIntLoop_append (out : ℕ) (first second : Text) :
    parseUIntLoop out (first ++ second) =
      (parseUIntLoop out first).bind fun value => parseUIntLoop value second := by
  induction first generalizing out with
  | nil => rfl
  | cons c first ih =>
      simp only [List.cons_append, parseUIntLoop]
      split_ifs
      · rfl
      · rfl
      · exact ih _

theorem parseUIntLoop_digit {out digit : ℕ} (hdigit : digit < 10)
    (hmax : out * 10 + digit ≤ uint64Max) :
    parseUIntLoop out [digit.digitChar] = some (out * 10 + digit) := by
  have hchars : ∀ d < 10, ¬(d.digitChar < '0' ∨ d.digitChar > '9') ∧
      d.digitChar.toNat - '0'.toNat = d := by decide
  have hchar := hchars digit hdigit
  have hroom : ¬out > (uint64Max - digit) / 10 := by omega
  rw [parseUIntLoop, if_neg hchar.1, hchar.2, if_neg hroom, parseUIntLoop]

theorem parseUIntLoop_toDigits (value : ℕ) (hmax : value ≤ uint64Max) :
    parseUIntLoop 0 (Nat.toDigits 10 value) = some value := by
  induction value using Nat.strongRecOn with
  | ind value ih =>
      by_cases hsmall : value < 10
      · have hdigit : parseUIntLoop 0 [value.digitChar] = some (0 * 10 + value) :=
          parseUIntLoop_digit hsmall (by omega)
        rw [Nat.toDigits_of_lt_base hsmall, hdigit]
        simp
      · have hdiv : value / 10 * 10 + value % 10 = value := by omega
        rw [Nat.toDigits_of_base_le (by decide) (by omega), parseUIntLoop_append,
          ih _ (by omega) (by omega), Option.bind_some,
          parseUIntLoop_digit (Nat.mod_lt _ (by decide)) (by omega), hdiv]

theorem parseUInt_toDigits {value : ℕ} (hmax : value ≤ uint64Max) :
    parseUInt (Nat.toDigits 10 value) = some value := by
  rw [parseUInt, List.isEmpty_eq_false_iff.2 Nat.toDigits_ne_nil]
  exact parseUIntLoop_toDigits value hmax

def UwfmgrCommand.fail (out : UwfmgrCommand) (error : ParseError) (context : Text := []) :
    UwfmgrCommand :=
  { out with parseError := error, parseErrorContext := context }

/-- Reports the first argument beyond the expected ones, or goes on. -/
def rejectUnexpectedArgument (out : UwfmgrCommand) (rest : List Text)
    (accepted : UwfmgrCommand) : UwfmgrCommand :=
  match rest with
  | [] => accepted
  | extra :: _ => out.fail .unexpectedArgument extra

/-- `needSize`, shared by the size and the two thresholds. -/
def parseSizeCommand (out : UwfmgrCommand) (kind : UwfmgrKind) (args : List Text) :
    UwfmgrCommand :=
  let out := { out with kind := kind }
  match args with
  | [] => out.fail .missingSizeArg
  | size :: rest =>
      match parseUInt size with
      | none => out.fail .invalidSize
      | some value => rejectUnexpectedArgument out rest { out with args := [Nat.toDigits 10 value] }

def parseTypeCommand (out : UwfmgrCommand) (args : List Text) : UwfmgrCommand :=
  let out := { out with kind := .overlaySetType }
  match args with
  | [] => out.fail .missingTypeArg
  | type :: rest =>
      rejectUnexpectedArgument out rest <|
        let t := toLowerAscii type
        if t = "ram".toList then { out with args := ["RAM".toList] }
        else if t = "disk".toList then { out with args := ["Disk".toList] }
        else out.fail .unknownType type

/-- The bulk form `all` is not supported and leaves the kind unknown. -/
def parseVolumeCommand (out : UwfmgrCommand) (kind : UwfmgrKind) (args : List Text) :
    UwfmgrCommand :=
  let known := { out with kind := kind }
  match args with
  | [] => known.fail .missingVolumeArg
  | volume :: rest =>
      rejectUnexpectedArgument known rest <|
        if toLowerAscii volume = "all".toList then out.fail .unsupported
        else
          let dl := Drive.normalize volume
          if dl.isEmpty then known.fail .invalidVolume volume
          else { known with args := [dl] }

/-- The file and the registry commands take one nonempty argument as it is. -/
def parseExclusionCommand (out : UwfmgrCommand) (kind : UwfmgrKind) (missing : ParseError)
    (args : List Text) : UwfmgrCommand :=
  let out := { out with kind := kind }
  match args with
  | [] => out.fail missing
  | argument :: rest =>
      rejectUnexpectedArgument out rest <|
        if argument.isEmpty then out.fail missing else { out with args := [argument] }

/-- The branches of `parseLine` over category and verb. -/
def parseVerb (out : UwfmgrCommand) (cat verb : Text) (args : List Text) : UwfmgrCommand :=
  if cat = "filter".toList then
    if verb = "enable".toList then
      let out := { out with kind := .filterEnable }
      rejectUnexpectedArgument out args out
    else if verb = "disable".toList then
      let out := { out with kind := .filterDisable }
      rejectUnexpectedArgument out args out
    else out.fail .unsupported
  else if cat = "overlay".toList then
    if verb = "set-type".toList then parseTypeCommand out args
    else if verb = "set-size".toList then parseSizeCommand out .overlaySetSize args
    else if verb = "set-warningthreshold".toList then
      parseSizeCommand out .overlaySetWarningThreshold args
    else if verb = "set-criticalthreshold".toList then
      parseSizeCommand out .overlaySetCriticalThreshold args
    else out.fail .unsupported
  else if cat = "volume".toList then
    if verb = "protect".toList then parseVolumeCommand out .volumeProtect args
    else if verb = "unprotect".toList then parseVolumeCommand out .volumeUnprotect args
    else out.fail .unsupported
  else if cat = "file".toList then
    if verb = "add-exclusion".toList then
      parseExclusionCommand out .fileAddExclusion .missingPathArg args
    else if verb = "remove-exclusion".toList then
      parseExclusionCommand out .fileRemoveExclusion .missingPathArg args
    else out.fail .unsupported
  else if cat = "registry".toList then
    if verb = "add-exclusion".toList then
      parseExclusionCommand out .registryAddExclusion .missingRegistryKeyArg args
    else if verb = "remove-exclusion".toList then
      parseExclusionCommand out .registryRemoveExclusion .missingRegistryKeyArg args
    else out.fail .unsupported
  else out.fail .unsupported

/-- The program name may be left out. -/
def dropProgramName : List Text → List Text
  | [] => []
  | first :: rest =>
      if toLowerAscii first = "uwfmgr".toList ∨ toLowerAscii first = "uwfmgr.exe".toList then rest
      else first :: rest

def parseTokens (out : UwfmgrCommand) (tokens : List Text) : UwfmgrCommand :=
  match dropProgramName tokens with
  | cat :: verb :: args => parseVerb out (toLowerAscii cat) (toLowerAscii verb) args
  | _ => out.fail .incomplete

/-- A blank line or a comment; the argument is trimmed. -/
def isCommentLine (line : Text) : Bool :=
  line.isEmpty || line.head? == some '#' || "::".toList.isPrefixOf line ||
    "//".toList.isPrefixOf line

def parseLine (rawLine : Text) (lineNo : ℕ) : UwfmgrCommand :=
  let out : UwfmgrCommand := { sourceLineNo := lineNo, rawLine := rawLine }
  let line := trim rawLine
  if isCommentLine line then out.fail .comment
  else
    let tokenized := tokenize line
    if !tokenized.quotesBalanced then out.fail .malformedQuoting
    else if tokenized.tokens.isEmpty then out.fail .comment
    else parseTokens out tokenized.tokens

/-! ## Parsing a text -/

/-- Splits a line at every `&&` outside of shell quotes; `cur` is the part that
is being read.  A caret protects the character after it. -/
def splitParts (quoted : Bool) (cur : Text) : Text → List Text
  | [] => [cur]
  | [c] => [cur ++ [c]]
  | c :: next :: rest =>
      if !quoted && c == '^' then splitParts quoted (cur ++ [c, next]) rest
      else if c = '"' then splitParts (!quoted) (cur ++ [c]) (next :: rest)
      else if !quoted && c == '&' && next == '&' then cur :: splitParts quoted [] rest
      else splitParts quoted (cur ++ [c]) (next :: rest)

/-- One member of a chain.  Environment variables are not evaluated, so a
single percent sign is not a supported literal of a script. -/
def parsePart (batch single first : Bool) (lineNo : ℕ) (part : Text) : UwfmgrCommand :=
  let decoded := if batch then decodeBatchPercents part else some part
  let command := { parseLine (decoded.getD part) lineNo with rawLine := part }
  let command :=
    if decoded.isNone then { command with parseError := .unsupported } else command
  let command :=
    if !single && command.parseError == .comment then
      { command with parseError := .unsupported }
    else command
  { command with requiresPrevious := !first }

def appendLine (line : Text) (lineNo : ℕ) (batch : Bool) : List UwfmgrCommand :=
  if isCommentLine (trim line) then [parseLine line lineNo]
  else
    let parts := splitParts false [] line
    if !(tokenize line).quotesBalanced then
      [{ parseLine line lineNo with parseError := .malformedQuoting }]
    else if parts.any fun part => (trim part).isEmpty then
      [(parseLine line lineNo).fail .unexpectedArgument "&&".toList]
    else
      match parts with
      | [] => []
      | part :: rest =>
          parsePart batch rest.isEmpty true lineNo part ::
            rest.map (parsePart batch false false lineNo)

/-- `std::getline` over the whole text: what follows the last line feed is a
line only when it is not empty. -/
def getLines (cur : Text) : Text → List Text
  | [] => if cur.isEmpty then [] else [cur]
  | c :: rest => if c = '\n' then cur :: getLines [] rest else getLines (cur ++ [c]) rest

def dropCarriageReturn (line : Text) : Text :=
  if line.getLast? = some '\r' then line.dropLast else line

/-- The lines in front of the first epilogue, if there is one. -/
def bodyBeforeEpilogue : List Text → Option (List Text)
  | [] => none
  | line :: rest =>
      if kScriptEpilogue.isPrefixOf (line :: rest) then some []
      else (bodyBeforeEpilogue rest).map (line :: ·)

/-- The body of the script envelope that begins at the first of these lines. -/
def scriptBody (lines : List Text) : Option (List Text) :=
  if kScriptPreamble.isPrefixOf lines then
    bodyBeforeEpilogue (lines.drop kScriptPreamble.length)
  else none

def appendLines (lineNo : ℕ) (batch : Bool) : List Text → List UwfmgrCommand
  | [] => []
  | line :: rest => appendLine line lineNo batch ++ appendLines (lineNo + 1) batch rest

/-- The loop over the lines; `skip` lines belong to an envelope that was read. -/
def parseLines (lineNo : ℕ) : ℕ → List Text → List UwfmgrCommand
  | _, [] => []
  | skip + 1, _ :: rest => parseLines (lineNo + 1) skip rest
  | 0, line :: rest =>
      match scriptBody (line :: rest) with
      | some body =>
          appendLines (lineNo + kScriptPreamble.length) true body ++
            parseLines (lineNo + 1)
              (kScriptPreamble.length + body.length + kScriptEpilogue.length - 1) rest
      | none => appendLine line lineNo false ++ parseLines (lineNo + 1) 0 rest

def parseUwfmgrText (text : Text) : List UwfmgrCommand :=
  parseLines 1 0 ((getLines [] text).map dropCarriageReturn)

/-! ## Chains of dependent commands -/

/-- Commands that share one line: each one after the first depends on the one
before it. -/
structure CommandChain where
  head : UwfmgrCommand
  tail : List UwfmgrCommand
  head_free : head.requiresPrevious = false
  tail_dependent : ∀ command ∈ tail, command.requiresPrevious = true

namespace CommandChain

def commands (chain : CommandChain) : List UwfmgrCommand :=
  chain.head :: chain.tail

def single (command : UwfmgrCommand) (hfree : command.requiresPrevious = false) :
    CommandChain :=
  ⟨command, [], hfree, by simp⟩

def extend (chain : CommandChain) (command : UwfmgrCommand)
    (hdependent : command.requiresPrevious = true) : CommandChain where
  head := chain.head
  tail := chain.tail ++ [command]
  head_free := chain.head_free
  tail_dependent := by
    intro member hmember
    rcases List.mem_append.1 hmember with hmember | hmember
    · exact chain.tail_dependent member hmember
    · rw [List.mem_singleton.1 hmember, hdependent]

@[simp]
theorem commands_single (command : UwfmgrCommand)
    (hfree : command.requiresPrevious = false) :
    (single command hfree).commands = [command] := rfl

@[simp]
theorem commands_extend (chain : CommandChain) (command : UwfmgrCommand)
    (hdependent : command.requiresPrevious = true) :
    (chain.extend command hdependent).commands = chain.commands ++ [command] := rfl

end CommandChain

/-- A list that does not begin with a dependent command consists of chains. -/
theorem exists_chains (commands : List UwfmgrCommand)
    (hhead : ∀ command ∈ commands.head?, command.requiresPrevious = false) :
    ∃ chains : List CommandChain, chains.flatMap CommandChain.commands = commands := by
  induction commands using List.reverseRecOn with
  | nil => exact ⟨[], rfl⟩
  | append_singleton commands last ih =>
      by_cases hfree : last.requiresPrevious = false
      · obtain ⟨chains, hchains⟩ := ih fun command hcommand =>
          hhead command (List.mem_head?_append_of_mem_head? hcommand)
        exact ⟨chains ++ [CommandChain.single last hfree], by simp [hchains]⟩
      · have hlast : last.requiresPrevious = true := by simpa using hfree
        obtain ⟨chains, rfl⟩ := ih fun command hcommand =>
          hhead command (List.mem_head?_append_of_mem_head? hcommand)
        rcases List.eq_nil_or_concat chains with rfl | ⟨chains, chain, rfl⟩
        · exact absurd (hhead last (by simp)) hfree
        · exact ⟨chains ++ [chain.extend last hlast], by simp⟩

end UwfManager.Commands
