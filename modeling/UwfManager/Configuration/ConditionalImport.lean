import UwfManager.Configuration.ConfigurationImporter

/-!
# Chains of imported commands

The parser links a dependent command to the one before it on its line.  Once a
member was not accepted, what is left of its chain is skipped: the skipped
commands leave their lines in the report and nothing else.
-/

namespace UwfManager

open Commands

/-! ## Lines -/

section Lines

variable (out : UwfmgrCommand)

/-- The parsing of one command keeps the line number and adds no dependence. -/
structure KeepsLine (out result : UwfmgrCommand) : Prop where
  sourceLineNo : result.sourceLineNo = out.sourceLineNo
  requiresPrevious : result.requiresPrevious = out.requiresPrevious

variable {out}

theorem KeepsLine.fail (error : ParseError) (context : Text) :
    KeepsLine out (out.fail error context) := ⟨rfl, rfl⟩

theorem keepsLine_args (kind : UwfmgrKind) (args : List Text) :
    KeepsLine out { out with kind := kind, args := args } := ⟨rfl, rfl⟩

/-- The parsers reject extra arguments on the command with its kind set. -/
theorem keepsLine_rejectUnexpectedArgument {accepted : UwfmgrCommand} (kind : UwfmgrKind)
    (haccepted : KeepsLine out accepted) (rest : List Text) :
    KeepsLine out (rejectUnexpectedArgument { out with kind := kind } rest accepted) := by
  cases rest with
  | nil => exact haccepted
  | cons extra rest => exact ⟨rfl, rfl⟩

theorem keepsLine_parseSizeCommand (kind : UwfmgrKind) (args : List Text) :
    KeepsLine out (parseSizeCommand out kind args) := by
  cases args with
  | nil => exact ⟨rfl, rfl⟩
  | cons size rest =>
      rw [parseSizeCommand]
      dsimp only
      split
      · exact ⟨rfl, rfl⟩
      · exact keepsLine_rejectUnexpectedArgument kind (keepsLine_args kind _) rest

theorem keepsLine_parseTypeCommand (args : List Text) :
    KeepsLine out (parseTypeCommand out args) := by
  cases args with
  | nil => exact ⟨rfl, rfl⟩
  | cons type rest =>
      rw [parseTypeCommand]
      apply keepsLine_rejectUnexpectedArgument
      dsimp only
      split_ifs <;> exact ⟨rfl, rfl⟩

theorem keepsLine_parseVolumeCommand (kind : UwfmgrKind) (args : List Text) :
    KeepsLine out (parseVolumeCommand out kind args) := by
  cases args with
  | nil => exact ⟨rfl, rfl⟩
  | cons volume rest =>
      rw [parseVolumeCommand]
      apply keepsLine_rejectUnexpectedArgument
      dsimp only
      split_ifs <;> exact ⟨rfl, rfl⟩

theorem keepsLine_parseExclusionCommand (kind : UwfmgrKind) (missing : ParseError)
    (args : List Text) : KeepsLine out (parseExclusionCommand out kind missing args) := by
  cases args with
  | nil => exact ⟨rfl, rfl⟩
  | cons argument rest =>
      rw [parseExclusionCommand]
      apply keepsLine_rejectUnexpectedArgument
      split_ifs <;> exact ⟨rfl, rfl⟩

theorem keepsLine_parseVerb (cat verb : Text) (args : List Text) :
    KeepsLine out (parseVerb out cat verb args) := by
  have hfilter : ∀ kind, KeepsLine out
      (rejectUnexpectedArgument { out with kind := kind } args { out with kind := kind }) :=
    fun kind => keepsLine_rejectUnexpectedArgument kind (keepsLine_args kind out.args) args
  have hunsupported := @KeepsLine.fail out .unsupported []
  rw [parseVerb]
  split_ifs
  · exact hfilter _
  · exact hfilter _
  · exact hunsupported
  · exact keepsLine_parseTypeCommand args
  · exact keepsLine_parseSizeCommand _ args
  · exact keepsLine_parseSizeCommand _ args
  · exact keepsLine_parseSizeCommand _ args
  · exact hunsupported
  · exact keepsLine_parseVolumeCommand _ args
  · exact keepsLine_parseVolumeCommand _ args
  · exact hunsupported
  · exact keepsLine_parseExclusionCommand _ _ args
  · exact keepsLine_parseExclusionCommand _ _ args
  · exact hunsupported
  · exact keepsLine_parseExclusionCommand _ _ args
  · exact keepsLine_parseExclusionCommand _ _ args
  · exact hunsupported
  · exact hunsupported

theorem keepsLine_parseTokens (tokens : List Text) : KeepsLine out (parseTokens out tokens) := by
  rw [parseTokens]
  split
  · exact keepsLine_parseVerb _ _ _
  · exact ⟨rfl, rfl⟩

theorem keepsLine_parseLine (rawLine : Text) (lineNo : ℕ) :
    KeepsLine { sourceLineNo := lineNo, rawLine := rawLine } (parseLine rawLine lineNo) := by
  rw [parseLine]
  dsimp only
  split_ifs
  · exact ⟨rfl, rfl⟩
  · exact ⟨rfl, rfl⟩
  · exact ⟨rfl, rfl⟩
  · exact keepsLine_parseTokens _

end Lines

/-- A dependent command follows a command of its line. -/
structure Linked (commands : List UwfmgrCommand) : Prop where
  head_free : ∀ command ∈ commands.head?, command.requiresPrevious = false
  linked : commands.IsChain fun previous command =>
    command.requiresPrevious = true → previous.sourceLineNo = command.sourceLineNo

theorem linked_nil : Linked [] := ⟨by simp, List.IsChain.nil⟩

theorem Linked.append {first second : List UwfmgrCommand} (hfirst : Linked first)
    (hsecond : Linked second) : Linked (first ++ second) where
  head_free := by
    intro command hcommand
    cases first with
    | nil => exact hsecond.head_free command hcommand
    | cons head tail => exact hfirst.head_free command hcommand
  linked := by
    apply List.isChain_append.2
    refine ⟨hfirst.linked, hsecond.linked, ?_⟩
    intro previous _ command hcommand hdependent
    rw [hsecond.head_free command hcommand] at hdependent
    exact absurd hdependent (by decide)

/-- The commands of one line. -/
theorem linked_line {lineNo : ℕ} {head : UwfmgrCommand} {tail : List UwfmgrCommand}
    (hfree : head.requiresPrevious = false)
    (hline : ∀ command ∈ head :: tail, command.sourceLineNo = lineNo) : Linked (head :: tail) where
  head_free := by
    intro command hcommand
    rw [← Option.some.inj hcommand]
    exact hfree
  linked := by
    apply List.Pairwise.isChain
    apply List.pairwise_of_forall_mem_list
    intro previous hprevious command hcommand _
    rw [hline previous hprevious, hline command hcommand]

theorem linked_single {command : UwfmgrCommand} (hfree : command.requiresPrevious = false) :
    Linked [command] :=
  ⟨fun other hother => by rw [← Option.some.inj hother]; exact hfree, List.IsChain.singleton _⟩

theorem sourceLineNo_parsePart (batch single first : Bool) (lineNo : ℕ) (part : Text) :
    (parsePart batch single first lineNo part).sourceLineNo = lineNo := by
  have hkept : ∀ raw : Text, (parseLine raw lineNo).sourceLineNo = lineNo :=
    fun raw => (keepsLine_parseLine raw lineNo).sourceLineNo
  rw [parsePart]
  dsimp only
  split_ifs <;> exact hkept _

theorem linked_appendLine (line : Text) (lineNo : ℕ) (batch : Bool) :
    Linked (appendLine line lineNo batch) := by
  have hfree : (parseLine line lineNo).requiresPrevious = false :=
    (keepsLine_parseLine line lineNo).requiresPrevious
  rw [appendLine]
  dsimp only
  split_ifs
  · exact linked_single hfree
  · exact linked_single hfree
  · exact linked_single hfree
  · split
    · exact linked_nil
    · apply linked_line rfl
      intro command hcommand
      rcases List.mem_cons.1 hcommand with rfl | hrest
      · exact sourceLineNo_parsePart _ _ _ _ _
      · obtain ⟨part, -, rfl⟩ := List.mem_map.1 hrest
        exact sourceLineNo_parsePart _ _ _ _ _

theorem linked_appendLines (lineNo : ℕ) (batch : Bool) (lines : List Text) :
    Linked (appendLines lineNo batch lines) := by
  induction lines generalizing lineNo with
  | nil => exact linked_nil
  | cons line rest ih => exact (linked_appendLine line lineNo batch).append (ih _)

theorem linked_parseLines (lineNo skip : ℕ) (lines : List Text) :
    Linked (parseLines lineNo skip lines) := by
  induction lines generalizing lineNo skip with
  | nil =>
      rw [parseLines]
      exact linked_nil
  | cons line rest ih =>
      cases skip with
      | succ skip => exact ih _ _
      | zero =>
          rw [parseLines]
          split
          · exact (linked_appendLines _ _ _).append (ih _ _)
          · exact (linked_appendLine _ _ _).append (ih _ _)

theorem linked_parseUwfmgrText (text : Text) : Linked (parseUwfmgrText text) :=
  linked_parseLines 1 0 _

/-! ## Lines inserted into a report -/

section InsertLines

variable {α : Type*}

/-- The results with more lines before a position. -/
def insertLines (position : ℕ) (lines results : List α) : List α :=
  results.take position ++ (lines ++ results.drop position)

/-- Where a result stands after the insertion of lines. -/
def shiftIndex (position count index : ℕ) : ℕ :=
  if index < position then index else index + count

theorem insertLines_append {position : ℕ} {results : List α}
    (hposition : position ≤ results.length) (lines more : List α) :
    insertLines position lines (results ++ more) =
      insertLines position lines results ++ more := by
  simp only [insertLines, List.take_append_of_le_length hposition,
    List.drop_append_of_le_length hposition, List.append_assoc]

theorem length_insertLines (position : ℕ) (lines results : List α) :
    (insertLines position lines results).length = results.length + lines.length := by
  simp only [insertLines, List.length_append, List.length_take, List.length_drop]
  omega

theorem shiftIndex_succ (position count index : ℕ) :
    shiftIndex (position + 1) count (index + 1) = shiftIndex position count index + 1 := by
  simp only [shiftIndex, Nat.add_lt_add_iff_right]
  split_ifs
  · rfl
  · exact Nat.succ_add index count

theorem modify_insertLines {position : ℕ} {results : List α}
    (hposition : position ≤ results.length) (lines : List α) (index : ℕ) (edit : α → α) :
    (insertLines position lines results).modify (shiftIndex position lines.length index) edit =
      insertLines position lines (results.modify index edit) := by
  induction position generalizing results index with
  | zero =>
      have hshift : shiftIndex 0 lines.length index = lines.length + index := Nat.add_comm _ _
      rw [hshift]
      exact List.modifyTailIdx_add _ index lines results
  | succ position ih =>
      cases results with
      | nil => exact absurd hposition (Nat.not_succ_le_zero _)
      | cons head rest =>
          cases index with
          | zero => rfl
          | succ index =>
              rw [shiftIndex_succ]
              exact congrArg (head :: ·) (ih (Nat.le_of_succ_le_succ hposition) index)

/-- An edit of accepted lines that keeps what is read from them. -/
theorem map_modify_eq {β : Type*} {read : α → β} {edit : α → α} {results : List α} {index : ℕ}
    (hkept : ∀ result ∈ results[index]?, read (edit result) = read result) :
    (results.modify index edit).map read = results.map read := by
  apply List.ext_getElem?
  intro position
  rw [List.getElem?_map, List.getElem?_map, List.getElem?_modify]
  by_cases hindex : index = position
  · subst hindex
    cases hresult : results[index]? with
    | none => simp
    | some result => simpa using hkept result hresult
  · simp [hindex]

end InsertLines

/-! ## What a command does to the state -/

/-- An import leaves the editor available. -/
theorem available_applyGlobalValue (editor : GlobalConfigurationEditor) (field : GlobalField)
    (value : GlobalValue) :
    (applyGlobalValue editor field value).2.available = editor.available := by
  unfold applyGlobalValue
  split
  · unfold GlobalConfigurationEditor.importFilterEnabled
    split_ifs <;> rfl
  · unfold GlobalConfigurationEditor.importOverlayType
    split_ifs <;> rfl
  · unfold GlobalConfigurationEditor.importOverlayMaxMb
    dsimp only
    split_ifs <;> rfl
  · unfold GlobalConfigurationEditor.importOverlayWarnMb
    dsimp only
    split_ifs <;> rfl
  · unfold GlobalConfigurationEditor.importOverlayCritMb
    dsimp only
    split_ifs <;> rfl
  · rfl

theorem available_finishImport (editor : GlobalConfigurationEditor) :
    editor.finishImport.available = editor.available := by
  unfold GlobalConfigurationEditor.finishImport
  split_ifs <;> rfl

theorem accepted_changedStatus (changed : Bool) :
    (if changed then ImportStatus.success else ImportStatus.duplicate).accepted = true := by
  cases changed <;> rfl

namespace ImportState

variable (qt : Qt) (services : ImportServices)

/-- Every command adds its line to the report.  A global field adds an effect that
points to this line, and the line is accepted. -/
inductive Imported (command : UwfmgrCommand) (state : ImportState) : ImportState → Prop
  | reported (editors : ImportEditors) (result : ImportResult)
      (hglobal : editors.global = state.editors.global)
      (hline : result.lineNo = command.sourceLineNo) :
      Imported command state ({ state with editors := editors }.appendResult result)
  | queued (before after : GlobalConfigurationEditor) (effect : GlobalCommandEffect)
      (initial : GlobalField → GlobalValue) (result : ImportResult)
      (hglobal : state.editors.global = some before)
      (hbefore : before.available = true) (hafter : after.available = true)
      (hindex : effect.reportIndex = state.results.length)
      (haccepted : result.status.accepted = true)
      (hline : result.lineNo = command.sourceLineNo) :
      Imported command state
        ({ state with
          editors := { state.editors with global := some after }
          effects := state.effects ++ [effect]
          initial := some initial }.appendResult result)

variable (command : UwfmgrCommand) (state : ImportState)

/-- A line for a command that edits nothing. -/
theorem Imported.unchanged (status : ImportStatus) (detail : Message) :
    Imported command state (state.appendResult (reportLine qt command status detail)) :=
  .reported state.editors _ rfl rfl

theorem imported_importGlobal (field : GlobalField) (argument : Text) :
    Imported command state (state.importGlobal qt services command field argument) := by
  rw [importGlobal]
  dsimp only
  split
  · exact .unchanged qt command state _ _
  · next global hglobal =>
    split_ifs with havailable
    · exact .unchanged qt command state _ _
    · have hbefore : global.available = true := by simpa using havailable
      split
      · exact .unchanged qt command state _ _
      · refine .queued global _ _ _ _ hglobal hbefore ?_ rfl ?_ rfl
        · exact (available_applyGlobalValue _ _ _).trans hbefore
        · exact accepted_changedStatus _

theorem imported_importVolume (argument : Text) (want : Bool) :
    Imported command state (state.importVolume qt command argument want) := by
  rw [importVolume]
  split
  · exact .unchanged qt command state _ _
  · exact .reported { state.editors with volumes := _ } _ rfl rfl

theorem imported_importFile (argument : Text) (add : Bool) :
    Imported command state (state.importFile qt services command argument add) := by
  rw [importFile]
  dsimp only
  split
  · exact .unchanged qt command state _ _
  · split_ifs
    · exact .unchanged qt command state _ _
    all_goals
      split
      · exact .unchanged qt command state _ _
      · exact .reported { state.editors with volumes := _ } _ rfl rfl

theorem imported_importRegistry (argument : Text) (add : Bool) :
    Imported command state (state.importRegistry qt command argument add) := by
  rw [importRegistry]
  split
  · exact .unchanged qt command state _ _
  · exact .reported { state.editors with registry := _ } _ rfl rfl

theorem imported_importParsed :
    Imported command state (state.importParsed qt services command) := by
  rw [importParsed]
  by_cases hparse : command.parseError ≠ .none ∧ command.parseError ≠ .comment
  · rw [if_pos hparse]
    exact .unchanged qt command state _ _
  · rw [if_neg hparse]
    dsimp only
    split
    · exact imported_importGlobal qt services command state _ _
    · split
      · exact imported_importVolume qt command state _ _
      · exact imported_importVolume qt command state _ _
      · exact imported_importFile qt services command state _ _
      · exact imported_importFile qt services command state _ _
      · exact imported_importRegistry qt command state _ _
      · exact imported_importRegistry qt command state _ _
      · exact .unchanged qt command state _ _

theorem imported_importCommand :
    Imported command state (state.importCommand qt services command) := by
  rw [importCommand]
  split_ifs
  · exact .unchanged qt command state _ _
  · exact imported_importParsed qt services command state

/-! ### Runs -/

variable {qt services command state}

theorem Imported.results_eq {next : ImportState} (himported : Imported command state next) :
    ∃ result : ImportResult, result.lineNo = command.sourceLineNo ∧
      next.results = state.results ++ [result] := by
  cases himported with
  | reported editors result hglobal hline => exact ⟨result, hline, rfl⟩
  | queued before after effect initial result hglobal hbefore hafter hindex haccepted hline =>
      exact ⟨result, hline, rfl⟩

/-- A run appends one line for each command. -/
theorem results_importCommands (commands : List UwfmgrCommand) (state : ImportState) :
    ∃ lines : List ImportResult,
      (state.importCommands qt services commands).results = state.results ++ lines ∧
        lines.map ImportResult.lineNo = commands.map UwfmgrCommand.sourceLineNo := by
  induction commands generalizing state with
  | nil => exact ⟨[], (List.append_nil _).symm, rfl⟩
  | cons command rest ih =>
      obtain ⟨result, hline, hresult⟩ :=
        (imported_importCommand qt services command state).results_eq
      obtain ⟨lines, hlines, hnumbers⟩ := ih (state.importCommand qt services command)
      refine ⟨result :: lines, ?_, ?_⟩
      · calc
          (state.importCommands qt services (command :: rest)).results =
              (state.importCommand qt services command).results ++ lines := hlines
          _ = state.results ++ [result] ++ lines := by rw [hresult]
          _ = state.results ++ (result :: lines) := List.append_assoc _ _ _
      · rw [List.map_cons, List.map_cons, hline, hnumbers]

/-- The loop knows of each effect that its line was accepted, and of the last line
whether it was. -/
structure Consistent (state : ImportState) : Prop where
  effects : ∀ effect ∈ state.effects,
    ∃ result, state.results[effect.reportIndex]? = some result ∧ result.status.accepted = true
  available : state.effects ≠ [] →
    ∀ global ∈ state.editors.global, global.available = true
  previous : state.previousAccepted =
    state.results.getLast?.elim false fun result => result.status.accepted

theorem consistent_start (editors : ImportEditors) : Consistent { editors := editors } :=
  ⟨by simp, by simp, rfl⟩

theorem Consistent.effects_append {state : ImportState} (hstate : Consistent state)
    (result : ImportResult) : ∀ effect ∈ state.effects, ∃ found,
      (state.results ++ [result])[effect.reportIndex]? = some found ∧
        found.status.accepted = true := by
  intro effect heffect
  obtain ⟨found, hfound, haccepted⟩ := hstate.effects effect heffect
  obtain ⟨hindex, -⟩ := List.getElem?_eq_some_iff.1 hfound
  exact ⟨found, (List.getElem?_append_left hindex).trans hfound, haccepted⟩

theorem Imported.consistent {next : ImportState} (himported : Imported command state next)
    (hstate : Consistent state) : Consistent next := by
  cases himported with
  | reported editors result hglobal hline =>
      refine ⟨hstate.effects_append result, ?_, by simp [appendResult]⟩
      intro heffects global hmem
      exact hstate.available heffects global (hglobal ▸ hmem)
  | queued before after effect initial result hglobal hbefore hafter hindex haccepted hline =>
      refine ⟨?_, ?_, by simp [appendResult]⟩
      · intro other hother
        rcases List.mem_append.1 hother with hold | hnew
        · exact hstate.effects_append result other hold
        · rw [List.mem_singleton.1 hnew, hindex]
          exact ⟨result, by simp [appendResult], haccepted⟩
      · intro _ global hmem
        rw [← Option.some.inj hmem]
        exact hafter

theorem consistent_importCommands {state : ImportState} (hstate : Consistent state)
    (commands : List UwfmgrCommand) :
    Consistent (state.importCommands qt services commands) :=
  List.foldlRecOn (motive := Consistent) commands _ hstate fun state hstate command _ =>
    (imported_importCommand qt services command state).consistent hstate

/-! ### Skipped lines -/

/-- The state with more lines in its report; the effects follow their lines. -/
def insertReport (position : ℕ) (lines : List ImportResult) (state : ImportState) : ImportState :=
  { state with
    results := insertLines position lines state.results
    effects := state.effects.map fun effect =>
      { effect with reportIndex := shiftIndex position lines.length effect.reportIndex } }

section InsertReport

variable (qt services command)
variable {position : ℕ} {state : ImportState} (hposition : position ≤ state.results.length)
  (lines : List ImportResult)
include hposition

theorem appendResult_insertReport (result : ImportResult) :
    (state.insertReport position lines).appendResult result =
      (state.appendResult result).insertReport position lines := by
  simp only [appendResult, insertReport, insertLines_append hposition]

theorem importGlobal_insertReport (field : GlobalField) (argument : Text) :
    (state.insertReport position lines).importGlobal qt services command field argument =
      (state.importGlobal qt services command field argument).insertReport position lines := by
  have hindex : (insertLines position lines state.results).length =
      shiftIndex position lines.length state.results.length := by
    rw [length_insertLines, shiftIndex, if_neg (Nat.not_lt.2 hposition)]
  rw [importGlobal, importGlobal]
  dsimp only [insertReport]
  cases hglobal : state.editors.global with
  | none => exact appendResult_insertReport hposition lines _
  | some global =>
      dsimp only
      split_ifs
      · exact appendResult_insertReport hposition lines _
      · cases requestedValue services field command.kind argument with
        | none => exact appendResult_insertReport hposition lines _
        | some requested =>
            simp only [appendResult, List.map_append, List.map_cons, List.map_nil, hindex,
              insertLines_append hposition]

theorem importVolume_insertReport (argument : Text) (want : Bool) :
    (state.insertReport position lines).importVolume qt command argument want =
      (state.importVolume qt command argument want).insertReport position lines := by
  rw [importVolume, importVolume]
  dsimp only [insertReport]
  cases editVolume qt argument (fun editor => editor.importProtect want) state.editors.volumes with
  | none => exact appendResult_insertReport hposition lines _
  | some edited =>
      simp only [appendResult, insertLines_append hposition]

theorem importFile_insertReport (argument : Text) (add : Bool) :
    (state.insertReport position lines).importFile qt services command argument add =
      (state.importFile qt services command argument add).insertReport position lines := by
  rw [importFile, importFile]
  dsimp only [insertReport]
  cases services.resolveDrive (qt.toNativeSeparators argument) with
  | error what => exact appendResult_insertReport hposition lines _
  | ok dl =>
      dsimp only
      by_cases hempty : dl.isEmpty = true
      · rw [if_pos hempty, if_pos hempty]
        exact appendResult_insertReport hposition lines _
      · rw [if_neg hempty, if_neg hempty]
        split
        · exact appendResult_insertReport hposition lines _
        · simp only [appendResult, insertLines_append hposition]

theorem importRegistry_insertReport (argument : Text) (add : Bool) :
    (state.insertReport position lines).importRegistry qt command argument add =
      (state.importRegistry qt command argument add).insertReport position lines := by
  rw [importRegistry, importRegistry]
  dsimp only [insertReport]
  cases state.editors.registry with
  | none => exact appendResult_insertReport hposition lines _
  | some registry => simp only [appendResult, insertLines_append hposition]

theorem importParsed_insertReport :
    (state.insertReport position lines).importParsed qt services command =
      (state.importParsed qt services command).insertReport position lines := by
  rw [importParsed, importParsed]
  by_cases hparse : command.parseError ≠ .none ∧ command.parseError ≠ .comment
  · rw [if_pos hparse, if_pos hparse]
    exact appendResult_insertReport hposition lines _
  · rw [if_neg hparse, if_neg hparse]
    dsimp only
    cases globalField command.kind with
    | some field => exact importGlobal_insertReport qt services command hposition lines _ _
    | none =>
        dsimp only
        split
        · exact importVolume_insertReport qt command hposition lines _ _
        · exact importVolume_insertReport qt command hposition lines _ _
        · exact importFile_insertReport qt services command hposition lines _ _
        · exact importFile_insertReport qt services command hposition lines _ _
        · exact importRegistry_insertReport qt command hposition lines _ _
        · exact importRegistry_insertReport qt command hposition lines _ _
        · exact appendResult_insertReport hposition lines _

theorem importCommand_insertReport :
    (state.insertReport position lines).importCommand qt services command =
      (state.importCommand qt services command).insertReport position lines := by
  have hprevious : (state.insertReport position lines).previousAccepted =
      state.previousAccepted := rfl
  rw [importCommand, importCommand, hprevious]
  split_ifs
  · exact appendResult_insertReport hposition lines _
  · exact importParsed_insertReport qt services command hposition lines

end InsertReport

/-- Lines inserted before a run stay where they are, and the run does not see them. -/
theorem importCommands_insertReport {position : ℕ} (lines : List ImportResult)
    (commands : List UwfmgrCommand) {state : ImportState}
    (hposition : position ≤ state.results.length) :
    (state.insertReport position lines).importCommands qt services commands =
      (state.importCommands qt services commands).insertReport position lines := by
  induction commands generalizing state with
  | nil => rfl
  | cons command rest ih =>
      obtain ⟨result, -, hresult⟩ :=
        (imported_importCommand qt services command state).results_eq
      have hnext : position ≤ (state.importCommand qt services command).results.length := by
        rw [hresult, List.length_append]
        exact Nat.le_add_right_of_le hposition
      calc
        (state.insertReport position lines).importCommands qt services (command :: rest) =
            ((state.importCommand qt services command).insertReport position lines).importCommands
              qt services rest := by
          rw [← importCommand_insertReport qt services command hposition lines]
          rfl
        _ = _ := ih hnext

/-- What is left of a chain after a failure. -/
theorem importCommands_dependent {tail : List UwfmgrCommand}
    (hdependent : ∀ command ∈ tail, command.requiresPrevious = true) {state : ImportState}
    (hfailed : state.previousAccepted = false) :
    state.importCommands qt services tail =
      { state with results := state.results ++ tail.map (skippedLine qt) } := by
  induction tail generalizing state with
  | nil =>
      rw [List.map_nil, List.append_nil]
      rfl
  | cons command rest ih =>
      have hskipped : state.importCommand qt services command =
          state.appendResult (skippedLine qt command) := by
        rw [importCommand, if_pos]
        rw [hdependent command List.mem_cons_self, hfailed]
        rfl
      have hrest : (state.appendResult (skippedLine qt command)).importCommands qt services rest =
          { state.appendResult (skippedLine qt command) with
            results := (state.appendResult (skippedLine qt command)).results ++
              rest.map (skippedLine qt) } :=
        ih (fun other hother => hdependent other (List.mem_cons_of_mem _ hother)) rfl
      calc
        state.importCommands qt services (command :: rest) =
            (state.appendResult (skippedLine qt command)).importCommands qt services rest := by
          rw [← hskipped]
          rfl
        _ = _ := by
          rw [hrest, appendResult, List.append_assoc, List.singleton_append, List.map_cons, hfailed]
          rfl

theorem Consistent.insertReport_eq {state : ImportState} (hstate : Consistent state)
    (lines : List ImportResult) :
    state.insertReport state.results.length lines =
      { state with results := state.results ++ lines } := by
  have heffects : state.effects.map (fun effect =>
      { effect with
        reportIndex := shiftIndex state.results.length lines.length effect.reportIndex }) =
      state.effects := by
    apply (List.map_congr_left ?_).trans (List.map_id state.effects)
    intro effect heffect
    obtain ⟨result, hresult, -⟩ := hstate.effects effect heffect
    obtain ⟨hindex, -⟩ := List.getElem?_eq_some_iff.1 hresult
    rw [shiftIndex, if_pos hindex]
    rfl
  have hresults : insertLines state.results.length lines state.results =
      state.results ++ lines := by
    rw [insertLines, List.take_length, List.drop_length, List.append_nil]
  rw [insertReport, heffects, hresults]

end ImportState

/-! ## The end of the batch -/

theorem lineNo_describeGlobalEffect (report : ImportResult) (effect : GlobalCommandEffect)
    (initial actual : GlobalValue) (latest : Bool) :
    (describeGlobalEffect report effect initial actual latest).lineNo = report.lineNo := by
  rw [describeGlobalEffect]
  dsimp only
  split_ifs <;> rfl

/-- The description says which of the two accepted outcomes it was. -/
theorem accepted_describeGlobalEffect (report : ImportResult) (effect : GlobalCommandEffect)
    (initial actual : GlobalValue) (latest : Bool) :
    (describeGlobalEffect report effect initial actual latest).status.accepted = true := by
  cases latest with
  | false => exact accepted_changedStatus _
  | true => exact accepted_changedStatus _

variable {global : GlobalConfigurationEditor} {initial : GlobalField → GlobalValue}

theorem lineNo_describeEffects (described : List GlobalField) (effects : List GlobalCommandEffect)
    (results : List ImportResult) :
    (describeEffects global initial described effects results).map ImportResult.lineNo =
      results.map ImportResult.lineNo := by
  induction effects generalizing described results with
  | nil => rfl
  | cons effect rest ih =>
      rw [describeEffects, ih]
      apply map_modify_eq
      intro result _
      split_ifs
      · rfl
      · exact lineNo_describeGlobalEffect _ _ _ _ _

/-- Nothing accepted is taken back, and nothing else becomes accepted. -/
theorem accepted_describeEffects (havailable : global.available = true)
    (described : List GlobalField) {effects : List GlobalCommandEffect} {results : List ImportResult}
    (haccepted : ∀ effect ∈ effects,
      (results.map (·.status.accepted))[effect.reportIndex]? = some true) :
    (describeEffects global initial described effects results).map (·.status.accepted) =
      results.map (·.status.accepted) := by
  induction effects generalizing described results with
  | nil => rfl
  | cons effect rest ih =>
      have hkept : ∀ edit : ImportResult → ImportResult,
          (∀ result, (edit result).status.accepted = true) →
          (results.modify effect.reportIndex edit).map (·.status.accepted) =
            results.map (·.status.accepted) := by
        intro edit hedit
        apply map_modify_eq
        intro result hresult
        have hline := haccepted effect List.mem_cons_self
        rw [List.getElem?_map, hresult] at hline
        rw [hedit]
        exact (Option.some.inj hline).symm
      rw [describeEffects, ih, hkept]
      · intro result
        rw [if_neg (by simp [havailable])]
        exact accepted_describeGlobalEffect _ _ _ _ _
      · intro other hother
        rw [hkept]
        · exact haccepted other (List.mem_cons_of_mem _ hother)
        · intro result
          rw [if_neg (by simp [havailable])]
          exact accepted_describeGlobalEffect _ _ _ _ _

theorem describeEffects_insertLines {position : ℕ} (lines : List ImportResult)
    (described : List GlobalField) (effects : List GlobalCommandEffect)
    {results : List ImportResult} (hposition : position ≤ results.length) :
    describeEffects global initial described
        (effects.map fun effect =>
          { effect with reportIndex := shiftIndex position lines.length effect.reportIndex })
        (insertLines position lines results) =
      insertLines position lines
        (describeEffects global initial described effects results) := by
  induction effects generalizing described results with
  | nil => rfl
  | cons effect rest ih =>
      rw [List.map_cons, describeEffects, describeEffects]
      dsimp only
      rw [modify_insertLines hposition]
      exact ih _ (by rwa [List.length_modify])

/-! ## The whole import -/

variable (qt : Qt) (services : ImportServices)

theorem lineNo_finishImportState (state : ImportState) :
    (finishImportState state).1.map ImportResult.lineNo =
      state.results.map ImportResult.lineNo := by
  rw [finishImportState]
  split
  · rfl
  · exact lineNo_describeEffects _ _ _

theorem accepted_finishImportState {state : ImportState} (hstate : state.Consistent) :
    (finishImportState state).1.map (·.status.accepted) =
      state.results.map (·.status.accepted) := by
  rw [finishImportState]
  split
  · rfl
  · next global hglobal =>
    by_cases heffects : state.effects = []
    · rw [heffects]
      rfl
    · apply accepted_describeEffects
      · rw [available_finishImport]
        exact hstate.available heffects global hglobal
      · intro effect heffect
        obtain ⟨result, hresult, haccepted⟩ := hstate.effects effect (List.mem_reverse.1 heffect)
        rw [List.getElem?_map, hresult, Option.map_some, haccepted]

theorem finishImportState_insertReport {position : ℕ} {state : ImportState}
    (hposition : position ≤ state.results.length) (lines : List ImportResult) :
    finishImportState (state.insertReport position lines) =
      (insertLines position lines (finishImportState state).1, (finishImportState state).2) := by
  rw [finishImportState, finishImportState]
  dsimp only [ImportState.insertReport]
  cases state.editors.global with
  | none => rfl
  | some global =>
      dsimp only
      rw [← List.map_reverse, describeEffects_insertLines lines _ _ hposition]

namespace ImportState

theorem importCommands_append (first second : List UwfmgrCommand) (state : ImportState) :
    state.importCommands qt services (first ++ second) =
      (state.importCommands qt services first).importCommands qt services second :=
  List.foldl_append

theorem length_importCommands (commands : List UwfmgrCommand) (state : ImportState) :
    (state.importCommands qt services commands).results.length =
      state.results.length + commands.length := by
  obtain ⟨lines, hlines, hnumbers⟩ :=
    @results_importCommands qt services commands state
  have hlength : lines.length = commands.length := by
    simpa using congrArg List.length hnumbers
  rw [hlines, List.length_append, hlength]

end ImportState

variable {qt services}

/-- The report of the whole batch tells what the loop knew after a command. -/
theorem previousAccepted_of_reported {editors : ImportEditors}
    {before rest : List UwfmgrCommand} {failing : UwfmgrCommand} {line : ImportResult}
    (hline : (applyImportCommands qt services (before ++ [failing] ++ rest) editors).1[before.length]? =
      some line) :
    (({ editors := editors } : ImportState).importCommands qt services
      (before ++ [failing])).previousAccepted = line.status.accepted := by
  have hconsistent : ∀ commands, ImportState.Consistent
      (({ editors := editors } : ImportState).importCommands qt services commands) :=
    ImportState.consistent_importCommands (ImportState.consistent_start editors)
  have hlength := ImportState.length_importCommands qt services (before ++ [failing])
    { editors := editors }
  have hreport := accepted_finishImportState (hconsistent (before ++ [failing] ++ rest))
  have hprevious := (hconsistent (before ++ [failing])).previous
  rw [applyImportCommands, ImportState.importCommands_append] at hline
  rw [ImportState.importCommands_append] at hreport
  generalize ({ editors := editors } : ImportState).importCommands qt services
    (before ++ [failing]) = state at hline hreport hprevious hlength ⊢
  obtain ⟨lines, hlines, -⟩ := @ImportState.results_importCommands qt services rest state
  have hlast : state.results.length = before.length + 1 := by
    simpa using hlength
  have hfound : (state.results.map (·.status.accepted))[before.length]? =
      some line.status.accepted := by
    calc
      (state.results.map (·.status.accepted))[before.length]? =
          ((state.results ++ lines).map (·.status.accepted))[before.length]? := by
        rw [List.map_append, List.getElem?_append_left]
        rw [List.length_map, hlast]
        exact Nat.lt_succ_self _
      _ = some line.status.accepted := by
        rw [← hlines, ← hreport, List.getElem?_map, hline, Option.map_some]
  rw [List.getElem?_map] at hfound
  obtain ⟨last, hindex, haccepted⟩ := Option.map_eq_some_iff.1 hfound
  rw [hprevious, List.getLast?_eq_getElem?, hlast, Nat.add_sub_cancel, hindex, ← haccepted]
  rfl

/-- The commands of a text form chains: a dependent command directly follows a command of
its line.  The import writes one line for each command, in order.  Once the line of a member
was not accepted, the dependent commands after it edit nothing, and the commands after them
have the editors and the lines they would have without them. -/
theorem failed_chain_skipped :
    (∀ text, Linked (parseUwfmgrText text)) ∧
      (∀ commands editors,
        (applyImportCommands qt services commands editors).1.map ImportResult.lineNo =
          commands.map UwfmgrCommand.sourceLineNo) ∧
      ∀ (editors : ImportEditors) (before tail after : List UwfmgrCommand)
        (failing : UwfmgrCommand) (line : ImportResult),
        (∀ command ∈ tail, command.requiresPrevious = true) →
        (applyImportCommands qt services
          (before ++ failing :: (tail ++ after)) editors).1[before.length]? = some line →
        line.status.accepted = false →
        (({ editors := editors } : ImportState).importCommands qt services
            (before ++ failing :: tail)).editors =
          (({ editors := editors } : ImportState).importCommands qt services
            (before ++ [failing])).editors ∧
        applyImportCommands qt services (before ++ failing :: (tail ++ after)) editors =
          (insertLines (before.length + 1) (tail.map (ImportState.skippedLine qt))
              (applyImportCommands qt services (before ++ failing :: after) editors).1,
            (applyImportCommands qt services (before ++ failing :: after) editors).2) := by
  refine ⟨linked_parseUwfmgrText, ?_, ?_⟩
  · intro commands editors
    obtain ⟨lines, hlines, hnumbers⟩ :=
      @ImportState.results_importCommands qt services commands { editors := editors }
    rw [applyImportCommands, lineNo_finishImportState, hlines, ← hnumbers]
    rfl
  · intro editors before tail after failing line hdependent hline hfailed
    have hfull : before ++ failing :: (tail ++ after) = before ++ [failing] ++ (tail ++ after) :=
      List.append_cons _ _ _
    rw [hfull] at hline ⊢
    rw [List.append_cons before failing tail, List.append_cons before failing after]
    have hrejected := (previousAccepted_of_reported hline).trans hfailed
    have hconsistent : ImportState.Consistent
        (({ editors := editors } : ImportState).importCommands qt services (before ++ [failing])) :=
      ImportState.consistent_importCommands (ImportState.consistent_start editors) _
    have hlength : (({ editors := editors } : ImportState).importCommands qt services
        (before ++ [failing])).results.length = before.length + 1 := by
      simp [ImportState.length_importCommands]
    simp only [applyImportCommands, ImportState.importCommands_append _ _ (before ++ [failing])]
    generalize ({ editors := editors } : ImportState).importCommands qt services
      (before ++ [failing]) = state at hrejected hconsistent hlength ⊢
    have htail := @ImportState.importCommands_dependent qt services tail hdependent state hrejected
    constructor
    · rw [htail]
    · have hafter := ImportState.length_importCommands qt services after state
      rw [ImportState.importCommands_append, htail, ← hconsistent.insertReport_eq,
        ImportState.importCommands_insertReport _ _ le_rfl, hlength]
      apply finishImportState_insertReport
      omega

/-- Without a global editor `filter enable && volume protect C:` leaves the volume alone, and
the next line is applied. -/
theorem failed_chain_skipped_filter :
    let services : ImportServices := ⟨fun _ => none, fun _ => .ok []⟩
    let enable : UwfmgrCommand := { kind := .filterEnable, sourceLineNo := 1 }
    let dependent : UwfmgrCommand :=
      { kind := .volumeProtect, args := ["C:".toList], sourceLineNo := 1, requiresPrevious := true }
    let next : UwfmgrCommand :=
      { kind := .volumeProtect, args := ["D:".toList], sourceLineNo := 2 }
    let editors : ImportEditors := { volumes := [{ driveLetter := "C:".toList }] }
    applyImportCommands Qt.ascii services [enable, dependent, next] editors =
      (insertLines 1 [ImportState.skippedLine Qt.ascii dependent]
          (applyImportCommands Qt.ascii services [enable, next] editors).1,
        (applyImportCommands Qt.ascii services [enable, next] editors).2) := by
  intro services enable dependent next editors
  exact (failed_chain_skipped.2.2 editors [] [dependent] [next] enable _ (by decide) rfl rfl).2

end UwfManager
