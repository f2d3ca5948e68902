import UwfManager.Configuration.UwfmgrCommands
import Mathlib.Data.List.Chain

/-!
# Round trips through the text form

A rendered command is read back as it was.  A rendered script is read back as
it was exactly when no command followed by a dependent one leaves the shell
inside of quotes: the splitter then takes the `&&` after it for a part of the
argument.
-/

namespace UwfManager.Commands

/-! ## Lines as lists of words -/

/-- Arguments rendered one after the other on one line. -/
def joinArgs : List Text → Text
  | [] => []
  | [word] => quoteArg word
  | word :: next :: rest => quoteArg word ++ ' ' :: joinArgs (next :: rest)

theorem joinArgs_cons {words : List Text} (word : Text) (hne : words ≠ []) :
    joinArgs (word :: words) = quoteArg word ++ ' ' :: joinArgs words := by
  cases words with
  | nil => exact absurd rfl hne
  | cons next rest => rfl

theorem removeCarets_cons_space (shellQuoted : Bool) (rest : Text) :
    removeCarets shellQuoted (' ' :: rest) = ' ' :: removeCarets shellQuoted rest :=
  removeCarets_cons_ordinary _ _ (by decide) (Or.inr (by decide))

/-- A line of words is read back word by word.  Only the last word may leave
the shell inside of quotes. -/
theorem splitArgs_joinArgs {words : List Text} {last rest : Text}
    {finish : Text → TokenizedLine} (heven : ∀ word ∈ words, quotesOdd word = false)
    (hends : EndsToken (removeCarets (quotesOdd last) rest) finish)
    (hrest : (removeCarets (quotesOdd last) rest).head? ≠ some '"') :
    splitArgs 0 false false [] (removeCarets false (joinArgs (words ++ [last]) ++ rest)) =
      words.foldr TokenizedLine.push (finish last) := by
  induction words with
  | nil =>
      rw [List.nil_append, joinArgs, removeCarets_quoteArg, splitArgs_argvArg _ hends hrest,
        List.foldr_nil]
  | cons word words ih =>
      have hword : quotesOdd word = false := heven word List.mem_cons_self
      have hwords := fun w hw => heven w (List.mem_cons_of_mem _ hw)
      rw [List.cons_append, joinArgs_cons _ (by simp), List.append_assoc, List.cons_append,
        removeCarets_quoteArg, hword, removeCarets_cons_space,
        splitArgs_argvArg _ (endsToken_space _) (by simp), ih hwords, List.foldr_cons]

@[simp]
theorem foldr_push (words : List Text) (line : TokenizedLine) :
    words.foldr TokenizedLine.push line =
      ⟨words ++ line.tokens, line.quotesBalanced⟩ := by
  induction words with
  | nil => rfl
  | cons word words ih => rw [List.foldr_cons, ih]; rfl

theorem tokenize_joinArgs {words : List Text} (last : Text)
    (heven : ∀ word ∈ words, quotesOdd word = false) :
    tokenize (joinArgs (words ++ [last])) = ⟨words ++ [last], true⟩ := by
  have hends : EndsToken (removeCarets (quotesOdd last) []) fun token => ⟨[token], true⟩ :=
    endsToken_nil
  have hline := splitArgs_joinArgs heven hends (by simp [removeCarets])
  rw [List.append_nil] at hline
  rw [tokenize, hline, foldr_push]

/-- What follows a line on the other side of a space. -/
theorem tokenize_joinArgs_space {words : List Text} (last rest : Text)
    (heven : ∀ word ∈ words, quotesOdd word = false) :
    tokenize (joinArgs (words ++ [last]) ++ ' ' :: rest) =
      let following := splitArgs 0 false false [] (removeCarets (quotesOdd last) rest)
      ⟨words ++ last :: following.tokens, following.quotesBalanced⟩ := by
  have hends := endsToken_space (removeCarets (quotesOdd last) rest)
  rw [← removeCarets_cons_space] at hends
  rw [tokenize, splitArgs_joinArgs heven hends (by simp [removeCarets_cons_space]), foldr_push]
  rfl

/-! ## Where a line ends -/

theorem exists_quoteBody_eq (value : Text) (backslashes : ℕ) (shellQuoted : Bool) :
    ∃ front, quoteBody backslashes shellQuoted value = front ++ ['"'] := by
  induction value generalizing backslashes shellQuoted with
  | nil => exact ⟨_, rfl⟩
  | cons c value ih =>
      rw [quoteBody]
      split_ifs with hbackslash hquote
      · exact ih _ _
      · obtain ⟨front, hfront⟩ := ih 0 (!shellQuoted)
        exact ⟨List.replicate (backslashes * 2) '\\' ++ '\\' :: '"' :: front, by simp [hfront]⟩
      · obtain ⟨front, hfront⟩ := ih 0 shellQuoted
        exact ⟨List.replicate backslashes '\\' ++ ['^'] ++ c :: front, by simp [hfront]⟩
      · obtain ⟨front, hfront⟩ := ih 0 shellQuoted
        exact ⟨List.replicate backslashes '\\' ++ [] ++ c :: front, by simp [hfront]⟩

/-- An argument ends in a visible character and is never empty. -/
theorem exists_quoteArg_eq (value : Text) :
    ∃ front last, quoteArg value = front ++ [last] ∧ isAsciiWhitespace last = false := by
  by_cases hquoting : needsQuoting value = true
  · obtain ⟨front, hfront⟩ := exists_quoteBody_eq value 0 true
    exact ⟨'"' :: front, '"', by rw [quoteArg, if_pos hquoting, hfront]; rfl, by decide⟩
  · obtain ⟨hne, hplain⟩ := isPlain_of_needsQuoting_eq_false (by simpa using hquoting)
    refine ⟨value.dropLast, value.getLast hne, ?_, (hplain _ (List.getLast_mem hne)).1⟩
    rw [quoteArg, if_neg hquoting, List.dropLast_append_getLast]

theorem exists_joinArgs_eq (words : List Text) (last : Text) :
    ∃ front c, joinArgs (words ++ [last]) = front ++ [c] ∧ isAsciiWhitespace c = false := by
  induction words with
  | nil => exact exists_quoteArg_eq last
  | cons word words ih =>
      obtain ⟨front, c, hfront, hvisible⟩ := ih
      refine ⟨quoteArg word ++ ' ' :: front, c, ?_, hvisible⟩
      rw [List.cons_append, joinArgs_cons _ (by simp), hfront]
      simp

/-! ## Doubled percent signs -/

theorem escapePercents_cons (c : Char) (rest : Text) :
    escapePercents (c :: rest) =
      (if c = '%' then ['%', '%'] else [c]) ++ escapePercents rest := rfl

@[simp]
theorem escapePercents_append (first second : Text) :
    escapePercents (first ++ second) = escapePercents first ++ escapePercents second :=
  List.flatMap_append

theorem decodeBatchPercents_cons {c : Char} (rest : Text) (hc : c ≠ '%') :
    decodeBatchPercents (c :: rest) = (decodeBatchPercents rest).map (c :: ·) := by
  cases rest with
  | nil => simp [decodeBatchPercents, hc]
  | cons next rest => rw [decodeBatchPercents, if_neg hc]

/-- Decoding undoes the doubling and then goes on with what follows. -/
theorem decodeBatchPercents_escapePercents (text rest : Text) :
    decodeBatchPercents (escapePercents text ++ rest) =
      (decodeBatchPercents rest).map (text ++ ·) := by
  induction text with
  | nil => simp [escapePercents]
  | cons c text ih =>
      rw [escapePercents_cons]
      by_cases hc : c = '%'
      · rw [if_pos hc, List.append_assoc, List.cons_append, List.cons_append,
          List.nil_append, decodeBatchPercents, if_pos rfl, if_pos rfl, ih, Option.map_map, hc]
        rfl
      · rw [if_neg hc, List.append_assoc, List.singleton_append,
          decodeBatchPercents_cons _ hc, ih, Option.map_map]
        rfl

theorem escapePercents_replicate (count : ℕ) {c : Char} (hc : c ≠ '%') :
    escapePercents (List.replicate count c) = List.replicate count c := by
  induction count with
  | zero => rfl
  | succ count ih => rw [List.replicate_succ, escapePercents_cons, if_neg hc, ih]; rfl

theorem quotesOdd_escapePercents (value : Text) :
    quotesOdd (escapePercents value) = quotesOdd value := by
  induction value with
  | nil => rfl
  | cons c value ih =>
      rw [escapePercents_cons, quotesOdd_cons, ← ih]
      by_cases hc : c = '%'
      · simp [hc, quotesOdd_cons]
      · simp [hc, quotesOdd_cons]

theorem needsQuoting_escapePercents (value : Text) :
    needsQuoting (escapePercents value) = needsQuoting value := by
  have hany : ∀ rest : Text, ((escapePercents rest).any fun c =>
      isAsciiWhitespace c || specialCharacters.contains c) =
      rest.any fun c => isAsciiWhitespace c || specialCharacters.contains c := by
    intro rest
    induction rest with
    | nil => rfl
    | cons c rest ih =>
        rw [escapePercents_cons, List.any_append, ih, List.any_cons]
        by_cases hc : c = '%'
        · simp [hc]
        · simp [hc]
  have hempty : (escapePercents value).isEmpty = value.isEmpty := by
    cases value with
    | nil => rfl
    | cons c value =>
        rw [escapePercents_cons]
        split_ifs <;> rfl
  rw [needsQuoting, needsQuoting, hany, hempty]

theorem escapePercents_quoteBody (value : Text) (backslashes : ℕ) (shellQuoted : Bool) :
    escapePercents (quoteBody backslashes shellQuoted value) =
      quoteBody backslashes shellQuoted (escapePercents value) := by
  have hslash := fun count => escapePercents_replicate count (c := '\\') (by decide)
  induction value generalizing backslashes shellQuoted with
  | nil => rw [quoteBody, escapePercents_append, hslash]; rfl
  | cons c value ih =>
      by_cases hbackslash : c = '\\'
      · rw [hbackslash, quoteBody, if_pos rfl, ih]
        rfl
      by_cases hquote : c = '"'
      · rw [hquote, quoteBody, if_neg (by decide), if_pos rfl, escapePercents_append, hslash,
          escapePercents_cons, escapePercents_cons, ih]
        rfl
      rw [quoteBody, if_neg hbackslash, if_neg hquote, escapePercents_append,
        escapePercents_append, escapePercents_cons, hslash, ih]
      by_cases hpercent : c = '%'
      · have hplain : (!shellQuoted && shellEscaped '%') = false := by
          cases shellQuoted <;> decide
        rw [hpercent, hplain, if_pos rfl, escapePercents_cons, if_pos rfl]
        simp [quoteBody, hplain, escapePercents]
      · have hcaret : escapePercents (if (!shellQuoted && shellEscaped c) = true then ['^']
            else []) = if (!shellQuoted && shellEscaped c) = true then ['^'] else [] := by
          split_ifs <;> rfl
        rw [if_neg hpercent, escapePercents_cons, if_neg hpercent, List.singleton_append,
          List.singleton_append, quoteBody, if_neg hbackslash, if_neg hquote, hcaret]

theorem escapePercents_quoteArg (value : Text) :
    escapePercents (quoteArg value) = quoteArg (escapePercents value) := by
  rw [quoteArg, quoteArg, needsQuoting_escapePercents]
  split_ifs
  · rw [escapePercents_cons, escapePercents_quoteBody]
    rfl
  · rfl

theorem escapePercents_joinArgs (words : List Text) :
    escapePercents (joinArgs words) = joinArgs (words.map escapePercents) := by
  induction words with
  | nil => rfl
  | cons word words ih =>
      cases words with
      | nil => exact escapePercents_quoteArg word
      | cons next rest =>
          have hrest : (next :: rest).map escapePercents ≠ [] := by simp
          rw [List.map_cons, joinArgs_cons (escapePercents word) hrest, ← ih,
            joinArgs_cons word (List.cons_ne_nil _ _), escapePercents_append,
            escapePercents_cons, escapePercents_quoteArg]
          rfl

/-! ## Splitting a line at `&&` -/

theorem splitParts_cons_quote (quoted : Bool) (cur rest : Text) :
    splitParts quoted cur ('"' :: rest) = splitParts (!quoted) (cur ++ ['"']) rest := by
  cases rest with
  | nil => rfl
  | cons next rest => simp [splitParts]

theorem splitParts_cons_ordinary {c : Char} (quoted : Bool) (cur rest : Text)
    (hquote : c ≠ '"') (hspecial : quoted = true ∨ c ≠ '^' ∧ c ≠ '&') :
    splitParts quoted cur (c :: rest) = splitParts quoted (cur ++ [c]) rest := by
  cases rest with
  | nil => rfl
  | cons next rest =>
      rcases hspecial with rfl | ⟨hcaret, hand⟩
      · simp [splitParts, hquote]
      · simp [splitParts, hquote, hcaret, hand]

theorem splitParts_caret (cur rest : Text) (c : Char) :
    splitParts false cur ('^' :: c :: rest) = splitParts false (cur ++ ['^', c]) rest := by
  simp [splitParts]

theorem splitParts_and (cur rest : Text) :
    splitParts false cur ('&' :: '&' :: rest) = cur :: splitParts false [] rest := by
  simp [splitParts]

theorem splitParts_append {quoted : Bool} {text : Text} (cur rest : Text)
    (hquote : '"' ∉ text) (hspecial : quoted = true ∨ '^' ∉ text ∧ '&' ∉ text) :
    splitParts quoted cur (text ++ rest) = splitParts quoted (cur ++ text) rest := by
  induction text generalizing cur with
  | nil => simp
  | cons c text ih =>
      simp only [List.mem_cons, not_or] at hquote hspecial
      have hhead : quoted = true ∨ c ≠ '^' ∧ c ≠ '&' :=
        hspecial.imp_right fun h => ⟨Ne.symm h.1.1, Ne.symm h.2.1⟩
      rw [List.cons_append, splitParts_cons_ordinary _ _ _ (Ne.symm hquote.1) hhead,
        ih _ hquote.2 (hspecial.imp_right fun h => ⟨h.1.2, h.2.2⟩)]
      simp

/-- The splitter follows the shell through a quoted argument. -/
theorem splitParts_quoteBody (value : Text) (backslashes : ℕ) (quoted : Bool)
    (cur rest : Text) :
    splitParts quoted cur (quoteBody backslashes quoted value ++ rest) =
      splitParts (!(quoted ^^ quotesOdd value))
        (cur ++ quoteBody backslashes quoted value) rest := by
  have hslash : ∀ count quoted cur rest,
      splitParts quoted cur (List.replicate count '\\' ++ rest) =
        splitParts quoted (cur ++ List.replicate count '\\') rest := fun count quoted cur rest =>
    splitParts_append cur rest (by simp [List.mem_replicate])
      (Or.inr (by simp [List.mem_replicate]))
  induction value generalizing backslashes quoted cur with
  | nil =>
      rw [quoteBody, List.append_assoc, hslash, List.singleton_append, splitParts_cons_quote]
      simp
  | cons c value ih =>
      by_cases hbackslash : c = '\\'
      · subst hbackslash
        simp only [quoteBody, if_true]
        rw [ih, quotesOdd_cons]
        simp
      by_cases hquote : c = '"'
      · subst hquote
        simp only [quoteBody, if_neg hbackslash, if_true, List.append_assoc, List.cons_append]
        rw [hslash, splitParts_cons_ordinary _ _ _ (by decide) (Or.inr (by decide)),
          splitParts_cons_quote, ih, quotesOdd_cons]
        cases quoted <;> cases quotesOdd value <;> simp
      have hparity : quotesOdd (c :: value) = quotesOdd value := by
        rw [quotesOdd_cons, beq_false_of_ne hquote, Bool.xor_false]
      simp only [quoteBody, if_neg hbackslash, if_neg hquote, List.append_assoc,
        List.cons_append]
      rw [hslash, hparity]
      by_cases hcaret : (!quoted && shellEscaped c) = true
      · obtain ⟨rfl, -⟩ : quoted = false ∧ shellEscaped c = true := by simpa using hcaret
        rw [if_pos hcaret, List.singleton_append, splitParts_caret, ih]
        simp
      · rw [if_neg hcaret, List.nil_append, splitParts_cons_ordinary _ _ _ hquote, ih]
        · simp
        · by_cases hopen : quoted = true
          · exact Or.inl hopen
          · refine Or.inr ⟨?_, ?_⟩ <;> rintro rfl <;> exact hcaret (by simp [hopen]; decide)

theorem splitParts_quoteArg (value cur rest : Text) :
    splitParts false cur (quoteArg value ++ rest) =
      splitParts (quotesOdd value) (cur ++ quoteArg value) rest := by
  by_cases hquoting : needsQuoting value = true
  · simp only [quoteArg, if_pos hquoting, List.cons_append]
    rw [splitParts_cons_quote, Bool.not_false, splitParts_quoteBody]
    simp
  · have hplain : needsQuoting value = false := by simpa using hquoting
    have hmissing : ∀ c ∈ specialCharacters, c ∉ value := fun c hc =>
      not_mem_of_needsQuoting_eq_false hplain (Or.inr hc)
    rw [quoteArg, if_neg hquoting, quotesOdd_of_not_mem (hmissing _ (by decide))]
    exact splitParts_append cur rest (hmissing _ (by decide))
      (Or.inr ⟨hmissing _ (by decide), hmissing _ (by decide)⟩)

theorem splitParts_joinArgs {words : List Text} (last cur rest : Text)
    (heven : ∀ word ∈ words, quotesOdd word = false) :
    splitParts false cur (joinArgs (words ++ [last]) ++ rest) =
      splitParts (quotesOdd last) (cur ++ joinArgs (words ++ [last])) rest := by
  induction words generalizing cur with
  | nil => exact splitParts_quoteArg last cur rest
  | cons word words ih =>
      have hwords := fun w hw => heven w (List.mem_cons_of_mem _ hw)
      rw [List.cons_append, joinArgs_cons _ (by simp), List.append_assoc, List.cons_append,
        splitParts_quoteArg, heven word List.mem_cons_self,
        splitParts_cons_ordinary _ _ _ (by decide) (Or.inr (by decide)), ih _ hwords]
      simp

/-- What has been read stays at the front of the current part. -/
theorem exists_splitParts_eq (quoted : Bool) (cur rest : Text) :
    ∃ tail parts, splitParts quoted cur rest = (cur ++ tail) :: parts := by
  fun_induction splitParts quoted cur rest with
  | case1 cur => exact ⟨[], [], by simp⟩
  | case2 quoted cur c => exact ⟨[c], [], rfl⟩
  | case3 quoted cur c next rest hcaret ih =>
      obtain ⟨tail, parts, htail⟩ := ih
      exact ⟨[c, next] ++ tail, parts, by simpa using htail⟩
  | case4 quoted cur next rest hcaret ih =>
      obtain ⟨tail, parts, htail⟩ := ih
      exact ⟨'"' :: tail, parts, by simpa using htail⟩
  | case5 quoted cur c next rest hcaret hquote hand ih =>
      exact ⟨[], splitParts quoted [] rest, by simp⟩
  | case6 quoted cur c next rest hcaret hquote hand ih =>
      obtain ⟨tail, parts, htail⟩ := ih
      exact ⟨c :: tail, parts, by simpa using htail⟩

/-! ## Supported commands -/

/-- The argument lists that belong to a kind of command. -/
def UwfmgrKind.AcceptsArgs : UwfmgrKind → List Text → Prop
  | .unknown, _ => False
  | .filterEnable, args | .filterDisable, args => args = []
  | .overlaySetType, args => args = ["RAM".toList] ∨ args = ["Disk".toList]
  | .overlaySetSize, args
  | .overlaySetWarningThreshold, args
  | .overlaySetCriticalThreshold, args =>
      ∃ value ≤ uint64Max, args = [Nat.toDigits 10 value]
  | .volumeProtect, args | .volumeUnprotect, args =>
      ∃ letter, Drive.IsDriveLetter letter ∧ args = [letter]
  | .fileAddExclusion, args
  | .fileRemoveExclusion, args
  | .registryAddExclusion, args
  | .registryRemoveExclusion, args =>
      ∃ argument, argument ≠ [] ∧ '\n' ∉ argument ∧ args = [argument]

/-- The commands that have a text form. -/
def UwfmgrCommand.Supported (cmd : UwfmgrCommand) : Prop :=
  cmd.kind.AcceptsArgs cmd.args

def UwfmgrKind.category : UwfmgrKind → Text
  | .unknown => []
  | .filterEnable | .filterDisable => "filter".toList
  | .overlaySetType
  | .overlaySetSize
  | .overlaySetWarningThreshold
  | .overlaySetCriticalThreshold => "overlay".toList
  | .volumeProtect | .volumeUnprotect => "volume".toList
  | .fileAddExclusion | .fileRemoveExclusion => "file".toList
  | .registryAddExclusion | .registryRemoveExclusion => "registry".toList

def UwfmgrKind.verb : UwfmgrKind → Text
  | .unknown => []
  | .filterEnable => "enable".toList
  | .filterDisable => "disable".toList
  | .overlaySetType => "set-type".toList
  | .overlaySetSize => "set-size".toList
  | .overlaySetWarningThreshold => "set-warningthreshold".toList
  | .overlaySetCriticalThreshold => "set-criticalthreshold".toList
  | .volumeProtect => "protect".toList
  | .volumeUnprotect => "unprotect".toList
  | .fileAddExclusion | .registryAddExclusion => "add-exclusion".toList
  | .fileRemoveExclusion | .registryRemoveExclusion => "remove-exclusion".toList

/-- The words of a rendered command. -/
def UwfmgrCommand.words (cmd : UwfmgrCommand) : List Text :=
  "uwfmgr.exe".toList :: cmd.kind.category :: cmd.kind.verb :: cmd.args

theorem UwfmgrCommand.Supported.kind_ne_unknown {cmd : UwfmgrCommand} (hcmd : cmd.Supported) :
    cmd.kind ≠ .unknown := by
  intro hkind
  rw [Supported, hkind] at hcmd
  exact hcmd

theorem needsQuoting_eq_false_of_forall {value : Text} (p : Char → Bool) (hne : value ≠ [])
    (hvalue : ∀ c ∈ value, p c = true)
    (hspecial : (" \t\n\r\x0c\x0b".toList ++ specialCharacters).all (fun c => !p c) = true) :
    needsQuoting value = false := by
  have hspace : ∀ c, isAsciiWhitespace c = true → c ∈ " \t\n\r\x0c\x0b".toList := by
    intro c hc
    simpa [isAsciiWhitespace, or_assoc] using hc
  rw [needsQuoting, List.isEmpty_eq_false_iff.2 hne, Bool.false_or, List.any_eq_false]
  intro c hc hbad
  rw [Bool.or_eq_true, List.contains_iff_mem] at hbad
  have hmem : c ∈ " \t\n\r\x0c\x0b".toList ++ specialCharacters :=
    List.mem_append.2 (hbad.imp_left (hspace c))
  have hother : p c = false := by simpa using List.all_eq_true.1 hspecial c hmem
  exact absurd (hvalue c hc) (by simp [hother])

theorem quoteArg_toDigits (value : ℕ) :
    quoteArg (Nat.toDigits 10 value) = Nat.toDigits 10 value := by
  rw [quoteArg, needsQuoting_eq_false_of_forall Char.isDigit Nat.toDigits_ne_nil
    (fun c hc => Nat.isDigit_of_mem_toDigits (by decide) (by decide) hc) (by decide)]
  rfl

theorem quoteArg_driveLetter {letter : Text} (hletter : Drive.IsDriveLetter letter) :
    quoteArg letter = letter := by
  obtain ⟨c, hlow, hhigh, rfl⟩ := hletter
  rw [quoteArg, needsQuoting_eq_false_of_forall
    (fun d => 'A' ≤ d && d ≤ 'Z' || d == ':') (by simp) (by simp [hlow, hhigh]) (by decide)]
  rfl

theorem quoteArg_eq_self {value : Text} (hplain : needsQuoting value = false) :
    quoteArg value = value := by
  rw [quoteArg, hplain]
  rfl

/-- The words in front of the arguments are rendered as they are. -/
theorem joinArgs_words (kind : UwfmgrKind) (args : List Text) (hkind : kind ≠ .unknown) :
    joinArgs ("uwfmgr.exe".toList :: kind.category :: kind.verb :: args) =
      "uwfmgr.exe".toList ++ ' ' :: (kind.category ++ ' ' :: (kind.verb ++
        match args with
        | [] => []
        | _ :: _ => ' ' :: joinArgs args)) := by
  have hname : quoteArg "uwfmgr.exe".toList = "uwfmgr.exe".toList :=
    quoteArg_eq_self (by decide)
  have hcategory : quoteArg kind.category = kind.category := by
    refine quoteArg_eq_self ?_
    cases kind <;> first | exact absurd rfl hkind | decide
  have hverb : quoteArg kind.verb = kind.verb := by
    refine quoteArg_eq_self ?_
    cases kind <;> first | exact absurd rfl hkind | decide
  cases args <;> simp only [joinArgs, hname, hcategory, hverb, List.append_nil]

theorem renderCommand_eq_joinArgs {cmd : UwfmgrCommand} (hcmd : cmd.Supported) :
    renderCommand cmd = joinArgs cmd.words := by
  rw [UwfmgrCommand.words, joinArgs_words _ _ hcmd.kind_ne_unknown]
  obtain ⟨kind, args⟩ := cmd
  cases kind with
  | unknown => exact hcmd.elim
  | filterEnable | filterDisable =>
      obtain rfl : args = [] := hcmd
      rfl
  | overlaySetType =>
      obtain rfl | rfl : args = _ ∨ args = _ := hcmd
      all_goals
        rw [joinArgs, quoteArg_eq_self (by decide)]
        rfl
  | overlaySetSize | overlaySetWarningThreshold | overlaySetCriticalThreshold =>
      obtain ⟨value, -, rfl⟩ := hcmd
      simp only [joinArgs, quoteArg_toDigits]
      rfl
  | volumeProtect | volumeUnprotect =>
      obtain ⟨letter, hletter, rfl⟩ := hcmd
      simp only [joinArgs, quoteArg_driveLetter hletter]
      rfl
  | fileAddExclusion | fileRemoveExclusion | registryAddExclusion | registryRemoveExclusion =>
      obtain ⟨argument, -, -, rfl⟩ := hcmd
      rfl

/-- What the branch of `parseVerb` for a kind does with the arguments. -/
def UwfmgrKind.parseArgs (out : UwfmgrCommand) (kind : UwfmgrKind) (args : List Text) :
    UwfmgrCommand :=
  match kind with
  | .unknown => out.fail .unsupported
  | .filterEnable | .filterDisable =>
      rejectUnexpectedArgument { out with kind := kind } args { out with kind := kind }
  | .overlaySetType => parseTypeCommand out args
  | .overlaySetSize
  | .overlaySetWarningThreshold
  | .overlaySetCriticalThreshold => parseSizeCommand out kind args
  | .volumeProtect | .volumeUnprotect => parseVolumeCommand out kind args
  | .fileAddExclusion | .fileRemoveExclusion =>
      parseExclusionCommand out kind .missingPathArg args
  | .registryAddExclusion | .registryRemoveExclusion =>
      parseExclusionCommand out kind .missingRegistryKeyArg args

theorem parseTokens_kind (out : UwfmgrCommand) {kind : UwfmgrKind} (args : List Text)
    (hkind : kind ≠ .unknown) :
    parseTokens out ("uwfmgr.exe".toList :: kind.category :: kind.verb :: args) =
      kind.parseArgs out args := by
  have hname : dropProgramName ("uwfmgr.exe".toList :: kind.category :: kind.verb :: args) =
      kind.category :: kind.verb :: args := by
    rw [dropProgramName, if_pos (Or.inr (by decide))]
  have hcategory : toLowerAscii kind.category = kind.category := by cases kind <;> decide
  have hverb : toLowerAscii kind.verb = kind.verb := by cases kind <;> decide
  simp only [parseTokens, hname, hcategory, hverb]
  cases kind with
  | unknown => exact absurd rfl hkind
  | _ => rfl

/-- The words of a command are parsed as the command. -/
theorem parseTokens_words {cmd : UwfmgrCommand} (hcmd : cmd.Supported) (lineNo : ℕ)
    (rawLine : Text) :
    parseTokens { sourceLineNo := lineNo, rawLine := rawLine } cmd.words =
      { kind := cmd.kind, args := cmd.args, sourceLineNo := lineNo, rawLine := rawLine } := by
  rw [UwfmgrCommand.words, parseTokens_kind _ _ hcmd.kind_ne_unknown]
  obtain ⟨kind, args⟩ := cmd
  cases kind with
  | unknown => exact hcmd.elim
  | filterEnable | filterDisable =>
      obtain rfl : args = [] := hcmd
      rfl
  | overlaySetType => obtain rfl | rfl : args = _ ∨ args = _ := hcmd <;> rfl
  | overlaySetSize | overlaySetWarningThreshold | overlaySetCriticalThreshold =>
      obtain ⟨value, hmax, rfl⟩ := hcmd
      simp [UwfmgrKind.parseArgs, parseSizeCommand, rejectUnexpectedArgument,
        parseUInt_toDigits hmax]
  | volumeProtect | volumeUnprotect =>
      obtain ⟨letter, hletter, rfl⟩ := hcmd
      obtain ⟨c, hlow, hhigh, rfl⟩ := id hletter
      simp [UwfmgrKind.parseArgs, parseVolumeCommand, rejectUnexpectedArgument, toLowerAscii,
        Drive.normalize_of_isDriveLetter hletter]
  | fileAddExclusion | fileRemoveExclusion | registryAddExclusion | registryRemoveExclusion =>
      obtain ⟨argument, hne, -, rfl⟩ := hcmd
      simp [UwfmgrKind.parseArgs, parseExclusionCommand, rejectUnexpectedArgument, hne]

/-! ## One command on a line -/

/-- Whether the argument of a command leaves the shell inside of quotes. -/
def UwfmgrCommand.opensQuote (cmd : UwfmgrCommand) : Bool :=
  quotesOdd (cmd.args.headD [])

/-- The words in front of the last one are plain. -/
theorem words_eq_concat {cmd : UwfmgrCommand} (hcmd : cmd.Supported) :
    ∃ front last, cmd.words = front ++ [last] ∧ (∀ word ∈ front, quotesOdd word = false) ∧
      quotesOdd last = cmd.opensQuote := by
  obtain ⟨kind, args⟩ := cmd
  have hcategory : quotesOdd kind.category = false := by cases kind <;> decide
  have hverb : quotesOdd kind.verb = false := by cases kind <;> decide
  have hname : quotesOdd "uwfmgr.exe".toList = false := by decide
  have hargs : args = [] ∨ ∃ argument, args = [argument] := by
    cases kind with
    | unknown => exact hcmd.elim
    | filterEnable | filterDisable => exact Or.inl hcmd
    | overlaySetType => exact Or.inr (hcmd.elim (fun h => ⟨_, h⟩) fun h => ⟨_, h⟩)
    | overlaySetSize | overlaySetWarningThreshold | overlaySetCriticalThreshold
    | volumeProtect | volumeUnprotect =>
        obtain ⟨argument, -, rfl⟩ := hcmd
        exact Or.inr ⟨_, rfl⟩
    | fileAddExclusion | fileRemoveExclusion | registryAddExclusion
    | registryRemoveExclusion =>
        obtain ⟨argument, -, -, rfl⟩ := hcmd
        exact Or.inr ⟨_, rfl⟩
  rcases hargs with rfl | ⟨argument, rfl⟩
  · exact ⟨["uwfmgr.exe".toList, kind.category], kind.verb, rfl,
      by simpa [hcategory] using hname, hverb⟩
  · exact ⟨["uwfmgr.exe".toList, kind.category, kind.verb], argument, rfl,
      by simpa [hcategory, hverb] using hname, rfl⟩

theorem renderCommand_cons {cmd : UwfmgrCommand} (hcmd : cmd.Supported) :
    ∃ rest, renderCommand cmd = 'u' :: rest := by
  rw [renderCommand_eq_joinArgs hcmd]
  exact ⟨_, rfl⟩

/-- A rendered line, with its percent signs doubled or not. -/
structure IsCommandLine (line : Text) : Prop where
  begins : ∃ rest, line = 'u' :: rest
  ends : ∃ front c, line = front ++ [c] ∧ isAsciiWhitespace c = false

theorem isCommandLine_renderCommand {cmd : UwfmgrCommand} (hcmd : cmd.Supported) :
    IsCommandLine (renderCommand cmd) := by
  refine ⟨renderCommand_cons hcmd, ?_⟩
  obtain ⟨front, last, hwords, -⟩ := words_eq_concat hcmd
  rw [renderCommand_eq_joinArgs hcmd, hwords]
  exact exists_joinArgs_eq front last

theorem isCommandLine_escapePercents {line : Text} (hline : IsCommandLine line) :
    IsCommandLine (escapePercents line) := by
  constructor
  · obtain ⟨rest, rfl⟩ := hline.begins
    exact ⟨escapePercents rest, rfl⟩
  · obtain ⟨front, c, rfl, hvisible⟩ := hline.ends
    rw [escapePercents_append, escapePercents_cons]
    by_cases hc : c = '%'
    · exact ⟨escapePercents front ++ ['%'], '%', by simp [hc, escapePercents], by decide⟩
    · exact ⟨escapePercents front, c, by simp [hc, escapePercents], hvisible⟩

namespace IsCommandLine

variable {line : Text} (hline : IsCommandLine line)

include hline

theorem ne_nil : line ≠ [] := by
  obtain ⟨rest, rfl⟩ := hline.begins
  simp

theorem visible_of_head? : ∀ c ∈ line.head?, isAsciiWhitespace c = false := by
  obtain ⟨rest, rfl⟩ := hline.begins
  simp [isAsciiWhitespace]

theorem visible_of_getLast? : ∀ c ∈ line.getLast?, isAsciiWhitespace c = false := by
  obtain ⟨front, c, rfl, hvisible⟩ := hline.ends
  simpa using hvisible

theorem trim_eq : trim line = line :=
  trim_eq_self hline.visible_of_head? hline.visible_of_getLast?

theorem followed : IsCommandLine (line ++ [' ', '&', '&']) := by
  obtain ⟨rest, rfl⟩ := hline.begins
  exact ⟨⟨rest ++ [' ', '&', '&'], rfl⟩, 'u' :: rest ++ [' ', '&'], '&', by simp, by decide⟩

theorem not_isCommentLine (tail : Text) : isCommentLine (line ++ tail) = false := by
  obtain ⟨rest, rfl⟩ := hline.begins
  rfl

end IsCommandLine

/-- The text of one command between the separators of a chain. -/
def Padding (lead : Text) : Prop := lead = [] ∨ lead = [' ']

theorem trim_padding {lead trail : Text} (text : Text) (hlead : Padding lead)
    (htrail : Padding trail) : trim (lead ++ text ++ trail) = trim text := by
  have hfront : trim (lead ++ text) = trim text := by
    rcases hlead with rfl | rfl
    · rfl
    · exact trim_cons_whitespace text (by decide)
  rcases htrail with rfl | rfl
  · rw [List.append_nil, hfront]
  · rw [trim_concat_whitespace _ (by decide), hfront]

theorem tokenize_renderCommand {cmd : UwfmgrCommand} (hcmd : cmd.Supported) :
    tokenize (renderCommand cmd) = ⟨cmd.words, true⟩ := by
  obtain ⟨front, last, hwords, heven, -⟩ := words_eq_concat hcmd
  rw [renderCommand_eq_joinArgs hcmd, hwords, tokenize_joinArgs last heven]

theorem parseLine_renderCommand {cmd : UwfmgrCommand} (hcmd : cmd.Supported) (lineNo : ℕ)
    {rawLine : Text} (hraw : trim rawLine = renderCommand cmd) :
    parseLine rawLine lineNo =
      { kind := cmd.kind, args := cmd.args, sourceLineNo := lineNo, rawLine := rawLine } := by
  have hcomment : isCommentLine (renderCommand cmd) = false := by
    simpa using (isCommandLine_renderCommand hcmd).not_isCommentLine []
  simp only [parseLine, hraw, hcomment, tokenize_renderCommand hcmd]
  exact parseTokens_words hcmd lineNo rawLine

/-! ## Chains on a line of a script -/

/-- A chain on a line of a script, with its percent signs doubled. -/
def chainText (head : UwfmgrCommand) (tail : List UwfmgrCommand) : Text :=
  escapePercents (renderCommand head) ++
    tail.flatMap fun cmd => " && ".toList ++ escapePercents (renderCommand cmd)

theorem chainText_cons (head next : UwfmgrCommand) (tail : List UwfmgrCommand) :
    chainText head (next :: tail) =
      escapePercents (renderCommand head) ++ ' ' :: '&' :: '&' :: ' ' ::
        chainText next tail := by
  simp [chainText]

/-- The parts of a chain whose separators are all recognized. -/
def chainParts (lead : Text) (head : UwfmgrCommand) : List UwfmgrCommand → List Text
  | [] => [lead ++ escapePercents (renderCommand head)]
  | next :: rest =>
      (lead ++ escapePercents (renderCommand head) ++ [' ']) :: chainParts [' '] next rest

theorem escapedWords_eq_concat {cmd : UwfmgrCommand} (hcmd : cmd.Supported) :
    ∃ front last, escapePercents (renderCommand cmd) = joinArgs (front ++ [last]) ∧
      (∀ word ∈ front, quotesOdd word = false) ∧ quotesOdd last = cmd.opensQuote := by
  obtain ⟨front, last, hwords, heven, hlast⟩ := words_eq_concat hcmd
  refine ⟨front.map escapePercents, escapePercents last, ?_, ?_, ?_⟩
  · rw [renderCommand_eq_joinArgs hcmd, escapePercents_joinArgs, hwords]
    simp
  · intro word hword
    obtain ⟨plain, hplain, rfl⟩ := List.mem_map.1 hword
    rw [quotesOdd_escapePercents, heven plain hplain]
  · rw [quotesOdd_escapePercents, hlast]

theorem splitParts_renderCommand {cmd : UwfmgrCommand} (hcmd : cmd.Supported)
    (cur rest : Text) :
    splitParts false cur (escapePercents (renderCommand cmd) ++ rest) =
      splitParts cmd.opensQuote (cur ++ escapePercents (renderCommand cmd)) rest := by
  obtain ⟨front, last, hline, heven, hlast⟩ := escapedWords_eq_concat hcmd
  rw [hline, splitParts_joinArgs last cur rest heven, hlast]

theorem splitParts_separator (cur rest : Text) :
    splitParts false cur (' ' :: '&' :: '&' :: ' ' :: rest) =
      (cur ++ [' ']) :: splitParts false [' '] rest := by
  rw [splitParts_cons_ordinary _ _ _ (by decide) (Or.inr (by decide)), splitParts_and,
    splitParts_cons_ordinary _ _ _ (by decide) (Or.inr (by decide)), List.nil_append]

/-- The relation between neighbours of a list that reads back as it was. -/
def ClosedBefore (cmd next : UwfmgrCommand) : Prop :=
  next.requiresPrevious = true → cmd.opensQuote = false

theorem splitParts_chainText {head : UwfmgrCommand} {tail : List UwfmgrCommand}
    (hsupported : ∀ cmd ∈ head :: tail, cmd.Supported)
    (htail : ∀ cmd ∈ tail, cmd.requiresPrevious = true)
    (hclosed : (head :: tail).IsChain ClosedBefore) (lead : Text) :
    splitParts false lead (chainText head tail) = chainParts lead head tail := by
  induction tail generalizing head lead with
  | nil =>
      have hline := splitParts_renderCommand (hsupported head (by simp)) lead []
      rw [List.append_nil] at hline
      simp [chainText, chainParts, hline, splitParts]
  | cons next tail ih =>
      rw [List.isChain_cons_cons] at hclosed
      rw [chainText_cons, splitParts_renderCommand (hsupported head (by simp)),
        hclosed.1 (htail next (by simp)), splitParts_separator,
        ih (fun cmd hcmd => hsupported cmd (List.mem_cons_of_mem _ hcmd))
          (fun cmd hcmd => htail cmd (List.mem_cons_of_mem _ hcmd)) hclosed.2, chainParts]

theorem tokenize_separator (rest : Text) :
    splitArgs 0 false false [] (removeCarets false ('&' :: '&' :: ' ' :: rest)) =
      (tokenize rest).push ['&', '&'] := by
  have hplain : removeCarets false (['&', '&'] ++ ' ' :: rest) =
      ['&', '&'] ++ removeCarets false (' ' :: rest) :=
    removeCarets_append_plain _ _ (by decide) (by decide)
  rw [List.cons_append, List.singleton_append] at hplain
  rw [hplain, removeCarets_cons_space,
    splitArgs_isPlain (by decide) (endsToken_space _), tokenize]

theorem quotesBalanced_chainText {head : UwfmgrCommand} {tail : List UwfmgrCommand}
    (hsupported : ∀ cmd ∈ head :: tail, cmd.Supported)
    (htail : ∀ cmd ∈ tail, cmd.requiresPrevious = true)
    (hclosed : (head :: tail).IsChain ClosedBefore) :
    (tokenize (chainText head tail)).quotesBalanced = true := by
  induction tail generalizing head with
  | nil =>
      obtain ⟨front, last, hline, heven, -⟩ :=
        escapedWords_eq_concat (hsupported head (by simp))
      simp [chainText, hline, tokenize_joinArgs last heven]
  | cons next tail ih =>
      rw [List.isChain_cons_cons] at hclosed
      obtain ⟨front, last, hline, heven, hlast⟩ :=
        escapedWords_eq_concat (hsupported head (by simp))
      have hrest := ih (fun cmd hcmd => hsupported cmd (List.mem_cons_of_mem _ hcmd))
        (fun cmd hcmd => htail cmd (List.mem_cons_of_mem _ hcmd)) hclosed.2
      rw [chainText_cons, hline, tokenize_joinArgs_space last _ heven, hlast,
        hclosed.1 (htail next (by simp)), tokenize_separator]
      exact hrest

/-- What a command of the text says, apart from where it stands. -/
def UwfmgrCommand.content (cmd : UwfmgrCommand) : UwfmgrKind × List Text × Bool × ParseError :=
  (cmd.kind, cmd.args, cmd.requiresPrevious, cmd.parseError)

/-- What a faithful reading of a command says. -/
def UwfmgrCommand.intended (cmd : UwfmgrCommand) : UwfmgrKind × List Text × Bool × ParseError :=
  (cmd.kind, cmd.args, cmd.requiresPrevious, .none)

theorem parsePart_decoded (batch single first : Bool) (lineNo : ℕ) {part text : Text}
    (hdecoded : (if batch then decodeBatchPercents part else some part) = some text)
    (hvisible : (parseLine text lineNo).parseError ≠ .comment) :
    parsePart batch single first lineNo part =
      { parseLine text lineNo with rawLine := part, requiresPrevious := !first } := by
  simp [parsePart, hdecoded, hvisible]

theorem parsePart_undecoded (single first : Bool) (lineNo : ℕ) {part : Text}
    (hdecoded : decodeBatchPercents part = none) :
    (parsePart true single first lineNo part).parseError = .unsupported := by
  simp [parsePart, hdecoded]

theorem parsePart_renderCommand {cmd : UwfmgrCommand} (hcmd : cmd.Supported)
    {lead trail : Text} (hlead : Padding lead) (htrail : Padding trail)
    (single first : Bool) (lineNo : ℕ) :
    (parsePart true single first lineNo
      (lead ++ escapePercents (renderCommand cmd) ++ trail)).content =
      (cmd.kind, cmd.args, !first, .none) := by
  have hplain : ∀ text, Padding text → decodeBatchPercents text = some text := by
    rintro text (rfl | rfl) <;> rfl
  have hfixed : escapePercents lead = lead := by
    rcases hlead with rfl | rfl <;> rfl
  have hdecoded : decodeBatchPercents (lead ++ escapePercents (renderCommand cmd) ++ trail) =
      some (lead ++ renderCommand cmd ++ trail) := by
    rw [← hfixed, ← escapePercents_append, decodeBatchPercents_escapePercents,
      hplain trail htrail, hfixed]
    rfl
  have hline : trim (lead ++ renderCommand cmd ++ trail) = renderCommand cmd := by
    rw [trim_padding _ hlead htrail, (isCommandLine_renderCommand hcmd).trim_eq]
  have hparsed := parseLine_renderCommand hcmd lineNo hline
  rw [parsePart_decoded true single first lineNo hdecoded (by rw [hparsed]; simp), hparsed]
  rfl

theorem mem_chainParts {part : Text} {head : UwfmgrCommand} {tail : List UwfmgrCommand}
    {lead : Text} (hlead : Padding lead) (hpart : part ∈ chainParts lead head tail) :
    ∃ cmd ∈ head :: tail, ∃ front trail, Padding front ∧ Padding trail ∧
      part = front ++ escapePercents (renderCommand cmd) ++ trail := by
  induction tail generalizing head lead with
  | nil =>
      refine ⟨head, by simp, lead, [], hlead, Or.inl rfl, ?_⟩
      simpa [chainParts] using hpart
  | cons next tail ih =>
      rcases List.mem_cons.1 hpart with rfl | hpart
      · exact ⟨head, by simp, lead, [' '], hlead, Or.inr rfl, rfl⟩
      · obtain ⟨cmd, hcmd, hparts⟩ := ih (Or.inr rfl) hpart
        exact ⟨cmd, List.mem_cons_of_mem _ hcmd, hparts⟩

theorem content_chainParts {head : UwfmgrCommand} {tail : List UwfmgrCommand}
    (hsupported : ∀ cmd ∈ head :: tail, cmd.Supported) {lead : Text} (hlead : Padding lead)
    (single first : Bool) (lineNo : ℕ) :
    (chainParts lead head tail).map
        (fun part => (parsePart true single first lineNo part).content) =
      (head :: tail).map fun cmd => (cmd.kind, cmd.args, !first, .none) := by
  induction tail generalizing head lead with
  | nil =>
      have hpart := parsePart_renderCommand (hsupported head (by simp)) hlead (Or.inl rfl)
        single first lineNo
      simpa [chainParts] using hpart
  | cons next tail ih =>
      rw [chainParts, List.map_cons,
        parsePart_renderCommand (hsupported head (by simp)) hlead (Or.inr rfl),
        ih (fun cmd hcmd => hsupported cmd (List.mem_cons_of_mem _ hcmd)) (Or.inr rfl)]
      rfl

theorem exists_chainText_eq {head : UwfmgrCommand} (tail : List UwfmgrCommand)
    (hhead : head.Supported) : ∃ rest, chainText head tail = 'u' :: rest := by
  obtain ⟨rest, hrest⟩ := (isCommandLine_escapePercents (isCommandLine_renderCommand hhead)).begins
  exact ⟨_, by rw [chainText, hrest, List.cons_append]⟩

theorem trim_chainText {head : UwfmgrCommand} (tail : List UwfmgrCommand)
    (hhead : head.Supported) :
    ∃ kept, trim (chainText head tail) = escapePercents (renderCommand head) ++ kept := by
  have hline := isCommandLine_escapePercents (isCommandLine_renderCommand hhead)
  exact trim_append_of_visible _ hline.visible_of_head? hline.visible_of_getLast? hline.ne_nil

/-- A chain whose members all leave the shell outside of quotes is read back
member by member. -/
theorem content_appendLine_closed (chain : CommandChain)
    (hsupported : ∀ cmd ∈ chain.commands, cmd.Supported)
    (hclosed : chain.commands.IsChain ClosedBefore) (lineNo : ℕ) :
    (appendLine (chainText chain.head chain.tail) lineNo true).map UwfmgrCommand.content =
      chain.commands.map UwfmgrCommand.intended := by
  obtain ⟨head, tail, hfree, hdependent⟩ := chain
  simp only [CommandChain.commands] at hsupported hclosed ⊢
  have hhead := hsupported head List.mem_cons_self
  have hparts := splitParts_chainText hsupported hdependent hclosed []
  have hcomment : isCommentLine (trim (chainText head tail)) = false := by
    obtain ⟨kept, hkept⟩ := trim_chainText tail hhead
    rw [hkept]
    exact (isCommandLine_escapePercents (isCommandLine_renderCommand hhead)).not_isCommentLine kept
  have hvisible : ((chainParts [] head tail).any fun part => (trim part).isEmpty) = false := by
    rw [List.any_eq_false]
    intro part hpart
    obtain ⟨cmd, hcmd, front, trail, hfront, htrail, rfl⟩ := mem_chainParts (Or.inl rfl) hpart
    have hline := isCommandLine_escapePercents (isCommandLine_renderCommand (hsupported cmd hcmd))
    rw [trim_padding _ hfront htrail, hline.trim_eq]
    simpa using hline.ne_nil
  have hfollowing : tail.map (fun cmd => (cmd.kind, cmd.args, !false, ParseError.none)) =
      tail.map UwfmgrCommand.intended :=
    List.map_congr_left fun cmd hcmd => by
      rw [UwfmgrCommand.intended, hdependent cmd hcmd, Bool.not_false]
  simp only [appendLine, hcomment, quotesBalanced_chainText hsupported hdependent hclosed,
    hparts, hvisible]
  cases tail with
  | nil =>
      have hpart := parsePart_renderCommand hhead (Or.inl rfl) (Or.inl rfl) true true lineNo
      simpa [chainParts, UwfmgrCommand.intended, hfree] using hpart
  | cons next tail =>
      have hpart := parsePart_renderCommand hhead (Or.inl rfl) (Or.inr rfl) false true lineNo
      have hnonempty : (chainParts [' '] next tail).isEmpty = false := by
        cases tail <;> rfl
      have hrest : (chainParts [' '] next tail).map
          (fun part => (parsePart true false false lineNo part).content) =
          (next :: tail).map UwfmgrCommand.intended := by
        rw [← hfollowing]
        exact content_chainParts (fun cmd hcmd => hsupported cmd (List.mem_cons_of_mem _ hcmd))
          (Or.inr rfl) false false lineNo
      have hintended : head.intended = (head.kind, head.args, !true, ParseError.none) := by
        rw [UwfmgrCommand.intended, hfree, Bool.not_true]
      simp only [Bool.not_true, Bool.false_eq_true, if_false, chainParts, hnonempty,
        List.map_cons, List.map_map]
      rw [hintended]
      exact congrArg₂ List.cons hpart hrest

/-! ## Chains with an open quote -/

theorem splitArgs_tokens_ne_nil {tokenStarted : Bool} (backslashes : ℕ) (inQuote : Bool)
    (cur rest : Text) (hstarted : tokenStarted = true) :
    (splitArgs backslashes inQuote tokenStarted cur rest).tokens ≠ [] := by
  fun_induction splitArgs backslashes inQuote tokenStarted cur rest <;>
    simp_all [TokenizedLine.push]

/-- No command takes more arguments than it was rendered with. -/
theorem parseTokens_words_append {cmd : UwfmgrCommand} (hcmd : cmd.Supported)
    (out : UwfmgrCommand) {extra : List Text} (hextra : extra ≠ []) :
    (parseTokens out (cmd.words ++ extra)).parseError = .unexpectedArgument := by
  rw [UwfmgrCommand.words, List.cons_append, List.cons_append, List.cons_append,
    parseTokens_kind _ _ hcmd.kind_ne_unknown]
  obtain ⟨kind, args⟩ := cmd
  obtain ⟨first, extra, rfl⟩ := List.exists_cons_of_ne_nil hextra
  cases kind with
  | unknown => exact hcmd.elim
  | filterEnable | filterDisable =>
      obtain rfl : args = [] := hcmd
      rfl
  | overlaySetType => obtain rfl | rfl : args = _ ∨ args = _ := hcmd <;> rfl
  | overlaySetSize | overlaySetWarningThreshold | overlaySetCriticalThreshold =>
      obtain ⟨value, hmax, rfl⟩ := hcmd
      simp [UwfmgrKind.parseArgs, parseSizeCommand, rejectUnexpectedArgument,
        UwfmgrCommand.fail, parseUInt_toDigits hmax]
  | volumeProtect | volumeUnprotect =>
      obtain ⟨letter, hletter, rfl⟩ := hcmd
      rfl
  | fileAddExclusion | fileRemoveExclusion | registryAddExclusion | registryRemoveExclusion =>
      obtain ⟨argument, hne, -, rfl⟩ := hcmd
      rfl

/-- A command that is followed by `&&` as a further argument is rejected. -/
theorem parseLine_followed {cmd : UwfmgrCommand} (hcmd : cmd.Supported) {rawLine kept : Text}
    (lineNo : ℕ) (hraw : trim rawLine = renderCommand cmd ++ ' ' :: '&' :: '&' :: kept) :
    (parseLine rawLine lineNo).parseError = .malformedQuoting ∨
      (parseLine rawLine lineNo).parseError = .unexpectedArgument := by
  obtain ⟨front, last, hwords, heven, -⟩ := words_eq_concat hcmd
  have hcomment := (isCommandLine_renderCommand hcmd).not_isCommentLine (' ' :: '&' :: '&' :: kept)
  have hline := tokenize_joinArgs_space last ('&' :: '&' :: kept) heven
  have hfollowing : (splitArgs 0 false false []
      (removeCarets (quotesOdd last) ('&' :: '&' :: kept))).tokens ≠ [] := by
    rw [removeCarets_cons_ordinary _ _ (by decide) (Or.inr (by decide)),
      splitArgs_cons_ordinary _ _ _ _ _ (by decide) (by decide) (Or.inr (by decide))]
    exact splitArgs_tokens_ne_nil _ _ _ _ rfl
  rw [← hwords, ← renderCommand_eq_joinArgs hcmd] at hline
  simp only [parseLine, hraw, hcomment, hline]
  cases (splitArgs 0 false false []
      (removeCarets (quotesOdd last) ('&' :: '&' :: kept))).quotesBalanced with
  | false => exact Or.inl rfl
  | true =>
      have htokens := parseTokens_words_append hcmd
        { sourceLineNo := lineNo, rawLine := rawLine } hfollowing
      rw [hwords, List.append_assoc, List.singleton_append] at htokens
      refine Or.inr ?_
      simpa using htokens

theorem parsePart_followed {cmd : UwfmgrCommand} (hcmd : cmd.Supported) {lead : Text}
    (hlead : Padding lead) (single first : Bool) (lineNo : ℕ) (following : Text) :
    (parsePart true single first lineNo
      (lead ++ escapePercents (renderCommand cmd) ++
        ' ' :: '&' :: '&' :: following)).parseError ≠ .none := by
  have hfixed : escapePercents (lead ++ renderCommand cmd ++ [' ', '&', '&']) =
      lead ++ escapePercents (renderCommand cmd) ++ [' ', '&', '&'] := by
    rcases hlead with rfl | rfl <;> simp [escapePercents]
  have hdecoded : decodeBatchPercents (lead ++ escapePercents (renderCommand cmd) ++
      ' ' :: '&' :: '&' :: following) = (decodeBatchPercents following).map
        (lead ++ renderCommand cmd ++ [' ', '&', '&'] ++ ·) := by
    rw [← decodeBatchPercents_escapePercents, hfixed]
    simp
  cases hfollowing : decodeBatchPercents following with
  | none =>
      rw [hfollowing, Option.map_none] at hdecoded
      rw [parsePart_undecoded single first lineNo hdecoded]
      decide
  | some text =>
      rw [hfollowing, Option.map_some] at hdecoded
      have hline := (isCommandLine_renderCommand hcmd).followed
      obtain ⟨kept, hkept⟩ := trim_append_of_visible text hline.visible_of_head?
        hline.visible_of_getLast? hline.ne_nil
      have htrim : trim (lead ++ renderCommand cmd ++ [' ', '&', '&'] ++ text) =
          renderCommand cmd ++ ' ' :: '&' :: '&' :: kept := by
        have hpadding := trim_padding (renderCommand cmd ++ [' ', '&', '&'] ++ text) hlead
          (Or.inl rfl)
        rw [hkept] at hpadding
        simpa using hpadding
      rcases parseLine_followed hcmd lineNo htrim with herror | herror
      all_goals
        rw [parsePart_decoded true single first lineNo hdecoded (by rw [herror]; decide)]
        change (parseLine _ lineNo).parseError ≠ .none
        rw [herror]
        decide

/-- An open quote in front of a dependent command leaves a part that is not
read back as a command. -/
theorem exists_followed_part {head : UwfmgrCommand} {tail : List UwfmgrCommand}
    (hsupported : ∀ cmd ∈ head :: tail, cmd.Supported)
    (hopen : ¬(head :: tail).IsChain ClosedBefore) {lead : Text} (hlead : Padding lead) :
    ∃ cmd front following, cmd.Supported ∧ Padding front ∧
      front ++ escapePercents (renderCommand cmd) ++ ' ' :: '&' :: '&' :: following ∈
        splitParts false lead (chainText head tail) := by
  induction tail generalizing head lead with
  | nil => exact absurd (List.IsChain.singleton head) hopen
  | cons next tail ih =>
      have hhead := hsupported head (by simp)
      rw [chainText_cons, splitParts_renderCommand hhead]
      cases hquote : head.opensQuote with
      | false =>
          have hrest : ¬(next :: tail).IsChain ClosedBefore := fun hrest =>
            hopen (List.isChain_cons_cons.2 ⟨fun _ => hquote, hrest⟩)
          obtain ⟨cmd, front, following, hcmd, hfront, hmem⟩ :=
            ih (fun cmd hcmd => hsupported cmd (List.mem_cons_of_mem _ hcmd)) hrest (Or.inr rfl)
          rw [splitParts_separator]
          exact ⟨cmd, front, following, hcmd, hfront, List.mem_cons_of_mem _ hmem⟩
      | true =>
          have hseparator : ∀ cur rest,
              splitParts true cur ([' ', '&', '&', ' '] ++ rest) =
                splitParts true (cur ++ [' ', '&', '&', ' ']) rest := fun cur rest =>
            splitParts_append cur rest (by decide) (Or.inl rfl)
          obtain ⟨following, parts, hparts⟩ := exists_splitParts_eq true
            (lead ++ escapePercents (renderCommand head) ++ [' ', '&', '&', ' '])
            (chainText next tail)
          refine ⟨head, lead, ' ' :: following, hhead, hlead, ?_⟩
          rw [← hseparator] at hparts
          rw [show ' ' :: '&' :: '&' :: ' ' :: chainText next tail =
            [' ', '&', '&', ' '] ++ chainText next tail from rfl, hparts]
          simp

theorem appendLine_open (chain : CommandChain)
    (hsupported : ∀ cmd ∈ chain.commands, cmd.Supported)
    (hopen : ¬chain.commands.IsChain ClosedBefore) (lineNo : ℕ) :
    ∃ cmd ∈ appendLine (chainText chain.head chain.tail) lineNo true,
      cmd.parseError ≠ .none := by
  obtain ⟨cmd, front, following, hcmd, hfront, hmem⟩ :=
    exists_followed_part hsupported hopen (Or.inl rfl)
  simp only [appendLine]
  split_ifs with hcomment hquotes hblank
  · exact ⟨_, List.mem_singleton_self _, by simp [parseLine, hcomment, UwfmgrCommand.fail]⟩
  · exact ⟨_, List.mem_singleton_self _, by simp⟩
  · exact ⟨_, List.mem_singleton_self _, by simp [UwfmgrCommand.fail]⟩
  · cases hparts : splitParts false [] (chainText chain.head chain.tail) with
    | nil => simp [hparts] at hmem
    | cons part rest =>
        rw [hparts, List.mem_cons] at hmem
        rcases hmem with rfl | hmem
        · exact ⟨_, List.mem_cons_self, parsePart_followed hcmd hfront _ _ _ _⟩
        · exact ⟨_, List.mem_cons_of_mem _ (List.mem_map_of_mem hmem),
            parsePart_followed hcmd hfront _ _ _ _⟩

/-! ## Lines of a text -/

theorem getLines_append (cur rest : Text) {line : Text} (hline : '\n' ∉ line) :
    getLines cur (line ++ '\n' :: rest) = (cur ++ line) :: getLines [] rest := by
  induction line generalizing cur with
  | nil => simp [getLines]
  | cons c line ih =>
      simp only [List.mem_cons, not_or] at hline
      rw [List.cons_append, getLines, if_neg (Ne.symm hline.1), ih _ hline.2]
      simp

theorem getLines_last {line : Text} (cur : Text) (hline : '\n' ∉ line) :
    getLines cur line = if (cur ++ line).isEmpty then [] else [cur ++ line] := by
  induction line generalizing cur with
  | nil => simp [getLines]
  | cons c line ih =>
      simp only [List.mem_cons, not_or] at hline
      rw [getLines, if_neg (Ne.symm hline.1), ih _ hline.2]
      simp

theorem dropCarriageReturn_concat (line : Text) :
    dropCarriageReturn (line ++ ['\r']) = line := by
  simp [dropCarriageReturn]

theorem lines_flatMap_scriptLine {lines : List Text} (hlines : ∀ line ∈ lines, '\n' ∉ line) :
    (getLines [] (lines.flatMap scriptLine)).map dropCarriageReturn = lines := by
  induction lines with
  | nil => rfl
  | cons line lines ih =>
      have hline : '\n' ∉ line ++ ['\r'] := by
        simpa using hlines line List.mem_cons_self
      have hsplit : scriptLine line ++ lines.flatMap scriptLine =
          (line ++ ['\r']) ++ '\n' :: lines.flatMap scriptLine := by
        simp [scriptLine]
      rw [List.flatMap_cons, hsplit, getLines_append _ _ hline, List.map_cons, List.nil_append,
        dropCarriageReturn_concat, ih fun line hmem => hlines line (List.mem_cons_of_mem _ hmem)]

theorem parseLines_skip (lineNo : ℕ) {skip : ℕ} {lines : List Text}
    (hskip : lines.length ≤ skip) : parseLines lineNo skip lines = [] := by
  induction lines generalizing lineNo skip with
  | nil => cases skip <;> rfl
  | cons line lines ih =>
      cases skip with
      | zero => exact absurd hskip (by simp)
      | succ skip => exact ih _ (Nat.le_of_succ_le_succ hskip)

theorem bodyBeforeEpilogue_append {body : List Text}
    (hbody : ∀ line ∈ body, line.head? = some 'u') :
    bodyBeforeEpilogue (body ++ kScriptEpilogue) = some body := by
  induction body with
  | nil => rfl
  | cons line body ih =>
      have hline : line.head? = some 'u' := hbody line List.mem_cons_self
      have hnot : kScriptEpilogue.isPrefixOf (line :: (body ++ kScriptEpilogue)) = false := by
        rw [kScriptEpilogue, List.isPrefixOf, beq_false_of_ne, Bool.false_and]
        rintro rfl
        exact absurd hline (by decide)
      rw [List.cons_append, bodyBeforeEpilogue, hnot,
        ih fun line hmem => hbody line (List.mem_cons_of_mem _ hmem)]
      rfl

/-- A text that is a complete script is parsed line by line under the rules of
a batch file. -/
theorem parseUwfmgrText_script {body : List Text} (hbody : ∀ line ∈ body, '\n' ∉ line)
    (hbegins : ∀ line ∈ body, line.head? = some 'u') :
    parseUwfmgrText (kScriptPreamble.flatMap scriptLine ++ body.flatMap scriptLine ++
      kScriptEpilogue.flatMap scriptLine) = appendLines 6 true body := by
  have hpreamble : ∀ line ∈ kScriptPreamble, '\n' ∉ line := by decide
  have hepilogue : ∀ line ∈ kScriptEpilogue, '\n' ∉ line := by decide
  have hlines : ∀ line ∈ kScriptPreamble ++ body ++ kScriptEpilogue, '\n' ∉ line := by
    intro line hline
    rcases List.mem_append.1 hline with hline | hline
    · exact (List.mem_append.1 hline).elim (hpreamble line) (hbody line)
    · exact hepilogue line hline
  have hscript : scriptBody (kScriptPreamble ++ body ++ kScriptEpilogue) = some body := by
    rw [scriptBody, if_pos (List.isPrefixOf_iff_prefix.2 (by simp)), List.append_assoc,
      List.drop_left, bodyBeforeEpilogue_append hbegins]
  rw [parseUwfmgrText, ← List.flatMap_append, ← List.flatMap_append,
    lines_flatMap_scriptLine hlines]
  obtain ⟨first, rest, hcons⟩ : ∃ first rest,
      kScriptPreamble ++ body ++ kScriptEpilogue = first :: rest := ⟨_, _, rfl⟩
  have hlength : rest.length ≤ kScriptPreamble.length + body.length +
      kScriptEpilogue.length - 1 := by
    have := congrArg List.length hcons
    simp only [List.length_append, List.length_cons] at this
    omega
  rw [hcons] at hscript ⊢
  rw [parseLines, hscript]
  simp only [parseLines_skip _ hlength, List.append_nil]
  rfl

/-! ## Line feeds -/

theorem not_mem_quoteBody {value : Text} (backslashes : ℕ) (shellQuoted : Bool)
    (hvalue : '\n' ∉ value) : '\n' ∉ quoteBody backslashes shellQuoted value := by
  induction value generalizing backslashes shellQuoted with
  | nil => simp [quoteBody]
  | cons c value ih =>
      simp only [List.mem_cons, not_or] at hvalue
      have hrest := fun count quoted => ih count quoted hvalue.2
      rw [quoteBody]
      split_ifs <;> simp [hrest, hvalue.1]

theorem not_mem_quoteArg {value : Text} (hvalue : '\n' ∉ value) : '\n' ∉ quoteArg value := by
  rw [quoteArg]
  split_ifs
  · simp [not_mem_quoteBody _ _ hvalue]
  · exact hvalue

theorem not_mem_joinArgs {words : List Text} (hwords : ∀ word ∈ words, '\n' ∉ word) :
    '\n' ∉ joinArgs words := by
  induction words with
  | nil => simp [joinArgs]
  | cons word words ih =>
      have hword := not_mem_quoteArg (hwords word List.mem_cons_self)
      cases words with
      | nil => exact hword
      | cons next rest =>
          have hrest := ih fun word hmem => hwords word (List.mem_cons_of_mem _ hmem)
          rw [joinArgs_cons word (List.cons_ne_nil _ _)]
          simp [hword, hrest]

theorem not_mem_escapePercents {text : Text} (htext : '\n' ∉ text) :
    '\n' ∉ escapePercents text := by
  rw [escapePercents, List.mem_flatMap]
  rintro ⟨c, hc, hmem⟩
  by_cases hpercent : c = '%'
  · simp [hpercent] at hmem
  · rw [if_neg hpercent, List.mem_singleton] at hmem
    exact htext (hmem ▸ hc)

theorem not_mem_renderCommand {cmd : UwfmgrCommand} (hcmd : cmd.Supported) :
    '\n' ∉ renderCommand cmd := by
  rw [renderCommand_eq_joinArgs hcmd]
  refine not_mem_joinArgs fun word hword => ?_
  obtain ⟨kind, args⟩ := cmd
  have hcategory : '\n' ∉ kind.category := by cases kind <;> decide
  have hverb : '\n' ∉ kind.verb := by cases kind <;> decide
  simp only [UwfmgrCommand.words, List.mem_cons] at hword
  rcases hword with rfl | rfl | rfl | hword
  · decide
  · exact hcategory
  · exact hverb
  · cases kind with
    | unknown => exact hcmd.elim
    | filterEnable | filterDisable =>
        obtain rfl : args = [] := hcmd
        simp at hword
    | overlaySetType =>
        obtain rfl | rfl : args = _ ∨ args = _ := hcmd <;>
          rw [List.mem_singleton.1 hword] <;> decide
    | overlaySetSize | overlaySetWarningThreshold | overlaySetCriticalThreshold =>
        obtain ⟨value, -, rfl⟩ := hcmd
        rw [List.mem_singleton.1 hword]
        exact fun hmem => absurd
          (Nat.isDigit_of_mem_toDigits (by decide) (by decide) hmem) (by decide)
    | volumeProtect | volumeUnprotect =>
        obtain ⟨letter, ⟨c, hlow, -, rfl⟩, rfl⟩ := hcmd
        rw [List.mem_singleton.1 hword]
        have hc : '\n' ≠ c := by
          rintro rfl
          exact absurd hlow (by decide)
        simp [hc]
    | fileAddExclusion | fileRemoveExclusion | registryAddExclusion
    | registryRemoveExclusion =>
        obtain ⟨argument, -, hargument, rfl⟩ := hcmd
        rwa [List.mem_singleton.1 hword]

/-! ## The round trips -/

/-- A rendered command is read back as it was, whatever its argument holds. -/
theorem parseUwfmgrText_renderCommand (cmd : UwfmgrCommand) (hcmd : cmd.Supported) :
    parseUwfmgrText (renderCommand cmd) =
      [{ kind := cmd.kind, args := cmd.args, sourceLineNo := 1,
         rawLine := renderCommand cmd }] := by
  have hline := isCommandLine_renderCommand hcmd
  have hread : (getLines [] (renderCommand cmd)).map dropCarriageReturn =
      [renderCommand cmd] := by
    have hend : (renderCommand cmd).getLast? ≠ some '\r' := fun hend =>
      absurd (hline.visible_of_getLast? '\r' hend) (by decide)
    rw [getLines_last _ (not_mem_renderCommand hcmd), List.nil_append,
      List.isEmpty_eq_false_iff.2 hline.ne_nil]
    simp [dropCarriageReturn, hend]
  have hparts : splitParts false [] (renderCommand cmd) = [renderCommand cmd] := by
    obtain ⟨front, last, hwords, heven, -⟩ := words_eq_concat hcmd
    have hsplit := splitParts_joinArgs last [] [] heven
    rw [← hwords, ← renderCommand_eq_joinArgs hcmd, List.append_nil] at hsplit
    simpa [splitParts] using hsplit
  have hcomment : isCommentLine (renderCommand cmd) = false := by
    simpa using hline.not_isCommentLine []
  have hscript : scriptBody [renderCommand cmd] = none := by
    rw [scriptBody, if_neg]
    intro hprefix
    have hlength := (List.isPrefixOf_iff_prefix.1 hprefix).length_le
    simp [kScriptPreamble] at hlength
  have hparsed := parseLine_renderCommand hcmd 1 hline.trim_eq
  have hpart : parsePart false true true 1 (renderCommand cmd) =
      { parseLine (renderCommand cmd) 1 with
        rawLine := renderCommand cmd, requiresPrevious := !true } :=
    parsePart_decoded false true true 1 rfl (by rw [hparsed]; simp)
  have happend : appendLine (renderCommand cmd) 1 false =
      [{ kind := cmd.kind, args := cmd.args, sourceLineNo := 1,
         rawLine := renderCommand cmd }] := by
    simp only [appendLine, hline.trim_eq, hcomment, tokenize_renderCommand hcmd, hparts]
    rw [List.any_cons, hline.trim_eq, List.isEmpty_eq_false_iff.2 hline.ne_nil]
    simp [hpart, hparsed]
  rw [parseUwfmgrText, hread]
  simp only [parseLines, hscript, happend, List.append_nil]

theorem parseUwfmgrText_renderCommand_quotes :
    parseUwfmgrText (renderCommand
        { kind := .fileAddExclusion, args := ["C:\\a b\\\"&&^%\\".toList] }) =
      [{ kind := .fileAddExclusion, args := ["C:\\a b\\\"&&^%\\".toList], sourceLineNo := 1,
         rawLine := "uwfmgr.exe file add-exclusion \"C:\\a b\\\\\\\"^&^&^^%\\\\\"".toList }] :=
  parseUwfmgrText_renderCommand
    { kind := .fileAddExclusion, args := ["C:\\a b\\\"&&^%\\".toList] }
    ⟨_, by decide, by decide, rfl⟩

/-- The line of a chain. -/
def CommandChain.line (chain : CommandChain) : Text :=
  renderCommand chain.head ++
    chain.tail.flatMap fun cmd => " && ".toList ++ renderCommand cmd

theorem escapePercents_line (chain : CommandChain) :
    escapePercents chain.line = chainText chain.head chain.tail := by
  rw [CommandChain.line, chainText, escapePercents_append]
  congr 1
  induction chain.tail with
  | nil => rfl
  | cons cmd tail ih =>
      rw [List.flatMap_cons, List.flatMap_cons, escapePercents_append, ih,
        escapePercents_append]
      rfl

theorem foldlM_appendRendered_tail (lines : List Text) (line : Text)
    {tail : List UwfmgrCommand} (htail : ∀ cmd ∈ tail, cmd.requiresPrevious = true) :
    tail.foldlM appendRendered (lines ++ [line]) =
      .ok (lines ++ [line ++ tail.flatMap fun cmd => " && ".toList ++ renderCommand cmd]) := by
  induction tail generalizing line with
  | nil => simp; rfl
  | cons cmd tail ih =>
      have hstep : appendRendered (lines ++ [line]) cmd =
          .ok (lines ++ [line ++ " && ".toList ++ renderCommand cmd]) := by
        simp [appendRendered, htail cmd List.mem_cons_self]
      rw [List.foldlM_cons, hstep]
      change tail.foldlM appendRendered _ = _
      rw [ih _ fun cmd hmem => htail cmd (List.mem_cons_of_mem _ hmem)]
      simp

theorem renderCommandLines_chains (chains : List CommandChain) :
    renderCommandLines (chains.flatMap CommandChain.commands) =
      .ok (chains.map CommandChain.line) := by
  have hfold : ∀ lines, (chains.flatMap CommandChain.commands).foldlM appendRendered lines =
      .ok (lines ++ chains.map CommandChain.line) := by
    induction chains with
    | nil => intro lines; simp; rfl
    | cons chain chains ih =>
        intro lines
        have hhead : appendRendered lines chain.head =
            .ok (lines ++ [renderCommand chain.head]) := by
          simp [appendRendered, chain.head_free]
        rw [List.flatMap_cons, List.foldlM_append, CommandChain.commands, List.foldlM_cons,
          hhead]
        change (List.foldlM appendRendered _ chain.tail >>= _) = _
        rw [foldlM_appendRendered_tail _ _ chain.tail_dependent]
        change (chains.flatMap CommandChain.commands).foldlM appendRendered _ = _
        rw [ih]
        simp [CommandChain.line]
  exact hfold []

/-- The script of a list of chains, with one line for each chain. -/
theorem renderCommandScript_chains (chains : List CommandChain) :
    renderCommandScript (chains.flatMap CommandChain.commands) =
      .ok (kScriptPreamble.flatMap scriptLine ++
        (chains.map fun chain => chainText chain.head chain.tail).flatMap scriptLine ++
        kScriptEpilogue.flatMap scriptLine) := by
  rw [renderCommandScript, renderCommandLines_chains]
  change Except.ok _ = Except.ok _
  simp only [List.flatMap_map, escapePercents_line]

theorem parse_script_chains {chains : List CommandChain}
    (hsupported : ∀ chain ∈ chains, ∀ cmd ∈ chain.commands, cmd.Supported) :
    parseUwfmgrText (kScriptPreamble.flatMap scriptLine ++
        (chains.map fun chain => chainText chain.head chain.tail).flatMap scriptLine ++
        kScriptEpilogue.flatMap scriptLine) =
      appendLines 6 true (chains.map fun chain => chainText chain.head chain.tail) := by
  refine parseUwfmgrText_script ?_ ?_ <;> intro line hline <;>
    obtain ⟨chain, hchain, rfl⟩ := List.mem_map.1 hline
  · have hrendered : ∀ cmd ∈ chain.commands,
        '\n' ∉ escapePercents (renderCommand cmd) := fun cmd hcmd =>
      not_mem_escapePercents (not_mem_renderCommand (hsupported chain hchain cmd hcmd))
    simp only [chainText, List.mem_append, List.mem_flatMap, not_or, not_exists, not_and]
    exact ⟨hrendered _ List.mem_cons_self, fun cmd hcmd =>
      ⟨by decide, hrendered cmd (List.mem_cons_of_mem _ hcmd)⟩⟩
  · obtain ⟨rest, hrest⟩ := exists_chainText_eq chain.tail
      (hsupported chain hchain chain.head List.mem_cons_self)
    rw [hrest]
    rfl

/-- The condition on neighbours can be checked chain by chain. -/
theorem isChain_closedBefore_chains (chains : List CommandChain) :
    (chains.flatMap CommandChain.commands).IsChain ClosedBefore ↔
      ∀ chain ∈ chains, chain.commands.IsChain ClosedBefore := by
  induction chains with
  | nil => simp
  | cons chain chains ih =>
      have hboundary : ∀ last ∈ chain.commands.getLast?,
          ∀ next ∈ (chains.flatMap CommandChain.commands).head?, ClosedBefore last next := by
        intro last _ next hnext hdependent
        cases chains with
        | nil => simp at hnext
        | cons following chains =>
            have hhead : following.head = next := by
              simpa [CommandChain.commands] using hnext
            rw [← hhead, following.head_free] at hdependent
            exact Bool.noConfusion hdependent
      rw [List.flatMap_cons, List.isChain_append, ih, List.forall_mem_cons]
      exact ⟨fun h => ⟨h.1, h.2.1⟩, fun h => ⟨h.1, h.2, hboundary⟩⟩

theorem content_appendLines_closed {chains : List CommandChain}
    (hsupported : ∀ chain ∈ chains, ∀ cmd ∈ chain.commands, cmd.Supported)
    (hclosed : ∀ chain ∈ chains, chain.commands.IsChain ClosedBefore) (lineNo : ℕ) :
    (appendLines lineNo true (chains.map fun chain => chainText chain.head chain.tail)).map
        UwfmgrCommand.content =
      (chains.flatMap CommandChain.commands).map UwfmgrCommand.intended := by
  induction chains generalizing lineNo with
  | nil => rfl
  | cons chain chains ih =>
      rw [List.map_cons, appendLines, List.map_append, List.flatMap_cons, List.map_append,
        content_appendLine_closed chain (hsupported chain List.mem_cons_self)
          (hclosed chain List.mem_cons_self),
        ih (fun c hc => hsupported c (List.mem_cons_of_mem _ hc))
          (fun c hc => hclosed c (List.mem_cons_of_mem _ hc))]

theorem exists_mem_appendLines {lines : List Text} {batch : Bool} {line : Text}
    {p : UwfmgrCommand → Prop} (hline : line ∈ lines)
    (hcmd : ∀ lineNo, ∃ cmd ∈ appendLine line lineNo batch, p cmd) (lineNo : ℕ) :
    ∃ cmd ∈ appendLines lineNo batch lines, p cmd := by
  induction lines generalizing lineNo with
  | nil => simp at hline
  | cons first lines ih =>
      rw [appendLines]
      rcases List.mem_cons.1 hline with rfl | hline
      · obtain ⟨cmd, hmem, hp⟩ := hcmd lineNo
        exact ⟨cmd, List.mem_append_left _ hmem, hp⟩
      · obtain ⟨cmd, hmem, hp⟩ := ih hline (lineNo + 1)
        exact ⟨cmd, List.mem_append_right _ hmem, hp⟩

/-- A rendered script is read back as it was exactly when every command that a
dependent command follows has an even number of double quotes in its argument. -/
theorem renderCommandScript_roundTrip_iff (commands : List UwfmgrCommand)
    (hsupported : ∀ cmd ∈ commands, cmd.Supported)
    (hhead : ∀ cmd ∈ commands.head?, cmd.requiresPrevious = false) :
    (∃ script, renderCommandScript commands = .ok script ∧
      (parseUwfmgrText script).map UwfmgrCommand.content =
        commands.map UwfmgrCommand.intended) ↔ commands.IsChain ClosedBefore := by
  obtain ⟨chains, rfl⟩ := exists_chains commands hhead
  have hsupported' : ∀ chain ∈ chains, ∀ cmd ∈ chain.commands, cmd.Supported :=
    fun chain hchain cmd hcmd =>
      hsupported cmd (List.mem_flatMap.2 ⟨chain, hchain, hcmd⟩)
  rw [isChain_closedBefore_chains]
  constructor
  · rintro ⟨script, hscript, hcontent⟩ chain hchain
    obtain rfl := Except.ok.inj ((renderCommandScript_chains chains).symm.trans hscript)
    rw [parse_script_chains hsupported'] at hcontent
    by_contra hopen
    have hline : chainText chain.head chain.tail ∈
        chains.map fun chain => chainText chain.head chain.tail :=
      List.mem_map.2 ⟨chain, hchain, rfl⟩
    obtain ⟨cmd, hcmd, herror⟩ := exists_mem_appendLines hline
      (appendLine_open chain (hsupported' chain hchain) hopen) 6
    have hmem : cmd.content ∈ (chains.flatMap CommandChain.commands).map
        UwfmgrCommand.intended := hcontent ▸ List.mem_map_of_mem hcmd
    obtain ⟨source, -, hsource⟩ := List.mem_map.1 hmem
    exact herror (congrArg (fun content => content.2.2.2) hsource).symm
  · intro hclosed
    refine ⟨_, renderCommandScript_chains chains, ?_⟩
    rw [parse_script_chains hsupported', content_appendLines_closed hsupported' hclosed]

theorem renderCommandScript_roundTrip_toDisk :
    ∃ script,
      renderCommandScript [{ kind := .overlaySetSize, args := ["2048".toList] },
        { kind := .overlaySetType, args := ["Disk".toList], requiresPrevious := true }] =
        .ok script ∧
      (parseUwfmgrText script).map UwfmgrCommand.content =
        [(.overlaySetSize, ["2048".toList], false, .none),
          (.overlaySetType, ["Disk".toList], true, .none)] := by
  refine (renderCommandScript_roundTrip_iff
    [{ kind := .overlaySetSize, args := ["2048".toList] },
      { kind := .overlaySetType, args := ["Disk".toList], requiresPrevious := true }]
    ?_ ?_).2 ?_
  · rw [List.forall_mem_cons, List.forall_mem_singleton]
    exact ⟨⟨2048, by decide, by decide⟩, Or.inr rfl⟩
  · simp
  · rw [List.isChain_cons_cons]
    exact ⟨fun _ => by decide, List.IsChain.singleton _⟩

/-- The literal quote leaves the shell inside of quotes, so the `&&` after it is
taken for a second argument. -/
theorem renderCommandScript_openQuote :
    let commands : List UwfmgrCommand :=
      [{ kind := .fileAddExclusion, args := ["C:\\a\"b".toList] },
        { kind := .filterEnable, requiresPrevious := true }]
    (∀ cmd ∈ commands, cmd.Supported) ∧
      (∀ cmd ∈ commands.head?, cmd.requiresPrevious = false) ∧
      (renderCommandScript commands).map
          (fun script => (parseUwfmgrText script).map UwfmgrCommand.content) =
        .ok [(.fileAddExclusion, [], false, .unexpectedArgument)] ∧
      ¬∃ script, renderCommandScript commands = .ok script ∧
        (parseUwfmgrText script).map UwfmgrCommand.content =
          commands.map UwfmgrCommand.intended := by
  intro commands
  have hread : (renderCommandScript commands).map
      (fun script => (parseUwfmgrText script).map UwfmgrCommand.content) =
      .ok [(.fileAddExclusion, [], false, .unexpectedArgument)] := by
    decide +kernel
  refine ⟨?_, by simp [commands], hread, ?_⟩
  · rw [List.forall_mem_cons, List.forall_mem_singleton]
    exact ⟨⟨_, by decide, by decide, rfl⟩, rfl⟩
  · rintro ⟨script, hscript, hcontent⟩
    rw [hscript] at hread
    have hone := hcontent.symm.trans (Except.ok.inj hread)
    exact absurd (congrArg List.length hone) (by decide)

end UwfManager.Commands
