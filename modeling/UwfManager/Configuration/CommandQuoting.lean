import UwfManager.Shared.Text
import Mathlib.Tactic.Ring
import Mathlib.Algebra.Group.Nat.Even

/-!
# Quoting and tokenizing command arguments

A rendered argument is read twice.  The command shell toggles its quote state
at every double quote and removes carets outside of quotes; the Windows
argument rule then gives backslashes a meaning in front of a double quote.
`quoteArg` serves both readers and `tokenize` imitates them one after the
other.  The file proves the two inverse to each other, for a whole line of
arguments and for every state in which the shell may leave the line.
-/

namespace UwfManager.Commands

/-- The characters that the shell reads specially outside of quotes. -/
def shellEscaped (c : Char) : Bool :=
  isAsciiWhitespace c || "&|<>()^".toList.contains c

def specialCharacters : Text := "&|<>()^[]=;!'+,`~\x7b\x7d\"".toList

def needsQuoting (value : Text) : Bool :=
  value.isEmpty ||
    value.any fun c => isAsciiWhitespace c || specialCharacters.contains c

/-- The loop of `quoteArg` and the closing quote.  Backslashes are held back
until the next character shows whether they have to be doubled; a caret is
added where a literal quote has left the shell outside of quotes. -/
def quoteBody (backslashes : ℕ) (shellQuoted : Bool) : Text → Text
  | [] => List.replicate (backslashes * 2) '\\' ++ ['"']
  | c :: rest =>
      if c = '\\' then quoteBody (backslashes + 1) shellQuoted rest
      else if c = '"' then
        List.replicate (backslashes * 2) '\\' ++
          '\\' :: '"' :: quoteBody 0 (!shellQuoted) rest
      else
        List.replicate backslashes '\\' ++
          (if !shellQuoted && shellEscaped c then ['^'] else []) ++
          c :: quoteBody 0 shellQuoted rest

def quoteArg (value : Text) : Text :=
  if needsQuoting value then '"' :: quoteBody 0 true value else value

structure TokenizedLine where
  tokens : List Text
  quotesBalanced : Bool
  deriving DecidableEq

def TokenizedLine.push (token : Text) (line : TokenizedLine) : TokenizedLine :=
  { line with tokens := token :: line.tokens }

/-- The first loop of `tokenize`: removes the carets outside of shell quotes. -/
def removeCarets (shellQuoted : Bool) : Text → Text
  | [] => []
  | [c] => [c]
  | c :: next :: rest =>
      let quoted := if c = '"' then !shellQuoted else shellQuoted
      if !quoted && c == '^' && shellEscaped next then
        next :: removeCarets quoted rest
      else c :: removeCarets quoted (next :: rest)

/-- The second loop of `tokenize`: the Windows argument rule.  `backslashes`
counts the run of backslashes that ends at the current position. -/
def splitArgs (backslashes : ℕ) (inQuote tokenStarted : Bool) (cur : Text) :
    Text → TokenizedLine
  | [] =>
      ⟨if tokenStarted then [cur ++ List.replicate backslashes '\\'] else [], !inQuote⟩
  | c :: rest =>
      if c = '\\' then splitArgs (backslashes + 1) inQuote true cur rest
      else if c = '"' then
        if backslashes % 2 = 1 then
          splitArgs 0 inQuote tokenStarted
            (cur ++ List.replicate (backslashes / 2) '\\' ++ ['"']) rest
        else
          match rest with
          | [] => splitArgs 0 (!inQuote) true (cur ++ List.replicate (backslashes / 2) '\\') []
          | next :: rest' =>
              if inQuote && next == '"' then
                splitArgs 0 true true
                  (cur ++ List.replicate (backslashes / 2) '\\' ++ ['"']) rest'
              else
                splitArgs 0 (!inQuote) true (cur ++ List.replicate (backslashes / 2) '\\')
                  (next :: rest')
      else if !inQuote && isAsciiWhitespace c then
        if tokenStarted then
          (splitArgs 0 inQuote false [] rest).push
            (cur ++ List.replicate backslashes '\\')
        else splitArgs 0 inQuote false cur rest
      else
        splitArgs 0 inQuote true (cur ++ List.replicate backslashes '\\' ++ [c]) rest

def tokenize (line : Text) : TokenizedLine :=
  splitArgs 0 false false [] (removeCarets false line)

/-! ## What the shell leaves of a rendered argument -/

/-- Whether a text leaves the shell in the other quote state. -/
def quotesOdd (value : Text) : Bool := value.count '"' % 2 == 1

@[simp]
theorem quotesOdd_nil : quotesOdd [] = false := rfl

theorem quotesOdd_cons (c : Char) (rest : Text) :
    quotesOdd (c :: rest) = (quotesOdd rest ^^ (c == '"')) := by
  by_cases hquote : c = '"'
  · subst hquote
    rcases Nat.mod_two_eq_zero_or_one (rest.count '"') with hparity | hparity <;>
      simp [quotesOdd, Nat.add_mod, hparity]
  · rw [quotesOdd, List.count_cons_of_ne hquote, beq_false_of_ne hquote, Bool.xor_false,
      quotesOdd]

theorem quotesOdd_of_not_mem {value : Text} (hquote : '"' ∉ value) :
    quotesOdd value = false := by
  simp [quotesOdd, List.count_eq_zero.2 hquote]

/-- The text of an open quoted argument as the argument rule sees it. -/
def argvBody (backslashes : ℕ) : Text → Text
  | [] => List.replicate (backslashes * 2) '\\' ++ ['"']
  | c :: rest =>
      if c = '\\' then argvBody (backslashes + 1) rest
      else if c = '"' then
        List.replicate (backslashes * 2) '\\' ++ '\\' :: '"' :: argvBody 0 rest
      else List.replicate backslashes '\\' ++ c :: argvBody 0 rest

def argvArg (value : Text) : Text :=
  if needsQuoting value then '"' :: argvBody 0 value else value

theorem removeCarets_cons_quote (shellQuoted : Bool) (rest : Text) :
    removeCarets shellQuoted ('"' :: rest) = '"' :: removeCarets (!shellQuoted) rest := by
  cases rest with
  | nil => rfl
  | cons next rest => simp [removeCarets]

theorem removeCarets_cons_ordinary {c : Char} (shellQuoted : Bool) (rest : Text)
    (hquote : c ≠ '"') (hcaret : shellQuoted = true ∨ c ≠ '^') :
    removeCarets shellQuoted (c :: rest) = c :: removeCarets shellQuoted rest := by
  cases rest with
  | nil => rfl
  | cons next rest =>
      rcases hcaret with rfl | hcaret
      · simp [removeCarets, hquote]
      · simp [removeCarets, hquote, hcaret]

theorem removeCarets_caret {c : Char} (rest : Text) (hescaped : shellEscaped c = true) :
    removeCarets false ('^' :: c :: rest) = c :: removeCarets false rest := by
  simp [removeCarets, hescaped]

theorem removeCarets_replicate (shellQuoted : Bool) (count : ℕ) (rest : Text) :
    removeCarets shellQuoted (List.replicate count '\\' ++ rest) =
      List.replicate count '\\' ++ removeCarets shellQuoted rest := by
  induction count with
  | zero => rfl
  | succ count ih =>
      rw [List.replicate_succ, List.cons_append,
        removeCarets_cons_ordinary _ _ (by decide) (Or.inr (by decide)), ih,
        List.cons_append]

/-- A caret that is not escaped itself stands inside of shell quotes. -/
theorem shellEscaped_caret : shellEscaped '^' = true := by decide

/-- The carets of a quoted argument are exactly the ones the shell removes, and
the closing quote is read in the state its literal quotes have led to. -/
theorem removeCarets_quoteBody (value : Text) (backslashes : ℕ) (shellQuoted : Bool)
    (rest : Text) :
    removeCarets shellQuoted (quoteBody backslashes shellQuoted value ++ rest) =
      argvBody backslashes value ++
        removeCarets (!(shellQuoted ^^ quotesOdd value)) rest := by
  induction value generalizing backslashes shellQuoted with
  | nil =>
      simp only [quoteBody, argvBody, List.append_assoc, List.singleton_append]
      rw [removeCarets_replicate, removeCarets_cons_quote]
      simp
  | cons c value ih =>
      by_cases hbackslash : c = '\\'
      · subst hbackslash
        simp only [quoteBody, argvBody, if_true]
        rw [ih, quotesOdd_cons]
        simp
      by_cases hquote : c = '"'
      · subst hquote
        simp only [quoteBody, argvBody, if_neg hbackslash, if_true, List.append_assoc,
          List.cons_append]
        rw [removeCarets_replicate,
          removeCarets_cons_ordinary _ _ (by decide) (Or.inr (by decide)),
          removeCarets_cons_quote, ih, quotesOdd_cons]
        cases shellQuoted <;> cases quotesOdd value <;> rfl
      have hparity : quotesOdd (c :: value) = quotesOdd value := by
        rw [quotesOdd_cons, beq_false_of_ne hquote, Bool.xor_false]
      simp only [quoteBody, argvBody, if_neg hbackslash, if_neg hquote, List.append_assoc,
        List.cons_append]
      rw [removeCarets_replicate, hparity, ← ih 0 shellQuoted]
      congr 1
      by_cases hcaret : (!shellQuoted && shellEscaped c) = true
      · obtain ⟨hopen, hescaped⟩ : shellQuoted = false ∧ shellEscaped c = true := by
          simpa using hcaret
        subst hopen
        rw [if_pos hcaret, List.singleton_append, removeCarets_caret _ hescaped]
      · rw [if_neg hcaret, List.nil_append]
        refine removeCarets_cons_ordinary _ _ hquote ?_
        by_cases hopen : shellQuoted = true
        · exact Or.inl hopen
        · refine Or.inr ?_
          rintro rfl
          exact hcaret (by simp [hopen, shellEscaped_caret])

theorem not_mem_of_needsQuoting_eq_false {value : Text} {c : Char}
    (hplain : needsQuoting value = false)
    (hc : isAsciiWhitespace c = true ∨ c ∈ specialCharacters) : c ∉ value := by
  intro hmem
  have hany : (value.any fun d =>
      isAsciiWhitespace d || specialCharacters.contains d) = true :=
    List.any_eq_true.2 ⟨c, hmem, by simpa using hc⟩
  rw [needsQuoting, hany, Bool.or_true] at hplain
  exact Bool.noConfusion hplain

theorem removeCarets_append_plain {value : Text} (shellQuoted : Bool) (rest : Text)
    (hquote : '"' ∉ value) (hcaret : '^' ∉ value) :
    removeCarets shellQuoted (value ++ rest) = value ++ removeCarets shellQuoted rest := by
  induction value with
  | nil => rfl
  | cons c value ih =>
      simp only [List.mem_cons, not_or] at hquote hcaret
      rw [List.cons_append, removeCarets_cons_ordinary _ _ (Ne.symm hquote.1)
        (Or.inr (Ne.symm hcaret.1)), ih hquote.2 hcaret.2, List.cons_append]

/-- What the shell makes of one argument read outside of quotes. -/
theorem removeCarets_quoteArg (value rest : Text) :
    removeCarets false (quoteArg value ++ rest) =
      argvArg value ++ removeCarets (quotesOdd value) rest := by
  by_cases hquoting : needsQuoting value = true
  · simp only [quoteArg, argvArg, if_pos hquoting, List.cons_append]
    rw [removeCarets_cons_quote, Bool.not_false, removeCarets_quoteBody]
    simp
  · have hplain : needsQuoting value = false := by simpa using hquoting
    have hquote : '"' ∉ value :=
      not_mem_of_needsQuoting_eq_false hplain (Or.inr (by decide))
    have hcaret : '^' ∉ value :=
      not_mem_of_needsQuoting_eq_false hplain (Or.inr (by decide))
    simp only [quoteArg, argvArg, if_neg hquoting]
    rw [removeCarets_append_plain _ _ hquote hcaret, quotesOdd_of_not_mem hquote]

/-! ## What the argument rule makes of it -/

theorem splitArgs_cons_backslash (backslashes : ℕ) (inQuote tokenStarted : Bool)
    (cur rest : Text) :
    splitArgs backslashes inQuote tokenStarted cur ('\\' :: rest) =
      splitArgs (backslashes + 1) inQuote true cur rest := by
  cases rest <;> conv_lhs => rw [splitArgs, if_pos rfl]

theorem splitArgs_replicate (backslashes count : ℕ) (inQuote : Bool) (cur rest : Text) :
    splitArgs backslashes inQuote true cur (List.replicate count '\\' ++ rest) =
      splitArgs (backslashes + count) inQuote true cur rest := by
  induction count generalizing backslashes with
  | zero => rfl
  | succ count ih =>
      rw [List.replicate_succ, List.cons_append, splitArgs_cons_backslash, ih]
      congr 1
      omega

/-- A quote after an odd run of backslashes is literal. -/
theorem splitArgs_escaped_quote (half : ℕ) (inQuote tokenStarted : Bool) (cur rest : Text) :
    splitArgs (half * 2 + 1) inQuote tokenStarted cur ('"' :: rest) =
      splitArgs 0 inQuote tokenStarted (cur ++ List.replicate half '\\' ++ ['"']) rest := by
  have hodd : (half * 2 + 1) % 2 = 1 := by omega
  have hhalf : (half * 2 + 1) / 2 = half := by omega
  cases rest <;>
    conv_lhs => rw [splitArgs, if_neg (by decide), if_pos rfl, if_pos hodd, hhalf]

/-- A quote after an even run of backslashes opens or closes the quoted part,
unless it is the first of a pair of quotes inside of one. -/
theorem splitArgs_quote (half : ℕ) (inQuote tokenStarted : Bool) (cur : Text) {rest : Text}
    (hrest : inQuote = false ∨ rest.head? ≠ some '"') :
    splitArgs (half * 2) inQuote tokenStarted cur ('"' :: rest) =
      splitArgs 0 (!inQuote) true (cur ++ List.replicate half '\\') rest := by
  have heven : ¬half * 2 % 2 = 1 := by omega
  have hhalf : half * 2 / 2 = half := by omega
  cases rest with
  | nil =>
      conv_lhs => rw [splitArgs, if_neg (by decide), if_pos rfl, if_neg heven, hhalf]
  | cons next rest =>
      have hsingle : ¬(inQuote && next == '"') = true := by
        rcases hrest with rfl | hnext
        · simp
        · simpa using fun _ => hnext
      conv_lhs =>
        rw [splitArgs, if_neg (by decide), if_pos rfl, if_neg heven, if_neg hsingle, hhalf]

theorem splitArgs_cons_ordinary {c : Char} (backslashes : ℕ) (inQuote tokenStarted : Bool)
    (cur rest : Text) (hbackslash : c ≠ '\\') (hquote : c ≠ '"')
    (hspace : inQuote = true ∨ isAsciiWhitespace c = false) :
    splitArgs backslashes inQuote tokenStarted cur (c :: rest) =
      splitArgs 0 inQuote true (cur ++ List.replicate backslashes '\\' ++ [c]) rest := by
  have hinside : ¬(!inQuote && isAsciiWhitespace c) = true := by
    rcases hspace with rfl | hspace
    · simp
    · simp [hspace]
  cases rest <;>
    conv_lhs => rw [splitArgs, if_neg hbackslash, if_neg hquote, if_neg hinside]

theorem splitArgs_space (backslashes : ℕ) (cur rest : Text) :
    splitArgs backslashes false true cur (' ' :: rest) =
      (splitArgs 0 false false [] rest).push (cur ++ List.replicate backslashes '\\') := by
  cases rest <;>
    conv_lhs =>
      rw [splitArgs, if_neg (by decide), if_neg (by decide), if_pos (by decide), if_pos rfl]

/-- The doubled backslashes and the escaped quotes of a quoted argument are
read back as they were, and its closing quote ends the quoted part. -/
theorem splitArgs_argvBody (value : Text) (backslashes : ℕ) (cur : Text) {rest : Text}
    (hrest : rest.head? ≠ some '"') :
    splitArgs 0 true true cur (argvBody backslashes value ++ rest) =
      splitArgs 0 false true (cur ++ List.replicate backslashes '\\' ++ value) rest := by
  induction value generalizing backslashes cur with
  | nil =>
      simp only [argvBody, List.append_assoc, List.singleton_append, List.append_nil]
      rw [splitArgs_replicate, Nat.zero_add, splitArgs_quote _ _ _ _ (Or.inr hrest),
        Bool.not_true]
  | cons c value ih =>
      by_cases hbackslash : c = '\\'
      · subst hbackslash
        simp only [argvBody, if_true]
        rw [ih, List.replicate_succ']
        simp
      by_cases hquote : c = '"'
      · subst hquote
        simp only [argvBody, if_neg hbackslash, if_true, List.append_assoc, List.cons_append]
        rw [splitArgs_replicate, splitArgs_cons_backslash, Nat.zero_add,
          splitArgs_escaped_quote, ih]
        simp
      · simp only [argvBody, if_neg hbackslash, if_neg hquote, List.append_assoc,
          List.cons_append]
        rw [splitArgs_replicate, splitArgs_cons_ordinary _ _ _ _ _ hbackslash hquote
          (Or.inl rfl), ih]
        simp

/-- The characters that mean themselves to both readers outside of quotes. -/
def IsPlain (word : Text) : Prop :=
  word ≠ [] ∧ ∀ c ∈ word, isAsciiWhitespace c = false ∧ c ≠ '"' ∧ c ≠ '^'

instance (word : Text) : Decidable (IsPlain word) :=
  @instDecidableAnd _ _ _ (List.decidableBAll _ word)

theorem isPlain_of_needsQuoting_eq_false {value : Text}
    (hplain : needsQuoting value = false) : IsPlain value := by
  refine ⟨?_, fun c hmem => ⟨?_, ?_, ?_⟩⟩
  · rintro rfl
    exact absurd hplain (by decide)
  · by_contra hspace
    exact not_mem_of_needsQuoting_eq_false hplain (Or.inl (by simpa using hspace)) hmem
  · rintro rfl
    exact not_mem_of_needsQuoting_eq_false hplain (Or.inr (by decide)) hmem
  · rintro rfl
    exact not_mem_of_needsQuoting_eq_false hplain (Or.inr (by decide)) hmem

/-- A continuation that ends the current token, whatever the run of
backslashes in front of it. -/
def EndsToken (rest : Text) (finish : Text → TokenizedLine) : Prop :=
  ∀ backslashes cur, splitArgs backslashes false true cur rest =
    finish (cur ++ List.replicate backslashes '\\')

theorem endsToken_nil : EndsToken [] fun token => ⟨[token], true⟩ :=
  fun _ _ => rfl

theorem endsToken_space (rest : Text) :
    EndsToken (' ' :: rest) fun token => (splitArgs 0 false false [] rest).push token :=
  fun backslashes cur => splitArgs_space backslashes cur rest

theorem splitArgs_plain {value rest : Text} {finish : Text → TokenizedLine}
    (hplain : ∀ c ∈ value, isAsciiWhitespace c = false ∧ c ≠ '"' ∧ c ≠ '^')
    (hends : EndsToken rest finish) (backslashes : ℕ) (cur : Text) :
    splitArgs backslashes false true cur (value ++ rest) =
      finish (cur ++ List.replicate backslashes '\\' ++ value) := by
  induction value generalizing backslashes cur with
  | nil => simpa using hends backslashes cur
  | cons c value ih =>
      have hvalue := fun d hd => hplain d (List.mem_cons_of_mem _ hd)
      obtain ⟨hspace, hquote, -⟩ := hplain c List.mem_cons_self
      rw [List.cons_append]
      by_cases hbackslash : c = '\\'
      · rw [hbackslash, splitArgs_cons_backslash, ih hvalue, List.replicate_succ']
        simp
      · rw [splitArgs_cons_ordinary _ _ _ _ _ hbackslash hquote (Or.inr hspace), ih hvalue]
        simp

theorem splitArgs_isPlain {word rest : Text} {finish : Text → TokenizedLine}
    (hword : IsPlain word) (hends : EndsToken rest finish) :
    splitArgs 0 false false [] (word ++ rest) = finish word := by
  obtain ⟨hne, hplain⟩ := hword
  -- Only the flag for a started token differs from the state of `splitArgs_plain`.
  have hstart : splitArgs 0 false false [] (word ++ rest) =
      splitArgs 0 false true [] (word ++ rest) := by
    cases word with
    | nil => exact absurd rfl hne
    | cons c word =>
        obtain ⟨hspace, hquote, -⟩ := hplain c List.mem_cons_self
        rw [List.cons_append]
        by_cases hbackslash : c = '\\'
        · rw [hbackslash, splitArgs_cons_backslash, splitArgs_cons_backslash]
        · rw [splitArgs_cons_ordinary _ _ _ _ _ hbackslash hquote (Or.inr hspace),
            splitArgs_cons_ordinary _ _ _ _ _ hbackslash hquote (Or.inr hspace)]
  rw [hstart, splitArgs_plain hplain hends]
  simp

/-- One argument is read back as one token, whatever it contains. -/
theorem splitArgs_argvArg (value : Text) {rest : Text} {finish : Text → TokenizedLine}
    (hends : EndsToken rest finish) (hrest : rest.head? ≠ some '"') :
    splitArgs 0 false false [] (argvArg value ++ rest) = finish value := by
  by_cases hquoting : needsQuoting value = true
  · rw [argvArg, if_pos hquoting, List.cons_append, ← Nat.zero_mul 2,
      splitArgs_quote _ _ _ _ (Or.inl rfl), Bool.not_false, splitArgs_argvBody _ _ _ hrest,
      hends]
    simp
  · rw [argvArg, if_neg hquoting]
    exact splitArgs_isPlain (isPlain_of_needsQuoting_eq_false (by simpa using hquoting)) hends

end UwfManager.Commands
