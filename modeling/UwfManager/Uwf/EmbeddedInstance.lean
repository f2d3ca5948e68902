import Mathlib.Data.List.Infix
import Mathlib.Data.List.TakeWhile
import Mathlib.Data.List.Nodup
import Mathlib.Tactic.Common
import UwfManager.Uwf.WmiTypes

/-!
# Properties of an embedded instance

A provider can send an instance as text: a flat list of properties, by itself or inside a
wrapper, with comments and quoted values.  The reader looks for one property and checks the
whole text on the way.
-/

namespace UwfManager

namespace EmbeddedInstance

/-- How a lookup fails: with an exception, or by a loop that was not followed to its end. -/
inductive MofFailure where
  | thrown (failure : WmiFailure)
  | unfinished
  deriving DecidableEq

structure MofLiteral where
  value : Text
  quoted : Bool
  deriving DecidableEq

def malformed {α : Type*} (reason : String) : Except MofFailure α :=
  .error (.thrown (.of .decode "decode embedded MOF".toList reason.toList))

/-! ## `MofPropertyReader`, on the text that is left -/

/-- The text behind the first occurrence of a pattern. -/
def behind (pattern : Text) : Text → Option Text
  | [] => none
  | c :: rest =>
      if pattern.isPrefixOf (c :: rest) then some ((c :: rest).drop pattern.length)
      else behind pattern rest

def lineComment : Text := ['/', '/']

def blockComment : Text := ['/', '*']

def blockCommentEnd : Text := ['*', '/']

/-- The number bounds how often the loop is followed. -/
def skipTriviaLoop : ℕ → Text → Except MofFailure Text
  | 0, _ => .error .unfinished
  | _ + 1, [] => .ok []
  | fuel + 1, c :: rest =>
      if isAsciiWhitespace c then skipTriviaLoop fuel rest
      else if lineComment.isPrefixOf (c :: rest) then
        match behind ['\n'] ((c :: rest).drop 2) with
        | some text => skipTriviaLoop fuel text
        | none => .ok []
      else if blockComment.isPrefixOf (c :: rest) then
        match behind blockCommentEnd ((c :: rest).drop 2) with
        | some text => skipTriviaLoop fuel text
        | none => malformed "unterminated comment"
      else .ok (c :: rest)

def skipTrivia (text : Text) : Except MofFailure Text := skipTriviaLoop (text.length + 1) text

def take (character : Char) (text : Text) : Except MofFailure (Bool × Text) := do
  let text ← skipTrivia text
  match text with
  | [] => return (false, [])
  | first :: rest => if first = character then return (true, rest) else return (false, first :: rest)

def expect (character : Char) (text : Text) : Except MofFailure Text := do
  let (taken, text) ← take character text
  if taken then return text else malformed "missing property or instance delimiter"

def isNameStart (c : Char) : Bool := c.isAlpha || c == '_'

def isNameChar (c : Char) : Bool := c.isAlphanum || c == '_' || c == '.'

def name (text : Text) : Except MofFailure (Text × Text) := do
  let text ← skipTrivia text
  match text with
  | [] => malformed "invalid property or class name"
  | first :: _ =>
      if !isNameStart first then malformed "invalid property or class name"
      else return (text.takeWhile isNameChar, text.dropWhile isNameChar)

def isNewline (c : Char) : Bool := c == '\n' || c == '\r'

/-- A quoted value behind its first quote. -/
def quotedValue : Text → Except MofFailure (Text × Text)
  | [] => malformed "unterminated quoted value"
  | character :: rest =>
      if character = '"' then return ([], rest)
      else if isNewline character then malformed "newline inside a quoted value"
      else if character = '\\' then
        match rest with
        | [] => malformed "unterminated quoted escape"
        | escaped :: rest =>
            if isNewline escaped then malformed "newline inside a quoted escape"
            else do
              let (value, rest) ← quotedValue rest
              -- other escapes than those of a backslash and a quote survive
              if escaped ≠ '\\' ∧ escaped ≠ '"' then return ('\\' :: escaped :: value, rest)
              else return (escaped :: value, rest)
      else do
        let (value, rest) ← quotedValue rest
        return (character :: value, rest)

def isValueChar (c : Char) : Bool :=
  c.isAlphanum || c == '_' || c == '.' || c == '+' || c == '-'

def endsBareValue (text : Text) : Bool :=
  match text with
  | [] => true
  | c :: _ =>
      isAsciiWhitespace c || c == ';' || c == '}' ||
        lineComment.isPrefixOf text || blockComment.isPrefixOf text

def bareValue : Text → Except MofFailure (Text × Text)
  | [] => return ([], [])
  | c :: rest =>
      if endsBareValue (c :: rest) then return ([], c :: rest)
      else if !isValueChar c then malformed "unsupported or malformed property value"
      else do
        let (value, rest) ← bareValue rest
        return (c :: value, rest)

def literal (text : Text) : Except MofFailure (MofLiteral × Text) := do
  let text ← skipTrivia text
  let (quoted, text) ← take '"' text
  if quoted then
    let (value, text) ← quotedValue text
    return (⟨value, true⟩, text)
  else
    let (value, text) ← bareValue text
    if value.isEmpty then malformed "missing property value" else return (⟨value, false⟩, text)

/-- The closing brace of a wrapped instance. -/
def takeClosing (wrapped : Bool) (text : Text) : Except MofFailure (Bool × Text) :=
  if wrapped then take '}' text else return (false, text)

/-- The name of the next property, which may have been read already. -/
def nextKey (first : Option Text) (text : Text) : Except MofFailure (Text × Text) :=
  match first with
  | some key => return (key, text)
  | none => name text

/-- The loop over the properties.  The number bounds how often it is followed. -/
def findLoop (wanted : Text) (wrapped : Bool) : ℕ → Option Text → List Text → Option MofLiteral →
    Text → Except MofFailure (Option MofLiteral)
  | 0, _, _, _, _ => .error .unfinished
  | fuel + 1, first, properties, found, text => do
      let text ← skipTrivia text
      let (closed, text) ← takeClosing wrapped text
      if closed then
        let text ← expect ';' text
        let text ← skipTrivia text
        if text.isEmpty then return found else malformed "unexpected text after the instance"
      else if text.isEmpty then
        if wrapped then malformed "unterminated instance" else return found
      else
        let (key, text) ← nextKey first text
        let text ← expect '=' text
        let (value, text) ← literal text
        let text ← expect ';' text
        let folded := toLowerAscii key
        if properties.contains folded then malformed "duplicate property"
        else
          findLoop wanted wrapped fuel none (folded :: properties)
            (if folded = wanted then some value else found) text

def find (text property : Text) : Except MofFailure (Option MofLiteral) := do
  let wanted := toLowerAscii property
  let fuel := text.length + 1
  let text ← skipTrivia text
  if text.isEmpty then return none
  else
    let (braced, text) ← take '{' text
    if braced then findLoop wanted true fuel none [] none text
    else
      let (first, text) ← name text
      if toLowerAscii first = "instance".toList then
        let (of, text) ← name text
        if toLowerAscii of ≠ "of".toList then malformed "expected 'of' after 'instance'"
        else
          let (_, text) ← name text
          let text ← expect '{' text
          findLoop wanted true fuel none [] none text
      else
        let (braced, text) ← take '{' text
        if braced then findLoop wanted true fuel none [] none text
        else findLoop wanted false fuel (some first) [] none text

def mofProperty (mof property : Text) : Except MofFailure (Option MofLiteral) :=
  find mof property

/-! ## Embedded values -/

def fieldError {α : Type} (key : Text) (reason : String) : Except MofFailure α :=
  (WmiRow.throwFieldError key reason).mapError .thrown

def extractFromMof (mof propName : Text) : Except MofFailure Text := do
  let value ← mofProperty mof propName
  match value with
  | none => return []
  | some literal =>
      if !literal.quoted then fieldError propName "is not a quoted string in embedded MOF"
      else return literal.value

def requireEmbeddedString (row : WmiRow) (propName : Text) : Except MofFailure Text := do
  if (row.lookup propName).isSome then (row.requireString propName true).mapError .thrown
  else
    let mof ← (row.requireString "__MOF".toList true).mapError MofFailure.thrown
    let value ← extractFromMof mof propName
    if value.isEmpty then fieldError propName "is missing from embedded MOF" else return value

def requireUInt64 (row : WmiRow) (key : Text) : Except WmiFailure UInt64 :=
  match row.lookup key with
  | none => WmiRow.throwFieldError key "is missing"
  | some value =>
      if WmiRow.isIntegerLike value then
        match WmiRow.toUInt64? value with
        | some number => .ok (UInt64.ofNat number)
        | none => WmiRow.throwFieldError key "is not a valid UInt64"
      else WmiRow.throwFieldError key "has the wrong type"

def requireEmbeddedUInt64 (row : WmiRow) (propName : Text) : Except MofFailure UInt64 := do
  if (row.lookup propName).isSome then (requireUInt64 row propName).mapError .thrown
  else
    let mof ← (row.requireString "__MOF".toList true).mapError MofFailure.thrown
    let value ← mofProperty mof propName
    match value with
    | none => fieldError propName "is missing from embedded MOF"
    | some literal =>
        match literal.value.head?, fromChars false fitsUInt64 literal.value with
        | some first, some (decoded, []) =>
            if '0' ≤ first ∧ first ≤ '9' then return UInt64.ofNat decoded.toNat
            else fieldError propName "is not a valid UInt64 in embedded MOF"
        | _, _ => fieldError propName "is not a valid UInt64 in embedded MOF"

/-! ## Well-formed texts -/

/-- Whitespace and whole comments. -/
inductive IsTrivia : Text → Prop
  | nil : IsTrivia []
  | blank {c : Char} {rest : Text} (hblank : isAsciiWhitespace c = true) (hrest : IsTrivia rest) :
      IsTrivia (c :: rest)
  | line {body rest : Text} (hbody : '\n' ∉ body) (hrest : IsTrivia rest) :
      IsTrivia (lineComment ++ body ++ '\n' :: rest)
  | block {body rest : Text} (hbody : ¬blockCommentEnd <:+: body) (hrest : IsTrivia rest) :
      IsTrivia (blockComment ++ body ++ blockCommentEnd ++ rest)

/-- At the end of the text a line comment needs no line end. -/
inductive IsClosing : Text → Prop
  | trivia {text : Text} (htext : IsTrivia text) : IsClosing text
  | line {text body : Text} (htext : IsTrivia text) (hbody : '\n' ∉ body) :
      IsClosing (text ++ lineComment ++ body)

structure IsName (text : Text) : Prop where
  start : ∀ c ∈ text.head?, isNameStart c = true
  ne : text ≠ []
  chars : ∀ c ∈ text, isNameChar c = true

instance (text : Text) : Decidable (IsName text) := by
  apply decidable_of_iff
    ((text.head?.all isNameStart && !text.isEmpty && text.all isNameChar) = true)
  simp only [Bool.and_eq_true, Option.all_eq_true, List.all_eq_true, Bool.not_eq_true',
    List.isEmpty_eq_false_iff]
  constructor
  · rintro ⟨⟨hstart, hne⟩, hchars⟩
    exact ⟨hstart, hne, hchars⟩
  · intro hname
    exact ⟨⟨hname.start, hname.ne⟩, hname.chars⟩

/-- A backslash in front of each backslash and each quote. -/
def escape (value : Text) : Text :=
  value.flatMap fun c => if c = '\\' ∨ c = '"' then ['\\', c] else [c]

namespace MofLiteral

def written (literal : MofLiteral) : Text :=
  if literal.quoted then '"' :: escape literal.value ++ ['"'] else literal.value

/-- A quoted value is on one line, and a bare value is a token. -/
def WellFormed (literal : MofLiteral) : Prop :=
  if literal.quoted then ∀ c ∈ literal.value, isNewline c = false
  else literal.value ≠ [] ∧ ∀ c ∈ literal.value, isValueChar c = true

instance (literal : MofLiteral) : Decidable literal.WellFormed := by
  apply decidable_of_iff ((if literal.quoted then literal.value.all fun c => !isNewline c
    else !literal.value.isEmpty && literal.value.all isValueChar) = true)
  unfold WellFormed
  split_ifs <;> simp

end MofLiteral

abbrev MofProperty := Text × MofLiteral

/-- What stands behind the name of a property. -/
inductive IsAssignment : MofLiteral → Text → Prop
  | intro {literal : MofLiteral} {first second third : Text} (hliteral : literal.WellFormed)
      (hfirst : IsTrivia first) (hsecond : IsTrivia second) (hthird : IsTrivia third) :
      IsAssignment literal (first ++ '=' :: second ++ literal.written ++ third ++ [';'])

inductive IsPropertyList : List MofProperty → Text → Prop
  | nil : IsPropertyList [] []
  | cons {key : Text} {literal : MofLiteral} {properties : List MofProperty}
      {front assignment rest : Text} (hfront : IsTrivia front) (hkey : IsName key)
      (hassignment : IsAssignment literal assignment) (hrest : IsPropertyList properties rest) :
      IsPropertyList ((key, literal) :: properties) (front ++ key ++ assignment ++ rest)

/-- The wrapped properties and everything behind the opening brace. -/
inductive IsBody : List MofProperty → Text → Prop
  | intro {properties : List MofProperty} {list first second tail : Text}
      (hlist : IsPropertyList properties list) (hfirst : IsTrivia first)
      (hsecond : IsTrivia second) (htail : IsClosing tail) :
      IsBody properties (list ++ first ++ '}' :: second ++ ';' :: tail)

/-- The keyword of an instance with its class. -/
def IsKeyword (keyword : String) (text : Text) : Prop := toLowerAscii text = keyword.toList

/-- The text of an instance.  The keyword is not taken for a name. -/
inductive IsInstance : List MofProperty → Text → Prop
  | bare {properties : List MofProperty} {list tail : Text}
      (hlist : IsPropertyList properties list)
      (hfirst : ∀ property ∈ properties.head?, ¬IsKeyword "instance" property.1)
      (htail : IsClosing tail) : IsInstance properties (list ++ tail)
  | braces {properties : List MofProperty} {front body : Text} (hfront : IsTrivia front)
      (hbody : IsBody properties body) : IsInstance properties (front ++ '{' :: body)
  | named {properties : List MofProperty} {front className second body : Text}
      (hfront : IsTrivia front) (hname : IsName className)
      (hkeyword : ¬IsKeyword "instance" className) (hsecond : IsTrivia second)
      (hbody : IsBody properties body) :
      IsInstance properties (front ++ className ++ second ++ '{' :: body)
  | instanceOf {properties : List MofProperty}
      {front keyword second of third className fourth body : Text} (hfront : IsTrivia front)
      (hkeyword : IsKeyword "instance" keyword) (hsecond : IsTrivia second) (hsecondNe : second ≠ [])
      (hof : IsKeyword "of" of) (hthird : IsTrivia third) (hthirdNe : third ≠ [])
      (hname : IsName className) (hfourth : IsTrivia fourth) (hbody : IsBody properties body) :
      IsInstance properties (front ++ keyword ++ second ++ of ++ third ++ className ++ fourth ++
        '{' :: body)

/-! ## Trivia -/

/-- A token begins, or the text is at its end. -/
def Visible (text : Text) : Prop := ∀ c ∈ text.head?, isAsciiWhitespace c = false ∧ c ≠ '/'

theorem behind_newline {body : Text} (hbody : '\n' ∉ body) (rest : Text) :
    behind ['\n'] (body ++ '\n' :: rest) = some rest := by
  induction body with
  | nil => rfl
  | cons c body ih =>
      rw [List.mem_cons, not_or] at hbody
      rw [List.cons_append, behind, ih hbody.2]
      simp [hbody.1]

theorem behind_newline_none {body : Text} (hbody : '\n' ∉ body) : behind ['\n'] body = none := by
  induction body with
  | nil => rfl
  | cons c body ih =>
      rw [List.mem_cons, not_or] at hbody
      rw [behind, ih hbody.2]
      simp [hbody.1]

theorem behind_blockCommentEnd {body : Text} (hbody : ¬blockCommentEnd <:+: body) (rest : Text) :
    behind blockCommentEnd (body ++ blockCommentEnd ++ rest) = some rest := by
  induction body with
  | nil => rfl
  | cons c body ih =>
      have hrest : ¬blockCommentEnd <:+: body := fun h => hbody (h.trans (List.suffix_cons c body).isInfix)
      -- the end of the comment does not begin in its body
      have hnot : blockCommentEnd.isPrefixOf (c :: (body ++ blockCommentEnd ++ rest)) = false := by
        rw [Bool.eq_false_iff]
        intro hprefix
        rw [List.isPrefixOf_iff_prefix, blockCommentEnd, List.cons_prefix_cons] at hprefix
        obtain ⟨rfl, hslash⟩ := hprefix
        cases body with
        | nil => simp at hslash
        | cons d body =>
            obtain ⟨rfl, -⟩ := List.cons_prefix_cons.1 hslash
            exact hbody ⟨[], body, rfl⟩
      rw [List.cons_append, List.cons_append, behind, hnot, ih hrest]
      rfl

/-- The loop goes through trivia and on behind it. -/
theorem skipTriviaLoop_append {front : Text} (hfront : IsTrivia front) (rest : Text) {fuel : ℕ}
    (hfuel : front.length < fuel) :
    ∃ left, skipTriviaLoop fuel (front ++ rest) = skipTriviaLoop (left + 1) rest := by
  induction hfront generalizing fuel with
  | nil =>
      obtain ⟨left, rfl⟩ := Nat.exists_eq_succ_of_ne_zero (Nat.ne_of_gt hfuel)
      exact ⟨left, rfl⟩
  | @blank c tail hblank htail ih =>
      obtain ⟨fuel, rfl⟩ := Nat.exists_eq_succ_of_ne_zero (Nat.ne_zero_of_lt hfuel)
      rw [List.length_cons] at hfuel
      obtain ⟨left, hleft⟩ := ih (show tail.length < fuel by omega)
      refine ⟨left, ?_⟩
      rw [List.cons_append, skipTriviaLoop, if_pos hblank, hleft]
  | @line body tail hbody htail ih =>
      obtain ⟨fuel, rfl⟩ := Nat.exists_eq_succ_of_ne_zero (Nat.ne_zero_of_lt hfuel)
      simp only [List.length_append, List.length_cons] at hfuel
      obtain ⟨left, hleft⟩ := ih (show tail.length < fuel by omega)
      refine ⟨left, ?_⟩
      have htext : lineComment ++ body ++ '\n' :: tail ++ rest =
          '/' :: '/' :: (body ++ '\n' :: (tail ++ rest)) := by simp [lineComment]
      rw [htext, skipTriviaLoop, if_neg (by decide), if_pos (by simp [lineComment])]
      change (match behind ['\n'] (body ++ '\n' :: (tail ++ rest)) with
        | some text => skipTriviaLoop fuel text
        | none => .ok []) = _
      rw [behind_newline hbody]
      exact hleft
  | @block body tail hbody htail ih =>
      obtain ⟨fuel, rfl⟩ := Nat.exists_eq_succ_of_ne_zero (Nat.ne_zero_of_lt hfuel)
      have htwo : blockComment.length = 2 := rfl
      simp only [List.length_append, htwo] at hfuel
      obtain ⟨left, hleft⟩ := ih (show tail.length < fuel by omega)
      refine ⟨left, ?_⟩
      have htext : blockComment ++ body ++ blockCommentEnd ++ tail ++ rest =
          '/' :: '*' :: (body ++ blockCommentEnd ++ (tail ++ rest)) := by simp [blockComment]
      rw [htext, skipTriviaLoop, if_neg (by decide), if_neg (by simp [lineComment]),
        if_pos (by simp [blockComment])]
      change (match behind blockCommentEnd (body ++ blockCommentEnd ++ (tail ++ rest)) with
        | some text => skipTriviaLoop fuel text
        | none => malformed "unterminated comment") = _
      rw [behind_blockCommentEnd hbody]
      exact hleft

theorem skipTriviaLoop_visible {rest : Text} (hrest : Visible rest) (fuel : ℕ) :
    skipTriviaLoop (fuel + 1) rest = .ok rest := by
  cases rest with
  | nil => rfl
  | cons c rest =>
      obtain ⟨hblank, hslash⟩ := hrest c rfl
      have hline : lineComment.isPrefixOf (c :: rest) = false := by
        simp [lineComment, List.isPrefixOf, Ne.symm hslash]
      have hblock : blockComment.isPrefixOf (c :: rest) = false := by
        simp [blockComment, List.isPrefixOf, Ne.symm hslash]
      rw [skipTriviaLoop, hblank, hline, hblock]
      rfl

theorem skipTrivia_append {front rest : Text} (hfront : IsTrivia front) (hrest : Visible rest) :
    skipTrivia (front ++ rest) = .ok rest := by
  have hfuel : front.length < (front ++ rest).length + 1 := by
    rw [List.length_append]
    omega
  obtain ⟨left, hleft⟩ := skipTriviaLoop_append hfront rest hfuel
  rw [skipTrivia, hleft, skipTriviaLoop_visible hrest]

theorem skipTrivia_closing {tail : Text} (htail : IsClosing tail) : skipTrivia tail = .ok [] := by
  cases htail with
  | trivia htext =>
      have h : skipTrivia (tail ++ []) = .ok [] :=
        skipTrivia_append htext (by intro c hc; cases hc)
      rwa [List.append_nil] at h
  | @line text body htext hbody =>
      have hfuel : text.length < (text ++ lineComment ++ body).length + 1 := by
        simp only [List.length_append]
        omega
      rw [List.append_assoc] at hfuel ⊢
      obtain ⟨left, hleft⟩ := skipTriviaLoop_append htext (lineComment ++ body) hfuel
      rw [skipTrivia, hleft]
      change skipTriviaLoop (left + 1) ('/' :: '/' :: body) = _
      rw [skipTriviaLoop, if_neg (by decide), if_pos (by simp [lineComment])]
      change (match behind ['\n'] body with
        | some text => skipTriviaLoop left text
        | none => .ok []) = _
      rw [behind_newline_none hbody]

/-! ## Tokens -/

/-- A property of characters that no blank and no slash has. -/
theorem visible_of {p : Char → Bool}
    (hp : [' ', '\t', '\n', '\r', '\x0c', '\x0b', '/'].any p = false) {c : Char}
    (hc : p c = true) : isAsciiWhitespace c = false ∧ c ≠ '/' := by
  have hne : ∀ d ∈ [' ', '\t', '\n', '\r', '\x0c', '\x0b', '/'], c ≠ d := by
    rintro d hd rfl
    exact List.any_eq_false.1 hp c hd hc
  simp only [List.forall_mem_cons] at hne
  simp [isAsciiWhitespace, hne]

theorem visible_nameStart {c : Char} (hc : isNameStart c = true) :
    isAsciiWhitespace c = false ∧ c ≠ '/' := visible_of (by decide) hc

theorem visible_valueChar {c : Char} (hc : isValueChar c = true) :
    isAsciiWhitespace c = false ∧ c ≠ '/' := visible_of (by decide) hc

theorem visible_cons {c : Char} {rest : Text} (hc : isAsciiWhitespace c = false ∧ c ≠ '/') :
    Visible (c :: rest) := by
  rintro d hd
  obtain rfl := Option.some_inj.1 hd
  exact hc

/-- Trivia begins with a blank or with a comment. -/
theorem IsTrivia.head {front : Text} (hfront : IsTrivia front) (hne : front ≠ []) (rest : Text) :
    ∃ c tail, front ++ rest = c :: tail ∧ (isAsciiWhitespace c = true ∨ c = '/') ∧
      endsBareValue (front ++ rest) = true := by
  cases hfront with
  | nil => exact absurd rfl hne
  | @blank c tail hblank htail =>
      refine ⟨c, tail ++ rest, rfl, Or.inl hblank, ?_⟩
      rw [List.cons_append, endsBareValue, hblank]
      rfl
  | @line body tail hbody htail =>
      refine ⟨'/', '/' :: (body ++ '\n' :: (tail ++ rest)), by simp [lineComment], Or.inr rfl, ?_⟩
      simp [lineComment, endsBareValue]
  | @block body tail hbody htail =>
      refine ⟨'/', '*' :: (body ++ blockCommentEnd ++ (tail ++ rest)), by simp [blockComment],
        Or.inr rfl, ?_⟩
      simp [blockComment, endsBareValue]

/-- Trivia and what follows it cannot go on a name. -/
theorem not_nameChar_of_trivia {front rest : Text} (hfront : IsTrivia front)
    (hrest : front = [] → ∀ c ∈ rest.head?, isNameChar c = false) :
    ∀ c ∈ (front ++ rest).head?, isNameChar c = false := by
  intro c hc
  by_cases hne : front = []
  · rw [hne, List.nil_append] at hc
    exact hrest hne c hc
  · obtain ⟨d, tail, htext, hd, -⟩ := hfront.head hne rest
    rw [htext] at hc
    obtain rfl := Option.some_inj.1 hc
    by_contra hname
    rw [Bool.not_eq_false] at hname
    obtain ⟨hblank, hslash⟩ := visible_of (p := isNameChar) (by decide) hname
    rcases hd with hd | hd
    · rw [hblank] at hd
      cases hd
    · exact hslash hd

theorem endsBareValue_of_trivia {front : Text} (hfront : IsTrivia front) (rest : Text) :
    endsBareValue (front ++ ';' :: rest) = true := by
  by_cases hne : front = []
  · rw [hne]
    rfl
  · obtain ⟨-, -, -, -, hends⟩ := hfront.head hne (';' :: rest)
    exact hends

theorem take_append {front rest : Text} {c : Char} (hfront : IsTrivia front)
    (hc : isAsciiWhitespace c = false ∧ c ≠ '/') :
    take c (front ++ c :: rest) = .ok (true, rest) := by
  rw [take, skipTrivia_append hfront (visible_cons hc)]
  change (if c = c then pure (true, rest) else _) = _
  rw [if_pos rfl]
  rfl

theorem take_here {c : Char} (hc : isAsciiWhitespace c = false ∧ c ≠ '/') (rest : Text) :
    take c (c :: rest) = .ok (true, rest) := take_append IsTrivia.nil hc

theorem take_other {front rest : Text} {c : Char} (hfront : IsTrivia front) (hrest : Visible rest)
    (hc : ∀ d ∈ rest.head?, d ≠ c) : take c (front ++ rest) = .ok (false, rest) := by
  rw [take, skipTrivia_append hfront hrest]
  cases rest with
  | nil => rfl
  | cons d rest =>
      change (if d = c then pure (true, rest) else pure (false, d :: rest)) = _
      rw [if_neg (hc d rfl)]
      rfl

theorem expect_append {front rest : Text} {c : Char} (hfront : IsTrivia front)
    (hc : isAsciiWhitespace c = false ∧ c ≠ '/') : expect c (front ++ c :: rest) = .ok rest := by
  rw [expect, take_append hfront hc]
  rfl

theorem IsName.visible {text : Text} (hname : IsName text) (rest : Text) : Visible (text ++ rest) := by
  intro c hc
  rw [List.head?_append_of_ne_nil _ hname.ne] at hc
  exact visible_nameStart (hname.start c hc)

theorem name_append {front text rest : Text} (hfront : IsTrivia front) (hname : IsName text)
    (hrest : ∀ c ∈ rest.head?, isNameChar c = false) :
    name (front ++ (text ++ rest)) = .ok (text, rest) := by
  have htake : (text ++ rest).takeWhile isNameChar = text ∧
      (text ++ rest).dropWhile isNameChar = rest := by
    rw [List.takeWhile_append_of_pos hname.chars, List.dropWhile_append_of_pos hname.chars]
    cases rest with
    | nil => simp
    | cons c rest => simp [hrest c rfl]
  rw [name, skipTrivia_append hfront (hname.visible rest)]
  cases text with
  | nil => exact absurd rfl hname.ne
  | cons first text =>
      have hstart := hname.start first rfl
      change (if !isNameStart first then _ else _) = _
      rw [hstart, htake.1, htake.2]
      rfl

theorem quotedValue_quote (rest : Text) : quotedValue ('"' :: rest) = .ok ([], rest) := by
  cases rest with
  | nil => rfl
  | cons c rest => rfl

theorem quotedValue_plain {c : Char} (hquote : c ≠ '"') (hline : isNewline c = false)
    (hbackslash : c ≠ '\\') (rest : Text) :
    quotedValue (c :: rest) = do
      let (value, rest) ← quotedValue rest
      return (c :: value, rest) := by
  cases rest with
  | nil =>
      conv_lhs => rw [quotedValue, if_neg hquote, hline, if_neg hbackslash]
      rfl
  | cons d rest =>
      conv_lhs => rw [quotedValue, if_neg hquote, hline, if_neg hbackslash]
      rfl

/-- Reading a quoted value undoes the escaping. -/
theorem quotedValue_escape {value : Text} (hvalue : ∀ c ∈ value, isNewline c = false)
    (rest : Text) : quotedValue (escape value ++ '"' :: rest) = .ok (value, rest) := by
  induction value with
  | nil => exact quotedValue_quote rest
  | cons c value ih =>
      obtain ⟨hc, hvalue⟩ := List.forall_mem_cons.1 hvalue
      have hrest := ih hvalue
      have hcons : escape (c :: value) =
          (if c = '\\' ∨ c = '"' then ['\\', c] else [c]) ++ escape value := List.flatMap_cons
      rw [hcons]
      by_cases hescaped : c = '\\' ∨ c = '"'
      · rw [if_pos hescaped]
        change quotedValue ('\\' :: c :: (escape value ++ '"' :: rest)) = _
        rw [quotedValue, if_neg (by decide), if_neg (by decide), if_pos rfl]
        have hplain : ¬(c ≠ '\\' ∧ c ≠ '"') := by tauto
        rw [hc, hrest, if_neg (by decide)]
        change (if c ≠ '\\' ∧ c ≠ '"' then _ else _) = _
        rw [if_neg hplain]
        rfl
      · rw [if_neg hescaped]
        rw [not_or] at hescaped
        change quotedValue (c :: (escape value ++ '"' :: rest)) = _
        rw [quotedValue_plain hescaped.2 hc hescaped.1, hrest]
        rfl

theorem bareValue_append {value rest : Text} (hvalue : ∀ c ∈ value, isValueChar c = true)
    (hrest : endsBareValue rest = true) : bareValue (value ++ rest) = .ok (value, rest) := by
  induction value with
  | nil =>
      cases rest with
      | nil => rfl
      | cons c rest =>
          rw [List.nil_append, bareValue, if_pos hrest]
          rfl
  | cons c value ih =>
      obtain ⟨hc, hvalue⟩ := List.forall_mem_cons.1 hvalue
      obtain ⟨hblank, hslash⟩ := visible_valueChar hc
      have hsemicolon : c ≠ ';' := by
        rintro rfl
        cases hc
      have hbrace : c ≠ '}' := by
        rintro rfl
        cases hc
      have hgoes : endsBareValue (c :: (value ++ rest)) = false := by
        simp [endsBareValue, hblank, hsemicolon, hbrace, lineComment, blockComment,
          List.isPrefixOf, Ne.symm hslash]
      rw [List.cons_append, bareValue, hgoes, hc, ih hvalue]
      rfl

theorem literal_append {front rest : Text} {value : MofLiteral} (hfront : IsTrivia front)
    (hvalue : value.WellFormed) (hrest : endsBareValue rest = true) :
    literal (front ++ (value.written ++ rest)) = .ok (value, rest) := by
  obtain ⟨text, quoted⟩ := value
  cases quoted with
  | true =>
      have hwritten : (MofLiteral.written ⟨text, true⟩) ++ rest =
          '"' :: (escape text ++ '"' :: rest) := by simp [MofLiteral.written]
      have hquote := take_here (c := '"') (by decide) (escape text ++ '"' :: rest)
      rw [hwritten, literal, skipTrivia_append hfront (visible_cons (by decide))]
      change (do
        let (quoted, text) ← take '"' ('"' :: (escape text ++ '"' :: rest))
        _) = _
      rw [hquote]
      change (do
        let (value, text) ← quotedValue (escape text ++ '"' :: rest)
        pure (MofLiteral.mk value true, text)) = _
      rw [quotedValue_escape hvalue]
      rfl
  | false =>
      obtain ⟨hne, hchars⟩ := hvalue
      have hwritten : (MofLiteral.written ⟨text, false⟩) ++ rest = text ++ rest := rfl
      have hhead : ∀ c ∈ (text ++ rest).head?, isValueChar c = true := by
        intro c hc
        rw [List.head?_append_of_ne_nil _ hne] at hc
        exact hchars c (List.mem_of_mem_head? hc)
      have hvisible : Visible (text ++ rest) := fun c hc => visible_valueChar (hhead c hc)
      have hquote := take_other IsTrivia.nil hvisible (c := '"') (by
        rintro c hc rfl
        cases hhead _ hc)
      rw [List.nil_append] at hquote
      rw [hwritten, literal, skipTrivia_append hfront hvisible]
      change (do
        let (quoted, text) ← take '"' (text ++ rest)
        _) = _
      rw [hquote]
      change (do
        let (value, text) ← bareValue (text ++ rest)
        if value.isEmpty then malformed "missing property value"
          else pure (MofLiteral.mk value false, text)) = _
      rw [bareValue_append hchars hrest]
      change (if text.isEmpty then _ else _) = _
      rw [List.isEmpty_eq_false_iff.2 hne]
      rfl

/-! ## The properties in turn -/

/-- The value that is found when the properties are taken in turn. -/
def lookupFrom (wanted : Text) : List Text → Option MofLiteral → List MofProperty →
    Except MofFailure (Option MofLiteral)
  | _, found, [] => .ok found
  | properties, found, (key, value) :: rest =>
      if properties.contains (toLowerAscii key) then malformed "duplicate property"
      else
        lookupFrom wanted (toLowerAscii key :: properties)
          (if toLowerAscii key = wanted then some value else found) rest

theorem IsAssignment.read {value : MofLiteral} {text : Text} (htext : IsAssignment value text)
    (rest : Text) :
    ∃ second third, expect '=' (text ++ rest) = .ok second ∧
      literal second = .ok (value, third) ∧ expect ';' third = .ok rest := by
  cases htext with
  | @intro first second third hvalue hfirst hsecond hthird =>
      have hsemicolon : endsBareValue (third ++ ';' :: rest) = true :=
        endsBareValue_of_trivia hthird rest
      have htext : first ++ '=' :: second ++ value.written ++ third ++ [';'] ++ rest =
          first ++ '=' :: (second ++ (value.written ++ (third ++ ';' :: rest))) := by simp
      refine ⟨_, third ++ ';' :: rest, ?_, literal_append hsecond hvalue hsemicolon,
        expect_append hthird (by decide)⟩
      rw [htext]
      exact expect_append hfirst (by decide)

/-- Behind a name an assignment begins with trivia or with its sign. -/
theorem IsAssignment.head {value : MofLiteral} {text : Text} (htext : IsAssignment value text)
    (rest : Text) : ∀ c ∈ (text ++ rest).head?, isNameChar c = false := by
  cases htext with
  | @intro first second third hvalue hfirst hsecond hthird =>
      have htext : first ++ '=' :: second ++ value.written ++ third ++ [';'] ++ rest =
          first ++ '=' :: (second ++ (value.written ++ (third ++ ';' :: rest))) := by simp
      rw [htext]
      apply not_nameChar_of_trivia hfirst
      intro _ c hc
      obtain rfl := Option.some_inj.1 hc
      rfl

section FindLoop

variable (wanted : Text) (wrapped : Bool) (fuel : ℕ) (properties : List Text)
  (found : Option MofLiteral)

/-- What the loop does behind the name of a property. -/
theorem findLoop_key {first : Option Text} {key assignment text visible : Text}
    {value : MofLiteral} (hassignment : IsAssignment value assignment) (rest : Text)
    (hskip : skipTrivia text = .ok visible)
    (hclosing : takeClosing wrapped visible = .ok (false, visible)) (hne : visible ≠ [])
    (hkey : nextKey first visible = .ok (key, assignment ++ rest)) :
    findLoop wanted wrapped (fuel + 1) first properties found text =
      if properties.contains (toLowerAscii key) then malformed "duplicate property"
      else
        findLoop wanted wrapped fuel none (toLowerAscii key :: properties)
          (if toLowerAscii key = wanted then some value else found) rest := by
  obtain ⟨second, third, hequals, hvalue, hsemicolon⟩ := hassignment.read rest
  rw [findLoop, hskip]
  change (do
    let (closed, text) ← takeClosing wrapped visible
    _) = _
  rw [hclosing]
  change (if visible.isEmpty then _ else do
    let (key, text) ← nextKey first visible
    _) = _
  rw [List.isEmpty_eq_false_iff.2 hne, if_neg (by decide), hkey]
  change (do
    let text ← expect '=' (assignment ++ rest)
    _) = _
  rw [hequals]
  change (do
    let (value, text) ← literal second
    _) = _
  rw [hvalue]
  change (do
    let text ← expect ';' third
    _) = _
  rw [hsemicolon]
  rfl

theorem findLoop_property {front key assignment : Text} {value : MofLiteral}
    (hfront : IsTrivia front) (hkey : IsName key) (hassignment : IsAssignment value assignment)
    (rest : Text) :
    findLoop wanted wrapped (fuel + 1) none properties found
        (front ++ (key ++ (assignment ++ rest))) =
      if properties.contains (toLowerAscii key) then malformed "duplicate property"
      else
        findLoop wanted wrapped fuel none (toLowerAscii key :: properties)
          (if toLowerAscii key = wanted then some value else found) rest := by
  have hvisible := hkey.visible (assignment ++ rest)
  have hne : key ++ (assignment ++ rest) ≠ [] := fun h => hkey.ne (List.append_eq_nil_iff.1 h).1
  have hname : nextKey none (key ++ (assignment ++ rest)) = .ok (key, assignment ++ rest) :=
    name_append IsTrivia.nil hkey (hassignment.head rest)
  apply findLoop_key wanted wrapped fuel properties found hassignment rest
    (skipTrivia_append hfront hvisible) _ hne hname
  cases wrapped with
  | false => rfl
  | true =>
      apply take_other IsTrivia.nil hvisible
      rintro c hc rfl
      rw [List.head?_append_of_ne_nil _ hkey.ne] at hc
      cases hkey.start _ hc

/-- The loop over a list of properties gives what the text behind the list makes of it. -/
theorem findLoop_list {list tail : Text} {items : List MofProperty}
    (hlist : IsPropertyList items list)
    (htail : ∀ fuel properties found,
      findLoop wanted wrapped (fuel + 1) none properties found tail = .ok found)
    (hfuel : items.length < fuel) :
    findLoop wanted wrapped fuel none properties found (list ++ tail) =
      lookupFrom wanted properties found items := by
  induction hlist generalizing fuel properties found with
  | nil =>
      obtain ⟨fuel, rfl⟩ := Nat.exists_eq_succ_of_ne_zero (Nat.ne_of_gt hfuel)
      exact htail fuel properties found
  | @cons key value items front assignment rest hfront hkey hassignment hrest ih =>
      obtain ⟨fuel, rfl⟩ := Nat.exists_eq_succ_of_ne_zero (Nat.ne_zero_of_lt hfuel)
      have htext : front ++ key ++ assignment ++ rest ++ tail =
          front ++ (key ++ (assignment ++ (rest ++ tail))) := by simp
      rw [htext, findLoop_property wanted wrapped fuel properties found hfront hkey hassignment,
        lookupFrom]
      split
      next => rfl
      next => exact ih fuel _ _ (Nat.lt_of_succ_lt_succ hfuel)

/-- A list that is not wrapped ends with the text. -/
theorem findLoop_closing {tail : Text} (htail : IsClosing tail) :
    findLoop wanted false (fuel + 1) none properties found tail = .ok found := by
  rw [findLoop, skipTrivia_closing htail]
  rfl

/-- A wrapped list ends with a brace and a semicolon. -/
theorem findLoop_brace {first second tail : Text} (hfirst : IsTrivia first)
    (hsecond : IsTrivia second) (htail : IsClosing tail) :
    findLoop wanted true (fuel + 1) none properties found
      (first ++ '}' :: (second ++ ';' :: tail)) = .ok found := by
  have hbrace := take_here (c := '}') (by decide) (second ++ ';' :: tail)
  rw [findLoop, skipTrivia_append hfirst (visible_cons (by decide))]
  change (do
    let (closed, text) ← take '}' ('}' :: (second ++ ';' :: tail))
    _) = _
  rw [hbrace]
  change (do
    let text ← expect ';' (second ++ ';' :: tail)
    _) = _
  rw [expect_append hsecond (by decide)]
  change (do
    let text ← skipTrivia tail
    _) = _
  rw [skipTrivia_closing htail]
  rfl

theorem findLoop_body {items : List MofProperty} {body : Text} (hbody : IsBody items body)
    (hfuel : items.length < fuel) :
    findLoop wanted true fuel none properties found body =
      lookupFrom wanted properties found items := by
  cases hbody with
  | @intro list first second tail hlist hfirst hsecond htail =>
      have htext : list ++ first ++ '}' :: second ++ ';' :: tail =
          list ++ (first ++ '}' :: (second ++ ';' :: tail)) := by simp
      rw [htext]
      exact findLoop_list wanted true fuel properties found hlist
        (fun fuel properties found =>
          findLoop_brace wanted fuel properties found hfirst hsecond htail) hfuel

end FindLoop

/-! ## Whole instances -/

theorem IsPropertyList.length_le {items : List MofProperty} {list : Text}
    (hlist : IsPropertyList items list) : items.length ≤ list.length := by
  induction hlist with
  | nil => exact le_rfl
  | @cons key value items front assignment rest _ hkey _ _ ih =>
      have hne := List.length_pos_iff.2 hkey.ne
      simp only [List.length_cons, List.length_append]
      omega

theorem IsBody.length_le {items : List MofProperty} {body : Text} (hbody : IsBody items body) :
    items.length ≤ body.length := by
  cases hbody with
  | @intro list first second tail hlist _ _ _ =>
      have hle := hlist.length_le
      simp only [List.length_append]
      omega

/-- Behind its blanks an assignment begins with its sign. -/
theorem IsAssignment.take_brace {value : MofLiteral} {assignment : Text}
    (hassignment : IsAssignment value assignment) (rest : Text) :
    ∃ visible, IsAssignment value visible ∧ Visible (visible ++ rest) ∧ visible ≠ [] ∧
      take '{' (assignment ++ rest) = .ok (false, visible ++ rest) := by
  cases hassignment with
  | @intro first second third hvalue hfirst hsecond hthird =>
      have hsame := IsAssignment.intro hvalue IsTrivia.nil hsecond hthird
      refine ⟨_, hsame, visible_cons (by decide), by simp, ?_⟩
      have htext : first ++ '=' :: second ++ value.written ++ third ++ [';'] ++ rest =
          first ++ ([] ++ '=' :: second ++ value.written ++ third ++ [';'] ++ rest) := by simp
      rw [htext]
      apply take_other hfirst (visible_cons (by decide))
      intro c hc
      obtain rfl := Option.some_inj.1 hc
      decide

/-- A letter of a keyword may be written in upper case. -/
theorem isAlpha_of_lowerAscii {c : Char} (hc : 'a' ≤ lowerAscii c ∧ lowerAscii c ≤ 'z') :
    c.isAlpha = true := by
  rw [lowerAscii] at hc
  change (c.isUpper || c.isLower) = true
  rw [Bool.or_eq_true]
  split at hc
  next hupper =>
    left
    exact decide_eq_true hupper
  next =>
    right
    exact Bool.and_eq_true_iff.2 ⟨decide_eq_true hc.1, decide_eq_true hc.2⟩

theorem IsKeyword.isName {keyword : String} {text : Text} (htext : IsKeyword keyword text)
    (hne : keyword.toList ≠ [])
    (hletters : (keyword.toList.all fun c => 'a' ≤ c ∧ c ≤ 'z') = true) :
    IsName text := by
  have halpha : ∀ c ∈ text, c.isAlpha = true := by
    intro c hc
    have hmem : lowerAscii c ∈ keyword.toList := by
      rw [← htext]
      exact List.mem_map_of_mem hc
    exact isAlpha_of_lowerAscii (of_decide_eq_true (List.all_eq_true.1 hletters _ hmem))
  refine ⟨?_, ?_, ?_⟩
  · intro c hc
    rw [isNameStart, halpha c (List.mem_of_mem_head? hc)]
    rfl
  · rintro rfl
    exact hne htext.symm
  · intro c hc
    rw [isNameChar, Char.isAlphanum, halpha c hc]
    rfl

/-- No brace opens where a name begins. -/
theorem take_brace_name {text : Text} (hname : IsName text) (rest : Text) :
    take '{' (text ++ rest) = .ok (false, text ++ rest) := by
  apply take_other IsTrivia.nil (hname.visible rest)
  rintro c hc rfl
  rw [List.head?_append_of_ne_nil _ hname.ne] at hc
  cases hname.start _ hc

section Find

variable (property : Text) {items : List MofProperty}

/-- A name that begins an instance is read before it is known what it is. -/
theorem find_name {front text rest : Text} (hfront : IsTrivia front) (hname : IsName text)
    (hrest : ∀ c ∈ rest.head?, isNameChar c = false) :
    find (front ++ (text ++ rest)) property = (do
      let fuel := (front ++ (text ++ rest)).length + 1
      let wanted := toLowerAscii property
      if toLowerAscii text = "instance".toList then
        let (of, text) ← name rest
        if toLowerAscii of ≠ "of".toList then malformed "expected 'of' after 'instance'"
        else
          let (_, text) ← name text
          let text ← expect '{' text
          findLoop wanted true fuel none [] none text
      else
        let (braced, rest) ← take '{' rest
        if braced then findLoop wanted true fuel none [] none rest
        else findLoop wanted false fuel (some text) [] none rest) := by
  have hne : text ++ rest ≠ [] := fun h => hname.ne (List.append_eq_nil_iff.1 h).1
  have hread := name_append IsTrivia.nil hname hrest
  rw [List.nil_append] at hread
  rw [find, skipTrivia_append hfront (hname.visible rest)]
  change (if (text ++ rest).isEmpty then _ else do
    let (braced, text) ← take '{' (text ++ rest)
    _) = _
  rw [List.isEmpty_eq_false_iff.2 hne, if_neg (by decide), take_brace_name hname]
  change (do
    let (first, text) ← name (text ++ rest)
    _) = _
  rw [hread]
  rfl

theorem find_braces {front body : Text} (hfront : IsTrivia front) (hbody : IsBody items body) :
    find (front ++ '{' :: body) property = lookupFrom (toLowerAscii property) [] none items := by
  have hlength := hbody.length_le
  have hbrace := take_here (c := '{') (by decide) body
  rw [find, skipTrivia_append hfront (visible_cons (by decide))]
  change (do
    let (braced, text) ← take '{' ('{' :: body)
    _) = _
  rw [hbrace]
  apply findLoop_body _ _ _ _ hbody
  simp only [List.length_append, List.length_cons]
  omega

theorem find_named {front className second body : Text} (hfront : IsTrivia front)
    (hname : IsName className) (hkeyword : ¬IsKeyword "instance" className)
    (hsecond : IsTrivia second) (hbody : IsBody items body) :
    find (front ++ className ++ second ++ '{' :: body) property =
      lookupFrom (toLowerAscii property) [] none items := by
  have hlength := hbody.length_le
  have hrest : ∀ c ∈ (second ++ '{' :: body).head?, isNameChar c = false := by
    apply not_nameChar_of_trivia hsecond
    intro _ c hc
    obtain rfl := Option.some_inj.1 hc
    rfl
  rw [List.append_assoc, List.append_assoc, find_name property hfront hname hrest]
  dsimp only
  have hclass : toLowerAscii className ≠ "instance".toList := hkeyword
  rw [if_neg hclass, take_append hsecond (by decide)]
  apply findLoop_body _ _ _ _ hbody
  simp only [List.length_append, List.length_cons]
  omega

theorem find_instanceOf {front keyword second of third className fourth body : Text}
    (hfront : IsTrivia front) (hkeyword : IsKeyword "instance" keyword) (hsecond : IsTrivia second)
    (hsecondNe : second ≠ []) (hof : IsKeyword "of" of) (hthird : IsTrivia third)
    (hthirdNe : third ≠ []) (hname : IsName className) (hfourth : IsTrivia fourth)
    (hbody : IsBody items body) :
    find (front ++ keyword ++ second ++ of ++ third ++ className ++ fourth ++ '{' :: body) property =
      lookupFrom (toLowerAscii property) [] none items := by
  have hlength := hbody.length_le
  have hbrace : ∀ c ∈ (fourth ++ '{' :: body).head?, isNameChar c = false := by
    apply not_nameChar_of_trivia hfourth
    intro _ c hc
    obtain rfl := Option.some_inj.1 hc
    rfl
  have hclass := name_append hthird hname hbrace
  have hofName : IsName of := hof.isName (by decide) (by decide)
  have hofEnd : ∀ c ∈ (third ++ (className ++ (fourth ++ '{' :: body))).head?,
      isNameChar c = false := not_nameChar_of_trivia hthird fun h => absurd h hthirdNe
  have hofRead := name_append hsecond hofName hofEnd
  have hkeywordName : IsName keyword := hkeyword.isName (by decide) (by decide)
  have hrest : ∀ c ∈ (second ++ (of ++ (third ++ (className ++ (fourth ++ '{' :: body))))).head?,
      isNameChar c = false := not_nameChar_of_trivia hsecond fun h => absurd h hsecondNe
  have htext : front ++ keyword ++ second ++ of ++ third ++ className ++ fourth ++ '{' :: body =
      front ++ (keyword ++ (second ++ (of ++ (third ++ (className ++ (fourth ++ '{' :: body)))))) := by
    simp only [List.append_assoc]
  rw [htext, find_name property hfront hkeywordName hrest]
  dsimp only
  have hword : toLowerAscii keyword = "instance".toList := hkeyword
  rw [if_pos hword, hofRead]
  change (if toLowerAscii of ≠ "of".toList then _ else do
    let (_, text) ← name (third ++ (className ++ (fourth ++ '{' :: body)))
    _) = _
  have hofWord : ¬toLowerAscii of ≠ "of".toList := not_not.2 hof
  rw [if_neg hofWord, hclass]
  change (do
    let text ← expect '{' (fourth ++ '{' :: body)
    _) = _
  rw [expect_append hfourth (by decide)]
  apply findLoop_body _ _ _ _ hbody
  simp only [List.length_append, List.length_cons]
  omega

theorem find_bare {list tail : Text} (hlist : IsPropertyList items list)
    (hfirst : ∀ property ∈ items.head?, ¬IsKeyword "instance" property.1)
    (htail : IsClosing tail) :
    find (list ++ tail) property = lookupFrom (toLowerAscii property) [] none items := by
  cases hlist with
  | nil =>
      rw [List.nil_append, find, skipTrivia_closing htail]
      rfl
  | @cons key value items front assignment rest hfront hkey hassignment hrest =>
      have hkeyword : toLowerAscii key ≠ "instance".toList := hfirst (key, value) rfl
      have hlength := hrest.length_le
      have hkeyLength := List.length_pos_iff.2 hkey.ne
      obtain ⟨visible, hvisible, hhead, hne, htake⟩ := hassignment.take_brace (rest ++ tail)
      have htext : front ++ key ++ assignment ++ rest ++ tail =
          front ++ (key ++ (assignment ++ (rest ++ tail))) := by simp
      have hskip := skipTrivia_append IsTrivia.nil hhead
      rw [List.nil_append] at hskip
      rw [htext, find_name property hfront hkey (hassignment.head _)]
      dsimp only
      rw [if_neg hkeyword, htake]
      change findLoop _ false _ (some key) [] none (visible ++ (rest ++ tail)) = _
      rw [findLoop_key _ false _ [] none hvisible (rest ++ tail) hskip rfl
        (fun h => hne (List.append_eq_nil_iff.1 h).1) rfl, lookupFrom]
      split
      next => rfl
      next =>
        apply findLoop_list _ false _ _ _ hrest
        · intro fuel properties found
          exact findLoop_closing _ fuel properties found htail
        · simp only [List.length_append]
          omega

/-- A lookup in a well-formed text takes its properties in turn. -/
theorem find_instance {text : Text} (htext : IsInstance items text) :
    find text property = lookupFrom (toLowerAscii property) [] none items := by
  cases htext with
  | bare hlist hfirst htail => exact find_bare property hlist hfirst htail
  | braces hfront hbody => exact find_braces property hfront hbody
  | named hfront hname hkeyword hsecond hbody =>
      exact find_named property hfront hname hkeyword hsecond hbody
  | instanceOf hfront hkeyword hsecond hsecondNe hof hthird hthirdNe hname hfourth hbody =>
      exact find_instanceOf property hfront hkeyword hsecond hsecondNe hof hthird hthirdNe hname
        hfourth hbody

end Find

/-! ## What is looked up -/

/-- The name of a property without its case. -/
def MofProperty.folded (property : MofProperty) : Text := toLowerAscii property.1

theorem lookupFrom_of_nodup {wanted : Text} {items : List MofProperty} {properties : List Text}
    {found : Option MofLiteral} (hnodup : (items.map MofProperty.folded).Nodup)
    (hnew : ∀ item ∈ items, item.folded ∉ properties) :
    lookupFrom wanted properties found items =
      .ok (((items.find? fun item => item.folded = wanted).map Prod.snd).or found) := by
  induction items generalizing properties found with
  | nil => rfl
  | cons item items ih =>
      obtain ⟨key, value⟩ := item
      rw [List.map_cons, List.nodup_cons] at hnodup
      obtain ⟨hitem, hrest⟩ := List.forall_mem_cons.1 hnew
      have hnext : ∀ other ∈ items, other.folded ∉ toLowerAscii key :: properties := by
        intro other hother hmem
        rcases List.mem_cons.1 hmem with hsame | hmem
        · exact hnodup.1 (List.mem_map.2 ⟨other, hother, hsame⟩)
        · exact hrest other hother hmem
      have hseen : ¬properties.contains (toLowerAscii key) = true :=
        fun h => hitem (List.contains_iff_mem.1 h)
      rw [lookupFrom, if_neg hseen, ih hnodup.2 hnext, List.find?_cons]
      by_cases hwanted : toLowerAscii key = wanted
      · have hnone : (items.find? fun item => item.folded = wanted) = none := by
          rw [List.find?_eq_none]
          intro other hother hfolded
          apply hnodup.1
          rw [decide_eq_true_eq] at hfolded
          exact List.mem_map.2 ⟨other, hother, hfolded.trans hwanted.symm⟩
        rw [if_pos hwanted, hnone]
        simp [MofProperty.folded, hwanted]
      · rw [if_neg hwanted]
        simp [MofProperty.folded, hwanted]

/-- A name that was read before makes the lookup fail. -/
theorem lookupFrom_of_duplicate {wanted : Text} {items : List MofProperty}
    {properties : List Text} {found : Option MofLiteral}
    (hduplicate : ¬(items.map MofProperty.folded).Nodup ∨ ∃ item ∈ items, item.folded ∈ properties) :
    lookupFrom wanted properties found items = malformed "duplicate property" := by
  induction items generalizing properties found with
  | nil =>
      rcases hduplicate with h | ⟨item, hmem, -⟩
      · exact absurd List.nodup_nil h
      · cases hmem
  | cons item items ih =>
      obtain ⟨key, value⟩ := item
      rw [lookupFrom]
      by_cases hseen : properties.contains (toLowerAscii key) = true
      · rw [if_pos hseen]
      · rw [if_neg hseen]
        apply ih
        rcases hduplicate with h | ⟨item, hmem, hitem⟩
        · rw [List.map_cons, List.nodup_cons, not_and_or, not_not] at h
          rcases h with h | h
          · obtain ⟨other, hother, hsame⟩ := List.mem_map.1 h
            exact Or.inr ⟨other, hother, hsame ▸ List.mem_cons_self⟩
          · exact Or.inl h
        · rcases List.mem_cons.1 hmem with rfl | hmem
          · exact absurd (List.contains_iff_mem.2 hitem) hseen
          · exact Or.inr ⟨item, hmem, List.mem_cons_of_mem _ hitem⟩

/-! ## The scan ends -/

/-- Every loop of the computation was followed to its end. -/
def Ends {α : Type*} (result : Except MofFailure α) : Prop := result ≠ .error .unfinished

theorem ends_ok {α : Type*} (a : α) : Ends (.ok a : Except MofFailure α) := by
  intro h
  cases h

theorem ends_malformed {α : Type*} (reason : String) :
    Ends (malformed reason : Except MofFailure α) := by
  intro h
  cases h

theorem ends_bind {α β : Type} {first : Except MofFailure α} {next : α → Except MofFailure β}
    (hfirst : Ends first) (hnext : ∀ a, first = .ok a → Ends (next a)) : Ends (first >>= next) := by
  cases first with
  | error failure =>
      intro h
      apply hfirst
      cases h
      rfl
  | ok a => exact hnext a rfl

/-- A result of two parts, one of them the text that is left: it is no longer than before. -/
structure Reads {α : Type*} (text : Text) (result : Except MofFailure (α × Text)) : Prop where
  ends : Ends result
  shorter : ∀ a rest, result = .ok (a, rest) → rest.length ≤ text.length

theorem reads_ok {α : Type*} {text rest : Text} (a : α) (hrest : rest.length ≤ text.length) :
    Reads text (.ok (a, rest) : Except MofFailure (α × Text)) where
  ends := ends_ok _
  shorter := by
    intro b other h
    cases h
    exact hrest

theorem reads_malformed {α : Type*} (text : Text) (reason : String) :
    Reads text (malformed reason : Except MofFailure (α × Text)) where
  ends := ends_malformed reason
  shorter := by
    intro a rest h
    cases h

theorem reads_bind {α β : Type} {text middle : Text} {first : Except MofFailure (α × Text)}
    {next : α × Text → Except MofFailure (β × Text)} (hfirst : Reads middle first)
    (hmiddle : middle.length ≤ text.length)
    (hnext : ∀ a rest, rest.length ≤ middle.length → Reads rest (next (a, rest))) :
    Reads text (first >>= next) := by
  refine ⟨ends_bind hfirst.ends ?_, ?_⟩
  · rintro ⟨a, rest⟩ ha
    exact (hnext a rest (hfirst.shorter a rest ha)).ends
  · intro b other h
    cases first with
    | error failure => cases h
    | ok result =>
        obtain ⟨a, rest⟩ := result
        have hrest := hfirst.shorter a rest rfl
        have hother := (hnext a rest hrest).shorter b other h
        omega

theorem length_behind {pattern text rest : Text} (h : behind pattern text = some rest) :
    rest.length ≤ text.length := by
  induction text with
  | nil => cases h
  | cons c text ih =>
      rw [behind] at h
      split at h
      · obtain rfl := Option.some_inj.1 h
        rw [List.length_drop]
        omega
      · have hle := ih h
        rw [List.length_cons]
        omega

/-- The text that is left is no longer than before. -/
structure Skips (text : Text) (result : Except MofFailure Text) : Prop where
  ends : Ends result
  shorter : ∀ rest, result = .ok rest → rest.length ≤ text.length

theorem skips_ok {text rest : Text} (hrest : rest.length ≤ text.length) :
    Skips text (.ok rest) where
  ends := ends_ok _
  shorter := by
    intro other h
    obtain rfl := Except.ok.inj h
    exact hrest

theorem skips_malformed (text : Text) (reason : String) : Skips text (malformed reason) where
  ends := ends_malformed reason
  shorter := by
    intro rest h
    cases h

theorem Skips.of_shorter {text next : Text} {result : Except MofFailure Text}
    (hskips : Skips next result) (hnext : next.length ≤ text.length) : Skips text result where
  ends := hskips.ends
  shorter rest h := (hskips.shorter rest h).trans hnext

/-- The text behind a blank or a comment is shorter, so the loop is followed often enough. -/
theorem skipTriviaLoop_skips {fuel : ℕ} {text : Text} (hfuel : text.length < fuel) :
    Skips text (skipTriviaLoop fuel text) := by
  induction fuel generalizing text with
  | zero => omega
  | succ fuel ih =>
      cases text with
      | nil => exact skips_ok le_rfl
      | cons c text =>
          rw [List.length_cons] at hfuel
          have hon : ∀ next : Text, next.length ≤ text.length →
              Skips (c :: text) (skipTriviaLoop fuel next) := fun next hnext =>
            (ih (by omega)).of_shorter (Nat.le_succ_of_le hnext)
          have hcomment : ∀ {pattern next : Text},
              behind pattern ((c :: text).drop 2) = some next → next.length ≤ text.length := by
            intro pattern next h
            have hle := length_behind h
            rw [List.drop_succ_cons, List.length_drop] at hle
            omega
          rw [skipTriviaLoop]
          split
          · exact hon text le_rfl
          · split
            · cases hbehind : behind ['\n'] ((c :: text).drop 2) with
              | some next => exact hon next (hcomment hbehind)
              | none => exact skips_ok (Nat.zero_le _)
            · split
              · cases hbehind : behind blockCommentEnd ((c :: text).drop 2) with
                | some next => exact hon next (hcomment hbehind)
                | none => exact skips_malformed _ _
              · exact skips_ok le_rfl

theorem skipTrivia_skips (text : Text) : Skips text (skipTrivia text) :=
  skipTriviaLoop_skips (Nat.lt_succ_self _)

theorem skipTrivia_ends (text : Text) : Ends (skipTrivia text) := (skipTrivia_skips text).ends

theorem length_skipTrivia {text rest : Text} (h : skipTrivia text = .ok rest) :
    rest.length ≤ text.length := (skipTrivia_skips text).shorter rest h

/-- What is read behind the blanks is read from the text. -/
theorem reads_skipTrivia {α : Type} {text : Text}
    {next : Text → Except MofFailure (α × Text)}
    (hnext : ∀ visible : Text, visible.length ≤ text.length → Reads text (next visible)) :
    Reads text (skipTrivia text >>= next) := by
  refine ⟨ends_bind (skipTrivia_ends text) fun visible hskip =>
    (hnext visible (length_skipTrivia hskip)).ends, fun a rest h => ?_⟩
  cases hskip : skipTrivia text with
  | error failure =>
      rw [hskip] at h
      cases h
  | ok visible =>
      rw [hskip] at h
      exact (hnext visible (length_skipTrivia hskip)).shorter a rest h

theorem take_reads (c : Char) (text : Text) : Reads text (take c text) := by
  apply reads_skipTrivia
  intro visible hle
  cases visible with
  | nil => exact reads_ok false (Nat.zero_le _)
  | cons first rest =>
      rw [List.length_cons] at hle
      dsimp only
      split
      · exact reads_ok true (by omega)
      · exact reads_ok false (by rw [List.length_cons]; omega)

/-- A character that is taken is gone. -/
theorem length_take {c : Char} {text rest : Text} (h : take c text = .ok (true, rest)) :
    rest.length < text.length := by
  rw [take] at h
  cases hskip : skipTrivia text with
  | error failure =>
      rw [hskip] at h
      cases h
  | ok visible =>
      have hle := length_skipTrivia hskip
      rw [hskip] at h
      cases visible with
      | nil => cases h
      | cons first tail =>
          change (if first = c then pure (true, tail) else pure (false, first :: tail)) = _ at h
          split at h
          · cases h
            exact hle
          · cases h

theorem expect_ends (c : Char) (text : Text) : Ends (expect c text) := by
  apply ends_bind (take_reads c text).ends
  rintro ⟨taken, rest⟩ -
  dsimp only
  split
  · exact ends_ok _
  · exact ends_malformed _

theorem length_expect {c : Char} {text rest : Text} (h : expect c text = .ok rest) :
    rest.length < text.length := by
  rw [expect] at h
  cases htake : take c text with
  | error failure =>
      rw [htake] at h
      cases h
  | ok result =>
      obtain ⟨taken, after⟩ := result
      rw [htake] at h
      cases taken with
      | false => cases h
      | true =>
          obtain rfl : after = rest := Except.ok.inj h
          exact length_take htake

theorem name_reads (text : Text) : Reads text (name text) := by
  apply reads_skipTrivia
  intro visible hle
  cases visible with
  | nil => exact reads_malformed text _
  | cons first rest =>
      dsimp only
      split
      · exact reads_malformed text _
      · apply reads_ok
        exact ((List.dropWhile_suffix _).length_le).trans hle

theorem quotedValue_reads (text : Text) : Reads text (quotedValue text) := by
  induction text using quotedValue.induct with
  | case1 => exact reads_malformed _ _
  | case2 rest =>
      rw [quotedValue_quote]
      exact reads_ok [] (Nat.le_succ _)
  | case3 c rest hquote hline =>
      have hrefused : quotedValue (c :: rest) = malformed "newline inside a quoted value" := by
        cases rest with
        | nil => rw [quotedValue, if_neg hquote, if_pos hline]
        | cons d rest => rw [quotedValue, if_neg hquote, if_pos hline]
      rw [hrefused]
      exact reads_malformed _ _
  | case4 => exact reads_malformed _ _
  | case5 escaped rest hline hquote hplain =>
      rw [quotedValue, if_neg hquote, if_neg hplain, if_pos rfl, if_pos hline]
      exact reads_malformed _ _
  | case6 escaped rest hline hquote hplain ih =>
      rw [quotedValue, if_neg hquote, if_neg hplain, if_pos rfl, if_neg hline]
      apply reads_bind ih (Nat.le_add_right _ 2)
      intro value after _
      dsimp only
      split
      · exact reads_ok _ le_rfl
      · exact reads_ok _ le_rfl
  | case7 c rest hquote hline hbackslash ih =>
      rw [quotedValue_plain hquote (Bool.eq_false_iff.2 hline) hbackslash]
      apply reads_bind ih (Nat.le_succ _)
      intro value after _
      exact reads_ok _ le_rfl

theorem bareValue_reads (text : Text) : Reads text (bareValue text) := by
  induction text with
  | nil => exact reads_ok [] le_rfl
  | cons c rest ih =>
      rw [bareValue]
      split
      · exact reads_ok [] le_rfl
      · split
        · exact reads_malformed _ _
        · apply reads_bind ih (Nat.le_succ _)
          intro value after _
          exact reads_ok _ le_rfl

theorem literal_reads (text : Text) : Reads text (literal text) := by
  apply reads_skipTrivia
  intro visible hle
  apply reads_bind (take_reads '"' visible) hle
  intro quoted rest _
  dsimp only
  split
  · apply reads_bind (quotedValue_reads rest) le_rfl
    intro value after _
    exact reads_ok _ le_rfl
  · apply reads_bind (bareValue_reads rest) le_rfl
    intro value after _
    dsimp only
    split
    · exact reads_malformed _ _
    · exact reads_ok _ le_rfl

theorem takeClosing_reads (wrapped : Bool) (text : Text) : Reads text (takeClosing wrapped text) := by
  cases wrapped with
  | false => exact reads_ok false le_rfl
  | true => exact take_reads '}' text

theorem nextKey_reads (first : Option Text) (text : Text) : Reads text (nextKey first text) := by
  cases first with
  | some key => exact reads_ok key le_rfl
  | none => exact name_reads text

/-- Each property takes a piece of the text, so the loop is followed often enough. -/
theorem findLoop_ends (wanted : Text) (wrapped : Bool) {fuel : ℕ} (first : Option Text)
    (properties : List Text) (found : Option MofLiteral) {text : Text}
    (hfuel : text.length < fuel) :
    Ends (findLoop wanted wrapped fuel first properties found text) := by
  induction fuel generalizing first properties found text with
  | zero => omega
  | succ fuel ih =>
      rw [findLoop]
      apply ends_bind (skipTrivia_ends text)
      intro visible hvisible
      have hvisibleLe := length_skipTrivia hvisible
      have hclosing := takeClosing_reads wrapped visible
      apply ends_bind hclosing.ends
      rintro ⟨closed, afterClosing⟩ hclosed
      have hclosedLe := hclosing.shorter closed afterClosing hclosed
      dsimp only
      split
      · apply ends_bind (expect_ends _ _)
        intro afterEnd _
        apply ends_bind (skipTrivia_ends afterEnd)
        intro rest _
        split
        · exact ends_ok _
        · exact ends_malformed _
      · split
        · split
          · exact ends_malformed _
          · exact ends_ok _
        · have hkey := nextKey_reads first afterClosing
          apply ends_bind hkey.ends
          rintro ⟨key, afterKey⟩ hread
          have hkeyLe := hkey.shorter key afterKey hread
          apply ends_bind (expect_ends _ _)
          intro afterEquals hequals
          have hequalsLt : afterEquals.length < afterKey.length := length_expect hequals
          have hliteral := literal_reads afterEquals
          apply ends_bind hliteral.ends
          rintro ⟨value, afterValue⟩ hvalue
          have hvalueLe := hliteral.shorter value afterValue hvalue
          apply ends_bind (expect_ends _ _)
          intro rest hrest
          have hrestLt : rest.length < afterValue.length := length_expect hrest
          dsimp only
          split
          · exact ends_malformed _
          · exact ih _ _ _ (by omega)

theorem find_ends (text property : Text) : Ends (find text property) := by
  rw [find]
  apply ends_bind (skipTrivia_ends text)
  intro visible hvisible
  have hvisibleLe := length_skipTrivia hvisible
  split
  · exact ends_ok _
  have htake := take_reads '{' visible
  apply ends_bind htake.ends
  rintro ⟨braced, afterBrace⟩ hbraced
  have hbraceLe := htake.shorter braced afterBrace hbraced
  dsimp only
  split
  · exact findLoop_ends _ _ _ _ _ (by omega)
  have hname := name_reads afterBrace
  apply ends_bind hname.ends
  rintro ⟨first, afterFirst⟩ hfirst
  have hfirstLe := hname.shorter first afterFirst hfirst
  dsimp only
  split
  · have hof := name_reads afterFirst
    apply ends_bind hof.ends
    rintro ⟨of, afterOf⟩ hread
    have hofLe := hof.shorter of afterOf hread
    dsimp only
    split
    · exact ends_malformed _
    have hclass := name_reads afterOf
    apply ends_bind hclass.ends
    rintro ⟨className, afterClass⟩ hclassRead
    have hclassLe := hclass.shorter className afterClass hclassRead
    apply ends_bind (expect_ends _ _)
    intro body hbody
    have hbodyLt : body.length < afterClass.length := length_expect hbody
    exact findLoop_ends _ _ _ _ _ (by omega)
  · have hopen := take_reads '{' afterFirst
    apply ends_bind hopen.ends
    rintro ⟨opened, afterOpen⟩ hopened
    have hopenLe := hopen.shorter opened afterOpen hopened
    dsimp only
    split
    · exact findLoop_ends _ _ _ _ _ (by omega)
    · exact findLoop_ends _ _ _ _ _ (by omega)

/-! ## Lookups -/

section Embedded

variable {items : List MofProperty} {text propName : Text} {row : WmiRow}

/-- The readers of the embedded properties of a row return what the list of properties holds: a
quoted value that is not empty without its escapes, and a number of 64 bits as it is. -/
structure ReadsEmbedded (items : List MofProperty) (row : WmiRow) (propName : Text) : Prop where
  string {value : Text}
    (hfound : (items.find? fun item => item.folded = toLowerAscii propName).map Prod.snd =
      some ⟨value, true⟩) (hvalue : value ≠ []) : requireEmbeddedString row propName = .ok value
  uint64 {value : MofLiteral} {number : ℤ}
    (hfound : (items.find? fun item => item.folded = toLowerAscii propName).map Prod.snd =
      some value) (hdecimal : IsDecimal value.value false number)
    (hfits : fitsUInt64 number = true) :
    requireEmbeddedUInt64 row propName = .ok (UInt64.ofNat number.toNat)

/-- The text of an instance in a row. -/
theorem requireString_mof (hrow : row.lookup "__MOF".toList = some (.string text))
    (hne : text ≠ []) : row.requireString "__MOF".toList true = .ok text := by
  rw [WmiRow.requireString, hrow]
  change (if true && text.isEmpty then _ else _) = _
  rw [List.isEmpty_eq_false_iff.2 hne]
  rfl

theorem mofProperty_found {value : MofLiteral} (htext : IsInstance items text)
    (hnodup : (items.map MofProperty.folded).Nodup)
    (hfound : (items.find? fun item => item.folded = toLowerAscii propName).map Prod.snd =
      some value) : mofProperty text propName = .ok (some value) := by
  rw [mofProperty, find_instance propName htext,
    lookupFrom_of_nodup hnodup fun _ _ hmem => List.not_mem_nil hmem, Option.or_none, hfound]

/-- A text with a property is not empty. -/
theorem ne_nil_of_found {value : MofLiteral} (htext : IsInstance items text)
    (hnodup : (items.map MofProperty.folded).Nodup)
    (hfound : (items.find? fun item => item.folded = toLowerAscii propName).map Prod.snd =
      some value) : text ≠ [] := by
  rintro rfl
  have hempty : mofProperty [] propName = .ok none := rfl
  cases hempty.symm.trans (mofProperty_found htext hnodup hfound)

/-- A quoted property that is not empty is returned without its escapes. -/
theorem requireEmbeddedString_of_quoted {value : Text}
    (hmissing : row.lookup propName = none)
    (hrow : row.lookup "__MOF".toList = some (.string text))
    (htext : IsInstance items text) (hnodup : (items.map MofProperty.folded).Nodup)
    (hfound : (items.find? fun item => item.folded = toLowerAscii propName).map Prod.snd =
      some ⟨value, true⟩) (hvalue : value ≠ []) :
    requireEmbeddedString row propName = .ok value := by
  have hne := ne_nil_of_found htext hnodup hfound
  have hextract : extractFromMof text propName = .ok value := by
    rw [extractFromMof, mofProperty_found htext hnodup hfound]
    rfl
  rw [requireEmbeddedString, hmissing, requireString_mof hrow hne]
  change (do
    let value ← extractFromMof text propName
    if value.isEmpty then fieldError propName "is missing from embedded MOF"
      else pure value) = _
  rw [hextract]
  change (if value.isEmpty then _ else _) = _
  rw [List.isEmpty_eq_false_iff.2 hvalue]
  rfl

/-- A number of an embedded instance is returned as it is, when it is one of 64 bits. -/
theorem requireEmbeddedUInt64_of_decimal {value : MofLiteral} {number : ℤ}
    (hmissing : row.lookup propName = none)
    (hrow : row.lookup "__MOF".toList = some (.string text))
    (htext : IsInstance items text) (hnodup : (items.map MofProperty.folded).Nodup)
    (hfound : (items.find? fun item => item.folded = toLowerAscii propName).map Prod.snd =
      some value) (hdecimal : IsDecimal value.value false number)
    (hfits : fitsUInt64 number = true) :
    requireEmbeddedUInt64 row propName = .ok (UInt64.ofNat number.toNat) := by
  have hne := ne_nil_of_found htext hnodup hfound
  have hdecoded : fromChars false fitsUInt64 value.value = some (number, []) := by
    rw [fromChars_decimal hdecimal, hfits]
    rfl
  obtain ⟨first, hfirst, hdigit⟩ : ∃ first, value.value.head? = some first ∧
      first.isDigit = true := by
    obtain ⟨digits, hdigitsNe, hdigits, hvalue, -⟩ := hdecimal
    obtain ⟨first, rest, rfl⟩ := List.exists_cons_of_ne_nil hdigitsNe
    exact ⟨first, by rw [hvalue]; rfl, hdigits first List.mem_cons_self⟩
  have hrange : '0' ≤ first ∧ first ≤ '9' := by
    rw [Char.isDigit, Bool.and_eq_true, decide_eq_true_eq, decide_eq_true_eq] at hdigit
    exact hdigit
  rw [requireEmbeddedUInt64, hmissing, requireString_mof hrow hne]
  change (do
    let value ← mofProperty text propName
    _) = _
  rw [mofProperty_found htext hnodup hfound]
  change (match value.value.head?, fromChars false fitsUInt64 value.value with
    | some first, some (decoded, []) =>
        if '0' ≤ first ∧ first ≤ '9' then pure (UInt64.ofNat decoded.toNat)
        else fieldError propName "is not a valid UInt64 in embedded MOF"
    | _, _ => fieldError propName "is not a valid UInt64 in embedded MOF") = _
  rw [hfirst, hdecoded]
  change (if '0' ≤ first ∧ first ≤ '9' then _ else _) = _
  rw [if_pos hrange]
  rfl

end Embedded

/-- A lookup in a well-formed text returns the value of the property with the name, and a row
that has the property only in this text is read so, unless a name is repeated, which makes every
lookup fail; and it ends on every text. -/
theorem mofProperty_of_instance (items : List MofProperty) (text property : Text) :
    (IsInstance items text →
      ((items.map MofProperty.folded).Nodup → mofProperty text property =
        .ok ((items.find? fun item => item.folded = toLowerAscii property).map Prod.snd)) ∧
      ((items.map MofProperty.folded).Nodup → ∀ row : WmiRow, row.lookup property = none →
        row.lookup "__MOF".toList = some (.string text) → ReadsEmbedded items row property) ∧
      (¬(items.map MofProperty.folded).Nodup →
        mofProperty text property = malformed "duplicate property")) ∧
    mofProperty text property ≠ .error .unfinished := by
  refine ⟨fun htext => ⟨fun hnodup => ?_, fun hnodup row hmissing hrow => ⟨?_, ?_⟩,
    fun hduplicate => ?_⟩, find_ends text property⟩
  · rw [mofProperty, find_instance property htext,
      lookupFrom_of_nodup hnodup fun _ _ hmem => List.not_mem_nil hmem, Option.or_none]
  · intro value hfound hvalue
    exact requireEmbeddedString_of_quoted hmissing hrow htext hnodup hfound hvalue
  · intro value number hfound hdecimal hfits
    exact requireEmbeddedUInt64_of_decimal hmissing hrow htext hnodup hfound hdecimal hfits
  · rw [mofProperty, find_instance property htext]
    exact lookupFrom_of_duplicate (Or.inl hduplicate)

/-- Neither the comment nor the quoted value, with an escaped quote and an escaped backslash,
is taken for properties. -/
theorem mofProperty_of_instance_quoted :
    let text := "instance of X \x7b // b = 1;\n A = \"p\\\"; b = 2;\\\\\"; \x7d;".toList
    mofProperty text "a".toList = .ok (some ⟨"p\"; b = 2;\\".toList, true⟩) ∧
      mofProperty text "b".toList = .ok none := by
  have hlist : IsPropertyList [("A".toList, ⟨"p\"; b = 2;\\".toList, true⟩)]
      " // b = 1;\n A = \"p\\\"; b = 2;\\\\\";".toList :=
    @IsPropertyList.cons "A".toList _ [] " // b = 1;\n ".toList
      " = \"p\\\"; b = 2;\\\\\";".toList []
      (.blank rfl (@IsTrivia.line " b = 1;".toList " ".toList (by decide) (.blank rfl .nil)))
      (by decide)
      (@IsAssignment.intro ⟨"p\"; b = 2;\\".toList, true⟩ " ".toList " ".toList [] (by decide)
        (.blank rfl .nil) (.blank rfl .nil) .nil)
      .nil
  have htext : IsInstance [("A".toList, ⟨"p\"; b = 2;\\".toList, true⟩)]
      "instance of X \x7b // b = 1;\n A = \"p\\\"; b = 2;\\\\\"; \x7d;".toList :=
    @IsInstance.instanceOf _ [] "instance".toList " ".toList "of".toList " ".toList "X".toList
      " ".toList _ .nil rfl (.blank rfl .nil) (by decide) rfl (.blank rfl .nil) (by decide)
      (by decide) (.blank rfl .nil)
      (@IsBody.intro _ _ " ".toList [] [] hlist (.blank rfl .nil) .nil (.trivia .nil))
  exact ⟨((mofProperty_of_instance _ _ "a".toList).1 htext).1 (by decide),
    ((mofProperty_of_instance _ _ "b".toList).1 htext).1 (by decide)⟩

/-- A class cannot be named like the keyword: the brace is read as the word behind it. -/
theorem instance_not_className :
    IsName "instance".toList ∧
      IsBody [("a".toList, ⟨"1".toList, false⟩)] " a = 1; \x7d;".toList ∧
      mofProperty "instance \x7b a = 1; \x7d;".toList "a".toList =
        malformed "invalid property or class name" := by
  refine ⟨by decide, ?_, by decide +kernel⟩
  have hlist : IsPropertyList [("a".toList, ⟨"1".toList, false⟩)] " a = 1;".toList :=
    @IsPropertyList.cons "a".toList _ [] " ".toList " = 1;".toList [] (.blank rfl .nil)
      (by decide)
      (@IsAssignment.intro ⟨"1".toList, false⟩ " ".toList " ".toList [] (by decide)
        (.blank rfl .nil) (.blank rfl .nil) .nil)
      .nil
  exact @IsBody.intro _ _ " ".toList [] [] hlist (.blank rfl .nil) .nil (.trivia .nil)

end EmbeddedInstance

end UwfManager
