import UltimateCoders.Arbiter.ConflictResolver

/-! # Step conditions

A step of a workflow may have a condition on the output of the step before it. The text is
cut into tokens, and the tokens are evaluated while they are parsed by recursive descent, as deep
as the interpreter has frames for. These are a parameter, and so are the letters and digits of
Unicode; of ASCII they are known.
-/

namespace UltimateCoders.Workflow

open Arbiter.ConflictResolver (isSpace)

structure FileChange where
  filePath : String
  deriving DecidableEq

/-- What a condition reads of the output of an agent. -/
structure AgentOutput where
  summary : String
  fileChanges : List FileChange
  success : Bool
  deriving DecidableEq

/-- `str.isalpha` and `str.isalnum` of a character. -/
structure Letters where
  isAlpha : Char → Bool
  isAlnum : Char → Bool
  isAlpha_ascii : ∀ char : Char, char.toNat < 128 → isAlpha char = char.isAlpha
  isAlnum_ascii : ∀ char : Char, char.toNat < 128 → isAlnum char = char.isAlphanum

inductive Operator where
  | or
  | and
  | eq
  | ne
  | not
  | openParen
  | closeParen
  deriving DecidableEq

def Operator.text : Operator → String
  | or => "||"
  | and => "&&"
  | eq => "=="
  | ne => "!="
  | not => "!"
  | openParen => "("
  | closeParen => ")"

/-- The operators in the order in which they are tried. -/
def operators : List Operator := [.or, .and, .eq, .ne, .not, .openParen, .closeParen]

inductive Keyword where
  | prevSuccess
  | literal (value : Bool)
  deriving DecidableEq

def Keyword.text : Keyword → String
  | prevSuccess => "prev.success"
  | literal true => "true"
  | literal false => "false"

def keywords : List Keyword := [.prevSuccess, .literal true, .literal false]

inductive Token where
  | op (operator : Operator)
  | keyword (word : Keyword)
  | containsFiles (needle : String)
  | containsSummary (needle : String)
  deriving DecidableEq

/-- Why a condition cannot be parsed. -/
inductive ConditionError where
  | expectedOpen (word got : String)
  | expectedString (word got : String)
  | unterminatedString (word : String)
  | expectedClose (word got : String)
  | unknownIdentifier (word : String)
  | unexpectedCharacter (char : Char) (position : Nat)
  | expectedOperator (operator : Operator) (got : Option Token)
  | trailingToken (token : Token)
  | unexpectedEnd
  | unexpectedToken (token : Token)
  deriving DecidableEq

def skipSpaces (chars : List Char) : List Char := chars.dropWhile isSpace

/-- At most 20 characters for a report. -/
def excerpt (chars : List Char) : String := String.ofList (chars.take 20)

def quote : Char := '\x22'

/-- Read the string in parentheses that follows a word. -/
def readArgument (word : String) (chars : List Char) :
    Except ConditionError (String × List Char) :=
  match skipSpaces chars with
  | '(' :: inside =>
    match skipSpaces inside with
    | '\x22' :: text =>
      match text.dropWhile (· ≠ quote) with
      | [] => .error (.unterminatedString word)
      | _ :: after =>
        match skipSpaces after with
        | ')' :: rest => .ok (String.ofList (text.takeWhile (· ≠ quote)), rest)
        | got => .error (.expectedClose word (excerpt got))
    | got => .error (.expectedString word (excerpt got))
  | got => .error (.expectedOpen word (excerpt got))

/-- The words that take an argument. -/
def containsKinds : List (String × (String → Token)) :=
  [("prev.files.contains", .containsFiles), ("prev.summary.contains", .containsSummary)]

section Tokenize

variable (letters : Letters)

/-- The character may stand in a word after its first one. -/
def Letters.isWordChar (char : Char) : Bool :=
  letters.isAlnum char || char = '_' || char = '.'

/-- What a word means, and what is left of the text behind it. -/
def wordToken (word : String) (rest : List Char) : Except ConditionError (Token × List Char) :=
  match containsKinds.find? fun kind => kind.1 = word with
  | some kind => (readArgument word rest).map fun read => (kind.2 read.1, read.2)
  | none =>
    match keywords.find? fun keyword => keyword.text = word with
    | some keyword => .ok (.keyword keyword, rest)
    | none => .error (.unknownIdentifier word)

/-- The token at the front of a text that does not begin with a blank. Parentheses are operators,
so the branch of the source for them is never taken. -/
def nextToken (position : Nat) (char : Char) (rest : List Char) :
    Except ConditionError (Token × List Char) :=
  match operators.find? fun operator => operator.text.toList.isPrefixOf (char :: rest) with
  | some operator => .ok (.op operator, (char :: rest).drop operator.text.toList.length)
  | none =>
    if letters.isAlpha char || char = '_' then
      wordToken (String.ofList (char :: rest.takeWhile letters.isWordChar))
        (rest.dropWhile letters.isWordChar)
    else .error (.unexpectedCharacter char position)

theorem length_skipSpaces_le (chars : List Char) : (skipSpaces chars).length ≤ chars.length :=
  (List.dropWhile_suffix _).length_le

theorem length_readArgument {word needle : String} {chars rest : List Char}
    (read : readArgument word chars = .ok (needle, rest)) : rest.length < chars.length := by
  unfold readArgument at read
  split at read
  · rename_i inside opened
    split at read
    · rename_i text quoted
      split at read
      · cases read
      · rename_i char after ended
        split at read
        · rename_i last closed
          cases read
          have first := length_skipSpaces_le chars
          have second := length_skipSpaces_le inside
          have third := (List.dropWhile_suffix (l := text) (· ≠ quote)).length_le
          have fourth := length_skipSpaces_le after
          simp only [opened, quoted, ended, closed, List.length_cons] at first second third fourth
          omega
        · cases read
    · cases read
  · cases read

theorem length_wordToken {word : String} {chars rest : List Char} {token : Token}
    (read : wordToken word chars = .ok (token, rest)) : rest.length ≤ chars.length := by
  unfold wordToken at read
  split at read
  · cases argument : readArgument word chars with
    | error error => simp [argument, Except.map] at read
    | ok found =>
      simp only [argument, Except.map, Except.ok.injEq, Prod.mk.injEq] at read
      exact read.2 ▸ (length_readArgument argument).le
  · split at read <;> cases read
    exact le_rfl

theorem length_nextToken {position : Nat} {char : Char} {chars rest : List Char} {token : Token}
    (next : nextToken letters position char chars = .ok (token, rest)) :
    rest.length ≤ chars.length := by
  unfold nextToken at next
  split at next
  · rename_i operator found
    cases next
    cases operator <;> simp [Operator.text]
  · split at next
    · exact (length_wordToken next).trans (List.dropWhile_suffix _).length_le
    · cases next

/-- The tokens of what is left of a text of this length. -/
def tokenizeFrom (length : Nat) (chars : List Char) : Except ConditionError (List Token) :=
  match chars with
  | [] => .ok []
  | char :: rest =>
    if isSpace char then tokenizeFrom length rest
    else
      match _next : nextToken letters (length - (rest.length + 1)) char rest with
      | .error error => .error error
      | .ok (token, rest') => (tokenizeFrom length rest').map (token :: ·)
termination_by chars.length
decreasing_by
  · simp
  · have shorter := length_nextToken letters _next
    simp only [List.length_cons]
    omega

def tokenize (text : String) : Except ConditionError (List Token) :=
  tokenizeFrom letters text.toList.length text.toList

end Tokenize

/-- Why an evaluation ends without a value. -/
inductive EvaluationFailure where
  /-- A `ConditionError`. -/
  | refused (error : ConditionError)
  /-- A `RecursionError`: no frame was left for a call. -/
  | recursion
  deriving DecidableEq

/-- A value and the tokens that are left. -/
abbrev Parsed := Except EvaluationFailure (Bool × List Token)

section Parse

variable (prev : Option AgentOutput)

/-- `in` of Python's texts. -/
def occursIn (needle text : String) : Bool := decide (needle.toList <:+: text.toList)

def atom : Token → Except ConditionError Bool
  | .keyword .prevSuccess => .ok (prev.any AgentOutput.success)
  | .keyword (.literal value) => .ok value
  | .containsFiles needle =>
    .ok (prev.any fun output => output.fileChanges.any fun change =>
      occursIn needle change.filePath)
  | .containsSummary needle => .ok (prev.any fun output => occursIn needle output.summary)
  | .op operator => .error (.unexpectedToken (.op operator))

/-- The answer of a call that goes so many calls deeper itself. -/
def nested (calls frames : Nat) (answer : Parsed) : Parsed :=
  if calls ≤ frames then answer else .error .recursion

/-- An atom is taken by `_atom`, which calls `_advance`, which reads `_cur`. Another token is
printed for the report. -/
def atomExpr (frames : Nat) (token : Token) (tokens : List Token) : Parsed :=
  match atom prev token with
  | .ok value => nested 3 frames (.ok (value, tokens))
  | .error error => nested 2 frames (.error (.refused error))

/-- The closing parenthesis behind an expression. -/
def expectClose (inner : Bool × List Token) : Parsed :=
  match inner.2 with
  | .op .closeParen :: rest => .ok (inner.1, rest)
  | got => .error (.refused (.expectedOperator .closeParen got.head?))

/-- Go on with another operand while the operator stands in front. Each turn takes a token. -/
def operands (operator : Operator) (join : Bool → Bool → Bool) (operand : List Token → Parsed) :
    Nat → Bool → List Token → Parsed
  | turns + 1, result, token :: tokens =>
    if token = .op operator then
      (operand tokens).bind fun right =>
        operands operator join operand turns (join result right.1) right.2
    else .ok (result, token :: tokens)
  | _, result, tokens => .ok (result, tokens)

/-! A call of a function takes one of the frames that the interpreter has left. Reading or
advancing the current token takes at most two more for a moment, which matters only where no
deeper call follows. -/

mutual

def orExpr : Nat → List Token → Parsed
  | 0, _ => .error .recursion
  | frames + 1, tokens => (andExpr frames tokens).bind fun left =>
    operands .or or (andExpr frames) left.2.length left.1 left.2

def andExpr : Nat → List Token → Parsed
  | 0, _ => .error .recursion
  | frames + 1, tokens => (notExpr frames tokens).bind fun left =>
    operands .and and (notExpr frames) left.2.length left.1 left.2

def notExpr : Nat → List Token → Parsed
  | 0, _ => .error .recursion
  | frames + 1, .op .not :: tokens =>
    (notExpr frames tokens).bind fun inner => .ok (!inner.1, inner.2)
  | frames + 1, tokens => comparison frames tokens

def comparison : Nat → List Token → Parsed
  | 0, _ => .error .recursion
  | frames + 1, tokens => (primary frames tokens).bind fun left =>
    match left.2 with
    | .op .eq :: tokens =>
      (primary frames tokens).bind fun right => .ok (left.1 == right.1, right.2)
    | .op .ne :: tokens =>
      (primary frames tokens).bind fun right => .ok (left.1 != right.1, right.2)
    | tokens => .ok (left.1, tokens)

def primary : Nat → List Token → Parsed
  | 0, _ => .error .recursion
  | frames + 1, [] => nested 1 frames (.error (.refused .unexpectedEnd))
  | frames + 1, .op .openParen :: tokens => (orExpr frames tokens).bind expectClose
  | frames + 1, token :: tokens => atomExpr prev frames token tokens

end

def parse (frames : Nat) (tokens : List Token) : Except EvaluationFailure Bool :=
  (orExpr prev (frames + 1) tokens).bind fun parsed =>
    match parsed.2 with
    | [] => .ok parsed.1
    | token :: _ => .error (.refused (.trailingToken token))

end Parse

/-- Whether a step with this condition is to run. The frames are those that are left in the first
call of `_or_expr`; getting there takes two, as many as cutting the text into tokens. -/
def evaluate (letters : Letters) (frames : Nat) (condition : String) (prev : Option AgentOutput) :
    Except EvaluationFailure Bool :=
  if condition.toList.all isSpace then .ok true
  else
    match tokenize letters condition with
    | .error error => .error (.refused error)
    | .ok [] => .ok true
    | .ok tokens => parse prev frames tokens

end UltimateCoders.Workflow
