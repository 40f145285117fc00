import UltimateCoders.Workflow.ConditionFrames

/-! # Texts of step conditions

As long as the frames suffice, a condition is evaluated exactly where its text is a sentence of
the grammar, and the text of an expression, with parentheses where the grammar needs them, is
evaluated to what the expression means. Nested too deep, neither holds.
-/

namespace UltimateCoders.Workflow

open Arbiter.ConflictResolver (isSpace)
open List

variable {letters : Letters} {prev : Option AgentOutput} {tokens rest : List Token}
  {value : Bool} {condition : String} {frames : Nat}

theorem all_isSpace_of_tokenizeFrom {length : Nat} {chars : List Char}
    (nothing : tokenizeFrom letters length chars = .ok []) : chars.all isSpace = true := by
  induction chars with
  | nil => rfl
  | cons char rest ih =>
    unfold tokenizeFrom at nothing
    split_ifs at nothing with blank
    · rw [all_cons, blank, ih nothing]
      rfl
    · split at nothing
      · cases nothing
      · rename_i token rest' _
        cases more : tokenizeFrom letters length rest' <;> simp [more, Except.map] at nothing

theorem tokenizeFrom_of_blank {length : Nat} {chars : List Char}
    (blank : chars.all isSpace = true) : tokenizeFrom letters length chars = .ok [] := by
  induction chars with
  | nil => rw [tokenizeFrom]
  | cons char rest ih =>
    rw [all_cons, Bool.and_eq_true] at blank
    rw [tokenizeFrom, if_pos blank.1, ih blank.2]

theorem evaluate_of_blank (blank : condition.toList.all isSpace = true) :
    evaluate letters frames condition prev = .ok true := by
  rw [evaluate, if_pos blank]

/-- What is not blank is evaluated to what its tokens denote. -/
theorem evaluate_eq_ok_iff (filled : ¬ condition.toList.all isSpace = true)
    (enough : fits letters frames condition = true) :
    evaluate letters frames condition prev = .ok value ↔
      ∃ tokens, tokenize letters condition = .ok tokens ∧ Derives prev .orExpr tokens value := by
  rw [evaluate, if_neg filled]
  unfold fits at enough
  cases cut : tokenize letters condition with
  | error error => simp
  | ok tokens =>
    cases tokens with
    | nil => exact absurd (all_isSpace_of_tokenizeFrom cut) filled
    | cons token more =>
      rw [cut] at enough
      have uncut : parse prev frames (token :: more) ≠ .error .recursion := fun never =>
        Bool.false_ne_true ((parse_eq_recursion_iff.mp never).symm.trans enough)
      simp [parse_eq_ok_iff uncut]

/-- The frames run out exactly where they do not suffice for the condition. -/
theorem evaluate_eq_recursion_iff : evaluate letters frames condition prev = .error .recursion ↔
    fits letters frames condition = false := by
  by_cases blank : condition.toList.all isSpace = true
  · simp [evaluate_of_blank blank, fits, tokenize, tokenizeFrom_of_blank blank]
  · rw [evaluate, if_neg blank, fits]
    cases tokenize letters condition with
    | error error => simp
    | ok tokens =>
      cases tokens with
      | nil => simp
      | cons token more => exact parse_eq_recursion_iff

def callText (word needle : String) : String := word ++ "(\x22" ++ needle ++ "\x22)"

def Token.text : Token → String
  | op operator => operator.text
  | keyword word => word.text
  | containsFiles needle => callText "prev.files.contains" needle
  | containsSummary needle => callText "prev.summary.contains" needle

def Token.needle : Token → String
  | containsFiles needle => needle
  | containsSummary needle => needle
  | _ => ""

/-- A string that can stand between quotation marks. -/
def Quotable (needle : String) : Prop := quote ∉ needle.toList

instance (needle : String) : Decidable (Quotable needle) :=
  inferInstanceAs (Decidable (quote ∉ needle.toList))

/-- Tokens with a blank between each two of them. -/
def render (tokens : List Token) : String := " ".intercalate (tokens.map Token.text)

/-- A text ends, or goes on with a blank. -/
def Apart (chars : List Char) : Prop := chars = [] ∨ ∃ more, chars = ' ' :: more

variable {char : Char} {chars more : List Char}

theorem isWordChar_ascii (ascii : char.toNat < 128) :
    letters.isWordChar char = (char.isAlphanum || char = '_' || char = '.') := by
  rw [Letters.isWordChar, letters.isAlnum_ascii char ascii]

theorem nextToken_op (operator : Operator) (position : Nat) (apart : Apart more)
    (front : operator.text.toList ++ more = char :: chars) :
    nextToken letters position char chars = .ok (.op operator, more) := by
  unfold nextToken
  rw [← front]
  have found : (operators.find? fun other => other.text.toList.isPrefixOf
      (operator.text.toList ++ more)) = some operator := by
    rcases apart with rfl | ⟨behind, rfl⟩ <;> cases operator <;> rfl
  rw [found]
  simp

theorem nextToken_word {word more : List Char} (position : Nat)
    (starts : letters.isAlpha char = true)
    (noOperator : operators.find? (fun other => other.text.toList.isPrefixOf
      (char :: (word ++ more))) = none) (inside : ∀ other ∈ word, letters.isWordChar other = true)
    (ends : ∀ other ∈ more.head?, letters.isWordChar other = false) :
    nextToken letters position char (word ++ more) =
      wordToken (String.ofList (char :: word)) more := by
  have stop : more.takeWhile letters.isWordChar = [] ∧ more.dropWhile letters.isWordChar = more := by
    cases more with
    | nil => simp
    | cons other behind => simp [ends other (by simp)]
  unfold nextToken
  rw [noOperator, starts, takeWhile_append_of_pos inside, dropWhile_append_of_pos inside,
    stop.1, stop.2, append_nil]
  rfl

/-- A text in ASCII that is a word. -/
def isWord : List Char → Bool
  | [] => false
  | first :: rest => first.isAlpha && first.toNat < 128 &&
      rest.all fun char => char.toNat < 128 && (char.isAlphanum || char = '_' || char = '.')

theorem isWordChar_of_apart {more : List Char} (apart : Apart more) :
    ∀ other ∈ more.head?, letters.isWordChar other = false := by
  rcases apart with rfl | ⟨behind, rfl⟩
  · simp
  · intro other member
    obtain rfl : ' ' = other := by simpa using member
    rw [isWordChar_ascii (by decide)]
    decide

theorem no_operator_of_isAlpha (letter : char.isAlpha = true) (chars : List Char) :
    operators.find? (fun other => other.text.toList.isPrefixOf (char :: chars)) = none := by
  have first : ∀ operator : Operator, ∃ front more, operator.text.toList = front :: more ∧
      front.isAlpha = false := by
    intro operator
    cases operator <;> exact ⟨_, _, rfl, by decide⟩
  rw [find?_eq_none]
  intro operator _ begins
  obtain ⟨front, more, text, other⟩ := first operator
  rw [text, isPrefixOf_cons_cons, Bool.and_eq_true, beq_iff_eq] at begins
  rw [begins.1, letter] at other
  cases other

theorem nextToken_of_isWord {word : String} (position : Nat) (ascii : isWord word.toList = true)
    (ends : ∀ other ∈ more.head?, letters.isWordChar other = false)
    (front : word.toList ++ more = char :: chars) :
    nextToken letters position char chars = wordToken word more := by
  cases text : word.toList with
  | nil => simp [text, isWord] at ascii
  | cons first rest =>
    rw [text, cons_append, cons.injEq] at front
    obtain ⟨rfl, rfl⟩ := front
    simp only [text, isWord, Bool.and_eq_true, decide_eq_true_eq, all_eq_true] at ascii
    rw [nextToken_word position ((letters.isAlpha_ascii _ ascii.1.2).trans ascii.1.1)
      (no_operator_of_isAlpha ascii.1.1 _) (fun other member => ?_) ends, ← text,
      String.ofList_toList]
    rw [isWordChar_ascii (ascii.2 other member).1]
    simpa using (ascii.2 other member).2

theorem readArgument_eq_ok {word : String} {chars inside text after rest : List Char}
    (opened : skipSpaces chars = '(' :: inside) (quoted : skipSpaces inside = quote :: text)
    (ended : text.dropWhile (· ≠ quote) = quote :: after) (closed : skipSpaces after = ')' :: rest) :
    readArgument word chars = .ok (String.ofList (text.takeWhile (· ≠ quote)), rest) := by
  unfold readArgument
  rw [opened]
  split
  · rename_i inside' same
    obtain rfl := (cons.inj same).2
    rw [quoted]
    split
    · rename_i text' same'
      obtain rfl := (cons.inj same').2
      rw [ended]
      dsimp only
      rw [closed]
      rfl
    · rename_i other
      exact absurd rfl (other text)
  · rename_i other
    exact absurd rfl (other inside)

theorem skipSpaces_cons (plain : isSpace char = false) (chars : List Char) :
    skipSpaces (char :: chars) = char :: chars := by
  rw [skipSpaces, dropWhile_cons_of_neg (by simp [plain])]

theorem readArgument_quoted (word : String) {needle : String} (quotable : Quotable needle)
    (more : List Char) :
    readArgument word ('(' :: quote :: (needle.toList ++ quote :: ')' :: more)) =
      .ok (needle, more) := by
  have inside : ∀ other ∈ needle.toList, decide (other ≠ quote) = true := by
    intro other member
    exact decide_eq_true fun same => quotable (same ▸ member)
  have ended : (needle.toList ++ quote :: ')' :: more).dropWhile (· ≠ quote) =
      quote :: ')' :: more := by
    rw [dropWhile_append_of_pos inside]
    simp
  have taken : (needle.toList ++ quote :: ')' :: more).takeWhile (· ≠ quote) = needle.toList := by
    rw [takeWhile_append_of_pos inside]
    simp
  rw [readArgument_eq_ok (skipSpaces_cons (by decide) _) (skipSpaces_cons (by decide) _) ended
    (skipSpaces_cons (by decide) _), taken, String.ofList_toList]

theorem nextToken_call {word needle : String} (make : String → Token) (position : Nat)
    (ascii : isWord word.toList = true)
    (found : containsKinds.find? (fun kind => kind.1 = word) = some (word, make))
    (quotable : Quotable needle) (front : (callText word needle).toList ++ more = char :: chars) :
    nextToken letters position char chars = .ok (make needle, more) := by
  have parts : word.toList ++ ('(' :: quote :: (needle.toList ++ quote :: ')' :: more)) =
      char :: chars := by
    rw [← front, callText]
    simp only [String.toList_append, append_assoc]
    rfl
  have ends : ∀ other ∈ ('(' :: quote :: (needle.toList ++ quote :: ')' :: more)).head?,
      letters.isWordChar other = false := by
    intro other member
    obtain rfl : '(' = other := by simpa using member
    rw [isWordChar_ascii (by decide)]
    decide
  rw [nextToken_of_isWord position ascii ends parts, wordToken, found]
  rw [readArgument_quoted word quotable more]
  rfl

theorem nextToken_text {token : Token} (position : Nat) (quotable : Quotable token.needle)
    (apart : Apart more) (front : token.text.toList ++ more = char :: chars) :
    nextToken letters position char chars = .ok (token, more) := by
  cases token with
  | op operator => exact nextToken_op operator position apart front
  | keyword word =>
    have ascii : isWord word.text.toList = true := by
      cases word with
      | prevSuccess => decide +kernel
      | literal value => cases value <;> decide +kernel
    rw [nextToken_of_isWord position ascii (isWordChar_of_apart apart) front]
    cases word with
    | prevSuccess => rfl
    | literal value => cases value <;> rfl
  | containsFiles needle =>
    exact nextToken_call .containsFiles position (by decide +kernel) rfl quotable front
  | containsSummary needle =>
    exact nextToken_call .containsSummary position (by decide +kernel) rfl quotable front

theorem exists_text (token : Token) : ∃ char chars, token.text.toList = char :: chars ∧
    isSpace char = false := by
  cases token with
  | op operator => cases operator <;> exact ⟨_, _, rfl, by decide⟩
  | keyword word =>
    cases word with
    | prevSuccess => exact ⟨_, _, rfl, by decide⟩
    | literal value => cases value <;> exact ⟨_, _, rfl, by decide⟩
  | containsFiles needle | containsSummary needle =>
    simp only [Token.text, callText, String.toList_append, append_assoc]
    exact ⟨_, _, rfl, by decide⟩

theorem tokenizeFrom_text {token : Token} {length : Nat} {more : List Char}
    (quotable : Quotable token.needle) (apart : Apart more) :
    tokenizeFrom letters length (token.text.toList ++ more) =
      (tokenizeFrom letters length more).map (token :: ·) := by
  obtain ⟨char, chars, text, filled⟩ := exists_text token
  have front : token.text.toList ++ more = char :: (chars ++ more) := by rw [text]; rfl
  have read : nextToken letters (length - ((chars ++ more).length + 1)) char (chars ++ more) =
      .ok (token, more) := nextToken_text _ quotable apart front
  rw [front, tokenizeFrom, if_neg (by simp [filled])]
  split
  · rename_i error other
    rw [read] at other
    cases other
  · rename_i found behind other
    rw [read] at other
    cases other
    rfl

theorem tokenize_render (quotable : ∀ token ∈ tokens, Quotable token.needle) :
    tokenize letters (render tokens) = .ok tokens := by
  have cut : ∀ length, tokenizeFrom letters length (render tokens).toList = .ok tokens := by
    intro length
    induction tokens with
    | nil => simp [render, tokenizeFrom]
    | cons token more ih =>
      have own := quotable token mem_cons_self
      have rest := ih fun other member => quotable other (mem_cons_of_mem _ member)
      cases more with
      | nil =>
        have text : (render [token]).toList = token.text.toList ++ [] := by simp [render]
        rw [text, tokenizeFrom_text own (.inl rfl)]
        simp [tokenizeFrom, Except.map]
      | cons next behind =>
        have text : (render (token :: next :: behind)).toList =
            token.text.toList ++ ' ' :: (render (next :: behind)).toList := by
          simp only [render, map_cons, String.intercalate_cons_cons, String.toList_append,
            append_assoc]
          rfl
        rw [text, tokenizeFrom_text own (.inr ⟨_, rfl⟩), tokenizeFrom, if_pos (by decide), rest]
        rfl
  exact cut _

/-- An expression of the grammar. -/
inductive Condition where
  | success
  | literal (value : Bool)
  | files (needle : String)
  | summary (needle : String)
  | not (operand : Condition)
  | equal (first second : Condition)
  | unequal (first second : Condition)
  | and (first second : Condition)
  | or (first second : Condition)
  deriving DecidableEq

/-- How loosely a symbol binds. -/
def Symbol.level : Symbol → Nat
  | orExpr => 5
  | andExpr => 4
  | notExpr => 3
  | comparison => 2
  | primary | orTail | andTail => 1

namespace Condition

/-- What an expression means after this output. -/
def denote (prev : Option AgentOutput) : Condition → Bool
  | success => prev.any AgentOutput.success
  | literal value => value
  | files needle => prev.any fun output => output.fileChanges.any fun change =>
    occursIn needle change.filePath
  | summary needle => prev.any fun output => occursIn needle output.summary
  | not operand => !operand.denote prev
  | equal first second => first.denote prev == second.denote prev
  | unequal first second => first.denote prev != second.denote prev
  | and first second => first.denote prev && second.denote prev
  | or first second => first.denote prev || second.denote prev

def needles : Condition → List String
  | success | literal _ => []
  | files needle | summary needle => [needle]
  | not operand => operand.needles
  | equal first second | unequal first second | and first second | or first second =>
    first.needles ++ second.needles

/-- Tokens of an expression in a place for another symbol. -/
def enclose (own place : Symbol) (tokens : List Token) : List Token :=
  if own.level ≤ place.level then tokens else .op .openParen :: (tokens ++ [.op .closeParen])

/-- The tokens of an expression in the place of a symbol. -/
def tokensAt (place : Symbol) : Condition → List Token
  | success => [.keyword .prevSuccess]
  | literal value => [.keyword (.literal value)]
  | files needle => [.containsFiles needle]
  | summary needle => [.containsSummary needle]
  | not operand => enclose .notExpr place (.op .not :: operand.tokensAt .notExpr)
  | equal first second => enclose .comparison place
      (first.tokensAt .primary ++ .op .eq :: second.tokensAt .primary)
  | unequal first second => enclose .comparison place
      (first.tokensAt .primary ++ .op .ne :: second.tokensAt .primary)
  | and first second => enclose .andExpr place
      (first.tokensAt .andExpr ++ .op .and :: second.tokensAt .notExpr)
  | or first second => enclose .orExpr place
      (first.tokensAt .orExpr ++ .op .or :: second.tokensAt .andExpr)

/-- The text of an expression, with parentheses only where they are needed. -/
def print (condition : Condition) : String := render (condition.tokensAt .orExpr)

end Condition

/-- A symbol that derives expressions, not only a tail. -/
def Symbol.IsExpr (symbol : Symbol) : Prop := symbol ≠ .orTail ∧ symbol ≠ .andTail

/-- The next more general symbol. -/
def Symbol.next : Symbol → Symbol
  | primary => comparison
  | comparison => notExpr
  | notExpr => andExpr
  | andExpr => orExpr
  | other => other

theorem Derives.next {own : Symbol} (derived : Derives prev own tokens value) (expr : own.IsExpr) :
    Derives prev own.next tokens value := by
  cases own with
  | orExpr => exact derived
  | andExpr => simpa [Symbol.next] using derived.orExpr .orEnd
  | notExpr => simpa [Symbol.next] using derived.andExpr .andEnd
  | comparison => exact .compared derived
  | primary => exact .single derived
  | orTail => exact absurd rfl expr.1
  | andTail => exact absurd rfl expr.2

section

variable {own place : Symbol} (derived : Derives prev own tokens value) (ownExpr : own.IsExpr)
  (placeExpr : place.IsExpr)

include derived ownExpr placeExpr

theorem Derives.lift (fits : own.level ≤ place.level) : Derives prev place tokens value := by
  have steps : ∃ count, place = Symbol.next^[count] own := by
    refine ⟨place.level - own.level, ?_⟩
    cases own <;> cases place <;> simp_all [Symbol.IsExpr, Symbol.level, Symbol.next]
  obtain ⟨count, rfl⟩ := steps
  clear placeExpr fits
  induction count generalizing own with
  | zero => exact derived
  | succ count ih =>
    have nextExpr : own.next.IsExpr := by
      cases own <;> simp_all [Symbol.IsExpr, Symbol.next]
    exact ih (derived.next ownExpr) nextExpr

theorem Derives.enclose : Derives prev place (Condition.enclose own place tokens) value := by
  unfold Condition.enclose
  split_ifs with fits
  · exact derived.lift ownExpr placeExpr fits
  · have whole : Derives prev .orExpr tokens value :=
      derived.lift ownExpr (by simp [Symbol.IsExpr]) (by cases own <;> decide)
    exact (Derives.parenthesized whole).lift (by simp [Symbol.IsExpr]) placeExpr
      (by cases place <;> decide)

end

theorem Derives.snocOr {first second : List Token} {left right : Bool}
    (head : Derives prev .orExpr first left) (last : Derives prev .andExpr second right) :
    Derives prev .orExpr (first ++ .op .or :: second) (left || right) := by
  have snoc : ∀ {symbol : Symbol} {more : List Token} {among : Bool},
      Derives prev symbol more among → symbol = .orTail →
      Derives prev .orTail (more ++ .op .or :: second) (among || right) := by
    intro symbol more among tail
    induction tail with
    | orEnd => exact fun _ => by simpa using Derives.orMore last .orEnd
    | orMore head tail _ ih => exact fun same => by simpa [Bool.or_assoc] using head.orMore (ih same)
    | _ => exact fun other => by cases other
  cases head with
  | orExpr head tail => simpa [Bool.or_assoc] using head.orExpr (snoc tail rfl)

theorem Derives.snocAnd {first second : List Token} {left right : Bool}
    (head : Derives prev .andExpr first left) (last : Derives prev .notExpr second right) :
    Derives prev .andExpr (first ++ .op .and :: second) (left && right) := by
  have snoc : ∀ {symbol : Symbol} {more : List Token} {among : Bool},
      Derives prev symbol more among → symbol = .andTail →
      Derives prev .andTail (more ++ .op .and :: second) (among && right) := by
    intro symbol more among tail
    induction tail with
    | andEnd => exact fun _ => by simpa using Derives.andMore last .andEnd
    | andMore head tail _ ih =>
      exact fun same => by simpa [Bool.and_assoc] using head.andMore (ih same)
    | _ => exact fun other => by cases other
  cases head with
  | andExpr head tail => simpa [Bool.and_assoc] using head.andExpr (snoc tail rfl)

namespace Condition

theorem derives_tokensAt (condition : Condition) {place : Symbol} (placeExpr : place.IsExpr) :
    Derives prev place (condition.tokensAt place) (condition.denote prev) := by
  have atomAt {token : Token} {value : Bool} (known : Atom prev token value) {place : Symbol}
      (placeExpr : place.IsExpr) : Derives prev place [token] value :=
    (Derives.atom known).lift (by simp [Symbol.IsExpr]) placeExpr (by cases place <;> decide)
  have expr {symbol : Symbol} (inner : symbol ≠ .orTail ∧ symbol ≠ .andTail) : symbol.IsExpr := inner
  induction condition generalizing place with
  | success => exact atomAt .success placeExpr
  | literal value => exact atomAt (.literal value) placeExpr
  | files needle => exact atomAt (.files needle) placeExpr
  | summary needle => exact atomAt (.summary needle) placeExpr
  | not operand ih =>
    exact (Derives.negation (ih (expr (by simp)))).enclose (expr (by simp)) placeExpr
  | equal first second ihFirst ihSecond =>
    exact ((ihFirst (expr (by simp))).equal (ihSecond (expr (by simp)))).enclose (expr (by simp))
      placeExpr
  | unequal first second ihFirst ihSecond =>
    exact ((ihFirst (expr (by simp))).unequal (ihSecond (expr (by simp)))).enclose
      (expr (by simp)) placeExpr
  | and first second ihFirst ihSecond =>
    exact ((ihFirst (expr (by simp))).snocAnd (ihSecond (expr (by simp)))).enclose (expr (by simp))
      placeExpr
  | or first second ihFirst ihSecond =>
    exact ((ihFirst (expr (by simp))).snocOr (ihSecond (expr (by simp)))).enclose (expr (by simp))
      placeExpr

theorem quotable_tokensAt (condition : Condition)
    (quotable : ∀ needle ∈ condition.needles, Quotable needle) (place : Symbol) :
    ∀ token ∈ condition.tokensAt place, Quotable token.needle := by
  have plain : Quotable "" := by simp [Quotable]
  have inside {own place : Symbol} {tokens : List Token}
      (all : ∀ token ∈ tokens, Quotable token.needle) :
      ∀ token ∈ enclose own place tokens, Quotable token.needle := by
    unfold enclose
    split_ifs
    · exact all
    · simpa [Token.needle, plain, or_imp, forall_and] using all
  have between {first second : List Token} {operator : Operator}
      (before : ∀ token ∈ first, Quotable token.needle)
      (after : ∀ token ∈ second, Quotable token.needle) :
      ∀ token ∈ first ++ .op operator :: second, Quotable token.needle := by
    rw [forall_mem_append, forall_mem_cons]
    exact ⟨before, plain, after⟩
  induction condition generalizing place with
  | success | literal value => simpa [tokensAt, Token.needle] using plain
  | files needle | summary needle => simpa [tokensAt, Token.needle, needles] using quotable
  | not operand ih =>
    refine inside ?_
    simpa [Token.needle, plain] using ih quotable .notExpr
  | equal first second ihFirst ihSecond =>
    have both := forall_mem_append.mp quotable
    exact inside (between (ihFirst both.1 .primary) (ihSecond both.2 .primary))
  | unequal first second ihFirst ihSecond =>
    have both := forall_mem_append.mp quotable
    exact inside (between (ihFirst both.1 .primary) (ihSecond both.2 .primary))
  | and first second ihFirst ihSecond =>
    have both := forall_mem_append.mp quotable
    exact inside (between (ihFirst both.1 .andExpr) (ihSecond both.2 .notExpr))
  | or first second ihFirst ihSecond =>
    have both := forall_mem_append.mp quotable
    exact inside (between (ihFirst both.1 .orExpr) (ihSecond both.2 .andExpr))

end Condition

theorem Condition.tokenize_print (condition : Condition)
    (quotable : ∀ needle ∈ condition.needles, Quotable needle) :
    tokenize letters condition.print = .ok (condition.tokensAt .orExpr) :=
  tokenize_render (condition.quotable_tokensAt quotable .orExpr)

theorem not_derives_nil : ¬ Derives prev .orExpr [] value := by
  intro derived
  have read := derived.reads [] 7 (by simp [Follows])
  simp [Reads, Gives, orExpr, andExpr, notExpr, comparison, primary, nested, Except.bind] at read

theorem Condition.tokensAt_ne_nil (condition : Condition) : condition.tokensAt .orExpr ≠ [] := by
  have derived : Derives none .orExpr (condition.tokensAt .orExpr) (condition.denote none) :=
    condition.derives_tokensAt (by simp [Symbol.IsExpr])
  exact fun nothing => not_derives_nil (nothing ▸ derived)

/-- The letters and digits of ASCII, and no others. -/
def asciiLetters : Letters := ⟨Char.isAlpha, Char.isAlphanum, fun _ _ => rfl, fun _ _ => rfl⟩

section

variable (condition : Condition) (quotable : ∀ needle ∈ condition.needles, Quotable needle)

include quotable

theorem Condition.filled_print : ¬ condition.print.toList.all isSpace = true := by
  intro blank
  have cut := @tokenize_print asciiLetters condition quotable
  rw [tokenize, tokenizeFrom_of_blank blank, Except.ok.injEq] at cut
  exact condition.tokensAt_ne_nil cut.symm

theorem Condition.fits_print : fits letters frames condition.print =
      operandFits (condition.tokensAt .orExpr) (.opened (frames + 1)) [] := by
  rw [fits, condition.tokenize_print quotable]
  cases tokens : condition.tokensAt .orExpr with
  | cons token more => rfl
  | nil => exact absurd tokens condition.tokensAt_ne_nil

end

/-- A blank condition holds. Any other is evaluated to a value exactly if it is cut into tokens
that the grammar derives with this value, and is refused otherwise. -/
structure ByGrammar (letters : Letters) (frames : Nat) (condition : String)
    (prev : Option AgentOutput) : Prop where
  blank : condition.toList.all isSpace = true → evaluate letters frames condition prev = .ok true
  value : ¬ condition.toList.all isSpace = true → ∀ value,
    evaluate letters frames condition prev = .ok value ↔
      ∃ tokens, tokenize letters condition = .ok tokens ∧ Derives prev .orExpr tokens value
  refused : ¬ condition.toList.all isSpace = true →
    (¬ ∃ tokens value, tokenize letters condition = .ok tokens ∧
      Derives prev .orExpr tokens value) →
    ∃ error, evaluate letters frames condition prev = .error (.refused error)

theorem byGrammar_of_fits (enough : fits letters frames condition = true) :
    ByGrammar letters frames condition prev where
  blank := evaluate_of_blank
  value filled value := evaluate_eq_ok_iff filled enough
  refused filled noSentence := by
    cases result : evaluate letters frames condition prev with
    | error failure =>
      cases failure with
      | recursion =>
        rw [evaluate_eq_recursion_iff.mp result] at enough
        cases enough
      | refused error => exact ⟨error, rfl⟩
    | ok value =>
      obtain ⟨tokens, cut, derived⟩ := (evaluate_eq_ok_iff filled enough).mp result
      exact absurd ⟨tokens, value, cut, derived⟩ noSentence

theorem not_byGrammar (few : fits letters frames condition = false) :
    ¬ ByGrammar letters frames condition prev := by
  intro graded
  have never := @evaluate_eq_recursion_iff letters prev condition frames |>.mpr few
  by_cases blank : condition.toList.all isSpace = true
  · cases never.symm.trans (graded.blank blank)
  · by_cases sentence : ∃ tokens value, tokenize letters condition = .ok tokens ∧
        Derives prev .orExpr tokens value
    · obtain ⟨tokens, value, cut, derived⟩ := sentence
      cases never.symm.trans ((graded.value blank value).mpr ⟨tokens, cut, derived⟩)
    · obtain ⟨error, refused⟩ := graded.refused blank sentence
      cases never.symm.trans refused

/-- A condition is evaluated by its grammar, and the text of an expression to what the expression
means, exactly if the frames suffice for the tokens. -/
theorem byGrammar_iff_fits (letters : Letters) (frames : Nat) (prev : Option AgentOutput) :
    (∀ condition : String,
      ByGrammar letters frames condition prev ↔ fits letters frames condition = true) ∧
    ∀ condition : Condition, (∀ needle ∈ condition.needles, Quotable needle) →
      (evaluate letters frames condition.print prev = .ok (condition.denote prev) ↔
        fits letters frames condition.print = true) := by
  refine ⟨fun condition => ⟨fun graded => ?_, byGrammar_of_fits⟩, fun condition quotable =>
    ⟨fun evaluated => ?_, fun enough => ?_⟩⟩
  · exact Bool.eq_true_of_not_eq_false fun few => not_byGrammar few graded
  · refine Bool.eq_true_of_not_eq_false fun few => ?_
    cases evaluated.symm.trans (evaluate_eq_recursion_iff.mpr few)
  · exact (evaluate_eq_ok_iff (condition.filled_print quotable) enough).mpr
      ⟨_, condition.tokenize_print quotable, condition.derives_tokensAt (by simp [Symbol.IsExpr])⟩

def unlessSources : Condition := .and .success (.or (.not (.files "src/")) (.literal false))

theorem byGrammar_iff_fits_unlessSources :
    evaluate asciiLetters 20 "prev.success && ( ! prev.files.contains(\x22src/\x22) || false )"
      (some ⟨"done", [⟨"docs/a.md"⟩], true⟩) = .ok true := by
  have text : unlessSources.print =
      "prev.success && ( ! prev.files.contains(\x22src/\x22) || false )" := by decide +kernel
  have quotable : ∀ needle ∈ unlessSources.needles, Quotable needle := by decide +kernel
  exact ((byGrammar_iff_fits asciiLetters 20 (some ⟨"done", [⟨"docs/a.md"⟩], true⟩)).2
    unlessSources quotable).mpr ((unlessSources.fits_print quotable).trans (by decide))

/-- A true condition behind negations. -/
def negations (count : Nat) : Condition := Condition.not^[count] (.literal true)

theorem negations_succ (count : Nat) : negations (count + 1) = .not (negations count) :=
  Function.iterate_succ_apply' _ _ _

theorem tokensAt_negations (count : Nat) :
    (negations count).tokensAt .orExpr =
      replicate count (.op .not) ++ [.keyword (.literal true)] := by
  have inner : ∀ count, (negations count).tokensAt .notExpr =
      replicate count (.op .not) ++ [.keyword (.literal true)] := by
    intro count
    induction count with
    | zero => rfl
    | succ count ih =>
      rw [negations_succ, Condition.tokensAt, ih]
      rfl
  cases count with
  | zero => rfl
  | succ count =>
    rw [negations_succ, Condition.tokensAt, inner]
    rfl

theorem needles_negations (count : Nat) : (negations count).needles = [] := by
  induction count with
  | zero => rfl
  | succ count ih => rw [negations_succ, Condition.needles, ih]

/-- With the usual limit of a thousand frames, an evaluation that is called at the top of a program
has 996 left in `_or_expr`. -/
theorem byGrammar_fails_negations :
    ¬ ByGrammar asciiLetters 996 (negations 1000).print none ∧
      evaluate asciiLetters 996 (negations 1000).print none ≠ .ok ((negations 1000).denote none) := by
  have quotable : ∀ needle ∈ (negations 1000).needles, Quotable needle := by
    rw [needles_negations]
    exact fun _ none => (not_mem_nil none).elim
  have few : fits asciiLetters 996 (negations 1000).print = false := by
    rw [Condition.fits_print _ quotable, tokensAt_negations]
    exact operandFits_negations rfl (by decide)
  refine ⟨not_byGrammar few, fun evaluated => ?_⟩
  cases evaluated.symm.trans (evaluate_eq_recursion_iff.mpr few)

end UltimateCoders.Workflow
