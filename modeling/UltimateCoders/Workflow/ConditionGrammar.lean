import UltimateCoders.Workflow.StepCondition

/-! # The grammar of step conditions

Tokens are derived by the grammar together with the value that they denote. Unless the frames
run out, the parser accepts exactly what the grammar derives, with that value.
-/

namespace UltimateCoders.Workflow

open List

variable {prev : Option AgentOutput} {tokens used rest : List Token} {value result : Bool}
  {frames : Nat}

/-- The symbols of the grammar; a tail is what is repeated behind a first operand. -/
inductive Symbol where
  | orExpr
  | orTail
  | andExpr
  | andTail
  | notExpr
  | comparison
  | primary
  deriving DecidableEq

inductive Atom (prev : Option AgentOutput) : Token → Bool → Prop where
  | success : Atom prev (.keyword .prevSuccess) (prev.any AgentOutput.success)
  | literal (value : Bool) : Atom prev (.keyword (.literal value)) value
  | files (needle : String) : Atom prev (.containsFiles needle)
      (prev.any fun output => output.fileChanges.any fun change => occursIn needle change.filePath)
  | summary (needle : String) : Atom prev (.containsSummary needle)
      (prev.any fun output => occursIn needle output.summary)

/-- The tokens that a symbol derives, and what they denote. -/
inductive Derives (prev : Option AgentOutput) : Symbol → List Token → Bool → Prop where
  | orExpr {first more : List Token} {left right : Bool} (head : Derives prev .andExpr first left)
      (tail : Derives prev .orTail more right) : Derives prev .orExpr (first ++ more) (left || right)
  | orEnd : Derives prev .orTail [] false
  | orMore {next more : List Token} {left right : Bool} (head : Derives prev .andExpr next left)
      (tail : Derives prev .orTail more right) :
      Derives prev .orTail (.op .or :: (next ++ more)) (left || right)
  | andExpr {first more : List Token} {left right : Bool} (head : Derives prev .notExpr first left)
      (tail : Derives prev .andTail more right) :
      Derives prev .andExpr (first ++ more) (left && right)
  | andEnd : Derives prev .andTail [] true
  | andMore {next more : List Token} {left right : Bool} (head : Derives prev .notExpr next left)
      (tail : Derives prev .andTail more right) :
      Derives prev .andTail (.op .and :: (next ++ more)) (left && right)
  | negation {operand : List Token} {value : Bool} (inner : Derives prev .notExpr operand value) :
      Derives prev .notExpr (.op .not :: operand) (!value)
  | compared {operand : List Token} {value : Bool} (inner : Derives prev .comparison operand value) :
      Derives prev .notExpr operand value
  | single {operand : List Token} {value : Bool} (inner : Derives prev .primary operand value) :
      Derives prev .comparison operand value
  | equal {first second : List Token} {left right : Bool} (head : Derives prev .primary first left)
      (tail : Derives prev .primary second right) :
      Derives prev .comparison (first ++ .op .eq :: second) (left == right)
  | unequal {first second : List Token} {left right : Bool}
      (head : Derives prev .primary first left) (tail : Derives prev .primary second right) :
      Derives prev .comparison (first ++ .op .ne :: second) (left != right)
  | atom {token : Token} {value : Bool} (known : Atom prev token value) :
      Derives prev .primary [token] value
  | parenthesized {operand : List Token} {value : Bool} (inner : Derives prev .orExpr operand value) :
      Derives prev .primary (.op .openParen :: (operand ++ [.op .closeParen])) value

variable {symbol : Symbol} {token : Token} {answer : Bool × List Token}

theorem atom_eq_ok_iff : atom prev token = .ok value ↔ Atom prev token value := by
  constructor
  · intro known
    cases token with
    | op operator => cases known
    | keyword word =>
      cases word <;> cases known
      · exact .success
      · exact .literal _
    | containsFiles needle =>
      cases known
      exact .files needle
    | containsSummary needle =>
      cases known
      exact .summary needle
  · intro known
    cases known <;> rfl

def StartsWith (operator : Operator) (tokens : List Token) : Prop :=
  tokens.head? = some (.op operator)

instance (operator : Operator) (tokens : List Token) : Decidable (StartsWith operator tokens) :=
  inferInstanceAs (Decidable (tokens.head? = some (.op operator)))

variable {operator : Operator}

@[simp]
theorem startsWith_cons : StartsWith operator (token :: tokens) ↔ token = .op operator := by
  simp [StartsWith]

@[simp]
theorem not_startsWith_nil : ¬ StartsWith operator [] := by
  simp [StartsWith]

theorem exists_of_startsWith (starts : StartsWith operator tokens) :
    ∃ more, tokens = .op operator :: more := by
  cases tokens with
  | nil => exact absurd starts not_startsWith_nil
  | cons token more => exact ⟨more, by rw [startsWith_cons.mp starts]⟩

section Steps

variable {join : Bool → Bool → Bool} {operand : List Token → Parsed} {turns : Nat}

theorem operands_stop (stop : ¬ StartsWith operator tokens) :
    operands operator join operand turns result tokens = .ok (result, tokens) := by
  cases turns with
  | zero => rfl
  | succ turns =>
    cases tokens with
    | nil => rfl
    | cons token tokens => exact if_neg fun same => stop (startsWith_cons.mpr same)

theorem operands_turn :
    operands operator join operand (turns + 1) result (.op operator :: tokens) =
      (operand tokens).bind fun right =>
        operands operator join operand turns (join result right.1) right.2 :=
  if_pos rfl

theorem notExpr_compared (stop : ¬ StartsWith .not tokens) :
    notExpr prev (frames + 1) tokens = comparison prev frames tokens := by
  unfold notExpr
  split <;> simp_all

theorem comparison_single (first : primary prev frames tokens = .ok (value, rest))
    (noEq : ¬ StartsWith .eq rest) (noNe : ¬ StartsWith .ne rest) :
    comparison prev (frames + 1) tokens = .ok (value, rest) := by
  unfold comparison
  rw [first]
  dsimp only [Except.bind]
  split <;> simp_all

theorem primary_token (other : token ≠ .op .openParen) :
    primary prev (frames + 1) (token :: tokens) = atomExpr prev frames token tokens := by
  unfold primary
  split <;> simp_all

theorem nested_eq_ok {calls : Nat} {answer : Parsed} {found : Bool × List Token}
    (deep : nested calls frames answer = .ok found) : answer = .ok found := by
  unfold nested at deep
  split at deep
  · exact deep
  · cases deep

theorem atomExpr_eq_ok (taken : atomExpr prev frames token tokens = .ok answer) :
    Atom prev token answer.1 ∧ answer.2 = tokens := by
  unfold atomExpr at taken
  rw [← atom_eq_ok_iff]
  cases known : atom prev token with
  | error error =>
    rw [known] at taken
    cases nested_eq_ok taken
  | ok value =>
    rw [known] at taken
    cases nested_eq_ok taken
    exact ⟨rfl, rfl⟩

theorem bind_eq_ok {first : Parsed} {next : Bool × List Token → Parsed}
    (both : first.bind next = .ok answer) :
    ∃ value rest, first = .ok (value, rest) ∧ next (value, rest) = .ok answer := by
  cases first with
  | error error => cases both
  | ok found => exact ⟨found.1, found.2, rfl, both⟩

theorem expectClose_eq_ok {inner : Bool × List Token} (closed : expectClose inner = .ok answer) :
    inner = (answer.1, .op .closeParen :: answer.2) := by
  obtain ⟨value, rest⟩ := inner
  unfold expectClose at closed
  dsimp only at closed
  split at closed
  · cases closed
    rfl
  · cases closed

end Steps

/-- The tokens begin with a derivation of the symbol, and the rest is left. -/
def Takes (prev : Option AgentOutput) (symbol : Symbol) (tokens : List Token)
    (answer : Bool × List Token) : Prop :=
  ∃ used, tokens = used ++ answer.2 ∧ Derives prev symbol used answer.1

/-- Every success of the parser with these frames is a derivation of the tokens it took. -/
structure Sound (prev : Option AgentOutput) (frames : Nat) : Prop where
  orExpr : ∀ tokens answer, orExpr prev frames tokens = .ok answer → Takes prev .orExpr tokens answer
  andExpr : ∀ tokens answer, andExpr prev frames tokens = .ok answer →
    Takes prev .andExpr tokens answer
  notExpr : ∀ tokens answer, notExpr prev frames tokens = .ok answer →
    Takes prev .notExpr tokens answer
  comparison : ∀ tokens answer, comparison prev frames tokens = .ok answer →
    Takes prev .comparison tokens answer
  primary : ∀ tokens answer, primary prev frames tokens = .ok answer →
    Takes prev .primary tokens answer

/-- What the loop takes is derived by a tail symbol, if the tail can end and go on as the loop
does. -/
theorem operands_takes {join : Bool → Bool → Bool} {unit : Bool} {operand : List Token → Parsed}
    {item tail : Symbol} {turns : Nat}
    (takes : ∀ tokens answer, operand tokens = .ok answer → Takes prev item tokens answer)
    (ends : Derives prev tail [] unit)
    (goesOn : ∀ {next more left right}, Derives prev item next left →
      Derives prev tail more right →
      Derives prev tail (.op operator :: (next ++ more)) (join left right))
    (assoc : ∀ one two three, join (join one two) three = join one (join two three))
    (neutral : ∀ one, join one unit = one)
    (parsed : operands operator join operand turns result tokens = .ok answer) :
    ∃ more, Takes prev tail tokens (more, answer.2) ∧ answer.1 = join result more := by
  induction turns generalizing result tokens with
  | zero =>
    cases parsed
    exact ⟨unit, ⟨[], rfl, ends⟩, (neutral _).symm⟩
  | succ turns again =>
    by_cases starts : StartsWith operator tokens
    · obtain ⟨behind, rfl⟩ := exists_of_startsWith starts
      rw [operands_turn] at parsed
      obtain ⟨left, middle, first, more⟩ := bind_eq_ok parsed
      obtain ⟨head, rfl, derived⟩ := takes _ _ first
      obtain ⟨right, ⟨tail, same, derivedTail⟩, value⟩ := again more
      dsimp only at same derived derivedTail value
      exact ⟨join left right,
        ⟨.op operator :: (head ++ tail), by simp [same], goesOn derived derivedTail⟩,
        by rw [value, assoc]⟩
    · rw [operands_stop starts] at parsed
      cases parsed
      exact ⟨unit, ⟨[], rfl, ends⟩, (neutral _).symm⟩

namespace Sound

variable {answer : Bool × List Token} (ih : Sound prev frames)

include ih

theorem orExpr_succ (parsed : Workflow.orExpr prev (frames + 1) tokens = .ok answer) :
    Takes prev .orExpr tokens answer := by
  obtain ⟨left, middle, first, more⟩ := bind_eq_ok parsed
  obtain ⟨head, rfl, derived⟩ := ih.andExpr _ _ first
  obtain ⟨right, ⟨tail, same, derivedTail⟩, value⟩ :=
    operands_takes ih.andExpr .orEnd .orMore Bool.or_assoc Bool.or_false more
  dsimp only at same derived derivedTail value
  exact ⟨head ++ tail, by simp [same], value ▸ .orExpr derived derivedTail⟩

theorem andExpr_succ (parsed : Workflow.andExpr prev (frames + 1) tokens = .ok answer) :
    Takes prev .andExpr tokens answer := by
  obtain ⟨left, middle, first, more⟩ := bind_eq_ok parsed
  obtain ⟨head, rfl, derived⟩ := ih.notExpr _ _ first
  obtain ⟨right, ⟨tail, same, derivedTail⟩, value⟩ :=
    operands_takes ih.notExpr .andEnd .andMore Bool.and_assoc Bool.and_true more
  dsimp only at same derived derivedTail value
  exact ⟨head ++ tail, by simp [same], value ▸ .andExpr derived derivedTail⟩

theorem notExpr_succ (parsed : Workflow.notExpr prev (frames + 1) tokens = .ok answer) :
    Takes prev .notExpr tokens answer := by
  by_cases starts : StartsWith .not tokens
  · obtain ⟨behind, rfl⟩ := exists_of_startsWith starts
    obtain ⟨inner, middle, first, more⟩ := bind_eq_ok parsed
    obtain ⟨operand, rfl, derived⟩ := ih.notExpr _ _ first
    cases more
    exact ⟨.op .not :: operand, rfl, .negation derived⟩
  · rw [notExpr_compared starts] at parsed
    obtain ⟨operand, same, derived⟩ := ih.comparison _ _ parsed
    exact ⟨operand, same, .compared derived⟩

theorem comparison_succ (parsed : Workflow.comparison prev (frames + 1) tokens = .ok answer) :
    Takes prev .comparison tokens answer := by
  obtain ⟨left, middle, first, more⟩ := bind_eq_ok parsed
  obtain ⟨head, rfl, derived⟩ := ih.primary _ _ first
  dsimp only at derived more ⊢
  split at more
  · obtain ⟨right, after, second, last⟩ := bind_eq_ok more
    obtain ⟨tail, rfl, derivedTail⟩ := ih.primary _ _ second
    cases last
    exact ⟨head ++ .op .eq :: tail, by simp, .equal derived derivedTail⟩
  · obtain ⟨right, after, second, last⟩ := bind_eq_ok more
    obtain ⟨tail, rfl, derivedTail⟩ := ih.primary _ _ second
    cases last
    exact ⟨head ++ .op .ne :: tail, by simp, .unequal derived derivedTail⟩
  · cases more
    exact ⟨head, rfl, .single derived⟩

theorem primary_succ (parsed : Workflow.primary prev (frames + 1) tokens = .ok answer) :
    Takes prev .primary tokens answer := by
  cases tokens with
  | nil => cases nested_eq_ok parsed
  | cons token behind =>
    by_cases opened : token = .op .openParen
    · subst opened
      obtain ⟨inner, middle, first, closed⟩ := bind_eq_ok parsed
      obtain ⟨operand, rfl, derived⟩ := ih.orExpr _ _ first
      have last := expectClose_eq_ok closed
      rw [Prod.mk.injEq] at last
      dsimp only at derived ⊢
      refine ⟨.op .openParen :: (operand ++ [.op .closeParen]), ?_, last.1 ▸ .parenthesized derived⟩
      simp [last.2]
    · rw [primary_token opened] at parsed
      obtain ⟨known, left⟩ := atomExpr_eq_ok parsed
      exact ⟨[token], by rw [left]; rfl, .atom known⟩

end Sound

theorem sound (prev : Option AgentOutput) (frames : Nat) : Sound prev frames := by
  induction frames with
  | zero =>
    constructor
    all_goals intros; rename_i never; cases never
  | succ frames ih =>
    exact ⟨fun _ _ => ih.orExpr_succ, fun _ _ => ih.andExpr_succ, fun _ _ => ih.notExpr_succ,
      fun _ _ => ih.comparison_succ, fun _ _ => ih.primary_succ⟩

/-- The operators that cannot follow a symbol, for the parser would go on with them. -/
def Symbol.stops : Symbol → List Operator
  | orExpr | orTail => [.or, .and, .eq, .ne]
  | andExpr | andTail => [.and, .eq, .ne]
  | notExpr | comparison => [.eq, .ne]
  | primary => []

def Follows (symbol : Symbol) (rest : List Token) : Prop :=
  ∀ operator ∈ symbol.stops, ¬ StartsWith operator rest

/-- The parser finds this value and leaves this rest, unless the frames run out. -/
def Gives (parsed : Parsed) (value : Bool) (rest : List Token) : Prop :=
  parsed = .ok (value, rest) ∨ parsed = .error .recursion

theorem Gives.bind {first : Parsed} {next : Bool × List Token → Parsed} {answer : Bool}
    {middle : List Token} (begins : Gives first value middle)
    (goesOn : Gives (next (value, middle)) answer rest) : Gives (first.bind next) answer rest := by
  rcases begins with found | cut
  · rw [found]
    exact goesOn
  · rw [cut]
    exact .inr rfl

/-- The parser of the symbol takes tokens of this value, and leaves the rest. -/
def Reads (prev : Option AgentOutput) (frames : Nat) (tokens : List Token) (value : Bool)
    (rest : List Token) : Symbol → Prop
  | .orExpr => Gives (orExpr prev frames tokens) value rest
  | .orTail => ∀ result turns, tokens.length ≤ turns →
    Gives (operands .or or (andExpr prev frames) turns result tokens) (result || value) rest
  | .andExpr => Gives (andExpr prev frames tokens) value rest
  | .andTail => ∀ result turns, tokens.length ≤ turns →
    Gives (operands .and and (notExpr prev frames) turns result tokens) (result && value) rest
  | .notExpr => Gives (notExpr prev frames tokens) value rest
  | .comparison => Gives (comparison prev frames tokens) value rest
  | .primary => Gives (primary prev frames tokens) value rest

theorem reads_zero (expr : symbol ≠ .orTail ∧ symbol ≠ .andTail) :
    Reads prev 0 tokens value rest symbol := by
  cases symbol with
  | orTail => exact absurd rfl expr.1
  | andTail => exact absurd rfl expr.2
  | _ => exact .inr rfl

theorem Follows.primary (rest : List Token) : Follows .primary rest := by
  simp [Follows, Symbol.stops]

theorem Derives.follows_orTail {more : List Token} (derived : Derives prev .orTail more value)
    (follows : Follows .orExpr rest) : Follows .andExpr (more ++ rest) := by
  cases derived with
  | orEnd => exact fun operator member => follows operator (mem_cons_of_mem _ member)
  | orMore head tail => simp [Follows, Symbol.stops]

theorem Derives.follows_andTail {more : List Token} (derived : Derives prev .andTail more value)
    (follows : Follows .andExpr rest) : Follows .notExpr (more ++ rest) := by
  cases derived with
  | andEnd => exact fun operator member => follows operator (mem_cons_of_mem _ member)
  | andMore head tail => simp [Follows, Symbol.stops]

theorem Derives.not_startsWith_not (derived : Derives prev symbol used value)
    (operand : symbol = .comparison ∨ symbol = .primary) (rest : List Token) :
    ¬ StartsWith .not (used ++ rest) := by
  induction derived generalizing rest with
  | single inner ih => exact ih (.inr rfl) rest
  | equal head tail ihHead ihTail =>
    rw [append_assoc]
    exact ihHead (.inr rfl) _
  | unequal head tail ihHead ihTail =>
    rw [append_assoc]
    exact ihHead (.inr rfl) _
  | atom known => cases known <;> simp
  | parenthesized inner ih => simp
  | orExpr | orEnd | orMore | andExpr | andEnd | andMore | negation | compared => simp at operand

/-- The parser of a symbol takes whatever the symbol derives, where it cannot go on behind it. -/
theorem Derives.reads (derived : Derives prev symbol used value) :
    ∀ rest frames, Follows symbol rest → Reads prev frames (used ++ rest) value rest symbol := by
  induction derived <;> intro rest frames follows
  case orEnd =>
    intro result turns _
    rw [nil_append, operands_stop (follows .or (by simp [Symbol.stops])), Bool.or_false]
    exact .inl rfl
  case orMore next more left right head tail ihHead ihTail =>
    intro result turns enough
    have first := ihHead (more ++ rest) frames (tail.follows_orTail follows)
    rw [cons_append, append_assoc] at enough ⊢
    simp only [length_cons, length_append] at enough
    obtain ⟨turns, rfl⟩ : ∃ less, turns = less + 1 := ⟨turns - 1, by omega⟩
    have second := ihTail rest frames follows (result || left) turns (by rw [length_append]; omega)
    rw [operands_turn, ← Bool.or_assoc]
    exact first.bind second
  case andEnd =>
    intro result turns _
    rw [nil_append, operands_stop (follows .and (by simp [Symbol.stops])), Bool.and_true]
    exact .inl rfl
  case andMore next more left right head tail ihHead ihTail =>
    intro result turns enough
    have first := ihHead (more ++ rest) frames (tail.follows_andTail follows)
    rw [cons_append, append_assoc] at enough ⊢
    simp only [length_cons, length_append] at enough
    obtain ⟨turns, rfl⟩ : ∃ less, turns = less + 1 := ⟨turns - 1, by omega⟩
    have second := ihTail rest frames follows (result && left) turns (by rw [length_append]; omega)
    rw [operands_turn, ← Bool.and_assoc]
    exact first.bind second
  all_goals
    cases frames with
    | zero => exact reads_zero (by simp)
    | succ frames => ?_
  case orExpr.succ first more left right head tail ihHead ihTail =>
    rw [append_assoc]
    exact Gives.bind (ihHead (more ++ rest) frames (tail.follows_orTail follows))
      (ihTail rest frames follows left _ le_rfl)
  case andExpr.succ first more left right head tail ihHead ihTail =>
    rw [append_assoc]
    exact Gives.bind (ihHead (more ++ rest) frames (tail.follows_andTail follows))
      (ihTail rest frames follows left _ le_rfl)
  case negation.succ operand value inner ih =>
    exact Gives.bind (ih rest frames follows) (.inl rfl)
  case compared.succ operand value inner ih =>
    change Gives (Workflow.notExpr prev (frames + 1) _) _ _
    rw [notExpr_compared (inner.not_startsWith_not (.inl rfl) rest)]
    exact ih rest frames follows
  case single.succ operand value inner ih =>
    rcases ih rest frames (.primary rest) with taken | cut
    · exact .inl (comparison_single taken (follows .eq (by simp [Symbol.stops]))
        (follows .ne (by simp [Symbol.stops])))
    · change Gives (Workflow.comparison prev (frames + 1) _) _ _
      unfold Workflow.comparison
      rw [cut]
      exact .inr rfl
  case equal.succ first second left right head tail ihHead ihTail =>
    rw [append_assoc]
    exact Gives.bind (ihHead (.op .eq :: (second ++ rest)) frames (.primary _))
      (Gives.bind (ihTail rest frames (.primary rest)) (.inl rfl))
  case unequal.succ first second left right head tail ihHead ihTail =>
    rw [append_assoc]
    exact Gives.bind (ihHead (.op .ne :: (second ++ rest)) frames (.primary _))
      (Gives.bind (ihTail rest frames (.primary rest)) (.inl rfl))
  case atom.succ token value known =>
    have other : token ≠ .op .openParen := by cases known <;> simp
    change Gives (Workflow.primary prev (frames + 1) (token :: rest)) _ _
    rw [primary_token other, atomExpr, atom_eq_ok_iff.mpr known]
    by_cases enough : 3 ≤ frames
    · exact .inl (if_pos enough)
    · exact .inr (if_neg enough)
  case parenthesized.succ operand value inner ih =>
    rw [cons_append, append_assoc]
    exact Gives.bind (ih (.op .closeParen :: rest) frames (by simp [Follows, Symbol.stops]))
      (.inl rfl)

theorem Takes.length_le (takes : Takes prev symbol tokens answer) :
    answer.2.length ≤ tokens.length := by
  obtain ⟨used, rfl, -⟩ := takes
  simp

/-- Unless the frames run out, the parser finds exactly the values that the grammar derives. -/
theorem parse_eq_ok_iff (uncut : parse prev frames tokens ≠ .error .recursion) :
    parse prev frames tokens = .ok value ↔ Derives prev .orExpr tokens value := by
  constructor
  · intro parsed
    cases first : orExpr prev (frames + 1) tokens with
    | error error => simp [parse, first, Except.bind] at parsed
    | ok answer =>
      obtain ⟨used, same, derived⟩ := (sound prev _).orExpr _ _ first
      simp only [parse, first, Except.bind] at parsed
      split at parsed
      · rename_i nothing
        cases parsed
        rw [same, nothing, append_nil]
        exact derived
      · cases parsed
  · intro derived
    have parsed := derived.reads [] (frames + 1) (by simp [Follows])
    rw [append_nil] at parsed
    unfold parse at uncut ⊢
    rcases parsed with found | cut
    · rw [found]
      rfl
    · exact absurd (congrArg (Except.bind · _) cut) uncut

end UltimateCoders.Workflow
