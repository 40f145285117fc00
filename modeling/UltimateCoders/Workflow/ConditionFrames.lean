import UltimateCoders.Workflow.ConditionGrammar

/-! # Frames of step conditions

How many frames an evaluation takes is seen from the tokens: an open parenthesis takes five, a
negation in front of an operand takes one, and an operand takes four more for a moment. Where a
token cannot stand, the evaluation ends.
-/

namespace UltimateCoders.Workflow

open List

/-- Where an evaluation stands between two parentheses: the frames that are left for a first
operand, those for the next operand, and whether that one is compared with the one before. -/
structure Level where
  first : Nat
  next : Nat
  compared : Bool

namespace Level

/-- The level of a whole expression, with the frames that its call has. -/
def opened (frames : Nat) : Level := ⟨frames - 4, frames - 4, false⟩

def start (first : Nat) : Level := ⟨first, first, false⟩

end Level

mutual

/-- An operand comes next, and the frames suffice for it and for what follows. -/
def operandFits : List Token → Level → List Level → Bool
  | [], level, _ => 2 ≤ level.next
  | .op .not :: tokens, level, outer =>
    if level.compared then 3 ≤ level.next
    else operandFits tokens { level with next := level.next - 1 } outer
  | .op .openParen :: tokens, level, outer =>
    operandFits tokens (.opened (level.next - 1)) (level :: outer)
  | .op _ :: _, level, _ => 3 ≤ level.next
  | _ :: tokens, level, outer => 4 ≤ level.next && restFits tokens level outer

/-- An operand was taken, and the frames suffice for what follows. -/
def restFits : List Token → Level → List Level → Bool
  | .op .eq :: tokens, level, outer | .op .ne :: tokens, level, outer =>
    level.compared || operandFits tokens { level with compared := true } outer
  | .op .and :: tokens, level, outer | .op .or :: tokens, level, outer =>
    operandFits tokens (.start level.first) outer
  | .op .closeParen :: tokens, _, around :: outer => restFits tokens around outer
  | _, _, _ => true

end

/-- The frames suffice to evaluate the condition, or to find out that it is none. -/
def fits (letters : Letters) (frames : Nat) (condition : String) : Bool :=
  match tokenize letters condition with
  | .error _ | .ok [] => true
  | .ok tokens => operandFits tokens (.opened (frames + 1)) []

variable {prev : Option AgentOutput} {tokens : List Token} {frames first : Nat} {level : Level}
  {outer : List Level}

theorem operandFits_zero (none : level.next = 0) : operandFits tokens level outer = false := by
  induction tokens generalizing level outer with
  | nil => simp [operandFits, none]
  | cons token tokens ih =>
    cases token with
    | op operator =>
      cases operator with
      | not =>
        unfold operandFits
        split
        · simp [none]
        · exact ih (by simp [none])
      | openParen =>
        unfold operandFits
        exact ih (by simp [Level.opened, none])
      | or | and | eq | ne | closeParen => simp [operandFits, none]
    | keyword word => simp [operandFits, none]
    | containsFiles needle => simp [operandFits, none]
    | containsSummary needle => simp [operandFits, none]

/-- Every negation in front of an operand takes a frame. -/
theorem operandFits_negations {count : Nat} (plain : level.compared = false)
    (many : level.next ≤ count) :
    operandFits (replicate count (.op .not) ++ tokens) level outer = false := by
  induction count generalizing level with
  | zero => exact operandFits_zero (Nat.le_zero.mp many)
  | succ count ih =>
    rw [replicate_succ, cons_append]
    unfold operandFits
    rw [plain]
    exact ih rfl (Nat.sub_le_of_le_add many)

/-- What a parser says of the frames, where this is said of what it leaves. -/
def Parsed.affords (parsed : Parsed) (later : List Token → Bool) : Bool :=
  match parsed with
  | .ok answer => later answer.2
  | .error (.refused _) => true
  | .error .recursion => false

theorem Parsed.affords_congr {parsed : Parsed} {later other : List Token → Bool}
    (same : ∀ answer, parsed = .ok answer → later answer.2 = other answer.2) :
    parsed.affords later = parsed.affords other := by
  cases parsed with
  | error failure => cases failure <;> rfl
  | ok answer => exact same answer rfl

theorem Parsed.affords_bind {parsed : Parsed} {next : Bool × List Token → Parsed}
    {later other : List Token → Bool}
    (goesOn : ∀ answer, parsed = .ok answer → (next answer).affords later = other answer.2) :
    Parsed.affords (parsed.bind next) later = parsed.affords other := by
  cases parsed with
  | error failure => cases failure <;> rfl
  | ok answer => exact goesOn answer rfl

theorem Parsed.affords_nested {calls : Nat} {parsed : Parsed} {later : List Token → Bool} :
    Parsed.affords (nested calls frames parsed) later =
      (decide (calls ≤ frames) && parsed.affords later) := by
  unfold nested
  split
  · rename_i enough
    rw [decide_eq_true enough, Bool.true_and]
  · rename_i few
    rw [decide_eq_false few]
    rfl

/-- An expression was taken. -/
def closeFits : List Token → List Level → Bool
  | .op .closeParen :: tokens, around :: outer => restFits tokens around outer
  | _, _ => true

/-- An operand that is not compared any more was taken. -/
def chainFits (first : Nat) (tokens : List Token) (outer : List Level) : Bool :=
  restFits tokens ⟨first, first, true⟩ outer

theorem closeFits_nil : closeFits tokens [] = true := by
  unfold closeFits
  split
  · contradiction
  · rfl

theorem restFits_of_compared (compared : level.compared = true) :
    restFits tokens level outer = chainFits level.first tokens outer := by
  unfold chainFits restFits
  split <;> simp_all

theorem restFits_of_stop (noEq : ¬ StartsWith .eq tokens) (noNe : ¬ StartsWith .ne tokens) :
    restFits tokens level outer = chainFits level.first tokens outer := by
  unfold chainFits restFits
  split <;> simp_all

theorem chainFits_of_stop (noOr : ¬ StartsWith .or tokens) (noAnd : ¬ StartsWith .and tokens) :
    chainFits first tokens outer = closeFits tokens outer := by
  unfold chainFits restFits closeFits
  split <;> simp_all

/-- The frames suffice for the parser exactly where the tokens say so. -/
structure Scanned (prev : Option AgentOutput) (frames : Nat) : Prop where
  orExpr : ∀ tokens outer, operandFits tokens (.opened frames) outer =
    Parsed.affords (orExpr prev frames tokens) (closeFits · outer)
  andExpr : ∀ tokens outer, operandFits tokens (.start (frames - 3)) outer =
    Parsed.affords (andExpr prev frames tokens) (chainFits (frames - 3) · outer)
  notExpr : ∀ tokens first outer, operandFits tokens ⟨first, frames - 2, false⟩ outer =
    Parsed.affords (notExpr prev frames tokens) (chainFits first · outer)
  comparison : ∀ tokens first outer, ¬ StartsWith .not tokens →
    operandFits tokens ⟨first, frames - 1, false⟩ outer =
      Parsed.affords (comparison prev frames tokens) (chainFits first · outer)
  primary : ∀ tokens level outer, level.next = frames →
    level.compared = true ∨ ¬ StartsWith .not tokens →
      operandFits tokens level outer =
        Parsed.affords (primary prev frames tokens) (restFits · level outer)

theorem scanned_zero : Scanned prev 0 where
  orExpr _ _ := operandFits_zero rfl
  andExpr _ _ := operandFits_zero rfl
  notExpr _ _ _ := operandFits_zero rfl
  comparison _ _ _ _ := operandFits_zero rfl
  primary _ _ _ none _ := operandFits_zero none

/-- The operands that are joined leave nothing behind that could be joined. -/
theorem not_startsWith_of_operands {operator : Operator} {join : Bool → Bool → Bool}
    {operand : List Token → Parsed} {turns : Nat} {result : Bool} {answer : Bool × List Token}
    (shorter : ∀ tokens answer, operand tokens = .ok answer → answer.2.length ≤ tokens.length)
    (enough : tokens.length ≤ turns)
    (taken : operands operator join operand turns result tokens = .ok answer) :
    ¬ StartsWith operator answer.2 := by
  induction turns generalizing result tokens with
  | zero =>
    cases taken
    rw [length_eq_zero_iff.mp (Nat.le_zero.mp enough)]
    exact not_startsWith_nil
  | succ turns ih =>
    by_cases starts : StartsWith operator tokens
    · obtain ⟨behind, rfl⟩ := exists_of_startsWith starts
      rw [operands_turn] at taken
      obtain ⟨value, rest, found, more⟩ := bind_eq_ok taken
      exact ih ((shorter _ _ found).trans (Nat.le_of_succ_le_succ enough)) more
    · rw [operands_stop starts] at taken
      cases taken
      exact starts

theorem not_startsWith_of_andExpr {answer : Bool × List Token}
    (taken : andExpr prev frames tokens = .ok answer) : ¬ StartsWith .and answer.2 := by
  cases frames with
  | zero => cases taken
  | succ frames =>
    obtain ⟨left, rest, -, more⟩ := bind_eq_ok taken
    exact not_startsWith_of_operands
      (fun _ _ found => ((sound prev frames).notExpr _ _ found).length_le) le_rfl more

namespace Scanned

variable (ih : Scanned prev frames)

include ih

theorem operands_and {turns : Nat} {result : Bool} (enough : tokens.length ≤ turns) :
    Parsed.affords (operands .and and (Workflow.notExpr prev frames) turns result tokens)
      (chainFits (frames - 2) · outer) = chainFits (frames - 2) tokens outer := by
  induction turns generalizing result tokens with
  | zero => rfl
  | succ turns again =>
    by_cases starts : StartsWith .and tokens
    · obtain ⟨behind, rfl⟩ := exists_of_startsWith starts
      rw [operands_turn]
      refine (Parsed.affords_bind fun answer found => again ?_).trans
        (ih.notExpr behind (frames - 2) outer).symm
      exact ((sound prev frames).notExpr _ _ found).length_le.trans (Nat.le_of_succ_le_succ enough)
    · rw [operands_stop starts]
      rfl

theorem andExpr_succ : operandFits tokens (.start (frames + 1 - 3)) outer =
    Parsed.affords (Workflow.andExpr prev (frames + 1) tokens)
      (chainFits (frames + 1 - 3) · outer) :=
  (ih.notExpr tokens (frames - 2) outer).trans
    (Parsed.affords_bind fun _ _ => ih.operands_and le_rfl).symm

theorem operands_or {turns : Nat} {result : Bool} (enough : tokens.length ≤ turns)
    (noAnd : ¬ StartsWith .and tokens) :
    Parsed.affords (operands .or or (Workflow.andExpr prev frames) turns result tokens)
      (closeFits · outer) = chainFits (frames - 3) tokens outer := by
  induction turns generalizing result tokens with
  | zero =>
    rw [length_eq_zero_iff.mp (Nat.le_zero.mp enough)]
    rfl
  | succ turns again =>
    by_cases starts : StartsWith .or tokens
    · obtain ⟨behind, rfl⟩ := exists_of_startsWith starts
      rw [operands_turn]
      refine (Parsed.affords_bind fun answer found => again ?_ ?_).trans (ih.andExpr behind outer).symm
      · exact ((sound prev frames).andExpr _ _ found).length_le.trans
          (Nat.le_of_succ_le_succ enough)
      · exact not_startsWith_of_andExpr found
    · rw [operands_stop starts, chainFits_of_stop starts noAnd]
      rfl

theorem orExpr_succ : operandFits tokens (.opened (frames + 1)) outer =
    Parsed.affords (Workflow.orExpr prev (frames + 1) tokens) (closeFits · outer) :=
  (ih.andExpr tokens outer).trans
    (Parsed.affords_bind fun _ found =>
      ih.operands_or le_rfl (not_startsWith_of_andExpr found)).symm

theorem notExpr_succ : operandFits tokens ⟨first, frames + 1 - 2, false⟩ outer =
    Parsed.affords (Workflow.notExpr prev (frames + 1) tokens) (chainFits first · outer) := by
  by_cases starts : StartsWith .not tokens
  · obtain ⟨behind, rfl⟩ := exists_of_startsWith starts
    exact (ih.notExpr behind first outer).trans (Parsed.affords_bind fun _ _ => rfl).symm
  · rw [notExpr_compared starts]
    exact ih.comparison tokens first outer starts

theorem comparison_succ (operand : ¬ StartsWith .not tokens) :
    operandFits tokens ⟨first, frames, false⟩ outer =
      Parsed.affords (Workflow.comparison prev (frames + 1) tokens) (chainFits first · outer) := by
  refine (ih.primary tokens ⟨first, frames, false⟩ outer rfl (.inr operand)).trans
    (Parsed.affords_bind fun answer _ => ?_).symm
  have second : ∀ behind, operandFits behind ⟨first, frames, true⟩ outer =
      Parsed.affords (Workflow.primary prev frames behind) (chainFits first · outer) := by
    intro behind
    refine (ih.primary behind ⟨first, frames, true⟩ outer rfl (.inl rfl)).trans ?_
    exact Parsed.affords_congr fun _ _ => restFits_of_compared rfl
  split
  · rename_i behind starts
    rw [starts]
    exact (Parsed.affords_bind fun _ _ => rfl).trans (second behind).symm
  · rename_i behind starts
    rw [starts]
    exact (Parsed.affords_bind fun _ _ => rfl).trans (second behind).symm
  · rename_i noEq noNe
    refine (@restFits_of_stop _ ⟨first, frames, false⟩ _ (fun starts => ?_) fun starts => ?_).symm
    · obtain ⟨behind, same⟩ := exists_of_startsWith starts
      exact noEq behind same
    · obtain ⟨behind, same⟩ := exists_of_startsWith starts
      exact noNe behind same

theorem primary_succ (room : level.next = frames + 1)
    (operand : level.compared = true ∨ ¬ StartsWith .not tokens) :
    operandFits tokens level outer =
      Parsed.affords (Workflow.primary prev (frames + 1) tokens) (restFits · level outer) := by
  cases tokens with
  | nil =>
    unfold Workflow.primary operandFits
    rw [Parsed.affords_nested, room]
    simp [Parsed.affords]
  | cons token behind =>
    by_cases opens : token = .op .openParen
    · subst opens
      unfold operandFits Workflow.primary
      rw [room]
      refine (ih.orExpr behind (level :: outer)).trans (Parsed.affords_bind fun answer _ => ?_).symm
      unfold expectClose closeFits
      split <;> simp_all [Parsed.affords]
    · rw [primary_token opens, atomExpr]
      cases token with
      | op operator =>
        rw [atom, Parsed.affords_nested]
        cases operator with
        | openParen => exact absurd rfl opens
        | not =>
          have compared : level.compared = true := by simpa using operand
          simp [operandFits, compared, room, Parsed.affords]
        | or | and | eq | ne | closeParen => simp [operandFits, room, Parsed.affords]
      | keyword word =>
        cases word with
        | prevSuccess | literal =>
          rw [atom, Parsed.affords_nested]
          simp [operandFits, room, Parsed.affords]
      | containsFiles | containsSummary =>
        rw [atom, Parsed.affords_nested]
        simp [operandFits, room, Parsed.affords]

end Scanned

theorem scanned (prev : Option AgentOutput) (frames : Nat) : Scanned prev frames := by
  induction frames with
  | zero => exact scanned_zero
  | succ frames ih =>
    exact ⟨fun _ _ => ih.orExpr_succ, fun _ _ => ih.andExpr_succ, fun _ _ _ => ih.notExpr_succ,
      fun _ _ _ => ih.comparison_succ, fun _ _ _ => ih.primary_succ⟩

/-- The frames run out exactly where the tokens say so. -/
theorem parse_eq_recursion_iff : parse prev frames tokens = .error .recursion ↔
    operandFits tokens (.opened (frames + 1)) [] = false := by
  rw [(scanned prev (frames + 1)).orExpr tokens []]
  unfold parse
  cases orExpr prev (frames + 1) tokens with
  | error failure => cases failure <;> simp [Except.bind, Parsed.affords]
  | ok answer =>
    simp only [Except.bind, Parsed.affords, closeFits_nil]
    split <;> simp

end UltimateCoders.Workflow
