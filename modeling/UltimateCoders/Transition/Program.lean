import UltimateCoders.Transition.Run

/-! # Programs that share a store

A program asks for single operations on a store and goes on with their answers.
Programs of many calls are served one operation at a time, in any order; a call
that is not served any more has stopped. Each call meets its postcondition as
long as the others do what it relies on, and does itself what they rely on.
-/

namespace Transition

universe u

variable {Index : Type u} {Store Input Operation Result Outcome : Type} {Answer : Operation → Type}

/-- A tree of operations; each goes on with its answer. -/
inductive Program (Operation : Type) (Answer : Operation → Type) (Result : Type) where
  | done (result : Result)
  | ask (operation : Operation) (resume : Answer operation → Program Operation Answer Result)

namespace Program

def bind (program : Program Operation Answer Result)
    (next : Result → Program Operation Answer Outcome) : Program Operation Answer Outcome :=
  match program with
  | done result => next result
  | ask operation resume => .ask operation fun answer => (resume answer).bind next

instance : Monad (Program Operation Answer) where
  pure := done
  bind := bind

/-- The program that asks for one operation and returns its answer. -/
def perform (operation : Operation) : Program Operation Answer (Answer operation) :=
  .ask operation done

end Program

/-- An operation that was served, and for which call. -/
structure Occurrence (Index : Type u) (Operation : Type) (Answer : Operation → Type) where
  index : Index
  operation : Operation
  answer : Answer operation

/-- The store, what is left of every call, and what was served so far. -/
structure Session (Index : Type u) (Store Operation : Type) (Answer : Operation → Type)
    (Result : Type) where
  store : Store
  calls : Index → Program Operation Answer Result
  log : List (Occurrence Index Operation Answer)

section Serve

variable [DecidableEq Index]
  (execute : Input → (operation : Operation) → Store → Answer operation × Store)

def Session.serve (session : Session Index Store Operation Answer Result) (move : Index × Input) :
    Session Index Store Operation Answer Result :=
  match session.calls move.1 with
  | .done _ => session
  | .ask operation resume =>
    let next := execute move.2 operation session.store
    { store := next.2
      calls := Function.update session.calls move.1 (resume next.1)
      log := session.log ++ [⟨move.1, operation, next.1⟩] }

/-- Serving as a step between sessions. -/
def serves (before : Session Index Store Operation Answer Result) (move : Index × Input)
    (after : Session Index Store Operation Answer Result) : Prop :=
  before.serve execute move = after

variable {execute}

/-- Every list of moves can be served. -/
theorem run_serves (session : Session Index Store Operation Answer Result)
    (moves : List (Index × Input)) :
    Run (serves execute) session moves (moves.foldl (Session.serve execute) session) := by
  induction moves generalizing session with
  | nil => exact .nil session
  | cons move rest ih => exact .cons rfl (ih _)

end Serve

section Alone

variable (execute : Input → (operation : Operation) → Store → Answer operation × Store)

/-- All operations of a program served one after the other: its result, the inputs
that are left, and the store. -/
def Program.alone : Program Operation Answer Result → (Nat → Input) → Store →
    Result × (Nat → Input) × Store
  | .done result, inputs, store => (result, inputs, store)
  | .ask operation resume, inputs, store =>
    let next := execute (inputs 0) operation store
    (resume next.1).alone (fun step => inputs (step + 1)) next.2

theorem Program.alone_bind (program : Program Operation Answer Result)
    (next : Result → Program Operation Answer Outcome) (inputs : Nat → Input) (store : Store) :
    (program >>= next).alone execute inputs store =
      (next (program.alone execute inputs store).1).alone execute
        (program.alone execute inputs store).2.1 (program.alone execute inputs store).2.2 := by
  induction program generalizing inputs store with
  | done result => rfl
  | ask operation resume ih => exact ih _ _ _

end Alone

/-- What holds of store and log throughout, and what a call relies on the others
to do with them. -/
structure Contract (Index : Type u) (Store Event : Type*) where
  shared : Store → List Event → Prop
  rely : Index → Store → List Event → Store → List Event → Prop
  rely_refl : ∀ index store log, rely index store log store log
  rely_trans : ∀ index first firstLog second secondLog third thirdLog,
    rely index first firstLog second secondLog → rely index second secondLog third thirdLog →
      rely index first firstLog third thirdLog

variable {next : Result → Program Operation Answer Outcome}
  {target : Session Index Store Operation Answer Result}

section Meets

variable (execute : Input → (operation : Operation) → Store → Answer operation × Store)
  (contract : Contract Index Store (Occurrence Index Operation Answer)) (index : Index)

/-- Whatever the others do in between, every operation keeps the shared part and
does what the others rely on, and the result meets the postcondition. -/
def Program.Meets (post : Result → Store → List (Occurrence Index Operation Answer) → Prop) :
    Program Operation Answer Result → Store → List (Occurrence Index Operation Answer) → Prop
  | .done result, store, log => ∀ later laterLog, contract.rely index store log later laterLog →
      contract.shared later laterLog → post result later laterLog
  | .ask operation resume, store, log => ∀ later laterLog,
      contract.rely index store log later laterLog → contract.shared later laterLog → ∀ input,
        let next := execute input operation later
        let nextLog := laterLog ++ [⟨index, operation, next.1⟩]
        contract.shared next.2 nextLog ∧
          (∀ other, other ≠ index → contract.rely other later laterLog next.2 nextLog) ∧
            (resume next.1).Meets post next.2 nextLog

variable {execute contract index}
  {post : Result → Store → List (Occurrence Index Operation Answer) → Prop}
  {program : Program Operation Answer Result} {store : Store}
  {log : List (Occurrence Index Operation Answer)}

/-- What is met after every interference is met. -/
theorem Program.Meets.of_later
    (met : ∀ later laterLog, contract.rely index store log later laterLog →
      contract.shared later laterLog → program.Meets execute contract index post later laterLog) :
    program.Meets execute contract index post store log := by
  cases program with
  | done result | ask operation resume =>
    intro later laterLog relied shared
    exact met later laterLog relied shared later laterLog (contract.rely_refl _ _ _) shared

/-- Interference does not disturb what is met. -/
theorem Program.Meets.later (met : program.Meets execute contract index post store log)
    {later : Store} {laterLog : List (Occurrence Index Operation Answer)}
    (relied : contract.rely index store log later laterLog) :
    program.Meets execute contract index post later laterLog := by
  cases program with
  | done result | ask operation resume =>
    intro last lastLog further
    exact met last lastLog (contract.rely_trans _ _ _ _ _ _ _ relied further)

/-- A program meets what its rest meets after its first part. -/
theorem Program.Meets.bind
    {final : Outcome → Store → List (Occurrence Index Operation Answer) → Prop}
    (met : program.Meets execute contract index (fun result =>
      (next result).Meets execute contract index final) store log) :
    (program >>= next).Meets execute contract index final store log := by
  induction program generalizing store log with
  | done result => exact .of_later met
  | ask operation resume ih =>
    intro later laterLog relied shared input
    obtain ⟨kept, guaranteed, rest⟩ := met later laterLog relied shared input
    exact ⟨kept, guaranteed, ih _ rest⟩

/-- A weaker postcondition is met as well. -/
theorem Program.Meets.weaken
    {weaker : Result → Store → List (Occurrence Index Operation Answer) → Prop}
    (met : program.Meets execute contract index post store log)
    (implied : ∀ result later laterLog, contract.shared later laterLog →
      post result later laterLog → weaker result later laterLog) :
    program.Meets execute contract index weaker store log := by
  induction program generalizing store log with
  | done result =>
    intro later laterLog relied shared
    exact implied result later laterLog shared (met later laterLog relied shared)
  | ask operation resume ih =>
    intro later laterLog relied shared input
    obtain ⟨kept, guaranteed, rest⟩ := met later laterLog relied shared input
    exact ⟨kept, guaranteed, ih _ rest⟩

/-- One program after the other, through what holds in between. -/
theorem Program.Meets.seq
    {final : Outcome → Store → List (Occurrence Index Operation Answer) → Prop}
    (met : program.Meets execute contract index post store log)
    (rest : ∀ result later laterLog, contract.shared later laterLog → post result later laterLog →
      (next result).Meets execute contract index final later laterLog) :
    (program >>= next).Meets execute contract index final store log :=
  .bind (met.weaken rest)

end Meets

structure Session.Complies
    (execute : Input → (operation : Operation) → Store → Answer operation × Store)
    (contract : Contract Index Store (Occurrence Index Operation Answer))
    (post : Index → Result → Store → List (Occurrence Index Operation Answer) → Prop)
    (session : Session Index Store Operation Answer Result) : Prop where
  shared : contract.shared session.store session.log
  calls : ∀ index,
    (session.calls index).Meets execute contract index (post index) session.store session.log

section Complies

variable {execute : Input → (operation : Operation) → Store → Answer operation × Store}
  {contract : Contract Index Store (Occurrence Index Operation Answer)}
  {post : Index → Result → Store → List (Occurrence Index Operation Answer) → Prop}
  {session : Session Index Store Operation Answer Result}

/-- A call that has returned meets its postcondition. -/
theorem Session.Complies.post_of_done (complies : session.Complies execute contract post)
    {index : Index} {result : Result} (returned : session.calls index = .done result) :
    post index result session.store session.log := by
  have met := complies.calls index
  rw [returned] at met
  exact met _ _ (contract.rely_refl _ _ _) complies.shared

variable [DecidableEq Index]

theorem Session.Complies.serve (complies : session.Complies execute contract post)
    (move : Index × Input) : (session.serve execute move).Complies execute contract post := by
  obtain ⟨index, input⟩ := move
  cases call : session.calls index with
  | done result =>
    simpa only [Session.serve, call] using complies
  | ask operation resume =>
    have met := complies.calls index
    rw [call] at met
    obtain ⟨kept, guaranteed, rest⟩ :=
      met _ _ (contract.rely_refl _ _ _) complies.shared input
    simp only [Session.serve, call]
    refine ⟨kept, fun other => ?_⟩
    by_cases same : other = index
    · subst same
      simpa only [Function.update_self] using rest
    · simpa only [Function.update_of_ne same] using
        (complies.calls other).later (guaranteed other same)

/-- Calls that meet a contract meet it in every interleaving. -/
theorem Session.Complies.run {moves : List (Index × Input)}
    (run : Run (serves execute) session moves target)
    (start : session.Complies execute contract post) : target.Complies execute contract post := by
  refine run.invariant (fun _ => True) ?_ (fun _ _ => trivial) start
  rintro before move after complies - rfl
  exact complies.serve move

end Complies

section Returning

/-- After an operation that settles the matter, the program returns such a result. -/
def Program.ReturnsAfter (settles : (operation : Operation) → Answer operation → Prop)
    (returns : Result → Prop) : Program Operation Answer Result → Prop
  | .done _ => True
  | .ask operation resume => ∀ answer,
      (settles operation answer → ∃ result, resume answer = .done result ∧ returns result) ∧
        (resume answer).ReturnsAfter settles returns

variable {settles : (operation : Operation) → Answer operation → Prop} {returns : Result → Prop}

/-- A program that goes on without an operation returns at the same moment. -/
theorem Program.ReturnsAfter.bind {program : Program Operation Answer Result}
    {final : Outcome → Prop} (returning : program.ReturnsAfter settles returns)
    (quiet : ∀ result, ∃ outcome, next result = .done outcome ∧ (returns result → final outcome)) :
    (program >>= next).ReturnsAfter settles final := by
  induction program with
  | done result =>
    obtain ⟨outcome, same, -⟩ := quiet result
    have here : (Program.done result >>= next : Program Operation Answer Outcome) =
        .done outcome := same
    rw [here]
    exact trivial
  | ask operation resume ih =>
    intro answer
    refine ⟨fun settled => ?_, ih answer (returning answer).2⟩
    obtain ⟨result, same, returned⟩ := (returning answer).1 settled
    obtain ⟨outcome, onward, established⟩ := quiet result
    refine ⟨outcome, ?_, established returned⟩
    change (resume answer).bind next = .done outcome
    rw [same]
    exact onward

/-- One program after the other, where the first settles nothing. -/
theorem Program.ReturnsAfter.seq {program : Program Operation Answer Result}
    {final : Outcome → Prop} (idle : program.ReturnsAfter settles fun _ => False)
    (rest : ∀ result, (next result).ReturnsAfter settles final) :
    (program >>= next).ReturnsAfter settles final := by
  induction program with
  | done result => exact rest result
  | ask operation resume ih =>
    intro answer
    refine ⟨fun settled => ?_, ih answer (idle answer).2⟩
    obtain ⟨result, -, impossible⟩ := (idle answer).1 settled
    exact impossible.elim

variable [DecidableEq Index]
  {execute : Input → (operation : Operation) → Store → Answer operation × Store}

variable (settles returns) in
/-- The call returns after it has settled the matter, and has done so if it has. -/
structure Session.Settled (session : Session Index Store Operation Answer Result)
    (index : Index) : Prop where
  ready : (session.calls index).ReturnsAfter settles returns
  returned : ∀ event ∈ session.log, event.index = index →
    settles event.operation event.answer →
      ∃ result, session.calls index = .done result ∧ returns result

theorem Session.Settled.serve {session : Session Index Store Operation Answer Result}
    {index : Index} (settled : session.Settled settles returns index) (move : Index × Input) :
    (session.serve execute move).Settled settles returns index := by
  obtain ⟨mover, input⟩ := move
  cases call : session.calls mover with
  | done result => simpa only [Session.serve, call] using settled
  | ask operation resume =>
    simp only [Session.serve, call]
    by_cases same : index = mover
    · subst same
      have ready := settled.ready
      rw [call] at ready
      refine ⟨?_, fun event member own settles => ?_⟩
      · simpa only [Function.update_self] using (ready _).2
      · simp only [Function.update_self]
        rcases List.mem_append.mp member with earlier | last
        · -- the call would have returned before it asked
          obtain ⟨result, done, -⟩ := settled.returned event earlier own settles
          rw [call] at done
          cases done
        · rw [List.mem_singleton.mp last] at settles
          exact (ready _).1 settles
    · refine ⟨?_, fun event member own settles => ?_⟩
      · simpa only [Function.update_of_ne same] using settled.ready
      · simp only [Function.update_of_ne same]
        rcases List.mem_append.mp member with earlier | last
        · exact settled.returned event earlier own settles
        · rw [List.mem_singleton.mp last] at own
          exact (same own.symm).elim

/-- In every run a call that has settled the matter has returned. -/
theorem Session.Settled.run {source : Session Index Store Operation Answer Result}
    {moves : List (Index × Input)} {index : Index}
    (run : Run (serves execute) source moves target)
    (settled : source.Settled settles returns index) : target.Settled settles returns index := by
  induction run with
  | nil session => exact settled
  | cons first _ ih =>
    rw [← first] at ih
    exact ih (settled.serve _)

end Returning

end Transition
