import UltimateCoders.Transition.Program

/-! # Protocols of calls

A protocol tells phase by phase what a call may ask for and where the answers lead
it. If every call follows its protocol, a run of calls is a run of phases: in which
phase a call is can be read off the log, and the operations of the phases are all
that an invariant of the store and the phases has to withstand.
-/

namespace Transition

universe u

variable {Index : Type u} {Store Input Operation Result Outcome Phase : Type}
  {Answer : Operation → Type}

/-- What may be asked for in a phase, and the phase after an answer. -/
structure Protocol (Operation : Type) (Answer : Operation → Type) (Phase : Type) where
  permits : Phase → Operation → Prop
  next : Phase → (operation : Operation) → Answer operation → Phase

section Follows

variable (protocol : Protocol Operation Answer Phase)
  (possible : (operation : Operation) → Answer operation → Prop)

/-- Whatever is answered that can be answered, the program asks for what the protocol permits,
and returns in a final phase. -/
def Program.Follows (final : Result → Phase → Prop) : Program Operation Answer Result → Phase → Prop
  | .done result, phase => final result phase
  | .ask operation resume, phase => protocol.permits phase operation ∧
      ∀ answer, possible operation answer →
        (resume answer).Follows final (protocol.next phase operation answer)

variable {protocol possible} {final : Result → Phase → Prop} {phase : Phase}

/-- One program after the other, through the phases in which the first returns. -/
theorem Program.Follows.seq {program : Program Operation Answer Result}
    {next : Result → Program Operation Answer Outcome} {last : Outcome → Phase → Prop}
    (follows : program.Follows protocol possible final phase)
    (rest : ∀ result phase, final result phase →
      (next result).Follows protocol possible last phase) :
    (program >>= next).Follows protocol possible last phase := by
  induction program generalizing phase with
  | done result => exact rest result phase follows
  | ask operation resume ih =>
    exact ⟨follows.1, fun answer can => ih answer (follows.2 answer can)⟩

theorem Program.Follows.weaken {program : Program Operation Answer Result}
    {weaker : Result → Phase → Prop}
    (follows : program.Follows protocol possible final phase)
    (implied : ∀ result phase, final result phase → weaker result phase) :
    program.Follows protocol possible weaker phase := by
  induction program generalizing phase with
  | done result => exact implied result phase follows
  | ask operation resume ih =>
    exact ⟨follows.1, fun answer can => ih answer (follows.2 answer can)⟩

end Follows

variable (session : Session Index Store Operation Answer Result)

def Session.Asks (index : Index) (operation : Operation) : Prop :=
  ∃ resume, session.calls index = .ask operation resume

/-- Every call that was served has returned. -/
def Session.Finished : Prop :=
  ∀ index, (∀ event ∈ session.log, event.index ≠ index) ∨ ∃ result, session.calls index = .done result

section Phases

variable [DecidableEq Index] (protocol : Protocol Operation Answer Phase)

/-- The phase a call is in, from the operations that were served for it. -/
def Protocol.phase (initial : Index → Phase) (log : List (Occurrence Index Operation Answer))
    (index : Index) : Phase :=
  log.foldl (fun phase event =>
    if event.index = index then protocol.next phase event.operation event.answer else phase)
    (initial index)

variable {initial : Index → Phase} {log : List (Occurrence Index Operation Answer)}
  {event : Occurrence Index Operation Answer}

@[simp] theorem Protocol.phase_nil : protocol.phase initial [] = initial := rfl

variable {condition : Session Index Store Operation Answer Result → Index × Input → Prop}
  {index : Index}

/-- A call that was not served is in its initial phase. -/
theorem Protocol.phase_of_unserved (unserved : ∀ event ∈ log, event.index ≠ index) :
    protocol.phase initial log index = initial index := by
  unfold Protocol.phase
  induction log generalizing initial with
  | nil => rfl
  | cons first rest ih =>
    rw [List.foldl_cons, if_neg (unserved first List.mem_cons_self)]
    exact ih fun event member => unserved event (List.mem_cons_of_mem _ member)

theorem Protocol.phase_snoc : protocol.phase initial (log ++ [event]) =
    Function.update (protocol.phase initial log) event.index
      (protocol.next (protocol.phase initial log event.index) event.operation event.answer) := by
  funext index
  by_cases same : index = event.index
  · subst same
    simp [Protocol.phase]
  · simp [Protocol.phase, Function.update_of_ne same, Ne.symm same]

variable (execute : Input → (operation : Operation) → Store → Answer operation × Store)

/-- A step that serves a move where a condition holds. -/
def servesWhere (condition : Session Index Store Operation Answer Result → Index × Input → Prop)
    (before : Session Index Store Operation Answer Result) (move : Index × Input)
    (after : Session Index Store Operation Answer Result) : Prop :=
  condition before move ∧ serves execute before move after

def Session.passes (check : Session Index Store Operation Answer Result → Index × Input → Bool) :
    Session Index Store Operation Answer Result → List (Index × Input) → Bool
  | _, [] => true
  | session, move :: rest =>
    check session move && (session.serve execute move).passes check rest

variable {execute} in
/-- Moves that pass a check for the condition can be served. -/
theorem run_servesWhere {session : Session Index Store Operation Answer Result}
    {check : Session Index Store Operation Answer Result → Index × Input → Bool}
    (sound : ∀ before move, check before move → condition before move)
    {moves : List (Index × Input)} (passed : session.passes execute check moves) :
    Run (servesWhere execute condition) session moves
      (moves.foldl (Session.serve execute) session) := by
  induction moves generalizing session with
  | nil => exact .nil session
  | cons move rest ih =>
    obtain ⟨here, onward⟩ := (Bool.and_eq_true _ _).mp passed
    exact .cons ⟨sound session move here, rfl⟩ (ih onward)

variable (possible : (operation : Operation) → Answer operation → Prop)

def Session.Underway (final : Result → Phase → Prop) (initial : Index → Phase)
    (session : Session Index Store Operation Answer Result) : Prop :=
  ∀ index, (session.calls index).Follows protocol possible final
    (protocol.phase initial session.log index)

variable {protocol execute possible} {final : Result → Phase → Prop}
  {session : Session Index Store Operation Answer Result}

section

variable (underway : session.Underway protocol possible final initial)

include underway

/-- The next operation of a call is one that its phase permits. -/
theorem Session.Underway.permits {operation : Operation}
    {resume : Answer operation → Program Operation Answer Result}
    (call : session.calls index = .ask operation resume) :
    protocol.permits (protocol.phase initial session.log index) operation := by
  have follows := underway index
  rw [call] at follows
  exact follows.1

/-- A call that has returned is in a final phase. -/
theorem Session.Underway.final_of_done {result : Result}
    (returned : session.calls index = .done result) :
    final result (protocol.phase initial session.log index) := by
  have follows := underway index
  rwa [returned] at follows

theorem Session.Underway.serve
    (answers : ∀ input operation store, possible operation (execute input operation store).1)
    (move : Index × Input) :
    (session.serve execute move).Underway protocol possible final initial := by
  obtain ⟨mover, input⟩ := move
  cases call : session.calls mover with
  | done result => simpa only [Session.serve, call] using underway
  | ask operation resume =>
    have follows := underway mover
    rw [call] at follows
    intro index
    simp only [Session.serve, call, Protocol.phase_snoc]
    by_cases same : index = mover
    · subst same
      simpa only [Function.update_self] using follows.2 _ (answers input operation session.store)
    · simpa only [Function.update_of_ne same] using underway index

end

theorem Session.Underway.run
    (answers : ∀ input operation store, possible operation (execute input operation store).1)
    {source target : Session Index Store Operation Answer Result} {moves : List (Index × Input)}
    (run : Run (servesWhere execute condition) source moves target)
    (underway : source.Underway protocol possible final initial) :
    target.Underway protocol possible final initial := by
  refine run.invariant (fun _ => True) ?_ (fun _ _ => trivial) underway
  rintro before move after underway - ⟨-, rfl⟩
  exact underway.serve answers move

/-- What every operation that a phase permits preserves of store, phases and log, where the
condition holds, holds after every run. -/
theorem Session.Underway.invariant
    (answers : ∀ input operation store, possible operation (execute input operation store).1)
    {holds : Store → (Index → Phase) → List (Occurrence Index Operation Answer) → Prop}
    (preserved : ∀ (before : Session Index Store Operation Answer Result) index input operation
      resume, before.Underway protocol possible final initial →
      before.calls index = .ask operation resume → condition before (index, input) →
      protocol.permits (protocol.phase initial before.log index) operation →
      holds before.store (protocol.phase initial before.log) before.log →
      let next := execute input operation before.store
      possible operation next.1 →
      holds next.2 (Function.update (protocol.phase initial before.log) index
          (protocol.next (protocol.phase initial before.log index) operation next.1))
        (before.log ++ [⟨index, operation, next.1⟩]))
    {source target : Session Index Store Operation Answer Result} {moves : List (Index × Input)}
    (run : Run (servesWhere execute condition) source moves target)
    (underway : source.Underway protocol possible final initial)
    (start : holds source.store (protocol.phase initial source.log) source.log) :
    holds target.store (protocol.phase initial target.log) target.log := by
  let both (session : Session Index Store Operation Answer Result) : Prop :=
    session.Underway protocol possible final initial ∧
      holds session.store (protocol.phase initial session.log) session.log
  suffices every : both target from every.2
  have begin : both source := ⟨underway, start⟩
  refine run.invariant (fun _ => True) ?_ (fun _ _ => trivial) begin
  rintro before ⟨mover, input⟩ after ⟨underway, held⟩ - ⟨allows, rfl⟩
  refine ⟨underway.serve answers (mover, input), ?_⟩
  cases call : before.calls mover with
  | done result => simpa only [Session.serve, call] using held
  | ask operation resume =>
    simp only [Session.serve, call, Protocol.phase_snoc]
    exact preserved before mover input operation resume underway call allows
      (underway.permits call) held (answers input operation before.store)

end Phases

end Transition
