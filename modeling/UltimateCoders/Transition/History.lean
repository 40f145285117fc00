import Mathlib.Data.List.Infix
import UltimateCoders.Transition.Program

/-! # Histories

The log of served operations is the account of what happened: the store is what
they have made of the one at the start. A conduct says which operation a call may
ask for, in view of store and log. If every call keeps to it, a property of the
system is a property of logs of proper operations.
-/

namespace Transition

open List

universe u

variable {Index : Type u} {Store Input Operation Result Outcome : Type} {Answer : Operation → Type}

/-- Where an entry of a log with one more event stands. -/
theorem append_singleton_eq {Event : Type u} {log earlier rest : List Event} {last event : Event}
    (same : log ++ [last] = earlier ++ event :: rest) :
    (earlier = log ∧ event = last ∧ rest = []) ∨
      ∃ before, rest = before ++ [last] ∧ log = earlier ++ event :: before := by
  rcases eq_nil_or_concat rest with rfl | ⟨before, final, rfl⟩
  · obtain ⟨logs, ends⟩ := append_inj' same rfl
    exact .inl ⟨logs.symm, (singleton_inj.mp ends).symm, rfl⟩
  · rw [concat_eq_append, ← cons_append, ← append_assoc] at same
    obtain ⟨logs, ends⟩ := append_inj' same rfl
    refine .inr ⟨before, ?_, logs⟩
    rw [concat_eq_append, singleton_inj.mp ends]

theorem snoc_prefix_snoc {Event : Type u} {earlier log : List Event} {event last : Event}
    (within : earlier ++ [event] <+: log ++ [last]) :
    (earlier = log ∧ event = last) ∨ earlier ++ [event] <+: log := by
  refine (prefix_concat_iff.mp within).imp_left fun same => ?_
  obtain ⟨logs, ends⟩ := append_inj' same rfl
  exact ⟨logs, singleton_inj.mp ends⟩

/-- Of two moments of a log one is before the other, or they are one. -/
theorem prefix_snoc_cases {Event : Type u} {first second log : List Event} {event other : Event}
    (firstWithin : first ++ [event] <+: log) (secondWithin : second ++ [other] <+: log) :
    first ++ [event] <+: second ∨ second ++ [other] <+: first ∨ (first = second ∧ event = other) := by
  rcases prefix_or_prefix_of_prefix firstWithin secondWithin with shorter | longer
  · rcases snoc_prefix_snoc shorter with same | within
    · exact .inr (.inr same)
    · exact .inl within
  · rcases snoc_prefix_snoc longer with ⟨rfl, rfl⟩ | within
    · exact .inr (.inr ⟨rfl, rfl⟩)
    · exact .inr (.inl within)

/-- How operations are carried out; the answer to one tells its effect. -/
structure Service (Store Input Operation : Type) (Answer : Operation → Type) where
  execute : Input → (operation : Operation) → Store → Answer operation × Store
  effect : (operation : Operation) → Answer operation → Store → Store
  effect_execute : ∀ input operation store,
    effect operation (execute input operation store).1 store = (execute input operation store).2

/-- What a call may ask for, given the store and the log. -/
abbrev Conduct (Index : Type u) (Store Operation : Type) (Answer : Operation → Type) :=
  Index → Store → List (Occurrence Index Operation Answer) → Operation → Prop

variable {source target : Session Index Store Operation Answer Result}
  {program : Program Operation Answer Result} {moves : List (Index × Input)}
  {earlier : List (Occurrence Index Operation Answer)}
  (session : Session Index Store Operation Answer Result)
  {next : Result → Program Operation Answer Outcome}

namespace Service

variable (service : Service Store Input Operation Answer)
  (conduct : Conduct Index Store Operation Answer) (start : Store)

def replay (log : List (Occurrence Index Operation Answer)) : Store :=
  log.foldl (fun store event => service.effect event.operation event.answer store) start

@[simp] theorem replay_nil :
    service.replay start ([] : List (Occurrence Index Operation Answer)) = start := rfl

@[simp] theorem replay_snoc (log : List (Occurrence Index Operation Answer))
    (event : Occurrence Index Operation Answer) :
    service.replay start (log ++ [event]) =
      service.effect event.operation event.answer (service.replay start log) := by
  simp only [replay, foldl_append, foldl_cons, foldl_nil]

/-- The event may come after the log: its call may ask for it, and so it is answered. -/
structure Allows (log : List (Occurrence Index Operation Answer))
    (event : Occurrence Index Operation Answer) : Prop where
  permitted : conduct event.index (service.replay start log) log event.operation
  answered : ∃ input,
    (service.execute input event.operation (service.replay start log)).1 = event.answer

/-- Every event of the log may come after those before it. -/
def Proper (log : List (Occurrence Index Operation Answer)) : Prop :=
  ∀ earlier event, earlier ++ [event] <+: log → service.Allows conduct start earlier event

variable {service conduct start} {log : List (Occurrence Index Operation Answer)}

theorem proper_nil : service.Proper conduct start [] := by
  intro earlier event isPrefix
  have none := prefix_nil.mp isPrefix
  exact absurd none (append_ne_nil_of_right_ne_nil _ (cons_ne_nil _ _))

section

variable (proper : service.Proper conduct start log)

include proper

theorem Proper.of_prefix (isPrefix : earlier <+: log) : service.Proper conduct start earlier :=
  fun first event within => proper first event (within.trans isPrefix)

theorem Proper.snoc {event : Occurrence Index Operation Answer}
    (allowed : service.Allows conduct start log event) :
    service.Proper conduct start (log ++ [event]) := by
  intro earlier last isPrefix
  rcases snoc_prefix_snoc isPrefix with ⟨rfl, rfl⟩ | within
  · exact allowed
  · exact proper earlier last within

/-- Induction along a proper log, from one of its moments on. -/
theorem Proper.induct_from {motive : List (Occurrence Index Operation Answer) → Prop}
    (isPrefix : earlier <+: log) (base : motive earlier)
    (snoc : ∀ middle event, earlier <+: middle → service.Proper conduct start middle →
      service.Allows conduct start middle event → motive middle → motive (middle ++ [event])) :
    motive log := by
  obtain ⟨rest, rfl⟩ := isPrefix
  induction rest using reverseRecOn with
  | nil => simpa using base
  | append_singleton rest event ih =>
    rw [← append_assoc] at proper ⊢
    have before := proper.of_prefix (prefix_append (earlier ++ rest) [event])
    exact snoc _ event (prefix_append _ _) before (proper _ event prefix_rfl) (ih before)

/-- Induction along a proper log. -/
theorem Proper.induct {motive : List (Occurrence Index Operation Answer) → Prop} (nil : motive [])
    (snoc : ∀ middle event, service.Proper conduct start middle →
      service.Allows conduct start middle event → motive middle → motive (middle ++ [event])) :
    motive log :=
  proper.induct_from log.nil_prefix nil fun middle event _ => snoc middle event

end

variable (service conduct start) in
/-- Calls rely on each other to keep the log proper and to add to it only. -/
def contract : Contract Index Store (Occurrence Index Operation Answer) where
  shared store log := store = service.replay start log ∧ service.Proper conduct start log
  rely _ _ log _ laterLog := log <+: laterLog
  rely_refl _ _ _ := prefix_rfl
  rely_trans _ _ _ _ _ _ _ := IsPrefix.trans

end Service

section Heeds

variable (service : Service Store Input Operation Answer)
  (conduct : Conduct Index Store Operation Answer) (start : Store) (index : Index)

/-- Whatever is logged in between, the program asks for what the conduct permits,
and what it returns meets the postcondition. -/
def Program.Heeds (post : Result → List (Occurrence Index Operation Answer) → Prop)
    (program : Program Operation Answer Result) (log : List (Occurrence Index Operation Answer)) :
    Prop :=
  program.Meets service.execute (service.contract conduct start) index
    (fun result _ later => post result later) (service.replay start log) log

open Program

variable {service conduct start index} {log : List (Occurrence Index Operation Answer)}
  {post : Result → List (Occurrence Index Operation Answer) → Prop}
  {final : Outcome → List (Occurrence Index Operation Answer) → Prop}

theorem Program.Heeds.done {result : Result}
    (established : ∀ later, log <+: later → service.Proper conduct start later →
      post result later) :
    (done result).Heeds service conduct start index post log :=
  fun _ laterLog isPrefix shared => established laterLog isPrefix shared.2

theorem Program.Heeds.returned {result : Result} :
    (Program.done result).Heeds service conduct start index (fun _ _ => True) log :=
  .done fun _ _ _ => trivial

section

variable {operation : Operation}
  (permitted : ∀ later, log <+: later → service.Proper conduct start later →
    conduct index (service.replay start later) later operation)

include permitted

/-- A call may ask for what is permitted at every later moment. -/
theorem Program.Heeds.ask {resume : Answer operation → Program Operation Answer Result}
    (rest : ∀ later answer, log <+: later →
      service.Allows conduct start later ⟨index, operation, answer⟩ →
      service.Proper conduct start (later ++ [⟨index, operation, answer⟩]) →
      (resume answer).Heeds service conduct start index post
        (later ++ [⟨index, operation, answer⟩])) :
    (ask operation resume).Heeds service conduct start index post log := by
  intro later laterLog isPrefix shared input
  obtain ⟨rfl, proper⟩ := shared
  have allowed : service.Allows conduct start laterLog ⟨index, operation,
      (service.execute input operation (service.replay start laterLog)).1⟩ :=
    ⟨permitted laterLog isPrefix proper, input, rfl⟩
  have moved := service.effect_execute input operation (service.replay start laterLog)
  refine ⟨⟨?_, proper.snoc allowed⟩, fun _ _ => prefix_append _ _, ?_⟩
  · rw [Service.replay_snoc, moved]
  · have next := rest laterLog _ isPrefix allowed (proper.snoc allowed)
    rw [Heeds, Service.replay_snoc, moved] at next
    exact next

/-- Asking for one operation: the answer was given at some later moment, and is logged. -/
theorem Program.Heeds.perform : (perform operation).Heeds service conduct start index
      (fun answer final => ∃ later, log <+: later ∧
        service.Allows conduct start later ⟨index, operation, answer⟩ ∧
        later ++ [⟨index, operation, answer⟩] <+: final) log := by
  apply Heeds.ask permitted
  intro later answer isPrefix allowed _
  apply Heeds.done
  intro final further _
  exact ⟨later, isPrefix, allowed, further⟩

end

section

variable (heeds : program.Heeds service conduct start index post log)

include heeds

/-- What a call returns, it returns at a later moment. -/
theorem Program.Heeds.grown : program.Heeds service conduct start index
      (fun result later => log <+: later ∧ post result later) log := by
  suffices grown : ∀ (program : Program Operation Answer Result) (store : Store)
      (current : List (Occurrence Index Operation Answer)), log <+: current →
      program.Meets service.execute (service.contract conduct start) index
        (fun result _ later => post result later) store current →
      program.Meets service.execute (service.contract conduct start) index
        (fun result _ later => log <+: later ∧ post result later) store current from
    grown program _ log prefix_rfl heeds
  intro program
  induction program with
  | done result =>
    intro store current within met later laterLog isPrefix shared
    exact ⟨within.trans isPrefix, met later laterLog isPrefix shared⟩
  | ask operation resume ih =>
    intro store current within met later laterLog isPrefix shared input
    obtain ⟨kept, guaranteed, rest⟩ := met later laterLog isPrefix shared input
    have onward := (within.trans isPrefix).trans (prefix_append laterLog
      [⟨index, operation, (service.execute input operation later).1⟩])
    exact ⟨kept, guaranteed, ih _ _ _ onward rest⟩

/-- One program after the other, through what holds in between. -/
theorem Program.Heeds.seq
    (rest : ∀ result later, log <+: later → service.Proper conduct start later →
      post result later → (next result).Heeds service conduct start index final later) :
    (program >>= next).Heeds service conduct start index final log := by
  apply Meets.seq heeds.grown
  intro result later laterLog shared established
  obtain ⟨rfl, proper⟩ := shared
  exact rest result laterLog established.1 proper established.2

/-- A call that returns once the program has, whatever it makes of the result. -/
theorem Program.Heeds.ends (returns : ∀ result, ∃ answer, next result = .done answer) :
    (program >>= next).Heeds service conduct start index (fun _ _ => True) log := by
  refine heeds.seq fun result _ _ _ _ => ?_
  obtain ⟨answer, returned⟩ := returns result
  rw [returned]
  exact .returned

theorem Program.Heeds.weaken {weaker : Result → List (Occurrence Index Operation Answer) → Prop}
    (implied : ∀ result later, log <+: later → service.Proper conduct start later →
      post result later → weaker result later) :
    program.Heeds service conduct start index weaker log := by
  apply Meets.weaken heeds.grown
  intro result later laterLog shared established
  exact implied result laterLog established.1 shared.2 established.2

end

end Heeds

section Runs

variable {execute : Input → (operation : Operation) → Store → Answer operation × Store}
  {service : Service Store Input Operation Answer} {conduct : Conduct Index Store Operation Answer}
  [DecidableEq Index]

/-- The log of a session only grows. -/
theorem Session.log_prefix_serve (move : Index × Input) :
    session.log <+: (session.serve execute move).log := by
  unfold Session.serve
  split
  · exact prefix_rfl
  · exact prefix_append _ _

theorem Session.log_length_serve (move : Index × Input) :
    (session.serve execute move).log.length ≤ session.log.length + 1 := by
  unfold Session.serve
  split
  · exact Nat.le_succ _
  · exact (length_append).le

theorem Session.log_prefix_run (run : Run (serves execute) source moves target) :
    source.log <+: target.log := by
  induction run with
  | nil session => exact prefix_rfl
  | cons first _ ih =>
    rw [← first] at ih
    exact (Session.log_prefix_serve _ _).trans ih

/-- An event that was logged during a run was logged by one of its steps. -/
theorem Session.step_of_event
    {step : Session Index Store Operation Answer Result → Index × Input →
      Session Index Store Operation Answer Result → Prop}
    (serving : ∀ before move after, step before move after → serves execute before move after)
    (run : Run step source moves target) {event : Occurrence Index Operation Answer}
    (since : source.log <+: earlier) (within : earlier ++ [event] <+: target.log) :
    ∃ before move after first, Run step source first before ∧ step before move after ∧
      before.log = earlier ∧ after.log = earlier ++ [event] := by
  induction run with
  | nil session =>
    have longer := within.length_le
    have shorter := since.length_le
    simp only [length_append, length_singleton] at longer
    omega
  | @cons source middle target move moves first rest ih =>
    by_cases later : middle.log <+: earlier
    · obtain ⟨before, next, after, path, reached, taken, here, there⟩ := ih later within
      exact ⟨before, next, after, move :: path, .cons first reached, taken, here, there⟩
    · -- the log of the first step goes beyond `earlier`, so this step has logged the event
      have onward := Session.log_prefix_run (rest.mono serving)
      have longer : middle.log.length ≤ source.log.length + 1 := by
        rw [← serving _ _ _ first]
        exact Session.log_length_serve source move
      have begun := (prefix_append earlier [event]).trans within
      have shorter : earlier.length < middle.log.length := by
        by_contra reached
        exact later (prefix_of_prefix_length_le onward begun (by omega))
      have sinceLength := since.length_le
      have same : source.log = earlier := since.eq_of_length_le (by omega)
      have next : middle.log = earlier ++ [event] := by
        apply (prefix_of_prefix_length_le onward within ?_).eq_of_length_le
        · rw [length_append, length_singleton]
          omega
        · rw [length_append, length_singleton]
          omega
      exact ⟨source, move, middle, [], .nil source, first, same, next⟩

/-- A step that logs no event of a kind. -/
def avoids (execute : Input → (operation : Operation) → Store → Answer operation × Store)
    (fault : Session Index Store Operation Answer Result → Occurrence Index Operation Answer → Bool)
    (before : Session Index Store Operation Answer Result) (move : Index × Input)
    (after : Session Index Store Operation Answer Result) : Prop :=
  serves execute before move after ∧
    ∀ event, after.log = before.log ++ [event] → fault before event = false

/-- Serve moves as long as no event of a kind is logged. -/
def Session.serveAvoiding
    (execute : Input → (operation : Operation) → Store → Answer operation × Store)
    (fault : Session Index Store Operation Answer Result → Occurrence Index Operation Answer → Bool) :
    Session Index Store Operation Answer Result → List (Index × Input) →
      Option (Session Index Store Operation Answer Result)
  | session, [] => some session
  | session, move :: rest =>
    match session.calls move.1 with
    | .done _ => session.serveAvoiding execute fault rest
    | .ask operation _ =>
      if fault session ⟨move.1, operation, (execute move.2 operation session.store).1⟩ then none
      else (session.serve execute move).serveAvoiding execute fault rest

theorem Session.run_avoids
    {fault : Session Index Store Operation Answer Result → Occurrence Index Operation Answer → Bool}
    {session : Session Index Store Operation Answer Result}
    (reached : session.serveAvoiding execute fault moves = some target) :
    Run (avoids execute fault) session moves target := by
  induction moves generalizing session with
  | nil =>
    cases reached
    exact .nil _
  | cons move rest ih =>
    unfold Session.serveAvoiding at reached
    cases call : session.calls move.1 with
    | done result =>
      rw [call] at reached
      have same : session.serve execute move = session := by
        simp only [Session.serve, call]
      refine .cons ⟨same, fun event logged => ?_⟩ (ih reached)
      have longer := congrArg length logged
      simp at longer
    | ask operation resume =>
      simp only [call] at reached
      split at reached
      · cases reached
      · rename_i fine
        refine .cons ⟨rfl, fun event logged => ?_⟩ (ih reached)
        simp only [Session.serve, call, append_cancel_left_eq, cons.injEq, and_true] at logged
        rw [← logged]
        exact Bool.eq_false_iff.mpr fine

/-- Store and log agree, the log is proper, and calls that returned have met their
postconditions. -/
structure Session.Accounted (service : Service Store Input Operation Answer)
    (conduct : Conduct Index Store Operation Answer) (start : Store)
    (post : Index → Result → List (Occurrence Index Operation Answer) → Prop)
    (session : Session Index Store Operation Answer Result) : Prop where
  store_eq : session.store = service.replay start session.log
  proper : service.Proper conduct start session.log
  returned : ∀ index result, session.calls index = .done result → post index result session.log

/-- Calls that heed the conduct leave a proper log in every interleaving. -/
theorem Session.accounted_of_run {start : Store} {calls : Index → Program Operation Answer Result}
    {post : Index → Result → List (Occurrence Index Operation Answer) → Prop}
    (heeds : ∀ index, (calls index).Heeds service conduct start index (post index) [])
    (run : Run (serves service.execute) ⟨start, calls, []⟩ moves target) :
    target.Accounted service conduct start post := by
  have begin : Session.Complies service.execute (service.contract conduct start)
      (fun index result _ log => post index result log) ⟨start, calls, []⟩ :=
    ⟨⟨rfl, Service.proper_nil⟩, heeds⟩
  have complies := begin.run run
  exact ⟨complies.shared.1, complies.shared.2, fun index result returned =>
    complies.post_of_done returned⟩

end Runs

end Transition
