import UltimateCoders.Governance.RecordStore
import UltimateCoders.Transition.History

/-! # Histories of the record store

Clients never delete the documents they share, and every write moves a version
on. A document that was read is the stored one for as long as its version is, so
an accepted compare-and-swap write replaces the very document that was read.
-/

namespace UltimateCoders.Governance

open Transition RecordStore Program

universe u

variable {Index : Type u} {Value Document Refusal Extra : Type}

abbrev StoreEvent (Index : Type u) (Value : Type) :=
  Occurrence Index (StoreOperation Value) StoreOperation.Answer

/-- Where a served operation changed the store. -/
def StoreOperation.wrote : (operation : StoreOperation Value) → operation.Answer →
    Option (String × String)
  | .put space key _ _, .ok _ => some (space, key)
  | .delete space key, .ok true => some (space, key)
  | _, _ => none

open StoreOperation

def StoreEvent.wrote (event : StoreEvent Index Value) : Option (String × String) :=
  event.operation.wrote event.answer

/-- What an answered operation has made of the store. -/
def StoreOperation.effect : (operation : StoreOperation Value) → operation.Answer →
    RecordStore Value → RecordStore Value
  | .put _ _ _ _, .ok record, store => store.insert record
  | .delete space key, .ok _, store => (store.delete space key).2
  | _, _, store => store

theorem StoreOperation.effect_refuse (error : RecordError) (operation : StoreOperation Value)
    (store : RecordStore Value) : operation.effect (operation.refuse error) store = store := by
  cases operation <;> rfl

theorem RecordStore.effect_execute (circumstance : Circumstance) (operation : StoreOperation Value)
    (store : RecordStore Value) :
    operation.effect (execute circumstance operation store).1 store =
      (execute circumstance operation store).2 := by
  obtain ⟨now, failure⟩ := circumstance
  cases failure with
  | some detail => exact operation.effect_refuse _ store
  | none =>
    cases operation with
    | get space key | list space limit | delete space key => rfl
    | put space key value expectedVersion =>
      simp only [execute, put]
      split <;> rfl

def recordService :
    Service (RecordStore Value) Circumstance (StoreOperation Value) Answer where
  execute := execute
  effect := effect
  effect_execute := effect_execute

/-- What a client may write where, given the store and the log. -/
abbrev WriteRule (Index : Type u) (Value : Type) :=
  Index → RecordStore Value → List (StoreEvent Index Value) → (space key : String) → Value →
    Option Nat → Prop

/-- Clients read freely, write by the rule, and delete nothing. -/
def writing (rule : WriteRule Index Value) :
    Conduct Index (RecordStore Value) (StoreOperation Value) Answer
  | index, store, log, .put space key value expected => rule index store log space key value expected
  | _, _, _, .get _ _ => True
  | _, _, _, .list _ _ => True
  | _, _, _, .delete _ _ => False

section Rules

variable {Result : Type} (rule : WriteRule Index Value) (start : RecordStore Value) (index : Index)
  (program : Program (StoreOperation Value) Answer Result)

/-- Whatever is logged in between, the client reads freely, writes by the rule, and ends as said. -/
abbrev Upholds (post : Result → List (StoreEvent Index Value) → Prop)
    (log : List (StoreEvent Index Value)) : Prop :=
  program.Heeds recordService (writing rule) start index post log

abbrev Obeys (log : List (StoreEvent Index Value)) : Prop :=
  Upholds rule start index program (fun _ _ => True) log

end Rules

section History

variable (rule : WriteRule Index Value) (start : RecordStore Value)

abbrev storeAfter (log : List (StoreEvent Index Value)) : RecordStore Value :=
  recordService.replay start log

/-- Every operation of the log was a proper one of its client. -/
abbrev ProperLog (log : List (StoreEvent Index Value)) : Prop :=
  recordService.Proper (writing rule) start log

abbrev AllowsEvent (log : List (StoreEvent Index Value)) (event : StoreEvent Index Value) : Prop :=
  recordService.Allows (writing rule) start log event

/-- The event is an accepted write of this record after this log. -/
structure Accepted (log : List (StoreEvent Index Value)) (event : StoreEvent Index Value)
    (expected : Option Nat) (record : Record Value) : Prop where
  event_eq : event = ⟨event.index, .put record.space record.key record.value expected, .ok record⟩
  ruled : rule event.index (storeAfter start log) log record.space record.key record.value expected
  agrees : casConflict expected ((storeAfter start log).get record.space record.key) = none
  version_eq : record.version =
    (((storeAfter start log).get record.space record.key).map fun stored => stored.version + 1).getD 1

variable {rule start} {log later : List (StoreEvent Index Value)} {event : StoreEvent Index Value}
  {space key : String} {record current : Record Value} {expected : Option Nat}

theorem storeAfter_snoc : storeAfter start (log ++ [event]) =
    event.operation.effect event.answer (storeAfter start log) :=
  Service.replay_snoc _ _ _ _

theorem accepted_cases (allowed : AllowsEvent rule start log event) :
    (StoreEvent.wrote event = none ∧ storeAfter start (log ++ [event]) = storeAfter start log) ∨
      ∃ expected record, Accepted rule start log event expected record ∧
        StoreEvent.wrote event = some (record.space, record.key) ∧
        storeAfter start (log ++ [event]) = (storeAfter start log).insert record := by
  obtain ⟨index, operation, answer⟩ := event
  obtain ⟨permitted, ⟨now, failure⟩, answered⟩ := allowed
  rw [storeAfter_snoc]
  cases failure with
  | some detail =>
    have refused : operation.refuse (.backend detail) = answer := answered
    subst refused
    refine .inl ⟨?_, operation.effect_refuse _ _⟩
    cases operation <;> rfl
  | none =>
    cases operation with
    | get space key | list space limit => exact .inl ⟨rfl, rfl⟩
    | delete space key => exact permitted.elim
    | put space key value expected =>
      have put : ((storeAfter start log).put space key value expected now).1 = answer := answered
      rcases (storeAfter start log).put_cases space key value expected now with
        ⟨error, -, refused⟩ | ⟨record, agrees, stored, rfl⟩
      · rw [refused] at put
        subst put
        exact .inl ⟨rfl, rfl⟩
      · rw [stored] at put
        subst put
        exact .inr ⟨expected, ⟨space, key, _, value, now⟩, ⟨rfl, permitted, agrees, rfl⟩, rfl,
          rfl⟩

/-- What an event that may come next does to one document. -/
theorem get_cases (allowed : AllowsEvent rule start log event) (space key : String) :
    (storeAfter start (log ++ [event])).get space key = (storeAfter start log).get space key ∨
      ∃ expected record, Accepted rule start log event expected record ∧ record.space = space ∧
        record.key = key ∧ (storeAfter start (log ++ [event])).get space key = some record := by
  rcases accepted_cases allowed with ⟨-, same⟩ | ⟨expected, record, accepted, -, stored⟩
  · rw [same]
    exact .inl rfl
  · rw [stored]
    by_cases here : record.space = space ∧ record.key = key
    · obtain ⟨rfl, rfl⟩ := here
      exact .inr ⟨expected, record, accepted, rfl, rfl, get_insert_self⟩
    · exact .inl (get_insert_of_ne here)

theorem Accepted.version_lt (accepted : Accepted rule start log event expected record)
    (found : (storeAfter start log).get record.space record.key = some current) :
    current.version < record.version := by
  have moved := accepted.version_eq
  rw [found, Option.map_some, Option.getD_some] at moved
  omega

theorem Accepted.version_expected {version : Nat}
    (accepted : Accepted rule start log event (some version) record)
    (found : (storeAfter start log).get record.space record.key = some current) :
    current.version = version := by
  have agrees := accepted.agrees
  rw [found] at agrees
  by_contra different
  simp only [casConflict, if_pos different, reduceCtorEq] at agrees

section

variable (proper : ProperLog rule start later) (isPrefix : log <+: later)
  (found : (storeAfter start log).get space key = some record)

include proper isPrefix found

theorem get_later : ∃ current, (storeAfter start later).get space key = some current ∧
      (current = record ∨ record.version < current.version) := by
  apply proper.induct_from isPrefix ⟨record, found, .inl rfl⟩
  intro middle event _ _ allowed reached
  obtain ⟨current, stored, newer⟩ := reached
  rcases get_cases allowed space key with same | ⟨expected, written, accepted, rfl, rfl, replaced⟩
  · exact ⟨current, same.trans stored, newer⟩
  · refine ⟨written, replaced, .inr ?_⟩
    have moved := accepted.version_lt stored
    rcases newer with rfl | newer
    · exact moved
    · exact newer.trans moved

theorem eq_of_version_eq (stored : (storeAfter start later).get space key = some current)
    (same : current.version = record.version) : current = record := by
  obtain ⟨other, otherStored, newer⟩ := get_later proper isPrefix found
  rw [stored, Option.some.injEq] at otherStored
  subst otherStored
  rcases newer with eq | newer
  · exact eq
  · omega

end

theorem version_ne_zero (proper : ProperLog rule start log)
    (positive : ∀ record, start.get space key = some record → record.version ≠ 0)
    (found : (storeAfter start log).get space key = some record) : record.version ≠ 0 := by
  suffices positiveAfter : ∀ record, (storeAfter start log).get space key = some record →
      record.version ≠ 0 from positiveAfter record found
  clear found
  refine proper.induct (motive := fun log => ∀ record,
    (storeAfter start log).get space key = some record → record.version ≠ 0)
    positive ?_
  intro middle event _ allowed before record found
  rcases get_cases allowed space key with same | ⟨expected, written, accepted, rfl, rfl, replaced⟩
  · exact before record (same.symm.trans found)
  · rw [replaced, Option.some.injEq] at found
    subst found
    rw [accepted.version_eq]
    cases (storeAfter start middle).get written.space written.key with
    | none => exact one_ne_zero
    | some stored => exact Nat.succ_ne_zero _

/-- Between the logs, the record has been accepted for the key. -/
def WasAccepted (rule : WriteRule Index Value) (start : RecordStore Value)
    (log later : List (StoreEvent Index Value)) (space key : String) (record : Record Value) : Prop :=
  ∃ middle event expected, log <+: middle ∧ middle ++ [event] <+: later ∧
    Accepted rule start middle event expected record ∧ record.space = space ∧ record.key = key

theorem origin_of_get (proper : ProperLog rule start later) (isPrefix : log <+: later)
    (found : (storeAfter start later).get space key = some record) :
    (storeAfter start log).get space key = some record ∨
      WasAccepted rule start log later space key record := by
  suffices origin : ∀ record, (storeAfter start later).get space key = some record →
      (storeAfter start log).get space key = some record ∨
        WasAccepted rule start log later space key record from origin record found
  clear found
  refine proper.induct_from (motive := fun later => ∀ record,
    (storeAfter start later).get space key = some record →
      (storeAfter start log).get space key = some record ∨
        WasAccepted rule start log later space key record)
    isPrefix (fun record found => .inl found) ?_
  intro middle event since _ allowed before record found
  rcases get_cases allowed space key with same | ⟨expected, written, accepted, rfl, rfl, replaced⟩
  · rcases before record (same.symm.trans found) with initial | written
    · exact .inl initial
    · obtain ⟨first, wrote, expected, sinceFirst, within, accepted⟩ := written
      exact .inr ⟨first, wrote, expected, sinceFirst,
        within.trans (List.prefix_append _ _), accepted⟩
  · rw [replaced, Option.some.injEq] at found
    subst found
    exact .inr ⟨middle, event, expected, since, List.prefix_rfl, accepted, rfl, rfl⟩

theorem Accepted.get_snoc (accepted : Accepted rule start log event expected record) :
    (storeAfter start (log ++ [event])).get record.space record.key = some record := by
  rw [storeAfter_snoc]
  have same := accepted.event_eq
  obtain ⟨index, operation, answer⟩ := event
  cases same
  exact get_insert_self

theorem accepted_of_wrote (allowed : AllowsEvent rule start log event)
    (wrote : StoreEvent.wrote event = some (space, key)) :
    ∃ expected record, Accepted rule start log event expected record ∧ record.space = space ∧
      record.key = key ∧ (storeAfter start (log ++ [event])).get space key = some record := by
  rcases accepted_cases allowed with ⟨silent, -⟩ | ⟨expected, record, accepted, here, -⟩
  · rw [silent] at wrote
    cases wrote
  · rw [here] at wrote
    cases wrote
    exact ⟨expected, record, accepted, rfl, rfl, accepted.get_snoc⟩

theorem unwritten_of_get_eq {middle : List (StoreEvent Index Value)}
    (proper : ProperLog rule start later) (since : log <+: middle)
    (within : middle ++ [event] <+: later)
    (found : (storeAfter start log).get space key = some record)
    (stored : (storeAfter start later).get space key = some record) :
    StoreEvent.wrote event ≠ some (space, key) := by
  intro wrote
  have inside := (List.prefix_append middle [event]).trans within
  obtain ⟨expected, written, accepted, rfl, rfl, replaced⟩ :=
    accepted_of_wrote (proper _ _ within) wrote
  obtain ⟨current, present, newer⟩ := get_later (proper.of_prefix inside) since found
  have moved := accepted.version_lt present
  obtain ⟨last, lastStored, lastNewer⟩ := get_later proper within replaced
  rw [stored, Option.some.injEq] at lastStored
  subst lastStored
  rcases newer with rfl | newer
  · rcases lastNewer with rfl | lastNewer
    · exact moved.ne rfl
    · omega
  · rcases lastNewer with rfl | lastNewer
    · omega
    · omega

end History

section Programs

variable (start : RecordStore Value)

/-- Since the first log, the client has read this record. -/
def WasRead (index : Index) (space key : String) (record : Record Value)
    (since log : List (StoreEvent Index Value)) : Prop :=
  ∃ earlier, since <+: earlier ∧
    earlier ++ [⟨index, .get space key, .ok (some record)⟩] <+: log ∧
    (storeAfter start earlier).get space key = some record

/-- Since the first log, the client has listed these records. -/
def WasListed (index : Index) (space : String) (limit : Nat) (records : List (Record Value))
    (since log : List (StoreEvent Index Value)) : Prop :=
  ∃ earlier, since <+: earlier ∧ earlier ++ [⟨index, .list space limit, .ok records⟩] <+: log ∧
    records = (storeAfter start earlier).list space limit

variable {rule : WriteRule Index Value} {start} {index : Index}
  {since log later : List (StoreEvent Index Value)} {space key : String} {limit : Nat}
  {record current : Record Value} {records : List (Record Value)}

theorem WasRead.mono (read : WasRead start index space key record since log)
    (isPrefix : log <+: later) : WasRead start index space key record since later := by
  obtain ⟨earlier, sinceEarlier, logged, found⟩ := read
  exact ⟨earlier, sinceEarlier, logged.trans isPrefix, found⟩

theorem WasRead.since_mono {first : List (StoreEvent Index Value)}
    (read : WasRead start index space key record since log) (isPrefix : first <+: since) :
    WasRead start index space key record first log := by
  obtain ⟨earlier, sinceEarlier, logged, found⟩ := read
  exact ⟨earlier, isPrefix.trans sinceEarlier, logged, found⟩

theorem WasListed.mono (listed : WasListed start index space limit records since log)
    (isPrefix : log <+: later) : WasListed start index space limit records since later := by
  obtain ⟨earlier, sinceEarlier, logged, same⟩ := listed
  exact ⟨earlier, sinceEarlier, logged.trans isPrefix, same⟩

theorem WasRead.current_eq (read : WasRead start index space key record since log)
    (proper : ProperLog rule start log) (stored : (storeAfter start log).get space key = some current)
    (same : current.version = record.version) : current = record := by
  obtain ⟨earlier, _, logged, found⟩ := read
  exact eq_of_version_eq proper ((List.prefix_append _ _).trans logged) found stored same

theorem WasListed.current_eq (listed : WasListed start index space limit records since log)
    (member : record ∈ records) (proper : ProperLog rule start log)
    (stored : (storeAfter start log).get space record.key = some current)
    (same : current.version = record.version) : current = record := by
  obtain ⟨earlier, _, logged, rfl⟩ := listed
  exact eq_of_version_eq proper ((List.prefix_append _ _).trans logged) (get_of_mem_list member)
    stored same

theorem answer_get {found : Option (Record Value)}
    (allowed : AllowsEvent rule start log ⟨index, .get space key, .ok found⟩) :
    (storeAfter start log).get space key = found := by
  obtain ⟨-, ⟨now, failure⟩, answered⟩ := allowed
  cases failure with
  | some detail => cases answered
  | none => exact Except.ok.inj answered

theorem answer_list
    (allowed : AllowsEvent rule start log ⟨index, .list space limit, .ok records⟩) :
    records = (storeAfter start log).list space limit := by
  obtain ⟨-, ⟨now, failure⟩, answered⟩ := allowed
  cases failure with
  | some detail => cases answered
  | none => exact (Except.ok.inj answered).symm

variable (view : NamespacedStore) {value : Value} (codec : Codec Value Document)
  {expected : Option Nat}

theorem heeds_get (key : String) :
    Upholds rule start index (view.get codec key)
      (fun result later => ∀ document version, result = .ok (some (document, version)) →
        ∃ record, WasRead start index view.space key record log later ∧
          codec.decode record.value = .ok document ∧ record.version = version) log := by
  apply Heeds.seq (Heeds.perform fun _ _ _ => trivial)
  intro answer final _ _ answered
  obtain ⟨earlier, since, allowed, logged⟩ := answered
  cases answer with
  | error error => exact .done fun _ _ _ _ _ => nofun
  | ok found =>
    cases found with
    | none => exact .done fun _ _ _ _ _ => nofun
    | some record =>
      cases decoded : codec.decode record.value with
      | error detail =>
        simp only [decoded]
        exact .done fun _ _ _ _ _ => nofun
      | ok document =>
        simp only [decoded]
        apply Heeds.done
        intro later further _ other version same
        cases same
        have read : WasRead start index view.space key record log final :=
          ⟨earlier, since, logged, answer_get allowed⟩
        exact ⟨record, read.mono further, decoded, rfl⟩

theorem heeds_list (limit : Nat) :
    Upholds rule start index (view.list codec limit)
      (fun result later => ∀ documents, result = .ok documents →
        ∃ records, WasListed start index view.space limit records log later ∧
          NamespacedStore.decodeAll codec records = .ok documents) log := by
  apply Heeds.seq (Heeds.perform fun _ _ _ => trivial)
  intro answer final _ _ answered
  obtain ⟨earlier, since, allowed, logged⟩ := answered
  cases answer with
  | error error => exact .done fun _ _ _ _ => nofun
  | ok records =>
    apply Heeds.done
    intro later further _ documents decoded
    have listed : WasListed start index view.space limit records log final :=
      ⟨earlier, since, logged, answer_list allowed⟩
    exact ⟨records, listed.mono further, decoded⟩

/-- The client has written the document under the key, expecting this version. -/
def WasWritten (index : Index) (space key : String) (value : Value) (expected : Option Nat)
    (log : List (StoreEvent Index Value)) : Prop :=
  ∃ earlier record, earlier ++ [⟨index, .put space key value expected, .ok record⟩] <+: log

theorem WasWritten.mono (written : WasWritten index space key value expected log)
    (isPrefix : log <+: later) : WasWritten index space key value expected later := by
  obtain ⟨earlier, record, logged⟩ := written
  exact ⟨earlier, record, logged.trans isPrefix⟩

theorem accepted_of_answer
    (allowed : AllowsEvent rule start log ⟨index, .put space key value expected, .ok record⟩) :
    Accepted rule start log ⟨index, .put space key value expected, .ok record⟩ expected record ∧
      record.space = space ∧ record.key = key ∧ record.value = value ∧
      (storeAfter start (log ++ [⟨index, .put space key value expected, .ok record⟩])).get space key =
        some record := by
  rcases accepted_cases allowed with ⟨silent, -⟩ | ⟨other, written, accepted, -, stored⟩
  · cases silent
  · have same := accepted.event_eq
    cases same
    refine ⟨accepted, rfl, rfl, rfl, ?_⟩
    rw [stored]
    exact get_insert_self

theorem not_created_of_get {written : Record Value} (proper : ProperLog rule start later)
    (isPrefix : log <+: later)
    (positive : ∀ record, start.get space key = some record → record.version ≠ 0)
    (found : (storeAfter start log).get space key = some record) :
    ¬ AllowsEvent rule start later ⟨index, .put space key value (some 0), .ok written⟩ := by
  intro allowed
  obtain ⟨accepted, rfl, rfl, rfl, -⟩ := accepted_of_answer allowed
  obtain ⟨current, stored, -⟩ := get_later proper isPrefix found
  exact version_ne_zero proper positive stored (accepted.version_expected stored)

theorem WasWritten.created_once {other : Index} {otherValue : Value}
    (proper : ProperLog rule start log)
    (positive : ∀ record, start.get space key = some record → record.version ≠ 0)
    (first : WasWritten index space key value (some 0) log)
    (second : WasWritten other space key otherValue (some 0) log) :
    index = other ∧ value = otherValue := by
  obtain ⟨earlier, record, logged⟩ := first
  obtain ⟨otherEarlier, otherRecord, otherLogged⟩ := second
  have before := proper.of_prefix ((List.prefix_append earlier _).trans logged)
  have otherBefore := proper.of_prefix ((List.prefix_append otherEarlier _).trans otherLogged)
  have allowed := proper _ _ logged
  have otherAllowed := proper _ _ otherLogged
  rcases prefix_snoc_cases logged otherLogged with within | within | ⟨-, same⟩
  · obtain ⟨-, -, -, -, stored⟩ := accepted_of_answer allowed
    exact absurd otherAllowed (not_created_of_get otherBefore within positive stored)
  · obtain ⟨-, -, -, -, stored⟩ := accepted_of_answer otherAllowed
    exact absurd allowed (not_created_of_get before within positive stored)
  · cases same
    exact ⟨rfl, rfl⟩

theorem heeds_put {key : String} {document : Document}
    (permitted : ∀ later, log <+: later → ProperLog rule start later →
      rule index (storeAfter start later) later view.space key (codec.encode document) expected) :
    Upholds rule start index (view.put codec key document expected)
      (fun answer later => ∀ record, answer = .ok record →
        WasWritten index view.space key (codec.encode document) expected later) log := by
  apply (Heeds.perform permitted).weaken
  intro answer final _ _ answered record accepted
  obtain ⟨earlier, _, _, logged⟩ := answered
  subst accepted
  exact ⟨earlier, record, logged⟩

/-- A compare-and-swap loop writes what it made of the document that it has read. -/
theorem heeds_modify (key : String) (mutate : Document → Nat → Except Refusal (Document × Extra))
    (tries : Nat)
    (permitted : ∀ later record document changed, log <+: later → ProperLog rule start later →
      WasRead start index view.space key record log later →
      codec.decode record.value = .ok document → mutate document record.version = .ok changed →
      rule index (storeAfter start later) later view.space key (codec.encode changed.1)
        (some record.version)) :
    Upholds rule start index (view.modify codec key mutate tries)
      (fun result later => ∀ changed extra, result = .written changed extra →
        ∃ record document, WasRead start index view.space key record log later ∧
          codec.decode record.value = .ok document ∧
          mutate document record.version = .ok (changed, extra) ∧
          WasWritten index view.space key (codec.encode changed) (some record.version) later)
      log := by
  induction tries generalizing log with
  | zero => exact .done fun _ _ _ _ _ => nofun
  | succ tries ih =>
    apply Heeds.seq (heeds_get view codec key)
    intro result read readPrefix _ wasRead
    cases result with
    | error error => exact .done fun _ _ _ _ _ => nofun
    | ok found =>
      cases found with
      | none => exact .done fun _ _ _ _ _ => nofun
      | some found =>
        obtain ⟨document, version⟩ := found
        obtain ⟨record, seen, decoded, rfl⟩ := wasRead document version rfl
        dsimp only
        cases mutated : mutate document record.version with
        | error refusal => exact .done fun _ _ _ _ _ => nofun
        | ok changed =>
          dsimp only
          apply Heeds.seq (heeds_put view codec fun later further proper =>
            permitted later record document changed (readPrefix.trans further) proper
              (seen.mono further) decoded mutated)
          intro answer written writtenPrefix _ wasWritten
          cases answer with
          | ok stored =>
            apply Heeds.done
            intro later further _ final extra same
            cases same
            exact ⟨record, document, seen.mono (writtenPrefix.trans further), decoded,
              mutated, (wasWritten stored rfl).mono further⟩
          | error error =>
            cases error with
            | conflict expected actual =>
              have since := readPrefix.trans writtenPrefix
              apply (ih _).weaken
              · intro result later _ _ post final extra same
                obtain ⟨record, document, again, rest⟩ := post final extra same
                exact ⟨record, document, again.since_mono since, rest⟩
              · intro later record document changed further proper again
                exact permitted later record document changed (since.trans further)
                  proper (again.since_mono since)
            | _ =>
              exact .done fun _ _ _ _ _ => nofun

end Programs

end UltimateCoders.Governance
