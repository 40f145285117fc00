import UltimateCoders.Conflict.Detector

/-! # Which clashes are noticed

Between the test of a declaration and its recording other intents may be recorded. Of two intents
that clash, one is noticed by the other's declaration exactly if it was there when that declaration
looked, or another intent of the same worker was.
-/

namespace UltimateCoders.Conflict

open Transition List Function

variable {Index : Type} [DecidableEq Index]

abbrev IntentEvent (Index : Type) := Occurrence Index IntentOperation IntentOperation.Answer

abbrev IntentSession (Index : Type) :=
  Session Index ConflictDetector IntentOperation IntentOperation.Answer (Option ConflictResult)

/-- The intents that are recorded and not removed, with the calls that declared them, and for
each call those that were there when it looked. -/
structure IntentAccount (Index : Type) where
  active : List (Index × EditIntent)
  seen : Index → List (Index × EditIntent)

variable {index : Index}

namespace IntentAccount

variable (account : IntentAccount Index) (event : IntentEvent Index)

def note : IntentAccount Index :=
  match event.operation with
  | .checkConflict _ _ _ =>
    { account with seen := update account.seen event.index account.active }
  | .record intent => { account with active := account.active ++ [(event.index, intent)] }
  | .remove filePath workerId =>
    { account with active := account.active.filter fun entry =>
        !(decide (entry.2.filePath = filePath) && decide (entry.2.workerId = workerId)) }

/-- The account of what was served so far. -/
def ofLog (log : List (IntentEvent Index)) : IntentAccount Index :=
  log.foldl note ⟨[], fun _ => []⟩

@[simp] theorem ofLog_snoc (log : List (IntentEvent Index)) :
    ofLog (log ++ [event]) = (ofLog log).note event := by
  rw [ofLog, foldl_append, foldl_cons, foldl_nil, ofLog]

/-- An intent of the worker on the intent's file, which clashes with it, was there when the call
looked. -/
def Met (index : Index) (intent : EditIntent) (worker : String) : Prop :=
  ∃ earlier ∈ account.seen index, earlier.2.workerId = worker ∧
    earlier.2.filePath = intent.filePath ∧ Clash earlier.2.regions intent.regions

/-- The test of the call has named the other workers it met. -/
def Found (index : Index) (intent : EditIntent) (result : ConflictResult) : Prop :=
  ∀ worker, result.Names worker ↔ worker ≠ intent.workerId ∧ account.Met index intent worker

def Absent (index : Index) : Prop := ∀ entry ∈ account.active, entry.1 ≠ index

variable {account event}

theorem mem_note {entry : Index × EditIntent} (member : entry ∈ (account.note event).active) :
    entry ∈ account.active ∨ entry.1 = event.index := by
  unfold note at member
  split at member
  · exact .inl member
  · rcases mem_append.mp member with old | new
    · exact .inl old
    · exact .inr (congrArg Prod.fst (mem_singleton.mp new))
  · exact .inl (mem_of_mem_filter member)

theorem seen_note (other : index ≠ event.index) :
    (account.note event).seen index = account.seen index := by
  unfold note
  split
  · exact update_of_ne other _ _
  · rfl
  · rfl

theorem Absent.note (absent : account.Absent index) (other : index ≠ event.index) :
    (account.note event).Absent index := by
  intro entry member own
  rcases mem_note member with old | new
  · exact absent entry old own
  · exact other (own.symm.trans new)

theorem Found.note {intent : EditIntent} {result : ConflictResult}
    (found : account.Found index intent result) (other : index ≠ event.index) :
    (account.note event).Found index intent result := by
  unfold Found Met
  rw [seen_note other]
  exact found

end IntentAccount

/-- What is left of a call, and what its test has found. -/
inductive Standing (account : IntentAccount Index) (index : Index) :
    DetectorCall → IntentProgram (Option ConflictResult) → Prop where
  | unstarted (call : DetectorCall) (absent : account.Absent index) :
      Standing account index call call.program
  | looked (intent : EditIntent) (result : ConflictResult) (absent : account.Absent index)
      (found : account.Found index intent result) :
      Standing account index (.declareIntent intent)
        (.ask (.record intent) fun _ => .done (some result))
  | recorded (intent : EditIntent) (result : ConflictResult)
      (own : ∀ entry ∈ account.active, entry.1 = index → entry.2 = intent)
      (found : account.Found index intent result) :
      Standing account index (.declareIntent intent) (.done (some result))
  | removed (filePath workerId : String) (absent : account.Absent index) :
      Standing account index (.removeIntent filePath workerId) (.done none)

theorem Standing.note {account : IntentAccount Index} {call : DetectorCall}
    {program : IntentProgram (Option ConflictResult)}
    (standing : Standing account index call program) {event : IntentEvent Index}
    (other : index ≠ event.index) : Standing (account.note event) index call program := by
  cases standing with
  | unstarted _ absent => exact .unstarted call (absent.note other)
  | looked intent result absent found =>
    exact .looked intent result (absent.note other) (found.note other)
  | recorded intent result own found =>
    refine .recorded intent result (fun entry member named => ?_) (found.note other)
    rcases IntentAccount.mem_note member with old | new
    · exact own entry old named
    · exact absurd (named.symm.trans new) other
  | removed filePath workerId absent => exact .removed filePath workerId (absent.note other)

def IntentAccount.Stored (account : IntentAccount Index) (detector : ConflictDetector) : Prop :=
  ∀ filePath, detector.getIntents filePath =
    (account.active.map Prod.snd).filter fun intent => decide (intent.filePath = filePath)

section Served

variable {account : IntentAccount Index} {detector : ConflictDetector}

theorem IntentAccount.Stored.note (stored : account.Stored detector) (index : Index)
    (operation : IntentOperation) :
    (account.note ⟨index, operation, (serveIntents () operation detector).1⟩).Stored
      (serveIntents () operation detector).2 := by
  intro filePath
  cases operation with
  | checkConflict => exact stored filePath
  | record intent =>
    have before := stored filePath
    by_cases own : intent.filePath = filePath <;>
      simp [serveIntents, IntentAccount.note, ConflictDetector.getIntents_record, before, own]
  | remove removed workerId =>
    simp only [serveIntents, IntentAccount.note, ConflictDetector.getIntents_removeIntent,
      stored filePath, filter_map, filter_filter]
    congr 1
    apply filter_congr
    intro entry _
    by_cases own : entry.2.filePath = filePath <;> simp [own]

theorem IntentAccount.Stored.found (stored : account.Stored detector) (index : Index)
    (intent : EditIntent) :
    (account.note ⟨index, .checkConflict intent.filePath intent.workerId intent.regions,
      detector.checkConflict intent.filePath intent.workerId intent.regions⟩).Found index intent
        (detector.checkConflict intent.filePath intent.workerId intent.regions) := by
  intro worker
  rw [ConflictDetector.names_checkConflict, stored]
  simp only [IntentAccount.Met, IntentAccount.note, update_self, mem_filter,
    mem_map, decide_eq_true_eq]
  constructor
  · rintro ⟨earlier, ⟨⟨entry, member, rfl⟩, same⟩, named, other, clash⟩
    exact ⟨other, entry, member, named, same, clash⟩
  · rintro ⟨other, entry, member, named, same, clash⟩
    exact ⟨entry.2, ⟨⟨entry, member, rfl⟩, same⟩, named, other, clash⟩

theorem program_declareIntent (intent : EditIntent) : (DetectorCall.declareIntent intent).program =
    .ask (.checkConflict intent.filePath intent.workerId intent.regions) fun result =>
      .ask (.record intent) fun _ => .done (some result) := rfl

theorem Standing.served {call : DetectorCall} {operation : IntentOperation}
    {resume : operation.Answer → IntentProgram (Option ConflictResult)}
    (standing : Standing account index call (.ask operation resume))
    (stored : account.Stored detector) :
    Standing (account.note ⟨index, operation, (serveIntents () operation detector).1⟩) index call
      (resume (serveIntents () operation detector).1) := by
  generalize asked : Program.ask operation resume = program at standing
  cases standing with
  | unstarted _ absent =>
    cases call with
    | declareIntent intent =>
      rw [program_declareIntent] at asked
      cases asked
      exact .looked intent _ absent (stored.found index intent)
    | removeIntent filePath workerId =>
      rw [DetectorCall.program] at asked
      cases asked
      exact .removed filePath workerId fun entry member =>
        absent entry (mem_of_mem_filter member)
  | looked intent result absent found =>
    cases asked
    refine .recorded intent result (fun entry member named => ?_) found
    rcases mem_append.mp member with old | new
    · exact absurd named (absent entry old)
    · rw [mem_singleton.mp new]
  | recorded | removed => cases asked

end Served

/-- The map holds the intents of the account, and every call stands somewhere. -/
structure IntentsHold (calls : Index → DetectorCall) (session : IntentSession Index) : Prop where
  stored : (IntentAccount.ofLog session.log).Stored session.store
  standing : ∀ index, Standing (IntentAccount.ofLog session.log) index (calls index)
    (session.calls index)

def startIntents (calls : Index → DetectorCall) : IntentSession Index :=
  ⟨.empty, fun index => (calls index).program, []⟩

variable {calls : Index → DetectorCall} {session : IntentSession Index}

theorem intentsHold_start : IntentsHold calls (startIntents calls) where
  stored _ := rfl
  standing index := .unstarted (calls index) fun _ member => absurd member not_mem_nil

theorem IntentsHold.serve (holds : IntentsHold calls session) (move : Index × Unit) :
    IntentsHold calls (session.serve serveIntents move) := by
  obtain ⟨index, ⟨⟩⟩ := move
  have own := holds.standing index
  cases left : session.calls index with
  | done result => simpa only [Session.serve, left] using holds
  | ask operation resume =>
    rw [left] at own
    simp only [Session.serve, left]
    constructor
    · rw [IntentAccount.ofLog_snoc]
      exact holds.stored.note index operation
    · intro other
      rw [IntentAccount.ofLog_snoc]
      by_cases same : other = index
      · subst same
        simpa only [update_self] using own.served holds.stored
      · simpa only [update_of_ne same] using (holds.standing other).note same

theorem intentsHold_run {moves : List (Index × Unit)}
    (run : Run (serves serveIntents) (startIntents calls) moves session) :
    IntentsHold calls session :=
  run.invariant (fun _ => True)
    (fun _ move _ holds _ step => by obtain rfl := step; exact holds.serve move)
    (fun _ _ => trivial) intentsHold_start

/-- The call has returned, and its result names the worker. -/
def Told (session : IntentSession Index) (index : Index) (worker : String) : Prop :=
  ∃ result, session.calls index = .done (some result) ∧ result.Names worker

theorem IntentsHold.told_iff (holds : IntentsHold calls session) {entry : Index × EditIntent}
    (active : entry ∈ (IntentAccount.ofLog session.log).active) {worker : String}
    (other : worker ≠ entry.2.workerId) :
    Told session entry.1 worker ↔
      (IntentAccount.ofLog session.log).Met entry.1 entry.2 worker := by
  have standing := holds.standing entry.1
  unfold Told
  generalize calls entry.1 = call at standing
  generalize session.calls entry.1 = left at standing
  cases standing with
  | unstarted _ absent => exact absurd rfl (absent entry active)
  | looked intent result absent => exact absurd rfl (absent entry active)
  | removed filePath workerId absent => exact absurd rfl (absent entry active)
  | recorded intent result own found =>
    rw [own entry active rfl] at other ⊢
    constructor
    · rintro ⟨told, same, named⟩
      cases same
      exact ((found worker).mp named).2
    · exact fun met => ⟨result, rfl, (found worker).mpr ⟨other, met⟩⟩

/-- Of any two workers with active intents that clash, one was told of the other. -/
def ClashesTold (session : IntentSession Index) : Prop :=
  ∀ first ∈ (IntentAccount.ofLog session.log).active,
    ∀ second ∈ (IntentAccount.ofLog session.log).active,
      first.2.workerId ≠ second.2.workerId → first.2.filePath = second.2.filePath →
        Clash first.2.regions second.2.regions →
          Told session first.1 second.2.workerId ∨ Told session second.1 first.2.workerId

/-- Of any two such workers, one had this intent, or another that clashes as well, recorded when
the other's declaration looked. -/
def ClashesMet (account : IntentAccount Index) : Prop :=
  ∀ first ∈ account.active, ∀ second ∈ account.active,
    first.2.workerId ≠ second.2.workerId → first.2.filePath = second.2.filePath →
      Clash first.2.regions second.2.regions →
        account.Met first.1 first.2 second.2.workerId ∨
          account.Met second.1 second.2 first.2.workerId

/-- However declarations and removals are interleaved, the map holds the active intents, and
clashes are told exactly where a declaration has met an intent of the other worker. -/
theorem clashesTold_iff {moves : List (Index × Unit)}
    (run : Run (serves serveIntents) (startIntents calls) moves session) :
    (IntentAccount.ofLog session.log).Stored session.store ∧
      (ClashesTold session ↔ ClashesMet (IntentAccount.ofLog session.log)) := by
  have holds := intentsHold_run run
  refine ⟨holds.stored, ?_⟩
  unfold ClashesTold ClashesMet
  refine forall₂_congr fun first active => forall₂_congr fun second secondActive =>
    forall₃_congr fun apart _ _ => ?_
  rw [holds.told_iff active apart.symm, holds.told_iff secondActive apart]

def sampleIntent (workerId : String) (start stop : UInt32) : EditIntent where
  workerId := workerId
  filePath := "src/main.rs"
  editType := .modify
  regions := [⟨start, stop⟩]
  timestamp := 0

/-- Two workers want to edit the fifth line. -/
def sampleCalls (index : Nat) : DetectorCall :=
  if index = 0 then .declareIntent (sampleIntent "worker-1" 1 10)
  else .declareIntent (sampleIntent "worker-2" 5 6)

theorem clashesTold_iff_sample :
    ∃ session : IntentSession Nat,
      Run (serves serveIntents) (startIntents sampleCalls) [(0, ()), (0, ()), (1, ()), (1, ())]
        session ∧
      (IntentAccount.ofLog session.log).active =
        [(0, sampleIntent "worker-1" 1 10), (1, sampleIntent "worker-2" 5 6)] ∧
      ClashesTold session := by
  have run : Run (serves serveIntents) (startIntents sampleCalls)
      [(0, ()), (0, ()), (1, ()), (1, ())] _ := .cons rfl (.cons rfl (.cons rfl (.cons rfl (.nil _))))
  refine ⟨_, run, rfl, (clashesTold_iff run).2.mpr ?_⟩
  have clash : Clash [⟨1, 10⟩] [⟨5, 6⟩] := .inl ⟨_, mem_singleton.mpr rfl, _,
    mem_singleton.mpr rfl, by decide⟩
  intro first active second secondActive apart _ _
  have two : ∀ entry ∈ [(0, sampleIntent "worker-1" 1 10), (1, sampleIntent "worker-2" 5 6)],
      entry = (0, sampleIntent "worker-1" 1 10) ∨ entry = (1, sampleIntent "worker-2" 5 6) := by
    simp
  rcases two first active with rfl | rfl <;> rcases two second secondActive with rfl | rfl
  · exact absurd rfl apart
  · exact .inr ⟨_, mem_singleton.mpr rfl, rfl, rfl, clash⟩
  · exact .inl ⟨_, mem_singleton.mpr rfl, rfl, rfl, clash⟩
  · exact absurd rfl apart

/-- Both look before either is recorded, and neither is told of the other. -/
theorem clashesTold_fails :
    ∃ session : IntentSession Nat,
      Run (serves serveIntents) (startIntents sampleCalls) [(0, ()), (1, ()), (0, ()), (1, ())]
        session ∧
      session.store.getIntents "src/main.rs" =
        [sampleIntent "worker-1" 1 10, sampleIntent "worker-2" 5 6] ∧
      session.calls 0 = .done (some .noConflict) ∧ session.calls 1 = .done (some .noConflict) ∧
      ¬ ClashesTold session := by
  have run : Run (serves serveIntents) (startIntents sampleCalls)
      [(0, ()), (1, ()), (0, ()), (1, ())] _ := .cons rfl (.cons rfl (.cons rfl (.cons rfl (.nil _))))
  refine ⟨_, run, rfl, rfl, rfl, fun told => ?_⟩
  have clash : Clash [⟨1, 10⟩] [⟨5, 6⟩] := .inl ⟨_, mem_singleton.mpr rfl, _,
    mem_singleton.mpr rfl, by decide⟩
  rcases told _ mem_cons_self _ (mem_cons_of_mem _ mem_cons_self) (by decide) rfl
    clash with ⟨result, same, named⟩ | ⟨result, same, named⟩
  · cases same
    exact named
  · cases same
    exact named

end UltimateCoders.Conflict
