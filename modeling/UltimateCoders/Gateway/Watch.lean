import UltimateCoders.Gateway.TaskStore
import UltimateCoders.Replay.Splice
import UltimateCoders.Transition.Run

/-! # Watching a task

A watcher subscribes to the broadcast of events, replays those the store has logged,
and then listens, leaving out as many events as it has replayed. Events are recorded
and broadcast by others at any time. The channel neither lags nor closes.
-/

namespace UltimateCoders.Gateway

open TaskStore (inlineEventsMax)
open Transition (Run)
open List

/-- How far a watcher has come. -/
inductive WatchPhase where
  | idle
  | subscribed
  | streaming
  deriving DecidableEq

/-- The log, the channel and one watcher. All that was recorded, and how much of it
there was when the watcher replayed the log, is kept to say what the watcher is due. -/
structure WatchState (Event : Type) where
  phase : WatchPhase
  recorded : List Event
  log : List Event
  /-- Recorded, and still to be broadcast. -/
  unsent : List Event
  /-- Broadcast since the watcher has subscribed. -/
  heard : List Event
  past : Nat
  early : Nat
  received : Nat
  skipRemaining : Nat
  yielded : List Event
  deriving DecidableEq

inductive WatchAction (Event : Type) where
  | record (event : Event)
  | broadcast (event : Event)
  | subscribe
  | replay
  | receive
  deriving DecidableEq

namespace WatchState

variable {Event : Type} [DecidableEq Event] (taskOf : Event → String) (taskId : String)

/-- Nothing was recorded yet, and nobody watches. -/
def initial : WatchState Event where
  phase := .idle
  recorded := []
  log := []
  unsent := []
  heard := []
  past := 0
  early := 0
  received := 0
  skipRemaining := 0
  yielded := []

/-- Add an event to the log, which keeps only so many. -/
def recordEvent (log : List Event) (event : Event) : List Event :=
  let events := log ++ [event]
  events.drop (events.length - inlineEventsMax)

/-- What a watcher replays: nothing, if it watches all tasks. -/
def replayed (log : List Event) : List Event :=
  if taskId = "" then [] else log.filter fun event => taskOf event = taskId

/-- The watcher takes heed of the event. -/
def heeds (event : Event) : Bool := taskId = "" || taskOf event = taskId

/-- Take the next event from the channel. -/
def receive (state : WatchState Event) (event : Event) : WatchState Event :=
  let state := { state with received := state.received + 1 }
  if heeds taskOf taskId event then
    if state.skipRemaining > 0 then { state with skipRemaining := state.skipRemaining - 1 }
    else { state with yielded := state.yielded ++ [event] }
  else state

/-- The state after an action, if it is possible. No event is recorded or broadcast
twice. -/
def step (state : WatchState Event) : WatchAction Event → Option (WatchState Event)
  | .record event =>
    if event ∈ state.recorded then none
    else some { state with
      recorded := state.recorded ++ [event]
      log := recordEvent state.log event
      unsent := state.unsent ++ [event] }
  | .broadcast event =>
    if event ∈ state.unsent then some { state with
      unsent := state.unsent.erase event
      heard := if state.phase = .idle then state.heard else state.heard ++ [event] }
    else none
  | .subscribe =>
    if state.phase = .idle then some { state with phase := .subscribed } else none
  | .replay =>
    if state.phase = .subscribed then some { state with
      phase := .streaming
      past := state.recorded.length
      early := state.heard.length
      skipRemaining := (replayed taskOf taskId state.log).length
      yielded := replayed taskOf taskId state.log }
    else none
  | .receive =>
    if state.phase = .streaming then
      (state.heard[state.received]?).map (receive taskOf taskId state)
    else none

def Steps (before : WatchState Event) (action : WatchAction Event) (after : WatchState Event) :
    Prop :=
  before.step taskOf taskId action = some after

/-- The events of the task that were recorded before the log was replayed or broadcast
after it, in the order in which they were recorded. -/
def due (state : WatchState Event) : List Event :=
  state.recorded.filter fun event => taskOf event = taskId &&
    (event ∈ state.recorded.take state.past || event ∈ state.heard.drop state.early)

/-- Of the events of the task that were heard, none was recorded after the log was replayed;
or all that were recorded before it were heard, and before the others, which were heard
in the order in which they were recorded. -/
def InStep (state : WatchState Event) : Prop :=
  Replay.InStep ((state.recorded.take state.past).filter fun event => taskOf event = taskId)
    ((state.recorded.drop state.past).filter fun event => taskOf event = taskId)
    (state.heard.filter fun event => taskOf event = taskId)

/-- What holds of a watcher that listens. -/
structure Streaming (state : WatchState Event) : Prop where
  past_le : state.past ≤ state.recorded.length
  early_le : state.early ≤ state.heard.length
  received_le : state.received ≤ state.heard.length
  early_past : ∀ event ∈ state.heard.take state.early, event ∈ state.recorded.take state.past
  yielded_eq : state.recorded.length ≤ inlineEventsMax → state.yielded =
    Replay.splice (replayed taskOf taskId (state.recorded.take state.past))
      ((state.heard.take state.received).filter (heeds taskOf taskId))
  skip_eq : state.recorded.length ≤ inlineEventsMax → state.skipRemaining =
    (replayed taskOf taskId (state.recorded.take state.past)).length -
      ((state.heard.take state.received).filter (heeds taskOf taskId)).length

/-- What holds in every state of a run. -/
structure Consistent (state : WatchState Event) : Prop where
  log_eq : state.recorded.length ≤ inlineEventsMax → state.log = state.recorded
  recorded_nodup : state.recorded.Nodup
  unsent_nodup : state.unsent.Nodup
  unsent_recorded : ∀ event ∈ state.unsent, event ∈ state.recorded
  heard_nodup : state.heard.Nodup
  heard_recorded : ∀ event ∈ state.heard, event ∈ state.recorded
  heard_sent : ∀ event ∈ state.heard, event ∉ state.unsent
  unread : state.phase ≠ .streaming → state.received = 0
  streaming : state.phase = .streaming → state.Streaming taskOf taskId

variable {taskOf taskId} {before after state : WatchState Event} {event : Event}
  {action : WatchAction Event} {actions : List (WatchAction Event)}

omit [DecidableEq Event] in
theorem consistent_initial : (initial : WatchState Event).Consistent taskOf taskId where
  log_eq := fun _ => rfl
  recorded_nodup := .nil
  unsent_nodup := .nil
  unsent_recorded := fun _ member => absurd member not_mem_nil
  heard_nodup := .nil
  heard_recorded := fun _ member => absurd member not_mem_nil
  heard_sent := fun _ member => absurd member not_mem_nil
  unread := fun _ => rfl
  streaming := nofun

omit [DecidableEq Event] in
theorem recordEvent_of_below {log : List Event} (below : (log ++ [event]).length ≤ inlineEventsMax) :
    recordEvent log event = log ++ [event] := by
  rw [recordEvent, Nat.sub_eq_zero_of_le below, drop_zero]

section

variable (consistent : before.Consistent taskOf taskId)

include consistent

theorem consistent_record (step : before.Steps taskOf taskId (.record event) after) :
    after.Consistent taskOf taskId := by
  simp only [Steps, WatchState.step] at step
  split at step
  · cases step
  · rename_i fresh
    rw [← Option.some.inj step]
    have shorter : (before.recorded ++ [event]).length ≤ inlineEventsMax →
        before.recorded.length ≤ inlineEventsMax := by
      rw [length_append]
      exact fun below => Nat.le_of_add_right_le below
    constructor
    · intro below
      dsimp only
      rw [consistent.log_eq (shorter below), recordEvent_of_below below]
    · exact consistent.recorded_nodup.append (nodup_singleton event) (disjoint_singleton.mpr fresh)
    · exact consistent.unsent_nodup.append (nodup_singleton event)
        (disjoint_singleton.mpr fun waits => fresh (consistent.unsent_recorded event waits))
    · intro other member
      rcases mem_append.mp member with old | new
      · exact mem_append_left _ (consistent.unsent_recorded other old)
      · exact mem_append_right _ new
    · exact consistent.heard_nodup
    · exact fun other member => mem_append_left _ (consistent.heard_recorded other member)
    · intro other member unsent
      rcases mem_append.mp unsent with old | new
      · exact consistent.heard_sent other member old
      · exact fresh (mem_singleton.mp new ▸ consistent.heard_recorded other member)
    · exact consistent.unread
    · intro streams
      have streaming := consistent.streaming streams
      have past : (before.recorded ++ [event]).take before.past =
          before.recorded.take before.past := take_append_of_le_length streaming.past_le
      refine ⟨?_, streaming.early_le, streaming.received_le, ?_, ?_, ?_⟩
      · rw [length_append]
        exact Nat.le_add_right_of_le streaming.past_le
      · rw [past]
        exact streaming.early_past
      · rw [past]
        exact fun below => streaming.yielded_eq (shorter below)
      · rw [past]
        exact fun below => streaming.skip_eq (shorter below)

theorem consistent_broadcast (step : before.Steps taskOf taskId (.broadcast event) after) :
    after.Consistent taskOf taskId := by
  simp only [Steps, WatchState.step] at step
  split at step
  · rename_i waits
    rw [← Option.some.inj step]
    have still : ∀ other ∈ before.unsent.erase event, other ∈ before.unsent :=
      fun other => mem_of_mem_erase
    by_cases idle : before.phase = .idle
    · rw [if_pos idle]
      refine ⟨consistent.log_eq, consistent.recorded_nodup, consistent.unsent_nodup.erase event,
        fun other member => consistent.unsent_recorded other (still other member),
        consistent.heard_nodup, consistent.heard_recorded,
        fun other member waits => consistent.heard_sent other member (still other waits),
        consistent.unread, fun streams => ?_⟩
      rw [idle] at streams
      cases streams
    · rw [if_neg idle]
      have unheard : event ∉ before.heard := fun member => consistent.heard_sent event member waits
      constructor
      · exact consistent.log_eq
      · exact consistent.recorded_nodup
      · exact consistent.unsent_nodup.erase event
      · exact fun other member => consistent.unsent_recorded other (still other member)
      · exact consistent.heard_nodup.append (nodup_singleton event) (disjoint_singleton.mpr unheard)
      · intro other member
        rcases mem_append.mp member with old | new
        · exact consistent.heard_recorded other old
        · exact mem_singleton.mp new ▸ consistent.unsent_recorded event waits
      · intro other member unsent
        rcases mem_append.mp member with old | new
        · exact consistent.heard_sent other old (still other unsent)
        · rw [mem_singleton.mp new] at unsent
          exact consistent.unsent_nodup.not_mem_erase unsent
      · exact consistent.unread
      · intro streams
        have streaming := consistent.streaming streams
        have longer : ∀ count ≤ before.heard.length, count ≤ (before.heard ++ [event]).length := by
          intro count within
          rw [length_append]
          exact Nat.le_add_right_of_le within
        have same : ∀ count ≤ before.heard.length,
            (before.heard ++ [event]).take count = before.heard.take count :=
          fun _ => take_append_of_le_length
        refine ⟨streaming.past_le, longer _ streaming.early_le, longer _ streaming.received_le,
          ?_, ?_, ?_⟩
        · rw [same _ streaming.early_le]
          exact streaming.early_past
        · rw [same _ streaming.received_le]
          exact streaming.yielded_eq
        · rw [same _ streaming.received_le]
          exact streaming.skip_eq
  · cases step

theorem consistent_subscribe (step : before.Steps taskOf taskId .subscribe after) :
    after.Consistent taskOf taskId := by
  simp only [Steps, WatchState.step] at step
  split at step
  · rename_i idle
    rw [← Option.some.inj step]
    refine ⟨consistent.log_eq, consistent.recorded_nodup, consistent.unsent_nodup,
      consistent.unsent_recorded, consistent.heard_nodup, consistent.heard_recorded,
      consistent.heard_sent, fun _ => consistent.unread ?_, nofun⟩
    rw [idle]
    exact WatchPhase.noConfusion
  · cases step

theorem consistent_replay (step : before.Steps taskOf taskId .replay after) :
    after.Consistent taskOf taskId := by
  simp only [Steps, WatchState.step] at step
  split at step
  · rename_i subscribed
    have unread : before.received = 0 := by
      apply consistent.unread
      rw [subscribed]
      exact WatchPhase.noConfusion
    rw [← Option.some.inj step]
    refine ⟨consistent.log_eq, consistent.recorded_nodup, consistent.unsent_nodup,
      consistent.unsent_recorded, consistent.heard_nodup, consistent.heard_recorded,
      consistent.heard_sent, fun impossible => absurd rfl impossible, fun _ => ?_⟩
    refine ⟨Nat.le_refl _, Nat.le_refl _, ?_, ?_, ?_, ?_⟩
    · dsimp only
      rw [unread]
      exact Nat.zero_le _
    · dsimp only
      rw [take_length, take_length]
      exact consistent.heard_recorded
    · intro below
      dsimp only
      rw [unread, take_length, consistent.log_eq below]
      simp [Replay.splice]
    · intro below
      dsimp only
      rw [unread, take_length, consistent.log_eq below]
      simp
  · cases step

end

omit [DecidableEq Event] in
/-- Taking an event from the channel keeps pace with the splice. -/
theorem streaming_receive (streaming : before.Streaming taskOf taskId)
    (next : before.heard[before.received]? = some event) :
    (before.receive taskOf taskId event).Streaming taskOf taskId := by
  have within : before.received < before.heard.length := (List.getElem?_eq_some_iff.mp next).1
  have taken : before.heard.take (before.received + 1) =
      before.heard.take before.received ++ [event] := by
    rw [take_add_one, next]
    rfl
  unfold receive
  by_cases heeded : heeds taskOf taskId event = true
  · have more : (before.heard.take (before.received + 1)).filter (heeds taskOf taskId) =
        (before.heard.take before.received).filter (heeds taskOf taskId) ++ [event] := by
      rw [taken, filter_append, filter_singleton, heeded]
      rfl
    rw [if_pos heeded]
    by_cases skips : before.skipRemaining > 0
    · rw [if_pos skips]
      refine ⟨streaming.past_le, streaming.early_le, within, streaming.early_past, ?_, ?_⟩
      · intro below
        have left := streaming.skip_eq below
        dsimp only
        rw [more, Replay.splice_concat, if_pos (by omega)]
        exact streaming.yielded_eq below
      · intro below
        have left := streaming.skip_eq below
        dsimp only
        rw [more, length_append, length_singleton]
        omega
    · rw [if_neg skips]
      refine ⟨streaming.past_le, streaming.early_le, within, streaming.early_past, ?_, ?_⟩
      · intro below
        have left := streaming.skip_eq below
        dsimp only
        rw [more, Replay.splice_concat, if_neg (by omega), streaming.yielded_eq below]
      · intro below
        have left := streaming.skip_eq below
        dsimp only
        rw [more, length_append, length_singleton]
        omega
  · have same : (before.heard.take (before.received + 1)).filter (heeds taskOf taskId) =
        (before.heard.take before.received).filter (heeds taskOf taskId) := by
      rw [taken, filter_append, filter_singleton, Bool.eq_false_iff.mpr heeded]
      exact append_nil _
    rw [if_neg heeded]
    refine ⟨streaming.past_le, streaming.early_le, within, streaming.early_past, ?_, ?_⟩
    · dsimp only
      rw [same]
      exact streaming.yielded_eq
    · dsimp only
      rw [same]
      exact streaming.skip_eq

omit [DecidableEq Event] in
theorem receive_fields (state : WatchState Event) (event : Event) :
    ∃ skipRemaining yielded, state.receive taskOf taskId event =
      { state with
        received := state.received + 1
        skipRemaining := skipRemaining
        yielded := yielded } := by
  unfold receive
  dsimp only
  split_ifs
  · exact ⟨_, _, rfl⟩
  · exact ⟨_, _, rfl⟩
  · exact ⟨_, _, rfl⟩

theorem consistent_receive (consistent : before.Consistent taskOf taskId)
    (step : before.Steps taskOf taskId .receive after) : after.Consistent taskOf taskId := by
  simp only [Steps, WatchState.step] at step
  split at step
  · rename_i streams
    obtain ⟨event, next, rfl⟩ := Option.map_eq_some_iff.mp step
    have streaming := streaming_receive (consistent.streaming streams) next
    obtain ⟨skipRemaining, yielded, fields⟩ := receive_fields before event
    rw [fields] at streaming ⊢
    exact ⟨consistent.log_eq, consistent.recorded_nodup, consistent.unsent_nodup,
      consistent.unsent_recorded, consistent.heard_nodup, consistent.heard_recorded,
      consistent.heard_sent, fun impossible => absurd streams impossible, fun _ => streaming⟩
  · cases step

theorem consistent_of_step (consistent : before.Consistent taskOf taskId)
    (step : before.Steps taskOf taskId action after) : after.Consistent taskOf taskId := by
  cases action with
  | record event => exact consistent_record consistent step
  | broadcast event => exact consistent_broadcast consistent step
  | subscribe => exact consistent_subscribe consistent step
  | replay => exact consistent_replay consistent step
  | receive => exact consistent_receive consistent step

theorem consistent_of_run (run : Run (Steps taskOf taskId) initial actions state) :
    state.Consistent taskOf taskId := by
  apply run.invariant (fun _ => True) _ (fun _ _ => trivial) consistent_initial
  exact fun before action after consistent _ step => consistent_of_step consistent step

theorem exists_drained (taskOf : Event → String) (taskId : String)
    (streams : state.phase = .streaming) (within : state.received ≤ state.heard.length) :
    ∃ final, Run (Steps taskOf taskId) state
        (replicate (state.heard.length - state.received) .receive) final ∧
      final.phase = .streaming ∧ final.received = final.heard.length ∧
      final.recorded = state.recorded ∧ final.heard = state.heard ∧ final.past = state.past ∧
      final.early = state.early := by
  induction unread : state.heard.length - state.received generalizing state with
  | zero => exact ⟨state, .nil state, streams, by omega, rfl, rfl, rfl, rfl⟩
  | succ unread ih =>
    have next : state.heard[state.received]? = some (state.heard[state.received]) :=
      getElem?_eq_getElem (by omega)
    have step : state.Steps taskOf taskId .receive
        (state.receive taskOf taskId state.heard[state.received]) := by
      rw [Steps, WatchState.step, if_pos streams, next, Option.map_some]
    obtain ⟨skipRemaining, yielded, fields⟩ := receive_fields state state.heard[state.received]
    rw [fields] at step
    have still : WatchState.phase { state with
        received := state.received + 1
        skipRemaining := skipRemaining
        yielded := yielded } = .streaming := streams
    obtain ⟨final, run, rest⟩ := ih still (by dsimp only; omega) (by dsimp only; omega)
    exact ⟨final, .cons step run, rest⟩

omit [DecidableEq Event] in
theorem filter_take_drop (events : List Event) (count : Nat) (kept : Event → Bool) :
    events.filter kept = (events.take count).filter kept ++ (events.drop count).filter kept := by
  rw [← filter_append, take_append_drop]

omit [DecidableEq Event] in
theorem Consistent.channel (consistent : state.Consistent taskOf taskId) :
    Replay.Channel ((state.recorded.take state.past).filter fun event => taskOf event = taskId)
      ((state.recorded.drop state.past).filter fun event => taskOf event = taskId)
      (state.heard.filter fun event => taskOf event = taskId) where
  events := by
    rw [← filter_append, take_append_drop]
    exact consistent.recorded_nodup.filter _
  once := consistent.heard_nodup.filter _
  known := by
    intro event member
    obtain ⟨heard, ofTask⟩ := mem_filter.mp member
    have recorded := consistent.heard_recorded event heard
    rw [← take_append_drop state.past state.recorded] at recorded
    rcases mem_append.mp recorded with before | after
    · exact .inl (mem_filter.mpr ⟨before, ofTask⟩)
    · exact .inr (mem_filter.mpr ⟨after, ofTask⟩)

theorem due_eq_seamless (consistent : state.Consistent taskOf taskId)
    (streaming : state.Streaming taskOf taskId) :
    state.due taskOf taskId = Replay.seamless
      ((state.recorded.take state.past).filter fun event => taskOf event = taskId)
      ((state.recorded.drop state.past).filter fun event => taskOf event = taskId)
      (state.heard.filter fun event => taskOf event = taskId) := by
  unfold due Replay.seamless
  rw [filter_take_drop state.recorded state.past, filter_filter]
  congr 1
  · apply filter_congr
    intro event member
    simp [member]
  · apply filter_congr
    intro event member
    have later : event ∉ state.recorded.take state.past := by
      have parts := consistent.recorded_nodup
      rw [← take_append_drop state.past state.recorded] at parts
      exact fun before => disjoint_of_nodup_append parts before member
    have heard : event ∈ state.heard.drop state.early ↔ event ∈ state.heard := by
      constructor
      · exact mem_of_mem_drop
      · intro known
        rw [← take_append_drop state.early state.heard] at known
        exact (mem_append.mp known).resolve_left fun early =>
          later (streaming.early_past event early)
    by_cases ofTask : taskOf event = taskId
    · simp [later, heard, ofTask]
    · simp [ofTask]

/-- Listening to the end gives a watcher of one task each event it is due once and in
order, exactly if the channel was in step with the log. -/
theorem yields_due_iff (run : Run (Steps taskOf taskId) initial actions state)
    (streams : state.phase = .streaming) (below : state.recorded.length ≤ inlineEventsMax)
    (single : taskId ≠ "") :
    ∃ final, Run (Steps taskOf taskId) state
        (replicate (state.heard.length - state.received) .receive) final ∧
      (final.yielded = state.due taskOf taskId ↔ state.InStep taskOf taskId) := by
  have consistent := consistent_of_run run
  have streaming := consistent.streaming streams
  obtain ⟨final, rest, stillStreams, drained, recorded, heard, past, early⟩ :=
    exists_drained taskOf taskId streams streaming.received_le
  have listened := (consistent_of_run (run.append rest)).streaming stillStreams
  refine ⟨final, rest, ?_⟩
  have matching : heeds taskOf taskId = fun event => decide (taskOf event = taskId) := by
    funext event
    simp [heeds, single]
  have yielded : final.yielded = Replay.splice
      ((state.recorded.take state.past).filter fun event => taskOf event = taskId)
      (state.heard.filter fun event => taskOf event = taskId) := by
    rw [listened.yielded_eq (by rw [recorded]; exact below), drained, take_length, recorded,
      heard, past, replayed, if_neg single, matching]
  rw [yielded, due_eq_seamless consistent streaming]
  exact consistent.channel.splice_eq_seamless_iff

/-- An event is recorded before the subscription and broadcast after it. -/
theorem yields_due_iff_heard :
    ∃ state final : WatchState Nat,
      Run (Steps (fun _ => "task-1") "task-1") initial
        [.record 0, .subscribe, .broadcast 0, .replay, .record 1, .broadcast 1] state ∧
      Run (Steps (fun _ => "task-1") "task-1") state [.receive, .receive] final ∧
      final.yielded = [0, 1] := by
  have run : Run (Steps (fun _ => "task-1") "task-1") initial
      [.record 0, .subscribe, .broadcast 0, .replay, .record 1, .broadcast 1] _ :=
    .cons rfl (.cons rfl (.cons rfl (.cons rfl (.cons rfl (.cons rfl (.nil _))))))
  obtain ⟨final, rest, exact⟩ := yields_due_iff run rfl (by decide) (by decide)
  exact ⟨_, final, run, rest, exact.mpr (.inr (by decide))⟩

/-- An event was broadcast before the subscription. It is replayed, and the next one is
left out. -/
theorem yields_due_fails_late :
    ∃ final : WatchState Nat,
      Run (Steps (fun _ => "task-1") "task-1") initial
        [.record 0, .broadcast 0, .subscribe, .replay, .record 1, .broadcast 1, .receive] final ∧
      final.received = final.heard.length ∧
      final.yielded = [0] ∧
      final.due (fun _ => "task-1") "task-1" = [0, 1] :=
  ⟨_, .cons rfl (.cons rfl (.cons rfl (.cons rfl (.cons rfl (.cons rfl (.cons rfl (.nil _))))))),
    rfl, rfl, rfl⟩

end WatchState

end UltimateCoders.Gateway
