import Mathlib.Data.Fintype.Basic
import UltimateCoders.Governance.AttentionBoard
import UltimateCoders.Governance.History
import UltimateCoders.Governance.Listing
import UltimateCoders.Transition.Protocol

/-! # One open item for each case

Raising an item takes several operations: it finds the open item of the case, closes it, and
stores its own. A case keeps to one open item as long as no item is stored while another raise
of the case has passed over it, and closing does not fail.
-/

namespace UltimateCoders.Governance

open Transition RecordStore Function
open AttentionBoard (closePrevious newestOpen storeItem superseded supersededBy view)
open StoreOperation

variable {Index Value : Type} {codec : Codec Value AttentionItem}

inductive BoardCall where
  | raise (item : AttentionItem) (now : Instant)
  | resolve (attentionId : String) (resolution : AttentionResolution) (now : Instant)

inductive BoardAnswer where
  | raised (result : Except AttentionBoardError (AttentionItem × Option String))
  | resolved (result : Except AttentionBoardError AttentionItem)

namespace BoardCall

def raised : BoardCall → Option AttentionItem
  | raise item _ => some item
  | resolve _ _ _ => none

def resolution : BoardCall → AttentionResolution
  | raise item _ => supersededBy item
  | resolve _ resolution _ => resolution

def now : BoardCall → Instant
  | raise _ now | resolve _ _ now => now

def program (codec : Codec Value AttentionItem) : BoardCall → StoreProgram Value BoardAnswer
  | raise item now => do return .raised (← AttentionBoard.raise codec item now)
  | resolve attentionId resolution now => do
      return .resolved (← AttentionBoard.resolve codec attentionId resolution now)

end BoardCall

/-! ## How a call proceeds -/

inductive BoardStage where
  | listing
  /-- It is about to read an item that it closes; so many tries are left after this one. -/
  | seeking (id : String) (left : Nat)
  /-- It has read the item, and is about to close it. -/
  | closing (id : String) (left : Nat) (item : AttentionItem) (version : Nat)
  | creating
  | fetching
  | overwriting (current : AttentionItem) (version : Nat)
  | ended
  deriving DecidableEq

namespace BoardStage

/-- The call closes an item first, if there is one in the way. -/
def before : Option String → BoardStage
  | some previous => seeking previous 7
  | none => creating

theorem before_ne_closing {previous : Option String} {id : String} {left version : Nat}
    {item : AttentionItem} : before previous ≠ closing id left item version := by
  cases previous <;> exact fun same => by cases same

/-- The call is to read the item, once more or for the first time, before it goes on. -/
def WillRead (id : String) : BoardStage → Prop
  | seeking other _ => other = id
  | closing other left _ _ => other = id ∧ left ≠ 0
  | _ => False

/-- The call has listed the items of its case, and has not stored its own. -/
def Underway : BoardStage → Prop
  | listing | ended => False
  | _ => True

/-- The call expects that the item may be open. -/
def Expects (id : String) : BoardStage → Prop
  | listing | ended => True
  | seeking other _ => other = id
  | closing other _ _ _ => other = id
  | creating | fetching | overwriting _ _ => False

/-- The call closes an item. -/
def Closes : BoardStage → Prop
  | seeking _ _ | closing _ _ _ _ => True
  | _ => False

end BoardStage

structure BoardPhase where
  call : BoardCall
  stage : BoardStage

namespace BoardPhase

def afterClosing (phase : BoardPhase) : BoardPhase :=
  { phase with stage := if phase.call.raised.isSome then .creating else .ended }

/-- After another writer was quicker. -/
def retry (phase : BoardPhase) (id : String) : Nat → BoardPhase
  | 0 => phase.afterClosing
  | left + 1 => { phase with stage := .seeking id left }

def afterReading (codec : Codec Value AttentionItem) (phase : BoardPhase) (id : String)
    (left : Nat) (record : Record Value) : BoardPhase :=
  match codec.decode record.value with
  | .ok item =>
    if item.isOpen then { phase with stage := .closing id left item record.version }
    else phase.afterClosing
  | .error _ => phase.afterClosing

def afterListing (codec : Codec Value AttentionItem) (phase : BoardPhase) (item : AttentionItem)
    (records : List (Record Value)) : BoardPhase :=
  match NamespacedStore.decodeAll codec records with
  | .ok listed =>
    let previous := superseded item (newestOpen item.caseId listed)
    { phase with stage := .before previous }
  | .error _ => { phase with stage := .ended }

/-- After the item was read that has the id of the raised one. -/
def afterFetching (codec : Codec Value AttentionItem) (phase : BoardPhase)
    (record : Record Value) : BoardPhase :=
  match codec.decode record.value with
  | .ok current => { phase with stage := .overwriting current record.version }
  | .error _ => { phase with stage := .ended }

theorem call_afterReading (phase : BoardPhase) (id : String) (left : Nat) (record : Record Value) :
    (phase.afterReading codec id left record).call = phase.call := by
  unfold afterReading
  split
  · split <;> rfl
  · rfl

theorem call_afterListing (phase : BoardPhase) (item : AttentionItem)
    (records : List (Record Value)) :
    (phase.afterListing codec item records).call = phase.call := by
  unfold afterListing
  split <;> rfl

end BoardPhase

/-- The stage in which a call begins. -/
def BoardCall.phase : BoardCall → BoardPhase
  | raise item now => ⟨.raise item now, .listing⟩
  | resolve id resolution now => ⟨.resolve id resolution now, .seeking id 7⟩

def boarding (codec : Codec Value AttentionItem) :
    Protocol (StoreOperation Value) Answer BoardPhase where
  permits phase operation :=
    match phase.stage with
    | .listing => phase.call.raised.isSome ∧ operation = .list attentionNamespace 2000
    | .seeking id _ => operation = .get attentionNamespace id
    | .closing id _ item version => operation = .put attentionNamespace id
        (codec.encode (item.resolve phase.call.resolution phase.call.now)) (some version)
    | .creating => ∃ item, phase.call.raised = some item ∧
        operation = .put attentionNamespace item.id (codec.encode item) (some 0)
    | .fetching => ∃ item, phase.call.raised = some item ∧
        operation = .get attentionNamespace item.id
    | .overwriting current version => ∃ item, phase.call.raised = some item ∧
        operation = .put attentionNamespace item.id
          (codec.encode { item with since := current.since }) (some version)
    | .ended => False
  next phase operation answer :=
    match phase.stage, operation, answer with
    | .listing, .list _ _, .ok records =>
      match phase.call.raised with
      | some item => phase.afterListing codec item records
      | none => { phase with stage := .ended }
    | .seeking id left, .get _ _, .ok (some record) => phase.afterReading codec id left record
    | .seeking _ _, _, _ => phase.afterClosing
    | .closing id left _ _, .put _ _ _ _, .error (.conflict _ _) => phase.retry id left
    | .closing _ _ _ _, _, _ => phase.afterClosing
    | .creating, .put _ _ _ _, .error (.conflict _ _) => { phase with stage := .fetching }
    | .fetching, .get _ _, .ok (some record) => phase.afterFetching codec record
    | _, _, _ => { phase with stage := .ended }

def BoardCall.closeItem (call : BoardCall) (item : AttentionItem) (_ : Nat) :
    Except AttentionItem (AttentionItem × Unit) :=
  if item.isOpen then .ok (item.resolve call.resolution call.now, ()) else .error item

theorem follows_closeItem (phase : BoardPhase) (id : String) (left : Nat) :
    (view.modify codec id phase.call.closeItem left).Follows (boarding codec)
      (fun _ _ => True) (fun _ later => later = phase.afterClosing) (phase.retry id left) := by
  induction left with
  | zero => exact rfl
  | succ left ih =>
    rw [NamespacedStore.modify_succ]
    refine ⟨rfl, fun answer _ => ?_⟩
    rcases answer with error | _ | record
    · exact rfl
    · exact rfl
    · have next : (boarding codec).next (phase.retry id (left + 1))
          (.get view.space id) (.ok (some record)) =
          phase.afterReading codec id left record := rfl
      rw [next]
      cases decoded : codec.decode record.value with
      | error detail =>
        simp only [BoardPhase.afterReading, decoded]
        exact rfl
      | ok item =>
        by_cases isOpen : item.isOpen = true
        · simp only [BoardPhase.afterReading, BoardCall.closeItem, decoded, isOpen, if_true]
          refine ⟨rfl, fun answer _ => ?_⟩
          rcases answer with error | written
          · cases error with
            | conflict expected actual => exact ih
            | _ => exact rfl
          · exact rfl
        · simp only [BoardPhase.afterReading, BoardCall.closeItem, decoded, isOpen]
          exact rfl

theorem follows_resolve (phase : BoardPhase) (id : String) :
    (AttentionBoard.resolve codec id phase.call.resolution phase.call.now).Follows (boarding codec)
      (fun _ _ => True) (fun _ later => later = phase.afterClosing)
      { phase with stage := .seeking id 7 } := by
  refine (follows_closeItem phase id 8).seq fun result later ended => ?_
  cases result <;> exact ended

theorem follows_storeItem {item : AttentionItem} {phase : BoardPhase}
    (raised : phase.call.raised = some item) :
    (storeItem codec item).Follows (boarding codec) (fun _ _ => True)
      (fun _ later => later.stage = .ended) { phase with stage := .creating } := by
  refine ⟨⟨item, raised, rfl⟩, fun answer _ => ?_⟩
  rcases answer with error | written
  · cases error with
    | conflict expected actual =>
      refine ⟨⟨item, raised, rfl⟩, fun answer _ => ?_⟩
      rcases answer with error | _ | record
      · exact rfl
      · exact rfl
      · change Program.Follows _ _ _ _ (phase.afterFetching codec record)
        cases decoded : codec.decode record.value with
        | error detail =>
          simp only [bind, Program.bind, BoardPhase.afterFetching, decoded]
          exact rfl
        | ok current =>
          simp only [bind, Program.bind, BoardPhase.afterFetching, decoded]
          refine ⟨⟨item, raised, rfl⟩, fun answer _ => ?_⟩
          cases answer <;> exact rfl
    | _ => exact rfl
  · exact rfl

theorem follows_closePrevious (item : AttentionItem) (now : Instant) (previous : Option String) :
    (closePrevious codec item previous now).Follows (boarding codec)
      (fun _ _ => True) (fun _ later => later = ⟨.raise item now, .creating⟩)
      ⟨.raise item now, .before previous⟩ := by
  cases previous with
  | none => exact rfl
  | some previous =>
    exact (follows_resolve ⟨.raise item now, .listing⟩ previous).seq fun _ _ ended => ended

theorem follows_raise (item : AttentionItem) (now : Instant) :
    (AttentionBoard.raise codec item now).Follows (boarding codec) (fun _ _ => True)
      (fun _ later => later.stage = .ended) ⟨.raise item now, .listing⟩ := by
  refine ⟨⟨rfl, rfl⟩, fun answer _ => ?_⟩
  rcases answer with error | records
  · exact rfl
  · change Program.Follows _ _ _ _
      (BoardPhase.afterListing codec ⟨.raise item now, .listing⟩ item records)
    cases decoded : NamespacedStore.decodeAll codec records with
    | error error =>
      simp only [bind, Program.bind, BoardPhase.afterListing, decoded]
      exact rfl
    | ok listed =>
      simp only [bind, Program.bind, BoardPhase.afterListing, decoded]
      change Program.Follows _ _ _ (closePrevious codec item
        (superseded item (newestOpen item.caseId listed)) now >>= _) _
      refine (follows_closePrevious item now _).seq ?_
      rintro _ _ rfl
      have raised : (BoardPhase.mk (.raise item now) .listing).call.raised = some item := rfl
      refine (follows_storeItem raised).seq ?_
      rintro (error | stored) later ended <;> exact ended

theorem follows_board (call : BoardCall) :
    (call.program codec).Follows (boarding codec) (fun _ _ => True)
      (fun _ later => later.stage = .ended) call.phase := by
  cases call with
  | raise item now =>
    refine (follows_raise item now).seq fun result later ended => ?_
    exact ended
  | resolve id resolution now =>
    refine (follows_resolve ⟨.resolve id resolution now, .listing⟩ id).seq ?_
    rintro result later rfl
    exact rfl

/-! ## What the store and the stages tell of each other -/

section Store

/-- The item is stored, belongs to the case and is open. -/
def OpenIn (codec : Codec Value AttentionItem) (store : RecordStore Value) (caseId id : String) :
    Prop :=
  ∃ record item, store.get attentionNamespace id = some record ∧
    codec.decode record.value = .ok item ∧ item.caseId = caseId ∧ item.isOpen = true

/-- Every item is stored under its id, and no case has two open ones. -/
structure OneOpen (codec : Codec Value AttentionItem) (store : RecordStore Value) : Prop where
  filed : ∀ id record, store.get attentionNamespace id = some record →
    ∃ item, codec.decode record.value = .ok item ∧ item.id = id
  single : ∀ caseId one other, OpenIn codec store caseId one → OpenIn codec store caseId other →
    one = other

structure BoardPhase.Holds (codec : Codec Value AttentionItem) (store : RecordStore Value)
    (phase : BoardPhase) : Prop where
  read : ∀ id left item version, phase.stage = .closing id left item version → item.id = id
  last : ∀ id item version, phase.stage = .closing id 0 item version →
    ∀ raised, phase.call.raised = some raised → id ≠ raised.id →
      OpenIn codec store raised.caseId id →
      ∃ record, store.get attentionNamespace id = some record ∧ record.version = version
  knows : ∀ raised, phase.call.raised = some raised → phase.stage.Underway →
    ∀ other, OpenIn codec store raised.caseId other → other = raised.id ∨ phase.stage.Expects other

theorem BoardStage.Expects.of_willRead {stage : BoardStage} {id : String}
    (willRead : stage.WillRead id) : stage.Expects id := by
  cases stage with
  | seeking other left => exact willRead
  | closing other left item version => exact willRead.1
  | listing | ended => trivial
  | creating | fetching | overwriting => exact willRead.elim

variable {store : RecordStore Value} {record : Record Value} {item : AttentionItem}
  {phase : BoardPhase} {caseId id : String}

theorem OpenIn.of_insert (space : record.space = attentionNamespace) (key : record.key = item.id)
    (decoded : codec.decode record.value = .ok item)
    (isOpen : OpenIn codec (store.insert record) caseId id) :
    (id = item.id ∧ item.caseId = caseId ∧ item.isOpen = true) ∨
      (id ≠ item.id ∧ OpenIn codec store caseId id) := by
  obtain ⟨found, read, stored, alsoDecoded, sameCase, notResolved⟩ := isOpen
  by_cases same : id = item.id
  · have here : (store.insert record).get attentionNamespace id = some record := by
      rw [same, ← space, ← key]
      exact get_insert_self
    rw [here, Option.some.injEq] at stored
    subst stored
    rw [decoded, Except.ok.injEq] at alsoDecoded
    subst alsoDecoded
    exact .inl ⟨same, sameCase, notResolved⟩
  · rw [get_insert_of_ne fun here => same (here.2.symm.trans key)] at stored
    exact .inr ⟨same, found, read, stored, alsoDecoded, sameCase, notResolved⟩

theorem OneOpen.insert (one : OneOpen codec store) (space : record.space = attentionNamespace)
    (key : record.key = item.id) (decoded : codec.decode record.value = .ok item)
    (replaces : item.isOpen = true → ∀ other, OpenIn codec store item.caseId other →
      other = item.id) : OneOpen codec (store.insert record) := by
  refine ⟨fun id found stored => ?_, fun caseId first second firstOpen secondOpen => ?_⟩
  · by_cases same : id = item.id
    · have here : (store.insert record).get attentionNamespace id = some record := by
        rw [same, ← space, ← key]
        exact get_insert_self
      rw [here, Option.some.injEq] at stored
      exact ⟨item, stored ▸ decoded, same.symm⟩
    · rw [get_insert_of_ne fun here => same (here.2.symm.trans key)] at stored
      exact one.filed id found stored
  · rcases firstOpen.of_insert space key decoded with
      ⟨rfl, rfl, isOpen⟩ | ⟨different, firstBefore⟩ <;>
    rcases secondOpen.of_insert space key decoded with
      ⟨rfl, sameCase, alsoOpen⟩ | ⟨otherDifferent, secondBefore⟩
    · rfl
    · exact (replaces isOpen second secondBefore).symm
    · subst sameCase
      exact replaces alsoOpen first firstBefore
    · exact one.single caseId first second firstBefore secondBefore

theorem BoardPhase.Holds.insert (holds : phase.Holds codec store)
    (space : record.space = attentionNamespace) (key : record.key = item.id)
    (decoded : codec.decode record.value = .ok item)
    (apart : item.isOpen = true → ∀ raised, phase.call.raised = some raised →
      raised.caseId = item.caseId → raised.id ≠ item.id → phase.stage.Underway →
      phase.stage.WillRead item.id) : phase.Holds codec (store.insert record) := by
  refine ⟨holds.read, fun id read version stage raised isRaise different isOpen => ?_,
    fun raised isRaise underway other isOpen => ?_⟩
  · rcases isOpen.of_insert space key decoded with
      ⟨rfl, sameCase, notResolved⟩ | ⟨elsewhere, before⟩
    · have willRead := apart notResolved raised isRaise sameCase.symm different.symm
        (by rw [stage]; trivial)
      rw [stage] at willRead
      exact (willRead.2 rfl).elim
    · rw [get_insert_of_ne fun here => elsewhere (here.2.symm.trans key)]
      exact holds.last id read version stage raised isRaise different before
  · rcases isOpen.of_insert space key decoded with ⟨rfl, sameCase, notResolved⟩ | ⟨-, before⟩
    · by_cases same : raised.id = item.id
      · exact .inl same.symm
      · exact .inr (.of_willRead (apart notResolved raised isRaise sameCase.symm same underway))
    · exact holds.knows raised isRaise underway other before

/-! ## The steps of a call -/

theorem BoardPhase.Holds.afterClosing
    (gone : ∀ raised, phase.call.raised = some raised → ∀ other,
      OpenIn codec store raised.caseId other → other = raised.id) :
    phase.afterClosing.Holds codec store := by
  unfold BoardPhase.afterClosing
  refine ⟨fun _ _ _ _ stage => ?_, fun _ _ _ stage => ?_,
    fun raised isRaise _ other isOpen => .inl (gone raised isRaise other isOpen)⟩ <;>
  · dsimp only at stage
    split at stage <;> cases stage

theorem BoardPhase.Holds.gone (holds : phase.Holds codec store) (id : String)
    (closes : phase.stage.Closes)
    (expects : ∀ other, phase.stage.Expects other → other = id)
    (closed : ∀ caseId, ¬ OpenIn codec store caseId id) :
    ∀ raised, phase.call.raised = some raised → ∀ other,
      OpenIn codec store raised.caseId other → other = raised.id := by
  intro raised isRaise other isOpen
  have underway : phase.stage.Underway := by
    cases stage : phase.stage <;> simp_all [BoardStage.Closes, BoardStage.Underway]
  rcases holds.knows raised isRaise underway other isOpen with same | expected
  · exact same
  · rw [expects other expected] at isOpen
    exact (closed raised.caseId isOpen).elim

theorem not_openIn_of_decode (stored : store.get attentionNamespace id = some record)
    (decoded : codec.decode record.value = .ok item) (resolved : item.isOpen = false) :
    ¬ OpenIn codec store caseId id := by
  rintro ⟨found, read, alsoStored, alsoDecoded, -, isOpen⟩
  rw [stored, Option.some.injEq] at alsoStored
  subst alsoStored
  rw [decoded, Except.ok.injEq] at alsoDecoded
  subst alsoDecoded
  rw [resolved] at isOpen
  cases isOpen

/-- The listing of a raise shows it the open item of its case. -/
theorem BoardPhase.Holds.afterListing (one : OneOpen codec store)
    (few : store.count attentionNamespace ≤ 2000) (isRaise : phase.call.raised = some item) :
    (phase.afterListing codec item (store.list attentionNamespace 2000)).Holds codec store := by
  have readable : Readable codec (store.list attentionNamespace 2000) := by
    intro record member
    obtain ⟨item, decoded, -⟩ :=
      one.filed _ record ((mem_list_iff_get few).mp member)
    exact ⟨item, decoded⟩
  obtain ⟨listed, all, members⟩ := decodeAll_of_readable readable
  have shown : ∀ other, OpenIn codec store item.caseId other →
      ∃ entry ∈ listed, entry.1.id = other ∧ entry.1.caseId = item.caseId ∧
        entry.1.isOpen = true := by
    rintro other ⟨record, read, stored, decoded, sameCase, isOpen⟩
    obtain ⟨alsoRead, alsoDecoded, sameId⟩ := one.filed other record stored
    rw [decoded, Except.ok.injEq] at alsoDecoded
    subst alsoDecoded
    have member : record ∈ store.list attentionNamespace 2000 := by
      rw [mem_list_iff_get few, (key_of_get stored).2]
      exact stored
    exact ⟨(read, record.version), (members read record.version).mpr ⟨record, member, decoded, rfl⟩,
      sameId, sameCase, isOpen⟩
  have isOpenIn : ∀ found, newestOpen item.caseId listed = some found →
      OpenIn codec store item.caseId found.id := by
    intro found newest
    obtain ⟨⟨version, member⟩, sameCase, isOpen⟩ := AttentionBoard.mem_of_newestOpen newest
    obtain ⟨record, within, decoded, -⟩ := (members found version).mp member
    have stored := (mem_list_iff_get few).mp within
    obtain ⟨read, alsoDecoded, sameId⟩ := one.filed _ record stored
    rw [decoded, Except.ok.injEq] at alsoDecoded
    subst alsoDecoded
    rw [sameId]
    exact ⟨record, found, stored, decoded, sameCase, isOpen⟩
  have reached : phase.afterListing codec item (store.list attentionNamespace 2000) =
      { phase with stage := .before (superseded item
        (newestOpen item.caseId listed)) } := by
    simp only [BoardPhase.afterListing, all]
  rw [reached]
  refine ⟨fun id left read version stage => ?_, fun id read version stage => ?_,
    fun raised sameRaise _ other isOpen => ?_⟩
  · exact (BoardStage.before_ne_closing stage).elim
  · exact (BoardStage.before_ne_closing stage).elim
  · obtain rfl : item = raised := Option.some.inj (isRaise.symm.trans sameRaise)
    obtain ⟨entry, member, rfl, sameCase, entryOpen⟩ := shown other isOpen
    cases newest : newestOpen item.caseId listed with
    | none =>
      have resolved := AttentionBoard.newestOpen_eq_none_iff.mp newest entry member sameCase
      rw [resolved] at entryOpen
      cases entryOpen
    | some found =>
      have same := one.single _ _ _ isOpen (isOpenIn found newest)
      by_cases own : found.id = item.id
      · exact .inl (same.trans own)
      · refine .inr ?_
        rw [AttentionBoard.superseded_of_ne own, same]
        exact rfl

theorem BoardPhase.Holds.afterReading {left : Nat} (one : OneOpen codec store)
    (holds : phase.Holds codec store) (stage : phase.stage = .seeking id left)
    (stored : store.get attentionNamespace id = some record) :
    (phase.afterReading codec id left record).Holds codec store := by
  obtain ⟨item, decoded, sameId⟩ := one.filed id record stored
  simp only [BoardPhase.afterReading, decoded]
  by_cases isOpen : item.isOpen = true
  · rw [if_pos isOpen]
    refine ⟨fun _ _ _ _ same => ?_, fun _ _ _ same _ _ _ _ => ?_,
      fun raised isRaise _ other otherOpen => ?_⟩
    · cases same
      exact sameId
    · cases same
      exact ⟨record, stored, rfl⟩
    · have known := holds.knows raised isRaise (by rw [stage]; trivial) other otherOpen
      rw [stage] at known
      exact known
  · rw [if_neg isOpen]
    refine .afterClosing (holds.gone id (by rw [stage]; trivial) ?_ fun caseId =>
      not_openIn_of_decode stored decoded (Bool.eq_false_iff.mpr isOpen))
    intro other expected
    rw [stage] at expected
    exact expected.symm

theorem BoardPhase.Holds.withStage (holds : phase.Holds codec store) (stage : BoardStage)
    (closes : ¬ stage.Closes) (underway : stage.Underway → phase.stage.Underway)
    (expects : ∀ other, phase.stage.Expects other → stage.Expects other) :
    ({ phase with stage := stage } : BoardPhase).Holds codec store := by
  refine ⟨fun _ _ _ _ same => ?_, fun _ _ _ same => ?_, fun raised isRaise still other isOpen =>
    (holds.knows raised isRaise (underway still) other isOpen).imp_right (expects other)⟩ <;>
  · dsimp only at same
    subst same
    exact (closes trivial).elim

theorem BoardPhase.Holds.ended (holds : phase.Holds codec store) :
    ({ phase with stage := .ended } : BoardPhase).Holds codec store :=
  holds.withStage .ended id (fun impossible => impossible.elim) fun _ _ => trivial

end Store

/-! ## Every run -/

/-- The write of its item that a raise is about to make will be accepted. -/
def BoardStage.Stores (store : RecordStore Value) (id : String) : BoardStage → Prop
  | creating => casConflict (some 0) (store.get attentionNamespace id) = none
  | overwriting _ version =>
    casConflict (some version) (store.get attentionNamespace id) = none
  | _ => False

/-- A call makes its next step with care. Listings are complete; nothing fails for a raise while it
closes an item; no raise stores an open item while another one of the case, which would put its
own item beside it, has listed the items and is not to read this one. -/
structure StepsApart (store : RecordStore Value) (phases : Index → BoardPhase) (index : Index)
    (circumstance : Circumstance) : Prop where
  few : (phases index).stage = .listing → store.count attentionNamespace ≤ 2000
  unfailing : (phases index).call.raised.isSome = true → (phases index).stage.Closes →
    circumstance.failure = none
  alone : ∀ item, (phases index).call.raised = some item → item.isOpen = true →
    circumstance.failure = none → (phases index).stage.Stores store item.id →
    ∀ other otherItem, (phases other).call.raised = some otherItem →
      otherItem.caseId = item.caseId → otherItem.id ≠ item.id → (phases other).stage.Underway →
      (phases other).stage.WillRead item.id

/-- Whenever a raise has written the document of its item, no other item of the case is open. -/
def RaisedAlone (codec : Codec Value AttentionItem) (calls : Index → BoardCall)
    (start : RecordStore Value) (log : List (StoreEvent Index Value)) : Prop :=
  ∀ earlier event later item, log = earlier ++ event :: later →
    (calls event.index).raised = some item →
    StoreEvent.wrote event = some (attentionNamespace, item.id) →
    ∀ other, OpenIn codec (storeAfter start (earlier ++ [event])) item.caseId other →
      other = item.id

structure BoardHolds (codec : Codec Value AttentionItem) (calls : Index → BoardCall)
    (start : RecordStore Value) (phases : Index → BoardPhase) (store : RecordStore Value)
    (log : List (StoreEvent Index Value)) : Prop where
  own : ∀ index, (phases index).call = calls index
  one : OneOpen codec store
  knows : ∀ index, (phases index).Holds codec store
  replayed : store = storeAfter start log
  alone : RaisedAlone codec calls start log

section Step

variable [DecidableEq Index] {calls : Index → BoardCall} {start store after : RecordStore Value}
  {phases : Index → BoardPhase} {log : List (StoreEvent Index Value)} {index : Index}
  {later : BoardPhase} {event : StoreEvent Index Value} {operation : StoreOperation Value}
  {circumstance : Circumstance} {item : AttentionItem} {record : Record Value}

omit [DecidableEq Index] in
theorem RaisedAlone.snoc (alone : RaisedAlone codec calls start log)
    (last : ∀ item, (calls event.index).raised = some item →
      StoreEvent.wrote event = some (attentionNamespace, item.id) →
      ∀ other, OpenIn codec (storeAfter start (log ++ [event])) item.caseId other →
        other = item.id) : RaisedAlone codec calls start (log ++ [event]) := by
  intro earlier wrote later item split
  rcases append_singleton_eq split with ⟨rfl, rfl, -⟩ | ⟨before, -, within⟩
  · exact last item
  · exact alone earlier wrote before item within

section

variable (holds : BoardHolds codec calls start phases store log)

include holds

theorem BoardHolds.own_update (sameCall : later.call = (phases index).call) (other : Index) :
    (update phases index later other).call = calls other :=
  (forall_update_iff phases fun other phase => phase.call = calls other).mpr
    ⟨sameCall.trans (holds.own index), fun other _ => holds.own other⟩ other

theorem BoardHolds.keep (replayed : store = storeAfter start (log ++ [event]))
    (unwritten : StoreEvent.wrote event = none) (sameCall : later.call = (phases index).call)
    (knows : later.Holds codec store) :
    BoardHolds codec calls start (update phases index later) store (log ++ [event]) := by
  refine ⟨holds.own_update sameCall, holds.one,
    (forall_update_iff phases fun _ phase => phase.Holds codec store).mpr
      ⟨knows, fun other _ => holds.knows other⟩, replayed, holds.alone.snoc fun item _ wrote => ?_⟩
  rw [unwritten] at wrote
  cases wrote

theorem BoardHolds.write (space : record.space = attentionNamespace) (key : record.key = item.id)
    (decoded : codec.decode record.value = .ok item)
    (replayed : store.insert record = storeAfter start (log ++ [event]))
    (own : event.index = index) (wrote : StoreEvent.wrote event = some (record.space, record.key))
    (replaces : ∀ raised, (phases index).call.raised = some raised → raised.id = item.id →
      ∀ other, OpenIn codec store raised.caseId other → other = item.id)
    (apart : item.isOpen = true → (∀ other, OpenIn codec store item.caseId other →
      other = item.id) ∧ ∀ other otherItem, (phases other).call.raised = some otherItem →
      otherItem.caseId = item.caseId → otherItem.id ≠ item.id → (phases other).stage.Underway →
      (phases other).stage.WillRead item.id)
    (sameCall : later.call = (phases index).call)
    (knows : later.Holds codec (store.insert record)) :
    BoardHolds codec calls start (update phases index later) (store.insert record)
      (log ++ [event]) := by
  refine ⟨holds.own_update sameCall,
    holds.one.insert space key decoded fun isOpen => (apart isOpen).1,
    (forall_update_iff phases fun _ phase => phase.Holds codec _).mpr ⟨knows,
      fun other _ => (holds.knows other).insert space key decoded fun isOpen => (apart isOpen).2 other⟩,
    replayed, holds.alone.snoc fun raised isRaise written other isOpen => ?_⟩
  rw [wrote, key, Option.some.injEq, Prod.mk.injEq] at written
  rw [own, ← holds.own] at isRaise
  rw [← replayed] at isOpen
  rw [← written.2]
  rcases isOpen.of_insert space key decoded with ⟨same, -, -⟩ | ⟨-, before⟩
  · exact same
  · exact replaces raised isRaise written.2.symm other before

end

omit [DecidableEq Index] in
theorem BoardHolds.replay (holds : BoardHolds codec calls start phases store log)
    (index : Index) (circumstance : Circumstance) (operation : StoreOperation Value) :
    (execute circumstance operation store).2 = storeAfter start
      (log ++ [⟨index, operation, (execute circumstance operation store).1⟩]) := by
  rw [storeAfter_snoc, ← holds.replayed, effect_execute]

/-- It holds after the operation as well. -/
def BoardHolds.Serves (_ : BoardHolds codec calls start phases store log) (index : Index)
    (circumstance : Circumstance) (operation : StoreOperation Value) : Prop :=
  BoardHolds codec calls start
    (update phases index ((boarding codec).next (phases index) operation
      (execute circumstance operation store).1))
    (execute circumstance operation store).2
    (log ++ [⟨index, operation, (execute circumstance operation store).1⟩])

/-- A call tries to close an item that it has read. -/
theorem BoardHolds.close {id : String} {left version : Nat}
    (holds : BoardHolds codec calls start phases store log)
    (unfailing : (phases index).call.raised.isSome = true → circumstance.failure = none)
    (stage : (phases index).stage = .closing id left item version)
    (isPut : operation = .put attentionNamespace id
      (codec.encode (item.resolve (phases index).call.resolution (phases index).call.now))
      (some version)) :
    holds.Serves index circumstance operation := by
  have replayed := holds.replay index circumstance operation
  have here := holds.knows index
  have sameId : item.id = id := here.read id left item version stage
  have known (raised : AttentionItem) (isRaise : (phases index).call.raised = some raised)
      (other : String) (isOpen : OpenIn codec store raised.caseId other) :
      other = raised.id ∨ id = other := by
    have known := here.knows raised isRaise (by rw [stage]; trivial) other isOpen
    rwa [stage] at known
  subst isPut
  unfold BoardHolds.Serves
  obtain ⟨now, failure⟩ := circumstance
  cases failure with
  | some detail =>
    simp only [execute, refuse, boarding, stage] at replayed ⊢
    refine holds.keep replayed rfl rfl (.afterClosing fun raised isRaise => ?_)
    have impossible := unfailing (by rw [isRaise]; rfl)
    cases impossible
  | none =>
    rcases store.put_cases attentionNamespace id (codec.encode
        (item.resolve (phases index).call.resolution (phases index).call.now)) (some version) now
      with ⟨error, conflict, refused⟩ | ⟨record, -, stored, made⟩
    · obtain ⟨expected, actual, rfl⟩ := exists_conflict conflict
      simp only [execute, refused, boarding, stage] at replayed ⊢
      refine holds.keep replayed rfl (by cases left <;> rfl) ?_
      cases left with
      | zero =>
        refine .afterClosing fun raised isRaise other isOpen => ?_
        rcases known raised isRaise other isOpen with same | rfl
        · exact same
        · by_contra different
          obtain ⟨record, found, rfl⟩ :=
            here.last id item version stage raised isRaise different isOpen
          rw [found] at conflict
          simp [casConflict] at conflict
      | succ left =>
        exact ⟨(fun _ _ _ _ same => by cases same), (fun _ _ _ same => by cases same),
          fun raised isRaise _ => known raised isRaise⟩
    · let resolved := item.resolve (phases index).call.resolution (phases index).call.now
      have closed : resolved.isOpen = false := item.isOpen_resolve _ _
      have space : record.space = attentionNamespace := by rw [made]
      have key : record.key = resolved.id := by
        rw [made, AttentionItem.id_resolve, sameId]
      have decoded : codec.decode record.value = .ok resolved := by
        rw [made]
        exact codec.decode_encode resolved
      have closedId : id = resolved.id := by
        rw [AttentionItem.id_resolve, sameId]
      simp only [execute, stored, boarding, stage] at replayed ⊢
      refine holds.write space key decoded replayed rfl ?_ ?_ ?_ rfl (.afterClosing ?_)
      · rw [made]
        rfl
      · intro raised isRaise same other isOpen
        rcases known raised isRaise other isOpen with rfl | rfl
        · exact same
        · exact closedId
      · intro isOpen
        rw [closed] at isOpen
        cases isOpen
      · have after := here.insert space key decoded fun isOpen => by
          rw [closed] at isOpen
          cases isOpen
        refine after.gone id (by rw [stage]; trivial) ?_ fun caseId isOpen => ?_
        · intro other expected
          rw [stage] at expected
          exact expected.symm
        · rcases isOpen.of_insert space key decoded with ⟨-, -, isOpen⟩ | ⟨different, -⟩
          · rw [closed] at isOpen
            cases isOpen
          · exact different closedId

theorem BoardPhase.Holds.alone {phase : BoardPhase} (holds : phase.Holds codec store)
    (underway : phase.stage.Underway) (quiet : ∀ other, ¬ phase.stage.Expects other)
    (isRaise : phase.call.raised = some item) :
    ∀ other, OpenIn codec store item.caseId other → other = item.id := by
  intro other isOpen
  rcases holds.knows item isRaise underway other isOpen with same | expected
  · exact same
  · exact (quiet other expected).elim

/-- A raise tries to write the document of its item. -/
theorem BoardHolds.storeOwn {document : AttentionItem} {expected : Option Nat}
    (conflicting : BoardStage) (holds : BoardHolds codec calls start phases store log)
    (isRaise : (phases index).call.raised = some item)
    (isPut : operation = .put attentionNamespace item.id (codec.encode document) expected)
    (sameId : document.id = item.id)
    (sameCase : document.caseId = item.caseId) (sameOpen : document.isOpen = item.isOpen)
    (underway : (phases index).stage.Underway)
    (quiet : ∀ other, ¬ (phases index).stage.Expects other)
    (apart : item.isOpen = true → circumstance.failure = none →
      casConflict expected (store.get attentionNamespace item.id) = none →
      ∀ other otherItem, (phases other).call.raised = some otherItem →
        otherItem.caseId = item.caseId → otherItem.id ≠ item.id → (phases other).stage.Underway →
        (phases other).stage.WillRead item.id)
    (closes : ¬ conflicting.Closes)
    (next : ∀ answer, (boarding codec).next (phases index)
        (.put attentionNamespace item.id (codec.encode document) expected) answer =
      { phases index with
        stage := match answer with
          | .error (.conflict _ _) => conflicting
          | _ => .ended }) :
    holds.Serves index circumstance operation := by
  have replayed := holds.replay index circumstance operation
  have here := holds.knows index
  have alone := here.alone underway quiet isRaise
  subst isPut
  unfold BoardHolds.Serves
  rw [next]
  obtain ⟨now, failure⟩ := circumstance
  cases failure with
  | some detail =>
    exact holds.keep replayed rfl rfl here.ended
  | none =>
    rcases store.put_cases attentionNamespace item.id (codec.encode document) expected now with
      ⟨error, conflict, refused⟩ | ⟨record, agrees, stored, made⟩
    · obtain ⟨version, actual, rfl⟩ := exists_conflict conflict
      simp only [execute, refused] at replayed ⊢
      exact holds.keep replayed rfl rfl (here.withStage conflicting closes (fun _ => underway)
        fun other expected => (quiet other expected).elim)
    · have space : record.space = attentionNamespace := by rw [made]
      have key : record.key = document.id := by rw [made, sameId]
      have decoded : codec.decode record.value = .ok document := by
        rw [made]
        exact codec.decode_encode document
      simp only [execute, stored] at replayed ⊢
      refine holds.write space key decoded replayed rfl ?_ ?_ ?_ rfl ?_
      · rw [made]
        rfl
      · intro raised alsoRaise same other isOpen
        obtain rfl : item = raised := Option.some.inj (isRaise.symm.trans alsoRaise)
        rw [sameId]
        exact alone other isOpen
      · intro isOpen
        rw [sameId, sameCase]
        exact ⟨alone, apart (sameOpen ▸ isOpen) rfl agrees⟩
      · exact ⟨(fun _ _ _ _ same => by cases same), (fun _ _ _ same => by cases same),
          fun _ _ impossible => impossible.elim⟩

/-- What one operation of a call preserves. -/
theorem BoardHolds.step (holds : BoardHolds codec calls start phases store log)
    (careful : StepsApart store phases index circumstance)
    (permitted : (boarding codec).permits (phases index) operation) :
    holds.Serves index circumstance operation := by
  have replayed := holds.replay index circumstance operation
  have here := holds.knows index
  unfold BoardHolds.Serves
  cases stage : (phases index).stage with
  | ended => simp only [boarding, stage] at permitted
  | closing id left item version =>
    simp only [boarding, stage] at permitted
    exact holds.close (fun isRaise => careful.unfailing isRaise (by rw [stage]; trivial)) stage
      permitted
  | creating =>
    simp only [boarding, stage] at permitted
    obtain ⟨item, isRaise, isPut⟩ := permitted
    exact holds.storeOwn .fetching isRaise isPut rfl rfl rfl (by rw [stage]; trivial)
      (fun _ expected => by rwa [stage] at expected)
      (fun isOpen unfailing agrees => careful.alone item isRaise isOpen unfailing
        (by rwa [stage])) id (by
        rintro (error | _) <;> [cases error; skip] <;> simp only [boarding, stage])
  | overwriting current version =>
    simp only [boarding, stage] at permitted
    obtain ⟨item, isRaise, isPut⟩ := permitted
    exact holds.storeOwn .ended isRaise isPut rfl rfl rfl (by rw [stage]; trivial)
      (fun _ expected => by rwa [stage] at expected)
      (fun isOpen unfailing agrees => careful.alone item isRaise isOpen unfailing
        (by rwa [stage])) id (by
        rintro (error | _) <;> [cases error; skip] <;> simp only [boarding, stage])
  | listing =>
    simp only [boarding, stage] at permitted
    obtain ⟨isRaise, rfl⟩ := permitted
    obtain ⟨item, isRaise⟩ := Option.isSome_iff_exists.mp isRaise
    obtain ⟨now, failure⟩ := circumstance
    cases failure with
    | some detail =>
      simp only [execute, refuse, boarding, stage] at replayed ⊢
      exact holds.keep replayed rfl rfl here.ended
    | none =>
      simp only [execute, boarding, stage, isRaise] at replayed ⊢
      exact holds.keep replayed rfl ((phases index).call_afterListing _ _)
        (.afterListing holds.one (careful.few stage) isRaise)
  | seeking id left =>
    simp only [boarding, stage] at permitted
    subst permitted
    obtain ⟨now, failure⟩ := circumstance
    cases failure with
    | some detail =>
      simp only [execute, refuse, boarding, stage] at replayed ⊢
      refine holds.keep replayed rfl rfl (.afterClosing fun raised isRaise => ?_)
      have impossible := careful.unfailing (by rw [isRaise]; rfl) (by rw [stage]; trivial)
      cases impossible
    | none =>
      cases stored : store.get attentionNamespace id with
      | none =>
        simp only [execute, stored, boarding, stage] at replayed ⊢
        refine holds.keep replayed rfl rfl (.afterClosing (here.gone id
          (by rw [stage]; trivial) ?_ fun caseId isOpen => ?_))
        · intro other expected
          rw [stage] at expected
          exact expected.symm
        · obtain ⟨record, item, found, -⟩ := isOpen
          rw [stored] at found
          cases found
      | some record =>
        simp only [execute, stored, boarding, stage] at replayed ⊢
        exact holds.keep replayed rfl ((phases index).call_afterReading _ _ _)
          (here.afterReading holds.one stage stored)
  | fetching =>
    simp only [boarding, stage] at permitted
    obtain ⟨item, isRaise, rfl⟩ := permitted
    have onward : ∀ stage : BoardStage, ¬ stage.Closes →
        ({ phases index with stage := stage } : BoardPhase).Holds codec store := by
      intro later closes
      refine here.withStage later closes (fun _ => by rw [stage]; trivial) ?_
      intro other expected
      rw [stage] at expected
      exact expected.elim
    obtain ⟨now, failure⟩ := circumstance
    cases failure with
    | some detail =>
      simp only [execute, refuse, boarding, stage] at replayed ⊢
      exact holds.keep replayed rfl rfl here.ended
    | none =>
      cases stored : store.get attentionNamespace item.id with
      | none =>
        simp only [execute, stored, boarding, stage] at replayed ⊢
        exact holds.keep replayed rfl rfl here.ended
      | some record =>
        obtain ⟨current, decoded, -⟩ := holds.one.filed item.id record stored
        simp only [execute, stored, boarding, stage, BoardPhase.afterFetching,
          decoded] at replayed ⊢
        exact holds.keep replayed rfl rfl
          (onward (.overwriting current record.version) fun impossible => impossible)

end Step

section Run

abbrev BoardSession (Index Value : Type) :=
  Session Index (RecordStore Value) (StoreOperation Value) Answer BoardAnswer

variable (codec) (calls : Index → BoardCall) (start : RecordStore Value)

def boardSession : BoardSession Index Value where
  store := start
  calls index := (calls index).program codec
  log := []

/-- The next step is made with care. -/
def KeepsApart [DecidableEq Index] (before : BoardSession Index Value)
    (move : Index × Circumstance) : Prop :=
  StepsApart before.store ((boarding codec).phase (fun index => (calls index).phase) before.log)
    move.1 move.2

structure OneOpenItem (session : BoardSession Index Value) : Prop where
  single : ∀ caseId one other, OpenIn codec session.store caseId one →
    OpenIn codec session.store caseId other → one = other
  raised : RaisedAlone codec calls start session.log

variable {codec calls start}

theorem OneOpen.initially (one : OneOpen codec start) :
    BoardHolds codec calls start (fun index => (calls index).phase) start [] := by
  refine ⟨fun index => ?_, one, fun index => ⟨fun id left item version stage => ?_,
    fun id item version stage => ?_, fun raised isRaise underway => ?_⟩, rfl,
    fun earlier event later item impossible => ?_⟩
  · cases calls index <;> rfl
  · cases call : calls index <;> rw [call] at stage <;> cases stage
  · cases call : calls index <;> rw [call] at stage <;> cases stage
  · cases call : calls index <;> rw [call] at isRaise underway
    · exact underway.elim
    · cases isRaise
  · cases earlier <;> cases impossible

/-- In every run whose steps are made with care no case ever has two open items, and a raise that
writes its item leaves no other item of the case open. -/
theorem oneOpenItem_of_run [DecidableEq Index] {moves : List (Index × Circumstance)}
    {session : BoardSession Index Value} (one : OneOpen codec start)
    (run : Run (servesWhere execute (KeepsApart codec calls))
      (boardSession codec calls start) moves session) :
    OneOpenItem codec calls start session := by
  let initial : Index → BoardPhase := fun index => (calls index).phase
  have underway : (boardSession codec calls start).Underway (boarding codec) (fun _ _ => True)
      (fun _ later => later.stage = .ended) initial := fun index => follows_board (calls index)
  let holding (store : RecordStore Value) (phases : Index → BoardPhase)
      (log : List (StoreEvent Index Value)) : Prop :=
    BoardHolds codec calls start phases store log
  have initially : holding start initial [] := one.initially
  have holds : holding session.store ((boarding codec).phase initial session.log) session.log := by
    refine Session.Underway.invariant (fun _ _ _ => trivial) ?_ run underway initially
    intro before index circumstance operation resume _ _ careful permitted holds _ _
    exact BoardHolds.step holds careful permitted
  exact ⟨holds.one.single, holds.alone⟩

end Run

/-! ## Two raises for one case -/

section Check

instance (store : RecordStore Value) (id : String) (stage : BoardStage) :
    Decidable (stage.Stores store id) :=
  match stage with
  | .creating | .overwriting _ _ => inferInstanceAs (Decidable (_ = none))
  | .listing | .seeking _ _ | .closing _ _ _ _ | .fetching | .ended => .isFalse fun stores => stores

instance (id : String) (stage : BoardStage) : Decidable (stage.WillRead id) :=
  match stage with
  | .seeking other _ => inferInstanceAs (Decidable (other = id))
  | .closing other left _ _ => inferInstanceAs (Decidable (other = id ∧ left ≠ 0))
  | .listing | .creating | .fetching | .overwriting _ _ | .ended => .isFalse fun reads => reads

instance (stage : BoardStage) : Decidable stage.Underway :=
  match stage with
  | .listing | .ended => .isFalse fun underway => underway
  | .seeking _ _ | .closing _ _ _ _ | .creating | .fetching | .overwriting _ _ => .isTrue trivial

instance (stage : BoardStage) : Decidable stage.Closes :=
  match stage with
  | .seeking _ _ | .closing _ _ _ _ => .isTrue trivial
  | .listing | .creating | .fetching | .overwriting _ _ | .ended => .isFalse fun closes => closes

variable {count : Nat} {store : RecordStore Value} {phases : Fin count → BoardPhase}
  {index : Fin count} {circumstance : Circumstance}

theorem stepsApart_iff : StepsApart store phases index circumstance ↔
    ((phases index).stage = .listing → store.count attentionNamespace ≤ 2000) ∧
    ((phases index).call.raised.isSome = true → (phases index).stage.Closes →
      circumstance.failure = none) ∧
    ∀ item ∈ (phases index).call.raised, item.isOpen = true → circumstance.failure = none →
      (phases index).stage.Stores store item.id →
      ∀ other, ∀ otherItem ∈ (phases other).call.raised, otherItem.caseId = item.caseId →
        otherItem.id ≠ item.id → (phases other).stage.Underway →
        (phases other).stage.WillRead item.id :=
  ⟨fun ⟨few, unfailing, alone⟩ => ⟨few, unfailing, alone⟩,
    fun ⟨few, unfailing, alone⟩ => ⟨few, unfailing, alone⟩⟩

instance : Decidable (StepsApart store phases index circumstance) :=
  decidable_of_iff _ stepsApart_iff.symm

instance (codec : Codec Value AttentionItem) (calls : Fin count → BoardCall)
    (before : BoardSession (Fin count) Value) (move : Fin count × Circumstance) :
    Decidable (KeepsApart codec calls before move) :=
  inferInstanceAs (Decidable (StepsApart _ _ _ _))

/-- The next step is seen to be made with care. -/
def goesApart (codec : Codec Value AttentionItem) (calls : Fin count → BoardCall)
    (before : BoardSession (Fin count) Value) (move : Fin count × Circumstance) : Bool :=
  decide (KeepsApart codec calls before move)

theorem keepsApart_of_goesApart {calls : Fin count → BoardCall}
    (before : BoardSession (Fin count) Value) (move : Fin count × Circumstance)
    (apart : goesApart codec calls before move = true) : KeepsApart codec calls before move :=
  of_decide_eq_true apart

end Check

def plainItems : Codec AttentionItem AttentionItem := ⟨fun item => item, .ok, fun _ => rfl⟩

/-- An item that asks for a decision in one case. -/
def decisionItem (id : String) (since : Instant) : AttentionItem where
  id := id
  caseId := "case-1"
  taskId := none
  kind := .needsHuman
  summary := "approve the release"
  detail := none
  since := since
  priority := 5
  humanAction := some "decide"
  resolvedAt := none
  resolution := none
  version := 1

def releaseDecision : AttentionItem := decisionItem "item-1" 10

def rollbackDecision : AttentionItem := decisionItem "item-2" 20

def boardOf (item : AttentionItem) : RecordStore AttentionItem :=
  insert .empty ⟨attentionNamespace, item.id, 1, item, 0⟩

theorem get_boardOf {item : AttentionItem} {id : String} {record : Record AttentionItem}
    (stored : (boardOf item).get attentionNamespace id = some record) :
    id = item.id ∧ record.value = item := by
  have here : (boardOf item).get attentionNamespace item.id =
      some ⟨attentionNamespace, item.id, 1, item, 0⟩ :=
    @get_insert_self _ .empty ⟨attentionNamespace, item.id, 1, item, 0⟩
  by_cases same : id = item.id
  · subst same
    rw [here, Option.some.injEq] at stored
    exact ⟨rfl, stored ▸ rfl⟩
  · have absent : (boardOf item).get attentionNamespace id = none :=
      get_insert_of_ne fun elsewhere => same elsewhere.2.symm
    rw [absent] at stored
    cases stored

theorem oneOpen_boardOf (item : AttentionItem) : OneOpen plainItems (boardOf item) := by
  refine ⟨fun id record stored => ?_, fun caseId one other oneIsOpen otherIsOpen => ?_⟩
  · obtain ⟨rfl, value⟩ := get_boardOf stored
    exact ⟨item, by rw [value]; rfl, rfl⟩
  · obtain ⟨_, _, stored, -⟩ := oneIsOpen
    obtain ⟨_, _, otherStored, -⟩ := otherIsOpen
    rw [(get_boardOf stored).1, (get_boardOf otherStored).1]

/-- A decision is made while another item of the case is raised; then the first item is raised
again. -/
def decidedAndRaised : Fin 3 → BoardCall
  | 0 => .resolve "item-1" (.humanDecision "alice" "yes") 30
  | 1 => .raise rollbackDecision 31
  | 2 => .raise { releaseDecision with since := 40 } 40

def boardMoves {count : Nat} (indices : List (Fin count)) : List (Fin count × Circumstance) :=
  indices.map fun index => (index, ⟨0, none⟩)

def boardRun {count : Nat} (calls : Fin count → BoardCall) (start : RecordStore AttentionItem)
    (indices : List (Fin count)) : BoardSession (Fin count) AttentionItem :=
  (boardMoves indices).foldl (Session.serve execute) (boardSession plainItems calls start)

theorem oneOpenItem_decided :
    (boardRun decidedAndRaised (boardOf releaseDecision)
      [1, 0, 0, 1, 1, 2, 2, 2, 2, 2, 2]).Finished ∧
    OneOpenItem plainItems decidedAndRaised (boardOf releaseDecision)
      (boardRun decidedAndRaised (boardOf releaseDecision) [1, 0, 0, 1, 1, 2, 2, 2, 2, 2, 2]) := by
  refine ⟨?_, oneOpenItem_of_run (oneOpen_boardOf _)
    (run_servesWhere keepsApart_of_goesApart (by decide +kernel))⟩
  intro index
  match index with
  | 0 | 1 | 2 => exact .inr ⟨_, rfl⟩

def decidedRelease : AttentionItem :=
  { releaseDecision with resolvedAt := some 15, resolution := some (.humanDecision "alice" "yes") }

/-- It is raised again while another item of the case is raised. -/
def raisedTogether : Fin 2 → BoardCall
  | 0 => .raise { releaseDecision with since := 40 } 40
  | 1 => .raise rollbackDecision 40

/-- Two raises of one case that both list the items before either stores its own leave two open
items; the one that reopens a decided item does not close the other. -/
theorem oneOpenItem_fails_raisedTogether :
    OneOpen plainItems (boardOf decidedRelease) ∧
      Run (serves execute)
        (boardSession plainItems raisedTogether (boardOf decidedRelease))
        (boardMoves [0, 1, 1, 0, 0, 0])
        (boardRun raisedTogether (boardOf decidedRelease) [0, 1, 1, 0, 0, 0]) ∧
      (boardRun raisedTogether (boardOf decidedRelease) [0, 1, 1, 0, 0, 0]).Finished ∧
      OpenIn plainItems (boardRun raisedTogether (boardOf decidedRelease)
        [0, 1, 1, 0, 0, 0]).store "case-1" "item-1" ∧
      OpenIn plainItems (boardRun raisedTogether (boardOf decidedRelease)
        [0, 1, 1, 0, 0, 0]).store "case-1" "item-2" ∧
      ¬ RaisedAlone plainItems raisedTogether (boardOf decidedRelease)
        (boardRun raisedTogether (boardOf decidedRelease) [0, 1, 1, 0, 0, 0]).log := by
  refine ⟨oneOpen_boardOf _, run_serves _ _, fun index => ?_, ⟨_, _, rfl, rfl, rfl, rfl⟩,
    ⟨_, _, rfl, rfl, rfl, rfl⟩, fun alone => ?_⟩
  · match index with
    | 0 | 1 => exact .inr ⟨_, rfl⟩
  · have same := alone
      (boardRun raisedTogether (boardOf decidedRelease) [0, 1, 1, 0, 0]).log _ []
      { releaseDecision with since := 40 } rfl rfl rfl "item-2" ⟨_, _, rfl, rfl, rfl, rfl⟩
    exact absurd same (by decide)

end UltimateCoders.Governance
