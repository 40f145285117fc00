import UltimateCoders.Text.Lines
import UltimateCoders.Text.SequenceMatcher
import UltimateCoders.Text.Split

/-! # Resolving a conflicted file

Of a conflicted path git keeps up to three versions: the common ancestor, ours and theirs. A merge
of their lines is tried first by position and then by the opcodes of a comparison with the ancestor.
Only if both find the sides in each other's way a language model is asked.
-/

namespace UltimateCoders.Arbiter

open Text

inductive ResolutionTier where
  | autoMerge
  | llmAssisted
  | reassign
  | human
  deriving DecidableEq

/-- A region that could not be merged. -/
structure ConflictMarker where
  startLine : Nat
  endLine : Nat
  ours : String
  theirs : String
  base : String
  deriving DecidableEq

structure MergeResult where
  merged : Option String := none
  conflicts : List ConflictMarker := []
  success : Bool := false
  tier : ResolutionTier := .autoMerge
  deriving DecidableEq

abbrev Line := List Char

def linesOf (text : String) : List Line := splitLines text.toList

def joined (lines : List Line) : String := String.ofList lines.flatten

/-- The first text, or the second where it is empty. -/
def orElse (text fallback : String) : String := if text = "" then fallback else text

namespace ConflictResolver

section Positions

variable (base changed : List Line)

def differs (position : Nat) : Bool := decide (base[position]? ≠ changed[position]?)

/-- The ranges of differing lines from a position on, of which one may have begun before. -/
def changesFrom : Nat → Nat → Option Nat → List (Nat × Nat)
  | 0, _, none => []
  | 0, position, some start => [(start, position)]
  | remaining + 1, position, none =>
    if differs base changed position then changesFrom remaining (position + 1) (some position)
    else changesFrom remaining (position + 1) none
  | remaining + 1, position, some start =>
    if differs base changed position then changesFrom remaining (position + 1) (some start)
    else (start, position) :: changesFrom remaining (position + 1) none

def computeChanges : List (Nat × Nat) :=
  changesFrom base changed (max base.length changed.length) 0 none

end Positions

/-- What has been written, and up to where the lines of the ancestor are dealt with. -/
structure Progress where
  result : List Line := []
  baseIndex : Nat := 0

/-- Copy the lines of the ancestor up to a change, and leave out those that it replaces. -/
def Progress.advance (base : List Line) (progress : Progress) (start stop : Nat) : Progress where
  result := progress.result ++ slice base progress.baseIndex start
  baseIndex := max (max progress.baseIndex (min start base.length)) stop

def Progress.replace (base : List Line) (progress : Progress) :
    Nat × Nat × List Line → Progress
  | (start, stop, newLines) =>
    let advanced := progress.advance base start stop
    { advanced with result := advanced.result ++ newLines }

def Progress.finish (base : List Line) (progress : Progress) : List Line :=
  progress.result ++ base.drop progress.baseIndex

/-- The changes of both sides with the lines that they bring, in the order of their starts. -/
def allChanges (ours theirs : List Line) (oursChanged theirsChanged : List (Nat × Nat)) :
    List (Nat × Nat × List Line) :=
  ((oursChanged.map fun (start, stop) => (start, stop, slice ours start stop)) ++
    theirsChanged.map fun (start, stop) => (start, stop, slice theirs start stop)).mergeSort
      fun first second => first.1 ≤ second.1

def applyNonConflicting (base ours theirs : List Line)
    (oursChanged theirsChanged : List (Nat × Nat)) : String :=
  joined (((allChanges ours theirs oursChanged theirsChanged).foldl
    (Progress.replace base) {}).finish base)

/-- A marker for each two ranges that overlap. -/
def overlaps (base ours theirs : String) (oursChanged theirsChanged : List (Nat × Nat)) :
    List ConflictMarker :=
  oursChanged.flatMap fun (oursStart, oursEnd) =>
    theirsChanged.filterMap fun (theirsStart, theirsEnd) =>
      if oursStart < theirsEnd ∧ theirsStart < oursEnd then
        some
          { startLine := oursStart + 1
            endLine := max oursEnd theirsEnd
            ours := orElse (joined (slice (linesOf ours) oursStart oursEnd)) ours
            theirs := orElse (joined (slice (linesOf theirs) theirsStart theirsEnd)) theirs
            base := orElse (joined (slice (linesOf base) oursStart (max oursEnd theirsEnd))) base }
      else none

inductive Side where
  | ours
  | theirs
  deriving DecidableEq

structure SideOpcode extends Opcode where
  side : Side
  deriving DecidableEq

/-- Two opcodes change a region of the ancestor in common; a region may be empty. -/
def meet (first second : Opcode) : Bool :=
  decide (second.i1 < first.i2 ∧ first.i1 < second.i2)

/-- The opcodes of both sides by where they begin, those of ours first. -/
def allOps (base ours theirs : List Line) : List SideOpcode :=
  ((SequenceMatcher.changes base ours).map (SideOpcode.mk · .ours) ++
    (SequenceMatcher.changes base theirs).map (SideOpcode.mk · .theirs)).mergeSort
      fun first second => decide (first.i1 < second.i1) ||
        (first.i1 == second.i1 && (first.side == .ours || second.side == .theirs))

structure OpcodeMerge extends Progress where
  hasConflict : Bool := false
  seen : List (Nat × Nat) := []
  conflicts : List ConflictMarker := []

section Opcodes

variable (base ours theirs : List Line)

def SideOpcode.lines (opcode : SideOpcode) : List Line :=
  match opcode.side with
  | .ours => slice ours opcode.j1 opcode.j2
  | .theirs => slice theirs opcode.j1 opcode.j2

/-- What a marker shows of a side. -/
def shown (opcode : SideOpcode) (others : List SideOpcode) (start stop : Nat) (side : Side) :
    String :=
  if opcode.side = side then joined (opcode.lines ours theirs)
  else orElse
    (joined ((others.filter fun other => other.side = side).flatMap fun other =>
      other.lines ours theirs))
    (joined (slice base start stop))

/-- The other side changes the same region. -/
def OpcodeMerge.conflict (merge : OpcodeMerge) (opcode : SideOpcode) (others : List SideOpcode) :
    OpcodeMerge :=
  let start := others.foldl (fun least other => min least other.i1) opcode.i1
  let stop := others.foldl (fun greatest other => max greatest other.i2) opcode.i2
  if merge.seen.any fun (low, high) => decide (low ≤ start ∧ stop ≤ high) then
    { merge with hasConflict := true }
  else
    { merge with
      hasConflict := true
      seen := merge.seen ++ [(start, stop)]
      conflicts := merge.conflicts ++
        [{ startLine := start + 1
           endLine := stop + 1
           ours := shown base ours theirs opcode others start stop .ours
           theirs := shown base ours theirs opcode others start stop .theirs
           base := joined (slice base start stop) }] }

/-- The opcodes of the other side that change the same region. -/
def otherInRange (ops : List SideOpcode) (opcode : SideOpcode) : List SideOpcode :=
  ops.filter fun other => other.side ≠ opcode.side && meet opcode.toOpcode other.toOpcode

/-- One turn of the loop over the opcodes. -/
def OpcodeMerge.apply (ops : List SideOpcode) (merge : OpcodeMerge) (opcode : SideOpcode) :
    OpcodeMerge :=
  let advanced := { merge with toProgress := merge.advance base opcode.i1 opcode.i2 }
  if otherInRange ops opcode ≠ [] then
    advanced.conflict base ours theirs opcode (otherInRange ops opcode)
  else { advanced with result := advanced.result ++ opcode.lines ours theirs }

def mergeOps : OpcodeMerge :=
  (allOps base ours theirs).foldl (OpcodeMerge.apply base ours theirs (allOps base ours theirs)) {}

/-- The lines that the loop and what is left of the ancestor leave. -/
def OpcodeMerge.mergedLines (merge : OpcodeMerge) : List Line := merge.finish base

end Opcodes

/-- `_auto_merge`. -/
def autoMerge (base ours theirs : String) : MergeResult :=
  if ours = base then { merged := some theirs, success := true }
  else if theirs = base then { merged := some ours, success := true }
  else if ours = theirs then { merged := some ours, success := true }
  else
    let oursChanged := computeChanges (linesOf base) (linesOf ours)
    let theirsChanged := computeChanges (linesOf base) (linesOf theirs)
    let conflicts := overlaps base ours theirs oursChanged theirsChanged
    if conflicts = [] then
      { merged := some (applyNonConflicting (linesOf base) (linesOf ours) (linesOf theirs)
          oursChanged theirsChanged)
        success := true }
    else
      let merge := mergeOps (linesOf base) (linesOf ours) (linesOf theirs)
      if merge.hasConflict then { conflicts := conflicts ++ merge.conflicts }
      else { merged := some (joined (merge.mergedLines (linesOf base))), success := true }

/-- What the language model is asked. -/
def prompt (base ours theirs : String) : String :=
  "You are a code merge assistant. Merge the two modified versions of a file " ++
    "into a single, correct version. Resolve all conflicts intelligently.\n\n" ++
    "## BASE (original):\n```\n" ++ base ++ "\n```\n\n" ++
    "## OURS (one modification):\n```\n" ++ ours ++ "\n```\n\n" ++
    "## THEIRS (another modification):\n```\n" ++ theirs ++ "\n```\n\n" ++
    "Output ONLY the merged file content, no explanations or markers."

/-- `str.isspace` of a character. -/
def isSpace (char : Char) : Bool :=
  isWhitespace char || (0x1C ≤ char.toNat && char.toNat ≤ 0x1F)

/-- A language model answers a prompt, or fails. -/
abbrev LlmClient := String → Option String

/-- `_llm_assisted_merge`. -/
def llmAssistedMerge (llmClient : Option LlmClient) (base ours theirs : String) : MergeResult :=
  match llmClient with
  | none => { tier := .reassign }
  | some complete =>
    match complete (prompt base ours theirs) with
    | some answer =>
      if answer.toList.all isSpace then { tier := .llmAssisted }
      else { merged := some answer, success := true, tier := .llmAssisted }
    | none => { tier := .llmAssisted }

def resolve (llmClient : Option LlmClient) (base ours theirs : String) :
    ResolutionTier → MergeResult
  | .autoMerge => autoMerge base ours theirs
  | .llmAssisted => llmAssistedMerge llmClient base ours theirs
  | .reassign => { tier := .reassign }
  | .human => { tier := .human }

end ConflictResolver

/-- The versions of a conflicted path that git has: the ancestor, ours and theirs. -/
structure ConflictStages where
  base : Option String
  ours : Option String
  theirs : Option String
  present : ours.isSome ∨ theirs.isSome

/-- What git shows of a version, and nothing of a missing one. -/
def stageText (stage : Option String) : String := stage.getD ""

/-- `_resolve_one_file`: the result whose text is written and staged. -/
def resolveOneFile (llmClient : Option ConflictResolver.LlmClient) (stages : ConflictStages) :
    Option MergeResult :=
  let resolveAt := ConflictResolver.resolve llmClient (stageText stages.base)
    (stageText stages.ours) (stageText stages.theirs)
  let result := if (resolveAt .autoMerge).success then resolveAt .autoMerge
    else resolveAt .llmAssisted
  if result.success && result.merged.isSome then some result else none

end UltimateCoders.Arbiter
