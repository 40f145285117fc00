import Mathlib.Data.Int.Notation

/-! # Principals and actions

Who asks, and the classes of side effect that authority is expressed in.
-/

namespace UltimateCoders.Governance

/-- A point in time, in nanoseconds. -/
abbrev Instant := Int

inductive PrincipalKind where
  | user
  | service
  | agent
  | worker
  | externalTrigger
  | anonymous
  deriving DecidableEq

def PrincipalKind.asStr : PrincipalKind → String
  | user => "user"
  | service => "service"
  | agent => "agent"
  | worker => "worker"
  | externalTrigger => "external_trigger"
  | anonymous => "anonymous"

/-- An authenticated, or explicitly unauthenticated, caller. -/
structure Principal where
  kind : PrincipalKind
  id : String
  deriving DecidableEq

/-- Class of side effect. -/
inductive ActionClass where
  | read
  | write
  | execute
  | dispatch
  | push
  | merge
  | externalNotify
  | scale
  | admin
  deriving DecidableEq

def ActionClass.asStr : ActionClass → String
  | read => "read"
  | write => "write"
  | execute => "execute"
  | dispatch => "dispatch"
  | push => "push"
  | merge => "merge"
  | externalNotify => "external_notify"
  | scale => "scale"
  | admin => "admin"

end UltimateCoders.Governance
