import Mathlib.Tactic.Common

/-!
# Raised refusals

Scoping and compiling stop by raising.  A refused plan names the reason, and
often the check that refused it; a scope denial carries one generic text.
-/

namespace McpAssistant.BusinessQuery.Outcomes

inductive ReasonCode where
  | memberNotFound
  | valueNotFound
  | noJoinPath
  | capabilityDisabled
  | grainUnexpressible
  | periodDimensionMissing
  | fanoutUnsafe
  | measureFilterUnsupported
  | optionalJoinUnsupported
  | unsupportedOperator
  | anchorNotRoot
  | needsPriorAnswer
  | invalidBusinessTimezone
  | unsupportedRelativePeriod
deriving DecidableEq

/-- The only text a scope denial shows a caller. -/
def denyMessage : String :=
  "business query tools are currently unavailable"

inductive Raised where
  | planRefused (reason : ReasonCode) (checkSite : Option String)
  | scopeDenied (message : String)
deriving DecidableEq

def refused (reason : ReasonCode) : Raised :=
  .planRefused reason none

/-- A plan the bundle cannot express, with the check that found it. -/
def unexpressible (checkSite : String) : Raised :=
  .planRefused .grainUnexpressible (some checkSite)

/-- The generic denial. -/
def denied : Raised :=
  .scopeDenied denyMessage

end McpAssistant.BusinessQuery.Outcomes
