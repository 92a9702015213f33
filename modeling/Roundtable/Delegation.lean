import Roundtable.SubAgent

/-!
# Delegation

The one way to a worker: every delegated mission, of a round's worker or of a named
specialist, becomes a request under the session that asks for it.
-/

namespace Roundtable

/-- How missions are delegated: under a budget for all of them, or under the default
one. -/
structure Delegation where
  timeout : Option Span
deriving DecidableEq, Repr, Inhabited

namespace Delegation

/-- **The request of a delegation.** Its parent is the session that asks. -/
def request (d : Delegation) (mission role : String) (caller : SessionId)
    (planning : Option PlanningOverride) : SubAgentSpec :=
  { mission, role, parent := caller, timeout := d.timeout, planning }

end Delegation

/-- Delegation to one role for one session; only the mission is open. -/
structure Specialist where
  delegation : Delegation
  role : String
  planning : Option PlanningOverride
  caller : SessionId
deriving DecidableEq, Repr, Inhabited

namespace Specialist

/-- The request for a mission. -/
def request (s : Specialist) (mission : String) : SubAgentSpec :=
  s.delegation.request mission s.role s.caller s.planning

end Specialist

end Roundtable
