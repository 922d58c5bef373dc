/-! What a node of a behavior tree reports after it has been ticked. -/
namespace Sentry

/-- The report of a node. -/
inductive Status where
  | running
  | success
  | failure
  deriving DecidableEq, Inhabited

namespace Status

/-- The status of a test: success if it holds, failure if not. -/
def ofBool (holds : Bool) : Status :=
  if holds then .success else .failure

def name : Status → String
  | .running => "Running"
  | .success => "Success"
  | .failure => "Failure"

def ofName? : String → Option Status
  | "Running" => some .running
  | "Success" => some .success
  | "Failure" => some .failure
  | _ => none

/-- Success and failure exchanged. -/
def swap : Status → Status
  | .running => .running
  | .success => .failure
  | .failure => .success

theorem ofBool_ne_running (holds : Bool) : ofBool holds ≠ .running := by
  cases holds <;> decide

theorem swap_swap (s : Status) : s.swap.swap = s := by
  cases s <;> rfl

theorem swap_eq_iff (s t : Status) : s.swap = t ↔ s = t.swap := by
  cases s <;> cases t <;> decide

end Status

end Sentry
