import MiniErp.Types

/-! The states of an order in one apparatus queue, the actions on it and the table of
transitions between them. -/
namespace MiniErp.Queue
open Text

inductive ApparatusQueueOrderState where
  | pending
  | printPreflight
  | inProgress
  | paused
  | frozen
  | completed
  deriving DecidableEq, Repr

namespace ApparatusQueueOrderState

def parse (value : String) : Option ApparatusQueueOrderState :=
  let value := trim value
  if eqIgnoreAsciiCase value "pending" then some .pending
  else if eqIgnoreAsciiCase value "print_preflight" then some .printPreflight
  else if eqIgnoreAsciiCase value "in_progress" then some .inProgress
  else if eqIgnoreAsciiCase value "paused" then some .paused
  else if eqIgnoreAsciiCase value "frozen" then some .frozen
  else if eqIgnoreAsciiCase value "completed" then some .completed
  else none

def asStr : ApparatusQueueOrderState → String
  | .pending => "pending"
  | .printPreflight => "print_preflight"
  | .inProgress => "in_progress"
  | .paused => "paused"
  | .frozen => "frozen"
  | .completed => "completed"

def isActive : ApparatusQueueOrderState → Bool
  | .inProgress | .printPreflight => true
  | _ => false

@[simp] theorem parse_asStr (s : ApparatusQueueOrderState) : parse s.asStr=some s := by
  cases s <;> decide +kernel

end ApparatusQueueOrderState

inductive ApparatusQueueAction where
  | start
  | pause
  | freeze
  | detachRoll
  | resume
  | merge
  | rollComplete
  | complete
  deriving DecidableEq, Repr

def ApparatusQueueAction.createsResumableOutput : ApparatusQueueAction → Bool
  | .pause | .detachRoll => true
  | _ => false

/-- `records_progress_output`: the actions that leave a labelled output roll. -/
def ApparatusQueueAction.recordsProgressOutput : ApparatusQueueAction → Bool
  | .pause | .detachRoll | .rollComplete | .complete => true
  | _ => false

/-- `matches!(action, Start | Resume)`: the two actions that take the queue slot. -/
def ApparatusQueueAction.takesSlot : ApparatusQueueAction → Bool
  | .start | .resume => true
  | _ => false

open ApparatusQueueOrderState ApparatusQueueAction in
def nextQueueState (current : ApparatusQueueOrderState) (action : ApparatusQueueAction) :
    Except ProductionMapError ApparatusQueueOrderState :=
  match current, action with
  | .pending, .start => .ok .inProgress
  | .printPreflight, .start => .ok .inProgress
  | .printPreflight, .freeze => .ok .frozen
  | .inProgress, .pause => .ok .paused
  | .inProgress, .freeze => .ok .frozen
  | .inProgress, .detachRoll => .ok .paused
  | .paused, .resume => .ok .inProgress
  | .inProgress, .merge => .ok .inProgress
  | .inProgress, .rollComplete => .ok .inProgress
  | .inProgress, .complete => .ok .completed
  | _, _ => .error .queueActionNotAllowed

/-- Only taking the slot makes an order active that was not. -/
theorem nextQueueState_active {current next : ApparatusQueueOrderState}
    {action : ApparatusQueueAction} (h : nextQueueState current action=.ok next) :
    next.isActive=true → action.takesSlot=true ∨ current.isActive=true := by
  cases current <;> cases action <;> simp_all [nextQueueState,ApparatusQueueAction.takesSlot,
    ApparatusQueueOrderState.isActive]

end MiniErp.Queue
