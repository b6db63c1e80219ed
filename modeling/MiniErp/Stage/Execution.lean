import MiniErp.Chain.Projection
import MiniErp.Lib.Closure

/-! The closure of operations. The candidates of one alternative group share an operation; the
sessions, the reports and the inputs of an operation say whether it is locally done, and an
operation completes when it and everything before it is done. -/
namespace MiniErp.Stage
open Text Chain Queue

structure StageWorkInput where
  sourceNode : String
  targetNode : String
  sourceApparatus : String
  targetApparatus : String
  outstanding : Bool
  available : Bool
  deriving DecidableEq, Repr

structure StageWorkReport where
  reportId : String
  sequence : Nat
  submittedAtUnix : Int
  workerRef : String
  workerRole : String
  workerDisplayName : String
  deriving DecidableEq, Repr

/-- A report is read from an object, where only the role may be missing, or from the array of
its six fields. -/
def StageWorkReport.ofJson (value : Json) : Option StageWorkReport :=
  match value with
  | .object _ => do
    let reportId ← (← value.get "report_id").asStr
    let sequence ← (← value.get "sequence").asU64
    let submittedAtUnix ← (← value.get "submitted_at_unix").asI64
    let workerRef ← (← value.get "worker_ref").asStr
    let workerRole ← ((value.get "worker_role").getD (.string "")).asStr
    let workerDisplayName ← (← value.get "worker_display_name").asStr
    return { reportId, sequence, submittedAtUnix, workerRef, workerRole, workerDisplayName }
  | .array [reportId,sequence,submittedAtUnix,workerRef,workerRole,workerDisplayName] => do
    return {
      reportId := ← reportId.asStr
      sequence := ← sequence.asU64
      submittedAtUnix := ← submittedAtUnix.asI64
      workerRef := ← workerRef.asStr
      workerRole := ← workerRole.asStr
      workerDisplayName := ← workerDisplayName.asStr }
  | _ => none

def hasWorkProtocol (session : OrderRunSession) : Bool :=
  (session.payloadJson.get "stage_work_protocol").isSome

def workReport (session : OrderRunSession) : Option StageWorkReport :=
  (session.payloadJson.get "stage_work_report").bind StageWorkReport.ofJson

structure StageWorkStatus where
  stageNodeId : String
  upstreamClosed : Bool := false
  completed : Bool := false
  hasAvailableInput : Bool
  lastApparatus : String
  lastWorkerRef : String
  lastReportAtUnix : Int
  astatkaRequiredApparatuses : List String
  deriving DecidableEq, Repr

structure ProductionStageLifecycleEvent where
  stageNodeId : String
  action : ApparatusQueueAction
  toState : ApparatusQueueOrderState
  deriving DecidableEq, Repr

def operationKey (node : ProductionMapNode) : String :=
  if isBlank node.alternativeGroupId then "node:" ++ node.id
  else "group:" ++ trim node.alternativeGroupId

structure OperationTable where
  candidates : Std.TreeMap String (List ChainStage) := ∅
  keyByNode : Std.TreeMap String String := ∅

def addCandidate (map : ProductionMapDefinition) (table : OperationTable) (stage : ChainStage) :
    OperationTable :=
  match map.nodeById stage.nodeId with
  | none => table
  | some node =>
    let key := operationKey node
    { candidates := table.candidates.insert key (table.candidates.getD key []++[stage])
      keyByNode := table.keyByNode.insert stage.nodeId key }

def operationTable (map : ProductionMapDefinition) (stages : List ChainStage) : OperationTable :=
  stages.foldl (addCandidate map) {}

/-- Without an occurrence a session is no evidence for one of two uses of its machine. -/
def occurrenceIsAmbiguous (stages : List ChainStage) (session : OrderRunSession) : Bool :=
  isBlank session.stageNodeId &&
    (stages.countP fun stage => stage.apparatusId == some session.apparatus) != 1

def isCandidate (candidates : List ChainStage) (nodeId : String) : Bool :=
  candidates.any fun stage => stage.nodeId == nodeId

/-- `(session.started_at_unix, &session.session_id) > (old.started_at_unix, &old.session_id)`. -/
def startedAfter (session old : OrderRunSession) : Bool :=
  decide (old.startedAtUnix < session.startedAtUnix) ||
    (old.startedAtUnix == session.startedAtUnix && decide (old.sessionId < session.sessionId))

/-- The latest session of each apparatus; the first of two equal ones stays. -/
abbrev LatestSessions := Std.TreeMap String OrderRunSession

def keepLatest (latest : LatestSessions) (session : OrderRunSession) : LatestSessions :=
  let old := latest.getD session.apparatus session
  latest.insert session.apparatus (if startedAfter session old then session else old)

def closesStage (event : ProductionStageLifecycleEvent) : Bool :=
  event.action == .complete && event.toState == .completed

/-- The last event of each node. -/
def nodeEvents (candidates : List ChainStage) (events : List ProductionStageLifecycleEvent) :
    Std.TreeMap String ProductionStageLifecycleEvent :=
  (events.filter fun event => isCandidate candidates event.stageNodeId).foldl
    (fun found event => found.insert event.stageNodeId event) ∅

/-- Without sessions the events of the candidates decide, and without events the queue state
of the only candidate, if its apparatus is used once. -/
def operationDone (map : ProductionMapDefinition) (stages : List ChainStage)
    (states : ApparatusStates) (events : List ProductionStageLifecycleEvent)
    (candidates : List ChainStage) (latest : LatestSessions) : Bool :=
  if latest.isEmpty then
    let found := nodeEvents candidates events
    if !found.isEmpty then found.values.all closesStage
    else
      match candidates with
      | [candidate] =>
        (stages.countP fun stage => stage.apparatusId == candidate.apparatusId) == 1 &&
          (states[candidate.apparatusId.getD ""]?.bind fun orders => orders[map.id]?) ==
            some "completed"
      | _ => false
  else latest.values.all fun session => session.status == .completed

structure ReportScan where
  required : List String := []
  last : Option (OrderRunSession × StageWorkReport) := none

def scanReport (scan : ReportScan) (session : OrderRunSession) : ReportScan :=
  match workReport session with
  | some report =>
    if scan.last.all fun old => decide (old.2.sequence < report.sequence) then
      { scan with last := some (session, report) }
    else scan
  | none =>
    if session.status == .completed && hasWorkProtocol session then
      { scan with required := scan.required++[session.apparatus] }
    else scan

def scanReports (latest : LatestSessions) : ReportScan := latest.values.foldl scanReport {}

def predecessorKeys (table : OperationTable) (key : String) (previous : List ChainStage) :
    List String :=
  (Std.TreeSet.ofList (previous.filterMap fun stage =>
    table.keyByNode[stage.nodeId]?.filter (· != key))).toList

/-- What one pass over an operation finds out. -/
structure Operation where
  candidates : List ChainStage
  done : Bool
  reports : ReportScan
  predecessors : List String
  inputsHere : List StageWorkInput

namespace Operation

def localDone (operation : Operation) : Bool :=
  operation.done && operation.reports.required.isEmpty && operation.inputsHere.isEmpty

def hasAvailableInput (operation : Operation) : Bool := operation.inputsHere.any (·.available)

def status (operation : Operation) : StageWorkStatus where
  stageNodeId := (operation.candidates.head?.map (·.nodeId)).getD ""
  hasAvailableInput := operation.hasAvailableInput
  lastApparatus := (operation.reports.last.map (·.1.apparatus)).getD ""
  lastWorkerRef := (operation.reports.last.map (·.2.workerRef)).getD ""
  lastReportAtUnix := (operation.reports.last.map (·.2.submittedAtUnix)).getD 0
  astatkaRequiredApparatuses :=
    if operation.hasAvailableInput then [] else operation.reports.required

end Operation

section
variable (operations : List (String × Operation))

def locallyDone (key : String) : Bool := (operations.lookup key).any Operation.localDone

def predecessorsOf (key : String) : List String :=
  ((operations.lookup key).map Operation.predecessors).getD []

def closedKeys : List String :=
  Closure.close (locallyDone operations) (predecessorsOf operations) (operations.map (·.1))

end

def closeStatus (closed : List String) (key : String) (operation : Operation) : StageWorkStatus :=
  let upstreamClosed := operation.predecessors.all fun p => decide (p∈closed)
  { operation.status with
    upstreamClosed
    completed := decide (key∈closed)
    astatkaRequiredApparatuses :=
      if upstreamClosed then operation.status.astatkaRequiredApparatuses else [] }

def closeStatuses (operations : List (String × Operation)) : List StageWorkStatus :=
  operations.map fun entry => closeStatus (closedKeys operations) entry.1 entry.2

section Projected

def resolveSession (stages : List ChainStage) (session : OrderRunSession) :
    StateM ProjectionMap (Option (OrderRunSession × String)) := do
  if occurrenceIsAmbiguous stages session then return none
  let node ← ProjectionMap.workStage session.apparatus session.stageNodeId
  return node.map fun node => (session, node.nodeId)

section
variable (map : ProductionMapDefinition) (stages : List ChainStage) (table : OperationTable)

/-- The sessions of the order with their occurrences, in source order. -/
def resolvedSessions (sessions : List OrderRunSession) :
    StateM ProjectionMap (List (OrderRunSession × String)) := do
  if table.candidates.isEmpty then return []
  (sessions.filter fun session => session.orderId == map.id).filterMapM (resolveSession stages)

def latestResolved (candidates : List ChainStage) (resolved : List (OrderRunSession × String)) :
    LatestSessions :=
  (resolved.filter fun entry => isCandidate candidates entry.2).foldl
    (fun latest entry => keepLatest latest entry.1) ∅

/-- An input counts where it is sent, then after its source node, then by its machines. -/
def inputIsHereProjected (candidates : List ChainStage) (input : StageWorkInput) :
    StateM ProjectionMap Bool := do
  if input.targetNode != "" then return isCandidate candidates input.targetNode
  if input.sourceNode != "" then
    let next ← ProjectionMap.nextStages input.sourceNode
    return next.any fun stage => isCandidate candidates stage.nodeId
  if input.targetApparatus != "" &&
      candidates.any fun stage => stage.apparatusId == some input.targetApparatus then
    return true
  if input.sourceApparatus == "" then return false
  candidates.anyM fun stage => do
    let previous ← ProjectionMap.previousStations (stage.apparatusId.getD "")
    return previous.contains input.sourceApparatus

def operationProjected (resolved : List (OrderRunSession × String))
    (inputs : List StageWorkInput) (states : ApparatusStates)
    (events : List ProductionStageLifecycleEvent) (entry : String × List ChainStage) :
    StateM ProjectionMap (String × Operation) := do
  let (key, candidates) := entry
  let latest := latestResolved candidates resolved
  let previous ← candidates.mapM fun candidate => ProjectionMap.previousStages candidate.nodeId
  let inputsHere ← (inputs.filter (·.outstanding)).filterMapM fun input => do
    let here ← inputIsHereProjected candidates input
    return if here then some input else none
  return (key, {
    candidates
    done := operationDone map stages states events candidates latest
    reports := scanReports latest
    predecessors := predecessorKeys table key previous.flatten
    inputsHere })

end

section
variable (sessions : List OrderRunSession) (inputs : List StageWorkInput) (states : ApparatusStates)
  (events : List ProductionStageLifecycleEvent)

def stageOperationsProjected : StateM ProjectionMap (List (String × Operation)) := do
  let map ← ProjectionMap.currentMap
  let stages := (← ProjectionMap.stages).filter (·.apparatusId.isSome)
  let table := operationTable map stages
  let resolved ← resolvedSessions map stages table sessions
  table.candidates.toList.mapM (operationProjected map stages table resolved inputs states events)

def stageWorkStatusesProjected : StateM ProjectionMap (List StageWorkStatus) := do
  return closeStatuses (← stageOperationsProjected sessions inputs states events)

end

end Projected

section
variable (map : ProductionMapDefinition) (sessions : List OrderRunSession)
  (inputs : List StageWorkInput) (states : ApparatusStates)
  (events : List ProductionStageLifecycleEvent)

def stageOperations : List (String × Operation) :=
  ((stageOperationsProjected sessions inputs states events).run (ProjectionMap.reference map)).1

def stageWorkStatuses : List StageWorkStatus :=
  ((stageWorkStatusesProjected sessions inputs states events).run (ProjectionMap.reference map)).1

end

end MiniErp.Stage
