import MiniErp.Live.Records

/-! The list a worker sees: the rows, states, prompts and queues of a view as one object, the patch
from one view to the next and the client that applies it. -/
namespace MiniErp.Live
open Std Text Queue
variable {R : LiveRecords}

section
variable (map : ProductionMapDefinition)

def displayCode : String :=
  if trim map.code ≠ "" then trim map.code
  else if trim map.orderNumber ≠ "" then trim map.orderNumber
  else
    match (trim map.id).toList.dropPrefix? "zakaz-".toList with
    | some number => trim (String.ofList number)
    | none => ""

/-- The first title of an end node that says more than the title of the map. -/
def productTitle : String :=
  let titles := (map.nodes.filter fun node => node.kind == .endNode).map fun node => trim node.title
  (titles.find? fun title => title != "" && title != trim map.title).getD ""

def displayTitle : String := if trim map.title ≠ "" then trim map.title else productTitle map

def displaySubtitle (customer : Option String) : String :=
  match (customer.map trim).filter (· != "") with
  | some customer => customer
  | none =>
    if trim map.customerName ≠ "" then trim map.customerName
    else if trim map.productCode ≠ "" then trim map.productCode
    else productTitle map

end

section
variable (snapshot : R.Snapshot)

def hasStatus (id name : String) : Bool :=
  (orderStatus snapshot id).any fun status => eqIgnoreAsciiCase (trim status.orderStatus) name

/-- A passed colour trial of this order on this apparatus. -/
def preflightPassed (id apparatus : String) : Bool :=
  (actionControl snapshot apparatus id).any fun control =>
    control.state == .printPreflight && control.printPreflight.any fun hold =>
      hold.status == .passed && trim hold.orderId == id && trim hold.apparatus == apparatus

def displayState (id apparatus : String) (state : ApparatusQueueOrderState) : String :=
  if hasStatus snapshot id "completed_with_issue" ||
      (orderStatus snapshot id).any (fun status => status.completedWithIssueCount > 0) then "issue"
  else if (orderControl snapshot id).any (· != .active) || hasStatus snapshot id "frozen" then
    "frozen"
  else if state == .printPreflight && preflightPassed snapshot id apparatus then
    "print_preflight_passed"
  else state.asStr

def pausedApparatus (id : String) : List String :=
  snapshot.queueActionControls.toList.filterMap fun entry =>
    (entry.2[id]?.map R.control).bind fun control =>
      if control.temporarilyPaused && control.state == .paused then some entry.1 else none

def workerRow (customers : TreeMap String String) (map : ProductionMapDefinition) : Json :=
  let paused := pausedApparatus snapshot map.id
  Json.ofFields ([("id", .string map.id),("code", .string (displayCode map)),
    ("title", .string (displayTitle map)),
    ("customer_name", .string (displaySubtitle map customers[map.id]?)),
    ("image_id", .string map.imageId)] ++
      if paused.isEmpty then [] else [("temporarily_paused_apparatus", idsJson paused)])

def workerRows (customers : TreeMap String String) : TreeMap String Json :=
  .ofList (snapshot.maps.map fun saved =>
    ((R.map saved).id, workerRow snapshot customers (R.map saved)))

def workerDisplayStates : TreeMap String (TreeMap String Json) :=
  snapshot.queueStates.map fun apparatus states => states.map fun id raw =>
    .string (displayState snapshot id apparatus ((ApparatusQueueOrderState.parse raw).getD .pending))

/-- The report a finished upstream stage asks for, unless the order is frozen. -/
def reportPrompt (id : String) (control : ApparatusQueueOrderActionControl) : Option Json :=
  control.stageWork.bind fun work =>
    if !work.upstreamClosed || !work.astatkaAvailable || !work.astatkaRequired ||
        work.reportSessionId == "" || (orderControl snapshot id).any (· == .frozen) ||
        hasStatus snapshot id "frozen" || control.state == .frozen then none
    else some (Json.ofFields [("report_session_id", .string work.reportSessionId),
      ("upstream_title", .string work.upstreamTitle)])

def workerReportPrompts : TreeMap String (TreeMap String Json) :=
  snapshot.queueActionControls.map fun _ controls =>
    controls.filterMap fun id control => reportPrompt snapshot id (R.control control)

end

def stateJson (name : String) : Json := Json.ofFields [("state", .string name)]

/-- The controls of the orders; a frozen operational status counts as a frozen control. -/
def workerOrderControls (snapshot : R.Snapshot) : TreeMap String Json :=
  snapshot.orderStatuses.foldl
    (fun controls id status =>
      if eqIgnoreAsciiCase (trim (R.status status).orderStatus) "frozen"
      then controls.insert id (stateJson "frozen") else controls)
    (snapshot.orderControls.map fun _ control => stateJson (controlName (R.controlState control)))

def objectJson (table : TreeMap String Json) : Json := .object table.toList

def nestedJson (table : TreeMap String (TreeMap String Json)) : Json :=
  objectJson (table.map fun _ values => objectJson values)

section
variable (snapshot : R.Snapshot) (customers : TreeMap String String)

def projectedFields : List (String × Json) :=
  [("worker_list_rows", objectJson (workerRows snapshot customers)),
    ("worker_display_states", nestedJson (workerDisplayStates snapshot)),
    ("worker_report_prompts", nestedJson (workerReportPrompts snapshot)),
    ("order_controls", objectJson (workerOrderControls snapshot))]

def projectWorker : List (String × Json) :=
  (projectedFields snapshot customers).foldl
    (fun value field => Json.setField field.1 field.2 value) []

end

inductive CompletedQueueOrderStatus where
  | inProgress
  | frozen
  | completed
  deriving DecidableEq, Repr

def CompletedQueueOrderStatus.asStr : CompletedQueueOrderStatus → String
  | .inProgress => "in_progress"
  | .frozen => "frozen"
  | .completed => "completed"

structure CompletedQueueOrder where
  apparatus : String
  orderId : String
  completedAtUnix : Int
  status : CompletedQueueOrderStatus
  issueNote : String

def CompletedQueueOrder.toJson (order : CompletedQueueOrder) : Json :=
  Json.ofFields ([("apparatus", .string order.apparatus),("order_id", .string order.orderId),
    ("completed_at_unix", .number (.int order.completedAtUnix)),
    ("status", .string order.status.asStr)] ++
      if order.issueNote = "" then [] else [("issue_note", .string order.issueNote)])

def reportPending (snapshot : R.Snapshot) (entry : CompletedQueueOrder) : Bool :=
  (snapshot.maps.any fun saved => (R.map saved).id == entry.orderId) &&
    !((orderControl snapshot entry.orderId).any (· == .frozen)) &&
    !(hasStatus snapshot entry.orderId "frozen") &&
    (actionControl snapshot entry.apparatus entry.orderId).any fun control =>
      control.stageWork.any (·.astatkaRequired) &&
        (control.mode == .paused || control.mode == .completed)

def addPending (pending : TreeMap String (List String)) (entry : CompletedQueueOrder) :
    TreeMap String (List String) :=
  let ids := pending[entry.apparatus]?.getD []
  pending.insert entry.apparatus (if entry.orderId∈ids then ids else ids++[entry.orderId])

/-- The orders of each apparatus whose report is due, the latest first. -/
def workerPendingReportIds (snapshot : R.Snapshot) (completed : List CompletedQueueOrder) :
    TreeMap String (List String) :=
  let history := completed.mergeSort fun a b => b.completedAtUnix≤a.completedAtUnix
  (history.filter (reportPending snapshot)).foldl addPending ∅

/-- A view of a worker. Requests and decisions are only written out, so they stand as their JSON. -/
structure WorkerView (R : LiveRecords) where
  snapshot : R.Snapshot
  customers : TreeMap String String
  completed : List CompletedQueueOrder
  requests : List Json
  decisions : List Json

def revisionJson (revision : Int) : Json := .number (.int revision)

def viewFields (view : WorkerView R) : List (String × Json) :=
  let snapshot := view.snapshot
  [("worker_pending_report_ids",
      objectJson (jsonTable idsJson (workerPendingReportIds snapshot view.completed))),
    ("sequences", objectJson (jsonTable idsJson snapshot.sequences)),
    ("visible_order_ids", objectJson (jsonTable idsJson snapshot.visibleOrderIds)),
    ("sequence_versions", objectJson (jsonTable .string snapshot.sequenceVersions)),
    ("sequence_revisions", objectJson (jsonTable revisionJson snapshot.sequenceRevisions)),
    ("sequence_positions_by_apparatus",
      nestedJson (snapshot.sequencePositionsByApparatus.map fun _ => jsonTable natJson)),
    ("queue_states", nestedJson (snapshot.queueStates.map fun _ => jsonTable .string)),
    ("queue_policies", .array (snapshot.queuePolicies.map R.policyJson)),
    ("completed_orders", .array (view.completed.map CompletedQueueOrder.toJson)),
    ("completion_requests", .array view.requests),
    ("completion_request_decisions", .array view.decisions)]

def fields (view : WorkerView R) : List (String × Json) :=
  (viewFields view).foldl (fun value field => Json.setField field.1 field.2 value)
    (projectWorker view.snapshot view.customers)

def object : Json → TreeMap String Json
  | .object fields => .ofList fields
  | _ => ∅

def nested (value : Json) : TreeMap String (TreeMap String Json) :=
  (object value).map fun _ => object

/-- `fields[key]`, null where there is none. -/
def fieldAt (fields : List (String × Json)) (key : String) : Json := (fields.lookup key).getD .null

/-- The fields of the patch with what each changes: the first five from the objects, then the typed
tables of the snapshots, the last three as whole values. -/
def workerPatchFields (before after : WorkerView R) : List (String × Option Json) :=
  let old := fieldAt (fields before)
  let new := fieldAt (fields after)
  let keyed := fun key => (key, mapPatch id (object (old key)) (object (new key)))
  let byScope := fun key => (key, nestedPatch id (nested (old key)) (nested (new key)))
  let whole := fun key => (key, if old key≠new key then some (new key) else none)
  [keyed "worker_list_rows",keyed "order_controls",keyed "worker_pending_report_ids",
    byScope "worker_display_states",byScope "worker_report_prompts",
    ("sequences", sequenceMapPatch before.snapshot.sequences after.snapshot.sequences),
    ("visible_order_ids",
      sequenceMapPatch before.snapshot.visibleOrderIds after.snapshot.visibleOrderIds),
    ("sequence_versions",
      mapPatch .string before.snapshot.sequenceVersions after.snapshot.sequenceVersions),
    ("sequence_revisions",
      mapPatch revisionJson before.snapshot.sequenceRevisions after.snapshot.sequenceRevisions),
    ("queue_states", nestedPatch .string before.snapshot.queueStates after.snapshot.queueStates),
    ("sequence_positions_by_apparatus", nestedPatch natJson
      before.snapshot.sequencePositionsByApparatus after.snapshot.sequencePositionsByApparatus),
    ("queue_policies", mapPatch R.policyJson (byId R.apparatusId before.snapshot.queuePolicies)
      (byId R.apparatusId after.snapshot.queuePolicies)),
    whole "completed_orders",whole "completion_requests",whole "completion_request_decisions"]

def workerPatch (before after : WorkerView R) : List (String × Json) :=
  (presentFields (workerPatchFields before after)).foldl
    (fun patch field => Json.setField field.1 field.2 patch) []

inductive FieldRule where
  | keyed
  | nested
  | whole
  deriving DecidableEq

def fieldRule (name : String) : FieldRule :=
  if name ∈ ["worker_display_states","worker_report_prompts","queue_states",
      "sequence_positions_by_apparatus"] then .nested
  else if name ∈ ["completed_orders","completion_requests","completion_request_decisions"] then
    .whole
  else .keyed

def applyRule : FieldRule → Json → Json → Option Json
  | .keyed, held, change => (fieldPatch (object held) change).map objectJson
  | .nested, held, change => (nestedFieldPatch (nested held) change).map nestedJson
  | .whole, _, change => some change

def applyWorkerPatch (patch held : List (String × Json)) : Option (List (String × Json)) :=
  held.mapM fun field =>
    (applyField (applyRule (fieldRule field.1)) patch field.1 field.2).map fun value =>
      (field.1, value)

/-- The payload as a client holds it: the policies as a table by apparatus. -/
def heldPayload (view : WorkerView R) : List (String × Json) :=
  (fields view).map fun field =>
    if field.1 = "queue_policies" then
      (field.1, objectJson (jsonTable R.policyJson (byId R.apparatusId view.snapshot.queuePolicies)))
    else field

end MiniErp.Live
