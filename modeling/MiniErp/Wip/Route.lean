import MiniErp.Chain.Projection
import MiniErp.Lib.Run

/-! Effective input routing of a roll: which occurrence produced it, which occurrence consumes it
next and on which machines, and the check that a saved map keeps every usable route. -/
namespace MiniErp.Wip
open Text Chain Memo Run

section
variable (map : ProductionMapDefinition)

/-- The apparatus node whose identity, without surrounding blanks, is `id`. -/
def routeNode (id : String) : Option ProductionMapNode :=
  map.nodes.find? fun node => trim node.id == id && node.kind == .apparatus

/-- The logical occurrence of a node: itself or its alternative group. -/
def occurrence (node : ProductionMapNode) : String :=
  if isBlank node.alternativeGroupId then "node:" ++ trim node.id
  else "group:" ++ trim node.alternativeGroupId

def stageApparatus (stages : List ChainStage) (nodeId : String) : Option String :=
  (stages.find? fun stage => trim stage.nodeId == trim nodeId).bind (·.apparatusId)

/-- `is_some_and(|id| apparatus_ids_match(id, apparatus))`. -/
def matchesApparatus (id : Option String) (apparatus : String) : Bool :=
  id.any fun id => apparatusIdsMatch id apparatus

/-- What a batch asks for: its binding if it was claimed, and the occurrences it names. -/
structure RouteRequest where
  binding : Option WipInputRoute
  targetId : String
  sourceId : String

def routeBinding (batch : OrderProgressBatch) : Except ProductionMapError (Option WipInputRoute) :=
  match batch.payloadJson.get "wip_route_binding" with
  | none => .ok none
  | some value =>
    match WipInputRoute.ofJson value with
    | none => .error .wipRouteDestinationUnresolved
    | some route => .ok (some route)

def routeRequest (batch : OrderProgressBatch) : Except ProductionMapError RouteRequest := do
  ensure (trim batch.orderId == trim map.id && batch.action.recordsProgressOutput)
    .progressBatchNotAccepted
  let binding ← routeBinding batch
  return {
    binding
    targetId := (binding.map (·.stageNodeId)).getD (batch.field "next_stage_node_id")
    sourceId := batch.field "stage_node_id" }

/-- A record that has only the canonical identities of its producer and consumer. -/
def RouteRequest.legacyCanonicalRoute (request : RouteRequest) (batch : OrderProgressBatch) :
    Bool :=
  request.binding.isNone && request.sourceId == "" && request.targetId == "" &&
    !isBlank batch.nextApparatus

def checkLegacyRoute (stages : List ChainStage) (batch : OrderProgressBatch)
    (request : RouteRequest) : Except ProductionMapError Unit :=
  ensure (!request.legacyCanonicalRoute batch ||
      (stages.filter fun stage => matchesApparatus stage.apparatusId batch.nextApparatus).length
        == 1)
    .wipRouteAmbiguous

def checkInference (batch : OrderProgressBatch)
    (request : RouteRequest) : Except ProductionMapError Unit := do
  ensure (request.targetId == "" || (routeNode map request.targetId).isSome)
    .wipRouteSourceUnresolved
  ensure (request.targetId != "" || !isBlank batch.nextApparatus) .wipRouteSourceUnresolved

/-- The stages among which the producer is looked for when the batch does not name it. -/
def possibleSources (stages : List ChainStage)
    (batch : OrderProgressBatch) (request : RouteRequest) :
    ExceptT ProductionMapError (StateM ProjectionMap) (List ChainStage) := do
  if request.sourceId != "" then return []
  checkInference map batch request
  if request.targetId == "" then return stages
  ProjectionMap.previousStages request.targetId

end

def sourceIds (batch : OrderProgressBatch) (possible : List ChainStage) : List String :=
  ((possible.filter fun stage => matchesApparatus stage.apparatusId batch.apparatus).map
    (·.nodeId)).dedup

section
variable (map : ProductionMapDefinition) (stages : List ChainStage) (batch : OrderProgressBatch)
  (request : RouteRequest) (possible : List ChainStage)

/-- The producer: the occurrence the batch names, if it ran on the batch's machine, or the only
possible one that ran there. -/
def findSource : Option ProductionMapNode :=
  if request.sourceId != "" then
    if matchesApparatus (stageApparatus stages request.sourceId) batch.apparatus then
      routeNode map request.sourceId
    else none
  else
    match sourceIds batch possible with
    | [id] => routeNode map id
    | _ => none

def routeSource : Except ProductionMapError ProductionMapNode :=
  match findSource map stages batch request possible with
  | none => .error .wipRouteSourceUnresolved
  | some source => do
    ensure (!request.binding.any fun bound => bound.sourceStageNodeId != source.id)
      .wipRouteSourceUnresolved
    return source

end

/-- The successor occurrences, each with its members that are stages of the route. -/
abbrev SuccessorGroups := Std.TreeMap String (List ProductionMapNode)

section
variable (map : ProductionMapDefinition)

def addPeer (stages : List ChainStage) (next : ProductionMapNode)
    (candidates : List ProductionMapNode) (peer : ProductionMapNode) : List ProductionMapNode :=
  if stageNodeIdsMatchForMap map next.id peer.id && (stageApparatus stages peer.id).isSome &&
      !candidates.any fun candidate => candidate.id == peer.id then
    candidates++[peer]
  else candidates

/-- A map may draw edges to some members of a group only; the others are added here. -/
def addSuccessor (stages : List ChainStage)
    (groups : SuccessorGroups) (stage : ChainStage) : SuccessorGroups :=
  match routeNode map stage.nodeId with
  | none => groups
  | some next =>
    groups.insert (occurrence next)
      (map.nodes.foldl (addPeer map stages next) (groups.getD (occurrence next) []))

def successorGroups (stages successors : List ChainStage) : SuccessorGroups :=
  successors.foldl (addSuccessor map stages) ∅

end

def matchingMembers (stages : List ChainStage) (candidates : List ProductionMapNode)
    (apparatus : String) : List ProductionMapNode :=
  candidates.filter fun node => matchesApparatus (stageApparatus stages node.id) apparatus

/-- The destination of a roll that names no existing one: the member of the only successor
occurrence that the roll's next machine picks, or its first member when none is named. -/
def openTarget (stages : List ChainStage) (batch : OrderProgressBatch) (request : RouteRequest)
    (groups : SuccessorGroups) : Except ProductionMapError ProductionMapNode := do
  ensure (request.binding.isNone && (batch.actionableWip || request.legacyCanonicalRoute batch))
    .wipRouteDestinationUnresolved
  ensure (decide (groups.size≤1)) .wipRouteAmbiguous
  match groups.toList with
  | [] => .error .wipRouteDestinationUnresolved
  | (_, candidates) :: _ =>
    ensure (request.targetId == "" || !isBlank batch.nextApparatus) .wipRouteDestinationUnresolved
    let chosen ←
      if isBlank batch.nextApparatus then pure candidates
      else do
        let matching := matchingMembers stages candidates batch.nextApparatus
        ensure (decide (matching.length≤1)) .wipRouteAmbiguous
        pure matching
    match chosen with
    | [] => .error .wipRouteDestinationUnresolved
    | target :: _ => .ok target

/-- The destination node, and whether it differs from what the roll was made for. -/
def destination (map : ProductionMapDefinition) (stages : List ChainStage)
    (batch : OrderProgressBatch) (request : RouteRequest) (groups : SuccessorGroups) :
    Except ProductionMapError (ProductionMapNode × Bool) :=
  match if request.targetId == "" then none else routeNode map request.targetId with
  | some target => do
    ensure (groups.contains (occurrence target)) .wipRouteDestinationUnresolved
    return (target, request.binding.any (·.remapped))
  | none => do
    let target ← openTarget stages batch request groups
    return (target, !request.legacyCanonicalRoute batch)

section
variable (stages : List ChainStage) (batch : OrderProgressBatch) (request : RouteRequest)
  (candidates : List ProductionMapNode) (target : ProductionMapNode)

/-- A roll in use that has no binding is held by the member that runs it. -/
def heldTarget : Except ProductionMapError ProductionMapNode :=
  if request.binding.isNone && batch.wipStatus == .inUse then do
    let usedBy :=
      if isBlank batch.usedByApparatus then trim batch.currentApparatus
      else trim batch.usedByApparatus
    let owned := matchingMembers stages candidates usedBy
    ensure (decide (owned.length≤1)) .wipRouteAmbiguous
    match owned with
    | [] => .error .wipRouteDestinationUnresolved
    | owner :: _ => .ok owner
  else .ok target

def checkMachines : Except ProductionMapError Unit := do
  ensure (!(request.binding.isSome && !isBlank batch.usedByApparatus &&
      !matchesApparatus (stageApparatus stages target.id) batch.usedByApparatus))
    .wipRouteDestinationUnresolved
  ensure (!(request.binding.isNone && !isBlank batch.nextApparatus && !candidates.any fun node =>
        matchesApparatus (stageApparatus stages node.id) batch.nextApparatus))
    .wipRouteDestinationUnresolved

end

structure RouteChoice where
  target : ProductionMapNode
  candidates : List ProductionMapNode
  remapped : Bool

def routeChoice (map : ProductionMapDefinition) (stages : List ChainStage)
    (batch : OrderProgressBatch) (request : RouteRequest) (groups : SuccessorGroups) :
    Except ProductionMapError RouteChoice := do
  let (target, remapped) ← destination map stages batch request groups
  match groups[occurrence target]? with
  | none => .error .wipRouteDestinationUnresolved
  | some candidates => do
    let target ← heldTarget stages batch request candidates target
    checkMachines stages batch request candidates target
    return { target, candidates, remapped }

def consumerApparatusIds (stages : List ChainStage) (candidates : List ProductionMapNode) :
    List String :=
  (Std.TreeSet.ofList (candidates.filterMap fun node => stageApparatus stages node.id)).toList

section
variable (digest : ProductionMapDefinition → String)

def resolveWipInputRouteProjected
    (batch : OrderProgressBatch) :
    ExceptT ProductionMapError (StateM ProjectionMap) WipInputRoute := do
  let map ← ProjectionMap.currentMap
  let request ← routeRequest map batch
  let stages ← ProjectionMap.stages
  checkLegacyRoute stages batch request
  let possible ← possibleSources map stages batch request
  let source ← routeSource map stages batch request possible
  let successors ← ProjectionMap.nextStages source.id
  let choice ← routeChoice map stages batch request (successorGroups map stages successors)
  return {
    sourceStageNodeId := source.id
    stageNodeId := choice.target.id
    consumerApparatusIds := consumerApparatusIds stages choice.candidates
    mapFingerprint := ← ProjectionMap.fingerprint digest
    remapped := choice.remapped }

def resolveWipInputRoute (map : ProductionMapDefinition)
    (batch : OrderProgressBatch) : Except ProductionMapError WipInputRoute :=
  ((resolveWipInputRouteProjected digest batch).run.run (ProjectionMap.reference map)).1

def possibleSourcesOf (map : ProductionMapDefinition) (batch : OrderProgressBatch)
    (request : RouteRequest) : Except ProductionMapError (List ChainStage) := do
  if request.sourceId != "" then return []
  checkInference map batch request
  if request.targetId == "" then return linearWorkStages map
  return previousWorkStagesForNode map request.targetId

/-- What the resolver answers on every sound projection of the map. -/
def resolvedRoute (map : ProductionMapDefinition)
    (batch : OrderProgressBatch) : Except ProductionMapError WipInputRoute := do
  let request ← routeRequest map batch
  checkLegacyRoute (linearWorkStages map) batch request
  let possible ← possibleSourcesOf map batch request
  let source ← routeSource map (linearWorkStages map) batch request possible
  let choice ← routeChoice map (linearWorkStages map) batch request
    (successorGroups map (linearWorkStages map) (nextWorkStagesForNode map source.id))
  return {
    sourceStageNodeId := source.id
    stageNodeId := choice.target.id
    consumerApparatusIds := consumerApparatusIds (linearWorkStages map) choice.candidates
    mapFingerprint := digest map
    remapped := choice.remapped }

end

section Answers
variable {digest : ProductionMapDefinition → String} {map : ProductionMapDefinition}
  {cached : Bool} {Route : String → Except ProductionMapError WipInputRoute → Prop}

theorem answers_possibleSources (batch : OrderProgressBatch) (request : RouteRequest) :
    Answers (ProjectionMap.Sound digest map cached Route)
      (possibleSources map (linearWorkStages map) batch request).run
      (possibleSourcesOf map batch request) := by
  unfold possibleSources possibleSourcesOf
  split
  · exact answers_run_pure _
  · refine answers_run_bind (answers_run_check _) fun _ _ => ?_
    split
    · exact answers_run_pure _
    · exact answers_run_query (ProjectionMap.answers_previousStages _)

theorem answers_resolveWipInputRouteProjected (batch : OrderProgressBatch) :
    Answers (ProjectionMap.Sound digest map cached Route)
      (resolveWipInputRouteProjected digest batch).run (resolvedRoute digest map batch) := by
  refine answers_query_bind ProjectionMap.answers_currentMap ?_
  refine answers_run_bind (answers_run_check _) fun request _ => ?_
  refine answers_query_bind ProjectionMap.answers_stages ?_
  refine answers_run_bind (answers_run_check _) fun _ _ => ?_
  refine answers_run_bind (answers_possibleSources batch request) fun possible _ => ?_
  refine answers_run_bind (answers_run_check _) fun source _ => ?_
  refine answers_query_bind (ProjectionMap.answers_nextStages source.id) ?_
  refine answers_run_bind (answers_run_check _) fun choice _ => ?_
  exact answers_query_bind ProjectionMap.answers_fingerprint (answers_run_pure _)

end Answers

section
variable (digest : ProductionMapDefinition → String)

theorem resolveWipInputRoute_eq (map : ProductionMapDefinition) (batch : OrderProgressBatch) :
    resolveWipInputRoute digest map batch=resolvedRoute digest map batch := by
  have h : Answers (ProjectionMap.Sound digest map false fun _ _ => True) _ _ :=
    answers_resolveWipInputRouteProjected batch
  exact (h _ ProjectionMap.sound_reference).1

/-- One roll of the save check: a usable roll that resolved must resolve again, and a roll in
use must keep its producer and its destination. -/
def validateBatchWipRoute (previous next : ProductionMapDefinition) (batch : OrderProgressBatch) :
    Except ProductionMapError Unit :=
  let batch := batch.normalizedRouteBatch
  if !batch.actionableWip && batch.wipStatus != .inUse then .ok ()
  else
    match resolveWipInputRoute digest previous batch with
    | .error _ => .ok ()
    | .ok previousRoute => do
      let nextRoute ← resolveWipInputRoute digest next batch
      if batch.wipStatus=.inUse then
        ensure (previousRoute.sourceStageNodeId == nextRoute.sourceStageNodeId)
          .wipRouteSourceUnresolved
        ensure (previousRoute.stageNodeId == nextRoute.stageNodeId) .wipRouteDestinationUnresolved

def validateMapWipRoutes (previous next : ProductionMapDefinition)
    (batches : List OrderProgressBatch) : Except ProductionMapError Unit :=
  batches.forM (validateBatchWipRoute digest previous next)

end

def Outstanding (batch : OrderProgressBatch) : Prop :=
  batch.normalizedRouteBatch.actionableWip=true ∨ batch.normalizedRouteBatch.wipStatus=.inUse

def RouteResolves (digest : ProductionMapDefinition → String) (map : ProductionMapDefinition)
    (batch : OrderProgressBatch) : Prop :=
  ∃ route, resolveWipInputRoute digest map batch.normalizedRouteBatch=.ok route

theorem routeResolves_of_validateMapWipRoutes {digest : ProductionMapDefinition → String}
    {previous next : ProductionMapDefinition} {batches : List OrderProgressBatch}
    (h : validateMapWipRoutes digest previous next batches=.ok ()) {batch : OrderProgressBatch}
    (hbatch : batch∈batches) (houtstanding : Outstanding batch)
    (hresolves : RouteResolves digest previous batch) : RouteResolves digest next batch := by
  obtain ⟨route,hroute⟩ := hresolves
  have hone := forM_eq_ok.mp h batch hbatch
  have hactive : (!batch.normalizedRouteBatch.actionableWip &&
      batch.normalizedRouteBatch.wipStatus != .inUse)=false := by
    cases houtstanding with
    | inl hactionable => simp [hactionable]
    | inr huse => simp [huse]
  simp only [validateBatchWipRoute,hactive,Bool.false_eq_true,if_false,hroute,bind_eq_ok] at hone
  obtain ⟨nextRoute,hnext,_⟩ := hone
  exact ⟨nextRoute,hnext⟩

/-- A route with one printing and one laminating machine. -/
def pressThenLaminator : ProductionMapDefinition :=
  { id := "zakaz-1"
    productCode := "film"
    title := "Film"
    nodes :=
      [{ id := "start", kind := .start, title := "" },
        { id := "print", kind := .apparatus, title := "Press", apparatusId := "apparatus:press:1" },
        { id := "laminate", kind := .apparatus, title := "Laminator",
          apparatusId := "apparatus:laminator:1" },
        { id := "end", kind := .endNode, title := "" }]
    edges := [⟨"start","print",""⟩,⟨"print","laminate",""⟩,⟨"laminate","end",""⟩] }

/-- A finished roll of the press that names its next machine only. -/
def printedRoll : OrderProgressBatch :=
  { sessionId := "session-1"
    apparatus := "apparatus:press:1"
    orderId := "zakaz-1"
    action := .complete
    status := .completed
    wipStatus := .waiting
    statusDetail := ⟨"completed","waiting","waiting_next_stage",""⟩
    currentApparatus := "apparatus:press:1"
    currentLocation := "apparatus:press:1 chiqim"
    nextApparatus := "apparatus:laminator:1"
    usedBySessionId := ""
    usedByApparatus := ""
    processedBySessionId := ""
    processedByApparatus := ""
    payloadJson := .object [] }

example : (resolveWipInputRoute (fun map => map.id) pressThenLaminator printedRoll).toOption =
    some ⟨"print","laminate",["apparatus:laminator:1"],"zakaz-1",false⟩ := by
  decide +kernel

end MiniErp.Wip
