import MiniErp.Chain.Stages

/-! The physical stages just before and just after an occurrence, found by walking over the
nodes that are no physical stage themselves. -/
namespace MiniErp.Chain
open Text Worklist Queue List

def routeStep (map : ProductionMapDefinition) (previous : Bool) (nodeId : String) : List String :=
  if previous then routePredecessors map nodeId else routeSuccessors map nodeId

/-- `physical_by_node` is collected into a map, where the last stage of one node stays. -/
def physicalByNode (stages : List ChainStage) (nodeId : String) : Option ChainStage :=
  (stages.filter fun stage => stage.apparatusId.isSome).reverse.find? fun stage =>
    stage.nodeId == nodeId

def isRouteEnd (node : ProductionMapNode) : Bool := node.kind == .start || node.kind == .endNode

section
variable (map : ProductionMapDefinition)

/-- The walk goes on from a node that is no end of the route and no physical stage. -/
def adjacentNext (stages : List ChainStage) (previous : Bool) (nodeId : String) : List String :=
  match map.nodeById nodeId with
  | none => []
  | some node =>
    if isRouteEnd node || (physicalByNode stages nodeId).isSome then []
    else routeStep map previous nodeId

def adjacentFound (stages : List ChainStage) (nodeId : String) : Option ChainStage :=
  match map.nodeById nodeId with
  | none => none
  | some node => if isRouteEnd node then none else physicalByNode stages nodeId

section
variable (stageNodeId : String)

def adjacentPhysicalStagesForNodeWithStages (previous : Bool) (stages : List ChainStage) : List ChainStage :=
  if stages.any fun stage => trim stage.nodeId == trim stageNodeId then
    (explore (adjacentNext map stages previous) (edgeEnds map)
      (routeStep map previous (trim stageNodeId))).filterMap (adjacentFound map stages)
  else []

def adjacentPhysicalStagesForNode (previous : Bool) : List ChainStage :=
  adjacentPhysicalStagesForNodeWithStages map stageNodeId previous (linearWorkStages map)

def previousWorkStagesForNode : List ChainStage :=
  adjacentPhysicalStagesForNode map stageNodeId true

def nextWorkStagesForNode : List ChainStage := adjacentPhysicalStagesForNode map stageNodeId false

end

/-- The walk of `collect_previous_stage_ids`, which compares identities as written. -/
def stationNext (physical : List String) (nodeId : String) : List String :=
  match map.nodeById nodeId with
  | none => []
  | some node =>
    if node.kind=.start then []
    else if node.kind=.apparatus ∧ node.id∈physical then []
    else routePredecessors map nodeId

def pushStation (physical found : List String) (nodeId : String) : List String :=
  match map.nodeById nodeId with
  | none => found
  | some node =>
    if node.kind=.apparatus ∧ node.id∈physical then
      match canonicalApparatusIdentity node with
      | none => found
      | some identity =>
        if identity != "" && !found.any fun seen =>
            toAsciiLowercase seen == toAsciiLowercase identity then
          found++[identity]
        else found
    else found

def collectPreviousStageIds (physical : List String)
    (found : List String) (node : ProductionMapNode) : List String :=
  (explore (stationNext map physical) (edgeEnds map) (routePredecessors map node.id)).foldl
    (pushStation map physical) found

section
variable (stationId : String)

def previousWorkStageStationsWithStages (stages : List ChainStage) : List String :=
  let physical := (stages.filter fun stage => stage.apparatusId.isSome).map (·.nodeId)
  (map.nodes.filter fun node => isStationNode node && stationMatches node stationId).foldl
    (collectPreviousStageIds map physical) []

def previousWorkStageStations : List String :=
  previousWorkStageStationsWithStages map stationId (linearWorkStages map)

def previousWorkStageStation : Option String := (previousWorkStageStations map stationId).head?

def previousStageResolutionIsUnavailableWithStages (stages : List ChainStage) : Bool :=
  let physical := stages.filter fun stage => stage.apparatusId.isSome
  if map.nodes.any fun node =>
      node.kind == .apparatus && isBlank node.alternativeGroupId &&
        (canonicalApparatusIdentity node).isSome &&
        !physical.any fun stage => stage.nodeId == node.id then
    true
  else
    match physical.findIdx? fun stage => stage.identity == trim stationId with
    | none => !physical.isEmpty
    | some index => decide (0 < index) && (previousWorkStageStation map stationId).isNone

def previousStageResolutionIsUnavailable : Bool :=
  previousStageResolutionIsUnavailableWithStages map stationId (linearWorkStages map)

end

end

/-- The queue states of every apparatus: apparatus, then order, then stored state. -/
abbrev ApparatusStates := Std.TreeMap String (Std.TreeMap String String)

def queueStateForStation (stationId orderId : String) (allStates : ApparatusStates) :
    ApparatusQueueOrderState :=
  (allStates[trim stationId]?.bind fun states =>
    states[trim orderId]?.bind ApparatusQueueOrderState.parse).getD .pending

def orderReadyForStageNode (map : ProductionMapDefinition) (orderId stageNodeId : String)
    (allStates : ApparatusStates) : Bool :=
  match (previousWorkStagesForNode map stageNodeId).head?.bind (·.apparatusId) with
  | none => true
  | some previous => queueStateForStation previous orderId allStates == .completed

variable {stage : ChainStage} {stages : List ChainStage} {map : ProductionMapDefinition}
  {previous : Bool}

theorem physicalByNode_eq_some {nodeId : String} (h : physicalByNode stages nodeId=some stage) :
    stage∈stages ∧ stage.apparatusId.isSome=true ∧ stage.nodeId=nodeId := by
  have hmem := mem_reverse.mp (mem_of_find?_eq_some h)
  have hid := find?_some h
  exact ⟨(mem_filter.mp hmem).1,(mem_filter.mp hmem).2,by simpa using hid⟩

theorem adjacentFound_eq_some {nodeId : String} (h : adjacentFound map stages nodeId=some stage) :
    stage∈stages ∧ stage.apparatusId.isSome=true ∧ stage.nodeId=nodeId := by
  unfold adjacentFound at h
  split at h
  · cases h
  · split at h
    · cases h
    · exact physicalByNode_eq_some h

theorem mem_stages_of_adjacent {stageNodeId : String}
   
    (h : stage∈adjacentPhysicalStagesForNodeWithStages map stageNodeId previous stages) :
    stage∈stages ∧ stage.apparatusId.isSome=true := by
  unfold adjacentPhysicalStagesForNodeWithStages at h
  split at h
  · obtain ⟨id,_,hfound⟩ := mem_filterMap.mp h
    have hstage := adjacentFound_eq_some hfound
    exact ⟨hstage.1,hstage.2.1⟩
  · cases h

theorem mem_edgeEnds_of_routeStep
    {a b : String} (h : b∈routeStep map previous a) : b∈edgeEnds map := by
  cases previous with
  | true => exact mem_edgeEnds_of_routePredecessors h
  | false => exact mem_edgeEnds_of_routeSuccessors h

theorem routeStep_of_adjacentNext
    {a b : String} (h : b∈adjacentNext map stages previous a) : b∈routeStep map previous a := by
  unfold adjacentNext at h
  split at h
  · cases h
  · split at h
    · cases h
    · exact h

/-- The adjacent stages are those at the end of a walk; the walk never runs out of fuel. -/
theorem mem_adjacent_iff {stageNodeId : String}
    : stage∈adjacentPhysicalStagesForNodeWithStages map stageNodeId previous stages ↔
      (∃ own∈stages, trim own.nodeId=trim stageNodeId) ∧
      ∃ first∈routeStep map previous (trim stageNodeId), ∃ last,
        Relation.ReflTransGen (Step (adjacentNext map stages previous)) first last ∧
          adjacentFound map stages last=some stage := by
  have hstart : ∀ a∈routeStep map previous (trim stageNodeId), a∈edgeEnds map :=
    fun a ha => mem_edgeEnds_of_routeStep ha
  have hdomain : ∀ a∈edgeEnds map, ∀ b∈adjacentNext map stages previous a, b∈edgeEnds map :=
    fun a _ b hb => mem_edgeEnds_of_routeStep (routeStep_of_adjacentNext hb)
  unfold adjacentPhysicalStagesForNodeWithStages
  split
  · rename_i hown
    rw [any_eq_true] at hown
    simp only [beq_iff_eq] at hown
    simp only [hown,true_and,mem_filterMap,mem_explore_iff hdomain hstart]
    constructor
    · rintro ⟨last,⟨first,hfirst,hwalk⟩,hfound⟩
      exact ⟨first,hfirst,last,hwalk,hfound⟩
    · rintro ⟨first,hfirst,last,hwalk,hfound⟩
      exact ⟨last,⟨first,hfirst,hwalk⟩,hfound⟩
  · rename_i hown
    simp only [any_eq_true,beq_iff_eq] at hown
    simp [hown]

end MiniErp.Chain
