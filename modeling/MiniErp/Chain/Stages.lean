import MiniErp.Compiler.Normalize
import MiniErp.Lib.Worklist
import MiniErp.Queue.State

/-! The work stages of a map: which nodes are stations, how edges are followed when the members
of an alternative group stand for each other, and the stages met from the start node. -/
namespace MiniErp.Chain
open Text Worklist List

/-- One stage of the route. Task stages have no apparatus. -/
structure ChainStage where
  nodeId : String
  apparatusId : Option String
  stationTitle : String
  deriving DecidableEq, Repr

def taskStageIdentity (nodeId : String) : String := "task:" ++ trim nodeId

def ChainStage.identity (stage : ChainStage) : String :=
  stage.apparatusId.getD (taskStageIdentity stage.nodeId)

def ChainStage.occurrenceIdentity (stage : ChainStage) : String := trim stage.nodeId

section
variable (node : ProductionMapNode)

def isWorkStage (seenApparatus : Bool) : Bool :=
  match node.kind with
  | .apparatus => true
  | .task => seenApparatus
  | _ => false

def isStationNode : Bool := node.kind == .apparatus || node.kind == .task

def stationIdentity : String :=
  if node.kind=.apparatus then
    let assigned := trim node.alternativeAssignedApparatusId
    if isBlank node.alternativeGroupId && assigned != "" then assigned
    else trim node.apparatusId
  else taskStageIdentity node.id

def canonicalApparatusIdentity : Option String :=
  if node.kind=.apparatus ∧ ApparatusId.isValid (stationIdentity node) then
    some (stationIdentity node)
  else none

def stationMatches (stationId : String) : Bool :=
  let stationId := trim stationId
  if stationId == "" then false
  else if node.kind=.apparatus then
    match canonicalApparatusIdentity node with
    | none => false
    | some nodeId => ApparatusId.isValid stationId && nodeId == stationId
  else stationIdentity node == stationId

def isUnassignedAlternativeApparatus : Bool :=
  node.kind == .apparatus && !isBlank node.alternativeGroupId

def displayTitle : String :=
  let assigned := trim node.alternativeAssignedTitle
  if node.kind=.apparatus ∧ isBlank node.alternativeGroupId ∧ assigned ≠ "" then assigned
  else trim node.title

end

/-- The stages a node stands for: itself, or every member of its alternative group. -/
def stagesForNode (map : ProductionMapDefinition) (node : ProductionMapNode) : List ChainStage :=
  if node.kind=.apparatus ∧ canonicalApparatusIdentity node=none then []
  else if !isUnassignedAlternativeApparatus node then
    [{ nodeId := node.id
       apparatusId := canonicalApparatusIdentity node
       stationTitle := displayTitle node }]
  else
    (map.nodes.filter fun candidate =>
        candidate.kind == .apparatus &&
          trim candidate.alternativeGroupId == trim node.alternativeGroupId &&
          ApparatusId.isValid (trim candidate.apparatusId)).map fun candidate =>
      { nodeId := candidate.id
        apparatusId := some (trim candidate.apparatusId)
        stationTitle := displayTitle candidate }

/-- Two occurrences are the same when they are one node or belong to one valid group. -/
def stageNodeIdsMatchForMap (map : ProductionMapDefinition) (left right : String) : Bool :=
  let left := trim left
  let right := trim right
  if left == "" || right == "" then false
  else if left == right then true
  else
    match map.nodeByTrimmedId left with
    | none => false
    | some leftNode =>
      let groupId := trim leftNode.alternativeGroupId
      if leftNode.kind ≠ .apparatus ∨ groupId = "" then false
      else
        match map.nodeByTrimmedId right with
        | none => false
        | some rightNode =>
          rightNode.kind == .apparatus && groupId == trim rightNode.alternativeGroupId &&
            (canonicalApparatusIdentity leftNode).isSome &&
            (canonicalApparatusIdentity rightNode).isSome

def routeEdgeAllowed (node : ProductionMapNode) (edge : ProductionMapEdge) : Bool :=
  node.kind != .condition ||
    (let branch := Compiler.normalizeBranch edge.branch
     branch == "true" || branch == "false")

section
variable (map : ProductionMapDefinition)

def routeNodeHasAliases (normalizedId : String) : Bool :=
  normalizedId != "" && (map.nodeByTrimmedId normalizedId).any fun node =>
      node.kind == .apparatus && !isBlank node.alternativeGroupId &&
        (canonicalApparatusIdentity node).isSome

/-- The closure `matches` of the two edge scans. -/
def routeMatches (normalizedId candidate : String) : Bool :=
  let candidate := trim candidate
  normalizedId != "" && candidate != "" && (candidate == normalizedId ||
      (routeNodeHasAliases map normalizedId && stageNodeIdsMatchForMap map candidate normalizedId))

def routeSuccessors (nodeId : String) : List String :=
  match map.nodeById nodeId with
  | none => []
  | some node =>
    (map.edges.filter fun edge =>
      (edge.fromId == nodeId || routeMatches map (trim nodeId) edge.fromId) &&
        !routeMatches map (trim nodeId) edge.toId && routeEdgeAllowed node edge).map (·.toId)

def routePredecessors (nodeId : String) : List String :=
  (map.edges.filter fun edge =>
    (edge.toId == nodeId || routeMatches map (trim nodeId) edge.toId) &&
      !routeMatches map (trim nodeId) edge.fromId &&
      (map.nodeById edge.fromId).any fun node => routeEdgeAllowed node edge).map (·.fromId)

/-- Every identity an edge scan can return. -/
def edgeEnds : List String := map.edges.flatMap fun edge => [edge.fromId,edge.toId]

end

variable {a : String} {map : ProductionMapDefinition} {node : ProductionMapNode}

theorem mem_edgeEnds_of_routeSuccessors {b : String}
    (h : b∈routeSuccessors map a) : b∈edgeEnds map := by
  unfold routeSuccessors at h
  split at h
  · cases h
  · obtain ⟨edge,hedge,rfl⟩ := mem_map.mp h
    exact mem_flatMap.mpr ⟨edge,(mem_filter.mp hedge).1,by simp⟩

theorem mem_edgeEnds_of_routePredecessors {b : String}
    (h : b∈routePredecessors map a) : b∈edgeEnds map := by
  obtain ⟨edge,hedge,rfl⟩ := mem_map.mp h
  exact mem_flatMap.mpr ⟨edge,(mem_filter.mp hedge).1,by simp⟩

def startId (map : ProductionMapDefinition) : Option String :=
  (map.nodes.find? fun node => node.kind == .start).map (·.id)

def reachableNodeIds (map : ProductionMapDefinition) : List String :=
  match startId map with
  | none => []
  | some start =>
    (explore (routeSuccessors map) (start::edgeEnds map) [start]).filter fun id =>
      (map.nodeById id).isSome

/-- The stages met so far; the identities already seen are those of the stages. -/
structure StageScan where
  stages : List ChainStage := []
  seenApparatus : Bool := false

def pushStage (stages : List ChainStage) (stage : ChainStage) : List ChainStage :=
  if stages.any fun seen => seen.occurrenceIdentity == stage.occurrenceIdentity then stages
  else stages++[stage]

section
variable (map : ProductionMapDefinition)

/-- `node_by_id` is collected into a map, where the last node of one identity stays. -/
def lastNodeById (id : String) : Option ProductionMapNode :=
  map.nodes.reverse.find? fun node => node.id == id

def scanNode (scan : StageScan) (nodeId : String) : StageScan :=
  match lastNodeById map nodeId with
  | none => scan
  | some node =>
    if isWorkStage node scan.seenApparatus then
      let found := stagesForNode map node
      { stages := found.foldl pushStage scan.stages
        seenApparatus := scan.seenApparatus || (node.kind == .apparatus && !found.isEmpty) }
    else { scan with seenApparatus := scan.seenApparatus || node.kind == .apparatus }

def linearWorkStages : List ChainStage := ((reachableNodeIds map).foldl (scanNode map) {}).stages

end

def chainStageMatchesStation (stage : ChainStage) (stationId : String) : Bool :=
  match stage.apparatusId with
  | some apparatusId => apparatusIdsMatch apparatusId stationId
  | none => stage.identity == trim stationId

section
variable (map : ProductionMapDefinition) (stationId preferredNodeId : String)

def workStageForStationWithStages (stages : List ChainStage) : Option ChainStage :=
  let preferredNodeId := trim preferredNodeId
  if preferredNodeId != "" then
    stages.find? fun stage =>
      stageNodeIdsMatchForMap map stage.nodeId preferredNodeId &&
        chainStageMatchesStation stage stationId
  else stages.find? fun stage => chainStageMatchesStation stage stationId

def workStageForStation : Option ChainStage :=
  workStageForStationWithStages map stationId preferredNodeId (linearWorkStages map)

end

theorem canonicalApparatusIdentity_eq_some : canonicalApparatusIdentity node=some a ↔
      node.kind=.apparatus ∧ ApparatusId.isValid a=true ∧ stationIdentity node=a := by
  unfold canonicalApparatusIdentity
  constructor
  · intro h
    split at h
    · rename_i hnode
      rw [Option.some.injEq] at h
      exact ⟨hnode.1,h ▸ hnode.2,h⟩
    · cases h
  · rintro ⟨hkind,hvalid,rfl⟩
    exact if_pos ⟨hkind,hvalid⟩

theorem canonicalApparatusIdentity_of_group
    (hkind : node.kind=.apparatus) (hgroup : trim node.alternativeGroupId ≠ "")
    (hvalid : ApparatusId.isValid (trim node.apparatusId)=true) :
    canonicalApparatusIdentity node=some (trim node.apparatusId) := by
  have hstation : stationIdentity node=trim node.apparatusId := by
    simp [stationIdentity,hkind,isBlank,hgroup]
  exact canonicalApparatusIdentity_eq_some.mpr ⟨hkind,hvalid,hstation⟩

/-- A stage belongs to a node: it has the node's identity and its canonical apparatus, which
every apparatus node that has a stage has. -/
structure StageOf (map : ProductionMapDefinition) (node : ProductionMapNode)
    (stage : ChainStage) : Prop where
  mem : node∈map.nodes
  nodeId : stage.nodeId=node.id
  apparatusId : stage.apparatusId=canonicalApparatusIdentity node
  physical : node.kind=.apparatus → (canonicalApparatusIdentity node).isSome=true

theorem exists_stageOf_of_mem_stagesForNode {stage : ChainStage} (hnode : node∈map.nodes)
    (h : stage∈stagesForNode map node) : ∃ member, StageOf map member stage := by
  unfold stagesForNode at h
  split at h
  · cases h
  · rename_i hcanonical
    split at h
    · rw [mem_singleton] at h
      subst h
      refine ⟨node,hnode,rfl,rfl,fun hkind => ?_⟩
      rw [Option.isSome_iff_ne_none]
      exact fun hnone => hcanonical ⟨hkind,hnone⟩
    · rename_i halternative
      obtain ⟨member,hmember,rfl⟩ := mem_map.mp h
      obtain ⟨hmem,hcandidate⟩ := mem_filter.mp hmember
      simp only [Bool.and_eq_true,beq_iff_eq] at hcandidate
      obtain ⟨⟨hkind,hgroup⟩,hvalid⟩ := hcandidate
      have hnode : node.kind=.apparatus ∧ trim node.alternativeGroupId ≠ "" := by
        simpa [isUnassignedAlternativeApparatus,isBlank] using halternative
      have hnonblank : trim member.alternativeGroupId ≠ "" := hgroup ▸ hnode.2
      have hmember := canonicalApparatusIdentity_of_group hkind hnonblank hvalid
      exact ⟨member,hmem,rfl,hmember.symm,fun _ => by rw [hmember]; rfl⟩

/-- What the scan keeps true of the stages it has met. -/
structure StagesSound (map : ProductionMapDefinition) (stages : List ChainStage) : Prop where
  stageOf : ∀ stage∈stages, ∃ node, StageOf map node stage
  distinct : (stages.map ChainStage.occurrenceIdentity).Nodup

theorem StagesSound.pushStage {stages : List ChainStage}
    {stage : ChainStage} (h : StagesSound map stages) (hstage : ∃ node, StageOf map node stage) :
    StagesSound map (pushStage stages stage) := by
  unfold Chain.pushStage
  split
  · exact h
  · rename_i hnew
    constructor
    · intro s hs
      rcases mem_append.mp hs with hs | hs
      · exact h.stageOf s hs
      · rw [mem_singleton.mp hs]
        exact hstage
    · rw [map_append,map_singleton]
      refine h.distinct.append (nodup_singleton _) ?_
      simpa [disjoint_singleton] using hnew

theorem StagesSound.foldl_pushStage {found : List ChainStage}
    (hfound : ∀ stage∈found, ∃ node, StageOf map node stage) {stages : List ChainStage}
    (h : StagesSound map stages) : StagesSound map (found.foldl Chain.pushStage stages) := by
  induction found generalizing stages with
  | nil => exact h
  | cons stage rest ih =>
    refine ih (fun s hs => hfound s (mem_cons_of_mem stage hs)) ?_
    exact h.pushStage (hfound stage mem_cons_self)

theorem lastNodeById_mem {id : String} (h : lastNodeById map id=some node) : node∈map.nodes := by
  exact mem_reverse.mp (mem_of_find?_eq_some h)

theorem StagesSound.scanNode {scan : StageScan} (h : StagesSound map scan.stages)
    (nodeId : String) : StagesSound map (scanNode map scan nodeId).stages := by
  unfold Chain.scanNode
  split
  · exact h
  · rename_i node hnode
    split
    · exact StagesSound.foldl_pushStage (fun stage hstage =>
        exists_stageOf_of_mem_stagesForNode (lastNodeById_mem hnode) hstage) h
    · exact h

theorem linearWorkStages_sound (map : ProductionMapDefinition) :
    StagesSound map (linearWorkStages map) := by
  refine List.foldlRecOn (motive := fun scan : StageScan => StagesSound map scan.stages) _ _ ?_ ?_
  · exact ⟨fun stage h => absurd h not_mem_nil,nodup_nil⟩
  · exact fun scan h nodeId _ => h.scanNode nodeId

end MiniErp.Chain
