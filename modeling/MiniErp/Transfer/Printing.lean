import MiniErp.Catalog.Move

/-! The machine that takes over unfinished printing: another candidate of the same stage is
selected, and drawn beside the old one when the map does not have it yet. Every producer keeps its
node. -/
namespace MiniErp.Transfer
open Text Run Chain Compiler

section Select
variable (map : ProductionMapDefinition) (session : OrderRunSession) (source target : ApparatusId)
  (display : String)

def transferCandidates : List ChainStage :=
  (linearWorkStages map).filter fun stage =>
    stage.apparatusId == some source.value && (isBlank session.stageNodeId ||
        stageNodeIdsMatchForMap map stage.nodeId session.stageNodeId)

def transferSource : Except ProductionMapError (Nat × ProductionMapNode) :=
  match transferCandidates map session source with
  | [stage] =>
    match map.nodes.findIdx? fun node => node.id == stage.nodeId with
    | none => .error .moveNotAllowed
    | some index => (required map.nodes[index]? .moveNotAllowed).map fun node => (index, node)
  | _ => .error .moveNotAllowed

/-- The group of the candidates: a new one, unless the source already has one that no other
machine is assigned to. -/
def transferGroup (node : ProductionMapNode) : Except ProductionMapError String :=
  let existing := trim node.alternativeGroupId
  if existing = "" then
    .ok (firstFreeName "_" (map.nodes.map (·.alternativeGroupId)) ("print_transfer_" ++ node.id))
  else if map.nodes.any fun other =>
      other.alternativeGroupId == existing && !isBlank other.alternativeAssignedApparatusId &&
        trim other.alternativeAssignedApparatusId != source.value then
    .error .moveNotAllowed
  else .ok existing

/-- The edges of the source, drawn for another node. -/
def redrawnEdge (sourceId id : String) (edge : ProductionMapEdge) : Option ProductionMapEdge :=
  if edge.fromId=sourceId then some { edge with fromId := id }
  else if edge.toId=sourceId then some { edge with toId := id }
  else none

/-- Groups that a failover made may grow; those drawn by a user restrict the machines. -/
def mayGrow (node : ProductionMapNode) : Bool :=
  let existing := trim node.alternativeGroupId
  existing == "" || "print_transfer_".toList.isPrefixOf existing.toList

/-- The map with a candidate for the target, and the node of that candidate. -/
def withTarget (node : ProductionMapNode) (group : String) :
    Except ProductionMapError (ProductionMapDefinition × String) :=
  match map.nodes.find? fun other => other.kind == .apparatus &&
      other.alternativeGroupId == group && trim other.apparatusId == target.value with
  | some other => .ok (map, other.id)
  | none => do
    ensure (mayGrow node) .moveNotAllowed
    let id := firstFreeName "_" (map.nodes.map (·.id)) (node.id ++ "_transfer")
    let drawn : ProductionMapNode :=
      { node with
        id
        apparatusId := target.value
        title := display
        alternativeGroupId := group
        x := node.x.add (F64.ofInt 180) }
    return ({ map with
      nodes := map.nodes++[drawn]
      edges := map.edges++map.edges.filterMap (redrawnEdge node.id id) }, id)

def assignTarget (group : String) (node : ProductionMapNode) : ProductionMapNode :=
  if node.alternativeGroupId=group then
    { node with
      alternativeAssignedApparatusId := target.value
      alternativeAssignedTitle := display }
  else node

def selectTarget (rules : CompilerRules) :
    Except ProductionMapError (ProductionMapDefinition × String) := do
  let (index, node) ← transferSource map session source
  let group ← transferGroup map source node
  let (drawn, targetId) ← withTarget map target display node group
  let grouped := drawn.nodes.modify index fun node => { node with alternativeGroupId := group }
  let selected := { drawn with nodes := grouped.map (assignTarget target display group) }
  let _ ← compileMap rules selected
  return (selected, targetId)

end Select

end MiniErp.Transfer
