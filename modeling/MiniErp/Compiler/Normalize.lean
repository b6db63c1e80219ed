import MiniErp.Catalog.Definition

/-! Normal form of a map before it is validated and stored: trimmed texts, lower-case
identities, branches in one spelling and unusable numbers dropped. -/
namespace MiniErp.Compiler
open Text

def normalizeBranch (branch : String) : String :=
  let branch := trim branch
  if branch == "1" || eqIgnoreAsciiCase branch "ha" || eqIgnoreAsciiCase branch "yes" ||
      eqIgnoreAsciiCase branch "true" then
    "true"
  else if branch == "0" || eqIgnoreAsciiCase branch "yo'q" || eqIgnoreAsciiCase branch "yoq" ||
      eqIgnoreAsciiCase branch "no" || eqIgnoreAsciiCase branch "false" then
    "false"
  else
    toAsciiLowercase branch

def normalizeId (id : String) : String := toAsciiLowercase (trim id)

def normalizeNode (node : ProductionMapNode) : ProductionMapNode :=
  { node with
    id := normalizeId node.id
    title := trim node.title
    apparatusId := trim node.apparatusId
    roleCode := trim node.roleCode
    itemCode := trim node.itemCode
    qtyFormula := trim node.qtyFormula
    fromLocation := trim node.fromLocation
    toLocation := trim node.toLocation
    alternativeGroupId := trim node.alternativeGroupId
    alternativeGroupLabel := trim node.alternativeGroupLabel
    alternativeAssignedTitle := trim node.alternativeAssignedTitle
    alternativeAssignedApparatusId := trim node.alternativeAssignedApparatusId
    x := if node.x.isFinite then node.x else F64.zero
    y := if node.y.isFinite then node.y else F64.zero
    formula := node.formula.map fun formula =>
      { target := trim formula.target, expression := trim formula.expression } }

def normalizeEdge (edge : ProductionMapEdge) : ProductionMapEdge :=
  { fromId := normalizeId edge.fromId
    toId := normalizeId edge.toId
    branch := normalizeBranch edge.branch }

def normalizeMap (map : ProductionMapDefinition) : ProductionMapDefinition :=
  { map with
    id := normalizeId map.id
    productCode := trim map.productCode
    title := trim map.title
    code := trim map.code
    orderNumber := trim map.orderNumber
    rollCount := map.rollCount.filter fun value => decide (0<value)
    widthMm := map.widthMm.filter fun value => value.isFinite && !value.isNonpositive
    nodes := map.nodes.map normalizeNode
    edges := map.edges.map normalizeEdge }

example : normalizeBranch " Yo'q " = "false" := by decide +kernel

end MiniErp.Compiler
