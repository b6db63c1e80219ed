import MiniErp.Compiler.Validation
import MiniErp.Lib.ToposortTotal

/-! The compiler of a map: validation, a topological order of the nodes and one operation for
each node. -/
namespace MiniErp.Compiler
open Run

structure ProductionMapOperation where
  order : Nat
  nodeId : String
  opCode : String
  args : Std.TreeMap String String

structure ProductionMapProgram where
  mapId : String
  productCode : String
  operations : List ProductionMapOperation

section
variable (map : ProductionMapDefinition)

def drawnEdges : List (String × String) := map.edges.map fun edge => (edge.fromId, edge.toId)

/-- The queue starts with the nodes without incoming edges in the order of their identities. -/
def topologicalOrder : Except ProductionMapError (List String) :=
  match Toposort.sort (map.nodes.map (·.id)) (drawnEdges map) with
  | some order => .ok order
  | none => .error .cycle

/-- The arguments every kind of node has; empty texts are left out. -/
def commonArgs (rules : CompilerRules) (node : ProductionMapNode) : Std.TreeMap String String :=
  let texts : List (String × String) :=
    [("role_code", node.roleCode),("item_code", node.itemCode),
      ("qty_formula", node.qtyFormula),("from_location", node.fromLocation),
      ("to_location", node.toLocation),("alternative_group_id", node.alternativeGroupId),
      ("alternative_group_label", node.alternativeGroupLabel),
      ("alternative_assigned_title", node.alternativeAssignedTitle),
      ("alternative_assigned_apparatus_id", node.alternativeAssignedApparatusId)]
  let fields :=
    [("title", node.title)] ++
      (if node.kind=.apparatus then [("apparatus_id", node.apparatusId)] else []) ++
      texts.filter (fun field => field.2 != "") ++
      (node.rezkaKadrCount.toList.map fun value => ("rezka_kadr_count", toString value)) ++
      (node.rezkaLabelLength.toList.map fun value => ("rezka_label_length", rules.numberText value))
  fields.foldl (fun args field => args.insert field.1 field.2) ∅

def opCode : ProductionMapNodeKind → String
  | .start => "start"
  | .location => "warehouse_location"
  | .material => "require_material"
  | .apparatus => "apparatus"
  | .kkProduct => "kk_product"
  | .formula => "calculate"
  | .condition => "condition"
  | .task => "create_task"
  | .wait => "wait_dependency"
  | .output => "produce_output"
  | .endNode => "end"

def compileNode (rules : CompilerRules) (order : Nat) (node : ProductionMapNode) :
    Except ProductionMapError ProductionMapOperation := do
  let args := commonArgs rules node
  let args ←
    match node.kind, node.formula with
    | .formula, some formula =>
      .ok ((args.insert "target" formula.target).insert "expression" formula.expression)
    | .condition, some formula => .ok (args.insert "expression" formula.expression)
    | .formula, none | .condition, none => .error .missingFormulaExpression
    | _, _ => .ok args
  return { order, nodeId := node.id, opCode := opCode node.kind, args }

/-- The nodes in the order of their operations; every identity of the order is that of a node. -/
def orderedNodes (order : List String) : List (Nat × ProductionMapNode) :=
  order.zipIdx.filterMap fun entry => (map.nodeById entry.1).map fun node => (entry.2+1, node)

def compileMap (rules : CompilerRules) (map : ProductionMapDefinition) :
    Except ProductionMapError ProductionMapProgram := do
  validateMap rules map
  let order ← topologicalOrder map
  let operations ← (orderedNodes map order).mapM fun entry => compileNode rules entry.1 entry.2
  return { mapId := map.id, productCode := map.productCode, operations }

def Drawn (a b : String) : Prop := ∃ edge∈map.edges, edge.fromId=a ∧ edge.toId=b

end

variable {map : ProductionMapDefinition}

theorem mem_drawnEdges {a b : String} : (a, b)∈drawnEdges map ↔ Drawn map a b := by
  simp only [drawnEdges,Drawn,List.mem_map,Prod.mk.injEq]

theorem topologicalOrder_eq_ok {order : List String} : topologicalOrder map=.ok order ↔
      Toposort.sort (map.nodes.map (·.id)) (drawnEdges map)=some order := by
  unfold topologicalOrder
  split
  · rename_i found hfound
    rw [hfound,Except.ok.injEq,Option.some.injEq]
  · rename_i hnone
    simp [hnone]

theorem Validated.closed (h : Validated map) :
    Toposort.Closed (map.nodes.map (·.id)) (drawnEdges map) := by
  rintro ⟨a,b⟩ hedge
  obtain ⟨edge,hmem,rfl,rfl⟩ := mem_drawnEdges.mp hedge
  exact h.edges edge hmem

/-- A validated map with a topological order has no cycle of edges. -/
theorem acyclic_of_topologicalOrder {order : List String}
    (hvalid : Validated map) (h : topologicalOrder map=.ok order) (id : String) :
    ¬Relation.TransGen (Drawn map) id id := by
  have htargets : ∀ edge∈drawnEdges map, edge.2∈map.nodes.map (·.id) :=
    fun edge hedge => (hvalid.closed edge hedge).2
  obtain ⟨hperm,hforward⟩ := Toposort.sort_eq_some htargets (topologicalOrder_eq_ok.mp h)
  have hacyclic := hforward.acyclic (fun edge hedge => hperm.mem_iff.mpr (htargets edge hedge)) id
  simpa only [mem_drawnEdges] using hacyclic

/-- A map the compiler accepts is validated and has no cycle of edges. -/
structure Accepted (map : ProductionMapDefinition) : Prop extends Validated map where
  acyclic : ∀ id, ¬Relation.TransGen (Drawn map) id id

theorem accepted_of_compileMap {rules : CompilerRules}
    {program : ProductionMapProgram} (h : compileMap rules map=.ok program) : Accepted map := by
  rw [compileMap,bind_eq_ok] at h
  obtain ⟨_,hvalid,h⟩ := h
  rw [bind_eq_ok] at h
  obtain ⟨order,horder,_⟩ := h
  have hvalidated := validated_of_validateMap hvalid
  exact ⟨hvalidated,acyclic_of_topologicalOrder hvalidated horder⟩

end MiniErp.Compiler
