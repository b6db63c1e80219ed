import MiniErp.Compiler.Compile

/-! When the compiler accepts a map, and the operations it then has: one for each node, the source
of every edge before its target. -/
namespace MiniErp.Compiler
open Run Relation List
variable {rules : CompilerRules} {map : ProductionMapDefinition}

/-- The order as the source computes it: its tables are looked up key by key, and there is no
result where a lookup that is expected to succeed fails. -/
def topologicalOrderLookup (map : ProductionMapDefinition) :
    Option (Except ProductionMapError (List String)) :=
  (Toposort.Lookup.sort (map.nodes.map (·.id)) (drawnEdges map)).map fun order =>
    match order with
    | some order => .ok order
    | none => .error .cycle

theorem topologicalOrderLookup_eq (h : Validated map) :
    topologicalOrderLookup map=some (topologicalOrder map) := by
  rw [topologicalOrderLookup,Toposort.Lookup.sort_eq h.closed]
  rfl

theorem topologicalOrder_of_acyclic (h : Validated map)
    (hacyclic : ∀ id, ¬TransGen (Drawn map) id id) : ∃ order, topologicalOrder map=.ok order := by
  have hcycle : ∀ id, ¬TransGen (fun a b => (a, b)∈drawnEdges map) id id := by
    simpa only [mem_drawnEdges] using hacyclic
  obtain ⟨order,horder⟩ := Toposort.sort_of_acyclic h.distinct h.closed hcycle
  exact ⟨order,topologicalOrder_eq_ok.mpr horder⟩

theorem compileNode_of_validateNodeKind {node : ProductionMapNode}
    (h : validateNodeKind rules map node=.ok ()) (order : Nat) :
    ∃ operation, compileNode rules order node=.ok operation := by
  unfold compileNode
  split
  · exact ⟨_,rfl⟩
  · exact ⟨_,rfl⟩
  · rename_i hkind hformula
    simp [validateNodeKind,hkind,hformula] at h
  · rename_i hkind hformula
    simp [validateNodeKind,hkind,hformula] at h
  · exact ⟨_,rfl⟩

theorem compileNode_eq_ok {order : Nat} {node : ProductionMapNode}
    {operation : ProductionMapOperation} (h : compileNode rules order node=.ok operation) :
    operation.order=order ∧ operation.nodeId=node.id ∧ operation.opCode=opCode node.kind := by
  unfold compileNode at h
  split at h <;> cases h <;> exact ⟨rfl,rfl,rfl⟩

theorem map_orderedNodes {order : List String} (h : ∀ id∈order, id∈map.nodes.map (·.id)) :
    (orderedNodes map order).map (fun entry => (entry.1, entry.2.id)) =
      order.zipIdx.map fun entry => (entry.2+1, entry.1) := by
  rw [orderedNodes,map_filterMap,← filterMap_eq_map]
  refine filterMap_congr fun entry hentry => ?_
  obtain ⟨node,hnode,hid⟩ := mem_map.mp (h entry.1 (fst_mem_of_mem_zipIdx hentry))
  cases hfind : map.nodeById entry.1 with
  | none =>
    have hnone := find?_eq_none.mp hfind node hnode
    simp [hid] at hnone
  | some found => simp [(nodeById_eq_some hfind).2]

theorem compileMap_eq_ok {program : ProductionMapProgram} : compileMap rules map=.ok program ↔
    validateMap rules map=.ok () ∧ ∃ order, topologicalOrder map=.ok order ∧ ∃ operations,
    ((orderedNodes map order).mapM fun entry => compileNode rules entry.1 entry.2) =
    .ok operations ∧ { mapId := map.id, productCode := map.productCode, operations }=program := by
  rw [compileMap]
  simp only [bind_eq_ok,pure,Except.pure,Except.ok.injEq]
  constructor
  · rintro ⟨_,hvalid,hrest⟩
    exact ⟨hvalid,hrest⟩
  · rintro ⟨hvalid,hrest⟩
    exact ⟨(),hvalid,hrest⟩

theorem operations_of_compileMap {program : ProductionMapProgram}
    (h : compileMap rules map=.ok program) : ∃ order, topologicalOrder map=.ok order ∧
      program.operations.map (fun operation => (operation.order, operation.nodeId)) =
        order.zipIdx.map fun entry => (entry.2+1, entry.1) := by
  obtain ⟨hvalid,order,horder,operations,hoperations,rfl⟩ := compileMap_eq_ok.mp h
  have hvalidated := validated_of_validateMap hvalid
  have hperm := (Toposort.sort_eq_some (fun edge hedge => (hvalidated.closed edge hedge).2)
    (topologicalOrder_eq_ok.mp horder)).1
  refine ⟨order,horder,?_⟩
  rw [← map_orderedNodes fun id hid => hperm.mem_iff.mp hid]
  refine map_mapM (fun entry operation hoperation => ?_) hoperations
  obtain ⟨hnumber,hid,_⟩ := compileNode_eq_ok hoperation
  rw [hnumber,hid]

theorem compileMap_of_acyclic (hvalid : validateMap rules map=.ok ())
    (hacyclic : ∀ id, ¬TransGen (Drawn map) id id) :
    ∃ program, compileMap rules map=.ok program := by
  obtain ⟨order,horder⟩ := topologicalOrder_of_acyclic (validated_of_validateMap hvalid) hacyclic
  obtain ⟨_,_,hkinds⟩ := validateNodes_eq_ok (validateMap_eq_ok hvalid).1
  have hcompiled : ∀ entry∈orderedNodes map order,
      ∃ operation, compileNode rules entry.1 entry.2=.ok operation := by
    intro entry hentry
    obtain ⟨numbered,_,hfound⟩ := mem_filterMap.mp hentry
    obtain ⟨node,hnode,rfl⟩ := Option.map_eq_some_iff.mp hfound
    exact compileNode_of_validateNodeKind (hkinds node (nodeById_eq_some hnode).1) _
  obtain ⟨operations,hoperations⟩ := exists_mapM_eq_ok hcompiled
  exact ⟨_,compileMap_eq_ok.mpr ⟨hvalid,order,horder,operations,hoperations,rfl⟩⟩

/-- The compiler accepts exactly the validated maps whose edges have no cycle. Its operations then
list every node once with the source of every edge before its target, and no lookup of the
topological order fails. -/
theorem compileMap_correct (rules : CompilerRules) (map : ProductionMapDefinition) :
    ((∃ program, compileMap rules map=.ok program) ↔
      validateMap rules map=.ok () ∧ ∀ id, ¬TransGen (Drawn map) id id) ∧
    (∀ program, compileMap rules map=.ok program →
      let ids := program.operations.map (·.nodeId)
      ids.Nodup ∧ ids.Perm (map.nodes.map (·.id)) ∧
        ∀ edge∈map.edges, ids.idxOf edge.fromId < ids.idxOf edge.toId) ∧
    (validateMap rules map=.ok () → topologicalOrderLookup map=some (topologicalOrder map)) := by
  refine ⟨⟨?_,fun h => compileMap_of_acyclic h.1 h.2⟩,?_,?_⟩
  · rintro ⟨program,hprogram⟩
    exact ⟨(compileMap_eq_ok.mp hprogram).1,(accepted_of_compileMap hprogram).acyclic⟩
  · intro program hprogram
    have hvalidated := (accepted_of_compileMap hprogram).toValidated
    obtain ⟨order,horder,hoperations⟩ := operations_of_compileMap hprogram
    have hids : program.operations.map (·.nodeId)=order := by
      have hsnd := congrArg (List.map Prod.snd) hoperations
      simpa [Function.comp_def] using hsnd
    obtain ⟨hperm,hforward⟩ := Toposort.sort_eq_some
      (fun edge hedge => (hvalidated.closed edge hedge).2) (topologicalOrder_eq_ok.mp horder)
    simp only [hids]
    refine ⟨hperm.nodup_iff.mpr hvalidated.distinct,hperm,fun edge hedge => ?_⟩
    have hdrawn : (edge.fromId, edge.toId)∈drawnEdges map := mem_drawnEdges.mpr ⟨edge,hedge,rfl,rfl⟩
    exact (hforward _ hdrawn (hperm.mem_iff.mpr (hvalidated.edges edge hedge).2)).2
  · exact fun h => topologicalOrderLookup_eq (validated_of_validateMap h)

section Sample

def anyFormula : CompilerRules := ⟨Char.isAlphanum,fun _ => .ok (),fun _ => .ok (),fun _ => ""⟩

def drawnTwice : ProductionMapDefinition :=
  { id := "map-1", productCode := "bag", title := "Bag",
    nodes := [{ id := "last", kind := .endNode, title := "" },
      { id := "first", kind := .start, title := "" }],
    edges := [⟨"first","last",""⟩,⟨"first","last",""⟩] }

theorem compileMap_correct_drawnTwice :
    topologicalOrderLookup drawnTwice=some (topologicalOrder drawnTwice) ∧
    ∃ program, compileMap anyFormula drawnTwice=.ok program ∧
      (program.operations.map (·.nodeId)).idxOf "first" <
        (program.operations.map (·.nodeId)).idxOf "last" := by
  have hvalid : validateMap anyFormula drawnTwice=.ok () := by decide +kernel
  have hcompiled : (compileMap anyFormula drawnTwice).toOption.isSome=true := by decide +kernel
  obtain ⟨program,hprogram⟩ := Option.isSome_iff_exists.mp hcompiled
  have hok := toOption_eq_some.mp hprogram
  have h := compileMap_correct anyFormula drawnTwice
  refine ⟨h.2.2 hvalid,program,hok,?_⟩
  exact (h.2.1 program hok).2.2 ⟨"first","last",""⟩ List.mem_cons_self

end Sample

end MiniErp.Compiler
