import MiniErp.Compiler.Complete
import MiniErp.Compiler.Condition

/-! The runner of a map: a walk from the start node along the first edge, or the edge of the
branch a condition takes, that evaluates formulas and drafts a task for each node of work. On a
compiled map the walk meets no node twice. -/
namespace MiniErp.Compiler
open Text Run Relation List Option

structure ProductionTaskDraft where
  order : Nat
  nodeId : String
  taskKind : String
  title : String
  roleCode : String
  itemCode : String
  fromLocation : String
  toLocation : String
  qty : F64
  deriving DecidableEq

structure ProductionMapRunResult where
  mapId : String
  productCode : String
  orderQty : F64
  values : Variables
  tasks : List ProductionTaskDraft
  visitedNodeIds : List String
  awaitingNodeId : String := ""
  awaitingVariable : String := ""
  awaitingExpression : String := ""

def inputVariables (orderQty : F64) (values : Variables) : Variables :=
  values.insert "order_qty" orderQty

section
variable (node : ProductionMapNode)

def checkQty (qty : F64) : Except ProductionMapError F64 :=
  if qty.isFinite && F64.zero.lt qty then .ok qty else .error (.invalidNodeQty node.id)

def nodeQty (orderQty : F64) (values : Variables) : Except ProductionMapError F64 :=
  if isBlank node.qtyFormula then checkQty node orderQty
  else evaluateFormula node.qtyFormula values >>= checkQty node

def isWork : ProductionMapNodeKind → Bool
  | .material | .apparatus | .kkProduct | .task | .wait | .output => true
  | _ => false

def taskDraft (rules : CompilerRules) (orderQty : F64) (node : ProductionMapNode)
    (values : Variables) (order : Nat) : Except ProductionMapError ProductionTaskDraft := do
  let qty ← nodeQty node orderQty values
  let operation ← compileNode rules order node
  return {
    order, nodeId := node.id, taskKind := operation.opCode, title := node.title
    roleCode := node.roleCode, itemCode := node.itemCode
    fromLocation := node.fromLocation, toLocation := node.toLocation, qty }

/-- What the execution of a node leaves, or the variable it waits for. -/
inductive Executed where
  | passed (values : Variables) (tasks : List ProductionTaskDraft)
  | awaiting (variableName expression : String)

def truth (result : Bool) : F64 := if result then F64.ofInt 1 else F64.zero

def executeFormula (values : Variables)
    (tasks : List ProductionTaskDraft) : Except ProductionMapError Executed :=
  match node.formula with
  | none => .error .missingFormulaExpression
  | some formula =>
    (evaluateFormula formula.expression values).map fun value =>
      .passed (values.insert formula.target value) tasks

def decideCondition (expression : String) (values : Variables)
    (tasks : List ProductionTaskDraft) :
    Except ProductionMapError Bool → Except ProductionMapError Executed
  | .ok result => .ok (.passed (values.insert node.id (truth result)) tasks)
  | .error (.unknownFormulaVariable name) => .ok (.awaiting name expression)
  | .error error => .error error

def executeCondition (values : Variables)
    (tasks : List ProductionTaskDraft) : Option (Except ProductionMapError Executed) :=
  match node.formula with
  | none => some (.error .missingFormulaExpression)
  | some formula =>
    (evaluateCondition formula.expression values).map
      (decideCondition node formula.expression values tasks)

end

section
variable (rules : CompilerRules) (orderQty : F64) (node : ProductionMapNode) (values : Variables)
  (tasks : List ProductionTaskDraft)

def executeWork : Except ProductionMapError Executed :=
  (taskDraft rules orderQty node values (tasks.length+1)).map fun task =>
    .passed values (tasks++[task])

def executeNode : Option (Except ProductionMapError Executed) :=
  match node.kind with
  | .formula => some (executeFormula node values tasks)
  | .condition => executeCondition node values tasks
  | .start | .endNode | .location => some (.ok (.passed values tasks))
  | .material | .apparatus | .kkProduct | .task | .wait | .output =>
    some (executeWork rules orderQty node values tasks)

end

def outgoingEdges (map : ProductionMapDefinition) (id : String) : List ProductionMapEdge :=
  map.edges.filter fun edge => edge.fromId == id

def branchText (result : Bool) : String := if result then "true" else "false"

def nextEdge (map : ProductionMapDefinition) (node : ProductionMapNode) (values : Variables) :
    Except ProductionMapError (Option ProductionMapEdge) :=
  if node.kind=.condition then
    let branch := branchText (!(values.getD node.id F64.zero).eq F64.zero)
    match (outgoingEdges map node.id).find? fun edge => normalizeBranch edge.branch == branch with
    | some edge => .ok (some edge)
    | none => .error .missingConditionBranch
  else .ok (outgoingEdges map node.id).head?

/-- The state of the loop; the set of visited nodes has the same members as the list. -/
structure Walk where
  current : String
  values : Variables
  tasks : List ProductionTaskDraft
  visited : List String

def Walk.result (w : Walk) (map : ProductionMapDefinition) (orderQty : F64) :
    ProductionMapRunResult :=
  { mapId := map.id, productCode := map.productCode, orderQty, values := w.values,
    tasks := w.tasks, visitedNodeIds := w.visited }

inductive Advance where
  | moved (w : Walk)
  | stopped (result : ProductionMapRunResult)

section
variable (map : ProductionMapDefinition) (orderQty : F64) (w : Walk)

def followEdge : Option ProductionMapEdge → Advance
  | some edge => .moved { w with current := edge.toId }
  | none => .stopped (w.result map orderQty)

def leaveNode (node : ProductionMapNode) : Executed → Except ProductionMapError Advance
  | .awaiting name expression =>
    .ok (.stopped { w.result map orderQty with
      awaitingNodeId := node.id, awaitingVariable := name, awaitingExpression := expression })
  | .passed values tasks =>
    (nextEdge map node values).map (followEdge map orderQty { w with values, tasks })

end

section
variable (rules : CompilerRules) (map : ProductionMapDefinition) (orderQty : F64) (w : Walk)

def visitNode (node : ProductionMapNode) : Option (Except ProductionMapError Advance) :=
  let here := { w with visited := w.visited++[node.id] }
  if node.kind=.endNode then some (.ok (.stopped (here.result map orderQty)))
  else
    (executeNode rules orderQty node w.values w.tasks).map fun executed =>
      executed >>= leaveNode map orderQty here node

/-- One round of the loop. A node that is not known fails the lookup the code expects to
succeed. -/
def step : Option (Except ProductionMapError Advance) :=
  if w.visited.contains w.current then some (.ok (.stopped (w.result map orderQty)))
  else
    match map.nodeById w.current with
    | some node => visitNode rules map orderQty w node
    | none => none

end

/-- The loop; it has no result when the fuel ends first. -/
def walk (rules : CompilerRules) (map : ProductionMapDefinition) (orderQty : F64) :
    Nat → Walk → Option (Except ProductionMapError ProductionMapRunResult)
  | 0, _ => none
  | fuel+1, w =>
    match step rules map orderQty w with
    | none => none
    | some (.error error) => some (.error error)
    | some (.ok (.stopped result)) => some (.ok result)
    | some (.ok (.moved next)) => walk rules map orderQty fuel next

def startWalk (start : ProductionMapNode) (orderQty : F64) (values : Variables) : Walk :=
  { current := start.id, values := inputVariables orderQty values, tasks := [], visited := [] }

def runMapWithVariables (rules : CompilerRules) (map : ProductionMapDefinition) (orderQty : F64)
    (values : Variables) : Option (Except ProductionMapError ProductionMapRunResult) :=
  if orderQty.isNonpositive then some (.error .invalidOrderQty)
  else
    match compileMap (formulaRules rules) map with
    | .error error => some (.error error)
    | .ok _ =>
      match map.nodes.find? fun node => node.kind == .start with
      | none => some (.error .missingStart)
      | some start => walk rules map orderQty (map.nodes.length+1) (startWalk start orderQty values)

/-! What a run has done, as the list of its visits. -/

structure Visit where
  node : ProductionMapNode
  values : Variables

def settle (node : ProductionMapNode) (values : Variables) : Variables :=
  match node.kind, node.formula with
  | .formula, some formula =>
    match evaluateFormula formula.expression values with
    | .ok value => values.insert formula.target value
    | .error _ => values
  | .condition, some formula =>
    match evaluateCondition formula.expression values with
    | some (.ok result) => values.insert node.id (truth result)
    | _ => values
  | _, _ => values

/-- One visit follows another along an edge, which at a condition is of the branch just computed. -/
structure Joined (map : ProductionMapDefinition) (visit next : Visit) : Prop where
  edge : ∃ edge∈map.edges, edge.fromId=visit.node.id ∧ edge.toId=next.node.id ∧
    (visit.node.kind=.condition → ∃ formula result, visit.node.formula=some formula ∧
      evaluateCondition formula.expression visit.values=some (.ok result) ∧
      normalizeBranch edge.branch=branchText result)
  values : next.values=settle visit.node visit.values

def drafts (rules : CompilerRules) (orderQty : F64) (trace : List Visit) :
    List (Except ProductionMapError ProductionTaskDraft) :=
  (trace.filter fun visit => isWork visit.node.kind).zipIdx.map fun entry =>
    taskDraft rules orderQty entry.1.node entry.1.values (entry.2+1)

/-- Why a run stopped at its last visit. -/
inductive StoppedAt (map : ProductionMapDefinition) (r : ProductionMapRunResult) (last : Visit) :
    Prop where
  | ended (hkind : last.node.kind=.endNode) (hnone : r.awaitingNodeId = "")
  | noEdge (hkind : last.node.kind ≠ .condition)
      (hedges : ∀ edge∈map.edges, edge.fromId≠last.node.id) (hnone : r.awaitingNodeId = "")
  | awaiting (formula : ProductionFormula) (hkind : last.node.kind=.condition)
      (hformula : last.node.formula=some formula) (hid : r.awaitingNodeId=last.node.id)
      (hexpression : r.awaitingExpression=formula.expression)
      (hunknown : evaluateCondition formula.expression last.values =
        some (.error (.unknownFormulaVariable r.awaitingVariable)))

structure Route (rules : CompilerRules) (map : ProductionMapDefinition) (orderQty : F64)
    (values : Variables) (r : ProductionMapRunResult) (trace : List Visit) : Prop where
  visited : r.visitedNodeIds=trace.map (·.node.id)
  distinct : r.visitedNodeIds.Nodup
  known : ∀ visit∈trace, visit.node∈map.nodes
  start : ∃ start∈map.nodes, start.kind=.start ∧
    trace.head?=some ⟨start,inputVariables orderQty values⟩
  joined : trace.IsChain (Joined map)
  tasks : r.tasks.map .ok=drafts rules orderQty trace
  stopped : ∃ last, trace.getLast?=some last ∧ StoppedAt map r last ∧
    r.values=settle last.node last.values

section Step
variable {rules : CompilerRules} {map : ProductionMapDefinition} {orderQty : F64}
  {values : Variables}

theorem mem_outgoingEdges {id : String} {edge : ProductionMapEdge} :
    edge∈outgoingEdges map id ↔ edge∈map.edges ∧ edge.fromId=id := by
  simp only [outgoingEdges,mem_filter,beq_iff_eq]

variable {node : ProductionMapNode} {newTasks tasks : List ProductionTaskDraft}
  {newValues : Variables}

theorem nextEdge_some {edge : ProductionMapEdge}
    (h : nextEdge map node values=.ok (some edge)) :
    edge∈map.edges ∧ edge.fromId=node.id ∧ (node.kind=.condition → normalizeBranch edge.branch =
        branchText (!(values.getD node.id F64.zero).eq F64.zero)) := by
  unfold nextEdge at h
  split at h
  · dsimp only at h
    split at h
    · rename_i found hfound
      obtain rfl : found=edge := some.inj (Except.ok.inj h)
      have hbranch := find?_some hfound
      obtain ⟨hmem,hfrom⟩ := mem_outgoingEdges.mp (mem_of_find?_eq_some hfound)
      exact ⟨hmem,hfrom,fun _ => beq_iff_eq.mp hbranch⟩
    · cases h
  · rename_i hkind
    have hhead := mem_of_head? (Except.ok.inj h)
    obtain ⟨hmem,hfrom⟩ := mem_outgoingEdges.mp hhead
    exact ⟨hmem,hfrom,fun hcondition => absurd hcondition hkind⟩

theorem nextEdge_none (h : nextEdge map node values=.ok none) :
    node.kind ≠ .condition ∧ ∀ edge∈map.edges, edge.fromId≠node.id := by
  unfold nextEdge at h
  split at h
  · dsimp only at h
    split at h <;> cases h
  · rename_i hkind
    have hnil := head?_eq_none_iff.mp (Except.ok.inj h)
    refine ⟨hkind,fun edge hedge hfrom => ?_⟩
    have hmem := mem_outgoingEdges.mpr ⟨hedge,hfrom⟩
    rw [hnil] at hmem
    cases hmem

theorem truth_eq_zero (result : Bool) : (truth result).eq F64.zero = !result := by
  cases result <;> decide +kernel

theorem drafts_snoc (trace : List Visit) (visit : Visit) :
    drafts rules orderQty (trace++[visit]) =
      if isWork visit.node.kind then
        drafts rules orderQty trace++[taskDraft rules orderQty visit.node visit.values
            ((drafts rules orderQty trace).length+1)]
      else drafts rules orderQty trace := by
  unfold drafts
  split
  · rename_i hwork
    simp [hwork,zipIdx_append]
  · rename_i hwork
    simp [hwork]

theorem executeNode_eq (rules : CompilerRules) (orderQty : F64) (node : ProductionMapNode)
    (values : Variables) (tasks : List ProductionTaskDraft) :
    executeNode rules orderQty node values tasks =
      if node.kind=.formula then some (executeFormula node values tasks)
      else if node.kind=.condition then executeCondition node values tasks
      else if isWork node.kind then some (executeWork rules orderQty node values tasks)
      else some (.ok (.passed values tasks)) := by
  unfold executeNode
  cases node.kind <;> rfl

theorem settle_of_other (hformula : node.kind ≠ .formula)
    (hcondition : node.kind ≠ .condition) (values : Variables) : settle node values=values := by
  unfold settle
  split
  · exact absurd ‹_› hformula
  · exact absurd ‹_› hcondition
  · rfl

theorem executeFormula_passed (hkind : node.kind=.formula)
    (h : executeFormula node values tasks=.ok (.passed newValues newTasks)) :
    newValues=settle node values ∧ newTasks=tasks := by
  unfold executeFormula at h
  split at h
  · cases h
  · rename_i formula hformula
    obtain ⟨value,hvalue,heq⟩ := map_eq_ok.mp h
    cases heq
    simp only [settle,hkind,hformula,hvalue,and_self]

theorem decideCondition_passed {expression : String}
   
    {outcome : Except ProductionMapError Bool}
    (h : decideCondition node expression values tasks outcome=.ok (.passed newValues newTasks)) :
    ∃ result, outcome=.ok result ∧ newValues=values.insert node.id (truth result) ∧
      newTasks=tasks := by
  unfold decideCondition at h
  split at h
  · cases h
    exact ⟨_,rfl,rfl,rfl⟩
  · cases h
  · cases h

theorem decideCondition_awaiting {expression name text : String}
    {outcome : Except ProductionMapError Bool}
    (h : decideCondition node expression values tasks outcome=.ok (.awaiting name text)) :
    outcome=.error (.unknownFormulaVariable name) ∧ text=expression := by
  unfold decideCondition at h
  split at h
  · cases h
  · cases h
    exact ⟨rfl,rfl⟩
  · cases h

theorem executeCondition_eq_some {executed : Executed}
    (h : executeCondition node values tasks=some (.ok executed)) : ∃ formula outcome,
    node.formula=some formula ∧ evaluateCondition formula.expression values=some outcome ∧
    decideCondition node formula.expression values tasks outcome=.ok executed := by
  unfold executeCondition at h
  split at h
  · cases h
  · rename_i formula hformula
    obtain ⟨outcome,houtcome,hdecided⟩ := map_eq_some_iff.mp h
    exact ⟨formula,outcome,hformula,houtcome,hdecided⟩

/-- A node of work adds its task to the others. -/
def Drafted (rules : CompilerRules) (orderQty : F64) (node : ProductionMapNode)
    (values : Variables) (tasks newTasks : List ProductionTaskDraft) : Prop :=
  newTasks.map .ok =
    if isWork node.kind then
      tasks.map .ok++[taskDraft rules orderQty node values (tasks.length+1)]
    else tasks.map .ok

structure Passed (rules : CompilerRules) (orderQty : F64) (node : ProductionMapNode)
    (values : Variables) (tasks : List ProductionTaskDraft) (newValues : Variables)
    (newTasks : List ProductionTaskDraft) : Prop where
  settled : newValues=settle node values
  drafted : Drafted rules orderQty node values tasks newTasks
  condition : node.kind=.condition → ∃ formula result, node.formula=some formula ∧
    evaluateCondition formula.expression values=some (.ok result) ∧
    newValues.getD node.id F64.zero=truth result

theorem executeNode_passed
    (h : executeNode rules orderQty node values tasks=some (.ok (.passed newValues newTasks))) :
    Passed rules orderQty node values tasks newValues newTasks := by
  rw [executeNode_eq] at h
  split at h
  · rename_i hkind
    obtain ⟨hsettled,rfl⟩ := executeFormula_passed hkind (some.inj h)
    exact ⟨hsettled,by rw [Drafted,hkind]; rfl,by rw [hkind]; nofun⟩
  split at h
  · rename_i hkind
    obtain ⟨formula,outcome,hformula,houtcome,hdecided⟩ := executeCondition_eq_some h
    obtain ⟨result,rfl,rfl,rfl⟩ := decideCondition_passed hdecided
    refine ⟨by simp only [settle,hkind,hformula,houtcome],by rw [Drafted,hkind]; rfl,fun _ => ?_⟩
    exact ⟨formula,result,hformula,houtcome,Std.TreeMap.getD_insert_self⟩
  rename_i hformula hcondition
  have hsame := settle_of_other hformula hcondition values
  split at h
  · rename_i hwork
    obtain ⟨task,htask,heq⟩ := map_eq_ok.mp (some.inj h)
    cases heq
    refine ⟨hsame.symm,?_,fun hkind => absurd hkind hcondition⟩
    rw [Drafted,if_pos hwork,htask,map_append,map_singleton]
  · rename_i hwork
    cases h
    exact ⟨hsame.symm,(if_neg hwork).symm,fun hkind => absurd hkind hcondition⟩

theorem executeNode_awaiting {name text : String}
    (h : executeNode rules orderQty node values tasks=some (.ok (.awaiting name text))) :
    node.kind=.condition ∧ ∃ formula, node.formula=some formula ∧ text=formula.expression ∧
    evaluateCondition formula.expression values=some (.error (.unknownFormulaVariable name)) := by
  rw [executeNode_eq] at h
  split at h
  · unfold executeFormula at h
    split at h
    · cases h
    · obtain ⟨_,_,heq⟩ := map_eq_ok.mp (some.inj h)
      cases heq
  split at h
  · rename_i hkind
    obtain ⟨formula,outcome,hformula,houtcome,hdecided⟩ := executeCondition_eq_some h
    obtain ⟨rfl,rfl⟩ := decideCondition_awaiting hdecided
    exact ⟨hkind,formula,hformula,rfl,houtcome⟩
  split at h
  · obtain ⟨_,_,heq⟩ := map_eq_ok.mp (some.inj h)
    cases heq
  · cases h

/-- A node that passes its check does not panic. -/
theorem executeNode_ends (h : validateNodeKind (formulaRules rules) map node=.ok ())
    (tasks : List ProductionTaskDraft) :
    ∃ outcome, executeNode rules orderQty node values tasks=some outcome := by
  rw [executeNode_eq]
  split
  · exact ⟨_,rfl⟩
  split
  · rename_i hkind
    simp only [validateNodeKind,hkind] at h
    split at h
    · cases h
    · rename_i formula hformula
      rw [ensure_bind_eq_ok] at h
      obtain ⟨outcome,houtcome⟩ := evaluateCondition_of_validate h.2 values
      simp only [executeCondition,hformula,houtcome]
      exact ⟨_,rfl⟩
  split
  · exact ⟨_,rfl⟩
  · exact ⟨_,rfl⟩

end Step

/-! The invariant of the walk: the visits so far lead to the current node. -/

structure Walked (rules : CompilerRules) (map : ProductionMapDefinition) (orderQty : F64)
    (first : Visit) (w : Walk) (trace : List Visit) (node : ProductionMapNode) : Prop where
  found : node∈map.nodes
  current : node.id=w.current
  visited : w.visited=trace.map (·.node.id)
  distinct : w.visited.Nodup
  behind : ∀ id∈w.visited, TransGen (Drawn map) id w.current
  known : ∀ visit∈trace, visit.node∈map.nodes
  start : (trace++[Visit.mk node w.values]).head?=some first
  joined : (trace++[Visit.mk node w.values]).IsChain (Joined map)
  tasks : w.tasks.map .ok=drafts rules orderQty trace

section Walking
variable {rules : CompilerRules} {map : ProductionMapDefinition} {orderQty : F64} {first : Visit}
  {w next : Walk} {trace : List Visit} {node : ProductionMapNode}

section
variable (h : Walked rules map orderQty first w trace node)
include h

/-- The current node is new, since the edges of the map have no cycle. -/
theorem Walked.fresh (hmap : Accepted map) : node.id∉w.visited := by
  intro hmem
  have hcycle := h.behind node.id hmem
  rw [← h.current] at hcycle
  exact hmap.acyclic node.id hcycle

theorem Walked.step_eq (hmap : Accepted map) :
    step rules map orderQty w=visitNode rules map orderQty w node := by
  have hfresh : w.visited.contains w.current=false := by
    rw [← h.current]
    simpa using h.fresh hmap
  rw [step,hfresh,if_neg Bool.false_ne_true,← h.current,nodeById_of_nodup hmap.distinct h.found]

theorem Walked.drafts_here {newTasks : List ProductionTaskDraft}
    (hdrafted : Drafted rules orderQty node w.values w.tasks newTasks) :
    newTasks.map .ok=drafts rules orderQty (trace++[⟨node,w.values⟩]) := by
  have hlength : w.tasks.length=(drafts rules orderQty trace).length := by rw [← h.tasks,length_map]
  rw [Drafted] at hdrafted
  rw [hdrafted,drafts_snoc,h.tasks,hlength]

theorem Walked.distinct_here (hmap : Accepted map) : (w.visited++[node.id]).Nodup := by
  have hfresh := h.fresh hmap
  rw [← concat_eq_append]
  exact h.distinct.concat hfresh

theorem Walked.known_here : ∀ visit∈trace++[⟨node,w.values⟩], visit.node∈map.nodes := by
  intro visit hvisit
  rcases mem_append.mp hvisit with hvisit | hvisit
  · exact h.known visit hvisit
  · rw [mem_singleton.mp hvisit]
    exact h.found

end

theorem visitNode_moved (hmoved : visitNode rules map orderQty w node=some (.ok (.moved next))) :
    ∃ newValues newTasks edge, Passed rules orderQty node w.values w.tasks newValues newTasks ∧
      nextEdge map node newValues=.ok (some edge) ∧
      next=⟨edge.toId,newValues,newTasks,w.visited++[node.id]⟩ := by
  unfold visitNode at hmoved
  split at hmoved
  · cases hmoved
  · obtain ⟨outcome,houtcome,hleft⟩ := map_eq_some_iff.mp hmoved
    obtain ⟨executed,rfl,hleft⟩ := bind_eq_ok.mp hleft
    cases executed with
    | awaiting name text => cases hleft
    | passed newValues newTasks =>
      obtain ⟨edge,hedge,hfollow⟩ := map_eq_ok.mp hleft
      cases edge with
      | none => cases hfollow
      | some edge =>
        cases hfollow
        exact ⟨newValues,newTasks,edge,executeNode_passed houtcome,hedge,rfl⟩

theorem Walked.moved (h : Walked rules map orderQty first w trace node) (hmap : Accepted map)
    (hmoved : visitNode rules map orderQty w node=some (.ok (.moved next))) :
    ∃ node', Walked rules map orderQty first next (trace++[⟨node,w.values⟩]) node' := by
  obtain ⟨newValues,newTasks,edge,hpassed,hedge,rfl⟩ := visitNode_moved hmoved
  obtain ⟨hmem,hfrom,hbranch⟩ := nextEdge_some hedge
  obtain ⟨target,htarget,htargetId⟩ := List.mem_map.mp (hmap.edges edge hmem).2
  have hdrawn : Drawn map w.current edge.toId := ⟨edge,hmem,hfrom.trans h.current,rfl⟩
  have hjoined : Joined map ⟨node,w.values⟩ ⟨target,newValues⟩ := by
    refine ⟨⟨edge,hmem,hfrom,htargetId.symm,fun hkind => ?_⟩,hpassed.settled⟩
    obtain ⟨formula,result,hformula,hresult,hvalue⟩ := hpassed.condition hkind
    refine ⟨formula,result,hformula,hresult,?_⟩
    rw [hbranch hkind,hvalue,truth_eq_zero,Bool.not_not]
  refine ⟨target,htarget,htargetId,?_,?_,?_,?_,?_,?_,h.drafts_here hpassed.drafted⟩
  · rw [map_append,← h.visited]
    rfl
  · exact h.distinct_here hmap
  · intro id hid
    rcases mem_append.mp hid with hid | hid
    · exact (h.behind id hid).tail hdrawn
    · rw [mem_singleton.mp hid,h.current]
      exact .single hdrawn
  · exact h.known_here
  · rw [head?_append,h.start,some_or]
  · rw [append_assoc]
    exact isChain_append_cons_cons.mpr ⟨h.joined,hjoined,isChain_singleton _⟩

theorem visitNode_stopped {r : ProductionMapRunResult}
    (hstopped : visitNode rules map orderQty w node=some (.ok (.stopped r))) :
    r.visitedNodeIds=w.visited++[node.id] ∧ r.values=settle node w.values ∧
      Drafted rules orderQty node w.values w.tasks r.tasks ∧ StoppedAt map r ⟨node,w.values⟩ := by
  unfold visitNode at hstopped
  split at hstopped
  · rename_i hkind
    cases hstopped
    have hother : settle node w.values=w.values :=
      settle_of_other (by rw [hkind]; nofun) (by rw [hkind]; nofun) w.values
    exact ⟨rfl,hother.symm,by rw [Drafted,hkind]; rfl,.ended hkind rfl⟩
  · obtain ⟨outcome,houtcome,hleft⟩ := map_eq_some_iff.mp hstopped
    obtain ⟨executed,rfl,hleft⟩ := bind_eq_ok.mp hleft
    cases executed with
    | awaiting name text =>
      obtain ⟨hkind,formula,hformula,rfl,hunknown⟩ := executeNode_awaiting houtcome
      cases hleft
      refine ⟨rfl,?_,by rw [Drafted,hkind]; rfl,.awaiting formula hkind hformula rfl rfl hunknown⟩
      simp only [settle,hkind,hformula,hunknown]
      rfl
    | passed newValues newTasks =>
      have hpassed := executeNode_passed houtcome
      obtain ⟨edge,hedge,hfollow⟩ := map_eq_ok.mp hleft
      cases edge with
      | some edge => cases hfollow
      | none =>
        cases hfollow
        obtain ⟨hkind,hedges⟩ := nextEdge_none hedge
        exact ⟨rfl,hpassed.settled,hpassed.drafted,.noEdge hkind hedges rfl⟩

theorem Walked.stopped {r : ProductionMapRunResult} {values : Variables}
    (h : Walked rules map orderQty first w trace node) (hmap : Accepted map)
    (hfirst : first.node∈map.nodes ∧ first.node.kind=.start ∧
      first.values=inputVariables orderQty values)
    (hstopped : visitNode rules map orderQty w node=some (.ok (.stopped r))) :
    Route rules map orderQty values r (trace++[⟨node,w.values⟩]) := by
  obtain ⟨hvisited,hvalues,hdrafted,hreason⟩ := visitNode_stopped hstopped
  obtain ⟨start,arrived⟩ := first
  obtain ⟨hstart,hkind,rfl⟩ := hfirst
  refine ⟨?_,?_,?_,⟨start,hstart,hkind,h.start⟩,h.joined,h.drafts_here hdrafted,?_⟩
  · rw [hvisited,map_append,← h.visited]
    rfl
  · rw [hvisited]
    exact h.distinct_here hmap
  · exact h.known_here
  · exact ⟨_,getLast?_concat,hreason,hvalues⟩

theorem visitNode_ends (h : validateNodeKind (formulaRules rules) map node=.ok ()) (w : Walk) :
    ∃ outcome, visitNode rules map orderQty w node=some outcome := by
  unfold visitNode
  split
  · exact ⟨_,rfl⟩
  · obtain ⟨outcome,houtcome⟩ := executeNode_ends h w.tasks
    rw [houtcome]
    exact ⟨_,rfl⟩

theorem Walked.length_le (h : Walked rules map orderQty first w trace node) :
    w.visited.length ≤ map.nodes.length := by
  have hsubset : ∀ id∈w.visited, id∈map.nodes.map (·.id) := by
    intro id hid
    rw [h.visited] at hid
    obtain ⟨visit,hvisit,rfl⟩ := List.mem_map.mp hid
    exact List.mem_map_of_mem (h.known visit hvisit)
  have hle := (subperm_of_subset h.distinct hsubset).length_le
  rwa [length_map] at hle

/-- Every round visits a new node, so the walk ends, and its visits are a route. -/
theorem Walked.walk {fuel : Nat} {values : Variables}
    (h : Walked rules map orderQty first w trace node) (hmap : Accepted map)
    (hkinds : ∀ node∈map.nodes, validateNodeKind (formulaRules rules) map node=.ok ())
    (hfirst : first.node∈map.nodes ∧ first.node.kind=.start ∧
      first.values=inputVariables orderQty values)
    (hfuel : map.nodes.length<w.visited.length+fuel) :
    (∃ outcome, walk rules map orderQty fuel w=some outcome) ∧
      ∀ r, walk rules map orderQty fuel w=some (.ok r) →
        ∃ trace, Route rules map orderQty values r trace := by
  induction fuel generalizing w trace node with
  | zero =>
    have hle := h.length_le
    omega
  | succ fuel ih =>
    obtain ⟨outcome,houtcome⟩ : ∃ outcome, visitNode rules map orderQty w node=some outcome :=
      visitNode_ends (hkinds node h.found) w
    rw [Compiler.walk,h.step_eq hmap,houtcome]
    cases outcome with
    | error error => exact ⟨⟨_,rfl⟩,fun r hr => by cases hr⟩
    | ok advance =>
      cases advance with
      | stopped result =>
        refine ⟨⟨_,rfl⟩,fun r hr => ?_⟩
        obtain rfl : result=r := Except.ok.inj (some.inj hr)
        exact ⟨_,h.stopped hmap hfirst houtcome⟩
      | moved next =>
        obtain ⟨target,htarget⟩ := h.moved hmap houtcome
        refine ih htarget ?_
        obtain ⟨_,_,_,_,_,rfl⟩ := visitNode_moved houtcome
        change _<(w.visited++[node.id]).length+fuel
        rw [length_append,length_singleton]
        omega

end Walking

theorem walked_start (rules : CompilerRules) {map : ProductionMapDefinition} (orderQty : F64)
    {start : ProductionMapNode} (hstart : start∈map.nodes) (values : Variables) :
    Walked rules map orderQty ⟨start,inputVariables orderQty values⟩
      (startWalk start orderQty values) [] start where
  found := hstart
  current := rfl
  visited := rfl
  distinct := nodup_nil
  behind := by simp [startWalk]
  known := by simp
  start := rfl
  joined := isChain_singleton _
  tasks := by simp [startWalk,drafts]

/-- A run of a compiled map never panics and ends. The nodes it visits are distinct, begin at the
start node and follow each other along edges, at a condition along one of the branch just
computed. Its tasks are those of the visited nodes of work, numbered from one. It stops at the
end node, at a node without outgoing edges, or at a condition with an unknown variable, and never
because a node comes back. -/
theorem runMapWithVariables_route (rules : CompilerRules) (map : ProductionMapDefinition)
    (program : ProductionMapProgram) (hcompiled : compileMap (formulaRules rules) map=.ok program)
    (orderQty : F64) (values : Variables) :
    (∃ outcome, runMapWithVariables rules map orderQty values=some outcome) ∧
      ∀ r, runMapWithVariables rules map orderQty values=some (.ok r) →
        ∃ trace, Route rules map orderQty values r trace := by
  have hmap := accepted_of_compileMap hcompiled
  have hvalid := (compileMap_eq_ok.mp hcompiled).1
  obtain ⟨_,_,hkinds⟩ := validateNodes_eq_ok (validateMap_eq_ok hvalid).1
  unfold runMapWithVariables
  split
  · exact ⟨⟨_,rfl⟩,fun r hr => by cases hr⟩
  · rw [hcompiled]
    dsimp only
    split
    · exact ⟨⟨_,rfl⟩,fun r hr => by cases hr⟩
    · rename_i start hfound
      have hstart := List.mem_of_find?_eq_some hfound
      have hkind : start.kind=.start := by simpa using List.find?_some hfound
      exact (walked_start rules orderQty hstart values).walk hmap hkinds ⟨hstart,hkind,rfl⟩
        (by simp [startWalk])

section Sample

/-- A quantity is computed and checked, and one of two nodes of work follows. -/
def checkedBags : ProductionMapDefinition :=
  { id := "map-1", productCode := "bag", title := "Bag",
    nodes := [{ id := "first", kind := .start, title := "" },
      { id := "rolls", kind := .formula, title := "",
        formula := some { target := "rolls", expression := "order_qty / 2" } },
      { id := "large", kind := .condition, title := "",
        formula := some { target := "", expression := "rolls >= limit" } },
      { id := "print", kind := .task, title := "Print", qtyFormula := "rolls" },
      { id := "cut", kind := .task, title := "Cut" },
      { id := "last", kind := .endNode, title := "" }],
    edges := [⟨"first","rolls",""⟩,⟨"rolls","large",""⟩,
      { fromId := "large", toId := "cut", branch := "yo'q" },
      { fromId := "large", toId := "print", branch := "ha" },
      ⟨"print","last",""⟩,⟨"cut","last",""⟩] }

theorem exists_of_bind_toOption {ε α β : Type} {x : Option (Except ε α)} {f : α → β} {b : β}
    (h : (x.bind Except.toOption).map f=some b) : ∃ a, x=some (.ok a) ∧ f a=b := by
  obtain ⟨a,ha,hb⟩ := map_eq_some_iff.mp h
  obtain ⟨outcome,rfl,houtcome⟩ := bind_eq_some_iff.mp ha
  exact ⟨a,by rw [toOption_eq_some.mp houtcome],hb⟩

theorem runMapWithVariables_route_checkedBags :
    let values : Variables := (∅ : Variables).insert "limit" (F64.ofInt 3)
    (∃ r trace, runMapWithVariables anyFormula checkedBags (F64.ofInt 8) values=some (.ok r) ∧
      r.visitedNodeIds=["first","rolls","large","print","last"] ∧
      r.tasks.map (fun task => (task.order, task.nodeId, task.qty))=[(1, "print", F64.ofInt 4)] ∧
      Route anyFormula checkedBags (F64.ofInt 8) values r trace) ∧
    ∃ r trace, runMapWithVariables anyFormula checkedBags (F64.ofInt 8) ∅ = some (.ok r) ∧
      r.awaitingVariable = "limit" ∧ Route anyFormula checkedBags (F64.ofInt 8) ∅ r trace := by
  intro values
  have hcompiled : (compileMap (formulaRules anyFormula) checkedBags).toOption.isSome=true := by
    decide +kernel
  obtain ⟨program,hprogram⟩ := Option.isSome_iff_exists.mp hcompiled
  have hroute := runMapWithVariables_route anyFormula checkedBags program
    (toOption_eq_some.mp hprogram) (F64.ofInt 8)
  have hlarge : ((runMapWithVariables anyFormula checkedBags (F64.ofInt 8) values).bind
      Except.toOption).map (fun r => (r.visitedNodeIds,
        r.tasks.map fun task => (task.order, task.nodeId, task.qty))) =
      some (["first","rolls","large","print","last"], [(1, "print", F64.ofInt 4)]) := by
    decide +kernel
  have hawaiting : ((runMapWithVariables anyFormula checkedBags (F64.ofInt 8) ∅).bind
      Except.toOption).map (·.awaitingVariable)=some "limit" := by
    decide +kernel
  obtain ⟨r,hr,hfacts⟩ := exists_of_bind_toOption hlarge
  obtain ⟨w,hw,hname⟩ := exists_of_bind_toOption hawaiting
  obtain ⟨trace,htrace⟩ := (hroute values).2 r hr
  obtain ⟨waited,hwaited⟩ := (hroute ∅).2 w hw
  refine ⟨⟨r,trace,hr,?_,?_,htrace⟩,w,waited,hw,hname,hwaited⟩
  · exact congrArg Prod.fst hfacts
  · exact congrArg Prod.snd hfacts

end Sample

end MiniErp.Compiler
