import MiniErp.Compiler.Compile
import MiniErp.Queue.Prepare
import MiniErp.Wip.Route

/-! The part of an order's map that work has started on cannot be edited: what
`reject_started_stage_changes` compares between the stored map and the new one. -/
namespace MiniErp.Catalog
open Text Run Queue Chain Wip Compiler List

/-- A hold on one stage of an order, with the apparatus of its freeze request. -/
structure OrderControlRecord where
  orderId : String
  stageNodeId : String
  state : OrderControlState
  freezeTarget : Option String

/-- What the service reads of the stored orders. -/
structure CatalogStore where
  maps : List ProductionMapDefinition
  stageOrderControlStates : List OrderControlRecord
  apparatusQueueStates : Std.TreeMap String StoredStates
  orderRunSessionsForOrder : String → List OrderRunSession
  progressBatchesForOrder : String → List OrderProgressBatch

def CatalogStore.mapById (store : CatalogStore) (mapId : String) : Option ProductionMapDefinition :=
  store.maps.find? fun map => trim map.id == trim mapId

def CatalogStore.rawMap (store : CatalogStore) (mapId : String) : Option ProductionMapDefinition :=
  store.mapById (toAsciiLowercase (trim mapId))

/-- The apparatus a node stands for: the assigned one of its group, else its own. -/
def canonicalApparatusId (node : ProductionMapNode) : Option ApparatusId :=
  let assigned := trim node.alternativeAssignedApparatusId
  ApparatusId.new (if assigned == "" then trim node.apparatusId else assigned)

/-- Equality of nodes and of products as the source compares them: numbers by value, a NaN never
equal. -/
def sameNode (left right : ProductionMapNode) : Bool :=
  left == right && left.x.eq right.x && left.y.eq right.y &&
    left.rezkaLabelLength.all fun length => length.eq length

def sameProducts (left right : List OrderProduct) : Bool :=
  left == right && left.all fun product => product.frameProductSizeMm.eq product.frameProductSizeMm

def sameNodeOption : Option ProductionMapNode → Option ProductionMapNode → Bool
  | none, none => true
  | some left, some right => sameNode left right
  | _, _ => false

theorem eq_of_sameNode {left right : ProductionMapNode} (h : sameNode left right=true) :
    left=right := by
  simp only [sameNode,Bool.and_eq_true,beq_iff_eq] at h
  exact h.1.1.1

section Started
variable (store : CatalogStore) (orderId : String) (allowPreflightEdit : Bool)

def startedState (state : String) : Bool :=
  let state := ApparatusQueueOrderState.parse state
  state != some .pending && !(allowPreflightEdit && state == some .printPreflight)

def batchApparatuses (batch : OrderProgressBatch) : List String :=
  [batch.apparatus,batch.currentApparatus,batch.usedByApparatus,batch.processedByApparatus]

def startedApparatus : List ApparatusId :=
  let queued := store.apparatusQueueStates.toList.filter fun entry =>
    entry.2[orderId]?.any (startedState allowPreflightEdit)
  (queued.map Prod.fst++(store.orderRunSessionsForOrder orderId).map OrderRunSession.apparatus ++
    (store.progressBatchesForOrder orderId).flatMap batchApparatuses).filterMap
      fun apparatus => ApparatusId.new (trim apparatus)

end Started

section Locked
variable (previous : ProductionMapDefinition) (started : List ApparatusId)

def startedNode (node : ProductionMapNode) : Bool :=
  node.kind == .apparatus && (canonicalApparatusId node).any started.contains

def startedNodeIds : List String := (previous.nodes.filter (startedNode started)).map (·.id)

def lockedGroupIds : List String :=
  (((previous.nodes.filter fun node => (startedNodeIds previous started).contains node.id).map
    fun node => trim node.alternativeGroupId).filter (· != ""))

/-- The nodes whose apparatus has started, and all members of their alternative groups. -/
def lockedNodeIds : List String :=
  startedNodeIds previous started++(previous.nodes.filter fun node =>
      (lockedGroupIds previous started).contains (trim node.alternativeGroupId)).map (·.id)

end Locked

def incomingTo (locked : List String) (map : ProductionMapDefinition) : List ProductionMapEdge :=
  map.edges.filter fun edge => locked.contains edge.toId

def keepsHeldStage (orderId : String) (next : ProductionMapDefinition)
    (control : OrderControlRecord) : Bool :=
  control.orderId != orderId || control.state == .active || (linearWorkStages next).any fun stage =>
      stage.nodeId == control.stageNodeId && stage.apparatusId == some (control.freezeTarget.getD "")

def rejectLockedChanges (locked : List String) (previous next : ProductionMapDefinition) :
    Except ProductionMapError Unit := do
  ensure (locked.all fun id => sameNodeOption (previous.nodeById id) (next.nodeById id))
    .startedProductionMapStageLocked
  -- incoming edges are executed, outgoing ones may still be rewired
  let previousIncoming := incomingTo locked previous
  let nextIncoming := incomingTo locked next
  ensure (previousIncoming.length == nextIncoming.length &&
      previousIncoming.all fun edge => nextIncoming.contains edge)
    .startedProductionMapStageLocked

def rejectStartedStageChanges (digest : ProductionMapDefinition → String) (store : CatalogStore)
    (next : ProductionMapDefinition) (allowPreflightEdit : Bool) : Except ProductionMapError Unit :=
  match store.rawMap next.id with
  | none => .ok ()
  | some previous => do
    let orderId := trim previous.id
    ensure (store.stageOrderControlStates.all (keepsHeldStage orderId next))
      .startedProductionMapStageLocked
    validateMapWipRoutes digest previous next (store.progressBatchesForOrder orderId)
    let started := startedApparatus store orderId allowPreflightEdit
    if started.isEmpty then .ok ()
    else
      ensure (sameProducts previous.products next.products) .startedProductionMapStageLocked
      let locked := lockedNodeIds previous started
      if locked.isEmpty then .ok () else rejectLockedChanges locked previous next

section Accepted
variable {previous next : ProductionMapDefinition} {started : List ApparatusId}

/-- A node of the map that work has started on: its apparatus has, or that of a member of its
group. -/
def Locked (previous : ProductionMapDefinition) (started : List ApparatusId)
    (node : ProductionMapNode) : Prop :=
  node∈previous.nodes ∧ (startedNode started node=true ∨
    ∃ other∈previous.nodes, startedNode started other=true ∧ trim other.alternativeGroupId ≠ "" ∧
      trim node.alternativeGroupId=trim other.alternativeGroupId)

theorem startedNode_nil (node : ProductionMapNode) : startedNode [] node=false := by
  unfold startedNode
  cases canonicalApparatusId node <;> simp

variable {node : ProductionMapNode}

theorem mem_startedNodeIds (hnode : node∈previous.nodes)
    (h : startedNode started node=true) : node.id∈startedNodeIds previous started :=
  mem_map.mpr ⟨node,mem_filter.mpr ⟨hnode,h⟩,rfl⟩

theorem mem_lockedNodeIds (h : Locked previous started node) :
    node.id∈lockedNodeIds previous started := by
  obtain ⟨hnode,hlocked⟩ := h
  rw [lockedNodeIds,mem_append]
  cases hlocked with
  | inl hstarted => exact .inl (mem_startedNodeIds hnode hstarted)
  | inr hgroup =>
    obtain ⟨other,hother,hstarted,hnonempty,hsame⟩ := hgroup
    refine .inr (mem_map.mpr ⟨node,mem_filter.mpr ⟨hnode,?_⟩,rfl⟩)
    rw [contains_iff_mem,hsame]
    refine mem_filter.mpr ⟨mem_map.mpr ⟨other,mem_filter.mpr ⟨hother,?_⟩,rfl⟩,?_⟩
    · rw [contains_iff_mem]
      exact mem_startedNodeIds hother hstarted
    · rw [bne_iff_ne]
      exact hnonempty

/-- A started order passes the comparison of its locked part. -/
theorem rejectLockedChanges_of_accepted {digest : ProductionMapDefinition → String}
    {store : CatalogStore} {allowPreflightEdit : Bool} (hraw : store.rawMap next.id=some previous)
    (hstarted : started=startedApparatus store (trim previous.id) allowPreflightEdit)
    (hnonempty : lockedNodeIds previous started ≠ [])
    (h : rejectStartedStageChanges digest store next allowPreflightEdit=.ok ()) :
    rejectLockedChanges (lockedNodeIds previous started) previous next=.ok () := by
  have hsome : started ≠ [] := by
    intro hnone
    have hids : startedNodeIds previous []=[] := by simp [startedNodeIds,startedNode_nil]
    apply hnonempty
    simp [hnone,lockedNodeIds,lockedGroupIds,hids]
  rw [rejectStartedStageChanges,hraw] at h
  simp only [bind_eq_ok,← hstarted,List.isEmpty_iff,if_neg hsome,if_neg hnonempty] at h
  obtain ⟨_,_,_,_,_,_,hlocked⟩ := h
  exact hlocked

theorem validateMapWipRoutes_of_accepted {digest : ProductionMapDefinition → String}
    {store : CatalogStore} {allowPreflightEdit : Bool} (hraw : store.rawMap next.id=some previous)
    (h : rejectStartedStageChanges digest store next allowPreflightEdit=.ok ()) :
    validateMapWipRoutes digest previous next (store.progressBatchesForOrder (trim previous.id)) =
    .ok () := by
  rw [rejectStartedStageChanges,hraw] at h
  simp only [bind_eq_ok] at h
  obtain ⟨_,_,_,hroutes,_⟩ := h
  exact hroutes

theorem mem_next_of_locked (hdistinct : (previous.nodes.map (·.id)).Nodup)
    (hlocked : Locked previous started node)
    (h : rejectLockedChanges (lockedNodeIds previous started) previous next=.ok ()) :
    node∈next.nodes := by
  simp only [rejectLockedChanges,bind_eq_ok,ensure_eq_ok,all_eq_true] at h
  obtain ⟨_,hnodes,_⟩ := h
  have hsame := hnodes node.id (mem_lockedNodeIds hlocked)
  rw [nodeById_of_nodup hdistinct hlocked.1] at hsame
  cases hfound : next.nodeById node.id with
  | none =>
    rw [hfound] at hsame
    cases hsame
  | some found =>
    rw [hfound] at hsame
    rw [eq_of_sameNode hsame]
    exact (nodeById_eq_some hfound).1

end Accepted

section Edges
variable {α : Type*} {before after : List α}

theorem mem_iff_of_nodup (hsubset : before ⊆ after) (hnodup : before.Nodup)
    (hlength : before.length=after.length) (x : α) : x∈before ↔ x∈after :=
  ((subperm_of_subset hnodup hsubset).perm_of_length_le (Nat.le_of_eq hlength.symm)).mem_iff

/-- A list within another of the same length has the same elements exactly when the two have
equally many different ones. -/
theorem mem_iff_of_dedup_length [DecidableEq α] (hsubset : before ⊆ after) :
    (∀ x, x∈before ↔ x∈after) ↔ after.dedup.length=before.dedup.length := by
  constructor
  · intro h
    have hperm : before.dedup.Perm after.dedup :=
      (perm_ext_iff_of_nodup (nodup_dedup _) (nodup_dedup _)).mpr fun x => by
        rw [mem_dedup,mem_dedup,h x]
    exact hperm.length_eq.symm
  · intro h x
    have hsubperm : before.dedup.Subperm after.dedup :=
      subperm_of_subset (nodup_dedup _) fun x hx => mem_dedup.mpr (hsubset (mem_dedup.mp hx))
    have hperm := hsubperm.perm_of_length_le (Nat.le_of_eq h)
    rw [← mem_dedup,hperm.mem_iff,mem_dedup]

end Edges

/-- An accepted edit of a started order keeps every locked node as it was. The edges into locked
nodes stay the same set exactly when the new map has as many different ones as the stored one, so
always when the stored map has none of them twice. -/
theorem started_route_kept (rules : CompilerRules) (digest : ProductionMapDefinition → String)
    (store : CatalogStore) (previous next : ProductionMapDefinition) (allowPreflightEdit : Bool)
    (hstored : validateMap rules previous=.ok ()) (hraw : store.rawMap next.id=some previous)
    (haccepted : rejectStartedStageChanges digest store next allowPreflightEdit=.ok ()) :
    let started := startedApparatus store (trim previous.id) allowPreflightEdit
    let locked := lockedNodeIds previous started
    (∀ node, Locked previous started node → node∈next.nodes) ∧
    ((∀ edge, edge∈incomingTo locked previous ↔ edge∈incomingTo locked next) ↔
      (incomingTo locked next).dedup.length=(incomingTo locked previous).dedup.length) ∧
    ((incomingTo locked previous).Nodup →
      ∀ edge, edge∈incomingTo locked previous ↔ edge∈incomingTo locked next) := by
  intro started locked
  by_cases hnone : locked=[]
  · refine ⟨fun node hnode => ?_,by simp [incomingTo,hnone],by simp [incomingTo,hnone]⟩
    have hmem : node.id∈locked := mem_lockedNodeIds hnode
    rw [hnone] at hmem
    cases hmem
  · have hchanges : rejectLockedChanges locked previous next=.ok () :=
      rejectLockedChanges_of_accepted hraw rfl hnone haccepted
    have hdistinct := (validated_of_validateMap hstored).distinct
    have hedges := hchanges
    simp only [rejectLockedChanges,bind_eq_ok,ensure_eq_ok,Bool.and_eq_true,beq_iff_eq,
      List.all_eq_true,List.contains_iff_mem] at hedges
    obtain ⟨_,_,hlength,hsubset⟩ := hedges
    exact ⟨fun node hnode => mem_next_of_locked hdistinct hnode hchanges,
      mem_iff_of_dedup_length hsubset,fun hnodup => mem_iff_of_nodup hsubset hnodup hlength⟩

section Sample

/-- An order that prints with one ink, its edges as given. -/
def inkOrder (edges : List (String × String)) : ProductionMapDefinition :=
  { id := "zakaz-1"
    productCode := "film"
    title := "Film"
    nodes :=
      [{ id := "start", kind := .start, title := "Start" },
        { id := "ink", kind := .material, title := "Ink" },
        { id := "print", kind := .apparatus, title := "Press", apparatusId := "apparatus:press:1" },
        { id := "slit", kind := .apparatus, title := "Slitter",
          apparatusId := "apparatus:slitter:1" },
        { id := "end", kind := .endNode, title := "End" }]
    edges := edges.map fun edge => { fromId := edge.1, toId := edge.2 } }

def inkOnce : ProductionMapDefinition :=
  inkOrder [("start", "ink"),("ink", "print"),("print", "slit"),("slit", "end")]

/-- The slitter is left out after printing. -/
def inkUnslit : ProductionMapDefinition :=
  inkOrder [("start", "ink"),("ink", "print"),("print", "end"),("start", "slit"),("slit", "end")]

def inkTwice : ProductionMapDefinition :=
  inkOrder [("start", "ink"),("ink", "print"),("ink", "print"),("print", "slit"),("slit", "end")]

/-- One of the two edges from the ink comes from the start instead. -/
def inkPassedBy : ProductionMapDefinition :=
  inkOrder [("start", "ink"),("ink", "print"),("start", "print"),("print", "slit"),("slit", "end")]

/-- The press is working on the order. -/
def printingStore (map : ProductionMapDefinition) : CatalogStore where
  maps := [map]
  stageOrderControlStates := []
  apparatusQueueStates :=
    .ofList [("apparatus:press:1", Std.TreeMap.ofList [("zakaz-1", "in_progress")])]
  orderRunSessionsForOrder := fun _ => []
  progressBatchesForOrder := fun _ => []

def anyRules : CompilerRules := ⟨Char.isAlphanum,fun _ => .ok (),fun _ => .ok (),fun _ => ""⟩

theorem started_route_kept_unslit :
    let store := printingStore inkOnce
    let started := startedApparatus store "zakaz-1" false
    let locked := lockedNodeIds inkOnce started
    locked=["print"] ∧ inkOnce≠inkUnslit ∧
    (∀ node, Locked inkOnce started node → node∈inkUnslit.nodes) ∧
    ∀ edge, edge∈incomingTo locked inkOnce ↔ edge∈incomingTo locked inkUnslit := by
  have ⟨hvalid,hraw,haccepted,hlocked,hother,hnodup⟩ : validateMap anyRules inkOnce=.ok () ∧
      (printingStore inkOnce).rawMap inkUnslit.id=some inkOnce ∧
      rejectStartedStageChanges (fun _ => "") (printingStore inkOnce) inkUnslit false=.ok () ∧
      lockedNodeIds inkOnce (startedApparatus (printingStore inkOnce) "zakaz-1" false)=["print"] ∧
      inkOnce≠inkUnslit ∧ (incomingTo ["print"] inkOnce).Nodup := by
    decide +kernel
  have h := started_route_kept anyRules (fun _ => "") (printingStore inkOnce) inkOnce inkUnslit
    false hvalid hraw haccepted
  have hid : trim inkOnce.id = "zakaz-1" := by decide +kernel
  rw [hid] at h
  refine ⟨hlocked,hother,h.1,h.2.2 ?_⟩
  rw [hlocked]
  exact hnodup

theorem repeated_edge_replaced :
    let store := printingStore inkTwice
    let started := startedApparatus store "zakaz-1" false
    let locked := lockedNodeIds inkTwice started
    (compileMap anyRules inkTwice).isOk=true ∧ (compileMap anyRules inkPassedBy).isOk=true ∧
    store.rawMap inkPassedBy.id=some inkTwice ∧ locked=["print"] ∧
    rejectStartedStageChanges (fun _ => "") store inkPassedBy false=.ok () ∧
    ∃ edge∈incomingTo locked inkPassedBy, edge∉incomingTo locked inkTwice := by
  decide +kernel

end Sample

end MiniErp.Catalog
