import MiniErp.Compiler.Compile
import MiniErp.Lib.Merge
import MiniErp.Stage.Closed

/-! The predecessors of an operation in terms of the drawn map. The members of an alternative
group share a place; what stands before an operation is found by following drawn edges backwards
from place to place. -/
namespace MiniErp.Stage
open Text Chain Merge Relation Compiler List

/-- The place of a node: its alternative group if it is a grouped machine, else itself. It is
spelled like the key of an operation. -/
def place (map : ProductionMapDefinition) (id : String) : String :=
  match map.nodeById id with
  | none => "node:" ++ id
  | some node =>
    if node.kind=.apparatus ∧ trim node.alternativeGroupId ≠ "" then
      "group:" ++ trim node.alternativeGroupId
    else "node:" ++ id

/-- The drawn map with the members of every group merged. -/
def PlaceBefore (map : ProductionMapDefinition) : String → String → Prop :=
  Merged (Drawn map) (place map)

/-- Identities without surrounding blanks, as a normalised map has them. -/
structure TrimmedIds (map : ProductionMapDefinition) : Prop where
  nodes : ∀ node∈map.nodes, trim node.id=node.id
  edges : ∀ edge∈map.edges, trim edge.fromId=edge.fromId ∧ trim edge.toId=edge.toId

theorem trim_normalizeId (id : String) : trim (normalizeId id)=normalizeId id :=
  trim_toAsciiLowercase (trim_trim id)

theorem trimmedIds_normalizeMap (map : ProductionMapDefinition) : TrimmedIds (normalizeMap map) := by
  constructor
  · intro node hnode
    obtain ⟨drawn,_,rfl⟩ := mem_map.mp hnode
    exact trim_normalizeId drawn.id
  · intro edge hedge
    obtain ⟨drawn,_,rfl⟩ := mem_map.mp hedge
    exact ⟨trim_normalizeId drawn.fromId,trim_normalizeId drawn.toId⟩

variable {map : ProductionMapDefinition}

theorem TrimmedIds.nodeByTrimmedId (h : TrimmedIds map) (id : String) :
    map.nodeByTrimmedId id=map.nodeById id := by
  unfold ProductionMapDefinition.nodeByTrimmedId ProductionMapDefinition.nodeById
  have hnodes := h.nodes
  generalize map.nodes=nodes at hnodes
  induction nodes with
  | nil => rfl
  | cons node rest ih =>
    rw [find?_cons,find?_cons,hnodes node mem_cons_self,
      ih fun n hn => hnodes n (mem_cons_of_mem node hn)]

theorem place_eq_group {id : String} {node : ProductionMapNode} (h : map.nodeById id=some node)
    (hkind : node.kind=.apparatus) (hgroup : trim node.alternativeGroupId ≠ "") :
    place map id = "group:" ++ trim node.alternativeGroupId := by
  simp only [place,h,hkind,ne_eq,hgroup,not_false_eq_true,and_self,if_true]

theorem place_of_stageNodeIdsMatch (h : TrimmedIds map) {left right : String}
    (hleft : trim left=left) (hright : trim right=right)
    (hmatch : stageNodeIdsMatchForMap map left right=true) : place map left=place map right := by
  simp only [stageNodeIdsMatchForMap,hleft,hright,h.nodeByTrimmedId] at hmatch
  split at hmatch
  · cases hmatch
  · split at hmatch
    · rename_i heq
      rw [beq_iff_eq.mp heq]
    · split at hmatch
      · cases hmatch
      · rename_i leftNode hleftNode
        split at hmatch
        · cases hmatch
        · rename_i hvalid
          simp only [not_or,not_not] at hvalid
          split at hmatch
          · cases hmatch
          · rename_i rightNode hrightNode
            simp only [Bool.and_eq_true,beq_iff_eq] at hmatch
            have hgroup := hmatch.1.1.2
            rw [place_eq_group hleftNode hvalid.1 hvalid.2,
              place_eq_group hrightNode hmatch.1.1.1 (hgroup ▸ hvalid.2),hgroup]

/-- The edges a route scan follows into a node end in the place of the node. -/
theorem place_of_routeMatches (h : TrimmedIds map) {id candidate : String} (hid : trim id=id)
    (hcandidate : trim candidate=candidate)
    (hmatch : routeMatches map (trim id) candidate=true) : place map candidate=place map id := by
  simp only [routeMatches,hid,hcandidate,Bool.and_eq_true,Bool.or_eq_true,beq_iff_eq] at hmatch
  rcases hmatch.2 with heq | ⟨_,hsame⟩
  · rw [heq]
  · exact place_of_stageNodeIdsMatch h hcandidate hid hsame

theorem before_of_routePredecessors (h : TrimmedIds map) {a b : String} (ha : trim a=a)
    (hb : b∈routePredecessors map a) :
    trim b=b ∧ ReflTransGen (PlaceBefore map) (place map b) (place map a) := by
  obtain ⟨edge,hedge,rfl⟩ := mem_map.mp hb
  obtain ⟨hmem,hfollowed⟩ := mem_filter.mp hedge
  simp only [Bool.and_eq_true,Bool.or_eq_true,beq_iff_eq] at hfollowed
  obtain ⟨hfrom,hto⟩ := h.edges edge hmem
  have hplace : place map edge.toId=place map a := by
    rcases hfollowed.1.1 with heq | hmatch
    · rw [heq]
    · exact place_of_routeMatches h ha hto hmatch
  refine ⟨hfrom,?_⟩
  rw [← hplace]
  exact reflTransGen_of_edge ⟨edge,hmem,rfl,rfl⟩

/-- The walk back to a previous stage goes from place to place along drawn edges. -/
theorem before_of_previousStage (h : TrimmedIds map) {id : String} (hid : trim id=id)
    {stage : ChainStage} (hstage : stage∈previousWorkStagesForNode map id) :
    ReflTransGen (PlaceBefore map) (place map stage.nodeId) (place map id) := by
  obtain ⟨_,first,hfirst,last,hwalk,hfound⟩ := mem_adjacent_iff.mp hstage
  rw [(adjacentFound_eq_some hfound).2.2]
  rw [hid] at hfirst
  have hstart := before_of_routePredecessors h hid hfirst
  clear hfound
  have hlast : trim last=last ∧ ReflTransGen (PlaceBefore map) (place map last) (place map id) := by
    induction hwalk with
    | refl => exact hstart
    | tail _ hstep ih =>
      have hprevious := before_of_routePredecessors h ih.1 (routeStep_of_adjacentNext hstep)
      exact ⟨hprevious.1,hprevious.2.trans ih.2⟩
  exact hlast.2

theorem place_of_operationKey (hdistinct : (map.nodes.map (·.id)).Nodup) {stage : ChainStage}
    (hstage : stage∈linearWorkStages map) (hphysical : stage.apparatusId.isSome=true)
    {node : ProductionMapNode} (hnode : map.nodeById stage.nodeId=some node) :
    place map stage.nodeId=operationKey node := by
  obtain ⟨owner,howner⟩ := (linearWorkStages_sound map).stageOf stage hstage
  obtain ⟨hmem,hid⟩ := nodeById_eq_some hnode
  have hsame : node=owner := inj_on_of_nodup_map hdistinct hmem howner.mem (hid.trans howner.nodeId)
  have hkind : node.kind=.apparatus := by
    rw [howner.apparatusId] at hphysical
    obtain ⟨identity,hidentity⟩ := Option.isSome_iff_exists.mp hphysical
    exact hsame ▸ (canonicalApparatusIdentity_eq_some.mp hidentity).1
  by_cases hgroup : trim node.alternativeGroupId = ""
  · simp [place,hnode,operationKey,isBlank,hgroup,hid]
  · rw [place_eq_group hnode hkind hgroup]
    simp [operationKey,isBlank,hgroup]

theorem exists_stages_of_predecessor {sessions : List OrderRunSession}
    {inputs : List StageWorkInput} {states : ApparatusStates}
    {events : List ProductionStageLifecycleEvent} {key p : String}
    (h : Predecessor (stageOperations map sessions inputs states events) key p) :
    p≠key ∧ ∃ stage node previous previousNode,
      (stage∈linearWorkStages map ∧ stage.apparatusId.isSome=true ∧
        map.nodeById stage.nodeId=some node ∧ operationKey node=key) ∧
      previous∈previousWorkStagesForNode map stage.nodeId ∧
        map.nodeById previous.nodeId=some previousNode ∧ operationKey previousNode=p := by
  rw [StageWorkReference.stageOperations_eq] at h
  obtain ⟨operation,hmem,hp⟩ := h
  obtain ⟨entry,hentry,heq⟩ := mem_map.mp hmem
  obtain ⟨rfl,rfl⟩ := heq
  have htable := operationTable_sound map (StageWorkReference.physicalStages map)
  obtain ⟨hne,previous,hprevious,hkey⟩ := mem_predecessorKeys.mp hp
  obtain ⟨stage,hcandidate,hprevious⟩ := mem_flatMap.mp hprevious
  have hfound := Std.TreeMap.mem_toList_iff_getElem?_eq_some.mp hentry
  obtain ⟨hphysical,node,hnode⟩ := (htable.candidates _ _ hfound).2 stage hcandidate
  obtain ⟨_,previousNode,hpreviousNode⟩ := htable.keyOf _ _ hkey
  obtain ⟨hlinear,hsome⟩ := mem_filter.mp hphysical
  exact ⟨hne,stage,node,previous,previousNode,⟨hlinear,hsome,hnode⟩,hprevious,hpreviousNode⟩

theorem placeBefore_of_predecessor (htrimmed : TrimmedIds map)
    (hdistinct : (map.nodes.map (·.id)).Nodup) {sessions : List OrderRunSession}
    {inputs : List StageWorkInput} {states : ApparatusStates}
    {events : List ProductionStageLifecycleEvent} {key p : String}
    (h : Predecessor (stageOperations map sessions inputs states events) key p) :
    TransGen (PlaceBefore map) p key := by
  obtain ⟨hne,stage,node,previous,previousNode,⟨hlinear,hsome,hnode,hkey⟩,hprevious,
    hpreviousNode,hp⟩ := exists_stages_of_predecessor h
  obtain ⟨hmem,hid⟩ := nodeById_eq_some hnode
  have hwalk := before_of_previousStage htrimmed (hid ▸ htrimmed.nodes node hmem) hprevious
  obtain ⟨hpreviousLinear,hpreviousSome⟩ := mem_stages_of_adjacent hprevious
  rw [place_of_operationKey hdistinct hlinear hsome hnode,hkey,
    place_of_operationKey hdistinct hpreviousLinear hpreviousSome hpreviousNode,hp] at hwalk
  exact (reflTransGen_iff_eq_or_transGen.mp hwalk).resolve_left hne.symm

theorem acyclic_predecessor (htrimmed : TrimmedIds map)
    (hdistinct : (map.nodes.map (·.id)).Nodup) (hacyclic : Acyclic (PlaceBefore map))
    (sessions : List OrderRunSession) (inputs : List StageWorkInput) (states : ApparatusStates)
    (events : List ProductionStageLifecycleEvent) :
    Acyclic (Predecessor (stageOperations map sessions inputs states events)) := by
  intro key hcycle
  have hlift : ∀ a b, TransGen (Predecessor (stageOperations map sessions inputs states events))
      a b → TransGen (PlaceBefore map) b a := by
    intro a b hwalk
    induction hwalk with
    | single hstep => exact placeBefore_of_predecessor htrimmed hdistinct hstep
    | tail _ hstep ih => exact (placeBefore_of_predecessor htrimmed hdistinct hstep).trans ih
  exact hacyclic key (hlift key key hcycle)

/-- Where nothing is before itself, operations that are all locally done are all completed. -/
theorem all_completed_of_acyclic (sessions : List OrderRunSession) (inputs : List StageWorkInput)
    (states : ApparatusStates) (events : List ProductionStageLifecycleEvent)
    (hacyclic : Acyclic (Predecessor (stageOperations map sessions inputs states events)))
    (hdone : ∀ entry∈stageOperations map sessions inputs states events, entry.2.LocallyDone) :
    ∀ status∈stageWorkStatuses map sessions inputs states events, status.completed=true := by
  intro status hstatus
  have hsound := operations_sound map sessions inputs states events
  obtain ⟨entry,hentry,rfl⟩ := mem_map.mp hstatus
  refine (closedAs_closeStatus hsound hentry).completed_iff.mpr ⟨hdone entry hentry,?_⟩
  intro q _
  exact ⟨fun operation hmem => hdone (q, operation) hmem,hacyclic q⟩

end MiniErp.Stage
