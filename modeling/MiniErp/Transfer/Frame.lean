import MiniErp.Transfer.Rolls

/-! What a transfer of work that is not printing leaves alone: the rest of the map, and every
other order in the queues. The map is rewritten by machine and not by stage, so it stays local
only where the machine serves no other stage of the order. -/
namespace MiniErp.Transfer
open Text Run Queue Chain Wip Stage Std List

/-- The node and the machines it may stand for: the stage node itself, or a member of its group. -/
def InOccurrence (map : ProductionMapDefinition) (stageNodeId : String)
    (node : ProductionMapNode) : Prop :=
  stageNodeIdsMatchForMap map node.id stageNodeId=true

instance (map : ProductionMapDefinition) (stageNodeId : String) (node : ProductionMapNode) :
    Decidable (InOccurrence map stageNodeId node) :=
  inferInstanceAs (Decidable (_=true))

/-- Only the identity, the title and the assignment of the machine differ. -/
def SameButMachine (before after : ProductionMapNode) : Prop :=
  after={ before with
    apparatusId := after.apparatusId
    title := after.title
    alternativeAssignedApparatusId := after.alternativeAssignedApparatusId
    alternativeAssignedTitle := after.alternativeAssignedTitle }

instance (before after : ProductionMapNode) : Decidable (SameButMachine before after) :=
  inferInstanceAs (Decidable (_=_))

/-- The map changes at most the machine of one occurrence. -/
structure MapLocal (before after : ProductionMapDefinition) (stageNodeId : String) : Prop where
  rest : after={ before with nodes := after.nodes }
  nodes : List.Forall₂ (fun old new => SameButMachine old new ∧
    (new≠old → InOccurrence before stageNodeId old)) before.nodes after.nodes

/-- The order leaves the source queue and stands once, last and in its old state, in the target
queue; everything else about the queues stays. -/
structure QueuesMoved (before after : TransferStore) (source target : ApparatusId)
    (orderId : String) : Prop where
  tail : ∃ others, after.sequences[target]?=some (others++[orderId]) ∧ ∀ id∈others, trim id≠orderId
  left : ∃ others, after.sequences[source]?=some others ∧ ∀ id∈others, trim id≠orderId
  order : ∀ apparatus, withoutOrder orderId (after.sequences.getD apparatus []) =
    withoutOrder orderId (before.sequences.getD apparatus [])
  elsewhere : ∀ apparatus, apparatus≠source → apparatus≠target →
    after.sequences[apparatus]?=before.sequences[apparatus]? ∧
      after.queueStates[apparatus]?=before.queueStates[apparatus]?
  state : ∃ text, (after.queueStates.getD target ∅)[orderId]?=some text ∧
    storedSourceState before source orderId=some text
  gone : (after.queueStates.getD source ∅)[orderId]?=none
  others : ∀ apparatus id, id≠orderId → (after.queueStates.getD apparatus ∅)[id]? =
    (before.queueStates.getD apparatus ∅)[id]?

/-- The map of the order and the queues after a transfer. -/
def TransferFramed (before after : TransferStore) (intent : TransferIntent) (work : PausedWork) :
    Prop :=
  (∃ map, after.maps.get? intent.orderId=some map ∧
    MapLocal work.map map work.session.stageNodeId) ∧
  QueuesMoved before after intent.source intent.target intent.orderId

section Reassigned
variable (map : ProductionMapDefinition) (source target : ApparatusId) (display : String)

/-- A group of the source has the target, so that the groups are reassigned. -/
def reassignsGroups : Bool :=
  !(transferGroups map source).isEmpty && map.nodes.any fun node =>
    inTransferGroup (transferGroups map source) node && trim node.apparatusId == target.value

/-- The nodes that the reassignment changes. -/
def changesMachine (node : ProductionMapNode) : Bool :=
  if reassignsGroups map source target then
    inTransferGroup (transferGroups map source) node &&
      (node.alternativeAssignedApparatusId != target.value ||
        node.alternativeAssignedTitle != display)
  else plainOnSource source node && (node.apparatusId != target.value || node.title != display)

def LocalReassignment (stageNodeId : String) : Prop :=
  ∀ node∈map.nodes, changesMachine map source target display node=true →
    InOccurrence map stageNodeId node

instance (stageNodeId : String) :
    Decidable (LocalReassignment map source target display stageNodeId) :=
  inferInstanceAs (Decidable (∀ node∈map.nodes, _ → _))

def reassignedNode (node : ProductionMapNode) : ProductionMapNode :=
  if reassignsGroups map source target then
    assignToTarget target display (transferGroups map source) node
  else renameToTarget source target display node

variable {map source target display}

theorem reassignedMap_ok {next : ProductionMapDefinition}
    (h : reassignedMap map source target display=.ok next) :
    next={ map with nodes := map.nodes.map (reassignedNode map source target display) } := by
  simp only [reassignedMap,required_eq_ok] at h
  cases hgroups : reassignsGroups map source target with
  | true =>
    have hpath : (!map.nodes.any fun node => inTransferGroup (transferGroups map source) node &&
        trim node.apparatusId == target.value)=false ∧
        (transferGroups map source).isEmpty=false := by
      simpa [reassignsGroups,and_comm] using hgroups
    simp only [reassignAlternativeAssignment,hpath.1,hpath.2,Bool.or_self,Bool.false_eq_true,
      if_false,Option.some_or,Option.some.injEq] at h
    have hnode : reassignedNode map source target display =
        assignToTarget target display (transferGroups map source) := by
      funext node
      rw [reassignedNode,if_pos hgroups]
    rw [← h,hnode]
  | false =>
    have hpath : ((transferGroups map source).isEmpty || !map.nodes.any fun node =>
        inTransferGroup (transferGroups map source) node &&
          trim node.apparatusId == target.value)=true := by
      rw [← Bool.not_eq_false',Bool.not_or,Bool.not_not]
      exact hgroups
    simp only [reassignAlternativeAssignment,hpath,if_true,Option.none_or,reassignNodes] at h
    split at h
    · have hnode : reassignedNode map source target display =
          renameToTarget source target display := by
        funext node
        rw [reassignedNode,if_neg (by rw [hgroups]; exact Bool.false_ne_true)]
      rw [← Option.some.inj h,hnode]
    · cases h

theorem sameButMachine_reassignedNode (node : ProductionMapNode) :
    SameButMachine node (reassignedNode map source target display node) := by
  unfold SameButMachine reassignedNode assignToTarget renameToTarget
  split <;> split <;> rfl

theorem reassignedNode_ne_iff (node : ProductionMapNode) :
    reassignedNode map source target display node≠node ↔
      changesMachine map source target display node=true := by
  unfold reassignedNode changesMachine assignToTarget renameToTarget
  split
  all_goals
    split
    · rename_i hin
      rw [hin,Bool.true_and,Bool.or_eq_true,bne_iff_ne,bne_iff_ne,← not_and_or]
      cases node
      simp [eq_comm,and_comm]
    · rename_i hin
      simp [hin]

theorem mapLocal_iff {next : ProductionMapDefinition} {stageNodeId : String}
    (h : reassignedMap map source target display=.ok next) :
    MapLocal map next stageNodeId ↔ LocalReassignment map source target display stageNodeId := by
  rw [reassignedMap_ok h]
  have hnodes : ∀ {R : ProductionMapNode → ProductionMapNode → Prop},
      List.Forall₂ R map.nodes (map.nodes.map (reassignedNode map source target display)) ↔
        ∀ node∈map.nodes, R node (reassignedNode map source target display node) := by
    intro R
    rw [forall₂_map_right_iff,forall₂_same]
  constructor
  · intro hlocal node hnode hchanged
    exact (hnodes.mp hlocal.nodes node hnode).2 ((reassignedNode_ne_iff node).mpr hchanged)
  · intro hlocal
    refine ⟨rfl,hnodes.mpr fun node hnode => ⟨sameButMachine_reassignedNode node,fun hne => ?_⟩⟩
    exact hlocal node hnode ((reassignedNode_ne_iff node).mp hne)

end Reassigned

theorem withoutOrder_withoutOrder (orderId : String) (sequence : List String) :
    withoutOrder orderId (withoutOrder orderId sequence)=withoutOrder orderId sequence := by
  simp [withoutOrder]

theorem withoutOrder_append_self {orderId : String} (h : trim orderId=orderId)
    (sequence : List String) : withoutOrder orderId (withoutOrder orderId sequence++[orderId]) =
      withoutOrder orderId sequence := by
  have hself : withoutOrder orderId [orderId]=[] := by simp [withoutOrder,h]
  have happend : withoutOrder orderId (withoutOrder orderId sequence++[orderId]) =
      withoutOrder orderId (withoutOrder orderId sequence)++withoutOrder orderId [orderId] :=
    filter_append _ _
  rw [happend,hself,withoutOrder_withoutOrder,append_nil]

theorem trim_ne_of_mem_withoutOrder {orderId id : String} {sequence : List String}
    (h : id∈withoutOrder orderId sequence) : trim id≠orderId := by
  simpa using (mem_filter.mp h).2

theorem getElem?_insert_insert {β : Type} (table : TreeMap ApparatusId β)
    (source target apparatus : ApparatusId) (left right : β) :
    ((table.insert source left).insert target right)[apparatus]? =
      if target=apparatus then some right
      else if source=apparatus then some left else table[apparatus]? := by
  simp only [TreeMap.getElem?_insert,LawfulEqOrd.compare_eq_iff_eq]

theorem getD_insert_insert {β : Type} (table : TreeMap ApparatusId β)
    (source target apparatus : ApparatusId) (left right default : β) :
    ((table.insert source left).insert target right).getD apparatus default =
      if target=apparatus then right
      else if source=apparatus then left else table.getD apparatus default := by
  rw [TreeMap.getD_eq_getD_getElem?,getElem?_insert_insert,TreeMap.getD_eq_getD_getElem?]
  split
  · rfl
  · split
    · rfl
    · rfl

section Queues
variable {ctx : TransferContext} {store : TransferStore} {intent : TransferIntent}
  {actor : MiniErp.QueueActionActor} {work : PausedWork} {moved : MovedWork}

theorem sequences_afterTransfer (hother : work.preserveOutputHistory=false) :
    (afterTransfer ctx store intent actor work moved).sequences =
      (store.sequences.insert intent.source
        (withoutOrder intent.orderId (store.sequences.getD intent.source []))).insert intent.target
        (withoutOrder intent.orderId (store.sequences.getD intent.target []) ++
          [intent.orderId]) := by
  have htarget : ∀ states, targetSequence store intent work states =
      store.sequences.getD intent.target [] := by
    intro states
    simp only [targetSequence,hother,Bool.false_eq_true,if_false]
  change (store.sequences.insert intent.source _).insert intent.target
    (withoutOrder intent.orderId (targetSequence store intent work _)++[intent.orderId])=_
  rw [htarget]
  rfl

theorem queueStates_afterTransfer : (afterTransfer ctx store intent actor work moved).queueStates =
      (store.queueStates.insert intent.source
        ((sourceStates store intent).erase intent.orderId)).insert intent.target
        ((targetStates store intent).insert intent.orderId work.targetState.asStr) :=
  rfl

theorem storedSourceState_of_commit {digest : ProductionMapDefinition → String}
    {write : ProductionMapApparatusTransferWrite} {next : TransferStore}
    {source target : ApparatusId} {orderId : String}
    (h : commitNewTransfer digest store write source target orderId=.ok next) :
    storedSourceState store source orderId=some write.record.queueState.asStr := by
  simp only [commitNewTransfer,bind_eq_ok] at h
  obtain ⟨-,-,-,-,-,-,-,-,current,-,_,hsession,-⟩ := h
  simp only [checkCommitSession,bind_eq_ok,ensure_eq_ok,Bool.and_eq_true,beq_iff_eq] at hsession
  obtain ⟨-,-,-,⟨-,hstate⟩,-⟩ := hsession
  exact hstate

theorem queuesMoved_afterTransfer (hother : work.preserveOutputHistory=false)
    (horder : trim intent.orderId=intent.orderId) (hne : intent.source≠intent.target)
    (hstate : storedSourceState store intent.source intent.orderId=some work.targetState.asStr) :
    QueuesMoved store (afterTransfer ctx store intent actor work moved) intent.source
      intent.target intent.orderId where
  tail := by
    rw [sequences_afterTransfer hother,getElem?_insert_insert,if_pos rfl]
    exact ⟨_,rfl,fun id => trim_ne_of_mem_withoutOrder⟩
  left := by
    rw [sequences_afterTransfer hother,getElem?_insert_insert,if_neg hne.symm,if_pos rfl]
    exact ⟨_,rfl,fun id => trim_ne_of_mem_withoutOrder⟩
  order := by
    intro apparatus
    rw [sequences_afterTransfer hother,getD_insert_insert]
    split
    · rename_i htarget
      rw [withoutOrder_append_self horder,htarget]
    · split
      · rename_i hsource
        rw [withoutOrder_withoutOrder,hsource]
      · rfl
  elsewhere := by
    intro apparatus hsource htarget
    rw [sequences_afterTransfer hother,queueStates_afterTransfer,getElem?_insert_insert,
      getElem?_insert_insert]
    simp [hsource.symm,htarget.symm]
  state := by
    rw [queueStates_afterTransfer,getD_insert_insert,if_pos rfl]
    exact ⟨_,TreeMap.getElem?_insert_self,hstate⟩
  gone := by
    rw [queueStates_afterTransfer,getD_insert_insert,if_neg hne.symm,if_pos rfl]
    exact TreeMap.getElem?_erase_self
  others := by
    intro apparatus id hid
    have hcompare : ¬ compare intent.orderId id=.eq := by
      rw [LawfulEqOrd.compare_eq_iff_eq]
      exact hid.symm
    rw [queueStates_afterTransfer,getD_insert_insert]
    split
    · rename_i htarget
      rw [TreeMap.getElem?_insert,if_neg hcompare,targetStates,htarget]
    · split
      · rename_i hsource
        rw [TreeMap.getElem?_erase,if_neg hcompare,sourceStates,hsource]
      · rfl

theorem movedWork_map (hother : work.preserveOutputHistory=false)
    (hmoved : movedWork ctx store intent actor work=.ok moved) :
    reassignedMap work.map intent.source intent.target (ctx.displayName work.target) =
      .ok moved.map := by
  simp only [movedWork,hother,Bool.false_eq_true,if_false,movedOtherWork,bind_eq_ok] at hmoved
  obtain ⟨-,-,session,-,output,-,updates,-,map,hmap,h⟩ := hmoved
  rw [← Except.ok.inj h]
  exact hmap

theorem pausedWork_map (h : pausedWork ctx store intent=.ok work) :
    trim work.map.id=intent.orderId := by
  simp only [pausedWork,bind_eq_ok,required_eq_ok] at h
  obtain ⟨map,hmap,-,-,-,-,source,-,target,-,-,-,-,-,-,-,-,-,session,-,h⟩ := h
  rw [← Except.ok.inj h]
  simpa using find?_some hmap

end Queues

/-- An accepted transfer of work that is not printing changes the machine of the session's stage
only, appends the order to the target queue and leaves the rest of the map and of the queues
alone, exactly when every node that carries the source machine belongs to that stage. -/
theorem transfer_framed_iff (ctx : TransferContext) (store next : TransferStore)
    (input : ProductionMapApparatusTransferRequest) (actor : MiniErp.QueueActionActor)
    (record : ProductionMapApparatusTransferRecord)
    (hnew : store.apparatusTransfers.get? (trim input.idempotencyKey)=none)
    (h : transferApparatusOrder ctx store input actor=(.ok record, next))
    (hother : record.preservesOutputHistory=false) :
    ∃ intent work, transferIntent input=.ok intent ∧ pausedWork ctx store intent=.ok work ∧
      QueuesMoved store next intent.source intent.target intent.orderId ∧
      (TransferFramed store next intent work ↔
        LocalReassignment work.map intent.source intent.target (ctx.displayName work.target)
          work.session.stageNodeId) := by
  obtain ⟨intent,work,moved,hintent,hwork,hmoved,hrecord,hcommit⟩ :=
    transferApparatusOrder_ok hnew h
  refine ⟨intent,work,hintent,hwork,?_⟩
  have hprinting : work.preserveOutputHistory=false := by
    rw [hrecord] at hother
    exact hother
  have hnext : next=afterTransfer ctx store intent actor work moved := committed_of_commit hcommit
  have hqueues : QueuesMoved store next intent.source intent.target intent.orderId := by
    rw [hnext]
    exact queuesMoved_afterTransfer hprinting (trim_orderId hintent) (transferIntent_ok hintent).2.2
      (storedSourceState_of_commit hcommit)
  have hmap := movedWork_map hprinting hmoved
  have hstored : next.maps.get? intent.orderId=some moved.map := by
    have hid : trim moved.map.id=intent.orderId := by
      rw [reassignedMap_ok hmap]
      exact pausedWork_map hwork
    rw [hnext,← hid]
    change (store.maps.insert moved.map).get? (trim moved.map.id)=some moved.map
    rw [Table.get?_insert,if_pos rfl]
  refine ⟨hqueues,?_⟩
  rw [← mapLocal_iff hmap]
  constructor
  · intro hframed
    obtain ⟨⟨map,hget,hlocal⟩,-⟩ := hframed
    rw [hstored,Option.some.injEq] at hget
    rwa [hget]
  · intro hlocal
    exact ⟨⟨moved.map,hstored,hlocal⟩,hqueues⟩

section Sample

/-- A route with one lamination is rewritten at that stage only. -/
theorem transfer_framed_single_visit : ∃ record next intent work,
      transferApparatusOrder laminationContext (pausedLamination false) toOtherLaminator
        shiftAdmin=(.ok record, next) ∧
      transferIntent toOtherLaminator=.ok intent ∧
      pausedWork laminationContext (pausedLamination false) intent=.ok work ∧
      TransferFramed (pausedLamination false) next intent work := by
  have ⟨hrecord,hnew,hlocal⟩ :
      (transferApparatusOrder laminationContext (pausedLamination false) toOtherLaminator
        shiftAdmin).1.toOption.map (·.preservesOutputHistory)=some false ∧
      ((pausedLamination false).apparatusTransfers.get?
        (trim toOtherLaminator.idempotencyKey)).isNone=true ∧
      ((transferIntent toOtherLaminator).toOption.bind fun intent =>
        (pausedWork laminationContext (pausedLamination false) intent).toOption.map fun work =>
          decide (LocalReassignment work.map intent.source intent.target
            (laminationContext.displayName work.target) work.session.stageNodeId)) =
        some true := by
    decide +kernel
  obtain ⟨record,haccepted,hother⟩ := Option.map_eq_some_iff.mp hrecord
  have hok := eq_of_accepted haccepted
  obtain ⟨intent,work,hintent,hwork,-,hiff⟩ := transfer_framed_iff laminationContext
    (pausedLamination false) _ toOtherLaminator shiftAdmin record
    (Option.isNone_iff_eq_none.mp hnew) hok hother
  simp only [hintent,Except.toOption,Option.bind_some,hwork,Option.map_some,Option.some.injEq,
    decide_eq_true_eq] at hlocal
  exact ⟨record,_,intent,work,hok,hintent,hwork,hiff.mpr hlocal⟩

/-- A route that comes back to the first laminator. -/
def laminatedTwice (machine : String) (title : String) : ProductionMapDefinition :=
  { pressThenLaminator with
    nodes :=
      [{ id := "start", kind := .start, title := "" },
        { id := "print", kind := .apparatus, title := "Press", apparatusId := "apparatus:press:1" },
        { id := "laminate", kind := .apparatus, title, apparatusId := machine },
        { id := "relaminate", kind := .apparatus, title, apparatusId := machine },
        { id := "end", kind := .endNode, title := "" }]
    edges :=
      [⟨"start","print",""⟩,⟨"print","laminate",""⟩,
        ⟨"laminate","relaminate",""⟩,⟨"relaminate","end",""⟩] }

def pausedFirstVisit : TransferStore :=
  { pausedLamination false with
    maps := .ofList [laminatedTwice "apparatus:laminator:1" "Laminator"] }

/-- The transfer of the first visit moves the second one as well. -/
theorem second_visit_rewritten : ∃ record next intent work,
      transferApparatusOrder laminationContext pausedFirstVisit toOtherLaminator shiftAdmin =
        (.ok record, next) ∧
      record.preservesOutputHistory=false ∧ transferIntent toOtherLaminator=.ok intent ∧
      pausedWork laminationContext pausedFirstVisit intent=.ok work ∧
      work.session.stageNodeId = "laminate" ∧
      ¬ TransferFramed pausedFirstVisit next intent work := by
  have ⟨hrecord,hmap,hwork,hnodes⟩ :
      (transferApparatusOrder laminationContext pausedFirstVisit toOtherLaminator
        shiftAdmin).1.toOption.map (·.preservesOutputHistory)=some false ∧
      (transferApparatusOrder laminationContext pausedFirstVisit toOtherLaminator
        shiftAdmin).2.maps.get? "zakaz-1" =
          some (laminatedTwice "apparatus:laminator:2" "apparatus:laminator:2") ∧
      ((transferIntent toOtherLaminator).toOption.bind fun intent =>
        (pausedWork laminationContext pausedFirstVisit intent).toOption.map fun work =>
          (intent.orderId, work.map, work.session.stageNodeId)) =
        some ("zakaz-1", laminatedTwice "apparatus:laminator:1" "Laminator", "laminate") ∧
      ¬ List.Forall₂ (fun old new => SameButMachine old new ∧ (new≠old →
          InOccurrence (laminatedTwice "apparatus:laminator:1" "Laminator") "laminate" old))
        (laminatedTwice "apparatus:laminator:1" "Laminator").nodes
        (laminatedTwice "apparatus:laminator:2" "apparatus:laminator:2").nodes := by
    decide +kernel
  obtain ⟨record,haccepted,hother⟩ := Option.map_eq_some_iff.mp hrecord
  obtain ⟨intent,hintent,hrest⟩ := Option.bind_eq_some_iff.mp hwork
  obtain ⟨work,hpaused,hfields⟩ := Option.map_eq_some_iff.mp hrest
  simp only [Prod.mk.injEq] at hfields
  obtain ⟨hid,hold,hstage⟩ := hfields
  refine ⟨record,_,intent,work,eq_of_accepted haccepted,hother,
    toOption_eq_some.mp hintent,toOption_eq_some.mp hpaused,hstage,fun hframed => ?_⟩
  obtain ⟨⟨map,hget,hlocal⟩,-⟩ := hframed
  rw [hid,hmap,Option.some.injEq] at hget
  rw [hold,hstage,← hget] at hlocal
  exact hnodes hlocal.nodes

end Sample

end MiniErp.Transfer
