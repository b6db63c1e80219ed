import MiniErp.Wip.RouteSound

/-! The claim of a waiting roll by one consumer, and the saves that follow it. The claim binds the
roll to its route; whether the binding resolves again depends on how the producer is found once
the destination is bound, and every accepted save keeps what resolved. -/
namespace MiniErp.Wip
open Text Chain Run List
variable {digest : ProductionMapDefinition → String} {map : ProductionMapDefinition}
  {batch claimed : OrderProgressBatch} {route : WipInputRoute} {consumer : ProductionMapNode}
  {apparatus sessionId : String} {now : Int}

/-- The roll after a claim: bound to the route with the consumer as its destination, then in use.
`none`: the payload cannot be written to. -/
def claimBatch (batch : OrderProgressBatch) (route : WipInputRoute)
    (stageNodeId apparatus sessionId : String) (now : Int) : Option OrderProgressBatch := do
  let payload ← batch.payloadJson.set "wip_route_binding" { route with stageNodeId }.toJson
  { batch with payloadJson := payload }.wipBatchInUse apparatus sessionId now

structure IsConsumer (map : ProductionMapDefinition) (route : WipInputRoute)
    (consumer : ProductionMapNode) (apparatus : String) : Prop where
  mem : consumer∈map.nodes
  kind : consumer.kind=.apparatus
  occurrence : ∃ target∈map.nodes, target.id=route.stageNodeId ∧
    occurrence consumer=occurrence target
  stage : stageApparatus (linearWorkStages map) consumer.id=some apparatus

/-- The producer can be found again from the bound destination: it is named, or it was already
inferred from a destination, or it ran on a machine just before the consumer. -/
def ProducerRecoverable (map : ProductionMapDefinition) (batch : OrderProgressBatch)
    (consumer : ProductionMapNode) : Prop :=
  batch.field "stage_node_id" ≠ "" ∨ ¬Unbound batch ∨ batch.field "next_stage_node_id" ≠ "" ∨
    ∃ stage∈previousWorkStagesForNode map consumer.id,
      matchesApparatus stage.apparatusId batch.apparatus=true

/-- What a claim changes of the data that the resolver reads. -/
structure Claimed (batch claimed : OrderProgressBatch) (binding : WipInputRoute)
    (apparatus : String) : Prop where
  orderId : claimed.orderId=batch.orderId
  action : claimed.action=batch.action
  producer : claimed.apparatus=batch.apparatus
  sourceId : claimed.field "stage_node_id" = batch.field "stage_node_id"
  binding : routeBinding claimed=.ok (some binding)
  usedByApparatus : claimed.usedByApparatus=trim apparatus
  wipStatus : claimed.wipStatus=.inUse
  refreshed : claimed.refreshStatusDetail=claimed

theorem claimed_of_claimBatch {stageNodeId : String}
    (h : claimBatch batch route stageNodeId apparatus sessionId now=some claimed) :
    Claimed batch claimed { route with stageNodeId } apparatus := by
  obtain ⟨payload,hpayload,h⟩ := Option.bind_eq_some_iff.mp h
  obtain ⟨final,hfinal,rfl⟩ := Option.map_eq_some_iff.mp h
  have hget (key : String) (hkey : key ≠ "wip_processed_at_unix") :
      final.get key=if key = "wip_in_use_at_unix" then some (.number (.int now))
        else if key = "wip_route_binding" then some { route with stageNodeId }.toJson
        else batch.payloadJson.get key := by
    rw [Json.get_set hfinal]
    split
    · rfl
    · change (payload.remove "wip_processed_at_unix").get key=_
      rw [Json.get_remove_ne payload hkey,Json.get_set hpayload]
  refine ⟨rfl,rfl,rfl,?_,?_,rfl,rfl,rfl⟩
  · change trim (((final.get "stage_node_id").bind Json.asStr).getD "")=_
    rw [hget _ (by decide)]
    rfl
  · have hbinding : final.get "wip_route_binding" = some { route with stageNodeId }.toJson := by
      rw [hget _ (by decide),if_neg (by decide),if_pos rfl]
    simp [routeBinding,OrderProgressBatch.refreshStatusDetail,hbinding]

theorem dedup_eq_singleton {α : Type} [DecidableEq α] {l : List α} {x : α} :
    l.dedup=[x] ↔ l ≠ [] ∧ ∀ y∈l, y=x := by
  constructor
  · intro h
    have hmem (y : α) : y∈l ↔ y=x := by rw [← mem_dedup,h,mem_singleton]
    exact ⟨ne_nil_of_mem ((hmem x).mpr rfl),fun y hy => (hmem y).mp hy⟩
  · rintro ⟨hne,hall⟩
    obtain ⟨y,hy⟩ := exists_mem_of_ne_nil l hne
    refine perm_singleton.mp ((perm_ext_iff_of_nodup (nodup_dedup l)
      (nodup_singleton x)).mpr fun z => ?_)
    rw [mem_dedup,mem_singleton]
    exact ⟨hall z,fun hz => hz ▸ hall y hy ▸ hy⟩

theorem sourceIds_eq_singleton {possible : List ChainStage} {id : String} :
    sourceIds batch possible=[id] ↔
    (∃ stage∈possible, matchesApparatus stage.apparatusId batch.apparatus=true) ∧ ∀ stage∈possible,
    matchesApparatus stage.apparatusId batch.apparatus=true → stage.nodeId=id := by
  rw [sourceIds,dedup_eq_singleton]
  simp only [ne_eq,map_eq_nil_iff,filter_eq_nil_iff,not_forall,mem_map,
    mem_filter,forall_exists_index,and_imp]
  constructor
  · rintro ⟨⟨stage,hstage,hmatch⟩,hall⟩
    exact ⟨⟨stage,hstage,by simpa using hmatch⟩,fun s hs hm => hall _ s hs hm rfl⟩
  · rintro ⟨⟨stage,hstage,hmatch⟩,hall⟩
    refine ⟨⟨stage,hstage,by simpa using hmatch⟩,?_⟩
    rintro y s hs hm rfl
    exact hall s hs hm

section Resolution
variable {request : RouteRequest} {possible : List ChainStage} {source : ProductionMapNode}
  {choice : RouteChoice}

def boundRequest (binding : WipInputRoute) (sourceId : String) : RouteRequest :=
  { binding := some binding, targetId := binding.stageNodeId, sourceId }

variable {binding : WipInputRoute}

theorem routeRequest_claimed
    (h : Claimed batch claimed binding apparatus) (hrequest : routeRequest map batch=.ok request) :
    routeRequest map claimed=.ok (boundRequest binding request.sourceId) := by
  obtain ⟨⟨horder,haction⟩,_,_,hsource⟩ := routeRequest_eq_ok.mp hrequest
  refine routeRequest_eq_ok.mpr ⟨⟨?_,?_⟩,h.binding,rfl,?_⟩
  · rw [h.orderId,horder]
  · rw [h.action,haction]
  · rw [h.sourceId]
    exact hsource

theorem possibleSourcesOf_bound (hclean : CleanIds map) (claimed : OrderProgressBatch)
    (sourceId : String) (hmem : consumer∈map.nodes)
    (hkind : consumer.kind=.apparatus) (hbinding : binding.stageNodeId=consumer.id) :
    possibleSourcesOf map claimed (boundRequest binding sourceId) =
      .ok (if sourceId = "" then previousWorkStagesForNode map consumer.id else []) := by
  have hne : consumer.id ≠ "" := by
    rw [← hclean.trimmed consumer hmem]
    exact hclean.nonblank consumer hmem
  by_cases hsource : sourceId = ""
  · simp [possibleSourcesOf,boundRequest,checkInference,hsource,hbinding,hne,
      routeNode_of_mem hclean hmem hkind,ensure,bind,Except.bind,pure,Except.pure]
  · simp [possibleSourcesOf,boundRequest,hsource,pure,Except.pure]

/-- The bound destination of a claimed roll is chosen whenever its occurrence is a successor. -/
theorem routeChoice_claimed (hclean : CleanIds map) {stages successors : List ChainStage}
    {groups : SuccessorGroups} (hsound : StagesSound map stages)
    (hgroups : GroupsOf map stages successors groups) (sourceId : String)
    (h : Claimed batch claimed binding apparatus) (hmem : consumer∈map.nodes)
    (hkind : consumer.kind=.apparatus) (hbinding : binding.stageNodeId=consumer.id)
    (hstage : stageApparatus stages consumer.id=some apparatus)
    (hsuccessor : OccurrenceOf map successors (occurrence consumer)) :
    routeChoice map stages claimed (boundRequest binding sourceId) groups =
      .ok ⟨consumer,stageMembers map stages (occurrence consumer),binding.remapped⟩ := by
  have hgroup : groups[occurrence consumer]? =
      some (stageMembers map stages (occurrence consumer)) := (hgroups _ _).mpr ⟨hsuccessor,rfl⟩
  have hcanonical := canonical_of_stageApparatus hclean hsound hmem hstage
  have hvalid := (canonicalApparatusIdentity_eq_some.mp hcanonical).2.1
  refine routeChoice_eq_ok.mpr ⟨consumer,?_,hgroup,?_,?_⟩
  · refine destination_eq_ok.mpr (.inl ⟨?_,?_,?_,rfl⟩)
    · rw [boundRequest,hbinding,← hclean.trimmed consumer hmem]
      exact hclean.nonblank consumer hmem
    · rw [boundRequest,hbinding]
      exact routeNode_of_mem hclean hmem hkind
    · rw [Std.TreeMap.contains_eq_isSome_getElem?,hgroup]
      rfl
  · rfl
  · refine checkMachines_eq_ok.mpr ⟨fun _ _ => ?_,fun hnone => nomatch hnone⟩
    rw [hstage,h.usedByApparatus]
    simp [matchesApparatus,apparatusIdsMatch,ApparatusId.trim_eq hvalid,hvalid]

theorem resolves_target_of_waiting (h : Resolves map batch request possible source choice)
    (hwaiting : batch.wipStatus=.waiting) : destination map (linearWorkStages map) batch request
      (successorGroups map (linearWorkStages map) (nextWorkStagesForNode map source.id)) =
        .ok (choice.target, choice.remapped) := by
  obtain ⟨target,hdestination,_,hheld,_⟩ := routeChoice_eq_ok.mp h.chosen
  have heq : target=choice.target := by simpa [heldTarget,hwaiting] using hheld
  exact heq ▸ hdestination

section
variable (hclean : CleanIds map) (h : Resolves map batch request possible source choice)
include hclean h

theorem inferred_source (hsource : request.sourceId = "") :
    sourceIds batch possible=[source.id] := by
  obtain ⟨_,id,hids,hnode⟩ := ((routeSource_eq_ok.mp h.produced).found).resolve_left
    fun hnamed => hnamed.1 hsource
  obtain ⟨hsourceMem,htrim,_⟩ := routeNode_eq_some hnode
  rw [hids,← htrim,hclean.trimmed source hsourceMem]

/-- A producer inferred from a destination is found again from every member of it. -/
theorem sourceIds_of_target (hwaiting : batch.wipStatus=.waiting)
    (hsource : request.sourceId = "") (htarget : request.targetId ≠ "")
    (hmem : consumer∈map.nodes)
    (hoccurrence : occurrence consumer=occurrence choice.target)
    (hstage : stageApparatus (linearWorkStages map) consumer.id=some apparatus) :
    sourceIds batch (previousWorkStagesForNode map consumer.id)=[source.id] := by
  have hsound := linearWorkStages_sound map
  have hids := inferred_source hclean h hsource
  -- the destination exists, so it is the node the roll names
  have hnamed : possible=previousWorkStagesForNode map request.targetId ∧
      ∃ node, routeNode map request.targetId=some node := by
    have hpossible := h.possibleSources
    simp only [possibleSourcesOf,hsource,bne_self_eq_false,Bool.false_eq_true,if_false,
      beq_iff_eq,htarget,bind_eq_ok,pure,Except.pure,Except.ok.injEq] at hpossible
    obtain ⟨_,hcheck,hvalue⟩ := hpossible
    rw [checkInference,ensure_bind_eq_ok] at hcheck
    refine ⟨hvalue.symm,Option.isSome_iff_exists.mp ?_⟩
    simpa [htarget] using hcheck.1
  obtain ⟨hpossible,node,hfind⟩ := hnamed
  obtain ⟨hnodeMem,hnodeId,hnodeKind⟩ := routeNode_eq_some hfind
  have hchosen : choice.target=node := by
    rcases destination_eq_ok.mp (resolves_target_of_waiting h hwaiting) with
      ⟨_,hexplicit,_⟩ | ⟨hmissing | hmissing,_⟩
    · exact Option.some.inj (hexplicit.symm.trans hfind)
    · exact absurd hmissing htarget
    · rw [hfind] at hmissing
      cases hmissing
  have htargetId : request.targetId=node.id := by rw [← hnodeId,hclean.trimmed node hnodeMem]
  rw [hpossible,htargetId] at hids
  obtain ⟨⟨first,hfirst,_⟩,_⟩ := sourceIds_eq_singleton.mp hids
  obtain ⟨own,hown,hownId⟩ := (mem_adjacent_iff.mp hfirst).1
  have hnodeCanonical : (canonicalApparatusIdentity node).isSome=true := by
    obtain ⟨owner,howner⟩ := hsound.stageOf own hown
    have heq : owner=node := hclean.eq_of_trim howner.mem hnodeMem (howner.nodeId ▸ hownId)
    exact heq ▸ howner.physical (heq ▸ hnodeKind)
  have hconsumerCanonical := canonical_of_stageApparatus hclean hsound hmem hstage
  have hsame : SameOccurrence consumer node :=
    (sameOccurrence_iff hclean hmem hnodeMem (by simp [hconsumerCanonical]) hnodeCanonical).mpr
      (hchosen ▸ hoccurrence)
  obtain ⟨stage,hstageMem,hstageId,_⟩ := exists_stage_of_stageApparatus hstage
  rw [previousWorkStagesForNode_congr hclean hmem hnodeMem hsame ⟨stage,hstageMem,hstageId⟩
    ⟨own,hown,hownId⟩]
  exact hids

/-- A producer found on the whole route is found again before the consumer, if it runs there. -/
theorem sourceIds_of_previous (hsource : request.sourceId = "")
    (htarget : request.targetId = "")
    (hprevious : ∃ stage∈previousWorkStagesForNode map consumer.id,
      matchesApparatus stage.apparatusId batch.apparatus=true) :
    sourceIds batch (previousWorkStagesForNode map consumer.id)=[source.id] := by
  have hids := inferred_source hclean h hsource
  have hpossible : possible=linearWorkStages map := by
    have hpossible := h.possibleSources
    simp only [possibleSourcesOf,hsource,bne_self_eq_false,Bool.false_eq_true,if_false,
      beq_iff_eq,htarget,if_true,bind_eq_ok,pure,Except.pure,Except.ok.injEq] at hpossible
    obtain ⟨_,_,hvalue⟩ := hpossible
    exact hvalue.symm
  rw [hpossible] at hids
  refine sourceIds_eq_singleton.mpr ⟨hprevious,fun stage hstage => ?_⟩
  exact (sourceIds_eq_singleton.mp hids).2 stage (mem_stages_of_adjacent hstage).1

/-- Resolving a claimed roll needs its producer again; the rest of the route is bound. -/
theorem resolves_claimed_iff
    (hconsumer : IsConsumer map (routeOf digest map source choice) consumer apparatus)
    (hclaimed : Claimed batch claimed
      { routeOf digest map source choice with stageNodeId := consumer.id } apparatus) :
    (∃ kept, resolveWipInputRoute digest map claimed=.ok kept ∧
      kept.sourceStageNodeId=source.id ∧ kept.stageNodeId=consumer.id) ↔
    (request.sourceId ≠ "" ∨
      sourceIds batch (previousWorkStagesForNode map consumer.id)=[source.id]) := by
  have hsound := linearWorkStages_sound map
  have hgroups := groupsOf_nextStages hclean source.id
  have hsourceSound := (routeSource_eq_ok.mp h.produced).sound
    fun _ hstage => mem_possible h.possibleSources hstage
  have hrequest := routeRequest_claimed hclaimed h.requested
  have hpossible := possibleSourcesOf_bound hclean claimed request.sourceId hconsumer.mem
    hconsumer.kind
    (rfl : { routeOf digest map source choice with stageNodeId := consumer.id }.stageNodeId=_)
  have hids (stages : List ChainStage) : sourceIds claimed stages=sourceIds batch stages := by
    rw [sourceIds,sourceIds,hclaimed.producer]
  constructor
  · rintro ⟨kept,hkept,hkeptSource,_⟩
    obtain ⟨request',possible',source',choice',hres,rfl⟩ := resolveWipInputRoute_eq_ok.mp hkept
    obtain rfl := Except.ok.inj (hrequest.symm.trans hres.requested)
    obtain rfl := Except.ok.inj (hpossible.symm.trans hres.possibleSources)
    by_cases hsource : request.sourceId = ""
    · right
      have hinferred := inferred_source hclean hres hsource
      rw [if_pos hsource,hids] at hinferred
      rw [hinferred]
      exact congrArg (fun id => [id]) hkeptSource
    · exact .inl hsource
  · intro hrecover
    have hsuccessor : OccurrenceOf map (nextWorkStagesForNode map source.id)
        (occurrence consumer) := by
      obtain ⟨target,htarget,htargetId,hoccurrence⟩ := hconsumer.occurrence
      obtain ⟨hchosen,_,hsuccessor,_⟩ := routeChoice_target hgroups h.chosen
      have heq : target=choice.target := hclean.eq_of_trim htarget hchosen (htargetId ▸ rfl)
      rw [hoccurrence,heq]
      exact hsuccessor
    have hchoice := routeChoice_claimed hclean hsound hgroups request.sourceId hclaimed
      hconsumer.mem hconsumer.kind rfl hconsumer.stage hsuccessor
    have hproduced : routeSource map (linearWorkStages map) claimed
        (boundRequest { routeOf digest map source choice with stageNodeId := consumer.id }
          request.sourceId)
        (if request.sourceId = "" then previousWorkStagesForNode map consumer.id else []) =
          .ok source := by
      refine routeSource_eq_ok.mpr ⟨fun bound hbound => ?_,?_⟩
      · rw [← Option.some.inj hbound]
        rfl
      · by_cases hsource : request.sourceId = ""
        · refine .inr ⟨hsource,source.id,?_,routeNode_of_mem hclean hsourceSound.1 hsourceSound.2.1⟩
          rw [if_pos hsource,hids]
          exact hrecover.resolve_left (fun hne => hne hsource)
        · have hnamed := ((routeSource_eq_ok.mp h.produced).found).resolve_right
            fun hinferred => hsource hinferred.1
          exact .inl ⟨hsource,hnamed.2.1,by rw [hclaimed.producer]; exact hnamed.2.2⟩
    refine ⟨_,resolveWipInputRoute_eq_ok.mpr ⟨_,_,source,_,
      ⟨hrequest,rfl,hpossible,hproduced,hchoice⟩,rfl⟩,rfl,rfl⟩

end

end Resolution

/-- The saves after a claim, each accepted with the claimed roll among the checked ones. -/
def AcceptedSaves (digest : ProductionMapDefinition → String) (claimed : OrderProgressBatch) :
    ProductionMapDefinition → List (ProductionMapDefinition × List OrderProgressBatch) → Prop
  | _, [] => True
  | previous, (next, batches)::saves =>
    claimed∈batches ∧ validateMapWipRoutes digest previous next batches=.ok () ∧
      AcceptedSaves digest claimed next saves

def savedMap (map : ProductionMapDefinition)
    (saves : List (ProductionMapDefinition × List OrderProgressBatch)) : ProductionMapDefinition :=
  saves.foldl (fun _ save => save.1) map

def RouteKept (digest : ProductionMapDefinition → String) (claimed : OrderProgressBatch)
    (sourceId stageId : String) (map : ProductionMapDefinition) : Prop :=
  ∃ kept, resolveWipInputRoute digest map claimed=.ok kept ∧
    kept.sourceStageNodeId=sourceId ∧ kept.stageNodeId=stageId

/-- One save: a roll in use that resolved keeps its producer and its destination. -/
theorem RouteKept.save {binding : WipInputRoute} (hclaimed : Claimed batch claimed binding apparatus)
    {sourceId stageId : String} {previous next : ProductionMapDefinition}
    {batches : List OrderProgressBatch} (h : RouteKept digest claimed sourceId stageId previous)
    (hmem : claimed∈batches)
    (hsave : validateMapWipRoutes digest previous next batches=.ok ()) :
    RouteKept digest claimed sourceId stageId next := by
  obtain ⟨route,hroute,hsource,hstage⟩ := h
  have hnormal : claimed.normalizedRouteBatch=claimed := by
    rw [OrderProgressBatch.normalizedRouteBatch,
      OrderProgressBatch.restoreSelfConsumedWip_of_inUse hclaimed.wipStatus,hclaimed.refreshed]
  have hbatch := forM_eq_ok.mp hsave claimed hmem
  simp only [validateBatchWipRoute,hnormal,hclaimed.wipStatus,bne_self_eq_false,Bool.and_false,
    Bool.false_eq_true,if_false,hroute,if_true,bind_eq_ok,ensure_eq_ok,beq_iff_eq] at hbatch
  obtain ⟨nextRoute,hnext,_,hsourceSame,hstageSame⟩ := hbatch
  exact ⟨nextRoute,hnext,hsourceSame ▸ hsource,hstageSame ▸ hstage⟩

/-- Every sequence of accepted saves keeps the route of a claimed roll. -/
theorem RouteKept.saves {binding : WipInputRoute}
    (hclaimed : Claimed batch claimed binding apparatus) {sourceId stageId : String}
    (saves : List (ProductionMapDefinition × List OrderProgressBatch))
    (h : RouteKept digest claimed sourceId stageId map)
    (haccepted : AcceptedSaves digest claimed map saves) :
    RouteKept digest claimed sourceId stageId (savedMap map saves) := by
  induction saves generalizing map with
  | nil => exact h
  | cons save saves ih =>
    obtain ⟨hmem,hsave,hrest⟩ := haccepted
    exact ih (h.save hclaimed hmem hsave) hrest

/-- After a claim the roll keeps its producer and its consumer through every accepted sequence
of saves, exactly when its producer can be found again from the consumer. -/
theorem claimed_route_kept_iff (digest : ProductionMapDefinition → String)
    (map : ProductionMapDefinition) (batch claimed : OrderProgressBatch) (route : WipInputRoute)
    (consumer : ProductionMapNode) (apparatus sessionId : String) (now : Int)
    (hclean : CleanIds map) (hwaiting : batch.wipStatus=.waiting)
    (hroute : resolveWipInputRoute digest map batch=.ok route)
    (hconsumer : IsConsumer map route consumer apparatus)
    (hclaim : claimBatch batch route consumer.id apparatus sessionId now=some claimed) :
    (∀ saves, AcceptedSaves digest claimed map saves →
      RouteKept digest claimed route.sourceStageNodeId consumer.id (savedMap map saves)) ↔
    ProducerRecoverable map batch consumer := by
  obtain ⟨request,possible,source,choice,hres,rfl⟩ := resolveWipInputRoute_eq_ok.mp hroute
  have hclaimed := claimed_of_claimBatch hclaim
  obtain ⟨_,hbinding,htargetId,hsourceId⟩ := routeRequest_eq_ok.mp hres.requested
  have hiff := resolves_claimed_iff hclean hres hconsumer hclaimed
  have hnow : (∀ saves, AcceptedSaves digest claimed map saves →
      RouteKept digest claimed source.id consumer.id (savedMap map saves)) ↔
      RouteKept digest claimed source.id consumer.id map :=
    ⟨fun h => h [] trivial,fun h saves => h.saves hclaimed saves⟩
  refine hnow.trans (hiff.trans ?_)
  rw [hsourceId,ProducerRecoverable]
  constructor
  · rintro (hnamed | hids)
    · exact .inl hnamed
    · exact .inr (.inr (.inr (sourceIds_eq_singleton.mp hids).1))
  · intro hrecoverable
    by_cases hsource : batch.field "stage_node_id" = ""
    · right
      have hrequestSource : request.sourceId = "" := hsourceId.trans hsource
      by_cases htarget : request.targetId = ""
      · -- a roll without a destination is unbound, so its producer must run before the consumer
        have hunbound : request.binding=none := by
          rcases destination_eq_ok.mp (resolves_target_of_waiting hres hwaiting) with
            ⟨hne,_⟩ | ⟨_,hopen,_⟩
          · exact absurd htarget hne
          · exact (openTarget_ok hopen).unbound
        rw [hunbound] at hbinding htargetId
        refine sourceIds_of_previous hclean hres hrequestSource htarget ?_
        rcases hrecoverable with hne | hbound | hne | hprevious
        · exact absurd hsource hne
        · exact absurd (routeBinding_eq_none.mp hbinding) hbound
        · exact absurd (htargetId.symm.trans htarget) hne
        · exact hprevious
      · obtain ⟨target,hmem,htargetEq,hoccurrence⟩ := hconsumer.occurrence
        have hchosen := routeChoice_target (groupsOf_nextStages hclean source.id) hres.chosen
        have heq : target=choice.target := hclean.eq_of_trim hmem hchosen.1 (htargetEq ▸ rfl)
        exact sourceIds_of_target hclean hres hwaiting hrequestSource htarget hconsumer.mem
          (heq ▸ hoccurrence) hconsumer.stage
    · exact .inl hsource

def laminatorNode : ProductionMapNode :=
  { id := "laminate", kind := .apparatus, title := "Laminator",
    apparatusId := "apparatus:laminator:1" }

theorem claimed_route_kept_iff_printed : ∃ claimed, claimBatch printedRoll
        ⟨"print","laminate",["apparatus:laminator:1"],"zakaz-1",false⟩ "laminate"
        "apparatus:laminator:1" "session-2" 0=some claimed ∧
      ∀ saves, AcceptedSaves (fun map => map.id) claimed pressThenLaminator saves →
        RouteKept (fun map => map.id) claimed "print" "laminate"
          (savedMap pressThenLaminator saves) := by
  refine ⟨_,rfl,(claimed_route_kept_iff (fun map => map.id) pressThenLaminator printedRoll _
    ⟨"print","laminate",["apparatus:laminator:1"],"zakaz-1",false⟩ laminatorNode
    "apparatus:laminator:1" "session-2" 0 (by decide +kernel) rfl
    (toOption_eq_some.mp (by decide +kernel)) ?_ rfl).mpr ?_⟩
  · exact ⟨by decide +kernel,rfl,⟨laminatorNode,by decide +kernel,rfl,rfl⟩,by decide +kernel⟩
  · exact .inr (.inr (.inr (by decide +kernel)))

/-- Two presses stand for each other; only one of them is drawn before the laminator. -/
def twoPresses : ProductionMapDefinition :=
  { pressThenLaminator with
    nodes :=
      [{ id := "start", kind := .start, title := "" },
        { id := "print-1", kind := .apparatus, title := "Press 1",
          apparatusId := "apparatus:press:1", alternativeGroupId := "presses" },
        { id := "print-2", kind := .apparatus, title := "Press 2",
          apparatusId := "apparatus:press:2", alternativeGroupId := "presses" },
        laminatorNode,
        { id := "end", kind := .endNode, title := "" }]
    edges := [⟨"start","print-1",""⟩,⟨"print-1","laminate",""⟩,⟨"laminate","end",""⟩] }

/-- A claim can lose the route: the roll of the second press resolves while it waits, and no
longer once it is bound to the laminator. -/
theorem claim_loses_route_of_undrawn_press :
    ¬∀ (digest : ProductionMapDefinition → String) (map : ProductionMapDefinition)
        (batch claimed : OrderProgressBatch) (route : WipInputRoute)
        (consumer : ProductionMapNode) (apparatus sessionId : String) (now : Int),
      batch.wipStatus=.waiting → resolveWipInputRoute digest map batch=.ok route →
      IsConsumer map route consumer apparatus →
      claimBatch batch route consumer.id apparatus sessionId now=some claimed →
        RouteKept digest claimed route.sourceStageNodeId consumer.id map := by
  intro h
  have hroute : resolveWipInputRoute (fun map => map.id) twoPresses
      { printedRoll with apparatus := "apparatus:press:2" } =
        .ok ⟨"print-2","laminate",["apparatus:laminator:1"],"zakaz-1",false⟩ :=
    toOption_eq_some.mp (by decide +kernel)
  have hconsumer : IsConsumer twoPresses
      ⟨"print-2","laminate",["apparatus:laminator:1"],"zakaz-1",false⟩ laminatorNode
        "apparatus:laminator:1" :=
    ⟨by decide +kernel,rfl,⟨laminatorNode,by decide +kernel,rfl,rfl⟩,by decide +kernel⟩
  obtain ⟨kept,hkept,_⟩ := h _ _ _ _ _ _ _ "session-2" 0 rfl hroute hconsumer rfl
  have hfails : ((claimBatch { printedRoll with apparatus := "apparatus:press:2" }
      ⟨"print-2","laminate",["apparatus:laminator:1"],"zakaz-1",false⟩ "laminate"
      "apparatus:laminator:1" "session-2" 0).bind fun claimed =>
        (resolveWipInputRoute (fun map => map.id) twoPresses claimed).toOption)=none := by
    decide +kernel
  rw [← toOption_eq_some] at hkept
  exact absurd (hfails.symm.trans hkept) (by simp)

end MiniErp.Wip
