import MiniErp.Wip.Groups

/-! What a resolved route says about the map, on every path through the resolver. -/
namespace MiniErp.Wip
open Text Chain Run List
variable {digest : ProductionMapDefinition → String} {map : ProductionMapDefinition}
  {stages : List ChainStage} {batch : OrderProgressBatch} {request : RouteRequest}
  {groups : SuccessorGroups} {candidates : List ProductionMapNode}

/-- The steps of a successful resolution. -/
structure Resolves (map : ProductionMapDefinition) (batch : OrderProgressBatch)
    (request : RouteRequest) (possible : List ChainStage) (source : ProductionMapNode)
    (choice : RouteChoice) : Prop where
  requested : routeRequest map batch=.ok request
  legacy : checkLegacyRoute (linearWorkStages map) batch request=.ok ()
  possibleSources : possibleSourcesOf map batch request=.ok possible
  produced : routeSource map (linearWorkStages map) batch request possible=.ok source
  chosen : routeChoice map (linearWorkStages map) batch request
    (successorGroups map (linearWorkStages map) (nextWorkStagesForNode map source.id))=.ok choice

def routeOf (digest : ProductionMapDefinition → String) (map : ProductionMapDefinition)
    (source : ProductionMapNode) (choice : RouteChoice) : WipInputRoute :=
  { sourceStageNodeId := source.id
    stageNodeId := choice.target.id
    consumerApparatusIds := consumerApparatusIds (linearWorkStages map) choice.candidates
    mapFingerprint := digest map
    remapped := choice.remapped }

theorem resolveWipInputRoute_eq_ok {route : WipInputRoute} : resolveWipInputRoute digest map batch =
    .ok route ↔ ∃ request possible source choice,
    Resolves map batch request possible source choice ∧ routeOf digest map source choice=route := by
  rw [resolveWipInputRoute_eq,resolvedRoute]
  simp only [bind_eq_ok,pure,Except.pure,Except.ok.injEq]
  constructor
  · rintro ⟨request,hrequest,_,hlegacy,possible,hpossible,source,hsource,choice,hchoice,hroute⟩
    exact ⟨request,possible,source,choice,⟨hrequest,hlegacy,hpossible,hsource,hchoice⟩,hroute⟩
  · rintro ⟨request,possible,source,choice,h,hroute⟩
    exact ⟨request,h.requested,(),h.legacy,possible,h.possibleSources,source,h.produced,
      choice,h.chosen,hroute⟩

theorem routeRequest_eq_ok : routeRequest map batch=.ok request ↔
      (trim batch.orderId=trim map.id ∧ batch.action.recordsProgressOutput=true) ∧
      routeBinding batch=.ok request.binding ∧
      request.targetId=(request.binding.map (·.stageNodeId)).getD
        (batch.field "next_stage_node_id") ∧
      request.sourceId=batch.field "stage_node_id" := by
  rw [routeRequest,ensure_bind_eq_ok,bind_eq_ok,Bool.and_eq_true,beq_iff_eq]
  simp only [pure,Except.pure,Except.ok.injEq]
  constructor
  · rintro ⟨hguard,binding,hbinding,rfl⟩
    exact ⟨hguard,hbinding,rfl,rfl⟩
  · rintro ⟨hguard,hbinding,htarget,hsource⟩
    refine ⟨hguard,request.binding,hbinding,?_⟩
    rw [← htarget,← hsource]

theorem routeBinding_eq_none :
    routeBinding batch=.ok none ↔ batch.payloadJson.get "wip_route_binding" = none := by
  unfold routeBinding
  cases batch.payloadJson.get "wip_route_binding" with
  | none => simp
  | some value => cases h : WipInputRoute.ofJson value <;> simp [h]

@[mk_iff] structure SourceFound (map : ProductionMapDefinition) (stages : List ChainStage)
    (batch : OrderProgressBatch) (request : RouteRequest) (possible : List ChainStage)
    (source : ProductionMapNode) : Prop where
  bound : ∀ bound, request.binding=some bound → bound.sourceStageNodeId=source.id
  found : (request.sourceId ≠ "" ∧ routeNode map request.sourceId=some source ∧
      matchesApparatus (stageApparatus stages request.sourceId) batch.apparatus=true) ∨
    (request.sourceId = "" ∧ ∃ id, sourceIds batch possible=[id] ∧ routeNode map id=some source)

variable {possible successors : List ChainStage} {source target : ProductionMapNode}
  {choice : RouteChoice}

theorem findSource_eq_some : findSource map stages batch request possible=some source ↔
      (request.sourceId ≠ "" ∧ routeNode map request.sourceId=some source ∧
        matchesApparatus (stageApparatus stages request.sourceId) batch.apparatus=true) ∨
      (request.sourceId = "" ∧ ∃ id, sourceIds batch possible=[id] ∧
        routeNode map id=some source) := by
  unfold findSource
  by_cases hid : request.sourceId = ""
  · simp only [hid,bne_self_eq_false,Bool.false_eq_true,if_false,ne_eq,not_true_eq_false,
      false_and,false_or,true_and]
    constructor
    · intro h
      split at h
      · rename_i id hids
        exact ⟨id,hids,h⟩
      · cases h
    · rintro ⟨id,hids,h⟩
      rw [hids]
      exact h
  · simp only [bne_iff_ne,ne_eq,hid,not_false_eq_true]
    cases matchesApparatus (stageApparatus stages request.sourceId) batch.apparatus <;> simp

theorem routeSource_eq_ok : routeSource map stages batch request possible=.ok source ↔
      SourceFound map stages batch request possible source := by
  have hbound : (!request.binding.any fun bound => bound.sourceStageNodeId != source.id)=true ↔
      ∀ bound, request.binding=some bound → bound.sourceStageNodeId=source.id := by
    cases request.binding <;> simp
  rw [sourceFound_iff,← findSource_eq_some,← hbound,routeSource]
  cases findSource map stages batch request possible with
  | none => simp
  | some found =>
    simp only [ensure_bind_eq_ok,pure,Except.pure,Except.ok.injEq,Option.some.injEq]
    constructor
    · rintro ⟨hok,rfl⟩
      exact ⟨hok,rfl⟩
    · rintro ⟨hok,rfl⟩
      exact ⟨hok,rfl⟩

/-- How a destination that the roll does not name was found. -/
structure OpenTarget (stages : List ChainStage) (batch : OrderProgressBatch)
    (request : RouteRequest) (groups : SuccessorGroups) (target : ProductionMapNode) : Prop where
  unbound : request.binding=none
  usable : batch.actionableWip=true ∨ request.legacyCanonicalRoute batch=true
  single : groups.size≤1
  member : ∃ (occ : String) (candidates : List ProductionMapNode),
    groups[occ]?=some candidates ∧ target∈candidates ∧ (trim batch.nextApparatus ≠ "" →
      (matchingMembers stages candidates batch.nextApparatus).length≤1)

theorem openTarget_ok (h : openTarget stages batch request groups=.ok target) :
    OpenTarget stages batch request groups target := by
  rw [openTarget,ensure_bind_eq_ok,ensure_bind_eq_ok] at h
  obtain ⟨husable,hsingle,h⟩ := h
  rw [Bool.and_eq_true,Bool.or_eq_true,Option.isNone_iff_eq_none] at husable
  refine ⟨husable.1,husable.2,of_decide_eq_true hsingle,?_⟩
  cases hlist : groups.toList with
  | nil => simp [hlist] at h
  | cons entry rest =>
    obtain ⟨occ,candidates⟩ := entry
    have hgroup : groups[occ]?=some candidates :=
      Std.TreeMap.mem_toList_iff_getElem?_eq_some.mp (hlist ▸ mem_cons_self)
    simp only [hlist,ensure_bind_eq_ok] at h
    refine ⟨occ,candidates,hgroup,?_⟩
    by_cases hblank : trim batch.nextApparatus = ""
    · simp only [isBlank,hblank] at h
      cases candidates with
      | nil => cases h.2
      | cons first others =>
        rw [← Except.ok.inj h.2]
        exact ⟨mem_cons_self,fun hne => absurd hblank hne⟩
    · have hnot : (trim batch.nextApparatus == "")=false := beq_eq_false_iff_ne.mpr hblank
      simp only [isBlank,hnot,Bool.false_eq_true,if_false,ensure_bind_eq_ok] at h
      obtain ⟨_,hcount,h⟩ := h
      refine ⟨?_,fun _ => of_decide_eq_true hcount⟩
      cases hmatching : matchingMembers stages candidates batch.nextApparatus with
      | nil => simp [hmatching] at h
      | cons first others =>
        rw [hmatching] at h
        rw [← Except.ok.inj h]
        have hmem : first∈matchingMembers stages candidates batch.nextApparatus :=
          hmatching ▸ mem_cons_self
        exact (mem_filter.mp hmem).1

theorem destination_eq_ok {remapped : Bool} :
    destination map stages batch request groups=.ok (target, remapped) ↔
      (request.targetId ≠ "" ∧ routeNode map request.targetId=some target ∧
        groups.contains (occurrence target)=true ∧ remapped=request.binding.any (·.remapped)) ∨
      ((request.targetId = "" ∨ routeNode map request.targetId=none) ∧
        openTarget stages batch request groups=.ok target ∧
        remapped = !request.legacyCanonicalRoute batch) := by
  have hopen : (do
      let target ← openTarget stages batch request groups
      return (target, !request.legacyCanonicalRoute batch)) =
        (.ok (target, remapped) : Except ProductionMapError (ProductionMapNode × Bool)) ↔
      openTarget stages batch request groups=.ok target ∧
        remapped = !request.legacyCanonicalRoute batch := by
    simp only [bind_eq_ok,pure,Except.pure,Except.ok.injEq,Prod.mk.injEq]
    constructor
    · rintro ⟨found,hfound,rfl,hremapped⟩
      exact ⟨hfound,hremapped.symm⟩
    · rintro ⟨hfound,hremapped⟩
      exact ⟨target,hfound,rfl,hremapped.symm⟩
  unfold destination
  by_cases hid : request.targetId = ""
  · simpa [hid] using hopen
  · cases hnode : routeNode map request.targetId with
    | none => simpa [] using hopen
    | some found =>
      simp only [beq_iff_eq,hid,if_false,ensure_bind_eq_ok,pure,Except.pure,
        Except.ok.injEq,Prod.mk.injEq,ne_eq,not_false_eq_true,true_and,Option.some.injEq,
        reduceCtorEq,false_and,or_false]
      constructor
      · rintro ⟨hgroup,rfl,hremapped⟩
        exact ⟨rfl,hgroup,hremapped.symm⟩
      · rintro ⟨rfl,hgroup,hremapped⟩
        exact ⟨hgroup,rfl,hremapped.symm⟩

theorem heldTarget_ok {held : ProductionMapNode}
    (h : heldTarget stages batch request candidates target=.ok held) :
    held=target ∨ held∈candidates := by
  unfold heldTarget at h
  split at h
  · simp only [ensure_bind_eq_ok] at h
    obtain ⟨_,h⟩ := h
    split at h
    · cases h
    · rename_i owner others howned
      rw [← Except.ok.inj h]
      have hmem := howned ▸ mem_cons_self (a := owner) (l := others)
      exact .inr (mem_filter.mp hmem).1
  · exact .inl (Except.ok.inj h).symm

theorem routeChoice_eq_ok : routeChoice map stages batch request groups=.ok choice ↔
      ∃ target, destination map stages batch request groups=.ok (target, choice.remapped) ∧
        groups[occurrence target]?=some choice.candidates ∧
        heldTarget stages batch request choice.candidates target=.ok choice.target ∧
        checkMachines stages batch request choice.candidates choice.target=.ok () := by
  simp only [routeChoice,bind_eq_ok,Prod.exists]
  constructor
  · rintro ⟨target,remapped,hdestination,h⟩
    cases hgroup : groups[occurrence target]? with
    | none => simp [hgroup] at h
    | some found =>
      simp only [hgroup,bind_eq_ok,pure,Except.pure,Except.ok.injEq] at h
      obtain ⟨held,hheld,_,hcheck,rfl⟩ := h
      exact ⟨target,hdestination,hgroup,hheld,hcheck⟩
  · rintro ⟨target,hdestination,hgroup,hheld,hcheck⟩
    refine ⟨target,choice.remapped,hdestination,?_⟩
    simp only [hgroup,bind_eq_ok,pure]
    exact ⟨choice.target,hheld,(),hcheck,rfl⟩

theorem checkMachines_eq_ok : checkMachines stages batch request candidates target=.ok () ↔
      (request.binding.isSome=true → trim batch.usedByApparatus ≠ "" →
        matchesApparatus (stageApparatus stages target.id) batch.usedByApparatus=true) ∧
      (request.binding=none → trim batch.nextApparatus ≠ "" → ∃ node∈candidates,
          matchesApparatus (stageApparatus stages node.id) batch.nextApparatus=true) := by
  rw [checkMachines,ensure_bind_eq_ok,ensure_eq_ok]
  simp only [isBlank]
  cases request.binding <;> simp [or_iff_not_imp_left]

theorem mem_consumerApparatusIds {id : String} : id∈consumerApparatusIds stages candidates ↔
      ∃ node∈candidates, stageApparatus stages node.id=some id := by
  simp [consumerApparatusIds,Std.TreeSet.mem_toList]

theorem consumerApparatusIds_sorted (stages : List ChainStage)
    (candidates : List ProductionMapNode) :
    (consumerApparatusIds stages candidates).Pairwise (· < ·) := by
  refine Std.TreeSet.ordered_toList.imp ?_
  intro a b h
  exact compareOfLessAndEq_eq_lt.mp h

/-- A roll that has not been claimed with a route. -/
def Unbound (batch : OrderProgressBatch) : Prop := batch.payloadJson.get "wip_route_binding" = none

/-- What a route says about the occurrence that consumes the roll. -/
structure TargetSound (map : ProductionMapDefinition) (batch : OrderProgressBatch)
    (route : WipInputRoute) (occ : String) : Prop where
  successor : OccurrenceOf map (nextWorkStagesForNode map route.sourceStageNodeId) occ
  sorted : route.consumerApparatusIds.Pairwise (· < ·)
  consumers : ∀ id, id∈route.consumerApparatusIds ↔ ∃ member∈occurrenceMembers map occ,
    stageApparatus (linearWorkStages map) member.id=some id
  nonempty : route.consumerApparatusIds ≠ []
  next : Unbound batch → trim batch.nextApparatus ≠ "" →
    trim batch.nextApparatus∈route.consumerApparatusIds
  remapped : Unbound batch → route.remapped=true → batch.actionableWip=true ∧
    (∀ other, OccurrenceOf map (nextWorkStagesForNode map route.sourceStageNodeId) other ↔
      other=occ) ∧
    (matchingMembers (linearWorkStages map) (occurrenceMembers map occ)
      batch.nextApparatus).length≤1

/-- What a route says about the map and the roll. -/
structure RouteSound (map : ProductionMapDefinition) (batch : OrderProgressBatch)
    (route : WipInputRoute) : Prop where
  source : ∃ source∈map.nodes, source.id=route.sourceStageNodeId ∧ source.kind=.apparatus ∧
    matchesApparatus (stageApparatus (linearWorkStages map) source.id) batch.apparatus=true
  target : ∃ target∈map.nodes, target.id=route.stageNodeId ∧ target.kind=.apparatus ∧
    TargetSound map batch route (occurrence target)

theorem mem_possible (h : possibleSourcesOf map batch request=.ok possible) {stage : ChainStage}
    (hstage : stage∈possible) : stage∈linearWorkStages map := by
  unfold possibleSourcesOf at h
  split at h
  · rw [← Except.ok.inj h] at hstage
    cases hstage
  · obtain ⟨_,_,h⟩ := bind_eq_ok.mp h
    split at h
    · rw [← Except.ok.inj h] at hstage
      exact hstage
    · rw [← Except.ok.inj h] at hstage
      exact (mem_stages_of_adjacent hstage).1

theorem mem_sourceIds {id : String} : id∈sourceIds batch possible ↔ ∃ stage∈possible,
      matchesApparatus stage.apparatusId batch.apparatus=true ∧ stage.nodeId=id := by
  simp [sourceIds,and_assoc]

/-- The producer is an apparatus node that ran on the machine of the batch. -/
theorem SourceFound.sound (h : SourceFound map (linearWorkStages map) batch request possible source)
    (hpossible : ∀ stage∈possible, stage∈linearWorkStages map) : source∈map.nodes ∧ source.kind =
    .apparatus ∧
    matchesApparatus (stageApparatus (linearWorkStages map) source.id) batch.apparatus=true := by
  rcases h.found with ⟨_,hnode,hmatch⟩ | ⟨_,id,hids,hnode⟩
  · obtain ⟨hmem,hid,hkind⟩ := routeNode_eq_some hnode
    refine ⟨hmem,hkind,?_⟩
    rw [stageApparatus_congr (b := request.sourceId) (by rw [← hid,trim_trim])]
    exact hmatch
  · obtain ⟨hmem,hid,hkind⟩ := routeNode_eq_some hnode
    have hsource : id∈sourceIds batch possible := hids ▸ mem_cons_self
    obtain ⟨stage,hstage,hmatch,hstageId⟩ := mem_sourceIds.mp hsource
    refine ⟨hmem,hkind,?_⟩
    rw [stageApparatus_congr (b := stage.nodeId) (by rw [hid,hstageId,← hid,trim_trim]),
      stageApparatus_of_mem (linearWorkStages_sound map) (hpossible stage hstage)]
    exact hmatch

theorem groupsOf_nextStages (hclean : CleanIds map) (sourceId : String) :
    GroupsOf map (linearWorkStages map) (nextWorkStagesForNode map sourceId)
      (successorGroups map (linearWorkStages map) (nextWorkStagesForNode map sourceId)) :=
  groupsOf_successorGroups hclean (linearWorkStages_sound map) fun _ h => mem_stages_of_adjacent h

theorem GroupsOf.eq_of_size_le_one
    (hsize : groups.size≤1) (h : GroupsOf map stages successors groups) {a b : String}
    (ha : OccurrenceOf map successors a) (hb : OccurrenceOf map successors b) : a=b := by
  have hmem {occ : String} (hocc : OccurrenceOf map successors occ) :
      (occ, stageMembers map stages occ)∈groups.toList :=
    Std.TreeMap.mem_toList_iff_getElem?_eq_some.mpr ((h occ _).mpr ⟨hocc,rfl⟩)
  rw [← Std.TreeMap.length_toList] at hsize
  match hlist : groups.toList, hsize, hmem ha, hmem hb with
  | [entry], _, hina, hinb =>
    rw [mem_singleton] at hina hinb
    exact congrArg Prod.fst (hina.trans hinb.symm)
  | [], _, hina, _ => cases hina

/-- The destination is an apparatus node, and its occurrence has the chosen candidates. -/
theorem routeChoice_target (hgroups : GroupsOf map stages successors groups)
    (h : routeChoice map stages batch request groups=.ok choice) : choice.target∈map.nodes ∧
    choice.target.kind=.apparatus ∧ OccurrenceOf map successors (occurrence choice.target) ∧
    choice.candidates=stageMembers map stages (occurrence choice.target) := by
  obtain ⟨target,hdestination,hgroup,hheld,_⟩ := routeChoice_eq_ok.mp h
  obtain ⟨hsuccessor,hcandidates⟩ := (hgroups _ _).mp hgroup
  have htarget : target∈map.nodes ∧ target.kind=.apparatus := by
    rcases destination_eq_ok.mp hdestination with ⟨_,hnode,_⟩ | ⟨_,hopen,_⟩
    · obtain ⟨hmem,_,hkind⟩ := routeNode_eq_some hnode
      exact ⟨hmem,hkind⟩
    · obtain ⟨occ,found,hfound,hmem,_⟩ := (openTarget_ok hopen).member
      rw [((hgroups occ found).mp hfound).2] at hmem
      have hmember := mem_stageMembers.mp hmem
      exact ⟨hmember.1,hmember.2.1⟩
  rcases heldTarget_ok hheld with heq | hmem
  · rw [heq]
    exact ⟨htarget.1,htarget.2,hsuccessor,hcandidates⟩
  · rw [hcandidates] at hmem
    have hmember := mem_stageMembers.mp hmem
    rw [hmember.2.2.1]
    exact ⟨hmember.1,hmember.2.1,hsuccessor,hcandidates⟩

/-- A successor occurrence has a member that is a stage of the route. -/
theorem exists_stageMember (hsound : StagesSound map stages)
    (hsuccessors : ∀ stage∈successors, stage∈stages ∧ stage.apparatusId.isSome=true)
    (hclean : CleanIds map) {occ : String} (h : OccurrenceOf map successors occ) :
    ∃ node∈stageMembers map stages occ, ∃ id, stageApparatus stages node.id=some id := by
  obtain ⟨stage,hstage,next,hnext,hid,hocc⟩ := h
  obtain ⟨hmem,hphysical⟩ := hsuccessors stage hstage
  obtain ⟨id,hid'⟩ := Option.isSome_iff_exists.mp hphysical
  have happaratus : stageApparatus stages next.id=some id := by
    rw [hid,stageApparatus_of_mem hsound hmem,hid']
  have hcanonical := canonical_of_stageApparatus hclean hsound hnext happaratus
  exact ⟨next,mem_stageMembers.mpr ⟨hnext,(canonicalApparatusIdentity_eq_some.mp hcanonical).1,
    hocc,by rw [happaratus]; rfl⟩,id,happaratus⟩

/-- Only stage members can match a machine, and none matches a blank one. -/
theorem matchingMembers_occurrence (hclean : CleanIds map) (hsound : StagesSound map stages)
    (occ apparatus : String) : matchingMembers stages (occurrenceMembers map occ) apparatus =
        matchingMembers stages (stageMembers map stages occ) apparatus ∧
      (trim apparatus = "" → matchingMembers stages (occurrenceMembers map occ) apparatus=[]) := by
  constructor
  · rw [matchingMembers,matchingMembers,stageMembers,filter_filter]
    refine filter_congr fun node _ => ?_
    cases stageApparatus stages node.id <;> simp [matchesApparatus]
  · intro hblank
    rw [matchingMembers,filter_eq_nil_iff]
    intro node hnode hmatch
    have hmem := (mem_filter.mp hnode).1
    have happaratus := matchesApparatus_stageApparatus hclean hsound hmem hmatch
    have hcanonical := canonical_of_stageApparatus hclean hsound hmem happaratus
    exact ApparatusId.ne_empty (canonicalApparatusIdentity_eq_some.mp hcanonical).2.1 hblank

/-- A remapped route of an unbound roll comes from the only successor occurrence. -/
theorem Resolves.remapped (hclean : CleanIds map)
   
    (h : Resolves map batch request possible source choice) (hunbound : request.binding=none)
    (hremapped : choice.remapped=true) : batch.actionableWip=true ∧
      (∀ other, OccurrenceOf map (nextWorkStagesForNode map source.id) other ↔
        other=occurrence choice.target) ∧
      (matchingMembers (linearWorkStages map) (occurrenceMembers map (occurrence choice.target))
        batch.nextApparatus).length≤1 := by
  have hsound := linearWorkStages_sound map
  have hgroups := groupsOf_nextStages hclean source.id
  obtain ⟨_,_,hsuccessor,hcandidates⟩ := routeChoice_target hgroups h.chosen
  obtain ⟨target,hdestination,hgroup,_,_⟩ := routeChoice_eq_ok.mp h.chosen
  -- an existing destination of an unbound roll is never a remap
  have hopen : openTarget (linearWorkStages map) batch request
      (successorGroups map (linearWorkStages map) (nextWorkStagesForNode map source.id)) =
        .ok target ∧ choice.remapped = !request.legacyCanonicalRoute batch := by
    rcases destination_eq_ok.mp hdestination with ⟨_,_,_,hvalue⟩ | ⟨_,hopen,hvalue⟩
    · simp [hunbound,hremapped] at hvalue
    · exact ⟨hopen,hvalue⟩
  have hlegacy : request.legacyCanonicalRoute batch=false := by
    rw [hremapped] at hopen
    simpa using hopen.2
  have hfound := openTarget_ok hopen.1
  have honly {other : String}
      (hother : OccurrenceOf map (nextWorkStagesForNode map source.id) other) :
      other=occurrence choice.target :=
    GroupsOf.eq_of_size_le_one hfound.single hgroups hother hsuccessor
  refine ⟨hfound.usable.resolve_right (by simp [hlegacy]),fun other => ⟨honly,?_⟩,?_⟩
  · intro heq
    rw [heq]
    exact hsuccessor
  · by_cases hblank : trim batch.nextApparatus = ""
    · rw [(matchingMembers_occurrence hclean hsound _ _).2 hblank]
      exact Nat.zero_le 1
    · obtain ⟨occ,found,hocc,_,hcount⟩ := hfound.member
      obtain ⟨hoccurrence,rfl⟩ := (hgroups occ found).mp hocc
      rw [(matchingMembers_occurrence hclean hsound _ _).1,← honly hoccurrence]
      exact hcount hblank

/-- Every route that the resolver gives on a map with clean identities is sound. -/
theorem resolveWipInputRoute_sound (digest : ProductionMapDefinition → String)
    (map : ProductionMapDefinition) (batch : OrderProgressBatch) (route : WipInputRoute)
    (hclean : CleanIds map) (h : resolveWipInputRoute digest map batch=.ok route) :
    RouteSound map batch route := by
  obtain ⟨request,possible,source,choice,hres,rfl⟩ := resolveWipInputRoute_eq_ok.mp h
  have hsound := linearWorkStages_sound map
  have hgroups := groupsOf_nextStages hclean source.id
  obtain ⟨hsource,hsourceKind,hmachine⟩ := (routeSource_eq_ok.mp hres.produced).sound
    fun _ hstage => mem_possible hres.possibleSources hstage
  obtain ⟨htarget,htargetKind,hsuccessor,hcandidates⟩ := routeChoice_target hgroups hres.chosen
  have hunbound (hbatch : Unbound batch) : request.binding=none := by
    have hbinding := (routeRequest_eq_ok.mp hres.requested).2.1
    rw [routeBinding_eq_none.mpr hbatch] at hbinding
    exact (Except.ok.inj hbinding).symm
  have hconsumers (id : String) : id∈consumerApparatusIds (linearWorkStages map) choice.candidates ↔
        ∃ member∈occurrenceMembers map (occurrence choice.target),
          stageApparatus (linearWorkStages map) member.id=some id := by
    rw [mem_consumerApparatusIds,hcandidates]
    constructor
    · rintro ⟨member,hmember,hid⟩
      exact ⟨member,(List.mem_filter.mp hmember).1,hid⟩
    · rintro ⟨member,hmember,hid⟩
      exact ⟨member,List.mem_filter.mpr ⟨hmember,by rw [hid]; rfl⟩,hid⟩
  refine ⟨⟨source,hsource,rfl,hsourceKind,hmachine⟩,
    choice.target,htarget,rfl,htargetKind,hsuccessor,consumerApparatusIds_sorted _ _,
    hconsumers,?_,?_,?_⟩
  · obtain ⟨member,hmember,id,hid⟩ := exists_stageMember hsound
      (fun _ hstage => mem_stages_of_adjacent hstage) hclean hsuccessor
    refine List.ne_nil_of_mem (a := id) ((hconsumers id).mpr ⟨member,?_,hid⟩)
    exact (List.mem_filter.mp hmember).1
  · intro hbatch hnext
    obtain ⟨_,_,_,_,hcheck⟩ := routeChoice_eq_ok.mp hres.chosen
    obtain ⟨node,hnode,hmatch⟩ := (checkMachines_eq_ok.mp hcheck).2 (hunbound hbatch) hnext
    have hmem : node∈map.nodes := by
      rw [hcandidates] at hnode
      exact (mem_stageMembers.mp hnode).1
    exact mem_consumerApparatusIds.mpr
      ⟨node,hnode,matchesApparatus_stageApparatus hclean hsound hmem hmatch⟩
  · intro hbatch hremapped
    exact hres.remapped hclean (hunbound hbatch) hremapped

theorem resolveWipInputRoute_sound_printed : RouteSound pressThenLaminator printedRoll
      ⟨"print","laminate",["apparatus:laminator:1"],"zakaz-1",false⟩ :=
  resolveWipInputRoute_sound (fun map => map.id) _ _ _ (by decide +kernel)
    (toOption_eq_some.mp (by decide +kernel))

/-- Two laminators stand for each other; the one that the edge leads to has a blank identity. -/
def blankMember : ProductionMapDefinition :=
  { pressThenLaminator with
    nodes :=
      [{ id := "start", kind := .start, title := "" },
        { id := "print", kind := .apparatus, title := "Press", apparatusId := "apparatus:press:1" },
        { id := "", kind := .apparatus, title := "Laminator 1",
          apparatusId := "apparatus:laminator:1", alternativeGroupId := "laminators" },
        { id := "laminate", kind := .apparatus, title := "Laminator 2",
          apparatusId := "apparatus:laminator:2", alternativeGroupId := "laminators" },
        { id := "end", kind := .endNode, title := "" }]
    edges := [⟨"start","print",""⟩,⟨"print","",""⟩,⟨"","end",""⟩] }

def namedRoll : OrderProgressBatch :=
  { printedRoll with
    nextApparatus := ""
    payloadJson :=
      .object [("next_stage_node_id", .string "laminate"),("stage_node_id", .string "print")] }

/-- With a blank identity a route can come without any consumer. -/
theorem blank_identity_route_without_consumers :
    ¬∀ (digest : ProductionMapDefinition → String) (map : ProductionMapDefinition)
        (batch : OrderProgressBatch) (route : WipInputRoute),
      resolveWipInputRoute digest map batch=.ok route → RouteSound map batch route := by
  intro h
  have hroute : resolveWipInputRoute (fun map => map.id) blankMember namedRoll =
      .ok ⟨"print","laminate",[],"zakaz-1",false⟩ :=
    toOption_eq_some.mp (by decide +kernel)
  obtain ⟨_,_,_,_,htarget⟩ := (h _ _ _ _ hroute).target
  exact htarget.nonempty rfl

end MiniErp.Wip
