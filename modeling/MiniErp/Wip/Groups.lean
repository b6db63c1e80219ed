import MiniErp.Chain.Occurrence
import MiniErp.Wip.Route

/-! What the lookups of the resolver find on a map with clean identities: a stage gives the
canonical apparatus of its node, and the successor groups hold exactly the members of the
successor occurrences that are stages of the route. -/
namespace MiniErp.Wip
open Text Chain List Option
variable {map : ProductionMapDefinition} {stages : List ChainStage}

variable {node : ProductionMapNode} {a : String} {stage : ChainStage}

theorem routeNode_eq_some {id : String} (h : routeNode map id=some node) : node∈map.nodes ∧
    trim node.id=id ∧ node.kind=.apparatus := by
  have hnode := find?_some h
  simp only [Bool.and_eq_true,beq_iff_eq] at hnode
  exact ⟨mem_of_find?_eq_some h,hnode.1,hnode.2⟩

theorem routeNode_of_mem (hclean : CleanIds map) (hnode : node∈map.nodes)
    (hkind : node.kind=.apparatus) : routeNode map node.id=some node := by
  cases hfind : routeNode map node.id with
  | none =>
    have hnone := find?_eq_none.mp hfind node hnode
    simp [hclean.trimmed node hnode,hkind] at hnone
  | some found =>
    obtain ⟨hmem,hid,_⟩ := routeNode_eq_some hfind
    rw [hclean.eq_of_trim hmem hnode (hid.trans (hclean.trimmed node hnode).symm)]

theorem stageApparatus_congr {b : String} (h : trim a=trim b) :
    stageApparatus stages a=stageApparatus stages b := by
  simp only [stageApparatus,h]

theorem exists_stage_of_stageApparatus {nodeId : String} (h : stageApparatus stages nodeId=some a) :
    ∃ stage∈stages, trim stage.nodeId=trim nodeId ∧ stage.apparatusId=some a := by
  obtain ⟨stage,hfind,hstage⟩ := bind_eq_some_iff.mp h
  have hid := find?_some hfind
  exact ⟨stage,mem_of_find?_eq_some hfind,by simpa using hid,hstage⟩

theorem stageApparatus_of_mem (hsound : StagesSound map stages)
    (hstage : stage∈stages) : stageApparatus stages stage.nodeId=stage.apparatusId := by
  cases hfind : stages.find? fun other => trim other.nodeId == trim stage.nodeId with
  | none =>
    have hnone := find?_eq_none.mp hfind stage hstage
    simp at hnone
  | some found =>
    have hid := find?_some hfind
    have heq : found=stage := inj_on_of_nodup_map hsound.distinct
      (mem_of_find?_eq_some hfind) hstage
      (by simpa [ChainStage.occurrenceIdentity] using hid)
    simp only [stageApparatus,hfind,bind_some,heq]

section
variable (hclean : CleanIds map) (hsound : StagesSound map stages) (hnode : node∈map.nodes)
include hclean hsound hnode

theorem canonical_of_stageApparatus
    (h : stageApparatus stages node.id=some a) : canonicalApparatusIdentity node=some a := by
  obtain ⟨stage,hstage,hid,happaratus⟩ := exists_stage_of_stageApparatus h
  rw [← canonicalApparatusIdentity_of_stage hclean hsound hstage hnode hid,happaratus]

/-- The apparatus of a stage matches a text exactly when the text is it, up to blanks. -/
theorem matchesApparatus_stageApparatus {apparatus : String}
    (h : matchesApparatus (stageApparatus stages node.id) apparatus=true) :
    stageApparatus stages node.id=some (trim apparatus) := by
  cases hstage : stageApparatus stages node.id with
  | none => simp [hstage,matchesApparatus] at h
  | some a =>
    have hcanonical := canonical_of_stageApparatus hclean hsound hnode hstage
    have hvalid := (canonicalApparatusIdentity_eq_some.mp hcanonical).2.1
    simp only [hstage,matchesApparatus,any_some,apparatusIdsMatch,Bool.and_eq_true,
      beq_iff_eq,ApparatusId.trim_eq hvalid] at h
    rw [h.1]

end

theorem append_prefix_ne (a b : String) : "node:" ++ a ≠ "group:" ++ b := by
  intro h
  have hlist := congrArg String.toList h
  simp at hlist

theorem occurrence_eq_iff (a b : ProductionMapNode) : occurrence a=occurrence b ↔
      (trim a.alternativeGroupId = "" ∧ trim b.alternativeGroupId = "" ∧ trim a.id=trim b.id) ∨
      (trim a.alternativeGroupId ≠ "" ∧ trim a.alternativeGroupId=trim b.alternativeGroupId) := by
  simp only [occurrence,isBlank,beq_iff_eq]
  by_cases ha : trim a.alternativeGroupId = "" <;> by_cases hb : trim b.alternativeGroupId = ""
  · simp [ha,hb]
  · simp [ha,hb,append_prefix_ne]
  · simp [ha,hb,(append_prefix_ne _ _).symm]
  · simp [ha,hb]

/-- Valid apparatus nodes are one occurrence exactly when their occurrence texts agree. -/
theorem sameOccurrence_iff (hclean : CleanIds map) {a b : ProductionMapNode} (ha : a∈map.nodes)
    (hb : b∈map.nodes) (hacanonical : (canonicalApparatusIdentity a).isSome=true)
    (hbcanonical : (canonicalApparatusIdentity b).isSome=true) : SameOccurrence a b ↔
    occurrence a=occurrence b := by
  rw [occurrence_eq_iff]
  have hkind {n : ProductionMapNode} (h : (canonicalApparatusIdentity n).isSome=true) :
      n.kind=.apparatus := by
    obtain ⟨id,hid⟩ := isSome_iff_exists.mp h
    exact (canonicalApparatusIdentity_eq_some.mp hid).1
  constructor
  · rintro (rfl | hgroup)
    · by_cases hblank : trim a.alternativeGroupId = ""
      · exact .inl ⟨hblank,hblank,rfl⟩
      · exact .inr ⟨hblank,rfl⟩
    · exact .inr ⟨hgroup.nonblank,hgroup.group⟩
  · rintro (⟨_,_,hid⟩ | ⟨hne,hgroup⟩)
    · exact .inl (hclean.eq_of_trim ha hb hid)
    · exact .inr ⟨hkind hacanonical,hkind hbcanonical,hne,hgroup,hacanonical,hbcanonical⟩

def occurrenceMembers (map : ProductionMapDefinition) (occ : String) : List ProductionMapNode :=
  map.nodes.filter fun node => node.kind == .apparatus && occurrence node == occ

/-- The members of an occurrence that are stages of the route. -/
def stageMembers (map : ProductionMapDefinition) (stages : List ChainStage) (occ : String) :
    List ProductionMapNode :=
  (occurrenceMembers map occ).filter fun node => (stageApparatus stages node.id).isSome

theorem mem_stageMembers {occ : String} : node∈stageMembers map stages occ ↔ node∈map.nodes ∧
    node.kind=.apparatus ∧ occurrence node=occ ∧ (stageApparatus stages node.id).isSome=true := by
  simp only [stageMembers,occurrenceMembers,mem_filter,Bool.and_eq_true,beq_iff_eq,and_assoc]

def isPeer (map : ProductionMapDefinition) (stages : List ChainStage)
    (next peer : ProductionMapNode) : Bool :=
  stageNodeIdsMatchForMap map next.id peer.id && (stageApparatus stages peer.id).isSome

section
variable (next : ProductionMapNode) (peers candidates : List ProductionMapNode)

theorem foldl_addPeer (hdistinct : (peers.map (·.id)).Nodup)
    (hnew : ∀ peer∈peers, ∀ candidate∈candidates, candidate.id≠peer.id) :
    peers.foldl (addPeer map stages next) candidates =
      candidates++peers.filter (isPeer map stages next) := by
  induction peers generalizing candidates with
  | nil => simp
  | cons peer rest ih =>
    rw [map_cons,nodup_cons] at hdistinct
    have hfresh : (candidates.any fun candidate => candidate.id == peer.id)=false := by
      simpa using hnew peer mem_cons_self
    have hadd : addPeer map stages next candidates peer =
        if isPeer map stages next peer then candidates++[peer] else candidates := by
      simp [addPeer,isPeer,hfresh]
    rw [foldl_cons,hadd]
    split
    · rename_i hpeer
      rw [ih _ hdistinct.2,filter_cons_of_pos hpeer,append_assoc]
      · rfl
      · intro other hother candidate hcandidate
        rcases mem_append.mp hcandidate with hcandidate | hcandidate
        · exact hnew other (mem_cons_of_mem peer hother) candidate hcandidate
        · rw [mem_singleton.mp hcandidate]
          exact fun heq => hdistinct.1 (heq ▸ List.mem_map_of_mem hother)
    · rename_i hpeer
      rw [ih _ hdistinct.2,filter_cons_of_neg hpeer]
      exact fun other hother => hnew other (mem_cons_of_mem peer hother)

theorem foldl_addPeer_present (hpresent : ∀ peer∈peers, isPeer map stages next peer=true →
      ∃ candidate∈candidates, candidate.id=peer.id) :
    peers.foldl (addPeer map stages next) candidates=candidates := by
  induction peers with
  | nil => rfl
  | cons peer rest ih =>
    have hadd : addPeer map stages next candidates peer=candidates := by
      unfold addPeer
      rw [if_neg]
      intro h
      rw [Bool.and_eq_true] at h
      obtain ⟨candidate,hcandidate,hid⟩ := hpresent peer mem_cons_self h.1
      simp only [Bool.not_eq_true',List.any_eq_false,beq_iff_eq] at h
      exact h.2 candidate hcandidate hid
    rw [foldl_cons,hadd]
    exact ih fun other hother => hpresent other (mem_cons_of_mem peer hother)

end

/-- On clean identities the peers of a stage node are the members of its occurrence. -/
theorem filter_isPeer (hclean : CleanIds map) (hsound : StagesSound map stages)
    {next : ProductionMapNode} (hnext : next∈map.nodes)
    (hcanonical : (canonicalApparatusIdentity next).isSome=true) :
    map.nodes.filter (isPeer map stages next)=stageMembers map stages (occurrence next) := by
  rw [stageMembers,occurrenceMembers,List.filter_filter]
  refine filter_congr fun peer hpeer => ?_
  rw [Bool.eq_iff_iff]
  simp only [isPeer,Bool.and_eq_true,beq_iff_eq,stageNodeIdsMatchForMap_iff hclean hnext hpeer]
  constructor
  · rintro ⟨hsame,hstage⟩
    obtain ⟨a,ha⟩ := isSome_iff_exists.mp hstage
    have hpeerCanonical := canonical_of_stageApparatus hclean hsound hpeer ha
    refine ⟨hstage,(canonicalApparatusIdentity_eq_some.mp hpeerCanonical).1,?_⟩
    exact ((sameOccurrence_iff hclean hnext hpeer hcanonical (by simp [hpeerCanonical])).mp
      hsame).symm
  · rintro ⟨hstage,_,hoccurrence⟩
    obtain ⟨a,ha⟩ := isSome_iff_exists.mp hstage
    have hpeerCanonical := canonical_of_stageApparatus hclean hsound hpeer ha
    exact ⟨(sameOccurrence_iff hclean hnext hpeer hcanonical (by simp [hpeerCanonical])).mpr
      hoccurrence.symm,hstage⟩

def OccurrenceOf (map : ProductionMapDefinition) (successors : List ChainStage) (occ : String) :
    Prop :=
  ∃ stage∈successors, ∃ next∈map.nodes, next.id=stage.nodeId ∧ occurrence next=occ

/-- The groups hold the occurrences of the successors, each with its stage members. -/
def GroupsOf (map : ProductionMapDefinition) (stages successors : List ChainStage)
    (groups : SuccessorGroups) : Prop :=
  ∀ occ candidates, groups[occ]?=some candidates ↔
    OccurrenceOf map successors occ ∧ candidates=stageMembers map stages occ

theorem exists_node_of_physical (hsound : StagesSound map stages) (hstage : stage∈stages)
    (hphysical : stage.apparatusId.isSome=true) : ∃ node∈map.nodes, node.id=stage.nodeId ∧
    node.kind=.apparatus ∧ canonicalApparatusIdentity node=stage.apparatusId := by
  obtain ⟨node,hnode⟩ := hsound.stageOf stage hstage
  obtain ⟨a,ha⟩ := isSome_iff_exists.mp hphysical
  have hcanonical : canonicalApparatusIdentity node=some a := hnode.apparatusId ▸ ha
  exact ⟨node,hnode.mem,hnode.nodeId.symm,(canonicalApparatusIdentity_eq_some.mp hcanonical).1,
    hnode.apparatusId.symm⟩

theorem GroupsOf.addSuccessor (hclean : CleanIds map) (hsound : StagesSound map stages)
    {processed : List ChainStage} {groups : SuccessorGroups}
    (h : GroupsOf map stages processed groups) (hstage : stage∈stages)
    (hphysical : stage.apparatusId.isSome=true) :
    GroupsOf map stages (processed++[stage]) (addSuccessor map stages groups stage) := by
  obtain ⟨next,hnext,hid,hkind,hcanonical⟩ := exists_node_of_physical hsound hstage hphysical
  have hfind : routeNode map stage.nodeId=some next := by
    rw [← hid]
    exact routeNode_of_mem hclean hnext hkind
  have hsome : (canonicalApparatusIdentity next).isSome=true := by rw [hcanonical,hphysical]
  have hdistinct : (map.nodes.map (·.id)).Nodup := by
    have htrim : map.nodes.map (fun node => trim node.id)=map.nodes.map (·.id) :=
      map_congr_left hclean.trimmed
    exact htrim ▸ hclean.distinct
  have hpeers := filter_isPeer hclean hsound hnext hsome
  -- the entry becomes the stage members, whether the occurrence was met before or not
  have hentry : map.nodes.foldl (addPeer map stages next) (groups.getD (occurrence next) []) =
      stageMembers map stages (occurrence next) := by
    rw [Std.TreeMap.getD_eq_getD_getElem?]
    cases hold : groups[occurrence next]? with
    | none =>
      rw [getD_none,foldl_addPeer next map.nodes [] hdistinct (by simp),hpeers]
      rfl
    | some candidates =>
      obtain ⟨_,rfl⟩ := (h _ _).mp hold
      refine foldl_addPeer_present next _ _ fun peer hpeer hisPeer => ⟨peer,?_,rfl⟩
      rw [getD_some,← hpeers]
      exact mem_filter.mpr ⟨hpeer,hisPeer⟩
  have hoccurrence (occ : String) : OccurrenceOf map (processed++[stage]) occ ↔
      OccurrenceOf map processed occ ∨ occurrence next=occ := by
    constructor
    · rintro ⟨other,hother,node,hnode,hnodeId,hocc⟩
      rcases mem_append.mp hother with hother | hother
      · exact .inl ⟨other,hother,node,hnode,hnodeId,hocc⟩
      · have hsame : node=next := inj_on_of_nodup_map hdistinct hnode hnext
          (by rw [hnodeId,hid,mem_singleton.mp hother])
        exact .inr (hsame ▸ hocc)
    · rintro (⟨other,hother,hrest⟩ | hocc)
      · exact ⟨other,mem_append_left _ hother,hrest⟩
      · exact ⟨stage,by simp,next,hnext,hid,hocc⟩
  intro occ candidates
  simp only [Wip.addSuccessor,hfind,hentry,Std.TreeMap.getElem?_insert,
    Std.LawfulEqCmp.compare_eq_iff_eq,hoccurrence]
  by_cases hocc : occurrence next=occ
  · subst hocc
    simp [eq_comm]
  · simp only [hocc,if_false,or_false]
    exact h occ candidates

theorem groupsOf_successorGroups (hclean : CleanIds map) (hsound : StagesSound map stages)
    {successors : List ChainStage}
    (hsuccessors : ∀ stage∈successors, stage∈stages ∧ stage.apparatusId.isSome=true) :
    GroupsOf map stages successors (successorGroups map stages successors) := by
  have hrun (rest processed : List ChainStage) (groups : SuccessorGroups)
      (hrest : ∀ stage∈rest, stage∈stages ∧ stage.apparatusId.isSome=true)
      (h : GroupsOf map stages processed groups) :
      GroupsOf map stages (processed++rest) (rest.foldl (addSuccessor map stages) groups) := by
    induction rest generalizing processed groups with
    | nil => simpa using h
    | cons stage rest ih =>
      obtain ⟨hstage,hphysical⟩ := hrest stage mem_cons_self
      have hnext := ih (processed++[stage]) _
        (fun other hother => hrest other (mem_cons_of_mem stage hother))
        (h.addSuccessor hclean hsound hstage hphysical)
      simpa using hnext
  refine hrun successors [] ∅ hsuccessors fun occ candidates => ?_
  simp [OccurrenceOf]

end MiniErp.Wip
