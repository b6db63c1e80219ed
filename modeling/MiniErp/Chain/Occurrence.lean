import MiniErp.Chain.Adjacent

/-! Logical occurrences: the nodes of one valid alternative group stand for each other. On a map
with clean identities the textual matching of the route scans is this relation, so members of
one group have the same predecessors. -/
namespace MiniErp.Chain
open Text

structure SameGroup (a b : ProductionMapNode) : Prop where
  left : a.kind=.apparatus
  right : b.kind=.apparatus
  nonblank : trim a.alternativeGroupId ≠ ""
  group : trim a.alternativeGroupId=trim b.alternativeGroupId
  leftCanonical : (canonicalApparatusIdentity a).isSome=true
  rightCanonical : (canonicalApparatusIdentity b).isSome=true

variable {a b : ProductionMapNode}

theorem SameGroup.symm (h : SameGroup a b) : SameGroup b a :=
  ⟨h.right,h.left,h.group ▸ h.nonblank,h.group.symm,h.rightCanonical,h.leftCanonical⟩

theorem SameGroup.trans {c : ProductionMapNode} (hab : SameGroup a b) (hbc : SameGroup b c) :
    SameGroup a c :=
  ⟨hab.left,hbc.right,hab.nonblank,hab.group.trans hbc.group,hab.leftCanonical,hbc.rightCanonical⟩

/-- One node, or two members of one group. -/
def SameOccurrence (a b : ProductionMapNode) : Prop := a=b ∨ SameGroup a b

theorem SameOccurrence.symm (h : SameOccurrence a b) : SameOccurrence b a :=
  h.imp Eq.symm SameGroup.symm

theorem SameOccurrence.trans {c : ProductionMapNode} (hab : SameOccurrence a b)
    (hbc : SameOccurrence b c) : SameOccurrence a c := by
  rcases hab with rfl | hab
  · exact hbc
  · rcases hbc with rfl | hbc
    · exact .inr hab
    · exact .inr (hab.trans hbc)

variable {map : ProductionMapDefinition}

theorem stageNodeIdsMatchForMap_trim (map : ProductionMapDefinition) (left right : String) :
    stageNodeIdsMatchForMap map (trim left) (trim right) =
      stageNodeIdsMatchForMap map left right := by
  simp only [stageNodeIdsMatchForMap,trim_trim]

section
variable (hclean : CleanIds map)
include hclean

theorem stageNodeIdsMatchForMap_iff (ha : a∈map.nodes) (hb : b∈map.nodes) :
    stageNodeIdsMatchForMap map a.id b.id=true ↔ SameOccurrence a b := by
  have hane := hclean.nonblank a ha
  have hbne := hclean.nonblank b hb
  by_cases hid : trim a.id=trim b.id
  · have heq : a=b := hclean.eq_of_trim ha hb hid
    simp [stageNodeIdsMatchForMap,heq,hbne,SameOccurrence]
  · have hne : a≠b := fun h => hid (h ▸ rfl)
    simp only [stageNodeIdsMatchForMap,hane,hbne,hid,hclean.nodeByTrimmedId_trim ha,
      hclean.nodeByTrimmedId_trim hb,beq_iff_eq,if_false,SameOccurrence,hne,false_or,
      Bool.or_eq_true,or_self]
    constructor
    · intro h
      split at h
      · cases h
      · rename_i hleft
        simp only [not_or,not_not] at hleft
        simp only [Bool.and_eq_true,beq_iff_eq] at h
        exact ⟨hleft.1,h.1.1.1,hleft.2,h.1.1.2,h.1.2,h.2⟩
    · intro h
      simp [h.left,h.right,h.nonblank,← h.group,h.leftCanonical,h.rightCanonical]

theorem routeMatches_iff {node : ProductionMapNode}
    (hnode : node∈map.nodes) (candidate : String) : routeMatches map (trim node.id) candidate=true ↔
      ∃ member∈map.nodes, trim member.id=trim candidate ∧ SameOccurrence member node := by
  have hne := hclean.nonblank node hnode
  constructor
  · intro h
    simp only [routeMatches,Bool.and_eq_true,Bool.or_eq_true,beq_iff_eq] at h
    obtain ⟨⟨_,hcandidate⟩,hsame | ⟨_,hmatch⟩⟩ := h
    · exact ⟨node,hnode,hsame.symm,.inl rfl⟩
    · -- the scan found a node for the candidate, so the node criterion applies to it
      cases hfind : map.nodeByTrimmedId (trim candidate) with
      | none =>
        by_cases hid : trim candidate=trim node.id
        · exact ⟨node,hnode,hid.symm,.inl rfl⟩
        · simp [stageNodeIdsMatchForMap,hid,hfind] at hmatch
      | some member =>
        obtain ⟨hmember,hid⟩ := nodeByTrimmedId_eq_some hfind
        rw [← hid,stageNodeIdsMatchForMap_trim] at hmatch
        exact ⟨member,hmember,hid,(stageNodeIdsMatchForMap_iff hclean hmember hnode).mp hmatch⟩
  · rintro ⟨member,hmember,hid,hsame⟩
    have hcandidate : trim candidate ≠ "" := hid ▸ hclean.nonblank member hmember
    have hmatch := (stageNodeIdsMatchForMap_iff hclean hmember hnode).mpr hsame
    rw [← stageNodeIdsMatchForMap_trim,hid] at hmatch
    rcases hsame with rfl | hgroup
    · simp [routeMatches,hne,← hid]
    · have haliases : routeNodeHasAliases map (trim node.id)=true := by
        have hnonblank : trim node.alternativeGroupId ≠ "" := hgroup.group ▸ hgroup.nonblank
        simp [routeNodeHasAliases,hne,hclean.nodeByTrimmedId_trim hnode,hgroup.right,isBlank,
          hnonblank,hgroup.rightCanonical]
      simp [routeMatches,hne,hcandidate,haliases,hmatch]

section
variable (ha : a∈map.nodes) (hb : b∈map.nodes) (hab : SameOccurrence a b)
include ha hb hab

theorem routeMatches_congr : routeMatches map (trim a.id)=routeMatches map (trim b.id) := by
  funext candidate
  rw [Bool.eq_iff_iff,routeMatches_iff hclean ha,routeMatches_iff hclean hb]
  constructor
  · rintro ⟨member,hmember,hid,hsame⟩
    exact ⟨member,hmember,hid,hsame.trans hab⟩
  · rintro ⟨member,hmember,hid,hsame⟩
    exact ⟨member,hmember,hid,hsame.trans hab.symm⟩

theorem routePredecessors_congr :
    routePredecessors map (trim a.id)=routePredecessors map (trim b.id) := by
  have hown {node : ProductionMapNode} (hnode : node∈map.nodes) (id : String) :
      (id == trim node.id || routeMatches map (trim node.id) id) =
        routeMatches map (trim node.id) id := by
    by_cases hid : id=trim node.id
    · have hmatch : routeMatches map (trim node.id) id=true :=
        (routeMatches_iff hclean hnode id).mpr ⟨node,hnode,by simp [hid],.inl rfl⟩
      simp [hmatch]
    · simp [hid]
  simp only [routePredecessors,trim_trim,hown ha,hown hb]
  rw [routeMatches_congr hclean ha hb hab]

theorem previousWorkStagesForNode_congr
    (hastage : ∃ stage∈linearWorkStages map, trim stage.nodeId=trim a.id)
    (hbstage : ∃ stage∈linearWorkStages map, trim stage.nodeId=trim b.id) :
    previousWorkStagesForNode map a.id=previousWorkStagesForNode map b.id := by
  have hany {id : String} (h : ∃ stage∈linearWorkStages map, trim stage.nodeId=trim id) :
      ((linearWorkStages map).any fun stage => trim stage.nodeId == trim id)=true := by
    simpa using h
  simp only [previousWorkStagesForNode,adjacentPhysicalStagesForNode,
    adjacentPhysicalStagesForNodeWithStages,hany hastage,hany hbstage,routeStep,if_true,
    routePredecessors_congr hclean ha hb hab]

end

theorem canonicalApparatusIdentity_of_stage {stages : List ChainStage}
    (hsound : StagesSound map stages) {stage : ChainStage} (hstage : stage∈stages)
    {node : ProductionMapNode} (hnode : node∈map.nodes)
    (hid : trim stage.nodeId=trim node.id) : stage.apparatusId=canonicalApparatusIdentity node := by
  obtain ⟨owner,howner⟩ := hsound.stageOf stage hstage
  have heq : owner=node := hclean.eq_of_trim howner.mem hnode (howner.nodeId ▸ hid)
  rw [howner.apparatusId,heq]

end

end MiniErp.Chain
