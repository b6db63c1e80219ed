import MiniErp.Chain.Occurrence
import MiniErp.Lib.TwoWay
import MiniErp.Stage.Places

/-! The stages after an occurrence and the stages before it: on a compiled map the two searches
are the two directions of one walk over the occurrences. -/
namespace MiniErp.Chain
open Text Worklist Relation Compiler Stage TwoWay List
variable {map : ProductionMapDefinition}

section
variable (map : ProductionMapDefinition)

theorem stageNodeIdsMatchForMap_iff_lookup (x y : String) :
    stageNodeIdsMatchForMap map x y=true ↔ trim x ≠ "" ∧ trim y ≠ "" ∧
      (trim x=trim y ∨ ∃ a b, map.nodeByTrimmedId (trim x)=some a ∧
        map.nodeByTrimmedId (trim y)=some b ∧ SameGroup a b) := by
  by_cases hx : trim x = ""
  · simp [stageNodeIdsMatchForMap,hx]
  by_cases hy : trim y = ""
  · simp [stageNodeIdsMatchForMap,hy]
  by_cases hxy : trim x=trim y
  · simp [stageNodeIdsMatchForMap,hxy]
  simp only [stageNodeIdsMatchForMap,beq_iff_eq,hx,hy,hxy,Bool.or_eq_true,if_false,not_false_eq_true,ne_eq,true_and,false_or]
  cases hleft : map.nodeByTrimmedId (trim x) with
  | none => simp
  | some a =>
    cases hright : map.nodeByTrimmedId (trim y) with
    | none => simp
    | some b =>
      constructor
      · intro h
        dsimp only at h
        split at h
        · cases h
        · rename_i hgroup
          simp only [not_or,not_not] at hgroup
          simp only [Bool.and_eq_true,beq_iff_eq] at h
          exact ⟨a,b,rfl,rfl,hgroup.1,h.1.1.1,hgroup.2,h.1.1.2,h.1.2,h.2⟩
      · rintro ⟨_,_,ha,hb,h⟩
        cases ha
        cases hb
        simp [h.left,h.right,h.nonblank,← h.group,h.leftCanonical,h.rightCanonical]

theorem routeMatches_eq (id candidate : String) :
    routeMatches map (trim id) candidate=stageNodeIdsMatchForMap map candidate id := by
  rw [Bool.eq_iff_iff]
  constructor
  · intro h
    simp only [routeMatches,Bool.and_eq_true,Bool.or_eq_true,bne_iff_ne,beq_iff_eq,
      stageNodeIdsMatchForMap_trim] at h
    obtain ⟨⟨hid,hcandidate⟩,hsame | ⟨_,hmatch⟩⟩ := h
    · exact (stageNodeIdsMatchForMap_iff_lookup map _ _).mpr ⟨hcandidate,hid,.inl hsame⟩
    · exact hmatch
  · intro h
    obtain ⟨hcandidate,hid,hsame⟩ := (stageNodeIdsMatchForMap_iff_lookup map _ _).mp h
    rcases hsame with hsame | ⟨a,b,_,hb,hgroup⟩
    · simp [routeMatches,hid,hsame]
    · have hnonblank : trim b.alternativeGroupId ≠ "" := hgroup.group ▸ hgroup.nonblank
      have haliases : routeNodeHasAliases map (trim id)=true := by
        simp [routeNodeHasAliases,hid,hb,hgroup.right,isBlank,hnonblank,hgroup.rightCanonical]
      simp [routeMatches,hid,hcandidate,haliases,stageNodeIdsMatchForMap_trim,h]

/-- One node, or two nodes that the route scans take for each other. -/
def SameStage (x y : String) : Prop :=
  x=y ∨ (trim x=x ∧ trim y=y ∧ stageNodeIdsMatchForMap map x y=true)

theorem sameStage_equivalence : Equivalence (SameStage map) where
  refl _ := .inl rfl
  symm := by
    rintro x y (rfl | ⟨hx,hy,h⟩)
    · exact .inl rfl
    · refine .inr ⟨hy,hx,?_⟩
      rw [stageNodeIdsMatchForMap_iff_lookup] at h ⊢
      obtain ⟨hleft,hright,heq | ⟨a,b,ha,hb,hgroup⟩⟩ := h
      · exact ⟨hright,hleft,.inl heq.symm⟩
      · exact ⟨hright,hleft,.inr ⟨b,a,hb,ha,hgroup.symm⟩⟩
  trans := by
    rintro x y z (rfl | ⟨hx,hy,hxy⟩) hyz
    · exact hyz
    rcases hyz with rfl | ⟨_,hz,hyz⟩
    · exact .inr ⟨hx,hy,hxy⟩
    refine .inr ⟨hx,hz,?_⟩
    rw [stageNodeIdsMatchForMap_iff_lookup] at hxy hyz ⊢
    obtain ⟨hleft,_,heq | ⟨a,b,ha,hb,hab⟩⟩ := hxy
    · rw [heq]
      exact hyz
    obtain ⟨_,hright,heq | ⟨b',c,hb',hc,hbc⟩⟩ := hyz
    · rw [heq] at hb
      exact ⟨hleft,hright,.inr ⟨a,b,ha,hb,hab⟩⟩
    · obtain rfl : b=b' := Option.some.inj (hb.symm.trans hb')
      exact ⟨hleft,hright,.inr ⟨a,c,ha,hc,hab.trans hbc⟩⟩

end

theorem SameStage.group (h : TrimmedIds map) {x y : String} (hxy : SameStage map x y) (hne : x≠y) :
    ∃ a b, map.nodeById x=some a ∧ map.nodeById y=some b ∧ SameGroup a b := by
  rcases hxy with heq | ⟨hx,hy,hmatch⟩
  · exact absurd heq hne
  rw [stageNodeIdsMatchForMap_iff_lookup,hx,hy,h.nodeByTrimmedId,h.nodeByTrimmedId] at hmatch
  obtain ⟨_,_,heq | hgroup⟩ := hmatch
  · exact absurd heq hne
  · exact hgroup

def Arc (map : ProductionMapDefinition) (u v : String) : Prop :=
  ∃ edge∈map.edges, edge.fromId=u ∧ edge.toId=v ∧
    ∃ node, map.nodeById u=some node ∧ routeEdgeAllowed node edge=true

variable {id : String} {stages found : List ChainStage}

theorem follows_iff {edgeEnd : String} (hid : trim id=id) (hend : trim edgeEnd=edgeEnd) :
    (edgeEnd == id || stageNodeIdsMatchForMap map edgeEnd id)=true ↔ SameStage map edgeEnd id := by
  rw [Bool.or_eq_true,beq_iff_eq]
  exact or_congr_right ⟨fun h => ⟨hend,hid,h⟩,fun h => h.2.2⟩

section Routes
variable (htrim : TrimmedIds map) (hmap : Accepted map)
include htrim hmap

variable {id : String}

/-- An edge out of an occurrence ends in it if its end matches the occurrence: only the blank
identity matches nothing, and no edge joins a node to itself. -/
theorem not_sameStage_iff {edge : ProductionMapEdge} (hedge : edge∈map.edges) {u v : String}
    (hid : trim id=id) (hends : (edge.fromId=u ∧ edge.toId=v) ∨ (edge.toId=u ∧ edge.fromId=v))
    (hu : SameStage map u id) : stageNodeIdsMatchForMap map v id=false ↔ ¬SameStage map v id := by
  have hv : trim v=v := by
    obtain ⟨hfrom,hto⟩ := htrim.edges edge hedge
    rcases hends with ⟨_,rfl⟩ | ⟨_,rfl⟩
    · exact hto
    · exact hfrom
  have hloop : edge.fromId≠edge.toId := by
    intro heq
    exact hmap.acyclic edge.fromId (.single ⟨edge,hedge,rfl,heq.symm⟩)
  rw [← Bool.not_eq_true]
  refine not_congr ⟨fun h => .inr ⟨hv,hid,h⟩,fun h => ?_⟩
  rcases h with rfl | ⟨_,_,h⟩
  · have hne : u≠v := by
      rcases hends with ⟨rfl,rfl⟩ | ⟨rfl,rfl⟩
      · exact hloop
      · exact Ne.symm hloop
    rcases hu with heq | ⟨_,_,hmatch⟩
    · exact absurd heq hne
    · have hnonblank := ((stageNodeIdsMatchForMap_iff_lookup map _ _).mp hmatch).2.1
      exact (stageNodeIdsMatchForMap_iff_lookup map _ _).mpr ⟨hnonblank,hnonblank,.inl rfl⟩
  · exact h

omit hmap in
theorem routeEdgeAllowed_congr {x y : String} (hxy : SameStage map x y) {a b : ProductionMapNode}
    (ha : map.nodeById x=some a) (hb : map.nodeById y=some b) (edge : ProductionMapEdge) :
    routeEdgeAllowed a edge=routeEdgeAllowed b edge := by
  by_cases heq : x=y
  · subst heq
    rw [Option.some.inj (ha.symm.trans hb)]
  · obtain ⟨a',b',ha',hb',hgroup⟩ := hxy.group htrim heq
    obtain rfl : a=a' := Option.some.inj (ha.symm.trans ha')
    obtain rfl : b=b' := Option.some.inj (hb.symm.trans hb')
    simp [routeEdgeAllowed,hgroup.left,hgroup.right]

omit htrim in
theorem exists_nodeById_of_edge {edge : ProductionMapEdge} (hedge : edge∈map.edges) :
    (∃ node, map.nodeById edge.fromId=some node) ∧ ∃ node, map.nodeById edge.toId=some node := by
  obtain ⟨hfrom,hto⟩ := hmap.edges edge hedge
  obtain ⟨source,hsource,hsourceId⟩ := mem_map.mp hfrom
  obtain ⟨target,htarget,htargetId⟩ := mem_map.mp hto
  rw [← hsourceId,← htargetId]
  exact ⟨⟨source,nodeById_of_nodup hmap.distinct hsource⟩,
    target,nodeById_of_nodup hmap.distinct htarget⟩

theorem mem_routeSuccessors_iff {v : String} {node : ProductionMapNode}
    (hnode : map.nodeById id=some node) :
    v∈routeSuccessors map id ↔ Leaves (Arc map) (SameStage map) id v := by
  obtain ⟨hmem,rfl⟩ := nodeById_eq_some hnode
  have hid := htrim.nodes node hmem
  simp only [routeSuccessors,hnode,routeMatches_eq,mem_map,mem_filter,
    Bool.and_eq_true,Bool.not_eq_true']
  constructor
  · rintro ⟨edge,⟨hedge,⟨hfrom,hto⟩,hallowed⟩,rfl⟩
    have hsame := (follows_iff hid (htrim.edges edge hedge).1).mp hfrom
    obtain ⟨⟨source,hsource⟩,_⟩ := exists_nodeById_of_edge hmap hedge
    refine ⟨edge.fromId,hsame,⟨edge,hedge,rfl,rfl,source,hsource,?_⟩,?_⟩
    · rw [routeEdgeAllowed_congr htrim hsame hsource hnode]
      exact hallowed
    · exact (not_sameStage_iff htrim hmap hedge hid (.inl ⟨rfl,rfl⟩) hsame).mp hto
  · rintro ⟨u,hsame,⟨edge,hedge,rfl,rfl,source,hsource,hallowed⟩,hleaves⟩
    refine ⟨edge,⟨hedge,⟨?_,?_⟩,?_⟩,rfl⟩
    · exact (follows_iff hid (htrim.edges edge hedge).1).mpr hsame
    · exact (not_sameStage_iff htrim hmap hedge hid (.inl ⟨rfl,rfl⟩) hsame).mpr hleaves
    · rw [← routeEdgeAllowed_congr htrim hsame hsource hnode]
      exact hallowed

theorem mem_routePredecessors_iff {u : String} (hid : trim id=id) :
    u∈routePredecessors map id ↔ Leaves (fun v u => Arc map u v) (SameStage map) id u := by
  simp only [routePredecessors,routeMatches_eq,mem_map,mem_filter,Bool.and_eq_true,
    Bool.not_eq_true',Option.any_eq_true]
  constructor
  · rintro ⟨edge,⟨hedge,⟨hto,hfrom⟩,source,hsource,hallowed⟩,rfl⟩
    have hsame := (follows_iff hid (htrim.edges edge hedge).2).mp hto
    refine ⟨edge.toId,hsame,⟨edge,hedge,rfl,rfl,source,hsource,hallowed⟩,?_⟩
    exact (not_sameStage_iff htrim hmap hedge hid (.inr ⟨rfl,rfl⟩) hsame).mp hfrom
  · rintro ⟨v,hsame,⟨edge,hedge,rfl,rfl,source,hsource,hallowed⟩,hleaves⟩
    refine ⟨edge,⟨hedge,⟨?_,?_⟩,source,hsource,hallowed⟩,rfl⟩
    · exact (follows_iff hid (htrim.edges edge hedge).2).mpr hsame
    · exact (not_sameStage_iff htrim hmap hedge hid (.inr ⟨rfl,rfl⟩) hsame).mpr hleaves

end Routes

/-! The members of the group of a stage are stages too. -/

theorem mem_occurrences_pushStage {stage : ChainStage} :
    id∈(pushStage stages stage).map ChainStage.occurrenceIdentity ↔
      id∈stages.map ChainStage.occurrenceIdentity ∨ id=stage.occurrenceIdentity := by
  unfold pushStage
  split
  · rename_i hseen
    simp only [any_eq_true,beq_iff_eq] at hseen
    refine ⟨.inl,fun h => h.elim (fun hmem => hmem) fun heq => ?_⟩
    obtain ⟨seen,hmem,hsame⟩ := hseen
    exact mem_map.mpr ⟨seen,hmem,hsame.trans heq.symm⟩
  · rw [map_append,mem_append,map_singleton,mem_singleton]

theorem mem_occurrences_foldl_pushStage :
    id∈(found.foldl pushStage stages).map ChainStage.occurrenceIdentity ↔
      id∈stages.map ChainStage.occurrenceIdentity ∨ id∈found.map ChainStage.occurrenceIdentity := by
  induction found generalizing stages with
  | nil => simp
  | cons stage rest ih => rw [foldl_cons,ih,mem_occurrences_pushStage,map_cons,mem_cons,or_assoc]

theorem mem_of_mem_foldl_pushStage {stage : ChainStage}
    (h : stage∈found.foldl pushStage stages) : stage∈stages ∨ stage∈found := by
  induction found generalizing stages with
  | nil => exact .inl h
  | cons first rest ih =>
    rcases ih h with hmem | hmem
    · unfold pushStage at hmem
      split at hmem
      · exact .inl hmem
      · rcases mem_append.mp hmem with hmem | hmem
        · exact .inl hmem
        · exact .inr (mem_singleton.mp hmem ▸ mem_cons_self)
    · exact .inr (mem_cons_of_mem first hmem)

/-- With a stage the other members of its group have been met. -/
def GroupsMet (map : ProductionMapDefinition) (stages : List ChainStage) : Prop :=
  ∀ stage∈stages, ∀ a∈map.nodes, ∀ b∈map.nodes, a.id=stage.nodeId → SameGroup a b →
    trim b.id∈stages.map ChainStage.occurrenceIdentity

theorem groupsMet_stagesForNode (hdistinct : (map.nodes.map (·.id)).Nodup)
    {node : ProductionMapNode} (hnode : node∈map.nodes) :
    GroupsMet map (stagesForNode map node) := by
  intro stage hstage a ha b hb hid hgroup
  unfold stagesForNode at hstage ⊢
  split at hstage
  · cases hstage
  rename_i hcanonical
  rw [if_neg hcanonical]
  split at hstage
  · rename_i hsingle
    rw [mem_singleton] at hstage
    subst hstage
    obtain rfl : a=node := inj_on_of_nodup_map hdistinct ha hnode hid
    simp [isUnassignedAlternativeApparatus,hgroup.left,isBlank,hgroup.nonblank] at hsingle
  · rename_i hgrouped
    rw [if_neg hgrouped]
    obtain ⟨candidate,hcandidate,rfl⟩ := mem_map.mp hstage
    obtain ⟨hmem,hfacts⟩ := mem_filter.mp hcandidate
    obtain rfl : a=candidate := inj_on_of_nodup_map hdistinct ha hmem hid
    simp only [Bool.and_eq_true] at hfacts
    obtain ⟨identity,hidentity⟩ := Option.isSome_iff_exists.mp hgroup.rightCanonical
    have hnonblank : trim b.alternativeGroupId ≠ "" := hgroup.group ▸ hgroup.nonblank
    obtain ⟨_,hvalid,hstation⟩ := canonicalApparatusIdentity_eq_some.mp hidentity
    have hown : stationIdentity b=trim b.apparatusId := by
      simp [stationIdentity,hgroup.right,isBlank,hnonblank]
    have hmember : b∈map.nodes.filter fun candidate =>
        candidate.kind == .apparatus &&
          trim candidate.alternativeGroupId == trim node.alternativeGroupId &&
          ApparatusId.isValid (trim candidate.apparatusId) := by
      rw [mem_filter]
      simp only [hb,hgroup.right,← hgroup.group,hfacts.1.2,← hown,hstation,hvalid,true_and,
        beq_self_eq_true,Bool.and_self]
    rw [List.map_map]
    exact mem_map.mpr ⟨b,hmember,rfl⟩

theorem GroupsMet.foldl_pushStage (hstages : GroupsMet map stages)
    (hfound : GroupsMet map found) : GroupsMet map (found.foldl pushStage stages) := by
  intro stage hstage a ha b hb hid hgroup
  rw [mem_occurrences_foldl_pushStage]
  rcases mem_of_mem_foldl_pushStage hstage with hmem | hmem
  · exact .inl (hstages stage hmem a ha b hb hid hgroup)
  · exact .inr (hfound stage hmem a ha b hb hid hgroup)

theorem groupsMet_linearWorkStages (hdistinct : (map.nodes.map (·.id)).Nodup) :
    GroupsMet map (linearWorkStages map) := by
  refine List.foldlRecOn (motive := fun scan : StageScan => GroupsMet map scan.stages) _ _ ?_ ?_
  · exact fun stage hstage => absurd hstage not_mem_nil
  · intro scan h nodeId _
    unfold scanNode
    split
    · exact h
    · rename_i node hnode
      split
      · exact h.foldl_pushStage (groupsMet_stagesForNode hdistinct (lastNodeById_mem hnode))
      · exact h

def Physical (map : ProductionMapDefinition) (id : String) : Prop :=
  ∃ stage∈linearWorkStages map, stage.apparatusId.isSome=true ∧ stage.nodeId=id

theorem physicalByNode_isSome_iff :
    (physicalByNode (linearWorkStages map) id).isSome=true ↔ Physical map id := by
  constructor
  · intro h
    obtain ⟨stage,hstage⟩ := Option.isSome_iff_exists.mp h
    exact ⟨stage,physicalByNode_eq_some hstage⟩
  · rintro ⟨stage,hmem,hphysical,hid⟩
    rw [physicalByNode,find?_isSome]
    exact ⟨stage,mem_reverse.mpr (mem_filter.mpr ⟨hmem,hphysical⟩),beq_iff_eq.mpr hid⟩

/-- A node the searches go on from. -/
def Passes (map : ProductionMapDefinition) (id : String) : Prop :=
  ∃ node, map.nodeById id=some node ∧ isRouteEnd node=false ∧ ¬Physical map id

section Search
variable (htrim : TrimmedIds map) (hmap : Accepted map)
include hmap

variable {id x y : String} {previous : Bool}

theorem Physical.node (h : Physical map id) :
    ∃ node, map.nodeById id=some node ∧ isRouteEnd node=false := by
  obtain ⟨stage,hstage,hphysical,rfl⟩ := h
  obtain ⟨owner,howner⟩ := (linearWorkStages_sound map).stageOf stage hstage
  rw [howner.apparatusId] at hphysical
  obtain ⟨identity,hidentity⟩ := Option.isSome_iff_exists.mp hphysical
  have hkind := (canonicalApparatusIdentity_eq_some.mp hidentity).1
  refine ⟨owner,?_,by simp [isRouteEnd,hkind]⟩
  rw [howner.nodeId]
  exact nodeById_of_nodup hmap.distinct howner.mem

include htrim

theorem Physical.congr (h : Physical map x) (hxy : SameStage map x y) : Physical map y := by
  by_cases heq : x=y
  · exact heq ▸ h
  obtain ⟨a,b,ha,hb,hgroup⟩ := hxy.group htrim heq
  obtain ⟨hamem,haid⟩ := nodeById_eq_some ha
  obtain ⟨hbmem,rfl⟩ := nodeById_eq_some hb
  obtain ⟨stage,hstage,_,hid⟩ := h
  have hmet := groupsMet_linearWorkStages hmap.distinct stage hstage a hamem b hbmem
    (haid.trans hid.symm) hgroup
  obtain ⟨other,hother,hsame⟩ := mem_map.mp hmet
  obtain ⟨owner,howner⟩ := (linearWorkStages_sound map).stageOf other hother
  rw [ChainStage.occurrenceIdentity,howner.nodeId,htrim.nodes owner howner.mem,
    htrim.nodes b hbmem] at hsame
  obtain rfl : owner=b := inj_on_of_nodup_map hmap.distinct howner.mem hbmem hsame
  exact ⟨other,hother,howner.apparatusId ▸ hgroup.rightCanonical,howner.nodeId⟩

theorem Passes.congr (hxy : SameStage map x y) (h : Passes map x) : Passes map y := by
  by_cases heq : x=y
  · exact heq ▸ h
  obtain ⟨_,b,_,hb,hgroup⟩ := hxy.group htrim heq
  obtain ⟨_,_,_,hphysical⟩ := h
  refine ⟨b,hb,by simp [isRouteEnd,hgroup.right],fun hy => hphysical ?_⟩
  exact hy.congr htrim hmap ((sameStage_equivalence map).symm hxy)

def Directed (map : ProductionMapDefinition) (previous : Bool) (u v : String) : Prop :=
  if previous then Arc map v u else Arc map u v

theorem mem_routeStep_iff {v : String} {node : ProductionMapNode}
    (hnode : map.nodeById id=some node) :
    v∈routeStep map previous id ↔ Leaves (Directed map previous) (SameStage map) id v := by
  cases previous with
  | true =>
    obtain ⟨hmem,rfl⟩ := nodeById_eq_some hnode
    exact mem_routePredecessors_iff htrim hmap (htrim.nodes node hmem)
  | false => exact mem_routeSuccessors_iff htrim hmap hnode

theorem step_adjacentNext_iff : Step (adjacentNext map (linearWorkStages map) previous) x y ↔
      Passes map x ∧ Leaves (Directed map previous) (SameStage map) x y := by
  unfold Step adjacentNext
  cases hnode : map.nodeById x with
  | none => simp [Passes,hnode]
  | some node =>
    dsimp only
    rw [← mem_routeStep_iff htrim hmap hnode]
    split
    · rename_i hstop
      rw [Bool.or_eq_true,physicalByNode_isSome_iff] at hstop
      simp only [Passes,hnode]
      rcases hstop with hend | hphysical
      · simp [hend]
      · simp [hphysical]
    · rename_i hgo
      rw [Bool.or_eq_true,physicalByNode_isSome_iff,not_or] at hgo
      simp only [Passes,hnode,Option.some.injEq,exists_eq_left',hgo,not_false_eq_true,true_and]

/-- Whether two stages are of one occurrence, as the code compares them. -/
def InOccurrence (map : ProductionMapDefinition) (stage other : ChainStage) : Prop :=
  stage.nodeId=other.nodeId ∨ stageNodeIdsMatchForMap map stage.nodeId other.nodeId=true

theorem trim_of_physical (h : Physical map id) : trim id=id := by
  obtain ⟨node,hnode,_⟩ := h.node hmap
  obtain ⟨hmem,rfl⟩ := nodeById_eq_some hnode
  exact htrim.nodes node hmem

/-- A search finds a member of an occurrence of physical stages along the arcs of its direction. -/
theorem adjacent_iff_finds {a b : ChainStage} (ha : Physical map a.nodeId)
    (hb : Physical map b.nodeId) :
    (∃ stage∈adjacentPhysicalStagesForNode map a.nodeId previous, InOccurrence map stage b) ↔
      Finds (Directed map previous) (SameStage map) (Passes map) a.nodeId b.nodeId := by
  have hsteps : Step (adjacentNext map (linearWorkStages map) previous) =
      fun x y => Passes map x ∧ Leaves (Directed map previous) (SameStage map) x y :=
    funext fun x => funext fun y => propext (step_adjacentNext_iff htrim hmap)
  have htrimA := trim_of_physical htrim hmap ha
  have htrimB := trim_of_physical htrim hmap hb
  obtain ⟨node,hnode,_⟩ := ha.node hmap
  simp only [adjacentPhysicalStagesForNode,mem_adjacent_iff,hsteps,htrimA,
    mem_routeStep_iff htrim hmap hnode]
  constructor
  · rintro ⟨stage,⟨_,first,hfirst,last,hwalk,hfound⟩,hsame⟩
    obtain ⟨hstage,hphysical,rfl⟩ := adjacentFound_eq_some hfound
    have htrimStage := trim_of_physical htrim hmap ⟨stage,hstage,hphysical,rfl⟩
    exact ⟨first,hfirst,stage.nodeId,hwalk,
      hsame.imp_right fun hmatch => ⟨htrimStage,htrimB,hmatch⟩⟩
  · rintro ⟨first,hfirst,last,hwalk,hsame⟩
    have hlast := hb.congr htrim hmap ((sameStage_equivalence map).symm hsame)
    obtain ⟨target,htarget,hend⟩ := hlast.node hmap
    obtain ⟨stage,hstage⟩ := Option.isSome_iff_exists.mp (physicalByNode_isSome_iff.mpr hlast)
    have hfound : adjacentFound map (linearWorkStages map) last=some stage := by
      simp [adjacentFound,htarget,hend,hstage]
    obtain ⟨own,hown,_,hownId⟩ := ha
    refine ⟨stage,⟨⟨own,hown,hownId ▸ htrimA⟩,first,hfirst,last,hwalk,hfound⟩,?_⟩
    rw [InOccurrence,(physicalByNode_eq_some hstage).2.2]
    exact hsame.imp_right fun h => h.2.2

end Search

/-- On a normalised map that the compiler accepts the next stages and the previous stages agree:
a member of the one occurrence comes next after the other exactly if a member of the other comes
just before the one. -/
theorem nextWorkStages_iff_previousWorkStages (rules : CompilerRules)
    (drawn : ProductionMapDefinition) (program : ProductionMapProgram)
    (h : compileMap rules (normalizeMap drawn)=.ok program) (a b : ChainStage)
    (ha : a∈linearWorkStages (normalizeMap drawn) ∧ a.apparatusId.isSome=true)
    (hb : b∈linearWorkStages (normalizeMap drawn) ∧ b.apparatusId.isSome=true) :
    (∃ stage∈nextWorkStagesForNode (normalizeMap drawn) a.nodeId,
        InOccurrence (normalizeMap drawn) stage b) ↔
      ∃ stage∈previousWorkStagesForNode (normalizeMap drawn) b.nodeId,
        InOccurrence (normalizeMap drawn) stage a := by
  have htrim := trimmedIds_normalizeMap drawn
  have hmap := accepted_of_compileMap h
  have hA : Physical (normalizeMap drawn) a.nodeId := ⟨a,ha.1,ha.2,rfl⟩
  have hB : Physical (normalizeMap drawn) b.nodeId := ⟨b,hb.1,hb.2,rfl⟩
  rw [nextWorkStagesForNode,previousWorkStagesForNode,adjacent_iff_finds htrim hmap hA hB,
    adjacent_iff_finds htrim hmap hB hA]
  exact finds_swap_iff (sameStage_equivalence _) fun x y => Passes.congr htrim hmap

section Sample

def plainFormulas : CompilerRules := ⟨Char.isAlphanum,fun _ => .ok (),fun _ => .ok (),fun _ => ""⟩

/-- A cutter before two presses of one group, of which only the first is drawn; its identity is
given. -/
def cutThenPress (press : String) : ProductionMapDefinition :=
  { id := "map-1", productCode := "bag", title := "Bag",
    nodes := [{ id := "first", kind := .start, title := "" },
      { id := "cut", kind := .apparatus, title := "", apparatusId := "apparatus:cutter:1" },
      { id := "check", kind := .task, title := "" },
      { id := press, kind := .apparatus, title := "", apparatusId := "apparatus:press:1",
        alternativeGroupId := "presses" },
      { id := "press-2", kind := .apparatus, title := "", apparatusId := "apparatus:press:2",
        alternativeGroupId := "presses" },
      { id := "last", kind := .endNode, title := "" }],
    edges := [⟨"first","cut",""⟩,⟨"cut","check",""⟩,
      { fromId := "check", toId := press },{ fromId := press, toId := "last" }] }

def cutStage : ChainStage := ⟨"cut",some "apparatus:cutter:1",""⟩

def secondPress : ChainStage := ⟨"press-2",some "apparatus:press:2",""⟩

theorem nextWorkStages_iff_previousWorkStages_press :
    let map := normalizeMap (cutThenPress " Press-1")
    ((∃ stage∈nextWorkStagesForNode map "cut", InOccurrence map stage secondPress) ↔
      ∃ stage∈previousWorkStagesForNode map "press-2", InOccurrence map stage cutStage) ∧
    (previousWorkStagesForNode map "press-2").map (·.nodeId)=["cut"] := by
  intro map
  have hfacts : (compileMap plainFormulas map).toOption.isSome=true ∧
      cutStage∈linearWorkStages map ∧ secondPress∈linearWorkStages map ∧
      (previousWorkStagesForNode map "press-2").map (·.nodeId)=["cut"] := by
    decide +kernel
  obtain ⟨hcompiled,hcut,hpress,hprevious⟩ := hfacts
  obtain ⟨program,hprogram⟩ := Option.isSome_iff_exists.mp hcompiled
  refine ⟨?_,hprevious⟩
  exact nextWorkStages_iff_previousWorkStages plainFormulas (cutThenPress " Press-1") program
    (Run.toOption_eq_some.mp hprogram) cutStage secondPress ⟨hcut,rfl⟩ ⟨hpress,rfl⟩

/-- A press without an identity is a stage of its group, but no edge to it leads back from the
other press of the group. -/
theorem blank_member_not_previous :
    let map := normalizeMap (cutThenPress " ")
    (compileMap plainFormulas map).isOk=true ∧
    cutStage∈linearWorkStages map ∧ secondPress∈linearWorkStages map ∧
    (∃ stage∈nextWorkStagesForNode map "cut", ∃ a∈map.nodes, ∃ b∈map.nodes,
      a.id=stage.nodeId ∧ b.id=secondPress.nodeId ∧ SameOccurrence a b) ∧
    previousWorkStagesForNode map "press-2" = [] := by
  intro map
  have hfacts : (compileMap plainFormulas map).isOk=true ∧
      cutStage∈linearWorkStages map ∧ secondPress∈linearWorkStages map ∧
      (∃ stage∈nextWorkStagesForNode map "cut", ∃ a∈map.nodes, ∃ b∈map.nodes,
        a.id=stage.nodeId ∧ b.id=secondPress.nodeId ∧
          (a.kind=.apparatus ∧ b.kind=.apparatus ∧ trim a.alternativeGroupId ≠ "" ∧
            trim a.alternativeGroupId=trim b.alternativeGroupId ∧
            (canonicalApparatusIdentity a).isSome=true ∧
            (canonicalApparatusIdentity b).isSome=true)) ∧
      previousWorkStagesForNode map "press-2" = [] := by
    decide +kernel
  obtain ⟨hcompiled,hcut,hpress,⟨stage,hstage,a,ha,b,hb,hida,hidb,hgroup⟩,hnone⟩ := hfacts
  obtain ⟨hkinda,hkindb,hnonblank,hsame,hcanonicala,hcanonicalb⟩ := hgroup
  exact ⟨hcompiled,hcut,hpress,⟨stage,hstage,a,ha,b,hb,hida,hidb,
    .inr ⟨hkinda,hkindb,hnonblank,hsame,hcanonicala,hcanonicalb⟩⟩,hnone⟩

end Sample

end MiniErp.Chain
