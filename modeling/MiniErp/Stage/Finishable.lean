import MiniErp.Catalog.Alternatives
import MiniErp.Stage.Places

/-! Which accepted maps can be finished. The groups that the save step derives from the drawing
close no cycle of places; only groups that the map declares itself can. -/
namespace MiniErp.Stage
open Text Chain Merge Relation Compiler Catalog List

section Representatives
variable {map : ProductionMapDefinition} {configurations : Configurations}

theorem map_id_normalizeTopologyAlternatives (configurations : Configurations)
    (map : ProductionMapDefinition) :
    (normalizeTopologyAlternatives configurations map).nodes.map (·.id)=map.nodes.map (·.id) := by
  have hid : ∀ entry : ProductionMapNode × Nat,
      (assignGroup (topologyGroups configurations map) entry).id=entry.1.id := by
    intro entry
    unfold assignGroup
    split <;> rfl
  calc (normalizeTopologyAlternatives configurations map).nodes.map (·.id)
      = map.nodes.zipIdx.map fun entry => entry.1.id := by
        change (map.nodes.zipIdx.map _).map _=_
        rw [List.map_map]
        exact map_congr_left fun entry _ => hid entry
    _=(map.nodes.zipIdx.map Prod.fst).map (·.id) := by
        rw [List.map_map]
        rfl
    _=map.nodes.map (·.id) := by rw [zipIdx_map_fst]

/-- What a saved node is: the drawn one, put in a group if it is a member of one. -/
theorem nodeById_normalizeTopologyAlternatives (hdistinct : (map.nodes.map (·.id)).Nodup)
    {node : ProductionMapNode} {index : Nat} (hindex : map.nodes[index]?=some node) :
    (normalizeTopologyAlternatives configurations map).nodeById node.id =
      some (assignGroup (topologyGroups configurations map) (node, index)) := by
  have hid : (assignGroup (topologyGroups configurations map) (node, index)).id=node.id := by
    unfold assignGroup
    split <;> rfl
  rw [← hid]
  refine nodeById_of_nodup ?_ ?_
  · rw [map_id_normalizeTopologyAlternatives]
    exact hdistinct
  · exact mem_map.mpr ⟨(node, index),mk_mem_zipIdx_iff_getElem?.mpr hindex,rfl⟩

/-- A node that a derived group has as a member. -/
def Grouped (configurations : Configurations) (map : ProductionMapDefinition)
    (named : NamedGroup) (id : String) : Prop :=
  named∈topologyGroups configurations map ∧ ∃ c∈named.members, c.node.id=id

theorem index_unique (hdistinct : (map.nodes.map (·.id)).Nodup) {c d : AlternativeCandidate}
    (hc : CandidateOf map c) (hd : CandidateOf map d) (hid : c.node.id=d.node.id) :
    c.index=d.index := by
  obtain ⟨hlt,_⟩ := List.getElem?_eq_some_iff.mp hc.at_index
  refine (getElem?_inj (by rwa [length_map]) hdistinct).mp ?_
  rw [getElem?_map,getElem?_map,hc.at_index,hd.at_index,Option.map_some, Option.map_some,hid]

variable {id : String} {named : NamedGroup}

theorem Grouped.unique (hdistinct : (map.nodes.map (·.id)).Nodup) {a b : NamedGroup}
    (ha : Grouped configurations map a id) (hb : Grouped configurations map b id) : a=b := by
  have hsound := topologyGroups_sound configurations map
  obtain ⟨hamem,c,hc,hcid⟩ := ha
  obtain ⟨hbmem,d,hd,hdid⟩ := hb
  have hindex := index_unique hdistinct (hsound.candidate a hamem c hc)
    (hsound.candidate b hbmem d hd) (hcid.trans hdid.symm)
  have hfirst := (groupAt_eq_some hsound).mpr ⟨hamem,c,hc,rfl⟩
  rw [hindex,(groupAt_eq_some hsound).mpr ⟨hbmem,d,hd,rfl⟩,Option.some.injEq] at hfirst
  exact hfirst.symm

theorem grouped_leader (hmem : named∈topologyGroups configurations map) :
    Grouped configurations map named (leaderId named.members) := by
  obtain ⟨leader,rest,hmembers,_⟩ := (topologyGroups_sound configurations map).led named hmem
  refine ⟨hmem,leader,?_,?_⟩
  · rw [hmembers]
    exact mem_cons_self
  · rw [hmembers]
    rfl

/-- Member and leader of a derived group have the same neighbours. -/
theorem Grouped.same_edges (h : Grouped configurations map named id) :
    (∀ other, Drawn map id other → Drawn map (leaderId named.members) other) ∧
      ∀ other, Drawn map other id → Drawn map other (leaderId named.members) := by
  have hsound := topologyGroups_sound configurations map
  obtain ⟨hmem,c,hc,rfl⟩ := h
  obtain ⟨leader,rest,hmembers,hpeers⟩ := hsound.led named hmem
  have hleaderId : leaderId named.members=leader.node.id := by rw [hmembers]; rfl
  have hcandidate := hsound.candidate named hmem c hc
  have hleader := hsound.candidate named hmem leader (hmembers ▸ mem_cons_self)
  rw [hleaderId]
  have hsame : c=leader ∨ interchangeable leader c=true := by
    rw [hmembers] at hc
    cases hc with
    | head => exact .inl rfl
    | tail _ hc => exact .inr (hpeers c hc)
  rcases hsame with rfl | hsame
  · exact ⟨fun _ h => h,fun _ h => h⟩
  · simp only [interchangeable,sameEdges,Bool.and_eq_true,all_eq_true, contains_iff_mem] at hsame
    constructor
    · rintro other ⟨edge,hedge,hfrom,rfl⟩
      have hout : (edge.toId, edge.branch)∈c.outgoing := by
        rw [hcandidate.outgoing]
        exact mem_map.mpr ⟨edge,mem_filter.mpr ⟨hedge,beq_iff_eq.mpr hfrom⟩,rfl⟩
      have hleaderOut := hsame.1.1.1.1.2.2 _ hout
      rw [hleader.outgoing] at hleaderOut
      obtain ⟨twin,htwin,heq⟩ := mem_map.mp hleaderOut
      rw [Prod.mk.injEq] at heq
      obtain ⟨htwinmem,htwinfrom⟩ := mem_filter.mp htwin
      exact ⟨twin,htwinmem,beq_iff_eq.mp htwinfrom,heq.1⟩
    · rintro other ⟨edge,hedge,rfl,hto⟩
      have hin : (edge.fromId, edge.branch)∈c.incoming := by
        rw [hcandidate.incoming]
        exact mem_map.mpr ⟨edge,mem_filter.mpr ⟨hedge,beq_iff_eq.mpr hto⟩,rfl⟩
      have hleaderIn := hsame.1.1.1.1.1.2 _ hin
      rw [hleader.incoming] at hleaderIn
      obtain ⟨twin,htwin,heq⟩ := mem_map.mp hleaderIn
      rw [Prod.mk.injEq] at heq
      obtain ⟨htwinmem,htwinto⟩ := mem_filter.mp htwin
      exact ⟨twin,htwinmem,heq.1,beq_iff_eq.mp htwinto⟩

theorem trim_groupName {base : String} (hbase : trim base=base) (hne : base ≠ "") (k : Nat) :
    trim (groupName base k)=groupName base k ∧ groupName base k ≠ "" := by
  unfold groupName
  split
  · exact ⟨hbase,hne⟩
  · have hcolon : trim (base ++ ":")=base ++ ":" :=
      trim_append hbase (trim_of_forall (by simp [isWhitespace])) hne (by decide)
    have hcolonNe : base ++ ":" ≠ "" := append_ne_empty hne ":"
    exact ⟨trim_append hcolon (trim_toString_nat k) hcolonNe (toString_nat_ne_empty k),
      append_ne_empty hcolonNe _⟩

theorem trim_group (htrimmed : TrimmedIds map)
    (hmem : named∈topologyGroups configurations map) :
    trim named.group=named.group ∧ named.group ≠ "" := by
  have hsound := topologyGroups_sound configurations map
  obtain ⟨k,hname⟩ := hsound.name named hmem
  obtain ⟨_,c,hc,hid⟩ := grouped_leader hmem
  have hleader : trim (leaderId named.members)=leaderId named.members := by
    rw [← hid]
    exact htrimmed.nodes c.node (mem_of_getElem? (hsound.candidate named hmem c hc).at_index)
  rw [hname]
  have hstem : trim "topology_alt:" = "topology_alt:" := trim_of_forall (by simp [isWhitespace])
  refine trim_groupName ?_ (append_ne_empty (by decide) _) k
  by_cases hblank : leaderId named.members = ""
  · rw [hblank,String.append_empty,hstem]
  · exact trim_append hstem hleader (by decide) hblank

theorem Grouped.place_eq (htrimmed : TrimmedIds map) (hdistinct : (map.nodes.map (·.id)).Nodup)
    (h : Grouped configurations map named id) :
    place (normalizeTopologyAlternatives configurations map) id = "group:" ++ named.group := by
  have hsound := topologyGroups_sound configurations map
  obtain ⟨hmem,c,hc,rfl⟩ := h
  have hcandidate := hsound.candidate named hmem c hc
  have hgroup : groupAt (topologyGroups configurations map) c.index=some named :=
    (groupAt_eq_some hsound).mpr ⟨hmem,c,hc,rfl⟩
  have hnode : (normalizeTopologyAlternatives configurations map).nodeById c.node.id =
      some { c.node with alternativeGroupId := named.group } := by
    rw [nodeById_normalizeTopologyAlternatives hdistinct hcandidate.at_index]
    simp only [assignGroup,hgroup]
  obtain ⟨htrim,hne⟩ := trim_group htrimmed hmem
  rw [place_eq_group hnode hcandidate.kind (htrim.symm ▸ hne),htrim]

theorem Grouped.place_drawn (hdistinct : (map.nodes.map (·.id)).Nodup)
    (h : Grouped configurations map named id) : place map id = "node:" ++ id := by
  obtain ⟨hmem,c,hc,rfl⟩ := h
  have hcandidate := (topologyGroups_sound configurations map).candidate named hmem c hc
  have hnode := nodeById_of_nodup hdistinct (mem_of_getElem? hcandidate.at_index)
  simp [place,hnode,hcandidate.ungrouped]

theorem place_of_not_grouped (hdistinct : (map.nodes.map (·.id)).Nodup)
    (h : ∀ named, ¬Grouped configurations map named id) :
    place (normalizeTopologyAlternatives configurations map) id=place map id := by
  have hsame : (normalizeTopologyAlternatives configurations map).nodeById id =
      map.nodeById id := by
    cases hfind : map.nodeById id with
    | none =>
      cases hsaved : (normalizeTopologyAlternatives configurations map).nodeById id with
      | none => rfl
      | some node =>
        obtain ⟨hmem,hid⟩ := nodeById_eq_some hsaved
        have hids : id∈map.nodes.map (·.id) := by
          rw [← map_id_normalizeTopologyAlternatives configurations map]
          exact mem_map.mpr ⟨node,hmem,hid⟩
        obtain ⟨drawn,hdrawn,rfl⟩ := mem_map.mp hids
        rw [nodeById_of_nodup hdistinct hdrawn] at hfind
        cases hfind
    | some node =>
      obtain ⟨hmem,rfl⟩ := nodeById_eq_some hfind
      obtain ⟨index,hindex⟩ := mem_iff_getElem?.mp hmem
      rw [nodeById_normalizeTopologyAlternatives hdistinct hindex]
      have hsound := topologyGroups_sound configurations map
      cases hgroup : groupAt (topologyGroups configurations map) index with
      | none => simp only [assignGroup,hgroup]
      | some named =>
        obtain ⟨hnamed,c,hc,rfl⟩ := (groupAt_eq_some hsound).mp hgroup
        have hnode := (hsound.candidate named hnamed c hc).at_index
        rw [hindex,Option.some.injEq] at hnode
        exact absurd ⟨hnamed,c,hc,by rw [hnode]⟩ (h named)
  simp only [place,hsame]

/-- The place of a drawn node is its own name or that of a group the map declares. -/
theorem place_cases (map : ProductionMapDefinition) (id : String) :
    place map id = "node:" ++ id ∨ ∃ node∈map.nodes, trim node.alternativeGroupId ≠ "" ∧
        place map id = "group:" ++ trim node.alternativeGroupId := by
  unfold place
  split
  · exact .inl rfl
  · rename_i node hnode
    split
    · rename_i hgroup
      exact .inr ⟨node,(nodeById_eq_some hnode).1,hgroup.2,rfl⟩
    · exact .inl rfl

theorem node_ne_group (a b : String) : "node:" ++ a ≠ "group:" ++ b := by simp [← String.toList_inj]

open Classical in
/-- The leader stands for the members of a derived group; every other node for itself. -/
noncomputable def representative (configurations : Configurations)
    (map : ProductionMapDefinition) (id : String) : String :=
  if h : ∃ named, Grouped configurations map named id then leaderId h.choose.members else id

theorem Grouped.representative_eq (hdistinct : (map.nodes.map (·.id)).Nodup)
    (h : Grouped configurations map named id) :
    representative configurations map id=leaderId named.members := by
  have hexists : ∃ named, Grouped configurations map named id := ⟨named,h⟩
  rw [representative,dif_pos hexists,hexists.choose_spec.unique hdistinct h]

theorem representative_of_not_grouped
    (h : ∀ named, ¬Grouped configurations map named id) : representative configurations map id=id :=
  dif_neg fun ⟨named,hnamed⟩ => h named hnamed

theorem drawn_representative (hdistinct : (map.nodes.map (·.id)).Nodup) {a b : String}
    (h : Drawn map a b) :
    Drawn map (representative configurations map a) (representative configurations map b) := by
  have hsource : ∀ a b, Drawn map a b → Drawn map (representative configurations map a) b := by
    intro a b h
    by_cases hgrouped : ∃ named, Grouped configurations map named a
    · obtain ⟨named,hnamed⟩ := hgrouped
      rw [hnamed.representative_eq hdistinct]
      exact hnamed.same_edges.1 b h
    · rw [representative_of_not_grouped (not_exists.mp hgrouped)]
      exact h
  by_cases hgrouped : ∃ named, Grouped configurations map named b
  · obtain ⟨named,hnamed⟩ := hgrouped
    rw [hnamed.representative_eq hdistinct]
    exact hnamed.same_edges.2 _ (hsource a b h)
  · rw [representative_of_not_grouped (not_exists.mp hgrouped)]
    exact hsource a b h

section
variable (htrimmed : TrimmedIds map) (hdistinct : (map.nodes.map (·.id)).Nodup)
  (hgroups : ∀ node∈map.nodes, trim node.alternativeGroupId=node.alternativeGroupId)
include htrimmed hdistinct hgroups

/-- No declared place is that of a derived group, and its leader is no other node. -/
theorem Grouped.apart {a b : String} (ha : Grouped configurations map named a)
    (hb : ∀ named, ¬Grouped configurations map named b) :
    place (normalizeTopologyAlternatives configurations map) a ≠
        place (normalizeTopologyAlternatives configurations map) b ∧
      place map (representative configurations map a) ≠
        place map (representative configurations map b) := by
  have hleader := grouped_leader ha.1
  rw [ha.place_eq htrimmed hdistinct,place_of_not_grouped hdistinct hb,
    ha.representative_eq hdistinct,hleader.place_drawn hdistinct,representative_of_not_grouped hb]
  rcases place_cases map b with hnode | ⟨node,hmem,hne,hgroup⟩
  · rw [hnode]
    refine ⟨fun h => node_ne_group _ _ h.symm,fun h => ?_⟩
    exact hb named ((String.append_right_inj _).mp h ▸ hleader)
  · rw [hgroup,hgroups node hmem]
    rw [hgroups node hmem] at hne
    refine ⟨fun h => ?_,node_ne_group _ _⟩
    exact (topologyGroups_sound configurations map).fresh named ha.1 node hmem hne
      ((String.append_right_inj _).mp h)

/-- Saved places are equal exactly when the drawn places of their representatives are. -/
theorem place_eq_iff_representative
    (a b : String) : place (normalizeTopologyAlternatives configurations map) a =
        place (normalizeTopologyAlternatives configurations map) b ↔
      place map (representative configurations map a) =
        place map (representative configurations map b) := by
  by_cases ha : ∃ named, Grouped configurations map named a
  · obtain ⟨first,hfirst⟩ := ha
    by_cases hb : ∃ named, Grouped configurations map named b
    · obtain ⟨second,hsecond⟩ := hb
      rw [hfirst.place_eq htrimmed hdistinct,hsecond.place_eq htrimmed hdistinct,
        hfirst.representative_eq hdistinct,hsecond.representative_eq hdistinct,
        (grouped_leader hfirst.1).place_drawn hdistinct,
        (grouped_leader hsecond.1).place_drawn hdistinct,String.append_right_inj,
        String.append_right_inj]
      constructor
      · intro hname
        have hsame : first=second :=
          inj_on_of_nodup_map (topologyGroups_sound configurations map).distinct
            hfirst.1 hsecond.1 hname
        rw [hsame]
      · intro hleader
        have hsame := (grouped_leader hfirst.1).unique hdistinct
          (hleader.symm ▸ grouped_leader hsecond.1)
        rw [hsame]
    · have hapart := hfirst.apart htrimmed hdistinct hgroups (not_exists.mp hb)
      exact iff_of_false hapart.1 hapart.2
  · by_cases hb : ∃ named, Grouped configurations map named b
    · obtain ⟨second,hsecond⟩ := hb
      have hapart := hsecond.apart htrimmed hdistinct hgroups (not_exists.mp ha)
      exact iff_of_false hapart.1.symm hapart.2.symm
    · rw [place_of_not_grouped hdistinct (not_exists.mp ha),
        place_of_not_grouped hdistinct (not_exists.mp hb),
        representative_of_not_grouped (not_exists.mp ha),
        representative_of_not_grouped (not_exists.mp hb)]

/-- Derived groups close no cycle of places. -/
theorem acyclic_normalizeTopologyAlternatives (h : Acyclic (PlaceBefore map)) :
    Acyclic (PlaceBefore (normalizeTopologyAlternatives configurations map)) :=
  acyclic_of_representatives (place_eq_iff_representative htrimmed hdistinct hgroups)
    (fun _ _ => drawn_representative hdistinct) h

end

end Representatives

section
variable (configurations : Configurations) (map : ProductionMapDefinition)

/-- A map as it is saved: normalised, and with the groups that its drawing implies. -/
def savedMap : ProductionMapDefinition :=
  normalizeTopologyAlternatives configurations (normalizeMap map)

theorem trimmedIds_savedMap : TrimmedIds (savedMap configurations map) := by
  have htrimmed := trimmedIds_normalizeMap map
  refine ⟨fun node hnode => ?_,htrimmed.edges⟩
  have hid : node.id∈(normalizeMap map).nodes.map (·.id) := by
    rw [← map_id_normalizeTopologyAlternatives configurations]
    exact mem_map_of_mem hnode
  obtain ⟨drawn,hdrawn,heq⟩ := mem_map.mp hid
  rw [← heq]
  exact htrimmed.nodes drawn hdrawn

end

variable {map : ProductionMapDefinition}

theorem trim_group_normalizeMap {node : ProductionMapNode}
    (h : node∈(normalizeMap map).nodes) : trim node.alternativeGroupId=node.alternativeGroupId := by
  obtain ⟨drawn,_,rfl⟩ := mem_map.mp h
  exact trim_trim drawn.alternativeGroupId

theorem drawn_savedMap {configurations : Configurations}
    {a b : String} : Drawn (savedMap configurations map) a b ↔ Drawn (normalizeMap map) a b := by
  have hedges : (savedMap configurations map).edges=(normalizeMap map).edges := rfl
  rw [Drawn,Drawn,hedges]

section
variable (h : ∀ node∈map.nodes, isBlank node.alternativeGroupId=true)
include h

theorem place_of_ungrouped (id : String) : place (normalizeMap map) id = "node:" ++ id := by
  rcases place_cases (normalizeMap map) id with hnode | ⟨node,hmem,hne,_⟩
  · exact hnode
  · obtain ⟨drawn,hdrawn,rfl⟩ := mem_map.mp hmem
    have hblank := (isBlank_iff _).mp (h drawn hdrawn)
    exact absurd (by rw [trim_group_normalizeMap hmem]; exact hblank) hne

theorem acyclic_of_ungrouped
    (hacyclic : Acyclic (Drawn (normalizeMap map))) : Acyclic (PlaceBefore (normalizeMap map)) := by
  refine acyclic_of_injective (fun a b hab => ?_) hacyclic
  rw [place_of_ungrouped h,place_of_ungrouped h] at hab
  exact (String.append_right_inj _).mp hab

end

/-- An accepted map that declares no groups, or whose declared groups close no cycle when the
members of each are merged, can be finished: no operation is before itself, and operations that
are all locally done are all reported completed. -/
theorem accepted_map_finishes (rules : CompilerRules) (configurations : Configurations)
    (map : ProductionMapDefinition)
    (haccepted : (compileMap rules (savedMap configurations map)).isOk=true)
    (hdeclared : (∀ node∈map.nodes, isBlank node.alternativeGroupId=true) ∨
      Acyclic (PlaceBefore (normalizeMap map)))
    (sessions : List OrderRunSession) (inputs : List StageWorkInput) (states : ApparatusStates)
    (events : List ProductionStageLifecycleEvent) : Acyclic (Predecessor
      (stageOperations (savedMap configurations map) sessions inputs states events)) ∧
    ((∀ entry∈stageOperations (savedMap configurations map) sessions inputs states events,
        entry.2.LocallyDone) →
      ∀ status∈stageWorkStatuses (savedMap configurations map) sessions inputs states events,
        status.completed=true) := by
  have haccepted : Accepted (savedMap configurations map) := by
    cases hcompile : compileMap rules (savedMap configurations map) with
    | ok program => exact accepted_of_compileMap hcompile
    | error e =>
      rw [hcompile] at haccepted
      cases haccepted
  have hdistinct : ((normalizeMap map).nodes.map (·.id)).Nodup := by
    rw [← map_id_normalizeTopologyAlternatives configurations]
    exact haccepted.distinct
  have hplaces : Acyclic (PlaceBefore (normalizeMap map)) := by
    rcases hdeclared with hungrouped | hacyclic
    · refine acyclic_of_ungrouped hungrouped fun id hcycle => haccepted.acyclic id ?_
      exact TransGen.mono (fun _ _ => drawn_savedMap.mpr) _ _ hcycle
    · exact hacyclic
  have hsaved : Acyclic (PlaceBefore (savedMap configurations map)) :=
    acyclic_normalizeTopologyAlternatives (trimmedIds_normalizeMap map) hdistinct
      (fun _ => trim_group_normalizeMap) hplaces
  have hpredecessor := acyclic_predecessor (trimmedIds_savedMap configurations map)
    haccepted.distinct hsaved sessions inputs states events
  exact ⟨hpredecessor,all_completed_of_acyclic sessions inputs states events hpredecessor⟩

section Samples

def plainRules : CompilerRules := ⟨Char.isAlphanum,fun _ => .ok (),fun _ => .ok (),fun _ => ""⟩

def machine (id apparatusId group : String) : ProductionMapNode :=
  { id, kind := .apparatus, title := id, apparatusId, alternativeGroupId := group }

/-- Two presses of one declared group, each drawn before the laminator. -/
def sharedPresses : ProductionMapDefinition :=
  { id := "zakaz-1"
    productCode := "film"
    title := "Film"
    nodes :=
      [{ id := "start", kind := .start, title := "" },
        machine "print-1" "apparatus:press:1" "presses",
        machine "print-2" "apparatus:press:2" "presses",
        machine "laminate-1" "apparatus:laminator:1" "",
        { id := "end", kind := .endNode, title := "" }]
    edges :=
      [⟨"start","print-1",""⟩,⟨"print-1","laminate-1",""⟩,
        ⟨"start","print-2",""⟩,⟨"print-2","laminate-1",""⟩,⟨"laminate-1","end",""⟩] }

def finishedSession (apparatus stageNodeId : String) : OrderRunSession where
  sessionId := "session-" ++ stageNodeId
  apparatus
  orderId := "zakaz-1"
  stageNodeId
  status := .completed
  workerRole := "worker"
  workerRef := "worker-1"
  workerDisplayName := "Worker"
  startedAtUnix := 1
  updatedAtUnix := 2
  payloadJson := .object []

def bothFinished : List OrderRunSession :=
  [finishedSession "apparatus:press:1" "print-1",finishedSession "apparatus:laminator:1" "laminate-1"]

theorem all_locallyDone_of_all {operations : List (String × Operation)}
    (h : (operations.all fun entry => entry.2.localDone)=true) :
    ∀ entry∈operations, entry.2.LocallyDone :=
  fun entry hentry => entry.2.localDone_iff.mp (all_eq_true.mp h entry hentry)

/-- The places of the shared presses in the order of the route. -/
def sharedRank (place : String) : Nat :=
  ["node:start","group:presses","node:laminate-1","node:end"].idxOf place

theorem acyclic_sharedPresses : Acyclic (PlaceBefore (normalizeMap sharedPresses)) := by
  refine acyclic_of_rank sharedRank ?_
  have hedges : ∀ edge∈(normalizeMap sharedPresses).edges,
      sharedRank (place (normalizeMap sharedPresses) edge.fromId) <
        sharedRank (place (normalizeMap sharedPresses) edge.toId) := by
    decide +kernel
  rintro a b ⟨edge,hedge,rfl,rfl⟩ _
  exact hedges edge hedge

theorem accepted_map_finishes_shared_presses :
    (compileMap plainRules (savedMap ∅ sharedPresses)).isOk=true ∧
    Acyclic (Predecessor (stageOperations (savedMap ∅ sharedPresses) bothFinished [] ∅ [])) ∧
    (stageOperations (savedMap ∅ sharedPresses) bothFinished [] ∅ []).length=2 ∧
    ∀ status∈stageWorkStatuses (savedMap ∅ sharedPresses) bothFinished [] ∅ [],
      status.completed=true := by
  have ⟨haccepted,hdone,hlength⟩ : (compileMap plainRules (savedMap ∅ sharedPresses)).isOk=true ∧
      ((stageOperations (savedMap ∅ sharedPresses) bothFinished [] ∅ []).all
        fun entry => entry.2.localDone)=true ∧
      (stageOperations (savedMap ∅ sharedPresses) bothFinished [] ∅ []).length=2 := by
    decide +kernel
  have hfinishes := accepted_map_finishes plainRules ∅ sharedPresses haccepted
    (.inr acyclic_sharedPresses) bothFinished [] ∅ []
  exact ⟨haccepted,hfinishes.1,hlength,hfinishes.2 (all_locallyDone_of_all hdone)⟩

/-- One route prints before it laminates, the other laminates before it prints, and the machines
of both steps are alternatives. -/
def crossedGroups : ProductionMapDefinition :=
  { sharedPresses with
    nodes :=
      [{ id := "start", kind := .start, title := "" },
        machine "print-1" "apparatus:press:1" "presses",
        machine "print-2" "apparatus:press:2" "presses",
        machine "laminate-1" "apparatus:laminator:1" "laminators",
        machine "laminate-2" "apparatus:laminator:2" "laminators",
        { id := "end", kind := .endNode, title := "" }]
    edges :=
      [⟨"start","print-1",""⟩,⟨"print-1","laminate-1",""⟩,
        ⟨"laminate-1","end",""⟩,⟨"start","laminate-2",""⟩,
        ⟨"laminate-2","print-2",""⟩,⟨"print-2","end",""⟩] }

/-- The compiler accepts the crossed groups, each is before the other, and although both are
locally done neither is completed. -/
theorem crossed_groups_never_complete :
    (compileMap plainRules (savedMap ∅ crossedGroups)).isOk=true ∧
    TransGen (Predecessor (stageOperations (savedMap ∅ crossedGroups) bothFinished [] ∅ []))
      "group:presses" "group:presses" ∧
    (∀ entry∈stageOperations (savedMap ∅ crossedGroups) bothFinished [] ∅ [], entry.2.LocallyDone) ∧
    (stageWorkStatuses (savedMap ∅ crossedGroups) bothFinished [] ∅ []).map (·.completed) =
      [false,false] := by
  have ⟨haccepted,hprint,hlaminate,hdone,hopen⟩ :
      (compileMap plainRules (savedMap ∅ crossedGroups)).isOk=true ∧
      "group:laminators" ∈ predecessorsOf
        (stageOperations (savedMap ∅ crossedGroups) bothFinished [] ∅ []) "group:presses" ∧
      "group:presses" ∈ predecessorsOf
        (stageOperations (savedMap ∅ crossedGroups) bothFinished [] ∅ []) "group:laminators" ∧
      ((stageOperations (savedMap ∅ crossedGroups) bothFinished [] ∅ []).all
        fun entry => entry.2.localDone)=true ∧
      (stageWorkStatuses (savedMap ∅ crossedGroups) bothFinished [] ∅ []).map (·.completed) =
        [false,false] := by
    decide +kernel
  have hsound := operations_sound (savedMap ∅ crossedGroups) bothFinished [] ∅ []
  exact ⟨haccepted,
    .tail (.single ((mem_predecessorsOf hsound).mp hprint)) ((mem_predecessorsOf hsound).mp hlaminate),
    all_locallyDone_of_all hdone,hopen⟩

end Samples

end MiniErp.Stage
