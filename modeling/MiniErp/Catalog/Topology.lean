import Mathlib.Data.List.Find
import MiniErp.Catalog.Alternatives
import MiniErp.Compiler.Compile
import MiniErp.Lib.Merge

/-! What the alternatives of a drawn map are worth: the members of a group can stand for each
other, a second normalisation finds nothing, and the order in which the map is written does not
matter as long as its identities are distinct. -/
namespace MiniErp.Catalog
open Text Merge Compiler List

section Greedy
variable {leader : AlternativeCandidate} {used : List Nat} {apparatuses : List String}
  {rest candidates members : List AlternativeCandidate}

theorem interchangeable_symm {c d : AlternativeCandidate} (h : interchangeable c d=true) :
    interchangeable d c=true := by
  simp only [interchangeable,sameEdges,sameWorkParameters,Bool.and_eq_true,beq_iff_eq] at h ⊢
  simp only [h,and_self]

theorem peersOf_machines :
    ((peersOf leader used apparatuses rest).map (·.runtime.apparatusId)).Nodup ∧
      ∀ peer∈peersOf leader used apparatuses rest, peer.runtime.apparatusId∉apparatuses := by
  induction rest generalizing apparatuses with
  | nil => exact ⟨nodup_nil,fun peer hpeer => absurd hpeer not_mem_nil⟩
  | cons first rest ih =>
    rw [peersOf]
    split
    · rename_i hfirst
      simp only [Bool.and_eq_true,Bool.not_eq_true',contains_eq_mem,
        decide_eq_false_iff_not] at hfirst
      have hrest := @ih (first.runtime.apparatusId::apparatuses)
      constructor
      · rw [map_cons,nodup_cons]
        refine ⟨fun hmem => ?_,hrest.1⟩
        obtain ⟨peer,hpeer,heq⟩ := mem_map.mp hmem
        exact hrest.2 peer hpeer (heq ▸ mem_cons_self)
      · intro peer hpeer
        cases hpeer with
        | head => exact hfirst.2
        | tail _ hpeer => exact fun hmem => hrest.2 peer hpeer (mem_cons_of_mem _ hmem)
    · exact ih

/-- A leader without peers has no other machine behind it. -/
theorem machine_of_peersOf_eq_nil (h : peersOf leader used apparatuses rest=[])
    {peer : AlternativeCandidate} (hpeer : peer∈rest) (hfree : peer.index∉used)
    (hsame : interchangeable leader peer=true) : peer.runtime.apparatusId∈apparatuses := by
  induction rest with
  | nil => cases hpeer
  | cons first rest ih =>
    rw [peersOf] at h
    split at h
    · cases h
    · rename_i hfirst
      cases hpeer with
      | head => simpa [hfree,hsame] using hfirst
      | tail _ hpeer => exact ih h hpeer

theorem groupCandidates_machines (h : members∈groupCandidates used candidates) :
    (members.map (·.runtime.apparatusId)).Nodup := by
  induction candidates generalizing used with
  | nil => cases h
  | cons leader rest ih =>
    simp only [groupCandidates] at h
    split at h
    · exact ih h
    · split at h
      · cases h with
        | head =>
          have hpeers := @peersOf_machines leader used [leader.runtime.apparatusId] rest
          rw [map_cons,nodup_cons]
          refine ⟨fun hmem => ?_,hpeers.1⟩
          obtain ⟨peer,hpeer,heq⟩ := mem_map.mp hmem
          exact hpeers.2 peer hpeer (mem_singleton.mpr heq)
        | tail _ h => exact ih h
      · exact ih h

def Free (used : List Nat) (groups : List (List AlternativeCandidate))
    (c : AlternativeCandidate) : Prop :=
  c.index∉used ∧ ∀ members∈groups, c.index∉members.map (·.index)

/-- Candidates that are left over and can stand for each other are one machine. -/
theorem machine_of_free {c d : AlternativeCandidate} (hc : c∈candidates) (hd : d∈candidates)
    (hcfree : Free used (groupCandidates used candidates) c)
    (hdfree : Free used (groupCandidates used candidates) d) (h : interchangeable c d=true) :
    c.runtime.apparatusId=d.runtime.apparatusId := by
  induction candidates generalizing used with
  | nil => cases hc
  | cons leader rest ih =>
    simp only [groupCandidates] at hcfree hdfree
    split at hcfree
    · rename_i hleader
      rw [if_pos hleader] at hdfree
      rw [contains_iff_mem] at hleader
      cases hc with
      | head => exact absurd hleader hcfree.1
      | tail _ hc =>
        cases hd with
        | head => exact absurd hleader hdfree.1
        | tail _ hd => exact ih hc hd hcfree hdfree
    · rename_i hleader
      rw [if_neg hleader] at hdfree
      split at hcfree
      · rename_i hmembers
        rw [if_pos hmembers] at hdfree
        have hnext : ∀ {x : AlternativeCandidate}, x∈leader::rest →
            Free used ((leader::peersOf leader used [leader.runtime.apparatusId] rest) ::
              groupCandidates (used++(leader::peersOf leader used
                [leader.runtime.apparatusId] rest).map (·.index)) rest) x →
            x∈rest ∧ Free (used++(leader::peersOf leader used
                [leader.runtime.apparatusId] rest).map (·.index))
              (groupCandidates (used++(leader::peersOf leader used
                [leader.runtime.apparatusId] rest).map (·.index)) rest) x := by
          intro x hx hfree
          have hgroup := hfree.2 _ mem_cons_self
          refine ⟨?_,?_,fun members hmem => hfree.2 members (mem_cons_of_mem _ hmem)⟩
          · cases hx with
            | head => exact absurd (mem_map_of_mem mem_cons_self) hgroup
            | tail _ hx => exact hx
          · rw [mem_append,not_or]
            exact ⟨hfree.1,hgroup⟩
        obtain ⟨hc,hcfree⟩ := hnext hc hcfree
        obtain ⟨hd,hdfree⟩ := hnext hd hdfree
        exact ih hc hd hcfree hdfree
      · rename_i hmembers
        rw [if_neg hmembers] at hdfree
        have halone : peersOf leader used [leader.runtime.apparatusId] rest=[] := by
          simpa using hmembers
        cases hc with
        | head =>
          cases hd with
          | head => rfl
          | tail _ hd =>
            exact (mem_singleton.mp (machine_of_peersOf_eq_nil halone hd hdfree.1 h)).symm
        | tail _ hc =>
          cases hd with
          | head =>
            exact mem_singleton.mp
              (machine_of_peersOf_eq_nil halone hc hcfree.1 (interchangeable_symm h))
          | tail _ hd => exact ih hc hd hcfree hdfree

theorem peersOf_eq_nil (h : ∀ peer∈rest, interchangeable leader peer=true →
    peer.runtime.apparatusId∈apparatuses) : peersOf leader used apparatuses rest=[] := by
  rw [eq_nil_iff_forall_not_mem]
  intro peer hpeer
  obtain ⟨hmem,-,hsame⟩ := mem_peersOf hpeer
  exact peersOf_machines.2 peer hpeer (h peer hmem hsame)

theorem groupCandidates_eq_nil (h : ∀ c∈candidates, ∀ d∈candidates, interchangeable c d=true →
      d.runtime.apparatusId=c.runtime.apparatusId) : groupCandidates used candidates=[] := by
  induction candidates with
  | nil => rfl
  | cons leader rest ih =>
    have hrest := ih fun c hc d hd => h c (mem_cons_of_mem _ hc) d (mem_cons_of_mem _ hd)
    have halone : peersOf leader used [leader.runtime.apparatusId] rest=[] :=
      peersOf_eq_nil fun peer hpeer hsame => mem_singleton.mpr
        (h leader mem_cons_self peer (mem_cons_of_mem _ hpeer) hsame)
    simp only [groupCandidates,halone,hrest,length_singleton,Nat.lt_irrefl,if_false,ite_self]

end Greedy

section Result
variable {configurations : Configurations} {map : ProductionMapDefinition} {group : String}
  {index : Nat} {node : ProductionMapNode} {c : AlternativeCandidate} {named : NamedGroup}

def candidatesOf (configurations : Configurations) (map : ProductionMapDefinition) :
    List AlternativeCandidate :=
  map.nodes.zipIdx.filterMap (alternativeCandidate configurations map)

theorem alternativeCandidate_eq_some
    (h : alternativeCandidate configurations map (node, index)=some c) :
    c.index=index ∧ c.node=node ∧ configurations[trim node.apparatusId]?=some c.runtime := by
  simp only [alternativeCandidate] at h
  split at h
  · split at h
    · cases h
    · rename_i runtime hruntime
      split at h
      · cases h
        exact ⟨rfl,rfl,hruntime⟩
      · cases h
  · cases h

theorem runtime_of_mem (h : c∈candidatesOf configurations map) :
    configurations[trim c.node.apparatusId]?=some c.runtime := by
  obtain ⟨⟨node,index⟩,-,hc⟩ := mem_filterMap.mp h
  obtain ⟨-,hnode,hruntime⟩ := alternativeCandidate_eq_some hc
  rw [hnode,hruntime]

theorem mem_candidatesOf (hnamed : named∈topologyGroups configurations map)
    (hc : c∈named.members) : c∈candidatesOf configurations map :=
  (perm_insertionSort _ _).mem_iff.mp ((mem_groupCandidates (mem_nameGroups hnamed).1).2 c hc).1

theorem group_ne_empty (h : named∈topologyGroups configurations map) : named.group ≠ "" := by
  obtain ⟨k,hname⟩ := (topologyGroups_sound configurations map).name named h
  have hbase : "topology_alt:" ++ leaderId named.members ≠ "" := append_ne_empty (by decide) _
  rw [hname,groupName]
  split
  · exact hbase
  · exact append_ne_empty (append_ne_empty hbase _) _

theorem getElem?_normalizeTopologyAlternatives :
    (normalizeTopologyAlternatives configurations map).nodes[index]? =
      map.nodes[index]?.map fun node =>
        assignGroup (topologyGroups configurations map) (node, index) := by
  simp only [normalizeTopologyAlternatives,getElem?_map,getElem?_zipIdx,Option.map_map,
    Nat.zero_add]
  rfl

def PutIn (configurations : Configurations) (map : ProductionMapDefinition) (group : String)
    (index : Nat) (node : ProductionMapNode) : Prop :=
  map.nodes[index]?=some node ∧ node.alternativeGroupId≠group ∧
    (normalizeTopologyAlternatives configurations map).nodes[index]? =
      some { node with alternativeGroupId := group }

theorem putIn_iff : PutIn configurations map group index node ↔
    ∃ named∈topologyGroups configurations map, named.group=group ∧
      ∃ c∈named.members, c.index=index ∧ c.node=node := by
  have hsound := topologyGroups_sound configurations map
  rw [PutIn,getElem?_normalizeTopologyAlternatives]
  constructor
  · intro h
    obtain ⟨hnode,hother,hresult⟩ := h
    rw [hnode,Option.map_some,Option.some.injEq,assignGroup] at hresult
    cases hgroup : groupAt (topologyGroups configurations map) index with
    | none =>
      simp only [hgroup] at hresult
      exact absurd (congrArg ProductionMapNode.alternativeGroupId hresult) hother
    | some named =>
      simp only [hgroup] at hresult
      obtain ⟨hnamed,hmember⟩ := hsound.member_of_groupAt hgroup hnode
      exact ⟨named,hnamed,congrArg ProductionMapNode.alternativeGroupId hresult,hmember⟩
  · intro h
    obtain ⟨named,hnamed,rfl,c,hc,rfl,rfl⟩ := h
    have hcandidate := hsound.candidate named hnamed c hc
    have hgroup := (groupAt_eq_some hsound).mpr ⟨hnamed,c,hc,rfl⟩
    refine ⟨hcandidate.at_index,hcandidate.ungrouped ▸ (group_ne_empty hnamed).symm,?_⟩
    rw [hcandidate.at_index,Option.map_some,assignGroup,hgroup]

theorem exists_nameGroups {groups : List (List AlternativeCandidate)}
    {members : List AlternativeCandidate} (h : members∈groups) (occupied : List String) :
    ∃ named∈nameGroups occupied groups, named.members=members := by
  induction groups generalizing occupied with
  | nil => cases h
  | cons first rest ih =>
    cases h with
    | head => exact ⟨_,mem_cons_self,rfl⟩
    | tail _ h =>
      obtain ⟨named,hnamed,hmembers⟩ := ih h _
      exact ⟨named,mem_cons_of_mem _ hnamed,hmembers⟩

structure Alike (map : ProductionMapDefinition) (a b : ProductionMapNode)
    (left right : RuntimeApparatus) : Prop where
  incoming : ∀ edge, edge∈incomingEdges map a.id ↔ edge∈incomingEdges map b.id
  outgoing : ∀ edge, edge∈outgoingEdges map a.id ↔ edge∈outgoingEdges map b.id
  equipmentClass : left.equipmentClassId=right.equipmentClassId
  profile : left.executionProfile=right.executionProfile
  capabilities : left.capabilities=right.capabilities
  work : sameWorkParameters a b=true

theorem Alike.symm {a b : ProductionMapNode} {left right : RuntimeApparatus}
    (h : Alike map a b left right) : Alike map b a right left where
  incoming edge := (h.incoming edge).symm
  outgoing edge := (h.outgoing edge).symm
  equipmentClass := h.equipmentClass.symm
  profile := h.profile.symm
  capabilities := h.capabilities.symm
  work := by
    have hwork := h.work
    simp only [sameWorkParameters,Bool.and_eq_true,beq_iff_eq] at hwork ⊢
    simp only [hwork,and_self]

theorem Alike.trans {a b e : ProductionMapNode} {left middle right : RuntimeApparatus}
    (h : Alike map a b left middle) (h' : Alike map b e middle right) :
    Alike map a e left right where
  incoming edge := (h.incoming edge).trans (h'.incoming edge)
  outgoing edge := (h.outgoing edge).trans (h'.outgoing edge)
  equipmentClass := h.equipmentClass.trans h'.equipmentClass
  profile := h.profile.trans h'.profile
  capabilities := h.capabilities.trans h'.capabilities
  work := by
    have hwork := h.work
    have hwork' := h'.work
    simp only [sameWorkParameters,Bool.and_eq_true,beq_iff_eq] at hwork hwork' ⊢
    simp only [hwork,hwork',and_self]

theorem sameEdges_iff {left right : List (String × String)} :
    sameEdges left right=true ↔ ∀ edge, edge∈left ↔ edge∈right := by
  simp only [sameEdges,Bool.and_eq_true,all_eq_true,contains_iff_mem]
  exact ⟨fun h edge => ⟨h.1 edge,h.2 edge⟩,fun h => ⟨fun edge => (h edge).1,fun edge => (h edge).2⟩⟩

theorem interchangeable_iff {d : AlternativeCandidate} (hc : CandidateOf map c)
    (hd : CandidateOf map d) :
    interchangeable c d=true ↔ Alike map c.node d.node c.runtime d.runtime := by
  simp only [interchangeable,Bool.and_eq_true,beq_iff_eq,sameEdges_iff,hc.incoming,
    hc.outgoing,hd.incoming,hd.outgoing]
  constructor
  · intro h
    obtain ⟨⟨⟨⟨⟨hin,hout⟩,hclass⟩,hprofile⟩,hcapabilities⟩,hwork⟩ := h
    exact ⟨hin,hout,hclass,hprofile,hcapabilities,hwork⟩
  · intro h
    exact ⟨⟨⟨⟨⟨h.incoming,h.outgoing⟩,h.equipmentClass⟩,h.profile⟩,h.capabilities⟩,h.work⟩

theorem alike_of_mem {d : AlternativeCandidate} (hnamed : named∈topologyGroups configurations map)
    (hc : c∈named.members) (hd : d∈named.members) (hne : c.index≠d.index) :
    Alike map c.node d.node c.runtime d.runtime ∧ c.runtime.apparatusId≠d.runtime.apparatusId := by
  have hsound := topologyGroups_sound configurations map
  obtain ⟨leader,rest,hmembers,hpeers⟩ := hsound.led named hnamed
  have hleaderMem : leader∈named.members := hmembers ▸ mem_cons_self
  have hleader : ∀ x∈named.members, x=leader ∨
      Alike map leader.node x.node leader.runtime x.runtime := by
    intro x hx
    have hcandidate := hsound.candidate named hnamed x hx
    rw [hmembers] at hx
    cases hx with
    | head => exact .inl rfl
    | tail _ hx =>
      exact .inr ((interchangeable_iff (hsound.candidate named hnamed leader hleaderMem)
        hcandidate).mp (hpeers x hx))
  constructor
  · cases hleader c hc with
    | inl hcleader =>
      cases hleader d hd with
      | inl hdleader => exact absurd (by rw [hcleader,hdleader]) hne
      | inr hdalike => exact hcleader ▸ hdalike
    | inr hcalike =>
      cases hleader d hd with
      | inl hdleader => exact hdleader ▸ hcalike.symm
      | inr hdalike => exact hcalike.symm.trans hdalike
  · intro heq
    have hnodup := groupCandidates_machines (mem_nameGroups hnamed).1
    exact hne (congrArg AlternativeCandidate.index (inj_on_of_nodup_map hnodup hc hd heq))

/-- Nothing is grouped that is grouped already. -/
theorem topologyGroups_normalizeTopologyAlternatives :
    topologyGroups configurations (normalizeTopologyAlternatives configurations map)=[] := by
  have hsound := topologyGroups_sound configurations map
  -- a candidate of the result is one of the map, and no group has it
  have hleft : ∀ c∈candidatesOf configurations (normalizeTopologyAlternatives configurations map),
      c∈candidatesOf configurations map ∧
        groupAt (topologyGroups configurations map) c.index=none := by
    intro c hc
    obtain ⟨⟨node,index⟩,-,hcandidate⟩ := mem_filterMap.mp hc
    have hat := (candidateOf_of_mem hc).at_index
    have hungrouped := (candidateOf_of_mem hc).ungrouped
    obtain ⟨hindex,hnode,-⟩ := alternativeCandidate_eq_some hcandidate
    rw [getElem?_normalizeTopologyAlternatives] at hat
    obtain ⟨drawn,hdrawn,hassigned⟩ := Option.map_eq_some_iff.mp hat
    cases hgroup : groupAt (topologyGroups configurations map) c.index with
    | some named =>
      simp only [assignGroup,hgroup] at hassigned
      rw [← hassigned] at hungrouped
      exact absurd hungrouped (group_ne_empty ((groupAt_eq_some hsound).mp hgroup).1)
    | none =>
      simp only [assignGroup,hgroup] at hassigned
      refine ⟨mem_filterMap.mpr ⟨(c.node, c.index),?_,?_⟩,rfl⟩
      · exact mk_mem_zipIdx_iff_getElem?.mpr (hassigned ▸ hdrawn)
      · rw [hindex,hnode]
        exact hcandidate
  have hfree : ∀ c, groupAt (topologyGroups configurations map) c.index=none →
      Free [] (groupCandidates [] ((candidatesOf configurations map).insertionSort
        fun a b => a.node.id≤b.node.id)) c := by
    intro c hnone
    refine ⟨not_mem_nil,fun members hmembers hmem => ?_⟩
    obtain ⟨d,hd,hindex⟩ := mem_map.mp hmem
    obtain ⟨named,hnamed,hsame⟩ := exists_nameGroups hmembers
      ((map.nodes.map (·.alternativeGroupId)).filter (· != ""))
    have hgroup := (groupAt_eq_some hsound).mpr ⟨hnamed,d,hsame ▸ hd,hindex⟩
    rw [hnone] at hgroup
    cases hgroup
  have hnone : groupCandidates [] ((candidatesOf configurations
      (normalizeTopologyAlternatives configurations map)).insertionSort
        fun a b => a.node.id≤b.node.id)=[] := by
    refine groupCandidates_eq_nil fun c hc d hd hsame => ?_
    obtain ⟨hc,hcnone⟩ := hleft c ((perm_insertionSort _ _).mem_iff.mp hc)
    obtain ⟨hd,hdnone⟩ := hleft d ((perm_insertionSort _ _).mem_iff.mp hd)
    exact (machine_of_free ((perm_insertionSort _ _).mem_iff.mpr hc)
      ((perm_insertionSort _ _).mem_iff.mpr hd) (hfree c hcnone) (hfree d hdnone) hsame).symm
  change nameGroups _ (groupCandidates [] ((candidatesOf configurations
    (normalizeTopologyAlternatives configurations map)).insertionSort
      fun a b => a.node.id≤b.node.id))=[]
  rw [hnone]
  rfl

end Result

section Order
variable {configurations : Configurations} {map other : ProductionMapDefinition}

/-- The same map, its nodes and edges written in another order. -/
structure Reordered (map other : ProductionMapDefinition) : Prop where
  nodes : map.nodes.Perm other.nodes
  edges : map.edges.Perm other.edges

section
variable (h : Reordered map other) (id : String) (edge : String × String)
include h

theorem mem_incomingEdges_iff : edge∈incomingEdges map id ↔ edge∈incomingEdges other id :=
  ((h.edges.filter _).map _).mem_iff

theorem mem_outgoingEdges_iff : edge∈outgoingEdges map id ↔ edge∈outgoingEdges other id :=
  ((h.edges.filter _).map _).mem_iff

end

/-- The same machine in the two maps, wherever it stands. -/
structure Twin (map other : ProductionMapDefinition) (c d : AlternativeCandidate) : Prop where
  left : CandidateOf map c
  right : CandidateOf other d
  node : c.node=d.node
  runtime : c.runtime=d.runtime

theorem Twin.interchangeable_eq (h : Reordered map other) {c c' d d' : AlternativeCandidate}
    (hc : Twin map other c c') (hd : Twin map other d d') :
    interchangeable c d=interchangeable c' d' := by
  rw [Bool.eq_iff_iff,interchangeable_iff hc.left hd.left,interchangeable_iff hc.right hd.right,
    hc.node,hd.node,hc.runtime,hd.runtime]
  have hin := mem_incomingEdges_iff h
  have hout := mem_outgoingEdges_iff h
  constructor
  · intro halike
    exact { halike with
      incoming := fun edge => by rw [← hin,← hin,halike.incoming]
      outgoing := fun edge => by rw [← hout,← hout,halike.outgoing] }
  · intro halike
    exact { halike with
      incoming := fun edge => by rw [hin,hin,halike.incoming]
      outgoing := fun edge => by rw [hout,hout,halike.outgoing] }

/-- A place of the list and an identity tell the nodes of a map apart equally well. -/
theorem index_eq_iff (hdistinct : (map.nodes.map (·.id)).Nodup) {i j : Nat}
    {a b : ProductionMapNode} (ha : map.nodes[i]?=some a) (hb : map.nodes[j]?=some b) :
    i=j ↔ a.id=b.id := by
  constructor
  · intro h
    rw [h,hb,Option.some.injEq] at ha
    rw [ha]
  · intro h
    obtain ⟨hlt,-⟩ := List.getElem?_eq_some_iff.mp ha
    refine (getElem?_inj (by rwa [length_map]) hdistinct).mp ?_
    rw [getElem?_map,getElem?_map,ha,hb,Option.map_some,Option.map_some,h]

theorem Twin.index_eq_iff (hdistinct : (map.nodes.map (·.id)).Nodup)
    (hother : (other.nodes.map (·.id)).Nodup) {c c' d d' : AlternativeCandidate}
    (hc : Twin map other c c') (hd : Twin map other d d') :
    c.index=d.index ↔ c'.index=d'.index := by
  rw [Catalog.index_eq_iff hdistinct hc.left.at_index hd.left.at_index,
    Catalog.index_eq_iff hother hc.right.at_index hd.right.at_index,hc.node,hd.node]

/-- The two lists of places hold the same candidates. -/
def SameUsed (map other : ProductionMapDefinition) (used used' : List Nat) : Prop :=
  ∀ c c', Twin map other c c' → (c.index∈used ↔ c'.index∈used')

theorem peersOf_twins (h : Reordered map other) {leader leader' : AlternativeCandidate}
    {used used' : List Nat} {rest rest' : List AlternativeCandidate}
    (hleader : Twin map other leader leader') (hused : SameUsed map other used used')
    (hrest : List.Forall₂ (Twin map other) rest rest') (apparatuses : List String) :
    List.Forall₂ (Twin map other) (peersOf leader used apparatuses rest)
      (peersOf leader' used' apparatuses rest') := by
  induction hrest generalizing apparatuses with
  | nil => exact .nil
  | @cons c c' rest rest' hc _ ih =>
    have hcontains : used.contains c.index=used'.contains c'.index := by
      rw [Bool.eq_iff_iff,contains_iff_mem,contains_iff_mem]
      exact hused c c' hc
    rw [peersOf,peersOf,hcontains,hleader.interchangeable_eq h hc,hc.runtime]
    split
    · exact .cons hc (ih _)
    · exact ih _

theorem sameUsed_append (hdistinct : (map.nodes.map (·.id)).Nodup)
    (hother : (other.nodes.map (·.id)).Nodup) {used used' : List Nat}
    (hused : SameUsed map other used used') {members members' : List AlternativeCandidate}
    (hmembers : List.Forall₂ (Twin map other) members members') :
    SameUsed map other (used++members.map (·.index)) (used'++members'.map (·.index)) := by
  intro c c' hc
  rw [mem_append,mem_append,hused c c' hc]
  refine or_congr Iff.rfl ?_
  induction hmembers with
  | nil => rw [map_nil,mem_nil_iff,mem_nil_iff]
  | cons hfirst _ ih =>
    rw [map_cons,map_cons,mem_cons,mem_cons,ih]
    exact or_congr (hc.index_eq_iff hdistinct hother hfirst) Iff.rfl

theorem groupCandidates_twins (h : Reordered map other) (hdistinct : (map.nodes.map (·.id)).Nodup)
    (hother : (other.nodes.map (·.id)).Nodup) {candidates candidates' : List AlternativeCandidate}
    (hcandidates : List.Forall₂ (Twin map other) candidates candidates') {used used' : List Nat}
    (hused : SameUsed map other used used') :
    List.Forall₂ (List.Forall₂ (Twin map other)) (groupCandidates used candidates)
      (groupCandidates used' candidates') := by
  induction hcandidates generalizing used used' with
  | nil => exact .nil
  | @cons c c' rest rest' hc hrest ih =>
    have hcontains : used.contains c.index=used'.contains c'.index := by
      rw [Bool.eq_iff_iff,contains_iff_mem,contains_iff_mem]
      exact hused c c' hc
    have hmembers := List.Forall₂.cons hc (peersOf_twins h hc hused hrest [c'.runtime.apparatusId])
    simp only [groupCandidates]
    rw [hcontains,hc.runtime,hmembers.length_eq]
    split
    · exact ih hused
    · split
      · exact .cons hmembers (ih (sameUsed_append hdistinct hother hused hmembers))
      · exact ih hused

/-- Groups of one name with the same machines. -/
def NamedTwin (map other : ProductionMapDefinition) (a b : NamedGroup) : Prop :=
  a.group=b.group ∧ List.Forall₂ (Twin map other) a.members b.members

theorem freshGroup_perm {occupied occupied' : List String} (h : occupied.Perm occupied')
    (base : String) : freshGroup occupied base=freshGroup occupied' base := by
  have hcontains : (fun name => !occupied.contains name)=fun name => !occupied'.contains name := by
    funext name
    rw [Bool.eq_iff_iff]
    simp [h.mem_iff]
  rw [freshGroup,freshGroup,hcontains,h.length_eq]

theorem nameGroups_twins {groups groups' : List (List AlternativeCandidate)}
    (h : List.Forall₂ (List.Forall₂ (Twin map other)) groups groups')
    {occupied occupied' : List String} (hoccupied : occupied.Perm occupied') :
    List.Forall₂ (NamedTwin map other) (nameGroups occupied groups)
      (nameGroups occupied' groups') := by
  induction h generalizing occupied occupied' with
  | nil => exact .nil
  | @cons members members' _ _ hmembers _ ih =>
    have hleader : leaderId members=leaderId members' := by
      cases hmembers with
      | nil => rfl
      | cons hfirst _ => exact congrArg ProductionMapNode.id hfirst.node
    rw [nameGroups,hleader,freshGroup_perm hoccupied]
    exact .cons ⟨rfl,hmembers⟩ (ih (hoccupied.cons _))

/-- What a candidate is apart from its place in the list. -/
def machineOf (configurations : Configurations) (map : ProductionMapDefinition)
    (node : ProductionMapNode) : Option (ProductionMapNode × RuntimeApparatus) :=
  (alternativeCandidate configurations map (node, 0)).map fun c => (c.node, c.runtime)

theorem map_machine_candidatesOf : (candidatesOf configurations map).map
    (fun c => (c.node, c.runtime))=map.nodes.filterMap (machineOf configurations map) := by
  have hplace : ∀ entry : ProductionMapNode × Nat,
      (alternativeCandidate configurations map entry).map (fun c => (c.node, c.runtime)) =
        machineOf configurations map entry.1 := by
    intro entry
    simp only [machineOf,alternativeCandidate]
    split
    · cases configurations[trim entry.1.apparatusId]? with
      | none => rfl
      | some runtime =>
        dsimp only
        split <;> rfl
    · rfl
  calc (candidatesOf configurations map).map (fun c => (c.node, c.runtime))
      = (map.nodes.zipIdx.map Prod.fst).filterMap (machineOf configurations map) := by
        rw [candidatesOf,map_filterMap,filterMap_map]
        simp only [hplace]
        rfl
    _=map.nodes.filterMap (machineOf configurations map) := by rw [zipIdx_map_fst]

theorem machineOf_reordered (h : Reordered map other) (node : ProductionMapNode) :
    machineOf configurations map node=machineOf configurations other node := by
  have hin : (incomingEdges map node.id).isEmpty=(incomingEdges other node.id).isEmpty :=
    ((h.edges.filter _).map _).isEmpty_eq
  have hout : (outgoingEdges map node.id).isEmpty=(outgoingEdges other node.id).isEmpty :=
    ((h.edges.filter _).map _).isEmpty_eq
  simp only [machineOf,alternativeCandidate,hin,hout]
  split
  · cases configurations[trim node.apparatusId]? with
    | none => rfl
    | some runtime =>
      dsimp only
      split <;> rfl
  · rfl

/-- Sorted by identity, the candidates of the two maps are the same machines. -/
theorem sorted_twins (h : Reordered map other) (hdistinct : (map.nodes.map (·.id)).Nodup) :
    List.Forall₂ (Twin map other)
      ((candidatesOf configurations map).insertionSort fun a b => a.node.id≤b.node.id)
      ((candidatesOf configurations other).insertionSort fun a b => a.node.id≤b.node.id) := by
  have hsorted := fun candidates : List AlternativeCandidate =>
    (pairwise_insertionSort (fun a b => a.node.id≤b.node.id) candidates).map
      (fun c : AlternativeCandidate => (c.node, c.runtime)) (S := fun a b : ProductionMapNode × RuntimeApparatus => a.1.id≤b.1.id) fun _ _ hle => hle
  have hperm : ((candidatesOf configurations map).map fun c => (c.node, c.runtime)).Perm
      ((candidatesOf configurations other).map fun c => (c.node, c.runtime)) := by
    rw [map_machine_candidatesOf,map_machine_candidatesOf,
      funext (@machineOf_reordered configurations map other h)]
    exact h.nodes.filterMap _
  have hmem : ∀ {map : ProductionMapDefinition} {c : AlternativeCandidate},
      c∈(candidatesOf configurations map).insertionSort (fun a b => a.node.id≤b.node.id) →
        c∈candidatesOf configurations map :=
    fun hc => (perm_insertionSort _ _).mem_iff.mp hc
  have hsame : ((candidatesOf configurations map).insertionSort
        fun a b => a.node.id≤b.node.id).map (fun c => (c.node, c.runtime)) =
      ((candidatesOf configurations other).insertionSort
        fun a b => a.node.id≤b.node.id).map fun c => (c.node, c.runtime) := by
    refine Perm.eq_of_pairwise ?_ (hsorted _) (hsorted _)
      (((perm_insertionSort _ _).map _).trans (hperm.trans ((perm_insertionSort _ _).symm.map _)))
    intro a b ha hb hab hba
    obtain ⟨c,hc,rfl⟩ := mem_map.mp ha
    obtain ⟨d,hd,rfl⟩ := mem_map.mp hb
    have hcnode := mem_of_getElem? (candidateOf_of_mem (hmem hc)).at_index
    have hdnode := mem_of_getElem? (candidateOf_of_mem (hmem hd)).at_index
    have hnode : c.node=d.node := inj_on_of_nodup_map hdistinct hcnode
      (h.nodes.mem_iff.mpr hdnode) (le_antisymm hab hba)
    have hruntime := runtime_of_mem (hmem hc)
    rw [hnode,runtime_of_mem (hmem hd),Option.some.injEq] at hruntime
    rw [hnode,hruntime]
  rw [← forall₂_eq_eq_eq,forall₂_map_left_iff,forall₂_map_right_iff] at hsame
  have hleft := (forall₂_and_left _ _).mpr ⟨fun c hc => candidateOf_of_mem (hmem hc),hsame⟩
  have hboth := (forall₂_and_left _ _).mpr ⟨fun c hc => candidateOf_of_mem (hmem hc),hleft.flip⟩
  exact Forall₂.flip (hboth.imp fun d c hdc =>
    ⟨hdc.2.1,hdc.1,congrArg Prod.fst hdc.2.2,congrArg Prod.snd hdc.2.2⟩)

def assigned (groups : List NamedGroup) (node : ProductionMapNode) : ProductionMapNode :=
  match groups.find? fun named => named.members.any fun member => member.node.id == node.id with
  | some named => { node with alternativeGroupId := named.group }
  | none => node

theorem nodes_normalizeTopologyAlternatives (hdistinct : (map.nodes.map (·.id)).Nodup) :
    (normalizeTopologyAlternatives configurations map).nodes =
      map.nodes.map (assigned (topologyGroups configurations map)) := by
  have hassign : ∀ entry∈map.nodes.zipIdx, assignGroup (topologyGroups configurations map) entry =
        assigned (topologyGroups configurations map) entry.1 := by
    intro entry hentry
    have hat := mk_mem_zipIdx_iff_getElem?.mp hentry
    have hfind : groupAt (topologyGroups configurations map) entry.2 =
        (topologyGroups configurations map).find? fun named =>
          named.members.any fun member => member.node.id == entry.1.id := by
      refine find?_congr fun named hnamed => ?_
      rw [Bool.eq_iff_iff,any_eq_true,any_eq_true]
      refine exists_congr fun member => and_congr_right fun hmember => ?_
      have hcandidate :=
        (topologyGroups_sound configurations map).candidate named hnamed member hmember
      rw [beq_iff_eq,beq_iff_eq]
      exact index_eq_iff hdistinct hcandidate.at_index hat
    rewrite [assignGroup,assigned,hfind]
    cases (topologyGroups configurations map).find? _ <;> rfl
  calc (normalizeTopologyAlternatives configurations map).nodes
      = map.nodes.zipIdx.map fun entry =>
          assigned (topologyGroups configurations map) entry.1 := map_congr_left hassign
    _=(map.nodes.zipIdx.map Prod.fst).map (assigned (topologyGroups configurations map)) := by
        rw [map_map]
        rfl
    _=map.nodes.map (assigned (topologyGroups configurations map)) := by rw [zipIdx_map_fst]

theorem any_twins {members members' : List AlternativeCandidate}
    (h : List.Forall₂ (Twin map other) members members') (id : String) :
    (members.any fun member => member.node.id == id) =
      members'.any fun member => member.node.id == id := by
  induction h with
  | nil => rfl
  | cons hfirst _ ih => rw [any_cons,any_cons,hfirst.node,ih]

theorem assigned_twins {groups groups' : List NamedGroup}
    (h : List.Forall₂ (NamedTwin map other) groups groups') (node : ProductionMapNode) :
    assigned groups node=assigned groups' node := by
  induction h with
  | nil => rfl
  | @cons a b _ _ hab _ ih =>
    simp only [assigned,find?_cons,any_twins hab.2] at ih ⊢
    cases b.members.any fun member => member.node.id == node.id with
    | true => exact congrArg (fun group => { node with alternativeGroupId := group }) hab.1
    | false => exact ih

/-- Another order of nodes and edges leaves every node in its group. -/
theorem perm_normalizeTopologyAlternatives (h : Reordered map other)
    (hdistinct : (map.nodes.map (·.id)).Nodup) :
    (normalizeTopologyAlternatives configurations map).nodes.Perm
      (normalizeTopologyAlternatives configurations other).nodes := by
  have hother : (other.nodes.map (·.id)).Nodup := (h.nodes.map _).nodup_iff.mp hdistinct
  have hgroups : List.Forall₂ (NamedTwin map other) (topologyGroups configurations map)
      (topologyGroups configurations other) := by
    refine nameGroups_twins (groupCandidates_twins h hdistinct hother (sorted_twins h hdistinct)
      fun _ _ _ => ?_) ((h.nodes.map _).filter _)
    rw [mem_nil_iff,mem_nil_iff]
  rw [nodes_normalizeTopologyAlternatives hdistinct,nodes_normalizeTopologyAlternatives hother,
    funext (assigned_twins hgroups)]
  exact h.nodes.map _

end Order

/-- Identities of two nodes that are put in one group. -/
def Together (configurations : Configurations) (map : ProductionMapDefinition) (a b : String) :
    Prop :=
  ∃ group i j left right, PutIn configurations map group i left ∧
    PutIn configurations map group j right ∧ left.id=a ∧ right.id=b

/-- What the normalisation promises of a map. -/
structure NormalizesTopology (configurations : Configurations) (map : ProductionMapDefinition) :
    Prop where
  rest : normalizeTopologyAlternatives configurations map =
    { map with nodes := (normalizeTopologyAlternatives configurations map).nodes }
  length : (normalizeTopologyAlternatives configurations map).nodes.length=map.nodes.length
  kept : ∀ index node, map.nodes[index]?=some node →
    (normalizeTopologyAlternatives configurations map).nodes[index]?=some node ∨
      ∃ group, PutIn configurations map group index node
  ungrouped : ∀ group index node, PutIn configurations map group index node →
    node.kind=.apparatus ∧ node.alternativeGroupId = "" ∧ group ≠ ""
  fresh : ∀ group index node, PutIn configurations map group index node →
    ∀ other∈map.nodes, other.alternativeGroupId≠group
  alike : ∀ group i j a b, PutIn configurations map group i a → PutIn configurations map group j b →
    i≠j → ∃ left right, configurations[trim a.apparatusId]?=some left ∧
      configurations[trim b.apparatusId]?=some right ∧ Alike map a b left right ∧
      left.apparatusId≠right.apparatusId
  again : normalizeTopologyAlternatives configurations
      (normalizeTopologyAlternatives configurations map) =
    normalizeTopologyAlternatives configurations map
  acyclic : Acyclic (Drawn map) → Acyclic (Relation.Map (Drawn map)
    (Quot.mk (Together configurations map)) (Quot.mk (Together configurations map)))
  order : (map.nodes.map (·.id)).Nodup → ∀ other, Reordered map other →
    (normalizeTopologyAlternatives configurations map).nodes.Perm
      (normalizeTopologyAlternatives configurations other).nodes

section Result
variable {configurations : Configurations} {map : ProductionMapDefinition}

theorem alike_of_putIn {group : String} {i j : Nat} {a b : ProductionMapNode}
    (ha : PutIn configurations map group i a) (hb : PutIn configurations map group j b)
    (hne : i≠j) : ∃ left right, configurations[trim a.apparatusId]?=some left ∧
      configurations[trim b.apparatusId]?=some right ∧ Alike map a b left right ∧
      left.apparatusId≠right.apparatusId := by
  obtain ⟨first,hfirst,hfirstName,c,hc,rfl,rfl⟩ := putIn_iff.mp ha
  obtain ⟨second,hsecond,hsecondName,d,hd,rfl,rfl⟩ := putIn_iff.mp hb
  have hsame : first=second :=
    inj_on_of_nodup_map (topologyGroups_sound configurations map).distinct hfirst hsecond
      (hfirstName.trans hsecondName.symm)
  exact ⟨c.runtime,d.runtime,runtime_of_mem (mem_candidatesOf hfirst hc),
    runtime_of_mem (mem_candidatesOf hsecond hd),alike_of_mem hfirst hc (hsame ▸ hd) hne⟩

theorem drawn_of_together {a b c : String} (h : Together configurations map a b) :
    Drawn map a c ↔ Drawn map b c := by
  obtain ⟨group,i,j,left,right,hleft,hright,rfl,rfl⟩ := h
  have hdrawn : ∀ id : String, Drawn map id c ↔ ∃ branch, (c, branch)∈outgoingEdges map id := by
    intro id
    simp only [outgoingEdges,mem_map,mem_filter,beq_iff_eq,Prod.mk.injEq]
    constructor
    · intro h
      obtain ⟨edge,hedge,hfrom,hto⟩ := h
      exact ⟨edge.branch,edge,⟨hedge,hfrom⟩,hto,rfl⟩
    · intro h
      obtain ⟨branch,edge,⟨hedge,hfrom⟩,hto,-⟩ := h
      exact ⟨edge,hedge,hfrom,hto⟩
  by_cases hsame : i=j
  · have hnode := hleft.1
    rw [hsame,hright.1,Option.some.injEq] at hnode
    rw [hnode]
  · obtain ⟨_,_,-,-,halike,-⟩ := alike_of_putIn hleft hright hsame
    rw [hdrawn,hdrawn]
    exact exists_congr fun branch => halike.outgoing (c, branch)

/-- Every map is normalised as promised; the order in which it is written plays no part where its
identities are distinct. -/
theorem normalizeTopologyAlternatives_normalizes (configurations : Configurations)
    (map : ProductionMapDefinition) : NormalizesTopology configurations map where
  rest := rfl
  length := by rw [normalizeTopologyAlternatives,List.length_map,List.length_zipIdx]
  kept := by
    intro index node hnode
    rw [getElem?_normalizeTopologyAlternatives,hnode,Option.map_some,assignGroup]
    cases hgroup : groupAt (topologyGroups configurations map) index with
    | none => exact .inl rfl
    | some named =>
      have hsound := topologyGroups_sound configurations map
      obtain ⟨hnamed,hmember⟩ := hsound.member_of_groupAt hgroup hnode
      exact .inr ⟨named.group,putIn_iff.mpr ⟨named,hnamed,rfl,hmember⟩⟩
  ungrouped := by
    intro group index node h
    obtain ⟨named,hnamed,rfl,c,hc,-,rfl⟩ := putIn_iff.mp h
    have hcandidate := (topologyGroups_sound configurations map).candidate named hnamed c hc
    exact ⟨hcandidate.kind,hcandidate.ungrouped,group_ne_empty hnamed⟩
  fresh := by
    intro group index node h other hother heq
    obtain ⟨named,hnamed,rfl,-⟩ := putIn_iff.mp h
    exact (topologyGroups_sound configurations map).fresh named hnamed other hother
      (heq ▸ group_ne_empty hnamed) heq.symm
  alike := fun _ _ _ _ _ => alike_of_putIn
  again := by
    have hnodes : ∀ nodes : List ProductionMapNode, nodes.zipIdx.map (assignGroup [])=nodes := by
      intro nodes
      exact (List.map_congr_left fun entry _ => rfl).trans (List.zipIdx_map_fst 0 nodes)
    conv_lhs => rw [normalizeTopologyAlternatives,topologyGroups_normalizeTopologyAlternatives,
      hnodes]
  acyclic := acyclic_quot fun _ _ _ => drawn_of_together
  order := fun hdistinct _ hother => perm_normalizeTopologyAlternatives hother hdistinct

end Result

section Sample

def pressRuntime (apparatusId : String) : RuntimeApparatus where
  apparatusId
  equipmentClassId := "class:press"
  capabilities := [(.print, 1)]
  executionProfile := ⟨.print,.flexographic,none,none,none,.disabled,false⟩

def twoPressRuntimes : Configurations :=
  Std.TreeMap.ofList [("apparatus:press:1", pressRuntime "apparatus:press:1"),
    ("apparatus:press:2", pressRuntime "apparatus:press:2")]

def repeatedPress (first second : String) : ProductionMapDefinition where
  id := "zakaz-1"
  productCode := "film"
  title := "Film"
  nodes :=
    [{ id := "a", kind := .apparatus, title := first, apparatusId := "apparatus:press:1" },
      { id := "a", kind := .apparatus, title := second, apparatusId := "apparatus:press:1" },
      { id := "b", kind := .apparatus, title := "Other", apparatusId := "apparatus:press:2" }]
  edges := [⟨"start","a",""⟩,⟨"a","end",""⟩,⟨"start","b",""⟩,⟨"b","end",""⟩]

/-- Of two nodes with one identity the first is grouped, so their order matters. -/
theorem repeated_identity_order_matters :
    Reordered (repeatedPress "One" "Two") (repeatedPress "Two" "One") ∧
    ¬ (normalizeTopologyAlternatives twoPressRuntimes (repeatedPress "One" "Two")).nodes.Perm
      (normalizeTopologyAlternatives twoPressRuntimes (repeatedPress "Two" "One")).nodes := by
  refine ⟨⟨List.Perm.swap _ _ _,List.Perm.refl _⟩,?_⟩
  decide +kernel

end Sample

end MiniErp.Catalog
