import Mathlib.Data.List.Pairwise
import Mathlib.Data.List.Sort
import MiniErp.Catalog.Definition
import MiniErp.Lib.Naming

/-! Alternatives that a drawn map implies: interchangeable machines with the same neighbours
become one alternative group when the map is saved. Explicit groups and assignments stay as they
are. -/
namespace MiniErp.Catalog
open Text List

inductive EquipmentCapabilityCode where
  | print
  | laminate
  | cut
  | package
  | glue
  | tooling
  | virtualTask
  | training
  deriving DecidableEq, Repr

inductive ExecutionOperation where
  | print
  | laminate
  | cut
  | package
  | glue
  deriving DecidableEq, Repr

inductive ProcessTechnology where
  | rotogravure
  | flexographic
  | adhesiveLamination
  | extrusionLamination
  | slitting
  | bagMaking
  | coldGlue
  deriving DecidableEq, Repr

inductive VirtualTaskPolicy where
  | disabled
  | inputBridge
  deriving DecidableEq, Repr

structure ExecutionProfile where
  operation : ExecutionOperation
  technology : ProcessTechnology
  colorStationCount : Option Nat
  minWebWidthMm : Option Nat
  maxWebWidthMm : Option Nat
  virtualTasks : VirtualTaskPolicy
  capabilityCompatibleReroute : Bool
  deriving DecidableEq, Repr

/-- The canonical configuration of a machine, as far as alternatives compare it. The capabilities
are listed in the order of their codes. -/
structure RuntimeApparatus where
  apparatusId : String
  equipmentClassId : String
  capabilities : List (EquipmentCapabilityCode × Nat)
  executionProfile : ExecutionProfile
  deriving DecidableEq, Repr

abbrev Configurations := Std.TreeMap String RuntimeApparatus

structure AlternativeCandidate where
  index : Nat
  node : ProductionMapNode
  runtime : RuntimeApparatus
  incoming : List (String × String)
  outgoing : List (String × String)

def incomingEdges (map : ProductionMapDefinition) (id : String) : List (String × String) :=
  (map.edges.filter fun edge => edge.toId == id).map fun edge => (edge.fromId, edge.branch)

def outgoingEdges (map : ProductionMapDefinition) (id : String) : List (String × String) :=
  (map.edges.filter fun edge => edge.fromId == id).map fun edge => (edge.toId, edge.branch)

section
variable (configurations : Configurations) (map : ProductionMapDefinition)

def alternativeCandidate (entry : ProductionMapNode × Nat) : Option AlternativeCandidate :=
  let (node, index) := entry
  if node.kind == .apparatus && node.alternativeGroupId == "" &&
      node.alternativeAssignedApparatusId == "" && ApparatusId.isValid (trim node.apparatusId) then
    match configurations[trim node.apparatusId]? with
    | none => none
    | some runtime =>
      let incoming := incomingEdges map node.id
      let outgoing := outgoingEdges map node.id
      if !incoming.isEmpty && !outgoing.isEmpty then
        some { index, node, runtime, incoming, outgoing }
      else none
  else none

/-- Equality of two collections of edges as sets. -/
def sameEdges (left right : List (String × String)) : Bool :=
  left.all (fun edge => right.contains edge) && right.all fun edge => left.contains edge

def sameWorkParameters (left right : ProductionMapNode) : Bool :=
  left.formula == right.formula && left.itemCode == right.itemCode &&
    left.qtyFormula == right.qtyFormula && left.fromLocation == right.fromLocation &&
    left.toLocation == right.toLocation && left.rezkaKadrCount == right.rezkaKadrCount &&
    left.rezkaFrameGroups == right.rezkaFrameGroups &&
    left.rezkaLabelLength == right.rezkaLabelLength

def interchangeable (leader peer : AlternativeCandidate) : Bool :=
  sameEdges leader.incoming peer.incoming && sameEdges leader.outgoing peer.outgoing &&
    leader.runtime.equipmentClassId == peer.runtime.equipmentClassId &&
    leader.runtime.executionProfile == peer.runtime.executionProfile &&
    leader.runtime.capabilities == peer.runtime.capabilities &&
    sameWorkParameters leader.node peer.node

/-- The peers of a leader among the later candidates, one for each machine. -/
def peersOf (leader : AlternativeCandidate) (used : List Nat) (apparatuses : List String) :
    List AlternativeCandidate → List AlternativeCandidate
  | [] => []
  | peer::rest =>
    if !used.contains peer.index && interchangeable leader peer &&
        !apparatuses.contains peer.runtime.apparatusId then
      peer::peersOf leader used (peer.runtime.apparatusId::apparatuses) rest
    else peersOf leader used apparatuses rest

def groupCandidates (used : List Nat) : List AlternativeCandidate → List (List AlternativeCandidate)
  | [] => []
  | leader::rest =>
    if used.contains leader.index then groupCandidates used rest
    else
      let members := leader::peersOf leader used [leader.runtime.apparatusId] rest
      if 1 < members.length then
        members::groupCandidates (used++members.map (·.index)) rest
      else groupCandidates used rest

def groupName (base : String) (suffix : Nat) : String :=
  if suffix=0 then base else base ++ ":" ++ toString suffix

/-- The first name that is not taken; one more name than there are taken ones is enough. -/
def freshGroup (occupied : List String) (base : String) : String :=
  (((List.range (occupied.length+1)).map (groupName base)).find? fun name =>
    !occupied.contains name).getD base

structure NamedGroup where
  group : String
  members : List AlternativeCandidate

def leaderId (members : List AlternativeCandidate) : String :=
  (members.head?.map (·.node.id)).getD ""

def nameGroups (occupied : List String) : List (List AlternativeCandidate) → List NamedGroup
  | [] => []
  | members::rest =>
    let group := freshGroup occupied ("topology_alt:" ++ leaderId members)
    ⟨group,members⟩::nameGroups (group::occupied) rest

def topologyGroups : List NamedGroup :=
  let candidates := map.nodes.zipIdx.filterMap (alternativeCandidate configurations map)
  let sorted := candidates.insertionSort fun a b => a.node.id≤b.node.id
  let occupied := (map.nodes.map (·.alternativeGroupId)).filter (· != "")
  nameGroups occupied (groupCandidates [] sorted)

def groupAt (groups : List NamedGroup) (index : Nat) : Option NamedGroup :=
  groups.find? fun named => named.members.any fun member => member.index == index

/-- The groups are disjoint, so every node is assigned at most once. -/
def assignGroup (groups : List NamedGroup) (entry : ProductionMapNode × Nat) : ProductionMapNode :=
  match groupAt groups entry.2 with
  | some named => { entry.1 with alternativeGroupId := named.group }
  | none => entry.1

def normalizeTopologyAlternatives : ProductionMapDefinition :=
  { map with nodes := map.nodes.zipIdx.map (assignGroup (topologyGroups configurations map)) }

structure CandidateOf (map : ProductionMapDefinition) (c : AlternativeCandidate) : Prop where
  at_index : map.nodes[c.index]?=some c.node
  kind : c.node.kind=.apparatus
  ungrouped : c.node.alternativeGroupId = ""
  incoming : c.incoming=incomingEdges map c.node.id
  outgoing : c.outgoing=outgoingEdges map c.node.id

theorem candidateOf_of_mem {configurations : Configurations} {map : ProductionMapDefinition}
    {c : AlternativeCandidate}
    (h : c∈map.nodes.zipIdx.filterMap (alternativeCandidate configurations map)) :
    CandidateOf map c := by
  obtain ⟨⟨node,index⟩,hmem,hc⟩ := mem_filterMap.mp h
  simp only [alternativeCandidate] at hc
  split at hc
  · rename_i hnode
    simp only [Bool.and_eq_true,beq_iff_eq] at hnode
    split at hc
    · cases hc
    · split at hc
      · rw [Option.some.injEq] at hc
        subst hc
        exact ⟨mk_mem_zipIdx_iff_getElem?.mp hmem,hnode.1.1.1,hnode.1.1.2,rfl,rfl⟩
      · cases hc
  · cases hc

theorem mem_peersOf {leader peer : AlternativeCandidate} {used : List Nat}
    {apparatuses : List String} {rest : List AlternativeCandidate}
    (h : peer∈peersOf leader used apparatuses rest) :
    peer∈rest ∧ peer.index∉used ∧ interchangeable leader peer=true := by
  induction rest generalizing apparatuses with
  | nil => cases h
  | cons first rest ih =>
    rw [peersOf] at h
    split at h
    · rename_i hfirst
      simp only [Bool.and_eq_true,Bool.not_eq_true',contains_eq_mem,
        decide_eq_false_iff_not] at hfirst
      cases h with
      | head => exact ⟨mem_cons_self,hfirst.1⟩
      | tail _ h => exact ⟨mem_cons_of_mem first (ih h).1,(ih h).2⟩
    · exact ⟨mem_cons_of_mem first (ih h).1,(ih h).2⟩

def LedGroup (members : List AlternativeCandidate) : Prop :=
  ∃ leader rest, members=leader::rest ∧ ∀ peer∈rest, interchangeable leader peer=true

theorem mem_groupCandidates {used : List Nat} {candidates : List AlternativeCandidate}
    {members : List AlternativeCandidate} (h : members∈groupCandidates used candidates) :
    LedGroup members ∧ ∀ c∈members, c∈candidates ∧ c.index∉used := by
  induction candidates generalizing used with
  | nil => cases h
  | cons leader rest ih =>
    have hlater : ∀ more, members∈groupCandidates (used++more) rest →
        LedGroup members ∧ ∀ c∈members, c∈leader::rest ∧ c.index∉used := by
      intro more hmembers
      refine ⟨(ih hmembers).1,fun c hc => ?_⟩
      obtain ⟨hmem,hunused⟩ := (ih hmembers).2 c hc
      exact ⟨mem_cons_of_mem leader hmem,fun hused => hunused (mem_append_left _ hused)⟩
    have hsame : members∈groupCandidates used rest →
        LedGroup members ∧ ∀ c∈members, c∈leader::rest ∧ c.index∉used := by
      intro hmembers
      exact hlater [] (by rwa [append_nil])
    simp only [groupCandidates] at h
    split at h
    · exact hsame h
    · rename_i hleader
      split at h
      · cases h with
        | head =>
          refine ⟨⟨leader,_,rfl,fun peer hpeer => (mem_peersOf hpeer).2.2⟩,fun c hc => ?_⟩
          cases hc with
          | head => exact ⟨mem_cons_self,by simpa using hleader⟩
          | tail _ hc => exact ⟨mem_cons_of_mem leader (mem_peersOf hc).1,(mem_peersOf hc).2.1⟩
        | tail _ h => exact hlater _ h
      · exact hsame h

def DisjointMembers (a b : List AlternativeCandidate) : Prop := ∀ c∈a, ∀ d∈b, c.index≠d.index

theorem groupCandidates_disjoint (used : List Nat) (candidates : List AlternativeCandidate) :
    (groupCandidates used candidates).Pairwise DisjointMembers := by
  induction candidates generalizing used with
  | nil => exact List.Pairwise.nil
  | cons leader rest ih =>
    simp only [groupCandidates]
    split
    · exact ih used
    · split
      · refine List.Pairwise.cons (fun members hmembers c hc d hd heq => ?_) (ih _)
        -- the later groups avoid every index that is already used
        have hunused := ((mem_groupCandidates hmembers).2 d hd).2
        exact hunused (mem_append_right _ (mem_map.mpr ⟨c,hc,heq⟩))
      · exact ih used

theorem freshGroup_spec (occupied : List String) (base : String) :
    freshGroup occupied base∉occupied ∧ ∃ k, freshGroup occupied base=groupName base k :=
  @firstFreeName_spec ":" (by decide) occupied base

theorem mem_nameGroups {occupied : List String} {groups : List (List AlternativeCandidate)}
    {named : NamedGroup} (h : named∈nameGroups occupied groups) :
    named.members∈groups ∧ named.group∉occupied ∧
      ∃ k, named.group=groupName ("topology_alt:" ++ leaderId named.members) k := by
  induction groups generalizing occupied with
  | nil => cases h
  | cons members rest ih =>
    cases h with
    | head => exact ⟨mem_cons_self,freshGroup_spec _ _⟩
    | tail _ h =>
      obtain ⟨hmem,hnew,hname⟩ := ih h
      exact ⟨mem_cons_of_mem members hmem, fun hold => hnew (mem_cons_of_mem _ hold),hname⟩

theorem nameGroups_distinct (occupied : List String) (groups : List (List AlternativeCandidate)) :
    ((nameGroups occupied groups).map (·.group)).Nodup := by
  induction groups generalizing occupied with
  | nil => exact nodup_nil
  | cons members rest ih =>
    rw [nameGroups,map_cons,nodup_cons]
    refine ⟨fun hmem => ?_,ih _⟩
    obtain ⟨named,hnamed,heq⟩ := mem_map.mp hmem
    exact (mem_nameGroups hnamed).2.1 (heq ▸ mem_cons_self)

theorem nameGroups_disjoint {groups : List (List AlternativeCandidate)}
    (h : groups.Pairwise DisjointMembers) (occupied : List String) :
    (nameGroups occupied groups).Pairwise fun a b => DisjointMembers a.members b.members := by
  induction groups generalizing occupied with
  | nil => exact List.Pairwise.nil
  | cons members rest ih =>
    rw [pairwise_cons] at h
    refine List.Pairwise.cons (fun named hnamed => ?_) (ih h.2 _)
    exact h.1 named.members (mem_nameGroups hnamed).1

/-- What the groups that a map implies are: disjoint sets of ungrouped machines that have the
neighbours of their leader, under names that are taken by no other group. -/
structure GroupsSound (map : ProductionMapDefinition) (groups : List NamedGroup) : Prop where
  candidate : ∀ named∈groups, ∀ c∈named.members, CandidateOf map c
  led : ∀ named∈groups, LedGroup named.members
  disjoint : groups.Pairwise fun a b => DisjointMembers a.members b.members
  fresh : ∀ named∈groups, ∀ node∈map.nodes, node.alternativeGroupId ≠ "" →
    named.group≠node.alternativeGroupId
  distinct : (groups.map (·.group)).Nodup
  name : ∀ named∈groups, ∃ k, named.group=groupName ("topology_alt:" ++ leaderId named.members) k

theorem topologyGroups_sound : GroupsSound map (topologyGroups configurations map) := by
  constructor
  · intro named hnamed c hc
    have hmem := ((mem_groupCandidates (mem_nameGroups hnamed).1).2 c hc).1
    exact candidateOf_of_mem ((perm_insertionSort _ _).mem_iff.mp hmem)
  · exact fun named hnamed => (mem_groupCandidates (mem_nameGroups hnamed).1).1
  · exact nameGroups_disjoint (groupCandidates_disjoint _ _) _
  · intro named hnamed node hnode hgroup heq
    refine (mem_nameGroups hnamed).2.1 (mem_filter.mpr ⟨?_,bne_iff_ne.mpr (heq ▸ hgroup)⟩)
    exact mem_map.mpr ⟨node,hnode,heq.symm⟩
  · exact nameGroups_distinct _ _
  · exact fun named hnamed => (mem_nameGroups hnamed).2.2

end

variable {map : ProductionMapDefinition} {groups : List NamedGroup} {index : Nat}
  {named : NamedGroup}

theorem groupAt_eq_some (h : GroupsSound map groups) :
    groupAt groups index=some named ↔ named∈groups ∧ ∃ c∈named.members, c.index=index := by
  unfold groupAt
  constructor
  · intro hfind
    have hmember := find?_some hfind
    simp only [any_eq_true,beq_iff_eq] at hmember
    exact ⟨mem_of_find?_eq_some hfind,hmember⟩
  · rintro ⟨hmem,c,hc,rfl⟩
    cases hfind : groups.find? fun named => named.members.any fun m => m.index == c.index with
    | none =>
      have hnone := find?_eq_none.mp hfind named hmem
      simp only [any_eq_true,beq_iff_eq] at hnone
      exact absurd ⟨c,hc,rfl⟩ hnone
    | some found =>
      have hmember := find?_some hfind
      simp only [any_eq_true,beq_iff_eq] at hmember
      obtain ⟨d,hd,hindex⟩ := hmember
      have hsymm : Std.Symm fun a b : NamedGroup => DisjointMembers a.members b.members :=
        ⟨fun _ _ hab x hx y hy hxy => hab y hy x hx hxy.symm⟩
      by_contra hne
      have hdisjoint := h.disjoint.forall (mem_of_find?_eq_some hfind) hmem
        fun heq => hne (congrArg some heq)
      exact hdisjoint d hd c hc hindex

theorem GroupsSound.member_of_groupAt (h : GroupsSound map groups)
    (hgroup : groupAt groups index=some named) {node : ProductionMapNode}
    (hnode : map.nodes[index]?=some node) :
    named∈groups ∧ ∃ c∈named.members, c.index=index ∧ c.node=node := by
  obtain ⟨hnamed,c,hc,rfl⟩ := (groupAt_eq_some h).mp hgroup
  have hat := (h.candidate named hnamed c hc).at_index
  rw [hnode,Option.some.injEq] at hat
  exact ⟨hnamed,c,hc,rfl,hat.symm⟩

end MiniErp.Catalog
