import MiniErp.Catalog.Reroute
import MiniErp.Catalog.StageLock

/-! What every ordinary save does to a map: flags kept from the stored one, normal form, the
widths its machines can take, alternatives of the drawn topology and the started part. -/
namespace MiniErp.Catalog
open Text Run Chain Compiler Worklist List

section Widths
variable (map : ProductionMapDefinition) (cutIds : List ApparatusId)

def layoutWidths : List F64 :=
  map.products.flatMap fun product =>
    List.replicate product.frameCount.toNat product.frameProductSizeMm

def sumWidths (widths : List F64) : F64 := widths.foldl F64.add F64.zero

/-- Consecutive lanes taken together; all of them have to be used up. -/
def takeGroups : List F64 → List Int → Option (List F64)
  | lanes, [] => if lanes.isEmpty then some [] else none
  | lanes, count::rest =>
    if 0 < count ∧ count.toNat≤lanes.length then
      (takeGroups (lanes.drop count.toNat) rest).map fun widths =>
        sumWidths (lanes.take count.toNat)::widths
    else none

def groupWidths (lanes : List F64) (groups : List Int) : Option (List F64) :=
  takeGroups lanes (if groups.isEmpty then List.replicate lanes.length 1 else groups)

/-- The number of frames a node cuts the web into, if it is a cutting machine. -/
def cutFrames (node : ProductionMapNode) : Option Nat :=
  if (canonicalApparatusId node).any cutIds.contains then
    (node.rezkaKadrCount.filter fun count => decide (0 < count)).map Int.toNat
  else none

def webSources (id : String) : List String :=
  (map.edges.filter fun edge => edge.toId == id).map (·.fromId)

/-- The search goes against the edges and ends at a machine that cuts. -/
def webSourcesBefore (id : String) : List String :=
  match map.nodeById id with
  | none => []
  | some node => if (cutFrames cutIds node).isSome then [] else webSources map id

def cutWidths (width : F64) (node : ProductionMapNode) (frames : Nat) : List F64 :=
  if !map.products.isEmpty then
    (groupWidths (layoutWidths map) node.rezkaFrameGroups).getD [.infinite false]
  else if node.rezkaFrameGroups.isEmpty then [width.divInt frames]
  else node.rezkaFrameGroups.map fun count => (width.mul (F64.ofInt count)).divInt frames

/-- What one visited node contributes. -/
def widthsAt (width : F64) (id : String) : List F64 :=
  match map.nodeById id with
  | none => [width]
  | some node =>
    match cutFrames cutIds node with
    | some frames => cutWidths map width node frames
    | none => if (webSources map id).isEmpty then [width] else []

/-- The widths that can reach a node. The source visits the same nodes from a stack; only the
order of the widths depends on it. -/
def stageInputWidths (nodeId : String) : List F64 :=
  match map.widthMm with
  | none => []
  | some width =>
    let start := webSources map nodeId
    let visited := explore (webSourcesBefore map cutIds) (start++edgeEnds map) start
    let widths := visited.flatMap (widthsAt map cutIds width)
    if widths.isEmpty then [width] else widths

end Widths

def apparatusIds (map : ProductionMapDefinition) : List ApparatusId :=
  ((map.nodes.filter fun node => node.kind == .apparatus).filterMap
    canonicalApparatusId).dedup.insertionSort fun a b => a.value≤b.value

abbrev ResolvedApparatuses := List (ApparatusId × RuntimeApparatusConfiguration)

def resolveApparatuses (resolver : ApparatusResolver) (map : ProductionMapDefinition) :
    Except ProductionMapError ResolvedApparatuses :=
  (apparatusIds map).mapM fun id => do return (id, ← resolver.resolveCanonicalApparatus id)

def cutIdsOf (resolved : ResolvedApparatuses) : List ApparatusId :=
  (resolved.filter fun entry => entry.2.runtime.executionProfile.operation == .cut).map Prod.fst

def configurationsOf (resolved : ResolvedApparatuses) : Configurations :=
  Std.TreeMap.ofList (resolved.map fun entry => (entry.1.value, entry.2.runtime))

/-- A machine that does not print takes only the widths of its profile. -/
def checkNodeWidth (map : ProductionMapDefinition) (resolved : ResolvedApparatuses)
    (node : ProductionMapNode) : Except ProductionMapError Unit :=
  match (canonicalApparatusId node).bind fun id => resolved.lookup id with
  | none => .ok ()
  | some configuration =>
    let profile := configuration.runtime.executionProfile
    if profile.operation == .print then .ok ()
    else do
      let widths := stageInputWidths map (cutIdsOf resolved) node.id
      ensure (!widths.any fun width =>
          profile.minWebWidthMm.any fun minimum => width.lt (F64.ofInt minimum))
        .apparatusWidthBelowCapability
      ensure (!widths.any fun width =>
          profile.maxWebWidthMm.any fun maximum => (F64.ofInt maximum).lt width)
        .apparatusWidthExceedsCapability

def validateAndNormalizeMapApparatus (resolver : ApparatusResolver)
    (map : ProductionMapDefinition) : Except ProductionMapError ProductionMapDefinition := do
  let resolved ← resolveApparatuses resolver map
  (map.nodes.filter fun node => node.kind == .apparatus).forM (checkNodeWidth map resolved)
  return normalizeTopologyAlternatives (configurationsOf resolved) map

/-- The flags a save keeps from the stored map. -/
def keepFlags (store : CatalogStore) (map : ProductionMapDefinition) : ProductionMapDefinition :=
  match store.mapById (trim map.id) with
  | none => map
  | some previous =>
    { map with
      duplicateRezkaLabels := map.duplicateRezkaLabels.or previous.duplicateRezkaLabels
      includeBobinaInNet := map.includeBobinaInNet.or previous.includeBobinaInNet
      standardPrintSide := previous.standardPrintSide }

structure ProductionMapSaved where
  map : ProductionMapDefinition
  program : ProductionMapProgram

theorem trim_groupName_ne_empty (leader : String) (k : Nat) :
    trim (groupName ("topology_alt:" ++ leader) k) ≠ "" := by
  have hhead : ∀ rest : String, trim ("topology_alt:" ++ rest) ≠ "" := by
    intro rest hblank
    have hlist := congrArg String.toList hblank
    rw [toList_trim] at hlist
    have hall := rdropWhile_eq_nil_iff.mp hlist 't'
    simp [isWhitespace] at hall
  unfold groupName
  split
  · exact hhead leader
  · rw [String.append_assoc,String.append_assoc]
    exact hhead _

/-- A map that comes out of its normal form with the groups of its topology was in normal form:
a name of a new group is not blank, so it was not there before. -/
theorem eq_of_normalizeTopologyAlternatives {configurations : Configurations}
    (normal map : ProductionMapDefinition) (hnodes : normal.nodes=map.nodes.map normalizeNode)
    (h : normalizeTopologyAlternatives configurations normal=map) : normal=map := by
  have hsound := topologyGroups_sound configurations normal
  have hkept : ∀ entry∈normal.nodes.zipIdx,
      assignGroup (topologyGroups configurations normal) entry=entry.1 := by
    intro entry hentry
    obtain ⟨node,index⟩ := entry
    have hnode : normal.nodes[index]?=some node := mk_mem_zipIdx_iff_getElem?.mp hentry
    have hnormal := hnode
    rw [hnodes,← h,normalizeTopologyAlternatives,getElem?_map,getElem?_map,
      getElem?_zipIdx,hnode] at hnormal
    simp only [Option.map_some,Option.some.injEq] at hnormal
    cases hgroup : groupAt (topologyGroups configurations normal) index with
    | none => simp only [assignGroup,hgroup]
    | some named =>
      obtain ⟨hmem,c,hc,-,hself⟩ := hsound.member_of_groupAt hgroup hnode
      obtain ⟨k,hname⟩ := hsound.name named hmem
      have hblank : trim named.group = "" := by
        rw [← (hsound.candidate named hmem c hc).ungrouped,hself]
        simpa [assignGroup,hgroup,normalizeNode] using
          congrArg ProductionMapNode.alternativeGroupId hnormal
      rw [hname] at hblank
      exact absurd hblank (trim_groupName_ne_empty _ k)
  rw [← h,normalizeTopologyAlternatives,map_congr_left hkept,zipIdx_map_fst]

section Prepare
variable (rules : CompilerRules) (digest : ProductionMapDefinition → String)
  (resolver : ApparatusResolver) (store : CatalogStore)

def prepareMap (map : ProductionMapDefinition) (allowPreflightEdit : Bool) :
    Except ProductionMapError ProductionMapSaved := do
  let map := normalizeMap (keepFlags store map)
  let _ ← compileMap rules map
  let map ← validateAndNormalizeMapApparatus resolver map
  let program ← compileMap rules map
  rejectStartedStageChanges digest store map allowPreflightEdit
  return { map, program }

/-- A map that a save leaves as it is: it has its flags and its normal form, its machines take
its widths, none of them form a new group, and its started part is the stored one. -/
structure Settled (map : ProductionMapDefinition) : Prop where
  normal : normalizeMap (keepFlags store map)=map
  apparatus : validateAndNormalizeMapApparatus resolver map=.ok map
  started : rejectStartedStageChanges digest store map false=.ok ()

variable {rules digest resolver store} {map : ProductionMapDefinition}

variable {allow : Bool} {saved : ProductionMapSaved}

section
variable (h : prepareMap rules digest resolver store map allow=.ok saved)
include h

theorem program_of_prepareMap : compileMap rules saved.map=.ok saved.program := by
  simp only [prepareMap,bind_eq_ok] at h
  obtain ⟨_,_,final,_,program,hcompile,_,_,hsaved⟩ := h
  cases hsaved
  exact hcompile

theorem compile_of_prepareMap :
    ∃ program, compileMap rules (normalizeMap (keepFlags store map))=.ok program := by
  simp only [prepareMap,bind_eq_ok] at h
  obtain ⟨program,hcompile,_⟩ := h
  exact ⟨program,hcompile⟩

theorem started_of_prepareMap : rejectStartedStageChanges digest store saved.map allow=.ok () := by
  simp only [prepareMap,bind_eq_ok] at h
  obtain ⟨_,_,final,_,program,_,_,hstarted,hsaved⟩ := h
  cases hsaved
  exact hstarted

end

theorem nodes_keepFlags (map : ProductionMapDefinition) :
    (normalizeMap (keepFlags store map)).nodes=map.nodes.map normalizeNode := by
  unfold keepFlags
  split <;> rfl

theorem settled_of_prepareMap {program : ProductionMapProgram}
    (h : prepareMap rules digest resolver store map false=.ok ⟨map,program⟩) :
    Settled digest resolver store map := by
  have hstarted := started_of_prepareMap h
  simp only [prepareMap,bind_eq_ok] at h
  obtain ⟨_,_,final,hfinal,_,_,_,_,hsaved⟩ := h
  have hmap : final=map := congrArg ProductionMapSaved.map (Except.ok.inj hsaved)
  rw [hmap] at hfinal
  have hgroups := hfinal
  simp only [validateAndNormalizeMapApparatus,bind_eq_ok] at hgroups
  obtain ⟨resolved,_,_,_,hgroups⟩ := hgroups
  have hnormal : normalizeMap (keepFlags store map)=map :=
    eq_of_normalizeTopologyAlternatives _ map (nodes_keepFlags map) (Except.ok.inj hgroups)
  rw [hnormal] at hfinal
  exact ⟨hnormal,hfinal,hstarted⟩

/-- A save leaves a map as it is exactly when the map compiles and is settled. -/
theorem prepareMap_eq_self_iff {program : ProductionMapProgram} :
    prepareMap rules digest resolver store map false=.ok ⟨map,program⟩ ↔
      compileMap rules map=.ok program ∧ Settled digest resolver store map := by
  constructor
  · intro h
    exact ⟨program_of_prepareMap h,settled_of_prepareMap h⟩
  · intro h
    obtain ⟨hcompile,hsettled⟩ := h
    simp only [prepareMap,hsettled.normal,bind_eq_ok]
    exact ⟨program,hcompile,map,hsettled.apparatus,program,hcompile,(),hsettled.started,rfl⟩

end Prepare

end MiniErp.Catalog
