import MiniErp.Catalog.PrepareMap
import MiniErp.Lib.Merge

/-! The widths that reach a stage, path by path: a drawn path brings what leaves its nearest cut,
or the full width from its source. -/
namespace MiniErp.Catalog
open Relation Worklist Compiler Chain Merge List Option

section Paths
variable (map : ProductionMapDefinition) (cutIds : List ApparatusId) (width : F64)

def cutOutput (id : String) : Option (List F64) :=
  (map.nodeById id).bind fun node => (cutFrames cutIds node).map (cutWidths map width node)

/-- A path drawn backwards from a node, its nearest node first. -/
def WebPath : String → List String → Prop
  | _, [] => True
  | id, source::rest => source∈webSources map id ∧ WebPath source rest

def pathWidths : String → List String → List F64
  | id, [] => if (webSources map id).isEmpty then [width] else []
  | _, source::rest => (cutOutput map cutIds width source).getD (pathWidths source rest)

variable {map cutIds width}

variable {id source nodeId : String}

theorem mem_webSources : source∈webSources map id ↔ Drawn map source id := by
  simp [webSources,Drawn,and_comm,and_assoc]

theorem mem_edgeEnds_of_webSources (h : source∈webSources map id) : source∈edgeEnds map := by
  obtain ⟨edge,hedge,rfl,-⟩ := mem_webSources.mp h
  exact mem_flatMap.mpr ⟨edge,hedge,by simp⟩

theorem eq_nil_of_takeGroups {lanes : List F64} {groups : List Int}
    (h : takeGroups lanes groups=some []) : lanes=[] := by
  cases groups with
  | nil => simpa [takeGroups] using h
  | cons count rest =>
    rw [takeGroups] at h
    split at h
    · simp at h
    · cases h

theorem cutOutput_ne_nil (hlanes : map.products ≠ [] → layoutWidths map ≠ []) (id : String) :
    cutOutput map cutIds width id≠some [] := by
  intro h
  obtain ⟨node,-,h⟩ := bind_eq_some_iff.mp h
  obtain ⟨frames,-,h⟩ := map_eq_some_iff.mp h
  unfold cutWidths at h
  split at h
  · rename_i hproducts
    cases hgroups : groupWidths (layoutWidths map) node.rezkaFrameGroups with
    | none => simp [hgroups] at h
    | some widths =>
      rw [hgroups,getD_some] at h
      rw [h] at hgroups
      exact hlanes (by simpa using hproducts) (eq_nil_of_takeGroups hgroups)
  · split at h
    · cases h
    · simp_all

/-- Without a cycle some path through every source brings something. -/
theorem exists_path (hacyclic : Acyclic (Drawn map))
    (hlanes : map.products ≠ [] → layoutWidths map ≠ []) (hsource : source∈webSources map nodeId) :
    ∃ rest, WebPath map source rest ∧ pathWidths map cutIds width nodeId (source::rest) ≠ [] := by
  by_contra! hnone
  have hcycle : ∀ v, ¬TransGen (fun a b => (a, b)∈drawnEdges map) v v := by
    simpa only [mem_drawnEdges,Acyclic] using hacyclic
  refine Toposort.none_of_acyclic hcycle
    (P := fun v => ∀ rest, WebPath map v rest → pathWidths map cutIds width nodeId (v::rest)=[])
    (fun v hempty => ?_) source (mem_edgeEnds_of_webSources hsource) hnone
  -- with no output of its own a node has a source, which brings nothing either
  have hv := hempty [] trivial
  cases hcut : cutOutput map cutIds width v with
  | some widths =>
    rw [pathWidths,hcut,getD_some] at hv
    exact absurd (hv ▸ hcut) (cutOutput_ne_nil hlanes v)
  | none =>
    rw [pathWidths,hcut,pathWidths] at hv
    obtain ⟨u,hu⟩ := exists_mem_of_ne_nil (webSources map v) fun hnil => by simp [hnil] at hv
    refine ⟨u,fun rest hpath => ?_,mem_edgeEnds_of_webSources hu,
      mem_drawnEdges.mpr (mem_webSources.mp hu)⟩
    have hlonger := hempty (u::rest) ⟨hu,hpath⟩
    rwa [pathWidths,hcut,getD_none] at hlonger

variable (hnodes : ∀ id, ∀ source∈webSources map id, (map.nodeById source).isSome=true)

theorem widthsAt_eq (h : (map.nodeById id).isSome=true) : widthsAt map cutIds width id =
      (cutOutput map cutIds width id).getD (pathWidths map cutIds width id []) := by
  obtain ⟨node,hnode⟩ := isSome_iff_exists.mp h
  simp only [widthsAt,cutOutput,hnode,bind_some]
  cases cutFrames cutIds node with
  | none => rfl
  | some frames => rfl

theorem mem_webSourcesBefore (h : (map.nodeById id).isSome=true) :
    source∈webSourcesBefore map cutIds id ↔
      cutOutput map cutIds width id=none ∧ source∈webSources map id := by
  obtain ⟨node,hnode⟩ := isSome_iff_exists.mp h
  simp only [webSourcesBefore,cutOutput,hnode,bind_some]
  cases cutFrames cutIds node with
  | none => simp
  | some frames => simp

include hnodes

theorem exists_path_iff (hsource : source∈webSources map nodeId)
    {x : F64} : (∃ y, ReflTransGen (Step (webSourcesBefore map cutIds)) source y ∧
        x∈widthsAt map cutIds width y) ↔
      ∃ rest, WebPath map source rest ∧ x∈pathWidths map cutIds width nodeId (source::rest) := by
  constructor
  · rintro ⟨y,hreach,hx⟩
    induction hreach using ReflTransGen.head_induction_on generalizing nodeId with
    | refl =>
      rw [widthsAt_eq (hnodes nodeId y hsource)] at hx
      exact ⟨[],trivial,hx⟩
    | head hstep _ ih =>
      obtain ⟨hcut,hnext⟩ := (mem_webSourcesBefore (hnodes nodeId _ hsource)).mp hstep
      obtain ⟨rest,hpath,hx⟩ := ih hnext
      refine ⟨_ :: rest,⟨hnext,hpath⟩,?_⟩
      rwa [pathWidths,hcut,getD_none]
  · rintro ⟨rest,hpath,hx⟩
    induction rest generalizing nodeId source with
    | nil => exact ⟨source,.refl,by rwa [widthsAt_eq (hnodes nodeId source hsource)]⟩
    | cons next rest ih =>
      cases hcut : cutOutput map cutIds width source with
      | some widths =>
        refine ⟨source,.refl,?_⟩
        rw [widthsAt_eq (hnodes nodeId source hsource),hcut]
        rwa [pathWidths,hcut] at hx
      | none =>
        rw [pathWidths,hcut] at hx
        obtain ⟨y,hreach,hx⟩ := ih hpath.1 hpath.2 hx
        exact ⟨y,.head ((mem_webSourcesBefore (hnodes nodeId source hsource)).mpr
          ⟨hcut,hpath.1⟩) hreach,hx⟩

theorem mem_found_iff {x : F64} :
    x∈(explore (webSourcesBefore map cutIds) (webSources map nodeId++edgeEnds map)
        (webSources map nodeId)).flatMap (widthsAt map cutIds width) ↔
      ∃ source rest, WebPath map nodeId (source::rest) ∧
        x∈pathWidths map cutIds width nodeId (source::rest) := by
  have hclosed : ∀ a∈webSources map nodeId++edgeEnds map, ∀ b∈webSourcesBefore map cutIds a,
      b∈webSources map nodeId++edgeEnds map := by
    intro a _ b hb
    have hsource : b∈webSources map a := by
      unfold webSourcesBefore at hb
      split at hb
      · cases hb
      · split at hb
        · cases hb
        · exact hb
    exact mem_append_right _ (mem_edgeEnds_of_webSources hsource)
  simp only [mem_flatMap,mem_explore_iff hclosed fun a ha => mem_append_left _ ha]
  constructor
  · rintro ⟨y,⟨source,hsource,hreach⟩,hx⟩
    obtain ⟨rest,hpath,hx⟩ := (exists_path_iff hnodes hsource).mp ⟨y,hreach,hx⟩
    exact ⟨source,rest,⟨hsource,hpath⟩,hx⟩
  · rintro ⟨source,rest,⟨hsource,hpath⟩,hx⟩
    obtain ⟨y,hreach,hx⟩ := (exists_path_iff hnodes hsource).mpr ⟨rest,hpath,hx⟩
    exact ⟨y,⟨source,hsource,hreach⟩,hx⟩

end Paths

/-- The widths of a stage are those its drawn paths bring. -/
theorem mem_stageInputWidths_iff {map : ProductionMapDefinition} {width : F64}
    (hwidth : map.widthMm=some width)
    (hedges : ∀ edge∈map.edges, edge.fromId∈map.nodes.map (·.id) ∧ edge.toId∈map.nodes.map (·.id))
    (hacyclic : Acyclic (Drawn map)) (hlanes : map.products ≠ [] → layoutWidths map ≠ [])
    (cutIds : List ApparatusId) (nodeId : String) (x : F64) : x∈stageInputWidths map cutIds nodeId ↔
      ∃ path, WebPath map nodeId path ∧ x∈pathWidths map cutIds width nodeId path := by
  have hnodes : ∀ id, ∀ source∈webSources map id, (map.nodeById source).isSome=true := by
    intro id source hsource
    obtain ⟨edge,hedge,rfl,-⟩ := mem_webSources.mp hsource
    obtain ⟨node,hnode,hid⟩ := List.mem_map.mp (hedges edge hedge).1
    simp only [ProductionMapDefinition.nodeById,List.find?_isSome]
    exact ⟨node,hnode,by simpa using hid⟩
  simp only [stageInputWidths,hwidth,List.isEmpty_iff]
  split
  · rename_i hempty
    -- only the empty path starts here
    have hsources : webSources map nodeId=[] := by
      refine List.eq_nil_iff_forall_not_mem.mpr fun source hsource => ?_
      obtain ⟨rest,hpath,hne⟩ : ∃ rest, WebPath map source rest ∧
          pathWidths map cutIds width nodeId (source::rest) ≠ [] :=
        exists_path hacyclic hlanes hsource
      obtain ⟨z,hz⟩ := List.exists_mem_of_ne_nil _ hne
      exact List.eq_nil_iff_forall_not_mem.mp hempty z
        ((mem_found_iff hnodes).mpr ⟨source,rest,⟨hsource,hpath⟩,hz⟩)
    constructor
    · exact fun hx => ⟨[],trivial,by simpa [pathWidths,hsources] using hx⟩
    · rintro ⟨path,hpath,hx⟩
      cases path with
      | nil => simpa [pathWidths,hsources] using hx
      | cons source rest => simp [WebPath,hsources] at hpath
  · rename_i hfound
    rw [mem_found_iff hnodes]
    constructor
    · exact fun ⟨source,rest,hpath⟩ => ⟨source::rest,hpath⟩
    · rintro ⟨path,hpath,hx⟩
      cases path with
      | nil =>
        obtain ⟨z,hz⟩ := List.exists_mem_of_ne_nil _ hfound
        obtain ⟨source,rest,⟨hsource,-⟩,-⟩ := (mem_found_iff hnodes).mp hz
        simp [pathWidths,List.ne_nil_of_mem hsource] at hx
      | cons source rest => exact ⟨source,rest,hpath,hx⟩

def slitter : ApparatusId := ⟨"apparatus:slitter:1",by decide +kernel⟩

/-- A slitter that cuts the web in two before the lamination. -/
def slitThenLaminate (products : List OrderProduct) : ProductionMapDefinition where
  products := products
  id := "zakaz-1"
  productCode := "P"
  title := "Slit"
  widthMm := some (F64.ofInt 1000)
  nodes := [{ id := "slit", kind := .apparatus, title := "", apparatusId := slitter.value,
              rezkaKadrCount := some 2 },
    { id := "laminate", kind := .apparatus, title := "", apparatusId := "apparatus:laminator:1" }]
  edges := [⟨"slit","laminate",""⟩]

theorem joined_slitThenLaminate (products : List OrderProduct) :
    (∀ edge∈(slitThenLaminate products).edges,
      edge.fromId∈(slitThenLaminate products).nodes.map (·.id) ∧
        edge.toId∈(slitThenLaminate products).nodes.map (·.id)) ∧
      Acyclic (Drawn (slitThenLaminate products)) := by
  refine ⟨by simp [slitThenLaminate],fun id hcycle => ?_⟩
  obtain ⟨_,⟨edge,hedge,hhead,-⟩,-⟩ := TransGen.head'_iff.mp hcycle
  obtain ⟨_,-,edge',hedge',-,htail⟩ := TransGen.tail'_iff.mp hcycle
  rw [mem_singleton.mp hedge] at hhead
  rw [mem_singleton.mp hedge',← hhead] at htail
  simp at htail

theorem mem_stageInputWidths_halves : ∃ path, WebPath (slitThenLaminate []) "laminate" path ∧
    F64.ofInt 500∈pathWidths (slitThenLaminate []) [slitter] (F64.ofInt 1000) "laminate" path :=
  (mem_stageInputWidths_iff rfl (joined_slitThenLaminate []).1 (joined_slitThenLaminate []).2
    (fun h => absurd rfl h) [slitter] "laminate" (F64.ofInt 500)).mp (by decide +kernel)

/-- Where the products have no lane, the slitter has no output, and yet the full width comes. -/
theorem stageInputWidths_without_lanes : ∃ (map : ProductionMapDefinition) (width : F64),
    map.widthMm=some width ∧ (∀ edge∈map.edges, edge.fromId∈map.nodes.map (·.id) ∧
      edge.toId∈map.nodes.map (·.id)) ∧ Acyclic (Drawn map) ∧
    width∈stageInputWidths map [slitter] "laminate" ∧
    ¬ ∃ path, WebPath map "laminate" path ∧ width∈pathWidths map [slitter] width "laminate" path := by
  let map := slitThenLaminate [⟨"p","P","Product",F64.ofInt 100,0⟩]
  have ⟨hwidths,hsources,houtput⟩ : F64.ofInt 1000∈stageInputWidths map [slitter] "laminate" ∧
      webSources map "laminate" = ["slit"] ∧
      cutOutput map [slitter] (F64.ofInt 1000) "slit" = some [] := by decide +kernel
  refine ⟨map,F64.ofInt 1000,rfl,(joined_slitThenLaminate _).1,(joined_slitThenLaminate _).2,hwidths,
    fun ⟨path,hpath,hx⟩ => ?_⟩
  cases path with
  | nil => simp [pathWidths,hsources] at hx
  | cons source rest =>
    have hslit : source = "slit" := by simpa [hsources] using hpath.1
    simp [pathWidths,hslit,houtput] at hx

end MiniErp.Catalog
