import Mathlib.Data.List.Nodup
import MiniErp.Lib.Binary64
import MiniErp.Types

/-! The production map of an order: a drawn graph of nodes and edges with the data of the
order. Absent fields take the defaults that deserialisation gives them. -/
namespace MiniErp
open List

structure ComboReference where
  id : String
  itemCode : String
  name : String
  revision : Int
  layoutFingerprint : String
  deriving DecidableEq, Repr

structure OrderProduct where
  id : String
  itemCode : String
  product : String
  frameProductSizeMm : F64
  frameCount : Int
  deriving DecidableEq, Repr

inductive ProductionMapNodeKind where
  | start
  | location
  | material
  | apparatus
  | kkProduct
  | formula
  | condition
  | task
  | wait
  | output
  | endNode
  deriving DecidableEq, Repr

structure ProductionFormula where
  target : String
  expression : String
  deriving DecidableEq, Repr

structure ProductionMapNode where
  id : String
  kind : ProductionMapNodeKind
  title : String
  apparatusId : String := ""
  formula : Option ProductionFormula := none
  roleCode : String := ""
  itemCode : String := ""
  qtyFormula : String := ""
  fromLocation : String := ""
  toLocation : String := ""
  alternativeGroupId : String := ""
  alternativeGroupLabel : String := ""
  alternativeAssignedTitle : String := ""
  alternativeAssignedApparatusId : String := ""
  rezkaKadrCount : Option Int := none
  rezkaFrameGroups : List Int := []
  rezkaLabelLength : Option F64 := none
  x : F64 := F64.zero
  y : F64 := F64.zero
  deriving DecidableEq, Repr

structure ProductionMapEdge where
  fromId : String
  toId : String
  branch : String := ""
  deriving DecidableEq, Repr

structure ProductionMapDefinition where
  combo : Option ComboReference := none
  products : List OrderProduct := []
  id : String
  productCode : String
  title : String
  code : String := ""
  orderNumber : String := ""
  customerName : String := ""
  imageId : String := ""
  rollCount : Option Int := none
  widthMm : Option F64 := none
  printValSizeMm : Option F64 := none
  orderKg : Option F64 := none
  baseLength : Option F64 := none
  duplicateRezkaLabels : Option Bool := none
  includeBobinaInNet : Option Bool := none
  standardPrintSide : Option Bool := none
  nodes : List ProductionMapNode := []
  edges : List ProductionMapEdge := []
  deriving DecidableEq, Repr

/-- The first node with the given identity, compared as written. -/
def ProductionMapDefinition.nodeById (map : ProductionMapDefinition) (id : String) :
    Option ProductionMapNode :=
  map.nodes.find? fun node => node.id == id

/-- The first node with the given identity, compared without surrounding blanks. -/
def ProductionMapDefinition.nodeByTrimmedId (map : ProductionMapDefinition) (id : String) :
    Option ProductionMapNode :=
  map.nodes.find? fun node => Text.trim node.id == id

/-- The identities of the nodes are trimmed, not blank and pairwise distinct. -/
@[mk_iff] structure CleanIds (map : ProductionMapDefinition) : Prop where
  trimmed : ∀ node∈map.nodes, Text.trim node.id=node.id
  nonblank : ∀ node∈map.nodes, Text.trim node.id ≠ ""
  distinct : (map.nodes.map fun node => Text.trim node.id).Nodup

instance (map : ProductionMapDefinition) : Decidable (CleanIds map) :=
  decidable_of_iff _ (cleanIds_iff map).symm

variable {map : ProductionMapDefinition} {node : ProductionMapNode}

theorem nodeById_eq_some {id : String}
    (h : map.nodeById id=some node) : node∈map.nodes ∧ node.id=id := by
  have hid := find?_some h
  exact ⟨mem_of_find?_eq_some h,by simpa using hid⟩

theorem nodeById_of_nodup (h : (map.nodes.map (·.id)).Nodup)
    (hnode : node∈map.nodes) : map.nodeById node.id=some node := by
  cases hfind : map.nodeById node.id with
  | none =>
    have hnone := find?_eq_none.mp hfind node hnode
    simp at hnone
  | some found =>
    obtain ⟨hmem,hid⟩ := nodeById_eq_some hfind
    rw [inj_on_of_nodup_map h hmem hnode hid]

theorem nodeByTrimmedId_eq_some {id : String}
    (h : map.nodeByTrimmedId id=some node) : node∈map.nodes ∧ Text.trim node.id=id := by
  have hid := find?_some h
  exact ⟨mem_of_find?_eq_some h,by simpa using hid⟩

theorem CleanIds.eq_of_trim (h : CleanIds map) {a b : ProductionMapNode} (ha : a∈map.nodes)
    (hb : b∈map.nodes) (hab : Text.trim a.id=Text.trim b.id) : a=b :=
  inj_on_of_nodup_map h.distinct ha hb hab

theorem CleanIds.nodeByTrimmedId_trim (h : CleanIds map)
    (hnode : node∈map.nodes) : map.nodeByTrimmedId (Text.trim node.id)=some node := by
  cases hfind : map.nodeByTrimmedId (Text.trim node.id) with
  | none =>
    have hnone := find?_eq_none.mp hfind node hnode
    simp at hnone
  | some found =>
    obtain ⟨hmem,hid⟩ := nodeByTrimmedId_eq_some hfind
    rw [h.eq_of_trim hmem hnode hid]

end MiniErp
