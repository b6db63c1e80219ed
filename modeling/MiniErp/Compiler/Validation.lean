import Mathlib.Algebra.Ring.Int.Defs
import MiniErp.Compiler.Normalize
import MiniErp.Lib.Run

/-! The checks a map must pass before it is compiled, in the order of the source: the order's
layout, its texts, every node, the edges and the branches of conditions. -/
namespace MiniErp.Compiler
open Text Run List

/-- What the compiler takes from other parts of the program: the Unicode letters and digits, the
checks of formula and condition expressions, and the decimal text of a number. -/
structure CompilerRules where
  isAlphanumeric : Char → Bool
  validateFormulaExpression : String → Except ProductionMapError Unit
  validateConditionExpression : String → Except ProductionMapError Unit
  numberText : F64 → String

namespace OrderLayout

def isProductIdChar (c : Char) : Bool :=
  isAsciiLowercase c || ('A' ≤ c && c ≤ 'Z') || isAsciiDigit c || c == '-' || c == '_'

def usefulWidth (products : List OrderProduct) : F64 :=
  products.foldl (fun sum p => sum.add (p.frameProductSizeMm.scale p.frameCount)) F64.zero

/-- The loop over the products; `index` counts from one in the messages. -/
def validateBlocks (seen : List String) (index : Nat) : List OrderProduct → Except String Unit
  | [] => .ok ()
  | product::rest => do
    ensure (product.id != "" && decide (product.id.utf8ByteSize≤100) &&
        product.id.toList.all isProductIdChar && !seen.contains product.id &&
        !isBlank product.itemCode && !isBlank product.product)
      s!"{index}-mahsulotni tanlang"
    ensure (product.frameProductSizeMm.isFinite && !product.frameProductSizeMm.isNonpositive &&
        decide (1≤product.frameCount) && decide (product.frameCount≤1024))
      s!"{index}-mahsulotning kadr eni yoki soni noto‘g‘ri"
    validateBlocks (product.id::seen) (index+1) rest

def validateProducts (products : List OrderProduct) : Except String Unit := do
  ensure (decide (products.length≤64)) "Ko‘pi bilan 64 ta mahsulot bloki kiritish mumkin"
  validateBlocks [] 1 products
  ensure (decide ((products.map (·.frameCount)).sum≤1024) && (usefulWidth products).isFinite)
    "Jami kadr soni 1024 dan oshmasligi va en to‘g‘ri bo‘lishi kerak"

end OrderLayout

def isIdentifier (value : String) : Bool :=
  let letter (c : Char) : Bool := isAsciiLowercase c || ('A' ≤ c && c ≤ 'Z') || c == '_'
  match value.toList with
  | [] => false
  | first::rest => letter first && rest.all fun c => letter c || isAsciiDigit c

def validateFormulaTarget (target : String) : Except ProductionMapError Unit :=
  ensure (isIdentifier (trim target)) (.invalidFormulaTarget target)

def validateLocationRef (rules : CompilerRules) (location : String) :
    Except ProductionMapError Unit :=
  let location := trim location
  let allowed (c : Char) : Bool :=
    rules.isAlphanumeric c || isWhitespace c || ['-','_','.','/','(',')'].contains c
  ensure (location == "" ||
      (decide (location.utf8ByteSize≤120) && location.toList.any rules.isAlphanumeric &&
        location.toList.all allowed))
    (.invalidLocation location)

/-- The running total of the groups is an `i64`, whose overflow is an error of its own. -/
def frameGroupsTotal (total : Int) : List Int → Option Int
  | [] => some total
  | group::rest => if 0<group ∧ total+group<2^63 then frameGroupsTotal (total+group) rest else none

def validateRezkaFrameGroups (node : ProductionMapNode) : Except ProductionMapError Unit :=
  if node.rezkaFrameGroups.isEmpty then .ok ()
  else
    match node.rezkaKadrCount.filter fun value => decide (0<value) with
    | none => .error .invalidRezkaFrameGroups
    | some expected =>
      ensure (frameGroupsTotal 0 node.rezkaFrameGroups == some expected) .invalidRezkaFrameGroups

/-- An assigned machine must be a member of the node's own alternative group. -/
def validateApparatusIdentity (map : ProductionMapDefinition) (node : ProductionMapNode) :
    Except ProductionMapError Unit := do
  ensure (ApparatusId.isValid (trim node.apparatusId)) .missingId
  let assignedId := trim node.alternativeAssignedApparatusId
  if assignedId = "" then ensure (isBlank node.alternativeAssignedTitle) .missingId
  else
    ensure (ApparatusId.isValid assignedId) .missingId
    let groupId := trim node.alternativeGroupId
    ensure (groupId != "" && map.nodes.any fun candidate =>
        candidate.kind == .apparatus && trim candidate.alternativeGroupId == groupId &&
          trim candidate.apparatusId == assignedId)
      .missingId

def validateQtyFormula (rules : CompilerRules) (node : ProductionMapNode) :
    Except ProductionMapError Unit :=
  if isBlank node.qtyFormula then .ok () else rules.validateFormulaExpression node.qtyFormula

def validateNodeKind (rules : CompilerRules) (map : ProductionMapDefinition)
    (node : ProductionMapNode) : Except ProductionMapError Unit :=
  match node.kind with
  | .start | .endNode | .location => .ok ()
  | .formula =>
    match node.formula with
    | none => .error .missingFormulaExpression
    | some formula => do
      ensure (!isBlank formula.target) .missingFormulaTarget
      ensure (!isBlank formula.expression) .missingFormulaExpression
      validateFormulaTarget formula.target
      rules.validateFormulaExpression formula.expression
  | .condition =>
    match node.formula with
    | none => .error .missingFormulaExpression
    | some formula => do
      ensure (!isBlank formula.expression) .missingFormulaExpression
      rules.validateConditionExpression formula.expression
  | .apparatus => do
    validateApparatusIdentity map node
    validateRezkaFrameGroups node
    validateQtyFormula rules node
  | .material | .kkProduct | .task | .wait | .output => validateQtyFormula rules node

/-- The loop over the nodes, with the identities met so far. -/
def validateNodes (rules : CompilerRules) (map : ProductionMapDefinition) (seen : List String) :
    List ProductionMapNode → Except ProductionMapError Unit
  | [] => .ok ()
  | node::rest => do
    ensure (!seen.contains node.id) (.duplicateNode node.id)
    validateNodeKind rules map node
    validateLocationRef rules node.fromLocation
    validateLocationRef rules node.toLocation
    validateNodes rules map (node.id::seen) rest

section
variable (map : ProductionMapDefinition)

def validateEdge (edge : ProductionMapEdge) : Except ProductionMapError Unit := do
  ensure ((map.nodes.map (·.id)).contains edge.fromId) (.missingEdgeNode edge.fromId)
  ensure ((map.nodes.map (·.id)).contains edge.toId) (.missingEdgeNode edge.toId)

def validateBranches (node : ProductionMapNode) : Except ProductionMapError Unit :=
  let has (branch : String) : Bool :=
    map.edges.any fun edge => edge.fromId == node.id && normalizeBranch edge.branch == branch
  ensure (node.kind != .condition || (has "true" && has "false")) .missingConditionBranch

def validateCombo : Except ProductionMapError Unit :=
  match map.combo with
  | none => .ok ()
  | some combo =>
    ensure (!map.products.isEmpty && decide (1 ≤ combo.revision) && combo.id != "" &&
      map.productCode == combo.itemCode && map.title == combo.name) .progressInputInvalid

def countKind (kind : ProductionMapNodeKind) : Nat := map.nodes.countP fun node => node.kind == kind

end

def validateMap (rules : CompilerRules) (map : ProductionMapDefinition) :
    Except ProductionMapError Unit := do
  validateCombo map
  (OrderLayout.validateProducts map.products).mapError fun _ => .progressInputInvalid
  ensure (map.printValSizeMm.all fun size => size.isFinite && !size.isNonpositive)
    .invalidPrintValSize
  ensure (!isBlank map.id) .missingId
  ensure (!isBlank map.productCode) .missingProductCode
  ensure (!isBlank map.title) .missingTitle
  validateNodes rules map [] map.nodes
  ensure (countKind map .start == 1) .missingStart
  ensure (countKind map .endNode == 1) .missingEnd
  map.edges.forM (validateEdge map)
  map.nodes.forM (validateBranches map)

variable {map : ProductionMapDefinition} {rules : CompilerRules}

theorem validateNodes_eq_ok {seen : List String} {nodes : List ProductionMapNode}
    (h : validateNodes rules map seen nodes=.ok ()) : (nodes.map (·.id)).Nodup ∧
    (∀ node∈nodes, node.id∉seen) ∧ ∀ node∈nodes, validateNodeKind rules map node=.ok () := by
  induction nodes generalizing seen with
  | nil => simp
  | cons node rest ih =>
    rw [validateNodes,ensure_bind_eq_ok,bind_eq_ok] at h
    obtain ⟨hnew,_,hkind,h⟩ := h
    rw [bind_eq_ok] at h
    obtain ⟨_,_,h⟩ := h
    rw [bind_eq_ok] at h
    obtain ⟨_,_,h⟩ := h
    obtain ⟨hnodup,hfresh,hkinds⟩ := ih h
    have hnotin : node.id∉rest.map (·.id) := by
      rw [mem_map]
      rintro ⟨other,hother,heq⟩
      exact hfresh other hother (heq ▸ mem_cons_self)
    refine ⟨nodup_cons.mpr ⟨hnotin,hnodup⟩,?_,forall_mem_cons.mpr ⟨hkind,hkinds⟩⟩
    refine forall_mem_cons.mpr ⟨by simpa using hnew,fun other hother hseen => ?_⟩
    exact hfresh other hother (mem_cons_of_mem _ hseen)

theorem validateApparatusIdentity_eq_ok
    {node : ProductionMapNode} (h : validateApparatusIdentity map node=.ok ()) :
    ApparatusId.isValid (trim node.apparatusId)=true ∧
      (trim node.alternativeAssignedApparatusId ≠ "" → trim node.alternativeGroupId ≠ "") := by
  rw [validateApparatusIdentity,ensure_bind_eq_ok] at h
  refine ⟨h.1,fun hassigned => ?_⟩
  have hgroup := h.2
  simp only [if_neg hassigned,ensure_bind_eq_ok,ensure_eq_ok,Bool.and_eq_true,bne_iff_ne] at hgroup
  exact hgroup.2.1

/-- What the rest of the development uses of a validated map. -/
structure Validated (map : ProductionMapDefinition) : Prop where
  distinct : (map.nodes.map (·.id)).Nodup
  identity : ∀ node∈map.nodes, node.kind=.apparatus →
    ApparatusId.isValid (trim node.apparatusId)=true ∧
      (trim node.alternativeAssignedApparatusId ≠ "" → trim node.alternativeGroupId ≠ "")
  edges : ∀ edge∈map.edges, edge.fromId∈map.nodes.map (·.id) ∧ edge.toId∈map.nodes.map (·.id)

theorem validateMap_eq_ok (h : validateMap rules map=.ok ()) :
    validateNodes rules map [] map.nodes=.ok () ∧ countKind map .start=1 ∧
      countKind map .endNode=1 ∧ (∀ edge∈map.edges, validateEdge map edge=.ok ()) ∧
      ∀ node∈map.nodes, validateBranches map node=.ok () := by
  unfold validateMap at h
  simp only [bind_eq_ok,ensure_eq_ok,forM_eq_ok,beq_iff_eq] at h
  obtain ⟨_,_,_,_,_,_,_,_,_,_,_,_,_,hnodes,_,hstart,_,hend,_,hedges,hbranches⟩ := h
  exact ⟨hnodes,hstart,hend,forM_eq_ok.mp hedges,hbranches⟩

theorem validated_of_validateMap (h : validateMap rules map=.ok ()) : Validated map := by
  obtain ⟨hnodes,_,_,hedges,_⟩ := validateMap_eq_ok h
  obtain ⟨hdistinct,_,hkinds⟩ := validateNodes_eq_ok hnodes
  refine ⟨hdistinct,fun node hnode hkind => ?_,fun edge hedge => ?_⟩
  · have hnode := hkinds node hnode
    simp only [validateNodeKind,hkind] at hnode
    rw [bind_eq_ok] at hnode
    obtain ⟨_,hidentity,_⟩ := hnode
    exact validateApparatusIdentity_eq_ok hidentity
  · have hedge := hedges edge hedge
    simp only [validateEdge,ensure_bind_eq_ok,ensure_eq_ok,contains_iff_mem] at hedge
    exact hedge

end MiniErp.Compiler
