import MiniErp.Lib.Matching
import MiniErp.Lib.Run
import MiniErp.Queue.State

/-! What an apparatus must be given before an order may start on it: the slots of its material
rule, the matching of assigned rolls to slots, and the check of the scanned barcodes. -/
namespace MiniErp.Materials
open Text Std Run Queue List

inductive RawMaterialStartPolicy where
  | stateAll
  | requirementGroups
  deriving DecidableEq, Repr

structure ApparatusMaterialRequirementGroup where
  name : String
  itemGroups : List String
  minRequiredCount : Nat
  deriving DecidableEq, Repr

structure ApparatusMaterialRule where
  apparatusId : ApparatusId
  requiresMaterial : Bool
  startPolicy : RawMaterialStartPolicy
  itemGroups : List String
  requirementGroups : List ApparatusMaterialRequirementGroup

structure RawMaterialAssignment where
  orderId : String
  apparatusId : ApparatusId
  apparatus : String
  barcode : String
  itemCode : String
  itemName : String
  itemGroup : String
  assignedByRole : String
  assignedByRef : String
  assignedByDisplayName : String
  assignedAt : String

structure MaterialRequirementSet where
  requirementId : String
  itemGroupIds : List String
  minimumRequiredCount : Nat

inductive MaterialExecutionPolicy where
  | notRequired (itemGroupIds : List String)
  | allRequired (itemGroupIds : List String)
  | requirementSets (sets : List MaterialRequirementSet)

/-- The canonical configuration of an apparatus, as far as the material checks read it. -/
structure RuntimeApparatusConfiguration where
  apparatusId : ApparatusId
  coherentSource : Bool
  policy : MaterialExecutionPolicy
  usesLaminationWorkflow : Bool

def materialRuleRecord (canonical : RuntimeApparatusConfiguration) : ApparatusMaterialRule :=
  match canonical.policy with
  | .notRequired itemGroupIds => ⟨canonical.apparatusId,false,.stateAll,itemGroupIds,[]⟩
  | .allRequired itemGroupIds => ⟨canonical.apparatusId,true,.stateAll,itemGroupIds,[]⟩
  | .requirementSets sets => ⟨canonical.apparatusId,true,.requirementGroups,[],
      sets.map fun set => ⟨set.requirementId,set.itemGroupIds,set.minimumRequiredCount⟩⟩

def liveMaterialRule (canonical : RuntimeApparatusConfiguration) : Option ApparatusMaterialRule :=
  match canonical.policy with
  | .notRequired [] => none
  | _ => some (materialRuleRecord canonical)

/- The slots of a rule and the matching of rolls to them. -/

section
variable (rule : ApparatusMaterialRule)

def materialRequirementSlotCount : Nat :=
  if rule.requirementGroups=[] then rule.itemGroups.length
  else (rule.requirementGroups.map fun group => max group.minRequiredCount 1).sum

/-- One list of accepted item groups for every roll that is needed. -/
def materialRequirementSlots : List (List String) :=
  if rule.requirementGroups=[] then rule.itemGroups.map fun itemGroup => [itemGroup]
  else rule.requirementGroups.flatMap fun group =>
    List.replicate (max group.minRequiredCount 1) group.itemGroups

theorem length_materialRequirementSlots :
    (materialRequirementSlots rule).length=materialRequirementSlotCount rule := by
  unfold materialRequirementSlots materialRequirementSlotCount
  split
  · exact length_map _
  · simp

end

def groupFits (itemGroups : List String) (assignment : RawMaterialAssignment) : Bool :=
  itemGroups.any fun itemGroup => eqIgnoreAsciiCase itemGroup (trim assignment.itemGroup)

section Match
variable (slots : List (List String)) (assignments : List RawMaterialAssignment)

def slotFits (assignmentIndex : Fin assignments.length) (slotIndex : Fin slots.length) : Bool :=
  groupFits (slots.get slotIndex) (assignments.get assignmentIndex)

/-- The recursion of the source, `fuel` calls deep. -/
def tryMatchMaterialAssignment (fuel : Nat) (assignmentIndex : Fin assignments.length)
    (state : Matching.Search (Fin assignments.length) (Fin slots.length)) :
    Option (Bool × Matching.Search (Fin assignments.length) (Fin slots.length)) :=
  Matching.search (slotFits slots assignments) (List.finRange slots.length) fuel assignmentIndex
    state

def matchedSlots : Fin slots.length → Option (Fin assignments.length) :=
  Matching.matchAll (slotFits slots assignments) List.mem_finRange
    (List.finRange assignments.length)

end Match

section
variable (rule : ApparatusMaterialRule) (assignments : List RawMaterialAssignment)

def materialRequirementMatchCountRefs : Nat :=
  Matching.size (matchedSlots (materialRequirementSlots rule) assignments)

def materialRequirementsMetRefs : Bool :=
  materialRequirementMatchCountRefs rule assignments == materialRequirementSlotCount rule

end

def effectiveRequirementGroups (rule : ApparatusMaterialRule) :
    List ApparatusMaterialRequirementGroup :=
  if rule.requirementGroups ≠ [] then rule.requirementGroups
  else rule.itemGroups.map fun itemGroup => ⟨itemGroup,[itemGroup],1⟩

/- The scan. -/

def normalizeBarcode (value : String) : String := toAsciiUppercase (trim value)

def normalizedBarcodesList (values : List String) : TreeSet String :=
  TreeSet.ofList ((values.map normalizeBarcode).filter fun barcode => barcode ≠ "")

structure RawMaterialStartRequirements where
  policy : RawMaterialStartPolicy
  requiresMaterial : Bool
  materialScanRequired : Bool
  requirementGroups : List ApparatusMaterialRequirementGroup
  assignedBarcodes : List String
  stagedBarcodes : List String
  eligibleBarcodes : List String
  requiredScanCount : Nat
  matchedScanCount : Nat
  assignmentsSatisfied : Bool
  scanSatisfied : Bool

def isSubset (left right : TreeSet String) : Bool :=
  left.toList.all fun barcode => right.contains barcode

def scannedAssignments (assignments : List RawMaterialAssignment) (scanned : TreeSet String) :
    List RawMaterialAssignment :=
  assignments.filter fun assignment => scanned.contains (normalizeBarcode assignment.barcode)

def buildRawMaterialStartRequirementsRefs (rule : Option ApparatusMaterialRule)
    (assignments : List RawMaterialAssignment) (stateMaterialBarcodes : List String)
    (scanned : TreeSet String) : RawMaterialStartRequirements :=
  let policy := (rule.map ApparatusMaterialRule.startPolicy).getD .stateAll
  let requiresMaterial := rule.any ApparatusMaterialRule.requiresMaterial
  let assigned : TreeSet String := TreeSet.ofList ((assignments.map fun assignment =>
    normalizeBarcode assignment.barcode).filter fun barcode => barcode ≠ "")
  let staged : TreeSet String := TreeSet.ofList
    ((stateMaterialBarcodes.map normalizeBarcode).filter fun barcode => assigned.contains barcode)
  let assignmentsSatisfied :=
    if assignments=[] then !requiresMaterial
    else !requiresMaterial || policy ≠ .requirementGroups ||
      rule.any fun rule => materialRequirementsMetRefs rule assignments
  let required := (rule.map materialRequirementSlotCount).getD 0
  let matched := (rule.map fun rule =>
    materialRequirementMatchCountRefs rule (scannedAssignments assignments scanned)).getD 0
  { policy := policy
    requiresMaterial := requiresMaterial
    materialScanRequired := requiresMaterial || assignments ≠ []
    requirementGroups := (rule.map effectiveRequirementGroups).getD []
    assignedBarcodes := assigned.toList
    stagedBarcodes := staged.toList
    eligibleBarcodes := match policy with
      | .stateAll => staged.toList
      | .requirementGroups => assigned.toList
    requiredScanCount := match policy with
      | .stateAll => staged.size
      | .requirementGroups => required
    matchedScanCount := match policy with
      | .stateAll => (scanned.toList.filter fun barcode => staged.contains barcode).length
      | .requirementGroups => matched
    assignmentsSatisfied := assignmentsSatisfied
    scanSatisfied := match policy with
      | .stateAll => assignments=[] && !requiresMaterial ||
          assignments ≠ [] && !scanned.isEmpty && isSubset scanned assigned &&
            scanned.toList=staged.toList
      | .requirementGroups => assignments=[] && !requiresMaterial ||
          assignments ≠ [] && isSubset scanned assigned && 0 < required && matched=required }

def parseApparatusId (value : String) : Except ProductionMapError ApparatusId :=
  match ApparatusId.new (trim value) with
  | some apparatusId => .ok apparatusId
  | none => .error .rawMaterialInvalidInput

structure MaterialStore where
  resolveCanonicalApparatus : ApparatusId → Except ProductionMapError RuntimeApparatusConfiguration
  rawMaterialAssignments : List RawMaterialAssignment

namespace MaterialStore
variable (store : MaterialStore)

def validatedMaterialApparatus (apparatus : ApparatusId) :
    Except ProductionMapError RuntimeApparatusConfiguration := do
  let canonical ← store.resolveCanonicalApparatus apparatus
  ensure (!(canonical.apparatusId≠apparatus || !canonical.coherentSource)) .storeFailed
  return canonical

def rawMaterialAssignmentsForOrderApparatus (orderId : String) (apparatus : ApparatusId) :
    List RawMaterialAssignment :=
  store.rawMaterialAssignments.filter fun assignment =>
    trim assignment.orderId=trim orderId && assignment.apparatusId=apparatus

/-- The checks of a start on an apparatus that takes materials. -/
def checkScan (canonical : RuntimeApparatusConfiguration) (rule : ApparatusMaterialRule)
    (assignments : List RawMaterialAssignment) (stateMaterialBarcodes : List String)
    (scanned : TreeSet String) : Except ProductionMapError Unit :=
  let requirements := buildRawMaterialStartRequirementsRefs (some rule) assignments
    stateMaterialBarcodes scanned
  if assignments=[] then do
    ensure scanned.isEmpty .rawMaterialMismatch
    ensure (canonical.usesLaminationWorkflow || requirements.assignmentsSatisfied)
      .rawMaterialAssignmentNotFound
  else do
    ensure requirements.assignmentsSatisfied .rawMaterialAssignmentNotFound
    ensure (!scanned.isEmpty) .rawMaterialScanRequired
    let assigned : TreeSet String := TreeSet.ofList
      (assignments.map fun assignment => normalizeBarcode assignment.barcode)
    ensure (isSubset scanned assigned) .rawMaterialMismatch
    match rule.startPolicy with
    | .stateAll => do
      let staged : TreeSet String := TreeSet.ofList ((stateMaterialBarcodes.map
        normalizeBarcode).filter fun barcode => assigned.contains barcode)
      ensure (!staged.isEmpty) .rawMaterialStateNotReady
      ensure requirements.scanSatisfied .rawMaterialScanIncomplete
    | .requirementGroups => ensure requirements.scanSatisfied .rawMaterialRequirementNotMet

def validateMaterialScan (apparatus orderId : String) (action : ApparatusQueueAction)
    (materialBarcodes stateMaterialBarcodes : List String) : Except ProductionMapError Unit :=
  if action ≠ .start then .ok ()
  else do
    let apparatusId ← parseApparatusId apparatus
    let canonical ← store.validatedMaterialApparatus apparatusId
    let scanned := normalizedBarcodesList materialBarcodes
    match liveMaterialRule canonical with
    | none => ensure scanned.isEmpty .rawMaterialMismatch
    | some rule =>
      checkScan canonical rule
        (store.rawMaterialAssignmentsForOrderApparatus orderId apparatusId)
        stateMaterialBarcodes scanned

end MaterialStore

/- The matching is maximum. -/

section Match
variable {slots : List (List String)} {assignments : List RawMaterialAssignment}

section
variable (slots : List (List String)) (assignments : List RawMaterialAssignment)

theorem matchedSlots_isGreatest :
    IsGreatest {k | ∃ M, Matching.IsMatching (slotFits slots assignments) M ∧ Matching.size M=k}
      (Matching.size (matchedSlots slots assignments)) :=
  Matching.matchAll_isGreatest mem_finRange (nodup_finRange _) mem_finRange

def Fillable : Prop :=
  ∃ choice : Fin slots.length → Fin assignments.length, Function.Injective choice ∧
    ∀ slot, groupFits (slots.get slot) (assignments.get (choice slot))=true

end

section
variable (rule : ApparatusMaterialRule) (assignments : List RawMaterialAssignment)

theorem matchCount_eq_iff :
    materialRequirementMatchCountRefs rule assignments=materialRequirementSlotCount rule ↔
      Fillable (materialRequirementSlots rule) assignments := by
  have hgreatest := matchedSlots_isGreatest (materialRequirementSlots rule) assignments
  rw [← length_materialRequirementSlots,← Fintype.card_fin (materialRequirementSlots rule).length]
  exact Matching.greatest_eq_card_iff hgreatest

theorem materialRequirementsMetRefs_iff : materialRequirementsMetRefs rule assignments=true ↔
      Fillable (materialRequirementSlots rule) assignments := by
  rw [materialRequirementsMetRefs,beq_iff_eq,matchCount_eq_iff]

end

end Match

/- What an accepted scan implies. -/

theorem mem_isSubset {left right : TreeSet String} (h : isSubset left right=true)
    {barcode : String} (hmem : barcode∈left) : right.contains barcode=true := by
  rw [isSubset,all_eq_true] at h
  exact h barcode (TreeSet.mem_toList.mpr hmem)

namespace MaterialStore
variable {store : MaterialStore}

theorem checkScan_ok {canonical : RuntimeApparatusConfiguration} {rule : ApparatusMaterialRule}
    {assignments : List RawMaterialAssignment} {stateMaterialBarcodes : List String}
    {scanned : TreeSet String} (hpolicy : rule.startPolicy=.requirementGroups)
    (hassigned : assignments ≠ [])
    (h : checkScan canonical rule assignments stateMaterialBarcodes scanned=.ok ()) :
    (∀ barcode∈scanned, ∃ assignment∈assignments, normalizeBarcode assignment.barcode=barcode) ∧
    Fillable (materialRequirementSlots rule) (scannedAssignments assignments scanned) := by
  simp only [checkScan,if_neg hassigned,ensure_bind_eq_ok,hpolicy,ensure_eq_ok] at h
  obtain ⟨-,-,hsubset,hscan⟩ := h
  constructor
  · intro barcode hbarcode
    have hcontains := mem_isSubset hsubset hbarcode
    simpa using hcontains
  · simp [buildRawMaterialStartRequirementsRefs,hpolicy,hassigned] at hscan
    exact (matchCount_eq_iff rule _).mp hscan.2

end MaterialStore

theorem barcode_injective {assignments : List RawMaterialAssignment} {scanned : TreeSet String}
    (h : (assignments.map fun assignment => normalizeBarcode assignment.barcode).Nodup) :
    Function.Injective fun index => normalizeBarcode
      ((scannedAssignments assignments scanned).get index).barcode := by
  have hnodup : ((scannedAssignments assignments scanned).map fun assignment =>
      normalizeBarcode assignment.barcode).Nodup :=
    h.sublist (filter_sublist.map _)
  intro i j hij
  have hget := nodup_iff_injective_get.mp hnodup
  have hindex := @hget (i.cast (length_map _).symm) (j.cast (length_map _).symm)
    (by simpa using hij)
  simpa using hindex

/-- The match count is the size of a maximum matching of assigned rolls and slots, and the search
behind it ends with one answer for every amount of fuel beyond the number of slots; so the
requirements are met exactly when distinct rolls can be chosen for all slots. A start that the
scan check accepts under requirement groups has scanned only rolls assigned to this order and
apparatus, and distinct scanned rolls fill every slot. -/
theorem material_matching_maximum :
    (∀ (rule : ApparatusMaterialRule) (assignments : List RawMaterialAssignment),
      IsGreatest {k | ∃ M, Matching.IsMatching
        (slotFits (materialRequirementSlots rule) assignments) M ∧ Matching.size M=k}
        (materialRequirementMatchCountRefs rule assignments)) ∧
    (∀ (slots : List (List String)) (assignments : List RawMaterialAssignment)
      (assignmentIndex : Fin assignments.length)
      (state : Matching.Search (Fin assignments.length) (Fin slots.length)),
      ∃ answer, ∀ fuel, slots.length<fuel →
        tryMatchMaterialAssignment slots assignments fuel assignmentIndex state=some answer) ∧
    (∀ (rule : ApparatusMaterialRule) (assignments : List RawMaterialAssignment),
      materialRequirementsMetRefs rule assignments=true ↔
        Fillable (materialRequirementSlots rule) assignments) ∧
    (∀ (store : MaterialStore) (apparatus orderId : String)
      (materialBarcodes stateMaterialBarcodes : List String) (apparatusId : ApparatusId)
      (canonical : RuntimeApparatusConfiguration) (rule : ApparatusMaterialRule),
      parseApparatusId apparatus=.ok apparatusId →
      store.validatedMaterialApparatus apparatusId=.ok canonical →
      liveMaterialRule canonical=some rule → rule.startPolicy=.requirementGroups →
      store.rawMaterialAssignmentsForOrderApparatus orderId apparatusId ≠ [] →
      store.validateMaterialScan apparatus orderId .start materialBarcodes stateMaterialBarcodes =
        .ok () →
      let scanned := normalizedBarcodesList materialBarcodes
      let rolls := scannedAssignments
        (store.rawMaterialAssignmentsForOrderApparatus orderId apparatusId) scanned
      (∀ barcode∈scanned, ∃ assignment∈store.rawMaterialAssignments,
        trim assignment.orderId=trim orderId ∧ assignment.apparatusId=apparatusId ∧
          normalizeBarcode assignment.barcode=barcode) ∧
      Fillable (materialRequirementSlots rule) rolls ∧
      ((store.rawMaterialAssignments.map fun assignment =>
          normalizeBarcode assignment.barcode).Nodup →
        Function.Injective fun index => normalizeBarcode (rolls.get index).barcode)) := by
  refine ⟨fun rule assignments => matchedSlots_isGreatest _ assignments,?_,
    materialRequirementsMetRefs_iff,?_⟩
  · intro slots assignments assignmentIndex state
    obtain ⟨answer,hanswer⟩ := Matching.search_terminates
      (List.mem_finRange : ∀ slot : Fin slots.length, _) assignmentIndex state
    exact ⟨answer,fun fuel hfuel => hanswer fuel (by simpa using hfuel)⟩
  · intro store apparatus orderId materialBarcodes stateMaterialBarcodes apparatusId canonical rule
      hparse hcanonical hrule hpolicy hassigned haccepted
    simp only [MaterialStore.validateMaterialScan,hparse,hcanonical,ne_eq,not_true_eq_false,
      if_false,bind_eq_ok,Except.ok.injEq,exists_eq_left',hrule] at haccepted
    obtain ⟨hscanned,hfill⟩ := MaterialStore.checkScan_ok hpolicy hassigned haccepted
    refine ⟨?_,hfill,?_⟩
    · intro barcode hbarcode
      obtain ⟨assignment,hmem,hsame⟩ := hscanned barcode hbarcode
      simp only [MaterialStore.rawMaterialAssignmentsForOrderApparatus,List.mem_filter,
        Bool.and_eq_true,decide_eq_true_eq] at hmem
      exact ⟨assignment,hmem.1,hmem.2.1,hmem.2.2,hsame⟩
    · intro hnodup
      exact barcode_injective (hnodup.sublist (List.filter_sublist.map _))

def flexoId : ApparatusId := ⟨"apparatus:catalog:flexo-001",by decide +kernel⟩

def flexo : RuntimeApparatusConfiguration where
  apparatusId := flexoId
  coherentSource := true
  policy := .requirementSets [⟨"flexible",["Kraska","Rastvoritel"],1⟩,⟨"ink",["kraska"],1⟩]
  usesLaminationWorkflow := false

def assignedRoll (barcode itemGroup : String) : RawMaterialAssignment :=
  ⟨"zakaz-1",flexoId,"apparatus:catalog:flexo-001",barcode,itemGroup,itemGroup,itemGroup,
    "admin","admin","Admin","now"⟩

def flexoStore : MaterialStore where
  resolveCanonicalApparatus _ := .ok flexo
  rawMaterialAssignments := [assignedRoll "INK-1" "Kraska",assignedRoll "SOLVENT-1" "Rastvoritel"]

/-- The ink takes the first slot, and gives it up to the solvent. -/
theorem material_matching_maximum_flexo :
    materialRequirementMatchCountRefs (materialRuleRecord flexo) flexoStore.rawMaterialAssignments =
      2 ∧
    flexoStore.validateMaterialScan "apparatus:catalog:flexo-001" "zakaz-1" .start
      ["ink-1"," solvent-1"] []=.ok () ∧
    Fillable (materialRequirementSlots (materialRuleRecord flexo))
      (scannedAssignments (flexoStore.rawMaterialAssignmentsForOrderApparatus "zakaz-1" flexoId)
        (normalizedBarcodesList ["ink-1"," solvent-1"])) := by
  have haccepted : flexoStore.validateMaterialScan "apparatus:catalog:flexo-001" "zakaz-1" .start
      ["ink-1"," solvent-1"] []=.ok () := by
    have hresult : (flexoStore.validateMaterialScan "apparatus:catalog:flexo-001" "zakaz-1" .start
        ["ink-1"," solvent-1"] []).toOption=some () := by
      decide +kernel
    exact toOption_eq_some.mp hresult
  have hassigned : flexoStore.rawMaterialAssignmentsForOrderApparatus "zakaz-1" flexoId ≠ [] := by
    decide +kernel
  have hrule : liveMaterialRule flexo=some (materialRuleRecord flexo) := rfl
  refine ⟨by decide +kernel,haccepted,?_⟩
  exact (material_matching_maximum.2.2.2 flexoStore "apparatus:catalog:flexo-001" "zakaz-1"
    ["ink-1"," solvent-1"] [] flexoId flexo (materialRuleRecord flexo)
    (toOption_eq_some.mp (by decide +kernel)) (toOption_eq_some.mp rfl) hrule rfl hassigned
    haccepted).2.1

end MiniErp.Materials
