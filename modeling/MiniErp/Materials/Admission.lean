import MiniErp.Materials.Requirements

/-! Admission of a roll against its use. A roll is accepted for an apparatus through its whole
path of item groups, its own group and the ancestors; the start requirements compare the stored
group alone. -/
namespace MiniErp.Materials
open Text Std Run List

def itemGroupsMatch (groups itemGroupPath : List String) : Bool :=
  groups.any fun group => itemGroupPath.any fun candidate =>
    eqIgnoreAsciiCase (trim group) (trim candidate)

def ruleMatches (rule : ApparatusMaterialRule) (apparatus : ApparatusId)
    (itemGroupPath : List String) : Bool :=
  rule.apparatusId=apparatus && (itemGroupsMatch rule.itemGroups itemGroupPath ||
    rule.requirementGroups.any fun group => itemGroupsMatch group.itemGroups itemGroupPath)

/-- The groups whose folded name was not seen before. -/
def unseenGroups (toLowercase : String → String) (seen : List String) : List String → List String
  | [] => []
  | group::rest =>
    if toLowercase group∈seen then unseenGroups toLowercase seen rest
    else group::unseenGroups toLowercase (toLowercase group::seen) rest

/-- `toLowercase` is the folding of the standard library, of all scripts. -/
def normalizeGroupPath (toLowercase : String → String) (itemGroup : String)
    (itemGroupPath : List String) : List String :=
  unseenGroups toLowercase [] (((itemGroup::itemGroupPath).map trim).filter fun group => group ≠ "")

structure RawMaterialAssignmentInput where
  orderId : String
  barcode : String
  itemCode : String
  itemName : String
  itemGroup : String
  itemGroupPath : List String
  apparatus : String

/-- What an assignment reads: the apparatuses of the order's work stages that the selection of
alternatives leaves, each with its live rule, and the rolls assigned so far. -/
structure AssignmentContext where
  toLowercase : String → String
  workStages : String → Except ProductionMapError (List (ApparatusId × Option ApparatusMaterialRule))
  assignments : List RawMaterialAssignment
  actor : QueueActionActor
  assignedAt : String

def blankDefault (value fallback : String) : String :=
  if isBlank value then trim fallback else trim value

def parseOptionalApparatusId (value : String) : Except ProductionMapError (Option ApparatusId) :=
  if isBlank value then .ok none else (parseApparatusId value).map some

namespace AssignmentContext
variable (ctx : AssignmentContext)

def apparatusOptions (orderId : String) (itemGroupPath : List String) :
    Except ProductionMapError (List ApparatusId) := do
  ensure (!(trim orderId = "" || itemGroupPath=[])) .rawMaterialInvalidInput
  let stages ← ctx.workStages (trim orderId)
  let matching := stages.filter fun stage =>
    stage.2.any fun rule => ruleMatches rule stage.1 itemGroupPath
  return ((matching.map Prod.fst).mergeSort fun left right => left.value ≤ right.value).eraseDups

def chooseApparatus (options : List ApparatusId) (requested : Option ApparatusId) :
    Except ProductionMapError ApparatusId :=
  match requested, options with
  | some requested, options =>
    if requested∈options then .ok requested else .error .rawMaterialGroupNotAllowed
  | none, [] => .error .rawMaterialGroupNotAllowed
  | none, [apparatusId] => .ok apparatusId
  | none, options => .error (.rawMaterialGroupAmbiguous (options.map ApparatusId.value))

def checkUnassigned (orderId barcode : String) (apparatusId : ApparatusId) :
    Except ProductionMapError Unit :=
  match ctx.assignments.find? fun existing => normalizeBarcode existing.barcode=barcode with
  | none => .ok ()
  | some existing =>
    if trim existing.orderId=orderId ∧ existing.apparatusId=apparatusId then
      .error .rawMaterialAlreadyAssignedToOrder
    else .error .rawMaterialAlreadyAssigned

def prepareRawMaterialAssignment (input : RawMaterialAssignmentInput) :
    Except ProductionMapError RawMaterialAssignment := do
  let orderId := trim input.orderId
  let barcode := normalizeBarcode input.barcode
  let itemCode := trim input.itemCode
  let itemGroup := trim input.itemGroup
  let itemGroupPath := normalizeGroupPath ctx.toLowercase itemGroup input.itemGroupPath
  ensure (!(orderId = "" || barcode = "" || itemCode = "" || itemGroup = ""))
    .rawMaterialInvalidInput
  let options ← ctx.apparatusOptions orderId itemGroupPath
  let requested ← parseOptionalApparatusId input.apparatus
  let apparatusId ← chooseApparatus options requested
  ctx.checkUnassigned orderId (normalizeBarcode barcode) apparatusId
  return {
    orderId := orderId
    apparatusId := apparatusId
    apparatus := apparatusId.value
    barcode := barcode
    itemCode := itemCode
    itemName := blankDefault input.itemName input.itemCode
    itemGroup := itemGroup
    assignedByRole := trim ctx.actor.role
    assignedByRef := trim ctx.actor.ref
    assignedByDisplayName := trim ctx.actor.displayName
    assignedAt := ctx.assignedAt }

end AssignmentContext

/-- An item group with its ancestors. -/
structure Material where
  itemGroup : String
  ancestors : List String
  named : trim itemGroup ≠ ""

namespace Material

section
variable (material : Material)

def groupPath (toLowercase : String → String) : List String :=
  normalizeGroupPath toLowercase (trim material.itemGroup) material.ancestors

def pathFits (toLowercase : String → String) (slot : List String) : Bool :=
  itemGroupsMatch slot (material.groupPath toLowercase)

def ownFits (slot : List String) : Bool :=
  slot.any fun itemGroup => eqIgnoreAsciiCase itemGroup (trim material.itemGroup)

theorem mem_groupPath (toLowercase : String → String) :
    trim material.itemGroup∈material.groupPath toLowercase := by
  have hnamed : trim material.itemGroup ≠ "" := material.named
  simp [groupPath,normalizeGroupPath,hnamed,unseenGroups]

end

theorem pathFits_of_ownFits {material : Material} {toLowercase : String → String}
    {slot : List String} (h : material.ownFits slot=true) :
    material.pathFits toLowercase slot=true := by
  obtain ⟨itemGroup,hmem,hsame⟩ := any_eq_true.mp h
  apply any_eq_true.mpr
  refine ⟨itemGroup,hmem,any_eq_true.mpr ⟨_,material.mem_groupPath toLowercase,?_⟩⟩
  exact eqIgnoreAsciiCase_trim hsame

end Material

/-- A roll that the rule of its apparatus accepted through its path, stored under its group. -/
structure AcceptedRoll (toLowercase : String → String) (rule : ApparatusMaterialRule) where
  material : Material
  assignment : RawMaterialAssignment
  grouped : assignment.itemGroup=trim material.itemGroup
  accepted : ruleMatches rule assignment.apparatusId (material.groupPath toLowercase)=true

/-- Every prepared assignment is an accepted roll of one of the order's apparatuses. -/
theorem accepted_of_prepared {ctx : AssignmentContext} {input : RawMaterialAssignmentInput}
    {assignment : RawMaterialAssignment}
    (h : ctx.prepareRawMaterialAssignment input=.ok assignment) :
    ∃ (stages : List (ApparatusId × Option ApparatusMaterialRule)) (rule : ApparatusMaterialRule)
      (roll : AcceptedRoll ctx.toLowercase rule), ctx.workStages assignment.orderId=.ok stages ∧
      (assignment.apparatusId, some rule)∈stages ∧ roll.assignment=assignment ∧
      roll.material.itemGroup=input.itemGroup ∧ roll.material.ancestors=input.itemGroupPath := by
  simp only [AssignmentContext.prepareRawMaterialAssignment,bind_eq_ok,ensure_eq_ok] at h
  obtain ⟨_,hnamed,options,hoptions,requested,-,apparatusId,hchosen,_,-,h⟩ := h
  have hgroup : trim input.itemGroup ≠ "" := by
    simp only [Bool.not_eq_true',Bool.or_eq_false_iff,decide_eq_false_iff_not] at hnamed
    exact hnamed.2
  have hoption : apparatusId∈options := by
    unfold AssignmentContext.chooseApparatus at hchosen
    split at hchosen
    · split at hchosen
      · rename_i hmem
        rw [← Except.ok.inj hchosen]
        exact hmem
      · cases hchosen
    · cases hchosen
    · rw [← Except.ok.inj hchosen]
      exact mem_singleton_self _
    · cases hchosen
  simp only [AssignmentContext.apparatusOptions,bind_eq_ok] at hoptions
  obtain ⟨_,-,stages,hstages,hoptions⟩ := hoptions
  rw [← Except.ok.inj hoptions,mem_eraseDups,mem_mergeSort,mem_map] at hoption
  obtain ⟨stage,hstage,rfl⟩ := hoption
  obtain ⟨hmem,hrule⟩ := mem_filter.mp hstage
  obtain ⟨rule,hsome,haccepted⟩ : ∃ rule, stage.2=some rule ∧ ruleMatches rule stage.1 _=true := by
    cases hsome : stage.2 with
    | none => simp [hsome] at hrule
    | some rule => exact ⟨rule,rfl,by simpa [hsome] using hrule⟩
  rw [← Except.ok.inj h]
  rw [trim_trim] at hstages
  refine ⟨stages,rule,⟨⟨input.itemGroup,input.itemGroupPath,hgroup⟩,_,rfl,haccepted⟩,
    hstages,?_,rfl,rfl,rfl⟩
  rw [← hsome]
  exact hmem

section Usable
variable {toLowercase : String → String} {rule : ApparatusMaterialRule}

section
variable (rolls : List (AcceptedRoll toLowercase rule))

def AcceptedRoll.assignments : List RawMaterialAssignment := rolls.map AcceptedRoll.assignment

/-- Distinct rolls for all slots, where a roll fits a slot by its path. -/
def PathFillable : Prop :=
  ∃ choice : Fin (materialRequirementSlots rule).length → Fin rolls.length,
    Function.Injective choice ∧ ∀ slot, (rolls.get (choice slot)).material.pathFits toLowercase
      ((materialRequirementSlots rule).get slot)=true

/-- Distinct rolls for all slots by their own groups are what the start requirements ask for. -/
theorem requirementsMet_iff :
    materialRequirementsMetRefs rule (AcceptedRoll.assignments rolls)=true ↔
      ∃ choice : Fin (materialRequirementSlots rule).length → Fin rolls.length,
        Function.Injective choice ∧ ∀ slot, (rolls.get (choice slot)).material.ownFits
          ((materialRequirementSlots rule).get slot)=true := by
  have hlength : (AcceptedRoll.assignments rolls).length=rolls.length := length_map _
  have hfits : ∀ (itemGroups : List String) (index : Fin (AcceptedRoll.assignments rolls).length),
      groupFits itemGroups ((AcceptedRoll.assignments rolls).get index) =
        (rolls.get (index.cast hlength)).material.ownFits itemGroups := by
    intro itemGroups index
    have hget : (AcceptedRoll.assignments rolls).get index =
        (rolls.get (index.cast hlength)).assignment :=
      getElem_map AcceptedRoll.assignment
    rw [groupFits,hget,(rolls.get (index.cast hlength)).grouped,trim_trim]
    rfl
  rw [materialRequirementsMetRefs_iff]
  constructor
  · intro h
    obtain ⟨choice,hinjective,hchoice⟩ := h
    refine ⟨fun slot => (choice slot).cast hlength,?_,fun slot => ?_⟩
    · exact (Fin.cast_injective hlength).comp hinjective
    · rw [← hfits]
      exact hchoice slot
  · intro h
    obtain ⟨choice,hinjective,hchoice⟩ := h
    refine ⟨fun slot => (choice slot).cast hlength.symm,?_,fun slot => ?_⟩
    · exact (Fin.cast_injective hlength.symm).comp hinjective
    · rw [hfits]
      exact hchoice slot

end

/-- What the requirements take is fillable by paths. -/
theorem pathFillable_of_requirementsMet {rolls : List (AcceptedRoll toLowercase rule)}
    (h : materialRequirementsMetRefs rule (AcceptedRoll.assignments rolls)=true) :
    PathFillable rolls := by
  obtain ⟨choice,hinjective,hchoice⟩ := (requirementsMet_iff rolls).mp h
  exact ⟨choice,hinjective,fun slot => Material.pathFits_of_ownFits (hchoice slot)⟩

theorem accepted_of_pathFits {material : Material} {slot : List String}
    (hslot : slot∈materialRequirementSlots rule) (h : material.pathFits toLowercase slot=true) :
    ruleMatches rule rule.apparatusId (material.groupPath toLowercase)=true := by
  simp only [ruleMatches,decide_true,Bool.true_and,Bool.or_eq_true]
  unfold materialRequirementSlots at hslot
  split at hslot
  · obtain ⟨itemGroup,hmem,rfl⟩ := mem_map.mp hslot
    left
    obtain ⟨group,hgroup,hsame⟩ := any_eq_true.mp h
    rw [mem_singleton.mp hgroup] at hsame
    exact any_eq_true.mpr ⟨itemGroup,hmem,hsame⟩
  · obtain ⟨group,hmem,hreplicate⟩ := mem_flatMap.mp hslot
    right
    rw [eq_of_mem_replicate hreplicate] at h
    exact any_eq_true.mpr ⟨group,hmem,h⟩

theorem normalizeBarcode_toString (n : Nat) : normalizeBarcode (toString n)=toString n := by
  have hdigit : ∀ c∈(toString n).toList, toAsciiUpper c=c := by
    intro c hc
    have hrange := range_of_mem_toString hc
    have hlow : ¬('a' ≤ c && c ≤ 'z')=true := by
      simp [Char.le_def,UInt32.le_iff_toNat_le]
      omega
    rw [toAsciiUpper,if_neg hlow]
  rw [normalizeBarcode,trim_toString_nat,toAsciiUppercase,map_congr_left hdigit,map_id',
    String.ofList_toList]

/-- A roll of the material for a slot its path reaches, under a barcode of its own. -/
def numberedRoll (material : Material)
    (h : ruleMatches rule rule.apparatusId (material.groupPath toLowercase)=true) (n : Nat) :
    AcceptedRoll toLowercase rule where
  material := material
  assignment := ⟨"zakaz",rule.apparatusId,rule.apparatusId.value,toString n,
    material.itemGroup,material.itemGroup,trim material.itemGroup,"admin","admin","Admin","now"⟩
  grouped := rfl
  accepted := h

/-- An injective map of a finite set into itself that brings only members of a part into the part
keeps the part. -/
theorem mem_of_injective_of_preimage_subset {n : Nat} {f : Fin n → Fin n}
    (hinjective : Function.Injective f) {part : Finset (Fin n)} (h : ∀ x, f x∈part → x∈part)
    {x : Fin n} (hx : x∈part) : f x∈part := by
  let before : Finset (Fin n) := Finset.univ.filter fun y => f y∈part
  have hsub : before ⊆ part := fun y hy => h y (Finset.mem_filter.mp hy).2
  have himage : before.image f=part := by
    ext z
    constructor
    · intro hz
      obtain ⟨y,hy,rfl⟩ := Finset.mem_image.mp hz
      exact (Finset.mem_filter.mp hy).2
    · intro hz
      obtain ⟨y,rfl⟩ := Finite.injective_iff_surjective.mp hinjective z
      exact Finset.mem_image_of_mem f (by simpa [before] using hz)
  have hcard : part.card≤before.card := by
    rw [← himage]
    exact Finset.card_image_le
  have hequal : before=part := Finset.eq_of_subset_of_card_le hsub hcard
  rw [← hequal] at hx
  exact (Finset.mem_filter.mp hx).2

/-- A material that reaches a slot by an ancestor only makes a list of rolls unusable: give all
the slots it reaches such a roll. -/
theorem ownFits_of_usable {K : Set Material}
    (husable : ∀ rolls : List (AcceptedRoll toLowercase rule), (∀ roll∈rolls, roll.material∈K) →
      (rolls.map fun roll => normalizeBarcode roll.assignment.barcode).Nodup → PathFillable rolls →
        materialRequirementsMetRefs rule (AcceptedRoll.assignments rolls)=true)
    (hreach : ∀ slot∈materialRequirementSlots rule, ∃ material∈K,
      material.pathFits toLowercase slot=true)
    {material : Material} (hK : material∈K) {slot : List String}
    (hslot : slot∈materialRequirementSlots rule)
    (hfits : material.pathFits toLowercase slot=true) : material.ownFits slot=true := by
  let slots := materialRequirementSlots rule
  have hchoose : ∀ s : Fin slots.length, ∃ chosen∈K,
      chosen.pathFits toLowercase (slots.get s)=true ∧
        (material.pathFits toLowercase (slots.get s)=true → chosen=material) := by
    intro s
    by_cases hs : material.pathFits toLowercase (slots.get s)=true
    · exact ⟨material,hK,hs,fun _ => rfl⟩
    · obtain ⟨chosen,hchosen,hreaches⟩ := hreach (slots.get s) (get_mem slots s)
      exact ⟨chosen,hchosen,hreaches,fun h => absurd h hs⟩
  choose chosen hchosenK hchosenFits hchosenOwn using hchoose
  let rolls : List (AcceptedRoll toLowercase rule) := List.ofFn fun s =>
    numberedRoll (chosen s) (accepted_of_pathFits (get_mem slots s) (hchosenFits s)) s.val
  have hlength : rolls.length=slots.length := length_ofFn
  have hget : ∀ index : Fin rolls.length,
      (rolls.get index).material=chosen (index.cast hlength) := by
    intro index
    exact congrArg AcceptedRoll.material (List.getElem_ofFn index.isLt)
  have hmembers : ∀ roll∈rolls, roll.material∈K := by
    intro roll hroll
    obtain ⟨s,rfl⟩ := mem_ofFn.mp hroll
    exact hchosenK s
  have hbarcodes : (rolls.map fun roll => normalizeBarcode roll.assignment.barcode).Nodup := by
    rw [map_ofFn]
    apply nodup_ofFn.mpr
    intro s t hst
    simp only [Function.comp,numberedRoll,normalizeBarcode_toString] at hst
    exact Fin.ext (toString_nat_injective hst)
  have hpath : PathFillable rolls := by
    refine ⟨fun s => s.cast hlength.symm,Fin.cast_injective hlength.symm,fun s => ?_⟩
    rw [hget]
    exact hchosenFits s
  obtain ⟨choice,hinjective,hchoice⟩ :=
    (requirementsMet_iff rolls).mp (husable rolls hmembers hbarcodes hpath)
  -- the slots the material reaches get exactly the rolls of the material
  let reached : Finset (Fin slots.length) := Finset.univ.filter fun s =>
    material.pathFits toLowercase (slots.get s)=true
  have hback : ∀ s : Fin slots.length, (choice s).cast hlength∈reached → s∈reached := by
    intro s hs
    have hown := hchoice s
    rw [hget,hchosenOwn _ (Finset.mem_filter.mp hs).2] at hown
    exact Finset.mem_filter.mpr ⟨Finset.mem_univ s,Material.pathFits_of_ownFits hown⟩
  obtain ⟨s,rfl⟩ := get_of_mem hslot
  have hmem : (choice s).cast hlength∈reached :=
    mem_of_injective_of_preimage_subset ((Fin.cast_injective hlength).comp hinjective) hback
      (Finset.mem_filter.mpr ⟨Finset.mem_univ s,hfits⟩)
  have hown := hchoice s
  rw [hget,hchosenOwn _ (Finset.mem_filter.mp hmem).2] at hown
  exact hown

/-- The contract between admission and use, over a catalogue of materials. What the requirements
take is always fillable by paths. Conversely every list of accepted rolls of the catalogue that is
fillable by paths meets the requirements exactly when some slot is out of the catalogue's reach
altogether, or every material that reaches a slot by its path has its own group named there. -/
theorem accepted_rolls_usable_iff (toLowercase : String → String) (rule : ApparatusMaterialRule) :
    (∀ rolls : List (AcceptedRoll toLowercase rule),
      materialRequirementsMetRefs rule (AcceptedRoll.assignments rolls)=true → PathFillable rolls) ∧
    ∀ K : Set Material,
      (∀ rolls : List (AcceptedRoll toLowercase rule), (∀ roll∈rolls, roll.material∈K) →
        (rolls.map fun roll => normalizeBarcode roll.assignment.barcode).Nodup →
        (materialRequirementsMetRefs rule (AcceptedRoll.assignments rolls)=true ↔
          PathFillable rolls)) ↔
      ((∃ slot∈materialRequirementSlots rule,
          ∀ material∈K, material.pathFits toLowercase slot=false) ∨
        ∀ material∈K, ∀ slot∈materialRequirementSlots rule,
          material.pathFits toLowercase slot=true → material.ownFits slot=true) := by
  refine ⟨fun rolls => pathFillable_of_requirementsMet,fun K => ?_⟩
  constructor
  · intro husable
    by_cases hreach : ∃ slot∈materialRequirementSlots rule,
        ∀ material∈K, material.pathFits toLowercase slot=false
    · exact .inl hreach
    · refine .inr fun material hK slot hslot hfits => ?_
      simp only [not_exists,not_and,not_forall,Bool.not_eq_false,exists_prop] at hreach
      exact ownFits_of_usable (fun rolls hmembers hbarcodes hpath =>
        (husable rolls hmembers hbarcodes).mpr hpath) hreach hK hslot hfits
  · intro hcondition rolls hmembers _
    refine ⟨pathFillable_of_requirementsMet,fun hpath => ?_⟩
    obtain ⟨choice,hinjective,hchoice⟩ := hpath
    have hK : ∀ slot, (rolls.get (choice slot)).material∈K :=
      fun slot => hmembers _ (List.get_mem rolls (choice slot))
    rcases hcondition with ⟨slot,hslot,hnone⟩ | hown
    · obtain ⟨s,rfl⟩ := List.get_of_mem hslot
      have hreached := hchoice s
      rw [hnone _ (hK s)] at hreached
      cases hreached
    · refine (requirementsMet_iff rolls).mpr ⟨choice,hinjective,fun slot => ?_⟩
      exact hown _ (hK slot) _ (List.get_mem _ slot) (hchoice slot)

end Usable

def blackInk : Material := ⟨"Qora kraska",["Kraska","Materiallar"],by decide +kernel⟩

def plainInk : Material := ⟨"Kraska",["Materiallar"],by decide +kernel⟩

def inkRule : ApparatusMaterialRule := ⟨flexoId,true,.requirementGroups,[],[⟨"ink",["Kraska"],1⟩]⟩

def inkContext : AssignmentContext where
  toLowercase := toAsciiLowercase
  workStages _ := .ok [(flexoId, some inkRule)]
  assignments := []
  actor := ⟨"admin","admin","Admin"⟩
  assignedAt := "now"

def inkInput (material : Material) : RawMaterialAssignmentInput :=
  ⟨"zakaz-1","ink-1","ink","",material.itemGroup,material.ancestors,""⟩

/-- A roll of black ink is accepted because its parent group is ink, and never counts as ink. -/
theorem accepted_roll_unusable : ∃ roll : AcceptedRoll toAsciiLowercase inkRule,
    roll.material=blackInk ∧ inkContext.prepareRawMaterialAssignment (inkInput blackInk) =
    .ok roll.assignment ∧ PathFillable [roll] ∧
    materialRequirementsMetRefs inkRule (AcceptedRoll.assignments [roll])=false := by
  have hresult : ((inkContext.prepareRawMaterialAssignment (inkInput blackInk)).toOption.map
      fun assignment => (decide (assignment.itemGroup=trim blackInk.itemGroup),
        ruleMatches inkRule assignment.apparatusId (blackInk.groupPath toAsciiLowercase),
        materialRequirementsMetRefs inkRule [assignment]))=some (true, true, false) := by
    decide +kernel
  obtain ⟨assignment,hprepared,hfacts⟩ := Option.map_eq_some_iff.mp hresult
  simp only [Prod.mk.injEq,decide_eq_true_eq] at hfacts
  obtain ⟨hgroup,haccepted,hmet⟩ := hfacts
  refine ⟨⟨blackInk,assignment,hgroup,haccepted⟩,rfl,toOption_eq_some.mp hprepared,?_,hmet⟩
  refine ⟨fun _ => 0,?_,?_⟩
  · intro s t _
    have hone : (materialRequirementSlots inkRule).length=1 := rfl
    exact Fin.ext (by omega)
  · intro slot
    have hslot : (materialRequirementSlots inkRule).get slot=["Kraska"] := by
      have hmem := List.get_mem (materialRequirementSlots inkRule) slot
      exact List.mem_singleton.mp hmem
    have hreach : blackInk.pathFits toAsciiLowercase ["Kraska"]=true := by decide +kernel
    rw [hslot]
    exact hreach

/-- Plain ink alone is a catalogue on which the contract holds, plain and black ink is not. -/
theorem accepted_rolls_usable_iff_inks : (∀ rolls : List (AcceptedRoll toAsciiLowercase inkRule),
      (∀ roll∈rolls, roll.material∈({plainInk} : Set Material)) →
      (rolls.map fun roll => normalizeBarcode roll.assignment.barcode).Nodup →
      (materialRequirementsMetRefs inkRule (AcceptedRoll.assignments rolls)=true ↔
        PathFillable rolls)) ∧
    ¬ ∀ rolls : List (AcceptedRoll toAsciiLowercase inkRule),
      (∀ roll∈rolls, roll.material∈({plainInk, blackInk} : Set Material)) →
      (rolls.map fun roll => normalizeBarcode roll.assignment.barcode).Nodup →
      (materialRequirementsMetRefs inkRule (AcceptedRoll.assignments rolls)=true ↔
        PathFillable rolls) := by
  have hslots : materialRequirementSlots inkRule=[["Kraska"]] := rfl
  constructor
  · refine ((accepted_rolls_usable_iff toAsciiLowercase inkRule).2 {plainInk}).mpr (.inr ?_)
    intro material hmaterial slot hslot _
    rw [hslots,List.mem_singleton] at hslot
    rw [hmaterial,hslot]
    decide +kernel
  · intro husable
    rcases ((accepted_rolls_usable_iff toAsciiLowercase inkRule).2 {plainInk, blackInk}).mp husable
      with ⟨slot,hslot,hnone⟩ | hown
    · rw [hslots,List.mem_singleton] at hslot
      have hplain := hnone plainInk (by simp)
      rw [hslot] at hplain
      revert hplain
      decide +kernel
    · have hblack := hown blackInk (by simp) ["Kraska"] (by simp [hslots]) (by decide +kernel)
      revert hblack
      decide +kernel

end MiniErp.Materials
