import MiniErp.Capacity.Schedule
import MiniErp.Catalog.Reroute
import MiniErp.Lib.JsonText
import MiniErp.Materials.Requirements

/-! A canonical revision of a machine: its fields, the checks it has to pass, and the JSON it is
kept as. -/
namespace MiniErp.Apparatus
open Text Run
open Catalog (EquipmentCapabilityCode ExecutionOperation ProcessTechnology VirtualTaskPolicy
  ExecutionProfile LifecycleState)
open Materials (MaterialRequirementSet MaterialExecutionPolicy)

def idtaRelease : String := "26-01"
def aasMetamodelVersion : String := "3.2.0"
def aasxPart5Version : String := "IDTA-01005 v3.2"
def aasxPackageFormat : String := "Open Packaging Conventions"
def aasxMediaType : String := "application/asset-administration-shell-package"

def aasApparatusSubmodelSemanticId : String := "urn:mini-rs-erp:semantic-id:submodel:apparatus:1"
def aasApparatusSubmodelIdPrefix : String := "urn:mini-rs-erp:submodel:apparatus:"
def aasShellIdPrefix : String := "urn:mini-rs-erp:aas:apparatus:"
def canonicalApparatusSchemaVersion : Nat := 1

/-- `validate_semantic_id`. -/
def SemanticId.isValid (value : String) : Bool :=
  value != "" && value == trim value && value.utf8ByteSize≤256 &&
    !value.toList.any isControl && !value.toList.any isWhitespace && value.toList.contains ':'

/-- An equipment class, a physical asset or a level of the hierarchy. -/
structure SemanticId where
  value : String
  valid : SemanticId.isValid value=true

structure ApparatusDisplay where
  displayName : String
  description : String
  catalogOrder : Nat

structure EquipmentHierarchyScope where
  enterpriseId : SemanticId
  siteId : SemanticId
  areaId : SemanticId
  workCenterId : SemanticId
  workUnitId : SemanticId

structure EquipmentCapability where
  code : EquipmentCapabilityCode
  level : Nat

inductive QueueDiscipline where
  | strictSequence
  | freePick
  deriving DecidableEq, Repr

inductive ToolingExecutionPolicy where
  | notRequired
  | qolipScanRequired (toolingClassId : String)
  deriving DecidableEq, Repr

structure ApparatusOperationalPolicies where
  queue : QueueDiscipline
  material : MaterialExecutionPolicy
  tooling : ToolingExecutionPolicy
  workerMaterialAssignmentAllowed : Bool

structure WorkingWindowV1 where
  weekday : Nat
  startMinute : Nat
  endMinute : Nat
  deriving DecidableEq, Repr

inductive CapacityAvailability where
  | always
  | scheduled (workingWindows : List WorkingWindowV1)
  deriving DecidableEq, Repr

structure ApparatusCapacity where
  capacitySlots : Nat
  setupMinutes : Nat
  cleanupMinutes : Nat
  efficiencyPercent : Nat
  finiteCapacity : Bool
  availability : CapacityAvailability

structure FactoryMapPlacement where
  factoryMapObjectId : String

structure TrainingProfile where
  enabled : Bool
  queueEnabled : Bool
  materialTrackingEnabled : Bool

structure ApparatusLifecycle where
  state : LifecycleState
  retirementReason : Option String

inductive RevisionSource where
  | admin
  | aasxImport
  | legacyMigration
  deriving DecidableEq, Repr

structure RevisionMetadata where
  revision : Nat
  committedAtUnixMs : Int
  actorId : String
  commandId : String
  source : RevisionSource
  sourceReference : Option String

structure AasIdentity where
  shellId : String
  submodelId : String
  semanticId : String
  idtaRelease : String
  aasMetamodelVersion : String
  aasxPart5Version : String
  packageFormat : String
  mediaType : String
  deriving DecidableEq

structure CanonicalApparatusRevision where
  schemaVersion : Nat
  apparatusId : ApparatusId
  display : ApparatusDisplay
  equipmentClassId : SemanticId
  physicalAssetId : SemanticId
  hierarchy : EquipmentHierarchyScope
  capabilities : List EquipmentCapability
  executionProfile : ExecutionProfile
  policies : ApparatusOperationalPolicies
  capacity : ApparatusCapacity
  placement : Option FactoryMapPlacement
  training : TrainingProfile
  lifecycle : ApparatusLifecycle
  revisionMetadata : RevisionMetadata
  aasIdentity : AasIdentity

/- The checks. -/

inductive CanonicalApparatusValidationError where
  | invalidSchemaVersion
  | invalidDisplay
  | invalidCapabilities
  | invalidExecutionProfile
  | invalidPolicy
  | invalidCapacity
  | invalidLifecycle
  | invalidRevisionMetadata
  | invalidAasIdentity
  | invalidReference (field : String)
  deriving DecidableEq, Repr

abbrev Checked := Except CanonicalApparatusValidationError Unit

def maxDisplayNameChars : Nat := 256
def maxDescriptionChars : Nat := 2000
def maxReferenceChars : Nat := 256
def maxCapacitySlots : Nat := 64
def maxEfficiencyPercent : Nat := 200
def maxCapabilityLevel : Nat := 100
def maxColorStations : Nat := 32
def maxWebWidthMm : Nat := 100000

/-- `windows(2).all`: each element is below the next. -/
def increasing {α : Type} (lt : α → α → Bool) : List α → Bool
  | first::next::rest => lt first next && increasing lt (next::rest)
  | _ => true

def validateReference (field value : String) : Checked :=
  ensure (value != "" && value == trim value && value.toList.length ≤ maxReferenceChars &&
    !value.toList.any isControl) (.invalidReference field)

def validateSortedUniqueReferences (values : List String) (field : String) : Checked := do
  ensure (!values.isEmpty && increasing (fun left right => decide (left < right)) values)
    .invalidPolicy
  values.forM (validateReference field)

def capabilityRank : EquipmentCapabilityCode → Nat
  | .print => 0
  | .laminate => 1
  | .cut => 2
  | .package => 3
  | .glue => 4
  | .tooling => 5
  | .virtualTask => 6
  | .training => 7

/-- The order of `WorkingWindowV1`: by its fields, one after another. -/
def WorkingWindowV1.lt (left right : WorkingWindowV1) : Bool :=
  decide (left.weekday < right.weekday) || left.weekday == right.weekday &&
    (decide (left.startMinute < right.startMinute) || left.startMinute == right.startMinute &&
      decide (left.endMinute < right.endMinute))

def technologyMatches : ExecutionOperation → ProcessTechnology → Bool
  | .print, .rotogravure => true
  | .print, .flexographic => true
  | .laminate, .adhesiveLamination => true
  | .laminate, .extrusionLamination => true
  | .cut, .slitting => true
  | .package, .bagMaking => true
  | .glue, .coldGlue => true
  | _, _ => false

def colorStationsMatch (technology : ProcessTechnology) (count : Option Nat) : Bool :=
  match technology with
  | .rotogravure => count.any fun value => decide (0<value ∧ value ≤ maxColorStations)
  | .flexographic => count.all fun value => decide (0<value ∧ value ≤ maxColorStations)
  | _ => count.isNone

def webWidthMatches (width : Option Nat) : Bool :=
  width.all fun value => decide (0<value ∧ value ≤ maxWebWidthMm)

def webWidthRangeMatches (minimum maximum : Option Nat) : Bool :=
  minimum.all fun low => maximum.all fun high => decide (low≤high)

def validateRequirementSet (set : MaterialRequirementSet) : Checked := do
  validateReference "material_requirement_id" set.requirementId
  ensure (set.minimumRequiredCount != 0 && set.minimumRequiredCount ≤ set.itemGroupIds.length)
    .invalidPolicy
  validateSortedUniqueReferences set.itemGroupIds "material_item_group"

def validateMaterial : MaterialExecutionPolicy → Checked
  | .notRequired itemGroupIds =>
    if itemGroupIds.isEmpty then .ok ()
    else validateSortedUniqueReferences itemGroupIds "material_item_group"
  | .allRequired itemGroupIds => validateSortedUniqueReferences itemGroupIds "material_item_group"
  | .requirementSets sets => do
    ensure (!sets.isEmpty && increasing (fun left right =>
      decide (left.requirementId < right.requirementId)) sets) .invalidPolicy
    sets.forM validateRequirementSet

namespace CanonicalApparatusRevision
variable (revision : CanonicalApparatusRevision)

def supports (code : EquipmentCapabilityCode) : Bool :=
  revision.capabilities.any fun capability => capability.code == code

def validateDisplay : Checked :=
  let display := revision.display
  ensure (display.displayName != "" && display.displayName == trim display.displayName &&
    display.displayName.toList.length ≤ maxDisplayNameChars &&
    display.description.toList.length ≤ maxDescriptionChars &&
    !display.displayName.toList.any isControl && !display.description.toList.any isControl)
    .invalidDisplay

def validateCapabilities : Checked := do
  ensure (!revision.capabilities.isEmpty && !revision.capabilities.any fun capability =>
    capability.level == 0 || capability.level > maxCapabilityLevel) .invalidCapabilities
  let codes := revision.capabilities.map EquipmentCapability.code
  ensure (codes.eraseDups.length == codes.length &&
    increasing (fun left right => decide (capabilityRank left < capabilityRank right)) codes)
    .invalidCapabilities

def validateExecutionProfile : Checked :=
  let profile := revision.executionProfile
  let expectedCapability := Catalog.Pechat.operationCapability profile.operation
  let virtualTasksMatch := profile.virtualTasks == .disabled || revision.supports .virtualTask
  ensure (revision.supports expectedCapability &&
    technologyMatches profile.operation profile.technology &&
    colorStationsMatch profile.technology profile.colorStationCount && virtualTasksMatch &&
    webWidthMatches profile.minWebWidthMm && webWidthMatches profile.maxWebWidthMm &&
    webWidthRangeMatches profile.minWebWidthMm profile.maxWebWidthMm) .invalidExecutionProfile

def validateTooling : Checked :=
  match revision.policies.tooling with
  | .notRequired => .ok ()
  | .qolipScanRequired toolingClassId => do
    ensure (revision.supports .tooling) .invalidPolicy
    validateReference "tooling_class_id" toolingClassId

def validatePolicies : Checked := do
  validateMaterial revision.policies.material
  revision.validateTooling
  ensure (revision.training.enabled == revision.supports .training && (revision.training.enabled ||
      !(revision.training.queueEnabled || revision.training.materialTrackingEnabled)))
    .invalidPolicy

def validateAvailability : CapacityAvailability → Checked
  | .always => .ok ()
  | .scheduled workingWindows =>
    ensure (!workingWindows.isEmpty && increasing WorkingWindowV1.lt workingWindows &&
      !workingWindows.any fun window => window.weekday == 0 || window.weekday > 7 ||
        window.startMinute ≥ window.endMinute || window.endMinute > 24*60) .invalidCapacity

def validateCapacity : Checked := do
  let capacity := revision.capacity
  ensure (capacity.capacitySlots != 0 && capacity.capacitySlots ≤ maxCapacitySlots &&
    capacity.efficiencyPercent != 0 && capacity.efficiencyPercent ≤ maxEfficiencyPercent)
    .invalidCapacity
  validateAvailability capacity.availability

def validateLifecycle : Checked :=
  match revision.lifecycle.state, revision.lifecycle.retirementReason with
  | .active, none => .ok ()
  | .retired, some reason => validateReference "retirement_reason" reason
  | _, _ => .error .invalidLifecycle

def validateSourceReference : Option String → Checked
  | some reference => validateReference "source_reference" reference
  | none => .ok ()

def validateRevisionMetadata : Checked := do
  let metadata := revision.revisionMetadata
  ensure (metadata.revision != 0 && decide (0 < metadata.committedAtUnixMs)) .invalidRevisionMetadata
  validateReference "actor_id" metadata.actorId
  validateReference "command_id" metadata.commandId
  validateSourceReference metadata.sourceReference

def expectedAasIdentity (suffix : String) : AasIdentity where
  shellId := aasShellIdPrefix++suffix
  submodelId := aasApparatusSubmodelIdPrefix++suffix
  semanticId := aasApparatusSubmodelSemanticId
  idtaRelease := idtaRelease
  aasMetamodelVersion := aasMetamodelVersion
  aasxPart5Version := aasxPart5Version
  packageFormat := aasxPackageFormat
  mediaType := aasxMediaType

/-- An `ApparatusId` starts with `apparatus:`, so there is always a suffix. -/
def validateAasIdentity : Checked :=
  let suffix := String.ofList (revision.apparatusId.value.toList.drop "apparatus:".length)
  ensure (revision.aasIdentity == expectedAasIdentity suffix) .invalidAasIdentity

def validatePlacement : Option FactoryMapPlacement → Checked
  | some placement => validateReference "factory_map_object_id" placement.factoryMapObjectId
  | none => .ok ()

def validate : Checked := do
  ensure (revision.schemaVersion == canonicalApparatusSchemaVersion) .invalidSchemaVersion
  revision.validateDisplay
  revision.validateCapabilities
  revision.validateExecutionProfile
  revision.validatePolicies
  revision.validateCapacity
  revision.validateLifecycle
  revision.validateRevisionMetadata
  revision.validateAasIdentity
  validatePlacement revision.placement

end CanonicalApparatusRevision

/- The names of the enumerations and the JSON of a revision, fields in the order they are
declared in. -/

def ExecutionOperation.jsonName : ExecutionOperation → String
  | .print => "print"
  | .laminate => "laminate"
  | .cut => "cut"
  | .package => "package"
  | .glue => "glue"

def ProcessTechnology.jsonName : ProcessTechnology → String
  | .rotogravure => "rotogravure"
  | .flexographic => "flexographic"
  | .adhesiveLamination => "adhesive_lamination"
  | .extrusionLamination => "extrusion_lamination"
  | .slitting => "slitting"
  | .bagMaking => "bag_making"
  | .coldGlue => "cold_glue"

def VirtualTaskPolicy.jsonName : VirtualTaskPolicy → String
  | .disabled => "disabled"
  | .inputBridge => "input_bridge"

def QueueDiscipline.jsonName : QueueDiscipline → String
  | .strictSequence => "strict_sequence"
  | .freePick => "free_pick"

def LifecycleState.jsonName : LifecycleState → String
  | .active => "active"
  | .retired => "retired"

def RevisionSource.jsonName : RevisionSource → String
  | .admin => "admin"
  | .aasxImport => "aasx_import"
  | .legacyMigration => "legacy_migration"

def natJson (n : Nat) : Json := .number (.int n)

def optionJson {α : Type} (json : α → Json) : Option α → Json
  | some value => json value
  | none => .null

/-- A field that is left out when it is absent. -/
def optionalField {α : Type} (name : String) (json : α → Json) : Option α → List (String × Json)
  | some value => [(name, json value)]
  | none => []

def stringsJson (texts : List String) : Json := .array (texts.map .string)

def ApparatusDisplay.toJson (display : ApparatusDisplay) : Json :=
  .object [("display_name", .string display.displayName),
    ("description", .string display.description),("catalog_order", natJson display.catalogOrder)]

def EquipmentHierarchyScope.toJson (hierarchy : EquipmentHierarchyScope) : Json :=
  .object [("enterprise_id", .string hierarchy.enterpriseId.value),
    ("site_id", .string hierarchy.siteId.value),("area_id", .string hierarchy.areaId.value),
    ("work_center_id", .string hierarchy.workCenterId.value),
    ("work_unit_id", .string hierarchy.workUnitId.value)]

def EquipmentCapability.toJson (capability : EquipmentCapability) : Json :=
  .object [("code", .string (Capacity.capabilityCodeName capability.code)),
    ("level", natJson capability.level)]

def executionProfileJson (profile : ExecutionProfile) : Json :=
  .object ([("operation", .string (ExecutionOperation.jsonName profile.operation)),
    ("technology", .string (ProcessTechnology.jsonName profile.technology)),
    ("color_station_count", optionJson natJson profile.colorStationCount)] ++
    optionalField "min_web_width_mm" natJson profile.minWebWidthMm ++
    optionalField "max_web_width_mm" natJson profile.maxWebWidthMm ++
    [("virtual_tasks", .string (VirtualTaskPolicy.jsonName profile.virtualTasks)),
      ("capability_compatible_reroute", .bool profile.capabilityCompatibleReroute)])

def requirementSetJson (set : MaterialRequirementSet) : Json :=
  .object [("requirement_id", .string set.requirementId),
    ("item_group_ids", stringsJson set.itemGroupIds),
    ("minimum_required_count", natJson set.minimumRequiredCount)]

def materialJson : MaterialExecutionPolicy → Json
  | .notRequired [] => .object [("mode", .string "not_required")]
  | .notRequired itemGroupIds =>
    .object [("mode", .string "not_required"),("item_group_ids", stringsJson itemGroupIds)]
  | .allRequired itemGroupIds =>
    .object [("mode", .string "all_required"),("item_group_ids", stringsJson itemGroupIds)]
  | .requirementSets sets =>
    .object [("mode", .string "requirement_sets"),("sets", .array (sets.map requirementSetJson))]

def ToolingExecutionPolicy.toJson : ToolingExecutionPolicy → Json
  | .notRequired => .object [("mode", .string "not_required")]
  | .qolipScanRequired toolingClassId =>
    .object [("mode", .string "qolip_scan_required"),("tooling_class_id", .string toolingClassId)]

def ApparatusOperationalPolicies.toJson (policies : ApparatusOperationalPolicies) : Json :=
  .object ([("queue", .string (QueueDiscipline.jsonName policies.queue)),
    ("material", materialJson policies.material),("tooling", policies.tooling.toJson)] ++
    if policies.workerMaterialAssignmentAllowed then
      [("worker_material_assignment_allowed", .bool true)] else [])

def WorkingWindowV1.toJson (window : WorkingWindowV1) : Json :=
  .object [("weekday", natJson window.weekday),("start_minute", natJson window.startMinute),
    ("end_minute", natJson window.endMinute)]

def CapacityAvailability.toJson : CapacityAvailability → Json
  | .always => .object [("mode", .string "always")]
  | .scheduled workingWindows => .object [("mode", .string "scheduled"),
      ("working_windows", .array (workingWindows.map WorkingWindowV1.toJson))]

def ApparatusCapacity.toJson (capacity : ApparatusCapacity) : Json :=
  .object [("capacity_slots", natJson capacity.capacitySlots),
    ("setup_minutes", natJson capacity.setupMinutes),
    ("cleanup_minutes", natJson capacity.cleanupMinutes),
    ("efficiency_percent", natJson capacity.efficiencyPercent),
    ("finite_capacity", .bool capacity.finiteCapacity),
    ("availability", capacity.availability.toJson)]

def FactoryMapPlacement.toJson (placement : FactoryMapPlacement) : Json :=
  .object [("factory_map_object_id", .string placement.factoryMapObjectId)]

def TrainingProfile.toJson (training : TrainingProfile) : Json :=
  .object [("enabled", .bool training.enabled),("queue_enabled", .bool training.queueEnabled),
    ("material_tracking_enabled", .bool training.materialTrackingEnabled)]

def ApparatusLifecycle.toJson (lifecycle : ApparatusLifecycle) : Json :=
  .object [("state", .string (LifecycleState.jsonName lifecycle.state)),
    ("retirement_reason", optionJson .string lifecycle.retirementReason)]

def RevisionMetadata.toJson (metadata : RevisionMetadata) : Json :=
  .object [("revision", natJson metadata.revision),
    ("committed_at_unix_ms", .number (.int metadata.committedAtUnixMs)),
    ("actor_id", .string metadata.actorId),("command_id", .string metadata.commandId),
    ("source", .string metadata.source.jsonName),
    ("source_reference", optionJson .string metadata.sourceReference)]

def AasIdentity.toJson (identity : AasIdentity) : Json :=
  .object [("shell_id", .string identity.shellId),("submodel_id", .string identity.submodelId),
    ("semantic_id", .string identity.semanticId),("idta_release", .string identity.idtaRelease),
    ("aas_metamodel_version", .string identity.aasMetamodelVersion),
    ("aasx_part_5_version", .string identity.aasxPart5Version),
    ("package_format", .string identity.packageFormat),("media_type", .string identity.mediaType)]

def CanonicalApparatusRevision.toJson (revision : CanonicalApparatusRevision) : Json :=
  .object [("schema_version", natJson revision.schemaVersion),
    ("apparatus_id", .string revision.apparatusId.value),("display", revision.display.toJson),
    ("equipment_class_id", .string revision.equipmentClassId.value),
    ("physical_asset_id", .string revision.physicalAssetId.value),
    ("hierarchy", revision.hierarchy.toJson),
    ("capabilities", .array (revision.capabilities.map EquipmentCapability.toJson)),
    ("execution_profile", executionProfileJson revision.executionProfile),
    ("policies", revision.policies.toJson),("capacity", revision.capacity.toJson),
    ("placement", optionJson FactoryMapPlacement.toJson revision.placement),
    ("training", revision.training.toJson),("lifecycle", revision.lifecycle.toJson),
    ("revision_metadata", revision.revisionMetadata.toJson),
    ("aas_identity", revision.aasIdentity.toJson)]

/-- `serde_json::to_string`. -/
def CanonicalApparatusRevision.toText (revision : CanonicalApparatusRevision) : String :=
  revision.toJson.write

end MiniErp.Apparatus
