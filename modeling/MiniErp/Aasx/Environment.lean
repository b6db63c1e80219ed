import MiniErp.Aasx.Package
import MiniErp.Apparatus.Revision
import MiniErp.Lib.Joined
import MiniErp.Lib.Search

/-! The specification of a machine file: the XML that states a revision field by field and carries
its JSON as one escaped value, and the reader of that value. -/
namespace MiniErp.Aasx
open Run Apparatus Search
open Catalog (ExecutionProfile)
open Materials (MaterialRequirementSet MaterialExecutionPolicy)

inductive CanonicalAasxExportError where
  | invalidRevision (error : CanonicalApparatusValidationError)
  | serialization
  | invalidXmlCharacter (code : Nat)
  | package (error : AasxExportError)
  deriving DecidableEq, Repr

inductive CanonicalAasxImportError where
  | package (error : AasxImportError)
  | invalidUtf8
  | invalidCanonicalPayload
  | invalidRevision (error : CanonicalApparatusValidationError)
  | semanticMismatch
  deriving DecidableEq, Repr

def aasXmlNamespace : String := "https://admin-shell.io/aas/3/0"
def payloadIdShort : String := "CanonicalPayloadJson"
def maxCanonicalPayloadBytes : Nat := 512*1024

/- Escaping. -/

/-- `str::replace` of one character. -/
def replace (c : Char) (text : List Char) (value : List Char) : List Char :=
  value.flatMap fun d => if d=c then text else [d]

def amp : List Char := ['&','a','m','p',';']
def lt : List Char := ['&','l','t',';']
def gt : List Char := ['&','g','t',';']
def quot : List Char := ['&','q','u','o','t',';']
def apos : List Char := ['&','a','p','o','s',';']

def escape (value : String) : List Char :=
  replace '\'' apos (replace '"' quot (replace '>' gt (replace '<' lt
    (replace '&' amp value.toList))))

def entities : List (List Char × Char) := [(amp, '&'),(lt, '<'),(gt, '>'),(quot, '"'),(apos, '\'')]

def unescapeChars : List Char → Except CanonicalAasxImportError (List Char)
  | [] => .ok []
  | c::rest =>
    if c = '&' then
      match entities.find? fun entity => entity.1.isPrefixOf (c::rest) with
      | some entity => do
        let output ← unescapeChars (rest.drop (entity.1.length-1))
        return entity.2::output
      | none => .error .invalidCanonicalPayload
    else do
      let output ← unescapeChars rest
      return c::output
termination_by text => text.length

def unescape (value : List Char) : Except CanonicalAasxImportError String :=
  (unescapeChars value).map String.ofList

/- The writer. -/

inductive Write where
  | collectionStart (idShort : String)
  | property (idShort valueType value : String)
  | collectionEnd

def Write.text : Write → List Char
  | .collectionStart idShort =>
    "        <submodelElementCollection>\n".toList ++
      ("          ".toList++("<idShort>".toList++(escape idShort ++ "</idShort>\n".toList))) ++
      "          <value>\n".toList
  | .property idShort valueType value =>
    "            <property>\n".toList ++
      ("              ".toList++("<idShort>".toList++(escape idShort ++ "</idShort>\n".toList))) ++
      ("              <valueType>".toList++(escape valueType ++ "</valueType>\n".toList)) ++
      ("              ".toList++("<value>".toList++(escape value ++
        ("</value>".toList ++ "\n            ".toList)))) ++ "</property>\n".toList
  | .collectionEnd => "          </value>\n        </submodelElementCollection>\n".toList

def boolName (value : Bool) : String := if value then "true" else "false"

def collection (idShort : String) (members : List Write) : List Write :=
  Write.collectionStart idShort::members++[Write.collectionEnd]

/-- `enumerate`: each member with its number, counted from 1. -/
def numbered {α : Type} (f : Nat → α → List Write) (items : List α) : List Write :=
  items.zipIdx.flatMap fun entry => f (entry.2+1) entry.1

def pushIndexedValues (name itemName : String) (values : List String) : List Write :=
  collection name (numbered (fun number value =>
    [Write.property (itemName++toString number) "xs:string" value]) values)

def optionalProperty (idShort valueType : String) : Option String → List Write
  | some value => [Write.property idShort valueType value]
  | none => []

section
variable (revision : CanonicalApparatusRevision)

def pushIdentity : List Write :=
  collection "Identity" [Write.property "ApparatusId" "xs:string" revision.apparatusId.value,
    Write.property "PhysicalAssetId" "xs:string" revision.physicalAssetId.value,
    Write.property "DisplayName" "xs:string" revision.display.displayName,
    Write.property "Description" "xs:string" revision.display.description,
    Write.property "CatalogOrder" "xs:unsignedInt" (toString revision.display.catalogOrder)]

def pushHierarchy : List Write :=
  collection "Isa95Hierarchy" [
    Write.property "EquipmentClassId" "xs:string" revision.equipmentClassId.value,
    Write.property "EnterpriseId" "xs:string" revision.hierarchy.enterpriseId.value,
    Write.property "SiteId" "xs:string" revision.hierarchy.siteId.value,
    Write.property "AreaId" "xs:string" revision.hierarchy.areaId.value,
    Write.property "WorkCenterId" "xs:string" revision.hierarchy.workCenterId.value,
    Write.property "WorkUnitId" "xs:string" revision.hierarchy.workUnitId.value]

def pushCapabilities : List Write :=
  collection "Capabilities" (numbered (fun number capability =>
    collection ("Capability" ++ toString number) [
      Write.property "Code" "xs:string" (Capacity.capabilityCodeName capability.code),
      Write.property "Level" "xs:unsignedShort" (toString capability.level)]) revision.capabilities)

def pushExecution : List Write :=
  let profile := revision.executionProfile
  collection "ExecutionProfile" (
    [Write.property "Operation" "xs:string" (ExecutionOperation.jsonName profile.operation),
      Write.property "Technology" "xs:string" (ProcessTechnology.jsonName profile.technology)] ++
    optionalProperty "ColorStationCount" "xs:unsignedShort"
      (profile.colorStationCount.map toString) ++
    optionalProperty "MinWebWidthMm" "xs:unsignedInt" (profile.minWebWidthMm.map toString) ++
    optionalProperty "MaxWebWidthMm" "xs:unsignedInt" (profile.maxWebWidthMm.map toString) ++
    [Write.property "VirtualTasks" "xs:string" (VirtualTaskPolicy.jsonName profile.virtualTasks),
      Write.property "CapabilityCompatibleReroute" "xs:boolean"
        (boolName profile.capabilityCompatibleReroute)])

def pushRequirementSet (number : Nat) (set : MaterialRequirementSet) : List Write :=
  collection ("RequirementSet" ++ toString number) (
    [Write.property "RequirementId" "xs:string" set.requirementId,
      Write.property "MinimumRequiredCount" "xs:unsignedShort" (toString set.minimumRequiredCount)] ++
    pushIndexedValues "ItemGroups" "ItemGroup" set.itemGroupIds)

def pushMaterial : MaterialExecutionPolicy → List Write
  | .notRequired itemGroupIds => Write.property "Mode" "xs:string" "not_required" ::
      if itemGroupIds.isEmpty then [] else pushIndexedValues "ItemGroups" "ItemGroup" itemGroupIds
  | .allRequired itemGroupIds => Write.property "Mode" "xs:string" "all_required" ::
      pushIndexedValues "ItemGroups" "ItemGroup" itemGroupIds
  | .requirementSets sets => Write.property "Mode" "xs:string" "requirement_sets" ::
      collection "RequirementSets" (numbered pushRequirementSet sets)

def pushTooling : ToolingExecutionPolicy → List Write
  | .notRequired => [Write.property "Mode" "xs:string" "not_required"]
  | .qolipScanRequired toolingClassId =>
    [Write.property "Mode" "xs:string" "qolip_scan_required",
      Write.property "ToolingClassId" "xs:string" toolingClassId]

def pushPolicies : List Write :=
  let policies := revision.policies
  collection "OperationalPolicies" (
    (if policies.workerMaterialAssignmentAllowed then
      [Write.property "WorkerMaterialAssignmentAllowed" "xs:boolean" "true"] else []) ++
    [Write.property "QueueDiscipline" "xs:string" (QueueDiscipline.jsonName policies.queue)] ++
    collection "MaterialPolicy" (pushMaterial policies.material) ++
    collection "ToolingPolicy" (pushTooling policies.tooling))

def pushWindow (number : Nat) (window : WorkingWindowV1) : List Write :=
  collection ("WorkingWindow" ++ toString number) [
    Write.property "Weekday" "xs:unsignedByte" (toString window.weekday),
    Write.property "StartMinute" "xs:unsignedShort" (toString window.startMinute),
    Write.property "EndMinute" "xs:unsignedShort" (toString window.endMinute)]

def pushAvailability : CapacityAvailability → List Write
  | .always => [Write.property "Availability" "xs:string" "always"]
  | .scheduled workingWindows => Write.property "Availability" "xs:string" "scheduled" ::
      collection "WorkingWindows" (numbered pushWindow workingWindows)

def pushCapacity : List Write :=
  let capacity := revision.capacity
  collection "Capacity" (
    [Write.property "CapacitySlots" "xs:unsignedInt" (toString capacity.capacitySlots),
      Write.property "SetupMinutes" "xs:unsignedInt" (toString capacity.setupMinutes),
      Write.property "CleanupMinutes" "xs:unsignedInt" (toString capacity.cleanupMinutes),
      Write.property "EfficiencyPercent" "xs:unsignedInt" (toString capacity.efficiencyPercent),
      Write.property "FiniteCapacity" "xs:boolean" (boolName capacity.finiteCapacity)] ++
    pushAvailability capacity.availability)

def pushPlacement : Option FactoryMapPlacement → List Write
  | some placement => collection "Placement" [
      Write.property "FactoryMapObjectId" "xs:string" placement.factoryMapObjectId]
  | none => []

def pushLifecycleAndContext : List Write :=
  collection "Lifecycle" (
    Write.property "State" "xs:string" (LifecycleState.jsonName revision.lifecycle.state) ::
    optionalProperty "RetirementReason" "xs:string" revision.lifecycle.retirementReason) ++
  collection "Training" [
    Write.property "Enabled" "xs:boolean" (boolName revision.training.enabled),
    Write.property "QueueEnabled" "xs:boolean" (boolName revision.training.queueEnabled),
    Write.property "MaterialTrackingEnabled" "xs:boolean"
      (boolName revision.training.materialTrackingEnabled)] ++
  pushPlacement revision.placement

def pushRevisionAndAas : List Write :=
  let metadata := revision.revisionMetadata
  let aas := revision.aasIdentity
  collection "RevisionMetadata" (
    [Write.property "SchemaVersion" "xs:unsignedInt" (toString revision.schemaVersion),
      Write.property "Revision" "xs:unsignedLong" (toString metadata.revision),
      Write.property "CommittedAtUnixMs" "xs:long" (toString metadata.committedAtUnixMs),
      Write.property "ActorId" "xs:string" metadata.actorId,
      Write.property "CommandId" "xs:string" metadata.commandId,
      Write.property "Source" "xs:string" (RevisionSource.jsonName metadata.source)] ++
    optionalProperty "SourceReference" "xs:string" metadata.sourceReference) ++
  collection "AasContract" [Write.property "ShellId" "xs:string" aas.shellId,
    Write.property "SubmodelId" "xs:string" aas.submodelId,
    Write.property "SemanticId" "xs:string" aas.semanticId,
    Write.property "IdtaRelease" "xs:string" aas.idtaRelease,
    Write.property "AasMetamodelVersion" "xs:string" aas.aasMetamodelVersion,
    Write.property "AasxPart5Version" "xs:string" aas.aasxPart5Version,
    Write.property "PackageFormat" "xs:string" aas.packageFormat,
    Write.property "MediaType" "xs:string" aas.mediaType]

/-- The text before the elements of the submodel. -/
def environmentHead : List Char :=
  "<?xml version=\"1.0\" encoding=\"UTF-8\"?>\n<environment xmlns=\"".toList++aasXmlNamespace.toList ++
  "\" xmlns:xs=\"http://www.w3.org/2001/XMLSchema\">\n  <assetAdministrationShells>\n    <assetAdministrationShell>\n      <id>".toList ++
  escape revision.aasIdentity.shellId ++
  "</id>\n      <idShort>Apparatus</idShort>\n      <assetInformation>\n        <assetKind>Instance</assetKind>\n        <globalAssetId>".toList ++
  escape revision.physicalAssetId.value ++
  "</globalAssetId>\n      </assetInformation>\n      <submodels>\n        <reference>\n          <type>ModelReference</type>\n          <keys>\n            <key>\n              <type>Submodel</type>\n              <value>".toList ++
  escape revision.aasIdentity.submodelId ++
  "</value>\n            </key>\n          </keys>\n        </reference>\n      </submodels>\n    </assetAdministrationShell>\n  </assetAdministrationShells>\n  <submodels>\n    <submodel>\n      <id>".toList ++
  escape revision.aasIdentity.submodelId ++
  "</id>\n      <idShort>ApparatusConfiguration</idShort>\n      <kind>Instance</kind>\n      <semanticId>\n        <keys>\n          <key>\n            <type>GlobalReference</type>\n            <value>".toList ++
  escape revision.aasIdentity.semanticId ++
  "</value>\n          </key>\n        </keys>\n      </semanticId>\n      <submodelElements>\n".toList

def revisionWrites : List Write :=
  pushIdentity revision++pushHierarchy revision++pushCapabilities revision ++
    pushExecution revision++pushPolicies revision++pushCapacity revision ++
    pushLifecycleAndContext revision++pushRevisionAndAas revision

def environmentTail : List Char :=
  "      </submodelElements>\n    </submodel>\n  </submodels>\n</environment>\n".toList

def environmentText (payload : String) : List Char :=
  environmentHead revision++(revisionWrites revision ++
    collection "CanonicalPayload" [.property payloadIdShort "xs:string" payload]).flatMap
      Write.text++environmentTail

def isXmlCharacter (c : Char) : Bool :=
  let n := c.toNat
  n == 0x9 || n == 0xA || n == 0xD || (0x20≤n && n≤0xD7FF) || (0xE000≤n && n≤0xFFFD) ||
    (0x10000≤n && n≤0x10FFFF)

def validateXmlCharacters (value : List Char) : Except CanonicalAasxExportError Unit :=
  match value.find? fun c => !isXmlCharacter c with
  | some c => .error (.invalidXmlCharacter c.toNat)
  | none => .ok ()

def canonicalAasEnvironment (payload : String) : Except CanonicalAasxExportError String := do
  ensure (payload.utf8ByteSize ≤ maxCanonicalPayloadBytes) .serialization
  let xml := environmentText revision payload
  validateXmlCharacters xml
  return String.ofList xml

end

/- The reader of the payload. Offsets count characters. -/

def between (text : List Char) (start stop : Nat) : List Char := (text.drop start).take (stop-start)

def payloadMarker : List Char := "<idShort>".toList++(payloadIdShort.toList ++ "</idShort>".toList)

/-- `find` of a pattern in a part of the text, as an offset of the whole. -/
def findFrom (pattern part : List Char) (start : Nat) : Except CanonicalAasxImportError Nat :=
  (required (find pattern part) .invalidCanonicalPayload).map (start + ·)

def extractCanonicalPayload (specification : String) : Except CanonicalAasxImportError String := do
  let text := specification.toList
  let markerStart ← findFrom payloadMarker text 0
  ensure (find payloadMarker (text.drop (markerStart+payloadMarker.length))).isNone
    .invalidCanonicalPayload
  let propertyEnd ← findFrom "</property>".toList (text.drop markerStart) markerStart
  let valueTag ← findFrom "<value>".toList (between text markerStart propertyEnd) markerStart
  let valueStart := valueTag + "<value>".toList.length
  let valueEnd ← findFrom "</value>".toList (between text valueStart propertyEnd) valueStart
  let escaped := between text valueStart valueEnd
  ensure ((String.ofList escaped).utf8ByteSize ≤ maxCanonicalPayloadBytes) .invalidCanonicalPayload
  unescape escaped

end MiniErp.Aasx
