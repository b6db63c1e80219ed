import MiniErp.Catalog.Alternatives
import MiniErp.Lib.Run

/-! Which machine may take over the work of another: the canonical configuration of a machine,
its capabilities, and the limits of the printing machines. -/
namespace MiniErp.Catalog
open Run

inductive LifecycleState where
  | active
  | retired
  deriving DecidableEq, Repr

structure ProjectionSource where
  apparatusId : String
  sourceRevision : Nat
  sourceAasxSha256 : String
  deriving DecidableEq, Repr

structure RuntimeApparatusConfiguration where
  runtime : RuntimeApparatus
  sourceRevision : Nat
  sourceAasxSha256 : String
  lifecycle : LifecycleState
  queue : ProjectionSource
  material : ProjectionSource
  capacity : ProjectionSource
  deriving DecidableEq, Repr

namespace RuntimeApparatusConfiguration
variable (apparatus : RuntimeApparatusConfiguration)

/-- The rows come from one revision of one machine. -/
def hasCoherentSource : Bool :=
  let source : ProjectionSource :=
    ⟨apparatus.runtime.apparatusId,apparatus.sourceRevision,apparatus.sourceAasxSha256⟩
  apparatus.queue == source && apparatus.material == source && apparatus.capacity == source

def isActive : Bool := apparatus.lifecycle == .active

def level (capability : EquipmentCapabilityCode) : Option Nat :=
  apparatus.runtime.capabilities.lookup capability

def supports (capability : EquipmentCapabilityCode) : Bool := (apparatus.level capability).isSome

end RuntimeApparatusConfiguration

/-- The read side of the machine catalogue. -/
structure ApparatusResolver where
  resolve : ApparatusId → Except ProductionMapError (Option RuntimeApparatusConfiguration)
  list : Except ProductionMapError (List RuntimeApparatusConfiguration)

def ApparatusResolver.resolveCanonicalApparatus (resolver : ApparatusResolver)
    (id : ApparatusId) : Except ProductionMapError RuntimeApparatusConfiguration := do
  match ← resolver.resolve id with
  | none => .error .storeFailed
  | some configuration =>
    ensure (configuration.runtime.apparatusId == id.value && configuration.hasCoherentSource &&
      configuration.isActive) .storeFailed
    return configuration

def ApparatusResolver.activeCanonicalApparatuses (resolver : ApparatusResolver) :
    Except ProductionMapError (List RuntimeApparatusConfiguration) := do
  let configurations ← resolver.list
  ensure (configurations.all (·.hasCoherentSource)) .storeFailed
  return configurations.filter (·.isActive)

namespace Pechat

structure PechatPolicy where
  technology : ProcessTechnology
  colorStations : Option Nat

section
variable (apparatus : RuntimeApparatusConfiguration)

def policyFor : Option PechatPolicy :=
  let profile := apparatus.runtime.executionProfile
  if apparatus.isActive && profile.operation == .print && apparatus.supports .print then
    some ⟨profile.technology,profile.colorStationCount⟩
  else none

def isPechatApparatus : Bool := (policyFor apparatus).isSome

def isFlexoApparatus : Bool :=
  (policyFor apparatus).any fun policy => policy.technology == .flexographic

/-- The station count, if it fits eight bits. -/
def pechatColorStations : Option Nat :=
  (policyFor apparatus).bind fun policy => policy.colorStations.filter fun count =>
    decide (count≤255)

end

def operationCapability : ExecutionOperation → EquipmentCapabilityCode
  | .print => .print
  | .laminate => .laminate
  | .cut => .cut
  | .package => .package
  | .glue => .glue

def rerouteCompatible (source target : RuntimeApparatusConfiguration) : Bool :=
  let sourceProfile := source.runtime.executionProfile
  let targetProfile := target.runtime.executionProfile
  if !source.isActive || !target.isActive || !sourceProfile.capabilityCompatibleReroute ||
      !targetProfile.capabilityCompatibleReroute ||
      sourceProfile.operation != targetProfile.operation || (sourceProfile.operation != .print &&
        sourceProfile.technology != targetProfile.technology) then
    false
  else
    let capability := operationCapability sourceProfile.operation
    match source.level capability, target.level capability with
    | some sourceLevel, some targetLevel => decide (sourceLevel≤targetLevel)
    | _, _ => false

section Order
variable (rollCount : Option Int) (widthMm : Option F64)

def positiveRolls : Option Int := rollCount.filter fun value => decide (0<value)

def positiveWidth : Option F64 := widthMm.filter fun value => F64.zero.lt value

def apparatusProfileCanHandleOrder (apparatus : RuntimeApparatusConfiguration) : Bool :=
  let profile := apparatus.runtime.executionProfile
  let tooManyRolls := (positiveRolls rollCount).any fun rolls =>
    profile.colorStationCount.any fun maximum => decide ((maximum : Int) < rolls)
  if profile.technology == .flexographic && tooManyRolls then false
  else
    match positiveWidth widthMm with
    | none => true
    | some width =>
      !(profile.minWebWidthMm.any fun minimum => width.lt (F64.ofInt minimum)) &&
        !(profile.maxWebWidthMm.any fun maximum => (F64.ofInt maximum).lt width)

/-- The size of the rubber plate: the width in steps of 50 mm, between 50 and 1350. -/
def rubberSizeFromWidth (width : F64) : Int := max 1 (min 27 (width.divInt 50).ceilInt)*50

def rollsRequire (rolls : Int) : Option Nat :=
  if 9 < rolls then none else if 8 < rolls then some 9 else if 7 < rolls then some 8 else some 7

def widthRequires (width : F64) : Option Nat :=
  let rubber := rubberSizeFromWidth width
  if 1350 < rubber then none
  else if 1050 < rubber then some 9
  else if 850 < rubber then some 8
  else some 7

def recommendedPechatColorCount : Option Nat :=
  match positiveRolls rollCount, positiveWidth widthMm with
  | none, none => none
  | some rolls, none => rollsRequire rolls
  | none, some width => widthRequires width
  | some rolls, some width => do return max (← rollsRequire rolls) (← widthRequires width)

def pechatCanHandleOrder (apparatusColorCount : Nat) : Bool :=
  if rollCount.any fun rolls => decide ((apparatusColorCount : Int) < rolls) then false
  else
    match positiveWidth widthMm with
    | none => true
    | some width =>
      if !width.isFinite || (F64.ofInt 1350).lt width then false
      else
        let rubber := rubberSizeFromWidth width
        match apparatusColorCount with
        | 7 => decide (rubber≤850)
        | 8 => decide (150 ≤ rubber ∧ rubber≤1050)
        | 9 => decide (800 ≤ rubber ∧ rubber≤1350)
        | _ => false

def pechatCanMoveOrder (apparatusColorCount : Nat) (sourceApparatusColorCount : Option Nat) :
    Bool :=
  if (recommendedPechatColorCount rollCount widthMm).any fun recommended =>
      decide (apparatusColorCount < recommended) then false
  else if sourceApparatusColorCount.any fun source => decide (apparatusColorCount < source) then
    (positiveWidth widthMm).isSome && pechatCanHandleOrder rollCount widthMm apparatusColorCount
  else if (positiveRolls rollCount).isNone || (positiveWidth widthMm).isNone then
    apparatusColorCount != 9
  else pechatCanHandleOrder rollCount widthMm apparatusColorCount

def rerouteOrderCompatible (source target : RuntimeApparatusConfiguration) : Bool :=
  if !rerouteCompatible source target ||
      (isPechatApparatus target && !apparatusProfileCanHandleOrder rollCount widthMm target) then
    false
  else if isFlexoApparatus target then true
  else
    match pechatColorStations target with
    | none => true
    | some stations => pechatCanMoveOrder rollCount widthMm stations (pechatColorStations source)

end Order

example : rubberSizeFromWidth (F64.ofInt 801)=850 := by decide +kernel

end Pechat

end MiniErp.Catalog
