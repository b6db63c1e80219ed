import MiniErp.Capacity.Scheduler

/-! `schedule_apparatus_order`: a request is placed on the admissible apparatus that is free first,
and a repeated one is answered from the table. -/
namespace MiniErp.Capacity
open Text Std Run Tally Catalog

structure ProjectionSource where
  apparatusId : ApparatusId
  sourceRevision : Nat
  sourceAasxSha256 : String
  deriving DecidableEq

/-- The canonical configuration of a machine, as far as the scheduler reads it. Validation of the
canonical revision keeps the efficiency positive. -/
structure RuntimeApparatusConfiguration where
  runtime : ProjectionSource
  queue : ProjectionSource
  material : ProjectionSource
  capacity : ProjectionSource
  active : Bool
  displayName : String
  capabilities : List (EquipmentCapabilityCode × Nat)
  capacitySlots : Nat
  setupMinutes : Nat
  cleanupMinutes : Nat
  efficiencyPercent : Nat
  finiteCapacity : Bool
  workingWindows : List ApparatusWorkingWindow
  efficiency_pos : 0<efficiencyPercent

def RuntimeApparatusConfiguration.hasCoherentSource
    (configuration : RuntimeApparatusConfiguration) : Bool :=
  configuration.queue=configuration.runtime && configuration.material=configuration.runtime &&
    configuration.capacity=configuration.runtime

/-- What a scheduling request reads beside the table of reservations. -/
structure SchedulingStore where
  resolve : ApparatusId → Except ProductionMapError (Option RuntimeApparatusConfiguration)
  maps : List ProductionMapDefinition
  apparatusDowntimes : List ApparatusDowntime
  orderRunSessionsForAudit : List OrderRunSession

section
variable (store : SchedulingStore)

def SchedulingStore.resolveCanonicalApparatus
    (apparatusId : ApparatusId) : Except ProductionMapError RuntimeApparatusConfiguration := do
  match ← store.resolve apparatusId with
  | none => .error .storeFailed
  | some configuration =>
    ensure (configuration.runtime.apparatusId=apparatusId && configuration.hasCoherentSource &&
      configuration.active) .storeFailed
    return configuration

def SchedulingStore.validatedCanonicalApparatus
    (apparatusId : ApparatusId) : Except ProductionMapError RuntimeApparatusConfiguration := do
  let canonical ← store.resolveCanonicalApparatus apparatusId
  ensure (canonical.runtime.apparatusId=apparatusId && canonical.hasCoherentSource) .storeFailed
  return canonical

def capabilityCodeName : EquipmentCapabilityCode → String
  | .print => "print"
  | .laminate => "laminate"
  | .cut => "cut"
  | .package => "package"
  | .glue => "glue"
  | .tooling => "tooling"
  | .virtualTask => "virtual_task"
  | .training => "training"

def canonicalCapacityProfile (canonical : RuntimeApparatusConfiguration) :
    Except ProductionMapError ApparatusCapacityProfile := do
  ensure (canonical.hasCoherentSource && canonical.active) .storeFailed
  let capabilityLevels : TreeMap String Nat :=
    TreeMap.ofList (canonical.capabilities.map fun entry => (capabilityCodeName entry.1, entry.2))
  return {
    apparatusId := canonical.runtime.apparatusId
    apparatus := canonical.displayName
    capacitySlots := canonical.capacitySlots
    setupMinutes := canonical.setupMinutes
    cleanupMinutes := canonical.cleanupMinutes
    efficiencyPercent := canonical.efficiencyPercent
    finiteCapacity := canonical.finiteCapacity
    workingWindows := canonical.workingWindows
    capabilities := capabilityLevels.keys
    capabilityLevels }

/-- The items that pass, each key only where it comes first. -/
def keepFirst {α : Type} (keep : α → Bool) (key : α → String) (seen : List String) : List α → List α
  | [] => []
  | item::rest =>
    if keep item && !seen.contains (key item)
    then item::keepFirst keep key (key item::seen) rest
    else keepFirst keep key seen rest

def normalizeScheduleRequest (input : ApparatusScheduleRequest) :
    Except ProductionMapError ApparatusScheduleRequest := do
  let orderId := trim input.orderId
  let apparatusId := trim input.apparatusId
  let idempotencyKey := trim input.idempotencyKey
  ensure (!(orderId == "" || apparatusId == "" || input.durationMinutes == 0 ||
    input.durationMinutes > 30*24*60 || input.earliestStartUnix≤0 || idempotencyKey == "" ||
    idempotencyKey.utf8ByteSize > 200)) .scheduleInputInvalid
  let primaryId ← (canonicalApparatusId apparatusId).elim (.error .scheduleInputInvalid) .ok
  ensure (!input.latestEndUnix.any (· ≤ input.earliestStartUnix)) .scheduleInputInvalid
  let requirements := input.capabilityRequirements.map fun requirement =>
    { code := toAsciiLowercase (trim requirement.code), minLevel := max requirement.minLevel 1 :
      ApparatusCapabilityRequirement }
  let candidates := input.candidateApparatuses.map fun candidate =>
    { candidate with apparatus := trim candidate.apparatus }
  return { input with
    orderId
    apparatusId
    apparatus := trim input.apparatus
    source := trim input.source
    reason := trim input.reason
    idempotencyKey
    capabilityRequirements := keepFirst (fun requirement => requirement.code ≠ "")
      (fun requirement => requirement.code) [] requirements
    candidateApparatuses := keepFirst (fun candidate => candidate.apparatusId≠primaryId)
      (fun candidate => candidate.apparatusId.value) [] candidates }

structure ScheduledCandidate where
  index : Nat
  candidate : ApparatusScheduleCandidate
  profile : ApparatusCapacityProfile
  reservedDurationMinutes : Nat
  startsAtUnix : Int
  endsAtUnix : Int

structure CandidateSearch where
  routeCandidateCount : Nat := 0
  supportedCandidateCount : Nat := 0
  capabilityNotSupported : Bool := false
  capabilityLevelInsufficient : Bool := false
  bestSlot : Option ScheduledCandidate := none

/-- Earlier start first, then the order of the request. -/
def CandidateSearch.offer (search : CandidateSearch) (slot : ScheduledCandidate) :
    CandidateSearch :=
  match search.bestSlot with
  | none => { search with bestSlot := some slot }
  | some best =>
    if slot.startsAtUnix<best.startsAtUnix ∨
        slot.startsAtUnix=best.startsAtUnix ∧ slot.index<best.index
    then { search with bestSlot := some slot }
    else search

def considerCandidate (input : ApparatusScheduleRequest)
    (map : ProductionMapDefinition) (apparatusId : ApparatusId)
    (reservations : List ApparatusScheduleReservation) (search : CandidateSearch)
    (entry : ApparatusScheduleCandidate × Nat) : Except ProductionMapError CandidateSearch :=
  if !candidateAllowedForOrder map apparatusId entry.1.apparatusId then .ok search
  else do
    let search := { search with routeCandidateCount := search.routeCandidateCount+1 }
    let canonical ← store.validatedCanonicalApparatus entry.1.apparatusId
    let profile ← canonicalCapacityProfile canonical
    let candidate := { entry.1 with apparatus := canonical.displayName }
    if !profile.supports input.capabilityRequirements then
      if input.capabilityRequirements.any fun requirement =>
          profile.capabilityLevel requirement.code=0
      then return { search with capabilityNotSupported := true }
      else return { search with capabilityLevelInsufficient := true }
    else
      let search := { search with supportedCandidateCount := search.supportedCandidateCount+1 }
      let reservedDurationMinutes ← effectiveDurationMinutes profile input.durationMinutes
      match findScheduleSlot profile input candidate.apparatusId reservedDurationMinutes
        store.apparatusDowntimes reservations with
      | .error _ => return search
      | .ok (startsAtUnix, endsAtUnix) =>
        return search.offer
          { index := entry.2, candidate, profile, reservedDurationMinutes, startsAtUnix,
            endsAtUnix }

structure ApparatusScheduleConflict where
  reservationId : String
  orderId : String
  startsAtUnix : Int
  endsAtUnix : Int
  detail : String
  deriving DecidableEq

structure ApparatusScheduleResult where
  reservation : ApparatusScheduleReservation
  conflicts : List ApparatusScheduleConflict
  deriving DecidableEq

/-- The checks of a request before the table is read: the normalised request, its primary
apparatus and the map of its order. -/
def admitScheduleRequest (input : ApparatusScheduleRequest) :
    Except ProductionMapError
      (ApparatusScheduleRequest × ApparatusId × ProductionMapDefinition) := do
  let input ← normalizeScheduleRequest input
  let apparatusId ← (canonicalApparatusId input.apparatusId).elim (.error .scheduleInputInvalid) .ok
  let _ ← store.validatedCanonicalApparatus apparatusId
  match store.maps.find? fun map => trim map.id=input.orderId with
  | none => .error .mapNotFound
  | some map => return (input, apparatusId, map)

end

def newReservation (input : ApparatusScheduleRequest) (now : Int) (best : ScheduledCandidate) :
    ApparatusScheduleReservation where
  reservationId := "apparatus-reservation:" ++ input.idempotencyKey
  idempotencyKey := input.idempotencyKey
  orderId := input.orderId
  apparatusId := best.candidate.apparatusId
  apparatus := best.candidate.apparatus
  startsAtUnix := best.startsAtUnix
  endsAtUnix := best.endsAtUnix
  requestedDurationMinutes := input.durationMinutes
  reservedDurationMinutes := best.reservedDurationMinutes
  status := .planned
  priority := input.priority
  source := input.source
  reason := input.reason
  capabilityRequirements := input.capabilityRequirements
  actor := input.actor
  createdAtUnix := now

section
variable (store : SchedulingStore) (now : Int) (input : ApparatusScheduleRequest)

def placeReservation
    (apparatusId : ApparatusId) (map : ProductionMapDefinition) (table : ReservationTable) :
    Except ProductionMapError (ApparatusScheduleResult × ReservationTable) := do
  store.orderRunSessionsForAudit.forM fun session => do
    let sessionId ← (canonicalApparatusId session.apparatus).elim (.error .storeFailed) .ok
    let _ ← store.validatedCanonicalApparatus sessionId
  let reservations := reservationsWithActiveSessions (rows table) store.orderRunSessionsForAudit
  let candidates := { apparatusId, apparatus := "" } :: input.candidateApparatuses
  let search ← candidates.zipIdx.foldlM
    (considerCandidate store input map apparatusId reservations) {}
  ensure (search.routeCandidateCount != 0) .moveNotAllowed
  match search.bestSlot with
  | some best =>
    let (reservation, table) ← putApparatusScheduleReservation (newReservation input now best)
      best.profile.capacitySlots best.profile.finiteCapacity table
    return (⟨reservation,[]⟩, table)
  | none =>
    if search.supportedCandidateCount=0 then
      if search.capabilityNotSupported then .error .capabilityNotSupported
      else if search.capabilityLevelInsufficient then .error .capabilityLevelInsufficient
      else .error .capacityNoWorkingWindow
    else .error .capacityNoWorkingWindow

def scheduleApparatusOrder
    (table : ReservationTable) :
    Except ProductionMapError (ApparatusScheduleResult × ReservationTable) := do
  let (input, apparatusId, map) ← admitScheduleRequest store input
  match apparatusScheduleReservationByIdempotencyKey input.idempotencyKey table with
  | some existing =>
    if trim existing.orderId≠input.orderId ∨ existing.apparatusId≠apparatusId
    then .error .scheduleIdempotencyConflict
    else return (⟨existing,[]⟩, table)
  | none => placeReservation store now input apparatusId map table

end

section Replay
variable {store : SchedulingStore} {now later : Int} {input request : ApparatusScheduleRequest}
  {apparatusId : ApparatusId} {map : ProductionMapDefinition} {table next : ReservationTable}
  {result : ApparatusScheduleResult}

theorem normalizeScheduleRequest_ok (h : normalizeScheduleRequest input=.ok request) :
    request.orderId=trim input.orderId ∧ request.idempotencyKey=trim input.idempotencyKey ∧
      request.apparatusId=trim input.apparatusId := by
  simp only [normalizeScheduleRequest,bind_eq_ok] at h
  obtain ⟨_,_,_,_,_,_,h⟩ := h
  cases h
  exact ⟨rfl,rfl,rfl⟩

theorem admitScheduleRequest_ok
    (h : admitScheduleRequest store input=.ok (request, apparatusId, map)) :
    request.orderId=trim input.orderId ∧ request.idempotencyKey=trim input.idempotencyKey ∧
      apparatusId.value=trim input.apparatusId := by
  simp only [admitScheduleRequest,bind_eq_ok] at h
  obtain ⟨normalized,hnormalized,id,hid,_,_,h⟩ := h
  have hprimary : canonicalApparatusId normalized.apparatusId=some id := by
    cases hcanonical : canonicalApparatusId normalized.apparatusId with
    | none =>
      rw [hcanonical] at hid
      cases hid
    | some found =>
      rw [hcanonical] at hid
      cases hid
      rfl
  obtain ⟨horder,hkey,happaratus⟩ := normalizeScheduleRequest_ok hnormalized
  split at h
  · cases h
  · cases h
    rw [canonicalApparatusId_eq_some,happaratus,trim_trim] at hprimary
    exact ⟨horder,hkey,hprimary⟩

theorem placeReservation_ok
    (h : placeReservation store now request apparatusId map table=.ok (result, next)) :
    ∃ best, (∃ reservations search, (({ apparatusId, apparatus := "" } ::
        request.candidateApparatuses).zipIdx.foldlM (considerCandidate store request map apparatusId
          reservations) {})=.ok search ∧ search.bestSlot=some best) ∧
      putApparatusScheduleReservation (newReservation request now best) best.profile.capacitySlots
        best.profile.finiteCapacity table=.ok (result.reservation, next) ∧ result.conflicts=[] := by
  simp only [placeReservation,bind_eq_ok] at h
  obtain ⟨_,_,search,hsearch,_,_,h⟩ := h
  split at h
  · rename_i best hbest
    rw [bind_eq_ok] at h
    obtain ⟨⟨reservation,after⟩,hput,h⟩ := h
    cases h
    exact ⟨best,⟨_,search,hsearch,hbest⟩,hput,rfl⟩
  · split at h
    · split at h
      · cases h
      · split at h <;> cases h
    · cases h

theorem placeReservation_stored
    (hnone : apparatusScheduleReservationByIdempotencyKey request.idempotencyKey table=none)
    (hkey : trim request.idempotencyKey=request.idempotencyKey)
    (h : placeReservation store now request apparatusId map table=.ok (result, next)) :
    result.conflicts=[] ∧ result.reservation.orderId=request.orderId ∧
      apparatusScheduleReservationByIdempotencyKey request.idempotencyKey next =
        some result.reservation := by
  obtain ⟨best,-,hput,hconflicts⟩ := placeReservation_ok h
  rw [apparatusScheduleReservationByIdempotencyKey,hkey] at hnone
  unfold putApparatusScheduleReservation at hput
  split at hput
  · rename_i existing hexisting
    have hsame : (rows table).find? (fun item => item.idempotencyKey=request.idempotencyKey) =
        some existing := hexisting
    rw [hnone] at hsame
    cases hsame
  · simp only [] at hput
    split at hput
    · cases hput
    · rw [Except.ok.injEq,Prod.mk.injEq] at hput
      obtain ⟨hstored,hnext⟩ := hput
      refine ⟨hconflicts,?_,?_⟩
      · rw [← hstored]
        rfl
      · rw [apparatusScheduleReservationByIdempotencyKey,hkey,← hnext,← hstored]
        exact find?_rows_insert (decide_eq_true rfl) hnone

end Replay

section Samples

def secondPressId : ApparatusId := ⟨"apparatus:press:2",by decide +kernel⟩

def pressConfiguration (id : ApparatusId) : RuntimeApparatusConfiguration where
  runtime := ⟨id,1,""⟩
  queue := ⟨id,1,""⟩
  material := ⟨id,1,""⟩
  capacity := ⟨id,1,""⟩
  active := true
  displayName := "Press"
  capabilities := []
  capacitySlots := 1
  setupMinutes := 0
  cleanupMinutes := 0
  efficiencyPercent := 100
  finiteCapacity := true
  workingWindows := []
  efficiency_pos := by decide

/-- An order that two presses can print, with the downtimes of its machines. -/
def pressStore (downtimes : List ApparatusDowntime) : SchedulingStore where
  resolve := fun id => .ok (some (pressConfiguration id))
  maps :=
    [{ id := "a", productCode := "film", title := "Film",
       nodes :=
        [{ id := "1", kind := .apparatus, title := "", apparatusId := pressId.value },
          { id := "2", kind := .apparatus, title := "", apparatusId := secondPressId.value }],
       edges := [] }]
  apparatusDowntimes := downtimes
  orderRunSessionsForAudit := []

def pressRequest : ApparatusScheduleRequest where
  orderId := "a"
  apparatusId := pressId.value
  apparatus := ""
  earliestStartUnix := 600
  latestEndUnix := some 1200
  durationMinutes := 10
  priority := 0
  source := ""
  reason := ""
  idempotencyKey := "key"
  capabilityRequirements := []
  candidateApparatuses := [⟨secondPressId,""⟩]
  actor := workerActor

end Samples

end MiniErp.Capacity
