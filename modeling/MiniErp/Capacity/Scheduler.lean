import MiniErp.Capacity.Reservations
import MiniErp.Catalog.Alternatives

/-! The search for a free slot of an apparatus: capacity profiles, working windows, downtimes and
the reservations that running sessions imply. -/
namespace MiniErp.Capacity
open Text Std Run Catalog

structure ApparatusWorkingWindow where
  weekday : Nat
  startMinute : Nat
  endMinute : Nat
  deriving DecidableEq, Repr

structure ApparatusCapacityProfile where
  apparatusId : ApparatusId
  apparatus : String
  capacitySlots : Nat
  setupMinutes : Nat
  cleanupMinutes : Nat
  efficiencyPercent : Nat
  finiteCapacity : Bool
  workingWindows : List ApparatusWorkingWindow
  capabilities : List String
  capabilityLevels : TreeMap String Nat

def normalizedCodesEqual (left right : String) : Bool := eqIgnoreAsciiCase (trim left) (trim right)

section
variable (profile : ApparatusCapacityProfile)

def ApparatusCapacityProfile.capabilityLevel (code : String) : Nat :=
  match profile.capabilityLevels.toList.find? fun entry => normalizedCodesEqual entry.1 code with
  | some entry => entry.2
  | none => if profile.capabilities.any fun item => normalizedCodesEqual item code then 1 else 0

def ApparatusCapacityProfile.supports (requirements : List ApparatusCapabilityRequirement) : Bool :=
  requirements.all fun requirement =>
    profile.capabilityLevel requirement.code ≥ requirement.minLevel

structure ApparatusDowntime where
  apparatusId : ApparatusId
  startsAtUnix : Int
  endsAtUnix : Int
  active : Bool

structure ApparatusScheduleCandidate where
  apparatusId : ApparatusId
  apparatus : String

structure ApparatusScheduleRequest where
  orderId : String
  apparatusId : String
  apparatus : String
  earliestStartUnix : Int
  latestEndUnix : Option Int
  durationMinutes : Nat
  priority : Int
  source : String
  reason : String
  idempotencyKey : String
  capabilityRequirements : List ApparatusCapabilityRequirement
  candidateApparatuses : List ApparatusScheduleCandidate
  actor : QueueActionActor

def canonicalApparatusId (value : String) : Option ApparatusId := ApparatusId.new (trim value)

theorem canonicalApparatusId_eq_some {value : String} {id : ApparatusId} :
    canonicalApparatusId value=some id ↔ id.value=trim value := by
  unfold canonicalApparatusId ApparatusId.new
  split
  · rw [Option.some.injEq]
    constructor
    · intro h
      rw [← h]
    · intro h
      cases id
      cases h
      rfl
  · rename_i hinvalid
    constructor
    · intro h
      cases h
    · intro h
      rw [← h] at hinvalid
      exact absurd id.valid hinvalid

def candidateAllowedForOrder (map : ProductionMapDefinition)
    (sourceId candidateId : ApparatusId) : Bool :=
  let inRoute (id : ApparatusId) : Bool :=
    map.nodes.any fun node => node.kind=.apparatus && trim node.apparatusId=id.value
  inRoute sourceId && inRoute candidateId

/-- Wrapping `i64` arithmetic. -/
def i64 (value : Int) : Int := value.bmod (2^64)

def maxI64 : Int := 2^63-1

theorem i64_eq_self {value : Int} (hlow : -2^63≤value) (hhigh : value<2^63) : i64 value=value :=
  Int.bmod_eq_of_le hlow hhigh

theorem i64_range (value : Int) : -2^63 ≤ i64 value ∧ i64 value<2^63 :=
  ⟨Int.le_bmod (by decide),Int.bmod_lt (by decide)⟩

/-- A sum that leaves the range comes back below its first summand. -/
theorem i64_add_cases {value step : Int} (hrange : -2^63≤value ∧ value<2^63)
    (hstep : 0 ≤ step ∧ step<2^63) :
    i64 (value+step)=value+step ∨ i64 (value+step)<value := by
  by_cases hfits : value+step<2^63
  · exact .inl (i64_eq_self (by omega) hfits)
  · have hwrapped : i64 (value+step)=i64 (value+step-2^64) := by
      exact (Int.sub_bmod_right (value+step) (2^64)).symm
    rw [hwrapped,i64_eq_self (by omega) (by omega)]
    omega

/-- `u64::div_ceil` and the saturating sum of the minutes, as a `u32`. -/
def effectiveDurationMinutes (durationMinutes : Nat) : Except ProductionMapError Nat :=
  let run := (durationMinutes*100+profile.efficiencyPercent-1)/profile.efficiencyPercent
  let total := min (run+profile.setupMinutes+profile.cleanupMinutes) (2^64-1)
  if total<2^32 then .ok total else .error .scheduleInputInvalid

/-- A running session holds its apparatus as an active reservation without end, unless its order
already has an active one there. -/
def withActiveSession (result : List ApparatusScheduleReservation) (session : OrderRunSession) :
    List ApparatusScheduleReservation :=
  match ApparatusId.new (trim session.apparatus) with
  | none => result
  | some apparatusId =>
    if result.any fun reservation =>
        reservation.status=.active && trim reservation.orderId=trim session.orderId &&
          reservation.apparatusId=apparatusId
    then result
    else result ++
      [{ reservationId := "active-session:" ++ trim session.sessionId
         idempotencyKey := "active-session:" ++ trim session.sessionId
         orderId := trim session.orderId
         apparatusId
         apparatus := trim session.apparatus
         startsAtUnix := max session.startedAtUnix 60
         endsAtUnix := maxI64
         requestedDurationMinutes := 1
         reservedDurationMinutes := 1
         status := .active
         priority := 2^31-1
         source := "active_run_session"
         reason := "active execution without a schedule reservation"
         capabilityRequirements := []
         actor := ⟨session.workerRole,session.workerRef,session.workerDisplayName⟩
         createdAtUnix := session.startedAtUnix }]

def reservationsWithActiveSessions (reservations : List ApparatusScheduleReservation)
    (sessions : List OrderRunSession) : List ApparatusScheduleReservation :=
  (sessions.filter fun session => session.status=.active).foldl withActiveSession reservations

/-- `OffsetDateTime::from_unix_timestamp`: weekday (Monday is 1) and minute of the day, for the
years the clock can represent. -/
def fromUnixTimestamp (timestamp : Int) : Option (Int × Int) :=
  if -377705116800≤timestamp ∧ timestamp≤253402300799 then
    some ((timestamp/86400+3)%7+1, timestamp%86400/60)
  else none

def fitsWorkingWindow (start stop : Int) : Bool :=
  profile.workingWindows.isEmpty ||
    match fromUnixTimestamp start, fromUnixTimestamp (i64 (stop-1)) with
    | some (startWeekday, startMinute), some (endWeekday, endMinute) =>
      startWeekday=endWeekday && profile.workingWindows.any fun window =>
        window.weekday=startWeekday && window.startMinute ≤ startMinute &&
          endMinute+1≤window.endMinute
    | _, _ => false

end

def intervalsOverlap (leftStart leftEnd rightStart rightEnd : Int) : Bool :=
  leftStart < rightEnd && rightStart<leftEnd

def maxScheduleHorizonMinutes : Nat := 366*24*60

section Search
variable (profile : ApparatusCapacityProfile) (input : ApparatusScheduleRequest)
  (apparatusId : ApparatusId) (durationMinutes : Nat) (downtimes : List ApparatusDowntime)
  (reservations : List ApparatusScheduleReservation)

def slotEnd (cursor : Int) : Int := i64 (cursor+durationMinutes*60)

def slotFree (cursor : Int) : Bool :=
  let stop := slotEnd durationMinutes cursor
  fitsWorkingWindow profile cursor stop &&
    !(downtimes.any fun downtime => downtime.active && downtime.apparatusId=apparatusId &&
      intervalsOverlap cursor stop downtime.startsAtUnix downtime.endsAtUnix) &&
    !(profile.finiteCapacity && decide (profile.capacitySlots ≤
      reservations.countP fun reservation =>
        reservation.status.reservesCapacity && reservation.apparatusId=apparatusId &&
          intervalsOverlap cursor stop reservation.startsAtUnix reservation.endsAtUnix))

/-- The minutes from the cursor on, at most as many as the horizon leaves. -/
def searchSlot (horizon : Int) : Nat → Int → Except ProductionMapError (Int × Int)
  | 0, _ => .error .capacityNoWorkingWindow
  | fuel+1, cursor =>
    if cursor<horizon then
      let stop := slotEnd durationMinutes cursor
      if input.latestEndUnix.any (· < stop) then .error .capacityNoWorkingWindow
      else if slotFree profile apparatusId durationMinutes downtimes reservations cursor
      then .ok (cursor, stop)
      else searchSlot horizon fuel (i64 (cursor+60))
    else .error .capacityNoWorkingWindow

variable {profile input apparatusId durationMinutes downtimes reservations} in
theorem searchSlot_of_le {horizon cursor : Int} (h : horizon ≤ cursor) (fuel : Nat) :
    searchSlot profile input apparatusId durationMinutes downtimes reservations horizon fuel cursor =
      .error .capacityNoWorkingWindow := by
  cases fuel with
  | zero => rfl
  | succ fuel => rw [searchSlot,if_neg (by omega)]

/-- The minutes up to the horizon are all the fuel the search needs. -/
theorem searchSlot_fuel {horizon cursor : Int} {fuel : Nat} (hfuel : horizon=cursor+60*fuel)
    (hlow : -2^63 ≤ cursor) (hhigh : horizon<2^63) (extra : Nat) :
    searchSlot profile input apparatusId durationMinutes downtimes reservations horizon
        (fuel+extra) cursor =
      searchSlot profile input apparatusId durationMinutes downtimes reservations horizon fuel
        cursor := by
  induction fuel generalizing cursor with
  | zero => rw [searchSlot_of_le (by omega),searchSlot_of_le (by omega)]
  | succ fuel ih =>
    have hnext : i64 (cursor+60)=cursor+60 := i64_eq_self (by omega) (by omega)
    rw [Nat.succ_add,searchSlot,searchSlot,ih (by omega) (by omega)]

def findScheduleSlot : Except ProductionMapError (Int × Int) :=
  let cursor := i64 ((i64 (max input.earliestStartUnix 60+59)).tdiv 60*60)
  searchSlot profile input apparatusId durationMinutes downtimes reservations
    (i64 (cursor+maxScheduleHorizonMinutes*60)) maxScheduleHorizonMinutes cursor

/-- A search with more fuel finds nothing else. -/
theorem findScheduleSlot_fuel (extra : Nat) :
    findScheduleSlot profile input apparatusId durationMinutes downtimes reservations =
      let cursor := i64 ((i64 (max input.earliestStartUnix 60+59)).tdiv 60*60)
      searchSlot profile input apparatusId durationMinutes downtimes reservations
        (i64 (cursor+maxScheduleHorizonMinutes*60)) (maxScheduleHorizonMinutes+extra)
        cursor := by
  simp only [findScheduleSlot]
  generalize hcursor : i64 ((i64 (max input.earliestStartUnix 60+59)).tdiv 60*60)=cursor
  have hrange := i64_range ((i64 (max input.earliestStartUnix 60+59)).tdiv 60*60)
  rw [hcursor] at hrange
  have hhigh := (i64_range (cursor+maxScheduleHorizonMinutes*60)).2
  cases @i64_add_cases cursor (maxScheduleHorizonMinutes*60) hrange (by decide) with
  | inl hfits => exact (searchSlot_fuel _ _ _ _ _ _ (by omega) hrange.1 hhigh extra).symm
  | inr hover => rw [searchSlot_of_le hover.le,searchSlot_of_le hover.le]

end Search

end MiniErp.Capacity
