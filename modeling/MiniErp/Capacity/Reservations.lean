import Mathlib
import MiniErp.Lib.Run
import MiniErp.Lib.Tally
import MiniErp.Types

/-! Reservations of apparatus time: the table of the store, the three operations on it, and how
many reservations hold an instant of one apparatus along a run of them. -/
namespace MiniErp.Capacity
open Text Std Run Tally

inductive ApparatusScheduleStatus where
  | planned
  | active
  | paused
  | completed
  | cancelled
  deriving DecidableEq, Repr

def ApparatusScheduleStatus.reservesCapacity : ApparatusScheduleStatus → Bool
  | .planned | .active => true
  | _ => false

structure ApparatusCapabilityRequirement where
  code : String
  minLevel : Nat
  deriving DecidableEq, Repr

structure ApparatusScheduleReservation where
  reservationId : String
  idempotencyKey : String
  orderId : String
  apparatusId : ApparatusId
  apparatus : String
  startsAtUnix : Int
  endsAtUnix : Int
  requestedDurationMinutes : Nat
  reservedDurationMinutes : Nat
  status : ApparatusScheduleStatus
  priority : Int
  source : String
  reason : String
  capabilityRequirements : List ApparatusCapabilityRequirement
  actor : QueueActionActor
  createdAtUnix : Int
  deriving DecidableEq

structure ApparatusScheduleCancelRequest where
  reservationId : String
  reason : String
  actor : QueueActionActor

abbrev ReservationTable := TreeMap String ApparatusScheduleReservation

def apparatusScheduleReservationByIdempotencyKey (idempotencyKey : String)
    (table : ReservationTable) : Option ApparatusScheduleReservation :=
  (rows table).find? fun reservation => reservation.idempotencyKey=trim idempotencyKey

/-- The stored reservations that overlap a new one on its apparatus. -/
def overlaps (reservation item : ApparatusScheduleReservation) : Bool :=
  item.status.reservesCapacity && item.apparatusId=reservation.apparatusId &&
    item.startsAtUnix < reservation.endsAtUnix && reservation.startsAtUnix < item.endsAtUnix

def putApparatusScheduleReservation (reservation : ApparatusScheduleReservation)
    (capacitySlots : Nat) (finiteCapacity : Bool) (table : ReservationTable) :
    Except ProductionMapError (ApparatusScheduleReservation × ReservationTable) :=
  match (rows table).find? fun item => item.idempotencyKey=reservation.idempotencyKey with
  | some existing =>
    if existing.orderId≠reservation.orderId ∨ existing.apparatusId≠reservation.apparatusId
    then .error .scheduleIdempotencyConflict
    else .ok (existing, table)
  | none =>
    let conflicts := tally (overlaps reservation) table
    if finiteCapacity ∧ (capacitySlots=0 ∨ conflicts ≥ capacitySlots)
    then .error .capacityConflict
    else .ok (reservation, table.insert reservation.reservationId reservation)

def cancelApparatusScheduleReservation (input : ApparatusScheduleCancelRequest)
    (table : ReservationTable) :
    Except ProductionMapError (ApparatusScheduleReservation × ReservationTable) :=
  match table[trim input.reservationId]? with
  | none => .error .scheduleReservationNotFound
  | some reservation =>
    if reservation.status ≠ .planned then .error .scheduleReservationLocked
    else
      let reason := trim input.reason
      let cancelled :=
        { reservation with
          status := .cancelled
          reason :=
            if reason = "" then reservation.reason
            else reservation.reason ++ "; cancelled: " ++ reason
          actor := input.actor }
      .ok (cancelled, table.insert (trim input.reservationId) cancelled)

def ApparatusScheduleReservation.withStatus (reservation : ApparatusScheduleReservation)
    (status : ApparatusScheduleStatus) (actor : QueueActionActor) : ApparatusScheduleReservation :=
  { reservation with status, actor }

def reservationOf (orderId : String) (apparatusId : ApparatusId) (table : ReservationTable) :
    Option (String × ApparatusScheduleReservation) :=
  table.toList.find? fun entry =>
    trim entry.2.orderId=trim orderId && entry.2.apparatusId=apparatusId

def allowedStatusChange : ApparatusScheduleStatus → ApparatusScheduleStatus → Bool
  | .planned, .active | .paused, .active => true
  | .active, .paused => true
  | .planned, .completed | .active, .completed | .paused, .completed => true
  | _, _ => false

def updateApparatusScheduleReservationStatus (orderId : String) (apparatusId : ApparatusId)
    (status : ApparatusScheduleStatus) (actor : QueueActionActor) (table : ReservationTable) :
    Except ProductionMapError ReservationTable :=
  match reservationOf orderId apparatusId table with
  | none => .ok table
  | some (key, reservation) =>
    if reservation.status=status then .ok table
    else if allowedStatusChange reservation.status status
    then .ok (table.insert key (reservation.withStatus status actor))
    else .error .scheduleReservationLocked

inductive ReservationRequest where
  | put (reservation : ApparatusScheduleReservation) (capacitySlots : Nat) (finiteCapacity : Bool)
  | cancel (input : ApparatusScheduleCancelRequest)
  | updateStatus (orderId : String) (apparatusId : ApparatusId) (status : ApparatusScheduleStatus)
    (actor : QueueActionActor)

def ReservationRequest.step : ReservationRequest → ReservationTable →
    Except ProductionMapError ReservationTable
  | .put reservation capacitySlots finiteCapacity, table =>
    (putApparatusScheduleReservation reservation capacitySlots finiteCapacity table).map Prod.snd
  | .cancel input, table => (cancelApparatusScheduleReservation input table).map Prod.snd
  | .updateStatus orderId apparatusId status actor, table =>
    updateApparatusScheduleReservationStatus orderId apparatusId status actor table

def ApparatusScheduleReservation.covers (reservation : ApparatusScheduleReservation)
    (instant : Int) : Bool :=
  reservation.startsAtUnix ≤ instant && instant < reservation.endsAtUnix

section
variable (apparatus : ApparatusId)

def holds (instant : Int) (item : ApparatusScheduleReservation) : Bool :=
  item.status.reservesCapacity && item.apparatusId=apparatus && item.covers instant

def WithinCapacity (slots : Nat) (table : ReservationTable) : Prop :=
  ∀ instant, tally (holds apparatus instant) table ≤ slots

/-- Every reservation put on the apparatus is checked against the same finite number of slots. -/
def ReservationRequest.FixedSlots (slots : Nat) : ReservationRequest → Prop
  | .put reservation capacitySlots finiteCapacity =>
    reservation.apparatusId=apparatus → capacitySlots=slots ∧ finiteCapacity=true
  | _ => True

/-- A paused reservation is made active again at an instant whose slots are all held. -/
def ReservationRequest.ReactivatesIntoFull (slots : Nat)
    (table : ReservationTable) : ReservationRequest → Prop
  | .updateStatus orderId apparatusId status _ =>
    apparatusId=apparatus ∧ status=.active ∧
      ∃ entry, reservationOf orderId apparatus table=some entry ∧ entry.2.status=.paused ∧
        ∃ instant, entry.2.covers instant=true ∧ slots≤tally (holds apparatus instant) table
  | _ => False

end

section Steps
variable {apparatus : ApparatusId} {slots : Nat} {table next : ReservationTable}

theorem withinCapacity_empty : WithinCapacity apparatus slots ∅ := fun _ => Nat.zero_le _

variable {reservation : ApparatusScheduleReservation}

/-- An accepted reservation finds a free slot at every instant it covers. -/
theorem overlaps_of_holds {item : ApparatusScheduleReservation} {instant : Int}
    (hcovers : reservation.covers instant=true)
    (hholds : holds reservation.apparatusId instant item=true) :
    overlaps reservation item=true := by
  simp only [holds,overlaps,ApparatusScheduleReservation.covers,Bool.and_eq_true,
    decide_eq_true_eq] at *
  obtain ⟨⟨hreserves,hsame⟩,hstart,hend⟩ := hholds
  exact ⟨⟨⟨hreserves,hsame⟩,by omega⟩,by omega⟩

theorem holds_apparatus {item : ApparatusScheduleReservation} {instant : Int}
    (h : holds apparatus instant item=true) :
    item.apparatusId=apparatus ∧ item.covers instant=true := by
  simp only [holds,Bool.and_eq_true,decide_eq_true_eq] at h
  exact ⟨h.1.2,h.2⟩

theorem put_within {capacitySlots : Nat}
    {finiteCapacity : Bool} {stored : ApparatusScheduleReservation}
    (h : putApparatusScheduleReservation reservation capacitySlots finiteCapacity table =
      .ok (stored, next))
    (hfixed : reservation.apparatusId=apparatus → capacitySlots=slots ∧ finiteCapacity=true)
    (hwithin : WithinCapacity apparatus slots table) : WithinCapacity apparatus slots next := by
  unfold putApparatusScheduleReservation at h
  split at h
  · split at h
    · cases h
    · cases h
      exact hwithin
  · simp only [] at h
    split at h
    · cases h
    · rename_i hfree
      cases h
      intro instant
      refine (tally_insert_le _ _).trans ?_
      cases hholds : holds apparatus instant reservation with
      | false => exact hwithin instant
      | true =>
        obtain ⟨rfl,hcovers⟩ := holds_apparatus hholds
        obtain ⟨rfl,rfl⟩ := hfixed rfl
        have hle : tally (holds reservation.apparatusId instant) table ≤
            tally (overlaps reservation) table :=
          tally_mono fun _ _ _ hitem => overlaps_of_holds hcovers hitem
        simp only [true_and,not_or] at hfree
        simp only [Bool.toNat_true]
        omega

theorem cancel_within {input : ApparatusScheduleCancelRequest}
    {stored : ApparatusScheduleReservation}
    (h : cancelApparatusScheduleReservation input table=.ok (stored, next))
    (hwithin : WithinCapacity apparatus slots table) : WithinCapacity apparatus slots next := by
  unfold cancelApparatusScheduleReservation at h
  split at h
  · cases h
  · split at h
    · cases h
    · cases h
      intro instant
      refine (tally_insert_le _ _).trans ?_
      exact hwithin instant

theorem reservationOf_eq_some {orderId : String} {apparatusId : ApparatusId}
    {entry : String × ApparatusScheduleReservation}
    (h : reservationOf orderId apparatusId table=some entry) :
    table[entry.1]?=some entry.2 ∧ entry.2.apparatusId=apparatusId := by
  have hmem := List.mem_of_find?_eq_some h
  have htest := List.find?_some h
  simp only [Bool.and_eq_true,decide_eq_true_eq] at htest
  exact ⟨TreeMap.mem_toList_iff_getElem?_eq_some.mp hmem,htest.2⟩

/-- Only a paused reservation that becomes active takes a slot it did not hold. -/
theorem reserves_of_allowed {old status : ApparatusScheduleStatus}
    (h : allowedStatusChange old status=true) (hreserves : status.reservesCapacity=true) :
    old.reservesCapacity=true ∨ old=.paused ∧ status=.active := by
  cases old <;> cases status <;>
    simp_all [allowedStatusChange,ApparatusScheduleStatus.reservesCapacity]

theorem holds_withStatus (reservation : ApparatusScheduleReservation)
    (status : ApparatusScheduleStatus) (actor : QueueActionActor) (instant : Int) :
    holds apparatus instant (reservation.withStatus status actor) =
      (status.reservesCapacity && (reservation.apparatusId=apparatus &&
        reservation.covers instant)) :=
  Bool.and_assoc ..

/-- Making a paused reservation active adds it at every instant it covers. -/
theorem reactivate_within_iff {key : String} (hget : table[key]?=some reservation)
    (hsame : reservation.apparatusId=apparatus) (hpaused : reservation.status=.paused)
    (actor : QueueActionActor) (hwithin : WithinCapacity apparatus slots table) :
    WithinCapacity apparatus slots (table.insert key (reservation.withStatus .active actor)) ↔
    ¬∃ instant, reservation.covers instant=true ∧
    slots≤tally (holds apparatus instant) table := by
  have htally : ∀ instant, tally (holds apparatus instant)
      (table.insert key (reservation.withStatus .active actor)) =
        tally (holds apparatus instant) table+(reservation.covers instant).toNat := by
    intro instant
    have hreplace := tally_replace (p := holds apparatus instant) hget
      (reservation.withStatus .active actor)
    rw [holds_withStatus] at hreplace
    simpa [holds,hsame,hpaused,ApparatusScheduleStatus.reservesCapacity] using hreplace
  constructor
  · rintro hnext ⟨instant,hcovers,hfull⟩
    have hle := hnext instant
    rw [htally,hcovers,Bool.toNat_true] at hle
    omega
  · intro hfree instant
    rw [htally]
    cases hcovers : reservation.covers instant with
    | false => exact hwithin instant
    | true =>
      have hroom : ¬slots≤tally (holds apparatus instant) table :=
        fun hfull => hfree ⟨instant,hcovers,hfull⟩
      rw [Bool.toNat_true]
      omega

theorem update_within_iff {orderId : String} {apparatusId : ApparatusId}
    {status : ApparatusScheduleStatus} {actor : QueueActionActor}
    (h : updateApparatusScheduleReservationStatus orderId apparatusId status actor table =
      .ok next) (hwithin : WithinCapacity apparatus slots table) :
    WithinCapacity apparatus slots next ↔
      ¬(ReservationRequest.updateStatus orderId apparatusId status actor).ReactivatesIntoFull
        apparatus slots table := by
  unfold updateApparatusScheduleReservationStatus at h
  split at h
  · rename_i hnone
    cases h
    refine iff_of_true hwithin ?_
    rintro ⟨rfl,-,entry,hentry,-⟩
    rw [hnone] at hentry
    cases hentry
  · rename_i key reservation hfound
    obtain ⟨hget,hsame⟩ := reservationOf_eq_some hfound
    split at h
    · rename_i hstatus
      cases h
      refine iff_of_true hwithin ?_
      rintro ⟨rfl,hactive,entry,hentry,hpaused,-⟩
      rw [hfound,Option.some.injEq] at hentry
      rw [← hentry,hstatus,hactive] at hpaused
      cases hpaused
    · split at h
      · rename_i hallowed
        cases h
        by_cases hresume : apparatusId=apparatus ∧ reservation.status=.paused ∧ status=.active
        · obtain ⟨rfl,hpaused,rfl⟩ := hresume
          rw [reactivate_within_iff hget hsame hpaused actor hwithin]
          simp [ReservationRequest.ReactivatesIntoFull,hfound,hpaused]
        · refine iff_of_true (fun instant => ?_) ?_
          · -- no slot is taken that was not held before
            have hheld : holds apparatus instant (reservation.withStatus status actor)=true →
                holds apparatus instant reservation=true := by
              intro hnew
              simp only [holds_withStatus,Bool.and_eq_true,decide_eq_true_eq] at hnew
              rcases reserves_of_allowed hallowed hnew.1 with hold | hpaused
              · simp [holds,hold,hnew.2]
              · exact absurd ⟨hsame.symm.trans hnew.2.1,hpaused⟩ hresume
            have hreplace := tally_replace (p := holds apparatus instant) hget
              (reservation.withStatus status actor)
            have hle : (holds apparatus instant (reservation.withStatus status actor)).toNat ≤
                (holds apparatus instant reservation).toNat := Bool.toNat_le_toNat hheld
            have hbound := hwithin instant
            simp only [] at hreplace
            omega
          · rintro ⟨rfl,hactive,entry,hentry,hpaused,-⟩
            rw [hfound,Option.some.injEq] at hentry
            rw [← hentry] at hpaused
            exact hresume ⟨rfl,hpaused,hactive⟩
      · cases h

end Steps

/-- A run from the empty table keeps every instant of an apparatus within its slots exactly when
it never makes a paused reservation active at an instant whose slots are all held. -/
theorem reservations_within_capacity (apparatus : ApparatusId) (slots : Nat)
    (requests : List ReservationRequest)
    (hfixed : ∀ request∈requests, request.FixedSlots apparatus slots) :
    (∀ reached, reached <+: requests →
      WithinCapacity apparatus slots (run ReservationRequest.step ∅ reached)) ↔
    Along ReservationRequest.step
      (fun table request => ¬request.ReactivatesIntoFull apparatus slots table) ∅ requests := by
  refine run_invariant_iff ?_ ?_ withinCapacity_empty
  · intro request hrequest table next hwithin h
    cases request with
    | put reservation capacitySlots finiteCapacity =>
      obtain ⟨⟨stored,after⟩,hput,rfl⟩ := map_eq_ok.mp h
      exact iff_of_true (put_within hput (hfixed _ hrequest) hwithin) id
    | cancel input =>
      obtain ⟨⟨stored,after⟩,hcancel,rfl⟩ := map_eq_ok.mp h
      exact iff_of_true (cancel_within hcancel hwithin) id
    | updateStatus orderId apparatusId status actor => exact update_within_iff h hwithin
  · intro request _ table error h hfull
    cases request with
    | put reservation capacitySlots finiteCapacity => exact hfull
    | cancel input => exact hfull
    | updateStatus orderId apparatusId status actor =>
      obtain ⟨rfl,rfl,entry,hentry,hpaused,-⟩ := hfull
      simp [ReservationRequest.step,updateApparatusScheduleReservationStatus,hentry,hpaused,
        allowedStatusChange] at h

section Samples

def pressId : ApparatusId := ⟨"apparatus:press:1",by decide +kernel⟩

def workerActor : QueueActionActor := ⟨"aparatchi","worker","Worker"⟩

/-- Ten minutes of the press from the same instant on, for one order. -/
def pressReservation (orderId : String) : ApparatusScheduleReservation where
  reservationId := "apparatus-reservation:" ++ orderId
  idempotencyKey := orderId
  orderId := orderId
  apparatusId := pressId
  apparatus := "Press"
  startsAtUnix := 600
  endsAtUnix := 1200
  requestedDurationMinutes := 10
  reservedDurationMinutes := 10
  status := .planned
  priority := 0
  source := ""
  reason := ""
  capabilityRequirements := []
  actor := workerActor
  createdAtUnix := 60

def startOnce : List ReservationRequest :=
  [.put (pressReservation "a") 1 true,.updateStatus "a" pressId .active workerActor]

/-- While order `a` is paused order `b` takes its slot, and then `a` is resumed. -/
def resumeBesideAnother : List ReservationRequest :=
  startOnce++[.updateStatus "a" pressId .paused workerActor,
    .put (pressReservation "b") 1 true,.updateStatus "a" pressId .active workerActor]

theorem reservations_within_capacity_started :
    WithinCapacity pressId 1 (run ReservationRequest.step ∅ startOnce) := by
  have hfixed : ∀ request∈startOnce, request.FixedSlots pressId 1 := by
    simp [startOnce,ReservationRequest.FixedSlots]
  refine (reservations_within_capacity pressId 1 startOnce hfixed).mpr ⟨id,?_,trivial⟩ startOnce
    List.prefix_rfl
  intro hfull
  obtain ⟨-,-,entry,hentry,hpaused,-⟩ := hfull
  have hplanned : ((reservationOf "a" pressId (advance ReservationRequest.step ∅
      (.put (pressReservation "a") 1 true))).map fun entry => entry.2.status)=some .planned := by
    decide +kernel
  rw [hentry,Option.map_some,hpaused] at hplanned
  cases hplanned

/-- Two active reservations hold the only slot of the press. -/
theorem reactivated_reservation_exceeds_slots :
    (∀ request∈resumeBesideAnother, request.FixedSlots pressId 1) ∧
    tally (holds pressId 600) (run ReservationRequest.step ∅ resumeBesideAnother)=2 ∧
    ¬WithinCapacity pressId 1 (run ReservationRequest.step ∅ resumeBesideAnother) := by
  have htwo : tally (holds pressId 600) (run ReservationRequest.step ∅ resumeBesideAnother)=2 := by
    decide +kernel
  refine ⟨by simp [resumeBesideAnother,startOnce,ReservationRequest.FixedSlots],htwo,?_⟩
  intro hwithin
  have hle := hwithin 600
  rw [htwo] at hle
  omega

end Samples

end MiniErp.Capacity
