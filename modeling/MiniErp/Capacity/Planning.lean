import MiniErp.Capacity.Schedule

/-! Planning over whole runs: whatever is scheduled and cancelled on one configuration of the
machines, none gets more work than it has slots, and all work lies in working time. -/
namespace MiniErp.Capacity
open Run Tally List

inductive PlanningCall where
  | schedule (now : Int) (input : ApparatusScheduleRequest)
  | cancel (input : ApparatusScheduleCancelRequest)

section
variable (store : SchedulingStore)

def PlanningCall.step : PlanningCall → ReservationTable → Except ProductionMapError ReservationTable
  | .schedule now input, table => (scheduleApparatusOrder store now input table).map Prod.snd
  | .cancel input, table => (cancelApparatusScheduleReservation input table).map Prod.snd

/-- In a working window of its machine, and clear of the machine's downtimes. -/
def InWorkingTime (profile : ApparatusCapacityProfile)
    (reservation : ApparatusScheduleReservation) : Prop :=
  (∃ canonical, store.validatedCanonicalApparatus reservation.apparatusId=.ok canonical ∧
    canonicalCapacityProfile canonical=.ok profile) ∧
  fitsWorkingWindow profile reservation.startsAtUnix reservation.endsAtUnix=true ∧
  ∀ downtime∈store.apparatusDowntimes, downtime.active=true →
    downtime.apparatusId=reservation.apparatusId → intervalsOverlap reservation.startsAtUnix
      reservation.endsAtUnix downtime.startsAtUnix downtime.endsAtUnix=false

structure Planned (table : ReservationTable) : Prop where
  within : ∀ id canonical, store.validatedCanonicalApparatus id=.ok canonical →
    canonical.finiteCapacity=true → WithinCapacity id canonical.capacitySlots table
  working : ∀ reservation∈rows table, ∃ profile, InWorkingTime store profile reservation

end

variable {store : SchedulingStore} {now : Int} {input : ApparatusScheduleRequest}
  {apparatusId : ApparatusId} {map : ProductionMapDefinition} {table next : ReservationTable}
  {reservations : List ApparatusScheduleReservation} {profile : ApparatusCapacityProfile}

theorem searchSlot_free {durationMinutes fuel : Nat} {downtimes : List ApparatusDowntime}
    {horizon cursor start stop : Int} (h : searchSlot profile input apparatusId durationMinutes
      downtimes reservations horizon fuel cursor=.ok (start, stop)) :
    stop=slotEnd durationMinutes start ∧
      slotFree profile apparatusId durationMinutes downtimes reservations start=true := by
  induction fuel generalizing cursor with
  | zero => cases h
  | succ fuel ih =>
    simp only [searchSlot] at h
    split at h
    · split at h
      · cases h
      · split at h
        · rename_i hfree
          cases h
          exact ⟨rfl,hfree⟩
        · exact ih h
    · cases h

def CandidateSearch.Free (store : SchedulingStore) (input : ApparatusScheduleRequest) (now : Int)
    (search : CandidateSearch) : Prop :=
  ∀ best, search.bestSlot=some best →
    InWorkingTime store best.profile (newReservation input now best)

section
variable {search after : CandidateSearch} (hsearch : search.Free store input now)
include hsearch

theorem CandidateSearch.offer_free {slot : ScheduledCandidate}
    (hslot : InWorkingTime store slot.profile (newReservation input now slot)) :
    (search.offer slot).Free store input now := by
  intro best hbest
  unfold CandidateSearch.offer at hbest
  split at hbest
  · rwa [← Option.some.inj hbest]
  · split at hbest
    · rwa [← Option.some.inj hbest]
    · exact hsearch best hbest

theorem considerCandidate_free {entry : ApparatusScheduleCandidate × Nat}
    (h : considerCandidate store input map apparatusId reservations search entry=.ok after) :
    after.Free store input now := by
  unfold considerCandidate at h
  split at h
  · cases h
    exact hsearch
  · simp only [bind_eq_ok] at h
    obtain ⟨canonical,hcanonical,profile,hprofile,h⟩ := h
    split at h
    · split at h <;> cases h <;> exact hsearch
    · obtain ⟨minutes,-,h⟩ := bind_eq_ok.mp h
      split at h
      · cases h
        exact hsearch
      · rename_i start stop hfound
        cases h
        obtain ⟨rfl,hfree⟩ := searchSlot_free hfound
        simp only [slotFree,Bool.and_eq_true,Bool.not_eq_true',any_eq_false] at hfree
        apply CandidateSearch.offer_free
        · exact hsearch
        · refine ⟨⟨canonical,hcanonical,hprofile⟩,hfree.1.1,fun downtime hmem hactive hsame => ?_⟩
          refine Bool.eq_false_iff.mpr fun hover => hfree.1.2 downtime hmem ?_
          exact ⟨⟨hactive,decide_eq_true hsame⟩,hover⟩

theorem foldlM_considerCandidate_free {entries : List (ApparatusScheduleCandidate × Nat)}
    (h : entries.foldlM (considerCandidate store input map apparatusId reservations) search =
      .ok after) : after.Free store input now := by
  induction entries generalizing search with
  | nil =>
    cases h
    exact hsearch
  | cons entry rest ih =>
    obtain ⟨middle,hfirst,hrest⟩ := bind_eq_ok.mp h
    exact ih (considerCandidate_free hsearch hfirst) hrest

end

section
variable (hplanned : Planned store table)
include hplanned

theorem put_planned {reservation stored : ApparatusScheduleReservation}
    (hworking : InWorkingTime store profile reservation)
    (h : putApparatusScheduleReservation reservation profile.capacitySlots profile.finiteCapacity
      table=.ok (stored, next)) : Planned store next := by
  constructor
  · intro id canonical hcanonical hfinite
    refine put_within h ?_ (hplanned.within id canonical hcanonical hfinite)
    rintro rfl
    obtain ⟨⟨own,hown,hprofile⟩,-⟩ := hworking
    rw [hcanonical] at hown
    cases hown
    simp only [canonicalCapacityProfile,ensure_bind_eq_ok] at hprofile
    cases hprofile.2
    exact ⟨rfl,hfinite⟩
  · unfold putApparatusScheduleReservation at h
    split at h
    · split at h
      · cases h
      · cases h
        exact hplanned.working
    · simp only [] at h
      split at h
      · cases h
      · cases h
        exact forall_rows_insert hplanned.working ⟨profile,hworking⟩

theorem planned_step {call : PlanningCall} (h : call.step store table=.ok next) :
    Planned store next := by
  cases call with
  | schedule now input =>
    obtain ⟨⟨result,_⟩,hcall,rfl⟩ := map_eq_ok.mp h
    obtain ⟨⟨request,id,map⟩,-,h⟩ := bind_eq_ok.mp hcall
    simp only [] at h
    split at h
    · split at h
      · cases h
      · cases h
        exact hplanned
    · obtain ⟨best,⟨_,search,hsearch,hbest⟩,hput,-⟩ := placeReservation_ok h
      have hfree : search.Free store request now :=
        foldlM_considerCandidate_free (by rintro _ ⟨⟩) hsearch
      exact put_planned hplanned (hfree best hbest) hput
  | cancel input =>
    obtain ⟨⟨cancelled,_⟩,hcall,rfl⟩ := map_eq_ok.mp h
    refine ⟨fun id canonical hcanonical hfinite =>
      cancel_within hcall (hplanned.within id canonical hcanonical hfinite),?_⟩
    unfold cancelApparatusScheduleReservation at hcall
    split at hcall
    · cases hcall
    · rename_i reservation hfound
      split at hcall
      · cases hcall
      · cases hcall
        refine forall_rows_insert hplanned.working ?_
        exact hplanned.working reservation (mem_rows.mpr ⟨_,hfound⟩)

end

end MiniErp.Capacity
