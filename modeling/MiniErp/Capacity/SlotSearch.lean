import MiniErp.Capacity.Schedule
import MiniErp.Lib.FirstHit

/-! What the search for a slot finds, and when its arithmetic stays within the machine integers: a
second version of the search has no result once an operation leaves its range. -/
namespace MiniErp.Capacity
open Text Run FirstHit Option

/-- The value of an `i64` operation that does not overflow. -/
def checkedI64 (value : Int) : Option Int := if -2^63≤value ∧ value<2^63 then some value else none

theorem checkedI64_eq_some {value result : Int} :
    checkedI64 value=some result ↔ (-2^63≤value ∧ value<2^63) ∧ value=result := by
  rw [checkedI64]
  split
  · rename_i hrange
    rw [some_inj,and_iff_right hrange]
  · rename_i hrange
    exact iff_of_false nofun fun h => hrange h.1

theorem checkedI64_of_lt {value : Int} (hlow : 0≤value) (hhigh : value<2^63) :
    checkedI64 value=some value :=
  checkedI64_eq_some.mpr ⟨⟨by omega,hhigh⟩,rfl⟩

section Search
variable (profile : ApparatusCapacityProfile) (input : ApparatusScheduleRequest)
  (apparatusId : ApparatusId) (durationMinutes : Nat) (downtimes : List ApparatusDowntime)
  (reservations : List ApparatusScheduleReservation)

/-- The last second of the slot is computed only if there are windows and the start has a date. -/
def fitsWorkingWindowChecked (start stop : Int) : Option Bool := do
  if !profile.workingWindows.isEmpty && (fromUnixTimestamp start).isSome then
    let _ ← checkedI64 (stop-1)
  return fitsWorkingWindow profile start stop

def searchSlotChecked (horizon : Int) : Nat → Int → Option (Except ProductionMapError (Int × Int))
  | 0, _ => some (.error .capacityNoWorkingWindow)
  | fuel+1, cursor =>
    if cursor<horizon then do
      let span ← checkedI64 (durationMinutes*60)
      let stop ← checkedI64 (cursor+span)
      if input.latestEndUnix.any (· < stop) then some (.error .capacityNoWorkingWindow)
      else do
        let _ ← fitsWorkingWindowChecked profile cursor stop
        if slotFree profile apparatusId durationMinutes downtimes reservations cursor
        then some (.ok (cursor, stop))
        else do
          let next ← checkedI64 (cursor+60)
          searchSlotChecked horizon fuel next
    else some (.error .capacityNoWorkingWindow)

def findScheduleSlotChecked : Option (Except ProductionMapError (Int × Int)) := do
  let rounded ← checkedI64 (max input.earliestStartUnix 60+59)
  let cursor ← checkedI64 (rounded.tdiv 60*60)
  let horizon ← checkedI64 (cursor+maxScheduleHorizonMinutes*60)
  searchSlotChecked profile input apparatusId durationMinutes downtimes reservations horizon
    maxScheduleHorizonMinutes cursor

def firstMinute : Int := (max input.earliestStartUnix 60+59)/60*60

def minuteAt (i : Nat) : Int := firstMinute input+60*i

def endAt (i : Nat) : Int := minuteAt input i+durationMinutes*60

/-- `slotFree` for a slot that ends at `stop`. -/
def freeUntil (cursor stop : Int) : Bool :=
  fitsWorkingWindow profile cursor stop &&
    !(downtimes.any fun downtime => downtime.active && downtime.apparatusId=apparatusId &&
      intervalsOverlap cursor stop downtime.startsAtUnix downtime.endsAtUnix) &&
    !(profile.finiteCapacity && decide (profile.capacitySlots ≤
      reservations.countP fun reservation =>
        reservation.status.reservesCapacity && reservation.apparatusId=apparatusId &&
          intervalsOverlap cursor stop reservation.startsAtUnix reservation.endsAtUnix))

/-- The search ends at a minute whose slot would end too late. -/
def lateAt (i : Nat) : Bool := input.latestEndUnix.any (· < endAt input durationMinutes i)

def freeAt (i : Nat) : Bool :=
  freeUntil profile apparatusId downtimes reservations (minuteAt input i)
    (endAt input durationMinutes i)

/-- The minutes that the search looks at end within the range. -/
def EndsInRange (count i : Nat) : Prop :=
  ∀ k, i≤k → k < i+count → Tried (lateAt input durationMinutes)
    (freeAt profile input apparatusId durationMinutes downtimes reservations) i k →
    endAt input durationMinutes k<2^63

def slotAnswer : Option Nat → Except ProductionMapError (Int × Int)
  | some i => .ok (minuteAt input i, endAt input durationMinutes i)
  | none => .error .capacityNoWorkingWindow

end Search

variable {profile : ApparatusCapacityProfile} {input : ApparatusScheduleRequest}
  {apparatusId : ApparatusId} {durationMinutes : Nat} {downtimes : List ApparatusDowntime}
  {reservations : List ApparatusScheduleReservation}

section
variable (input : ApparatusScheduleRequest)

theorem firstMinute_range : 60≤firstMinute input ∧ input.earliestStartUnix≤firstMinute input ∧
      firstMinute input ≤ max input.earliestStartUnix 60+59 := by
  unfold firstMinute
  omega

theorem sixty_le_minuteAt (i : Nat) : 60 ≤ minuteAt input i := by
  have hfirst := firstMinute_range input
  rw [minuteAt]
  omega

theorem minuteAt_add (i k : Nat) : minuteAt input (i+k)=minuteAt input i+60*k := by
  rw [minuteAt,minuteAt]
  omega

end

theorem lateAt_succ (i : Nat) (h : lateAt input durationMinutes i=true) :
    lateAt input durationMinutes (i+1)=true := by
  rw [lateAt,Option.any_eq_true] at h ⊢
  obtain ⟨latest,hlatest,hlate⟩ := h
  refine ⟨latest,hlatest,decide_eq_true ?_⟩
  have hlate := of_decide_eq_true hlate
  rw [endAt,minuteAt_add]
  rw [endAt] at hlate
  omega

theorem fitsWorkingWindowChecked_isSome {start stop : Int} (hlow : 0 < stop) (hhigh : stop<2^63) :
    ∃ fits, fitsWorkingWindowChecked profile start stop=some fits := by
  rw [fitsWorkingWindowChecked,checkedI64_of_lt (by omega) (by omega)]
  split <;> exact ⟨_,rfl⟩

variable {count i : Nat}

theorem searchSlotChecked_step (hend : endAt input durationMinutes i<2^63)
    (hhorizon : minuteAt input (i+(count+1))<2^63) :
    searchSlotChecked profile input apparatusId durationMinutes downtimes reservations
        (minuteAt input (i+(count+1))) (count+1) (minuteAt input i) =
      if lateAt input durationMinutes i then some (.error .capacityNoWorkingWindow)
      else if freeAt profile input apparatusId durationMinutes downtimes reservations i
      then some (slotAnswer input durationMinutes (some i))
      else searchSlotChecked profile input apparatusId durationMinutes downtimes reservations
        (minuteAt input (i+1+count)) count (minuteAt input (i+1)) := by
  have hcursor := sixty_le_minuteAt input i
  have hnext := minuteAt_add input i 1
  have hlast := minuteAt_add input i (count+1)
  have hsame : i+1+count=i+(count+1) := by omega
  rw [endAt] at hend
  have hstop : checkedI64 (minuteAt input i+durationMinutes*60) =
      some (endAt input durationMinutes i) := checkedI64_of_lt (by omega) hend
  have hspan : checkedI64 (durationMinutes*60)=some ((durationMinutes : Int)*60) :=
    checkedI64_of_lt (by omega) (by omega)
  have hstep : checkedI64 (minuteAt input i+60)=some (minuteAt input (i+1)) := by
    rw [checkedI64_of_lt (by omega) (by omega),hnext]
    rfl
  have hfree : slotFree profile apparatusId durationMinutes downtimes reservations
      (minuteAt input i) =
        freeAt profile input apparatusId durationMinutes downtimes reservations i := by
    rw [slotFree,slotEnd,i64_eq_self (by omega) hend]
    rfl
  have hpositive : 0<endAt input durationMinutes i := by
    rw [endAt]
    omega
  obtain ⟨fits,hfits⟩ : ∃ fits, fitsWorkingWindowChecked profile (minuteAt input i)
      (endAt input durationMinutes i)=some fits :=
    fitsWorkingWindowChecked_isSome hpositive (by rw [endAt]; exact hend)
  rw [searchSlotChecked,if_pos (by omega),hspan,bind_eq_bind,bind_some,hstop,
    bind_eq_bind,bind_some,hfits,hstep,hfree,hsame]
  rfl

theorem searchSlotChecked_overflow (hend : ¬ endAt input durationMinutes i<2^63)
    : searchSlotChecked profile input apparatusId durationMinutes downtimes reservations
        (minuteAt input (i+(count+1))) (count+1) (minuteAt input i)=none := by
  have hlast := minuteAt_add input i (count+1)
  have hstop : checkedI64 (minuteAt input i+durationMinutes*60)=none := if_neg fun h => hend h.2
  rw [searchSlotChecked,if_pos (by omega),checkedI64]
  split
  · rw [bind_eq_bind,bind_some,hstop]
    rfl
  · rfl

/-- Where the arithmetic stays within the range, the search finds the first minute that is free. -/
theorem searchSlotChecked_eq (hhorizon : minuteAt input (i+count)<2^63)
    (h : EndsInRange profile input apparatusId durationMinutes downtimes reservations count i) :
    searchSlotChecked profile input apparatusId durationMinutes downtimes reservations
        (minuteAt input (i+count)) count (minuteAt input i) =
      some (slotAnswer input durationMinutes (search (lateAt input durationMinutes)
        (freeAt profile input apparatusId durationMinutes downtimes reservations) count i)) := by
  induction count generalizing i with
  | zero => rfl
  | succ count ih =>
    have hend := h i (Nat.le_refl i) (by omega) (tried_self i)
    rw [searchSlotChecked_step hend hhorizon,search]
    cases hlate : lateAt input durationMinutes i with
    | true => rfl
    | false =>
      cases hfree : freeAt profile input apparatusId durationMinutes downtimes reservations i with
      | true => rfl
      | false =>
        have hsame : i+1+count=i+(count+1) := by omega
        refine ih (hsame ▸ hhorizon) fun k hle hlt htried => ?_
        exact h k (by omega) (by omega) ((tried_succ_iff hlate hfree).mp htried)

theorem searchSlotChecked_eq_none (hhorizon : minuteAt input (i+count)<2^63)
    (h : ¬ EndsInRange profile input apparatusId durationMinutes downtimes reservations count i) :
    searchSlotChecked profile input apparatusId durationMinutes downtimes reservations
        (minuteAt input (i+count)) count (minuteAt input i)=none := by
  induction count generalizing i with
  | zero =>
    refine absurd (fun k hle hlt _ => ?_) h
    omega
  | succ count ih =>
    by_cases hend : endAt input durationMinutes i<2^63
    · have hsame : i+1+count=i+(count+1) := by omega
      rw [EndsInRange] at h
      push Not at h
      obtain ⟨k,hle,hlt,htried,hover⟩ := h
      have hlater : i<k := by
        rcases Nat.eq_or_lt_of_le hle with rfl | hlater
        · omega
        · exact hlater
      obtain ⟨hlate,hfree⟩ := htried i (Nat.le_refl i) hlater
      rw [searchSlotChecked_step hend hhorizon,hlate,hfree]
      refine ih (hsame ▸ hhorizon) fun hrange => ?_
      have hkend := hrange k hlater (by omega) ((tried_succ_iff hlate hfree).mpr htried)
      omega
    · exact searchSlotChecked_overflow hend

theorem findScheduleSlotChecked_start (h : minuteAt input maxScheduleHorizonMinutes<2^63) :
    findScheduleSlotChecked profile input apparatusId durationMinutes downtimes reservations =
      searchSlotChecked profile input apparatusId durationMinutes downtimes reservations
        (minuteAt input (0+maxScheduleHorizonMinutes)) maxScheduleHorizonMinutes
        (minuteAt input 0) := by
  have hfirst := firstMinute_range input
  have hzero : minuteAt input 0=firstMinute input := by
    rw [minuteAt]
    omega
  have hlast := minuteAt_add input 0 maxScheduleHorizonMinutes
  rw [Nat.zero_add] at hlast
  have hhorizon : (0 : Int) < maxScheduleHorizonMinutes := by decide
  have hrounded : checkedI64 (max input.earliestStartUnix 60+59) =
      some (max input.earliestStartUnix 60+59) := checkedI64_of_lt (by omega) ?_
  · have hcursor : checkedI64 ((max input.earliestStartUnix 60+59).tdiv 60*60) =
        some (minuteAt input 0) := by
      rw [Int.tdiv_eq_ediv_of_nonneg (by omega),hzero]
      exact checkedI64_of_lt (by omega) (by omega)
    have hend : checkedI64 (minuteAt input 0+maxScheduleHorizonMinutes*60) =
        some (minuteAt input maxScheduleHorizonMinutes) := by
      rw [Int.mul_comm,← hlast]
      exact checkedI64_of_lt (by omega) h
    simp only [findScheduleSlotChecked,bind_eq_bind,hrounded,bind_some,hcursor, hend,Nat.zero_add]
  · omega

theorem findScheduleSlotChecked_overflow (h : ¬ minuteAt input maxScheduleHorizonMinutes<2^63) :
    findScheduleSlotChecked profile input apparatusId durationMinutes downtimes reservations =
      none := by
  have hlast : minuteAt input maxScheduleHorizonMinutes =
      firstMinute input+maxScheduleHorizonMinutes*60 := by
    rw [minuteAt,Int.mul_comm]
  by_contra hsome
  obtain ⟨answer,hanswer⟩ := ne_none_iff_exists'.mp hsome
  simp only [findScheduleSlotChecked,bind_eq_bind,bind_eq_some_iff, checkedI64_eq_some] at hanswer
  obtain ⟨rounded,⟨-,rfl⟩,cursor,⟨-,rfl⟩,horizon,⟨hrange,-⟩,-⟩ := hanswer
  rw [Int.tdiv_eq_ediv_of_nonneg (by omega),← firstMinute,← hlast] at hrange
  exact h hrange.2

/-- The arithmetic of the search stays within its range exactly if the horizon and the ends of the
minutes it looks at do. -/
theorem findScheduleSlotChecked_isSome_iff :
    (findScheduleSlotChecked profile input apparatusId durationMinutes downtimes
      reservations).isSome=true ↔
    minuteAt input maxScheduleHorizonMinutes<2^63 ∧
      EndsInRange profile input apparatusId durationMinutes downtimes reservations
        maxScheduleHorizonMinutes 0 := by
  by_cases hhorizon : minuteAt input maxScheduleHorizonMinutes<2^63
  · rw [findScheduleSlotChecked_start hhorizon,and_iff_right hhorizon]
    rw [← Nat.zero_add maxScheduleHorizonMinutes] at hhorizon
    by_cases hends : EndsInRange profile input apparatusId durationMinutes downtimes reservations
        maxScheduleHorizonMinutes 0
    · rw [searchSlotChecked_eq hhorizon hends]
      exact iff_of_true rfl hends
    · rw [searchSlotChecked_eq_none hhorizon hends]
      exact iff_of_false Bool.false_ne_true hends
  · rw [findScheduleSlotChecked_overflow hhorizon]
    exact iff_of_false Bool.false_ne_true fun h => hhorizon h.1

theorem searchSlot_of_checked {horizon cursor : Int} {fuel : Nat}
    {answer : Except ProductionMapError (Int × Int)}
    (h : searchSlotChecked profile input apparatusId durationMinutes downtimes reservations horizon
      fuel cursor=some answer) :
    searchSlot profile input apparatusId durationMinutes downtimes reservations horizon fuel
      cursor=answer := by
  induction fuel generalizing cursor with
  | zero => exact some_inj.mp h
  | succ fuel ih =>
    rw [searchSlotChecked] at h
    rw [searchSlot]
    split at h
    · rename_i hbefore
      simp only [bind_eq_bind,bind_eq_some_iff,checkedI64_eq_some] at h
      obtain ⟨span,⟨-,rfl⟩,stop,⟨hstop,rfl⟩,h⟩ := h
      have hend : slotEnd durationMinutes cursor=cursor+durationMinutes*60 :=
        i64_eq_self hstop.1 hstop.2
      rw [if_pos hbefore]
      rw [hend]
      split at h
      · rename_i hlate
        rw [if_pos hlate]
        exact some_inj.mp h
      · rename_i hlate
        obtain ⟨fits,-,h⟩ := bind_eq_some_iff.mp h
        rw [if_neg hlate]
        split at h
        · rename_i hfree
          rw [if_pos hfree]
          exact some_inj.mp h
        · rename_i hfree
          simp only [bind_eq_some_iff,checkedI64_eq_some] at h
          obtain ⟨next,⟨hnext,rfl⟩,h⟩ := h
          rw [if_neg hfree,i64_eq_self hnext.1 hnext.2]
          exact ih h
    · rename_i hafter
      rw [if_neg hafter]
      exact some_inj.mp h

theorem findScheduleSlot_of_checked {answer : Except ProductionMapError (Int × Int)}
    (h : findScheduleSlotChecked profile input apparatusId durationMinutes downtimes reservations =
      some answer) :
    findScheduleSlot profile input apparatusId durationMinutes downtimes reservations=answer := by
  simp only [findScheduleSlotChecked,bind_eq_bind,bind_eq_some_iff, checkedI64_eq_some] at h
  obtain ⟨rounded,⟨hrounded,rfl⟩,cursor,⟨hcursor,rfl⟩,horizon,⟨hhorizon,rfl⟩,h⟩ := h
  rw [findScheduleSlot,i64_eq_self hrounded.1 hrounded.2,i64_eq_self hcursor.1 hcursor.2,
    i64_eq_self hhorizon.1 hhorizon.2]
  exact searchSlot_of_checked h

theorem findScheduleSlot_eq
    (h : (findScheduleSlotChecked profile input apparatusId durationMinutes downtimes
      reservations).isSome=true) :
    findScheduleSlot profile input apparatusId durationMinutes downtimes reservations =
      slotAnswer input durationMinutes (search (lateAt input durationMinutes)
        (freeAt profile input apparatusId durationMinutes downtimes reservations)
        maxScheduleHorizonMinutes 0) := by
  obtain ⟨hhorizon,hends⟩ := findScheduleSlotChecked_isSome_iff.mp h
  apply findScheduleSlot_of_checked
  rw [findScheduleSlotChecked_start hhorizon]
  exact searchSlotChecked_eq (by rwa [Nat.zero_add]) hends

/-! The slots of a request, in its own terms. -/

/-- A whole minute within the horizon from which the apparatus is free for the whole duration. -/
structure Admissible (profile : ApparatusCapacityProfile) (input : ApparatusScheduleRequest)
    (apparatusId : ApparatusId) (durationMinutes : Nat) (downtimes : List ApparatusDowntime)
    (reservations : List ApparatusScheduleReservation) (start : Int) : Prop where
  minute : 60 ∣ start
  earliest : max input.earliestStartUnix 60 ≤ start
  horizon : start<firstMinute input+366*24*60*60
  window : fitsWorkingWindow profile start (start+durationMinutes*60)=true
  downtime : ∀ downtime∈downtimes, downtime.active=true → downtime.apparatusId=apparatusId →
    ¬ intervalsOverlap start (start+durationMinutes*60) downtime.startsAtUnix downtime.endsAtUnix
  capacity : profile.finiteCapacity=true → (reservations.countP fun reservation =>
    reservation.status.reservesCapacity && reservation.apparatusId=apparatusId &&
      intervalsOverlap start (start+durationMinutes*60) reservation.startsAtUnix
        reservation.endsAtUnix)<profile.capacitySlots
  latest : ∀ latest∈input.latestEndUnix, start+durationMinutes*60≤latest

theorem freeUntil_iff {cursor stop : Int} :
    freeUntil profile apparatusId downtimes reservations cursor stop=true ↔
      fitsWorkingWindow profile cursor stop=true ∧
      (∀ downtime∈downtimes, downtime.active=true → downtime.apparatusId=apparatusId →
        ¬ intervalsOverlap cursor stop downtime.startsAtUnix downtime.endsAtUnix) ∧
      (profile.finiteCapacity=true → (reservations.countP fun reservation =>
        reservation.status.reservesCapacity && reservation.apparatusId=apparatusId &&
          intervalsOverlap cursor stop reservation.startsAtUnix reservation.endsAtUnix) <
        profile.capacitySlots) := by
  cases hfinite : profile.finiteCapacity <;> simp [freeUntil,hfinite,and_assoc]

theorem lateAt_eq_false_iff : lateAt input durationMinutes i=false ↔
    ∀ latest∈input.latestEndUnix, endAt input durationMinutes i≤latest := by
  simp [lateAt,Option.any_eq_false]

theorem admissible_minuteAt_iff :
    Admissible profile input apparatusId durationMinutes downtimes reservations (minuteAt input i) ↔
      i∈hits (lateAt input durationMinutes)
        (freeAt profile input apparatusId durationMinutes downtimes reservations)
        maxScheduleHorizonMinutes 0 := by
  have hfirst := firstMinute_range input
  have hminutes : maxScheduleHorizonMinutes=527040 := by decide
  have hhorizon : minuteAt input i<firstMinute input+366*24*60*60 ↔
      i<0+maxScheduleHorizonMinutes := by
    rw [minuteAt]
    omega
  constructor
  · intro h
    exact ⟨Nat.zero_le i,hhorizon.mp h.horizon,lateAt_eq_false_iff.mpr h.latest,
      freeUntil_iff.mpr ⟨h.window,h.downtime,h.capacity⟩⟩
  · rintro ⟨-,hlt,hlate,hfree⟩
    obtain ⟨hwindow,hdowntime,hcapacity⟩ := freeUntil_iff.mp hfree
    refine ⟨?_,?_,hhorizon.mpr hlt,hwindow,hdowntime,hcapacity,lateAt_eq_false_iff.mp hlate⟩
    · rw [minuteAt,firstMinute]
      omega
    · rw [minuteAt]
      omega

theorem exists_minuteAt {start : Int} (hminute : 60 ∣ start)
    (hearliest : max input.earliestStartUnix 60 ≤ start) : ∃ i, start=minuteAt input i := by
  have hfirst : firstMinute input ≤ start := by
    rw [firstMinute]
    omega
  refine ⟨((start-firstMinute input)/60).toNat,?_⟩
  rw [minuteAt]
  rw [firstMinute] at hfirst ⊢
  omega

/-- Without overflow, the search returns the first admissible minute and the end of its slot, and
an error exactly if there is none. -/
theorem findScheduleSlot_least
    (h : (findScheduleSlotChecked profile input apparatusId durationMinutes downtimes
      reservations).isSome=true) :
    (∀ start stop, findScheduleSlot profile input apparatusId durationMinutes downtimes
        reservations=.ok (start, stop) ↔
      IsLeast {start | Admissible profile input apparatusId durationMinutes downtimes reservations
        start} start ∧ stop=start+durationMinutes*60) ∧
    ((∃ error, findScheduleSlot profile input apparatusId durationMinutes downtimes reservations =
        .error error) ↔
      ¬ ∃ start, Admissible profile input apparatusId durationMinutes downtimes reservations
        start) := by
  have hno : ∀ {start}, hits (lateAt input durationMinutes)
      (freeAt profile input apparatusId durationMinutes downtimes reservations)
      maxScheduleHorizonMinutes 0=∅ →
      ¬ Admissible profile input apparatusId durationMinutes downtimes reservations start := by
    intro start hempty hadmissible
    obtain ⟨i,rfl⟩ := exists_minuteAt hadmissible.minute hadmissible.earliest
    have hmem := admissible_minuteAt_iff.mp hadmissible
    rw [hempty] at hmem
    exact hmem
  rw [findScheduleSlot_eq h]
  cases hsearch : search (lateAt input durationMinutes)
      (freeAt profile input apparatusId durationMinutes downtimes reservations)
      maxScheduleHorizonMinutes 0 with
  | none =>
    have hempty := (search_eq_none_iff lateAt_succ).mp hsearch
    refine ⟨fun start stop => iff_of_false nofun fun hleast => hno hempty hleast.1.1,?_⟩
    exact iff_of_true ⟨_,rfl⟩ fun ⟨start,hadmissible⟩ => hno hempty hadmissible
  | some i =>
    have hleast := (search_eq_some_iff lateAt_succ).mp hsearch
    have hstart : IsLeast {start | Admissible profile input apparatusId durationMinutes downtimes
        reservations start} (minuteAt input i) := by
      refine ⟨admissible_minuteAt_iff.mpr hleast.1,fun start hadmissible => ?_⟩
      obtain ⟨j,rfl⟩ := exists_minuteAt hadmissible.minute hadmissible.earliest
      have hij := hleast.2 (admissible_minuteAt_iff.mp hadmissible)
      rw [minuteAt,minuteAt]
      omega
    refine ⟨fun start stop => ⟨fun hanswer => ?_,fun ⟨hother,hstop⟩ => ?_⟩,?_⟩
    · cases hanswer
      exact ⟨hstart,rfl⟩
    · rw [hstop,hother.unique hstart]
      rfl
    · exact iff_of_false (fun ⟨error,herror⟩ => nomatch herror) fun hnone => hnone ⟨_,hstart.1⟩

section Sample

def mondayProfile : ApparatusCapacityProfile where
  apparatusId := ⟨"apparatus:catalog:flexo",by decide +kernel⟩
  apparatus := "Flexo"
  capacitySlots := 1
  setupMinutes := 0
  cleanupMinutes := 0
  efficiencyPercent := 100
  finiteCapacity := true
  workingWindows := [⟨1,480,1080⟩]
  capabilities := []
  capabilityLevels := ∅

def flexoRequest (earliestStartUnix : Int) (durationMinutes : Nat) : ApparatusScheduleRequest where
  orderId := "order-1"
  apparatusId := "apparatus:catalog:flexo"
  apparatus := ""
  earliestStartUnix
  latestEndUnix := none
  durationMinutes
  priority := 0
  source := ""
  reason := ""
  idempotencyKey := "key"
  capabilityRequirements := []
  candidateApparatuses := []
  actor := ⟨"","",""⟩

/-- Asked for at 07:58:30, with a downtime until 08:05. -/
theorem findScheduleSlot_least_monday :
    let downtimes : List ApparatusDowntime := [⟨mondayProfile.apparatusId,374400,374700,true⟩]
    (findScheduleSlotChecked mondayProfile (flexoRequest 374310 60) mondayProfile.apparatusId 60
      downtimes []).isSome=true ∧
    IsLeast {start | Admissible mondayProfile (flexoRequest 374310 60) mondayProfile.apparatusId 60
      downtimes [] start} 374700 := by
  intro downtimes
  have hchecked : (findScheduleSlotChecked mondayProfile (flexoRequest 374310 60)
      mondayProfile.apparatusId 60 downtimes []).isSome=true := by decide +kernel
  have hfound : findScheduleSlot mondayProfile (flexoRequest 374310 60) mondayProfile.apparatusId
      60 downtimes []=.ok (374700, 378300) := by decide +kernel
  exact ⟨hchecked,(((findScheduleSlot_least hchecked).1 374700 378300).mp hfound).1⟩

end Sample

/-! The arithmetic of one candidate: the duration on its apparatus, then the search. -/

/-- The product is computed in 64 bits, and the efficiency divides it. -/
def effectiveDurationMinutesChecked (profile : ApparatusCapacityProfile) (durationMinutes : Nat) :
    Option (Except ProductionMapError Nat) :=
  if durationMinutes*100<2^64 ∧ 0<profile.efficiencyPercent then
    some (effectiveDurationMinutes profile durationMinutes)
  else none

def candidateSlotChecked (profile : ApparatusCapacityProfile) (input : ApparatusScheduleRequest)
    (apparatusId : ApparatusId) (downtimes : List ApparatusDowntime)
    (reservations : List ApparatusScheduleReservation) :
    Option (Except ProductionMapError (Int × Int)) := do
  match ← effectiveDurationMinutesChecked profile input.durationMinutes with
  | .error error => some (.error error)
  | .ok durationMinutes =>
    findScheduleSlotChecked profile input apparatusId durationMinutes downtimes reservations

theorem durationMinutes_of_normalize {raw : ApparatusScheduleRequest}
    (h : normalizeScheduleRequest raw=.ok input) : input.durationMinutes≤30*24*60 := by
  simp only [normalizeScheduleRequest,bind_eq_ok,ensure_eq_ok,Bool.not_eq_true',
    Bool.or_eq_false_iff,decide_eq_false_iff_not] at h
  obtain ⟨_,hchecks,_,_,_,_,h⟩ := h
  cases h
  have hduration := hchecks.1.1.1.2
  exact Nat.not_lt.mp hduration

/-- For an accepted request nothing overflows exactly if the horizon of the search and the ends of
the slots it looks at are below the largest `i64`. -/
theorem candidateSlotChecked_isSome_iff {raw : ApparatusScheduleRequest}
    (hrequest : normalizeScheduleRequest raw=.ok input)
    (hefficiency : 1≤profile.efficiencyPercent) :
    (candidateSlotChecked profile input apparatusId downtimes reservations).isSome=true ↔
    ∀ durationMinutes,
      effectiveDurationMinutes profile input.durationMinutes=.ok durationMinutes →
      firstMinute input+366*24*60*60<2^63 ∧
      ∀ i<366*24*60, Tried (lateAt input durationMinutes)
        (freeAt profile input apparatusId durationMinutes downtimes reservations) 0 i →
        firstMinute input+60*i+60*durationMinutes<2^63 := by
  have hduration := durationMinutes_of_normalize hrequest
  have hproduct : input.durationMinutes*100<2^64 ∧ 0<profile.efficiencyPercent :=
    ⟨by omega,hefficiency⟩
  rw [candidateSlotChecked,effectiveDurationMinutesChecked,if_pos hproduct,Option.bind_eq_bind,
    Option.bind_some]
  cases heffective : effectiveDurationMinutes profile input.durationMinutes with
  | error error => exact iff_of_true rfl nofun
  | ok durationMinutes =>
    have hhorizon : minuteAt input maxScheduleHorizonMinutes=firstMinute input+366*24*60*60 := by
      have hminutes : (maxScheduleHorizonMinutes : Int)=527040 := by decide
      rw [minuteAt]
      omega
    have hend : ∀ i, endAt input durationMinutes i=firstMinute input+60*i+60*durationMinutes := by
      intro i
      rw [endAt,minuteAt,Int.mul_comm (durationMinutes : Int)]
    rw [findScheduleSlotChecked_isSome_iff,EndsInRange]
    simp only [hend,Nat.zero_le,forall_const,Nat.zero_add,Except.ok.injEq,forall_eq']
    rfl

-- The requests of the samples are evaluated.
attribute [local semireducible] trim

theorem candidateSlotChecked_monday :
    normalizeScheduleRequest (flexoRequest 374310 60)=.ok (flexoRequest 374310 60) ∧
    ∀ i<366*24*60, Tried (lateAt (flexoRequest 374310 60) 60)
      (freeAt mondayProfile (flexoRequest 374310 60) mondayProfile.apparatusId 60 [] []) 0 i →
      firstMinute (flexoRequest 374310 60)+60*i+60*(60 : Nat)<2^63 := by
  have hrequest : normalizeScheduleRequest (flexoRequest 374310 60) =
      .ok (flexoRequest 374310 60) := rfl
  have hsome : (candidateSlotChecked mondayProfile (flexoRequest 374310 60)
      mondayProfile.apparatusId [] []).isSome=true := by decide +kernel
  exact ⟨hrequest,((candidateSlotChecked_isSome_iff hrequest (by decide)).mp hsome 60
    (by decide)).2⟩

/-- The latest start there is, which is accepted. -/
theorem candidateSlotChecked_overflow :
    normalizeScheduleRequest (flexoRequest (2^63-1) 60)=.ok (flexoRequest (2^63-1) 60) ∧
    candidateSlotChecked mondayProfile (flexoRequest (2^63-1) 60) mondayProfile.apparatusId
      [] []=none :=
  ⟨rfl,by decide +kernel⟩

end MiniErp.Capacity
