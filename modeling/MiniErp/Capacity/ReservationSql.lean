import MiniErp.Capacity.Reservations

/-! The change of a reservation's status in the database: one statement over all rows of the order
on the apparatus, where the store in memory changes the first one and refuses a change that is not
allowed. -/
namespace MiniErp.Capacity
open Text Std Run Option

/-- The statuses that the statement changes to the target, or writes once more. -/
def sqlMayBecome (status current : ApparatusScheduleStatus) : Bool :=
  current=status || status=.active && (current=.planned || current=.paused) ||
    status=.paused && current=.active ||
    status=.completed && (current=.planned || current=.active || current=.paused)

section
variable (orderId : String) (apparatusId : ApparatusId) (status : ApparatusScheduleStatus)

def sqlSelects (row : ApparatusScheduleReservation) : Bool :=
  row.orderId=trim orderId && row.apparatusId=apparatusId && sqlMayBecome status row.status

/-- `update_apparatus_schedule_reservation_status_tx`: no row is an error. -/
def updateApparatusScheduleReservationStatusTx (actor : QueueActionActor) (table : ReservationTable) :
    ReservationTable :=
  table.map fun _ row =>
    if sqlSelects orderId apparatusId status row then row.withStatus status actor else row

end

def SameStatuses (memory : Except ProductionMapError ReservationTable)
    (database : ReservationTable) : Prop :=
  ∃ next, memory=.ok next ∧ ∀ key : String, next[key]?.map (·.status)=database[key]?.map (·.status)

def SqlChanges (orderId : String) (apparatusId : ApparatusId) (status : ApparatusScheduleStatus)
    (row : ApparatusScheduleReservation) : Prop :=
  row.orderId=trim orderId ∧ row.apparatusId=apparatusId ∧
    allowedStatusChange row.status status=true

section
variable {orderId : String} {apparatusId : ApparatusId} {status : ApparatusScheduleStatus}
  {actor : QueueActionActor} {table : ReservationTable}

theorem sqlMayBecome_eq (status current : ApparatusScheduleStatus) : sqlMayBecome status current =
    (decide (current=status) || allowedStatusChange current status) := by
  cases status <;> cases current <;> rfl

theorem allowedStatusChange_self (status : ApparatusScheduleStatus) :
    allowedStatusChange status status=false := by
  cases status <;> rfl

variable {row : ApparatusScheduleReservation} {key : String}

theorem status_of_changes (h : SqlChanges orderId apparatusId status row) :
    sqlSelects orderId apparatusId status row=true ∧ row.status≠status := by
  obtain ⟨horder,happaratus,hallowed⟩ := h
  refine ⟨?_,fun hsame => ?_⟩
  · simp [sqlSelects,sqlMayBecome_eq,horder,happaratus,hallowed]
  · rw [hsame,allowedStatusChange_self] at hallowed
    cases hallowed

theorem status_of_not_changes (h : ¬ SqlChanges orderId apparatusId status row) :
    (if sqlSelects orderId apparatusId status row then row.withStatus status actor
      else row).status=row.status := by
  split
  · rename_i hselected
    simp only [sqlSelects,sqlMayBecome_eq,Bool.and_eq_true,Bool.or_eq_true,
      decide_eq_true_eq] at hselected
    obtain ⟨⟨horder,happaratus⟩,hsame | hallowed⟩ := hselected
    · exact hsame.symm
    · exact absurd ⟨horder,happaratus,hallowed⟩ h
  · rfl

theorem getElem?_afterSql (key : String) :
    (updateApparatusScheduleReservationStatusTx orderId apparatusId status actor table)[key]? =
      table[key]?.map fun row =>
        if sqlSelects orderId apparatusId status row then row.withStatus status actor else row :=
  TreeMap.getElem?_map

theorem status_afterSql_iff (hrow : table[key]?=some row) :
    some row.status=(updateApparatusScheduleReservationStatusTx orderId apparatusId status actor
      table)[key]?.map (·.status) ↔ ¬ SqlChanges orderId apparatusId status row := by
  rw [getElem?_afterSql,hrow,map_some,map_some,some_inj]
  constructor
  · intro hkept hchanges
    obtain ⟨hselected,hne⟩ := status_of_changes hchanges
    rw [if_pos hselected] at hkept
    exact hne hkept
  · intro hkeeps
    exact (status_of_not_changes hkeeps).symm

theorem reservationOf_eq_none (h : reservationOf orderId apparatusId table=none)
    (hrow : table[key]?=some row) : ¬ SqlChanges orderId apparatusId status row := by
  rintro ⟨horder,happaratus,-⟩
  rw [reservationOf,List.find?_eq_none] at h
  refine h (key, row) (TreeMap.mem_toList_iff_getElem?_eq_some.mpr hrow) ?_
  rw [Bool.and_eq_true,decide_eq_true_eq,decide_eq_true_eq]
  exact ⟨by rw [horder,trim_trim],happaratus⟩

theorem unchanged_sameStatuses_iff : SameStatuses (.ok table)
      (updateApparatusScheduleReservationStatusTx orderId apparatusId status actor table) ↔
    ∀ (key : String) row, table[key]?=some row → ¬ SqlChanges orderId apparatusId status row := by
  constructor
  · rintro ⟨next,hnext,hsame⟩ key row hrow
    cases hnext
    have hkey := hsame key
    rw [hrow] at hkey
    exact (status_afterSql_iff hrow).mp hkey
  · intro hkeeps
    refine ⟨table,rfl,fun key => ?_⟩
    cases hrow : table[key]? with
    | none =>
      rw [getElem?_afterSql,hrow]
      rfl
    | some row => exact (status_afterSql_iff hrow).mpr (hkeeps key row hrow)

theorem changed_sameStatuses_iff {first : ApparatusScheduleReservation}
    (hfirst : table[key]?=some first) (happaratus : first.apparatusId=apparatusId)
    (hallowed : allowedStatusChange first.status status=true) :
    SameStatuses (.ok (table.insert key (first.withStatus status actor)))
      (updateApparatusScheduleReservationStatusTx orderId apparatusId status actor table) ↔
    first.orderId=trim orderId ∧ ∀ (other : String) row, table[other]?=some row → other≠key →
      ¬ SqlChanges orderId apparatusId status row := by
  have hinsert : ∀ other, other≠key →
      (table.insert key (first.withStatus status actor))[other]?=table[other]? := by
    intro other hne
    rw [TreeMap.getElem?_insert,if_neg fun h => hne (Std.compare_eq_iff_eq.mp h).symm]
  have hself : (table.insert key (first.withStatus status actor))[key]? =
      some (first.withStatus status actor) := TreeMap.getElem?_insert_self
  constructor
  · rintro ⟨next,hnext,hsame⟩
    cases hnext
    refine ⟨?_,fun other row hrow hne => ?_⟩
    · by_contra horder
      have hkey := hsame key
      rw [hself,map_some,← (status_afterSql_iff hfirst).mpr fun h => horder h.1, some_inj] at hkey
      have hchanged : status=first.status := hkey
      rw [← hchanged,allowedStatusChange_self] at hallowed
      cases hallowed
    · have hother := hsame other
      rw [hinsert other hne,hrow] at hother
      exact (status_afterSql_iff hrow).mp hother
  · rintro ⟨horder,hothers⟩
    refine ⟨_,rfl,fun other => ?_⟩
    by_cases hkey : other=key
    · obtain ⟨hselected,-⟩ := status_of_changes ⟨horder,happaratus,hallowed⟩
      rw [hkey,hself,getElem?_afterSql,hfirst,map_some,map_some,if_pos hselected]
      rfl
    · rw [hinsert other hkey]
      cases hrow : table[other]? with
      | none =>
        rw [getElem?_afterSql,hrow]
        rfl
      | some row => exact (status_afterSql_iff hrow).mpr (hothers other row hrow hkey)

/-- Memory and database agree exactly if the first reservation of the order on the apparatus has the
target status or may change to it under its exact order id, and no other one may. -/
theorem updateStatus_sameStatuses_iff (orderId : String) (apparatusId : ApparatusId)
    (status : ApparatusScheduleStatus) (actor : QueueActionActor) (table : ReservationTable) :
    SameStatuses
      (updateApparatusScheduleReservationStatus orderId apparatusId status actor table)
      (updateApparatusScheduleReservationStatusTx orderId apparatusId status actor table) ↔
    ∀ entry, reservationOf orderId apparatusId table=some entry → (entry.2.status=status ∨
        allowedStatusChange entry.2.status status=true ∧ entry.2.orderId=trim orderId) ∧
      ∀ (other : String) row, table[other]?=some row → other≠entry.1 →
        ¬ SqlChanges orderId apparatusId status row := by
  cases hfound : reservationOf orderId apparatusId table with
  | none =>
    rw [updateApparatusScheduleReservationStatus,hfound]
    refine iff_of_true (unchanged_sameStatuses_iff.mpr fun key row hrow => ?_) fun entry hentry => ?_
    · exact reservationOf_eq_none hfound hrow
    · cases hentry
  | some entry =>
    obtain ⟨hfirst,happaratus⟩ := reservationOf_eq_some hfound
    obtain ⟨key,first⟩ := entry
    simp only [Option.some_inj,forall_eq']
    rw [updateApparatusScheduleReservationStatus,hfound]
    dsimp only at hfirst happaratus ⊢
    by_cases hstatus : first.status=status
    · rw [if_pos hstatus,unchanged_sameStatuses_iff]
      constructor
      · exact fun h => ⟨.inl hstatus,fun other row hrow _ => h other row hrow⟩
      · rintro ⟨-,h⟩ other row hrow
        by_cases hkey : other=key
        · rw [hkey,hfirst,Option.some_inj] at hrow
          exact fun hchanges => (status_of_changes hchanges).2 (hrow ▸ hstatus)
        · exact h other row hrow hkey
    · rw [if_neg hstatus,or_iff_right hstatus]
      cases hallowed : allowedStatusChange first.status status with
      | true =>
        rw [if_pos rfl,changed_sameStatuses_iff hfirst happaratus hallowed]
        simp only [true_and]
      | false =>
        refine iff_of_false ?_ fun h => Bool.false_ne_true h.1.1
        rintro ⟨next,hnext,-⟩
        cases hnext

end

theorem updateStatus_sameStatuses_started : SameStatuses
      (updateApparatusScheduleReservationStatus "a" pressId .active workerActor
        ((∅ : ReservationTable).insert "r1" (pressReservation "a")))
      (updateApparatusScheduleReservationStatusTx "a" pressId .active workerActor
        ((∅ : ReservationTable).insert "r1" (pressReservation "a"))) := by
  refine (updateStatus_sameStatuses_iff "a" pressId .active workerActor _).mpr ?_
  intro entry hfound
  have hfirst : reservationOf "a" pressId ((∅ : ReservationTable).insert "r1" (pressReservation "a"))
      = some ("r1", pressReservation "a") := by decide +kernel
  rw [hfirst,Option.some_inj] at hfound
  rw [← hfound]
  refine ⟨.inr (by decide +kernel),fun other row hrow hne => ?_⟩
  rw [TreeMap.getElem?_insert,if_neg fun h => hne (Std.compare_eq_iff_eq.mp h).symm] at hrow
  simp at hrow

/-- A cancelled reservation is locked in memory and passed over in the database. -/
theorem updateStatus_cancelled_differs :
    let table : ReservationTable :=
      (∅ : ReservationTable).insert "r1" ((pressReservation "a").withStatus .cancelled workerActor)
    updateApparatusScheduleReservationStatus "a" pressId .active workerActor table =
      .error .scheduleReservationLocked ∧
    ¬ SameStatuses (updateApparatusScheduleReservationStatus "a" pressId .active workerActor table)
      (updateApparatusScheduleReservationStatusTx "a" pressId .active workerActor table) := by
  intro table
  have hlocked : updateApparatusScheduleReservationStatus "a" pressId .active workerActor table =
      .error .scheduleReservationLocked := Run.rejection_eq_some.mp (by decide +kernel)
  refine ⟨hlocked,?_⟩
  rw [hlocked]
  rintro ⟨next,hnext,-⟩
  cases hnext

end MiniErp.Capacity
