import MiniErp.Lib.Calendar
import Mathlib.Data.List.Sort
import Mathlib.Tactic.Linarith

/-! Retention of backup snapshots. Each snapshot lies in a directory of its own under the root; a
slot is a week or a month of which one snapshot is kept. -/
namespace MiniErp.Backup
open Calendar List

structure Snapshot where
  directory : String
  status : String
  completedAtUnix : Int
  deriving DecidableEq

/-- `OffsetDateTime::from_unix_timestamp`, for years of at most four digits. -/
def fromUnixTimestamp (seconds : Int) : Option Int :=
  if firstDay (-9999)*86400 ≤ seconds ∧ seconds<firstDay 10000*86400 then some seconds
  else none

/-- `Duration::whole_days` of nanoseconds. -/
def wholeDays (nanoseconds : Int) : Int := (nanoseconds.tdiv 1000000000).tdiv 86400

def Snapshot.day (snapshot : Snapshot) : Int := snapshot.completedAtUnix/86400

/-- The current time is in nanoseconds. -/
def ageDays (now : Int) (snapshot : Snapshot) : Int :=
  match fromUnixTimestamp snapshot.completedAtUnix with
  | some value => max (wholeDays (now-value*1000000000)) 0
  | none => 9223372036854775807

structure KeptSlots where
  weeks : List (Int × Int)
  months : List (Int × Int)

def insertSlot (slot : Int × Int) (slots : List (Int × Int)) : Bool × List (Int × Int) :=
  if slot∈slots then (false, slots) else (true, slot::slots)

def keep (now : Int) (index : Nat) (snapshot : Snapshot) (kept : KeptSlots) : Bool × KeptSlots :=
  let age := ageDays now snapshot
  let completed := (fromUnixTimestamp snapshot.completedAtUnix).isSome
  if index=0 ∨ age≤14 then (true, kept)
  else if age≤56 then
    if completed then
      let inserted := insertSlot (yearOf snapshot.day, isoWeek snapshot.day) kept.weeks
      (inserted.1, { kept with weeks := inserted.2 })
    else (false, kept)
  else if age≤365 then
    if completed then
      let inserted := insertSlot (yearOf snapshot.day, monthOf snapshot.day) kept.months
      (inserted.1, { kept with months := inserted.2 })
    else (false, kept)
  else (false, kept)

def failedExpired (now : Int) (snapshot : Snapshot) : Bool :=
  snapshot.status = "failed" && 7<ageDays now snapshot

def prune (now : Int) (index : Nat) (kept : KeptSlots) : List Snapshot → List Snapshot
  | [] => []
  | snapshot::rest =>
    let (keepIt, kept) := keep now index snapshot kept
    let removed := prune now (index+1) kept rest
    if !keepIt || failedExpired now snapshot then snapshot::removed else removed

def sorted (snapshots : List Snapshot) : List Snapshot :=
  snapshots.insertionSort fun a b => b.completedAtUnix≤a.completedAtUnix

def applyRetention (now : Int) (snapshots : List Snapshot) : List Snapshot :=
  let removed := (prune now 0 ⟨[],[]⟩ (sorted snapshots)).map (·.directory)
  snapshots.filter fun snapshot => snapshot.directory∉removed

/- The slots. -/

inductive Slot where
  | week (year week : Int)
  | month (year month : Int)
  deriving DecidableEq

/-- The slot a snapshot competes for. -/
def slotOf (now : Int) (snapshot : Snapshot) : Option Slot :=
  if ageDays now snapshot≤14 then none
  else if ageDays now snapshot≤56 then
    some (.week (yearOf snapshot.day) (isoWeek snapshot.day))
  else if ageDays now snapshot≤365 then
    some (.month (yearOf snapshot.day) (monthOf snapshot.day))
  else none

def KeptSlots.has (kept : KeptSlots) : Slot → Prop
  | .week year week => (year, week)∈kept.weeks
  | .month year month => (year, month)∈kept.months

/-- The snapshot is the newest of all, or recent, or the first of its slot after the newest of
all; `ahead` are the snapshots before it. -/
def Holds (now : Int) (ahead : List Snapshot) (snapshot : Snapshot) : Prop :=
  ahead=[] ∨ ageDays now snapshot≤14 ∨
    ∃ slot, slotOf now snapshot=some slot ∧ ∀ other∈ahead.tail, slotOf now other≠some slot

variable {now : Int} {snapshot : Snapshot} {index : Nat} {kept : KeptSlots}

theorem completed_of_ageDays_le (h : ageDays now snapshot≤365) :
    fromUnixTimestamp snapshot.completedAtUnix=some snapshot.completedAtUnix := by
  unfold ageDays at h
  unfold fromUnixTimestamp at h ⊢
  split
  · rfl
  · rename_i hrange
    rw [if_neg hrange] at h
    change (9223372036854775807 : Int)≤365 at h
    omega

theorem insertSlot_fst {slot : Int × Int} {slots : List (Int × Int)} :
    (insertSlot slot slots).1=true ↔ slot∉slots := by
  unfold insertSlot
  split <;> simp_all

theorem mem_insertSlot {slot other : Int × Int} {slots : List (Int × Int)} :
    other∈(insertSlot slot slots).2 ↔ other∈slots ∨ other=slot := by
  unfold insertSlot
  split
  · rename_i hmem
    constructor
    · exact .inl
    · intro h
      cases h with
      | inl h => exact h
      | inr h => exact h ▸ hmem
  · rw [mem_cons,or_comm]

theorem keep_fst : (keep now index snapshot kept).1=true ↔ index=0 ∨ ageDays now snapshot≤14 ∨
      ∃ slot, slotOf now snapshot=some slot ∧ ¬kept.has slot := by
  unfold keep slotOf
  by_cases hfree : index=0 ∨ ageDays now snapshot≤14
  · rw [if_pos hfree]
    exact iff_of_true rfl (hfree.imp_right .inl)
  · rw [if_neg hfree]
    rw [not_or] at hfree
    rw [if_neg hfree.2,or_iff_right hfree.1,or_iff_right hfree.2]
    by_cases hweek : ageDays now snapshot≤56
    · have hcompleted := completed_of_ageDays_le (hweek.trans (by decide))
      simp [hweek,hcompleted,insertSlot_fst,KeptSlots.has]
    · by_cases hmonth : ageDays now snapshot≤365
      · simp [hweek,hmonth,completed_of_ageDays_le hmonth,insertSlot_fst,KeptSlots.has]
      · simp [hweek,hmonth]

theorem keep_snd_has {slot : Slot} : (keep now index snapshot kept).2.has slot ↔
    kept.has slot ∨ index≠0 ∧ slotOf now snapshot=some slot := by
  unfold keep slotOf
  by_cases hfree : index=0 ∨ ageDays now snapshot≤14
  · rw [if_pos hfree]
    cases hfree with
    | inl h => simp [h]
    | inr h => simp [h]
  · rw [if_neg hfree]
    rw [not_or] at hfree
    rw [if_neg hfree.2]
    by_cases hweek : ageDays now snapshot≤56
    · have hcompleted := completed_of_ageDays_le (hweek.trans (by decide))
      cases slot <;> simp [hweek,hcompleted,hfree.1,mem_insertSlot,KeptSlots.has,eq_comm]
    · by_cases hmonth : ageDays now snapshot≤365
      · have hcompleted := completed_of_ageDays_le hmonth
        cases slot <;> simp [hweek,hmonth,hcompleted,hfree.1,mem_insertSlot,KeptSlots.has,eq_comm]
      · simp [hweek,hmonth]

/-- What the loop removes, when the slots are those of the snapshots before. -/
theorem mem_prune {ahead rest : List Snapshot}
    (h : ∀ slot, kept.has slot ↔ ∃ other∈ahead.tail, slotOf now other=some slot) :
    snapshot∈prune now ahead.length kept rest ↔ ∃ before after, rest=before++snapshot::after ∧
        (¬Holds now (ahead++before) snapshot ∨ failedExpired now snapshot=true) := by
  induction rest generalizing ahead kept with
  | nil => simp [prune]
  | cons first rest ih =>
    have hkeep : (keep now ahead.length first kept).1=true ↔ Holds now ahead first := by
      rw [keep_fst,Holds]
      simp [h]
    have hnext : ∀ slot, (keep now ahead.length first kept).2.has slot ↔
        ∃ other∈(ahead++[first]).tail, slotOf now other=some slot := by
      intro slot
      rw [keep_snd_has,h]
      cases ahead with
      | nil => simp
      | cons head tail => simp
    have hrest := ih hnext
    rw [length_append,length_singleton] at hrest
    have hsplit : (∃ before after, first::rest=before++snapshot::after ∧
        (¬Holds now (ahead++before) snapshot ∨ failedExpired now snapshot=true)) ↔
        (snapshot=first ∧ (¬Holds now ahead first ∨ failedExpired now first=true)) ∨
        ∃ before after, rest=before++snapshot::after ∧
          (¬Holds now (ahead++[first]++before) snapshot ∨ failedExpired now snapshot=true) := by
      constructor
      · intro hexists
        obtain ⟨before,after,heq,hremoved⟩ := hexists
        cases before with
        | nil =>
          rw [nil_append,cons.injEq] at heq
          rw [append_nil,← heq.1] at hremoved
          exact .inl ⟨heq.1.symm,hremoved⟩
        | cons head before =>
          rw [cons_append,cons.injEq] at heq
          rw [← heq.1,append_cons] at hremoved
          exact .inr ⟨before,after,heq.2,hremoved⟩
      · intro hcases
        cases hcases with
        | inl hfirst =>
          obtain ⟨rfl,hremoved⟩ := hfirst
          exact ⟨[],rest,rfl,by simpa using hremoved⟩
        | inr hlater =>
          obtain ⟨before,after,heq,hremoved⟩ := hlater
          exact ⟨first::before,after,by rw [heq]; rfl,by simpa using hremoved⟩
    rw [hsplit,← hrest,← hkeep]
    simp only [prune,Bool.or_eq_true,Bool.not_eq_true',Bool.not_eq_true]
    split
    · rename_i hremoved
      simp only [mem_cons,hremoved,and_true]
    · rename_i hkept
      simp only [hkept,and_false,false_or]

theorem sorted_perm (snapshots : List Snapshot) : (sorted snapshots).Perm snapshots :=
  perm_insertionSort _ snapshots

section Survival
variable {snapshots : List Snapshot}

theorem mem_applyRetention (hdirectories : (snapshots.map (·.directory)).Nodup) :
    snapshot∈applyRetention now snapshots ↔ ∃ ahead after, sorted snapshots=ahead++snapshot::after ∧
    Holds now ahead snapshot ∧ failedExpired now snapshot=false := by
  have hremoved : ∀ s, s∈prune now 0 ⟨[],[]⟩ (sorted snapshots) ↔ ∃ ahead after,
      sorted snapshots=ahead++s::after ∧ (¬Holds now ahead s ∨ failedExpired now s=true) := by
    intro s
    have hnone : ∀ slot, KeptSlots.has ⟨[],[]⟩ slot ↔
        ∃ other∈([] : List Snapshot).tail, slotOf now other=some slot := by
      intro slot
      cases slot <;> simp [KeptSlots.has]
    exact mem_prune hnone
  have hnodup : (sorted snapshots).Nodup :=
    (sorted_perm snapshots).nodup_iff.mpr (Nodup.of_map _ hdirectories)
  have hunique : ∀ s∈snapshots, ∀ other∈snapshots, s.directory=other.directory → s=other :=
    fun s hs other hother => inj_on_of_nodup_map hdirectories hs hother
  simp only [applyRetention,mem_filter,decide_eq_true_eq,mem_map]
  constructor
  · intro h
    obtain ⟨hmem,hkept⟩ := h
    obtain ⟨ahead,after,hsplit⟩ := append_of_mem ((sorted_perm snapshots).mem_iff.mpr hmem)
    refine ⟨ahead,after,hsplit,?_⟩
    by_contra hcontra
    refine hkept ⟨snapshot,(hremoved snapshot).mpr ⟨ahead,after,hsplit,?_⟩,rfl⟩
    rw [not_and_or,Bool.not_eq_false] at hcontra
    exact hcontra
  · intro h
    obtain ⟨ahead,after,hsplit,hholds,hfresh⟩ := h
    have hmem : snapshot∈snapshots := by
      rw [← (sorted_perm snapshots).mem_iff,hsplit]
      simp
    refine ⟨hmem,fun hexists => ?_⟩
    obtain ⟨other,hother,hsame⟩ := hexists
    obtain ⟨ahead',after',hsplit',hcases⟩ := (hremoved other).mp hother
    have hothermem : other∈snapshots := by
      rw [← (sorted_perm snapshots).mem_iff,hsplit']
      simp
    rw [hunique other hothermem snapshot hmem hsame] at hsplit' hcases
    rw [hsplit',nodup_middle,nodup_cons,mem_append,not_or] at hnodup
    obtain ⟨hahead,-,-⟩ := (append_cons_inj_of_notMem hnodup.1.1 hnodup.1.2).mp
      (hsplit'.symm.trans hsplit)
    rw [hahead,hfresh] at hcases
    cases hcases with
    | inl hnot => exact hnot hholds
    | inr hexpired => cases hexpired

def Snapshot.Ready (snapshot : Snapshot) : Prop := snapshot.status = "ready"

instance : DecidablePred Snapshot.Ready :=
  fun snapshot => inferInstanceAs (Decidable (snapshot.status = "ready"))

structure NewestReady (snapshots : List Snapshot) (snapshot : Snapshot) : Prop where
  mem : snapshot∈snapshots
  ready : snapshot.Ready
  newest : ∀ other∈snapshots, other.Ready → other.completedAtUnix ≤ snapshot.completedAtUnix

def sameWeek (snapshot other : Snapshot) : Prop := weekOf snapshot.day=weekOf other.day

def sameMonth (snapshot other : Snapshot) : Prop :=
  yearOf snapshot.day=yearOf other.day ∧ monthOf snapshot.day=monthOf other.day

/-- The last good copies are among the snapshots that are left. -/
structure LastGoodCopies (now : Int) (snapshots left : List Snapshot) : Prop where
  newest : (∃ snapshot∈snapshots, snapshot.Ready) → ∃ snapshot∈left, NewestReady snapshots snapshot
  weekly : ∀ snapshot∈snapshots, snapshot.Ready → 15≤ageDays now snapshot →
    ageDays now snapshot≤56 → ∃ other∈left, other.Ready ∧ sameWeek other snapshot
  monthly : ∀ snapshot∈snapshots, snapshot.Ready → 57≤ageDays now snapshot →
    ageDays now snapshot≤365 → ∃ other∈left, other.Ready ∧ sameMonth other snapshot

/-- The snapshot is the newest of all, at most 14 days old, or the first of its slot. -/
def First (now : Int) (snapshots : List Snapshot) (snapshot : Snapshot) : Prop :=
  ∃ ahead after, sorted snapshots=ahead++snapshot::after ∧ Holds now ahead snapshot

theorem Snapshot.Ready.not_failedExpired (h : snapshot.Ready) :
    failedExpired now snapshot=false := by
  rw [Snapshot.Ready] at h
  simp [failedExpired,h]

theorem mem_applyRetention_of_ready (hdirectories : (snapshots.map (·.directory)).Nodup)
    (hready : snapshot.Ready) :
    snapshot∈applyRetention now snapshots ↔ First now snapshots snapshot := by
  simp only [mem_applyRetention hdirectories,hready.not_failedExpired,and_true,First]

end Survival

section Sample

/-- The first of July 2026, in seconds. -/
def julyFirst : Int := 20635*86400

def snapshotAt (directory status : String) (days : Int) : Snapshot :=
  ⟨directory,status,julyFirst-days*86400⟩

/-- A backup fails today, and the last one that did not is older than a year. -/
def failedToday : List Snapshot := [snapshotAt "b1" "ready" 400,snapshotAt "b2" "failed" 0]

/-- A backup of today, and a week in which the later of two backups failed. -/
def failedInWeek : List Snapshot :=
  [snapshotAt "b1" "ready" 20,snapshotAt "b2" "failed" 19,snapshotAt "b3" "ready" 0]

/-- A failed backup that is in no slot. -/
def failedLater : List Snapshot :=
  [snapshotAt "b1" "ready" 20,snapshotAt "b2" "failed" 10,snapshotAt "b3" "ready" 0]

end Sample

end MiniErp.Backup
