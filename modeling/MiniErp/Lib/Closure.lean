import Mathlib.Data.Set.Finite.Basic
import MiniErp.Lib.Worklist

/-! Closure of tasks that wait for others. A task closes when it is done and everything before it
has closed; repeated sweeps over a finite list of tasks find the least such set, whatever the
order of the list and whatever cycles the waiting relation has. -/
namespace MiniErp.Closure
open Worklist Relation List
variable {α : Type}

section Sweeps
variable [DecidableEq α] (done : α → Bool) (before : α → List α)

def visit (closed : List α) (key : α) : List α :=
  if done key && (before key).all fun p => decide (p∈closed) then closed.insert key else closed

def sweep (keys closed : List α) : List α := keys.foldl (visit done before) closed

def sweeps (keys : List α) : Nat → List α → List α
  | 0, closed => closed
  | n+1, closed => sweeps keys n (sweep done before keys closed)

def close (keys : List α) : List α := sweeps done before keys keys.length []

end Sweeps

/-- The least set of tasks that satisfies the closing rule. -/
inductive Closes (done : α → Bool) (before : α → List α) : α → Prop
  | rule {key : α} : done key=true → (∀ p∈before key, Closes done before p) → Closes done before key

/-- A set in which the closing rule has nothing more to add. -/
def Stable (done : α → Bool) (before : α → List α) (keys closed : List α) : Prop :=
  ∀ key∈keys, done key=true → (∀ p∈before key, p∈closed) → key∈closed

variable {done : α → Bool} {before : α → List α}

section Fixpoint
variable [DecidableEq α]

variable {closed keys : List α} {key : α}

theorem mem_visit {x : α} : x∈visit done before closed key ↔
      x∈closed ∨ x=key ∧ done key=true ∧ ∀ p∈before key, p∈closed := by
  unfold visit
  split
  · rename_i hrule
    simp only [Bool.and_eq_true,all_eq_true,decide_eq_true_eq] at hrule
    rw [mem_insert_iff,and_iff_left (a := x=key) hrule,or_comm]
  · rename_i hrule
    simp only [Bool.and_eq_true,all_eq_true,decide_eq_true_eq] at hrule
    simp [hrule]

theorem subset_visit (closed : List α) (key : α) : closed ⊆ visit done before closed key :=
  fun _ hx => mem_visit.mpr (.inl hx)

theorem subset_sweep (keys closed : List α) : closed ⊆ sweep done before keys closed := by
  induction keys generalizing closed with
  | nil => exact fun x hx => hx
  | cons key rest ih => exact Subset.trans (subset_visit closed key) (ih _)

/-- What a visit adds closes by the rule, so a sweep only adds tasks that close. -/
theorem sweep_sound {all : List α} (h : ∀ x∈closed, x∈all ∧ Closes done before x)
    (hkeys : keys ⊆ all) : ∀ x∈sweep done before keys closed, x∈all ∧ Closes done before x := by
  induction keys generalizing closed with
  | nil => exact h
  | cons key rest ih =>
    rw [cons_subset] at hkeys
    refine ih (fun x hx => ?_) hkeys.2
    rcases mem_visit.mp hx with hold | ⟨rfl,hdone,hbefore⟩
    · exact h x hold
    · exact ⟨hkeys.1,.rule hdone fun p hp => (h p (hbefore p hp)).2⟩

theorem sweeps_sound (n : Nat) (h : ∀ x∈closed, x∈keys ∧ Closes done before x) :
    ∀ x∈sweeps done before keys n closed, x∈keys ∧ Closes done before x := by
  induction n generalizing closed with
  | zero => exact h
  | succ n ih => exact ih (sweep_sound h (Subset.refl keys))

theorem mem_sweep_of_rule (hkey : key∈keys) (hdone : done key=true)
    (hbefore : ∀ p∈before key, p∈closed) : key∈sweep done before keys closed := by
  induction keys generalizing closed with
  | nil => cases hkey
  | cons first rest ih =>
    rcases mem_cons.mp hkey with rfl | hrest
    · exact subset_sweep rest _ (mem_visit.mpr (.inr ⟨rfl,hdone,hbefore⟩))
    · exact ih hrest fun p hp => subset_visit closed first (hbefore p hp)

theorem Stable.sweep_eq (h : Stable done before keys closed) :
    sweep done before keys closed=closed := by
  induction keys with
  | nil => rfl
  | cons key rest ih =>
    have hvisit : visit done before closed key=closed := by
      unfold visit
      split
      · rename_i hrule
        simp only [Bool.and_eq_true,all_eq_true,decide_eq_true_eq] at hrule
        exact insert_of_mem (h key mem_cons_self hrule.1 hrule.2)
      · rfl
    rw [sweep,foldl_cons,hvisit]
    exact ih fun x hx => h x (mem_cons_of_mem key hx)

def openCount (keys closed : List α) : Nat := keys.countP fun key => decide (key∉closed)

theorem openCount_sweep_lt (h : ¬Stable done before keys closed) :
    openCount keys (sweep done before keys closed)<openCount keys closed := by
  unfold Stable at h
  push Not at h
  obtain ⟨key,hkey,hdone,hbefore,hnew⟩ := h
  have hclosed := mem_sweep_of_rule hkey hdone hbefore
  obtain ⟨left,right,rfl⟩ := append_of_mem hkey
  have hmono : ∀ part : List α, openCount part (sweep done before (left++key::right) closed) ≤
      openCount part closed := fun part =>
    countP_mono_left fun x _ hx => by
      rw [decide_eq_true_eq] at hx ⊢
      exact fun hold => hx (subset_sweep _ _ hold)
  have hleft := hmono left
  have hright := hmono right
  unfold openCount at hleft hright ⊢
  simp only [countP_append,countP_cons,hclosed,hnew,not_true_eq_false,
    not_false_eq_true,decide_false,decide_true,Bool.false_eq_true,if_false,if_true]
  omega

/-- A sweep that is not the last one closes a task, so the sweeps end in a stable set. -/
theorem stable_sweeps {n : Nat} (h : openCount keys closed≤n) :
    Stable done before keys (sweeps done before keys n closed) := by
  induction n generalizing closed with
  | zero =>
    intro key hkey _ _
    have hnone := countP_eq_zero.mp (Nat.le_zero.mp h) key hkey
    simpa [sweeps] using hnone
  | succ n ih =>
    by_cases hstable : Stable done before keys closed
    · have hsame : ∀ m, sweeps done before keys m closed=closed := by
        intro m
        induction m with
        | zero => rfl
        | succ m ihm => rw [sweeps,hstable.sweep_eq,ihm]
      rw [hsame]
      exact hstable
    · refine ih ?_
      have hlt := openCount_sweep_lt hstable
      omega

/-- As many sweeps as there are tasks compute the least fixed point of the closing rule. -/
theorem mem_close_iff (hkeys : ∀ key∈keys, ∀ p∈before key, p∈keys)
    : key∈close done before keys ↔ key∈keys ∧ Closes done before key := by
  constructor
  · intro h
    exact sweeps_sound _ (fun x hx => absurd hx not_mem_nil) key h
  · rintro ⟨hkey,hcloses⟩
    have hstable : Stable done before keys (close done before keys) :=
      stable_sweeps countP_le_length
    induction hcloses with
    | rule hdone _ ih => exact hstable _ hkey hdone fun p hp => ih p hp (hkeys _ hkey p hp)

end Fixpoint

variable {a : α}

theorem Closes.of_walk {b : α} (h : Closes done before a)
    (hwalk : ReflTransGen (Step before) a b) : Closes done before b := by
  induction hwalk with
  | refl => exact h
  | tail _ hstep ih =>
    cases ih with
    | rule _ hbefore => exact hbefore _ hstep

theorem Closes.done_eq_true (h : Closes done before a) : done a=true := by
  cases h with
  | rule hdone _ => exact hdone

/-- A closed task waits for nothing without end, so it lies on no cycle. -/
theorem Closes.acc (h : Closes done before a) : Acc (fun p key => Step before key p) a := by
  induction h with
  | rule _ _ ih => exact ⟨_,fun p hp => ih p hp⟩

theorem not_cycle_of_acc {r : α → α → Prop} (h : Acc (fun p key => r key p) a) :
    ¬TransGen r a a := by
  induction h with
  | intro a _ ih =>
    intro hcycle
    obtain ⟨p,hstep,hback⟩ := TransGen.head'_iff.mp hcycle
    -- the cycle can be started one step later
    exact ih p hstep (TransGen.tail' hback hstep)

/-- A task closes exactly when every task it waits for, directly or not, is done and lies on no
cycle of waiting. -/
theorem closes_iff {keys : List α} (hkeys : ∀ key∈keys, ∀ p∈before key, p∈keys) {key : α}
    (hkey : key∈keys) : Closes done before key ↔ ∀ q, ReflTransGen (Step before) key q →
        done q=true ∧ ¬TransGen (Step before) q q := by
  constructor
  · intro h q hwalk
    have hq := h.of_walk hwalk
    exact ⟨hq.done_eq_true,not_cycle_of_acc hq.acc⟩
  · intro h
    let Waited := { q // q∈keys ∧ ReflTransGen (Step before) key q }
    have hfinite : Finite Waited := ((finite_toSet keys).subset fun q hq => hq.1).to_subtype
    let earlier : Waited → Waited → Prop := fun p q => TransGen (Step before) q.1 p.1
    have hirrefl : Std.Irrefl earlier := ⟨fun q => (h q.1 q.2.2).2⟩
    have hwf : WellFounded earlier := Finite.wellFounded_of_trans_of_irrefl earlier
    have hall : ∀ q : Waited, Closes done before q.1 := by
      intro q
      induction q using hwf.induction with
      | h q ih =>
        refine .rule (h q.1 q.2.2).1 fun p hp => ?_
        exact ih ⟨p,hkeys _ q.2.1 p hp,q.2.2.tail hp⟩ (.single hp)
    exact hall ⟨key,hkey,.refl⟩

end MiniErp.Closure
