import Mathlib.Data.String.Basic

/-! The rows of a keyed table: searching them, counting those that meet a test, and what one write
changes of both. -/
namespace MiniErp.Tally
open Std List
variable {κ β : Type*} [Ord κ] [TransOrd κ] [LawfulEqOrd κ]
variable {p q : β → Bool} {table : TreeMap κ β}

def rows (table : TreeMap κ β) : List β := table.toList.map Prod.snd

theorem mem_rows {value : β} : value∈rows table ↔ ∃ key : κ, table[key]?=some value := by
  simp [rows]

theorem forall_rows_insert {P : β → Prop} {key : κ} {value : β} (hrows : ∀ v∈rows table, P v)
    (hvalue : P value) : ∀ v∈rows (table.insert key value), P v := by
  intro v hv
  obtain ⟨k,hk⟩ := mem_rows.mp hv
  rw [TreeMap.getElem?_insert] at hk
  split at hk
  · rwa [← Option.some.inj hk]
  · exact hrows v (mem_rows.mpr ⟨k,hk⟩)

theorem find?_rows_insert {key : κ} {value : β} (hp : p value=true)
    (hnone : (rows table).find? p=none) : (rows (table.insert key value)).find? p=some value := by
  have hmem : value∈rows (table.insert key value) := mem_rows.mpr ⟨key,TreeMap.getElem?_insert_self⟩
  cases hfind : (rows (table.insert key value)).find? p with
  | none => exact absurd hp (find?_eq_none.mp hfind value hmem)
  | some found =>
    obtain ⟨k,hk⟩ := mem_rows.mp (mem_of_find?_eq_some hfind)
    rw [TreeMap.getElem?_insert] at hk
    split at hk
    · rw [hk]
    · have hstored := find?_eq_none.mp hnone found (mem_rows.mpr ⟨k,hk⟩)
      exact absurd (find?_some hfind) hstored

def tally (p : β → Bool) (table : TreeMap κ β) : Nat := table.toList.countP fun entry => p entry.2

theorem tally_mono (h : ∀ (key : κ) (value : β), table[key]?=some value → p value=true → q value=true) :
    tally p table≤tally q table := by
  refine countP_mono_left fun entry hentry hp => ?_
  exact h entry.1 entry.2 (TreeMap.mem_toList_iff_getElem?_eq_some.mp hentry) hp

variable [DecidableEq κ]

theorem tally_insert (key : κ) (value : β) : tally p (table.insert key value) =
      (table.toList.filter fun entry => entry.1≠key).countP (fun entry => p entry.2) +
        (p value).toNat := by
  have hkeep : (fun entry : κ × β => decide ¬(key == entry.1)=true) =
      fun entry => decide (entry.1≠key) := by
    funext entry
    rw [decide_eq_decide,beq_iff_eq]
    exact not_congr eq_comm
  rw [tally,(TreeMap.toList_insert_perm).countP_eq,hkeep,countP_cons]
  cases p value <;> rfl

theorem tally_insert_le (key : κ) (value : β) :
    tally p (table.insert key value)≤tally p table+(p value).toNat := by
  rw [tally_insert]
  exact Nat.add_le_add_right filter_sublist.countP_le _

theorem tally_replace {key : κ} {old : β} (h : table[key]?=some old) (value : β) :
    tally p (table.insert key value)+(p old).toNat=tally p table+(p value).toNat := by
  have hsame : (table.insert key old).toList=table.toList := by
    refine (TreeMap.Equiv.of_forall_constGet?_eq fun k => ?_).toList_eq
    rw [TreeMap.getElem?_insert]
    by_cases hk : compare key k=.eq
    · rw [if_pos hk,← h,LawfulEqOrd.eq_of_compare hk]
    · rw [if_neg hk]
  have hold : tally p table=tally p (table.insert key old) := by rw [tally,tally,hsame]
  rw [hold,tally_insert,tally_insert]
  omega

end MiniErp.Tally
