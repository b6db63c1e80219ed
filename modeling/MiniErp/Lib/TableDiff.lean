import Mathlib.Data.String.Basic

/-! Differences of keyed tables: the entries to write and the keys to drop that turn one table into
another, and what a holder of the first table sees after applying them. -/
namespace MiniErp.TableDiff
open Std List
variable {κ β γ : Type*} [Ord κ] [TransOrd κ] [LawfulEqOrd κ]

def dropKeys (keys : List κ) (table : TreeMap κ β) : TreeMap κ β :=
  keys.foldl (fun table key => table.erase key) table

def writeAll (entries : List (κ × β)) (table : TreeMap κ β) : TreeMap κ β :=
  entries.foldl (fun table entry => table.insert entry.1 entry.2) table

theorem toList_eq_iff {a b : TreeMap κ β} : a.toList=b.toList ↔ ∀ key : κ, a[key]?=b[key]? := by
  constructor
  · intro h key
    exact (TreeMap.equiv_iff_toList_eq.mpr h).getElem?_eq
  · intro h
    exact (TreeMap.Equiv.of_forall_constGet?_eq h).toList_eq

theorem getElem?_dropKeys [DecidableEq κ] (keys : List κ) (table : TreeMap κ β) (key : κ) :
    (dropKeys keys table)[key]?=if key∈keys then none else table[key]? := by
  induction keys generalizing table with
  | nil => simp [dropKeys]
  | cons first rest ih =>
    have hstep : (dropKeys (first::rest) table)[key]?=(dropKeys rest (table.erase first))[key]? :=
      rfl
    rw [hstep,ih,TreeMap.getElem?_erase]
    by_cases hrest : key∈rest
    · simp [hrest]
    · by_cases hfirst : key=first
      · simp [hfirst]
      · have hne : ¬compare first key=.eq := fun h => hfirst (LawfulEqOrd.eq_of_compare h).symm
        simp [hfirst,hne]

theorem getElem?_writeAll_of_notMem {entries : List (κ × β)} {key : κ}
    (h : key∉entries.map Prod.fst) (table : TreeMap κ β) :
    (writeAll entries table)[key]?=table[key]? := by
  induction entries generalizing table with
  | nil => rfl
  | cons first rest ih =>
    rw [map_cons,mem_cons,not_or] at h
    have hne : ¬compare first.1 key=.eq := fun heq => h.1 (LawfulEqOrd.eq_of_compare heq).symm
    have hstep := ih h.2 (table.insert first.1 first.2)
    rwa [TreeMap.getElem?_insert,if_neg hne] at hstep

theorem getElem?_writeAll_of_mem {entries : List (κ × β)} (hnodup : (entries.map Prod.fst).Nodup)
    {key : κ} {value : β} (h : (key, value)∈entries) (table : TreeMap κ β) :
    (writeAll entries table)[key]?=some value := by
  induction entries generalizing table with
  | nil => cases h
  | cons first rest ih =>
    obtain ⟨hfirst,hrest⟩ := nodup_cons.mp hnodup
    cases h with
    | head =>
      have hstep := getElem?_writeAll_of_notMem hfirst (table.insert key value)
      rwa [TreeMap.getElem?_insert_self] at hstep
    | tail _ h => exact ih hrest h (table.insert first.1 first.2)

theorem getElem?_writeAll_perm {first second : List (κ × β)} (hperm : first.Perm second)
    (hnodup : (second.map Prod.fst).Nodup) (table : TreeMap κ β) (key : κ) :
    (writeAll first table)[key]?=(writeAll second table)[key]? := by
  by_cases hkey : key∈second.map Prod.fst
  · obtain ⟨entry,hentry,heq⟩ := mem_map.mp hkey
    have hmem : (key, entry.2)∈second := heq ▸ hentry
    rw [getElem?_writeAll_of_mem hnodup hmem,
      getElem?_writeAll_of_mem ((hperm.map Prod.fst).nodup_iff.mpr hnodup) (hperm.mem_iff.mpr hmem)]
  · have hfirst : key∉first.map Prod.fst := fun h => hkey ((hperm.map Prod.fst).mem_iff.mp h)
    rw [getElem?_writeAll_of_notMem hkey,getElem?_writeAll_of_notMem hfirst]

section Diff
variable [DecidableEq β]

def upserts (before after : TreeMap κ β) : List (κ × β) :=
  after.toList.filter fun entry => before[entry.1]? ≠ some entry.2

def removals (before after : TreeMap κ β) : List κ :=
  before.keys.filter fun key => !after.contains key

variable {before after : TreeMap κ β}

theorem mem_upserts {key : κ} {value : β} :
    (key, value)∈upserts before after ↔ after[key]?=some value ∧ before[key]? ≠ some value := by
  simp [upserts]

omit [DecidableEq β] in
theorem mem_removals {key : κ} :
    key∈removals before after ↔ before[key]? ≠ none ∧ after[key]?=none := by
  rw [removals,mem_filter,TreeMap.mem_keys,TreeMap.mem_iff_isSome_getElem?,
    ← TreeMap.isSome_getElem?_eq_contains]
  cases after[key]? <;> simp

omit [LawfulEqOrd κ] in
theorem nodup_upserts : ((upserts before after).map Prod.fst).Nodup := by
  have hkeys : (after.toList.map Prod.fst).Nodup := by
    rw [TreeMap.map_fst_toList_eq_keys]
    exact TreeMap.nodup_keys
  exact hkeys.sublist (filter_sublist.map Prod.fst)

theorem upserts_removals_eq_nil : upserts before after=[] ∧ removals before after=[] ↔
      ∀ key : κ, before[key]?=after[key]? := by
  simp only [eq_nil_iff_forall_not_mem,Prod.forall,mem_upserts,mem_removals]
  constructor
  · intro h key
    cases hafter : after[key]? with
    | none =>
      by_contra hne
      exact h.2 key ⟨hne,hafter⟩
    | some value =>
      by_contra hne
      exact h.1 key value ⟨hafter,hne⟩
  · intro h
    constructor
    · intro key value hkey
      exact hkey.2 ((h key).trans hkey.1)
    · intro key hkey
      exact hkey.1 ((h key).trans hkey.2)

/-- A holder of an image of the old table has the image of the new one after dropping the keys and
writing the entries. -/
theorem getElem?_apply [DecidableEq κ] (f : β → γ) {held : TreeMap κ γ}
    (hheld : ∀ key : κ, held[key]?=before[key]?.map f) (key : κ) :
    (writeAll ((upserts before after).map fun entry => (entry.1, f entry.2))
      (dropKeys (removals before after) held))[key]?=after[key]?.map f := by
  have hkeys : ((upserts before after).map fun entry => (entry.1, f entry.2)).map Prod.fst =
      (upserts before after).map Prod.fst := by
    rw [map_map]
    rfl
  by_cases hmem : ∃ value, (key, value)∈upserts before after
  · obtain ⟨value,hvalue⟩ := hmem
    have hentry : (key, f value)∈(upserts before after).map fun entry => (entry.1, f entry.2) :=
      mem_map.mpr ⟨(key, value),hvalue,rfl⟩
    rw [getElem?_writeAll_of_mem (hkeys ▸ nodup_upserts) hentry,(mem_upserts.mp hvalue).1]
    rfl
  · have hnot : key∉((upserts before after).map fun entry => (entry.1, f entry.2)).map Prod.fst := by
      rw [hkeys]
      intro h
      obtain ⟨entry,hentry,heq⟩ := mem_map.mp h
      exact hmem ⟨entry.2,heq ▸ hentry⟩
    rw [getElem?_writeAll_of_notMem hnot,getElem?_dropKeys,hheld]
    cases hafter : after[key]? with
    | none =>
      by_cases hbefore : before[key]?=none
      · simp [hbefore]
      · rw [if_pos (mem_removals.mpr ⟨hbefore,hafter⟩)]
        rfl
    | some value =>
      have hsame : before[key]?=some value := by
        by_contra hne
        exact hmem ⟨value,mem_upserts.mpr ⟨hafter,hne⟩⟩
      have hkept : key∉removals before after := fun h => by
        rw [(mem_removals.mp h).2] at hafter
        cases hafter
      rw [if_neg hkept,hsame]

end Diff

end MiniErp.TableDiff
