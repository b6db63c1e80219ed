import Mathlib.Data.String.Basic

/-! Tables of rows that name their own key: every row is stored under the key it names. -/
namespace MiniErp
open Std List
variable {α : Type*} {key : α → String}

structure Table (key : α → String) where
  rows : TreeMap String α
  keyed : ∀ k row, rows[k]?=some row → key row=k

namespace Table

def empty : Table key where
  rows := ∅
  keyed := by simp

def get? (table : Table key) (k : String) : Option α := table.rows[k]?

def values (table : Table key) : List α := table.rows.toList.map Prod.snd

def insert (table : Table key) (row : α) : Table key where
  rows := table.rows.insert (key row) row
  keyed := by
    intro k found h
    rw [TreeMap.getElem?_insert] at h
    split at h
    · rename_i heq
      rw [← Option.some.inj h]
      exact LawfulEqOrd.eq_of_compare heq
    · exact table.keyed k found h

def deleteWhere (p : α → Bool) (table : Table key) : Table key where
  rows := table.rows.filter fun _ row => !p row
  keyed := by
    intro k found h
    rw [TreeMap.getElem?_filter',Option.filter_eq_some_iff] at h
    exact table.keyed k found h.1

def insertAll (table : Table key) (rows : List α) : Table key := rows.foldl insert table

def ofList (rows : List α) : Table key := empty.insertAll rows

variable {k : String} {row : α}

theorem key_of_get? {table : Table key} (h : table.get? k=some row) : key row=k :=
  table.keyed k row h

theorem mem_values {table : Table key} : row∈table.values ↔ table.get? (key row)=some row := by
  simp only [values,get?,mem_map]
  constructor
  · rintro ⟨entry,hentry,rfl⟩
    have hget := TreeMap.mem_toList_iff_getElem?_eq_some.mp hentry
    rwa [table.keyed _ _ hget]
  · intro h
    exact ⟨(key row, row),TreeMap.mem_toList_iff_getElem?_eq_some.mpr h,rfl⟩

theorem mem_values_of_get? {table : Table key} (h : table.get? k=some row) : row∈table.values := by
  rw [mem_values,key_of_get? h,h]

theorem get?_insert (table : Table key) (row : α) (k : String) :
    (table.insert row).get? k=if key row=k then some row else table.get? k := by
  simp only [get?,insert,TreeMap.getElem?_insert,LawfulEqOrd.compare_eq_iff_eq]

theorem mem_values_insert {table : Table key} {new : α} :
    row∈(table.insert new).values ↔ row=new ∨ row∈table.values ∧ key row≠key new := by
  rw [mem_values,mem_values,get?_insert]
  by_cases hkey : key new=key row
  · simp [hkey,eq_comm]
  · have hne : row≠new := fun heq => hkey (congrArg key heq.symm)
    simp [hkey,hne,Ne.symm hkey]

theorem mem_values_deleteWhere {table : Table key} {p : α → Bool} :
    row∈(table.deleteWhere p).values ↔ row∈table.values ∧ p row=false := by
  rw [mem_values,mem_values]
  simp [get?,deleteWhere]

theorem get?_insertAll_of_notMem {rows : List α} (h : k∉rows.map key)
    (table : Table key) : (table.insertAll rows).get? k=table.get? k := by
  induction rows generalizing table with
  | nil => rfl
  | cons row rest ih =>
    rw [map_cons,mem_cons,not_or] at h
    have hstep := ih h.2 (table.insert row)
    rwa [get?_insert,if_neg (Ne.symm h.1)] at hstep

theorem exists_get?_insertAll {rows : List α} (h : k∈rows.map key)
    (table : Table key) : ∃ row∈rows, key row=k ∧ (table.insertAll rows).get? k=some row := by
  induction rows generalizing table with
  | nil => cases h
  | cons first rest ih =>
    by_cases hrest : k∈rest.map key
    · obtain ⟨row,hrow,hkey,hget⟩ := ih hrest (table.insert first)
      exact ⟨row,mem_cons_of_mem first hrow,hkey,hget⟩
    · rw [map_cons,mem_cons] at h
      have hkey : key first=k := (h.resolve_right hrest).symm
      have hget := get?_insertAll_of_notMem hrest (table.insert first)
      rw [get?_insert,if_pos hkey] at hget
      exact ⟨first,mem_cons_self,hkey,hget⟩

theorem getElem?_foldl_insert (m updates : TreeMap String α) (k : String) :
    (updates.toList.foldl (fun all entry => all.insert entry.1 entry.2) m)[k]? =
      updates[k]?.or m[k]? := by
  have hlist : ∀ (entries : List (String × α)) (m : TreeMap String α),
      entries.Pairwise (fun a b => a.1≠b.1) → (∀ value, (k, value)∈entries →
        (entries.foldl (fun all entry => all.insert entry.1 entry.2) m)[k]?=some value) ∧
      ((∀ value, (k, value)∉entries) →
        (entries.foldl (fun all entry => all.insert entry.1 entry.2) m)[k]?=m[k]?) := by
    intro entries
    induction entries with
    | nil => exact fun m _ => ⟨by simp,fun _ => rfl⟩
    | cons first rest ih =>
      intro m hdistinct
      rw [pairwise_cons] at hdistinct
      obtain ⟨hwritten,hkept⟩ := ih (m.insert first.1 first.2) hdistinct.2
      constructor
      · intro value hvalue
        rw [mem_cons] at hvalue
        cases hvalue with
        | inl heq =>
          have hfirst := hkept fun other hother => hdistinct.1 (k, other) hother (heq ▸ rfl)
          rw [foldl_cons,hfirst,← heq,TreeMap.getElem?_insert_self]
        | inr hvalue => exact hwritten value hvalue
      · intro hnone
        have hne : first.1≠k := fun heq => hnone first.2 (heq ▸ mem_cons_self)
        rw [foldl_cons,hkept fun other hother => hnone other (mem_cons_of_mem _ hother),
          TreeMap.getElem?_insert,if_neg (by simpa using hne)]
  have hdistinct : updates.toList.Pairwise fun a b => a.1≠b.1 :=
    TreeMap.distinct_keys_toList.imp fun hne heq => hne (by simp [heq])
  obtain ⟨hwritten,hkept⟩ := hlist updates.toList m hdistinct
  simp only [TreeMap.mem_toList_iff_getElem?_eq_some] at hwritten hkept
  cases hget : updates[k]? with
  | none => exact hkept fun value hvalue => by simp [hget] at hvalue
  | some value => exact hwritten value hget

end Table

end MiniErp
