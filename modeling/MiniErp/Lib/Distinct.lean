import Mathlib.Data.List.Induction
import Mathlib.Data.List.Nodup

/-! The first occurrences of the elements of a list, and the loop that collects them. -/
namespace MiniErp.Distinct
open List
variable {α : Type*} [DecidableEq α]

theorem eraseDups_concat (l : List α) (a : α) :
    (l++[a]).eraseDups=if a∈l then l.eraseDups else l.eraseDups++[a] := by
  rw [eraseDups_append]
  split
  · rename_i hmem
    have hnone : [a].removeAll l=[] := by simp [List.removeAll,hmem]
    rw [hnone,eraseDups_nil,append_nil]
  · rename_i hnew
    have hone : [a].removeAll l=[a] := by simp [List.removeAll,hnew]
    rw [hone]
    rfl

theorem nodup_eraseDups (l : List α) : l.eraseDups.Nodup := by
  induction l using List.reverseRecOn with
  | nil => exact nodup_nil
  | append_singleton l a ih =>
    rw [eraseDups_concat]
    split
    · exact ih
    · rw [← concat_eq_append]
      exact ih.concat (by rwa [mem_eraseDups])

theorem eraseDups_of_nodup {l : List α} (h : l.Nodup) : l.eraseDups=l := by
  induction l using List.reverseRecOn with
  | nil => rfl
  | append_singleton l a ih =>
    rw [nodup_append] at h
    have hnew : a∉l := fun hmem => h.2.2 a hmem a (mem_singleton_self a) rfl
    rw [eraseDups_concat,if_neg hnew,ih h.1]

theorem eraseDups_filter (p : α → Bool) (l : List α) :
    (l.filter p).eraseDups=l.eraseDups.filter p := by
  induction l using List.reverseRecOn with
  | nil => rfl
  | append_singleton l a ih =>
    rw [filter_append,eraseDups_concat]
    cases hpa : p a with
    | true =>
      rw [filter_cons_of_pos hpa,filter_nil,eraseDups_concat,ih]
      by_cases hmem : a∈l
      · simp [hmem,hpa]
      · simp [hmem,hpa]
    | false =>
      rw [filter_cons_of_neg (by simp [hpa]),filter_nil,append_nil,ih]
      by_cases hmem : a∈l
      · simp [hmem]
      · simp [hmem,hpa,filter_append]

/-- One push of the loop: an element is kept when it is wanted and new. -/
def pushNew (keep : α → Bool) (result : List α) (a : α) : List α :=
  if keep a ∧ a∉result then result++[a] else result

theorem foldl_pushNew (keep : α → Bool) (l result : List α) : l.foldl (pushNew keep) result =
      result++l.eraseDups.filter fun a => keep a && decide (a∉result) := by
  induction l using List.reverseRecOn with
  | nil => simp
  | append_singleton l a ih =>
    rw [foldl_append,foldl_cons,foldl_nil,ih,eraseDups_concat,pushNew]
    by_cases hwanted : keep a=true ∧ a∉result
    · by_cases hmem : a∈l
      · simp [hwanted,hmem]
      · simp [hwanted,hmem]
    · have hdrop : [a].filter (fun b => keep b && decide (b∉result))=[] := by simpa using hwanted
      rw [if_neg fun h => hwanted ⟨h.1,fun hin => h.2 (mem_append_left _ hin)⟩]
      split
      · rfl
      · rw [filter_append,hdrop,append_nil]

end MiniErp.Distinct
