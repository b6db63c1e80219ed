import Mathlib.Data.List.Nodup
import Mathlib.Data.List.Perm.Subperm
import MiniErp.Lib.Text

/-! Numbered names: a base name, then the base with the numbers from one on, and the first of them
that is not taken. -/
namespace MiniErp.Text
open List

def numberedName (separator base : String) (k : Nat) : String :=
  if k=0 then base else base++separator++toString k

/-- The first name that is not taken; one more name than there are taken ones is enough. -/
def firstFreeName (separator : String) (taken : List String) (base : String) : String :=
  (((List.range (taken.length+1)).map (numberedName separator base)).find? fun name =>
    !taken.contains name).getD base

theorem numberedName_injective {separator : String} (hseparator : separator ≠ "") (base : String) :
    Function.Injective (numberedName separator base) := by
  have hlonger : ∀ n : Nat, base++separator++toString n≠base := by
    intro n h
    have hlength := congrArg (fun s => s.toList.length) h
    have hpositive : 0 < separator.toList.length :=
      length_pos_iff.mpr fun hnil => hseparator (String.toList_eq_nil_iff.mp hnil)
    simp only [String.toList_append,length_append] at hlength
    omega
  intro a b h
  by_cases ha : a=0 <;> by_cases hb : b=0
  · rw [ha,hb]
  · simp only [numberedName,ha,hb] at h
    exact absurd h.symm (hlonger b)
  · simp only [numberedName,ha,hb] at h
    exact absurd h (hlonger a)
  · simp only [numberedName,ha,hb,if_false] at h
    exact toString_nat_injective ((String.append_right_inj _).mp h)

theorem firstFreeName_spec {separator : String} (hseparator : separator ≠ "")
    (taken : List String) (base : String) : firstFreeName separator taken base∉taken ∧
      ∃ k, firstFreeName separator taken base=numberedName separator base k := by
  unfold firstFreeName
  cases hfind : ((List.range (taken.length+1)).map (numberedName separator base)).find?
      fun name => !taken.contains name with
  | some name =>
    have hnew := find?_some hfind
    obtain ⟨k,_,hk⟩ := mem_map.mp (mem_of_find?_eq_some hfind)
    exact ⟨by simpa using hnew,k,hk.symm⟩
  | none =>
    -- more names than taken ones cannot all be taken
    have htaken : ((List.range (taken.length+1)).map (numberedName separator base)) ⊆ taken := by
      intro name hname
      simpa using find?_eq_none.mp hfind name hname
    have hnodup : ((List.range (taken.length+1)).map (numberedName separator base)).Nodup :=
      nodup_range.map (numberedName_injective hseparator base)
    have hle := (subperm_of_subset hnodup htaken).length_le
    simp at hle

end MiniErp.Text
