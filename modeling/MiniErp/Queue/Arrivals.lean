import MiniErp.Queue.Sequence

/-! The effective sequence under later arrivals: a new order goes to its stored place or to the
end, and the others stay as they are. -/
namespace MiniErp.Queue
open Text Std List
variable {stored visible : List String} {excluded : TreeSet String} {newId : String}

theorem trimmedIds_cons (id : String) (ids : List String) :
    trimmedIds (id::ids)=if trim id = "" then trimmedIds ids else trim id::trimmedIds ids := by
  by_cases hblank : trim id = ""
  · simp [trimmedIds,hblank]
  · simp [trimmedIds,hblank]

section
variable (hnew : trim newId∉trimmedIds visible)
include hnew

theorem trimmedIds_cons_filter :
    (trimmedIds (newId::visible)).filter (· ≠ trim newId)=trimmedIds visible := by
  have hothers : (trimmedIds visible).filter (· ≠ trim newId)=trimmedIds visible := by
    rw [filter_eq_self]
    intro x hx
    simpa using fun heq : x=trim newId => hnew (heq ▸ hx)
  rw [trimmedIds_cons]
  split
  · exact hothers
  · rw [filter_cons_of_neg (by simp),hothers]

theorem effectiveApparatusSequenceExcluding_filter_new :
    (effectiveApparatusSequenceExcluding stored (newId::visible) excluded).filter
      (· ≠ trim newId)=effectiveApparatusSequenceExcluding stored visible excluded := by
  rw [effectiveApparatusSequenceExcluding_eq,effectiveApparatusSequenceExcluding_eq, filter_append]
  congr 1
  · rw [filter_filter]
    refine filter_congr fun x _ => ?_
    by_cases hx : x=trim newId
    · simp [hx,hnew]
    · have hmem : x∈trimmedIds (newId::visible) ↔ x∈trimmedIds visible := by
        rw [← trimmedIds_cons_filter hnew]
        simp [hx]
      simp [hx,hmem]
  · rw [filter_comm,← Distinct.eraseDups_filter,filter_reverse, trimmedIds_cons_filter hnew]

theorem effectiveApparatusSequenceExcluding_append (hstored : trim newId∉trimmedIds stored) :
    effectiveApparatusSequenceExcluding stored (newId::visible) excluded =
      effectiveApparatusSequenceExcluding stored visible excluded ++
        if trim newId = "" ∨ trim newId∈trimmedIds excluded.toList then [] else [trim newId] := by
  rw [effectiveApparatusSequenceExcluding_eq,effectiveApparatusSequenceExcluding_eq,
    trimmedIds_cons,append_assoc]
  by_cases hblank : trim newId = ""
  · simp [hblank]
  · rw [if_neg hblank]
    congr 1
    · refine filter_congr fun x hx => ?_
      have hne : x≠trim newId := by
        intro heq
        rw [mem_eraseDups,heq] at hx
        exact hstored hx
      simp [hne]
    · rw [reverse_cons,Distinct.eraseDups_concat,if_neg (by simpa using hnew)]
      by_cases hout : trim newId∈trimmedIds excluded.toList
      · simp [hout]
      · simp [hblank,hout,hstored]

end

/-- The effective sequence has the visible orders that are not excluded, each once, those with a
stored place in its order and then the others oldest first. It stays as it is when it is stored,
and a new order leaves the others in place. -/
theorem effectiveApparatusSequenceExcluding_stable (stored visible : List String)
    (excluded : TreeSet String) :
    (effectiveApparatusSequenceExcluding stored visible excluded).Nodup ∧
    (∀ x, x∈effectiveApparatusSequenceExcluding stored visible excluded ↔
      x∈trimmedIds visible ∧ x∉trimmedIds excluded.toList) ∧
    effectiveApparatusSequenceExcluding stored visible excluded =
      ((trimmedIds stored).eraseDups.filter fun x =>
        x∈trimmedIds visible ∧ x∉trimmedIds excluded.toList) ++
      ((trimmedIds visible).reverse.eraseDups.filter fun x =>
        x∉trimmedIds excluded.toList ∧ x∉trimmedIds stored) ∧
    effectiveApparatusSequenceExcluding
        (effectiveApparatusSequenceExcluding stored visible excluded) visible excluded =
      effectiveApparatusSequenceExcluding stored visible excluded ∧
    ∀ newId, trim newId∉trimmedIds visible →
      (effectiveApparatusSequenceExcluding stored (newId::visible) excluded).filter
        (· ≠ trim newId)=effectiveApparatusSequenceExcluding stored visible excluded ∧
      (trim newId∉trimmedIds stored →
        effectiveApparatusSequenceExcluding stored (newId::visible) excluded =
          effectiveApparatusSequenceExcluding stored visible excluded ++
            if trim newId = "" ∨ trim newId∈trimmedIds excluded.toList then []
            else [trim newId]) :=
  ⟨effectiveApparatusSequenceExcluding_nodup stored visible excluded,
    mem_effectiveApparatusSequenceExcluding stored visible excluded,
    effectiveApparatusSequenceExcluding_eq stored visible excluded,
    effectiveApparatusSequenceExcluding_perm (List.Perm.refl _),
    fun _ hnew => ⟨effectiveApparatusSequenceExcluding_filter_new hnew,
      effectiveApparatusSequenceExcluding_append hnew⟩⟩

/-- An order that is new to the queue goes behind the oldest ones. -/
theorem effectiveApparatusSequenceExcluding_stable_arrival :
    effectiveApparatusSequenceExcluding ["c","a"] ["d","b","a"," c "] ∅ =
      effectiveApparatusSequenceExcluding ["c","a"] ["b","a"," c "] ∅ ++ ["d"] := by
  have h := ((effectiveApparatusSequenceExcluding_stable ["c","a"] ["b","a"," c "] ∅).2.2.2.2
    "d" (by decide +kernel)).2 (by decide +kernel)
  have hplaced : ¬ (trim "d" = "" ∨ trim "d" ∈ trimmedIds (∅ : TreeSet String).toList) := by
    decide +kernel
  have htrim : trim "d" = "d" := by decide +kernel
  rw [if_neg hplaced,htrim] at h
  exact h

end MiniErp.Queue
