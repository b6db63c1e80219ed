import Mathlib
import MiniErp.Lib.Distinct
import MiniErp.Queue.State

/-! The effective order of an apparatus queue and the two queue policies. -/
namespace MiniErp.Queue
open Text Std List

abbrev QueueStates := TreeMap String ApparatusQueueOrderState

/-- One push of the loops below; `result` holds exactly the ids already seen. -/
def pushUnseen (keep : String → Bool) (result : List String) (id : String) : List String :=
  let id := trim id
  if id ≠ "" ∧ keep id ∧ id∉result then result++[id] else result

def trimmedIds (ids : List String) : List String := (ids.map trim).filter (· ≠ "")

def effectiveApparatusSequenceExcluding (storedSequence visibleOrderIds : List String)
    (excludedOrderIds : TreeSet String) : List String :=
  let excluded := trimmedIds excludedOrderIds.toList
  let visible := (trimmedIds visibleOrderIds).filter (· ∉ excluded)
  if visible.isEmpty then []
  else
    let result := storedSequence.foldl (pushUnseen (· ∈ visible)) []
    -- Maps are loaded newest first, so unsequenced orders are appended oldest first.
    visibleOrderIds.reverse.foldl (pushUnseen (· ∉ excluded)) result

/-- The loop of `first_actionable_order_id`, with the first waiting order seen so far. -/
def firstActionableFrom (states : QueueStates) : Option String → List String → Option String
  | firstWaiting, [] => firstWaiting
  | firstWaiting, id::rest =>
    let id := trim id
    if id = "" then firstActionableFrom states firstWaiting rest
    else
      match states[id]?.getD .pending with
      | .inProgress | .printPreflight => some id
      | .pending | .paused => firstActionableFrom states (firstWaiting.or (some id)) rest
      | .frozen | .completed => firstActionableFrom states firstWaiting rest

def firstActionableOrderId (sequence : List String) (states : QueueStates) : Option String :=
  firstActionableFrom states none sequence

/- The sequence as a whole. -/

theorem trim_of_mem_trimmedIds {ids : List String} {x : String} (h : x∈trimmedIds ids) :
    trim x=x ∧ x ≠ "" := by
  simp only [trimmedIds,mem_filter,mem_map,decide_eq_true_eq] at h
  obtain ⟨⟨id,-,rfl⟩,hne⟩ := h
  exact ⟨trim_trim id,hne⟩

theorem trimmedIds_reverse (ids : List String) : trimmedIds ids.reverse=(trimmedIds ids).reverse := by
  simp [trimmedIds,map_reverse]

theorem trimmedIds_of_trimmed {ids : List String} (h : ∀ id∈ids, trim id=id ∧ id ≠ "") :
    trimmedIds ids=ids := by
  have hmap : ids.map trim=ids := by rw [map_congr_left fun id hid => (h id hid).1,map_id']
  rw [trimmedIds,hmap,filter_eq_self]
  exact fun id hid => by simpa using (h id hid).2

/-- A loop appends the first occurrences of the ids that are wanted and not there yet. -/
theorem foldl_pushUnseen (keep : String → Bool) (ids result : List String) :
    ids.foldl (pushUnseen keep) result =
      result++(trimmedIds ids).eraseDups.filter fun x => keep x && decide (x∉result) := by
  have hpush : ids.foldl (pushUnseen keep) result =
      (ids.map trim).foldl (Distinct.pushNew fun x => x ≠ "" && keep x) result := by
    rw [foldl_map]
    congr 1
    funext result id
    simp [pushUnseen,Distinct.pushNew,and_assoc]
  rw [hpush,Distinct.foldl_pushNew,trimmedIds,Distinct.eraseDups_filter,filter_filter]
  congr 2
  funext x
  simp only [Bool.and_assoc,Bool.and_comm,Bool.and_left_comm]

variable (stored visible : List String) (excluded : TreeSet String)

/-- The visible orders: those with a stored place in its order, then the others oldest first. -/
theorem effectiveApparatusSequenceExcluding_eq :
    effectiveApparatusSequenceExcluding stored visible excluded =
      ((trimmedIds stored).eraseDups.filter fun x =>
        x∈trimmedIds visible ∧ x∉trimmedIds excluded.toList) ++
      (trimmedIds visible).reverse.eraseDups.filter fun x =>
        x∉trimmedIds excluded.toList ∧ x∉trimmedIds stored := by
  simp only [effectiveApparatusSequenceExcluding]
  split
  · rename_i hempty
    have hnone : ∀ x∈trimmedIds visible, x∈trimmedIds excluded.toList := by simpa [] using hempty
    symm
    rw [append_eq_nil_iff,filter_eq_nil_iff,filter_eq_nil_iff]
    simp only [decide_eq_true_eq,mem_eraseDups,mem_reverse,not_and]
    exact ⟨fun x _ hx => not_not_intro (hnone x hx),fun x hx hout => absurd (hnone x hx) hout⟩
  · rw [foldl_pushUnseen,foldl_pushUnseen,nil_append,trimmedIds_reverse]
    congr 1
    · simp
    · refine filter_congr fun x hx => ?_
      rw [mem_eraseDups,mem_reverse] at hx
      simp only [mem_filter,hx,true_and]
      by_cases hout : x∈trimmedIds excluded.toList
      · simp [hout]
      · simp [hout]

theorem mem_effectiveApparatusSequenceExcluding (x : String) :
    x∈effectiveApparatusSequenceExcluding stored visible excluded ↔
      x∈trimmedIds visible ∧ x∉trimmedIds excluded.toList := by
  simp only [effectiveApparatusSequenceExcluding_eq]
  by_cases hstored : x∈trimmedIds stored
  · simp [hstored]
  · simp [hstored]

theorem effectiveApparatusSequenceExcluding_nodup :
    (effectiveApparatusSequenceExcluding stored visible excluded).Nodup := by
  rw [effectiveApparatusSequenceExcluding_eq,nodup_append]
  refine ⟨(Distinct.nodup_eraseDups _).filter _,(Distinct.nodup_eraseDups _).filter _,
    fun x hx y hy heq => ?_⟩
  simp only [mem_filter,mem_eraseDups,decide_eq_true_eq] at hx hy
  exact hy.2.2 (heq ▸ hx.1)

variable {stored visible excluded}

/-- A duplicate-free list of exactly the visible orders is its own effective sequence. -/
theorem effectiveApparatusSequenceExcluding_self {order : List String} (hnodup : order.Nodup)
    (hmem : ∀ x, x∈order ↔ x∈trimmedIds visible ∧ x∉trimmedIds excluded.toList) :
    effectiveApparatusSequenceExcluding order visible excluded=order := by
  have htrimmed : trimmedIds order=order :=
    trimmedIds_of_trimmed fun id hid => trim_of_mem_trimmedIds ((hmem id).mp hid).1
  rw [effectiveApparatusSequenceExcluding_eq,htrimmed,Distinct.eraseDups_of_nodup hnodup]
  have hall : (order.filter fun x => x∈trimmedIds visible ∧ x∉trimmedIds excluded.toList) =
      order := by
    rw [filter_eq_self]
    exact fun x hx => by simpa using (hmem x).mp hx
  have hnone : ((trimmedIds visible).reverse.eraseDups.filter fun x =>
      x∉trimmedIds excluded.toList ∧ x∉order)=[] := by
    rw [filter_eq_nil_iff]
    intro x hx
    rw [mem_eraseDups,mem_reverse] at hx
    simpa using fun hout => (hmem x).mpr ⟨hx,hout⟩
  rw [hall,hnone,append_nil]

/-- A permutation of an effective sequence stays as it is when it is stored. -/
theorem effectiveApparatusSequenceExcluding_perm {order : List String}
    (h : order.Perm (effectiveApparatusSequenceExcluding stored visible excluded)) :
    effectiveApparatusSequenceExcluding order visible excluded=order := by
  have hnodup := h.nodup_iff.mpr (effectiveApparatusSequenceExcluding_nodup stored visible excluded)
  refine effectiveApparatusSequenceExcluding_self hnodup fun x => ?_
  rw [h.mem_iff,mem_effectiveApparatusSequenceExcluding]

end MiniErp.Queue
