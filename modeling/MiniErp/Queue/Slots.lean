import MiniErp.Queue.Barrier

/-! The slots a reorder may use. A request only fixes the slot the search starts from, and from
there the search finds the nearest slot that the barrier allows. -/
namespace MiniErp.Queue
open Text Std Run List Option

section Search
variable (current remaining : List String) (moved : String) (states : TreeMap String String)
  (frozen : TreeSet String)

def slotAllowed (index : Nat) : Bool :=
  (validateActiveSequenceBarrier current (remaining.insertIdx index moved) states
    frozen).toOption.isSome

def nearestSlot (original target : Nat) : Option Nat :=
  ((List.range (remaining.length+1)).insertionSort (slotLe target original)).find?
    (slotAllowed current remaining moved states frozen)

end Search

section Order
variable (target original : Nat)

instance : Std.Total (slotLe target original) where
  total i j := by
    simp only [slotLe]
    omega

instance : IsTrans Nat (slotLe target original) where
  trans i j k hij hjk := by
    simp only [slotLe] at hij hjk ⊢
    omega

end Order

variable {current remaining requested next : List String} {moved : String}
  {states : TreeMap String String} {frozen : TreeSet String} {original target i j : Nat}

theorem slotAllowed_iff : slotAllowed current remaining moved states frozen i=true ↔
    validateActiveSequenceBarrier current (remaining.insertIdx i moved) states frozen=.ok () := by
  rw [slotAllowed,isSome_iff_exists]
  simp only [toOption_eq_some]
  exact ⟨fun ⟨_,h⟩ => h,fun h => ⟨(),h⟩⟩

/-- What the request says beyond the slot it names does not matter. -/
theorem nearestAllowedSequence_eq (hrequested : requested.idxOf? moved=some i)
    (hcurrent : current.idxOf? moved=some original) (hnodup : requested.Nodup)
    (hmem : ∀ id∈requested, id∈current) :
    nearestAllowedSequence current requested moved states frozen =
      required ((nearestSlot current (current.eraseIdx original) moved states frozen original
        (targetIndex (current.eraseIdx original) requested i original)).map
          fun index => (current.eraseIdx original).insertIdx index moved)
        .queueActionNotAllowed := by
  have hbad : ¬ (¬ requested.Nodup ∨ ∃ id∈requested, id∉current) := by simpa [hnodup] using hmem
  simp only [nearestAllowedSequence,hrequested,hcurrent,if_neg hbad]
  rw [ListMove.findSome?_eq_map_find? fun _ _ => rfl]
  unfold nearestSlot
  have hallowed : slotAllowed current (current.eraseIdx original) moved states frozen =
      fun index => (validateActiveSequenceBarrier current
        ((current.eraseIdx original).insertIdx index moved) states frozen).toOption.isSome := rfl
  rw [hallowed]
  cases List.find? _ _ with
  | none => rfl
  | some index => rfl

theorem nearestSlot_spec
    (h : nearestSlot current remaining moved states frozen original target=some i) :
    slotAllowed current remaining moved states frozen i=true ∧ i ≤ remaining.length ∧
      ∀ j ≤ remaining.length, slotAllowed current remaining moved states frozen j=true →
        slotLe target original i j := by
  obtain ⟨hallowed,hrange,hbest⟩ := ListMove.find?_insertionSort _ h
  rw [mem_range] at hrange
  exact ⟨hallowed,by omega,fun j hj => hbest j (mem_range.mpr (by omega))⟩

theorem nearestSlot_isSome (hj : j ≤ remaining.length)
    (hallowed : slotAllowed current remaining moved states frozen j=true) :
    ∃ i, nearestSlot current remaining moved states frozen original target=some i := by
  apply isSome_iff_exists.mp
  rw [nearestSlot,find?_isSome]
  refine ⟨j,?_,hallowed⟩
  rw [mem_insertionSort,mem_range]
  omega

theorem nearestSlot_target (htarget : target ≤ remaining.length)
    (hallowed : slotAllowed current remaining moved states frozen target=true) :
    nearestSlot current remaining moved states frozen original target=some target := by
  obtain ⟨i,hi⟩ : ∃ i, nearestSlot current remaining moved states frozen original target=some i :=
    nearestSlot_isSome htarget hallowed
  have hbest := (nearestSlot_spec hi).2.2 target htarget hallowed
  simp only [slotLe,absDiff] at hbest
  have heq : i=target := by omega
  rw [hi,heq]

/- The barrier on a queue of trimmed orders. -/

theorem trimmedPosition_eq {ids : List String} (htrim : ∀ id∈ids, trim id=id)
    (x : String) : trimmedPosition ids x=ids.idxOf? x := by
  induction ids with
  | nil => rfl
  | cons id rest ih =>
    have hid := htrim id mem_cons_self
    have hrest := ih fun y hy => htrim y (mem_cons_of_mem id hy)
    simp only [trimmedPosition,List.idxOf?] at hrest ⊢
    simp only [findIdx?_cons,hid,hrest,beq_iff_eq,decide_eq_true_eq]

/-- The largest current position up to a place is small when all of them are. -/
theorem prefixMaxCurrentPosition_lt {c k : Nat} (hk : k<next.length) (largest : Option Nat)
    (hlargest : ∀ p∈largest, p < c)
    (hbefore : ∀ id∈next.take (k+1), ∃ p < c, trimmedPosition current (trim id)=some p) :
    ∃ p < c, (prefixMaxCurrentPosition current largest true next)[k]?=some (some p) := by
  induction next generalizing largest k with
  | nil => cases hk
  | cons id rest ih =>
    obtain ⟨p,hp,hposition⟩ := hbefore id (by simp)
    have hmax : largest.elim p (max · p) < c := by
      cases largest with
      | none => exact hp
      | some q => exact max_lt (hlargest q rfl) hp
    simp only [prefixMaxCurrentPosition,hposition]
    cases k with
    | zero => exact ⟨_,hmax,rfl⟩
    | succ k =>
      have hrest := ih (by simpa using hk) (some (largest.elim p (max · p)))
        (by simpa using hmax) fun y hy => hbefore y (by simp [hy])
      simpa using hrest

theorem prefixMaxCurrentPosition_unknown {k : Nat} (largest : Option Nat) :
    ((prefixMaxCurrentPosition current largest false next)[k]?).join=none := by
  induction next generalizing largest k with
  | nil => rfl
  | cons id rest ih =>
    simp only [prefixMaxCurrentPosition]
    split <;> cases k with
    | zero => rfl
    | succ k => exact ih _

theorem le_prefixMaxCurrentPosition {k p : Nat} (largest : Option Nat)
    (h : ((prefixMaxCurrentPosition current largest true next)[k]?).join=some p) :
    (∀ q∈largest, q≤p) ∧ ∀ id∈next.take (k+1), ∃ q≤p, trimmedPosition current (trim id)=some q := by
  induction next generalizing largest k with
  | nil => cases h
  | cons id rest ih =>
    simp only [prefixMaxCurrentPosition] at h
    split at h
    · rename_i position hposition
      have hrest : largest.elim position (max · position)≤p ∧
          ∀ y∈rest.take k, ∃ q≤p, trimmedPosition current (trim y)=some q := by
        cases k with
        | zero => exact ⟨Nat.le_of_eq (some.inj h),by simp⟩
        | succ k =>
          obtain ⟨hlargest,hbefore⟩ := ih _ h
          exact ⟨hlargest _ rfl,hbefore⟩
      have hle : (∀ q∈largest, q≤p) ∧ position≤p := by
        cases largest with
        | none => exact ⟨by simp,hrest.1⟩
        | some q => simpa using hrest.1
      refine ⟨hle.1,fun y hy => ?_⟩
      rw [take_succ_cons,mem_cons] at hy
      cases hy with
      | inl heq => exact ⟨position,hle.2,heq ▸ hposition⟩
      | inr hy => exact hrest.2 y hy
    · cases k with
      | zero => cases h
      | succ k =>
        rw [getElem?_cons_succ,prefixMaxCurrentPosition_unknown] at h
        cases h

def isActiveText (state : String) : Bool := (ApparatusQueueOrderState.parse state).any (·.isActive)

/-- An order passes when it does not fall back and everything before it was before it. -/
theorem validateActiveOrder_eq_ok {x state : String} :
    validateActiveOrder current next frozen x state=.ok () ↔
      (isActiveText state=true → frozen.contains (trim x)=false →
        ∃ n, trimmedPosition next (trim x)=some n ∧ n≤(trimmedPosition current (trim x)).getD 0 ∧
          ∀ id∈next.take n, ∃ p<(trimmedPosition current (trim x)).getD 0,
            trimmedPosition current (trim id)=some p) := by
  simp only [validateActiveOrder,isActiveText]
  split
  · rename_i hparse
    simp [hparse]
  · rename_i parsed hparse
    rw [hparse,any_some]
    cases hactive : parsed.isActive with
    | false => simp
    | true =>
      cases hfrozen : frozen.contains (trim x) with
      | true => simp
      | false =>
        cases hnext : trimmedPosition next (trim x) with
        | none => simp
        | some n =>
          have hlen : n<next.length := (findIdx?_eq_some_iff_getElem.mp hnext).1
          simp only [Bool.not_true,Bool.false_eq_true,if_false,forall_const,some.injEq,
            exists_eq_left',ensure_bind_eq_ok,decide_eq_true_eq]
          refine and_congr_right fun _ => ?_
          by_cases hpos : 0<n
          · have hplace : n-1+1=n := by omega
            rw [if_pos hpos]
            constructor
            · intro h
              split at h
              · rename_i p hp
                rw [ensure_eq_ok,decide_eq_true_eq] at h
                have hbefore := (le_prefixMaxCurrentPosition none hp).2
                rw [hplace] at hbefore
                intro id hid
                obtain ⟨q,hq,hposition⟩ := hbefore id hid
                exact ⟨q,by omega,hposition⟩
              · cases h
            · intro h
              have hlast : n-1<next.length := by omega
              obtain ⟨p,hp,hmax⟩ := prefixMaxCurrentPosition_lt hlast none (by simp)
                (by rw [hplace]; exact h)
              rw [hmax]
              simp [ensure,hp]
          · have hzero : n=0 := by omega
            simp [hzero,pure,Except.pure]

theorem validateActiveOrder_ok {x state : String} {n c : Nat}
    (hcurrent : trimmedPosition current (trim x)=some c)
    (hnext : trimmedPosition next (trim x)=some n) (hle : n ≤ c)
    (hbefore : ∀ id∈next.take n, ∃ p < c, trimmedPosition current (trim id)=some p) :
    validateActiveOrder current next frozen x state=.ok () := by
  rw [validateActiveOrder_eq_ok,hcurrent]
  exact fun _ _ => ⟨n,hnext,hle,hbefore⟩

theorem validateActiveSequenceBarrier_eq_ok :
    validateActiveSequenceBarrier current next states frozen=.ok () ↔ ∀ x state, states[x]? =
    some state → validateActiveOrder current next frozen x state=.ok () := by
  rw [validateActiveSequenceBarrier,forM_eq_ok]
  simp only [Prod.forall,TreeMap.mem_toList_iff_getElem?_eq_some]

theorem trimmedPosition_of_mem_take {ids : List String} {id : String} {n : Nat}
    (h : id∈ids.take n) : ∃ p<n, trimmedPosition ids (trim id)=some p := by
  obtain ⟨q,hq,hget⟩ := mem_iff_getElem.mp h
  rw [length_take] at hq
  rw [getElem_take] at hget
  cases hposition : trimmedPosition ids (trim id) with
  | none =>
    have hnone := findIdx?_eq_none_iff.mp hposition id (mem_of_mem_take h)
    simp at hnone
  | some p =>
    obtain ⟨hp,-,hmin⟩ := findIdx?_eq_some_iff_getElem.mp hposition
    refine ⟨p,?_,rfl⟩
    by_contra hlarge
    have hfirst := hmin q (by omega)
    rw [hget] at hfirst
    simp at hfirst

theorem validateActiveSequenceBarrier_self
    (hactive : ∀ x state, states[x]?=some state → isActiveText state=true →
      frozen.contains (trim x)=false → ∃ id∈current, trim id=trim x) :
    validateActiveSequenceBarrier current current states frozen=.ok () := by
  rw [validateActiveSequenceBarrier_eq_ok]
  intro x state hstate
  rw [validateActiveOrder_eq_ok]
  intro hrunning hfrozen
  obtain ⟨id,hid,hsame⟩ := hactive x state hstate hrunning hfrozen
  rw [← take_length (l := current)] at hid
  obtain ⟨n,-,hn⟩ := trimmedPosition_of_mem_take hid
  rw [hsame] at hn
  rw [hn]
  exact ⟨n,rfl,Nat.le_refl n,fun y hy => trimmedPosition_of_mem_take hy⟩

def isRunning (states : TreeMap String String) (orderId : String) : Bool :=
  (states[orderId]?.bind ApparatusQueueOrderState.parse).any (·.isActive)

theorem slotAllowed_original (hnodup : current.Nodup)
    (hactive : ∀ x state, states[x]?=some state → isActiveText state=true →
      frozen.contains (trim x)=false → ∃ id∈current, trim id=trim x)
    (horiginal : current.idxOf? moved=some original) :
    slotAllowed current (current.eraseIdx original) moved states frozen original=true := by
  obtain ⟨-,-,hback⟩ := ListMove.eraseIdx_of_idxOf? hnodup horiginal
  rw [slotAllowed_iff,hback]
  exact validateActiveSequenceBarrier_self hactive

section Queue
variable (hnodup : current.Nodup) (htrim : ∀ id∈current, trim id=id)
  (hkeys : ∀ x state, states[x]?=some state → x∈current)
  (horiginal : current.idxOf? moved=some original)
include htrim horiginal

theorem trimmedPosition_insertIdx (hi : i≤(current.eraseIdx original).length) (x : String) :
    trimmedPosition ((current.eraseIdx original).insertIdx i moved) x =
      ((current.eraseIdx original).insertIdx i moved).idxOf? x := by
  refine trimmedPosition_eq (fun id hid => htrim id ?_) x
  rw [mem_insertIdx hi] at hid
  cases hid with
  | inl heq =>
    obtain ⟨hlt,hget,-⟩ := idxOf?_eq_some_iff.mp horiginal
    rw [heq,← hget]
    exact getElem_mem hlt
  | inr hmem => exact mem_of_mem_eraseIdx hmem

include hnodup hkeys

theorem slotAllowed_last (hidle : isRunning states moved=false) :
    slotAllowed current (current.eraseIdx original) moved states frozen
      (current.eraseIdx original).length=true := by
  obtain ⟨hmoved,hlen,hback⟩ := ListMove.eraseIdx_of_idxOf? hnodup horiginal
  have hrest : (current.eraseIdx original).Nodup := hnodup.eraseIdx original
  have hcurrent : ∀ {id k}, (current.eraseIdx original).idxOf? id=some k →
      current.idxOf? id=some (if k<original then k else k+1) := by
    intro id k hid
    have h := ListMove.idxOf?_insertIdx_of_idxOf? hrest hmoved hlen hid
    rwa [hback] at h
  rw [slotAllowed_iff,validateActiveSequenceBarrier_eq_ok]
  intro x state hstate
  by_cases hx : x=moved
  · rw [hx] at hstate ⊢
    rw [isRunning,hstate,bind_some] at hidle
    simp only [validateActiveOrder]
    split
    · rfl
    · rename_i parsed hparsed
      rw [hparsed,any_some] at hidle
      simp [hidle]
  · have hmem := hkeys x state hstate
    have hother : x∈current.eraseIdx original := by
      rw [← hback,mem_insertIdx hlen] at hmem
      exact hmem.resolve_left hx
    obtain ⟨n,hn⟩ := ListMove.idxOf?_of_mem hother
    obtain ⟨hlt,-⟩ := idxOf?_eq_some_iff.mp hn
    have hnext := ListMove.idxOf?_insertIdx_of_idxOf? hrest hmoved (Nat.le_refl _) hn
    rw [if_pos hlt] at hnext
    refine validateActiveOrder_ok (n := n) (c := if n<original then n else n+1)
      ?_ ?_ ?_ fun id hid => ?_
    · rw [trimmedPosition_eq htrim,htrim x hmem,hcurrent hn]
    · rw [trimmedPosition_insertIdx htrim horiginal (Nat.le_refl _),htrim x hmem,hnext]
    · split <;> omega
    · rw [insertIdx_length_self,take_append_of_le_length (by omega)] at hid
      obtain ⟨k,hlt,hposition⟩ := ListMove.idxOf?_of_mem_take hrest hid
      have hold := mem_of_mem_eraseIdx (mem_of_mem_take hid)
      refine ⟨_,?_,by rw [trimmedPosition_eq htrim,htrim id hold,hcurrent hposition]⟩
      split <;> split <;> omega

theorem slotAllowed_le (hrunning : isRunning states moved=true)
    (hfrozen : frozen.contains moved=false) (hi : i≤(current.eraseIdx original).length)
    (h : slotAllowed current (current.eraseIdx original) moved states frozen i=true) :
    i≤original := by
  rw [slotAllowed_iff,validateActiveSequenceBarrier_eq_ok] at h
  rw [isRunning,Option.any_eq_true] at hrunning
  obtain ⟨parsed,hparsed,hactive⟩ := hrunning
  obtain ⟨state,hstate,hparsed⟩ := bind_eq_some_iff.mp hparsed
  have htrimmed := htrim moved (hkeys moved state hstate)
  have hnext := ListMove.idxOf?_insertIdx (ListMove.eraseIdx_of_idxOf? hnodup horiginal).1 hi
  have hvalid := h moved state hstate
  simp only [validateActiveOrder,hparsed,hactive,htrimmed,hfrozen,trimmedPosition_eq htrim,
    trimmedPosition_insertIdx htrim horiginal hi,hnext,horiginal,Bool.not_true,
    Bool.false_eq_true,if_false,getD_some,bind_eq_ok,ensure_eq_ok,
    decide_eq_true_eq] at hvalid
  obtain ⟨_,hle,-⟩ := hvalid
  exact hle

/-- Asked for the end of the queue, the search keeps the order where it is exactly when it is
last already or holds the machine. -/
theorem nearestSlot_last_iff (hfrozen : frozen.contains moved=false) :
    nearestSlot current (current.eraseIdx original) moved states frozen original
        (current.eraseIdx original).length=some original ↔
      original=(current.eraseIdx original).length ∨ isRunning states moved=true := by
  obtain ⟨-,hlen,-⟩ := ListMove.eraseIdx_of_idxOf? hnodup horiginal
  have hown : slotAllowed current (current.eraseIdx original) moved states frozen original=true :=
    slotAllowed_original hnodup (fun x state h _ _ => ⟨x,hkeys x state h,rfl⟩) horiginal
  constructor
  · intro h
    cases hrunning : isRunning states moved with
    | true => exact .inr rfl
    | false =>
      have hlast : slotAllowed current (current.eraseIdx original) moved states frozen
          (current.eraseIdx original).length=true :=
        slotAllowed_last hnodup htrim hkeys horiginal hrunning
      rw [nearestSlot_target (Nat.le_refl _) hlast] at h
      exact .inl (some.inj h).symm
  · rintro (hlast | hrunning)
    · rw [← hlast]
      exact nearestSlot_target hlen hown
    · obtain ⟨i,hi⟩ : ∃ i, nearestSlot current (current.eraseIdx original) moved states frozen
          original (current.eraseIdx original).length=some i := nearestSlot_isSome hlen hown
      obtain ⟨hallowed,hle,hbest⟩ := nearestSlot_spec hi
      have hback := slotAllowed_le hnodup htrim hkeys horiginal hrunning hfrozen hle hallowed
      have hnear := hbest original hlen hown
      simp only [slotLe,absDiff] at hnear
      have heq : i=original := by omega
      rw [hi,heq]

end Queue

end MiniErp.Queue
