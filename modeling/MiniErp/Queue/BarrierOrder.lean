import MiniErp.Queue.Slots

/-! The barrier in terms of the order itself: nothing may come before a running order that was not
before it. Under it a moved order gets the nearest slot there is. -/
namespace MiniErp.Queue
open Text Std List

variable {current next requested : List String} {moved : String} {states : TreeMap String String}
  {frozen : TreeSet String}

/-- Everything before `x` in the next sequence was before it, and without a place in the current
one `x` is first. -/
def NothingNewAhead (current next : List String) (x : String) : Prop :=
  x∈next ∧ (∀ y, [y,x].Sublist next → [y,x].Sublist current) ∧ (x∉current → next.head?=some x)

section Pairwise
variable {x : String}

theorem nothingNewAhead_iff_of_mem {c : Nat} (hcurrent : current.Nodup) (hnext : next.Nodup)
    (hx : current.idxOf? x=some c) : (∃ n, next.idxOf? x=some n ∧ n ≤ c ∧ ∀ id∈next.take n, ∃ p < c,
      current.idxOf? id=some p) ↔ NothingNewAhead current next x := by
  have hmem : x∈current := by
    by_contra hnot
    rw [idxOf?_eq_none_iff.mpr hnot] at hx
    cases hx
  constructor
  · intro h
    obtain ⟨n,hn,-,hbefore⟩ := h
    refine ⟨?_,fun y hy => ?_,fun hnot => absurd hmem hnot⟩
    · by_contra hnot
      rw [idxOf?_eq_none_iff.mpr hnot] at hn
      cases hn
    · rw [ListMove.pair_sublist_iff hnext hn] at hy
      rw [ListMove.pair_sublist_iff hcurrent hx]
      obtain ⟨p,hp,hposition⟩ := hbefore y hy
      obtain ⟨hlt,hget,-⟩ := idxOf?_eq_some_iff.mp hposition
      rw [← hget]
      exact mem_take_iff_getElem.mpr ⟨p,by omega,rfl⟩
  · intro h
    obtain ⟨hin,hbefore,-⟩ := h
    obtain ⟨n,hn⟩ := ListMove.idxOf?_of_mem hin
    have hsubset : next.take n ⊆ current.take c := by
      intro y hy
      rw [← ListMove.pair_sublist_iff hnext hn] at hy
      exact (ListMove.pair_sublist_iff hcurrent hx).mp (hbefore y hy)
    refine ⟨n,hn,?_,fun id hid => ListMove.idxOf?_of_mem_take hcurrent (hsubset hid)⟩
    -- the orders before `x` are as many places
    have hlength := (hnext.sublist (take_sublist n next)).subperm hsubset |>.length_le
    obtain ⟨hlt,-⟩ := idxOf?_eq_some_iff.mp hn
    rw [length_take,length_take] at hlength
    omega

/-- An order without a place counts as one at the head. -/
theorem nothingNewAhead_iff_of_notMem (hnext : next.Nodup) (hx : x∉current) :
    (∃ n, next.idxOf? x=some n ∧ n≤0 ∧ ∀ id∈next.take n, ∃ p<0,
      current.idxOf? id=some p) ↔ NothingNewAhead current next x := by
  constructor
  · intro h
    obtain ⟨n,hn,hzero,-⟩ := h
    obtain ⟨hlt,hget,-⟩ := idxOf?_eq_some_iff.mp hn
    have hn0 : n=0 := by omega
    subst hn0
    refine ⟨hget ▸ getElem_mem hlt,fun y hy => ?_,fun _ => ?_⟩
    · rw [ListMove.pair_sublist_iff hnext hn] at hy
      cases hy
    · rw [head?_eq_getElem?,getElem?_eq_getElem hlt,hget]
  · intro h
    obtain ⟨hin,-,hhead⟩ := h
    have hfirst := hhead hx
    rw [head?_eq_getElem?] at hfirst
    exact ⟨0,ListMove.idxOf?_of_getElem? hnext hfirst,Nat.le_refl 0,by simp⟩

end Pairwise

/-- The barrier passes exactly when nothing new is ahead of a running order. -/
theorem validateActiveSequenceBarrier_iff (hcurrent : current.Nodup) (hnext : next.Nodup)
    (hcurrentTrim : ∀ id∈current, trim id=id) (hnextTrim : ∀ id∈next, trim id=id) :
    validateActiveSequenceBarrier current next states frozen=.ok () ↔
      ∀ x state, states[x]?=some state → isActiveText state=true →
        frozen.contains (trim x)=false → NothingNewAhead current next (trim x) := by
  rw [validateActiveSequenceBarrier_eq_ok]
  refine forall_congr' fun x => forall_congr' fun state => forall_congr' fun hstate => ?_
  rw [validateActiveOrder_eq_ok]
  refine forall_congr' fun hactive => forall_congr' fun hfrozen => ?_
  have htake : ∀ n c, (∀ id∈next.take n, ∃ p < c, trimmedPosition current (trim id)=some p) ↔
      ∀ id∈next.take n, ∃ p < c, current.idxOf? id=some p := by
    intro n c
    refine forall_congr' fun id => forall_congr' fun hid => ?_
    rw [trimmedPosition_eq hcurrentTrim,hnextTrim id (List.mem_of_mem_take hid)]
  simp only [htake]
  rw [trimmedPosition_eq hcurrentTrim,trimmedPosition_eq hnextTrim]
  cases hposition : current.idxOf? (trim x) with
  | some c => exact nothingNewAhead_iff_of_mem hcurrent hnext hposition
  | none => exact nothingNewAhead_iff_of_notMem hnext (List.idxOf?_eq_none_iff.mp hposition)

def runningB : TreeMap String String := TreeMap.ofList [("b ", "in_progress"),("c", "pending")]

theorem validateActiveSequenceBarrier_iff_runningB :
    validateActiveSequenceBarrier ["a","b","c"] ["b","c","a"] runningB ∅ = .ok () ∧
    ∀ x state, runningB[x]?=some state → isActiveText state=true →
      (∅ : TreeSet String).contains (trim x)=false →
        NothingNewAhead ["a","b","c"] ["b","c","a"] (trim x) := by
  have hpasses : validateActiveSequenceBarrier ["a","b","c"] ["b","c","a"] runningB ∅ = .ok () := by
    decide +kernel
  exact ⟨hpasses,(validateActiveSequenceBarrier_iff (by decide) (by decide) (by decide +kernel)
    (by decide +kernel)).mp hpasses⟩

/- The nearest slot. -/

/-- The slot next to the neighbour that the request names; `none` where an `unwrap` would fail. -/
def requestedSlot (remaining requested : List String) (requestedIndex originalIndex : Nat) :
    Option Nat :=
  match requested[requestedIndex+1]? with
  | some nextId => remaining.idxOf? nextId
  | none =>
    if 0 < requestedIndex then
      (requested[requestedIndex-1]?.bind (remaining.idxOf? ·)).map (· + 1)
    else some originalIndex

/-- No `unwrap` fails on a request made of the orders of the queue. -/
theorem requestedSlot_eq {remaining : List String} {i original : Nat} (hrequested : requested.Nodup)
    (hi : requested.idxOf? moved=some i) (hmem : ∀ id∈requested, id≠moved → id∈remaining) :
    requestedSlot remaining requested i original =
    some (targetIndex remaining requested i original) := by
  obtain ⟨hlt,-⟩ := idxOf?_eq_some_iff.mp hi
  have hfound : ∀ {j id}, requested[j]?=some id → j≠i →
      remaining.idxOf? id=some (remaining.idxOf id) := by
    intro j id hid hj
    obtain ⟨k,hk⟩ := ListMove.idxOf?_of_mem
      (hmem id (mem_of_getElem? hid) (ListMove.ne_of_getElem? hrequested hi hid hj))
    rw [idxOf_eq_getD_idxOf?,hk,Option.getD_some]
  unfold requestedSlot targetIndex
  cases hnext : requested[i+1]? with
  | some nextId => exact hfound hnext (by omega)
  | none =>
    by_cases hpos : 0 < i
    · have hprevious : requested[i-1]?=some requested[i-1] := getElem?_eq_getElem (by omega)
      simp only [hpos,if_true,hprevious,Option.bind_some,
        hfound hprevious (by omega),Option.map_some]
    · simp only [hpos,if_false]

/-- The search succeeds, moves only the moved order, respects the barrier and takes the allowed
slot nearest to the requested one, of two such the one nearer to the original place. -/
theorem nearestAllowedSequence_nearest (hcurrent : current.Nodup) (hrequested : requested.Nodup)
    (hmem : ∀ id∈requested, id∈current) (hmoved : moved∈requested)
    (hactive : ∀ x state, states[x]?=some state → isActiveText state=true →
      frozen.contains (trim x)=false → ∃ id∈current, trim id=trim x) :
    ∃ i original slot index, requested.idxOf? moved=some i ∧ current.idxOf? moved=some original ∧
      requestedSlot (current.eraseIdx original) requested i original=some slot ∧
      index≤(current.eraseIdx original).length ∧
      nearestAllowedSequence current requested moved states frozen =
        .ok ((current.eraseIdx original).insertIdx index moved) ∧
      validateActiveSequenceBarrier current ((current.eraseIdx original).insertIdx index moved)
        states frozen=.ok () ∧
      ∀ j≤(current.eraseIdx original).length,
        validateActiveSequenceBarrier current ((current.eraseIdx original).insertIdx j moved)
          states frozen=.ok () →
        absDiff index slot<absDiff j slot ∨
          absDiff index slot=absDiff j slot ∧ absDiff index original≤absDiff j original := by
  obtain ⟨i,hi⟩ := ListMove.idxOf?_of_mem hmoved
  obtain ⟨original,horiginal⟩ := ListMove.idxOf?_of_mem (hmem moved hmoved)
  obtain ⟨-,hlen,hback⟩ := ListMove.eraseIdx_of_idxOf? hcurrent horiginal
  have hrest : ∀ id∈requested, id≠moved → id∈current.eraseIdx original := by
    intro id hid hne
    have hin := hmem id hid
    rw [← hback,List.mem_insertIdx hlen] at hin
    exact hin.resolve_left hne
  obtain ⟨index,hindex⟩ := nearestSlot_isSome hlen (slotAllowed_original hcurrent hactive horiginal)
  obtain ⟨hallowed,hle,hbest⟩ := nearestSlot_spec hindex
  refine ⟨i,original,_,index,hi,horiginal,requestedSlot_eq hrequested hi hrest,hle,?_,
    slotAllowed_iff.mp hallowed,fun j hj hvalid => hbest j hj (slotAllowed_iff.mpr hvalid)⟩
  rw [nearestAllowedSequence_eq hi horiginal hrequested hmem,hindex]
  rfl

def runningA : TreeMap String String := TreeMap.ofList [("a", "in_progress")]

/-- Dragged before the running `a`, the order `c` gets the slot right after it. -/
theorem nearestAllowedSequence_nearest_runningA :
    ∃ slot index, requestedSlot ["a","b"] ["c","a"] 0 2=some slot ∧
      nearestAllowedSequence ["a","b","c"] ["c","a"] "c" runningA ∅ =
        .ok (["a","b"].insertIdx index "c") ∧
      ∀ j≤2, validateActiveSequenceBarrier ["a","b","c"] (["a","b"].insertIdx j "c")
          runningA ∅ = .ok () →
        absDiff index slot<absDiff j slot ∨
          absDiff index slot=absDiff j slot ∧ absDiff index 2≤absDiff j 2 := by
  have hactive : ∀ x state, runningA[x]?=some state → isActiveText state=true →
      (∅ : TreeSet String).contains (trim x)=false → ∃ id ∈ ["a","b","c"], trim id=trim x := by
    have hkeys : ∀ entry∈runningA.toList, ∃ id ∈ ["a","b","c"], trim id=trim entry.1 := by
      decide +kernel
    intro x state hstate _ _
    exact hkeys (x, state) (TreeMap.mem_toList_iff_getElem?_eq_some.mpr hstate)
  obtain ⟨i,original,slot,index,hi,horiginal,hslot,-,hresult,-,hbest⟩ :=
    nearestAllowedSequence_nearest (by decide) (by decide) (by decide)
      (show "c" ∈ ["c","a"] by decide) hactive
  cases hi
  cases horiginal
  exact ⟨slot,index,hslot,hresult,hbest⟩

end MiniErp.Queue
