import Mathlib
import MiniErp.Lib.ListMove
import MiniErp.Lib.Run
import MiniErp.Queue.State

/-! The barrier that running orders put on a reorder, and the search for the nearest slot the
barrier allows. -/
namespace MiniErp.Queue
open Text Std Run

/-- The position maps of the barrier: the first place of a trimmed id. -/
def trimmedPosition (sequence : List String) (orderId : String) : Option Nat :=
  sequence.findIdx? fun id => trim id=orderId

/-- `prefix_max_current_position`: for each place of the next sequence the largest current
position up to it, as long as every order up to it is known. -/
def prefixMaxCurrentPosition (currentSequence : List String) :
    Option Nat → Bool → List String → List (Option Nat)
  | _, _, [] => []
  | maxPosition, known, id::rest =>
    match trimmedPosition currentSequence (trim id) with
    | some position =>
      let maxPosition := some (maxPosition.elim position (max · position))
      (if known then maxPosition else none) ::
        prefixMaxCurrentPosition currentSequence maxPosition known rest
    | none => none::prefixMaxCurrentPosition currentSequence maxPosition false rest

def validateActiveOrder (currentSequence nextSequence : List String)
    (frozenOrderIds : TreeSet String) (orderId state : String) : Except ProductionMapError Unit :=
  match ApparatusQueueOrderState.parse state with
  | none => .ok ()
  | some parsed =>
    if !parsed.isActive then .ok ()
    else if frozenOrderIds.contains (trim orderId) then .ok ()
    else
      match trimmedPosition nextSequence (trim orderId) with
      | none => .error .queueActionNotAllowed
      | some nextIndex => do
        let currentIndex := (trimmedPosition currentSequence (trim orderId)).getD 0
        ensure (nextIndex ≤ currentIndex) .queueActionNotAllowed
        if 0<nextIndex then
          match ((prefixMaxCurrentPosition currentSequence none true nextSequence)[nextIndex-1]?).join with
          | some maxPosition => ensure (maxPosition < currentIndex) .queueActionNotAllowed
          | none => .error .queueActionNotAllowed

def validateActiveSequenceBarrier (currentSequence nextSequence : List String)
    (states : TreeMap String String) (frozenOrderIds : TreeSet String) :
    Except ProductionMapError Unit :=
  states.toList.forM fun entry =>
    validateActiveOrder currentSequence nextSequence frozenOrderIds entry.1 entry.2

def absDiff (m n : Nat) : Nat := (m-n)+(n-m)

/-- `sort_by_key` on the distances to the target and to the original place. -/
def slotLe (target original : Nat) (i j : Nat) : Prop :=
  absDiff i target<absDiff j target ∨
    absDiff i target=absDiff j target ∧ absDiff i original≤absDiff j original

instance (target original : Nat) : DecidableRel (slotLe target original) :=
  fun i j => inferInstanceAs (Decidable (absDiff i target<absDiff j target ∨
    absDiff i target=absDiff j target ∧ absDiff i original≤absDiff j original))

/-- Where the request puts the moved order among the remaining ones. Both lookups succeed: the
neighbours of the moved order in a duplicate-free request are among the remaining orders. -/
def targetIndex (remaining requested : List String) (requestedIndex originalIndex : Nat) : Nat :=
  match requested[requestedIndex+1]? with
  | some nextId => remaining.idxOf nextId
  | none =>
    if 0 < requestedIndex then
      match requested[requestedIndex-1]? with
      | some previousId => remaining.idxOf previousId+1
      | none => originalIndex
    else originalIndex

def nearestAllowedSequence (currentSequence requestedSequence : List String)
    (movedOrderId : String) (states : TreeMap String String) (frozenOrderIds : TreeSet String) :
    Except ProductionMapError (List String) :=
  match requestedSequence.idxOf? movedOrderId, currentSequence.idxOf? movedOrderId with
  | some requestedIndex, some originalIndex =>
    if ¬ requestedSequence.Nodup ∨ ∃ id∈requestedSequence, id∉currentSequence then
      .error .queueActionNotAllowed
    else
      let remaining := currentSequence.eraseIdx originalIndex
      let target := targetIndex remaining requestedSequence requestedIndex originalIndex
      let slots := (List.range (remaining.length+1)).insertionSort (slotLe target originalIndex)
      let allowed := slots.findSome? fun index =>
        let candidate := remaining.insertIdx index movedOrderId
        if (validateActiveSequenceBarrier currentSequence candidate states
            frozenOrderIds).toOption.isSome
        then some candidate else none
      match allowed with
      | some sequence => .ok sequence
      | none => .error .queueActionNotAllowed
  | _, _ => .error .queueActionNotAllowed

/-- The search returns the current sequence with only the moved order put elsewhere, where the
barrier lets it. -/
theorem nearestAllowedSequence_ok {current requested next : List String} {moved : String}
    {states : TreeMap String String} {frozen : TreeSet String}
    (h : nearestAllowedSequence current requested moved states frozen=.ok next) :
    ∃ original index, current.idxOf? moved=some original ∧
      index≤(current.eraseIdx original).length ∧
      next=(current.eraseIdx original).insertIdx index moved ∧
      validateActiveSequenceBarrier current next states frozen=.ok () := by
  unfold nearestAllowedSequence at h
  split at h
  · rename_i requestedIndex original _ horiginal
    split at h
    · cases h
    · simp only at h
      split at h
      · rename_i sequence hallowed
        obtain ⟨index,hslot,hcandidate⟩ := List.exists_of_findSome?_eq_some hallowed
        split at hcandidate
        · rename_i hpasses
          have hindex : index≤(current.eraseIdx original).length := by
            have hrange := (List.perm_insertionSort _ _).mem_iff.mp hslot
            rw [List.mem_range] at hrange
            omega
          obtain ⟨_,hpasses⟩ := Option.isSome_iff_exists.mp hpasses
          rw [← Except.ok.inj h,← Option.some.inj hcandidate]
          exact ⟨original,index,horiginal,hindex,rfl,Run.toOption_eq_some.mp hpasses⟩
        · cases hcandidate
      · cases h
  · cases h

end MiniErp.Queue
