import MiniErp.Queue.BarrierOrder
import MiniErp.Queue.LegacyReorder

/-! What the moves of a queue keep over any calls: their events lead a client to the stored order,
and no order gets ahead of a running one. -/
namespace MiniErp.Queue
open Text Std Run Receipts List

/-- The events of receipts, newest first, in the order of their commits. -/
def committedEvents (receipts : List (ReceiptKey × SequenceMove × SequenceMoveResult)) : List Json :=
  (receipts.filterMap fun receipt => receipt.2.2.event).reverse

/-- The state that a command finds of the order is an active one. -/
def QueueEnvironment.runs (env : QueueEnvironment) (id : String) : Bool :=
  isActiveText (if env.preflightOrders.contains id then "print_preflight"
    else env.rawStates[id]?.getD "pending")

def NoneOvertaken (env : QueueEnvironment) (before after : List String) : Prop :=
  ∀ x y, env.runs x=true → [y,x].Sublist after → [y,x].Sublist before

section
variable {digest : String → String} {kind : SequenceStoreKind} {env : QueueEnvironment}
  {request : SequenceRequest} {result : SequenceMoveResult} {row next : SequenceRow}

theorem states_queue {stored : List String} {id : String} (h : id∈(env.queue stored).orderIds) :
    ∃ state, (env.queue stored).states[id]?=some state ∧ isActiveText state=env.runs id := by
  refine ⟨_,TreeMap.getElem?_ofList_of_mem compare_self ?_ (mem_map.mpr ⟨id,h,rfl⟩),rfl⟩
  rw [pairwise_map]
  refine (queue_nodup stored).imp fun hne heq => hne (Std.compare_eq_iff_eq.mp heq)

theorem commitMove_followed (h : commitMove digest kind env request row=.ok (result, next)) :
    result.event.toList.foldlM applyClientDelta (env.queueOrder row)=some (env.queueOrder next) := by
  obtain ⟨moved,happly,hevent,horder⟩ := commitMove_ok h
  obtain ⟨hnone,hsome⟩ := SequenceMoveState.apply_event (queue_nodup row.orderIds) happly
  rw [hevent,horder]
  cases hcase : moved.event with
  | none =>
    rw [hnone.mp hcase]
    rfl
  | some op =>
    have happlied : applyClientDelta (env.queueOrder row) op=some moved.orderIds := (hsome op hcase).1
    simp [happlied]

theorem commitMove_noneOvertaken (h : commitMove digest kind env request row=.ok (result, next)) :
    NoneOvertaken env (env.queueOrder row) (env.queueOrder next) := by
  obtain ⟨moved,happly,-,horder⟩ := commitMove_ok h
  have hnodup : (env.queue row.orderIds).orderIds.Nodup := queue_nodup row.orderIds
  have hperm := SequenceMoveState.apply_perm hnodup happly
  obtain ⟨-,-,-,-,-,-,_,_,-,-,-,hbarrier⟩ := SequenceMoveState.apply_ok happly
  have htrim : ∀ id∈(env.queue row.orderIds).orderIds, trim id=id :=
    fun id hid => (trim_of_mem_queue hid).1
  intro x y hruns hahead
  rw [horder] at hahead
  have hx : x∈(env.queue row.orderIds).orderIds := hperm.mem_iff.mp (hahead.subset (by simp))
  obtain ⟨state,hstate,hactive⟩ := states_queue hx
  obtain ⟨c,hc⟩ := ListMove.idxOf?_of_mem hx
  have hpassed := validateActiveOrder_eq_ok.mp
    (validateActiveSequenceBarrier_eq_ok.mp hbarrier x state hstate) (hactive.trans hruns)
    (by rw [htrim x hx,(mem_queue hx).2])
  have hmoved : ∀ id∈moved.orderIds, trim id=id := fun id hid => htrim id (hperm.mem_iff.mp hid)
  rw [htrim x hx,trimmedPosition_eq hmoved,trimmedPosition_eq htrim,hc,Option.getD_some] at hpassed
  obtain ⟨n,hn,hle,hbefore⟩ := hpassed
  refine ((nothingNewAhead_iff_of_mem hnodup (hperm.nodup_iff.mpr hnodup) hc).mp
    ⟨n,hn,hle,fun id hid => ?_⟩).2.1 y hahead
  obtain ⟨p,hp,hposition⟩ := hbefore id hid
  rw [trimmedPosition_eq htrim,hmoved id (mem_of_mem_take hid)] at hposition
  exact ⟨p,hp,hposition⟩

end

section
variable (digest : String → String) (kind : SequenceStoreKind) (env : QueueEnvironment)
  (start : SequenceLedger) (requests : List SequenceRequest)

/-- A client that shows the queue and replays the events committed since, of whatever calls, shows
the queue again. -/
theorem follower_shows_queue : ∃ receipts,
    (afterMoves digest kind env start requests).receipts=receipts++start.receipts ∧
      (committedEvents receipts).foldlM applyClientDelta (env.queueOrder start.value) =
        some (env.queueOrder (afterMoves digest kind env start requests).value) := by
  refine run_invariant (fun ledger : SequenceLedger => ∃ receipts,
      ledger.receipts=receipts++start.receipts ∧
        (committedEvents receipts).foldlM applyClientDelta (env.queueOrder start.value) =
          some (env.queueOrder ledger.value)) ?_ ⟨[],rfl,rfl⟩ (along_true _ _ _)
  intro ledger request after hledger _ h
  obtain ⟨receipts,hreceipts,hfollowed⟩ := hledger
  obtain ⟨result,h⟩ := step_ok.mp h
  obtain ⟨-,⟨-,rfl⟩ | ⟨-,row,hcommit,rfl⟩⟩ := submit_ok h
  · exact ⟨receipts,hreceipts,hfollowed⟩
  · refine ⟨(request.receiptKey, request.command, result)::receipts,
      congrArg (_ :: ·) hreceipts,?_⟩
    have hlast : committedEvents ((request.receiptKey, request.command, result)::receipts) =
        committedEvents receipts++result.event.toList := by
      cases hevent : result.event <;> simp [committedEvents,hevent]
    rw [hlast,foldlM_append,hfollowed]
    exact commitMove_followed hcommit

/-- Whatever moves are committed, everything ahead of a running order was ahead of it before. -/
theorem running_never_overtaken : NoneOvertaken env (env.queueOrder start.value)
    (env.queueOrder (afterMoves digest kind env start requests).value) := by
  refine run_invariant (fun ledger : SequenceLedger =>
    NoneOvertaken env (env.queueOrder start.value) (env.queueOrder ledger.value)) ?_
    (fun _ _ _ h => h) (along_true _ _ _)
  intro ledger request after hledger _ h
  obtain ⟨result,h⟩ := step_ok.mp h
  obtain ⟨-,⟨-,rfl⟩ | ⟨-,row,hcommit,rfl⟩⟩ := submit_ok h
  · exact hledger
  · exact fun x y hruns hahead =>
      hledger x y hruns (commitMove_noneOvertaken hcommit x y hruns hahead)

end

end MiniErp.Queue
