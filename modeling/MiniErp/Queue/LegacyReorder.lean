import MiniErp.Lib.Hex
import MiniErp.Queue.SequenceStore
import MiniErp.Queue.Slots
import MiniErp.Transfer.Service

/-! Saving a whole sequence. Old clients send every order they show together with the one they
dragged; the service keeps the drag only and turns it into a move command that names the
neighbour of the dragged order. -/
namespace MiniErp.Queue
open Text Std Run Receipts List
open Catalog (ApparatusResolver RuntimeApparatusConfiguration)
open Transfer (selectedOrderIdsForApparatus visibleOrderIdsForApparatus)

structure PrintPreflightHold where
  apparatus : String
  orderId : String

/-- What the service reads beside the stored sequence. The holds are the live ones. -/
structure QueueReads where
  resolver : ApparatusResolver
  maps : List ProductionMapDefinition
  queueStates : TreeMap String (TreeMap String String)
  frozen : TreeSet String
  preflightHolds : List PrintPreflightHold

def QueueReads.environment (reads : QueueReads) (canonical : RuntimeApparatusConfiguration) :
    QueueEnvironment where
  apparatus := canonical.runtime.apparatusId
  visible := selectedOrderIdsForApparatus reads.maps canonical
  rawStates := reads.queueStates.getD canonical.runtime.apparatusId ∅
  frozen := reads.frozen
  preflightOrders := TreeSet.ofList
    ((reads.preflightHolds.filter fun hold =>
      apparatusIdsMatch hold.apparatus canonical.runtime.apparatusId).map
        PrintPreflightHold.orderId)

def knownOrderIds (maps : List ProductionMapDefinition) : List String :=
  trimmedIds (maps.map ProductionMapDefinition.id)

def checkSubmitted (known visible : List String) (orderId : String) :
    Except ProductionMapError Unit := do
  ensure (orderId∈known) (.queueSequenceOrderNotFound orderId)
  ensure (orderId∈visible) (.queueSequenceApparatusMismatch orderId)

/-- `legacy-` and a random number of 128 bits. -/
def legacyIdempotencyKey (random : BitVec 128) : String :=
  "legacy-" ++ String.ofList (hexDigits 32 random.toNat)

def legacyActor : QueueActionActor := ⟨"system","legacy-queue-reorder",""⟩

section Save
variable (digest : String → String) (kind : SequenceStoreKind)

def legacyCommand (context : SequenceMoveState) (apparatus moved : String)
    (requested : List String) (index : Nat) (random : BitVec 128) : SequenceMove :=
  let before := requested[index+1]?
  { apparatus := apparatus
    orderId := moved
    beforeOrderId := before
    afterOrderId := if before.isNone && 0 < index then requested[index-1]? else none
    expectedVersion := context.version digest
    idempotencyKey := legacyIdempotencyKey random }

def reorderMoved (env : QueueEnvironment) (apparatus : String) (orderIds : List String)
    (moved : String) (random : BitVec 128) (ledger : SequenceLedger) :
    Except ProductionMapError (List String × SequenceLedger) := do
  ensure orderIds.Nodup .queueActionNotAllowed
  let context := env.queue ledger.value.orderIds
  ensure (!context.frozen.contains moved) .queueReorderFrozen
  let requested := orderIds.filter fun id => !context.frozen.contains id
  let index ← required (requested.idxOf? moved) .queueActionNotAllowed
  let command := legacyCommand digest context apparatus moved requested index random
  let (result, next) ←
    moveApparatusSequence digest kind env ⟨legacyActor,command,env.visible⟩ ledger
  -- Old clients expect every submitted order back; the frozen ones are not stored.
  return (result.orderIds++orderIds.filter fun id => context.frozen.contains id, next)

/-- The database counts a revision only when the sequence changes. -/
def SequenceStoreKind.putApparatusSequence (row : SequenceRow) (orderIds : List String) :
    SequenceRow :=
  if row.orderIds=orderIds then row else ⟨orderIds,kind.nextRevision row.revision⟩

def replaceSequence (env : QueueEnvironment) (orderIds : List String) (ledger : SequenceLedger) :
    Except ProductionMapError (List String × SequenceLedger) := do
  let barrierStates := env.preflightOrders.toList.foldl
    (fun states id => states.insert id "print_preflight") env.rawStates
  validateActiveSequenceBarrier ledger.value.orderIds orderIds barrierStates env.frozen
  return (orderIds, { ledger with value := kind.putApparatusSequence ledger.value orderIds })

section
variable (reads : QueueReads) (apparatus : String) (orderIds : List String)

def saveApparatusSequence
    (movedOrderId : Option String) (random : BitVec 128) (ledger : SequenceLedger) :
    Except ProductionMapError (List String × SequenceLedger) := do
  let apparatus := trim apparatus
  ensure (isCanonicalApparatusId apparatus) .missingId
  let orderIds := trimmedIds orderIds
  let id ← required (ApparatusId.new (trim apparatus)) .storeFailed
  let canonical ← reads.resolver.resolveCanonicalApparatus id
  let env := reads.environment canonical
  ensure (!(movedOrderId.isNone && !env.preflightOrders.isEmpty)) .printPreflightActive
  orderIds.forM (checkSubmitted (knownOrderIds reads.maps) env.visible)
  match movedOrderId with
  | some moved => reorderMoved digest kind env apparatus orderIds moved random ledger
  | none => replaceSequence kind env orderIds ledger

def reorderApparatusSequence (movedOrderId : String) (random : BitVec 128)
    (ledger : SequenceLedger) : Except ProductionMapError (List String × SequenceLedger) :=
  saveApparatusSequence digest kind reads apparatus orderIds (some (trim movedOrderId)) random
    ledger

end

end Save

/- The members of a queue. -/

section Members
variable {env : QueueEnvironment} {stored : List String} {id state : String}

theorem mem_queue (h : id∈(env.queue stored).orderIds) :
    id∈trimmedIds env.visible ∧ (env.queue stored).frozen.contains id=false := by
  obtain ⟨hvisible,hfrozen⟩ := (mem_effectiveApparatusSequenceExcluding _ _ _ id).mp h
  obtain ⟨htrim,hne⟩ := trim_of_mem_trimmedIds hvisible
  refine ⟨hvisible,?_⟩
  rw [Bool.eq_false_iff]
  intro hcontains
  apply hfrozen
  rw [trimmedIds,mem_filter,mem_map]
  exact ⟨⟨id,TreeSet.mem_toList.mpr hcontains,htrim⟩,by simpa using hne⟩

theorem trim_of_mem_queue (h : id∈(env.queue stored).orderIds) : trim id=id ∧ id ≠ "" :=
  trim_of_mem_trimmedIds (mem_queue h).1

theorem mem_queue_of_states (h : (env.queue stored).states[id]?=some state) :
    id∈(env.queue stored).orderIds := by
  by_contra hnot
  simp only [QueueEnvironment.queue,SequenceMoveState.fromVisible] at h hnot
  rw [TreeMap.getElem?_ofList_of_contains_eq_false] at h
  · cases h
  · simpa using hnot

theorem trimmedIds_queue {ids : List String}
    (h : ∀ id∈ids, id∈(env.queue stored).orderIds) : trimmedIds ids=ids := by
  have hmap : ids.map trim=ids := by
    conv_rhs => rw [← map_id ids]
    exact map_congr_left fun id hid => (trim_of_mem_queue (h id hid)).1
  rw [trimmedIds,hmap,filter_eq_self]
  intro id hid
  simpa using (trim_of_mem_queue (h id hid)).2

end Members

/- The command finds the slot that the request names. -/

section Command
variable {state : SequenceMoveState} {requested others : List String} {moved apparatus : String}
  {random : BitVec 128} {digest : String → String} {original index target i : Nat}

theorem targetIndex_insertIdx (hothers : others.Nodup)
    (htarget : target≤others.length) (horiginal : original≤others.length) :
    targetIndex others (others.insertIdx target moved) target original=target := by
  have hnext : (others.insertIdx target moved)[target+1]?=others[target]? := by
    rw [getElem?_insertIdx_of_gt (by omega)]
    rfl
  simp only [targetIndex,hnext]
  by_cases hlt : target<others.length
  · rw [getElem?_eq_getElem hlt]
    exact hothers.idxOf_getElem target hlt
  · rw [getElem?_eq_none (by omega)]
    by_cases hpos : 0<target
    · have hlast : target-1<others.length := by omega
      simp only [hpos,if_true,getElem?_insertIdx_of_lt (Nat.sub_one_lt_of_lt hpos),
        getElem?_eq_getElem hlast,hothers.idxOf_getElem]
      omega
    · simp only [hpos,if_false]
      omega

theorem legacyIdempotencyKey_valid (random : BitVec 128) :
    isBlank (legacyIdempotencyKey random)=false ∧
      (legacyIdempotencyKey random).utf8ByteSize≤200 := by
  constructor
  · have hhex : String.ofList (hexDigits 32 random.toNat) ≠ "" := by
      intro h
      have hsize := utf8ByteSize_hexDigits 32 random.toNat
      rw [h] at hsize
      exact absurd hsize (by decide)
    have htrim := trim_append (s := "legacy-") (by decide +kernel) (trim_hexDigits 32 random.toNat)
      (by decide) hhex
    rw [Bool.eq_false_iff,Ne,isBlank_iff,legacyIdempotencyKey,htrim]
    exact append_ne_empty (by decide) _
  · rw [legacyIdempotencyKey,String.utf8ByteSize_append,utf8ByteSize_hexDigits]
    decide

section Neighbour
variable (hrequested : requested.Nodup) (hindex : requested.idxOf? moved=some index)
include hrequested hindex

theorem neighbour_ne {id : String} {j : Nat} (hid : requested[j]?=some id) (hne : j≠index) :
    id∈requested ∧ id≠moved :=
  ⟨mem_of_getElem? hid,ListMove.ne_of_getElem? hrequested hindex hid hne⟩

/-- The slot of the command is the one of the request, except that a request of the moved order
alone stays where it is while its command names the end of the queue. -/
theorem legacyCommand_target (hothers : ∀ id∈requested, id≠moved → id∈others) :
    (legacyCommand digest state apparatus moved requested index random).target others =
      .ok (if 2 ≤ requested.length then targetIndex others requested index original
        else others.length) := by
  obtain ⟨hlt,-⟩ := idxOf?_eq_some_iff.mp hindex
  have hfound : ∀ j (hj : j < requested.length), j≠index →
      others.idxOf? requested[j]=some (others.idxOf requested[j]) := by
    intro j hj hne
    obtain ⟨hid,hother⟩ := neighbour_ne hrequested hindex (getElem?_eq_getElem hj) hne
    obtain ⟨k,hk⟩ := ListMove.idxOf?_of_mem (hothers _ hid hother)
    rw [idxOf_eq_getD_idxOf?,hk,Option.getD_some]
  by_cases hnext : index+1 < requested.length
  · have hlong : 2 ≤ requested.length := by omega
    simp [legacyCommand,SequenceMove.target,targetIndex,hnext,hlong,
      hfound (index+1) hnext (by omega)]
  · have hnone : requested[index+1]?=none := getElem?_eq_none (by omega)
    by_cases hpos : 0 < index
    · have hlong : 2 ≤ requested.length := by omega
      have hprevious : index-1 < requested.length := by omega
      simp [legacyCommand,SequenceMove.target,targetIndex,hnone,hpos,hlong,hprevious,
        hfound (index-1) hprevious (by omega)]
    · have hshort : ¬ 2 ≤ requested.length := by omega
      simp [legacyCommand,SequenceMove.target,hnone,hpos,hshort]

theorem targetIndex_le (horiginal : original≤others.length)
    (hothers : ∀ id∈requested, id≠moved → id∈others) :
    targetIndex others requested index original≤others.length := by
  have hfound : ∀ j id, requested[j]?=some id → j≠index → others.idxOf id<others.length := by
    intro j id hid hne
    obtain ⟨hin,hother⟩ := neighbour_ne hrequested hindex hid hne
    exact idxOf_lt_length_iff.mpr (hothers id hin hother)
  simp only [targetIndex]
  split
  · rename_i next hnext
    exact Nat.le_of_lt (hfound _ next hnext (by omega))
  · split
    · split
      · rename_i previous hprevious
        exact hfound _ previous hprevious (by omega)
      · exact horiginal
    · exact horiginal

theorem legacyCommand_validate (happaratus : isCanonicalApparatusId apparatus=true)
    (hdigest : (state.version digest).utf8ByteSize=64 ∧
      (state.version digest).toList.all isAsciiHexdigit=true)
    (hids : ∀ id∈requested, trim id=id ∧ id ≠ "") :
    (legacyCommand digest state apparatus moved requested index random).validate=.ok () := by
  obtain ⟨hlt,hmoved,-⟩ := idxOf?_eq_some_iff.mp hindex
  obtain ⟨hkey,hsize⟩ := legacyIdempotencyKey_valid random
  have hgood : ∀ id∈requested, isBlank id=false ∧ id=trim id := by
    intro id hid
    rw [isBlank,(hids id hid).1]
    exact ⟨by simpa using (hids id hid).2,rfl⟩
  have hanchor : ∀ j id, requested[j]?=some id → j≠index →
      isBlank id=false ∧ id=trim id ∧ id≠moved := by
    intro j id hid hne
    obtain ⟨hin,hother⟩ := neighbour_ne hrequested hindex hid hne
    exact ⟨(hgood id hin).1,(hgood id hin).2,hother⟩
  have hself := hgood moved (hmoved ▸ getElem_mem hlt)
  rw [SequenceMove.validate,ensure_eq_ok]
  cases hnext : requested[index+1]? with
  | some next =>
    obtain ⟨hblank,htrim,hne⟩ := hanchor (index+1) next hnext (by omega)
    simp [legacyCommand,happaratus,hself.1,← hself.2,hdigest,hkey,hsize,hnext,hblank,← htrim,hne]
  | none =>
    by_cases hpos : 0 < index
    · have hin := getElem?_eq_getElem (Nat.lt_of_le_of_lt (Nat.sub_le index 1) hlt)
      obtain ⟨hblank,htrim,hne⟩ := hanchor (index-1) _ hin (by omega)
      simp [legacyCommand,happaratus,hself.1,← hself.2,hdigest,hkey,hsize,hnext,hin,
        hblank,← htrim,hne]
    · simp [legacyCommand,happaratus,hself.1,← hself.2,hdigest,hkey,hsize,hnext,hpos]

end Neighbour

end Command

/-- An accepted command puts the order into the nearest allowed slot to the one it names. -/
theorem SequenceMoveState.apply_slot {state : SequenceMoveState} {command : SequenceMove}
    {digest : String → String} {original target i : Nat} (hnodup : state.orderIds.Nodup)
    (hvalid : command.validate=.ok ()) (happaratus : command.apparatus=state.apparatus)
    (hfrozen : state.frozen.contains command.orderId=false)
    (hversion : command.expectedVersion=state.version digest)
    (horiginal : state.orderIds.idxOf? command.orderId=some original)
    (htarget : command.target (state.orderIds.eraseIdx original)=.ok target)
    (hle : target≤(state.orderIds.eraseIdx original).length)
    (hslot : nearestSlot state.orderIds (state.orderIds.eraseIdx original) command.orderId
      state.states state.frozen original target=some i) :
    ∃ result, state.apply digest command=.ok result ∧
      result.orderIds=(state.orderIds.eraseIdx original).insertIdx i command.orderId := by
  obtain ⟨hmoved,hlen,hback⟩ := ListMove.eraseIdx_of_idxOf? hnodup horiginal
  have hothers : (state.orderIds.eraseIdx original).Nodup := hnodup.eraseIdx original
  have hmem : ∀ id∈(state.orderIds.eraseIdx original).insertIdx target command.orderId,
      id∈state.orderIds := by
    intro id hid
    rw [← hback,mem_insertIdx hlen]
    rwa [mem_insertIdx hle] at hid
  have hnearest := @nearestAllowedSequence_eq _ _ _ state.states state.frozen _ _
    (ListMove.idxOf?_insertIdx hmoved hle) horiginal
    (ListMove.nodup_insertIdx hothers hmoved hle) hmem
  rw [targetIndex_insertIdx hothers hle hlen,hslot] at hnearest
  simp only [SequenceMoveState.apply,hvalid,happaratus,hfrozen,hversion,horiginal,htarget,
    hnearest,ensure,bind,Except.bind,Option.map_some]
  exact ⟨_,rfl,rfl⟩

section Move
variable {digest : String → String} {kind : SequenceStoreKind} {env : QueueEnvironment}
  {request : SequenceRequest} {ledger : SequenceLedger} {result : SequenceMoveResult}

theorem locksVisible_self (h : request.candidates=env.visible) :
    kind.locksVisible env request=true := by
  cases kind with
  | memory => rfl
  | postgres =>
    simp only [SequenceStoreKind.locksVisible,h,all_eq_true,mem_append,decide_eq_true_eq]
    exact fun id hid => .inl (.inl (.inl hid))

theorem commitMove_of_apply {row : SequenceRow} (hlocks : kind.locksVisible env request=true)
    (happly : (env.queue row.orderIds).apply digest request.command=.ok result) :
    ∃ committed next, commitMove digest kind env request row=.ok (committed, next) ∧
      env.queueOrder next=result.orderIds := by
  have hcommit : ∃ committed next,
      commitMove digest kind env request row=.ok (committed, next) := by
    rw [commitMove,happly,hlocks]
    simp only [ensure,if_true,bind,Except.bind]
    split <;> exact ⟨_,_,rfl⟩
  obtain ⟨committed,next,hcommit⟩ := hcommit
  refine ⟨committed,next,hcommit,?_⟩
  have horder := commitMove_order hcommit
  rw [applyMove,queue_queueOrder,happly] at horder
  exact (Option.some.inj horder).symm

theorem moveApparatusSequence_of_apply (hfresh : ledger.receipts.lookup request.receiptKey=none)
    (hlocks : kind.locksVisible env request=true)
    (happly : (env.queue ledger.value.orderIds).apply digest request.command=.ok result) :
    ∃ committed next, moveApparatusSequence digest kind env request ledger =
        .ok (committed, next) ∧ env.queueOrder next.value=result.orderIds := by
  obtain ⟨committed,row,hcommit,horder⟩ := commitMove_of_apply hlocks happly
  have hvalid := (SequenceMoveState.apply_ok happly).1
  have hsubmit : submit (sequenceMoves digest kind env) request ledger =
      .ok (committed, ⟨row,(request.receiptKey, request.command, committed)::ledger.receipts⟩) := by
    apply submit_fresh <;> simp only [sequenceMoves]
    · exact hvalid
    · exact hfresh
    · exact hcommit
  exact ⟨committed,_,hsubmit,horder⟩

end Move

section Reads
variable {reads : QueueReads} {canonical : RuntimeApparatusConfiguration} {stored : List String}
  {id : String}

theorem checkSubmitted_of_mem_queue (h : id∈((reads.environment canonical).queue stored).orderIds) :
    checkSubmitted (knownOrderIds reads.maps) (reads.environment canonical).visible id =
      .ok () := by
  have hsub : (reads.environment canonical).visible.Sublist
      (visibleOrderIdsForApparatus reads.maps canonical.runtime.apparatusId) := by
    simp only [QueueReads.environment,selectedOrderIdsForApparatus,
      Catalog.retainSelectedPrintOrders]
    split
    · exact Sublist.refl _
    · exact filter_sublist
  have hknown : ∀ x∈(reads.environment canonical).visible,
      trim x=x ∧ x∈knownOrderIds reads.maps := by
    intro x hx
    have hvisible := hsub.subset hx
    unfold visibleOrderIdsForApparatus at hvisible
    split at hvisible
    · simp only [mem_filter,mem_map,bne_iff_ne] at hvisible
      obtain ⟨⟨map,⟨hmap,-⟩,rfl⟩,hne⟩ := hvisible
      refine ⟨trim_trim _,?_⟩
      simp only [knownOrderIds,trimmedIds,mem_filter,mem_map,decide_eq_true_eq]
      exact ⟨⟨map.id,⟨map,hmap,rfl⟩,rfl⟩,hne⟩
    · cases hvisible
  have hmem := (mem_queue h).1
  simp only [trimmedIds,mem_filter,mem_map] at hmem
  obtain ⟨⟨x,hx,rfl⟩,-⟩ := hmem
  obtain ⟨htrim,hin⟩ := hknown x hx
  rw [htrim]
  simp [checkSubmitted,ensure,hin,hx,bind,Except.bind]

theorem apparatus_of_resolve {apparatus : ApparatusId}
    (h : reads.resolver.resolveCanonicalApparatus apparatus=.ok canonical) :
    canonical.runtime.apparatusId=apparatus.value := by
  obtain ⟨found,-,h⟩ := bind_eq_ok.mp h
  split at h
  · cases h
  · obtain ⟨_,hcheck,h⟩ := bind_eq_ok.mp h
    cases h
    simp only [ensure_eq_ok,Bool.and_eq_true,beq_iff_eq] at hcheck
    exact hcheck.1.1

theorem reorderApparatusSequence_eq {digest : String → String} {kind : SequenceStoreKind}
    {apparatus : ApparatusId} {requested : List String} {moved : String} {random : BitVec 128}
    {ledger : SequenceLedger}
    (hcanonical : reads.resolver.resolveCanonicalApparatus apparatus=.ok canonical)
    (hmem : ∀ id∈requested, id∈((reads.environment canonical).queue stored).orderIds)
    (hmoved : moved∈requested) :
    reorderApparatusSequence digest kind reads apparatus.value requested moved random ledger =
      reorderMoved digest kind (reads.environment canonical) apparatus.value requested moved random
        ledger := by
  have htrim := ApparatusId.trim_eq apparatus.valid
  have hnew : ApparatusId.new apparatus.value=some apparatus := dif_pos apparatus.valid
  have hsubmitted : requested.forM (checkSubmitted (knownOrderIds reads.maps)
      (reads.environment canonical).visible)=.ok () :=
    forM_eq_ok.mpr fun id hid => checkSubmitted_of_mem_queue (hmem id hid)
  simp only [reorderApparatusSequence,saveApparatusSequence,htrim,isCanonicalApparatusId,
    apparatus.valid,trimmedIds_queue hmem,hnew,hcanonical,hsubmitted,
    (trim_of_mem_queue (hmem moved hmoved)).1,ensure,required,Option.isNone_some,
    Bool.false_and,Bool.not_false,if_true,bind,Except.bind]

end Reads

section Stored
variable {digest : String → String} {kind : SequenceStoreKind} {env : QueueEnvironment}
  {ledger : SequenceLedger} {queue : SequenceMoveState} {requested : List String} {moved : String}
  {random : BitVec 128} {original index : Nat}

/-- What a legacy request stores: the moved order in the nearest allowed slot to the one that its
command names. -/
theorem reorderMoved_slot (hdigest : ∀ text, (digest text).utf8ByteSize=64 ∧
      (digest text).toList.all isAsciiHexdigit=true)
    (hqueue : env.queue ledger.value.orderIds=queue)
    (happaratus : isCanonicalApparatusId env.apparatus=true)
    (hfresh : ledger.receipts.lookup
      ⟨env.apparatus,"system","legacy-queue-reorder",legacyIdempotencyKey random⟩=none)
    (hrequested : requested.Nodup) (hmem : ∀ id∈requested, id∈queue.orderIds)
    (hindex : requested.idxOf? moved=some index)
    (horiginal : queue.orderIds.idxOf? moved=some original) : ∃ answer next i,
      reorderMoved digest kind env env.apparatus requested moved random ledger =
        .ok (answer, next) ∧
      nearestSlot queue.orderIds (queue.orderIds.eraseIdx original) moved queue.states
        queue.frozen original
        (if 2 ≤ requested.length
          then targetIndex (queue.orderIds.eraseIdx original) requested index original
          else (queue.orderIds.eraseIdx original).length)=some i ∧
      env.queueOrder next.value=(queue.orderIds.eraseIdx original).insertIdx i moved := by
  subst hqueue
  have hnodup : (env.queue ledger.value.orderIds).orderIds.Nodup := queue_nodup _
  obtain ⟨hmoved,hlen,hback⟩ := ListMove.eraseIdx_of_idxOf? hnodup horiginal
  have hunfrozen : requested.filter
      (fun id => !(env.queue ledger.value.orderIds).frozen.contains id)=requested := by
    rw [filter_eq_self]
    intro id hid
    rw [(mem_queue (hmem id hid)).2]
    rfl
  have hin : moved∈requested := by
    obtain ⟨hlt,heq,-⟩ := idxOf?_eq_some_iff.mp hindex
    exact heq ▸ getElem_mem hlt
  have hothers : ∀ id∈requested, id≠moved →
      id∈(env.queue ledger.value.orderIds).orderIds.eraseIdx original := by
    intro id hid hne
    have hcurrent := hmem id hid
    rw [← hback,mem_insertIdx hlen] at hcurrent
    exact hcurrent.resolve_left hne
  have htarget := @legacyCommand_target (env.queue ledger.value.orderIds) _ _ _ env.apparatus
    random digest original _ hrequested hindex hothers
  have hle : (if 2 ≤ requested.length then targetIndex
      ((env.queue ledger.value.orderIds).orderIds.eraseIdx original) requested index original
      else ((env.queue ledger.value.orderIds).orderIds.eraseIdx original).length) ≤
        ((env.queue ledger.value.orderIds).orderIds.eraseIdx original).length := by
    split
    · exact targetIndex_le hrequested hindex hlen hothers
    · exact Nat.le_refl _
  obtain ⟨i,hi⟩ := nearestSlot_isSome hlen
    (slotAllowed_original hnodup (fun x _ hstate _ _ => ⟨x,mem_queue_of_states hstate,rfl⟩)
      horiginal)
  obtain ⟨result,happly,horder⟩ := SequenceMoveState.apply_slot hnodup
    (legacyCommand_validate hrequested hindex happaratus (hdigest _)
      fun id hid => trim_of_mem_queue (hmem id hid)) rfl (mem_queue (hmem moved hin)).2 rfl
    horiginal htarget hle hi
  obtain ⟨committed,next,hmove,hstored⟩ :
      ∃ committed next, moveApparatusSequence digest kind env ⟨legacyActor,legacyCommand digest
          (env.queue ledger.value.orderIds) env.apparatus moved requested index random,
          env.visible⟩ ledger=.ok (committed, next) ∧
        env.queueOrder next.value=result.orderIds :=
    moveApparatusSequence_of_apply hfresh (locksVisible_self rfl) happly
  refine ⟨committed.orderIds++requested.filter fun id =>
    (env.queue ledger.value.orderIds).frozen.contains id,next,i,?_,hi,hstored.trans horder⟩
  simp only [reorderMoved,hunfrozen,hindex,(mem_queue (hmem moved hin)).2,hmove,ensure,
    required,decide_eq_true hrequested,Bool.not_false,if_true,bind,Except.bind,pure,Except.pure]

end Stored

theorem getLast?_eq_some_iff {queue : List String} {moved : String} {original : Nat}
    (hnodup : queue.Nodup) (horiginal : queue.idxOf? moved=some original) :
    queue.getLast?=some moved ↔ original=(queue.eraseIdx original).length := by
  obtain ⟨hlt,hmoved,-⟩ := idxOf?_eq_some_iff.mp horiginal
  rw [getLast?_eq_getElem?,length_eraseIdx_of_lt hlt]
  constructor
  · intro h
    have hlast := ListMove.idxOf?_of_getElem? hnodup h
    exact Option.some.inj (horiginal.symm.trans hlast)
  · intro h
    rw [← h,getElem?_eq_getElem hlt,hmoved]

section Sample
open Catalog (machineCatalogue)
open Wip (pressThenLaminator)

/-- Two orders wait for the first laminator, loaded newest first. -/
def twoLaminations : QueueReads where
  resolver := machineCatalogue
  maps := [{ pressThenLaminator with id := "zakaz-2" },pressThenLaminator]
  queueStates := ∅
  frozen := ∅
  preflightHolds := []

def laminator : ApparatusId := ⟨"apparatus:laminator:1",by decide +kernel⟩

def laminatorConfiguration : RuntimeApparatusConfiguration :=
  Catalog.plainApparatus "apparatus:laminator:1" .laminate .adhesiveLamination

def laminatorQueue : SequenceMoveState :=
  (twoLaminations.environment laminatorConfiguration).queue []

theorem lengthDigest_hex (text : String) : (lengthDigest text).utf8ByteSize=64 ∧
    (lengthDigest text).toList.all isAsciiHexdigit=true := by
  have hdigit : ∀ d<10, (Nat.digitChar d).utf8Size=1 ∧
      isAsciiHexdigit (Nat.digitChar d)=true := by decide
  obtain ⟨hsize,hhex⟩ := hdigit (text.utf8ByteSize%10) (Nat.mod_lt _ (by decide))
  constructor
  · rw [lengthDigest,utf8ByteSize_ofList_of_ascii,length_replicate]
    intro c hc
    rw [eq_of_mem_replicate hc,hsize]
  · rw [lengthDigest,String.toList_ofList,all_eq_true]
    intro c hc
    rw [eq_of_mem_replicate hc,hhex]

end Sample

end MiniErp.Queue
