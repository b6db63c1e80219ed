import MiniErp.Lib.Receipts
import MiniErp.Queue.SequenceMove

/-! The stores that commit sequence moves. Both answer a known idempotency key from its receipt
and otherwise apply the command to the current queue of the apparatus, in one atomic step: the
memory store under its mutex, the database in one attempt of its transaction. -/
namespace MiniErp.Queue
open Std Run Receipts

inductive SequenceStoreKind where
  | memory
  | postgres
  deriving DecidableEq, Repr

structure QueueActionActor where
  role : String
  ref : String
  displayName : String

/-- What the commit reads about the apparatus beside its stored sequence. -/
structure QueueEnvironment where
  apparatus : String
  visible : List String
  rawStates : TreeMap String String
  frozen : TreeSet String
  preflightOrders : TreeSet String

structure SequenceRequest where
  actor : QueueActionActor
  command : SequenceMove
  candidates : List String

structure SequenceRow where
  orderIds : List String
  revision : Option Int

structure ReceiptKey where
  apparatus : String
  actorRole : String
  actorRef : String
  idempotencyKey : String
  deriving DecidableEq, Repr

/-- The revision a changing move stores; the memory store keeps none and answers 1. -/
def SequenceStoreKind.nextRevision : SequenceStoreKind → Option Int → Option Int
  | .memory, _ => some 1
  | .postgres, revision => some (revision.getD 0+1)

def SequenceStoreKind.currentRevision : SequenceStoreKind → Option Int → Option Int
  | .memory, _ => none
  | .postgres, revision => revision

/-- The queue a command meets when `stored` is the stored sequence. -/
def QueueEnvironment.queue (env : QueueEnvironment) (stored : List String) : SequenceMoveState :=
  SequenceMoveState.fromVisible env.apparatus env.visible stored env.rawStates env.frozen
    env.preflightOrders

/-- The database locks the candidate orders first and gives up if another one is visible now. -/
def SequenceStoreKind.locksVisible (kind : SequenceStoreKind) (env : QueueEnvironment)
    (request : SequenceRequest) : Bool :=
  match kind with
  | .memory => true
  | .postgres =>
    let locked := effectiveApparatusSequenceExcluding [] request.candidates ∅ ++
      [request.command.orderId]++request.command.beforeOrderId.toList ++
      request.command.afterOrderId.toList
    (effectiveApparatusSequenceExcluding [] env.visible ∅).all fun id => id∈locked

section Store
variable (digest : String → String) (kind : SequenceStoreKind) (env : QueueEnvironment)

def commitMove (request : SequenceRequest) (row : SequenceRow) :
    Except ProductionMapError (SequenceMoveResult × SequenceRow) := do
  ensure (kind.locksVisible env request) .queueReorderConflict
  let result ← (env.queue row.orderIds).apply digest request.command
  if result.event.isSome then
    let revision := kind.nextRevision row.revision
    return ({ result with revision := revision }, ⟨result.orderIds,revision⟩)
  else
    return ({ result with revision := kind.currentRevision row.revision }, row)

def SequenceRequest.receiptKey (request : SequenceRequest) : ReceiptKey :=
  ⟨request.command.apparatus,request.actor.role,request.actor.ref,request.command.idempotencyKey⟩

def sequenceMoves : Service SequenceRequest ReceiptKey SequenceMove SequenceMoveResult
    SequenceRow ProductionMapError where
  key := SequenceRequest.receiptKey
  command := SequenceRequest.command
  check := SequenceMove.validate
  perform := commitMove digest kind env
  conflict := .queueReorderIdempotencyConflict

abbrev SequenceLedger := Ledger ReceiptKey SequenceMove SequenceMoveResult SequenceRow

def moveApparatusSequence (request : SequenceRequest) (ledger : SequenceLedger) :
    Except ProductionMapError (SequenceMoveResult × SequenceLedger) :=
  submit (sequenceMoves digest kind env) request ledger

/-- The store after one call, and after any interleaving of calls. -/
def afterMove (ledger : SequenceLedger) (request : SequenceRequest) : SequenceLedger :=
  advance (step (sequenceMoves digest kind env)) ledger request

def afterMoves (ledger : SequenceLedger) (requests : List SequenceRequest) : SequenceLedger :=
  run (step (sequenceMoves digest kind env)) ledger requests

/-- One committed move on an order, and the fold of several. -/
def applyMove (order : List String) (command : SequenceMove) : Option (List String) :=
  ((env.queue order).apply digest command).toOption.map SequenceMoveResult.orderIds

def foldMoves (order : List String) (commands : List SequenceMove) : Option (List String) :=
  commands.foldlM (applyMove digest env) order

end Store

/-- The order of the apparatus queue that a stored row stands for. -/
def QueueEnvironment.queueOrder (env : QueueEnvironment) (row : SequenceRow) : List String :=
  (env.queue row.orderIds).orderIds

section Fold
variable {digest : String → String} {kind : SequenceStoreKind} {env : QueueEnvironment}

theorem queue_nodup (stored : List String) : (env.queue stored).orderIds.Nodup :=
  effectiveApparatusSequenceExcluding_nodup _ _ _

theorem queue_of_perm {order stored : List String}
    (h : order.Perm (env.queue stored).orderIds) : (env.queue order).orderIds=order :=
  effectiveApparatusSequenceExcluding_perm h

theorem queue_queueOrder (row : SequenceRow) :
    env.queue (env.queueOrder row)=env.queue row.orderIds := by
  have h : (env.queue (env.queueOrder row)).orderIds=(env.queue row.orderIds).orderIds :=
    queue_of_perm (List.Perm.refl _)
  simp only [QueueEnvironment.queue,SequenceMoveState.fromVisible] at h ⊢
  simp only [h]

variable {request : SequenceRequest} {result : SequenceMoveResult} {row : SequenceRow}

/-- A committed move stores the order that the command makes of the queue, and its event. -/
theorem commitMove_ok {next : SequenceRow}
    (h : commitMove digest kind env request row=.ok (result, next)) :
    ∃ moved, (env.queue row.orderIds).apply digest request.command=.ok moved ∧
      result.event=moved.event ∧ env.queueOrder next=moved.orderIds := by
  obtain ⟨_,-,h⟩ := bind_eq_ok.mp h
  obtain ⟨moved,happly,h⟩ := bind_eq_ok.mp h
  have hperm := SequenceMoveState.apply_perm (queue_nodup row.orderIds) happly
  have hevent := (SequenceMoveState.apply_event (queue_nodup row.orderIds) happly).1
  refine ⟨moved,happly,?_⟩
  split at h
  · obtain ⟨rfl,rfl⟩ := Prod.mk.inj (Except.ok.inj h)
    exact ⟨rfl,queue_of_perm hperm⟩
  · rename_i hnone
    obtain ⟨rfl,rfl⟩ := Prod.mk.inj (Except.ok.inj h)
    exact ⟨rfl,(hevent.mp (by simpa using hnone)).symm⟩

theorem commitMove_order {next : SequenceRow}
    (h : commitMove digest kind env request row=.ok (result, next)) :
    applyMove digest env (env.queueOrder row) request.command=some (env.queueOrder next) := by
  obtain ⟨moved,happly,-,horder⟩ := commitMove_ok h
  rw [applyMove,queue_queueOrder,happly,horder]
  rfl

theorem performAll_order {log : List SequenceRequest} {last : SequenceRow}
    (h : performAll (sequenceMoves digest kind env) row log=.ok last) :
    foldMoves digest env (env.queueOrder row) (log.map SequenceRequest.command) =
      some (env.queueOrder last) := by
  induction log generalizing row with
  | nil =>
    rw [← Except.ok.inj h]
    rfl
  | cons request rest ih =>
    obtain ⟨middle,hfirst,hrest⟩ := bind_eq_ok.mp h
    obtain ⟨⟨result,next⟩,hcommit,hnext⟩ := bind_eq_ok.mp hfirst
    rw [← Except.ok.inj hnext] at hrest
    rw [List.map_cons,foldMoves,List.foldlM_cons,commitMove_order hcommit]
    exact ih hrest

theorem commitMove_version {next : SequenceRow}
    (h : commitMove digest kind env request row=.ok (result, next)) :
    request.command.expectedVersion=(env.queue row.orderIds).version digest := by
  obtain ⟨_,-,h⟩ := bind_eq_ok.mp h
  obtain ⟨moved,happly,-⟩ := bind_eq_ok.mp h
  exact (SequenceMoveState.apply_ok happly).2.2.1

theorem moveApparatusSequence_stale {ledger : SequenceLedger}
    (hfresh : ledger.receipts.lookup request.receiptKey=none)
    (hstale : request.command.expectedVersion≠(env.queue ledger.value.orderIds).version digest) :
    (∃ e, moveApparatusSequence digest kind env request ledger=.error e) ∧
      afterMove digest kind env ledger request=ledger := by
  cases h : moveApparatusSequence digest kind env request ledger with
  | error e => exact ⟨⟨e,rfl⟩,advance_of_error h⟩
  | ok accepted =>
    obtain ⟨-,⟨hknown,-⟩ | ⟨-,row,hcommit,-⟩⟩ := submit_ok h
    · exact absurd (hfresh.symm.trans hknown) (by simp)
    · exact absurd (commitMove_version hcommit) hstale

end Fold

/-- Over any calls of any actors: the order of the queue is the fold of the committed moves in
commit order; once a call is accepted, every later one under its key leaves the store as it is,
is answered with the stored result if it is the same command and is rejected otherwise; and a
command under a fresh key that expects another version is rejected. -/
theorem sequence_moves_serialize (digest : String → String) (kind : SequenceStoreKind)
    (env : QueueEnvironment) (start : SequenceLedger) (requests : List SequenceRequest) :
    (∃ log : List SequenceRequest, log.Sublist requests ∧
      (afterMoves digest kind env start requests).receipts.map (fun e => (e.1, e.2.1)) =
        (log.map fun request => (request.receiptKey, request.command)).reverse ++
          start.receipts.map (fun e => (e.1, e.2.1)) ∧
      foldMoves digest env (env.queueOrder start.value) (log.map SequenceRequest.command) =
        some (env.queueOrder (afterMoves digest kind env start requests).value)) ∧
    (∀ (request : SequenceRequest) (result : SequenceMoveResult) (accepted : SequenceLedger),
      moveApparatusSequence digest kind env request
        (afterMoves digest kind env start requests)=.ok (result, accepted) →
      ∀ (later : List SequenceRequest) (other : SequenceRequest) (now : SequenceLedger),
        now=afterMoves digest kind env accepted later → other.receiptKey=request.receiptKey →
        afterMove digest kind env now other=now ∧ (other.command=request.command →
          moveApparatusSequence digest kind env other now=.ok (result, now)) ∧
        (other.command≠request.command → moveApparatusSequence digest kind env other now =
            .error .queueReorderIdempotencyConflict ∨
          ∃ e, other.command.validate=.error e ∧
            moveApparatusSequence digest kind env other now=.error e)) ∧
    (∀ (request : SequenceRequest) (now : SequenceLedger),
      now=afterMoves digest kind env start requests → now.receipts.lookup request.receiptKey=none →
      request.command.expectedVersion≠(env.queue now.value.orderIds).version digest →
      (∃ e, moveApparatusSequence digest kind env request now=.error e) ∧
        afterMove digest kind env now request=now) := by
  refine ⟨?_,?_,?_⟩
  · obtain ⟨log,hsub,hreceipts,hvalue⟩ :=
      run_eq_performAll (sequenceMoves digest kind env) start requests
    exact ⟨log,hsub,hreceipts,performAll_order hvalue⟩
  · intro request result accepted h later other now hnow hkey
    have honce := submit_once h later hkey
    rw [hnow]
    exact honce
  · rintro request _ rfl hfresh hstale
    exact moveApparatusSequence_stale hfresh hstale

/-- Three waiting orders, loaded newest first, and one actor moving the last to the front. -/
def threeOrderEnvironment : QueueEnvironment where
  apparatus := "apparatus:default:bosma_8"
  visible := ["c","b","a"]
  rawStates := ∅
  frozen := ∅
  preflightOrders := ∅

def moveToFrontRequest : SequenceRequest where
  actor := ⟨"admin","one","Name"⟩
  command :=
    { apparatus := "apparatus:default:bosma_8"
      orderId := "c"
      beforeOrderId := some "a"
      afterOrderId := none
      expectedVersion := (threeOrderEnvironment.queue []).version lengthDigest
      idempotencyKey := "first" }
  candidates := ["c","b","a"]

theorem sequence_moves_serialize_retry :
    ∃ result accepted, moveApparatusSequence lengthDigest .postgres threeOrderEnvironment
        moveToFrontRequest ⟨⟨[],none⟩,[]⟩=.ok (result, accepted) ∧
      result.orderIds=["c","a","b"] ∧
      moveApparatusSequence lengthDigest .postgres threeOrderEnvironment moveToFrontRequest
        accepted=.ok (result, accepted) := by
  have hresult : ((moveApparatusSequence lengthDigest .postgres threeOrderEnvironment
      moveToFrontRequest ⟨⟨[],none⟩,[]⟩).toOption.map
        fun accepted => accepted.1.orderIds)=some ["c","a","b"] := by decide +kernel
  obtain ⟨⟨result,accepted⟩,hok,horder⟩ := Option.map_eq_some_iff.mp hresult
  have h := toOption_eq_some.mp hok
  have hserial := sequence_moves_serialize lengthDigest .postgres threeOrderEnvironment
    ⟨⟨[],none⟩,[]⟩ []
  exact ⟨result,accepted,h,horder,
    (hserial.2.1 moveToFrontRequest result accepted h [] moveToFrontRequest accepted rfl
      rfl).2.1 rfl⟩

end MiniErp.Queue
