import MiniErp.Queue.Actions

/-! `prepare_apparatus_queue_action_with_progress` as a step on the stored states of one
apparatus: the guards that read them, the four transition branches, the capacity check and
the state an unfinished completion falls back to. -/
namespace MiniErp.Queue
open Text Std Run

abbrev StoredStates := TreeMap String String

inductive OrderControlState where
  | active
  | freezeRequested
  | frozen
  deriving DecidableEq, Repr

structure QueueProgressInput where
  description : String
  freezeRequestId : String
  freezeWithIssue : Bool
  workerHandoff : Bool
  removeRollFromApparatus : Bool
  completeWithoutOutput : Bool

/-- What the capacity check reads beside the queue states: the profile, the clock against it,
and the orders of active sessions and of current reservations on the apparatus. -/
structure ExecutionCapacity where
  downtimeNow : Bool
  fitsWorkingWindow : Bool
  finiteCapacity : Bool
  capacitySlots : Nat
  sessionOrders : List String
  reservedOrders : List String

/-- Everything one request reads beside the stored queue states. `otherChecks` is the result
of the guards that read neither the states nor the fields below; `closingOutput` is the check
of the closing metrics and of the output batch the request names. -/
structure QueueActionContext where
  orderId : String
  requestedAction : ApparatusQueueAction
  actorRole : String
  control : OrderControlState
  policy : ApparatusQueuePolicy
  storedSequence : List String
  visibleOrderIds : List String
  frozenOrderIds : TreeSet String
  frozenAtOtherStage : Bool
  previousProgressReady : Bool
  activeSession : Option OrderRunSession
  printPreflightHold : Bool
  isPechat : Bool
  usesLaminationWorkflow : Bool
  closingOutput : Except ProductionMapError Unit
  unprocessedPreviousWips : Bool
  progress : QueueProgressInput
  capacity : ExecutionCapacity
  otherChecks : Except ProductionMapError Unit

def parsedQueueStates (states : StoredStates) : QueueStates :=
  states.filterMap fun _ value => ApparatusQueueOrderState.parse value

def serializedQueueStates (parsed : QueueStates) : StoredStates :=
  parsed.map fun _ state => state.asStr

def orderRunSessionWasRequeued (session : OrderRunSession) : Bool :=
  (session.payloadJson.get "requeued_at_tail").bind Json.asBool == some true

def validateRequestedQueueState (states : StoredStates) (orderId : String) :
    Except ProductionMapError Unit :=
  match states[trim orderId]? with
  | none => .ok ()
  | some rawState => ensure (ApparatusQueueOrderState.parse rawState).isSome .queueActionNotAllowed

def ensureApparatusExecutionCapacity (capacity : ExecutionCapacity) (orderId : String)
    (states : StoredStates) : Except ProductionMapError Unit := do
  let orderId := trim orderId
  ensure (!capacity.downtimeNow) .capacityUnavailable
  ensure capacity.fitsWorkingWindow .capacityNoWorkingWindow
  let running := (states.toList.filter fun entry =>
    ApparatusQueueOrderState.parse entry.2=some .inProgress).map Prod.fst
  let candidates := running++capacity.sessionOrders++capacity.reservedOrders
  let occupied := candidates.filter fun id => !eqIgnoreAsciiCase id orderId
  let occupiedOrders : TreeSet String := TreeSet.ofList (occupied.map trim)
  ensure (!(capacity.finiteCapacity && occupiedOrders.size ≥ capacity.capacitySlots))
    .capacityConflict

namespace QueueActionContext
variable (ctx : QueueActionContext)

def freezeRequestFinalization : Bool :=
  ctx.control=.freezeRequested &&
    (ctx.requestedAction.createsResumableOutput || ctx.requestedAction=.freeze)

def freezeWithIssue : Bool :=
  ctx.progress.freezeWithIssue || (ctx.requestedAction=.freeze && ctx.control=.active)

def queueAction : ApparatusQueueAction :=
  if ctx.freezeWithIssue || ctx.freezeRequestFinalization then .freeze else ctx.requestedAction

def requeuedSession : Bool := ctx.activeSession.any orderRunSessionWasRequeued

def removeRoll : Bool := ctx.queueAction=.detachRoll && ctx.progress.removeRollFromApparatus

def sequence : List String :=
  effectiveApparatusSequenceExcluding ctx.storedSequence ctx.visibleOrderIds ctx.frozenOrderIds

def checkFreezeWithIssue : Except ProductionMapError Unit :=
  if ctx.freezeWithIssue then do
    ensure (eqIgnoreAsciiCase (trim ctx.actorRole) "aparatchi" || ctx.actorRole = "rezka_master")
      .orderControlActionNotAllowed
    ensure (!(isBlank ctx.progress.description || !isBlank ctx.progress.freezeRequestId ||
      ctx.progress.workerHandoff || ctx.progress.removeRollFromApparatus)) .progressInputInvalid
    match ctx.control with
    | .active => .ok ()
    | .freezeRequested => .error .orderFreezeRequested
    | .frozen => .error .orderFrozen
  else .ok ()

def checkControl : Except ProductionMapError Unit :=
  match ctx.control with
  | .active => .ok ()
  | .freezeRequested => if ctx.queueAction=.freeze then .ok () else .error .orderFreezeRequested
  | .frozen => .error .orderFrozen

section
variable (stored : StoredStates)

/-- A hold on another occurrence of the apparatus does not freeze this one. -/
def occurrenceStates : StoredStates :=
  if stored[trim ctx.orderId]?=some "frozen" ∧ ctx.control=.active ∧ ctx.frozenAtOtherStage
  then stored.insert (trim ctx.orderId) "pending"
  else stored

/-- The states the transition starts from; a completed order re-enters as pending. -/
def startingStates : QueueStates :=
  let parsed := parsedQueueStates (ctx.occurrenceStates stored)
  if ctx.queueAction=.start ∧ ctx.previousProgressReady ∧ parsed[trim ctx.orderId]?=some .completed
  then parsed.insert (trim ctx.orderId) .pending
  else parsed

def fromState : ApparatusQueueOrderState :=
  (ctx.startingStates stored)[trim ctx.orderId]?.getD .pending

def requeuedResume : Bool :=
  ctx.requeuedSession && ctx.queueAction=.resume && ctx.fromState stored=.pending

def transition : Except ProductionMapError QueueStates :=
  let orderId := trim ctx.orderId
  let parsed := ctx.startingStates stored
  if ctx.progress.completeWithoutOutput then
    .ok (parsed.insert orderId .completed)
  else if ctx.removeRoll then do
    ensure (ctx.usesLaminationWorkflow && ctx.fromState stored=.paused) .queueActionNotAllowed
    ensure (!parsed.toList.any fun entry => entry.1≠orderId && entry.2.isActive)
      .queueActionNotAllowed
    return parsed.insert orderId .paused
  else if ctx.requeuedResume stored then
    applyRequeuedResume ctx.policy ctx.sequence parsed orderId
  else
    applyQueuePolicy ctx.policy ctx.sequence parsed orderId ctx.queueAction

/-- Completing without output closes a paused printing order. -/
def checkClosing : Except ProductionMapError Unit :=
  if ctx.progress.completeWithoutOutput then do
    ensure (ctx.queueAction=.complete && ctx.fromState stored=.paused && ctx.isPechat)
      .queueActionNotAllowed
    ctx.closingOutput
  else .ok ()

def checkRequest : Except ProductionMapError Unit := do
  ensure (trim ctx.orderId ≠ "") .missingId
  ctx.checkFreezeWithIssue
  ctx.checkControl
  ctx.otherChecks
  ensure (ctx.sequence.any fun id => trim id=trim ctx.orderId) .queueActionNotAllowed
  validateRequestedQueueState (ctx.occurrenceStates stored) ctx.orderId
  ensure (!(ctx.control=.freezeRequested && ctx.queueAction=.freeze &&
    ctx.fromState stored=.printPreflight && !ctx.printPreflightHold)) .orderFreezeRequestMismatch
  ctx.checkClosing stored
  ensure (!(ctx.requeuedSession && ctx.queueAction=.start)) .queueActionNotAllowed

def checkCapacity : Except ProductionMapError Unit :=
  if ctx.queueAction.takesSlot then
    ensureApparatusExecutionCapacity ctx.capacity ctx.orderId stored
  else .ok ()

def prepare : Except ProductionMapError StoredStates := do
  ctx.checkRequest stored
  let parsed ← ctx.transition stored
  ctx.checkCapacity stored
  match parsed[trim ctx.orderId]? with
  | none => .error .queueActionNotAllowed
  | some toState =>
    if ctx.queueAction=.complete ∧ toState=.completed ∧ ctx.unprocessedPreviousWips then
      return serializedQueueStates (parsed.insert (trim ctx.orderId) .pending)
    else
      return serializedQueueStates parsed

end

end QueueActionContext

/- Reading back what was stored, and the states a transition starts from. -/

theorem getElem?_parsedQueueStates (states : StoredStates) (id : String) :
    (parsedQueueStates states)[id]?=states[id]?.bind ApparatusQueueOrderState.parse := by
  simp [parsedQueueStates]

theorem getElem?_parsed_serialized (parsed : QueueStates) (id : String) :
    (parsedQueueStates (serializedQueueStates parsed))[id]?=parsed[id]? := by
  rw [getElem?_parsedQueueStates,serializedQueueStates,TreeMap.getElem?_map]
  cases parsed[id]? <;> simp

theorem atMostOneActive_parsed_serialized (parsed : QueueStates) :
    AtMostOneActive (parsedQueueStates (serializedQueueStates parsed)) ↔
      AtMostOneActive parsed := by
  constructor
  · exact AtMostOneActive.mono fun id s hget _ => by rw [getElem?_parsed_serialized,hget]
  · exact AtMostOneActive.mono fun id s hget _ => by rw [← getElem?_parsed_serialized,hget]

namespace QueueActionContext
variable {ctx : QueueActionContext} {stored : StoredStates}

theorem getElem?_parsed_occurrenceStates (id : String) (hid : id≠trim ctx.orderId) :
    (parsedQueueStates (ctx.occurrenceStates stored))[id]?=(parsedQueueStates stored)[id]? := by
  unfold occurrenceStates
  split
  · rw [getElem?_parsedQueueStates,getElem?_parsedQueueStates,TreeMap.getElem?_insert]
    simp [hid.symm]
  · rfl

theorem getElem?_startingStates (id : String) (hid : id≠trim ctx.orderId) :
    (ctx.startingStates stored)[id]?=(parsedQueueStates stored)[id]? := by
  simp only [startingStates]
  split
  · rw [getElem?_insert_state,if_neg hid.symm,getElem?_parsed_occurrenceStates id hid]
  · exact getElem?_parsed_occurrenceStates id hid

theorem startingStates_active {id : String} {s : ApparatusQueueOrderState}
    (hget : (ctx.startingStates stored)[id]?=some s) (hactive : s.isActive=true) :
    (parsedQueueStates stored)[id]?=some s := by
  by_cases hid : id=trim ctx.orderId
  · subst hid
    simp only [startingStates] at hget
    split at hget
    · rw [getElem?_insert_state,if_pos rfl] at hget
      rw [← Option.some.inj hget] at hactive
      cases hactive
    · unfold occurrenceStates at hget
      split at hget
      · have hpending : (some "pending").bind ApparatusQueueOrderState.parse=some .pending :=
          ApparatusQueueOrderState.parse_asStr .pending
        rw [getElem?_parsedQueueStates,TreeMap.getElem?_insert_self,hpending] at hget
        rw [← Option.some.inj hget] at hactive
        cases hactive
      · exact hget
  · rwa [getElem?_startingStates id hid] at hget

theorem startingStates_atMostOneActive (h : AtMostOneActive (parsedQueueStates stored)) :
    AtMostOneActive (ctx.startingStates stored) :=
  h.mono fun _ _ => startingStates_active

theorem otherActive_startingStates : otherActive (ctx.startingStates stored) (trim ctx.orderId) =
      otherActive (parsedQueueStates stored) (trim ctx.orderId) :=
  otherActive_congr (trim_trim _) fun id hid => getElem?_startingStates id hid

def ResumesIntoOccupiedSlot (ctx : QueueActionContext) (stored : StoredStates) : Prop :=
  ctx.requeuedResume stored=true ∧ otherActive (parsedQueueStates stored) (trim ctx.orderId)=true

theorem requeuedResume_action (h : ctx.requeuedResume stored=true) : ctx.queueAction=.resume := by
  simp only [requeuedResume,Bool.and_eq_true,decide_eq_true_eq] at h
  exact h.1.2

theorem checkRequest_closing (h : ctx.checkRequest stored=.ok ())
    (hclosing : ctx.progress.completeWithoutOutput=true) : ctx.queueAction=.complete := by
  simp only [checkRequest,bind_eq_ok] at h
  obtain ⟨_,-,_,-,_,-,_,-,_,-,_,-,_,-,_,h,-⟩ := h
  simp only [checkClosing,hclosing,if_true,ensure_bind_eq_ok,Bool.and_eq_true,
    decide_eq_true_eq] at h
  exact h.1.1.1

/-- The transition branches keep the slot single, the requeued resume only into a free one. -/
theorem transition_atMostOneActive {parsed : QueueStates} (hcheck : ctx.checkRequest stored=.ok ())
    (h : ctx.transition stored=.ok parsed) (hone : AtMostOneActive (parsedQueueStates stored)) :
    AtMostOneActive parsed ↔ ¬ ctx.ResumesIntoOccupiedSlot stored := by
  have hstart : AtMostOneActive (ctx.startingStates stored) := startingStates_atMostOneActive hone
  have hother : ctx.queueAction ≠ .resume → ¬ ctx.ResumesIntoOccupiedSlot stored :=
    fun hne hresume => hne (requeuedResume_action hresume.1)
  simp only [transition] at h
  split at h
  · rename_i hclosing
    have hcomplete := checkRequest_closing hcheck hclosing
    rw [← Except.ok.inj h]
    exact iff_of_true (atMostOneActive_insert_inactive rfl hstart) (hother (by simp [hcomplete]))
  · split at h
    · rename_i hremove
      have hdetach : ctx.queueAction=.detachRoll := by
        simp only [removeRoll,Bool.and_eq_true,decide_eq_true_eq] at hremove
        exact hremove.1
      simp only [ensure_bind_eq_ok] at h
      rw [← Except.ok.inj h.2.2]
      exact iff_of_true (atMostOneActive_insert_inactive rfl hstart) (hother (by simp [hdetach]))
    · split at h
      · rename_i hresume
        rw [applyRequeuedResume_atMostOneActive (trim_trim _) h,otherActive_startingStates]
        simp [ResumesIntoOccupiedSlot,hresume]
      · rename_i hresume
        exact iff_of_true (applyQueuePolicy_atMostOneActive h hstart) fun h => hresume h.1

theorem prepare_ok {next : StoredStates} (h : ctx.prepare stored=.ok next) :
    ∃ parsed, ctx.checkRequest stored=.ok () ∧ ctx.transition stored=.ok parsed ∧
      (next=serializedQueueStates parsed ∨
        ctx.queueAction=.complete ∧ parsed[trim ctx.orderId]?=some .completed ∧
          next=serializedQueueStates (parsed.insert (trim ctx.orderId) .pending)) := by
  simp only [prepare,bind_eq_ok] at h
  obtain ⟨_,hcheck,parsed,htransition,_,-,h⟩ := h
  refine ⟨parsed,hcheck,htransition,?_⟩
  split at h
  · cases h
  · split at h
    · rename_i toState hto hback
      exact .inr ⟨hback.1,by rw [hto,hback.2.1],(Except.ok.inj h).symm⟩
    · exact .inl (Except.ok.inj h).symm

/-- One accepted request keeps the slot single unless it resumes a requeued order into a slot
another order holds, and then it does not. -/
theorem prepare_atMostOneActive {next : StoredStates} (h : ctx.prepare stored=.ok next)
    (hone : AtMostOneActive (parsedQueueStates stored)) :
    AtMostOneActive (parsedQueueStates next) ↔ ¬ ctx.ResumesIntoOccupiedSlot stored := by
  obtain ⟨parsed,hcheck,htransition,hnext⟩ := prepare_ok h
  have hparsed := transition_atMostOneActive hcheck htransition hone
  rcases hnext with rfl | ⟨hcomplete,-,rfl⟩
  · rw [atMostOneActive_parsed_serialized,hparsed]
  · have hfree : ¬ ctx.ResumesIntoOccupiedSlot stored := by
      intro hresume
      rw [requeuedResume_action hresume.1] at hcomplete
      cases hcomplete
    rw [atMostOneActive_parsed_serialized]
    exact iff_of_true (atMostOneActive_insert_inactive rfl (hparsed.mpr hfree)) hfree

end QueueActionContext

open QueueActionContext

/-- A request under the free-pick policy on an apparatus with `slots` places. -/
def freePickRequest (orderId : String) (action : ApparatusQueueAction)
    (session : Option OrderRunSession) (slots : Nat) : QueueActionContext where
  orderId := orderId
  requestedAction := action
  actorRole := "aparatchi"
  control := .active
  policy := .freePick
  storedSequence := ["a","b"]
  visibleOrderIds := ["b","a"]
  frozenOrderIds := ∅
  frozenAtOtherStage := false
  previousProgressReady := true
  activeSession := session
  printPreflightHold := false
  isPechat := true
  usesLaminationWorkflow := false
  closingOutput := .ok ()
  unprocessedPreviousWips := false
  progress := ⟨"","",false,false,false,false⟩
  capacity := ⟨false,true,true,slots,[],[]⟩
  otherChecks := .ok ()

/-- The session of an order that was sent back to the tail of the queue. -/
def requeuedSessionOf (orderId : String) : OrderRunSession where
  sessionId := "session"
  apparatus := "apparatus"
  orderId := orderId
  stageNodeId := "stage"
  status := .paused
  workerRole := "aparatchi"
  workerRef := "worker"
  workerDisplayName := "Worker"
  startedAtUnix := 0
  updatedAtUnix := 0
  payloadJson := .object [("requeued_at_tail", .bool true)]

/-- On an apparatus with one place, order `b` holds the slot in print preflight and the
requeued order `a` is resumed beside it. With two places two starts reach the same. -/
theorem requeued_resume_runs_two_orders : (∃ stored next : StoredStates,
      AtMostOneActive (parsedQueueStates stored) ∧
      (freePickRequest "a" .resume (some (requeuedSessionOf "a")) 1).prepare stored=.ok next ∧
      ¬ AtMostOneActive (parsedQueueStates next)) ∧
    ¬ AtMostOneActive (parsedQueueStates (run prepare ∅
      [freePickRequest "b" .start none 2,
        freePickRequest "a" .resume (some (requeuedSessionOf "a")) 2])) := by
  refine ⟨⟨TreeMap.ofList [("a", "pending"),("b", "print_preflight")],?_⟩,by decide +kernel⟩
  have hresult : (((freePickRequest "a" .resume (some (requeuedSessionOf "a")) 1).prepare
      (TreeMap.ofList [("a", "pending"),("b", "print_preflight")])).toOption.map
        fun next => decide (AtMostOneActive (parsedQueueStates next)))=some false := by
    decide +kernel
  obtain ⟨next,hnext,htwo⟩ := Option.map_eq_some_iff.mp hresult
  exact ⟨next,by decide +kernel,toOption_eq_some.mp hnext,of_decide_eq_false htwo⟩

/-- Every accepted request keeps at most one order active exactly when it does not resume a
requeued order into a slot another order holds; a run from the empty map that makes no such
request keeps at most one order active in every state it reaches. -/
theorem prepare_single_slot (ctx : QueueActionContext) (stored next : StoredStates)
    (requests reached : List QueueActionContext) :
    (AtMostOneActive (parsedQueueStates stored) → ctx.prepare stored=.ok next →
      (AtMostOneActive (parsedQueueStates next) ↔ ¬ ctx.ResumesIntoOccupiedSlot stored)) ∧
    (Along prepare (fun stored ctx => ¬ ctx.ResumesIntoOccupiedSlot stored) ∅ requests →
      reached <+: requests → AtMostOneActive (parsedQueueStates (run prepare ∅ reached))) := by
  refine ⟨fun hone h => prepare_atMostOneActive h hone,?_⟩
  rintro halong ⟨rest,rfl⟩
  have hempty : AtMostOneActive (parsedQueueStates ∅) := by decide +kernel
  exact run_invariant (fun stored => AtMostOneActive (parsedQueueStates stored))
    (fun stored ctx next hone hok h => (prepare_atMostOneActive h hone).mpr hok)
    hempty (along_append.mp halong).1

theorem prepare_single_slot_start :
    (∃ next, (freePickRequest "b" .start none 1).prepare ∅ = .ok next ∧
      AtMostOneActive (parsedQueueStates next)) ∧
    AtMostOneActive (parsedQueueStates (run prepare ∅ [freePickRequest "b" .start none 1])) := by
  have hfree : ¬ (freePickRequest "b" .start none 1).ResumesIntoOccupiedSlot ∅ := by
    rintro ⟨hresume,-⟩
    revert hresume
    decide +kernel
  constructor
  · have hresult : ((freePickRequest "b" .start none 1).prepare ∅).toOption.isSome=true := by
      decide +kernel
    obtain ⟨next,hnext⟩ := Option.isSome_iff_exists.mp hresult
    have h := toOption_eq_some.mp hnext
    exact ⟨next,h,((prepare_single_slot _ ∅ next [] []).1 (by decide +kernel) h).mpr hfree⟩
  · exact (prepare_single_slot (freePickRequest "b" .start none 1) ∅ ∅
      [freePickRequest "b" .start none 1] _).2 ⟨hfree,trivial⟩ List.prefix_rfl

end MiniErp.Queue
