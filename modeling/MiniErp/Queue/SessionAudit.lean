import MiniErp.Queue.SessionWrite

/-! The audit of run sessions against queue states. A session and the state of its order come
from two separate computations; the action of the queue fixes both, and so they agree in every
prepared write and along every run of requests. -/
namespace MiniErp.Queue
open Text Std Run QueueActionContext ProgressContext

/-- A paused session whose order was sent back to the tail of the queue. -/
def isRequeued (session : OrderRunSession) : Bool :=
  session.status=.paused && orderRunSessionWasRequeued session

/-- The queue state the audit expects beside a session. -/
def expectedState (session : OrderRunSession) : Option ApparatusQueueOrderState :=
  match session.status with
  | .active => some .inProgress
  | .paused => if isRequeued session then none else some .paused
  | .rollDetached => some .paused
  | .frozen => some .frozen
  | .completed => none

structure AuditViolation where
  code : String
  message : String
  deriving DecidableEq, Repr

/-- `audit_run_session`, the violations that compare the session with its queue state. -/
def auditSessionState (session : OrderRunSession) (state : Option ApparatusQueueOrderState) :
    Option AuditViolation :=
  match expectedState session with
  | some expected =>
    if state≠some expected then
      some ⟨"session_queue_state_mismatch",
        session.status.asStr ++ " session requires queue state " ++ expected.asStr⟩
    else none
  | none =>
    if state=some .inProgress ∨ state=some .paused then
      some ⟨"completed_session_active_queue",
        "completed run session cannot leave an active queue state"⟩
    else none

def SessionAgrees (session : Option OrderRunSession) (state : Option ApparatusQueueOrderState) :
    Prop :=
  ∀ s∈session, auditSessionState s state=none

theorem auditSessionState_eq_none {session : OrderRunSession}
    {state : Option ApparatusQueueOrderState} : auditSessionState session state=none ↔
      match expectedState session with
      | some expected => state=some expected
      | none => state≠some .inProgress ∧ state≠some .paused := by
  unfold auditSessionState
  cases expectedState session <;> simp

/-- The state every accepted action leaves its order in, whatever state it was in. -/
def stateAfter : ApparatusQueueAction → ApparatusQueueOrderState
  | .start | .resume | .merge | .rollComplete => .inProgress
  | .pause | .detachRoll => .paused
  | .freeze => .frozen
  | .complete => .completed

theorem nextQueueState_eq_stateAfter {current next : ApparatusQueueOrderState}
    {action : ApparatusQueueAction} (h : nextQueueState current action=.ok next) :
    next=stateAfter action := by
  cases current <;> cases action <;> simp_all [nextQueueState,stateAfter]

section Transition
variable {ctx : QueueActionContext} {stored : StoredStates}

theorem transition_eq_insert {parsed : QueueStates} (hcheck : ctx.checkRequest stored=.ok ())
    (h : ctx.transition stored=.ok parsed) :
    parsed=(ctx.startingStates stored).insert (trim ctx.orderId) (stateAfter ctx.queueAction) := by
  simp only [transition] at h
  split at h
  · rename_i hclosing
    rw [← Except.ok.inj h,checkRequest_closing hcheck hclosing]
    rfl
  · split at h
    · rename_i hremove
      have hdetach : ctx.queueAction=.detachRoll := by
        simp only [removeRoll,Bool.and_eq_true,decide_eq_true_eq] at hremove
        exact hremove.1
      simp only [ensure_bind_eq_ok] at h
      rw [← Except.ok.inj h.2.2,hdetach]
      rfl
    · split at h
      · rename_i hresume
        simp only [applyRequeuedResume,ensure_bind_eq_ok] at h
        rw [← Except.ok.inj h.2.2,requeuedResume_action hresume]
        rfl
      · obtain ⟨state,hparsed,-,hstate⟩ := applyQueuePolicy_ok h
        rw [hparsed,trim_trim,nextQueueState_eq_stateAfter hstate]

/-- The state an accepted request stores for its order: the one of the action, or pending
after a completion that leaves rolls to process. The other orders keep theirs. -/
theorem prepare_states {next : StoredStates} (h : ctx.prepare stored=.ok next) :
    ((parsedQueueStates next)[trim ctx.orderId]?=some (stateAfter ctx.queueAction) ∨
      ctx.queueAction=.complete ∧ (parsedQueueStates next)[trim ctx.orderId]?=some .pending) ∧
    ∀ id, id≠trim ctx.orderId → (parsedQueueStates next)[id]?=(parsedQueueStates stored)[id]? := by
  obtain ⟨parsed,hcheck,htransition,hnext⟩ := prepare_ok h
  have hparsed := transition_eq_insert hcheck htransition
  rcases hnext with rfl | ⟨hcomplete,-,rfl⟩
  · refine ⟨.inl ?_,fun id hid => ?_⟩
    · rw [getElem?_parsed_serialized,hparsed,getElem?_insert_state,if_pos rfl]
    · rw [getElem?_parsed_serialized,hparsed,getElem?_insert_state,if_neg hid.symm,
        getElem?_startingStates id hid]
  · refine ⟨.inr ⟨hcomplete,?_⟩,fun id hid => ?_⟩
    · rw [getElem?_parsed_serialized,getElem?_insert_state,if_pos rfl]
    · rw [getElem?_parsed_serialized,getElem?_insert_state,if_neg hid.symm,hparsed,
        getElem?_insert_state,if_neg hid.symm,getElem?_startingStates id hid]

end Transition

/-- A session built for an action agrees with the state the action leaves, and a completed one
with a pending order too. -/
theorem agrees_of_builtFor {action : ApparatusQueueAction} {session : OrderRunSession}
    (h : BuiltFor action session) {state : Option ApparatusQueueOrderState}
    (hstate : state=some (stateAfter action) ∨ action=.complete ∧ state=some .pending) :
    auditSessionState session state=none := by
  have hrequeued : session.status=.paused → isRequeued session=false := by
    intro hpaused
    have hmark : session.payloadJson.get "requeued_at_tail" = none := h.unrequeued hpaused
    simp [isRequeued,orderRunSessionWasRequeued,hmark]
  have hstatus := h.status
  rw [auditSessionState_eq_none]
  rcases hstate with rfl | ⟨rfl,rfl⟩
  · cases action <;> simp_all [expectedState,runStatusForProgressAction,stateAfter]
  · simp [expectedState,hstatus,runStatusForProgressAction]

theorem agrees_frozen_of_printPreflight {session : Option OrderRunSession}
    (h : SessionAgrees session (some .printPreflight)) : SessionAgrees session (some .frozen) := by
  intro s hs
  have hpreflight := auditSessionState_eq_none.mp (h s hs)
  have hexpected : expectedState s≠some .printPreflight := by
    unfold expectedState
    split <;> simp
  rw [auditSessionState_eq_none]
  cases hstate : expectedState s with
  | none => simp
  | some expected =>
    rw [hstate] at hpreflight hexpected
    exact absurd hpreflight.symm hexpected

theorem state_of_printPreflightFreeze {ctx : ProgressContext} {stored : StoredStates}
    (h : ctx.printPreflightFreeze stored=true) : (parsedQueueStates stored)[trim ctx.orderId]? =
    some .printPreflight ∧ ctx.queueAction=.freeze := by
  simp only [printPreflightFreeze,Bool.and_eq_true,decide_eq_true_eq] at h
  obtain ⟨⟨⟨-,haction⟩,hfrom⟩,-⟩ := h
  refine ⟨?_,haction⟩
  have hget : (ctx.startingStates stored)[trim ctx.orderId]?=some .printPreflight := by
    unfold fromState at hfrom
    cases hstate : (ctx.startingStates stored)[trim ctx.orderId]? with
    | none => simp [hstate] at hfrom
    | some state => simpa [hstate] using hfrom
  exact startingStates_active hget rfl

theorem prepareWithProgress_agrees (ctx : ProgressContext) {stored : StoredStates}
    {write : PreparedWrite} {session : Option OrderRunSession}
    (hagrees : SessionAgrees session (parsedQueueStates stored)[trim ctx.orderId]?)
    (h : ctx.prepareWithProgress stored=.ok write) :
    SessionAgrees (write.session.or session) (parsedQueueStates write.states)[trim ctx.orderId]? := by
  simp only [prepareWithProgress,bind_eq_ok] at h
  obtain ⟨_,hcheck,states,hstates,written,hwritten,h⟩ := h
  obtain ⟨hstate,-⟩ := prepare_states hstates
  rw [← Except.ok.inj h]
  rcases builtFor_buildSession hcheck hwritten with ⟨hpreflight,rfl⟩ | ⟨built,rfl,hbuilt⟩
  · obtain ⟨hfrom,haction⟩ := state_of_printPreflightFreeze hpreflight
    rw [haction] at hstate
    rcases hstate with hstate | ⟨hcomplete,-⟩
    · rw [hfrom] at hagrees
      rw [hstate]
      exact agrees_frozen_of_printPreflight hagrees
    · cases hcomplete
  · intro s hs
    rw [← Option.some.inj hs]
    exact agrees_of_builtFor hbuilt hstate

structure StoredWork where
  states : StoredStates
  sessions : TreeMap String OrderRunSession

namespace StoredWork

def Agrees (work : StoredWork) : Prop :=
  ∀ orderId : String, SessionAgrees work.sessions[orderId]? (parsedQueueStates work.states)[orderId]?

section
variable (work : StoredWork) (orderId : String)

/-- `active_order_run_session`. -/
def activeSession : Option OrderRunSession :=
  work.sessions[trim orderId]?.filter fun session => session.status.isOpen

def commit (write : PreparedWrite) : StoredWork where
  states := write.states
  sessions :=
    match write.session with
    | some session => work.sessions.insert (trim orderId) session
    | none => work.sessions

theorem commit_session_self (write : PreparedWrite) :
    (work.commit orderId write).sessions[trim orderId]? =
      write.session.or work.sessions[trim orderId]? := by
  unfold commit
  cases write.session <;> simp

theorem commit_session_ne (write : PreparedWrite) {id : String} (hid : id≠trim orderId) :
    (work.commit orderId write).sessions[id]?=work.sessions[id]? := by
  unfold commit
  cases write.session with
  | none => rfl
  | some session => simp [TreeMap.getElem?_insert,hid.symm]

end

end StoredWork

namespace ProgressContext

def against (ctx : ProgressContext) (work : StoredWork) : ProgressContext :=
  { ctx with activeSession := work.activeSession ctx.orderId }

def execute (ctx : ProgressContext) (work : StoredWork) : Except ProductionMapError StoredWork := do
  let write ← (ctx.against work).prepareWithProgress work.states
  return work.commit ctx.orderId write

theorem execute_agrees {ctx : ProgressContext} {work next : StoredWork} (hwork : work.Agrees)
    (h : ctx.execute work=.ok next) : next.Agrees := by
  simp only [execute,bind_eq_ok] at h
  obtain ⟨write,hwrite,h⟩ := h
  rw [← Except.ok.inj h]
  intro orderId
  by_cases hid : orderId=trim ctx.orderId
  · rw [hid,StoredWork.commit_session_self]
    exact prepareWithProgress_agrees (ctx.against work) (hwork (trim ctx.orderId)) hwrite
  · have hstate : (parsedQueueStates write.states)[orderId]? =
        (parsedQueueStates work.states)[orderId]? := by
      simp only [prepareWithProgress,bind_eq_ok] at hwrite
      obtain ⟨-,-,states,hstates,written,-,hwrite⟩ := hwrite
      rw [← Except.ok.inj hwrite]
      exact (prepare_states hstates).2 orderId hid
    rw [StoredWork.commit_session_ne work ctx.orderId write hid]
    change SessionAgrees _ (parsedQueueStates write.states)[orderId]?
    rw [hstate]
    exact hwork orderId

end ProgressContext

/-- A session and a queue state that agree still agree in the write of every accepted request;
from agreeing work every run of requests, refused ones among them, reaches agreeing work. -/
theorem sessions_agree_with_queue :
    (∀ (ctx : ProgressContext) (work : StoredWork) (write : PreparedWrite),
      SessionAgrees work.sessions[trim ctx.orderId]?
        (parsedQueueStates work.states)[trim ctx.orderId]? →
      (ctx.against work).prepareWithProgress work.states=.ok write →
      SessionAgrees (write.session.or work.sessions[trim ctx.orderId]?)
        (parsedQueueStates write.states)[trim ctx.orderId]?) ∧
    (∀ (requests : List ProgressContext) (work : StoredWork), work.Agrees →
      (run execute work requests).Agrees) := by
  refine ⟨fun ctx work write hagrees h =>
    prepareWithProgress_agrees (ctx.against work) hagrees h,?_⟩
  intro requests work hwork
  exact run_invariant StoredWork.Agrees (fun _ ctx _ hagrees _ h => execute_agrees hagrees h) hwork
    (along_true execute work requests)

def shiftRequest (action : ApparatusQueueAction) : ProgressContext where
  toQueueActionContext := freePickRequest "a" action none 1
  actor := ⟨"aparatchi","worker","Worker"⟩
  now := 100
  isRezka := false
  hasReportedOutput := true
  completeSafeStopOutput := true
  recording := false
  recordedFrames := false
  progressChecks := .ok ()
  reported := ⟨[("last_uom", .string "kg")],by simp [progressSessionFields]⟩
  lineage := ⟨[],by simp⟩
  boundary := ⟨[],by simp⟩
  frameIssues := none
  eventId := "event"
  outputBatchId := some "roll"
  closingOutputBatchId := "roll"
  recordedPayload := .object []
  apparatus := "apparatus"
  startedSessionId := "session"
  startedStageNodeId := "stage"
  startedPayload := .object []
  resumeInput := .unnamed
  resumedPayload := .object []
  mergedPayload := .object []
  freezeRequestId := ""
  resumePauseAllowed := true
  checkpoint := none
  holdStage := "stage"
  stageControl := fun _ => .active

/-- Order `a` at the tail of the queue, its session laid aside. -/
def requeuedWork : StoredWork where
  states := TreeMap.ofList [("a", "pending")]
  sessions := TreeMap.ofList [("a", requeuedSessionOf "a")]

/-- The requeued order is resumed, and an order is started, paused, resumed and completed. -/
theorem sessions_agree_with_queue_shift : (∃ write : PreparedWrite,
      ((shiftRequest .resume).against requeuedWork).prepareWithProgress requeuedWork.states =
        .ok write ∧
      write.session.map OrderRunSession.status=some .active ∧
      SessionAgrees (write.session.or requeuedWork.sessions["a"]?)
        (parsedQueueStates write.states)["a"]?) ∧
    (run execute ⟨∅,∅⟩ (([.start,.pause,.resume,.complete] : List ApparatusQueueAction).map
      shiftRequest)).Agrees := by
  constructor
  · have hresult : ((((shiftRequest .resume).against requeuedWork).prepareWithProgress
        requeuedWork.states).toOption.map fun write =>
          write.session.map OrderRunSession.status)=some (some .active) := by
      decide +kernel
    obtain ⟨write,hwrite,hstatus⟩ := Option.map_eq_some_iff.mp hresult
    have haccepted := toOption_eq_some.mp hwrite
    have hrequeued : SessionAgrees requeuedWork.sessions["a"]?
        (parsedQueueStates requeuedWork.states)["a"]? := by
      have hsession : requeuedWork.sessions["a"]?=some (requeuedSessionOf "a") := by
        simp [requeuedWork]
      have hviolation : auditSessionState (requeuedSessionOf "a")
          (parsedQueueStates requeuedWork.states)["a"]?=none := by
        decide +kernel
      intro session hmem
      rw [hsession] at hmem
      rw [← Option.some.inj hmem]
      exact hviolation
    have horder : trim (shiftRequest .resume).orderId = "a" := by decide +kernel
    have hagrees := sessions_agree_with_queue.1 (shiftRequest .resume) requeuedWork write
    rw [horder] at hagrees
    exact ⟨write,haccepted,hstatus,hagrees hrequeued haccepted⟩
  · refine sessions_agree_with_queue.2 _ _ ?_
    intro orderId session hmem
    simp at hmem

end MiniErp.Queue
