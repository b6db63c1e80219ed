import MiniErp.Stage.Execution

/-! The frozen evaluator. It resolves the occurrence of every session anew for every operation and
asks the chain directly, where the evaluator in use resolves the sessions once and asks a
projection. What the two texts have in common is defined once. -/
namespace MiniErp.StageWorkReference
open Chain Memo Stage List

section
variable (map : ProductionMapDefinition)

def latestSession (stages candidates : List ChainStage)
    (latest : LatestSessions) (session : OrderRunSession) : LatestSessions :=
  if occurrenceIsAmbiguous stages session then latest
  else
    match workStageForStation map session.apparatus session.stageNodeId with
    | none => latest
    | some node => if isCandidate candidates node.nodeId then keepLatest latest session else latest

def latestSessions (stages : List ChainStage)
    (sessions : List OrderRunSession) (candidates : List ChainStage) : LatestSessions :=
  (sessions.filter fun session => session.orderId == map.id).foldl
    (latestSession map stages candidates) ∅

def inputIsHere (candidates : List ChainStage) (input : StageWorkInput) : Bool :=
  if input.targetNode != "" then isCandidate candidates input.targetNode
  else if input.sourceNode != "" then
    (nextWorkStagesForNode map input.sourceNode).any fun stage =>
      isCandidate candidates stage.nodeId
  else
    (input.targetApparatus != "" &&
        candidates.any fun stage => stage.apparatusId == some input.targetApparatus) ||
      (input.sourceApparatus != "" && candidates.any fun stage =>
          (previousWorkStageStations map (stage.apparatusId.getD "")).contains
            input.sourceApparatus)

def operation (stages : List ChainStage) (table : OperationTable)
    (sessions : List OrderRunSession) (inputs : List StageWorkInput) (states : ApparatusStates)
    (events : List ProductionStageLifecycleEvent) (key : String)
    (candidates : List ChainStage) : Operation :=
  let latest := latestSessions map stages sessions candidates
  { candidates
    done := operationDone map stages states events candidates latest
    reports := scanReports latest
    predecessors := predecessorKeys table key
      (candidates.flatMap fun candidate => previousWorkStagesForNode map candidate.nodeId)
    inputsHere := (inputs.filter (·.outstanding)).filter (inputIsHere map candidates) }

def physicalStages : List ChainStage := (linearWorkStages map).filter (·.apparatusId.isSome)

section
variable (sessions : List OrderRunSession) (inputs : List StageWorkInput) (states : ApparatusStates)
  (events : List ProductionStageLifecycleEvent)

def operations : List (String × Operation) :=
  let stages := physicalStages map
  let table := operationTable map stages
  table.candidates.toList.map fun entry =>
    (entry.1, operation map stages table sessions inputs states events entry.1 entry.2)

def stageWorkStatuses : List StageWorkStatus :=
  closeStatuses (operations map sessions inputs states events)

end

/-- The occurrence of a session, as both evaluators resolve it. -/
def sessionOccurrence (stages : List ChainStage)
    (session : OrderRunSession) : Option (OrderRunSession × String) :=
  if occurrenceIsAmbiguous stages session then none
  else (workStageForStation map session.apparatus session.stageNodeId).map fun node =>
    (session, node.nodeId)

/-- Resolving the sessions before the loop over the operations leaves the reduction as it was:
the order of the sessions is kept, so the first of two equal ones still stays. -/
theorem latestResolved_eq (stages candidates : List ChainStage)
    (sessions : List OrderRunSession) : latestResolved candidates
        ((sessions.filter fun session => session.orderId == map.id).filterMap
          (sessionOccurrence map stages)) =
      latestSessions map stages sessions candidates := by
  unfold latestResolved latestSessions
  rw [foldl_filter,foldl_filterMap]
  refine foldl_ext _ _ _ fun latest session _ => ?_
  unfold sessionOccurrence latestSession
  by_cases hambiguous : occurrenceIsAmbiguous stages session=true
  · rw [if_pos hambiguous,if_pos hambiguous]
  · rw [if_neg hambiguous,if_neg hambiguous]
    cases workStageForStation map session.apparatus session.stageNodeId with
    | none => rfl
    | some node => rfl

end

section Answers
variable {digest : ProductionMapDefinition → String} {map : ProductionMapDefinition}
  {cached : Bool} {Route : String → Except ProductionMapError Wip.WipInputRoute → Prop}

theorem answers_resolveSession (stages : List ChainStage) (session : OrderRunSession) :
    Answers (ProjectionMap.Sound digest map cached Route) (resolveSession stages session)
      (sessionOccurrence map stages session) := by
  unfold resolveSession sessionOccurrence
  split
  · exact answers_pure _
  · exact (ProjectionMap.answers_workStage _ _).bind (answers_pure _)

theorem answers_inputIsHere (candidates : List ChainStage) (input : StageWorkInput) :
    Answers (ProjectionMap.Sound digest map cached Route) (inputIsHereProjected candidates input)
      (inputIsHere map candidates input) := by
  unfold inputIsHereProjected inputIsHere
  split
  · exact answers_pure _
  · split
    · exact (ProjectionMap.answers_nextStages _).bind (answers_pure _)
    · split
      · rename_i htarget
        rw [htarget]
        exact answers_pure _
      · rename_i htarget
        rw [Bool.eq_false_iff.mpr htarget]
        by_cases hsource : input.sourceApparatus = ""
        · simp only [hsource]
          exact answers_pure _
        · have hne : (input.sourceApparatus != "")=true := bne_iff_ne.mpr hsource
          rw [if_neg (by simpa using hsource),hne]
          exact answers_anyM fun stage _ =>
            (ProjectionMap.answers_previousStations _).bind (answers_pure _)

theorem answers_operation {stages : List ChainStage} {table : OperationTable}
    {resolved : List (OrderRunSession × String)} {sessions : List OrderRunSession}
    (inputs : List StageWorkInput) (states : ApparatusStates)
    (events : List ProductionStageLifecycleEvent) (key : String) {candidates : List ChainStage}
    (hlatest : latestResolved candidates resolved=latestSessions map stages sessions candidates) :
    Answers (ProjectionMap.Sound digest map cached Route)
      (operationProjected map stages table resolved inputs states events (key, candidates))
      (key, operation map stages table sessions inputs states events key candidates) := by
  simp only [operationProjected,operation,hlatest,flatMap_def]
  refine (answers_mapM fun candidate _ => ProjectionMap.answers_previousStages _).bind ?_
  refine Answers.bind (answers_filterMapM fun input _ =>
    (answers_inputIsHere candidates input).bind (answers_pure _)) ?_
  rw [← filterMap_eq_filter (p := inputIsHere map candidates)]
  exact answers_pure _

theorem answers_resolvedSessions (stages : List ChainStage) (table : OperationTable)
    (sessions : List OrderRunSession) : Answers (ProjectionMap.Sound digest map cached Route)
      (resolvedSessions map stages table sessions)
      (if table.candidates.isEmpty then []
        else (sessions.filter fun session => session.orderId == map.id).filterMap
          (sessionOccurrence map stages)) := by
  unfold resolvedSessions
  split
  · exact answers_pure _
  · exact answers_filterMapM fun session _ => answers_resolveSession stages session

section
variable (sessions : List OrderRunSession) (inputs : List StageWorkInput) (states : ApparatusStates)
  (events : List ProductionStageLifecycleEvent)

/-- On every sound projection the evaluator in use finds what the frozen one finds. -/
theorem answers_stageOperationsProjected : Answers (ProjectionMap.Sound digest map cached Route)
      (stageOperationsProjected sessions inputs states events)
      (operations map sessions inputs states events) := by
  refine ProjectionMap.answers_currentMap.bind (ProjectionMap.answers_stages.bind ?_)
  refine (answers_resolvedSessions _ _ sessions).bind ?_
  refine answers_mapM fun entry hentry => ?_
  refine answers_operation inputs states events entry.1 ?_
  have hsome : ¬(operationTable map (physicalStages map)).candidates.isEmpty=true := by
    rw [← Std.TreeMap.isEmpty_toList,List.isEmpty_iff]
    exact ne_nil_of_mem hentry
  rw [← latestResolved_eq]
  exact congrArg _ (if_neg hsome)

theorem answers_stageWorkStatusesProjected : Answers (ProjectionMap.Sound digest map cached Route)
      (stageWorkStatusesProjected sessions inputs states events)
      (stageWorkStatuses map sessions inputs states events) :=
  (answers_stageOperationsProjected sessions inputs states events).bind (answers_pure _)

end

end Answers

theorem stageOperations_eq (map : ProductionMapDefinition) (sessions : List OrderRunSession)
    (inputs : List StageWorkInput) (states : ApparatusStates)
    (events : List ProductionStageLifecycleEvent) :
    stageOperations map sessions inputs states events =
      operations map sessions inputs states events := by
  -- neither the fingerprint nor the cached routes matter to the evaluator
  have hsound : ProjectionMap.Sound (fun _ => "") map false (fun _ _ => True)
      (ProjectionMap.reference map) := ProjectionMap.sound_reference
  exact (answers_stageOperationsProjected sessions inputs states events _ hsound).1

/-- The evaluator that resolves the topology of the sessions once returns the statuses of the
frozen one, for all sessions, inputs, queue states and events. -/
theorem stageWorkStatuses_eq_frozen (map : ProductionMapDefinition)
    (sessions : List OrderRunSession) (inputs : List StageWorkInput) (states : ApparatusStates)
    (events : List ProductionStageLifecycleEvent) :
    Stage.stageWorkStatuses map sessions inputs states events =
      stageWorkStatuses map sessions inputs states events :=
  congrArg closeStatuses (stageOperations_eq map sessions inputs states events)

end MiniErp.StageWorkReference
