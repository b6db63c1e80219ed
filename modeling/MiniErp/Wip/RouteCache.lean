import MiniErp.Wip.Route

/-! The route cache of a projection. Batches are classed by everything the resolver reads of
them, serialised; a cached projection answers every query as the reference projection does. -/
namespace MiniErp.Wip
open Text Chain Memo

def maxRouteClasses : Nat := 256
def maxRouteKeyBytes : Nat := 4096

/-- The tuple that is serialised: session identities only as whether they are given. -/
def routeKey (batch : OrderProgressBatch) : Json :=
  .array
    [.string (trim batch.orderId),.bool batch.action.recordsProgressOutput,
      .string batch.wipStatus.asStr,.string (trim batch.apparatus),
      .string (trim batch.nextApparatus),.string (trim batch.currentApparatus),
      .string (trim batch.usedByApparatus),.bool (!isBlank batch.usedBySessionId),
      .string (trim batch.processedByApparatus),.bool (!isBlank batch.processedBySessionId),
      .string (batch.field "stage_node_id"),.string (batch.field "next_stage_node_id"),
      .bool (batch.payloadJson.get "wip_route_binding").isSome,
      (batch.payloadJson.get "wip_route_binding").getD .null]

/-- Oversized keys are not cached. -/
def routeClass (batch : OrderProgressBatch) : Option String :=
  let text := (routeKey batch).write
  if text.utf8ByteSize ≤ maxRouteKeyBytes then some text else none

/-- The route of a batch: computed anew by the reference projection and for an oversized key,
and memoised while there is room for another class. -/
def route (digest : ProductionMapDefinition → String) (batch : OrderProgressBatch) :
    StateM ProjectionMap (Except ProductionMapError WipInputRoute) := do
  let compute := (resolveWipInputRouteProjected digest batch).run
  if !(← ProjectionMap.isCached) then compute
  else
    match routeClass batch with
    | none => compute
    | some key =>
      memoize (fun p => p.cachedRoutes.lookup key)
        (fun value p =>
          if p.cachedRoutes.length < maxRouteClasses then
            { p with cachedRoutes := (key, value)::p.cachedRoutes }
          else p)
        compute

/-- Two batches agree on everything the resolver reads. -/
structure SameRouteData (a b : OrderProgressBatch) : Prop where
  orderId : trim a.orderId=trim b.orderId
  recordsOutput : a.action.recordsProgressOutput=b.action.recordsProgressOutput
  wipStatus : a.wipStatus=b.wipStatus
  apparatus : trim a.apparatus=trim b.apparatus
  nextApparatus : trim a.nextApparatus=trim b.nextApparatus
  currentApparatus : trim a.currentApparatus=trim b.currentApparatus
  usedByApparatus : trim a.usedByApparatus=trim b.usedByApparatus
  usedBySession : isBlank a.usedBySessionId=isBlank b.usedBySessionId
  processedByApparatus : trim a.processedByApparatus=trim b.processedByApparatus
  processedBySession : isBlank a.processedBySessionId=isBlank b.processedBySessionId
  stageNodeId : a.field "stage_node_id" = b.field "stage_node_id"
  nextStageNodeId : a.field "next_stage_node_id" = b.field "next_stage_node_id"
  binding : a.payloadJson.get "wip_route_binding" = b.payloadJson.get "wip_route_binding"

theorem OrderProgressBatchWipStatus.asStr_injective :
    Function.Injective OrderProgressBatchWipStatus.asStr := by
  intro a b h
  cases a <;> cases b <;> first | rfl | exact absurd h (by decide)

theorem option_eq_of_getD {α : Type} {x y : Option α} {d : α} (hsome : x.isSome=y.isSome)
    (hvalue : x.getD d=y.getD d) : x=y := by
  cases x <;> cases y <;> simp_all

/-- The class of a batch determines everything the resolver reads of it. -/
theorem sameRouteData_of_routeClass {a b : OrderProgressBatch} {key : String}
    (ha : routeClass a=some key) (hb : routeClass b=some key) : SameRouteData a b := by
  have hkey {batch : OrderProgressBatch} (h : routeClass batch=some key) :
      (routeKey batch).write=key := by
    simp only [routeClass] at h
    split at h
    · exact Option.some.inj h
    · cases h
  have heq : routeKey a=routeKey b := Json.write_injective ((hkey ha).trans (hkey hb).symm)
  simp only [routeKey,Json.array.injEq,List.cons.injEq,Json.string.injEq,Json.bool.injEq,
    Bool.not_inj_iff,and_true] at heq
  obtain ⟨h1,h2,h3,h4,h5,h6,h7,h8,h9,h10,h11,h12,h13,h14⟩ := heq
  exact ⟨h1,h2,OrderProgressBatchWipStatus.asStr_injective h3,h4,h5,h6,h7,h8,h9,h10,
    h11,h12,option_eq_of_getD h13 h14⟩

theorem matchesApparatus_congr {left right : String} (htrim : trim left=trim right)
    (id : Option String) : matchesApparatus id left=matchesApparatus id right := by
  simp only [matchesApparatus,apparatusIdsMatch,htrim]

section Congruence
variable {a b : OrderProgressBatch} (h : SameRouteData a b) (map : ProductionMapDefinition)
  (stages : List ChainStage) (request : RouteRequest)
include h

theorem routeRequest_congr : routeRequest map a=routeRequest map b := by
  simp only [routeRequest,routeBinding,h.orderId,h.recordsOutput,h.stageNodeId,
    h.nextStageNodeId,h.binding]

theorem legacyCanonicalRoute_congr :
    request.legacyCanonicalRoute a=request.legacyCanonicalRoute b := by
  simp only [RouteRequest.legacyCanonicalRoute,isBlank,h.nextApparatus]

theorem actionableWip_congr : a.actionableWip=b.actionableWip := by
  simp only [OrderProgressBatch.actionableWip,h.wipStatus,h.recordsOutput,h.usedBySession,
    h.processedBySession]
  simp only [isBlank,h.usedByApparatus,h.processedByApparatus]

theorem checkLegacyRoute_congr :
    checkLegacyRoute stages a request=checkLegacyRoute stages b request := by
  simp only [checkLegacyRoute,legacyCanonicalRoute_congr h,matchesApparatus_congr h.nextApparatus]

theorem possibleSourcesOf_congr :
    possibleSourcesOf map a request=possibleSourcesOf map b request := by
  simp only [possibleSourcesOf,checkInference,isBlank,h.nextApparatus]

theorem routeSource_congr (possible : List ChainStage) :
    routeSource map stages a request possible=routeSource map stages b request possible := by
  simp only [routeSource,findSource,sourceIds,matchesApparatus_congr h.apparatus]

theorem openTarget_congr (groups : SuccessorGroups) :
    openTarget stages a request groups=openTarget stages b request groups := by
  simp only [openTarget,matchingMembers,actionableWip_congr h,legacyCanonicalRoute_congr h,
    matchesApparatus_congr h.nextApparatus,isBlank,h.nextApparatus]
  rfl

theorem routeChoice_congr (groups : SuccessorGroups) :
    routeChoice map stages a request groups=routeChoice map stages b request groups := by
  simp only [routeChoice,destination,heldTarget,checkMachines,matchingMembers,
    openTarget_congr h,legacyCanonicalRoute_congr h,h.wipStatus,
    matchesApparatus_congr h.usedByApparatus,matchesApparatus_congr h.nextApparatus,
    isBlank,h.usedByApparatus,h.currentApparatus,h.nextApparatus]
  rfl

/-- Non-interference: the route is a function of what the class keeps. -/
theorem resolvedRoute_congr (digest : ProductionMapDefinition → String) :
    resolvedRoute digest map a=resolvedRoute digest map b := by
  simp only [resolvedRoute,routeRequest_congr h,checkLegacyRoute_congr h,
    possibleSourcesOf_congr h,routeSource_congr h,routeChoice_congr h]

end Congruence

/-- What a cached route is: the route of every batch of the class. -/
def CachedRoute (digest : ProductionMapDefinition → String) (map : ProductionMapDefinition)
    (key : String) (value : Except ProductionMapError WipInputRoute) : Prop :=
  ∀ batch, routeClass batch=some key → value=resolvedRoute digest map batch

section Answers
variable {digest : ProductionMapDefinition → String} {map : ProductionMapDefinition} {cached : Bool}

theorem answers_memoizedRoute {batch : OrderProgressBatch} {key : String}
    (hkey : routeClass batch=some key) :
    Answers (ProjectionMap.Sound digest map cached (CachedRoute digest map))
      (memoize (fun p => p.cachedRoutes.lookup key)
        (fun value p =>
          if p.cachedRoutes.length < maxRouteClasses then
            { p with cachedRoutes := (key, value)::p.cachedRoutes }
          else p)
        (resolveWipInputRouteProjected digest batch).run)
      (resolvedRoute digest map batch) := by
  refine Answers.memoize ?_ ?_ (answers_resolveWipInputRouteProjected batch)
  · exact fun p hp value h => hp.routes key value h batch hkey
  · intro p hp
    split
    · refine { hp with routes := fun other value h => ?_ }
      by_cases hother : other=key
      · subst hother
        simp only [List.lookup_cons,beq_self_eq_true,Option.some.injEq] at h
        subst h
        -- the entry was computed for one batch of the class and serves all of them
        intro peer hpeer
        exact resolvedRoute_congr (sameRouteData_of_routeClass hkey hpeer) map digest
      · simp only [List.lookup_cons,beq_eq_false_iff_ne.mpr hother] at h
        exact hp.routes other value h
    · exact hp

theorem answers_route (batch : OrderProgressBatch) :
    Answers (ProjectionMap.Sound digest map cached (CachedRoute digest map))
      (route digest batch) (resolvedRoute digest map batch) := by
  refine ProjectionMap.answers_isCached.bind ?_
  split
  · exact answers_resolveWipInputRouteProjected batch
  · split
    · exact answers_resolveWipInputRouteProjected batch
    · rename_i key hkey
      exact answers_memoizedRoute hkey

end Answers

/-- The read queries of a projection. -/
inductive ProjectionQuery where
  | stages
  | workStage (station node : String)
  | previousStages (node : String)
  | nextStages (node : String)
  | previousStations (station : String)
  | previousUnavailable (station : String)
  | readyForStage (orderId node : String) (states : ApparatusStates)
  | fingerprint
  | route (batch : OrderProgressBatch)

inductive ProjectionAnswer where
  | stages (stages : List ChainStage)
  | stage (stage : Option ChainStage)
  | stations (stations : List String)
  | flag (flag : Bool)
  | fingerprint (text : String)
  | route (route : Except ProductionMapError WipInputRoute)

section
variable (digest : ProductionMapDefinition → String)

def ask : ProjectionQuery → StateM ProjectionMap ProjectionAnswer
  | .stages => do return .stages (← ProjectionMap.stages)
  | .workStage station node => do return .stage (← ProjectionMap.workStage station node)
  | .previousStages node => do return .stages (← ProjectionMap.previousStages node)
  | .nextStages node => do return .stages (← ProjectionMap.nextStages node)
  | .previousStations station => do return .stations (← ProjectionMap.previousStations station)
  | .previousUnavailable station => do return .flag (← ProjectionMap.previousUnavailable station)
  | .readyForStage orderId node states => do
    return .flag (← ProjectionMap.readyForStage orderId node states)
  | .fingerprint => do return .fingerprint (← ProjectionMap.fingerprint digest)
  | .route batch => do return .route (← Wip.route digest batch)

def answer (map : ProductionMapDefinition) : ProjectionQuery → ProjectionAnswer
  | .stages => .stages (linearWorkStages map)
  | .workStage station node => .stage (workStageForStation map station node)
  | .previousStages node => .stages (previousWorkStagesForNode map node)
  | .nextStages node => .stages (nextWorkStagesForNode map node)
  | .previousStations station => .stations (previousWorkStageStations map station)
  | .previousUnavailable station => .flag (previousStageResolutionIsUnavailable map station)
  | .readyForStage orderId node states => .flag (orderReadyForStageNode map orderId node states)
  | .fingerprint => .fingerprint (digest map)
  | .route batch => .route (resolvedRoute digest map batch)

theorem answers_ask (map : ProductionMapDefinition)
    (cached : Bool) (query : ProjectionQuery) :
    Answers (ProjectionMap.Sound digest map cached (CachedRoute digest map)) (ask digest query)
      (answer digest map query) := by
  cases query with
  | stages => exact ProjectionMap.answers_stages.bind (answers_pure _)
  | workStage station node =>
    exact (ProjectionMap.answers_workStage station node).bind (answers_pure _)
  | previousStages node => exact (ProjectionMap.answers_previousStages node).bind (answers_pure _)
  | nextStages node => exact (ProjectionMap.answers_nextStages node).bind (answers_pure _)
  | previousStations station =>
    exact (ProjectionMap.answers_previousStations station).bind (answers_pure _)
  | previousUnavailable station =>
    exact (ProjectionMap.answers_previousUnavailable station).bind (answers_pure _)
  | readyForStage orderId node states =>
    exact (ProjectionMap.answers_readyForStage orderId node states).bind (answers_pure _)
  | fingerprint => exact ProjectionMap.answers_fingerprint.bind (answers_pure _)
  | route batch => exact (answers_route batch).bind (answers_pure _)

end

/-- A cached projection answers every query of every sequence of queries as a fresh reference
projection of the map does, and the class of a batch determines its route. -/
theorem cached_projection_answers_as_reference (digest : ProductionMapDefinition → String)
    (map : ProductionMapDefinition) : (∀ queries : List ProjectionQuery,
      ((queries.mapM (ask digest)).run (ProjectionMap.new map)).1 =
        queries.map fun query => ((ask digest query).run (ProjectionMap.reference map)).1) ∧
    ∀ (a b : OrderProgressBatch) (key : String), routeClass a=some key → routeClass b=some key →
        resolveWipInputRoute digest map a=resolveWipInputRoute digest map b := by
  constructor
  · intro queries
    rw [(answers_mapM (fun query _ => answers_ask digest map true query) _
      ProjectionMap.sound_new).1]
    refine List.map_congr_left fun query _ => ?_
    exact ((answers_ask digest map false query) _ ProjectionMap.sound_reference).1.symm
  · intro a b key ha hb
    rw [resolveWipInputRoute_eq,resolveWipInputRoute_eq]
    exact resolvedRoute_congr (sameRouteData_of_routeClass ha hb) map digest

theorem cached_projection_answers_as_reference_rolls :
    ((([.stages,.route printedRoll,.route printedRoll] : List ProjectionQuery).mapM
      (ask fun map => map.id)).run (ProjectionMap.new pressThenLaminator)).1 =
        [.stages,.route printedRoll,.route printedRoll].map (fun query =>
          ((ask (fun map => map.id) query).run (ProjectionMap.reference pressThenLaminator)).1) ∧
    resolveWipInputRoute (fun map => map.id) pressThenLaminator printedRoll =
      resolveWipInputRoute (fun map => map.id) pressThenLaminator
        { printedRoll with sessionId := "session-2", currentLocation := "shelf" } :=
  ⟨(cached_projection_answers_as_reference _ _).1 _,
    (cached_projection_answers_as_reference _ _).2 _ _ (routeKey printedRoll).write
      (by decide +kernel) (by decide +kernel)⟩

end MiniErp.Wip
