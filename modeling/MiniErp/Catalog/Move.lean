import MiniErp.Catalog.OrderStore

/-! Moving orders to another machine: one order with the checks of an ordinary save, or several at
once. The two agree on an order exactly when a save would leave the moved map as it is. -/
namespace MiniErp.Catalog
open Text Run Queue Wip Compiler Std

def baseApparatusId (node : ProductionMapNode) : Option ApparatusId :=
  ApparatusId.new (trim node.apparatusId)

section Reassign
variable (map : ProductionMapDefinition) (source target : ApparatusId)

def runsOn (node : ProductionMapNode) : Bool :=
  node.kind == .apparatus && canonicalApparatusId node == some source

def sourceGroups : List String :=
  ((map.nodes.filter (runsOn source)).map fun node => trim node.alternativeGroupId).filter (· != "")

/-- The member of a group that stands for the target machine. -/
def targetMember (groups : List String) (node : ProductionMapNode) : Bool :=
  node.kind == .apparatus && groups.contains (trim node.alternativeGroupId) &&
    baseApparatusId node == some target

def moveAllowedById : Bool :=
  let groups := sourceGroups map source
  source != target && map.nodes.any (runsOn source) &&
    (groups.isEmpty || map.nodes.any (targetMember target groups))

def assignMember (groups : List String) (title : Option String) (node : ProductionMapNode) :
    ProductionMapNode :=
  if node.kind == .apparatus && groups.contains (trim node.alternativeGroupId) then
    { node with
      alternativeAssignedApparatusId := target.value
      alternativeAssignedTitle := title.getD node.alternativeAssignedTitle }
  else node

/-- `none`: no group runs on the source machine. -/
def reassignAlternativeApparatusAssignmentById : Option ProductionMapDefinition :=
  let groups := sourceGroups map source
  if groups.isEmpty then none
  else
    let title := (map.nodes.find? (targetMember target groups)).map fun node => trim node.title
    some { map with nodes := map.nodes.map (assignMember target groups title) }

def reassignable (node : ProductionMapNode) : Bool :=
  runsOn source node && isBlank node.alternativeGroupId

/-- `none`: no single node runs on the source machine. -/
def reassignApparatusNodesById : Option ProductionMapDefinition :=
  if map.nodes.any (reassignable source) then
    some { map with
      nodes := map.nodes.map fun node =>
        if reassignable source node then { node with apparatusId := target.value } else node }
  else none

end Reassign

structure ProductionMapMoveRequest where
  mapId : String
  fromApparatus : String
  toApparatus : String

structure ProductionMapBatchMoveRequest where
  mapIds : List String
  fromApparatus : String
  toApparatus : String

structure MovePair where
  sourceId : ApparatusId
  targetId : ApparatusId
  source : RuntimeApparatusConfiguration
  target : RuntimeApparatusConfiguration
  deriving DecidableEq

def printCompatibilityWidthMm (map : ProductionMapDefinition) : Option F64 :=
  map.printValSizeMm.or map.widthMm

def calculationMapChanged (before after : ProductionMapDefinition) : Bool :=
  !(sameProducts before.products after.products && before.productCode == after.productCode &&
    before.title == after.title && before.customerName == after.customerName &&
    before.rollCount == after.rollCount && F64.optionEq before.widthMm after.widthMm &&
    F64.optionEq before.printValSizeMm after.printValSizeMm &&
    F64.optionEq before.orderKg after.orderKg && F64.optionEq before.baseLength after.baseLength)

/-- The numbers of an opened order cannot change. -/
def calculationLocked (store : OrderStore) (next : ProductionMapDefinition) : Bool :=
  !"template-".toList.isPrefixOf next.id.toList &&
    (store.mapList.find? fun map => map.id == next.id).any fun previous =>
      !isBlank previous.orderNumber && calculationMapChanged previous next

def ensureNormalMapMoveIsPending (store : OrderStore) (orderId : String)
    (apparatus : ApparatusId) : Except ProductionMapError Unit := do
  let orderId := trim orderId
  ensure (!store.printPreflightHolds.any fun hold =>
      hold.status.reservesApparatus && trim hold.orderId == orderId &&
        apparatusIdsMatch hold.apparatus apparatus.value)
    .printPreflightActive
  ensure (!store.queueStates.toList.any fun entry =>
      apparatusIdsMatch entry.1 apparatus.value &&
        (entry.2[orderId]?.bind ApparatusQueueOrderState.parse).any (· != .pending))
    .startedOrderMoveRequiresTransfer
  ensure (store.activeOrderRunSession apparatus orderId).isNone .startedOrderMoveRequiresTransfer

def movePair (resolver : ApparatusResolver) (source target : String) :
    Except ProductionMapError MovePair :=
  match ApparatusId.new source, ApparatusId.new target with
  | some sourceId, some targetId => do
    let source ← resolver.resolveCanonicalApparatus sourceId
    let target ← resolver.resolveCanonicalApparatus targetId
    ensure (Pechat.rerouteCompatible source target) .moveNotAllowed
    return { sourceId, targetId, source, target }
  | _, _ => .error .moveNotAllowed

def OrderStore.movedFrom (store : OrderStore) (mapId : String) : Option ProductionMapDefinition :=
  store.mapList.find? fun map => trim map.id == mapId

/-- What both entry points do with one order. -/
def moveMap (store : OrderStore) (pair : MovePair) (mapId : String) :
    Except ProductionMapError ProductionMapDefinition :=
  match store.movedFrom mapId with
  | none => .error .mapNotFound
  | some map => do
    ensure (moveAllowedById map pair.sourceId pair.targetId &&
        Pechat.rerouteOrderCompatible map.rollCount (printCompatibilityWidthMm map) pair.source
          pair.target)
      .moveNotAllowed
    ensureNormalMapMoveIsPending store mapId pair.sourceId
    match (reassignAlternativeApparatusAssignmentById map pair.sourceId pair.targetId).or
        (reassignApparatusNodesById map pair.sourceId pair.targetId) with
    | none => .error .moveNotAllowed
    | some next => .ok next

section Moves
variable (rules : CompilerRules) (digest : ProductionMapDefinition → String)
  (resolver : ApparatusResolver) (store : OrderStore)

def saveCompiled (map : ProductionMapDefinition) :
    Except ProductionMapError ProductionMapSaved := do
  return { map, program := ← compileMap rules map }

def moveApparatusBatch (input : ProductionMapBatchMoveRequest) :
    Except ProductionMapError (List ProductionMapSaved × OrderStore) := do
  let source := trim input.fromApparatus
  let target := trim input.toApparatus
  ensure (!(source == "" || target == "" || eqIgnoreAsciiCase source target)) .moveNotAllowed
  let mapIds := ((input.mapIds.map normalizeId).filter (· != "")).eraseDups
  ensure (!mapIds.isEmpty) .missingId
  let pair ← movePair resolver source target
  let updated ← mapIds.mapM (moveMap store pair)
  let saved ← updated.mapM (saveCompiled rules)
  let store ← persistPendingMoveMaps resolver store (saved.map (·.map)) pair.sourceId.value
    pair.targetId.value
  return (saved, store)

def moveApparatus (input : ProductionMapMoveRequest) :
    Except ProductionMapError (ProductionMapSaved × OrderStore) := do
  let mapId := normalizeId input.mapId
  let source := trim input.fromApparatus
  let target := trim input.toApparatus
  ensure (mapId != "") .missingId
  ensure (!(target == "" || eqIgnoreAsciiCase source target)) .moveNotAllowed
  let pair ← movePair resolver source target
  let next ← moveMap store pair mapId
  ensure (!calculationLocked store next) .openedOrderCalculationLocked
  let saved ← prepareMap rules digest resolver store.catalog next false
  let store ← persistPendingMoveMaps resolver store [saved.map] pair.sourceId.value
    pair.targetId.value
  return (saved, store)

end Moves

/-- A request that passes the checks both entry points make, with the map it moves to. -/
structure Admitted (resolver : ApparatusResolver) (store : OrderStore)
    (input : ProductionMapMoveRequest) (pair : MovePair) (next : ProductionMapDefinition) :
    Prop where
  named : normalizeId input.mapId ≠ ""
  apart : eqIgnoreAsciiCase (trim input.fromApparatus) (trim input.toApparatus)=false
  machines : movePair resolver (trim input.fromApparatus) (trim input.toApparatus)=.ok pair
  moved : moveMap store pair (normalizeId input.mapId)=.ok next

def ProductionMapMoveRequest.alone (input : ProductionMapMoveRequest) :
    ProductionMapBatchMoveRequest :=
  ⟨[input.mapId],input.fromApparatus,input.toApparatus⟩

section Agreement
variable {rules : CompilerRules} {digest : ProductionMapDefinition → String}
  {resolver : ApparatusResolver} {store : OrderStore} {input : ProductionMapMoveRequest}

variable {pair : MovePair} {after : OrderStore} {saved : ProductionMapSaved}
  {next : ProductionMapDefinition}

theorem movePair_ne_empty {source target : String}
    (h : movePair resolver source target=.ok pair) : source ≠ "" ∧ target ≠ "" := by
  have hnonempty : ∀ {text : String} {id : ApparatusId}, ApparatusId.new text=some id →
      text ≠ "" := by
    intro text id hnew
    unfold ApparatusId.new at hnew
    split at hnew
    · rename_i hvalid
      exact ApparatusId.ne_empty hvalid
    · cases hnew
  unfold movePair at h
  split at h
  · rename_i hsource htarget
    exact ⟨hnonempty hsource,hnonempty htarget⟩
  · cases h

theorem moveApparatus_eq_ok : moveApparatus rules digest resolver store input=.ok (saved, after) ↔
      ∃ pair next, Admitted resolver store input pair next ∧ calculationLocked store next=false ∧
        prepareMap rules digest resolver store.catalog next false=.ok saved ∧
        persistPendingMoveMaps resolver store [saved.map] pair.sourceId.value
          pair.targetId.value=.ok after := by
  simp only [moveApparatus,bind_eq_ok,ensure_eq_ok,bne_iff_ne,Bool.not_eq_true',
    Bool.or_eq_false_iff,beq_eq_false_iff_ne]
  constructor
  · intro h
    obtain ⟨_,hnamed,_,⟨_,hapart⟩,pair,hpair,next,hnext,_,hlock,prepared,hprepared,
      stored,hstored,hresult⟩ := h
    cases hresult
    exact ⟨pair,next,⟨hnamed,hapart,hpair,hnext⟩,hlock,hprepared,hstored⟩
  · intro h
    obtain ⟨pair,next,hadmitted,hlock,hprepared,hstored⟩ := h
    exact ⟨(),hadmitted.named,(),⟨(movePair_ne_empty hadmitted.machines).2,hadmitted.apart⟩,
      pair,hadmitted.machines,next,hadmitted.moved,(),hlock,saved,hprepared,after,hstored,rfl⟩

theorem saveCompiled_eq_ok {map : ProductionMapDefinition} : saveCompiled rules map=.ok saved ↔
      ∃ program, compileMap rules map=.ok program ∧ saved=⟨map,program⟩ := by
  simp only [saveCompiled,bind_eq_ok]
  constructor
  · intro h
    obtain ⟨program,hcompile,hsaved⟩ := h
    exact ⟨program,hcompile,(Except.ok.inj hsaved).symm⟩
  · intro h
    obtain ⟨program,hcompile,hsaved⟩ := h
    exact ⟨program,hcompile,congrArg Except.ok hsaved.symm⟩

theorem batchIds_alone {id : String} (h : normalizeId id ≠ "") :
    (([id].map normalizeId).filter (· != "")).eraseDups=[normalizeId id] := by
  have hfilter : ([id].map normalizeId).filter (· != "")=[normalizeId id] := by simp [h]
  rw [hfilter]
  rfl

theorem moveApparatusBatch_alone_eq_ok {saved : List ProductionMapSaved} :
    moveApparatusBatch rules resolver store input.alone=.ok (saved, after) ↔
      ∃ pair next program, Admitted resolver store input pair next ∧
        compileMap rules next=.ok program ∧ saved=[⟨next,program⟩] ∧
        persistPendingMoveMaps resolver store [next] pair.sourceId.value
          pair.targetId.value=.ok after := by
  simp only [moveApparatusBatch,ProductionMapMoveRequest.alone,bind_eq_ok,ensure_eq_ok,
    Bool.not_eq_true',Bool.or_eq_false_iff,beq_eq_false_iff_ne]
  constructor
  · intro h
    obtain ⟨_,⟨_,hapart⟩,_,hnamed,pair,hpair,updated,hupdated,all,hall,stored,hstored,hresult⟩ := h
    have hid : normalizeId input.mapId ≠ "" := by
      intro hempty
      simp [hempty] at hnamed
    have hids := batchIds_alone hid
    rw [hids,mapM_singleton_eq_ok] at hupdated
    obtain ⟨next,hnext,rfl⟩ := hupdated
    rw [mapM_singleton_eq_ok] at hall
    obtain ⟨only,honly,rfl⟩ := hall
    obtain ⟨program,hcompile,rfl⟩ := saveCompiled_eq_ok.mp honly
    cases hresult
    exact ⟨pair,next,program,⟨hid,hapart,hpair,hnext⟩,hcompile,rfl,hstored⟩
  · intro h
    obtain ⟨pair,next,program,hadmitted,hcompile,rfl,hstored⟩ := h
    have hids := batchIds_alone hadmitted.named
    obtain ⟨hsource,htarget⟩ := movePair_ne_empty hadmitted.machines
    refine ⟨(),⟨⟨hsource,htarget⟩,hadmitted.apart⟩,(),by rw [hids]; rfl,pair,
      hadmitted.machines,[next],?_,[⟨next,program⟩],?_,after,hstored,rfl⟩
    · rw [hids,mapM_singleton_eq_ok]
      exact ⟨next,hadmitted.moved,rfl⟩
    · rw [mapM_singleton_eq_ok]
      exact ⟨_,saveCompiled_eq_ok.mpr ⟨program,hcompile,rfl⟩,rfl⟩

theorem Admitted.unique {other : MovePair} {later : ProductionMapDefinition}
    (h : Admitted resolver store input pair next) (hother : Admitted resolver store input other later) :
    other=pair ∧ later=next := by
  have hpair : other=pair := Except.ok.inj (hother.machines.symm.trans h.machines)
  have hmoved := hother.moved
  rw [hpair,h.moved] at hmoved
  exact ⟨hpair,(Except.ok.inj hmoved).symm⟩

theorem id_of_moveMap {mapId : String} (h : moveMap store pair mapId=.ok next) : ∃ previous,
    store.movedFrom mapId=some previous ∧ next.id=previous.id := by
  rw [moveMap] at h
  cases hfound : store.movedFrom mapId with
  | none => rw [hfound] at h; cases h
  | some previous =>
    rw [hfound] at h
    simp only [bind_eq_ok] at h
    obtain ⟨_,_,_,_,hnext⟩ := h
    refine ⟨previous,rfl,?_⟩
    split at hnext
    · cases hnext
    · rename_i moved hmoved
      cases hnext
      rw [Option.or_eq_some_iff] at hmoved
      cases hmoved with
      | inl hgroup =>
        simp only [reassignAlternativeApparatusAssignmentById] at hgroup
        split at hgroup
        · cases hgroup
        · rw [← Option.some.inj hgroup]
      | inr hnode =>
        simp only [reassignApparatusNodesById] at hnode
        split at hnode
        · rw [← Option.some.inj hnode.2]
        · cases hnode.2

/-- The stored map that a save compares a moved map with is the one it was moved from. -/
theorem rawMap_of_admitted (h : Admitted resolver store input pair next) :
    store.catalog.rawMap next.id=store.movedFrom (normalizeId input.mapId) := by
  obtain ⟨previous,hfound,hid⟩ := id_of_moveMap h.moved
  have htrim : trim previous.id=normalizeId input.mapId := by simpa using List.find?_some hfound
  have hlower : trim (toAsciiLowercase (normalizeId input.mapId))=normalizeId input.mapId := by
    rw [normalizeId,toAsciiLowercase_idem,trim_toAsciiLowercase (trim_trim _)]
  rw [CatalogStore.rawMap,hid,htrim,CatalogStore.mapById,hlower]
  rfl

/-- The two entry points accept the same requests and then save the same. -/
def MovesAgree (rules : CompilerRules) (digest : ProductionMapDefinition → String)
    (resolver : ApparatusResolver) (store : OrderStore) (input : ProductionMapMoveRequest) : Prop :=
  ∀ saved after, moveApparatus rules digest resolver store input=.ok (saved, after) ↔
    moveApparatusBatch rules resolver store input.alone=.ok ([saved], after)

def KeepsRoutes (digest : ProductionMapDefinition → String) (store : OrderStore) (mapId : String)
    (next : ProductionMapDefinition) : Prop :=
  ∀ previous, store.movedFrom mapId=some previous →
    ∀ roll∈store.progressBatchesForOrder (trim previous.id), Outstanding roll →
      RouteResolves digest previous roll → RouteResolves digest next roll

theorem keepsRoutes_of_settled (hadmitted : Admitted resolver store input pair next)
    (hsettled : Settled digest resolver store.catalog next) :
    KeepsRoutes digest store (normalizeId input.mapId) next := by
  intro previous hfound roll hroll houtstanding hresolves
  have hraw : store.catalog.rawMap next.id=some previous :=
    (rawMap_of_admitted hadmitted).trans hfound
  have hroutes := validateMapWipRoutes_of_accepted hraw hsettled.started
  rw [OrderStore.progressBatchesForOrder_catalog] at hroutes
  exact routeResolves_of_validateMapWipRoutes hroutes hroll houtstanding hresolves

/-- What both entry points accept is a settled map. -/
theorem settled_of_both
    (hsingle : moveApparatus rules digest resolver store input=.ok (saved, after))
    (hbatch : moveApparatusBatch rules resolver store input.alone=.ok ([saved], after)) :
    ∃ pair, Admitted resolver store input pair saved.map ∧ calculationLocked store saved.map=false ∧
      Settled digest resolver store.catalog saved.map := by
  obtain ⟨pair,next,hadmitted,hlock,hprepared,_⟩ := moveApparatus_eq_ok.mp hsingle
  obtain ⟨other,later,program,hother,_,hsaved,_⟩ := moveApparatusBatch_alone_eq_ok.mp hbatch
  obtain ⟨_,hnext⟩ := hadmitted.unique hother
  rw [hnext] at hsaved
  have hsaved := (List.cons.inj hsaved).1
  rw [hsaved] at hprepared ⊢
  exact ⟨pair,hadmitted,hlock,settled_of_prepareMap hprepared⟩

/-- The single move of an admitted request whose moved map is settled is the batch move. -/
theorem moveApparatus_iff_of_settled (hadmitted : Admitted resolver store input pair next)
    (hlock : calculationLocked store next=false)
    (hsettled : Settled digest resolver store.catalog next) (saved : ProductionMapSaved)
    (after : OrderStore) : moveApparatus rules digest resolver store input=.ok (saved, after) ↔
      moveApparatusBatch rules resolver store input.alone=.ok ([saved], after) := by
  rw [moveApparatus_eq_ok,moveApparatusBatch_alone_eq_ok]
  constructor
  · intro h
    obtain ⟨other,later,hother,_,hprepared,hstored⟩ := h
    obtain ⟨rfl,rfl⟩ := hadmitted.unique hother
    obtain ⟨program,hcompile⟩ := compile_of_prepareMap hprepared
    rw [hsettled.normal] at hcompile
    rw [prepareMap_eq_self_iff.mpr ⟨hcompile,hsettled⟩] at hprepared
    cases hprepared
    exact ⟨other,later,program,hadmitted,hcompile,rfl,hstored⟩
  · intro h
    obtain ⟨other,later,program,hother,hcompile,hsaved,hstored⟩ := h
    obtain ⟨rfl,rfl⟩ := hadmitted.unique hother
    cases hsaved
    exact ⟨other,later,hadmitted,hlock,prepareMap_eq_self_iff.mpr ⟨hcompile,hsettled⟩,hstored⟩

end Agreement

section Sample

def plainApparatus (id : String) (operation : ExecutionOperation)
    (technology : ProcessTechnology) : RuntimeApparatusConfiguration where
  runtime :=
    { apparatusId := id
      equipmentClassId := "class"
      capabilities := [(Pechat.operationCapability operation, 1)]
      executionProfile :=
        { operation
          technology
          colorStationCount := none
          minWebWidthMm := none
          maxWebWidthMm := none
          virtualTasks := .disabled
          capabilityCompatibleReroute := true } }
  sourceRevision := 1
  sourceAasxSha256 := ""
  lifecycle := .active
  queue := ⟨id,1,""⟩
  material := ⟨id,1,""⟩
  capacity := ⟨id,1,""⟩

def threeMachines : List RuntimeApparatusConfiguration :=
  [plainApparatus "apparatus:press:1" .print .rotogravure,
    plainApparatus "apparatus:laminator:1" .laminate .adhesiveLamination,
    plainApparatus "apparatus:laminator:2" .laminate .adhesiveLamination]

def machineCatalogue : ApparatusResolver where
  resolve id := .ok (threeMachines.find? fun machine => machine.runtime.apparatusId == id.value)
  list := .ok threeMachines

/-- The order has been printed; its rolls wait for the first laminator. -/
def printedStore (rolls : List OrderProgressBatch) : OrderStore where
  maps := .ofList [("zakaz-1", pressThenLaminator)]
  sequences := .ofList [("apparatus:laminator:1", ["zakaz-1"])]
  orderControls := ∅
  stageOrderControls := []
  queueStates := .ofList [("apparatus:press:1", TreeMap.ofList [("zakaz-1", "completed")])]
  orderRunSessions := []
  orderProgressBatches := rolls
  printPreflightHolds := []

def toSecondLaminator : ProductionMapMoveRequest :=
  ⟨"zakaz-1","apparatus:laminator:1","apparatus:laminator:2"⟩

def laminatedOnSecond : ProductionMapDefinition :=
  { pressThenLaminator with
    nodes := pressThenLaminator.nodes.map fun node =>
      if node.id == "laminate" then { node with apparatusId := "apparatus:laminator:2" } else node }

/-- The roll names the machine and the node it is made for. -/
def routedRoll : OrderProgressBatch :=
  { printedRoll with
    payloadJson := .object
      [("next_stage_node_id", .string "laminate"),("stage_node_id", .string "print")] }

end Sample

end MiniErp.Catalog
