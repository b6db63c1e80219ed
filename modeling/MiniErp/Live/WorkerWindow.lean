import MiniErp.Lib.Pinning
import MiniErp.Live.Records

/-! The window of a worker over the queues: for each apparatus in scope a bounded part of the orders
that can be shown and match the search, with running work kept in it. -/
namespace MiniErp.Live
open Std Queue List
variable {R : LiveRecords}

structure WorkerQueueWindow where
  limit : Option Nat
  search : String
  positions : Bool

/-- The limit 0 selects all orders. -/
def windowBound (limit : Nat) : Nat := if limit=0 then 2^64-1 else limit

section
variable (snapshot : R.Snapshot)

def workerQueueOrderHiddenAtApparatus (apparatus id : String) (hideIssues : Bool) : Bool :=
  (orderControl snapshot id).any (· == .frozen) ||
    (orderStatus snapshot id).any (fun status => status.orderStatus == "frozen" ||
      (hideIssues && status.orderStatus == "completed_with_issue")) ||
    ((actionControl snapshot apparatus id).map fun control => control.state.asStr).or
      (snapshot.queueStates[apparatus]?.bind fun states => states[id]?) == some "frozen"

/-- The queue as it is shown: free picking follows the visible orders, a strict queue its sequence
with the visible orders that it lacks. -/
def displayQueue (apparatus : String) (visible : List String) : List String :=
  if isFreePick snapshot apparatus then visible
  else visible.foldl (Distinct.pushNew fun _ => true) (snapshot.sequences[apparatus]?.getD [])

def mapsById : TreeMap String R.Saved := byId (fun saved => (R.map saved).id) snapshot.maps

def eligible (apparatus : String) (visible : List String) : List String :=
  ((displayQueue snapshot apparatus visible).filter fun id => visible.contains id).filter fun id =>
    (mapsById snapshot).contains id && !workerQueueOrderHiddenAtApparatus snapshot apparatus id
      (isFreePick snapshot apparatus)

end

def haystack (toLowercase : String → String) (customers : TreeMap String String)
    (map : ProductionMapDefinition) (id : String) : String :=
  toLowercase (String.intercalate " " ([map.id,map.code,map.orderNumber,map.title,
    map.productCode,map.customerName,customers[id]?.getD ""]++map.nodes.map (·.title)))

/-- `toLowercase` is the folding of the standard library, of all scripts. -/
def matchesSearch (toLowercase : String → String) (search : String) (snapshot : R.Snapshot)
    (customers : TreeMap String String) (id : String) : Bool :=
  search == "" || (mapsById snapshot)[id]?.any fun saved =>
    decide (search.toList <:+: (haystack toLowercase customers (R.map saved) id).toList)

def isRunning (snapshot : R.Snapshot) (apparatus id : String) : Bool :=
  (actionControl snapshot apparatus id).any fun control => control.state.isActive

section
variable (toLowercase : String → String) (search : String) (snapshot : R.Snapshot)
  (customers : TreeMap String String) (apparatus : String) (visible : List String)

def matching : List String :=
  (eligible snapshot apparatus visible).filter (matchesSearch toLowercase search snapshot customers)

/-- The matching orders with their indices in the eligible queue. -/
def ranked : List (String × Nat) :=
  (eligible snapshot apparatus visible).zipIdx.filter fun entry =>
    matchesSearch toLowercase search snapshot customers entry.1

end

structure ApparatusWindow where
  ids : List String
  positions : TreeMap String Nat

section
variable (toLowercase : String → String) (limit : Nat) (search : String) (snapshot : R.Snapshot)

def apparatusWindow (customers : TreeMap String String) (apparatus : String)
    (visible : List String) : ApparatusWindow :=
  let entries := ranked toLowercase search snapshot customers apparatus visible
  let ids := entries.map Prod.fst
  let included := Pinning.selected (isRunning snapshot apparatus) (windowBound limit) ids
  { ids := ids.filter fun id => id∈included
    positions := (TreeMap.ofList (entries.map fun entry => (entry.1, entry.2+1))).filter
      fun id _ => id∈included }

def keep {β : Type} (selected : String → Bool) (table : TreeMap String β) : TreeMap String β :=
  table.filter fun id _ => selected id

def windowViews (apparatusScope : List String) (customers : TreeMap String String) :
    TreeMap String ApparatusWindow :=
  (keep (fun apparatus => apparatusScope.contains apparatus) snapshot.visibleOrderIds).map
    (apparatusWindow toLowercase limit search snapshot customers)

end

/-- The projection of a snapshot. Without a limit the call panics. -/
def WorkerQueueWindow.project (window : WorkerQueueWindow) (toLowercase : String → String)
    (snapshot : R.Snapshot) (apparatusScope history : List String)
    (customers : TreeMap String String) : Option R.Snapshot :=
  window.limit.map fun limit =>
    let views := windowViews toLowercase limit window.search snapshot apparatusScope customers
    let windows := views.map fun _ view => view.ids
    let selected := fun id =>
      history.contains id || windows.toList.any fun entry => entry.2.contains id
    { maps := snapshot.maps.filter fun saved => selected (R.map saved).id
      sequences := windows
      visibleOrderIds := windows
      sequencePositionsByApparatus :=
        if window.positions then views.map fun _ view => view.positions else ∅
      sequenceVersions := keep (fun id => apparatusScope.contains id) snapshot.sequenceVersions
      sequenceRevisions := keep (fun id => apparatusScope.contains id) snapshot.sequenceRevisions
      queueStates := snapshot.queueStates.map fun _ => keep selected
      queueActionControls := snapshot.queueActionControls.map fun _ => keep selected
      stageStates := keep selected snapshot.stageStates
      orderStatuses := keep selected snapshot.orderStatuses
      orderControls := keep selected snapshot.orderControls
      stageOrderControls :=
        snapshot.stageOrderControls.filter fun control => selected (R.controlOrderId control)
      queuePolicies := snapshot.queuePolicies
      frozenOrdersByApparatus := ∅ }

/-- No queue of the snapshot lists an order twice. -/
structure DistinctQueues (snapshot : R.Snapshot) : Prop where
  sequences : ∀ (apparatus : String) ids, snapshot.sequences[apparatus]?=some ids → ids.Nodup
  visible : ∀ (apparatus : String) ids, snapshot.visibleOrderIds[apparatus]?=some ids → ids.Nodup

section Queue
variable {snapshot : R.Snapshot} {customers : TreeMap String String} {apparatus : String}
  {visible : List String} {toLowercase : String → String} {search : String}

theorem nodup_displayQueue (h : DistinctQueues snapshot)
    (hvisible : snapshot.visibleOrderIds[apparatus]?=some visible) :
    (displayQueue snapshot apparatus visible).Nodup := by
  unfold displayQueue
  split
  · exact h.visible apparatus visible hvisible
  · have hstored : (snapshot.sequences[apparatus]?.getD []).Nodup := by
      cases hget : snapshot.sequences[apparatus]? with
      | none => exact nodup_nil
      | some ids => exact h.sequences apparatus ids hget
    rw [Distinct.foldl_pushNew,nodup_append']
    refine ⟨hstored,(Distinct.nodup_eraseDups visible).sublist filter_sublist,?_⟩
    intro id hid hnew
    simp at hnew
    exact hnew.2 hid

theorem eligible_sublist :
    (eligible snapshot apparatus visible).Sublist (displayQueue snapshot apparatus visible) :=
  filter_sublist.trans filter_sublist

theorem ranked_map_fst :
    (ranked toLowercase search snapshot customers apparatus visible).map Prod.fst =
      matching toLowercase search snapshot customers apparatus visible := by
  rw [matching,← zipIdx_map_fst 0 (eligible snapshot apparatus visible),filter_map]
  rfl

theorem matching_sublist :
    (matching toLowercase search snapshot customers apparatus visible).Sublist
      (displayQueue snapshot apparatus visible) :=
  filter_sublist.trans eligible_sublist

/-- The position of a matching order is its rank among all eligible ones. -/
theorem getElem?_positions (hnodup : (eligible snapshot apparatus visible).Nodup) {id : String}
    (hid : id∈matching toLowercase search snapshot customers apparatus visible) :
    (TreeMap.ofList ((ranked toLowercase search snapshot customers apparatus visible).map
      fun entry => (entry.1, entry.2+1)))[id]? =
        some ((eligible snapshot apparatus visible).idxOf id+1) := by
  have hmem : id∈eligible snapshot apparatus visible := mem_of_mem_filter hid
  have hentry : (id, (eligible snapshot apparatus visible).idxOf id) ∈
      (eligible snapshot apparatus visible).zipIdx := by
    rw [mk_mem_zipIdx_iff_getElem?]
    exact getElem?_idxOf hmem
  have hranked : (id, (eligible snapshot apparatus visible).idxOf id) ∈
      ranked toLowercase search snapshot customers apparatus visible :=
    mem_filter.mpr ⟨hentry,(mem_filter.mp hid).2⟩
  have hdistinct : (ranked toLowercase search snapshot customers apparatus visible).Pairwise
      fun a b => a.1≠b.1 := by
    rw [← pairwise_map,ranked_map_fst]
    exact hnodup.sublist filter_sublist
  refine TreeMap.getElem?_ofList_of_mem compare_self ?_ (mem_map.mpr ⟨_,hranked,rfl⟩)
  refine pairwise_map.mpr (hdistinct.imp ?_)
  intro a b hab heq
  exact hab (LawfulEqOrd.eq_of_compare heq)

end Queue

/-- A window over the matching orders of a queue: in queue order, full, with the running orders in
it as far as they fit. -/
structure IsWindow (queue matching : List String) (running : String → Bool) (bound : Nat)
    (ids : List String) : Prop where
  queueOrder : ids.Sublist queue
  isMatching : ids.Sublist matching
  size : ids.length=min bound matching.length
  allRunning : (matching.filter running).length≤bound → ∀ id∈matching, running id=true → id∈ids
  onlyRunning : bound<(matching.filter running).length → ∀ id∈ids, running id=true

/-- Ranks of the listed orders, and of no others. -/
def ReportsRanks (queue ids : List String) (ranks : TreeMap String Nat) : Prop :=
  ∀ id : String, ranks[id]?=if id∈ids then some (queue.idxOf id+1) else none

section Window
variable {snapshot : R.Snapshot} {customers : TreeMap String String} {apparatus : String}
  {visible scope history : List String} {toLowercase : String → String} {search : String}
  {limit : Nat} {positions : Bool}

theorem ids_apparatusWindow :
    (apparatusWindow toLowercase limit search snapshot customers apparatus visible).ids =
      Pinning.window (isRunning snapshot apparatus) (windowBound limit)
        (matching toLowercase search snapshot customers apparatus visible) := by
  rw [← ranked_map_fst]
  rfl

section
variable (h : DistinctQueues snapshot)
  (hvisible : snapshot.visibleOrderIds[apparatus]?=some visible)
include h hvisible

theorem isWindow_apparatusWindow : IsWindow (displayQueue snapshot apparatus visible)
      (matching toLowercase search snapshot customers apparatus visible)
      (isRunning snapshot apparatus) (windowBound limit)
      (apparatusWindow toLowercase limit search snapshot customers apparatus visible).ids := by
  have hnodup : (matching toLowercase search snapshot customers apparatus visible).Nodup :=
    (nodup_displayQueue h hvisible).sublist matching_sublist
  rw [ids_apparatusWindow]
  exact {
    queueOrder := filter_sublist.trans matching_sublist
    isMatching := filter_sublist
    size := Pinning.length_window hnodup
    allRunning := fun hfit _ hid hrunning => Pinning.mem_window_of_pinned hnodup hfit hid hrunning
    onlyRunning := fun hmany _ hid => Pinning.pinned_of_mem_window hnodup hmany hid }

theorem reportsRanks_apparatusWindow : ReportsRanks (eligible snapshot apparatus visible)
      (apparatusWindow toLowercase limit search snapshot customers apparatus visible).ids
      (apparatusWindow toLowercase limit search snapshot customers apparatus visible).positions := by
  have hqueue := nodup_displayQueue h hvisible
  have hnodup : (matching toLowercase search snapshot customers apparatus visible).Nodup :=
    hqueue.sublist matching_sublist
  intro id
  rw [ids_apparatusWindow,apparatusWindow,ranked_map_fst,TreeMap.getElem?_filter']
  split
  · rename_i hin
    rw [Pinning.mem_window hnodup] at hin
    have hid := mem_toFinset.mp ((Pinning.shows_selected hnodup).subset hin)
    rw [getElem?_positions (hqueue.sublist eligible_sublist) hid, decide_eq_true hin]
    rfl
  · rename_i hout
    rw [Pinning.mem_window hnodup] at hout
    rw [Option.filter_eq_none_iff]
    intro rank _ hin
    exact hout (of_decide_eq_true hin)

end

theorem getElem?_windowViews (hscope : apparatus∈scope)
    (hvisible : snapshot.visibleOrderIds[apparatus]?=some visible) :
    (windowViews toLowercase limit search snapshot scope customers)[apparatus]? =
      some (apparatusWindow toLowercase limit search snapshot customers apparatus visible) := by
  rw [windowViews,TreeMap.getElem?_map,keep,TreeMap.getElem?_filter',hvisible,
    Option.filter_some,contains_iff_mem.mpr hscope]
  rfl

/-- What the projection shows of a snapshot. -/
structure Windowed (toLowercase : String → String) (window : WorkerQueueWindow) (limit : Nat)
    (snapshot : R.Snapshot) (scope history : List String) (customers : TreeMap String String)
    (projected : R.Snapshot) : Prop where
  windows : ∀ apparatus∈scope, ∀ visible, snapshot.visibleOrderIds[apparatus]?=some visible →
      ∃ ids, projected.visibleOrderIds[apparatus]?=some ids ∧
        projected.sequences[apparatus]?=some ids ∧
        IsWindow (displayQueue snapshot apparatus visible)
          (matching toLowercase window.search snapshot customers apparatus visible)
          (isRunning snapshot apparatus) (windowBound limit) ids ∧
        (window.positions=true → ∃ ranks,
          projected.sequencePositionsByApparatus[apparatus]?=some ranks ∧
            ReportsRanks (eligible snapshot apparatus visible) ids ranks)
  kept : ∀ saved∈projected.maps, (R.map saved).id∈history ∨
    ∃ (apparatus : String) (ids : List String),
      projected.visibleOrderIds[apparatus]?=some ids ∧ (R.map saved).id∈ids

/-- Where no queue lists an order twice, each apparatus in scope gets its window with the ranks that
are asked for, and only orders of a window or of the history are kept. -/
theorem project_windowed (h : DistinctQueues snapshot) (toLowercase : String → String)
    (limit : Nat) (search : String) (positions : Bool) (scope history : List String)
    (customers : TreeMap String String) : ∃ projected,
      (WorkerQueueWindow.mk (some limit) search positions).project toLowercase snapshot scope
        history customers=some projected ∧
      Windowed toLowercase ⟨some limit,search,positions⟩ limit snapshot scope history customers
        projected := by
  refine ⟨_,rfl,?_,?_⟩
  · intro apparatus hscope visible hvisible
    have hview : (windowViews toLowercase limit search snapshot scope customers)[apparatus]?=_ :=
      getElem?_windowViews hscope hvisible
    refine ⟨_,?_,?_,isWindow_apparatusWindow h hvisible,?_⟩
    · rw [TreeMap.getElem?_map,hview]
      rfl
    · rw [TreeMap.getElem?_map,hview]
      rfl
    · intro hpositions
      subst hpositions
      refine ⟨_,?_,reportsRanks_apparatusWindow h hvisible⟩
      change ((windowViews toLowercase limit search snapshot scope customers).map
        fun _ view => view.positions)[apparatus]?=_
      rw [TreeMap.getElem?_map,hview]
      rfl
  · intro saved hsaved
    have hselected := (List.mem_filter.mp hsaved).2
    rw [Bool.or_eq_true,List.contains_iff_mem,List.any_eq_true] at hselected
    refine hselected.imp_right fun hwindow => ?_
    obtain ⟨entry,hentry,hmem⟩ := hwindow
    exact ⟨entry.1,entry.2,TreeMap.mem_toList_iff_getElem?_eq_some.mp hentry,
      List.contains_iff_mem.mp hmem⟩

end Window

/-- Records with no field beside those that are read. -/
def plainRecords : LiveRecords where
  Saved := ProductionMapDefinition
  Policy := ApparatusQueuePolicyRecord
  Control := ApparatusQueueOrderActionControl
  Status := ProductionOrderStatusDetail
  OrderControl := String × OrderControlState
  Frozen := String
  savedEq := inferInstance
  policyEq := inferInstance
  controlEq := inferInstance
  statusEq := inferInstance
  orderControlEq := inferInstance
  frozenEq := inferInstance
  mapId := fun map => map.id
  apparatusId := fun record => record.apparatusId
  savedJson := fun map => .string map.id
  policyJson := ApparatusQueuePolicyRecord.toJson
  controlJson := fun control => .string control.state.asStr
  statusJson := fun status => .string status.orderStatus
  orderControlJson := fun control => .string control.1
  frozenJson := .string
  map := id
  control := id
  status := id
  controlState := Prod.snd
  controlOrderId := Prod.fst
  policy := id
  policy_injective := Function.injective_id
  apparatusId_eq := fun _ => rfl
  policyJson_eq := fun _ => rfl

def runningControl : plainRecords.Control :=
  ApparatusQueueOrderActionControl.mk none false .inProgress .inProgress none

def plainMap (id : String) : ProductionMapDefinition where
  id := id
  productCode := ""
  title := id

def freePress (queue : List String) (running : String) : plainRecords.Snapshot where
  sequenceVersions := ∅
  sequenceRevisions := ∅
  maps := queue.map plainMap
  sequences := ∅
  visibleOrderIds := .ofList [("press", queue)]
  sequencePositionsByApparatus := ∅
  queueStates := ∅
  stageStates := ∅
  queuePolicies := [⟨"press","Press",.freePick,false,""⟩]
  queueActionControls := .ofList [("press", TreeMap.ofList [(running, runningControl)])]
  orderStatuses := ∅
  orderControls := ∅
  stageOrderControls := []
  frozenOrdersByApparatus := ∅

theorem distinctQueues_freePress {queue : List String} (hqueue : queue.Nodup) (running : String) :
    DistinctQueues (freePress queue running) := by
  constructor
  · intro apparatus ids hget
    simp [freePress] at hget
  · intro apparatus ids hget
    have hmem : (apparatus, ids)∈(freePress queue running).visibleOrderIds.toList :=
      TreeMap.mem_toList_iff_getElem?_eq_some.mpr hget
    cases mem_singleton.mp hmem
    exact hqueue

theorem project_windowed_press : ∃ projected,
      (WorkerQueueWindow.mk (some 2) "" true).project id (freePress ["a","b","c"] "c") ["press"]
        [] ∅ = some projected ∧
      Windowed id ⟨some 2,"",true⟩ 2 (freePress ["a","b","c"] "c") ["press"] [] ∅ projected :=
  project_windowed (distinctQueues_freePress (by decide) "c") id 2 "" true ["press"] [] ∅

/-- An order that the queue lists again makes the window longer than its limit. -/
theorem project_exceeds_limit : ((WorkerQueueWindow.mk (some 5) "" true).project id
        (freePress ["a","b","c","d","e","a"] "a") ["press"] [] ∅).bind
      (fun projected => projected.visibleOrderIds["press"]?.map List.length)=some 6 ∧
    min (windowBound 5) (matching id "" (freePress ["a","b","c","d","e","a"] "a") ∅ "press"
      ["a","b","c","d","e","a"]).length=5 := by
  decide +kernel

end MiniErp.Live
