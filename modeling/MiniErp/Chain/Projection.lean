import MiniErp.Chain.Adjacent
import MiniErp.Lib.Memo
import MiniErp.Wip.Batch

/-! Read projections of one immutable map. A cached projection memoises the stages, the adjacent
stages of the nodes of the map, the fingerprint and the resolved routes; the reference
projection computes everything anew. Queries run over the state of the caches. -/
namespace MiniErp.Chain
open Text Memo Wip

structure AdjacentKey where
  node : String
  previous : Bool
  deriving DecidableEq, Repr

/-- Entries are only added for keys that are absent, so the lists have one entry a key. -/
structure ProjectionMap where
  map : ProductionMapDefinition
  cached : Bool
  cachedStages : Option (List ChainStage) := none
  cachedAdjacent : List (AdjacentKey × List ChainStage) := []
  cachedFingerprint : Option String := none
  cachedRoutes : List (String × Except ProductionMapError WipInputRoute) := []

namespace ProjectionMap

def new (map : ProductionMapDefinition) : ProjectionMap := { map, cached := true }

def reference (map : ProductionMapDefinition) : ProjectionMap := { new map with cached := false }

def currentMap : StateM ProjectionMap ProductionMapDefinition := do
  return (← get).map

def isCached : StateM ProjectionMap Bool := do
  return (← get).cached

def stages : StateM ProjectionMap (List ChainStage) :=
  memoize (fun p => if p.cached then p.cachedStages else none)
    (fun value p => if p.cached then { p with cachedStages := some value } else p)
    (do return linearWorkStages (← currentMap))

def workStage (station node : String) : StateM ProjectionMap (Option ChainStage) := do
  return workStageForStationWithStages (← currentMap) station node (← stages)

def adjacentStages (node : String) (previous : Bool) : StateM ProjectionMap (List ChainStage) :=
  let key : AdjacentKey := ⟨trim node,previous⟩
  memoize (fun p => if p.cached then p.cachedAdjacent.lookup key else none)
    (fun value p =>
      -- only identities of nodes of the map are memoised, so stale ones cannot grow the cache
      if p.cached && p.map.nodes.any fun n => trim n.id == trim node then
        { p with cachedAdjacent := (key, value)::p.cachedAdjacent }
      else p)
    (do return adjacentPhysicalStagesForNodeWithStages (← currentMap) node previous (← stages))

def previousStages (node : String) : StateM ProjectionMap (List ChainStage) :=
  adjacentStages node true

def nextStages (node : String) : StateM ProjectionMap (List ChainStage) := adjacentStages node false

def previousStations (station : String) : StateM ProjectionMap (List String) := do
  return previousWorkStageStationsWithStages (← currentMap) station (← stages)

def previousUnavailable (station : String) : StateM ProjectionMap Bool := do
  return previousStageResolutionIsUnavailableWithStages (← currentMap) station (← stages)

def readyForStage (orderId node : String) (states : ApparatusStates) :
    StateM ProjectionMap Bool := do
  match (← previousStages node).head?.bind (·.apparatusId) with
  | none => return true
  | some id => return queueStateForStation id orderId states == .completed

/-- `digest` stands for the SHA-256 of the serialised map. -/
def fingerprint (digest : ProductionMapDefinition → String) : StateM ProjectionMap String :=
  memoize (fun p => if p.cached then p.cachedFingerprint else none)
    (fun value p => if p.cached then { p with cachedFingerprint := some value } else p)
    (do return digest (← currentMap))

/-- What every answer in the caches of a projection of `map` satisfies; `Route` says what a
cached route of a key may be. -/
structure Sound (digest : ProductionMapDefinition → String) (map : ProductionMapDefinition)
    (cached : Bool) (Route : String → Except ProductionMapError WipInputRoute → Prop)
    (p : ProjectionMap) : Prop where
  map_eq : p.map=map
  cached_eq : p.cached=cached
  stages : ∀ value, p.cachedStages=some value → value=linearWorkStages map
  adjacent : ∀ key value, p.cachedAdjacent.lookup key=some value →
    value=adjacentPhysicalStagesForNode map key.node key.previous
  fingerprint : ∀ value, p.cachedFingerprint=some value → value=digest map
  routes : ∀ key value, p.cachedRoutes.lookup key=some value → Route key value

section Answers
variable {digest : ProductionMapDefinition → String} {map : ProductionMapDefinition}
  {cached : Bool} {Route : String → Except ProductionMapError WipInputRoute → Prop}

theorem sound_empty (cached : Bool) : Sound digest map cached Route { map, cached } := by
  constructor
  · rfl
  · rfl
  all_goals simp

theorem sound_new : Sound digest map true Route (new map) := sound_empty true

theorem sound_reference : Sound digest map false Route (reference map) := sound_empty false

theorem answers_currentMap : Answers (Sound digest map cached Route) currentMap map :=
  answers_view fun _ h => h.map_eq

theorem answers_isCached : Answers (Sound digest map cached Route) isCached cached :=
  answers_view fun _ h => h.cached_eq

theorem recall_cached {p : ProjectionMap} {α : Type} {stored : Option α} {value : α}
    (h : (if p.cached then stored else none)=some value) : stored=some value := by
  split at h
  · exact h
  · cases h

theorem answers_stages : Answers (Sound digest map cached Route) stages (linearWorkStages map) := by
  refine Answers.memoize ?_ ?_ ?_
  · exact fun p hp value h => hp.stages value (recall_cached h)
  · intro p hp
    split
    · exact { hp with stages := fun value h => (Option.some.inj h).symm }
    · exact hp
  · exact answers_currentMap.bind (answers_pure _)

theorem answers_workStage (station node : String) :
    Answers (Sound digest map cached Route) (workStage station node)
      (workStageForStation map station node) :=
  answers_currentMap.bind (answers_stages.bind (answers_pure _))

theorem adjacentPhysicalStagesForNode_trim (map : ProductionMapDefinition) (node : String)
    (previous : Bool) : adjacentPhysicalStagesForNode map (trim node) previous =
      adjacentPhysicalStagesForNode map node previous := by
  simp only [adjacentPhysicalStagesForNode,adjacentPhysicalStagesForNodeWithStages,trim_trim]

theorem answers_adjacentStages (node : String) (previous : Bool) :
    Answers (Sound digest map cached Route) (adjacentStages node previous)
      (adjacentPhysicalStagesForNode map node previous) := by
  refine Answers.memoize ?_ ?_ ?_
  · intro p hp value h
    rw [hp.adjacent _ value (recall_cached h)]
    exact adjacentPhysicalStagesForNode_trim map node previous
  · intro p hp
    split
    · refine { hp with adjacent := fun key value h => ?_ }
      by_cases hkey : key=⟨trim node,previous⟩
      · subst hkey
        simp only [List.lookup_cons,beq_self_eq_true,Option.some.injEq] at h
        rw [← h]
        exact (adjacentPhysicalStagesForNode_trim map node previous).symm
      · simp only [List.lookup_cons,beq_eq_false_iff_ne.mpr hkey] at h
        exact hp.adjacent key value h
    · exact hp
  · exact answers_currentMap.bind (answers_stages.bind (answers_pure _))

theorem answers_previousStages (node : String) :
    Answers (Sound digest map cached Route) (previousStages node) (previousWorkStagesForNode map node) :=
  answers_adjacentStages node true

theorem answers_nextStages (node : String) :
    Answers (Sound digest map cached Route) (nextStages node) (nextWorkStagesForNode map node) :=
  answers_adjacentStages node false

theorem answers_previousStations (station : String) :
    Answers (Sound digest map cached Route) (previousStations station)
      (previousWorkStageStations map station) :=
  answers_currentMap.bind (answers_stages.bind (answers_pure _))

theorem answers_fingerprint :
    Answers (Sound digest map cached Route) (fingerprint digest) (digest map) := by
  refine Answers.memoize ?_ ?_ ?_
  · exact fun p hp value h => hp.fingerprint value (recall_cached h)
  · intro p hp
    split
    · exact { hp with fingerprint := fun value h => (Option.some.inj h).symm }
    · exact hp
  · exact answers_currentMap.bind (answers_pure _)

theorem answers_previousUnavailable (station : String) :
    Answers (Sound digest map cached Route) (previousUnavailable station)
      (previousStageResolutionIsUnavailable map station) :=
  answers_currentMap.bind (answers_stages.bind (answers_pure _))

theorem answers_readyForStage (orderId node : String) (states : ApparatusStates) :
    Answers (Sound digest map cached Route) (readyForStage orderId node states)
      (orderReadyForStageNode map orderId node states) := by
  refine (answers_previousStages node).bind ?_
  unfold orderReadyForStageNode
  cases (previousWorkStagesForNode map node).head?.bind (·.apparatusId) with
  | none => exact answers_pure _
  | some id => exact answers_pure _

end Answers

end ProjectionMap

end MiniErp.Chain
