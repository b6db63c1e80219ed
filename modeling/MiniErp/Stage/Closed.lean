import MiniErp.Stage.Reference

/-! Which operations the evaluator reports as completed: the passes over the operations reach the
least fixed point of the closing rule, for every predecessor graph. -/
namespace MiniErp.Stage
open Chain Closure Worklist Relation List

/-- What the table of operations keeps true: every key is that of a node, and the candidates of
a key are stages of its nodes. -/
structure TableSound (map : ProductionMapDefinition) (stages : List ChainStage)
    (table : OperationTable) : Prop where
  keyOf : ∀ id key, table.keyByNode[id]?=some key →
    key∈table.candidates ∧ ∃ node, map.nodeById id=some node ∧ operationKey node=key
  candidates : ∀ key (found : List ChainStage), table.candidates[key]?=some found →
    found ≠ [] ∧ ∀ stage∈found, stage∈stages ∧
      ∃ node, map.nodeById stage.nodeId=some node ∧ operationKey node=key

theorem TableSound.addCandidate {map : ProductionMapDefinition} {stages : List ChainStage}
    {table : OperationTable} (h : TableSound map stages table) {stage : ChainStage}
    (hstage : stage∈stages) : TableSound map stages (addCandidate map table stage) := by
  unfold Stage.addCandidate
  split
  · exact h
  · rename_i node hnode
    constructor
    · intro id key hkey
      rw [Std.TreeMap.getElem?_insert] at hkey
      rw [Std.TreeMap.mem_insert]
      split at hkey
      · rename_i hid
        rw [Std.LawfulEqCmp.compare_eq_iff_eq] at hid
        subst hid
        rw [Option.some.injEq] at hkey
        exact ⟨.inl (Std.LawfulEqCmp.compare_eq_iff_eq.mpr hkey),node,hnode,hkey⟩
      · exact ⟨.inr (h.keyOf id key hkey).1,(h.keyOf id key hkey).2⟩
    · intro key found hfound
      rw [Std.TreeMap.getElem?_insert] at hfound
      split at hfound
      · rename_i hkey
        rw [Std.LawfulEqCmp.compare_eq_iff_eq] at hkey
        rw [Option.some.injEq] at hfound
        subst hkey hfound
        refine ⟨by simp,fun s hs => ?_⟩
        rcases mem_append.mp hs with hold | hnew
        · rw [Std.TreeMap.getD_eq_getD_getElem?] at hold
          cases hprior : table.candidates[operationKey node]? with
          | none =>
            rw [hprior] at hold
            cases hold
          | some prior =>
            rw [hprior] at hold
            exact (h.candidates _ prior hprior).2 s hold
        · rw [mem_singleton.mp hnew]
          exact ⟨hstage,node,hnode,rfl⟩
      · exact h.candidates key found hfound

theorem operationTable_sound (map : ProductionMapDefinition) (stages : List ChainStage) :
    TableSound map stages (operationTable map stages) := by
  refine List.foldlRecOn (motive := TableSound map stages) _ _ ?_ ?_
  · constructor
    · intro id key h
      simp at h
    · intro key found h
      simp at h
  · exact fun table h stage hstage => h.addCandidate hstage

theorem mem_predecessorKeys {table : OperationTable} {key p : String}
    {previous : List ChainStage} : p∈predecessorKeys table key previous ↔
      p≠key ∧ ∃ stage∈previous, table.keyByNode[stage.nodeId]?=some p := by
  unfold predecessorKeys
  rw [Std.TreeSet.mem_toList,Std.TreeSet.mem_ofList,contains_iff_mem,mem_filterMap]
  constructor
  · rintro ⟨stage,hstage,hkey⟩
    rw [Option.filter_eq_some_iff] at hkey
    exact ⟨bne_iff_ne.mp hkey.2,stage,hstage,hkey.1⟩
  · rintro ⟨hne,stage,hstage,hkey⟩
    exact ⟨stage,hstage,Option.filter_eq_some_iff.mpr ⟨hkey,bne_iff_ne.mpr hne⟩⟩

/-- What an operation must have to be done on its own. -/
structure Operation.LocallyDone (operation : Operation) : Prop where
  done : operation.done=true
  reported : operation.reports.required=[]
  consumed : operation.inputsHere=[]

theorem Operation.localDone_iff (operation : Operation) :
    operation.localDone=true ↔ operation.LocallyDone := by
  unfold Operation.localDone
  simp only [Bool.and_eq_true,List.isEmpty_iff]
  exact ⟨fun h => ⟨h.1.1,h.1.2,h.2⟩,fun h => ⟨⟨h.done,h.reported⟩,h.consumed⟩⟩

def Predecessor (operations : List (String × Operation)) (key p : String) : Prop :=
  ∃ operation, (key, operation)∈operations ∧ p∈operation.predecessors

/-- Operations under distinct keys whose predecessors are operations. -/
structure OperationsSound (operations : List (String × Operation)) : Prop where
  nodup : (operations.map (·.1)).Nodup
  predecessor : ∀ key p, Predecessor operations key p → p∈operations.map (·.1)

theorem lookup_of_mem {l : List (String × Operation)} (hnodup : (l.map (·.1)).Nodup) {key : String}
    {operation : Operation} (h : (key, operation)∈l) : l.lookup key=some operation := by
  induction l with
  | nil => cases h
  | cons entry rest ih =>
    rw [map_cons,nodup_cons] at hnodup
    rcases mem_cons.mp h with rfl | hrest
    · exact lookup_cons_self
    · have hne : key≠entry.1 := by
        rintro rfl
        exact hnodup.1 (mem_map.mpr ⟨_,hrest,rfl⟩)
      rw [lookup_cons,beq_eq_false_iff_ne.mpr hne]
      exact ih hnodup.2 hrest

theorem mem_of_lookup {l : List (String × Operation)} {key : String} {operation : Operation}
    (h : l.lookup key=some operation) : (key, operation)∈l := by
  obtain ⟨before,after,rfl,_⟩ := lookup_eq_some_iff.mp h
  simp

section Sound
variable {operations : List (String × Operation)}

section
variable (h : OperationsSound operations)
include h

theorem mem_predecessorsOf {key p : String} :
    p∈predecessorsOf operations key ↔ Predecessor operations key p := by
  unfold predecessorsOf Predecessor
  constructor
  · intro hp
    cases hlookup : operations.lookup key with
    | none => simp [hlookup] at hp
    | some operation =>
      rw [hlookup] at hp
      exact ⟨operation,mem_of_lookup hlookup,hp⟩
  · rintro ⟨operation,hmem,hp⟩
    rw [lookup_of_mem h.nodup hmem]
    exact hp

theorem step_predecessorsOf : Step (predecessorsOf operations)=Predecessor operations := by
  funext key p
  exact propext (mem_predecessorsOf h)

theorem locallyDone_of_mem {key : String}
    {operation : Operation} (hmem : (key, operation)∈operations) :
    locallyDone operations key=true ↔ operation.LocallyDone := by
  rw [locallyDone,lookup_of_mem h.nodup hmem]
  exact operation.localDone_iff

theorem predecessorsOf_closed :
    ∀ key∈operations.map (·.1), ∀ p∈predecessorsOf operations key, p∈operations.map (·.1) :=
  fun key _ p hp => h.predecessor key p ((mem_predecessorsOf h).mp hp)

theorem mem_closedKeys_iff {key : String} : key∈closedKeys operations ↔ key∈operations.map (·.1) ∧
      Closes (locallyDone operations) (predecessorsOf operations) key :=
  mem_close_iff (predecessorsOf_closed h)

/-- An operation closes exactly when it and every operation before it is locally done and none
of them lies on a cycle. -/
theorem mem_closedKeys_iff_chain {key : String} (hkey : key∈operations.map (·.1)) :
    key∈closedKeys operations ↔ ∀ q, ReflTransGen (Predecessor operations) key q →
    (∀ operation, (q, operation)∈operations → operation.LocallyDone) ∧
    ¬TransGen (Predecessor operations) q q := by
  rw [mem_closedKeys_iff h,closes_iff (predecessorsOf_closed h) hkey,step_predecessorsOf h]
  constructor
  · rintro ⟨_,hchain⟩ q hwalk
    refine ⟨fun operation hmem => ?_,(hchain q hwalk).2⟩
    exact (locallyDone_of_mem h hmem).mp (hchain q hwalk).1
  · intro hchain
    refine ⟨hkey,fun q hwalk => ⟨?_,(hchain q hwalk).2⟩⟩
    have hq : q∈operations.map (·.1) := by
      induction hwalk with
      | refl => exact hkey
      | tail _ hstep _ => exact h.predecessor _ _ hstep
    obtain ⟨entry,hentry,rfl⟩ := mem_map.mp hq
    exact (locallyDone_of_mem h hentry).mpr ((hchain _ hwalk).1 entry.2 hentry)

end

end Sound

/-- The operations of a map satisfy the two assumptions of the closure. -/
theorem operations_sound (map : ProductionMapDefinition) (sessions : List OrderRunSession)
    (inputs : List StageWorkInput) (states : ApparatusStates)
    (events : List ProductionStageLifecycleEvent) :
    OperationsSound (stageOperations map sessions inputs states events) := by
  rw [StageWorkReference.stageOperations_eq]
  unfold StageWorkReference.operations
  generalize StageWorkReference.physicalStages map=stages
  have htable := operationTable_sound map stages
  have hkeys : ∀ entries : List (String × List ChainStage), ∀ f : String × List ChainStage →
      Operation, (entries.map fun entry => (entry.1, f entry)).map (·.1)=entries.map (·.1) := by
    intro entries f
    rw [List.map_map]
    rfl
  constructor
  · rw [hkeys,Std.TreeMap.map_fst_toList_eq_keys]
    exact Std.TreeMap.nodup_keys
  · rintro key p ⟨operation,hmem,hp⟩
    obtain ⟨entry,hentry,hentryeq⟩ := mem_map.mp hmem
    obtain ⟨rfl,rfl⟩ := hentryeq
    obtain ⟨_,stage,_,hstage⟩ := mem_predecessorKeys.mp hp
    rw [hkeys,Std.TreeMap.map_fst_toList_eq_keys,Std.TreeMap.mem_keys]
    exact (htable.keyOf _ _ hstage).1

/-- The reported status of an operation. -/
structure ClosedAs (operations : List (String × Operation)) (statuses : List StageWorkStatus)
    (entry : String × Operation) (status : StageWorkStatus) : Prop where
  completed_iff : status.completed=true ↔ entry.2.LocallyDone ∧
      ∀ q, ReflTransGen (Predecessor operations) entry.1 q →
        (∀ operation, (q, operation)∈operations → operation.LocallyDone) ∧
          ¬TransGen (Predecessor operations) q q
  completed_iff_least : status.completed=true ↔
    Closes (locallyDone operations) (predecessorsOf operations) entry.1
  upstreamClosed_iff : status.upstreamClosed=true ↔ ∀ p, Predecessor operations entry.1 p →
      ∃ other∈operations.zip statuses, other.1.1=p ∧ other.2.completed=true

theorem mem_zip_closeStatuses {operations : List (String × Operation)}
    {pair : (String × Operation) × StageWorkStatus} :
    pair∈operations.zip (closeStatuses operations) ↔ pair.1∈operations ∧
      pair.2=closeStatus (closedKeys operations) pair.1.1 pair.1.2 := by
  rw [closeStatuses,← map_prod_left_eq_zip,mem_map]
  constructor
  · rintro ⟨entry,hentry,rfl⟩
    exact ⟨hentry,rfl⟩
  · rintro ⟨hentry,hstatus⟩
    exact ⟨pair.1,hentry,Prod.ext rfl hstatus.symm⟩

theorem closedAs_closeStatus {operations : List (String × Operation)}
    (h : OperationsSound operations) {entry : String × Operation} (hentry : entry∈operations) :
    ClosedAs operations (closeStatuses operations) entry
      (closeStatus (closedKeys operations) entry.1 entry.2) := by
  have hkey : entry.1∈operations.map (·.1) := mem_map_of_mem hentry
  have hcompleted : (closeStatus (closedKeys operations) entry.1 entry.2).completed=true ↔
      entry.1∈closedKeys operations := decide_eq_true_iff
  have hother : ∀ other∈operations.zip (closeStatuses operations),
      (other.2.completed=true ↔ other.1.1∈closedKeys operations) := by
    intro other hmem
    rw [(mem_zip_closeStatuses.mp hmem).2]
    exact decide_eq_true_iff
  constructor
  · rw [hcompleted,mem_closedKeys_iff_chain h hkey]
    exact ⟨fun hchain => ⟨(hchain _ .refl).1 entry.2 hentry,hchain⟩,fun hchain => hchain.2⟩
  · rw [hcompleted,mem_closedKeys_iff h]
    exact and_iff_right hkey
  · have hupstream : (closeStatus (closedKeys operations) entry.1 entry.2).upstreamClosed=true ↔
        ∀ p, Predecessor operations entry.1 p → p∈closedKeys operations := by
      change (entry.2.predecessors.all fun p => decide (p∈closedKeys operations))=true ↔ _
      have hlookup : predecessorsOf operations entry.1=entry.2.predecessors := by
        rw [predecessorsOf,lookup_of_mem h.nodup hentry]
        rfl
      simp only [all_eq_true,decide_eq_true_eq,← mem_predecessorsOf h,hlookup]
    rw [hupstream]
    constructor
    · intro hall p hp
      obtain ⟨other,hmem,rfl⟩ := mem_map.mp (h.predecessor _ p hp)
      have hzip : (other, closeStatus (closedKeys operations) other.1 other.2) ∈
          operations.zip (closeStatuses operations) := mem_zip_closeStatuses.mpr ⟨hmem,rfl⟩
      exact ⟨_,hzip,rfl,(hother _ hzip).mpr (hall _ hp)⟩
    · intro hall p hp
      obtain ⟨other,hmem,rfl,hclosed⟩ := hall p hp
      exact (hother other hmem).mp hclosed

/-- Every operation has one status, in the order of the keys, and it is completed exactly when the operation and all
operations before it are locally done and none of them lies on a predecessor cycle. -/
theorem stageWorkStatuses_completed_iff (map : ProductionMapDefinition)
    (sessions : List OrderRunSession) (inputs : List StageWorkInput) (states : ApparatusStates)
    (events : List ProductionStageLifecycleEvent) :
    OperationsSound (stageOperations map sessions inputs states events) ∧ List.Forall₂
      (ClosedAs (stageOperations map sessions inputs states events)
        (stageWorkStatuses map sessions inputs states events))
      (stageOperations map sessions inputs states events)
      (stageWorkStatuses map sessions inputs states events) := by
  have hsound := operations_sound map sessions inputs states events
  refine ⟨hsound,?_⟩
  change List.Forall₂ (ClosedAs (stageOperations map sessions inputs states events)
    (closeStatuses (stageOperations map sessions inputs states events))) _
    (List.map _ (stageOperations map sessions inputs states events))
  rw [List.forall₂_map_right_iff,List.forall₂_same]
  exact fun entry hentry => closedAs_closeStatus hsound hentry

end MiniErp.Stage
