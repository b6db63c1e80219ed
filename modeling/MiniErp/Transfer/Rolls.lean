import MiniErp.Transfer.Service

/-! The mounted rolls of transferred work. A transfer of printing work hands every mounted roll
over to the target machine; any other transfer leaves them with the source. -/
namespace MiniErp.Transfer
open Text Run Queue Wip Stage Catalog Std List Option

inductive RollId where
  | progress (key : String)
  | opening (batchId : String)

structure Owner where
  sessionId : String
  apparatus : String
  deriving DecidableEq, Repr

def StoredBatch.owner (batch : StoredBatch) : Option Owner :=
  if batch.wipStatus=.inUse then some ⟨batch.usedBySessionId,batch.usedByApparatus⟩ else none

def OpeningWipBatch.owner (batch : OpeningWipBatch) : Option Owner :=
  if batch.wipStatus=.inUse then some ⟨batch.usedBySessionId,batch.usedByApparatus⟩ else none

/-- The owner of a roll that is in use. -/
def TransferStore.owner (store : TransferStore) : RollId → Option Owner
  | .progress key => (store.orderProgressBatches.get? key).bind StoredBatch.owner
  | .opening batchId => (store.openingWipBatches.get? batchId).bind OpeningWipBatch.owner

section Owners
variable {ρ : Type*} (before after : ρ → Option Owner) (sessionId target : String)

def Mounted (roll : ρ) : Prop := ∃ apparatus, before roll=some ⟨sessionId,apparatus⟩

/-- Every roll in use by the session names the target, and no other owner changes. -/
def RollsMoved : Prop :=
  (∀ roll apparatus, after roll=some ⟨sessionId,apparatus⟩ → apparatus=target) ∧
    ∀ roll, ¬ Mounted before sessionId roll → after roll=before roll

variable {before after sessionId target}

/-- Where each rewritten owner gets the target as its machine, the rolls have moved exactly when
the rewritten ones are the mounted ones. -/
theorem rollsMoved_iff {rewritten : ρ → Prop}
    (hrewritten : ∀ roll, rewritten roll → ∃ owner, before roll=some owner ∧
      owner.apparatus≠target ∧ after roll=some ⟨owner.sessionId,target⟩)
    (hother : ∀ roll, ¬ rewritten roll → after roll=before roll)
    (hmounted : ∀ roll apparatus, before roll=some ⟨sessionId,apparatus⟩ → apparatus≠target) :
    RollsMoved before after sessionId target ↔
      ∀ roll, Mounted before sessionId roll ↔ rewritten roll := by
  constructor
  · intro hmoved roll
    constructor
    · intro hroll
      by_contra hnot
      obtain ⟨apparatus,happaratus⟩ := hroll
      have hafter : after roll=some ⟨sessionId,apparatus⟩ := by rw [hother roll hnot,happaratus]
      exact hmounted roll apparatus happaratus (hmoved.1 roll apparatus hafter)
    · intro hroll
      by_contra hnot
      obtain ⟨owner,hbefore,hne,hafter⟩ := hrewritten roll hroll
      have hsame := hmoved.2 roll hnot
      rw [hafter,hbefore,some.injEq] at hsame
      exact hne (congrArg Owner.apparatus hsame).symm
  · intro hsame
    constructor
    · intro roll apparatus hafter
      by_cases hroll : rewritten roll
      · obtain ⟨owner,-,-,hrewrite⟩ := hrewritten roll hroll
        rw [hafter,some.injEq] at hrewrite
        exact congrArg Owner.apparatus hrewrite
      · have hbefore := hother roll hroll
        rw [hafter] at hbefore
        exact absurd ((hsame roll).mp ⟨apparatus,hbefore.symm⟩) hroll
    · intro roll hnot
      exact hother roll fun hroll => hnot ((hsame roll).mpr hroll)

end Owners

/-- Every roll in use by a session names the machine of the session. -/
def RollsNamed (store : TransferStore) : Prop :=
  ∀ roll owner, store.owner roll=some owner → ∀ session∈store.orderRunSessions.values,
    session.sessionId=owner.sessionId → owner.apparatus=session.apparatus

/-- The paused output that names itself as the roll it was made of is written back as it was. -/
def StoredBatch.isOwnParent (batch : StoredBatch) : Bool :=
  !isBlank batch.parentBatchId && trim batch.parentBatchId == trim batch.batchId

section Rewritten
variable (store : TransferStore) (intent : TransferIntent) (work : PausedWork)

/-- The paused output of work that is not printing, where a transfer rewrites its owner. -/
def RewrittenOutput (batch : StoredBatch) : Prop :=
  (pausedBatches store intent work.session).head?=some batch ∧ batch.isOwnParent=false ∧
    batch.wipStatus=.inUse ∧ apparatusIdsMatch batch.usedByApparatus intent.source.value=true

/-- The rolls whose owner a transfer rewrites. -/
def Rewritten : RollId → Prop
  | .progress key =>
    if work.preserveOutputHistory then
      ∃ batch∈mountedBatches store intent work.session, trim batch.batchId=key
    else ∃ batch, RewrittenOutput store intent work batch ∧ trim batch.batchId=key
  | .opening batchId =>
    work.preserveOutputHistory=true ∧
      ∃ batch∈mountedOpening store intent work.session, batch.batchId=batchId

/-- The mounted rolls are exactly those whose owner the transfer rewrites. -/
def MountedRollsFollow : Prop :=
  ∀ roll, Mounted store.owner work.session.sessionId roll ↔ Rewritten store intent work roll

end Rewritten

section Read
variable {store : TransferStore} {intent : TransferIntent} {session : OrderRunSession}

variable {batch : StoredBatch}

theorem mem_progressBatchesForOrder {orderId : String}
    (h : batch∈store.progressBatchesForOrder orderId) :
    store.orderProgressBatches.get? (trim batch.batchId)=some batch := by
  unfold TransferStore.progressBatchesForOrder at h
  split at h
  · cases h
  · rw [mem_insertionSort,mem_filter] at h
    exact Table.mem_values.mp h.1

theorem mem_mountedBatches (h : batch∈mountedBatches store intent session) :
    store.orderProgressBatches.get? (trim batch.batchId)=some batch ∧
      batch.wipStatus=.inUse ∧ batch.usedBySessionId=session.sessionId := by
  simp only [mountedBatches,mem_filter,Bool.and_eq_true,beq_iff_eq] at h
  exact ⟨mem_progressBatchesForOrder h.1,h.2⟩

theorem mem_mountedOpening {batch : OpeningWipBatch}
    (h : batch∈mountedOpening store intent session) :
    store.openingWipBatches.get? batch.batchId=some batch ∧
      batch.wipStatus=.inUse ∧ batch.usedBySessionId=session.sessionId := by
  simp only [mountedOpening,TransferStore.openingWipBatchesForOrder,mem_filter,
    mem_flatMap,Bool.and_eq_true,beq_iff_eq] at h
  obtain ⟨⟨intake,-,hbatch,-⟩,hused⟩ := h
  exact ⟨Table.mem_values.mp hbatch,hused⟩

theorem mem_pausedBatches (h : batch∈pausedBatches store intent session) :
    store.orderProgressBatches.get? (trim batch.batchId)=some batch := by
  simp only [pausedBatches,mem_filter] at h
  exact mem_progressBatchesForOrder h.1

end Read

section Updates
variable {ctx : TransferContext} {store : TransferStore} {intent : TransferIntent}
  {payload : Json} {display : String}

theorem movedInput_ok {map : ProductionMapDefinition} {stageNodeId : String}
    {input update : StoredBatch}
    (h : movedInput ctx intent map stageNodeId display input=.ok update) :
    update.batchId=input.batchId ∧ input.usedByApparatus=intent.source.value ∧
      update.wipStatus=input.wipStatus ∧ update.usedBySessionId=input.usedBySessionId ∧
      update.usedByApparatus=intent.target.value := by
  simp only [movedInput,bind_eq_ok,ensure_eq_ok,beq_iff_eq] at h
  obtain ⟨-,hsource,route,-,-,-,payload,-,-,-,h⟩ := h
  rw [← Except.ok.inj h]
  exact ⟨rfl,hsource,rfl,rfl,rfl⟩

theorem movedOpening_ok {batch update : OpeningWipBatch}
    (h : movedOpening ctx intent batch=.ok update) : update.batchId=batch.batchId ∧
    batch.usedByApparatus=intent.source.value ∧ update.wipStatus=batch.wipStatus ∧
    update.usedBySessionId=batch.usedBySessionId ∧ update.usedByApparatus=intent.target.value := by
  simp only [movedOpening,bind_eq_ok,ensure_eq_ok,beq_iff_eq] at h
  obtain ⟨-,hsource,h⟩ := h
  rw [← Except.ok.inj h]
  exact ⟨rfl,hsource,rfl,rfl,rfl⟩

variable {batch : StoredBatch}

theorem movedBatch_ok {moved : StoredBatch}
    (h : movedBatch intent display payload batch=.ok moved) :
    moved.batchId=batch.batchId ∧ moved.parentBatchId=batch.parentBatchId ∧
      moved.wipStatus=batch.wipStatus ∧ moved.usedBySessionId=batch.usedBySessionId ∧
      moved.usedByApparatus=transferredOwner intent batch.usedByApparatus := by
  simp only [movedBatch,bind_eq_ok] at h
  obtain ⟨payload,-,h⟩ := h
  rw [← Except.ok.inj h]
  exact ⟨rfl,rfl,rfl,rfl,rfl⟩

theorem owner_of_movedBatch {moved : StoredBatch}
    (h : movedBatch intent display payload batch=.ok moved) : moved.owner =
      batch.owner.map fun owner => ⟨owner.sessionId,transferredOwner intent owner.apparatus⟩ := by
  obtain ⟨-,-,hstatus,hsession,happaratus⟩ := movedBatch_ok h
  unfold StoredBatch.owner
  rw [hstatus,hsession,happaratus]
  split
  · rfl
  · rfl

theorem parentUpdate_ok {updates : List StoredBatch}
    (h : parentUpdate store intent (some batch)=.ok updates) : isBlank batch.parentBatchId=true ∧
    updates=[] ∨ isBlank batch.parentBatchId=false ∧ ∃ parent update,
    store.orderProgressBatches.get? (trim batch.parentBatchId)=some parent ∧ updates=[update] ∧
    update.batchId=parent.batchId ∧ update.owner=parent.owner := by
  cases hblank : isBlank batch.parentBatchId with
  | true =>
    simp only [parentUpdate,Option.filter,hblank] at h
    exact Or.inl ⟨rfl,(Except.ok.inj h).symm⟩
  | false =>
    simp only [parentUpdate,Option.filter,hblank,Bool.not_false,if_true,bind_eq_ok,
      required_eq_ok] at h
    obtain ⟨parent,hparent,-,-,h⟩ := h
    have hkey : trim parent.batchId=trim batch.parentBatchId := by simpa using find?_some hparent
    refine Or.inr ⟨rfl,parent,_,?_,(Except.ok.inj h).symm,rfl,rfl⟩
    rw [← hkey]
    exact mem_progressBatchesForOrder (mem_of_find?_eq_some hparent)

end Updates

theorem StoredBatch.owner_of_inUse {batch : StoredBatch} (h : batch.wipStatus=.inUse) :
    batch.owner=some ⟨batch.usedBySessionId,batch.usedByApparatus⟩ :=
  if_pos h

theorem OpeningWipBatch.owner_of_inUse {batch : OpeningWipBatch} (h : batch.wipStatus=.inUse) :
    batch.owner=some ⟨batch.usedBySessionId,batch.usedByApparatus⟩ :=
  if_pos h

section Committed
variable {ctx : TransferContext} {store : TransferStore} {intent : TransferIntent}
  {actor : MiniErp.QueueActionActor} {work : PausedWork} {moved : MovedWork}

def afterTransfer (ctx : TransferContext) (store : TransferStore) (intent : TransferIntent)
    (actor : MiniErp.QueueActionActor) (work : PausedWork) (moved : MovedWork) : TransferStore :=
  committed store (transferWrite ctx store intent actor work moved) intent.source intent.target
    intent.orderId

theorem owner_afterTransfer_progress (key : String) :
    (afterTransfer ctx store intent actor work moved).owner (.progress key) =
      (((store.orderProgressBatches.insertAll moved.progressBatch.toList).insertAll
        moved.progressBatchUpdates).get? key).bind StoredBatch.owner :=
  rfl

theorem owner_afterTransfer_opening (batchId : String) :
    (afterTransfer ctx store intent actor work moved).owner (.opening batchId) =
      ((store.openingWipBatches.insertAll moved.openingWipBatchUpdates).get? batchId).bind
        OpeningWipBatch.owner :=
  rfl

theorem owner_writeOutput (store : TransferStore) (output : StoredBatch) (key : String) :
    (((store.orderProgressBatches.insertAll [output]).insertAll []).get? key).bind
        StoredBatch.owner =
      if trim output.batchId=key then output.owner else store.owner (.progress key) := by
  change ((store.orderProgressBatches.insert output).get? key).bind StoredBatch.owner=_
  rw [Table.get?_insert]
  split
  · rfl
  · rfl

theorem owner_writeParent (store : TransferStore) (output update : StoredBatch) (key : String) :
    (((store.orderProgressBatches.insertAll [output]).insertAll [update]).get? key).bind
        StoredBatch.owner =
      if trim update.batchId=key then update.owner
      else if trim output.batchId=key then output.owner else store.owner (.progress key) := by
  change (((store.orderProgressBatches.insert output).insert update).get? key).bind
    StoredBatch.owner=_
  rw [Table.get?_insert,Table.get?_insert]
  split
  · rfl
  · split
    · rfl
    · rfl

theorem owner_insertAll_mapM {α : Type} {key : α → String} {owner : α → Option Owner}
    {f : α → Except ProductionMapError α} {inputs updates : List α} {table : Table key}
    {source target : String} (hkey : ∀ input update, f input=.ok update → key update=key input)
    (hinputs : ∀ input∈inputs, table.get? (key input)=some input)
    (hmoves : ∀ input∈inputs, ∀ update, f input=.ok update → ∃ old, owner input=some old ∧
      old.apparatus=source ∧ owner update=some ⟨old.sessionId,target⟩)
    (h : inputs.mapM f=.ok updates) (k : String) :
    ((∃ input∈inputs, key input=k) → ∃ old, (table.get? k).bind owner=some old ∧
      old.apparatus=source ∧
      ((table.insertAll updates).get? k).bind owner=some ⟨old.sessionId,target⟩) ∧
    ((¬ ∃ input∈inputs, key input=k) →
      ((table.insertAll updates).get? k).bind owner=(table.get? k).bind owner) := by
  have hkeys : (∃ input∈inputs, key input=k) ↔ k∈updates.map key := by
    rw [map_mapM hkey h,List.mem_map]
  rw [hkeys]
  constructor
  · intro hmem
    obtain ⟨update,hupdate,rfl,hget⟩ := Table.exists_get?_insertAll hmem table
    obtain ⟨input,hinput,hok⟩ := (mapM_mem h).1 update hupdate
    obtain ⟨old,hold,hsource,hnew⟩ := hmoves input hinput update hok
    refine ⟨old,?_,hsource,by rw [hget,bind_some,hnew]⟩
    rw [hkey input update hok,hinputs input hinput,bind_some,hold]
  · intro hmem
    rw [Table.get?_insertAll_of_notMem hmem]

section Printing
variable (hprinting : work.preserveOutputHistory=true)
  (hmoved : movedWork ctx store intent actor work=.ok moved)
include hprinting hmoved

theorem movedWork_printing : moved.progressBatch=none ∧
      (∃ map stageNodeId display, (mountedBatches store intent work.session).mapM
        (movedInput ctx intent map stageNodeId display)=.ok moved.progressBatchUpdates) ∧
      (mountedOpening store intent work.session).mapM (movedOpening ctx intent) =
        .ok moved.openingWipBatchUpdates := by
  simp only [movedWork,hprinting,if_true,movedPrintingWork,bind_eq_ok] at hmoved
  obtain ⟨selected,-,session,-,updates,hupdates,opening,hopening,h⟩ := hmoved
  rw [← Except.ok.inj h]
  exact ⟨rfl,⟨_,_,_,hupdates⟩,hopening⟩

theorem owner_progress_printing (key : String) :
    ((∃ batch∈mountedBatches store intent work.session, trim batch.batchId=key) →
      ∃ owner, store.owner (.progress key)=some owner ∧ owner.apparatus=intent.source.value ∧
        (afterTransfer ctx store intent actor work moved).owner (.progress key) =
          some ⟨owner.sessionId,intent.target.value⟩) ∧
    ((¬ ∃ batch∈mountedBatches store intent work.session, trim batch.batchId=key) →
      (afterTransfer ctx store intent actor work moved).owner (.progress key) =
        store.owner (.progress key)) := by
  obtain ⟨hnone,⟨map,stageNodeId,display,hupdates⟩,-⟩ := movedWork_printing hprinting hmoved
  rw [owner_afterTransfer_progress,hnone]
  refine owner_insertAll_mapM (fun input update hok => by rw [(movedInput_ok hok).1])
    (fun input hinput => (mem_mountedBatches hinput).1) (fun input hinput update hok => ?_) hupdates key
  obtain ⟨-,hsource,hstatus,hsession,htarget⟩ := movedInput_ok hok
  have huse := (mem_mountedBatches hinput).2.1
  refine ⟨_,StoredBatch.owner_of_inUse huse,hsource,?_⟩
  rw [StoredBatch.owner_of_inUse (hstatus.trans huse),hsession,htarget]

theorem owner_opening_printing (batchId : String) :
    ((∃ batch∈mountedOpening store intent work.session, batch.batchId=batchId) →
      ∃ owner, store.owner (.opening batchId)=some owner ∧ owner.apparatus=intent.source.value ∧
        (afterTransfer ctx store intent actor work moved).owner (.opening batchId) =
          some ⟨owner.sessionId,intent.target.value⟩) ∧
    ((¬ ∃ batch∈mountedOpening store intent work.session, batch.batchId=batchId) →
      (afterTransfer ctx store intent actor work moved).owner (.opening batchId) =
        store.owner (.opening batchId)) := by
  refine owner_insertAll_mapM (fun input update hok => (movedOpening_ok hok).1)
    (fun input hinput => (mem_mountedOpening hinput).1) (fun input hinput update hok => ?_)
    (movedWork_printing hprinting hmoved).2.2 batchId
  obtain ⟨-,hsource,hstatus,hsession,htarget⟩ := movedOpening_ok hok
  have huse := (mem_mountedOpening hinput).2.1
  refine ⟨_,OpeningWipBatch.owner_of_inUse huse,hsource,?_⟩
  rw [OpeningWipBatch.owner_of_inUse (hstatus.trans huse),hsession,htarget]

end Printing

section Other
variable (hother : work.preserveOutputHistory=false)
  (hmoved : movedWork ctx store intent actor work=.ok moved)
include hother hmoved

theorem movedWork_other : moved.openingWipBatchUpdates=[] ∧
      ((pausedBatches store intent work.session).head?=none ∧ moved.progressBatch=none ∧
          moved.progressBatchUpdates=[] ∨
        ∃ batch output display payload,
          (pausedBatches store intent work.session).head?=some batch ∧
          movedBatch intent display payload batch=.ok output ∧ moved.progressBatch=some output ∧
          parentUpdate store intent (some output)=.ok moved.progressBatchUpdates) := by
  simp only [movedWork,hother,Bool.false_eq_true,if_false,movedOtherWork,bind_eq_ok] at hmoved
  obtain ⟨-,-,session,-,output,houtput,updates,hupdates,map,-,h⟩ := hmoved
  rw [← Except.ok.inj h]
  refine ⟨rfl,?_⟩
  cases hhead : (pausedBatches store intent work.session).head? with
  | none =>
    rw [hhead] at houtput
    have hnone : output=none := (Except.ok.inj houtput).symm
    rw [hnone] at hupdates
    exact Or.inl ⟨rfl,hnone,(Except.ok.inj hupdates).symm⟩
  | some batch =>
    rw [hhead] at houtput
    obtain ⟨written,hwritten,hsome⟩ := map_eq_ok.mp houtput
    rw [← hsome] at hupdates
    exact Or.inr ⟨batch,written,_,_,rfl,hwritten,hsome.symm,hupdates⟩

theorem owner_progress_kept {key : String}
    (hkey : ¬ ∃ batch, (pausedBatches store intent work.session).head?=some batch ∧
      trim batch.batchId=key ∧ batch.isOwnParent=false) :
    (afterTransfer ctx store intent actor work moved).owner (.progress key) =
      store.owner (.progress key) := by
  obtain ⟨-,hcase⟩ := movedWork_other hother hmoved
  rw [owner_afterTransfer_progress]
  cases hcase with
  | inl hnone =>
    rw [hnone.2.1,hnone.2.2]
    rfl
  | inr hsome =>
    obtain ⟨batch,output,display,payload,hhead,hok,houtput,hparent⟩ := hsome
    obtain ⟨hid,hparentId,-⟩ := movedBatch_ok hok
    rw [houtput,toList_some]
    cases parentUpdate_ok hparent with
    | inl hblank =>
      have hne : trim output.batchId≠key := by
        intro heq
        refine hkey ⟨batch,hhead,by rw [← hid,heq],?_⟩
        simp [StoredBatch.isOwnParent,← hparentId,hblank.1]
      rw [hblank.2,owner_writeOutput,if_neg hne]
    | inr hwritten =>
      obtain ⟨hnonblank,parent,update,hget,hupdates,hupdateId,howner⟩ := hwritten
      rw [hparentId] at hget hnonblank
      have hparentKey := Table.key_of_get? hget
      have hupdateKey : trim update.batchId=trim batch.parentBatchId := by rw [hupdateId,hparentKey]
      rw [hupdates,owner_writeParent,hupdateKey,hid]
      by_cases hparentKey : trim batch.parentBatchId=key
      · rw [if_pos hparentKey,howner,TransferStore.owner,← hparentKey,hget,bind_some]
      · have hne : trim batch.batchId≠key := by
          intro heq
          refine hkey ⟨batch,hhead,heq,?_⟩
          simp only [StoredBatch.isOwnParent,hnonblank,heq,Bool.not_false,Bool.true_and,
            beq_eq_false_iff_ne]
          exact hparentKey
        rw [if_neg hparentKey,if_neg hne]

theorem owner_progress_moved {batch : StoredBatch}
    (hhead : (pausedBatches store intent work.session).head?=some batch)
    (hown : batch.isOwnParent=false) :
    (afterTransfer ctx store intent actor work moved).owner (.progress (trim batch.batchId)) =
      batch.owner.map fun owner => ⟨owner.sessionId,transferredOwner intent owner.apparatus⟩ := by
  obtain ⟨-,hcase⟩ := movedWork_other hother hmoved
  rw [owner_afterTransfer_progress]
  cases hcase with
  | inl hnone =>
    rw [hnone.1] at hhead
    cases hhead
  | inr hsome =>
    obtain ⟨found,output,display,payload,hfound,hok,houtput,hparent⟩ := hsome
    rw [hhead,some.injEq] at hfound
    subst hfound
    have houtputOwner := owner_of_movedBatch hok
    obtain ⟨hid,hparentId,-⟩ := movedBatch_ok hok
    rw [houtput,toList_some,← hid]
    cases parentUpdate_ok hparent with
    | inl hblank => rw [hblank.2,owner_writeOutput,if_pos rfl,houtputOwner]
    | inr hwritten =>
      obtain ⟨hnonblank,parent,update,hget,hupdates,hupdateId,-⟩ := hwritten
      rw [hparentId] at hget hnonblank
      have hne : trim update.batchId≠trim output.batchId := by
        rw [hupdateId,Table.key_of_get? hget,hid]
        simpa [StoredBatch.isOwnParent,hnonblank] using hown
      rw [hupdates,owner_writeParent,if_neg hne,if_pos rfl,houtputOwner]

end Other

theorem transferredOwner_of_match {apparatus : String}
    (h : apparatusIdsMatch apparatus intent.source.value=true) :
    transferredOwner intent apparatus=intent.target.value :=
  if_pos h

variable {roll : RollId}

theorem exists_owner_of_rewritten (h : Rewritten store intent work roll) :
    ∃ owner, store.owner roll=some owner := by
  cases roll with
  | progress key =>
    simp only [Rewritten] at h
    split at h
    · obtain ⟨batch,hbatch,rfl⟩ := h
      obtain ⟨hstored,huse,-⟩ := mem_mountedBatches hbatch
      exact ⟨_,by rw [TransferStore.owner,hstored,bind_some, StoredBatch.owner_of_inUse huse]⟩
    · obtain ⟨batch,⟨hhead,-,huse,-⟩,rfl⟩ := h
      have hstored := mem_pausedBatches (mem_of_mem_head? hhead)
      exact ⟨_,by rw [TransferStore.owner,hstored,bind_some, StoredBatch.owner_of_inUse huse]⟩
  | opening batchId =>
    obtain ⟨-,batch,hbatch,rfl⟩ := h
    obtain ⟨hstored,huse,-⟩ := mem_mountedOpening hbatch
    exact ⟨_,by rw [TransferStore.owner,hstored,bind_some, OpeningWipBatch.owner_of_inUse huse]⟩

theorem owner_of_rewritten (hmoved : movedWork ctx store intent actor work=.ok moved)
    (h : Rewritten store intent work roll) : ∃ owner, store.owner roll=some owner ∧
      apparatusIdsMatch owner.apparatus intent.source.value=true ∧
      (afterTransfer ctx store intent actor work moved).owner roll =
        some ⟨owner.sessionId,intent.target.value⟩ := by
  have hself : apparatusIdsMatch intent.source.value intent.source.value=true := by
    simp [apparatusIdsMatch,ApparatusId.trim_eq intent.source.valid,intent.source.valid]
  cases hprinting : work.preserveOutputHistory with
  | true =>
    cases roll with
    | progress key =>
      simp only [Rewritten,hprinting] at h
      obtain ⟨owner,hbefore,hsource,hafter⟩ := (owner_progress_printing hprinting hmoved key).1 h
      exact ⟨owner,hbefore,by rw [hsource,hself],hafter⟩
    | opening batchId =>
      obtain ⟨owner,hbefore,hsource,hafter⟩ := (owner_opening_printing hprinting hmoved batchId).1 h.2
      exact ⟨owner,hbefore,by rw [hsource,hself],hafter⟩
  | false =>
    cases roll with
    | progress key =>
      simp only [Rewritten,hprinting] at h
      obtain ⟨batch,⟨hhead,hown,huse,hmatch⟩,rfl⟩ := h
      have hstored := mem_pausedBatches (mem_of_mem_head? hhead)
      refine ⟨⟨batch.usedBySessionId,batch.usedByApparatus⟩,?_,hmatch,?_⟩
      · simp only [TransferStore.owner,hstored,bind_some,StoredBatch.owner_of_inUse huse]
      · rw [owner_progress_moved hprinting hmoved hhead hown,StoredBatch.owner_of_inUse huse,
          map_some,transferredOwner_of_match hmatch]
    | opening batchId =>
      rw [Rewritten,hprinting] at h
      exact absurd h.1 Bool.false_ne_true

theorem owner_of_not_rewritten (hmoved : movedWork ctx store intent actor work=.ok moved)
    (h : ¬ Rewritten store intent work roll) :
    (afterTransfer ctx store intent actor work moved).owner roll=store.owner roll := by
  cases hprinting : work.preserveOutputHistory with
  | true =>
    cases roll with
    | progress key =>
      simp only [Rewritten,hprinting] at h
      exact (owner_progress_printing hprinting hmoved key).2 h
    | opening batchId =>
      exact (owner_opening_printing hprinting hmoved batchId).2 fun hmem => h ⟨hprinting,hmem⟩
  | false =>
    cases roll with
    | progress key =>
      simp only [Rewritten,hprinting] at h
      by_cases hkey : ∃ batch, (pausedBatches store intent work.session).head?=some batch ∧
          trim batch.batchId=key ∧ batch.isOwnParent=false
      · obtain ⟨batch,hhead,rfl,hown⟩ := hkey
        have hstored := mem_pausedBatches (mem_of_mem_head? hhead)
        rw [owner_progress_moved hprinting hmoved hhead hown,TransferStore.owner,hstored, bind_some]
        -- in use, the output would be rewritten unless another machine uses it
        by_cases huse : batch.wipStatus=.inUse
        · have hmatch : ¬ apparatusIdsMatch batch.usedByApparatus intent.source.value=true :=
            fun hmatch => h ⟨batch,⟨hhead,hown,huse,hmatch⟩,rfl⟩
          rw [StoredBatch.owner_of_inUse huse,map_some,transferredOwner,if_neg hmatch]
        · rw [StoredBatch.owner,if_neg huse,map_none]
      · exact owner_progress_kept hprinting hmoved hkey
    | opening batchId =>
      rw [owner_afterTransfer_opening,(movedWork_other hprinting hmoved).1]
      rfl

end Committed

theorem trim_ne_target {input : ProductionMapApparatusTransferRequest} {intent : TransferIntent}
    (hintent : transferIntent input=.ok intent) {apparatus : String}
    (h : trim apparatus=intent.source.value) : apparatus≠intent.target.value := by
  rintro rfl
  rw [ApparatusId.trim_eq intent.target.valid] at h
  have heq : intent.source=intent.target := by
    cases hsource : intent.source
    cases htarget : intent.target
    simp_all
  exact (transferIntent_ok hintent).2.2 heq

theorem mem_owners {store : TransferStore} {roll : RollId} {owner : Owner}
    (hroll : store.owner roll=some owner) :
    owner∈store.orderProgressBatches.values.filterMap StoredBatch.owner ++
      store.openingWipBatches.values.filterMap OpeningWipBatch.owner := by
  refine mem_append.mpr ?_
  cases roll with
  | progress key =>
    obtain ⟨batch,hbatch,howner⟩ := bind_eq_some_iff.mp hroll
    exact Or.inl (mem_filterMap.mpr ⟨batch,Table.mem_values_of_get? hbatch,howner⟩)
  | opening batchId =>
    obtain ⟨batch,hbatch,howner⟩ := bind_eq_some_iff.mp hroll
    exact Or.inr (mem_filterMap.mpr ⟨batch,Table.mem_values_of_get? hbatch,howner⟩)

section Sample

theorem isValid_firstLaminator : ApparatusId.isValid "apparatus:laminator:1" = true := by
  decide +kernel

def firstLaminator : ApparatusId := ⟨"apparatus:laminator:1",isValid_firstLaminator⟩

def laminationContext : TransferContext where
  rules := anyRules
  digest map := map.id
  resolver := machineCatalogue
  now := 100
  displayName machine := machine.runtime.apparatusId
  requiresQolipScan _ := false
  requiresMaterial _ := false

def laminationSession : OrderRunSession where
  sessionId := "session-2"
  apparatus := "apparatus:laminator:1"
  orderId := "zakaz-1"
  stageNodeId := "laminate"
  status := .paused
  workerRole := "aparatchi"
  workerRef := "worker-1"
  workerDisplayName := "Worker"
  startedAtUnix := 10
  updatedAtUnix := 20
  payloadJson := .object []

def laminatedOutput : StoredBatch :=
  { printedRoll with
    sessionId := "session-2"
    apparatus := "apparatus:laminator:1"
    action := .pause
    status := .paused
    nextApparatus := ""
    batchId := "roll-2"
    parentBatchId := "roll-1" }

/-- The printed roll, either still waiting or mounted on the first laminator. -/
def printedInput (mounted : Bool) : StoredBatch :=
  { printedRoll with
    wipStatus := if mounted then .inUse else .processed
    usedBySessionId := "session-2"
    usedByApparatus := "apparatus:laminator:1"
    batchId := "roll-1"
    parentBatchId := "" }

/-- An order whose lamination is paused on the first laminator. -/
def pausedLamination (mounted : Bool) : TransferStore where
  maps := .ofList [pressThenLaminator]
  sequences := .ofList [(firstLaminator, ["zakaz-1"])]
  queueStates := .ofList [(firstLaminator, TreeMap.ofList [("zakaz-1", "paused")])]
  orderControls := []
  stageOrderControls := []
  orderRunSessions := .ofList [laminationSession]
  orderProgressBatches := .ofList [printedInput mounted,laminatedOutput]
  openingWipIntakes := .empty
  openingWipBatches := .empty
  materialAssignments := .empty
  apparatusScheduleReservations := .empty
  apparatusTransfers := .empty

def toOtherLaminator : ProductionMapApparatusTransferRequest :=
  ⟨"zakaz-1","apparatus:laminator:1","apparatus:laminator:2","avariya","first"⟩

def shiftAdmin : MiniErp.QueueActionActor := ⟨"admin","admin-1","Admin"⟩

end Sample

end MiniErp.Transfer
