import MiniErp.Catalog.OrderStore
import MiniErp.Lib.Table
import MiniErp.Queue.Arrivals

/-! Freezing takes an order out of all its queues, and unfreezing appends it to them. -/
namespace MiniErp.Queue
open Text Std Catalog List

def transitionSequence (stored visible : List String) (excluded : TreeSet String)
    (appendedOrderId : Option String) : List String :=
  let sequence := effectiveApparatusSequenceExcluding stored visible excluded
  match (appendedOrderId.map trim).filter (· ≠ "") with
  | none => sequence
  | some orderId =>
    let sequence := sequence.filter fun candidate => trim candidate≠orderId
    if visible.any fun candidate => trim candidate=orderId then sequence++[orderId]
    else sequence

structure TransitionScan where
  updates : Sequences
  seenStorageKeys : List String

def transitionStep (visible sequences : Sequences) (excluded : TreeSet String)
    (appendedOrderId : Option String) (scan : TransitionScan) (requested : String) :
    TransitionScan :=
  let storageKey := trim requested
  if storageKey∈scan.seenStorageKeys then scan
  else
    let scan := { scan with seenStorageKeys := storageKey::scan.seenStorageKeys }
    let visibleOrderIds := visible.getD requested []
    if visibleOrderIds.isEmpty then scan
    else
      let stored := (sequences[storageKey]?.or sequences[requested]?).getD []
      let sequence := transitionSequence stored visibleOrderIds excluded appendedOrderId
      { scan with updates := scan.updates.insert storageKey sequence }

def knownApparatus (sequences visible : Sequences) : List String :=
  (TreeSet.ofList ((sequences.keys++visible.keys).filter isCanonicalApparatusId)).toList

def sequenceUpdatesForFrozenTransition (maps : List ProductionMapDefinition) (sequences : Sequences)
    (excluded : TreeSet String) (appendedOrderId : Option String) : Sequences :=
  let visible := visibleOrderIdsByApparatus maps
  ((knownApparatus sequences visible).foldl
    (transitionStep visible sequences excluded appendedOrderId) ⟨∅,[]⟩).updates

/-- The store writes the updates over the sequences it has. -/
def writeSequences (sequences updates : Sequences) : Sequences :=
  updates.toList.foldl (fun all entry => all.insert entry.1 entry.2) sequences

def freezeSequences (maps : List ProductionMapDefinition) (sequences : Sequences)
    (frozen : TreeSet String) (orderId : String) : Sequences :=
  writeSequences sequences
    (sequenceUpdatesForFrozenTransition maps sequences (frozen.insert orderId) none)

def remainingFrozen (frozen : TreeSet String) (orderId : String) : TreeSet String :=
  TreeSet.ofList (frozen.toList.filter fun id => trim id≠trim orderId)

section
variable (maps : List ProductionMapDefinition) (sequences : Sequences) (frozen : TreeSet String)

def unfreezeSequences (orderId : String) : Sequences :=
  writeSequences sequences
    (sequenceUpdatesForFrozenTransition maps sequences (remainingFrozen frozen orderId)
      (some orderId))

def apparatusQueue (apparatus : String) : List String :=
  effectiveApparatusSequenceExcluding (sequences.getD apparatus [])
    ((visibleOrderIdsByApparatus maps).getD apparatus []) frozen

end

/- The apparatuses of the visible orders. -/

theorem mem_stageApparatuses {map : ProductionMapDefinition} {apparatus : String}
    (h : apparatus∈stageApparatuses map) : ApparatusId.isValid apparatus=true :=
  (mem_filter.mp h).2

theorem isValid_of_visible {maps : List ProductionMapDefinition} {apparatus : String}
    (h : apparatus∈visibleOrderIdsByApparatus maps) : ApparatusId.isValid apparatus=true := by
  have hmap : ∀ (apparatuses : List String) (orderId : String) (visible : Sequences),
      (∀ key∈visible, ApparatusId.isValid key=true) →
      (∀ key∈apparatuses, ApparatusId.isValid key=true) →
      ∀ key∈apparatuses.foldl (fun visible apparatus =>
        visible.insert apparatus (visible.getD apparatus []++[orderId])) visible,
        ApparatusId.isValid key=true := by
    intro apparatuses orderId
    induction apparatuses with
    | nil => exact fun visible hvisible _ => hvisible
    | cons first rest ih =>
      intro visible hvisible hall
      refine ih _ (fun key hkey => ?_) fun key hkey => hall key (mem_cons_of_mem first hkey)
      rw [TreeMap.mem_insert,LawfulEqOrd.compare_eq_iff_eq] at hkey
      cases hkey with
      | inl heq => exact heq ▸ hall first mem_cons_self
      | inr hkey => exact hvisible key hkey
  have hmaps : ∀ (maps : List ProductionMapDefinition) (visible : Sequences),
      (∀ key∈visible, ApparatusId.isValid key=true) →
      ∀ key∈maps.foldl addVisibleOrder visible, ApparatusId.isValid key=true := by
    intro maps
    induction maps with
    | nil => exact fun visible hvisible => hvisible
    | cons first rest ih =>
      intro visible hvisible
      refine ih _ ?_
      simp only [addVisibleOrder]
      split
      · exact hmap _ _ visible hvisible fun key => mem_stageApparatuses
      · exact hvisible
  exact hmaps maps ∅ (by simp) apparatus h

/- The loop over trimmed keys. -/

section Loop
variable {visible sequences : Sequences} {excluded : TreeSet String}
  {appendedOrderId : Option String}

def transitionUpdate (visible sequences : Sequences) (excluded : TreeSet String)
    (appendedOrderId : Option String) (apparatus : String) : Option (List String) :=
  if (visible.getD apparatus []).isEmpty then none
  else some (transitionSequence (sequences[apparatus]?.getD []) (visible.getD apparatus [])
    excluded appendedOrderId)

theorem transitionStep_trimmed {scan : TransitionScan} {requested : String}
    (htrim : trim requested=requested) (hnew : requested∉scan.seenStorageKeys) :
    transitionStep visible sequences excluded appendedOrderId scan requested =
      ⟨(transitionUpdate visible sequences excluded appendedOrderId requested).elim scan.updates
        (scan.updates.insert requested),requested::scan.seenStorageKeys⟩ := by
  simp only [transitionStep,transitionUpdate,htrim,hnew,if_false,Option.or_self]
  split
  · rfl
  · rfl

theorem getElem?_elim_insert (updates : Sequences) (update : Option (List String))
    (key apparatus : String) : (update.elim updates (updates.insert key))[apparatus]? =
      if apparatus=key then update.or updates[apparatus]? else updates[apparatus]? := by
  cases update with
  | none => simp
  | some sequence =>
    by_cases heq : apparatus=key
    · simp [heq]
    · simp [heq,Ne.symm heq,TreeMap.getElem?_insert]

theorem foldl_transitionStep_get {keys : List String} (hnodup : keys.Nodup)
    (htrim : ∀ key∈keys, trim key=key) {scan : TransitionScan}
    (hnew : ∀ key∈keys, key∉scan.seenStorageKeys) (apparatus : String) :
    (keys.foldl (transitionStep visible sequences excluded appendedOrderId) scan).updates[apparatus]? =
      if apparatus∈keys then
        (transitionUpdate visible sequences excluded appendedOrderId apparatus).or
          scan.updates[apparatus]?
      else scan.updates[apparatus]? := by
  induction keys generalizing scan with
  | nil => simp
  | cons key rest ih =>
    rw [nodup_cons] at hnodup
    rw [foldl_cons,transitionStep_trimmed (htrim key mem_cons_self)
      (hnew key mem_cons_self),ih hnodup.2
      (fun k hk => htrim k (mem_cons_of_mem key hk)),getElem?_elim_insert]
    · by_cases heq : apparatus=key
      · simp [heq,hnodup.1]
      · simp [heq]
    · intro k hk hseen
      rw [mem_cons] at hseen
      cases hseen with
      | inl heq => exact hnodup.1 (heq ▸ hk)
      | inr hseen => exact hnew k (mem_cons_of_mem key hk) hseen

theorem nodup_knownApparatus (sequences visible : Sequences) :
    (knownApparatus sequences visible).Nodup := by
  have hdistinct := @TreeSet.distinct_toList String compare
    (TreeSet.ofList ((sequences.keys++visible.keys).filter isCanonicalApparatusId)) _
  refine hdistinct.imp fun hne heq => hne ?_
  rw [heq,LawfulEqOrd.compare_eq_iff_eq]

theorem mem_knownApparatus {sequences visible : Sequences} {apparatus : String} :
    apparatus∈knownApparatus sequences visible ↔
      (apparatus∈sequences ∨ apparatus∈visible) ∧ isCanonicalApparatusId apparatus=true := by
  simp only [knownApparatus,TreeSet.mem_toList,TreeSet.mem_ofList,contains_iff_mem,
    mem_filter,mem_append,TreeMap.mem_keys]

end Loop

section Updates
variable {maps : List ProductionMapDefinition} {sequences : Sequences} {excluded : TreeSet String}
  {appendedOrderId : Option String} {apparatus : String}

/-- Every apparatus with visible orders gets its new sequence, when the stored sequences are kept
under trimmed identities. -/
theorem getElem?_sequenceUpdates (hkeys : ∀ key∈sequences, trim key=key) :
    (sequenceUpdatesForFrozenTransition maps sequences excluded appendedOrderId)[apparatus]? =
      transitionUpdate (visibleOrderIdsByApparatus maps) sequences excluded appendedOrderId
        apparatus := by
  have htrim : ∀ key∈knownApparatus sequences (visibleOrderIdsByApparatus maps), trim key=key := by
    intro key hkey
    cases (mem_knownApparatus.mp hkey).1 with
    | inl hstored => exact hkeys key hstored
    | inr hvisible => exact ApparatusId.trim_eq (isValid_of_visible hvisible)
  rw [sequenceUpdatesForFrozenTransition,
    foldl_transitionStep_get (nodup_knownApparatus _ _) htrim (by simp)]
  split
  · simp
  · rename_i hunknown
    have hnone : ((visibleOrderIdsByApparatus maps).getD apparatus []).isEmpty=true := by
      by_cases hvisible : apparatus∈visibleOrderIdsByApparatus maps
      · have hvalid := isValid_of_visible hvisible
        refine absurd (mem_knownApparatus.mpr ⟨.inr hvisible,?_⟩) hunknown
        rw [isCanonicalApparatusId,ApparatusId.trim_eq hvalid,hvalid]
      · rw [TreeMap.getD_eq_fallback hvisible]
        rfl
    simp [transitionUpdate,hnone]

theorem mem_sequenceUpdates (hkeys : ∀ key∈sequences, trim key=key)
    (h : apparatus∈sequenceUpdatesForFrozenTransition maps sequences excluded appendedOrderId) :
    trim apparatus=apparatus := by
  rw [TreeMap.mem_iff_isSome_getElem?,getElem?_sequenceUpdates hkeys,transitionUpdate] at h
  split at h
  · cases h
  · rename_i hvisible
    refine ApparatusId.trim_eq (@isValid_of_visible maps _ ?_)
    by_contra hnot
    rw [TreeMap.getD_eq_fallback hnot] at hvisible
    exact hvisible rfl

end Updates

/- One queue under the two transitions. -/

section Queue
variable {stored visible : List String} {excluded more : TreeSet String} {orderId : String}

/-- Excluding one more order only drops it. -/
theorem effectiveApparatusSequenceExcluding_filter_excluded (hmore : ∀ x, x ≠ "" →
      (x∈trimmedIds more.toList ↔ x∈trimmedIds excluded.toList ∨ x=trim orderId)) :
    (effectiveApparatusSequenceExcluding stored visible excluded).filter (· ≠ trim orderId) =
      effectiveApparatusSequenceExcluding stored visible more := by
  have hkept : ∀ x, x ≠ "" → (x∉trimmedIds more.toList ↔
      x≠trim orderId ∧ x∉trimmedIds excluded.toList) := by
    intro x hx
    rw [hmore x hx,not_or,and_comm]
  rw [effectiveApparatusSequenceExcluding_eq,effectiveApparatusSequenceExcluding_eq,
    filter_append,filter_filter,filter_filter]
  congr 1
  · refine filter_congr fun x hx => ?_
    rw [mem_eraseDups] at hx
    simp [hkept x (trim_of_mem_trimmedIds hx).2,Bool.and_left_comm]
  · refine filter_congr fun x hx => ?_
    rw [mem_eraseDups,mem_reverse] at hx
    simp [hkept x (trim_of_mem_trimmedIds hx).2,Bool.and_assoc]

variable {frozen : TreeSet String}

theorem mem_trimmedIds_insert {x : String} (hx : x ≠ "") :
    x∈trimmedIds (frozen.insert orderId).toList ↔ x∈trimmedIds frozen.toList ∨ x=trim orderId := by
  simp only [trimmedIds,mem_filter,mem_map,TreeSet.mem_toList,TreeSet.mem_insert,
    LawfulEqOrd.compare_eq_iff_eq,decide_eq_true_eq]
  constructor
  · intro h
    obtain ⟨⟨id,hid,hsame⟩,-⟩ := h
    cases hid with
    | inl heq => exact .inr (by rw [← hsame,heq])
    | inr hid => exact .inl ⟨⟨id,hid,hsame⟩,hx⟩
  · intro h
    cases h with
    | inl h =>
      obtain ⟨⟨id,hid,hsame⟩,-⟩ := h
      exact ⟨⟨id,.inr hid,hsame⟩,hx⟩
    | inr heq => exact ⟨⟨orderId,.inl rfl,heq.symm⟩,hx⟩

theorem mem_trimmedIds_remaining {x : String} :
    x∈trimmedIds (remainingFrozen frozen orderId).toList ↔
      x∈trimmedIds frozen.toList ∧ x≠trim orderId := by
  simp only [trimmedIds,remainingFrozen,mem_filter,mem_map,TreeSet.mem_toList,
    TreeSet.mem_ofList,contains_iff_mem,decide_eq_true_eq]
  constructor
  · intro h
    obtain ⟨⟨id,hid,hsame⟩,hx⟩ := h
    exact ⟨⟨⟨id,hid.1,hsame⟩,hx⟩,hsame ▸ hid.2⟩
  · intro h
    obtain ⟨⟨⟨id,hid,hsame⟩,hx⟩,hne⟩ := h
    exact ⟨⟨id,⟨hid,hsame ▸ hne⟩,hsame⟩,hx⟩

theorem transitionSequence_some : transitionSequence stored visible excluded (some orderId) =
      (effectiveApparatusSequenceExcluding stored visible excluded).filter (· ≠ trim orderId) ++
        if trim orderId∈trimmedIds visible then [trim orderId] else [] := by
  have hmem : ∀ x∈effectiveApparatusSequenceExcluding stored visible excluded,
      trim x=x ∧ x ≠ "" := fun x hx => trim_of_mem_trimmedIds
    ((mem_effectiveApparatusSequenceExcluding stored visible excluded x).mp hx).1
  by_cases hblank : trim orderId = ""
  · have hnone : "" ∉ trimmedIds visible := fun h => (trim_of_mem_trimmedIds h).2 rfl
    have hall : (effectiveApparatusSequenceExcluding stored visible excluded).filter (· ≠ "") =
        effectiveApparatusSequenceExcluding stored visible excluded := by
      rw [filter_eq_self]
      exact fun x hx => by simpa using (hmem x hx).2
    have happended : ((some orderId).map trim).filter (· ≠ "")=none := by simp [hblank]
    simp only [transitionSequence,happended]
    rw [hblank,hall,if_neg hnone,append_nil]
  · have hsame : (effectiveApparatusSequenceExcluding stored visible excluded).filter
        (fun candidate => trim candidate≠trim orderId) =
        (effectiveApparatusSequenceExcluding stored visible excluded).filter (· ≠ trim orderId) :=
      filter_congr fun x hx => by rw [(hmem x hx).1]
    have hany : (visible.any fun candidate => trim candidate=trim orderId)=true ↔
        trim orderId∈trimmedIds visible := by
      simp [trimmedIds,hblank]
    have happended : ((some orderId).map trim).filter (· ≠ "")=some (trim orderId) := by
      simp [hblank]
    simp only [transitionSequence,happended,hany]
    rw [← hsame]
    split
    · rfl
    · rw [append_nil]

/-- What the two transitions make of a queue: the order goes to the end if it is visible. -/
theorem transitionSequence_round_trip :
    transitionSequence (transitionSequence stored visible (frozen.insert orderId) none) visible
        (remainingFrozen frozen orderId) (some orderId) =
      (effectiveApparatusSequenceExcluding stored visible frozen).filter (· ≠ trim orderId) ++
        if trim orderId∈trimmedIds visible then [trim orderId] else [] := by
  have hfreeze : (effectiveApparatusSequenceExcluding stored visible frozen).filter
      (· ≠ trim orderId) =
        effectiveApparatusSequenceExcluding stored visible (frozen.insert orderId) :=
    effectiveApparatusSequenceExcluding_filter_excluded fun x hx => mem_trimmedIds_insert hx
  have hunfreeze : ∀ x, x ≠ "" → (x∈trimmedIds (frozen.insert orderId).toList ↔
      x∈trimmedIds (remainingFrozen frozen orderId).toList ∨ x=trim orderId) := by
    intro x hx
    rw [mem_trimmedIds_insert hx,mem_trimmedIds_remaining]
    by_cases heq : x=trim orderId
    · simp [heq]
    · simp [heq]
  rw [transitionSequence_some,effectiveApparatusSequenceExcluding_filter_excluded hunfreeze,
    hfreeze]
  congr 1
  exact effectiveApparatusSequenceExcluding_perm (List.Perm.refl _)

end Queue

section RoundTrip
variable {maps : List ProductionMapDefinition} {sequences : Sequences} {frozen : TreeSet String}
  {orderId : String}

section
variable (hkeys : ∀ key∈sequences, trim key=key)
include hkeys

theorem getElem?_freezeSequences (apparatus : String) :
    (freezeSequences maps sequences frozen orderId)[apparatus]? =
      (transitionUpdate (visibleOrderIdsByApparatus maps) sequences (frozen.insert orderId) none
        apparatus).or sequences[apparatus]? := by
  rw [freezeSequences,writeSequences,Table.getElem?_foldl_insert,getElem?_sequenceUpdates hkeys]

theorem trim_freezeSequences :
    ∀ key∈freezeSequences maps sequences frozen orderId, trim key=key := by
  intro key hkey
  rw [TreeMap.mem_iff_isSome_getElem?,freezeSequences,writeSequences,
    Table.getElem?_foldl_insert,Option.isSome_or,Bool.or_eq_true,
    ← TreeMap.mem_iff_isSome_getElem?,← TreeMap.mem_iff_isSome_getElem?] at hkey
  cases hkey with
  | inl hupdated => exact mem_sequenceUpdates hkeys hupdated
  | inr hstored => exact hkeys key hstored

/-- The stored sequence of an apparatus with visible orders after both transitions. -/
theorem getD_unfreezeSequences {apparatus : String}
    (hvisible : ((visibleOrderIdsByApparatus maps).getD apparatus []).isEmpty=false) :
    (unfreezeSequences maps (freezeSequences maps sequences frozen orderId) frozen orderId).getD
        apparatus [] =
      (apparatusQueue maps sequences frozen apparatus).filter (· ≠ trim orderId) ++
        if trim orderId∈trimmedIds ((visibleOrderIdsByApparatus maps).getD apparatus []) then
          [trim orderId] else [] := by
  have hfrozen : (freezeSequences maps sequences frozen orderId)[apparatus]? =
      some (transitionSequence (sequences[apparatus]?.getD [])
        ((visibleOrderIdsByApparatus maps).getD apparatus []) (frozen.insert orderId) none) := by
    rw [getElem?_freezeSequences hkeys,transitionUpdate,hvisible]
    rfl
  rw [TreeMap.getD_eq_getD_getElem?,unfreezeSequences,writeSequences,
    Table.getElem?_foldl_insert,getElem?_sequenceUpdates (trim_freezeSequences hkeys),
    transitionUpdate,hvisible,hfrozen]
  simp only [Bool.false_eq_true,if_false,Option.some_or,Option.getD_some]
  rw [transitionSequence_round_trip,apparatusQueue,TreeMap.getD_eq_getD_getElem? (t := sequences)]

end

end RoundTrip

section Sample

def pressOrder (id : String) : ProductionMapDefinition :=
  { id := id
    productCode := "film"
    title := "Film"
    nodes :=
      [{ id := "start", kind := .start, title := "Start" },
        { id := "print", kind := .apparatus, title := "Press", apparatusId := "apparatus:press:1" },
        { id := "end", kind := .endNode, title := "End" }]
    edges := [⟨"start","print",""⟩,⟨"print","end",""⟩] }

def pressOrders : List ProductionMapDefinition := [pressOrder "zakaz-2",pressOrder "zakaz-1"]

def pressSequences : Sequences := TreeMap.ofList [("apparatus:press:1", ["zakaz-1","zakaz-2"])]

/-- A key with a blank before it comes first, and the press under its own key is skipped. -/
def blankKeySequences : Sequences := pressSequences.insert " apparatus:press:1" []

end Sample

end MiniErp.Queue
