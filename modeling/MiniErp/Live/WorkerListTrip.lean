import MiniErp.Live.RoundTrip
import MiniErp.Live.WorkerList

/-! A client that applies the patch of the worker list holds the payload of the next view, and the
patch is empty exactly between equal payloads. -/
namespace MiniErp.Live
open Std TableDiff List

section Objects
variable {a b : TreeMap String Json}

theorem getElem?_object_objectJson (table : TreeMap String Json) (key : String) :
    (object (objectJson table))[key]?=table[key]? := by
  have hdistinct : table.toList.Pairwise fun a b => ¬compare a.1 b.1=.eq :=
    TreeMap.distinct_keys_toList
  cases hget : table[key]? with
  | none =>
    refine TreeMap.getElem?_ofList_of_contains_eq_false ?_
    rw [TreeMap.map_fst_toList_eq_keys,TreeMap.contains_keys,← TreeMap.isSome_getElem?_eq_contains,
      hget]
    rfl
  | some value =>
    exact TreeMap.getElem?_ofList_of_mem compare_self hdistinct
      (TreeMap.mem_toList_iff_getElem?_eq_some.mpr hget)

theorem toList_object_objectJson (table : TreeMap String Json) :
    (object (objectJson table)).toList=table.toList :=
  toList_eq_iff.mpr (getElem?_object_objectJson table)

theorem objectJson_inj : objectJson a=objectJson b ↔ a.toList=b.toList := by
  rw [objectJson,objectJson,Json.object.injEq]

theorem nestedJson_inj {a b : TreeMap String (TreeMap String Json)} :
    nestedJson a=nestedJson b ↔ scopeLists a=scopeLists b := by
  have hwrite : ∀ table : TreeMap String (TreeMap String Json),
      (table.map fun _ values => objectJson values).toList =
        (scopeLists table).map fun entry => (entry.1, Json.object entry.2) := by
    intro table
    rw [scopeLists,TreeMap.toList_map,TreeMap.toList_map,map_map]
    rfl
  rw [nestedJson,nestedJson,objectJson_inj,hwrite,hwrite]
  refine (map_injective_iff.mpr ?_).eq_iff
  intro first second h
  rw [Prod.mk.injEq,Json.object.injEq] at h
  exact Prod.ext h.1 h.2

theorem scopeLists_nested_nestedJson (table : TreeMap String (TreeMap String Json)) :
    scopeLists (nested (nestedJson table))=scopeLists table := by
  rw [scopeLists,scopeLists,toList_eq_iff]
  intro scope
  rw [nested,nestedJson,TreeMap.getElem?_map,TreeMap.getElem?_map,TreeMap.getElem?_map,
    getElem?_object_objectJson,TreeMap.getElem?_map]
  cases table[scope]? with
  | none => rfl
  | some values => exact congrArg some (toList_object_objectJson values)

end Objects

/-- What a patch does to one field: left out exactly where nothing changes, and otherwise it turns
the old value into the new one. -/
structure FieldTrip (rule : FieldRule) (change : Option Json) (old new : Json) : Prop where
  unchanged : change=none ↔ old=new
  applies : ∀ patch, change=some patch → applyRule rule old patch=some new

section Keyed
variable {β : Type} {toJson : β → Json} {before after : TreeMap String β}

section
variable (hinj : Function.Injective toJson)
include hinj

theorem toList_jsonTable_inj : (jsonTable toJson before).toList=(jsonTable toJson after).toList ↔
      before.toList=after.toList := by
  rw [jsonTable,jsonTable,TreeMap.toList_map,TreeMap.toList_map]
  refine (map_injective_iff.mpr ?_).eq_iff
  intro first second h
  rw [Prod.mk.injEq] at h
  exact Prod.ext h.1 (hinj h.2)

theorem fieldTrip_keyed {change : Option Json}
    (hnone : change=none ↔ before.toList=after.toList)
    (hsome : ∀ held patch, (∀ key : String, held[key]?=before[key]?.map toJson) →
      change=some patch → ∃ next, fieldPatch held patch=some next ∧
        ∀ key : String, next[key]?=after[key]?.map toJson) :
    FieldTrip .keyed change (objectJson (jsonTable toJson before))
      (objectJson (jsonTable toJson after)) := by
  constructor
  · rw [objectJson_inj,toList_jsonTable_inj hinj,hnone]
  · intro patch hpatch
    have hheld : ∀ key : String, (object (objectJson (jsonTable toJson before)))[key]? =
        before[key]?.map toJson := by
      intro key
      rw [getElem?_object_objectJson,getElem?_jsonTable]
    obtain ⟨next,hnext,hget⟩ := hsome _ patch hheld hpatch
    have hlist : next.toList=(jsonTable toJson after).toList := by
      rw [toList_eq_iff]
      intro key
      rw [hget,getElem?_jsonTable]
    rw [applyRule,hnext,Option.map_some,objectJson_inj.mpr hlist]

theorem fieldTrip_map [DecidableEq β] :
    FieldTrip .keyed (mapPatch toJson before after) (objectJson (jsonTable toJson before))
      (objectJson (jsonTable toJson after)) :=
  fieldTrip_keyed hinj mapPatch_eq_none fun _ _ hheld hpatch => fieldPatch_mapPatch hheld hpatch

end

theorem idsJson_injective : Function.Injective idsJson := by
  intro first second h
  rw [idsJson,idsJson,Json.array.injEq] at h
  exact map_injective_iff.mpr (fun _ _ h => Json.string.inj h) h

theorem fieldTrip_sequences {before after : TreeMap String (List String)} :
    FieldTrip .keyed (sequenceMapPatch before after) (objectJson (jsonTable idsJson before))
      (objectJson (jsonTable idsJson after)) :=
  fieldTrip_keyed idsJson_injective sequenceMapPatch_eq_none
    fun _ _ hheld hpatch => fieldPatch_sequenceMapPatch hheld hpatch

theorem fieldTrip_object (before after : TreeMap String Json) :
    FieldTrip .keyed (mapPatch id (object (objectJson before)) (object (objectJson after)))
      (objectJson before) (objectJson after) := by
  have hread : ∀ table : TreeMap String Json,
      objectJson (jsonTable id (object (objectJson table)))=objectJson table := by
    intro table
    rw [objectJson_inj,toList_eq_iff]
    intro key
    rw [getElem?_jsonTable,getElem?_object_objectJson,Option.map_id_fun,id]
  have htrip : FieldTrip .keyed (mapPatch id (object (objectJson before)) (object (objectJson after)))
      (objectJson (jsonTable id (object (objectJson before))))
      (objectJson (jsonTable id (object (objectJson after)))) :=
    fieldTrip_map Function.injective_id
  rwa [hread before,hread after] at htrip

end Keyed

section Nested
variable {β : Type} {toJson : β → Json} {before after : TreeMap String (TreeMap String β)}

theorem scopeLists_jsonTable_inj (hinj : Function.Injective toJson) :
    scopeLists (before.map fun _ => jsonTable toJson) =
        scopeLists (after.map fun _ => jsonTable toJson) ↔ scopeLists before=scopeLists after := by
  have hwrite : ∀ table : TreeMap String (TreeMap String β),
      scopeLists (table.map fun _ => jsonTable toJson)=(scopeLists table).map fun entry =>
          (entry.1, entry.2.map fun item => (item.1, toJson item.2)) := by
    intro table
    rw [scopeLists,scopeLists,TreeMap.toList_map,TreeMap.toList_map,TreeMap.toList_map,
      map_map,map_map]
    refine map_congr_left fun entry _ => ?_
    simp only [Function.comp_apply,jsonTable,TreeMap.toList_map]
  rw [hwrite,hwrite]
  refine (map_injective_iff.mpr ?_).eq_iff
  intro first second h
  rw [Prod.mk.injEq] at h
  refine Prod.ext h.1 (map_injective_iff.mpr ?_ h.2)
  intro item other hitem
  rw [Prod.mk.injEq] at hitem
  exact Prod.ext hitem.1 (hinj hitem.2)

theorem fieldTrip_nested [DecidableEq β] (hinj : Function.Injective toJson) :
    FieldTrip .nested (nestedPatch toJson before after)
      (nestedJson (before.map fun _ => jsonTable toJson))
      (nestedJson (after.map fun _ => jsonTable toJson)) := by
  constructor
  · rw [nestedJson_inj,scopeLists_jsonTable_inj hinj,nestedPatch_eq_none]
  · intro patch hpatch
    have hheld : HoldsScopes toJson
        (nested (nestedJson (before.map fun _ => jsonTable toJson))) before :=
      scopeLists_eq_iff.mp (scopeLists_nested_nestedJson _)
    obtain ⟨next,hnext,hholds⟩ := nestedFieldPatch_nestedPatch hheld hpatch
    rw [applyRule,hnext,Option.map_some,nestedJson_inj.mpr (scopeLists_eq_iff.mpr hholds)]

theorem fieldTrip_nestedObject (before after : TreeMap String (TreeMap String Json)) :
    FieldTrip .nested (nestedPatch id (nested (nestedJson before)) (nested (nestedJson after)))
      (nestedJson before) (nestedJson after) := by
  have hread : ∀ table : TreeMap String (TreeMap String Json),
      nestedJson ((nested (nestedJson table)).map fun _ => jsonTable id)=nestedJson table := by
    intro table
    rw [nestedJson_inj,← scopeLists_nested_nestedJson table]
    have hsame : ∀ values : TreeMap String Json, (jsonTable id values).toList=values.toList := by
      intro values
      rw [toList_eq_iff]
      intro key
      rw [getElem?_jsonTable,Option.map_id_fun,id]
    rw [scopeLists,scopeLists,TreeMap.toList_map,TreeMap.toList_map,TreeMap.toList_map, map_map]
    refine map_congr_left fun entry _ => ?_
    rw [Function.comp_apply,hsame]
  have htrip : FieldTrip .nested
      (nestedPatch id (nested (nestedJson before)) (nested (nestedJson after)))
      (nestedJson ((nested (nestedJson before)).map fun _ => jsonTable id))
      (nestedJson ((nested (nestedJson after)).map fun _ => jsonTable id)) :=
    fieldTrip_nested Function.injective_id
  rwa [hread before,hread after] at htrip

end Nested

theorem fieldTrip_whole (old new : Json) :
    FieldTrip .whole (if old≠new then some new else none) old new := by
  constructor
  · simp
  · intro patch hpatch
    split at hpatch
    · cases hpatch
      rfl
    · cases hpatch

section Fields
variable {P : String → Json → Json → Prop} {fs gs : List (String × Json)}

def Related (P : String → Json → Json → Prop) : List (String × Json) → List (String × Json) → Prop :=
  List.Forall₂ fun old new => old.1=new.1 ∧ P old.1 old.2 new.2

theorem Related.setField (h : Related P fs gs) {key : String} {old new : Json}
    (hkey : P key old new) : Related P (Json.setField key old fs) (Json.setField key new gs) := by
  induction h with
  | nil => exact .cons ⟨rfl,hkey⟩ .nil
  | @cons first second _ _ hfirst hrest ih =>
    obtain ⟨name,value⟩ := first
    obtain ⟨other,value'⟩ := second
    obtain ⟨hname,hvalue⟩ := hfirst
    subst hname
    simp only [Json.setField]
    split
    · exact .cons ⟨rfl,hkey⟩ hrest
    · split
      · exact .cons ⟨rfl,hkey⟩ (.cons ⟨rfl,hvalue⟩ hrest)
      · exact .cons ⟨rfl,hvalue⟩ ih

theorem Related.foldl_setField {olds news : List (String × Json)} (hfields : Related P olds news)
    (h : Related P fs gs) :
    Related P (olds.foldl (fun value field => Json.setField field.1 field.2 value) fs)
      (news.foldl (fun value field => Json.setField field.1 field.2 value) gs) := by
  induction hfields generalizing fs gs with
  | nil => exact h
  | @cons first second _ _ hfirst _ ih =>
    rw [foldl_cons,foldl_cons,← hfirst.1]
    exact ih (h.setField hfirst.2)

theorem mem_names_setField {name key : String} {value : Json} :
    name∈(Json.setField key value fs).map Prod.fst ↔ name=key ∨ name∈fs.map Prod.fst := by
  induction fs with
  | nil => simp [Json.setField]
  | cons first rest ih =>
    simp only [Json.setField]
    split
    · rename_i hkey
      simp [hkey]
    · split
      · simp
      · rw [map_cons,mem_cons,ih,map_cons,mem_cons]
        exact or_left_comm

theorem mem_names_foldl_setField {name : String} :
    name∈(gs.foldl (fun value field => Json.setField field.1 field.2 value) fs).map Prod.fst ↔
      name∈gs.map Prod.fst ∨ name∈fs.map Prod.fst := by
  induction gs generalizing fs with
  | nil => simp
  | cons first rest ih =>
    rw [foldl_cons,ih,mem_names_setField,map_cons,mem_cons,or_left_comm,or_assoc]

theorem applyWorkerPatch_related {patch : List (String × Json)}
    (h : Related (fun name => FieldTrip (fieldRule name) (patch.lookup name)) fs gs) :
    applyWorkerPatch patch fs=some gs := by
  induction h with
  | nil => rfl
  | @cons first second _ _ hfirst _ ih =>
    obtain ⟨hname,htrip⟩ := hfirst
    have hfield : applyField (applyRule (fieldRule first.1)) patch first.1 first.2 =
        some second.2 := by
      unfold applyField
      cases hchange : patch.lookup first.1 with
      | none => exact congrArg some (htrip.unchanged.mp hchange)
      | some change => exact htrip.applies change hchange
    rw [applyWorkerPatch] at ih ⊢
    rw [mapM_cons,hfield,ih,hname]
    rfl

end Fields

theorem get_toJson (record : ApparatusQueuePolicyRecord) (name : String) :
    record.toJson.get name=if name = "reason" then
        if record.reason = "" then none else some (.string record.reason)
      else [("apparatus_id", Json.string record.apparatusId),
        ("apparatus", .string record.apparatus),("policy", .string (policyName record.policy)),
        ("locked", .bool record.locked)].lookup name := by
  by_cases hreason : record.reason = ""
  · rw [ApparatusQueuePolicyRecord.toJson,if_pos hreason,Json.ofFields,Json.get,
      Json.lookup_foldl_setField (by simp),lookup_nil,Option.or_none,append_nil]
    by_cases hname : name = "reason"
    · rw [hname,if_pos hreason]
      rfl
    · rw [if_neg hname]
  · rw [ApparatusQueuePolicyRecord.toJson,if_neg hreason,Json.ofFields,Json.get,
      Json.lookup_foldl_setField (by simp),lookup_nil]
    by_cases hname : name = "reason"
    · rw [hname,if_neg hreason]
      rfl
    · simp [Json.lookup_cons_ite,hname]

theorem policyName_injective : Function.Injective policyName := by
  intro first second h
  cases first <;> cases second <;> simp_all [policyName]

theorem toJson_injective : Function.Injective ApparatusQueuePolicyRecord.toJson := by
  intro first second h
  have hget : ∀ name, first.toJson.get name=second.toJson.get name := by
    intro name
    rw [h]
  simp only [get_toJson] at hget
  have hid := hget "apparatus_id"
  have happaratus := hget "apparatus"
  have hpolicy := hget "policy"
  have hlocked := hget "locked"
  have hreason := hget "reason"
  simp [lookup_cons] at hid happaratus hpolicy hlocked hreason
  have htext : first.reason=second.reason := by
    by_cases hfirst : first.reason = "" <;> by_cases hsecond : second.reason = "" <;> simp_all
  cases first
  cases second
  simp only [ApparatusQueuePolicyRecord.mk.injEq]
  exact ⟨hid,happaratus,policyName_injective hpolicy,hlocked,htext⟩

theorem policyJson_injective (R : LiveRecords) : Function.Injective R.policyJson := by
  intro first second h
  rw [R.policyJson_eq,R.policyJson_eq] at h
  exact R.policy_injective (toJson_injective h)

section Views
variable {R : LiveRecords} {before after : WorkerView R}

theorem fieldAt_fields (view : WorkerView R) (name : String) :
    fieldAt (fields view) name=(((viewFields view).lookup name).or
      ((projectedFields view.snapshot view.customers).lookup name)).getD .null := by
  have hview : ((viewFields view).map Prod.fst).Nodup := by simp [viewFields]
  have hprojected : ((projectedFields view.snapshot view.customers).map Prod.fst).Nodup := by
    simp [projectedFields]
  rw [fieldAt,fields,projectWorker,Json.lookup_foldl_setField hview,
    Json.lookup_foldl_setField hprojected,lookup_nil,Option.or_none]

theorem nodup_workerPatchFields : ((workerPatchFields before after).map Prod.fst).Nodup := by
  simp [workerPatchFields]

theorem fieldTrip_at {name : String} {rule : FieldRule} {change : Option Json} {old new : Json}
    (hrule : fieldRule name=rule)
    (hlookup : (workerPatchFields before after).lookup name=some change)
    (h : FieldTrip rule change old new) :
    FieldTrip (fieldRule name) ((workerPatch before after).lookup name) old new := by
  rw [workerPatch,lookup_foldl_presentFields nodup_workerPatchFields,hlookup,hrule]
  exact h

theorem related_projected : Related (fun name old new => name ≠ "queue_policies" →
        FieldTrip (fieldRule name) ((workerPatch before after).lookup name) old new)
      (projectedFields before.snapshot before.customers)
      (projectedFields after.snapshot after.customers) := by
  refine .cons ⟨rfl,fun _ => fieldTrip_at rfl rfl ?_⟩ (.cons ⟨rfl,fun _ => fieldTrip_at rfl rfl ?_⟩
    (.cons ⟨rfl,fun _ => fieldTrip_at rfl rfl ?_⟩ (.cons ⟨rfl,fun _ => fieldTrip_at rfl rfl ?_⟩ .nil)))
  · rw [fieldAt_fields,fieldAt_fields]
    exact fieldTrip_object _ _
  · rw [fieldAt_fields,fieldAt_fields]
    exact fieldTrip_nestedObject _ _
  · rw [fieldAt_fields,fieldAt_fields]
    exact fieldTrip_nestedObject _ _
  · rw [fieldAt_fields,fieldAt_fields]
    exact fieldTrip_object _ _

theorem revisionJson_injective : Function.Injective revisionJson := by
  intro first second h
  exact Number.int.inj (Json.number.inj h)

theorem natJson_injective : Function.Injective natJson := by
  intro first second h
  exact Int.ofNat.inj (Number.int.inj (Json.number.inj h))

theorem string_injective : Function.Injective Json.string := fun _ _ h => Json.string.inj h

theorem related_view : Related (fun name old new => name ≠ "queue_policies" →
        FieldTrip (fieldRule name) ((workerPatch before after).lookup name) old new)
      (viewFields before) (viewFields after) := by
  refine .cons ⟨rfl,fun _ => fieldTrip_at rfl rfl ?_⟩ (.cons ⟨rfl,fun _ => fieldTrip_at rfl rfl ?_⟩
    (.cons ⟨rfl,fun _ => fieldTrip_at rfl rfl ?_⟩ (.cons ⟨rfl,fun _ => fieldTrip_at rfl rfl ?_⟩
    (.cons ⟨rfl,fun _ => fieldTrip_at rfl rfl ?_⟩ (.cons ⟨rfl,fun _ => fieldTrip_at rfl rfl ?_⟩
    (.cons ⟨rfl,fun _ => fieldTrip_at rfl rfl ?_⟩ (.cons ⟨rfl,fun hname => absurd rfl hname⟩
    (.cons ⟨rfl,fun _ => fieldTrip_at rfl rfl ?_⟩ (.cons ⟨rfl,fun _ => fieldTrip_at rfl rfl ?_⟩
    (.cons ⟨rfl,fun _ => fieldTrip_at rfl rfl ?_⟩ .nil))))))))))
  · rw [fieldAt_fields,fieldAt_fields]
    exact fieldTrip_object _ _
  · exact fieldTrip_sequences
  · exact fieldTrip_sequences
  · exact fieldTrip_map string_injective
  · exact fieldTrip_map revisionJson_injective
  · exact fieldTrip_nested natJson_injective
  · exact fieldTrip_nested string_injective
  · rw [fieldAt_fields,fieldAt_fields]
    exact fieldTrip_whole _ _
  · rw [fieldAt_fields,fieldAt_fields]
    exact fieldTrip_whole _ _
  · rw [fieldAt_fields,fieldAt_fields]
    exact fieldTrip_whole _ _

theorem related_heldPayload (before after : WorkerView R) :
    Related (fun name => FieldTrip (fieldRule name) ((workerPatch before after).lookup name))
      (heldPayload before) (heldPayload after) := by
  have hfields : Related (fun name old new => name ≠ "queue_policies" →
      FieldTrip (fieldRule name) ((workerPatch before after).lookup name) old new)
      (fields before) (fields after) :=
    related_view.foldl_setField (related_projected.foldl_setField .nil)
  rw [Related,heldPayload,heldPayload,forall₂_map_left_iff,forall₂_map_right_iff]
  refine hfields.imp ?_
  intro old new h
  rw [← h.1]
  by_cases hname : old.1 = "queue_policies"
  · rw [hname]
    exact ⟨rfl,fieldTrip_at rfl rfl (fieldTrip_map (policyJson_injective R))⟩
  · rw [if_neg hname,if_neg hname]
    exact ⟨h.1,h.2 hname⟩

theorem mem_names_heldPayload {name : String} {change : Json}
    (h : (workerPatch before after).lookup name=some change) :
    name∈(heldPayload before).map Prod.fst := by
  have hkeys : ∀ field∈workerPatchFields before after, field.1∈(fields before).map Prod.fst := by
    simp only [fields,projectWorker,mem_names_foldl_setField]
    simp [workerPatchFields,viewFields,projectedFields]
  have hnames : (heldPayload before).map Prod.fst=(fields before).map Prod.fst := by
    rw [heldPayload,map_map]
    refine map_congr_left fun entry _ => ?_
    rw [Function.comp_apply]
    split <;> rfl
  rw [workerPatch,lookup_foldl_presentFields nodup_workerPatchFields,Option.join_eq_some_iff] at h
  obtain ⟨field,hfield,heq⟩ := lookup_isSome_iff.mp (Option.isSome_of_mem h)
  rw [hnames,eq_of_beq heq]
  exact hkeys field hfield

theorem workerPatch_eq_nil :
    workerPatch before after=[] ↔ heldPayload before=heldPayload after := by
  have htrips := related_heldPayload before after
  constructor
  · intro hnil
    refine forall₂_eq_eq_eq ▸ htrips.imp ?_
    intro old new h
    rw [hnil] at h
    exact Prod.ext h.1 (h.2.unchanged.mp rfl)
  · intro hsame
    rw [← hsame,Related,forall₂_same] at htrips
    cases hpatch : workerPatch before after with
    | nil => rfl
    | cons first rest =>
      have hchange : (workerPatch before after).lookup first.1=some first.2 := by
        rw [hpatch]
        exact lookup_cons_self
      obtain ⟨entry,hentry,hname⟩ := mem_map.mp (mem_names_heldPayload hchange)
      have hnone := (htrips entry hentry).2.unchanged.mpr rfl
      rw [hname,hchange] at hnone
      cases hnone

/-- The patch turns the payload a client holds of the old view into that of the new one, and is
empty exactly when the payloads are equal. -/
theorem workerPatch_round_trip (before after : WorkerView R) :
    applyWorkerPatch (workerPatch before after) (heldPayload before)=some (heldPayload after) ∧
      (workerPatch before after=[] ↔ heldPayload before=heldPayload after) :=
  ⟨applyWorkerPatch_related (related_heldPayload before after),workerPatch_eq_nil⟩

end Views

end MiniErp.Live
