import MiniErp.Live.SnapshotPatch

/-! A client that applies the patch from one snapshot to the next shows the next one. -/
namespace MiniErp.Live
open Std TableDiff List Option

section Keyed
variable {β : Type} [DecidableEq β] {toJson : β → Json} {before after : TreeMap String β}

theorem mapPatch_eq_none : mapPatch toJson before after=none ↔ before.toList=after.toList := by
  rw [toList_eq_iff,← upserts_removals_eq_nil]
  simp [mapPatch]

theorem getElem?_jsonTable {γ : Type} (toJson : γ → Json) (table : TreeMap String γ) (key : String) :
    (jsonTable toJson table)[key]?=table[key]?.map toJson := by
  rw [jsonTable,TreeMap.getElem?_map]

theorem toList_jsonTable {γ : Type} {toJson : γ → Json} {first second : TreeMap String γ}
    (h : first.toList=second.toList) :
    (jsonTable toJson first).toList=(jsonTable toJson second).toList := by
  rw [toList_eq_iff] at *
  intro key
  rw [getElem?_jsonTable,getElem?_jsonTable,h]

theorem fieldPatch_changeJson (held : TreeMap String Json) (upsert : List (String × Json))
    (remove : List String) :
    fieldPatch held (changeJson upsert remove)=some (writeAll upsert (dropKeys remove held)) := by
  simp [fieldPatch,changeJson,Json.ofFields,Json.get,Json.lookup_setField,idsJson,
    Json.asStrings_map_string]

theorem fieldPatch_mapPatch {patch : Json} {held : TreeMap String Json}
    (hheld : ∀ key : String, held[key]?=before[key]?.map toJson)
    (h : mapPatch toJson before after=some patch) : ∃ next, fieldPatch held patch=some next ∧
      ∀ key : String, next[key]?=after[key]?.map toJson := by
  simp only [mapPatch] at h
  split at h
  · cases h
  · cases h
    exact ⟨_,fieldPatch_changeJson _ _ _,getElem?_apply toJson hheld⟩

omit [DecidableEq β] in
theorem applyField_keyed {patch : List (String × Json)} {name : String}
    (hnone : patch.lookup name=none → before.toList=after.toList)
    (hsome : ∀ change, patch.lookup name=some change →
      ∃ next, fieldPatch (jsonTable toJson before) change=some next ∧
        ∀ key : String, next[key]?=after[key]?.map toJson) :
    ∃ next, applyField fieldPatch patch name (jsonTable toJson before)=some next ∧
      next.toList=(jsonTable toJson after).toList := by
  unfold applyField
  cases hpatch : patch.lookup name with
  | none => exact ⟨_,rfl,toList_jsonTable (hnone hpatch)⟩
  | some change =>
    obtain ⟨next,hnext,hget⟩ := hsome change hpatch
    refine ⟨next,hnext,toList_eq_iff.mpr fun key => ?_⟩
    rw [hget,getElem?_jsonTable]

theorem applyField_mapPatch {patch : List (String × Json)} {name : String}
    (h : patch.lookup name=mapPatch toJson before after) :
    ∃ next, applyField fieldPatch patch name (jsonTable toJson before)=some next ∧
      next.toList=(jsonTable toJson after).toList := by
  refine applyField_keyed ?_ ?_
  · intro hnone
    exact mapPatch_eq_none.mp (h.symm.trans hnone)
  · intro change hchange
    exact fieldPatch_mapPatch (getElem?_jsonTable toJson before) (h.symm.trans hchange)

end Keyed

section Sequences
variable {before after : TreeMap String (List String)}

theorem sequenceMapPatch_eq_none :
    sequenceMapPatch before after=none ↔ before.toList=after.toList := by
  rw [toList_eq_iff,← upserts_removals_eq_nil]
  simp only [sequenceMapPatch]
  constructor
  · intro h
    split at h
    · rename_i hnone
      obtain ⟨hupsert,hedit,hremove⟩ := hnone
      refine ⟨eq_nil_iff_forall_not_mem.mpr fun entry hentry => ?_,hremove⟩
      cases hlist : listEdit before entry with
      | none =>
        rw [filter_eq_nil_iff] at hupsert
        exact hupsert entry hentry (by rw [hlist]; rfl)
      | some edit =>
        rw [List.isEmpty_iff,filterMap_eq_nil_iff] at hedit
        have hnone := hedit entry hentry
        rw [hlist] at hnone
        cases hnone
    · cases h
  · intro h
    rw [if_pos]
    rw [h.1,h.2]
    exact ⟨rfl,rfl,rfl⟩

theorem foldlM_replayEdit {changed : List (String × List String)}
    {held written : TreeMap String Json}
    (hheld : ∀ key : String, held[key]?=before[key]?.map idsJson) :
    (changed.filterMap fun entry => (listEdit before entry).map fun edit => (entry.1, edit)).foldlM
        (replayEdit held) written =
      some (writeAll ((changed.filter fun entry => !(listEdit before entry).isNone).map fun entry =>
        (entry.1, idsJson entry.2)) written) := by
  induction changed generalizing written with
  | nil => rfl
  | cons entry rest ih =>
    cases hedit : listEdit before entry with
    | none => simpa [hedit] using ih
    | some edit =>
      obtain ⟨previous,hprevious,hsequence⟩ := bind_eq_some_iff.mp hedit
      have hstrings : held[entry.1]?.bind Json.asStrings=some previous := by
        rw [hheld,hprevious]
        exact Json.asStrings_map_string previous
      have hstep : replayEdit held written (entry.1, edit) =
          some (written.insert entry.1 (idsJson entry.2)) := by
        simp [replayEdit,hstrings,applySequenceEdit_sequenceEdit hsequence]
      rw [filterMap_cons,hedit,map_some,foldlM_cons,hstep,
        filter_cons_of_pos (by rw [hedit]; rfl),map_cons]
      exact ih

theorem fieldPatch_sequenceMapPatch {patch : Json} {held : TreeMap String Json}
    (hheld : ∀ key : String, held[key]?=before[key]?.map idsJson)
    (h : sequenceMapPatch before after=some patch) : ∃ next, fieldPatch held patch=some next ∧
      ∀ key : String, next[key]?=after[key]?.map idsJson := by
  have hread : ∀ (upsert edits : List (String × Json)) (remove : List String),
      fieldPatch held (Json.ofFields [("upsert", .object upsert),("remove", idsJson remove),
        ("edit", .object edits)]) =
          edits.foldlM (replayEdit held) (writeAll upsert (dropKeys remove held)) := by
    simp [fieldPatch,Json.ofFields,Json.get,Json.lookup_setField,idsJson,Json.asStrings_map_string]
  simp only [sequenceMapPatch] at h
  split at h
  · cases h
  · cases h
    refine ⟨_,(hread _ _ _).trans (foldlM_replayEdit hheld),fun key => ?_⟩
    -- the lists sent whole and the edited ones are together the lists that changed
    have hperm : (((upserts before after).filter fun entry => (listEdit before entry).isNone) ++
        (upserts before after).filter fun entry => !(listEdit before entry).isNone).Perm
          (upserts before after) := filter_append_perm _ _
    have hjoined := hperm.map fun entry => (entry.1, idsJson entry.2)
    rw [map_append] at hjoined
    have hnodup : (((upserts before after).map fun entry => (entry.1, idsJson entry.2)).map
        Prod.fst).Nodup := by
      rw [List.map_map]
      exact nodup_upserts
    have happly : (writeAll ((upserts before after).map fun entry => (entry.1, idsJson entry.2))
        (dropKeys (removals before after) held))[key]?=after[key]?.map idsJson :=
      getElem?_apply idsJson hheld key
    rw [← happly,← getElem?_writeAll_perm hjoined hnodup,writeAll,writeAll,writeAll, foldl_append]

theorem applyField_listPatch {patch : List (String × Json)} {name : String} {compact : Bool}
    (h : patch.lookup name=listPatch compact before after) :
    ∃ next, applyField fieldPatch patch name (jsonTable idsJson before)=some next ∧
      next.toList=(jsonTable idsJson after).toList := by
  cases compact with
  | false => exact applyField_mapPatch h
  | true =>
    refine applyField_keyed ?_ ?_
    · intro hnone
      exact sequenceMapPatch_eq_none.mp (h.symm.trans hnone)
    · intro change hchange
      exact fieldPatch_sequenceMapPatch (getElem?_jsonTable idsJson before) (h.symm.trans hchange)

theorem listPatch_eq_none {compact : Bool} :
    listPatch compact before after=none ↔ before.toList=after.toList := by
  cases compact with
  | false => exact mapPatch_eq_none
  | true => exact sequenceMapPatch_eq_none

end Sequences

section Nested
variable {β : Type} [DecidableEq β] {toJson : β → Json}
  {before after : TreeMap String (TreeMap String β)}

theorem scopePatch_eq_none {scope : String} {values : TreeMap String β} :
    scopePatch toJson before scope values=none ↔
      ∃ old, before[scope]?=some old ∧ old.toList=values.toList := by
  rw [scopePatch,or_eq_none_iff,mapPatch_eq_none]
  cases hget : before[scope]? with
  | none =>
    have hcontains : before.contains scope=false := by
      rw [← TreeMap.isSome_getElem?_eq_contains,hget]
      rfl
    simp [hcontains]
  | some old =>
    have hcontains : before.contains scope=true := by
      rw [← TreeMap.isSome_getElem?_eq_contains,hget]
      rfl
    simp [hcontains]

theorem fieldPatch_scopePatch {scope : String} {values : TreeMap String β} {patch : Json}
    {held : TreeMap String Json}
    (hheld : ∀ key : String, held[key]?=(before[scope]?.getD ∅)[key]?.map toJson)
    (h : scopePatch toJson before scope values=some patch) : ∃ next,
    fieldPatch held patch=some next ∧ ∀ key : String, next[key]?=values[key]?.map toJson := by
  cases hmap : mapPatch toJson (before[scope]?.getD ∅) values with
  | some change =>
    rw [scopePatch,hmap] at h
    cases h
    exact fieldPatch_mapPatch hheld hmap
  | none =>
    rw [scopePatch,hmap] at h
    split at h
    · cases h
    · cases h
      refine ⟨held,fieldPatch_changeJson held [] [],fun key => ?_⟩
      rw [hheld,toList_eq_iff.mp (mapPatch_eq_none.mp hmap)]

def HoldsScopes (toJson : β → Json) (held : TreeMap String (TreeMap String Json))
    (table : TreeMap String (TreeMap String β)) : Prop :=
  ∀ scope : String, held[scope]?.map TreeMap.toList =
    table[scope]?.map fun values => (jsonTable toJson values).toList

variable {held : TreeMap String (TreeMap String Json)}

omit [DecidableEq β] in
theorem holdsScopes_get (h : HoldsScopes toJson held before) (scope key : String) :
    (held[scope]?.getD ∅)[key]?=(before[scope]?.getD ∅)[key]?.map toJson := by
  have hscope := h scope
  cases hbefore : before[scope]? with
  | none =>
    rw [hbefore,map_none,map_eq_none_iff] at hscope
    simp [hscope]
  | some old =>
    rw [hbefore,map_some,map_eq_some_iff] at hscope
    obtain ⟨values,hvalues,hlist⟩ := hscope
    rw [hvalues,getD_some,getD_some,toList_eq_iff.mp hlist,getElem?_jsonTable]

theorem foldlM_applyScope {entries : List (String × TreeMap String β)}
    (hnodup : (entries.map Prod.fst).Nodup) {nested : TreeMap String (TreeMap String Json)}
    (hheld : ∀ entry∈entries, ∀ key : String,
      (nested[entry.1]?.getD ∅)[key]?=(before[entry.1]?.getD ∅)[key]?.map toJson) :
    ∃ next, (entries.filterMap fun entry =>
        (scopePatch toJson before entry.1 entry.2).map fun patch => (entry.1, patch)).foldlM
          applyScope nested=some next ∧
      (∀ scope : String, scope∉entries.map Prod.fst → next[scope]?=nested[scope]?) ∧
      ∀ entry∈entries,
        scopePatch toJson before entry.1 entry.2=none ∧ next[entry.1]?=nested[entry.1]? ∨
        ∃ values, next[entry.1]?=some values ∧
          ∀ key : String, values[key]?=entry.2[key]?.map toJson := by
  induction entries generalizing nested with
  | nil => exact ⟨nested,rfl,fun _ _ => rfl,by simp⟩
  | cons first rest ih =>
    obtain ⟨hfirst,hrest⟩ := nodup_cons.mp hnodup
    cases hpatch : scopePatch toJson before first.1 first.2 with
    | none =>
      obtain ⟨next,hnext,hother,hentries⟩ := ih hrest
        fun entry hentry => hheld entry (mem_cons_of_mem _ hentry)
      refine ⟨next,by simpa [hpatch] using hnext,?_,?_⟩
      · intro scope hscope
        rw [map_cons,mem_cons,not_or] at hscope
        exact hother scope hscope.2
      · intro entry hentry
        cases hentry with
        | head => exact .inl ⟨hpatch,hother _ hfirst⟩
        | tail _ hentry => exact hentries entry hentry
    | some change =>
      obtain ⟨values,hvalues,hget⟩ := fieldPatch_scopePatch (hheld first mem_cons_self) hpatch
      have hstep : applyScope nested (first.1, change)=some (nested.insert first.1 values) := by
        simp [applyScope,hvalues]
      have hkeep : ∀ scope : String, scope≠first.1 →
          (nested.insert first.1 values)[scope]?=nested[scope]? := by
        intro scope hne
        rw [TreeMap.getElem?_insert,if_neg]
        intro heq
        exact hne (LawfulEqOrd.eq_of_compare heq).symm
      have hapart : ∀ entry∈rest, entry.1≠first.1 := by
        intro entry hentry heq
        exact hfirst (List.mem_map.mpr ⟨entry,hentry,heq⟩)
      have hheldRest : ∀ entry∈rest, ∀ key : String,
          ((nested.insert first.1 values)[entry.1]?.getD ∅)[key]? =
            (before[entry.1]?.getD ∅)[key]?.map toJson := by
        intro entry hentry key
        rw [hkeep _ (hapart entry hentry)]
        exact hheld entry (mem_cons_of_mem _ hentry) key
      obtain ⟨next,hnext,hother,hentries⟩ := ih hrest hheldRest
      refine ⟨next,?_,?_,?_⟩
      · rw [filterMap_cons,hpatch,map_some,foldlM_cons,hstep]
        exact hnext
      · intro scope hscope
        rw [map_cons,mem_cons,not_or] at hscope
        rw [hother scope hscope.2,hkeep scope hscope.1]
      · intro entry hentry
        cases hentry with
        | head =>
          refine .inr ⟨values,?_,hget⟩
          rw [hother _ hfirst,TreeMap.getElem?_insert_self]
        | tail _ hentry =>
          cases hentries entry hentry with
          | inl hsame => exact .inl ⟨hsame.1,hsame.2.trans (hkeep _ (hapart entry hentry))⟩
          | inr hchanged => exact .inr hchanged

omit [DecidableEq β] in
theorem scopeLists_eq_iff : scopeLists held=scopeLists (before.map fun _ => jsonTable toJson) ↔
      HoldsScopes toJson held before := by
  rw [scopeLists,scopeLists,toList_eq_iff]
  refine forall_congr' fun scope => ?_
  rw [TreeMap.getElem?_map,TreeMap.getElem?_map,TreeMap.getElem?_map,Option.map_map]
  rfl

theorem nodup_toList_keys {γ : Type} (table : TreeMap String γ) :
    (table.toList.map Prod.fst).Nodup := by
  rw [TreeMap.map_fst_toList_eq_keys]
  exact TreeMap.nodup_keys

theorem nestedFieldPatch_nestedPatch {patch : Json}
    (hheld : HoldsScopes toJson held before) (h : nestedPatch toJson before after=some patch) :
    ∃ next, nestedFieldPatch held patch=some next ∧ HoldsScopes toJson next after := by
  have hread : ∀ (scopes : List (String × Json)) (remove : List String),
      nestedFieldPatch held (Json.ofFields [("scopes", .object scopes),
        ("remove", idsJson remove)])=scopes.foldlM applyScope (dropKeys remove held) := by
    simp [nestedFieldPatch,Json.ofFields,Json.get,Json.lookup_setField,idsJson,
      Json.asStrings_map_string]
  simp only [nestedPatch] at h
  split at h
  · cases h
  · cases h
    have hkept : ∀ entry∈after.toList,
        (dropKeys (removals before after) held)[entry.1]?=held[entry.1]? := by
      intro entry hentry
      have hafter := TreeMap.mem_toList_iff_getElem?_eq_some.mp hentry
      rw [getElem?_dropKeys,if_neg]
      intro hremoved
      rw [(mem_removals.mp hremoved).2] at hafter
      cases hafter
    obtain ⟨next,hnext,hother,hentries⟩ := foldlM_applyScope (nodup_toList_keys after)
      fun entry hentry key => (hkept entry hentry).symm ▸ holdsScopes_get hheld entry.1 key
    refine ⟨next,(hread _ _).trans hnext,fun scope => ?_⟩
    cases hafter : after[scope]? with
    | none =>
      have hnot : scope∉after.toList.map Prod.fst := by
        rw [TreeMap.map_fst_toList_eq_keys,TreeMap.mem_keys,TreeMap.mem_iff_isSome_getElem?,hafter]
        simp
      rw [hother scope hnot,getElem?_dropKeys]
      split
      · rfl
      · rename_i hkeep
        have hbefore : before[scope]?=none := by
          by_contra hne
          exact hkeep (mem_removals.mpr ⟨hne,hafter⟩)
        rw [hheld scope,hbefore]
    | some values =>
      have hmem : (scope, values)∈after.toList := TreeMap.mem_toList_iff_getElem?_eq_some.mpr hafter
      cases hentries _ hmem with
      | inl hsame =>
        obtain ⟨old,hold,hlist⟩ := scopePatch_eq_none.mp hsame.1
        rw [hsame.2,hkept _ hmem,hheld scope,hold,map_some,map_some, toList_jsonTable hlist]
      | inr hchanged =>
        obtain ⟨held',hheld',hget⟩ := hchanged
        rw [hheld',map_some,map_some,some.injEq,toList_eq_iff]
        intro key
        rw [hget,getElem?_jsonTable]

theorem nestedPatch_eq_none :
    nestedPatch toJson before after=none ↔ scopeLists before=scopeLists after := by
  have hiff : nestedPatch toJson before after=none ↔ (∀ scope values, after[scope]?=some values →
        scopePatch toJson before scope values=none) ∧ removals before after=[] := by
    simp [nestedPatch]
  rw [hiff,scopeLists,scopeLists,toList_eq_iff,eq_nil_iff_forall_not_mem]
  simp only [TreeMap.getElem?_map,mem_removals,scopePatch_eq_none]
  constructor
  · intro h scope
    cases hafter : after[scope]? with
    | none =>
      by_contra hne
      exact h.2 scope ⟨fun hnone => hne (by rw [hnone]),hafter⟩
    | some values =>
      obtain ⟨old,hold,hlist⟩ := h.1 scope values hafter
      rw [hold,map_some,map_some,hlist]
  · intro h
    constructor
    · intro scope values hafter
      have hscope := h scope
      rw [hafter,map_some,map_eq_some_iff] at hscope
      exact hscope
    · intro scope hscope
      have hsame := h scope
      rw [hscope.2,map_none,map_eq_none_iff] at hsame
      exact hscope.1 hsame

theorem applyField_nestedPatch {patch : List (String × Json)} {name : String}
    (h : patch.lookup name=nestedPatch toJson before after) :
    ∃ next, applyField nestedFieldPatch patch name (before.map fun _ => jsonTable toJson) =
        some next ∧ scopeLists next=scopeLists (after.map fun _ => jsonTable toJson) := by
  have hheld : HoldsScopes toJson (before.map fun _ => jsonTable toJson) before :=
    scopeLists_eq_iff.mp rfl
  unfold applyField
  cases hpatch : nestedPatch toJson before after with
  | none =>
    rw [h,hpatch]
    refine ⟨_,rfl,scopeLists_eq_iff.mpr fun scope => ?_⟩
    have hsame := toList_eq_iff.mp (nestedPatch_eq_none.mp hpatch) scope
    rw [TreeMap.getElem?_map,TreeMap.getElem?_map] at hsame
    rw [hheld scope]
    cases hbefore : before[scope]? with
    | none =>
      rw [hbefore,map_none,eq_comm,map_eq_none_iff] at hsame
      rw [hsame]
    | some old =>
      rw [hbefore,map_some,eq_comm,map_eq_some_iff] at hsame
      obtain ⟨values,hvalues,hlist⟩ := hsame
      rw [hvalues,map_some,map_some,toList_jsonTable hlist]
  | some change =>
    rw [h,hpatch]
    obtain ⟨next,hnext,hholds⟩ := nestedFieldPatch_nestedPatch hheld hpatch
    exact ⟨next,hnext,scopeLists_eq_iff.mpr hholds⟩

end Nested

section ById
variable {α : Type} {key : α → String} {items : List α}

theorem getElem?_byId (hnodup : (items.map key).Nodup) {item : α} (h : item∈items) :
    (byId key items)[key item]?=some item := by
  refine TreeMap.getElem?_ofList_of_mem compare_self ?_ (List.mem_map.mpr ⟨item,h,rfl⟩)
  have hne : items.Pairwise fun a b => key a≠key b := pairwise_map.mp hnodup
  refine pairwise_map.mpr (hne.imp ?_)
  intro a b hab heq
  exact hab (LawfulEqOrd.eq_of_compare heq)

/-- Records with distinct ids are read back in the order of their ids. -/
theorem filterMap_byId {γ : Type} (f : α → γ) (hnodup : (items.map key).Nodup) :
    (items.map key).filterMap (fun id => (byId key items)[id]?.map f)=items.map f := by
  rw [filterMap_map,← filterMap_eq_map']
  refine filterMap_congr fun item hitem => ?_
  rw [Function.comp_apply,getElem?_byId hnodup hitem]
  rfl

theorem eq_of_byId {others : List α} (hnodup : (items.map key).Nodup)
    (hothers : (others.map key).Nodup) (hids : items.map key=others.map key)
    (hsame : (byId key items).toList=(byId key others).toList) : items=others := by
  have hget : ∀ key' : String, (byId key items)[key']?=(byId key others)[key']? :=
    toList_eq_iff.mp hsame
  have hread := filterMap_byId id hnodup
  simp only [hids,hget] at hread
  rw [filterMap_byId id hothers,List.map_id,List.map_id] at hread
  exact hread.symm

end ById

section Fields

variable {fields : List (String × Option Json)}

section
variable (hnodup : (fields.map Prod.fst).Nodup)
include hnodup

theorem lookup_presentFields (name : String) :
    (presentFields fields).lookup name=(fields.lookup name).join := by
  induction fields with
  | nil => rfl
  | cons first rest ih =>
    obtain ⟨hfirst,hrest⟩ := nodup_cons.mp hnodup
    obtain ⟨key,value⟩ := first
    by_cases hname : name=key
    · have hnone : rest.lookup name=none := by
        rw [lookup_eq_none_iff]
        intro entry hentry
        rw [bne_iff_ne,hname]
        intro heq
        rw [heq] at hfirst
        exact hfirst (List.mem_map.mpr ⟨entry,hentry,rfl⟩)
      have htail : (presentFields rest).lookup name=none := by
        rw [ih hrest,hnone]
        rfl
      subst hname
      cases value with
      | none => simpa [presentFields] using htail
      | some value => simp [presentFields]
    · have hbeq : (name == key)=false := beq_eq_false_iff_ne.mpr hname
      have htail := ih hrest
      cases value with
      | none => simpa [presentFields,lookup_cons,hbeq] using htail
      | some value => simpa [presentFields,lookup_cons,hbeq] using htail

theorem nodup_presentFields : ((presentFields fields).map Prod.fst).Nodup := by
  refine hnodup.sublist ?_
  clear hnodup
  induction fields with
  | nil => exact .slnil
  | cons first rest ih =>
    obtain ⟨key,value⟩ := first
    cases value with
    | none => exact .cons key ih
    | some value => exact .cons_cons key ih

theorem lookup_foldl_presentFields (name : String) :
    ((presentFields fields).foldl (fun patch field => Json.setField field.1 field.2 patch)
      []).lookup name=(fields.lookup name).join := by
  rw [Json.lookup_foldl_setField (nodup_presentFields hnodup),lookup_presentFields hnodup,
    lookup_nil,or_none]

theorem foldl_presentFields_eq_nil :
    (presentFields fields).foldl (fun patch field => Json.setField field.1 field.2 patch) []=[] ↔
      ∀ field∈fields, field.2=none := by
  have hpresent : presentFields fields=[] ↔ ∀ field∈fields, field.2=none := by
    simp only [presentFields,filterMap_eq_nil_iff,map_eq_none_iff]
  rw [← hpresent]
  constructor
  · intro h
    cases hfields : presentFields fields with
    | nil => rfl
    | cons first rest =>
      have hlookup := Json.lookup_foldl_setField (nodup_presentFields hnodup) [] first.1
      rw [h,hfields,Json.lookup_cons_ite,if_pos rfl] at hlookup
      cases hlookup
  · intro h
    rw [h]
    rfl

end

variable {T : SnapshotTypes} {old new : ProductionMapLiveSnapshot T} {compact : Bool}

theorem nodup_patchFields : ((patchFields old new compact).map Prod.fst).Nodup := by
  simp [patchFields]

theorem lookup_snapshotPatch (name : String) :
    (snapshotPatchForProtocol old new compact).lookup name =
      ((patchFields old new compact).lookup name).join :=
  lookup_foldl_presentFields nodup_patchFields name

theorem snapshotPatch_eq_nil : snapshotPatchForProtocol old new compact=[] ↔
      ∀ field∈patchFields old new compact, field.2=none :=
  foldl_presentFields_eq_nil nodup_patchFields

end Fields

section RoundTrip
variable {T : SnapshotTypes} {old new : ProductionMapLiveSnapshot T} {compact : Bool}

theorem mapOrder_eq_none {before after : List String} :
    mapOrderEdit compact before after=none ∧ mapOrder compact before after=none ↔ before=after := by
  by_cases hsame : before=after
  · simp [mapOrderEdit,mapOrder,hsame]
  · simp only [mapOrder,hsame,false_or,iff_false]
    intro h
    simp [h.1] at h

theorem applyMapOrder_eq {patch : List (String × Json)} {before after : List String}
    (hedit : patch.lookup "map_order_edit" = mapOrderEdit compact before after)
    (horder : patch.lookup "map_order" = mapOrder compact before after) :
    applyMapOrder patch before=some after := by
  rw [applyMapOrder,hedit,horder]
  cases horder' : mapOrder compact before after with
  | some order =>
    simp only [mapOrder] at horder'
    split at horder'
    · cases horder'
    · cases horder'
      exact Json.asStrings_map_string after
  | none =>
    cases hedit' : mapOrderEdit compact before after with
    | none => rw [mapOrder_eq_none.mp ⟨hedit',horder'⟩]
    | some edit =>
      simp only [mapOrderEdit] at hedit'
      split at hedit'
      · cases hedit'
      · exact applySequenceEdit_sequenceEdit hedit'

/-- What a client shows of a snapshot: every field, and the maps in their order. -/
def ProductionMapLiveSnapshot.view (snapshot : ProductionMapLiveSnapshot T) : ClientView :=
  { (clientState snapshot).view with maps := snapshot.maps.map T.savedJson }

/-- The patch is empty exactly when the snapshots are equal. -/
theorem snapshotPatch_empty_iff (hold : (old.maps.map T.mapId).Nodup)
    (hnew : (new.maps.map T.mapId).Nodup) :
    snapshotPatchForProtocol old new compact=[] ↔ old.Same new := by
  rw [snapshotPatch_eq_nil]
  simp only [patchFields,forall_mem_cons,not_mem_nil,false_implies,implies_true,
    and_true,listPatch_eq_none,mapPatch_eq_none,nestedPatch_eq_none,ite_eq_right_iff,
    reduceCtorEq,imp_false,not_not]
  constructor
  · intro h
    obtain ⟨hsequences,hvisible,hversions,hrevisions,hstatuses,hcontrols,hstage,hfrozen,
      hpositions,hqueue,hstates,hactions,hmaps,hedit,horder,hpolicies⟩ := h
    have hids := mapOrder_eq_none.mp ⟨hedit,horder⟩
    exact ⟨hversions,hrevisions,eq_of_byId hold hnew hids hmaps,hsequences,hvisible,
      hpositions,hqueue,hstates,hpolicies,hactions,hstatuses,hcontrols,hstage,hfrozen⟩
  · intro h
    have hids : mapOrderEdit compact _ _=none ∧ mapOrder compact _ _=none :=
      mapOrder_eq_none.mpr (congrArg (List.map T.mapId) h.maps)
    exact ⟨h.sequences,h.visibleOrderIds,h.sequenceVersions,h.sequenceRevisions,
      h.orderStatuses,h.orderControls,h.stageOrderControls,h.frozenOrdersByApparatus,
      h.sequencePositionsByApparatus,h.queueStates,h.stageStates,h.queueActionControls,
      by rw [h.maps],hids.1,hids.2,h.queuePolicies⟩

theorem mapM_applyField {σ τ : Type} {apply : σ → Json → Option σ} {shown : σ → τ}
    {patch : List (String × Json)} {fields targets : List (String × σ)}
    (h : List.Forall₂ (fun field target => field.1=target.1 ∧
      ∃ next, applyField apply patch field.1 field.2=some next ∧ shown next=shown target.2)
      fields targets) :
    ∃ result, (fields.mapM fun field =>
        (applyField apply patch field.1 field.2).map fun values => (field.1, values)) =
          some result ∧
      (result.map fun field => (field.1, shown field.2)) =
        targets.map fun field => (field.1, shown field.2) := by
  induction h with
  | nil => exact ⟨[],rfl,rfl⟩
  | @cons field _ _ _ hfield _ ih =>
    obtain ⟨hname,next,hnext,hshown⟩ := hfield
    obtain ⟨result,hresult,hmap⟩ := ih
    refine ⟨(field.1, next)::result,by simp [hnext,hresult],?_⟩
    rw [map_cons,map_cons,hmap,hname,hshown]

section
variable (old new : ProductionMapLiveSnapshot T) (compact : Bool)

theorem mapM_keyed : ∃ keyed, ((clientState old).keyed.mapM fun field =>
        (applyField fieldPatch (snapshotPatchForProtocol old new compact) field.1 field.2).map
          fun values => (field.1, values))=some keyed ∧
      (keyed.map fun field => (field.1, field.2.toList))=(clientState new).view.keyed := by
  have hlookup : ∀ name, (snapshotPatchForProtocol old new compact).lookup name =
      ((patchFields old new compact).lookup name).join := lookup_snapshotPatch
  refine mapM_applyField ?_
  exact .cons ⟨rfl,applyField_listPatch (hlookup _)⟩
    (.cons ⟨rfl,applyField_listPatch (hlookup _)⟩
    (.cons ⟨rfl,applyField_mapPatch (hlookup _)⟩
    (.cons ⟨rfl,applyField_mapPatch (hlookup _)⟩
    (.cons ⟨rfl,applyField_mapPatch (hlookup _)⟩
    (.cons ⟨rfl,applyField_mapPatch (hlookup _)⟩
    (.cons ⟨rfl,applyField_mapPatch (hlookup _)⟩
    (.cons ⟨rfl,applyField_mapPatch (hlookup _)⟩ .nil)))))))

theorem mapM_nested : ∃ nested, ((clientState old).nested.mapM fun field =>
        (applyField nestedFieldPatch (snapshotPatchForProtocol old new compact) field.1 field.2).map
          fun values => (field.1, values))=some nested ∧
      (nested.map fun field => (field.1, scopeLists field.2))=(clientState new).view.nested := by
  have hlookup : ∀ name, (snapshotPatchForProtocol old new compact).lookup name =
      ((patchFields old new compact).lookup name).join := lookup_snapshotPatch
  refine mapM_applyField ?_
  exact .cons ⟨rfl,applyField_nestedPatch (hlookup _)⟩
    (.cons ⟨rfl,applyField_nestedPatch (hlookup _)⟩
    (.cons ⟨rfl,applyField_nestedPatch (hlookup _)⟩
    (.cons ⟨rfl,applyField_nestedPatch (hlookup _)⟩ .nil)))

end

theorem getD_stageOrderControls :
    ((snapshotPatchForProtocol old new compact).lookup "stage_order_controls").getD
      (clientState old).stageOrderControls=(clientState new).stageOrderControls := by
  rw [lookup_snapshotPatch]
  change Option.getD (if old.stageOrderControls≠new.stageOrderControls then _ else _) _=_
  split
  · rfl
  · rename_i hsame
    rw [not_not] at hsame
    rw [clientState,hsame]
    rfl

theorem view_maps {state : ClientState} (hnew : (new.maps.map T.mapId).Nodup)
    (horder : state.mapOrder=new.maps.map T.mapId)
    (hmaps : state.maps.toList=(clientState new).maps.toList) :
    state.view.maps=new.maps.map T.savedJson := by
  have hget : ∀ id : String, state.maps[id]?=(byId T.mapId new.maps)[id]?.map T.savedJson := by
    intro id
    rw [toList_eq_iff.mp hmaps]
    exact getElem?_jsonTable _ _ _
  simp only [ClientState.view,horder,hget]
  exact filterMap_byId T.savedJson hnew

/-- A client that shows the old snapshot shows the new one after the patch. -/
theorem applyPatch_snapshotPatch (hnew : (new.maps.map T.mapId).Nodup) :
    ∃ state, applyPatch (snapshotPatchForProtocol old new compact) (clientState old)=some state ∧
      state.view=new.view := by
  obtain ⟨keyed,hkeyed,hkeyedView⟩ := mapM_keyed old new compact
  obtain ⟨nested,hnested,hnestedView⟩ := mapM_nested old new compact
  obtain ⟨maps,hmaps,hmapsView⟩ : ∃ next, applyField fieldPatch
        (snapshotPatchForProtocol old new compact) "maps" (clientState old).maps=some next ∧
      next.toList=(clientState new).maps.toList :=
    applyField_mapPatch (lookup_snapshotPatch _)
  have horder : applyMapOrder (snapshotPatchForProtocol old new compact)
      (clientState old).mapOrder=some (clientState new).mapOrder :=
    applyMapOrder_eq (lookup_snapshotPatch _) (lookup_snapshotPatch _)
  let state : ClientState := ⟨keyed,nested,(clientState new).stageOrderControls,maps,
    (clientState new).mapOrder⟩
  refine ⟨state,?_,?_⟩
  · rw [applyPatch,hkeyed,hnested,hmaps,horder,getD_stageOrderControls]
    rfl
  · have hview : state.view.maps=new.maps.map T.savedJson := view_maps hnew rfl hmapsView
    rw [ProductionMapLiveSnapshot.view,← hkeyedView,← hnestedView,← hview]
    rfl

/-- In both protocols the patch turns what a client shows of the old snapshot into the new one, and
is empty exactly when the snapshots are equal. -/
theorem snapshot_patch_round_trip (old new : ProductionMapLiveSnapshot T) (compact : Bool)
    (hold : (old.maps.map T.mapId).Nodup) (hnew : (new.maps.map T.mapId).Nodup) :
    (∃ state, applyPatch (snapshotPatchForProtocol old new compact) (clientState old) =
        some state ∧ state.view=new.view) ∧
      (snapshotPatchForProtocol old new compact=[] ↔ old.Same new) :=
  ⟨applyPatch_snapshotPatch hnew,snapshotPatch_empty_iff hold hnew⟩

def textRecords : SnapshotTypes where
  Saved := String
  Policy := String
  Control := String
  Status := String
  OrderControl := String
  Frozen := String
  savedEq := inferInstance
  policyEq := inferInstance
  controlEq := inferInstance
  statusEq := inferInstance
  orderControlEq := inferInstance
  frozenEq := inferInstance
  mapId := id
  apparatusId := id
  savedJson := .string
  policyJson := .string
  controlJson := .string
  statusJson := .string
  orderControlJson := .string
  frozenJson := .string

def pressSnapshot (orders : List String) (states : List (String × String)) :
    ProductionMapLiveSnapshot textRecords where
  sequenceVersions := .ofList [("press", String.intercalate "|" orders)]
  sequenceRevisions := .ofList [("press", (7 : Int))]
  maps := orders
  sequences := .ofList [("press", orders)]
  visibleOrderIds := .ofList [("press", orders)]
  sequencePositionsByApparatus := ∅
  queueStates := .ofList [("press", TreeMap.ofList states)]
  stageStates := ∅
  queuePolicies := ["press"]
  queueActionControls := ∅
  orderStatuses := ∅
  orderControls := ∅
  stageOrderControls := []
  frozenOrdersByApparatus := ∅

theorem snapshot_patch_round_trip_press : (∃ state, applyPatch (snapshotPatchForProtocol
        (pressSnapshot ["order-1","order-2"] [("order-1", "in_progress")])
        (pressSnapshot ["order-2","order-1"] []) true)
        (clientState (pressSnapshot ["order-1","order-2"] [("order-1", "in_progress")])) =
          some state ∧
      state.view=(pressSnapshot ["order-2","order-1"] []).view) ∧
    (snapshotPatchForProtocol
        (pressSnapshot ["order-1","order-2"] [("order-1", "in_progress")])
        (pressSnapshot ["order-2","order-1"] []) true=[] ↔
      (pressSnapshot ["order-1","order-2"] [("order-1", "in_progress")]).Same
        (pressSnapshot ["order-2","order-1"] [])) :=
  snapshot_patch_round_trip _ _ true (by decide) (by decide)

end RoundTrip

end MiniErp.Live
