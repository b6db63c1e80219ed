import MiniErp.Transfer.Store

/-! Rolls that their own producer consumed, over the batches of an order: such a roll waits again,
and a sibling that took it for its parent loses the link. -/
namespace MiniErp.Transfer
open Text Wip List

/-- A payload that is no object is replaced by an empty one before the mark is written. -/
def markSibling (payload : Json) : Json :=
  match payload with
  | .object fields => .object (Json.setField "recovered_sibling_lineage" (.bool true) fields)
  | _ => .object [("recovered_sibling_lineage", .bool true)]

namespace StoredBatch

def isSiblingOf (batch recoveredParent : StoredBatch) : Bool :=
  trim batch.parentBatchId == trim recoveredParent.batchId &&
    trim batch.sessionId == trim recoveredParent.sessionId &&
    apparatusIdsMatch batch.apparatus recoveredParent.apparatus

def unlinked (batch : StoredBatch) : StoredBatch :=
  { batch with parentBatchId := "", payloadJson := markSibling batch.payloadJson }

/-- `none`: the batch is no sibling and stays as it is. -/
def repairSelfConsumedSiblingLineage (batch recoveredParent : StoredBatch) : Option StoredBatch :=
  if batch.isSiblingOf recoveredParent then some batch.unlinked else none

def restored (batch : StoredBatch) : StoredBatch :=
  { batch with toOrderProgressBatch := batch.restoreSelfConsumedWip }

end StoredBatch
open StoredBatch

def normalizeSelfConsumedWipHistory (batches : List StoredBatch) : List StoredBatch :=
  let recoveredParents := batches.filter fun batch => batch.wipBatchWasConsumedByProducer
  let repaired := batches.map fun batch =>
    (recoveredParents.findSome? batch.repairSelfConsumedSiblingLineage).getD batch
  repaired.map restored

theorem get_markSibling (payload : Json) {key : String} (h : key ≠ "recovered_sibling_lineage") :
    (markSibling payload).get key=payload.get key := by
  cases payload with
  | object fields => exact (Json.lookup_setField _ key _ fields).trans (if_neg h)
  | _ => exact (Json.lookup_setField _ key _ []).trans (if_neg h)

variable {batch : StoredBatch} {batches : List StoredBatch}

/-- Which of the parents repairs a batch makes no difference. -/
theorem findSome?_repair (parents : List StoredBatch) :
    (parents.findSome? batch.repairSelfConsumedSiblingLineage).getD batch =
      if parents.any batch.isSiblingOf then batch.unlinked else batch := by
  induction parents with
  | nil => rfl
  | cons parent rest ih =>
    cases hsibling : batch.isSiblingOf parent with
    | true => simp [repairSelfConsumedSiblingLineage,hsibling]
    | false => simpa [repairSelfConsumedSiblingLineage,hsibling] using ih

theorem restored_of_not_consumed (h : batch.wipBatchWasConsumedByProducer=false) :
    batch.restored=batch := by
  simp [restored,OrderProgressBatch.restoreSelfConsumedWip,h]

theorem restored_not_consumed (batch : StoredBatch) :
    batch.restored.wipBatchWasConsumedByProducer=false := by
  cases h : batch.wipBatchWasConsumedByProducer with
  | false => rw [restored_of_not_consumed h,h]
  | true =>
    have hwaiting : batch.restored.wipStatus=.waiting := by
      rw [restored,OrderProgressBatch.restoreSelfConsumedWip,if_pos h]
      rfl
    simp [OrderProgressBatch.wipBatchWasConsumedByProducer,hwaiting]

def normalizedIn (batches : List StoredBatch) (batch : StoredBatch) : StoredBatch :=
  (if batches.any fun parent => parent.wipBatchWasConsumedByProducer && batch.isSiblingOf parent
    then batch.unlinked else batch).restored

theorem normalize_eq_map (batches : List StoredBatch) :
    normalizeSelfConsumedWipHistory batches=batches.map (normalizedIn batches) := by
  simp only [normalizeSelfConsumedWipHistory,map_map,findSome?_repair,any_filter]
  rfl

theorem normalize_of_not_consumed (h : ∀ batch∈batches, batch.wipBatchWasConsumedByProducer=false) :
    normalizeSelfConsumedWipHistory batches=batches := by
  rw [normalize_eq_map]
  refine (map_congr_left fun batch hbatch => ?_).trans (map_id batches)
  have hnone : (batches.any fun parent =>
      parent.wipBatchWasConsumedByProducer && batch.isSiblingOf parent)=false :=
    any_eq_false.mpr fun parent hparent => by simp [h parent hparent]
  rw [normalizedIn,hnone]
  exact restored_of_not_consumed (h batch hbatch)

theorem unlinked_consumed (batch : StoredBatch) :
    batch.unlinked.wipBatchWasConsumedByProducer=batch.wipBatchWasConsumedByProducer := by
  simp only [OrderProgressBatch.wipBatchWasConsumedByProducer,unlinked]
  rw [get_markSibling _ (by decide)]

/-- Beside the rolls that are put back, only the parent link and the mark of their siblings change;
the order of the batches makes no difference, and a second run changes nothing. -/
theorem normalizeSelfConsumedWipHistory_local (batches : List StoredBatch) :
    List.Forall₂ (fun batch after => after.batchId=batch.batchId ∧
      (batch.wipBatchWasConsumedByProducer=false → after=batch ∨
        (∃ parent∈batches, parent.wipBatchWasConsumedByProducer=true ∧
          batch.isSiblingOf parent=true) ∧
        after={ batch with parentBatchId := "", payloadJson := after.payloadJson } ∧
        ∀ key ≠ "recovered_sibling_lineage", after.payloadJson.get key=batch.payloadJson.get key))
      batches (normalizeSelfConsumedWipHistory batches) ∧
    (∀ other, other.Perm batches → (normalizeSelfConsumedWipHistory other).Perm
      (normalizeSelfConsumedWipHistory batches)) ∧
    normalizeSelfConsumedWipHistory (normalizeSelfConsumedWipHistory batches) =
      normalizeSelfConsumedWipHistory batches := by
  refine ⟨?_,fun other hperm => ?_,normalize_of_not_consumed fun batch hbatch => ?_⟩
  · rw [normalize_eq_map,List.forall₂_map_right_iff,List.forall₂_same]
    intro batch hbatch
    refine ⟨?_,fun hconsumed => ?_⟩
    · unfold normalizedIn
      split <;> rfl
    · unfold normalizedIn
      split
      next hany =>
        obtain ⟨parent,hparent,hboth⟩ := List.any_eq_true.mp hany
        rw [restored_of_not_consumed ((unlinked_consumed batch).trans hconsumed)]
        exact .inr ⟨⟨parent,hparent,by simpa using hboth⟩,rfl,fun key hkey => get_markSibling _ hkey⟩
      next => exact .inl (restored_of_not_consumed hconsumed)
  · rw [normalize_eq_map,normalize_eq_map]
    have hsame : normalizedIn other=normalizedIn batches := by
      funext batch
      rw [normalizedIn,hperm.any_eq]
      rfl
    rw [hsame]
    exact hperm.map _
  · obtain ⟨before,-,rfl⟩ := List.mem_map.mp hbatch
    exact restored_not_consumed _

end MiniErp.Transfer
