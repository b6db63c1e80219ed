import Mathlib

/-! The gross and net totals of a pallet: known when every weight is known and the sum fits. -/
namespace MiniErp.Paddon
open List Option

/-- A weight in micro-units as `units` yields it, which lets nothing negative through. -/
abbrev Units := Fin (2^63)

/-- What the weights of an item are read from. `grossQty` is there when the payload has a value
other than null, and holds no weight when that value is none. -/
structure PaddonItem where
  batchId : String
  correctedGross : Option (Option Units)
  grossQty : Option (Option Units)
  finishedGoodsKg : Option Units
  bobinaKg : Option Units
  includeBobinaInNet : Bool

def checkedAdd (a b : Int) : Option Int := if -2^63≤a+b ∧ a+b<2^63 then some (a+b) else none

def PaddonItem.gross (item : PaddonItem) : Option Int :=
  let measured :=
    match item.correctedGross with
    | some value => value
    | none =>
      match item.grossQty with
      | some value => value
      | none => item.finishedGoodsKg
  (measured.map fun units => (units.val : Int)).filter (· > 0)

def PaddonItem.net (item : PaddonItem) : Option Int :=
  if item.includeBobinaInNet then item.gross
  else do
    let gross ← item.gross
    let tare ← item.bobinaKg
    (checkedAdd gross (-tare.val)).filter (· ≥ 0)

def addWeight (total weight : Option Int) : Option Int := do
  checkedAdd (← total) (← weight)

structure Totals where
  seen : List String
  gross : Option Int
  net : Option Int

def Totals.add (totals : Totals) (item : PaddonItem) : Totals :=
  if item.batchId∈totals.seen then totals
  else
    { seen := item.batchId::totals.seen
      gross := addWeight totals.gross item.gross
      net := addWeight totals.net item.net }

def setTotals (items : List PaddonItem) : Totals := items.foldl Totals.add ⟨[],some 0,some 0⟩

/-- The sum of the weights, where each of them is known and an `i64` holds it. -/
def exactTotal (weights : List (Option Int)) : Option Int :=
  if none∈weights ∨ 2^63≤weights.reduceOption.sum then none
  else some weights.reduceOption.sum

theorem gross_pos {item : PaddonItem} {weight : Int} (h : item.gross=some weight) : 0<weight := by
  rw [PaddonItem.gross,filter_eq_some_iff,decide_eq_true_eq] at h
  exact h.2

theorem net_bounds {item : PaddonItem} {weight : Int} (h : item.net=some weight) :
    0≤weight ∧ ∀ gross, item.gross=some gross → weight≤gross := by
  rw [PaddonItem.net] at h
  split at h
  · refine ⟨(gross_pos h).le,fun gross hgross => ?_⟩
    rw [h,some.injEq] at hgross
    exact hgross.le
  · simp only [bind_eq_bind,bind_eq_some_iff,filter_eq_some_iff, decide_eq_true_eq,checkedAdd] at h
    obtain ⟨gross,hgross,tare,-,hsub,hnonneg⟩ := h
    refine ⟨hnonneg,fun other hother => ?_⟩
    rw [hgross,some.injEq] at hother
    split at hsub
    · have hweight := some.inj hsub
      omega
    · cases hsub

variable {weights : List (Option Int)}

theorem reduceOption_sum_nonneg
    (h : ∀ weight, some weight∈weights → 0≤weight) : 0≤weights.reduceOption.sum := by
  refine sum_nonneg fun weight hweight => ?_
  exact h weight (reduceOption_mem_iff.mp hweight)

theorem foldl_addWeight_none (weights : List (Option Int)) : weights.foldl addWeight none=none := by
  induction weights with
  | nil => rfl
  | cons weight rest ih => exact ih

/-- Partial sums only grow, so one of them overflows exactly when the whole sum does. -/
theorem foldl_addWeight
    (h : ∀ weight, some weight∈weights → 0≤weight) {start : Int} (hlow : 0 ≤ start)
    (hhigh : start<2^63) : weights.foldl addWeight (some start) =
      if none∈weights ∨ 2^63 ≤ start+weights.reduceOption.sum then none
      else some (start+weights.reduceOption.sum) := by
  induction weights generalizing start with
  | nil => simpa using hhigh
  | cons first rest ih =>
    have hrest := fun weight hmem => h weight (mem_cons_of_mem first hmem)
    cases first with
    | none => exact foldl_addWeight_none rest
    | some weight =>
      have hweight := h weight mem_cons_self
      have hsum := reduceOption_sum_nonneg hrest
      have hadd : addWeight (some start) (some weight) =
          if start+weight<2^63 then some (start+weight) else none := by
        exact if_congr (by omega) rfl rfl
      rw [foldl_cons,hadd,reduceOption_cons_of_some,sum_cons,← add_assoc]
      split
      · rename_i hfits
        rw [ih hrest (by omega) hfits]
        simp only [mem_cons,reduceCtorEq,false_or]
      · rw [foldl_addWeight_none,if_pos (.inr (by omega))]

theorem foldl_add {items : List PaddonItem} (h : (items.map (·.batchId)).Nodup) {totals : Totals}
    (hnew : ∀ item∈items, item.batchId∉totals.seen) :
    (items.foldl Totals.add totals).gross=(items.map (·.gross)).foldl addWeight totals.gross ∧
      (items.foldl Totals.add totals).net=(items.map (·.net)).foldl addWeight totals.net := by
  induction items generalizing totals with
  | nil => exact ⟨rfl,rfl⟩
  | cons item rest ih =>
    obtain ⟨hitem,hrest⟩ := nodup_cons.mp h
    have hadd : totals.add item=⟨item.batchId::totals.seen,addWeight totals.gross item.gross,
        addWeight totals.net item.net⟩ := if_neg (hnew item mem_cons_self)
    rw [foldl_cons,hadd]
    refine ih hrest fun other hother hseen => ?_
    cases mem_cons.mp hseen with
    | inl heq => exact hitem (List.mem_map.mpr ⟨other,hother,heq⟩)
    | inr hseen => exact hnew other (mem_cons_of_mem _ hother) hseen

theorem setTotals_eq {items : List PaddonItem} (h : (items.map (·.batchId)).Nodup) :
    (setTotals items).gross=exactTotal (items.map (·.gross)) ∧
      (setTotals items).net=exactTotal (items.map (·.net)) := by
  obtain ⟨hgross,hnet⟩ := @foldl_add items h ⟨[],some 0,some 0⟩ fun _ _ => not_mem_nil
  have hexact : ∀ weights : List (Option Int), (∀ weight, some weight∈weights → 0≤weight) →
      weights.foldl addWeight (some 0)=exactTotal weights := by
    intro weights hweights
    rw [foldl_addWeight hweights le_rfl (by norm_num),exactTotal,zero_add]
  constructor
  · refine hgross.trans (hexact _ fun weight hmem => ?_)
    obtain ⟨item,-,hitem⟩ := List.mem_map.mp hmem
    exact (gross_pos hitem).le
  · refine hnet.trans (hexact _ fun weight hmem => ?_)
    obtain ⟨item,-,hitem⟩ := List.mem_map.mp hmem
    exact (net_bounds hitem).1

theorem exactTotal_eq_some {total : Int}
    (h : exactTotal weights=some total) : none∉weights ∧ weights.reduceOption.sum=total := by
  rw [exactTotal] at h
  split at h
  · cases h
  · rename_i hcheck
    exact ⟨(not_or.mp hcheck).1,some.inj h⟩

theorem sum_net_le {items : List PaddonItem} (hgross : none∉items.map (·.gross))
    (hnet : none∉items.map (·.net)) :
    (items.map (·.net)).reduceOption.sum≤(items.map (·.gross)).reduceOption.sum := by
  induction items with
  | nil => exact le_rfl
  | cons item rest ih =>
    rw [map_cons,mem_cons,not_or] at hgross hnet
    obtain ⟨gross,hitem⟩ := ne_none_iff_exists'.mp (Ne.symm hgross.1)
    obtain ⟨net,hitem'⟩ := ne_none_iff_exists'.mp (Ne.symm hnet.1)
    have hle := (net_bounds hitem').2 gross hitem
    have hrest := ih hgross.2 hnet.2
    simp only [map_cons,hitem,hitem',reduceOption_cons_of_some,sum_cons]
    omega

/-- The totals are the exact sums of the weights, unknown where a weight is unknown or the sum is
too large; the order of the items plays no part. -/
theorem setTotals_exact {items : List PaddonItem} (h : (items.map (·.batchId)).Nodup) :
    (setTotals items).gross=exactTotal (items.map (·.gross)) ∧
    (setTotals items).net=exactTotal (items.map (·.net)) ∧
    (∀ other, items.Perm other → (setTotals other).gross=(setTotals items).gross ∧
      (setTotals other).net=(setTotals items).net) ∧
    ∀ gross net, (setTotals items).gross=some gross → (setTotals items).net=some net →
      net≤gross := by
  obtain ⟨hgross,hnet⟩ := setTotals_eq h
  have hperm : ∀ weights other : List (Option Int), weights.Perm other →
      exactTotal other=exactTotal weights := by
    intro weights other hperm
    have hsum : weights.reduceOption.sum=other.reduceOption.sum := (hperm.filterMap id).sum_eq
    simp only [exactTotal,hperm.mem_iff,hsum]
  refine ⟨hgross,hnet,fun other hother => ?_,fun gross net hg hn => ?_⟩
  · obtain ⟨hgross',hnet'⟩ := setTotals_eq ((hother.map _).nodup_iff.mp h)
    rw [hgross,hnet,hgross',hnet']
    exact ⟨hperm _ _ (hother.map _),hperm _ _ (hother.map _)⟩
  · obtain ⟨hknown,hsum⟩ := exactTotal_eq_some (hgross ▸ hg)
    obtain ⟨hknown',hsum'⟩ := exactTotal_eq_some (hnet ▸ hn)
    rw [← hsum,← hsum']
    exact sum_net_le hknown hknown'

theorem setTotals_exact_two : ∃ items : List PaddonItem, items.length=2 ∧
    (setTotals items).gross=some 5000000 ∧ (setTotals items).net=some 4500000 ∧
    (setTotals items.reverse).net=(setTotals items).net := by
  let items : List PaddonItem := [⟨"b1",none,none,some 3000000,some 500000,false⟩,
    ⟨"b2",some (some 2000000),none,none,none,true⟩]
  have h := @setTotals_exact items (by decide)
  have hvalues : exactTotal (items.map (·.gross))=some 5000000 ∧
      exactTotal (items.map (·.net))=some 4500000 := by decide +kernel
  exact ⟨items,rfl,h.1.trans hvalues.1,h.2.1.trans hvalues.2,
    (h.2.2.1 _ (List.reverse_perm _).symm).2⟩

end MiniErp.Paddon
