import Mathlib.Data.List.InsertIdx
import Mathlib.Data.List.Sort

/-! Taking one element out of a duplicate-free list and putting it back at another place, and
the search for the best place. -/
namespace MiniErp.ListMove
open List
variable {α : Type*} [DecidableEq α] {l rest : List α} {x a : α} {i j : Nat}

theorem idxOf?_insertIdx (hx : x∉rest) (hi : i ≤ rest.length) :
    (rest.insertIdx i x).idxOf? x=some i := by
  have hlen : (rest.insertIdx i x).length=rest.length+1 := length_insertIdx_of_le_length hi x
  refine idxOf?_eq_some_iff.mpr ⟨by omega,getElem_insertIdx_self _,fun j hj heq => ?_⟩
  rw [getElem_insertIdx_of_lt hj] at heq
  exact hx (heq ▸ getElem_mem _)

theorem filter_ne_insertIdx (hx : x∉rest) (hi : i ≤ rest.length) :
    (rest.insertIdx i x).filter (· ≠ x)=rest := by
  have hrest : rest.filter (· ≠ x)=rest := by
    rw [filter_eq_self]
    intro y hy
    simpa using fun h : y=x => hx (h ▸ hy)
  have hsub : List.Sublist rest ((rest.insertIdx i x).filter (· ≠ x)) := by
    have h := (sublist_insertIdx rest i x).filter (· ≠ x)
    rwa [hrest] at h
  have hlen : ((rest.insertIdx i x).filter (· ≠ x)).length=rest.length := by
    have h := ((perm_insertIdx x rest hi).filter (· ≠ x)).length_eq
    rwa [filter_cons_of_neg (by simp),hrest] at h
  exact (hsub.eq_of_length hlen.symm).symm

theorem idxOf?_of_getElem? (hl : l.Nodup) (h : l[i]?=some a) : l.idxOf? a=some i := by
  obtain ⟨hi,rfl⟩ := List.getElem?_eq_some_iff.mp h
  refine idxOf?_eq_some_iff.mpr ⟨hi,rfl,fun j hj heq => ?_⟩
  have hji : j=i := (Nodup.getElem_inj_iff hl).mp heq
  omega

theorem eraseIdx_of_idxOf? (hl : l.Nodup) (h : l.idxOf? x=some i) :
    x∉l.eraseIdx i ∧ i≤(l.eraseIdx i).length ∧ (l.eraseIdx i).insertIdx i x=l := by
  obtain ⟨hi,rfl,-⟩ := idxOf?_eq_some_iff.mp h
  have hback : (l.eraseIdx i).insertIdx i l[i]=l := insertIdx_eraseIdx_getElem hi
  have hlen : i≤(l.eraseIdx i).length := by
    rw [length_eraseIdx_of_lt hi]
    omega
  refine ⟨fun hmem => ?_,hlen,hback⟩
  have hperm := perm_insertIdx l[i] (l.eraseIdx i) hlen
  rw [hback] at hperm
  exact (nodup_cons.mp (hperm.nodup hl)).1 hmem

theorem idxOf?_of_mem (h : a∈l) : ∃ i, l.idxOf? a=some i := by
  cases hi : l.idxOf? a with
  | none => exact absurd h (idxOf?_eq_none_iff.mp hi)
  | some i => exact ⟨i,rfl⟩

omit [DecidableEq α] in
theorem nodup_insertIdx (hrest : rest.Nodup) (hx : x∉rest) (hi : i ≤ rest.length) :
    (rest.insertIdx i x).Nodup :=
  (perm_insertIdx x rest hi).nodup_iff.mpr (nodup_cons.mpr ⟨hx,hrest⟩)

theorem idxOf?_insertIdx_of_idxOf? (hrest : rest.Nodup) (hx : x∉rest) (hi : i ≤ rest.length)
    (h : rest.idxOf? a=some j) : (rest.insertIdx i x).idxOf? a=some (if j < i then j else j+1) := by
  obtain ⟨hj,rfl,-⟩ := idxOf?_eq_some_iff.mp h
  apply idxOf?_of_getElem? (nodup_insertIdx hrest hx hi)
  split
  · rename_i hlt
    rw [getElem?_insertIdx_of_lt hlt]
    exact getElem?_eq_getElem hj
  · rw [getElem?_insertIdx_of_gt (by omega)]
    exact getElem?_eq_getElem hj

theorem idxOf?_of_mem_take (hl : l.Nodup) (h : a∈l.take j) : ∃ k<j, l.idxOf? a=some k := by
  obtain ⟨k,hk,rfl⟩ := mem_iff_getElem.mp h
  rw [length_take] at hk
  refine ⟨k,by omega,idxOf?_of_getElem? hl ?_⟩
  rw [getElem_take]
  exact getElem?_eq_getElem (by omega)

theorem ne_of_getElem? (hl : l.Nodup) (hx : l.idxOf? x=some i) (ha : l[j]?=some a)
    (hj : j≠i) : a≠x := by
  intro heq
  have hsame := idxOf?_of_getElem? hl ha
  rw [heq,hx] at hsame
  exact hj (Option.some.inj hsame).symm

theorem pair_sublist_iff (hl : l.Nodup) (hx : l.idxOf? x=some i) :
    [a,x].Sublist l ↔ a∈l.take i := by
  induction l generalizing i with
  | nil => cases hx
  | cons head rest ih =>
    rw [nodup_cons] at hl
    rw [sublist_cons_iff]
    by_cases hhead : head=x
    · have hzero : i=0 := by simpa [idxOf?_cons,hhead,eq_comm] using hx
      have hx' : x∉rest := hhead ▸ hl.1
      simp only [hzero,take_zero,not_mem_nil,iff_false,not_or]
      refine ⟨fun h => hx' (h.subset (by simp)),fun h => ?_⟩
      obtain ⟨r,heq,hr⟩ := h
      rw [cons.injEq] at heq
      exact hx' (hr.subset (heq.2 ▸ mem_singleton_self x))
    · obtain ⟨k,hk,hi⟩ : ∃ k, rest.idxOf? x=some k ∧ k+1=i := by simpa [idxOf?_cons,hhead] using hx
      have hmem : x∈rest := by
        by_contra hnot
        rw [idxOf?_eq_none_iff.mpr hnot] at hk
        cases hk
      rw [ih hl.2 hk,← hi,take_succ_cons,mem_cons,or_comm]
      refine or_congr_left ⟨fun h => ?_,fun h => ?_⟩
      · obtain ⟨r,heq,-⟩ := h
        exact (cons.inj heq).1
      · exact ⟨[x],by rw [h],singleton_sublist.mpr hmem⟩

section Search
variable {β : Type*}
omit [DecidableEq α]

theorem findSome?_eq_map_find? {p : α → Bool} {f : α → β} {g : α → Option β} {l : List α}
    (h : ∀ a∈l, g a=if p a then some (f a) else none) : l.findSome? g=(l.find? p).map f := by
  induction l with
  | nil => rfl
  | cons a rest ih =>
    have hrest := ih fun b hb => h b (mem_cons_of_mem a hb)
    have ha := h a mem_cons_self
    cases hp : p a with
    | true => simp [ha,hp]
    | false => simpa [ha,hp] using hrest

/-- A search that one element answers alone finds its answer. -/
theorem findSome?_of_unique {g : α → Option β} {l : List α} {a : α} {b : β} (ha : a∈l)
    (hb : g a=some b) (hother : ∀ c∈l, c≠a → g c=none) : l.findSome? g=some b := by
  have hsome : (l.findSome? g).isSome=true := findSome?_isSome_iff.mpr ⟨a,ha,by rw [hb]; rfl⟩
  obtain ⟨found,hfound⟩ := Option.isSome_iff_exists.mp hsome
  obtain ⟨c,hc,hgc⟩ := exists_of_findSome?_eq_some hfound
  by_cases heq : c=a
  · rw [hfound,← hgc,heq,hb]
  · rw [hother c hc heq] at hgc
    cases hgc

/-- The first hit in a sorted list is a best one. -/
theorem find?_insertionSort (r : α → α → Prop) [DecidableRel r] [Std.Total r] [IsTrans α r]
    {p : α → Bool} (h : (l.insertionSort r).find? p=some a) :
    p a=true ∧ a∈l ∧ ∀ b∈l, p b=true → r a b := by
  obtain ⟨hp,front,back,hsplit,hfront⟩ := find?_eq_some_iff_append.mp h
  have hmem : ∀ b, b∈l ↔ b∈front++a::back := fun b => by rw [← hsplit,mem_insertionSort]
  have hsorted := pairwise_insertionSort r l
  rw [hsplit] at hsorted
  have hback := (pairwise_append.mp hsorted).2.1
  refine ⟨hp,(hmem a).mpr (by simp),fun b hb hpb => ?_⟩
  have hcases := (hmem b).mp hb
  simp only [mem_append,mem_cons] at hcases
  obtain hbefore | rfl | hafter := hcases
  · exact absurd hpb (by simpa using hfront b hbefore)
  · exact (Std.Total.total b b).elim id id
  · exact rel_of_pairwise_cons hback hafter

end Search

end MiniErp.ListMove
