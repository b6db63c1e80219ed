import Mathlib.Algebra.Order.BigOperators.Group.List
import Mathlib.Tactic.Linarith

/-! Tables kept as lists of rows. A row is addressed by the first place that passes a test; it is
replaced or removed there, or a row is added at the end. A measure of the rows is summed over the
table. -/
namespace MiniErp.Rows
open List
variable {α : Type*}

def findAt? (p : α → Bool) (l : List α) : Option (Nat × α) :=
  (l.findIdx? p).bind fun i => l[i]?.map fun a => (i, a)

variable {p : α → Bool} {l : List α} {i j : Nat} {a b : α}

theorem findAt?_eq_some (h : findAt? p l=some (i, a)) :
    l[i]?=some a ∧ p a=true ∧ ∀ k b, k < i → l[k]?=some b → p b=false := by
  simp only [findAt?,Option.bind_eq_some_iff,Option.map_eq_some_iff,Prod.mk.injEq] at h
  obtain ⟨k,hk,c,hc,rfl,rfl⟩ := h
  obtain ⟨hlt,hp,hbefore⟩ := findIdx?_eq_some_iff_getElem.mp hk
  have heq : l[k]=c := by simpa [hlt] using hc
  rw [heq] at hp
  refine ⟨hc,hp,fun m b hm hb => ?_⟩
  obtain ⟨hm',rfl⟩ := List.getElem?_eq_some_iff.mp hb
  simpa using hbefore m hm

theorem findAt?_eq_none : findAt? p l=none ↔ ∀ a∈l, p a=false := by
  constructor
  · intro h
    rw [← findIdx?_eq_none_iff]
    cases hi : l.findIdx? p with
    | none => rfl
    | some i =>
      obtain ⟨hlt,-⟩ := findIdx?_eq_some_iff_getElem.mp hi
      simp [findAt?,hi,hlt] at h
  · intro h
    simp [findAt?,findIdx?_eq_none_iff.mpr h]

theorem findAt?_ne {q : α → Bool} (hp : findAt? p l=some (i, a)) (hq : findAt? q l=some (j, b))
    (hpq : q a=false) : i≠j := by
  intro hij
  obtain ⟨ha,-⟩ := findAt?_eq_some hp
  obtain ⟨hb,hqb,-⟩ := findAt?_eq_some hq
  rw [hij,hb] at ha
  rw [← Option.some.inj ha,hqb] at hpq
  cases hpq

theorem getElem?_eraseIdx_of_ne (hb : l[j]?=some b) (hne : i≠j) :
    (l.eraseIdx i)[if i<j then j-1 else j]?=some b := by
  split
  · rw [getElem?_eraseIdx_of_ge (by omega),Nat.sub_add_cancel (by omega)]
    exact hb
  · rw [getElem?_eraseIdx_of_lt (by omega)]
    exact hb

theorem map_set_same {β : Type*} {f : α → β} (h : l[i]?=some a) (hf : f b=f a) :
    (l.set i b).map f=l.map f := by
  obtain ⟨hlt,rfl⟩ := List.getElem?_eq_some_iff.mp h
  have hplace : i<(l.map f).length := by rwa [length_map]
  have hrow : f l[i]=(l.map f)[i] := (getElem_map f).symm
  rw [map_set,hf,hrow,set_getElem_self]

section Total
variable (f : α → Int)

def total (l : List α) : Int := (l.map f).sum

variable {f}

theorem total_append_singleton (l : List α) (a : α) : total f (l++[a])=total f l+f a := by
  simp [total]

theorem total_perm {l' : List α} (h : l.Perm l') : total f l=total f l' := (h.map f).sum_eq

theorem total_eraseIdx (h : l[i]?=some a) : total f (l.eraseIdx i)=total f l-f a := by
  induction l generalizing i with
  | nil => cases h
  | cons b rest ih =>
    cases i with
    | zero =>
      simp only [getElem?_cons_zero,Option.some.injEq] at h
      simp [total,h]
    | succ i =>
      have hrest := ih (i := i) (by simpa using h)
      simp only [total,eraseIdx_cons_succ,map_cons,sum_cons] at hrest ⊢
      omega

theorem total_set (h : l[i]?=some a) (b : α) : total f (l.set i b)=total f l-f a+f b := by
  induction l generalizing i with
  | nil => cases h
  | cons c rest ih =>
    cases i with
    | zero =>
      simp only [getElem?_cons_zero,Option.some.injEq] at h
      simp only [total,set_cons_zero,map_cons,sum_cons,h]
      omega
    | succ i =>
      have hrest := ih (i := i) (by simpa using h)
      simp only [total,set_cons_succ,map_cons,sum_cons] at hrest ⊢
      omega

theorem total_nonneg (h : ∀ a∈l, 0≤f a) : 0≤total f l := by
  apply sum_nonneg
  intro x hx
  obtain ⟨a,ha,rfl⟩ := mem_map.mp hx
  exact h a ha

theorem le_total (h : ∀ a∈l, 0≤f a) (ha : a∈l) : f a≤total f l := by
  apply single_le_sum
  · intro x hx
    obtain ⟨b,hb,rfl⟩ := mem_map.mp hx
    exact h b hb
  · exact mem_map_of_mem ha

end Total

end MiniErp.Rows
