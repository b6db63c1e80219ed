import Mathlib.Data.List.Infix

/-! The first place of a pattern in a text, and texts in which a pattern cannot start whatever
follows them. -/
namespace MiniErp.Search
open List
variable {α : Type*}

def find [DecidableEq α] (pattern : List α) : List α → Option Nat
  | [] => if pattern.isPrefixOf [] then some 0 else none
  | x::xs => if pattern.isPrefixOf (x::xs) then some 0 else (find pattern xs).map (· + 1)

/-- No occurrence of the pattern starts inside the text, whatever stands behind it. -/
inductive Clear (pattern : List α) : List α → Prop
  | nil : Clear pattern []
  | cons {x : α} {xs : List α} (first : ∀ rest, ¬ pattern <+: x::(xs++rest))
      (others : Clear pattern xs) : Clear pattern (x::xs)

variable {pattern s t : List α}

theorem Clear.append (hs : Clear pattern s) (ht : Clear pattern t) : Clear pattern (s++t) := by
  induction hs with
  | nil => exact ht
  | cons first others ih =>
    rw [cons_append]
    refine .cons (fun rest => ?_) ih
    rw [append_assoc]
    exact first (t++rest)

theorem Clear.flatMap {β : Type*} {f : β → List α} {items : List β}
    (h : ∀ item∈items, Clear pattern (f item)) : Clear pattern (items.flatMap f) := by
  induction items with
  | nil => exact .nil
  | cons item rest ih =>
    rw [forall_mem_cons] at h
    rw [flatMap_cons]
    exact h.1.append (ih h.2)

theorem clear_of_notMem {first : α} {others : List α} (h : first∉s) : Clear (first::others) s := by
  induction s with
  | nil => exact .nil
  | cons x xs ih =>
    rw [mem_cons,not_or] at h
    exact .cons (fun rest hbegins => h.1 (cons_prefix_cons.mp hbegins).1) (ih h.2)

section
variable [DecidableEq α]

/-- The two differ at a place that both have. -/
def differ : List α → List α → Bool
  | x::xs, y::ys => decide (x≠y) || differ xs ys
  | _, _ => false

def isClear (pattern : List α) : List α → Bool
  | [] => true
  | x::xs => differ pattern (x::xs) && isClear pattern xs

theorem not_prefix_of_differ (h : differ pattern s=true) (rest : List α) :
    ¬ pattern <+: s++rest := by
  induction pattern generalizing s with
  | nil => simp [differ] at h
  | cons y ys ih =>
    cases s with
    | nil => simp [differ] at h
    | cons x xs =>
      intro hbegins
      obtain ⟨heq,htail⟩ := cons_prefix_cons.mp hbegins
      simp only [differ,heq,ne_eq,not_true_eq_false] at h
      exact ih h htail

theorem clear_of_isClear (h : isClear pattern s=true) : Clear pattern s := by
  induction s with
  | nil => exact .nil
  | cons x xs ih =>
    rw [isClear,Bool.and_eq_true] at h
    exact .cons (not_prefix_of_differ h.1) (ih h.2)

theorem find_of_prefix (h : pattern <+: s) : find pattern s=some 0 := by
  cases s with
  | nil => rw [find,if_pos (List.isPrefixOf_iff_prefix.mpr h)]
  | cons x xs => rw [find,if_pos (List.isPrefixOf_iff_prefix.mpr h)]

theorem find_append (hs : Clear pattern s) (rest : List α) :
    find pattern (s++(pattern++rest))=some s.length := by
  induction hs with
  | nil => exact find_of_prefix (prefix_append pattern rest)
  | cons first others ih =>
    have hfirst := first (pattern++rest)
    rw [cons_append,find,if_neg fun h => hfirst (List.isPrefixOf_iff_prefix.mp h),ih]
    rfl

theorem find_eq_none (hpattern : pattern ≠ []) (hs : Clear pattern s) : find pattern s=none := by
  induction hs with
  | nil =>
    cases pattern with
    | nil => exact absurd rfl hpattern
    | cons y ys => rfl
  | cons first others ih =>
    have hfirst := first []
    rw [append_nil] at hfirst
    rw [find,if_neg fun h => hfirst (List.isPrefixOf_iff_prefix.mp h),ih]
    rfl

end

end MiniErp.Search
