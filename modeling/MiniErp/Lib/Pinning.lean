import Mathlib.Data.Finset.Card

/-! Windows of bounded size over a list. The first elements are shown; each pinned element outside
takes the place of the last element shown that is not pinned. -/
namespace MiniErp.Pinning
open List
variable {α : Type*} [DecidableEq α]

section
variable (pinned : α → Bool)

def lastFree (items : List α) (shown : Finset α) : Option α :=
  items.reverse.find? fun a => decide (a∈shown) && !pinned a

def pinStep (items : List α) (shown : Finset α) (a : α) : Finset α :=
  if a∈shown then shown
  else
    match lastFree pinned items shown with
    | some free => insert a (shown.erase free)
    | none => shown

def selected (limit : Nat) (items : List α) : Finset α :=
  (items.filter pinned).foldl (pinStep pinned items) (items.take limit).toFinset

def window (limit : Nat) (items : List α) : List α :=
  items.filter fun a => a∈selected pinned limit items

end

variable {pinned : α → Bool} {items wanted : List α} {shown : Finset α} {a b : α}

theorem lastFree_eq_some (h : lastFree pinned items shown=some a) : a∈shown ∧ pinned a=false := by
  have hfound := find?_some h
  simpa using hfound

theorem lastFree_eq_none (hsub : shown ⊆ items.toFinset)
    (h : lastFree pinned items shown=none) (ha : a∈shown) : pinned a=true := by
  have hmem : a∈items.reverse := mem_reverse.mpr (mem_toFinset.mp (hsub ha))
  have hnot := find?_eq_none.mp h a hmem
  simpa [ha] using hnot

/-- The elements shown are elements of the list, and there are `size` of them. -/
structure Shows (items : List α) (size : Nat) (shown : Finset α) : Prop where
  subset : shown ⊆ items.toFinset
  card : shown.card=size

theorem Shows.pinStep {size : Nat} (h : Shows items size shown) (ha : a∈items) :
    Shows items size (pinStep pinned items shown a) := by
  unfold Pinning.pinStep
  split
  · exact h
  · rename_i hout
    cases hfree : lastFree pinned items shown with
    | none => exact h
    | some free =>
      have hin := (lastFree_eq_some hfree).1
      have hnot : a∉shown.erase free := fun hmem => hout (Finset.mem_of_mem_erase hmem)
      constructor
      · refine Finset.insert_subset (mem_toFinset.mpr ha) ?_
        exact (Finset.erase_subset free shown).trans h.subset
      · have hpos : 0 < shown.card := Finset.card_pos.mpr ⟨free,hin⟩
        rw [Finset.card_insert_of_notMem hnot,Finset.card_erase_of_mem hin,← h.card]
        omega

theorem Shows.foldl {size : Nat} (h : Shows items size shown) (hwanted : ∀ a∈wanted, a∈items) :
    Shows items size (wanted.foldl (Pinning.pinStep pinned items) shown) := by
  induction wanted generalizing shown with
  | nil => exact h
  | cons first rest ih =>
    exact ih (h.pinStep (hwanted first mem_cons_self)) fun a ha => hwanted a (mem_cons_of_mem _ ha)

theorem mem_pinStep (hb : b∈shown) (hpinned : pinned b=true) : b∈pinStep pinned items shown a := by
  unfold pinStep
  split
  · exact hb
  · cases hfree : lastFree pinned items shown with
    | none => exact hb
    | some free =>
      have hne : b≠free := by
        intro heq
        rw [heq,(lastFree_eq_some hfree).2] at hpinned
        cases hpinned
      exact Finset.mem_insert_of_mem (Finset.mem_erase.mpr ⟨hne,hb⟩)

theorem mem_foldl_pinStep (hb : b∈shown) (hpinned : pinned b=true) :
    b∈wanted.foldl (pinStep pinned items) shown := by
  induction wanted generalizing shown with
  | nil => exact hb
  | cons first rest ih => exact ih (mem_pinStep hb hpinned)

theorem pinned_of_mem_foldl (hshown : ∀ b∈shown, pinned b=true)
    (hwanted : ∀ a∈wanted, pinned a=true) :
    ∀ b∈wanted.foldl (pinStep pinned items) shown, pinned b=true := by
  induction wanted generalizing shown with
  | nil => exact hshown
  | cons first rest ih =>
    refine ih ?_ fun a ha => hwanted a (mem_cons_of_mem _ ha)
    intro b hb
    unfold pinStep at hb
    split at hb
    · exact hshown b hb
    · cases hfree : lastFree pinned items shown with
      | none =>
        rw [hfree] at hb
        exact hshown b hb
      | some free =>
        rw [hfree] at hb
        cases Finset.mem_insert.mp hb with
        | inl heq => exact heq ▸ hwanted first mem_cons_self
        | inr hmem => exact hshown b (Finset.mem_of_mem_erase hmem)

theorem foldl_pinStep_cases {size : Nat} (h : Shows items size shown)
    (hmem : ∀ a∈wanted, a∈items) (hwanted : ∀ a∈wanted, pinned a=true) :
    (∀ a∈wanted, a∈wanted.foldl (pinStep pinned items) shown) ∨
      ∀ b∈wanted.foldl (pinStep pinned items) shown, pinned b=true := by
  induction wanted generalizing shown with
  | nil => exact .inl fun a ha => nomatch ha
  | cons first rest ih =>
    have hfirst : pinned first=true := hwanted first mem_cons_self
    have hrest : ∀ a∈rest, pinned a=true := fun a ha => hwanted a (mem_cons_of_mem _ ha)
    by_cases hstep : first∈pinStep pinned items shown first
    · refine (ih (h.pinStep (hmem first mem_cons_self))
        (fun a ha => hmem a (mem_cons_of_mem _ ha)) hrest).imp_left ?_
      intro hall a ha
      cases ha with
      | head =>
        rw [foldl_cons]
        exact mem_foldl_pinStep hstep hfirst
      | tail _ ha => exact hall a ha
    · -- the element found no place, so only pinned ones are shown
      have hout : first∉shown := fun hin => hstep (mem_pinStep hin hfirst)
      cases hfree : lastFree pinned items shown with
      | some free =>
        refine absurd ?_ hstep
        rw [pinStep,if_neg hout,hfree]
        exact Finset.mem_insert_self _ _
      | none =>
        have hsame : pinStep pinned items shown first=shown := by rw [pinStep,if_neg hout,hfree]
        rw [foldl_cons,hsame]
        exact .inr (pinned_of_mem_foldl (fun b hb => lastFree_eq_none h.subset hfree hb) hrest)

section Window
variable {limit : Nat}

theorem shows_selected (hnodup : items.Nodup) :
    Shows items (min limit items.length) (selected pinned limit items) := by
  have htake : Shows items (min limit items.length) (items.take limit).toFinset := by
    constructor
    · intro a ha
      exact mem_toFinset.mpr (mem_of_mem_take (mem_toFinset.mp ha))
    · rw [toFinset_card_of_nodup (hnodup.sublist (take_sublist _ _)),length_take]
  exact htake.foldl fun a ha => mem_of_mem_filter ha

theorem mem_window (hnodup : items.Nodup) :
    a∈window pinned limit items ↔ a∈selected pinned limit items := by
  rw [window,mem_filter,decide_eq_true_iff]
  exact and_iff_right_of_imp fun ha => mem_toFinset.mp ((shows_selected hnodup).subset ha)

theorem length_window (hnodup : items.Nodup) :
    (window pinned limit items).length=min limit items.length := by
  have hset : (window pinned limit items).toFinset=selected pinned limit items := by
    ext a
    rw [mem_toFinset,mem_window hnodup]
  have hwindow : (window pinned limit items).Nodup := hnodup.sublist filter_sublist
  rw [← (shows_selected hnodup).card,← hset,toFinset_card_of_nodup hwindow]

theorem card_pinned (hnodup : items.Nodup) :
    (items.filter pinned).toFinset.card=(items.filter pinned).length :=
  toFinset_card_of_nodup (hnodup.sublist filter_sublist)

theorem selected_cases (pinned : α → Bool) (limit : Nat) (items : List α) :
    (∀ a∈items.filter pinned, a∈selected pinned limit items) ∨
      ∀ b∈selected pinned limit items, pinned b=true := by
  have htake : Shows items _ (items.take limit).toFinset := ⟨fun a ha =>
    mem_toFinset.mpr (mem_of_mem_take (mem_toFinset.mp ha)),rfl⟩
  exact foldl_pinStep_cases htake (fun a ha => mem_of_mem_filter ha)
    fun a ha => (mem_filter.mp ha).2

theorem mem_window_of_pinned (hnodup : items.Nodup) (hfit : (items.filter pinned).length≤limit)
    (ha : a∈items) (hpinned : pinned a=true) : a∈window pinned limit items := by
  have hmem : a∈items.filter pinned := mem_filter.mpr ⟨ha,hpinned⟩
  rw [mem_window hnodup]
  cases selected_cases pinned limit items with
  | inl hall => exact hall a hmem
  | inr honly =>
    -- only pinned elements are shown, and there are as many of them as fit
    have hsub : selected pinned limit items ⊆ (items.filter pinned).toFinset := by
      intro b hb
      have hin := mem_toFinset.mp ((shows_selected hnodup).subset hb)
      exact mem_toFinset.mpr (mem_filter.mpr ⟨hin,honly b hb⟩)
    have hcard : (items.filter pinned).toFinset.card≤(selected pinned limit items).card := by
      have hlength := length_filter_le pinned items
      rw [card_pinned hnodup,(shows_selected hnodup).card]
      omega
    rw [Finset.eq_of_subset_of_card_le hsub hcard]
    exact mem_toFinset.mpr hmem

theorem pinned_of_mem_window (hnodup : items.Nodup) (hmany : limit<(items.filter pinned).length)
    (ha : a∈window pinned limit items) : pinned a=true := by
  rw [mem_window hnodup] at ha
  cases selected_cases pinned limit items with
  | inr honly => exact honly a ha
  | inl hall =>
    have hsub : (items.filter pinned).toFinset ⊆ selected pinned limit items :=
      fun b hb => hall b (mem_toFinset.mp hb)
    have hcard := Finset.card_le_card hsub
    rw [card_pinned hnodup,(shows_selected hnodup).card] at hcard
    omega

end Window

end MiniErp.Pinning
