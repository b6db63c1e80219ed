import Mathlib

/-! Bipartite matching by augmenting paths, as a depth-first search over the slots with one
shared set of visited slots. A successful search gives one more left vertex a slot; a failed one
leaves a closed set of slots whose owners reach nothing else, and later searches cannot enter
it. So every left vertex is tried once and the result is a maximum matching. -/
namespace MiniErp.Matching
open List Option

variable {ι σ : Type*}

/-- The matching, as the owner of every slot, and the slots visited so far. -/
structure Search (ι σ : Type*) where
  matched : σ → Option ι
  visited : Finset σ

section Basic
variable [DecidableEq σ]

namespace Search

section
variable (st : Search ι σ)

def visit (s : σ) : Search ι σ := { st with visited := insert s st.visited }

def take (s : σ) (i : ι) : Search ι σ :=
  { st with matched := Function.update st.matched s (some i) }

@[simp] theorem mem_visit (s t : σ) : t∈(st.visit s).visited ↔ t=s ∨ t∈st.visited :=
  Finset.mem_insert

@[simp] theorem take_matched_self (s : σ) (i : ι) : (st.take s i).matched s=some i := by simp [take]

theorem take_matched_of_ne {s t : σ} (i : ι) (h : t≠s) : (st.take s i).matched t=st.matched t := by
  simp [take,h]

end

end Search

variable (fits : ι → σ → Bool)

/-- One pass over the slots for `i`: a free slot is taken, an owned one after `retry` has found
its owner another. The answer is `none` when `retry` gives none. -/
def scan (retry : ι → Search ι σ → Option (Bool × Search ι σ)) (i : ι) :
    List σ → Search ι σ → Option (Bool × Search ι σ)
  | [], st => some (false, st)
  | s::rest, st =>
    if s∈st.visited ∨ fits i s=false then scan retry i rest st
    else match st.matched s with
      | none => some (true, (st.visit s).take s i)
      | some j => match retry j (st.visit s) with
        | none => none
        | some (true, next) => some (true, next.take s i)
        | some (false, next) => scan retry i rest next

/-- The search, `fuel` calls deep; `none` when the fuel does not suffice. -/
def search (slots : List σ) : Nat → ι → Search ι σ → Option (Bool × Search ι σ)
  | 0, _, _ => none
  | fuel+1, i, st => scan fits (search slots fuel) i slots st

end Basic

variable (fits : ι → σ → Bool)

/-- Every slot of the set is owned, and its owner fits no slot outside the set. -/
def Closed (M : σ → Option ι) (V : Finset σ) : Prop :=
  ∀ s∈V, ∃ j, M s=some j ∧ ∀ t, fits j t=true → t∈V

def Fitting (M : σ → Option ι) : Prop := ∀ s j, M s=some j → fits j s=true

section Held
variable [Fintype σ] [DecidableEq ι]

def held (M : σ → Option ι) (j : ι) : Nat := (Finset.univ.filter fun s => M s=some j).card

theorem held_ne_zero_iff {M : σ → Option ι} {j : ι} : held M j≠0 ↔ ∃ s, M s=some j := by
  rw [held,Finset.card_ne_zero,Finset.Nonempty]
  simp

theorem held_update [DecidableEq σ] (M : σ → Option ι) (s : σ) (i j : ι) :
    held (Function.update M s (some i)) j+(if M s=some j then 1 else 0) =
      held M j+(if j=i then 1 else 0) := by
  have hsplit : ∀ N : σ → Option ι, held N j=(if N s=some j then 1 else 0) +
      ((Finset.univ.erase s).filter fun t => N t=some j).card := by
    intro N
    rw [held,← Finset.insert_erase (Finset.mem_univ s),Finset.filter_insert]
    split
    · rw [Finset.card_insert_of_notMem (by simp),Finset.insert_erase (Finset.mem_univ s),add_comm]
    · rw [Finset.insert_erase (Finset.mem_univ s),zero_add]
  have hrest : ((Finset.univ.erase s).filter fun t => Function.update M s (some i) t=some j) =
      (Finset.univ.erase s).filter fun t => M t=some j := by
    apply Finset.filter_congr
    intro t ht
    rw [Function.update_of_ne (Finset.ne_of_mem_erase ht)]
  rw [hsplit (Function.update M s (some i)),hsplit M,hrest,Function.update_self]
  simp only [some.injEq,eq_comm (a := i)]
  omega

end Held

/-- What a search leaves that found nothing: the same matching, and of every slot it visited
the owner with all the slots it fits. -/
structure Stalled (st next : Search ι σ) : Prop where
  matched : next.matched=st.matched
  visited : st.visited ⊆ next.visited
  owners : ∀ s∈next.visited, s∉st.visited →
    ∃ j, st.matched s=some j ∧ ∀ t, fits j t=true → t∈next.visited

/-- What a successful search for `i` leaves: one more slot for `i`, all other vertices with as
many as before, and visited slots and closed sets untouched. -/
structure Found [Fintype σ] [DecidableEq ι] (i : ι) (st next : Search ι σ) : Prop where
  held : ∀ j, held next.matched j=held st.matched j + if j=i then 1 else 0
  fitting : Fitting fits st.matched → Fitting fits next.matched
  kept : ∀ s∈st.visited, next.matched s=st.matched s
  closed : ∀ V, Closed fits st.matched V → ∀ s∈V, next.matched s=st.matched s

variable {fits}

namespace Stalled
variable {st next last : Search ι σ}

theorem refl (st : Search ι σ) : Stalled fits st st :=
  ⟨rfl,subset_rfl,fun _ hs hne => absurd hs hne⟩

theorem trans [DecidableEq σ] (h : Stalled fits st next) (h' : Stalled fits next last) : Stalled fits st last := by
  refine ⟨h'.matched.trans h.matched,h.visited.trans h'.visited,?_⟩
  intro s hs hne
  by_cases hmid : s∈next.visited
  · obtain ⟨j,hj,hfits⟩ := h.owners s hmid hne
    exact ⟨j,hj,fun t ht => h'.visited (hfits t ht)⟩
  · obtain ⟨j,hj,hfits⟩ := h'.owners s hs hmid
    exact ⟨j,h.matched ▸ hj,hfits⟩

theorem of_visit [DecidableEq σ] {s : σ} {j : ι} (h : Stalled fits (st.visit s) next) (hj : st.matched s=some j)
    (hfits : ∀ t, fits j t=true → t∈next.visited) : Stalled fits st next := by
  refine ⟨h.matched,fun t ht => h.visited (by simp [ht]),?_⟩
  intro t ht hne
  by_cases hts : t=s
  · exact ⟨j,hts ▸ hj,hfits⟩
  · exact h.owners t ht (by simp [hts,hne])

end Stalled

section Steps
variable [DecidableEq σ] {i : ι} {st next : Search ι σ}

theorem fitting_take {s : σ} (h : Fitting fits st.matched) (hfits : fits i s=true) :
    Fitting fits (st.take s i).matched := by
  intro t j ht
  by_cases hts : t=s
  · rw [hts,st.take_matched_self] at ht
    rw [hts,← some.inj ht]
    exact hfits
  · rw [st.take_matched_of_ne i hts] at ht
    exact h t j ht

variable [Fintype σ]

def unvisited (st : Search ι σ) : Nat := (st.visitedᶜ).card

theorem unvisited_le (h : st.visited ⊆ next.visited) : unvisited next≤unvisited st :=
  Finset.card_le_card (Finset.compl_subset_compl.mpr h)

theorem unvisited_visit {s : σ} (h : s∉st.visited) : unvisited (st.visit s)<unvisited st := by
  apply Finset.card_lt_card
  rw [Finset.compl_ssubset_compl]
  exact Finset.ssubset_insert h

end Steps

section Spec
variable [Fintype σ] [DecidableEq ι] {i : ι} {st next : Search ι σ}

theorem Found.of_stalled {last : Search ι σ} (h : Stalled fits st next)
    (hfound : Found fits i next last) : Found fits i st last := by
  obtain ⟨hheld,hfitting,hkept,hclosed⟩ := hfound
  rw [h.matched] at hheld hfitting hkept hclosed
  exact ⟨hheld,hfitting,fun s hs => hkept s (h.visited hs),hclosed⟩

variable [DecidableEq σ]

theorem found_free {s : σ} (hfree : st.matched s=none) (hfits : fits i s=true)
    (hnew : s∉st.visited) : Found fits i st ((st.visit s).take s i) where
  held j := by
    have h := held_update st.matched s i j
    simp only [hfree] at h
    exact h
  fitting h := by
    have hvisit : Fitting fits (st.visit s).matched := h
    exact fitting_take hvisit hfits
  kept t ht := by
    have hts : t≠s := fun hts => hnew (hts ▸ ht)
    exact (st.visit s).take_matched_of_ne i hts
  closed V hV t ht := by
    have hts : t≠s := by
      rintro rfl
      obtain ⟨j,hj,-⟩ := hV t ht
      rw [hfree] at hj
      cases hj
    exact (st.visit s).take_matched_of_ne i hts

theorem found_owned {s : σ} {j : ι} (hj : st.matched s=some j) (hfits : fits i s=true)
    (hnew : s∉st.visited) (hfound : Found fits j (st.visit s) next)
    (hout : ∀ V, Closed fits st.matched V → s∉V) : Found fits i st (next.take s i) where
  held k := by
    have h := held_update next.matched s i k
    have hs : next.matched s=some j := (hfound.kept s (by simp)).trans hj
    have hk : Matching.held next.matched k=Matching.held st.matched k + if k=j then 1 else 0 :=
      hfound.held k
    rw [hs] at h
    change Matching.held (Function.update next.matched s (some i)) k=_
    simp only [some.injEq,eq_comm (a := j)] at h
    omega
  fitting h := fitting_take (hfound.fitting h) hfits
  kept t ht := by
    have hts : t≠s := fun hts => hnew (hts ▸ ht)
    rw [next.take_matched_of_ne i hts]
    exact hfound.kept t (by simp [ht])
  closed V hV t ht := by
    have hts : t≠s := fun hts => hout V hV (hts ▸ ht)
    rw [next.take_matched_of_ne i hts]
    exact hfound.closed V hV t ht

/-- The three things a call promises: what success and failure leave, and that it fails for a
vertex that fits slots of a closed set only. -/
structure Sound (fits : ι → σ → Bool) (retry : ι → Search ι σ → Option (Bool × Search ι σ)) :
    Prop where
  found : ∀ i st next, retry i st=some (true, next) → Found fits i st next
  stalled : ∀ i st next, retry i st=some (false, next) →
    Stalled fits st next ∧ ∀ s, fits i s=true → s∈next.visited
  closed : ∀ i st next V, Closed fits st.matched V → (∀ s, fits i s=true → s∈V) →
    retry i st≠some (true, next)

variable {retry : ι → Search ι σ → Option (Bool × Search ι σ)}

section
variable (h : Sound fits retry) (slots : List σ)
include h

theorem scan_stalled (hscan : scan fits retry i slots st=some (false, next)) :
    Stalled fits st next ∧ ∀ s∈slots, fits i s=true → s∈next.visited := by
  induction slots generalizing st with
  | nil =>
    simp only [scan,some.injEq,Prod.mk.injEq,true_and] at hscan
    rw [← hscan]
    exact ⟨Stalled.refl st,by simp⟩
  | cons s rest ih =>
    simp only [scan] at hscan
    split at hscan
    · rename_i hskip
      obtain ⟨hstalled,hrest⟩ := ih hscan
      refine ⟨hstalled,?_⟩
      intro t ht hfits
      rcases mem_cons.mp ht with rfl | ht
      · exact hstalled.visited (hskip.resolve_right (by simp [hfits]))
      · exact hrest t ht hfits
    · split at hscan
      · cases hscan
      · rename_i j hj
        split at hscan
        · cases hscan
        · cases hscan
        · rename_i mid hmid
          obtain ⟨hvisit,howner⟩ := h.stalled j _ mid hmid
          have hfirst : Stalled fits st mid := hvisit.of_visit hj howner
          obtain ⟨hstalled,hrest⟩ := ih hscan
          refine ⟨hfirst.trans hstalled,?_⟩
          intro t ht hfits
          rcases mem_cons.mp ht with rfl | ht
          · exact hstalled.visited (hvisit.visited (by simp))
          · exact hrest t ht hfits

theorem scan_found
    (hscan : scan fits retry i slots st=some (true, next)) : Found fits i st next := by
  induction slots generalizing st with
  | nil => simp [scan] at hscan
  | cons s rest ih =>
    simp only [scan] at hscan
    split at hscan
    · exact ih hscan
    · rename_i hopen
      simp only [not_or,Bool.not_eq_false] at hopen
      split at hscan
      · rename_i hfree
        simp only [some.injEq,Prod.mk.injEq,true_and] at hscan
        rw [← hscan]
        exact found_free hfree hopen.2 hopen.1
      · rename_i j hj
        split at hscan
        · cases hscan
        · rename_i mid hmid
          simp only [some.injEq,Prod.mk.injEq,true_and] at hscan
          rw [← hscan]
          refine found_owned hj hopen.2 hopen.1 (h.found j _ mid hmid) ?_
          -- an owner inside a closed set would have been tried in vain
          intro V hV hs
          obtain ⟨k,hk,hfits⟩ := hV s hs
          have hjk : j=k := some.inj (hj.symm.trans hk)
          exact h.closed j (st.visit s) mid V hV (hjk ▸ hfits) hmid
        · rename_i mid hmid
          obtain ⟨hvisit,howner⟩ := h.stalled j _ mid hmid
          exact (ih hscan).of_stalled (hvisit.of_visit hj howner)

theorem scan_closed {V : Finset σ} (hV : Closed fits st.matched V) (hi : ∀ s, fits i s=true → s∈V) :
    scan fits retry i slots st≠some (true, next) := by
  induction slots generalizing st with
  | nil => simp [scan]
  | cons s rest ih =>
    intro hscan
    simp only [scan] at hscan
    split at hscan
    · exact ih hV hscan
    · rename_i hopen
      simp only [not_or,Bool.not_eq_false] at hopen
      obtain ⟨k,hk,hfits⟩ := hV s (hi s hopen.2)
      split at hscan
      · rename_i hfree
        rw [hfree] at hk
        cases hk
      · rename_i j hj
        have hjk : j=k := some.inj (hj.symm.trans hk)
        split at hscan
        · cases hscan
        · rename_i mid hmid
          exact h.closed j (st.visit s) mid V hV (hjk ▸ hfits) hmid
        · rename_i mid hmid
          have hmatched : mid.matched=st.matched := (h.stalled j _ mid hmid).1.matched
          exact ih (hmatched ▸ hV) hscan

end

variable {slots : List σ}

theorem search_sound (hslots : ∀ s, s∈slots) (fuel : Nat) :
    Sound fits (search fits slots fuel) := by
  induction fuel with
  | zero =>
    constructor
    · intro i st next h
      cases h
    · intro i st next h
      cases h
    · intro i st next V _ _ h
      cases h
  | succ fuel ih =>
    constructor
    · intro i st next h
      exact scan_found ih slots h
    · intro i st next h
      obtain ⟨hstalled,hfits⟩ := scan_stalled ih slots h
      exact ⟨hstalled,fun s => hfits s (hslots s)⟩
    · intro i st next V hV hi
      exact scan_closed ih slots hV hi

/- Termination: every call marks a slot, so the depth is bounded by the unvisited ones. -/

theorem scan_returns (h : Sound fits retry) {n : Nat}
    (hretry : ∀ j st, unvisited st<n → (retry j st).isSome) (slots : List σ)
    (hst : unvisited st≤n) : (scan fits retry i slots st).isSome := by
  induction slots generalizing st with
  | nil => rfl
  | cons s rest ih =>
    simp only [scan]
    split
    · exact ih hst
    · rename_i hopen
      simp only [not_or] at hopen
      have hvisit : unvisited (st.visit s)<n := (unvisited_visit hopen.1).trans_le hst
      split
      · rfl
      · rename_i j hj
        split
        · rename_i hnone
          have hsome := hretry j (st.visit s) hvisit
          rw [hnone] at hsome
          cases hsome
        · rfl
        · rename_i mid hmid
          exact ih ((unvisited_le (h.stalled j _ mid hmid).1.visited).trans hvisit.le)

/-- A search with more fuel than unvisited slots returns. -/
theorem search_returns (hslots : ∀ s, s∈slots) (fuel : Nat) (i : ι)
    (st : Search ι σ) (h : unvisited st<fuel) : (search fits slots fuel i st).isSome := by
  induction fuel generalizing i st with
  | zero => omega
  | succ fuel ih => exact scan_returns (search_sound hslots fuel) ih slots (by omega)

/- More fuel never changes an answer. -/

omit [Fintype σ] [DecidableEq ι] in
theorem scan_mono {more : ι → Search ι σ → Option (Bool × Search ι σ)}
    (hmore : ∀ j st r, retry j st=some r → more j st=some r) (slots : List σ)
    {r : Bool × Search ι σ} (h : scan fits retry i slots st=some r) :
    scan fits more i slots st=some r := by
  induction slots generalizing st with
  | nil => exact h
  | cons s rest ih =>
    simp only [scan] at h ⊢
    split at h
    · rename_i hskip
      rw [if_pos hskip]
      exact ih h
    · rename_i hopen
      rw [if_neg hopen]
      split at h
      · exact h
      · rename_i j hj
        split at h
        · cases h
        · rename_i mid hmid
          simp only [hmore j _ _ hmid]
          exact h
        · rename_i mid hmid
          simp only [hmore j _ _ hmid]
          exact ih h

omit [Fintype σ] [DecidableEq ι] in
theorem search_mono (fuel : Nat) (i : ι) (st : Search ι σ) {r : Bool × Search ι σ}
    (h : search fits slots fuel i st=some r) : search fits slots (fuel+1) i st=some r := by
  induction fuel generalizing i st r with
  | zero => cases h
  | succ fuel ih => exact scan_mono (fun j st r => ih j st) slots h

theorem search_terminates (hslots : ∀ s, s∈slots) (i : ι) (st : Search ι σ) :
    ∃ r, ∀ fuel, Fintype.card σ<fuel → search fits slots fuel i st=some r := by
  have hbound : unvisited st≤Fintype.card σ := Finset.card_le_univ _
  obtain ⟨r,hr⟩ := isSome_iff_exists.mp
    (search_returns hslots (Fintype.card σ+1) i st (by omega) : (search fits slots _ i st).isSome)
  refine ⟨r,fun fuel hfuel => ?_⟩
  induction fuel, hfuel using Nat.le_induction with
  | base => exact hr
  | succ fuel _ ih => exact search_mono fuel i st ih

end Spec

/- The run over all left vertices. -/

section Run
variable [Fintype σ] [DecidableEq ι] [DecidableEq σ] {slots : List σ}

section
variable (fits : ι → σ → Bool)

/-- One search from an empty set of visited slots; it has fuel for every slot. -/
def augment (hslots : ∀ s, s∈slots) (i : ι) (M : σ → Option ι) : Bool × Search ι σ :=
  (search fits slots (Fintype.card σ+1) i ⟨M,∅⟩).get
    (search_returns hslots _ i ⟨M,∅⟩ (by simp [unvisited]))

def matchAll (hslots : ∀ s, s∈slots) (lefts : List ι) : σ → Option ι :=
  lefts.foldl (fun M i => (augment fits hslots i M).2.matched) fun _ => none

/-- The vertices tried so far hold at most one slot each, and those without one fit slots of a
closed set only. -/
structure Tried (fits : ι → σ → Bool) (tried : List ι) (M : σ → Option ι) : Prop where
  fitting : Fitting fits M
  once : ∀ j, held M j≤1
  within : ∀ j, held M j≠0 → j∈tried
  blocked : ∃ V, Closed fits M V ∧ ∀ i∈tried, held M i=0 → ∀ s, fits i s=true → s∈V

theorem augment_cases (hslots : ∀ s, s∈slots) (i : ι) (M : σ → Option ι) :
    Found fits i ⟨M,∅⟩ (augment fits hslots i M).2 ∨
      Stalled fits ⟨M,∅⟩ (augment fits hslots i M).2 ∧
        ∀ s, fits i s=true → s∈(augment fits hslots i M).2.visited := by
  have hsound : Sound fits (search fits slots (Fintype.card σ+1)) := search_sound hslots _
  have hresult : search fits slots (Fintype.card σ+1) i ⟨M,∅⟩ =
      some ((augment fits hslots i M).1, (augment fits hslots i M).2) :=
    (some_get _).symm
  cases hfound : (augment fits hslots i M).1 with
  | true => exact .inl (hsound.found i _ _ (hfound ▸ hresult))
  | false => exact .inr (hsound.stalled i _ _ (hfound ▸ hresult))

theorem Tried.augment {fits : ι → σ → Bool} {hslots : ∀ s, s∈slots} {tried : List ι}
    {M : σ → Option ι} {i : ι} (h : Tried fits tried M) (hnew : i∉tried) :
    Tried fits (tried++[i]) (augment fits hslots i M).2.matched := by
  have hzero : held M i=0 := by
    by_contra hheld
    exact hnew (h.within i hheld)
  obtain ⟨V,hV,hdead⟩ := h.blocked
  rcases augment_cases fits hslots i M with hfound | ⟨hstalled,hfits⟩
  · have hheld := hfound.held
    refine ⟨hfound.fitting h.fitting,?_,?_,V,?_,?_⟩
    · intro j
      have honce := h.once j
      rw [hheld j]
      split
      · rename_i hji
        rw [hji]
        exact Nat.le_of_eq (by rw [show held M i=0 from hzero])
      · exact honce
    · intro j hj
      rw [hheld j] at hj
      split at hj
      · rename_i hji
        simp [hji]
      · exact mem_append_left _ (h.within j hj)
    · intro s hs
      obtain ⟨j,hj,hfits⟩ := hV s hs
      exact ⟨j,(hfound.closed V hV s hs).trans hj,hfits⟩
    · intro j hj hnone
      rw [hheld j] at hnone
      have hne : j≠i := by
        rintro rfl
        simp at hnone
      rw [if_neg hne,add_zero] at hnone
      have hmem : j∈tried := by simpa [hne] using hj
      exact hdead j hmem hnone
  · have hsame : (Matching.augment fits hslots i M).2.matched=M := hstalled.matched
    rw [hsame]
    refine ⟨h.fitting,h.once,fun j hj => mem_append_left _ (h.within j hj),?_⟩
    refine ⟨V ∪ (Matching.augment fits hslots i M).2.visited,?_,?_⟩
    · intro s hs
      rcases Finset.mem_union.mp hs with hs | hs
      · obtain ⟨j,hj,hfits⟩ := hV s hs
        exact ⟨j,hj,fun t ht => Finset.mem_union_left _ (hfits t ht)⟩
      · obtain ⟨j,hj,hfits⟩ := hstalled.owners s hs (Finset.notMem_empty s)
        exact ⟨j,hj,fun t ht => Finset.mem_union_right _ (hfits t ht)⟩
    · intro j hj hnone s hs
      rcases mem_append.mp hj with hj | hj
      · exact Finset.mem_union_left _ (hdead j hj hnone s hs)
      · rw [mem_singleton.mp hj] at hs
        exact Finset.mem_union_right _ (hfits s hs)

theorem tried_matchAll (hslots : ∀ s, s∈slots) {lefts : List ι}
    (hnodup : lefts.Nodup) : Tried fits lefts (matchAll fits hslots lefts) := by
  induction lefts using List.reverseRecOn with
  | nil =>
    refine ⟨?_,fun j => ?_,fun j hj => ?_,∅,?_,?_⟩
    · intro s j h
      cases h
    · simp [held,matchAll]
    · simp [held,matchAll] at hj
    · exact fun s hs => absurd hs (Finset.notMem_empty s)
    · exact fun i hi => absurd hi not_mem_nil
  | append_singleton rest i ih =>
    obtain ⟨hrest,-,hdisjoint⟩ := nodup_append.mp hnodup
    have hnew : i∉rest := fun hi => hdisjoint i hi i (by simp) rfl
    rw [matchAll,foldl_append]
    exact (ih hrest).augment hnew

end

end Run

/- Maximality. -/

section Maximum
variable [Fintype σ] {fits : ι → σ → Bool}

structure IsMatching (fits : ι → σ → Bool) (M : σ → Option ι) : Prop where
  fitting : Fitting fits M
  injective : ∀ s t i, M s=some i → M t=some i → s=t

def size (M : σ → Option ι) : Nat := (Finset.univ.filter fun s => (M s).isSome).card

variable {M : σ → Option ι}

theorem size_eq_card_iff : size M=Fintype.card σ ↔ ∀ s, (M s).isSome := by
  rw [size,Finset.card_eq_iff_eq_univ,Finset.filter_eq_self]
  simp

/-- A maximum matching fills every slot exactly when distinct vertices can be chosen for all. -/
theorem greatest_eq_card_iff {k : Nat}
    (h : IsGreatest {k | ∃ M, IsMatching fits M ∧ size M=k} k) :
    k=Fintype.card σ ↔ ∃ choice : σ → ι, Function.Injective choice ∧ ∀ s, fits (choice s) s=true := by
  constructor
  · rintro rfl
    obtain ⟨M,hM,hsize⟩ := h.1
    have hfull := size_eq_card_iff.mp hsize
    have hget : ∀ s, M s=some ((M s).get (hfull s)) := fun s => (some_get _).symm
    refine ⟨fun s => (M s).get (hfull s),?_,fun s => hM.fitting s _ (hget s)⟩
    intro s t hst
    exact hM.injective s t _ (hget s) ((hget t).trans (congrArg some hst.symm))
  · rintro ⟨choice,hinjective,hfits⟩
    have hM : IsMatching fits fun s => some (choice s) := by
      refine ⟨fun s i hi => some.inj hi ▸ hfits s,?_⟩
      intro s t i hs ht
      exact hinjective (some.inj (hs.trans ht.symm))
    have hfull : size (fun s => some (choice s))=Fintype.card σ := size_eq_card_iff.mpr fun s => rfl
    apply le_antisymm
    · obtain ⟨M,-,rfl⟩ := h.1
      exact Finset.card_le_univ _
    · exact hfull ▸ h.2 ⟨_,hM,rfl⟩

variable [DecidableEq ι]

theorem isMatching_of_once (hfitting : Fitting fits M)
    (honce : ∀ j, held M j≤1) : IsMatching fits M := by
  refine ⟨hfitting,?_⟩
  intro s t i hs ht
  exact Finset.card_le_one.mp (honce i) s (by simp [hs]) t (by simp [ht])

variable [DecidableEq σ]

/-- No matching among the tried vertices fills more slots. Inside the closed set all slots are
filled; outside it, whoever holds a slot holds one outside in `M` too. -/
theorem Tried.size_le {tried : List ι} {N : σ → Option ι} (h : Tried fits tried M)
    (hN : IsMatching fits N) (hwithin : ∀ s i, N s=some i → i∈tried) : size N ≤ size M := by
  obtain ⟨V,hV,hdead⟩ := h.blocked
  let filled : (σ → Option ι) → Finset σ := fun P => Finset.univ.filter fun s => (P s).isSome
  have hcovered : V ⊆ filled M := by
    intro s hs
    obtain ⟨j,hj,-⟩ := hV s hs
    simp [filled,hj]
  have houtside : (filled N \ V).card≤(filled M \ V).card := by
    have hinjective : Set.InjOn N (filled N \ V : Finset σ) := by
      intro s hs t ht hst
      simp only [filled,Finset.mem_coe,Finset.mem_sdiff,Finset.mem_filter,Finset.mem_univ,
        true_and] at hs ht
      obtain ⟨i,hi⟩ := isSome_iff_exists.mp hs.1
      exact hN.injective s t i hi (hst ▸ hi)
    have howners : (filled N \ V).image N ⊆ (filled M \ V).image M := by
      intro owner howner
      obtain ⟨s,hs,rfl⟩ := Finset.mem_image.mp howner
      simp only [filled,Finset.mem_sdiff,Finset.mem_filter,Finset.mem_univ,true_and] at hs
      obtain ⟨i,hi⟩ := isSome_iff_exists.mp hs.1
      have hfits : fits i s=true := hN.fitting s i hi
      have hheld : held M i≠0 := by
        intro hzero
        exact hs.2 (hdead i (hwithin s i hi) hzero s hfits)
      obtain ⟨t,ht⟩ := held_ne_zero_iff.mp hheld
      have htV : t∉V := by
        intro hmem
        obtain ⟨j,hj,hreach⟩ := hV t hmem
        rw [some.inj (ht.symm.trans hj)] at hfits
        exact hs.2 (hreach s hfits)
      exact Finset.mem_image.mpr ⟨t,by simp [filled,ht,htV],ht.trans hi.symm⟩
    calc (filled N \ V).card=((filled N \ V).image N).card :=
          (Finset.card_image_of_injOn hinjective).symm
      _≤((filled M \ V).image M).card := Finset.card_le_card howners
      _≤(filled M \ V).card := Finset.card_image_le
  calc size N≤V.card+(filled N \ V).card := by
        have hsplit : filled N ⊆ V ∪ (filled N \ V) := by
          intro s hs
          by_cases hsV : s∈V <;> simp [hs]
        exact (Finset.card_le_card hsplit).trans (Finset.card_union_le V _)
    _≤V.card+(filled M \ V).card := Nat.add_le_add_left houtside _
    _=size M := by
        rw [add_comm,Finset.card_sdiff_add_card_eq_card hcovered]
        rfl

/-- The run fills as many slots as any matching of the left vertices. -/
theorem matchAll_isGreatest {slots : List σ} (hslots : ∀ s, s∈slots) {lefts : List ι}
    (hnodup : lefts.Nodup) (hlefts : ∀ i, i∈lefts) :
    IsGreatest {k | ∃ M, IsMatching fits M ∧ size M=k} (size (matchAll fits hslots lefts)) := by
  have htried := tried_matchAll fits hslots hnodup
  constructor
  · exact ⟨_,isMatching_of_once htried.fitting htried.once,rfl⟩
  · rintro k ⟨N,hN,rfl⟩
    exact htried.size_le hN fun s i _ => hlefts i

end Maximum

end MiniErp.Matching
