import Mathlib.Logic.Relation

/-! Searches in both directions over a graph whose nodes fall into classes. A search leaves a
class along an arc of any of its members and goes on from the nodes it may pass. What the forward
search finds from one class is what the backward search finds from the other. -/
namespace MiniErp.TwoWay
open Relation
variable {α : Type*} {arc same : α → α → Prop} {pass : α → Prop}

section
variable (arc same : α → α → Prop)

def Leaves (a v : α) : Prop := ∃ u, same u a ∧ arc u v ∧ ¬same v a

def Finds (pass : α → Prop) (a b : α) : Prop :=
  ∃ first, Leaves arc same a first ∧ ∃ last,
    ReflTransGen (fun x y => pass x ∧ Leaves arc same x y) first last ∧ same last b

def Across (x y : α) : Prop := ∃ u v, same u x ∧ same v y ∧ arc u v ∧ ¬same x y

end

/-- A walk along `r` that may pass every node between its ends. -/
def Passing (r : α → α → Prop) (pass : α → Prop) (a b : α) : Prop :=
  ∃ m, ReflTransGen (fun x y => r x y ∧ pass y) a m ∧ r m b

theorem Passing.swap {r : α → α → Prop} {a b : α} (h : Passing r pass a b) :
    Passing (fun x y => r y x) pass b a := by
  obtain ⟨m,hwalk,hlast⟩ := h
  induction hwalk using ReflTransGen.head_induction_on with
  | refl => exact ⟨b,.refl,hlast⟩
  | head hstep _ ih =>
    obtain ⟨n,hback,hnext⟩ := ih
    exact ⟨_,hback.tail ⟨hnext,hstep.2⟩,hstep.1⟩

section Classes
variable (hsame : Equivalence same) (hpass : ∀ x y, same x y → pass x → pass y)
include hsame

theorem Across.left {x y z : α} (h : Across arc same x y) (hxz : same x z) :
    Across arc same z y := by
  obtain ⟨u,v,hu,hv,harc,hne⟩ := h
  exact ⟨u,v,hsame.trans hu hxz,hv,harc,fun hzy => hne (hsame.trans hxz hzy)⟩

theorem Across.right {x y z : α} (h : Across arc same x y) (hyz : same y z) :
    Across arc same x z := by
  obtain ⟨u,v,hu,hv,harc,hne⟩ := h
  exact ⟨u,v,hu,hsame.trans hv hyz,harc,fun hxz => hne (hsame.trans hxz (hsame.symm hyz))⟩

theorem across_of_leaves {a v : α} (h : Leaves arc same a v) : Across arc same a v := by
  obtain ⟨u,hu,harc,hne⟩ := h
  exact ⟨u,v,hu,hsame.refl v,harc,fun hav => hne (hsame.symm hav)⟩

theorem leaves_of_across {a b : α} (h : Across arc same a b) :
    ∃ v, Leaves arc same a v ∧ same v b := by
  obtain ⟨u,v,hu,hv,harc,hne⟩ := h
  exact ⟨v,⟨u,hu,harc,fun hva => hne (hsame.trans (hsame.symm hva) hv)⟩,hv⟩

theorem passing_of_finds {a b : α} (h : Finds arc same pass a b) :
    Passing (Across arc same) pass a b := by
  obtain ⟨first,hfirst,last,hwalk,hlast⟩ := h
  have hreached : ∃ m, ReflTransGen (fun x y => Across arc same x y ∧ pass y) a m ∧
      Across arc same m last := by
    clear hlast
    induction hwalk with
    | refl => exact ⟨a,.refl,across_of_leaves hsame hfirst⟩
    | tail _ hstep ih =>
      obtain ⟨m,hreach,hacross⟩ := ih
      exact ⟨_,hreach.tail ⟨hacross,hstep.1⟩,across_of_leaves hsame hstep.2⟩
  obtain ⟨m,hreach,hacross⟩ := hreached
  exact ⟨m,hreach,hacross.right hsame hlast⟩

include hpass

/-- The walk between the classes is followed by a search, member by member. -/
theorem finds_of_passing {a b c : α} (h : Passing (Across arc same) pass a b) (hca : same a c) :
    Finds arc same pass c b := by
  obtain ⟨m,hwalk,hlast⟩ := h
  induction hwalk using ReflTransGen.head_induction_on generalizing c with
  | refl =>
    obtain ⟨v,hleaves,hv⟩ := leaves_of_across hsame (hlast.left hsame hca)
    exact ⟨v,hleaves,v,.refl,hv⟩
  | head hstep _ ih =>
    obtain ⟨v,hleaves,hv⟩ := leaves_of_across hsame (hstep.1.left hsame hca)
    obtain ⟨first,hfirst,last,hrest,hb⟩ := ih (hsame.symm hv)
    have hv : pass v := hpass _ _ (hsame.symm hv) hstep.2
    exact ⟨v,hleaves,last,.head ⟨hv,hfirst⟩ hrest,hb⟩

/-- The forward search from one class finds the other if and only if the backward search from
the other finds the first. -/
theorem finds_swap_iff {a b : α} :
    Finds arc same pass a b ↔ Finds (fun u v => arc v u) same pass b a := by
  have hturn : ∀ (arc : α → α → Prop) (a b : α), Finds arc same pass a b →
      Finds (fun u v => arc v u) same pass b a := by
    intro arc a b h
    have hacross : ∀ x y, Across arc same y x → Across (fun u v => arc v u) same x y := by
      rintro x y ⟨u,v,hu,hv,harc,hne⟩
      exact ⟨v,u,hv,hu,harc,fun hxy => hne (hsame.symm hxy)⟩
    obtain ⟨m,hwalk,hlast⟩ := (passing_of_finds hsame h).swap
    refine finds_of_passing hsame hpass ⟨m,?_,hacross _ _ hlast⟩ (hsame.refl b)
    exact hwalk.lift id fun x y hxy => ⟨hacross x y hxy.1,hxy.2⟩
  exact ⟨hturn arc a b,hturn (fun u v => arc v u) b a⟩

end Classes

end MiniErp.TwoWay
