import Mathlib.Logic.Relation

/-! Graphs whose nodes are merged into places. Merging can close a cycle that the graph does not
have; it does not when every place is represented by a node that has the edges of all its nodes. -/
namespace MiniErp.Merge
open Relation
variable {α P Q : Type*} {edge : α → α → Prop}

def Merged (edge : α → α → Prop) (place : α → P) (p q : P) : Prop :=
  ∃ a b, edge a b ∧ place a=p ∧ place b=q ∧ p≠q

def Acyclic (r : P → P → Prop) : Prop := ∀ p, ¬TransGen r p p

/-- An edge stays within one place or leads from one place to another. -/
theorem reflTransGen_of_edge {place : α → P} {a b : α} (h : edge a b) :
    ReflTransGen (Merged edge place) (place a) (place b) := by
  by_cases hsame : place a=place b
  · rw [hsame]
  · exact .single ⟨a,b,h,rfl,rfl,hsame⟩

/-- Places that a finer merge keeps apart only by nodes that represent each other may be merged:
`rep` picks one node of every coarse place, and it has an edge wherever its place has one. -/
theorem acyclic_of_representatives {coarse : α → P} {fine : α → Q} {rep : α → α}
    (hrep : ∀ a b, coarse a=coarse b ↔ fine (rep a)=fine (rep b))
    (hedge : ∀ a b, edge a b → edge (rep a) (rep b)) (h : Acyclic (Merged edge fine)) :
    Acyclic (Merged edge coarse) := by
  have hlift : ∀ p q, TransGen (Merged edge coarse) p q → ∀ a b, coarse a=p → coarse b=q →
      TransGen (Merged edge fine) (fine (rep a)) (fine (rep b)) := by
    have hstep : ∀ p q, Merged edge coarse p q → ∀ a b, coarse a=p → coarse b=q →
        Merged edge fine (fine (rep a)) (fine (rep b)) := by
      rintro p q ⟨x,y,hxy,rfl,rfl,hne⟩ a b ha hb
      rw [(hrep a x).mp ha,(hrep b y).mp hb]
      exact ⟨rep x,rep y,hedge x y hxy,rfl,rfl,fun heq => hne ((hrep x y).mpr heq)⟩
    intro p q hwalk
    induction hwalk with
    | single hpq => exact fun a b ha hb => .single (hstep _ _ hpq a b ha hb)
    | tail _ hqr ih =>
      intro a b ha hb
      have ⟨x,_,_,hx,_⟩ := hqr
      exact (ih a x ha hx).tail (hstep _ _ hqr x b hx hb)
  intro p hcycle
  obtain ⟨_,⟨a,_,_,ha,_⟩,_⟩ := TransGen.head'_iff.mp hcycle
  exact h _ (hlift p p hcycle a a ha ha)

/-- Places of single nodes close no cycle. -/
theorem acyclic_of_injective {place : α → P} (hplace : Function.Injective place)
    (h : Acyclic edge) : Acyclic (Merged edge place) := by
  have hlift : ∀ p q, TransGen (Merged edge place) p q → ∀ a b, place a=p → place b=q →
      TransGen edge a b := by
    intro p q hwalk
    induction hwalk with
    | single hpq =>
      rintro a b rfl rfl
      obtain ⟨x,y,hxy,hx,hy,_⟩ := hpq
      exact hplace hx ▸ hplace hy ▸ .single hxy
    | tail _ hqr ih =>
      rintro a b ha rfl
      obtain ⟨x,y,hxy,hx,hy,_⟩ := hqr
      exact hplace hy ▸ (ih a x ha hx).tail hxy
  intro p hcycle
  obtain ⟨_,⟨a,_,_,ha,_⟩,_⟩ := TransGen.head'_iff.mp hcycle
  exact h a (hlift p p hcycle a a ha ha)

/-- Nodes with the same edges leaving them may be merged. -/
theorem acyclic_quot {same : α → α → Prop} (hsame : ∀ a b c, same a b → (edge a c ↔ edge b c))
    (h : Acyclic edge) : Acyclic (Relation.Map edge (Quot.mk same) (Quot.mk same)) := by
  have hleave : ∀ a b, Quot.mk same a=Quot.mk same b → ∀ c, edge a c ↔ edge b c := by
    intro a b hab c
    have hclosure := Quot.eqvGen_exact hab
    clear hab
    induction hclosure with
    | rel a b hab => exact hsame a b c hab
    | refl a => exact Iff.rfl
    | symm a b _ ih => exact ih.symm
    | trans a b d _ _ ih ih' => exact ih.trans ih'
  have hlift : ∀ p q, TransGen (Relation.Map edge (Quot.mk same) (Quot.mk same)) p q →
      ∀ a, Quot.mk same a=p → ∃ b, Quot.mk same b=q ∧ TransGen edge a b := by
    intro p q hwalk
    induction hwalk with
    | single hpq =>
      intro a ha
      obtain ⟨x,y,hxy,hx,hy⟩ := hpq
      exact ⟨y,hy,.single ((hleave a x (ha.trans hx.symm) y).mpr hxy)⟩
    | tail _ hqr ih =>
      intro a ha
      obtain ⟨b,hb,hwalk⟩ := ih a ha
      obtain ⟨x,y,hxy,hx,hy⟩ := hqr
      exact ⟨y,hy,hwalk.tail ((hleave b x (hb.trans hx.symm) y).mpr hxy)⟩
  intro p hcycle
  obtain ⟨a,rfl⟩ := Quot.exists_rep p
  obtain ⟨b,hb,hwalk⟩ := hlift _ _ hcycle a rfl
  -- the end of the walk leaves as its start does
  obtain ⟨y,hay,hyb⟩ := TransGen.head'_iff.mp hwalk
  exact h y (TransGen.tail' hyb ((hleave b a hb y).mpr hay))

/-- A rank that grows along every merged edge leaves no cycle. -/
theorem acyclic_of_rank {place : α → P} (rank : P → Nat)
    (h : ∀ a b, edge a b → place a≠place b → rank (place a) < rank (place b)) :
    Acyclic (Merged edge place) := by
  have hlt : ∀ p q, TransGen (Merged edge place) p q → rank p < rank q := by
    have hstep : ∀ p q, Merged edge place p q → rank p < rank q := by
      rintro p q ⟨a,b,hab,rfl,rfl,hne⟩
      exact h a b hab hne
    intro p q hwalk
    induction hwalk with
    | single hpq => exact hstep _ _ hpq
    | tail _ hqr ih => exact Nat.lt_trans ih (hstep _ _ hqr)
  exact fun p hcycle => Nat.lt_irrefl _ (hlt p p hcycle)

end MiniErp.Merge
