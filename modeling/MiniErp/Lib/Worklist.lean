import Mathlib.Logic.Relation
import Mathlib.Data.List.Nodup

/-! Breadth-first exploration with a queue and a visited list, as a loop with fuel. The fuel
of `explore` is enough on every domain that is closed under the steps, and what it visits is
then exactly what can be reached. -/
namespace MiniErp.Worklist
open Relation List
variable {α : Type*} [DecidableEq α] (next : α → List α)

/-- The loop: pop the front, skip what was visited, visit and append the rest. -/
def exploreFrom : Nat → List α → List α → List α
  | 0, _, visited => visited
  | _ + 1, [], visited => visited
  | fuel+1, x::queue, visited =>
    if x∈visited then exploreFrom fuel queue visited
    else exploreFrom fuel (queue++next x) (visited++[x])

/-- What the elements of a domain that are not visited yet can still push. -/
def pushes (visited : List α) : List α → Nat
  | [] => 0
  | x::domain => (if x∈visited then 0 else (next x).length)+pushes visited domain

def explore (domain start : List α) : List α :=
  exploreFrom next (start.length+pushes next [] domain) start []

def Step (a b : α) : Prop := b∈next a

variable {next}

variable {visited domain : List α}

theorem exploreFrom_forall {P : α → Prop} (hstep : ∀ a, P a → ∀ b∈next a, P b) (fuel : Nat)
    (queue : List α) (hqueue : ∀ a∈queue, P a)
    (hvisited : ∀ a∈visited, P a) : ∀ a∈exploreFrom next fuel queue visited, P a := by
  induction fuel generalizing queue visited with
  | zero => exact hvisited
  | succ fuel ih =>
    cases queue with
    | nil => exact hvisited
    | cons x queue =>
      have hx : P x := hqueue x mem_cons_self
      have hrest : ∀ a∈queue, P a := fun a ha => hqueue a (mem_cons_of_mem x ha)
      simp only [exploreFrom]
      split
      · exact ih queue hrest hvisited
      · refine ih _ (fun a ha => ?_) (fun a ha => ?_)
        · exact (mem_append.mp ha).elim (hrest a) (hstep x hx a)
        · rcases mem_append.mp ha with ha | ha
          · exact hvisited a ha
          · rw [mem_singleton.mp ha]
            exact hx

theorem reachable_of_mem_explore {start : List α} {y : α}
    (h : y∈explore next domain start) : ∃ s∈start, ReflTransGen (Step next) s y := by
  refine exploreFrom_forall (P := fun y => ∃ s∈start, ReflTransGen (Step next) s y) ?_ _ _
    (fun a ha => ⟨a,ha,.refl⟩) (fun a ha => absurd ha (not_mem_nil)) y h
  rintro a ⟨s,hs,hreach⟩ b hb
  exact ⟨s,hs,hreach.tail hb⟩

variable (next) in
theorem pushes_mono (visited : List α) (x : α) (domain : List α) :
    pushes next (visited++[x]) domain≤pushes next visited domain := by
  induction domain with
  | nil => simp [pushes]
  | cons y domain ih =>
    simp only [pushes,mem_append]
    by_cases hy : y∈visited <;> by_cases hyx : y=x <;> simp only [hy] <;> grind

variable (next) in
theorem pushes_visit {x : α} (hx : x∈domain) (hnew : x∉visited) :
    (next x).length+pushes next (visited++[x]) domain≤pushes next visited domain := by
  induction domain with
  | nil => cases hx
  | cons y domain ih =>
    have hrest := pushes_mono next visited x domain
    by_cases hyx : y=x
    · subst hyx
      simp only [pushes,hnew,mem_append,mem_singleton,or_true,if_true,if_false]
      omega
    · have htail := ih ((mem_cons.mp hx).resolve_left fun h => hyx h.symm)
      simp only [pushes,mem_append,mem_singleton,hyx,or_false]
      omega

/-- With enough fuel for the domain the loop ends with an empty queue: its result holds the
queue and is closed under the steps. -/
theorem exploreFrom_closed (hdomain : ∀ a∈domain, ∀ b∈next a, b∈domain) (fuel : Nat)
    {queue : List α} (hqueue : ∀ a∈queue, a∈domain)
    (hvisited : ∀ a∈visited, ∀ b∈next a, b∈visited ∨ b∈queue)
    (hfuel : queue.length+pushes next visited domain≤fuel) :
    (∀ a, a∈visited ∨ a∈queue → a∈exploreFrom next fuel queue visited) ∧
    ∀ a∈exploreFrom next fuel queue visited, ∀ b∈next a, b∈exploreFrom next fuel queue visited := by
  induction fuel generalizing queue visited with
  | zero =>
    have hempty : queue=[] := eq_nil_of_length_eq_zero (by omega)
    subst hempty
    simpa [exploreFrom] using hvisited
  | succ fuel ih =>
    cases queue with
    | nil => simpa [exploreFrom] using hvisited
    | cons x queue =>
      have hx : x∈domain := hqueue x mem_cons_self
      have hrest : ∀ a∈queue, a∈domain := fun a ha => hqueue a (mem_cons_of_mem x ha)
      rw [length_cons] at hfuel
      simp only [exploreFrom]
      split
      · rename_i hseen
        have hpending : ∀ a∈visited, ∀ b∈next a, b∈visited ∨ b∈queue := by
          intro a ha b hb
          rcases hvisited a ha b hb with h | h
          · exact .inl h
          · rcases mem_cons.mp h with rfl | h
            · exact .inl hseen
            · exact .inr h
        obtain ⟨hkept,hclosed⟩ := ih hrest hpending (by omega)
        refine ⟨fun a ha => hkept a ?_,hclosed⟩
        rcases ha with h | h
        · exact .inl h
        · rcases mem_cons.mp h with rfl | h
          · exact .inl hseen
          · exact .inr h
      · rename_i hnew
        have hpush := pushes_visit next hx hnew
        have hqueue' : ∀ a∈queue++next x, a∈domain := by
          intro a ha
          exact (mem_append.mp ha).elim (hrest a) (hdomain x hx a)
        have hpending : ∀ a∈visited++[x], ∀ b∈next a, b∈visited++[x] ∨ b∈queue++next x := by
          intro a ha b hb
          simp only [mem_append,mem_singleton] at ha ⊢
          rcases ha with ha | rfl
          · have h := hvisited a ha b hb
            rw [mem_cons] at h
            tauto
          · exact .inr (.inr hb)
        have hlength : (queue++next x).length+pushes next (visited++[x]) domain≤fuel := by
          rw [length_append]
          omega
        obtain ⟨hkept,hclosed⟩ := ih hqueue' hpending hlength
        refine ⟨fun a ha => hkept a ?_,hclosed⟩
        simp only [mem_append,mem_singleton]
        rw [mem_cons] at ha
        tauto

/-- On a closed domain the visited elements are exactly the reachable ones. -/
theorem mem_explore_iff {start : List α}
    (hdomain : ∀ a∈domain, ∀ b∈next a, b∈domain) (hstart : ∀ a∈start, a∈domain)
    (y : α) : y∈explore next domain start ↔ ∃ s∈start, ReflTransGen (Step next) s y := by
  refine ⟨reachable_of_mem_explore,?_⟩
  rintro ⟨s,hs,hreach⟩
  obtain ⟨hqueue,hclosed⟩ := exploreFrom_closed hdomain (start.length+pushes next [] domain)
    hstart (fun a ha => absurd ha not_mem_nil) (Nat.le_refl _)
  induction hreach with
  | refl => exact hqueue s (.inr hs)
  | tail _ hstep ih => exact hclosed _ ih _ hstep

end MiniErp.Worklist
