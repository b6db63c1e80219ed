import Mathlib.Data.Nat.Find
import Mathlib.Order.Bounds.Basic

/-! Linear search over numbers with an early end: once the search has to stop at a number, it has
to stop at every later one. It finds the least number that is accepted before the end. -/
namespace MiniErp.FirstHit
variable (stop accept : Nat → Bool)

def search : Nat → Nat → Option Nat
  | 0, _ => none
  | count+1, i =>
    if stop i then none
    else if accept i then some i
    else search count (i+1)

def hits (count i : Nat) : Set Nat := {j | i≤j ∧ j < i+count ∧ stop j=false ∧ accept j=true}

/-- The search from `i` gets to `k`. -/
def Tried (i k : Nat) : Prop := ∀ j, i≤j → j<k → stop j=false ∧ accept j=false

variable {stop accept}

theorem stop_of_le (hstop : ∀ j, stop j=true → stop (j+1)=true) {i j : Nat} (hij : i≤j)
    (h : stop i=true) : stop j=true := by
  induction j, hij using Nat.le_induction with
  | base => exact h
  | succ j _ ih => exact hstop j ih

theorem hits_succ {count i : Nat} (h : stop i=false → accept i=false) :
    hits stop accept (count+1) i=hits stop accept count (i+1) := by
  ext j
  constructor
  · rintro ⟨hle,hlt,hgo,hhit⟩
    have hne : j≠i := by
      rintro rfl
      rw [h hgo] at hhit
      cases hhit
    exact ⟨by omega,by omega,hgo,hhit⟩
  · rintro ⟨hle,hlt,hgo,hhit⟩
    exact ⟨by omega,by omega,hgo,hhit⟩

theorem search_eq_some_iff (hstop : ∀ j, stop j=true → stop (j+1)=true) {count i k : Nat} :
    search stop accept count i=some k ↔ IsLeast (hits stop accept count i) k := by
  induction count generalizing i with
  | zero =>
    refine iff_of_false nofun ?_
    rintro ⟨⟨hle,hlt,-⟩,-⟩
    omega
  | succ count ih =>
    rw [search]
    cases hend : stop i with
    | true =>
      refine iff_of_false nofun ?_
      rintro ⟨⟨hle,-,hgo,-⟩,-⟩
      rw [stop_of_le hstop hle hend] at hgo
      cases hgo
    | false =>
      rw [if_neg Bool.false_ne_true]
      cases hhit : accept i with
      | true =>
        have hleast : IsLeast (hits stop accept (count+1) i) i :=
          ⟨⟨Nat.le_refl i,by omega,hend,hhit⟩,fun j hj => hj.1⟩
        rw [if_pos rfl,Option.some_inj]
        exact ⟨fun h => h ▸ hleast,fun h => hleast.unique h⟩
      | false => rw [if_neg Bool.false_ne_true,ih,hits_succ fun _ => hhit]

theorem search_eq_none_iff (hstop : ∀ j, stop j=true → stop (j+1)=true) {count i : Nat} :
    search stop accept count i=none ↔ hits stop accept count i=∅ := by
  constructor
  · intro hnone
    by_contra hne
    have hex : ∃ j, j∈hits stop accept count i := Set.nonempty_iff_ne_empty.mpr hne
    classical
    have hleast : IsLeast (hits stop accept count i) (Nat.find hex) :=
      ⟨Nat.find_spec hex,fun j hj => Nat.find_min' hex hj⟩
    rw [(search_eq_some_iff hstop).mpr hleast] at hnone
    cases hnone
  · intro hempty
    cases hsearch : search stop accept count i with
    | none => rfl
    | some k =>
      have hmem := ((search_eq_some_iff hstop).mp hsearch).1
      rw [hempty] at hmem
      exact hmem.elim

theorem tried_self (i : Nat) : Tried stop accept i i := by
  intro j hle hlt
  omega

theorem tried_succ_iff {i k : Nat} (hgo : stop i=false) (hmiss : accept i=false) :
    Tried stop accept (i+1) k ↔ Tried stop accept i k := by
  constructor
  · intro h j hle hlt
    rcases Nat.eq_or_lt_of_le hle with rfl | hlater
    · exact ⟨hgo,hmiss⟩
    · exact h j hlater hlt
  · intro h j hle hlt
    exact h j (by omega) hlt

end MiniErp.FirstHit
