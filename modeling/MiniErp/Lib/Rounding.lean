import Mathlib.Tactic.Positivity

/-! Quotients rounded half up, with a wide intermediate. -/
namespace MiniErp.Rounding

/-- Wrapping `i128` arithmetic. -/
def i128 (value : Int) : Int := value.bmod (2^128)

def halfUp (x d : Int) : Int := (x+d/2)/d

variable {x y d : Int}

theorem halfUp_nearest (hd : 0<d) : 2*(d*halfUp x d)≤2*x+d ∧ 2*x<2*(d*halfUp x d)+d := by
  have hlow := Int.mul_ediv_self_le (x := x+d/2) hd.ne'
  have hhigh := Int.lt_mul_ediv_self_add (x := x+d/2) hd
  unfold halfUp
  omega

theorem halfUp_mono (hd : 0<d) (h : x≤y) : halfUp x d≤halfUp y d := Int.ediv_le_ediv hd (by omega)

theorem halfUp_mul (hd : 0<d) (q : Int) : halfUp (q*d) d=q := by
  rw [halfUp,Int.add_comm,Int.add_mul_ediv_right _ _ hd.ne',Int.ediv_eq_zero_of_lt (by omega)
    (by omega),Int.zero_add]

/-- Two quotients whose sum is exact round to that sum, or to one more. -/
theorem halfUp_add {q : Int} (hd : 0<d) (h : x+y=d*q) :
    halfUp x d+halfUp y d=q ∨ halfUp x d+halfUp y d=q+1 := by
  obtain ⟨hx,hx'⟩ := halfUp_nearest (x := x) hd
  obtain ⟨hy,hy'⟩ := halfUp_nearest (x := y) hd
  have hlow : d*(q-1)<d*(halfUp x d+halfUp y d) := by
    rw [Int.mul_sub,Int.mul_add]
    omega
  have hhigh : d*(halfUp x d+halfUp y d)<d*(q+2) := by
    rw [Int.mul_add,Int.mul_add]
    omega
  have hlow := lt_of_mul_lt_mul_left hlow hd.le
  have hhigh := lt_of_mul_lt_mul_left hhigh hd.le
  omega

/-- Quotients that are rounded one by one differ by a half each at most. -/
theorem halfUp_sum (hd : 0<d) (l : List Int) :
    2*(d*(l.map (halfUp · d)).sum)≤2*l.sum+l.length*d ∧
      2*l.sum≤2*(d*(l.map (halfUp · d)).sum)+l.length*d := by
  induction l with
  | nil => simp
  | cons x rest ih =>
    have hx := halfUp_nearest (x := x) hd
    simp only [List.map_cons,List.sum_cons,List.length_cons,Int.mul_add,Int.natCast_add,Int.add_mul]
    omega

/-- Within its range the wide arithmetic computes the rounded quotient. -/
theorem i128_halfUp (hx : 0≤x) (hd : 0<d) (hfits : x+d/2<2^127) :
    (i128 (i128 x+d/2)).tdiv d=halfUp x d := by
  have hself : ∀ {v : Int}, 0≤v → v<2^127 → i128 v=v := by
    intro v hlow hhigh
    exact Int.bmod_eq_of_le (by omega) (by omega)
  rw [hself hx (by omega),hself (by omega) (by omega),Int.tdiv_eq_ediv_of_nonneg (by omega),halfUp]

end MiniErp.Rounding
