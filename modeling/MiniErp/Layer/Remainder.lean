import MiniErp.Lib.Rounding
import MiniErp.Lib.Run
import MiniErp.Types

/-! The length that is left on a partly used roll: the length of the roll in the ratio of the
weights, rounded once to a micro-unit. -/
namespace MiniErp.Layer
open Run Rounding

/-- A quantity that was read and is positive, in micro-units of an `i64`. -/
abbrev PositiveUnits := {units : Int // 0<units ∧ units<2^63}

/-- The arguments are what `erp_quantity_to_units` makes of the three quantities. -/
def layerRemainderMeter (net meter remaining : Option Int) :
    Except ProductionMapError (Int × Int) := do
  let units (value : Option Int) := required (value.filter (· > 0)) .progressInputInvalid
  let net ← units net
  let meter ← units meter
  let remaining ← units remaining
  ensure (remaining≤net) .progressInputInvalid
  let length := (i128 (i128 (meter*remaining)+net/2)).tdiv net
  ensure (-2^63≤length ∧ length<2^63) .progressInputInvalid
  ensure (0<length) .progressInputInvalid
  return (remaining, length)

/-- The length of the remainder, to the nearest micro-unit and upwards where two are as near. -/
def nearestLength (net meter remaining : PositiveUnits) : Int := halfUp (meter*remaining) net

theorem product_bounds (net meter remaining : PositiveUnits) :
    0 < meter.val*remaining.val ∧ meter.val*remaining.val+net/2<2^127 := by
  have hproduct : meter.val*remaining.val<2^63*2^63 :=
    Int.mul_lt_mul meter.2.2 remaining.2.2.le remaining.2.1 (by decide)
  have hnet := net.2.2
  exact ⟨Int.mul_pos meter.2.1 remaining.2.1,by omega⟩

section
variable {net remaining : PositiveUnits} (h : remaining.val≤net.val) (meter : PositiveUnits)
include h

theorem nearestLength_bounds :
    0≤nearestLength net meter remaining ∧ nearestLength net meter remaining ≤ meter := by
  have hproduct := (product_bounds net meter remaining).1
  have hnet := net.2.1
  constructor
  · exact Int.ediv_nonneg (by omega) hnet.le
  · calc nearestLength net meter remaining≤halfUp (meter*net) net :=
          halfUp_mono hnet (Int.mul_le_mul_of_nonneg_left h meter.2.1.le)
      _=meter := halfUp_mul hnet meter

theorem layerRemainderMeter_eq : layerRemainderMeter (some net) (some meter) (some remaining) =
      if nearestLength net meter remaining=0 then .error .progressInputInvalid
      else .ok (remaining.val, nearestLength net meter remaining) := by
  obtain ⟨hlow,hhigh⟩ := nearestLength_bounds h meter
  obtain ⟨hproduct,hfits⟩ := product_bounds net meter remaining
  have hwide : (i128 (i128 (meter.val*remaining.val)+net/2)).tdiv net =
      nearestLength net meter remaining := i128_halfUp hproduct.le net.2.1 hfits
  have hread : ∀ value : PositiveUnits, (some value.val).filter (· > 0)=some value.val := by
    intro value
    rw [Option.filter_some,if_pos (decide_eq_true value.2.1)]
  have hrange : -2^63≤nearestLength net meter remaining ∧
      nearestLength net meter remaining<2^63 := by omega
  simp only [layerRemainderMeter,hread,hwide,required,ensure,bind,Except.bind,h,hrange,and_self]
  by_cases hzero : nearestLength net meter remaining=0
  · simp [hzero]
  · have hpos : 0<nearestLength net meter remaining := by omega
    simp [hzero,hpos]
    rfl

end

/-- The length of a remainder is the nearest one, and what two remainders of one roll miss or
exceed its length by is at most one micro-unit. -/
theorem layerRemainderMeter_nearest (net meter : PositiveUnits) :
    (∀ remaining : PositiveUnits, remaining.val≤net.val →
      2*(net*nearestLength net meter remaining)≤2*(meter*remaining)+net ∧
      2*(meter*remaining)<2*(net*nearestLength net meter remaining)+net ∧
      nearestLength net meter remaining ≤ meter ∧
      (remaining=net → nearestLength net meter remaining=meter) ∧
      meter.val*remaining+net/2<2^127 ∧
      layerRemainderMeter (some net) (some meter) (some remaining) =
        if nearestLength net meter remaining=0 then .error .progressInputInvalid
        else .ok (remaining.val, nearestLength net meter remaining)) ∧
    (∀ less more : PositiveUnits, less.val ≤ more.val →
      nearestLength net meter less≤nearestLength net meter more) ∧
    ∀ first second : PositiveUnits, first.val+second=net →
      nearestLength net meter first+nearestLength net meter second=meter ∨
        nearestLength net meter first+nearestLength net meter second=meter+1 := by
  refine ⟨fun remaining h => ?_,fun less more h => ?_,fun first second h => ?_⟩
  · obtain ⟨hlow,hhigh⟩ := halfUp_nearest (x := meter*remaining) net.2.1
    refine ⟨hlow,hhigh,(nearestLength_bounds h meter).2,?_,(product_bounds net meter remaining).2,
      layerRemainderMeter_eq h meter⟩
    rintro rfl
    exact halfUp_mul remaining.2.1 meter
  · exact halfUp_mono net.2.1 (Int.mul_le_mul_of_nonneg_left h meter.2.1.le)
  · exact halfUp_add net.2.1 (by rw [← Int.mul_add,h,Int.mul_comm])

end MiniErp.Layer
