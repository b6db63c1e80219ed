import MiniErp.Compiler.Formula
import MiniErp.Lib.Rounding
import Mathlib.Algebra.BigOperators.Ring.List
import Mathlib.Data.List.Sort

/-! What an order needs of the materials of a formula. The lines of a formula make up a hundred
percent exactly, and the requirement of each of them is rounded on its own. -/
namespace MiniErp.Preparation
open Text Run Rounding Compiler List

inductive PreparationError where
  | invalid (message : String)
  deriving DecidableEq

def scale : Int := 1000000

/-- `MAX`. -/
def maxUnits : Int := 999999999999999999

/-- A value that an `i64` holds. -/
def fits (value : Int) : Option Int := if -2^63≤value ∧ value<2^63 then some value else none

def decimal (value : String) : Except PreparationError Int := do
  let value := (trim value).toList
  let whole := value.takeWhile (· ≠ '.')
  let fraction := (value.dropWhile (· ≠ '.')).drop 1
  ensure (!whole.isEmpty && whole.all isAsciiDigit && fraction.length≤6 &&
    fraction.all isAsciiDigit) (.invalid "Musbat son kiriting (ko‘pi bilan 6 kasr xona)")
  let fraction : Int := digitsValue (fraction.rightpad 6 '0')
  let units := (((fits (digitsValue whole)).bind fun n => fits (n*scale)).bind
    fun n => fits (n+fraction)).filter fun n => n > 0 ∧ n ≤ maxUnits
  required units (.invalid "Miqdor ruxsat etilgan chegaradan tashqarida")

def requiredKg (order percent : Int) : Except PreparationError Int := do
  ensure (0<order ∧ order ≤ maxUnits ∧ 0<percent ∧ percent≤100*scale)
    (.invalid "Foiz 0 dan katta va 100 dan oshmasligi kerak")
  let result := ((i128 (i128 (order*percent)+50*scale)).tdiv (100*scale)).bmod (2^64)
  ensure (result≠0) (.invalid "Hisoblangan sarf 0.000001 kg dan kichik")
  return result

structure FormulaLine where
  itemCode : String
  percent : String

/-- One turn of the loop over the lines. The codes seen are those of the lines before. -/
def addLine (state : List (String × Int) × Int) (line : FormulaLine) :
    Except PreparationError (List (String × Int) × Int) := do
  let code := trim line.itemCode
  ensure (code ≠ "" ∧ code∉state.1.map Prod.fst) (.invalid "Seriyo bo‘sh yoki takrorlangan")
  let percent ← decimal line.percent
  ensure (percent≤100*scale) (.invalid "Foiz 100 dan oshmasligi kerak")
  let total ← required (fits (state.2+percent)) (.invalid "Jami foiz hisoblanmadi")
  return (state.1++[(code, percent)], total)

def normalizedLines (lines : List FormulaLine) : Except PreparationError (List (String × Int)) := do
  ensure (!lines.isEmpty && lines.length≤100) (.invalid "1–100 ta seriyo tanlang")
  let state ← lines.foldlM addLine ([], 0)
  ensure (state.2=100*scale) (.invalid "Jami foiz 100% bo‘lishi kerak")
  return state.1.insertionSort fun a b => a.1≤b.1

theorem decimal_pos {value : String} {units : Int} (h : decimal value=.ok units) : 0<units := by
  simp only [decimal,bind_eq_ok,required_eq_ok] at h
  obtain ⟨_,-,h⟩ := h
  have hrange := Option.eq_some_of_filter_eq_some h
  simp_all

def Sound (state : List (String × Int) × Int) : Prop :=
  (state.1.map Prod.snd).sum=state.2 ∧ ∀ line∈state.1, 0<line.2 ∧ line.2≤100*scale

theorem sound_addLine {state next : List (String × Int) × Int} {line : FormulaLine}
    (h : addLine state line=.ok next) (hsound : Sound state) : Sound next := by
  simp only [addLine,bind_eq_ok,ensure_eq_ok,required_eq_ok,decide_eq_true_eq] at h
  obtain ⟨_,-,percent,hpercent,_,hle,total,htotal,h⟩ := h
  rw [← Except.ok.inj h]
  obtain ⟨-,rfl⟩ : _ ∧ state.2+percent=total := by simpa [fits] using htotal
  refine ⟨by simp [hsound.1],fun other hother => ?_⟩
  obtain hold | hnew := mem_append.mp hother
  · exact hsound.2 other hold
  · rw [mem_singleton.mp hnew]
    exact ⟨decimal_pos hpercent,hle⟩

theorem sound_foldlM {lines : List FormulaLine} {state last : List (String × Int) × Int}
    (h : lines.foldlM addLine state=.ok last) (hsound : Sound state) : Sound last := by
  induction lines generalizing state with
  | nil => exact Except.ok.inj h ▸ hsound
  | cons line rest ih =>
    rw [foldlM_cons,bind_eq_ok] at h
    obtain ⟨next,hnext,h⟩ := h
    exact ih h (sound_addLine hnext hsound)

theorem sound_normalizedLines {lines : List FormulaLine} {result : List (String × Int)}
    (h : normalizedLines lines=.ok result) : Sound (result, 100*scale) := by
  simp only [normalizedLines,bind_eq_ok,ensure_eq_ok,decide_eq_true_eq] at h
  obtain ⟨_,-,state,hstate,_,htotal,h⟩ := h
  have hsound := sound_foldlM hstate ⟨rfl,by simp⟩
  have hperm := perm_insertionSort (fun a b : String × Int => a.1≤b.1) state.1
  rw [← Except.ok.inj h,← htotal]
  exact ⟨((hperm.map _).sum_eq).trans hsound.1,fun line hline =>
    hsound.2 line (hperm.mem_iff.mp hline)⟩

/-- The share of a line, to the nearest unit and upwards where two are as near. -/
def share (order percent : Int) : Int := halfUp (order*percent) (100*scale)

theorem requiredKg_ok {order percent required : Int} (h : requiredKg order percent=.ok required) :
    0<order ∧ 0<percent ∧ required=share order percent ∧
      order*percent+50*scale<2^127 ∧ share order percent<2^63 := by
  simp only [requiredKg,bind_eq_ok,ensure_eq_ok,decide_eq_true_eq] at h
  obtain ⟨_,⟨horder,hmax,hpercent,hle⟩,_,-,h⟩ := h
  have hproduct : 0≤order*percent := Int.mul_nonneg horder.le hpercent.le
  have hbound : order*percent ≤ maxUnits*(100*scale) :=
    Int.mul_le_mul hmax hle hpercent.le (by decide)
  have hd : 0<100*scale := by decide
  have hshare : share order percent ≤ maxUnits :=
    (halfUp_mono hd hbound).trans_eq (halfUp_mul hd maxUnits)
  have hnonneg : 0 ≤ share order percent := Int.ediv_nonneg (by omega) hd.le
  have hwide : order*percent+50*scale<2^127 := by
    simp only [maxUnits,scale] at *
    omega
  have hfits : share order percent<2^63 := by
    simp only [maxUnits] at hshare
    omega
  have hhalf : 50*scale=100*scale/2 := by decide
  rw [hhalf] at h hwide ⊢
  rw [i128_halfUp hproduct hd hwide,← share,Int.bmod_eq_of_le (by omega) (by omega)] at h
  exact ⟨horder,hpercent,(Except.ok.inj h).symm,hwide,hfits⟩

theorem share_mono {order order' percent percent' : Int} (horder : 0≤order) (hpercent : 0≤percent)
    (hle : order≤order') (hle' : percent≤percent') :
    share order percent ≤ share order' percent' :=
  halfUp_mono (by decide) (Int.mul_le_mul hle hle' hpercent (horder.trans hle))

/-- Each requirement is the rounded share of its line, and together they miss or exceed the order
by half a unit for each line at most. -/
theorem requiredKg_total {lines : List FormulaLine} {result : List (String × Int)} {order : Int}
    {requirements : List Int} (hlines : normalizedLines lines=.ok result)
    (h : result.mapM (fun line => requiredKg order line.2)=.ok requirements) :
    2*|requirements.sum-order| ≤ result.length ∧
    requirements=result.map (fun line => share order line.2) ∧
    (∀ line∈result, order*line.2+50*scale<2^127 ∧ share order line.2<2^63) ∧
    ∀ order order' percent percent' less more, order≤order' → percent≤percent' →
    requiredKg order percent=.ok less → requiredKg order' percent'=.ok more → less ≤ more := by
  have hshares : requirements=result.map fun line => share order line.2 := by
    simpa using map_mapM (g := id) (fun _ _ hline => (requiredKg_ok hline).2.2.1) h
  refine ⟨?_,hshares,fun line hline => ?_,fun _ _ _ _ _ _ hle hle' hless hmore => ?_⟩
  · have hsum := halfUp_sum (d := 100*scale) (by decide) (result.map fun line => order*line.2)
    have htotal : (result.map fun line => order*line.2).sum=100*scale*order := by
      rw [List.sum_map_mul_left,(sound_normalizedLines hlines).1,Int.mul_comm]
    have hround : ((result.map fun line => order*line.2).map (halfUp · (100*scale))).sum =
        requirements.sum := by
      rw [hshares,List.map_map]
      rfl
    rw [htotal,hround,List.length_map] at hsum
    simp only [scale] at hsum
    rw [Int.abs_eq_natAbs]
    omega
  · obtain ⟨_,-,hline⟩ := (mapM_mem h).2 line hline
    exact (requiredKg_ok hline).2.2.2
  · obtain ⟨horder,hpercent,rfl,-⟩ := requiredKg_ok hless
    rw [(requiredKg_ok hmore).2.2.1]
    exact share_mono horder.le hpercent.le hle hle'

theorem requiredKg_total_thirds : ∃ (lines : List FormulaLine) (result : List (String × Int))
    (requirements : List Int), normalizedLines lines=.ok result ∧
    result.mapM (fun line => requiredKg 5 line.2)=.ok requirements ∧
    2*|requirements.sum-5| ≤ result.length := by
  have hlines : normalizedLines [⟨"b","66.7"⟩,⟨"a","33.3"⟩] =
      .ok [("a", 33300000),("b", 66700000)] := by decide +kernel
  exact ⟨_,_,[2,3],hlines,by decide +kernel,(requiredKg_total hlines (by decide +kernel)).1⟩

end MiniErp.Preparation
