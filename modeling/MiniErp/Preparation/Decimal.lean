import MiniErp.Preparation.Requirement
import Mathlib.Tactic.FieldSimp
import Mathlib.Tactic.Ring

/-! Quantities as text: what `decimal` reads, and that it reads back what `decimal_text` writes. -/
namespace MiniErp.Preparation
open Text Run Compiler List

/-- The sign is one of the six places that the padding fills. -/
def decimalText (value : Int) : String :=
  let fraction := value.tmod scale
  let digits := (toString fraction.natAbs).toList
  let padded := if fraction<0 then '-' :: digits.leftpad 5 '0' else digits.leftpad 6 '0'
  String.ofList ((toString (value.tdiv scale)).toList ++ '.' :: padded)

/-- A run of digits and, where a point follows it, at most six more. -/
structure Written (text whole fraction : List Char) : Prop where
  nonempty : whole ≠ []
  whole_digits : ∀ c∈whole, isAsciiDigit c=true
  places : fraction.length≤6
  fraction_digits : ∀ c∈fraction, isAsciiDigit c=true
  split : text=whole ∧ fraction=[] ∨ text=whole ++ '.' :: fraction

section
variable {text whole fraction : List Char}

theorem split_iff (h : ∀ c∈whole, isAsciiDigit c=true) :
    text=whole ∧ fraction=[] ∨ text=whole ++ '.' :: fraction ↔
      text.takeWhile (· ≠ '.')=whole ∧ (text.dropWhile (· ≠ '.')).drop 1=fraction := by
  have hpoint : ∀ c∈whole, decide (c ≠ '.')=true := by
    intro c hc
    refine decide_eq_true fun heq => ?_
    exact absurd (heq ▸ h c hc) (by decide)
  constructor
  · rintro (⟨rfl,rfl⟩ | rfl)
    · rw [takeWhile_eq_self_iff.mpr hpoint,dropWhile_eq_nil_iff.mpr hpoint]
      simp
    · rw [takeWhile_append_of_pos hpoint,dropWhile_append_of_pos hpoint]
      simp
  · rintro ⟨rfl,rfl⟩
    have happend := takeWhile_append_dropWhile (p := (· ≠ '.')) (l := text)
    cases hrest : text.dropWhile (· ≠ '.') with
    | nil => exact .inl ⟨by rw [hrest,append_nil] at happend; exact happend.symm,rfl⟩
    | cons c rest =>
      have hc := head?_dropWhile_not (· ≠ '.') text
      rw [hrest] at hc happend
      have hc : c = '.' := by simpa using hc
      rw [hc] at happend
      exact .inr happend.symm

theorem ofDigitChars_zeros (k init : Nat) :
    Nat.ofDigitChars 10 (List.replicate k '0') init=init*10^k := by
  induction k generalizing init with
  | zero => simp
  | succ k ih =>
    rw [replicate_succ,Nat.ofDigitChars_cons,ih,Nat.pow_succ']
    simp [Nat.mul_comm 10,Nat.mul_assoc]

/-- Zeros after the last digit keep the value of the fraction. -/
theorem digitsValue_rightpad (h : fraction.length≤6) :
    (digitsValue (fraction.rightpad 6 '0') : ℚ)=scale*(digitsValue fraction/10^fraction.length) := by
  have hvalue : digitsValue (fraction.rightpad 6 '0')=digitsValue fraction*10^(6-fraction.length) :=
    (Nat.ofDigitChars_append 0).trans (ofDigitChars_zeros _ _)
  have hscale : (scale:ℚ)=10^(6-fraction.length)*10^fraction.length := by
    rw [← pow_add,Nat.sub_add_cancel h]
    norm_num [scale]
  rw [hvalue,hscale]
  push_cast
  field_simp

end

theorem fits_eq_some {value n : Int} : fits value=some n ↔ (-2^63≤n ∧ n<2^63) ∧ value=n := by
  simp only [fits,Option.ite_none_right_eq_some,Option.some.injEq]
  exact and_congr_left fun h => by rw [h]

/-- The units a text stands for, at no more places than an `i64` has room for. -/
theorem units_eq_some {whole fraction n : Int} (hwhole : 0≤whole) (hfraction : 0≤fraction) :
    ((((fits whole).bind fun n => fits (n*scale)).bind fun n => fits (n+fraction)).filter
      fun n => n > 0 ∧ n ≤ maxUnits)=some n ↔
    whole*scale+fraction=n ∧ 0<n ∧ n ≤ maxUnits := by
  simp only [Option.filter_eq_some_iff,Option.bind_eq_some_iff,fits_eq_some,decide_eq_true_eq]
  constructor
  · rintro ⟨⟨_,⟨_,⟨-,rfl⟩,-,rfl⟩,-,rfl⟩,hrange⟩
    exact ⟨rfl,hrange⟩
  · rintro ⟨rfl,hpos,hmax⟩
    simp only [scale,maxUnits] at *
    exact ⟨⟨whole*1000000,⟨whole,⟨by omega,rfl⟩,by omega,rfl⟩,by omega,rfl⟩,hpos,hmax⟩

theorem decimal_eq_ok_iff {value : String} {n : Int} : decimal value=.ok n ↔
    ∃ whole fraction, Written (trim value).toList whole fraction ∧
      (n:ℚ)=scale*(digitsValue whole+digitsValue fraction/10^fraction.length) ∧
      0<n ∧ n ≤ maxUnits := by
  have hexact : ∀ {whole fraction : List Char}, fraction.length≤6 →
      ((digitsValue whole:Int)*scale+digitsValue (fraction.rightpad 6 '0')=n ↔
        (n:ℚ)=scale*(digitsValue whole+digitsValue fraction/10^fraction.length)) := by
    intro whole fraction hplaces
    rw [mul_add,← digitsValue_rightpad hplaces,eq_comm,mul_comm]
    norm_cast
  simp only [decimal,bind_eq_ok,ensure_eq_ok,required_eq_ok,Bool.and_eq_true,all_eq_true,
    decide_eq_true_eq,units_eq_some (Int.natCast_nonneg _) (Int.natCast_nonneg _)]
  constructor
  · rintro ⟨-,⟨⟨⟨hne,hwhole⟩,hplaces⟩,hfraction⟩,hvalue,hrange⟩
    refine ⟨_,_,⟨?_,hwhole,hplaces,hfraction,(split_iff hwhole).mpr ⟨rfl,rfl⟩⟩,
      (hexact hplaces).mp hvalue,hrange⟩
    simpa using hne
  · rintro ⟨whole,fraction,h,hvalue,hrange⟩
    obtain ⟨hwhole,hfraction⟩ := (split_iff h.whole_digits).mp h.split
    rw [hwhole,hfraction]
    refine ⟨(),⟨⟨⟨?_,h.whole_digits⟩,h.places⟩,h.fraction_digits⟩,(hexact h.places).mpr hvalue,hrange⟩
    simpa using h.nonempty

/-- Six places are enough for what is below a whole unit. -/
theorem written_decimalText (n : Nat) :
    Written (decimalText n).toList (Nat.toDigits 10 (n/1000000))
      ((Nat.toDigits 10 (n%1000000)).leftpad 6 '0') := by
  have hdigits : ∀ m, ∀ c∈Nat.toDigits 10 m, isAsciiDigit c=true := by
    intro m c hc
    have hdigit := Nat.isDigit_of_mem_toDigits (by decide) (by decide) hc
    simpa [isAsciiDigit,Char.isDigit,Char.le_def] using hdigit
  refine ⟨Nat.toDigits_ne_nil,hdigits _,?_,fun c hc => ?_,.inr ?_⟩
  · have hlt : n%1000000<10^6 := Nat.mod_lt n (by decide)
    simp [(Nat.length_toDigits_le_iff (by decide) (by decide)).mpr hlt]
  · obtain hzero | hc := mem_append.mp hc
    · rw [(mem_replicate.mp hzero).2]
      decide
    · exact hdigits _ c hc
  · have hwhole : (n:Int).tdiv scale=(n/1000000:Nat) := rfl
    have hrest : (n:Int).tmod scale=(n%1000000:Nat) := rfl
    have htext : ∀ m : Nat, toString (m:Int)=toString m := fun _ => rfl
    simp only [decimalText,hwhole,hrest,htext,Int.natAbs_natCast,String.toList_ofList,
      Nat.toString_eq_repr,Nat.toList_repr,if_neg (Int.natCast_nonneg _).not_gt]

theorem trim_of_written {value : String} {whole fraction : List Char}
    (h : Written value.toList whole fraction) : trim value=value := by
  have hdigit : ∀ c, isAsciiDigit c=true → isWhitespace c=false := by
    intro c hc
    have hrange : 48 ≤ c.toNat ∧ c.toNat≤57 := by
      simpa [isAsciiDigit,Char.le_def,UInt32.le_iff_toNat_le] using hc
    exact isWhitespace_of_range (by omega) (by omega)
  refine trim_of_forall fun c hc => ?_
  obtain ⟨hsplit,-⟩ | hsplit := h.split
  · exact hdigit c (h.whole_digits c (hsplit ▸ hc))
  · rw [hsplit,mem_append,mem_cons] at hc
    obtain hc | rfl | hc := hc
    · exact hdigit c (h.whole_digits c hc)
    · decide
    · exact hdigit c (h.fraction_digits c hc)

/-- `decimal` reads exactly the digits with at most six places that stand for a quantity in
range, by their exact value, and reads back every quantity from its text. -/
theorem decimal_exact : (∀ value n, decimal value=.ok n ↔ ∃ whole fraction,
      Written (trim value).toList whole fraction ∧
      (n:ℚ)=scale*(digitsValue whole+digitsValue fraction/10^fraction.length) ∧
      0<n ∧ n ≤ maxUnits) ∧
    ∀ n, 0<n → n ≤ maxUnits → decimal (decimalText n)=.ok n := by
  refine ⟨fun _ _ => decimal_eq_ok_iff,fun n hpos hmax => ?_⟩
  obtain ⟨n,rfl⟩ := Int.eq_ofNat_of_zero_le hpos.le
  have hwritten := written_decimalText n
  have hfraction : digitsValue ((Nat.toDigits 10 (n%1000000)).leftpad 6 '0')=n%1000000 := by
    refine (Nat.ofDigitChars_append 0).trans ?_
    rw [ofDigitChars_zeros,Nat.zero_mul,Nat.ofDigitChars_ten_toDigits]
  have hwhole : digitsValue (Nat.toDigits 10 (n/1000000))=n/1000000 := Nat.ofDigitChars_ten_toDigits
  refine decimal_eq_ok_iff.mpr ⟨_,_,(trim_of_written hwritten).symm ▸ hwritten,?_,hpos,hmax⟩
  have hplaces : ((Nat.toDigits 10 (n%1000000)).leftpad 6 '0').length=6 :=
    hwritten.places.antisymm (List.length_leftpad ▸ Nat.le_max_left ..)
  have hsplit : (n:ℚ)=1000000*(n/1000000:Nat)+(n%1000000:Nat) := by
    exact_mod_cast (Nat.div_add_mod n 1000000).symm
  have hscale : (scale:ℚ)=1000000 := by norm_num [scale]
  rw [hwhole,hfraction,hplaces,Int.cast_natCast,hsplit,hscale]
  ring

end MiniErp.Preparation
