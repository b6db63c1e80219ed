import MiniErp.Lib.Joined
import MiniErp.Qolip.Normalize

/-! The text that identifies a row. It keeps the letters and digits of the fields only, and from
it the compacted fields can be read back but not the fields. -/
namespace MiniErp.Qolip
open Text List

/- The characters of a compacted text. -/

def IsKeyChar (c : Char) : Prop := 97 ≤ c.toNat ∧ c.toNat≤122 ∨ 48 ≤ c.toNat ∧ c.toNat≤57 ∨ c.toNat=95

theorem IsKeyChar.ne_colon {c : Char} (h : IsKeyChar c) : c ≠ ':' := by
  intro heq
  rw [heq,IsKeyChar] at h
  exact absurd h (by decide)

theorem IsKeyChar.not_whitespace {c : Char} (h : IsKeyChar c) : isWhitespace c=false := by
  unfold IsKeyChar at h
  exact isWhitespace_of_range (by omega) (by omega)

theorem isAsciiAlphanumeric_iff {c : Char} : isAsciiAlphanumeric c=true ↔
    (97 ≤ c.toNat ∧ c.toNat≤122 ∨ 65 ≤ c.toNat ∧ c.toNat≤90) ∨ 48 ≤ c.toNat ∧ c.toNat≤57 := by
  simp [isAsciiAlphanumeric,isAsciiAlphabetic,isAsciiLowercase,isAsciiDigit,Char.le_def,
    UInt32.le_iff_toNat_le]

theorem isKeyChar_lowercaseAscii {c d : Char} (hd : d∈lowercaseAscii c)
    (halnum : isAsciiAlphanumeric d=true) : IsKeyChar d := by
  unfold lowercaseAscii at hd
  split at hd
  · rw [mem_cons,mem_singleton] at hd
    cases hd with
    | inl heq =>
      rw [heq]
      exact .inl (by decide)
    | inr heq =>
      rw [heq] at halnum
      exact absurd halnum (by decide)
  · split at hd
    · rw [mem_singleton.mp hd]
      exact .inl (by decide)
    · rw [mem_singleton] at hd
      rw [isAsciiAlphanumeric_iff] at halnum
      unfold IsKeyChar
      cases toAsciiLower_cases c with
      | inl hupper =>
        rw [← hd] at hupper
        omega
      | inr hsame =>
        rw [← hd] at hsame
        rw [← hsame.2] at hsame
        omega

theorem compactStep_key {state : List Char × Bool} {c : Char} (hstate : ∀ d∈state.1, IsKeyChar d)
    (hc : isAsciiAlphanumeric c=true → IsKeyChar c) : ∀ d∈(compactStep state c).1, IsKeyChar d := by
  intro d hd
  simp only [compactStep] at hd
  split at hd
  · rename_i halnum
    rw [mem_append,mem_singleton] at hd
    cases hd with
    | inl hkey =>
      split at hkey
      · rw [mem_append,mem_singleton] at hkey
        cases hkey with
        | inl hold => exact hstate d hold
        | inr heq =>
          rw [heq]
          exact .inr (.inr rfl)
      · exact hstate d hkey
    | inr heq =>
      rw [heq]
      exact hc halnum
  · split at hd
    · exact hstate d hd
    · exact hstate d hd

theorem foldl_compactStep_key {chars : List Char}
    (hchars : ∀ c∈chars, isAsciiAlphanumeric c=true → IsKeyChar c) {state : List Char × Bool}
    (hstate : ∀ d∈state.1, IsKeyChar d) : ∀ d∈(chars.foldl compactStep state).1, IsKeyChar d := by
  induction chars generalizing state with
  | nil => exact hstate
  | cons c rest ih =>
    exact ih (fun d hd => hchars d (mem_cons_of_mem c hd))
      (compactStep_key hstate (hchars c mem_cons_self))

theorem isKeyChar_compactKey {value : String} {c : Char} (h : c∈(compactKey value).toList) :
    IsKeyChar c := by
  rw [compactKey,String.toList_ofList] at h
  refine foldl_compactStep_key (fun d hd => ?_) (by simp) c h
  obtain ⟨e,-,hde⟩ := mem_flatMap.mp hd
  exact isKeyChar_lowercaseAscii hde

/- Texts with one compacted form. -/

theorem lowercaseAscii_toAsciiLower (c : Char) :
    lowercaseAscii (toAsciiLower c)=lowercaseAscii c := by
  cases toAsciiLower_cases c with
  | inl hupper =>
    have hdotted : ¬ c.toNat=0x130 := by omega
    have hkelvin : ¬ c.toNat=0x212A := by omega
    have hdotted' : ¬ (toAsciiLower c).toNat=0x130 := by omega
    have hkelvin' : ¬ (toAsciiLower c).toNat=0x212A := by omega
    simp only [lowercaseAscii,hdotted,hkelvin,hdotted',hkelvin',toAsciiLower_idem]
  | inr hsame => rw [hsame.2]

theorem compactKey_congr {s t : String} (h : moldKey s=moldKey t) : compactKey s=compactKey t := by
  have hfold : ∀ u : String, compactKey u=String.ofList (compactChars (moldKey u).toList) := by
    intro u
    have hmap : lowercaseAscii ∘ toAsciiLower=lowercaseAscii := funext lowercaseAscii_toAsciiLower
    rw [compactKey,compactChars,compactChars,moldKey,toAsciiLowercase,String.toList_ofList,
      flatMap_map]
    change _=String.ofList (List.foldl compactStep ([], false)
      (List.flatMap (lowercaseAscii ∘ toAsciiLower) _)).1
    rw [hmap]
  rw [hfold s,hfold t,h]

theorem foldl_compactStep_letters {letters : List Char} (h : letters.all isAsciiLowercase=true)
    (key : List Char) : letters.foldl compactStep (key, false)=(key++letters, false) := by
  induction letters generalizing key with
  | nil => simp
  | cons c rest ih =>
    simp only [all_cons,Bool.and_eq_true] at h
    have halnum : isAsciiAlphanumeric c=true := by simp [isAsciiAlphanumeric,isAsciiAlphabetic,h.1]
    have hstep : compactStep (key, false) c=(key++[c], false) := by simp [compactStep,halnum]
    rw [foldl_cons,hstep,ih h.2]
    simp

section
variable (block itemCode qolipCode : String) (size : Int) (rowLetter : String)
  (columnNumber : Option Int)

theorem qolipLocationId_toList :
    (qolipLocationId block itemCode qolipCode size rowLetter columnNumber).toList =
      joined ':' [['q','o','l','i','p'],(compactKey block).toList,(compactKey itemCode).toList,
        (compactKey qolipCode).toList,(toString size).toList,(compactKey rowLetter).toList,
        (toString (columnNumber.getD 0)).toList] := by
  have hword : "qolip:".toList=['q','o','l','i','p',':'] := by decide
  have hsep : ":".toList=[':'] := by decide
  unfold qolipLocationId
  simp only [joined,String.toList_append,hword,hsep,append_assoc,cons_append, nil_append]

theorem colon_notMem_compactKey (s : String) : ':' ∉ (compactKey s).toList :=
  fun hs => (isKeyChar_compactKey hs).ne_colon rfl

theorem colon_notMem_toString_int (n : Int) : ':' ∉ (toString n).toList := by
  intro hn
  cases mem_toString_int hn with
  | inl h => exact absurd h (by decide)
  | inr h => exact absurd h (by decide)

theorem toString_int_inj {m n : Int} : toString m=toString n ↔ m=n :=
  ⟨toString_int_injective,fun h => by rw [h]⟩

theorem qolipLocationId_inj {block block' itemCode itemCode' qolipCode qolipCode' rowLetter
    rowLetter' : String} {size size' : Int} {columnNumber columnNumber' : Option Int} :
    qolipLocationId block itemCode qolipCode size rowLetter columnNumber =
        qolipLocationId block' itemCode' qolipCode' size' rowLetter' columnNumber' ↔
      compactKey block=compactKey block' ∧ compactKey itemCode=compactKey itemCode' ∧
        compactKey qolipCode=compactKey qolipCode' ∧ size=size' ∧
        compactKey rowLetter=compactKey rowLetter' ∧ columnNumber.getD 0=columnNumber'.getD 0 := by
  have hkey := colon_notMem_compactKey
  have hint := colon_notMem_toString_int
  have hword : ':' ∉ ['q','o','l','i','p'] := by decide
  rw [← String.toList_inj,qolipLocationId_toList,qolipLocationId_toList]
  refine Iff.trans (joined_inj ?_ ?_ ?_) ?_
  · simp only [length_cons]
  · simp only [forall_mem_cons]
    exact ⟨hword,hkey _,hkey _,hkey _,hint _,hkey _,hint _,by simp⟩
  · simp only [forall_mem_cons]
    exact ⟨hword,hkey _,hkey _,hkey _,hint _,hkey _,hint _,by simp⟩
  · simp only [cons.injEq,String.toList_inj,toString_int_inj,and_true,true_and]

theorem trim_qolipLocationId :
    trim (qolipLocationId block itemCode qolipCode size rowLetter columnNumber) =
      qolipLocationId block itemCode qolipCode size rowLetter columnNumber := by
  have hkey : ∀ s : String, ∀ c∈(compactKey s).toList, isWhitespace c=false :=
    fun s c hc => (isKeyChar_compactKey hc).not_whitespace
  have hint : ∀ n : Int, ∀ c∈(toString n).toList, isWhitespace c=false := by
    intro n c hc
    cases mem_toString_int hc with
    | inl h =>
      rw [h]
      decide
    | inr h => exact isWhitespace_of_range (by omega) (by omega)
  have hword : ∀ c ∈ ['q','o','l','i','p'], isWhitespace c=false := by simp [isWhitespace]
  apply trim_of_forall
  intro c hc
  rw [qolipLocationId_toList] at hc
  cases mem_joined hc with
  | inl hsep =>
    rw [hsep]
    decide
  | inr hfield =>
    obtain ⟨field,hfield,hc⟩ := hfield
    have hclean : ∀ field ∈ [['q','o','l','i','p'],(compactKey block).toList,
        (compactKey itemCode).toList,(compactKey qolipCode).toList,(toString size).toList,
        (compactKey rowLetter).toList,(toString (columnNumber.getD 0)).toList],
        ∀ c∈field, isWhitespace c=false := by
      simp only [forall_mem_cons]
      exact ⟨by simpa using hword,hkey _,hkey _,hkey _,hint _,hkey _,hint _,by simp⟩
    exact hclean field hfield c hc

end

/-- The row carries the identity of its own fields. -/
def QolipLocation.Keyed (location : QolipLocation) : Prop :=
  location.id=qolipLocationId location.block location.itemCode location.qolipCode location.size
    location.rowLetter location.columnNumber

/-- Rows of one identity carry one text. -/
theorem id_eq_of_matches {existing incoming : QolipLocation} (hexisting : existing.Keyed)
    (hincoming : incoming.Keyed) (h : locationIdentityMatches existing incoming=true) :
    existing.id=incoming.id := by
  simp only [locationIdentityMatches,Bool.and_eq_true,sameText_iff,beq_iff_eq] at h
  obtain ⟨⟨⟨⟨⟨⟨hblock,-⟩,hitem⟩,hcode⟩,hsize⟩,hrow⟩,hcolumn⟩ := h
  rw [hexisting,hincoming,qolipLocationId_inj]
  exact ⟨compactKey_congr hblock,compactKey_congr hitem,compactKey_congr hcode,hsize,
    compactKey_congr hrow,by rw [hcolumn]⟩

end MiniErp.Qolip
