import Mathlib.Data.List.DropRight
import Mathlib.Data.String.Basic

/-! Rust string primitives on `String`: Unicode trimming, ASCII case folding and the
character classes of `char`. Byte order on UTF-8 and the order of `String` agree. -/
namespace MiniErp.Text
open List

/-- `char::is_whitespace`, the Unicode White_Space property. -/
def isWhitespace (c : Char) : Bool :=
  let n := c.toNat
  (9≤n && n≤13) || n == 32 || n == 133 || n == 160 || n == 5760 ||
    (8192≤n && n≤8202) || n == 8232 || n == 8233 || n == 8239 || n == 8287 || n == 12288

/-- `char::is_control`, the Unicode class Cc. -/
def isControl (c : Char) : Bool :=
  let n := c.toNat
  n<32 || (127≤n && n≤159)

def isAsciiLowercase (c : Char) : Bool := 'a' ≤ c && c ≤ 'z'
def isAsciiDigit (c : Char) : Bool := '0' ≤ c && c ≤ '9'

def isAsciiHexdigit (c : Char) : Bool :=
  isAsciiDigit c || ('a' ≤ c && c ≤ 'f') || ('A' ≤ c && c ≤ 'F')

def toAsciiLower (c : Char) : Char := if 'A' ≤ c && c ≤ 'Z' then Char.ofNat (c.toNat+32) else c

section
variable (s : String)

def toAsciiLowercase : String := String.ofList (s.toList.map toAsciiLower)

def toAsciiUpper (c : Char) : Char := if 'a' ≤ c && c ≤ 'z' then Char.ofNat (c.toNat-32) else c

def toAsciiUppercase : String := String.ofList (s.toList.map toAsciiUpper)

def eqIgnoreAsciiCase (s t : String) : Bool := toAsciiLowercase s == toAsciiLowercase t

def trim : String := String.ofList ((s.toList.dropWhile isWhitespace).rdropWhile isWhitespace)

/-- `s.trim().is_empty()`. -/
def isBlank : Bool := trim s == ""

theorem toList_trim : (trim s).toList=(s.toList.dropWhile isWhitespace).rdropWhile isWhitespace :=
  String.toList_ofList

/-- Cutting a list on the right leaves a first element that cannot be cut on the left. -/
theorem dropWhile_rdropWhile_dropWhile {α : Type*} (p : α → Bool) (l : List α) :
    ((l.dropWhile p).rdropWhile p).dropWhile p=(l.dropWhile p).rdropWhile p := by
  obtain ⟨rest,h⟩ := List.rdropWhile_prefix p (l.dropWhile p)
  cases hcut : (l.dropWhile p).rdropWhile p with
  | nil => rfl
  | cons x xs =>
    rw [hcut] at h
    have hx : ¬p x=true := by
      have hne : l.dropWhile p ≠ [] := by simp [← h]
      have hhead := head_dropWhile_not p hne
      simpa [← h] using hhead
    simp [hx]

@[simp] theorem trim_trim : trim (trim s)=trim s := by
  apply String.toList_inj.mp
  rw [toList_trim,toList_trim,dropWhile_rdropWhile_dropWhile,rdropWhile_idempotent]

@[simp] theorem trim_empty : trim "" = "" := by decide

theorem isBlank_iff : isBlank s=true ↔ trim s = "" := by simp [isBlank]

example : trim " \t zakaz-1\n" = "zakaz-1" := by decide

theorem trim_eq_self_iff : trim s=s ↔ s.toList.dropWhile isWhitespace=s.toList ∧
      s.toList.rdropWhile isWhitespace=s.toList := by
  rw [← String.toList_inj,toList_trim]
  constructor
  · intro h
    have hleft : s.toList.dropWhile isWhitespace=s.toList := by
      have hcut := dropWhile_rdropWhile_dropWhile isWhitespace s.toList
      rwa [h] at hcut
    rw [hleft] at h
    exact ⟨hleft,h⟩
  · rintro ⟨hleft,hright⟩
    rw [hleft,hright]

theorem append_ne_empty {s : String} (h : s ≠ "") (t : String) : s++t ≠ "" := by
  intro happend
  have hlist := congrArg String.toList happend
  rw [String.toList_append,String.toList_empty,append_eq_nil_iff] at hlist
  exact h (String.toList_inj.mp hlist.1)

theorem trim_append {s t : String} (hs : trim s=s) (ht : trim t=t) (hs0 : s ≠ "")
    (ht0 : t ≠ "") : trim (s++t)=s++t := by
  have hleft := dropWhile_eq_self_iff.mp ((trim_eq_self_iff s).mp hs).1
  have hright := rdropWhile_eq_self_iff.mp ((trim_eq_self_iff t).mp ht).2
  have hs1 : 0 < s.toList.length := length_pos_iff.mpr (by simpa using hs0)
  have ht1 : t.toList ≠ [] := by simpa using ht0
  rw [trim_eq_self_iff,String.toList_append,dropWhile_eq_self_iff,rdropWhile_eq_self_iff]
  constructor
  · intro hl
    rw [getElem_append_left hs1]
    exact hleft hs1
  · intro hl
    rw [getLast_append_of_ne_nil hl ht1]
    exact hright ht1

theorem isWhitespace_of_range {c : Char} (hlow : 33 ≤ c.toNat) (hhigh : c.toNat≤126) :
    isWhitespace c=false := by
  simp only [isWhitespace]
  simp
  omega

theorem toString_nat_ne_empty (n : Nat) : toString n ≠ "" := by
  rw [ne_eq,← String.toList_inj,Nat.toString_eq_repr,Nat.toList_repr]
  exact Nat.toDigits_ne_nil

theorem toString_nat_injective {a b : Nat} (h : toString a=toString b) : a=b := by
  rw [← String.toList_inj,Nat.toString_eq_repr,Nat.toString_eq_repr] at h
  have hvalue := congrArg (fun digits => Nat.ofDigitChars 10 digits 0) h
  simpa using hvalue

theorem trim_of_forall {s : String} (h : ∀ c∈s.toList, isWhitespace c=false) : trim s=s := by
  rw [trim_eq_self_iff,dropWhile_eq_self_iff,rdropWhile_eq_self_iff]
  constructor
  · intro hl
    exact Bool.not_eq_true _ ▸ h _ (getElem_mem hl)
  · intro hl
    exact Bool.not_eq_true _ ▸ h _ (getLast_mem hl)

theorem range_of_mem_toString {n : Nat} {c : Char} (h : c∈(toString n).toList) :
    48 ≤ c.toNat ∧ c.toNat≤57 := by
  rw [Nat.toString_eq_repr,Nat.toList_repr] at h
  have hdigit := Nat.isDigit_of_mem_toDigits (by decide) (by decide) h
  simpa [Char.isDigit,UInt32.le_iff_toNat_le] using hdigit

theorem trim_toString_nat (n : Nat) : trim (toString n)=toString n := by
  apply trim_of_forall
  intro c hc
  have hrange := range_of_mem_toString hc
  exact isWhitespace_of_range (by omega) (by omega)

/-- Folding the case moves a capital letter up by 32 and leaves every other character. -/
theorem toAsciiLower_cases (c : Char) :
    (65 ≤ c.toNat ∧ c.toNat≤90 ∧ (toAsciiLower c).toNat=c.toNat+32) ∨
      (¬(65 ≤ c.toNat ∧ c.toNat≤90) ∧ toAsciiLower c=c) := by
  have hupper : ('A' ≤ c && c ≤ 'Z')=true ↔ 65 ≤ c.toNat ∧ c.toNat≤90 := by
    simp [Char.le_def,UInt32.le_iff_toNat_le]
  unfold toAsciiLower
  by_cases h : 65 ≤ c.toNat ∧ c.toNat≤90
  · have hvalid : (c.toNat+32).isValidChar := .inl (by omega)
    refine .inl ⟨h.1,h.2,?_⟩
    rw [if_pos (hupper.mpr h),Char.ofNat,dif_pos hvalid]
    rfl
  · exact .inr ⟨h,if_neg fun hc => h (hupper.mp hc)⟩

theorem isWhitespace_toAsciiLower (c : Char) : isWhitespace (toAsciiLower c)=isWhitespace c := by
  cases toAsciiLower_cases c with
  | inl h => rw [isWhitespace_of_range (by omega) (by omega),
      isWhitespace_of_range (by omega) (by omega)]
  | inr h => rw [h.2]

theorem toAsciiLower_idem (c : Char) : toAsciiLower (toAsciiLower c)=toAsciiLower c := by
  cases toAsciiLower_cases (toAsciiLower c) with
  | inl h =>
    cases toAsciiLower_cases c with
    | inl hc => omega
    | inr hc => rw [hc.2] at h; exact absurd ⟨h.1,h.2.1⟩ hc.1
  | inr h => exact h.2

theorem toAsciiLowercase_idem : toAsciiLowercase (toAsciiLowercase s)=toAsciiLowercase s := by
  have hsame : toAsciiLower ∘ toAsciiLower=toAsciiLower := funext toAsciiLower_idem
  rw [toAsciiLowercase,toAsciiLowercase,String.toList_ofList,map_map,hsame]

theorem toAsciiLowercase_trim : toAsciiLowercase (trim s)=trim (toAsciiLowercase s) := by
  have hsame : isWhitespace ∘ toAsciiLower=isWhitespace := funext isWhitespace_toAsciiLower
  rw [← String.toList_inj,toList_trim,toAsciiLowercase,toAsciiLowercase,String.toList_ofList,
    String.toList_ofList,toList_trim,dropWhile_map,hsame,List.rdropWhile,List.rdropWhile,
    ← map_reverse,dropWhile_map,hsame,← map_reverse]

end

theorem trim_toAsciiLowercase {s : String} (h : trim s=s) :
    trim (toAsciiLowercase s)=toAsciiLowercase s := by
  rw [← toAsciiLowercase_trim,h]

theorem eqIgnoreAsciiCase_trim {s t : String} (h : eqIgnoreAsciiCase s t=true) :
    eqIgnoreAsciiCase (trim s) (trim t)=true := by
  simp only [eqIgnoreAsciiCase,beq_iff_eq] at h ⊢
  rw [toAsciiLowercase_trim,toAsciiLowercase_trim,h]

-- Beyond this module a trimmed text is reasoned about by the lemmas above.
attribute [irreducible] trim

end MiniErp.Text
