import Mathlib
import MiniErp.Lib.Json

/-! The compact text `serde_json` writes for a value, and that the text determines the value. -/
namespace MiniErp.Json
open List

/- Strings escape as `serde_json` does: the two-character forms, `\u00xx`
for the other control characters, everything else as it is. -/

def escapeChar (c : Char) : List Char :=
  if c = '"' then ['\\','"']
  else if c = '\\' then ['\\','\\']
  else if c.toNat=8 then ['\\','b']
  else if c.toNat=9 then ['\\','t']
  else if c.toNat=10 then ['\\','n']
  else if c.toNat=12 then ['\\','f']
  else if c.toNat=13 then ['\\','r']
  else if c.toNat<32 then
    ['\\','u','0','0',Nat.digitChar (c.toNat/16),Nat.digitChar (c.toNat%16)]
  else [c]

def escape (text : List Char) : List Char := text.flatMap escapeChar

def intText : Int → List Char
  | .ofNat n => Nat.toDigits 10 n
  | .negSucc n => '-' :: Nat.toDigits 10 (n+1)

def numberText : Number → List Char
  | .int n => intText n
  | .float f => f.text.toList

def stringText (s : String) : List Char := '"' :: (escape s.toList ++ ['"'])

mutual
def text : Json → List Char
  | .null => ['n','u','l','l']
  | .bool true => ['t','r','u','e']
  | .bool false => ['f','a','l','s','e']
  | .number n => numberText n
  | .string s => stringText s
  | .array [] => ['[',']']
  | .array (x::xs) => '[' :: (text x++itemsText xs)
  | .object [] => ['{','}']
  | .object ((k, v)::fs) => '{' :: (stringText k ++ ':' :: (text v++fieldsText fs))

def itemsText : List Json → List Char
  | [] => [']']
  | x::xs => ',' :: (text x++itemsText xs)

def fieldsText : List (String × Json) → List Char
  | [] => ['}']
  | (k, v)::fs => ',' :: (stringText k ++ ':' :: (text v++fieldsText fs))
end

/-- `serde_json::to_string`. -/
def write (value : Json) : String := String.ofList value.text

/- Reading back the first character of an escaped text undoes `escapeChar`. -/

def hexValue (c : Char) : Nat := if Text.isAsciiDigit c then c.toNat-48 else c.toNat-87

def unescape : List Char → Option (Char × List Char)
  | '\\' :: 'u' :: '0' :: '0' :: a::b::rest => some (Char.ofNat (16*hexValue a+hexValue b), rest)
  | '\\' :: 'b' :: rest => some (Char.ofNat 8, rest)
  | '\\' :: 't' :: rest => some (Char.ofNat 9, rest)
  | '\\' :: 'n' :: rest => some (Char.ofNat 10, rest)
  | '\\' :: 'f' :: rest => some (Char.ofNat 12, rest)
  | '\\' :: 'r' :: rest => some (Char.ofNat 13, rest)
  | '\\' :: c::rest => some (c, rest)
  | '"' :: _ => none
  | c::rest => some (c, rest)
  | [] => none

theorem unescape_control (rest : List Char) (n : Nat) (h : n<32) :
    unescape (escapeChar (Char.ofNat n)++rest)=some (Char.ofNat n, rest) := by
  interval_cases n <;> rfl

variable {c : Char} {r s : List Char}

theorem escapeChar_plain (hq : c ≠ '"') (hb : c ≠ '\\') (hc : ¬ c.toNat<32) : escapeChar c=[c] := by
  simp only [escapeChar,hq,hb,if_false]
  rw [if_neg (by omega),if_neg (by omega),if_neg (by omega),if_neg (by omega),
    if_neg (by omega),if_neg hc]

theorem unescape_escapeChar (c : Char) (rest : List Char) :
    unescape (escapeChar c++rest)=some (c, rest) := by
  by_cases hc : c.toNat<32
  · simpa using unescape_control rest c.toNat hc
  · by_cases hq : c = '"'
    · subst hq
      rfl
    · by_cases hb : c = '\\'
      · subst hb
        rfl
      · rw [escapeChar_plain hq hb hc,cons_append]
        unfold unescape
        split <;> simp_all

theorem unescape_escape_cons (c : Char) (cs rest : List Char) :
    unescape (escape (c::cs)++rest)=some (c, escape cs++rest) := by
  simp only [escape,flatMap_cons,append_assoc,unescape_escapeChar]

theorem unescape_quote (rest : List Char) : unescape ('"' :: rest)=none := rfl

theorem escape_append_inj {a b : List Char}
    (h : escape a ++ '"' :: r=escape b ++ '"' :: s) : a=b ∧ r=s := by
  have hread := congrArg unescape h
  induction a generalizing b with
  | nil =>
    cases b with
    | nil => simpa using h
    | cons d ds =>
      rw [unescape_escape_cons] at hread
      exact absurd ((unescape_quote r).symm.trans hread) (by simp)
  | cons c cs ih =>
    rw [unescape_escape_cons] at hread
    cases b with
    | nil => exact absurd (hread.trans (unescape_quote s)) (by simp)
    | cons d ds =>
      rw [unescape_escape_cons,Option.some.injEq,Prod.mk.injEq] at hread
      obtain ⟨hcd,htail⟩ := hread
      obtain ⟨hrest,hrs⟩ := ih htail (congrArg unescape htail)
      exact ⟨by rw [hcd,hrest],hrs⟩

theorem stringText_append_inj {a b : String} (h : stringText a++r=stringText b++s) : a=b ∧ r=s := by
  simp only [stringText,cons_append,append_assoc,nil_append, cons.injEq,true_and] at h
  obtain ⟨hab,hrs⟩ := escape_append_inj h
  exact ⟨String.toList_inj.mp hab,hrs⟩

/- A number ends where a character that no number has follows. -/

theorem isNumberChar_of_isDigit (h : c.isDigit=true) : isNumberChar c=true := by
  have hdigit : Text.isAsciiDigit c=true := by
    simpa [Text.isAsciiDigit,Char.isDigit,Char.le_def] using h
  simp [isNumberChar,hdigit]

theorem isDigit_of_mem_intText_ofNat {n : Nat} (h : c∈Nat.toDigits 10 n) : c.isDigit=true :=
  Nat.isDigit_of_mem_toDigits (by decide) (by decide) h

theorem toDigits_injective {m n : Nat} (h : Nat.toDigits 10 m=Nat.toDigits 10 n) : m=n := by
  rw [← Nat.toList_repr,← Nat.toList_repr] at h
  exact Nat.repr_injective (String.toList_inj.mp h)

theorem intText_injective {m n : Int} (h : intText m=intText n) : m=n := by
  cases m with
  | ofNat m =>
    cases n with
    | ofNat n => rw [toDigits_injective h]
    | negSucc n =>
      have hmem : '-' ∈ Nat.toDigits 10 m := by
        rw [show Nat.toDigits 10 m = '-' :: Nat.toDigits 10 (n+1) from h]
        exact mem_cons_self
      exact absurd (isDigit_of_mem_intText_ofNat hmem) (by decide)
  | negSucc m =>
    cases n with
    | ofNat n =>
      have hmem : '-' ∈ Nat.toDigits 10 n := by
        rw [← show '-' :: Nat.toDigits 10 (m+1)=Nat.toDigits 10 n from h]
        exact mem_cons_self
      exact absurd (isDigit_of_mem_intText_ofNat hmem) (by decide)
    | negSucc n =>
      have hdigits := toDigits_injective (cons.inj h).2
      rw [Nat.succ.inj hdigits]

theorem intText_unmarked (n : Int) (h : c∈intText n) :
    isNumberChar c=true ∧ (c == '.' || c == 'e')=false := by
  have hcases : c = '-' ∨ c.isDigit=true := by
    cases n with
    | ofNat n => exact .inr (isDigit_of_mem_intText_ofNat h)
    | negSucc n => exact (mem_cons.mp h).imp id isDigit_of_mem_intText_ofNat
  rcases hcases with rfl | hdigit
  · decide
  · refine ⟨isNumberChar_of_isDigit hdigit,?_⟩
    by_contra hmark
    simp only [Bool.or_eq_false_iff,beq_eq_false_iff_ne,not_and_or,not_not] at hmark
    rcases hmark with rfl | rfl <;> exact absurd hdigit (by decide)

theorem numberText_all (n : Number) : ∀ c∈numberText n, isNumberChar c=true := by
  cases n with
  | int n => exact fun c h => (intText_unmarked n h).1
  | float f => exact all_eq_true.mp f.numeric

theorem numberText_injective {m n : Number} (h : numberText m=numberText n) : m=n := by
  have hmixed : ∀ (i : Int) (f : FloatText), intText i≠f.text.toList := by
    intro i f heq
    obtain ⟨c,hc,hmark⟩ := any_eq_true.mp f.marked
    rw [← heq] at hc
    exact absurd hmark (by simp [(intText_unmarked i hc).2])
  cases m with
  | int m =>
    cases n with
    | int n => rw [intText_injective h]
    | float g => exact absurd h (hmixed m g)
  | float f =>
    cases n with
    | int n => exact absurd h.symm (hmixed n f)
    | float g =>
      obtain ⟨gtext,_,_⟩ := g
      cases String.toList_inj.mp h
      rfl

/-- What may follow a value: the end, or a character no number has. -/
def Ends : List Char → Prop
  | [] => True
  | c :: _ => isNumberChar c=false

theorem takeWhile_numberText (n : Number) (hr : Ends r) :
    (numberText n++r).takeWhile isNumberChar=numberText n := by
  rw [takeWhile_append_of_pos (numberText_all n)]
  cases r with
  | nil => simp
  | cons c cs => simp [show isNumberChar c=false from hr]

theorem numberText_append_inj {m n : Number} (hr : Ends r) (hs : Ends s)
    (h : numberText m++r=numberText n++s) : m=n ∧ r=s := by
  have hnum := congrArg (List.takeWhile isNumberChar) h
  rw [takeWhile_numberText m hr,takeWhile_numberText n hs] at hnum
  exact ⟨numberText_injective hnum,append_cancel_left (hnum ▸ h)⟩

/- The first character tells the kind of a value. -/

def charTag (c : Char) : Nat :=
  if c = 'n' then 0 else if c = 't' then 1 else if c = 'f' then 1 else if c = '"' then 2
  else if c = '[' then 3 else if c = '{' then 4 else if isNumberChar c then 5 else 6

def tag : Json → Nat
  | .null => 0
  | .bool _ => 1
  | .string _ => 2
  | .array _ => 3
  | .object _ => 4
  | .number _ => 5

theorem charTag_of_isNumberChar (h : isNumberChar c=true) : charTag c=5 := by
  have hne : ∀ d : Char, isNumberChar d=false → c≠d := by
    intro d hd heq
    rw [heq,hd] at h
    cases h
  simp only [charTag,hne 'n' (by decide),hne 't' (by decide),hne 'f' (by decide),
    hne '"' (by decide),hne '[' (by decide),hne '{' (by decide),h,if_false,if_true]

theorem numberText_ne_nil (n : Number) : numberText n ≠ [] := by
  cases n with
  | int n =>
    cases n with
    | ofNat n => exact Nat.toDigits_ne_nil
    | negSucc n => exact cons_ne_nil _ _
  | float f =>
    intro h
    have hmarked := f.marked
    rw [show f.text.toList=[] from h] at hmarked
    cases hmarked

theorem text_head (v : Json) (r : List Char) : (v.text++r).head?.map charTag=some v.tag := by
  match v with
  | .null => rfl
  | .bool true => rfl
  | .bool false => rfl
  | .string s => rfl
  | .array [] => rfl
  | .array (_ :: _) => rfl
  | .object [] => rfl
  | .object (_ :: _) => rfl
  | .number n =>
    cases hn : numberText n with
    | nil => exact absurd hn (numberText_ne_nil n)
    | cons c cs =>
      have hc := numberText_all n c (by rw [hn]; exact mem_cons_self)
      simp [text,tag,hn,charTag_of_isNumberChar hc]

theorem tag_eq_of_text {a b : Json} (h : a.text++r=b.text++s) : a.tag=b.tag := by
  have hhead := text_head a r
  rw [h,text_head b s] at hhead
  exact (Option.some.inj hhead).symm

theorem ends_itemsText (xs : List Json) (r : List Char) : Ends (itemsText xs++r) := by
  cases xs with
  | nil => exact (by decide : isNumberChar ']'=false)
  | cons x xs => exact (by decide : isNumberChar ','=false)

theorem ends_fieldsText (fs : List (String × Json)) (r : List Char) : Ends (fieldsText fs++r) := by
  cases fs with
  | nil => exact (by decide : isNumberChar '}'=false)
  | cons f fs => exact (by decide : isNumberChar ','=false)

/- An opening bracket is followed by the first item or by the closing bracket, and no value
starts with a closing bracket. -/

theorem text_append_ne_closing (v : Json) (r s : List Char) : v.text++r ≠ ']' :: s := by
  intro h
  have hhead := text_head v r
  rw [h] at hhead
  have htag : v.tag=6 := (Option.some.inj hhead).symm
  cases v <;> simp [tag] at htag

theorem itemsText_of_array {xs ys : List Json}
    (h : (array xs).text++r=(array ys).text++s) : itemsText xs++r=itemsText ys++s := by
  cases xs with
  | nil =>
    cases ys with
    | nil => simpa [] using h
    | cons y ys =>
      simp only [text,cons_append,append_assoc,cons.injEq,true_and] at h
      exact absurd h.symm (text_append_ne_closing y _ _)
  | cons x xs =>
    cases ys with
    | nil =>
      simp only [text,cons_append,append_assoc,cons.injEq,true_and] at h
      exact absurd h (text_append_ne_closing x _ _)
    | cons y ys => simpa [text,itemsText] using h

theorem fieldsText_of_object {fs gs : List (String × Json)}
    (h : (object fs).text++r=(object gs).text++s) : fieldsText fs++r=fieldsText gs++s := by
  cases fs <;> cases gs <;> simp_all [text,fieldsText,stringText]

mutual
theorem text_append_inj : ∀ (a b : Json) (r s : List Char), Ends r → Ends s →
    a.text++r=b.text++s → a=b ∧ r=s
  | .null, b, r, s, _, _, h => by
    cases b with
    | null => simpa [text] using h
    | _ => exact absurd (tag_eq_of_text h) (by simp [tag])
  | .bool x, b, r, s, _, _, h => by
    cases b with
    | bool y => cases x <;> cases y <;> simp_all [text]
    | _ => exact absurd (tag_eq_of_text h) (by simp [tag])
  | .number m, b, r, s, hr, hs, h => by
    cases b with
    | number n =>
      obtain ⟨hmn,hrs⟩ := numberText_append_inj hr hs h
      exact ⟨by rw [hmn],hrs⟩
    | _ => exact absurd (tag_eq_of_text h) (by simp [tag])
  | .string x, b, r, s, _, _, h => by
    cases b with
    | string y =>
      obtain ⟨hxy,hrs⟩ := stringText_append_inj h
      exact ⟨by rw [hxy],hrs⟩
    | _ => exact absurd (tag_eq_of_text h) (by simp [tag])
  | .array xs, b, r, s, _, _, h => by
    cases b with
    | array ys =>
      obtain ⟨hxs,hrs⟩ := itemsText_append_inj xs ys r s (itemsText_of_array h)
      exact ⟨by rw [hxs],hrs⟩
    | _ => exact absurd (tag_eq_of_text h) (by simp [tag])
  | .object fs, b, r, s, _, _, h => by
    cases b with
    | object gs =>
      obtain ⟨hfs,hrs⟩ := fieldsText_append_inj fs gs r s (fieldsText_of_object h)
      exact ⟨by rw [hfs],hrs⟩
    | _ => exact absurd (tag_eq_of_text h) (by simp [tag])

theorem itemsText_append_inj : ∀ (xs ys : List Json) (r s : List Char),
    itemsText xs++r=itemsText ys++s → xs=ys ∧ r=s
  | [], [], r, s, h => by simpa [itemsText] using h
  | [], y::ys, r, s, h => by simp [itemsText] at h
  | x::xs, [], r, s, h => by simp [itemsText] at h
  | x::xs, y::ys, r, s, h => by
    simp only [itemsText,List.cons_append,List.append_assoc,List.cons.injEq,true_and] at h
    obtain ⟨hxy,hrest⟩ := text_append_inj x y _ _ (ends_itemsText xs r) (ends_itemsText ys s) h
    obtain ⟨hxs,hrs⟩ := itemsText_append_inj xs ys r s hrest
    exact ⟨by rw [hxy,hxs],hrs⟩

theorem fieldsText_append_inj : ∀ (fs gs : List (String × Json)) (r s : List Char),
    fieldsText fs++r=fieldsText gs++s → fs=gs ∧ r=s
  | [], [], r, s, h => by simpa [fieldsText] using h
  | [], (_, _) :: _, r, s, h => by simp [fieldsText] at h
  | (_, _) :: _, [], r, s, h => by simp [fieldsText] at h
  | (k, x)::fs, (l, y)::gs, r, s, h => by
    simp only [fieldsText,List.cons_append,List.append_assoc,List.cons.injEq,true_and] at h
    obtain ⟨hkl,hvalue⟩ := stringText_append_inj h
    rw [cons.injEq] at hvalue
    obtain ⟨hxy,hrest⟩ :=
      text_append_inj x y _ _ (ends_fieldsText fs r) (ends_fieldsText gs s) hvalue.2
    obtain ⟨hfs,hrs⟩ := fieldsText_append_inj fs gs r s hrest
    exact ⟨by rw [hkl,hxy,hfs],hrs⟩
end

theorem text_injective : Function.Injective text := by
  intro a b h
  have htext : a.text++[]=b.text++[] := by rw [h]
  exact (text_append_inj a b [] [] trivial trivial htext).1

theorem write_injective : Function.Injective write :=
  fun _ _ h => text_injective (String.ofList_injective h)

instance : DecidableEq Json := fun _ _ => decidable_of_iff _ text_injective.eq_iff

end MiniErp.Json
