import MiniErp.Lib.Hex

/-! The bytes of a text, hexadecimal numbers in them, and the FNV-1a hash. -/
namespace MiniErp.Text
open List

def bytes (s : String) : List UInt8 := s.toList.flatMap String.utf8EncodeChar

@[simp] theorem bytes_append (s t : String) : bytes (s++t)=bytes s++bytes t := by simp [bytes]

theorem length_bytes (s : String) : (bytes s).length=s.utf8ByteSize := by
  have hsize := String.utf8ByteSize_ofList s.toList
  rw [String.ofList_toList] at hsize
  rw [bytes,hsize]
  induction s.toList with
  | nil => rfl
  | cons c rest ih => simp [ih,String.utf8Len_cons,Nat.add_comm]

/-- `std::str::from_utf8`. -/
def fromUtf8 (value : List UInt8) : Option String := String.fromUTF8? value.toByteArray

theorem fromUtf8_bytes (s : String) : fromUtf8 (bytes s)=some s := by
  have hbytes : (bytes s).toByteArray=s.toByteArray := by
    rw [← String.ofList_toList (s := s),String.toByteArray_ofList,List.utf8Encode,bytes,
      String.ofList_toList]
  rw [fromUtf8,hbytes,String.fromUTF8?,dif_pos s.isValidUTF8]
  rfl

theorem utf8EncodeChar_of_ascii {c : Char} (h : c.toNat≤127) :
    String.utf8EncodeChar c=[UInt8.ofNat c.toNat] := by
  have hval : c.val≤0x7f := by simpa [UInt32.le_iff_toNat_le] using h
  have hsize : c.utf8Size=1 := by simp [Char.utf8Size,hval]
  rw [String.utf8EncodeChar_eq_singleton hsize]
  rfl

theorem bytes_ofList_of_ascii {l : List Char} (h : ∀ c∈l, c.toNat<128) :
    bytes (String.ofList l)=l.map fun c => UInt8.ofNat c.toNat := by
  rw [bytes,String.toList_ofList]
  induction l with
  | nil => rfl
  | cons c rest ih =>
    have hc : c.toNat≤127 := Nat.le_of_lt_succ (h c mem_cons_self)
    rw [flatMap_cons,utf8EncodeChar_of_ascii hc,ih fun d hd => h d (mem_cons_of_mem c hd)]
    rfl

def lowerByte (b : UInt8) : UInt8 := if 65≤b && b≤90 then b+32 else b

/- Hexadecimal numbers. -/

/-- The digits of a number below `16 ^ width`, in capital letters. -/
def upperHex (width n : Nat) : List Char := (hexDigits width n).map toAsciiUpper

def hexValue (b : UInt8) : Option Nat :=
  let n := b.toNat
  if 48≤n && n≤57 then some (n-48)
  else if 65≤n && n≤70 then some (n-55)
  else if 97≤n && n≤102 then some (n-87)
  else none

def readHex (digits : List UInt8) : Option Nat :=
  digits.foldlM (fun value b => (hexValue b).map (16*value + ·)) 0

/-- `from_str_radix(_, 16)` of an unsigned number, on texts too short to overflow. -/
def fromStrRadix16 : List UInt8 → Option Nat
  | [] => none
  | b::rest => if b=43 then (if rest.isEmpty then none else readHex rest) else readHex (b::rest)

theorem upperHex_digit {d : Nat} (h : d<16) :
    isWhitespace (toAsciiUpper (Nat.digitChar d))=false ∧
      (toAsciiUpper (Nat.digitChar d)).toNat<128 ∧
      UInt8.ofNat (toAsciiUpper (Nat.digitChar d)).toNat≠43 ∧
      hexValue (UInt8.ofNat (toAsciiUpper (Nat.digitChar d)).toNat)=some d := by
  interval_cases d <;> decide

theorem upperHex_succ (width n : Nat) :
    upperHex (width+1) n=upperHex width (n/16)++[toAsciiUpper (Nat.digitChar (n%16))] := by
  simp [upperHex,hexDigits]

theorem length_upperHex (width n : Nat) : (upperHex width n).length=width := by simp [upperHex]

theorem mem_upperHex {width n : Nat} {c : Char} (h : c∈upperHex width n) :
    ∃ d<16, c=toAsciiUpper (Nat.digitChar d) := by
  induction width generalizing n with
  | zero => cases h
  | succ width ih =>
    rw [upperHex_succ,mem_append,mem_singleton] at h
    cases h with
    | inl hfront => exact ih hfront
    | inr hlast => exact ⟨n%16,Nat.mod_lt n (by decide),hlast⟩

theorem bytes_upperHex (width n : Nat) : bytes (String.ofList (upperHex width n)) =
    (upperHex width n).map fun c => UInt8.ofNat c.toNat := by
  apply bytes_ofList_of_ascii
  intro c hc
  obtain ⟨d,hd,rfl⟩ := mem_upperHex hc
  exact (upperHex_digit hd).2.1

theorem readHex_upperHex {width n : Nat} (h : n<16^width) :
    readHex ((upperHex width n).map fun c => UInt8.ofNat c.toNat)=some n := by
  induction width generalizing n with
  | zero =>
    rw [Nat.pow_zero,Nat.lt_one_iff] at h
    rw [h]
    rfl
  | succ width ih =>
    have hfront : n/16<16^width := by omega
    have hdigit := (upperHex_digit (Nat.mod_lt n (by decide : 0<16))).2.2.2
    have hn : 16*(n/16)+n%16=n := Nat.div_add_mod n 16
    have ihn := ih hfront
    simp only [readHex] at ihn ⊢
    simp [upperHex_succ,foldlM_append,ihn,hdigit,hn]

theorem fromStrRadix16_upperHex {width n : Nat} (hwidth : 0<width) (h : n<16^width) :
    fromStrRadix16 (bytes (String.ofList (upperHex width n)))=some n := by
  have hread := readHex_upperHex h
  rw [bytes_upperHex]
  cases hdigits : upperHex width n with
  | nil =>
    have hlength := length_upperHex width n
    rw [hdigits,length_nil] at hlength
    omega
  | cons c rest =>
    obtain ⟨d,hd,rfl⟩ := mem_upperHex (hdigits ▸ mem_cons_self)
    rw [map_cons,fromStrRadix16,if_neg (upperHex_digit hd).2.2.1]
    rwa [hdigits] at hread

/- The hash. -/

def fnv1a64Extend (hash : UInt64) (value : List UInt8) : UInt64 :=
  value.foldl (fun hash byte => (hash ^^^ byte.toUInt64)*0x100000001b3) hash

@[simp] theorem fnv1a64Extend_append (hash : UInt64) (left right : List UInt8) :
    fnv1a64Extend hash (left++right)=fnv1a64Extend (fnv1a64Extend hash left) right := by
  simp [fnv1a64Extend]

def fnv1a64 (value : String) : UInt64 := fnv1a64Extend 0xcbf29ce484222325 (bytes (trim value))

theorem trim_of_ends {s : String} (hfirst : ∀ c∈s.toList.head?, isWhitespace c=false)
    (hlast : ∀ c∈s.toList.getLast?, isWhitespace c=false) : trim s=s := by
  rw [trim_eq_self_iff,dropWhile_eq_self_iff,rdropWhile_eq_self_iff]
  constructor
  · intro hl
    rw [hfirst _ (by rw [head?_eq_getElem?]; exact getElem?_eq_getElem hl)]
    decide
  · intro hl
    rw [hlast _ (getLast?_eq_getLast_of_ne_nil hl)]
    decide

end MiniErp.Text
