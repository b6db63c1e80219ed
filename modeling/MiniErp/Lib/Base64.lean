import Mathlib.Tactic.IntervalCases

/-! Base64 with the alphabet of URLs and without padding. -/
namespace MiniErp.Base64
open List Option

def symbol (n : Nat) : Char :=
  if n<26 then Char.ofNat (n+65)
  else if n<52 then Char.ofNat (n+71)
  else if n<62 then Char.ofNat (n-4)
  else if n=62 then '-'
  else '_'

def symbolValue (c : Char) : Option Nat :=
  if 'A' ≤ c ∧ c ≤ 'Z' then some (c.toNat-65)
  else if 'a' ≤ c ∧ c ≤ 'z' then some (c.toNat-71)
  else if '0' ≤ c ∧ c ≤ '9' then some (c.toNat+4)
  else if c = '-' then some 62
  else if c = '_' then some 63
  else none

theorem symbolValue_symbol : ∀ n<64, symbolValue (symbol n)=some n := by decide

def encode : List UInt8 → List Char
  | a::b::c::rest =>
    symbol (a.toNat/4)::symbol (a.toNat%4*16+b.toNat/16) ::
      symbol (b.toNat%16*4+c.toNat/64)::symbol (c.toNat%64)::encode rest
  | [a,b] => [symbol (a.toNat/4),symbol (a.toNat%4*16+b.toNat/16),symbol (b.toNat%16*4)]
  | [a] => [symbol (a.toNat/4),symbol (a.toNat%4*16)]
  | [] => []

/-- The bits left over in the last character are zero. -/
def decode : List Char → Option (List UInt8)
  | w::x::y::z::rest => do
    let w ← symbolValue w
    let x ← symbolValue x
    let y ← symbolValue y
    let z ← symbolValue z
    let rest ← decode rest
    return UInt8.ofNat (w*4+x/16)::UInt8.ofNat (x%16*16+y/4) :: UInt8.ofNat (y%4*64+z)::rest
  | [w,x,y] => do
    let w ← symbolValue w
    let x ← symbolValue x
    let y ← symbolValue y
    if y%4=0 then some [UInt8.ofNat (w*4+x/16),UInt8.ofNat (x%16*16+y/4)]
    else none
  | [w,x] => do
    let w ← symbolValue w
    let x ← symbolValue x
    if x%16=0 then some [UInt8.ofNat (w*4+x/16)] else none
  | [_] => none
  | [] => some []

theorem ofNat_eq {n : Nat} {a : UInt8} (h : n=a.toNat) : UInt8.ofNat n=a := by
  rw [h,UInt8.ofNat_toNat]

theorem decode_encode (bytes : List UInt8) : decode (encode bytes)=some bytes := by
  induction bytes using encode.induct with
  | case1 a b c rest ih =>
    have ha := a.toNat_lt
    have hb := b.toNat_lt
    have hc := c.toNat_lt
    rw [encode,decode,symbolValue_symbol _ (by omega),symbolValue_symbol _ (by omega),
      symbolValue_symbol _ (by omega),symbolValue_symbol _ (by omega),ih]
    simp only [bind_eq_bind,bind_some,Option.pure_def]
    rw [ofNat_eq (by omega : _=a.toNat),ofNat_eq (by omega : _=b.toNat),
      ofNat_eq (by omega : _=c.toNat)]
  | case2 a b =>
    have ha := a.toNat_lt
    have hb := b.toNat_lt
    rw [encode,decode,symbolValue_symbol _ (by omega),symbolValue_symbol _ (by omega),
      symbolValue_symbol _ (by omega)]
    simp only [bind_eq_bind,bind_some]
    rw [if_pos (by omega),ofNat_eq (by omega : _=a.toNat),ofNat_eq (by omega : _=b.toNat)]
  | case3 a =>
    have ha := a.toNat_lt
    rw [encode,decode,symbolValue_symbol _ (by omega),symbolValue_symbol _ (by omega)]
    simp only [bind_eq_bind,bind_some]
    rw [if_pos (by omega),ofNat_eq (by omega : _=a.toNat)]
  | case4 => rfl

/-- Four characters for three bytes. -/
theorem length_encode_le (bytes : List UInt8) : 3*(encode bytes).length≤4*bytes.length+2 := by
  induction bytes using encode.induct with
  | case1 a b c rest ih =>
    simp only [encode,length_cons]
    omega
  | case2 a b => simp [encode]
  | case3 a => simp [encode]
  | case4 => simp [encode]

theorem encode_ne_nil {bytes : List UInt8} (h : bytes ≠ []) : encode bytes ≠ [] := by
  intro hnil
  have hdecode := decode_encode bytes
  rw [hnil,decode,some.injEq] at hdecode
  exact h hdecode.symm

theorem utf8Size_symbol (n : Nat) : (symbol n).utf8Size=1 := by
  have hsmall : ∀ n<64, (symbol n).utf8Size=1 := by decide
  by_cases h : n<64
  · exact hsmall n h
  · have hlast : symbol n = '_' := by
      unfold symbol
      rw [if_neg (by omega),if_neg (by omega),if_neg (by omega),if_neg (by omega)]
    rw [hlast]
    rfl

theorem utf8Size_of_mem_encode {bytes : List UInt8} {c : Char} (h : c∈encode bytes) :
    c.utf8Size=1 := by
  induction bytes using encode.induct with
  | case1 a b c rest ih =>
    simp only [encode,mem_cons] at h
    rcases h with rfl | rfl | rfl | rfl | h
    · exact utf8Size_symbol _
    · exact utf8Size_symbol _
    · exact utf8Size_symbol _
    · exact utf8Size_symbol _
    · exact ih h
  | case2 a b =>
    simp only [encode,mem_cons,not_mem_nil,or_false] at h
    rcases h with rfl | rfl | rfl <;> exact utf8Size_symbol _
  | case3 a =>
    simp only [encode,mem_cons,not_mem_nil,or_false] at h
    rcases h with rfl | rfl <;> exact utf8Size_symbol _
  | case4 => cases h

end MiniErp.Base64
