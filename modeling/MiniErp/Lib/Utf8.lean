import MiniErp.Lib.Bytes

/-! The bytes of a text, character by character: one byte below 128, or a lead byte and bytes that
continue it. -/
namespace MiniErp.Text
open List

/-- A byte that is not the first one of its character. -/
def isContinuation (b : UInt8) : Bool := decide (128≤b.toNat) && decide (b.toNat<192)

theorem utf8EncodeChar_of_wide {c : Char} (h : 127 < c.toNat) :
    ∃ lead next rest, String.utf8EncodeChar c=lead::next::rest ∧ 192≤lead.toNat ∧
      ∀ b∈next::rest, isContinuation b=true := by
  have hbyte : ∀ n : Nat, isContinuation (UInt8.ofNat (n%64+128))=true := by
    simp only [isContinuation,UInt8.toNat_ofNat',Bool.and_eq_true,decide_eq_true_eq]
    omega
  have hval : ¬ c.val.toNat≤127 := Nat.not_le.mpr h
  unfold String.utf8EncodeChar
  rw [if_neg hval]
  split_ifs
  all_goals
    refine ⟨_,_,_,rfl,?_,by simp only [forall_mem_cons,hbyte]; simp⟩
    rw [UInt8.toNat_ofNat']
    omega

theorem utf8Size_eq_one_iff (c : Char) : c.utf8Size=1 ↔ c.toNat≤127 := by
  rw [← String.length_utf8EncodeChar]
  constructor
  · intro hsize
    by_contra hwide
    obtain ⟨lead,next,rest,hbytes,-⟩ := utf8EncodeChar_of_wide (Nat.not_le.mp hwide)
    rw [hbytes] at hsize
    simp at hsize
  · intro hascii
    rw [utf8EncodeChar_of_ascii hascii]
    rfl

def encode (l : List Char) : List UInt8 := l.flatMap String.utf8EncodeChar

theorem encode_cons (c : Char) (l : List Char) : encode (c::l)=String.utf8EncodeChar c++encode l :=
  flatMap_cons

theorem encode_singleton (c : Char) : encode [c]=String.utf8EncodeChar c := flatMap_singleton ..

theorem encode_append (l l' : List Char) : encode (l++l')=encode l++encode l' := flatMap_append

theorem ofNat_toNat_inj {c d : Char} (hc : c.toNat≤127) (hd : d.toNat≤127) :
    UInt8.ofNat c.toNat=UInt8.ofNat d.toNat ↔ c=d := by
  rw [← UInt8.toNat_inj,UInt8.toNat_ofNat',UInt8.toNat_ofNat',Nat.mod_eq_of_lt (by omega),
    Nat.mod_eq_of_lt (by omega),Char.toNat_inj]

theorem isPrefixOf_encode {p : List Char} (hp : ∀ c∈p, c.toNat≤127) (l : List Char) :
    (encode p).isPrefixOf (encode l)=p.isPrefixOf l := by
  induction p generalizing l with
  | nil => rfl
  | cons c p ih =>
    rw [forall_mem_cons] at hp
    have hrest := ih hp.2
    cases l with
    | nil => simp [encode,utf8EncodeChar_of_ascii hp.1]
    | cons d l =>
      rw [encode_cons,encode_cons,utf8EncodeChar_of_ascii hp.1]
      by_cases hd : d.toNat≤127
      · rw [utf8EncodeChar_of_ascii hd]
        have hbeq : (UInt8.ofNat c.toNat == UInt8.ofNat d.toNat)=(c == d) := by
          rw [Bool.eq_iff_iff,beq_iff_eq,beq_iff_eq,ofNat_toNat_inj hp.1 hd]
        simp only [singleton_append,List.isPrefixOf,hbeq,hrest l]
      · obtain ⟨lead,next,rest,hbytes,hlead,-⟩ := utf8EncodeChar_of_wide (Nat.not_le.mp hd)
        have hbyte : (UInt8.ofNat c.toNat == lead)=false := by
          rw [beq_eq_false_iff_ne,ne_eq,← UInt8.toNat_inj,UInt8.toNat_ofNat']
          omega
        have hchar : (c == d)=false := by
          rw [beq_eq_false_iff_ne]
          rintro rfl
          exact hd hp.1
        rw [hbytes]
        simp [List.isPrefixOf,hbyte,hchar]

theorem length_encode_of_ascii {l : List Char} (h : ∀ c∈l, c.toNat≤127) :
    (encode l).length=l.length := by
  induction l with
  | nil => rfl
  | cons c l ih =>
    rw [forall_mem_cons] at h
    rw [encode_cons,utf8EncodeChar_of_ascii h.1,singleton_append,length_cons, length_cons,ih h.2]

theorem drop_encode {p : List Char} (hp : ∀ c∈p, c.toNat≤127) {l : List Char}
    (h : p.isPrefixOf l=true) : (encode l).drop p.length=encode (l.drop p.length) := by
  obtain ⟨rest,rfl⟩ := List.isPrefixOf_iff_prefix.mp h
  rw [encode_append,drop_left,← length_encode_of_ascii hp,drop_left]

theorem fromUtf8_encode (l : List Char) : fromUtf8 (encode l)=some (String.ofList l) := by
  have hbytes := fromUtf8_bytes (String.ofList l)
  rwa [bytes,String.toList_ofList] at hbytes

end MiniErp.Text
