import Mathlib
import MiniErp.Lib.Hex

/-! The codes of printed labels. A code tells the time of its reading and how often the clock has
shown that time in a row; a clock that is set back shows an old time with an old count. -/
namespace MiniErp.Gscale
open Text List

def formatEpc24 (ns : Int) (seq salt : BitVec 32) : String :=
  let nsBits := BitVec.ofInt 64 ns
  let atom := (nsBits/1000#64 &&& 0xFFFFFFFF#64).setWidth 32
  let tail := (atom ^^^ (BitVec.ofInt 32 ns).rotateLeft 13 ^^^ seq.rotateLeft 7 ^^^ salt) ||| 1#32
  String.ofList ("30".toList ++
    ((hexDigits 14 (nsBits &&& 0x00FFFFFFFFFFFFFF#64).toNat).map Char.toUpper ++
      (hexDigits 8 tail.toNat).map Char.toUpper))

/-- The sequence number fills the upper 25 bits of the tail, where nothing is forced. -/
theorem tail_inj {a salt seq seq' : BitVec 32} (hseq : seq.toNat<2^25)
    (hseq' : seq'.toNat<2^25)
    (h : (a ^^^ seq.rotateLeft 7 ^^^ salt) ||| 1#32=(a ^^^ seq'.rotateLeft 7 ^^^ salt) ||| 1#32) :
    seq=seq' := by
  apply BitVec.eq_of_getLsbD_eq
  intro i hi
  by_cases hlow : i<25
  · have hbit := congrArg (BitVec.getLsbD · (i+7)) h
    rw [BitVec.getLsbD_eq_getElem hi,BitVec.getLsbD_eq_getElem hi]
    simpa [show i+7<32 by omega] using hbit
  · have hhigh : ∀ {x : BitVec 32}, x.toNat<2^25 → x.getLsbD i=false := by
      intro x hx
      exact Nat.testBit_lt_two_pow (hx.trans_le (Nat.pow_le_pow_right (by decide) (by omega)))
    rw [hhigh hseq,hhigh hseq']

theorem toNat_timeBits (ns : Int) :
    ((BitVec.ofInt 64 ns &&& 0x00FFFFFFFFFFFFFF#64).toNat : Int)=ns%2^56 := by
  have hmask : (0x00FFFFFFFFFFFFFF#64).toNat=2^56-1 := by decide
  rw [BitVec.toNat_and,hmask,Nat.and_two_pow_sub_one_eq_mod,BitVec.toNat_ofInt]
  omega

/-- Within one block of times the time and the number can be read off a code. -/
theorem formatEpc24_inj {salt seq seq' : BitVec 32} {k ns ns' : Int}
    (hns : k*2^56≤ns ∧ ns<(k+1)*2^56) (hns' : k*2^56≤ns' ∧ ns' < (k+1)*2^56)
    (hseq : seq.toNat<2^25) (hseq' : seq'.toNat<2^25)
    (h : formatEpc24 ns seq salt=formatEpc24 ns' seq' salt) : ns=ns' ∧ seq=seq' := by
  have hlist := append_cancel_left (String.ofList_injective h)
  obtain ⟨htime,htail⟩ := append_inj hlist (by simp)
  have hbits := toNat_timeBits ns
  have hbits' := toNat_timeBits ns'
  have htime := upperHexDigits_inj (by omega) (by omega) htime
  have heq : ns=ns' := by omega
  subst heq
  exact ⟨rfl,tail_inj hseq hseq' (BitVec.eq_of_toNat_eq
    (upperHexDigits_inj (BitVec.isLt _) (BitVec.isLt _) htail))⟩

/-- A code is 24 upper-case hexadecimal digits, the first two of them fixed, and on one block of
times no two readings share a code. -/
theorem formatEpc24_distinct : (∀ ns seq salt, (formatEpc24 ns seq salt).toList.length=24 ∧
      "30".toList <+: (formatEpc24 ns seq salt).toList ∧
      ∀ c∈(formatEpc24 ns seq salt).toList, c ∈ "0123456789ABCDEF".toList) ∧
    ∀ (salt : BitVec 32) (k : Int), Set.InjOn (fun p : Int × BitVec 32 => formatEpc24 p.1 p.2 salt)
      {p | (k*2^56≤p.1 ∧ p.1<(k+1)*2^56) ∧ p.2.toNat<2^25} := by
  constructor
  · intro ns seq salt
    have hupper : ∀ d<16, (Nat.digitChar d).toUpper ∈ "0123456789ABCDEF".toList := by decide
    have hdigits : ∀ {width n c}, c∈(hexDigits width n).map Char.toUpper →
        c ∈ "0123456789ABCDEF".toList := by
      intro width n c hc
      obtain ⟨digit,hdigit,rfl⟩ := List.mem_map.mp hc
      obtain ⟨d,hd,rfl⟩ := exists_of_mem_hexDigits hdigit
      exact hupper d hd
    rw [formatEpc24,String.toList_ofList]
    refine ⟨by simp,List.prefix_append _ _,fun c hc => ?_⟩
    rw [List.mem_append,List.mem_append] at hc
    obtain hfixed | htime | htail := hc
    · exact (by decide : "30".toList ⊆ "0123456789ABCDEF".toList) hfixed
    · exact hdigits htime
    · exact hdigits htail
  · intro salt k p hp q hq h
    exact Prod.ext_iff.mpr (formatEpc24_inj hp.1 hq.1 hp.2 hq.2 h)

structure EpcState where
  lastNs : Int
  seq : BitVec 32
  salt : BitVec 32

def EpcState.withSalt (salt : BitVec 32) : EpcState := ⟨0,0,salt ||| 1#32⟩

def EpcState.nextAtUnixNs (state : EpcState) (ns : Int) : String × EpcState :=
  let next := if ns≠state.lastNs then { state with lastNs := ns, seq := 0 }
    else { state with seq := state.seq+1#32 }
  (formatEpc24 ns next.seq next.salt, next)

def codes (state : EpcState) : List Int → List String
  | [] => []
  | ns::rest => (state.nextAtUnixNs ns).1::codes (state.nextAtUnixNs ns).2 rest

def stamps (last : Int) (seq : BitVec 32) : List Int → List (Int × BitVec 32)
  | [] => []
  | ns::rest =>
    let seq := if ns≠last then 0 else seq+1#32
    (ns, seq)::stamps ns seq rest

/-- A time that is shown again is shown at once. -/
def Consecutive : List Int → Prop
  | [] => True
  | ns::rest => (ns∈rest → rest.head?=some ns) ∧ Consecutive rest

section Runs
variable {last : Int} {seq : BitVec 32} {readings : List Int}

theorem codes_eq (state : EpcState) (readings : List Int) : codes state readings =
    (stamps state.lastNs state.seq readings).map fun p => formatEpc24 p.1 p.2 state.salt := by
  induction readings generalizing state with
  | nil => rfl
  | cons ns rest ih =>
    rw [codes,ih,stamps]
    by_cases hns : ns=state.lastNs <;> simp [EpcState.nextAtUnixNs,hns]

theorem toNat_succ_le (seq : BitVec 32) : (seq+1#32).toNat ≤ seq.toNat+1 := by exact Nat.mod_le _ _

theorem stamps_bound {p : Int × BitVec 32} (h : p∈stamps last seq readings) : p.1∈readings ∧
    p.2.toNat<(if p.1=last then seq.toNat+1 else 0)+readings.count p.1 := by
  induction readings generalizing last seq with
  | nil => cases h
  | cons ns rest ih =>
    obtain rfl | h := mem_cons.mp h
    · by_cases hns : ns=last
      · simp [hns]
        omega
      · simp [hns]
    · obtain ⟨hmem,hbound⟩ := ih h
      refine ⟨mem_cons_of_mem ns hmem,?_⟩
      rw [count_cons]
      by_cases hns : ns=last <;> by_cases hp : p.1=ns <;> simp_all <;> omega

/-- Consecutive times get a fresh number each. -/
theorem stamps_nodup (hfits : ∀ ns, (if ns=last then seq.toNat else 0)+readings.count ns<2^32)
    (h : Consecutive (last::readings)) : (stamps last seq readings).Nodup ∧
      ∀ p∈stamps last seq readings, p.1=last → seq.toNat<p.2.toNat := by
  induction readings generalizing last seq with
  | nil => exact ⟨nodup_nil,fun p hp => absurd hp not_mem_nil⟩
  | cons ns rest ih =>
    rw [stamps,nodup_cons,forall_mem_cons]
    by_cases hns : ns=last
    · subst hns
      have hsucc : (seq+1#32).toNat=seq.toNat+1 := by
        have hlt := hfits ns
        rw [if_pos rfl,count_cons_self] at hlt
        rw [BitVec.toNat_add,Nat.mod_eq_of_lt (by simpa using (by omega : seq.toNat+1<2^32))]
        rfl
      have hnext : ∀ v, (if v=ns then (seq+1#32).toNat else 0)+rest.count v<2^32 := by
        intro v
        have hlt := hfits v
        rw [count_cons] at hlt
        by_cases hv : v=ns <;> simp_all <;> omega
      obtain ⟨hnodup,hlater⟩ := ih hnext h.2
      simp only [ne_eq]
      refine ⟨⟨fun hmem => ?_,hnodup⟩,fun _ => hsucc ▸ Nat.lt_succ_self _,fun p hp heq => ?_⟩
      · exact absurd (hlater _ hmem rfl) (Nat.lt_irrefl _)
      · have hlt := hlater p hp heq
        omega
    · have habsent : last∉rest := by
        intro hmem
        have hhead := h.1 (mem_cons_of_mem ns hmem)
        exact hns (Option.some.inj hhead)
      have hnext : ∀ v, (if v=ns then (0#32).toNat else 0)+rest.count v<2^32 := by
        intro v
        have hlt := hfits v
        rw [count_cons] at hlt
        by_cases hv : v=ns <;> simp_all <;> omega
      obtain ⟨hnodup,hlater⟩ := ih hnext h.2
      simp only [ne_eq,hns,not_false_eq_true]
      refine ⟨⟨fun hmem => ?_,hnodup⟩,fun heq => heq.elim,fun p hp heq => ?_⟩
      · exact absurd (hlater _ hmem rfl) (by simp)
      · exact absurd (heq ▸ (stamps_bound hp).1) habsent

theorem zero_mem_stamps {ns : Int} (hne : ns≠last) (h : ns∈readings) :
    (ns, 0#32)∈stamps last seq readings := by
  induction readings generalizing last seq with
  | nil => cases h
  | cons first rest ih =>
    rw [stamps,mem_cons]
    by_cases hfirst : ns=first
    · subst hfirst
      exact .inl (by simp [hne])
    · exact .inr (ih hfirst ((mem_cons.mp h).resolve_left hfirst))

theorem consecutive_of_nodup (hnodup : (stamps last seq readings).Nodup)
    (hzero : (last, 0#32)∉stamps last seq readings) : Consecutive (last::readings) := by
  induction readings generalizing last seq with
  | nil => exact ⟨fun h => absurd h not_mem_nil,trivial⟩
  | cons ns rest ih =>
    rw [stamps,nodup_cons] at hnodup
    rw [stamps,mem_cons,not_or] at hzero
    by_cases hns : ns=last
    · subst hns
      exact ⟨fun _ => rfl,ih hnodup.2 hzero.2⟩
    · rw [if_pos hns] at hnodup hzero
      refine ⟨fun hmem => ?_,ih hnodup.2 hnodup.1⟩
      have hrest := (mem_cons.mp hmem).resolve_left (Ne.symm hns)
      exact absurd (zero_mem_stamps (Ne.symm hns) hrest) hzero.2

end Runs

end MiniErp.Gscale
