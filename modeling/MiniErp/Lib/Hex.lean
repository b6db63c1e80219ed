import Mathlib.Tactic.IntervalCases
import MiniErp.Lib.Text

/-! Fixed-width hexadecimal numbers. -/
namespace MiniErp.Text
open List

/-- The digits of a number below `16 ^ width`, padded with zeros on the left. -/
def hexDigits : Nat → Nat → List Char
  | 0, _ => []
  | width+1, n => hexDigits width (n/16)++[Nat.digitChar (n%16)]

@[simp] theorem length_hexDigits (width n : Nat) : (hexDigits width n).length=width := by
  induction width generalizing n with
  | zero => rfl
  | succ width ih => simp [hexDigits,ih]

theorem exists_of_mem_hexDigits {width n : Nat} {c : Char} (h : c∈hexDigits width n) :
    ∃ d<16, c=Nat.digitChar d := by
  induction width generalizing n with
  | zero => cases h
  | succ width ih =>
    rw [hexDigits,mem_append,mem_singleton] at h
    cases h with
    | inl hbegins => exact ih hbegins
    | inr hlast => exact ⟨n%16,Nat.mod_lt n (by decide),hlast⟩

theorem hexDigits_hex {width n : Nat} {c : Char} (h : c∈hexDigits width n) :
    isWhitespace c=false ∧ c.utf8Size=1 := by
  obtain ⟨d,hd,rfl⟩ := exists_of_mem_hexDigits h
  interval_cases d <;> decide

theorem utf8ByteSize_ofList_of_ascii {l : List Char} (h : ∀ c∈l, c.utf8Size=1) :
    (String.ofList l).utf8ByteSize=l.length := by
  rw [String.utf8ByteSize_ofList]
  induction l with
  | nil => rfl
  | cons c rest ih =>
    rw [String.utf8Len_cons,h c mem_cons_self,
      ih fun d hd => h d (mem_cons_of_mem c hd),length_cons]

theorem utf8ByteSize_hexDigits (width n : Nat) :
    (String.ofList (hexDigits width n)).utf8ByteSize=width := by
  rw [utf8ByteSize_ofList_of_ascii fun c hc => (hexDigits_hex hc).2,length_hexDigits]

theorem trim_hexDigits (width n : Nat) :
    trim (String.ofList (hexDigits width n))=String.ofList (hexDigits width n) := by
  apply trim_of_forall
  intro c hc
  rw [String.toList_ofList] at hc
  exact (hexDigits_hex hc).1

theorem upperHexDigits_inj {width m n : Nat} (hm : m<16^width) (hn : n<16^width)
    (h : (hexDigits width m).map Char.toUpper=(hexDigits width n).map Char.toUpper) : m=n := by
  induction width generalizing m n with
  | zero => omega
  | succ width ih =>
    rw [hexDigits,hexDigits,map_append,map_append] at h
    obtain ⟨hbegins,hlast⟩ := append_inj' h rfl
    have hdigit : ∀ d<16, ∀ e<16,
        (Nat.digitChar d).toUpper=(Nat.digitChar e).toUpper → d=e := by decide
    have hends := hdigit (m%16) (by omega) (n%16) (by omega) (singleton_inj.mp hlast)
    have hrest := ih (m := m/16) (n := n/16) (by omega) (by omega) hbegins
    omega

end MiniErp.Text
