import MiniErp.Lib.Text

/-! Fields joined by a separator that none of them contains, and the decimal text of integers as
such a field. -/
namespace MiniErp.Text
open List

def joined (sep : Char) : List (List Char) → List Char
  | [] => []
  | [field] => field
  | field::next::rest => field++sep::joined sep (next::rest)

variable {sep : Char}

theorem mem_joined {fields : List (List Char)} {c : Char} (h : c∈joined sep fields) :
    c=sep ∨ ∃ field∈fields, c∈field := by
  induction fields with
  | nil => cases h
  | cons field rest ih =>
    cases rest with
    | nil => exact .inr ⟨field,mem_cons_self,h⟩
    | cons next rest =>
      simp only [joined,mem_append,mem_cons] at h
      obtain hfield | hsep | hrest := h
      · exact .inr ⟨field,mem_cons_self,hfield⟩
      · exact .inl hsep
      · obtain hsep | ⟨other,hother,hc⟩ := ih hrest
        · exact .inl hsep
        · exact .inr ⟨other,mem_cons_of_mem field hother,hc⟩

theorem append_sep_inj {x y s t : List Char} (hx : sep∉x) (hy : sep∉y)
    (h : x++sep::s=y++sep::t) : x=y ∧ s=t := by
  induction x generalizing y with
  | nil =>
    cases y with
    | nil => exact ⟨rfl,(cons.inj h).2⟩
    | cons b y => exact absurd (mem_cons.mpr (.inl (cons.inj h).1)) hy
  | cons a x ih =>
    cases y with
    | nil => exact absurd (mem_cons.mpr (.inl (cons.inj h).1.symm)) hx
    | cons b y =>
      obtain ⟨hhead,htail⟩ := cons.inj h
      obtain ⟨hxy,hst⟩ := ih (fun hmem => hx (mem_cons_of_mem a hmem))
        (fun hmem => hy (mem_cons_of_mem b hmem)) htail
      exact ⟨by rw [hhead,hxy],hst⟩

/-- The fields can be read off the joined text. -/
theorem joined_inj {xs ys : List (List Char)} (hlength : xs.length=ys.length)
    (hxs : ∀ x∈xs, sep∉x) (hys : ∀ y∈ys, sep∉y) : joined sep xs=joined sep ys ↔ xs=ys := by
  refine ⟨fun h => ?_,fun h => by rw [h]⟩
  induction xs generalizing ys with
  | nil => exact (length_eq_zero_iff.mp hlength.symm).symm
  | cons x xs ih =>
    cases ys with
    | nil => cases hlength
    | cons y ys =>
      have hrest : xs.length=ys.length := Nat.succ.inj hlength
      cases xs with
      | nil =>
        rw [length_eq_zero_iff.mp hrest.symm] at h ⊢
        exact congrArg (fun z => [z]) h
      | cons x' xs =>
        cases ys with
        | nil => cases hrest
        | cons y' ys =>
          obtain ⟨hfield,hfields⟩ := append_sep_inj (hxs x mem_cons_self) (hys y mem_cons_self) h
          rw [hfield,ih hrest (fun z hz => hxs z (mem_cons_of_mem x hz))
            (fun z hz => hys z (mem_cons_of_mem y hz)) hfields]

theorem digit_of_mem_toString_nat {n : Nat} {c : Char} (h : c∈(toString n).toList) :
    48 ≤ c.toNat ∧ c.toNat≤57 := by
  rw [Nat.toString_eq_repr,Nat.toList_repr] at h
  have hdigit := Nat.isDigit_of_mem_toDigits (by decide) (by decide) h
  simpa [Char.isDigit,UInt32.le_iff_toNat_le] using hdigit

theorem toString_int_eq (n : Int) :
    toString n=if n<0 then "-" ++ toString n.natAbs else toString n.natAbs := by
  cases n with
  | ofNat n =>
    have hnonneg : ¬ Int.ofNat n<0 := Int.not_lt.mpr (Int.natCast_nonneg n)
    rfl
  | negSucc n =>
    rw [if_pos (Int.negSucc_lt_zero n)]
    rfl

theorem toList_toString_int_ne_nil (n : Int) : (toString n).toList ≠ [] := by
  rw [ne_eq,String.toList_eq_nil_iff,toString_int_eq]
  split
  · exact append_ne_empty (by decide) _
  · exact toString_nat_ne_empty _

theorem mem_toString_int {n : Int} {c : Char} (h : c∈(toString n).toList) :
    c = '-' ∨ 48 ≤ c.toNat ∧ c.toNat≤57 := by
  rw [toString_int_eq] at h
  split at h
  · rw [String.toList_append,mem_append] at h
    cases h with
    | inl hsign => exact .inl (by simpa using hsign)
    | inr hdigits => exact .inr (digit_of_mem_toString_nat hdigits)
  · exact .inr (digit_of_mem_toString_nat h)

theorem toString_int_injective {m n : Int} (h : toString m=toString n) : m=n := by
  have hsign : ∀ a b : Nat, "-" ++ toString a≠toString b := by
    intro a b heq
    have hmem : '-' ∈ (toString b).toList := by simp [← heq]
    have hdigit := digit_of_mem_toString_nat hmem
    exact absurd hdigit (by decide)
  rw [toString_int_eq m,toString_int_eq n] at h
  split at h
  · split at h
    · have habs := toString_nat_injective ((String.append_right_inj "-").mp h)
      omega
    · exact absurd h (hsign _ _)
  · split at h
    · exact absurd h.symm (hsign _ _)
    · have habs := toString_nat_injective h
      omega

end MiniErp.Text
