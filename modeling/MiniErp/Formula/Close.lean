import MiniErp.Lib.EditDistance
import MiniErp.Lib.Utf8

/-! How texts of a formula are compared: a text that differs in one character is taken for the
expected one. -/
namespace MiniErp.Formula
open EditDistance Text List

/-- The inner loop over the characters of `right` and the costs that belong to them: `previous` is
the old cost before them, `cost` the new one. -/
def nextCosts (lc : Char) : Nat → Nat → List Char → List Nat → List Nat
  | previous, cost, rc::right, current::costs =>
    let next := if lc=rc then previous else 1+min (min previous current) cost
    next::nextCosts lc current next right costs
  | _, _, _, costs => costs

def levenshtein (left right : String) : Nat :=
  let costs := left.toList.zipIdx.foldl
    (fun costs entry => (entry.2+1)::nextCosts entry.1 entry.2 (entry.2+1) right.toList costs.tail)
    (List.range (right.utf8ByteSize+1))
  costs.getD right.utf8ByteSize 0

def close (value expected : String) : Bool :=
  value == expected ||
    (value.utf8ByteSize == expected.utf8ByteSize && decide (levenshtein value expected≤1))

example : close "bopp" "bops" = true ∧ close "bopp" "bop" = false := by decide

/-- The distances of `l` from `r` and its extensions by the characters of a text. Both are written
backwards. -/
def row (l r : List Char) : List Char → List Nat
  | [] => [distance l r]
  | c::rest => distance l r::row l (c::r) rest

theorem row_eq_cons (l r rest : List Char) : row l r rest=distance l r::(row l r rest).tail := by
  cases rest <;> rfl

theorem nextCosts_row (lc : Char) (l r rest : List Char) :
    nextCosts lc (distance l r) (distance (lc::l) r) rest (row l r rest).tail =
      (row (lc::l) r rest).tail := by
  induction rest generalizing r with
  | nil => rfl
  | cons c rest ih =>
    rw [row,tail_cons,row_eq_cons,nextCosts,row,tail_cons,row_eq_cons (lc::l),← ih]
    simp only [distance]

theorem row_nil (r rest : List Char) : row [] r rest=List.range' r.length (rest.length+1) := by
  induction rest generalizing r with
  | nil => simp [row,distance]
  | cons c rest ih => rw [row,ih,distance,length_cons,← range'_succ]; rfl

theorem getD_row (l r rest : List Char) :
    (row l r rest).getD rest.length 0=distance l (rest.reverse++r) := by
  induction rest generalizing r with
  | nil => rfl
  | cons c rest ih =>
    rw [row,length_cons,getD_cons_succ,ih,reverse_cons,append_assoc]
    rfl

/-- After each character of `left` the costs are the distances of what was read. -/
theorem foldl_row (left l right : List Char) : (left.zipIdx l.length).foldl (fun costs entry =>
      (entry.2+1)::nextCosts entry.1 entry.2 (entry.2+1) right costs.tail) (row l [] right) =
    row (left.reverse++l) [] right := by
  induction left generalizing l with
  | nil => rfl
  | cons lc left ih =>
    have hstep := nextCosts_row lc l [] right
    rw [distance_nil,distance_nil,length_cons] at hstep
    have hrow : (l.length+1)::nextCosts lc l.length (l.length+1) right (row l [] right).tail =
        row (lc::l) [] right := by
      rw [hstep,row_eq_cons (lc::l),distance_nil,length_cons,tail_cons]
    rw [zipIdx_cons,foldl_cons,hrow,reverse_cons,append_assoc]
    exact ih (lc::l)

theorem levenshtein_eq (left : String) {right : String}
    (hright : right.utf8ByteSize=right.toList.length) :
    levenshtein left right=distance left.toList right.toList := by
  have hstart : List.range (right.utf8ByteSize+1)=row [] [] right.toList := by
    rw [row_nil,hright,range_eq_range']
    rfl
  have hrun := foldl_row left.toList [] right.toList
  rw [length_nil,append_nil] at hrun
  rw [levenshtein,hstart]
  simp only [hrun]
  rw [hright,getD_row,append_nil,distance_reverse]

theorem utf8ByteSize_of_ascii {s : String} (h : ∀ c∈s.toList, c.toNat≤127) :
    s.utf8ByteSize=s.toList.length := by
  have hsize := utf8ByteSize_ofList_of_ascii fun c hc => (utf8Size_eq_one_iff c).mpr (h c hc)
  rwa [String.ofList_toList] at hsize

/-- The positions in which two texts differ. -/
def differences (a b : List Char) : Nat := (a.zip b).countP fun p => p.1≠p.2

theorem differences_eq_zero {a b : List Char} (h : a.length=b.length) :
    differences a b=0 ↔ a=b := by
  induction a generalizing b with
  | nil => cases b <;> simp_all [differences]
  | cons x a ih =>
    cases b with
    | nil => cases h
    | cons y b => by_cases hxy : x=y <;> simp_all [differences]

theorem distance_eq_zero {a b : List Char} : distance a b=0 ↔ a=b := by
  constructor
  · intro h
    have hedits := editedIn_distance a b
    rw [h] at hedits
    exact hedits
  · rintro rfl
    exact Nat.le_zero.mp ((distance_isLeast a a).2 (show EditedIn 0 a a from rfl))

theorem distance_le_one_iff {a b : List Char} (h : a.length=b.length) :
    distance a b≤1 ↔ differences a b≤1 := by
  induction a generalizing b with
  | nil => cases b <;> simp_all [differences,distance]
  | cons x a ih =>
    cases b with
    | nil => cases h
    | cons y b =>
      have hrest := Nat.succ.inj h
      by_cases hxy : x=y
      · subst hxy
        simpa [distance,differences] using ih hrest
      · have hlonger : distance a (y::b)≠0 := fun hz => by
          have heq := congrArg List.length (distance_eq_zero.mp hz)
          simp [hrest] at heq
        have hshorter : distance (x::a) b≠0 := fun hz => by
          have heq := congrArg List.length (distance_eq_zero.mp hz)
          simp [hrest] at heq
        have hcount : differences (x::a) (y::b)=differences a b+1 := by simp [differences,hxy]
        have hzero := (distance_eq_zero (a := a) (b := b)).trans (differences_eq_zero hrest).symm
        rw [distance,if_neg hxy]
        omega

/-- On ASCII texts the costs are those of the edit distance, and two texts are close when they have
one length and differ in one place at most. -/
theorem close_iff (value expected : String) (hvalue : ∀ c∈value.toList, c.toNat≤127)
    (hexpected : ∀ c∈expected.toList, c.toNat≤127) :
    IsLeast {n | EditedIn n value.toList expected.toList} (levenshtein value expected) ∧
    (close value expected=true ↔ value.toList.length=expected.toList.length ∧
      differences value.toList expected.toList≤1) := by
  have hlevenshtein := levenshtein_eq value (utf8ByteSize_of_ascii hexpected)
  refine ⟨hlevenshtein ▸ distance_isLeast _ _,?_⟩
  rw [close,hlevenshtein,utf8ByteSize_of_ascii hvalue,utf8ByteSize_of_ascii hexpected]
  simp only [Bool.or_eq_true,Bool.and_eq_true,beq_iff_eq,decide_eq_true_eq]
  constructor
  · rintro (rfl | ⟨hlength,hle⟩)
    · exact ⟨rfl,((differences_eq_zero rfl).mpr rfl).le.trans (by decide)⟩
    · exact ⟨hlength,(distance_le_one_iff hlength).mp hle⟩
  · rintro ⟨hlength,hle⟩
    exact .inr ⟨hlength,(distance_le_one_iff hlength).mpr hle⟩

theorem close_iff_bopp : close "bopp" "bops" = true := by
  have hascii : ∀ s : String, s.toList.all (·.toNat≤127)=true → ∀ c∈s.toList, c.toNat≤127 :=
    fun s h c hc => of_decide_eq_true (List.all_eq_true.mp h c hc)
  exact (close_iff "bopp" "bops" (hascii _ (by decide)) (hascii _ (by decide))).2.mpr (by decide)

end MiniErp.Formula
