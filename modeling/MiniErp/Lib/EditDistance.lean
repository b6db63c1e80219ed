import Mathlib.Order.Bounds.Basic
import Mathlib.Order.MinMax

/-! The least number of edits that take one list to another, and a recursion that computes it. -/
namespace MiniErp.EditDistance
variable {α : Type*}

/-- An insertion, a deletion or a substitution: at one place at most one element goes and at most
one comes in. -/
def Edit (a b : List α) : Prop :=
  ∃ front old new back : List α, old.length≤1 ∧ new.length≤1 ∧ a=front++old++back ∧
    b=front++new++back

def EditedIn : Nat → List α → List α → Prop
  | 0, a, b => a=b
  | n+1, a, b => ∃ c, Edit a c ∧ EditedIn n c b

variable {a b c : List α} {n : Nat}

theorem Edit.cons (x : α) (h : Edit a b) : Edit (x::a) (x::b) := by
  obtain ⟨front,old,new,back,hold,hnew,rfl,rfl⟩ := h
  exact ⟨x::front,old,new,back,hold,hnew,rfl,rfl⟩

theorem Edit.reverse (h : Edit a b) : Edit a.reverse b.reverse := by
  obtain ⟨front,old,new,back,hold,hnew,rfl,rfl⟩ := h
  refine ⟨back.reverse,old.reverse,new.reverse,front.reverse,?_,?_,?_,?_⟩
  all_goals simp [hold,hnew]

theorem EditedIn.cons (x : α) (h : EditedIn n a b) : EditedIn n (x::a) (x::b) := by
  induction n generalizing a with
  | zero => exact congrArg (x :: ·) h
  | succ n ih =>
    obtain ⟨c,hedit,h⟩ := h
    exact ⟨x::c,hedit.cons x,ih h⟩

theorem EditedIn.reverse (h : EditedIn n a b) : EditedIn n a.reverse b.reverse := by
  induction n generalizing a with
  | zero => exact congrArg List.reverse h
  | succ n ih =>
    obtain ⟨c,hedit,h⟩ := h
    exact ⟨c.reverse,hedit.reverse,ih h⟩

/-- One more edit at the head. -/
theorem EditedIn.head (old new : List α) (hold : old.length≤1) (hnew : new.length≤1)
    (h : EditedIn n a b) : EditedIn (n+1) (old++a) (new++b) := by
  refine ⟨new++a,⟨[],old,new,a,hold,hnew,rfl,rfl⟩,?_⟩
  induction new with
  | nil => exact h
  | cons y rest ih => exact (ih (by simp at hnew; simp [hnew])).cons y

variable [DecidableEq α]

def distance : List α → List α → Nat
  | [], b => b.length
  | x::a, [] => a.length+1
  | x::a, y::b =>
    if x=y then distance a b
    else 1+min (min (distance a b) (distance a (y::b))) (distance (x::a) b)
termination_by a b => a.length+b.length

theorem distance_nil (a : List α) : distance a []=a.length := by cases a <;> simp [distance]

theorem distance_comm (a b : List α) : distance a b=distance b a := by
  induction a, b using distance.induct with
  | case1 b => rw [distance_nil,distance]
  | case2 x a => rw [distance_nil,distance]
  | case3 a y b ih => rw [distance,distance,if_pos rfl,if_pos rfl,ih]
  | case4 x a y b hne ih ih' ih'' =>
    rw [distance,distance,if_neg hne,if_neg (Ne.symm hne),ih,ih',ih'',min_right_comm]

/-- One element more or less changes the distance by one at most. -/
theorem distance_cons (x : α) (a b : List α) :
    distance (x::a) b≤distance a b+1 ∧ distance a b≤distance (x::a) b+1 := by
  induction h : a.length+b.length using Nat.strong_induction_on generalizing x a b with
  | _ size ih =>
    cases b with
    | nil =>
      simp [distance_nil]
      omega
    | cons y b =>
      have hleft := ih _ (by simp at h; omega) x a b rfl
      have hright := ih _ (by simp at h; omega) y b a rfl
      rw [distance_comm b,distance_comm (y::b)] at hright
      rw [distance]
      split <;> omega

theorem distance_substitute (x y : α) (a b : List α) : distance (x::a) b≤distance (y::a) b+1 := by
  induction b with
  | nil => simp [distance_nil]
  | cons z b ih =>
    have hx := distance_cons x a (z::b)
    have hy := distance_cons x a b
    rw [distance] at hx ⊢
    rw [distance]
    split <;> split <;> simp_all <;> omega

theorem distance_cons_congr (h : ∀ b, distance a b≤distance c b+1) (w : α) (b : List α) :
    distance (w::a) b≤distance (w::c) b+1 := by
  induction b with
  | nil => simpa [distance_nil] using h []
  | cons z b ih =>
    have hb := h b
    have hz := h (z::b)
    rw [distance,distance]
    split <;> omega

theorem Edit.distance_le (h : Edit a c) (b : List α) : distance a b≤distance c b+1 := by
  obtain ⟨front,old,new,back,hold,hnew,rfl,rfl⟩ := h
  induction front generalizing b with
  | nil =>
    cases old with
    | nil =>
      cases new with
      | nil => simp
      | cons y rest =>
        obtain rfl : rest=[] := by simpa using hnew
        exact (distance_cons y back b).2
    | cons x rest =>
      obtain rfl : rest=[] := by simpa using hold
      cases new with
      | nil => exact (distance_cons x back b).1
      | cons y rest =>
        obtain rfl : rest=[] := by simpa using hnew
        exact distance_substitute x y back b
  | cons w front ih => exact distance_cons_congr ih w b

theorem editedIn_distance (a b : List α) : EditedIn (distance a b) a b := by
  induction a, b using distance.induct with
  | case1 b =>
    rw [distance]
    induction b with
    | nil => rfl
    | cons y b ih => exact ih.head [] [y] (by simp) le_rfl
  | case2 x a =>
    rw [distance]
    induction a generalizing x with
    | nil => exact (show EditedIn 0 [] [] from rfl).head [x] [] le_rfl (by simp)
    | cons z a ih => exact (ih z).head [x] [] le_rfl (by simp)
  | case3 a y b ih =>
    rw [distance,if_pos rfl]
    exact ih.cons y
  | case4 x a y b hne ih ih' ih'' =>
    rw [distance,if_neg hne,Nat.add_comm]
    rcases min_choice (min (distance a b) (distance a (y::b))) (distance (x::a) b) with h | h
    · rcases min_choice (distance a b) (distance a (y::b)) with h' | h'
      · rw [h,h']
        exact ih.head [x] [y] le_rfl le_rfl
      · rw [h,h']
        exact ih'.head [x] [] le_rfl (by simp)
    · rw [h]
      exact ih''.head [] [y] (by simp) le_rfl

theorem distance_isLeast (a b : List α) : IsLeast {n | EditedIn n a b} (distance a b) := by
  refine ⟨editedIn_distance a b,fun n h => ?_⟩
  induction n generalizing a with
  | zero =>
    obtain rfl : a=b := h
    induction a with
    | nil => simp [distance]
    | cons x a ih => simpa [distance] using ih
  | succ n ih =>
    obtain ⟨c,hedit,h⟩ := h
    exact (hedit.distance_le b).trans (Nat.succ_le_succ (ih c h))

theorem distance_reverse (a b : List α) : distance a.reverse b.reverse=distance a b := by
  refine (distance_isLeast _ _).unique ⟨(editedIn_distance a b).reverse,fun n h => ?_⟩
  apply (distance_isLeast a b).2
  simpa using EditedIn.reverse h

end MiniErp.EditDistance
