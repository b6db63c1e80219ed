import Mathlib.Data.List.TakeWhile

/-! Recursive descent over the characters that are left. A parser ends with a value and the rest,
fails, or runs out of fuel. One rule says how much of the text a parser takes, which bounds the
fuel it needs, and one relation compares a parser that only checks with one that also computes. -/
namespace MiniErp.Descent
variable {ε α β : Type}

inductive Outcome (ε α : Type) where
  | done (value : α) (rest : List Char)
  | failed (error : ε)
  | exhausted
  deriving DecidableEq, Repr

def Parser (ε α : Type) := List Char → Outcome ε α

instance : Monad (Parser ε) where
  pure value := fun s => .done value s
  bind p f := fun s =>
    match p s with
    | .done value rest => f value rest
    | .failed error => .failed error
    | .exhausted => .exhausted

def fail (error : ε) : Parser ε α := fun _ => .failed error

def exhaust : Parser ε α := fun _ => .exhausted

def consume (expected : Char) : Parser ε Bool := fun s =>
  match s with
  | [] => .done false []
  | c::rest => if c=expected then .done true rest else .done false (c::rest)

def consumeEither (first second : Char) : Parser ε Bool := do
  if ← consume first then return true else consume second

def skipWhile (kind : Char → Bool) : Parser ε Unit := fun s => .done () (s.dropWhile kind)

def spanWhile (kind : Char → Bool) : Parser ε (List Char) := fun s =>
  .done (s.takeWhile kind) (s.dropWhile kind)

theorem bind_apply (p : Parser ε α) (f : α → Parser ε β) (s : List Char) : (p >>= f) s =
      match p s with
      | .done value rest => f value rest
      | .failed error => .failed error
      | .exhausted => .exhausted := rfl

theorem pure_bind (a : α) (f : α → Parser ε β) : (pure a >>= f)=f a := rfl

theorem bind_assoc {γ : Type} (p : Parser ε α) (f : α → Parser ε β) (g : β → Parser ε γ) :
    (p >>= f) >>= g=p >>= fun a => f a >>= g := by
  funext s
  simp only [bind_apply]
  cases p s <;> rfl

def Outcome.toExcept (fallback : ε) : Outcome ε α → Except ε α
  | .done value _ => .ok value
  | .failed error => .error error
  | .exhausted => .error fallback

/-! How much of a text of at most `n` characters a parser takes: it ends, and at least `k`
characters are gone when it has a value. -/

def Takes (k n : Nat) (p : Parser ε α) : Prop :=
  ∀ s, s.length≤n → p s ≠ .exhausted ∧ ∀ value rest, p s=.done value rest → rest.length+k ≤ s.length

/-- A reader always has a value, and has taken a character when it found something. -/
def Reads (found : α → Bool) (p : Parser ε α) : Prop :=
  ∀ s, ∃ value rest, p s=.done value rest ∧ rest.length+(found value).toNat ≤ s.length

variable {k n : Nat} {p : Parser ε α} {f : α → Parser ε β}

theorem Takes.mono {l m : Nat} (h : Takes k n p) (hk : l≤k) (hn : m≤n) : Takes l m p := by
  intro s hs
  obtain ⟨hends,htakes⟩ := h s (Nat.le_trans hs hn)
  refine ⟨hends,fun value rest hdone => ?_⟩
  have hlength := htakes value rest hdone
  omega

theorem takes_pure (n : Nat) (a : α) : Takes 0 n (pure a : Parser ε α) := by
  intro s _
  refine ⟨nofun,fun value rest hdone => ?_⟩
  cases hdone
  exact Nat.le_refl _

theorem takes_fail (k n : Nat) (error : ε) : Takes k n (fail error : Parser ε α) :=
  fun _ _ => ⟨nofun,nofun⟩

theorem Takes.bind {l : Nat} (hp : Takes k n p)
    (hf : ∀ value, k≤n → Takes l (n-k) (f value)) : Takes (k+l) n (p >>= f) := by
  intro s hs
  obtain ⟨hends,htakes⟩ := hp s hs
  rw [bind_apply]
  cases hp : p s with
  | done value rest =>
    have hlength := htakes value rest hp
    obtain ⟨hends,hmore⟩ := hf value (by omega) rest (by omega)
    refine ⟨hends,fun last final hdone => ?_⟩
    have hfinal := hmore last final hdone
    omega
  | failed error => exact ⟨nofun,nofun⟩
  | exhausted => exact absurd hp hends

theorem Reads.takes {found : α → Bool} (hp : Reads found p)
   
    (hsome : ∀ value, found value=true → 0<n → Takes (k-1) (n-1) (f value))
    (hnone : ∀ value, found value=false → Takes k n (f value)) : Takes k n (p >>= f) := by
  intro s hs
  obtain ⟨value,rest,hdone,hlength⟩ := hp s
  rw [bind_apply,hdone]
  cases hfound : found value with
  | true =>
    rw [hfound,Bool.toNat_true] at hlength
    obtain ⟨hends,hmore⟩ := hsome value hfound (by omega) rest (by omega)
    refine ⟨hends,fun last final hlast => ?_⟩
    have hfinal := hmore last final hlast
    omega
  | false =>
    rw [hfound,Bool.toNat_false] at hlength
    obtain ⟨hends,hmore⟩ := hnone value hfound rest (by omega)
    refine ⟨hends,fun last final hlast => ?_⟩
    have hfinal := hmore last final hlast
    omega

theorem Reads.takes_ite {p : Parser ε Bool} (hp : Reads id p) {x y : Parser ε β}
    (hx : 0<n → Takes (k-1) (n-1) x) (hy : Takes k n y) :
    Takes k n (do if ← p then x else y) := by
  refine hp.takes (fun found hfound hn => ?_) fun found hfound => ?_
  · rw [id] at hfound
    rw [if_pos hfound]
    exact hx hn
  · rw [id] at hfound
    rw [hfound,if_neg Bool.false_ne_true]
    exact hy

theorem reads_consume (expected : Char) : Reads id (consume expected : Parser ε Bool) := by
  intro s
  cases s with
  | nil => exact ⟨false,[],rfl,Nat.le_refl _⟩
  | cons c rest =>
    by_cases hc : c=expected
    · exact ⟨true,rest,if_pos hc,Nat.le_refl _⟩
    · exact ⟨false,c::rest,if_neg hc,Nat.le_refl _⟩

theorem Reads.map {found : β → Bool} {g : α → β}
    (h : Reads (fun a => found (g a)) p) : Reads found (do return g (← p)) := by
  intro s
  obtain ⟨value,rest,hdone,hlength⟩ := h s
  refine ⟨g value,rest,?_,hlength⟩
  rw [bind_apply,hdone]
  rfl

theorem reads_consumeEither (first second : Char) :
    Reads id (consumeEither first second : Parser ε Bool) := by
  intro s
  obtain ⟨value,rest,hdone,hlength⟩ := @reads_consume ε first s
  obtain ⟨other,final,hother,hfinal⟩ := @reads_consume ε second rest
  rw [consumeEither,bind_apply,hdone]
  cases value with
  | true => exact ⟨true,rest,rfl,hlength⟩
  | false =>
    refine ⟨other,final,hother,?_⟩
    omega

theorem reads_skipWhile (kind : Char → Bool) :
    Reads (fun _ => false) (skipWhile kind : Parser ε Unit) :=
  fun s => ⟨(),_,rfl,List.length_dropWhile_le kind s⟩

/-! A parser that computes against one that checks: it ends as the other does, unless it fails
with an error that is only its own. -/

def Outcome.forget : Outcome ε α → Outcome ε Unit
  | .done _ rest => .done () rest
  | .failed error => .failed error
  | .exhausted => .exhausted

theorem Outcome.toExcept_forget (fallback : ε) (outcome : Outcome ε α) :
    outcome.forget.toExcept fallback=(outcome.toExcept fallback).map fun _ => () := by
  cases outcome <;> rfl

def Agree (own : ε → Prop) (check : Parser ε Unit) (compute : Parser ε α) : Prop :=
  ∀ s, (∃ error, own error ∧ compute s=.failed error) ∨ (compute s).forget=check s

variable {own : ε → Prop}

theorem agree_pure (a : α) : Agree own (pure ()) (pure a) := fun _ => .inr rfl

theorem agree_fail (error : ε) : Agree own (fail error) (fail error : Parser ε α) :=
  fun _ => .inr rfl

theorem agree_exhaust : Agree own exhaust (exhaust : Parser ε α) := fun _ => .inr rfl

theorem agree_refl (check : Parser ε Unit) : Agree own check check := by
  intro s
  cases check s <;> exact .inr rfl

theorem agree_own {error : ε} (h : own error) (check : Parser ε Unit) :
    Agree own check (fail error : Parser ε α) :=
  fun _ => .inl ⟨error,h,rfl⟩

theorem Agree.bind {check next : Parser ε Unit} {compute : Parser ε α}
    (h : Agree own check compute) (hnext : ∀ value, Agree own next (f value)) :
    Agree own (check >>= fun _ => next) (compute >>= f) := by
  intro s
  rw [bind_apply,bind_apply]
  rcases h s with ⟨error,herror,hfailed⟩ | hsame
  · exact .inl ⟨error,herror,by rw [hfailed]⟩
  · rw [← hsame]
    cases compute s with
    | done value rest => exact hnext value rest
    | failed error => exact .inr rfl
    | exhausted => exact .inr rfl

theorem Agree.map {check : Parser ε Unit} {compute : Parser ε α} (h : Agree own check compute)
    (g : α → β) : Agree own check (do return g (← compute)) := by
  intro s
  rw [bind_apply]
  rcases h s with ⟨error,herror,hfailed⟩ | hsame
  · exact .inl ⟨error,herror,by rw [hfailed]⟩
  · rw [← hsame]
    cases compute s <;> exact .inr rfl

theorem Agree.after {first : Parser ε α} {check : α → Parser ε Unit} {compute : α → Parser ε β}
    (h : ∀ value, Agree own (check value) (compute value)) :
    Agree own (first >>= check) (first >>= compute) := by
  intro s
  rw [bind_apply,bind_apply]
  cases first s with
  | done value rest => exact h value rest
  | failed error => exact .inr rfl
  | exhausted => exact .inr rfl

/-! The errors a parser can fail with. -/

def Faults (P : ε → Prop) (p : Parser ε α) : Prop := ∀ s error, p s=.failed error → P error

section
variable {P : ε → Prop}

theorem faults_pure (a : α) : Faults P (pure a : Parser ε α) := nofun

theorem faults_exhaust : Faults P (exhaust : Parser ε α) := nofun

theorem faults_fail {error : ε} (h : P error) : Faults P (fail error : Parser ε α) := by
  intro s error hfailed
  cases hfailed
  exact h

theorem Reads.faults {found : α → Bool} {p : Parser ε α} (hp : Reads found p) : Faults P p := by
  intro s error hfailed
  obtain ⟨value,rest,hdone,-⟩ := hp s
  rw [hdone] at hfailed
  cases hfailed

theorem Faults.bind {p : Parser ε α} {f : α → Parser ε β} (hp : Faults P p)
    (hf : ∀ value, Faults P (f value)) : Faults P (p >>= f) := by
  intro s error hfailed
  rw [bind_apply] at hfailed
  cases h : p s with
  | done value rest =>
    rw [h] at hfailed
    exact hf value rest error hfailed
  | failed first =>
    rw [h] at hfailed
    cases hfailed
    exact hp s error h
  | exhausted =>
    rw [h] at hfailed
    cases hfailed

theorem Reads.faults_ite {p : Parser ε Bool} (hp : Reads id p) {x y : Parser ε β}
    (hx : Faults P x) (hy : Faults P y) : Faults P (do if ← p then x else y) := by
  refine hp.faults.bind fun found => ?_
  cases found with
  | true => exact hx
  | false => exact hy

end

end MiniErp.Descent
