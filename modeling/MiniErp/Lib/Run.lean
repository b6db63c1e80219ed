import Mathlib.Data.List.Basic

/-! Fallible steps and their runs: checks that reject, a state that a rejected request leaves
as it was, and the induction from one step to a whole run. -/
namespace MiniErp.Run
open List
variable {ε σ ι : Type*} {α β : Type}

def ensure (check : Bool) (error : ε) : Except ε Unit := if check then .ok () else .error error

variable {error : ε} {b : β} {f : α → Except ε β} {x : Except ε α} {a : α} {ys : List β}
  {xs : List α} {ok : σ → ι → Prop} {s : σ} {step : ι → σ → Except ε σ} {inputs : List ι}

theorem ensure_eq_ok {check : Bool} {u : Unit} : ensure check error=.ok u ↔ check=true := by
  cases check <;> simp [ensure]

theorem bind_eq_ok : (x >>= f)=.ok b ↔ ∃ a, x=.ok a ∧ f a=.ok b := by
  cases x <;> simp [bind,Except.bind]

theorem map_eq_ok {f : α → β} : x.map f=.ok b ↔ ∃ a, x=.ok a ∧ f a=b := by
  cases x <;> simp [Except.map]

theorem mapError_eq_ok {ε' : Type*} {f : ε → ε'} : x.mapError f=.ok a ↔ x=.ok a := by
  cases x <;> simp [Except.mapError]

theorem ensure_bind_eq_ok {check : Bool} {f : Unit → Except ε β} :
    (ensure check error >>= f)=.ok b ↔ check=true ∧ f ()=.ok b := by
  cases check <;> simp [ensure,bind,Except.bind]

theorem toOption_eq_some : x.toOption=some a ↔ x=.ok a := by cases x <;> simp [Except.toOption]

/-- `ok_or`: an absent value is the given error. -/
def required (value : Option α) (error : ε) : Except ε α :=
  match value with
  | some a => .ok a
  | none => .error error

theorem required_eq_ok {value : Option α} : required value error=.ok a ↔ value=some a := by
  cases value <;> simp [required]

def rejection : Except ε α → Option ε
  | .ok _ => none
  | .error e => some e

theorem rejection_eq_some {e : ε} : rejection x=some e ↔ x=.error e := by
  cases x <;> simp [rejection]

theorem forM_eq_ok {check : α → Except ε PUnit} {l : List α} :
    l.forM check=.ok () ↔ ∀ x∈l, check x=.ok () := by
  induction l with
  | nil => simp [pure,Except.pure]
  | cons x rest ih =>
    rw [List.forM,bind_eq_ok]
    simp only [ih,forall_mem_cons]
    constructor
    · rintro ⟨_,hx,hrest⟩
      exact ⟨hx,hrest⟩
    · rintro ⟨hx,hrest⟩
      exact ⟨(),hx,hrest⟩

theorem mapM_singleton_eq_ok {x : α} : [x].mapM f=.ok ys ↔ ∃ y, f x=.ok y ∧ ys=[y] := by
  cases h : f x <;> simp [h,eq_comm,pure,Except.pure,bind,Except.bind]

theorem mapM_mem (h : xs.mapM f=.ok ys) :
    (∀ y∈ys, ∃ x∈xs, f x=.ok y) ∧ ∀ x∈xs, ∃ y∈ys, f x=.ok y := by
  induction xs generalizing ys with
  | nil =>
    have hnil : ys=[] := (Except.ok.inj h).symm
    simp [hnil]
  | cons x rest ih =>
    rw [mapM_cons,bind_eq_ok] at h
    obtain ⟨y,hy,h⟩ := h
    rw [bind_eq_ok] at h
    obtain ⟨zs,hzs,h⟩ := h
    obtain ⟨hback,hforth⟩ := ih hzs
    rw [← Except.ok.inj h]
    constructor
    · intro z hz
      cases hz with
      | head => exact ⟨x,mem_cons_self,hy⟩
      | tail _ hz =>
        obtain ⟨w,hw,hwz⟩ := hback z hz
        exact ⟨w,mem_cons_of_mem x hw,hwz⟩
    · intro w hw
      cases hw with
      | head => exact ⟨y,mem_cons_self,hy⟩
      | tail _ hw =>
        obtain ⟨z,hz,hwz⟩ := hforth w hw
        exact ⟨z,mem_cons_of_mem y hz,hwz⟩

theorem map_mapM {γ : Type} {g : β → γ} {k : α → γ}
    (hf : ∀ x y, f x=.ok y → g y=k x) (h : xs.mapM f=.ok ys) : ys.map g=xs.map k := by
  induction xs generalizing ys with
  | nil =>
    have hnil : ys=[] := (Except.ok.inj h).symm
    simp [hnil]
  | cons x rest ih =>
    rw [mapM_cons,bind_eq_ok] at h
    obtain ⟨y,hy,h⟩ := h
    rw [bind_eq_ok] at h
    obtain ⟨zs,hzs,h⟩ := h
    rw [← Except.ok.inj h,map_cons,map_cons,hf x y hy,ih hzs]

theorem exists_mapM_eq_ok (h : ∀ x∈xs, ∃ y, f x=.ok y) : ∃ ys, xs.mapM f=.ok ys := by
  induction xs with
  | nil => exact ⟨[],rfl⟩
  | cons x rest ih =>
    rw [forall_mem_cons] at h
    obtain ⟨y,hy⟩ := h.1
    obtain ⟨ys,hys⟩ := ih h.2
    refine ⟨y::ys,?_⟩
    rw [mapM_cons,hy,hys]
    rfl

/-- One request: the new state, or the old one when the request is rejected. -/
def advance (step : ι → σ → Except ε σ) (s : σ) (i : ι) : σ :=
  match step i s with
  | .ok t => t
  | .error _ => s

def run (step : ι → σ → Except ε σ) (s : σ) (inputs : List ι) : σ := inputs.foldl (advance step) s

/-- Every request of the run meets `ok` in the state it is made in. -/
def Along (step : ι → σ → Except ε σ) (ok : σ → ι → Prop) : σ → List ι → Prop
  | _, [] => True
  | s, i::rest => ok s i ∧ Along step ok (advance step s i) rest

theorem along_true (step : ι → σ → Except ε σ) (s : σ) (inputs : List ι) :
    Along step (fun _ _ => True) s inputs := by
  induction inputs generalizing s with
  | nil => trivial
  | cons i rest ih => exact ⟨trivial,ih _⟩

theorem along_append {xs ys : List ι} :
    Along step ok s (xs++ys) ↔ Along step ok s xs ∧ Along step ok (run step s xs) ys := by
  induction xs generalizing s with
  | nil => simp [Along,run]
  | cons i rest ih =>
    simp only [cons_append,Along,ih,and_assoc]
    rfl

theorem Along.and {first second : σ → ι → Prop}
    (hfirst : Along step first s inputs) (hsecond : Along step second s inputs) :
    Along step (fun s i => first s i ∧ second s i) s inputs := by
  induction inputs generalizing s with
  | nil => trivial
  | cons i rest ih => exact ⟨⟨hfirst.1,hsecond.1⟩,ih hfirst.2 hsecond.2⟩

theorem along_of_reached {Q : σ → Prop}
    (h : ∀ reached, reached <+: inputs → Q (run step s reached)) :
    Along step (fun s i => Q (advance step s i)) s inputs := by
  induction inputs generalizing s with
  | nil => trivial
  | cons i rest ih =>
    refine ⟨h [i] ⟨rest,rfl⟩,ih fun reached hreached => ?_⟩
    exact h (i::reached) (cons_prefix_cons.mpr ⟨rfl,hreached⟩)

theorem run_invariant (Inv : σ → Prop) (hstep : ∀ s i t, Inv s → ok s i → step i s=.ok t → Inv t)
    (hs : Inv s) (hok : Along step ok s inputs) : Inv (run step s inputs) := by
  induction inputs generalizing s with
  | nil => exact hs
  | cons i rest ih =>
    refine ih ?_ hok.2
    unfold advance
    cases h : step i s with
    | ok t => exact hstep s i t hs hok.1 h
    | error e => exact hs

/-- Where `ok` says exactly which accepted requests keep the invariant and holds of every rejected
one, the runs that keep it throughout are those that meet `ok` throughout. -/
theorem run_invariant_iff {Inv : σ → Prop}
   
    (hstep : ∀ i∈inputs, ∀ s t, Inv s → step i s=.ok t → (Inv t ↔ ok s i))
    (hreject : ∀ i∈inputs, ∀ s e, step i s=.error e → ok s i) (hs : Inv s) :
    (∀ reached, reached <+: inputs → Inv (run step s reached)) ↔ Along step ok s inputs := by
  induction inputs generalizing s with
  | nil => simp [Along,run,hs]
  | cons i rest ih =>
    have hnext : Inv (advance step s i) ↔ ok s i := by
      unfold advance
      cases h : step i s with
      | ok t => exact hstep i mem_cons_self s t hs h
      | error e => exact iff_of_true hs (hreject i mem_cons_self s e h)
    have htail := fun hi => @ih (advance step s i)
      (fun j hj => hstep j (mem_cons_of_mem i hj))
      (fun j hj => hreject j (mem_cons_of_mem i hj)) hi
    constructor
    · intro h
      have hi : Inv (advance step s i) := h [i] ⟨rest,rfl⟩
      refine ⟨hnext.mp hi,(htail hi).mp fun reached hreached => ?_⟩
      exact h (i::reached) (cons_prefix_cons.mpr ⟨rfl,hreached⟩)
    · rintro ⟨hok,halong⟩ reached hreached
      cases reached with
      | nil => exact hs
      | cons j reached =>
        obtain ⟨rfl,hbegins⟩ := cons_prefix_cons.mp hreached
        exact (htail (hnext.mpr hok)).mpr halong reached hbegins

end MiniErp.Run
