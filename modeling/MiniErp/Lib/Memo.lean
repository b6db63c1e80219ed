import Mathlib.Control.Monad.Basic

/-! Computations over a state of caches. A computation answers `a` under an invariant of the
caches when it returns `a` from every such state and keeps the invariant; memoising a
computation does not change what it answers. -/
namespace MiniErp.Memo
variable {σ α β ε : Type} {Inv : σ → Prop}

def Answers (Inv : σ → Prop) (x : StateM σ α) (a : α) : Prop :=
  ∀ s, Inv s → (x.run s).1=a ∧ Inv (x.run s).2

/-- Read what was stored, or compute it and store it. -/
def memoize (stored : σ → Option α) (store : α → σ → σ) (compute : StateM σ α) : StateM σ α := do
  match stored (← get) with
  | some value => return value
  | none =>
    let value ← compute
    modify (store value)
    return value

theorem answers_pure (a : α) : Answers Inv (pure a) a := fun _ hs => ⟨rfl,hs⟩

theorem answers_view {view : σ → α} {a : α} (h : ∀ s, Inv s → view s=a) :
    Answers Inv (do return view (← get)) a :=
  fun s hs => ⟨h s hs,hs⟩

theorem Answers.bind {x : StateM σ α} {f : α → StateM σ β} {a : α} {b : β}
    (hx : Answers Inv x a) (hf : Answers Inv (f a) b) : Answers Inv (x >>= f) b := by
  intro s hs
  obtain ⟨hvalue,hstate⟩ := hx s hs
  have hrun : (x >>= f).run s=(f (x.run s).1).run (x.run s).2 := rfl
  rw [hrun,hvalue]
  exact hf _ hstate

theorem Answers.memoize {stored : σ → Option α} {store : α → σ → σ} {compute : StateM σ α}
    {a : α} (hstored : ∀ s, Inv s → ∀ value, stored s=some value → value=a)
    (hstore : ∀ s, Inv s → Inv (store a s)) (hcompute : Answers Inv compute a) :
    Answers Inv (memoize stored store compute) a := by
  intro s hs
  have hrun : (Memo.memoize stored store compute).run s =
      match stored s with
      | some value => (value, s)
      | none => ((compute.run s).1, store (compute.run s).1 (compute.run s).2) := by
    simp only [Memo.memoize]
    cases h : stored s <;> simp [h] <;> rfl
  obtain ⟨hvalue,hstate⟩ := hcompute s hs
  cases h : stored s with
  | some value =>
    rw [hrun,h]
    exact ⟨hstored s hs value h,hs⟩
  | none =>
    rw [hrun,h]
    exact ⟨hvalue,hvalue ▸ hstore _ hstate⟩

theorem answers_mapM {f : α → StateM σ β} {g : α → β} {l : List α}
    (h : ∀ x∈l, Answers Inv (f x) (g x)) : Answers Inv (l.mapM f) (l.map g) := by
  induction l with
  | nil => exact answers_pure _
  | cons x rest ih =>
    rw [List.mapM_cons]
    refine (h x List.mem_cons_self).bind ?_
    exact (ih fun y hy => h y (List.mem_cons_of_mem x hy)).bind (answers_pure _)

theorem answers_filterMapM {f : α → StateM σ (Option β)} {g : α → Option β} {l : List α}
    (h : ∀ x∈l, Answers Inv (f x) (g x)) : Answers Inv (l.filterMapM f) (l.filterMap g) := by
  induction l with
  | nil => exact answers_pure _
  | cons x rest ih =>
    have hrest := ih fun y hy => h y (List.mem_cons_of_mem x hy)
    rw [List.filterMapM_cons,List.filterMap_cons]
    refine (h x List.mem_cons_self).bind ?_
    cases g x with
    | none => exact hrest
    | some b => exact hrest.bind (answers_pure _)

theorem answers_anyM {f : α → StateM σ Bool} {g : α → Bool} {l : List α}
    (h : ∀ x∈l, Answers Inv (f x) (g x)) : Answers Inv (l.anyM f) (l.any g) := by
  induction l with
  | nil => exact answers_pure _
  | cons x rest ih =>
    rw [List.any_cons]
    refine (h x List.mem_cons_self).bind ?_
    cases g x with
    | true => exact answers_pure _
    | false => exact ih fun y hy => h y (List.mem_cons_of_mem x hy)

section Fallible
variable {f : α → ExceptT ε (StateM σ) β}

/-- A computation that can fail answers what the same steps on its answers give. -/
theorem answers_run_bind {x : ExceptT ε (StateM σ) α} {e : Except ε α} {g : α → Except ε β}
    (hx : Answers Inv x.run e) (hf : ∀ a, e=.ok a → Answers Inv (f a).run (g a)) :
    Answers Inv (x >>= f).run (e >>= g) := by
  rw [ExceptT.run_bind]
  refine hx.bind ?_
  cases e with
  | ok a => exact hf a rfl
  | error err => exact answers_pure _

theorem answers_run_pure (a : α) : Answers Inv (pure a : ExceptT ε (StateM σ) α).run (pure a) :=
  answers_pure _

theorem answers_run_check (e : Except ε α) : Answers Inv (liftM e : ExceptT ε (StateM σ) α).run e :=
  answers_pure _

theorem answers_run_query {x : StateM σ α} {a : α} (hx : Answers Inv x a) :
    Answers Inv (liftM x : ExceptT ε (StateM σ) α).run (pure a) := by
  have hrun : (liftM x : ExceptT ε (StateM σ) α).run=x >>= fun a => pure (Except.ok a) := rfl
  rw [hrun]
  exact hx.bind (answers_pure _)

theorem answers_query_bind {x : StateM σ α} {a : α} {e : Except ε β} (hx : Answers Inv x a)
    (hf : Answers Inv (f a).run e) :
    Answers Inv ((liftM x : ExceptT ε (StateM σ) α) >>= f).run e := by
  rw [ExceptT.run_bind]
  exact (answers_run_query hx).bind hf

end Fallible

end MiniErp.Memo
