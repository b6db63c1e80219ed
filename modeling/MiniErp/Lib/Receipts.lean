import MiniErp.Lib.Run

/-! Commands with receipts. A request carries an idempotency key; the first accepted request of
a key is performed and its result kept, every later one of the key is answered from the
receipt or rejected. Over any sequence of requests the value is the performed requests applied
in the order they were accepted. -/
namespace MiniErp.Receipts
open Run
variable {ι κ γ ρ σ ε : Type}

/-- How a request is keyed and checked, and what performing it does to the value. -/
structure Service (ι κ γ ρ σ ε : Type) where
  key : ι → κ
  command : ι → γ
  check : γ → Except ε Unit
  perform : ι → σ → Except ε (ρ × σ)
  conflict : ε

/-- The value with the receipts of the performed requests, newest first. -/
structure Ledger (κ γ ρ σ : Type) where
  value : σ
  receipts : List (κ × γ × ρ)

variable [DecidableEq κ] [DecidableEq γ] (service : Service ι κ γ ρ σ ε)

def submit (i : ι) (s : Ledger κ γ ρ σ) : Except ε (ρ × Ledger κ γ ρ σ) := do
  service.check (service.command i)
  match s.receipts.lookup (service.key i) with
  | some (previous, result) =>
    if previous=service.command i then .ok (result, s) else .error service.conflict
  | none => do
    let (result, value) ← service.perform i s.value
    return (result, ⟨value,(service.key i, service.command i, result)::s.receipts⟩)

def step (i : ι) (s : Ledger κ γ ρ σ) : Except ε (Ledger κ γ ρ σ) := do
  let (_, t) ← submit service i s
  return t

def performAll (v : σ) (log : List ι) : Except ε σ :=
  log.foldlM (fun v i => do let (_, w) ← service.perform i v; return w) v

variable {service} {i j : ι} {s t : Ledger κ γ ρ σ} {r : ρ} {k : κ} {entry : γ × ρ}

theorem submit_ok (h : submit service i s=.ok (r, t)) :
    service.check (service.command i)=.ok () ∧
      (s.receipts.lookup (service.key i)=some (service.command i, r) ∧ t=s ∨
        s.receipts.lookup (service.key i)=none ∧ ∃ value,
          service.perform i s.value=.ok (r, value) ∧
          t=⟨value,(service.key i, service.command i, r)::s.receipts⟩) := by
  obtain ⟨_,hcheck,h⟩ := bind_eq_ok.mp h
  refine ⟨hcheck,?_⟩
  split at h
  · rename_i previous result hlookup
    split at h
    · rename_i hsame
      obtain ⟨rfl,rfl⟩ := Prod.mk.inj (Except.ok.inj h)
      exact .inl ⟨by rw [hlookup,hsame],rfl⟩
    · cases h
  · rename_i hlookup
    obtain ⟨⟨result,value⟩,hperform,h⟩ := bind_eq_ok.mp h
    obtain ⟨rfl,rfl⟩ := Prod.mk.inj (Except.ok.inj h)
    exact .inr ⟨hlookup,value,hperform,rfl⟩

theorem submit_fresh {value : σ} (hcheck : service.check (service.command i)=.ok ())
    (hfresh : s.receipts.lookup (service.key i)=none)
    (hperform : service.perform i s.value=.ok (r, value)) : submit service i s =
      .ok (r, ⟨value,(service.key i, service.command i, r)::s.receipts⟩) := by
  simp [submit,hcheck,hfresh,hperform,bind,Except.bind,pure,Except.pure]

theorem step_ok : step service i s=.ok t ↔ ∃ r, submit service i s=.ok (r, t) := by
  simp only [step,bind_eq_ok,Prod.exists]
  constructor
  · rintro ⟨r,u,h,hu⟩
    rw [Except.ok.inj hu] at h
    exact ⟨r,h⟩
  · rintro ⟨r,h⟩
    exact ⟨r,t,h,rfl⟩

theorem submit_records (h : submit service i s=.ok (r, t)) :
    t.receipts.lookup (service.key i)=some (service.command i, r) := by
  obtain ⟨-,⟨hlookup,rfl⟩ | ⟨-,value,-,rfl⟩⟩ := submit_ok h
  · exact hlookup
  · simp

theorem lookup_step (hk : s.receipts.lookup k=some entry) (h : step service i s=.ok t) :
    t.receipts.lookup k=some entry := by
  obtain ⟨r,h⟩ := step_ok.mp h
  obtain ⟨-,⟨-,rfl⟩ | ⟨hnone,value,-,rfl⟩⟩ := submit_ok h
  · exact hk
  · have hne : k≠service.key i := by
      intro heq
      rw [heq,hnone] at hk
      cases hk
    have hbeq : (k == service.key i)=false := beq_eq_false_iff_ne.mpr hne
    simp only [List.lookup_cons,hbeq,hk]

/-- A receipt is never lost or overwritten. -/
theorem lookup_run (inputs : List ι) (hk : s.receipts.lookup k=some entry) :
    (run (step service) s inputs).receipts.lookup k=some entry :=
  run_invariant (fun s : Ledger κ γ ρ σ => s.receipts.lookup k=some entry)
    (fun _ _ _ hs _ h => lookup_step hs h) hk (along_true _ _ _)

theorem submit_same (hk : s.receipts.lookup (service.key i)=some (service.command i, r))
    (hcheck : service.check (service.command i)=.ok ()) : submit service i s=.ok (r, s) := by
  simp [submit,hcheck,hk,bind,Except.bind]

theorem submit_other {c : γ} (hk : s.receipts.lookup (service.key i)=some (c, r))
    (hne : service.command i≠c) : submit service i s=.error service.conflict ∨
      ∃ e, service.check (service.command i)=.error e ∧ submit service i s=.error e := by
  cases hcheck : service.check (service.command i) with
  | error e => exact .inr ⟨e,rfl,by simp [submit,hcheck,bind,Except.bind]⟩
  | ok _ => exact .inl (by simp [submit,hcheck,hk,Ne.symm hne,bind,Except.bind])

theorem advance_of_receipt (hk : s.receipts.lookup (service.key i)=some entry) :
    advance (step service) s i=s := by
  unfold advance
  cases h : step service i s with
  | error e => rfl
  | ok t =>
    obtain ⟨r,h⟩ := step_ok.mp h
    obtain ⟨-,⟨-,rfl⟩ | ⟨hnone,-⟩⟩ := submit_ok h
    · rfl
    · rw [hnone] at hk
      cases hk

/-- After an accepted request, whatever else is submitted, its key changes nothing any more:
the same command is answered with the same result and another command is rejected. -/
theorem submit_once (h : submit service i s=.ok (r, t)) (later : List ι)
    (hkey : service.key j=service.key i) :
    advance (step service) (run (step service) t later) j=run (step service) t later ∧
    (service.command j=service.command i →
      submit service j (run (step service) t later)=.ok (r, run (step service) t later)) ∧
    (service.command j≠service.command i →
      submit service j (run (step service) t later)=.error service.conflict ∨
      ∃ e, service.check (service.command j)=.error e ∧
        submit service j (run (step service) t later)=.error e) := by
  have hreceipt : (run (step service) t later).receipts.lookup (service.key j) =
      some (service.command i, r) := by
    rw [hkey]
    exact lookup_run later (submit_records h)
  refine ⟨advance_of_receipt hreceipt,fun hsame => ?_,submit_other hreceipt⟩
  have hcheck := (submit_ok h).1
  rw [← hsame] at hreceipt hcheck
  exact submit_same hreceipt hcheck

theorem advance_of_error {e : ε} (h : submit service i s=.error e) :
    advance (step service) s i=s := by
  simp [advance,step,h,bind,Except.bind]

/-- The value after any requests is the accepted ones performed in the order of acceptance,
each key among them only once more than before. -/
theorem run_eq_performAll (service : Service ι κ γ ρ σ ε) (s : Ledger κ γ ρ σ)
    (inputs : List ι) : ∃ log, log.Sublist inputs ∧
      (run (step service) s inputs).receipts.map (fun e => (e.1, e.2.1)) =
        (log.map fun i => (service.key i, service.command i)).reverse ++
          s.receipts.map (fun e => (e.1, e.2.1)) ∧
      performAll service s.value log=.ok (run (step service) s inputs).value := by
  induction inputs generalizing s with
  | nil => exact ⟨[],List.Sublist.refl _,rfl,rfl⟩
  | cons i rest ih =>
    obtain ⟨log,hsub,hreceipts,hvalue⟩ := ih (advance (step service) s i)
    cases h : step service i s with
    | error e =>
      have hstay : advance (step service) s i=s := by simp [advance,h]
      refine ⟨log,hsub.cons i,?_,?_⟩
      · simpa [run,hstay] using hreceipts
      · simpa [run,hstay] using hvalue
    | ok t =>
      have hnext : advance (step service) s i=t := by simp [advance,h]
      obtain ⟨r,hsubmit⟩ := step_ok.mp h
      obtain ⟨-,⟨-,rfl⟩ | ⟨-,value,hperform,rfl⟩⟩ := submit_ok hsubmit
      · refine ⟨log,hsub.cons i,?_,?_⟩
        · simpa [run,hnext] using hreceipts
        · simpa [run,hnext] using hvalue
      · refine ⟨i::log,hsub.cons_cons i,?_,?_⟩
        · simpa [run,hnext] using hreceipts
        · simpa [performAll,hperform,run,hnext,bind,Except.bind,pure,Except.pure] using hvalue

end MiniErp.Receipts
