import Mathlib.Data.Option.Basic

/-! Runs of a machine whose steps may be disabled: an interleaving is the list of its steps. -/
namespace MiniErp.Steps
variable {σ ε : Type*} {step : σ → ε → Option σ}

def run (step : σ → ε → Option σ) (s : σ) (events : List ε) : Option σ := events.foldlM step s

@[simp] theorem run_nil (s : σ) : run step s []=some s := rfl

@[simp] theorem run_cons (s : σ) (event : ε) (events : List ε) :
    run step s (event::events)=(step s event).bind fun t => run step t events := rfl

theorem run_append (s : σ) (first second : List ε) :
    run step s (first++second)=(run step s first).bind fun t => run step t second := by
  simp [run]

theorem run_invariant {P : σ → Prop} (hstep : ∀ s event t, P s → step s event=some t → P t)
    {s t : σ} {events : List ε} (hs : P s) (h : run step s events=some t) : P t := by
  induction events generalizing s with
  | nil =>
    cases h
    exact hs
  | cons event rest ih =>
    rw [run_cons,Option.bind_eq_some_iff] at h
    obtain ⟨next,hnext,hrest⟩ := h
    exact ih (hstep s event next hs hnext) hrest

end MiniErp.Steps
