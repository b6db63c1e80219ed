import Mathlib.Data.List.Basic

/-! A log of changes: every entry leads from one revision of a content to the next, and a suffix of
the log still leads to where the log leads. -/
namespace MiniErp.DeltaLog
variable {ε γ : Type*} {base revision : ε → Nat} {apply : ε → γ → Option γ}
  {P : Nat × γ → Prop} {start last : Nat × γ} {entries : List ε}

/-- The entries lead from `start` to `last`, and every point on the way is one of `P`. -/
inductive Leads (base revision : ε → Nat) (apply : ε → γ → Option γ) (P : Nat × γ → Prop)
    (last : Nat × γ) : Nat × γ → List ε → Prop
  | done : P last → Leads base revision apply P last last []
  | step {point : Nat × γ} {next : γ} {entry : ε} {rest : List ε} : P point →
      base entry=point.1 → apply entry point.2=some next →
      Leads base revision apply P last (revision entry, next) rest →
      Leads base revision apply P last point (entry::rest)

section
variable (h : Leads base revision apply P last start entries)
include h

theorem Leads.start_point : P start := by
  cases h with
  | done h => exact h
  | step h => exact h

theorem Leads.last_point : P last := by
  induction h with
  | done h => exact h
  | step _ _ _ _ ih => exact ih

theorem Leads.append {entry : ε} {next : γ} (hbase : base entry=last.1)
    (happly : apply entry last.2=some next) (hnext : P (revision entry, next)) :
    Leads base revision apply P (revision entry, next) start (entries++[entry]) := by
  induction h with
  | done hlast => exact .step hlast hbase happly (.done hnext)
  | step hpoint hfirst hstep _ ih => exact .step hpoint hfirst hstep ih

theorem Leads.suffix {rest : List ε}
    (hrest : rest <:+ entries) : ∃ point, Leads base revision apply P last point rest := by
  induction h with
  | done hlast =>
    rw [List.suffix_nil.mp hrest]
    exact ⟨last,.done hlast⟩
  | step hpoint hbase happly htail ih =>
    cases List.suffix_cons_iff.mp hrest with
    | inl hall =>
      rw [hall]
      exact ⟨_,.step hpoint hbase happly htail⟩
    | inr hrest => exact ih hrest

theorem Leads.revision_getLast {entry : ε}
    (hentry : entries.getLast?=some entry) : revision entry=last.1 := by
  induction h with
  | done => cases hentry
  | @step point next first rest _ _ _ htail ih =>
    cases rest with
    | nil =>
      cases hentry
      cases htail with
      | done => rfl
    | cons second rest => exact ih hentry

theorem Leads.foldlM :
    entries.foldlM (fun content entry => apply entry content) start.2=some last.2 := by
  induction h with
  | done => rfl
  | step _ _ happly _ ih =>
    rw [List.foldlM_cons,happly]
    exact ih

end

end MiniErp.DeltaLog
