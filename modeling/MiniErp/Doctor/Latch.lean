import Mathlib

/-! The checks of the system doctor. An incident is confirmed by a run of failed samples and stays
until a run of good ones; the two counters of a check are compared with the samples seen. -/
namespace MiniErp.Doctor
open List

inductive Sample where
  | failed (value : Int)
  | good (value : Int)
  | neutral (value : Int)
  | unknown

inductive Status where
  | starting
  | unknown
  | warning
  | critical
  | recovering
  | healthy
  deriving DecidableEq

structure DoctorPolicy where
  failureSamples : Nat
  recoverySamples : Nat
  memoryCriticalPercent : Int
  memoryRecoveryPercent : Int
  diskCriticalAvailableMb : Int
  diskRecoveryAvailableMb : Int

def clamp (value low high : Int) : Int := max low (min value high)

section
variable (policy : DoctorPolicy)

def DoctorPolicy.normalized : DoctorPolicy :=
  let memory := clamp policy.memoryCriticalPercent 1 100
  let disk := clamp policy.diskCriticalAvailableMb 0 (2^63-2)
  { failureSamples := max 1 (min policy.failureSamples 60)
    recoverySamples := max 1 (min policy.recoverySamples 60)
    memoryCriticalPercent := memory
    memoryRecoveryPercent := clamp policy.memoryRecoveryPercent 0 (memory-1)
    diskCriticalAvailableMb := disk
    diskRecoveryAvailableMb := max policy.diskRecoveryAvailableMb (disk+1) }

structure DoctorCheck where
  status : Status := .starting
  value : Option Int := none
  consecutiveFailures : Nat := 0
  consecutiveSuccesses : Nat := 0
  critical : Bool := false

/-- `saturating_add(1)` on `u32`. -/
def bump (count : Nat) : Nat := min (count+1) (2^32-1)

def updateCheck (check : DoctorCheck) : Sample → DoctorCheck
  | .unknown =>
    { check with value := none, consecutiveFailures := 0, consecutiveSuccesses := 0, status := .unknown }
  | .failed value =>
    let failures := bump check.consecutiveFailures
    let critical := check.critical || policy.failureSamples≤failures
    { status := if critical then .critical else .warning, value := some value,
      consecutiveFailures := failures, consecutiveSuccesses := 0, critical := critical }
  | .good value =>
    if check.critical then
      let successes := bump check.consecutiveSuccesses
      let critical := !decide (policy.recoverySamples ≤ successes)
      { status := if critical then .recovering else .healthy, value := some value,
        consecutiveFailures := 0, consecutiveSuccesses := successes, critical := critical }
    else
      { check with
        value := some value, consecutiveFailures := 0, consecutiveSuccesses := 0, status := .healthy }
  | .neutral value =>
    { check with
      value := some value, consecutiveFailures := 0, consecutiveSuccesses := 0,
      status := if check.critical then .critical else .healthy }

structure Observation where
  configured : Bool
  reachable : Bool
  memoryTotalMb : Int
  memoryPercent : Int
  diskTotalMb : Int
  diskAvailableMb : Int

def databaseSample (seen : Observation) : Sample :=
  if !seen.configured then .unknown else if seen.reachable then .good 1 else .failed 0

def memorySample (seen : Observation) : Sample :=
  if seen.memoryTotalMb≤0 ∨ ¬(0 ≤ seen.memoryPercent ∧ seen.memoryPercent≤100) then .unknown
  else if policy.memoryCriticalPercent ≤ seen.memoryPercent then .failed seen.memoryPercent
  else if seen.memoryPercent≤policy.memoryRecoveryPercent then .good seen.memoryPercent
  else .neutral seen.memoryPercent

def diskSample (seen : Observation) : Sample :=
  if seen.diskTotalMb≤0 ∨ seen.diskAvailableMb<0 ∨ seen.diskTotalMb < seen.diskAvailableMb then
    .unknown
  else if seen.diskAvailableMb≤policy.diskCriticalAvailableMb then .failed seen.diskAvailableMb
  else if policy.diskRecoveryAvailableMb ≤ seen.diskAvailableMb then .good seen.diskAvailableMb
  else .neutral seen.diskAvailableMb

structure DoctorReport where
  database : DoctorCheck := {}
  memory : DoctorCheck := {}
  disk : DoctorCheck := {}
  isProtected : Bool := false

def observe (report : DoctorReport) (seen : Observation) : DoctorReport :=
  let memory := updateCheck policy report.memory (memorySample policy seen)
  let disk := updateCheck policy report.disk (diskSample policy seen)
  { database := updateCheck policy report.database (databaseSample seen)
    memory := memory
    disk := disk
    isProtected := memory.critical || disk.critical }

def observeAll (observations : List Observation) : DoctorReport :=
  observations.foldl (observe policy) {}

inductive Kind where
  | failed
  | good
  | other
  deriving DecidableEq

def Sample.kind : Sample → Kind
  | .failed _ => .failed
  | .good _ => .good
  | _ => .other

/-- A run of failures has ended, and no run of good samples lies behind it. -/
def Latched (kinds : List Kind) : Prop :=
  ∃ before after, kinds=before++after ∧ List.replicate policy.failureSamples .failed <:+ before ∧
    ¬ List.replicate policy.recoverySamples .good <:+: after

end

theorem replicate_suffix_concat {α : Type} {n : Nat} {a b : α} {l : List α} :
    List.replicate (n+1) a <:+ l++[b] ↔ b=a ∧ List.replicate n a <:+ l := by
  rw [replicate_succ',suffix_concat_iff]
  constructor
  · intro h
    cases h with
    | inl h => simp at h
    | inr h =>
      obtain ⟨t,ht,hsuffix⟩ := h
      obtain ⟨rfl,hb⟩ := append_inj' ht rfl
      exact ⟨(singleton_inj.mp hb).symm,hsuffix⟩
  · intro h
    exact .inr ⟨_,by rw [h.1],h.2⟩

section
variable {policy : DoctorPolicy} {kinds : List Kind}

theorem good_suffix_append {n m : Nat} {before after : List Kind}
    (hbefore : List.replicate (n+1) .failed <:+ before)
    (h : List.replicate m Kind.good <:+ before++after) : List.replicate m Kind.good <:+ after := by
  induction after using List.reverseRecOn generalizing m with
  | nil =>
    cases m with
    | zero => exact nil_suffix
    | succ m =>
      obtain ⟨front,rfl⟩ := hbefore
      rw [append_nil,replicate_succ' (n := n),← append_assoc, replicate_suffix_concat] at h
      cases h.1
  | append_singleton after kind ih =>
    cases m with
    | zero => exact nil_suffix
    | succ m =>
      rw [← append_assoc,replicate_suffix_concat] at h
      exact replicate_suffix_concat.mpr ⟨h.1,ih h.2⟩

theorem latched_concat (hfailure : 1≤policy.failureSamples) (hrecovery : 1≤policy.recoverySamples)
    (kind : Kind) : Latched policy (kinds++[kind]) ↔
      (Latched policy kinds ∨ List.replicate policy.failureSamples .failed <:+ kinds++[kind]) ∧
        ¬ List.replicate policy.recoverySamples .good <:+ kinds++[kind] := by
  have hempty : ¬ List.replicate policy.recoverySamples Kind.good <:+: [] := by
    rw [infix_nil,replicate_eq_nil_iff]
    omega
  obtain ⟨failures,hfailures⟩ := Nat.exists_eq_add_of_le' hfailure
  constructor
  · intro h
    obtain ⟨before,after,hsplit,hbefore,hafter⟩ := h
    refine ⟨?_,fun hgood => ?_⟩
    · cases after using List.reverseRecOn with
      | nil =>
        rw [append_nil] at hsplit
        exact .inr (hsplit ▸ hbefore)
      | append_singleton after last =>
        rw [← append_assoc] at hsplit
        exact .inl ⟨before,after,(append_inj' hsplit rfl).1,hbefore,fun hwithin =>
          hafter (hwithin.trans (prefix_append after [last]).isInfix)⟩
    · rw [hfailures] at hbefore
      rw [hsplit] at hgood
      exact hafter (good_suffix_append hbefore hgood).isInfix
  · intro h
    obtain ⟨hlatched,hgood⟩ := h
    cases hlatched with
    | inl hlatched =>
      obtain ⟨before,after,rfl,hbefore,hafter⟩ := hlatched
      refine ⟨before,after++[kind],append_assoc ..,hbefore,fun hwithin => ?_⟩
      cases infix_concat_iff.mp hwithin with
      | inl hsuffix =>
        rw [append_assoc] at hgood
        exact hgood (hsuffix.trans (suffix_append _ _))
      | inr hwithin => exact hafter hwithin
    | inr hfailed => exact ⟨_,[],(append_nil _).symm,hfailed,hempty⟩

/-- The counter is the length of the run of such samples at the end, as far as a policy asks. -/
def Counts (kind : Kind) (kinds : List Kind) (count : Nat) : Prop :=
  ∀ n≤60, n ≤ count ↔ List.replicate n kind <:+ kinds

theorem Counts.bump {kind : Kind} {count : Nat} (h : Counts kind kinds count) :
    Counts kind (kinds++[kind]) (bump count) := by
  intro n hn
  cases n with
  | zero => exact iff_of_true (Nat.zero_le _) nil_suffix
  | succ n =>
    rw [replicate_suffix_concat,← h n (by omega),and_iff_right rfl,Doctor.bump]
    omega

theorem counts_zero {kind last : Kind} (h : last≠kind) : Counts kind (kinds++[last]) 0 := by
  intro n _
  cases n with
  | zero => exact iff_of_true (Nat.zero_le _) nil_suffix
  | succ n =>
    rw [replicate_suffix_concat]
    exact iff_of_false (by omega) fun hlast => h hlast.1

structure Tracks (policy : DoctorPolicy) (kinds : List Kind) (check : DoctorCheck) : Prop where
  failures : Counts .failed kinds check.consecutiveFailures
  successes : check.critical=true → Counts .good kinds check.consecutiveSuccesses
  critical : check.critical=true ↔ Latched policy kinds

theorem normalized_bounds (policy : DoctorPolicy) :
    (1≤policy.normalized.failureSamples ∧ policy.normalized.failureSamples≤60) ∧
      1≤policy.normalized.recoverySamples ∧ policy.normalized.recoverySamples≤60 := by
  simp only [DoctorPolicy.normalized]
  omega

theorem Tracks.update {check : DoctorCheck} (h : Tracks policy.normalized kinds check)
    (sample : Sample) : Tracks policy.normalized (kinds++[sample.kind])
      (updateCheck policy.normalized check sample) := by
  obtain ⟨hfailure,hrecovery⟩ := normalized_bounds policy
  have hlatched := @latched_concat policy.normalized kinds hfailure.1 hrecovery.1
  -- a run that does not end in this kind of sample is not there
  have hnone : ∀ {n : Nat} {kind last : Kind}, 1≤n ∧ n≤60 → last≠kind →
      ¬ List.replicate n kind <:+ kinds++[last] := by
    intro n kind last hn hlast hsuffix
    have hzero := (counts_zero hlast n hn.2).mpr hsuffix
    omega
  have hother : ∀ check' : DoctorCheck, check'.consecutiveFailures=0 →
      check'.consecutiveSuccesses=0 → check'.critical=check.critical →
        Tracks policy.normalized (kinds++[.other]) check' := by
    intro check' hfailures hsuccesses hcritical
    refine ⟨hfailures ▸ counts_zero (by decide),fun _ => hsuccesses ▸ counts_zero (by decide),?_⟩
    rw [hcritical,h.critical,hlatched]
    simp [hnone hfailure,hnone hrecovery]
  cases sample with
  | unknown => exact hother _ rfl rfl rfl
  | neutral value => exact hother _ rfl rfl rfl
  | failed value =>
    have hcount := h.failures.bump
    refine ⟨hcount,fun _ => counts_zero Kind.noConfusion,?_⟩
    simp only [updateCheck,Sample.kind,Bool.or_eq_true,decide_eq_true_eq,h.critical,hlatched]
    rw [hcount _ hfailure.2]
    simp [hnone hrecovery]
  | good value =>
    have hfailed := @hnone _ .failed .good hfailure (by decide)
    cases hcritical : check.critical with
    | true =>
      have hcount := (h.successes hcritical).bump
      have hbefore := h.critical.mp hcritical
      simp only [updateCheck,Sample.kind,hcritical]
      refine ⟨counts_zero (by decide),fun _ => hcount,?_⟩
      simp [hlatched,hbefore,hcount _ hrecovery.2]
    | false =>
      have hbefore : ¬ Latched policy.normalized kinds := by simp [← h.critical,hcritical]
      simp only [updateCheck,Sample.kind,hcritical]
      refine ⟨counts_zero (by decide),fun htrue => ?_,?_⟩
      · cases htrue
      · simp [hlatched,hbefore,hfailed]

theorem tracks_foldl (policy : DoctorPolicy) (samples : List Sample) :
    Tracks policy.normalized (samples.map Sample.kind)
      (samples.foldl (updateCheck policy.normalized) {}) := by
  induction samples using List.reverseRecOn with
  | nil =>
    have hbounds := (normalized_bounds policy).1.1
    have hnil : ∀ kind, Counts kind [] 0 := by
      intro kind n _
      rw [suffix_nil,replicate_eq_nil_iff,Nat.le_zero]
    refine ⟨hnil _,fun _ => hnil _,iff_of_false Bool.false_ne_true fun h => ?_⟩
    obtain ⟨before,after,hsplit,hbefore,-⟩ := h
    rw [(append_eq_nil_iff.mp hsplit.symm).1,suffix_nil,replicate_eq_nil_iff] at hbefore
    omega
  | append_singleton samples sample ih =>
    rw [map_append,foldl_append]
    exact ih.update sample

theorem observeAll_eq (policy : DoctorPolicy) (observations : List Observation) :
    (observeAll policy observations).database =
        (observations.map databaseSample).foldl (updateCheck policy) {} ∧
      (observeAll policy observations).memory =
        (observations.map (memorySample policy)).foldl (updateCheck policy) {} ∧
      (observeAll policy observations).disk =
        (observations.map (diskSample policy)).foldl (updateCheck policy) {} ∧
      (observeAll policy observations).isProtected =
        ((observeAll policy observations).memory.critical ||
          (observeAll policy observations).disk.critical) := by
  induction observations using List.reverseRecOn with
  | nil => exact ⟨rfl,rfl,rfl,rfl⟩
  | append_singleton observations seen ih =>
    simp only [observeAll] at ih ⊢
    simp [observe,ih]

end

/-- A check is critical exactly while a confirmed run of failures has not been followed by a run of
good samples, and protection follows the memory and the disk. -/
theorem doctor_critical_iff (policy : DoctorPolicy) (observations : List Observation) :
    let report := observeAll policy.normalized observations
    (report.database.critical=true ↔
      Latched policy.normalized (observations.map fun seen => (databaseSample seen).kind)) ∧
    (report.memory.critical=true ↔ Latched policy.normalized
      (observations.map fun seen => (memorySample policy.normalized seen).kind)) ∧
    (report.disk.critical=true ↔ Latched policy.normalized
      (observations.map fun seen => (diskSample policy.normalized seen).kind)) ∧
    (report.isProtected=true ↔ report.memory.critical=true ∨ report.disk.critical=true) := by
  obtain ⟨hdatabase,hmemory,hdisk,hprotected⟩ := observeAll_eq policy.normalized observations
  have hcritical := fun samples => (tracks_foldl policy samples).critical
  simp only [hprotected,Bool.or_eq_true,hdatabase,hmemory,hdisk,hcritical,List.map_map,
    Function.comp_def,and_self]

end MiniErp.Doctor
