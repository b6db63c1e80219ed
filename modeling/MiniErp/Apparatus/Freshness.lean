import MiniErp.Apparatus.RevisionCache

/-! What a reader sees after a commit has returned. A read that was answered by the repository
before the commit may store its answer after it, since only an invalidation moves the generation
that the read goes by. -/
namespace MiniErp.Apparatus
open Steps Option
variable {α δ : Type*}

/- Every reachable state. -/

/-- The generation a read in flight goes by. -/
def Call.generation : Call α δ → Nat
  | .looking _ _ generation => generation
  | .fetching _ _ generation => generation
  | .filling _ _ generation _ => generation
  | _ => 0

def Call.Plain : Call α δ → Prop
  | .committing _ => True
  | .preflight => True
  | .cutting _ => True
  | .waiting _ => True
  | .failed => True
  | _ => False

structure ServiceState.Ok (s : ServiceState α δ) : Prop where
  generation : ∀ i, (s.calls i).generation ≤ s.cacheGeneration
  held : ∀ i eviction, s.runtimeHeld=some (i, eviction) → s.calls i=.locked
  bounded : ∃ n, ∀ i, n ≤ i → s.calls i=.idle

namespace ServiceState
variable {s t : ServiceState α δ} {i j : Nat} {call : Call α δ}

theorem setCall_calls : (s.setCall i call).calls j=if j=i then call else s.calls j := by
  simp [setCall,Function.update_apply]

@[simp] theorem setCall_cache : (s.setCall i call).cache=s.cache := rfl
@[simp] theorem setCall_generation : (s.setCall i call).cacheGeneration=s.cacheGeneration := rfl

theorem Ok.setCall (h : s.Ok) (hheld : s.calls i ≠ .locked)
    (hgeneration : call.generation ≤ s.cacheGeneration) : (s.setCall i call).Ok := by
  constructor
  · intro j
    rw [setCall_calls]
    split
    · exact hgeneration
    · exact h.generation j
  · intro j eviction hj
    have hlocked := h.held j eviction hj
    rw [setCall_calls,if_neg]
    · exact hlocked
    · intro heq
      rw [heq] at hlocked
      exact hheld hlocked
  · obtain ⟨n,hn⟩ := h.bounded
    refine ⟨max n (i+1),fun j hj => ?_⟩
    rw [setCall_calls,if_neg (by omega)]
    exact hn j (by omega)

variable [DecidableEq α]

theorem setCache_cache {view view' : View} {id id' : α} {value : Option (CanonicalRevision δ)} :
    (s.setCache view id value).cache view' id' =
      if view'=view ∧ id'=id then value else s.cache view' id' := by
  by_cases hview : view'=view
  · subst hview
    simp [setCache,Function.update_apply]
  · simp [setCache,hview]

variable {eviction : Eviction α}

theorem release_calls : (s.release i eviction).calls j=if j=i then .finished else s.calls j := by
  cases eviction with
  | cutover ids => exact setCall_calls
  | invalidate => exact setCall_calls

theorem release_held : (s.release i eviction).runtimeHeld=none := by
  cases eviction with
  | cutover ids => rfl
  | invalidate => rfl

theorem release_repository : (s.release i eviction).repository=s.repository := by
  cases eviction with
  | cutover ids => rfl
  | invalidate => rfl

theorem le_release_generation : s.cacheGeneration≤(s.release i eviction).cacheGeneration := by
  cases eviction with
  | cutover ids => exact Nat.le_refl _
  | invalidate => exact Nat.le_succ _

/-- Everything a step can do. -/
inductive Effect (s : ServiceState α δ) : ServiceState α δ → Prop
  | reading (i : Nat) (view : View) (id : α) (hcall : s.calls i=.idle) :
      Effect s (s.setCall i (.looking view id s.cacheGeneration))
  | writing (i : Nat) (call : Call α δ) (hcall : s.calls i ≠ .locked)
      (hplain : call.Plain) : Effect s (s.setCall i call)
  | hit (i : Nat) (view : View) (id : α) (g : Nat) (revision : CanonicalRevision δ)
      (hcall : s.calls i=.looking view id g) (hfree : s.free view=true)
      (hcached : s.cache view id=some revision) :
      Effect s (s.setCall i (.answered view id (some revision)))
  | miss (i : Nat) (view : View) (id : α) (g : Nat) (hcall : s.calls i=.looking view id g) :
      Effect s (s.setCall i (.fetching view id g))
  | fetched (i : Nat) (view : View) (id : α) (g : Nat) (hcall : s.calls i=.fetching view id g) :
      Effect s (s.setCall i (.filling view id g (s.repository id)))
  | retried (i : Nat) (view : View) (id : α) (g : Nat) (answer : Option (CanonicalRevision δ))
      (hcall : s.calls i=.filling view id g answer) :
      Effect s (s.setCall i (.looking view id s.cacheGeneration))
  | filled (i : Nat) (view : View) (id : α) (revision : CanonicalRevision δ)
      (hcall : s.calls i=.filling view id s.cacheGeneration (some revision))
      (hfree : s.free view=true) :
      Effect s ((s.setCache view id (some revision)).setCall i (.answered view id (some revision)))
  | absent (i : Nat) (view : View) (id : α) (g : Nat)
      (hcall : s.calls i=.filling view id g none) :
      Effect s (s.setCall i (.answered view id none))
  | committed (i : Nat) (intent : CanonicalRevisionIntent α δ) (revision : CanonicalRevision δ)
      (hcall : s.calls i=.committing intent)
      (hcommit : commitRevision (s.repository intent.apparatusId) intent=.ok revision) :
      Effect s ({ s with repository :=
          Function.update s.repository intent.apparatusId (some revision) }.setCall i
        (.evicting .projection intent.apparatusId revision))
  | evicted (i : Nat) (view : View) (id : α) (revision : CanonicalRevision δ) (call : Call α δ)
      (hcall : s.calls i=.evicting view id revision)
      (hnext : call=.evicting .configuration id revision ∨ call=.committed id revision) :
      Effect s ((s.setCache view id none).setCall i call)
  | cut (i : Nat) (plan : List (α × δ)) (hcall : s.calls i=.cutting plan)
      (hplan : ∀ entry∈plan, s.repository entry.1=none) :
      Effect s ({ s with repository := commitPlan s.repository plan }.setCall i
        (.waiting (.cutover (plan.map Prod.fst))))
  | lockedRuntime (i : Nat) (eviction : Eviction α) (hcall : s.calls i=.waiting eviction)
      (hfree : s.runtimeHeld=none) :
      Effect s ({ s with runtimeHeld := some (i, eviction) }.setCall i .locked)
  | released (i : Nat) (eviction : Eviction α) (hheld : s.runtimeHeld=some (i, eviction)) :
      Effect s (s.release i eviction)

end ServiceState

open ServiceState
variable {s t : ServiceState α δ}

theorem start_effect {i : Nat} {call : Call α δ} (h : s.start i call=some t) :
    s.calls i=.idle ∧ t=s.setCall i call := by
  simp only [start] at h
  split at h
  · rename_i hcall
    exact ⟨hcall,(some.inj h).symm⟩
  · cases h

variable [DecidableEq α]

theorem effect_of_serviceStep {event : ServiceEvent α δ} (h : serviceStep s event=some t) :
    Effect s t := by
  cases event with
  | currentRevision i view id =>
    obtain ⟨hcall,rfl⟩ := start_effect h
    exact .reading i view id hcall
  | lookup i =>
    simp only [serviceStep,lookup] at h
    split at h
    · rename_i view id g hcall
      split at h
      · rename_i hfree
        split at h
        · rename_i revision hcached
          cases h
          exact .hit i view id g revision hcall hfree hcached
        · cases h
          exact .miss i view id g hcall
      · cases h
    · cases h
  | fetch i ok =>
    simp only [serviceStep,fetch] at h
    split at h
    · rename_i view id g hcall
      cases h
      cases ok with
      | true => exact .fetched i view id g hcall
      | false => exact .writing i .failed (by simp [hcall]) trivial
    · cases h
  | fill i =>
    simp only [serviceStep,fill] at h
    split at h
    · rename_i view id g answer hcall
      split at h
      · rename_i hfree
        split at h
        · cases h
          exact .retried i view id g answer hcall
        · rename_i hgeneration
          rw [not_not] at hgeneration
          cases answer with
          | some revision =>
            cases h
            rw [← hgeneration] at hcall
            exact .filled i view id revision hcall hfree
          | none =>
            cases h
            exact .absent i view id g hcall
      · cases h
    · cases h
  | commitIntent i intent =>
    obtain ⟨hcall,rfl⟩ := start_effect h
    exact .writing i _ (by simp [hcall]) trivial
  | commit i accepted =>
    simp only [serviceStep,commit] at h
    split at h
    · rename_i intent hcall
      split at h
      · rename_i revision hcommit
        cases h
        exact .committed i intent revision hcall hcommit
      · cases h
        exact .writing i .failed (by simp [hcall]) trivial
    · cases h
  | evict i =>
    simp only [serviceStep,evict] at h
    split at h
    · rename_i view id revision hcall
      split at h
      · cases h
        refine .evicted i view id revision _ hcall ?_
        cases view with
        | projection => exact .inl rfl
        | configuration => exact .inr rfl
      · cases h
    · cases h
  | applyLegacyCutover i =>
    obtain ⟨hcall,rfl⟩ := start_effect h
    exact .writing i _ (by simp [hcall]) trivial
  | prepare i plan =>
    simp only [serviceStep,prepare] at h
    split at h
    · rename_i hcall
      cases h
      cases plan with
      | some plan => exact .writing i _ (by simp [hcall]) trivial
      | none => exact .writing i _ (by simp [hcall]) trivial
    · cases h
  | commitCutover i accepted =>
    simp only [serviceStep,commitCutover] at h
    split at h
    · rename_i plan hcall
      split at h
      · rename_i hplan
        cases h
        refine .cut i plan hcall fun entry hentry => ?_
        simp only [Bool.and_eq_true,List.all_eq_true,isNone_iff_eq_none] at hplan
        exact hplan.2 entry hentry
      · cases h
        exact .writing i .failed (by simp [hcall]) trivial
    · cases h
  | invalidateRuntimeCaches i =>
    obtain ⟨hcall,rfl⟩ := start_effect h
    exact .writing i _ (by simp [hcall]) trivial
  | lockRuntime i =>
    simp only [serviceStep,lockRuntime,free,isNone_iff_eq_none] at h
    split at h
    · rename_i eviction hcall
      split at h
      · rename_i hfree
        cases h
        exact .lockedRuntime i eviction hcall hfree
      · cases h
    · cases h
  | lockConfiguration i =>
    simp only [serviceStep,lockConfiguration] at h
    split at h
    · rename_i holder eviction hheld
      split at h
      · rename_i heq
        cases h
        rw [heq] at hheld
        exact .released i eviction hheld
      · cases h
    · cases h

theorem ok_step (h : s.Ok) (heffect : Effect s t) : t.Ok := by
  have hcalls : ∀ repository cache,
      ServiceState.Ok { s with repository := repository, cache := cache } :=
    fun _ _ => ⟨h.generation,h.held,h.bounded⟩
  cases heffect with
  | reading i view id hcall => exact h.setCall (by simp [hcall]) (Nat.le_refl _)
  | writing i call hcall hplain =>
    refine h.setCall hcall ?_
    cases call <;> first | exact Nat.zero_le _ | cases hplain
  | hit i view id g revision hcall _ _ => exact h.setCall (by simp [hcall]) (Nat.zero_le _)
  | miss i view id g hcall =>
    have hg := h.generation i
    rw [hcall] at hg
    exact h.setCall (by simp [hcall]) hg
  | fetched i view id g hcall =>
    have hg := h.generation i
    rw [hcall] at hg
    exact h.setCall (by simp [hcall]) hg
  | retried i view id g answer hcall => exact h.setCall (by simp [hcall]) (Nat.le_refl _)
  | filled i view id revision hcall _ =>
    exact Ok.setCall (hcalls s.repository _) (by simp [hcall,setCache]) (Nat.zero_le _)
  | absent i view id g hcall => exact h.setCall (by simp [hcall]) (Nat.zero_le _)
  | committed i intent revision hcall _ =>
    exact Ok.setCall (hcalls _ s.cache) (by simp [hcall]) (Nat.zero_le _)
  | evicted i view id revision call hcall hnext =>
    refine Ok.setCall (hcalls s.repository _) (by simp [hcall,setCache]) ?_
    cases hnext with
    | inl h => rw [h]; exact Nat.zero_le _
    | inr h => rw [h]; exact Nat.zero_le _
  | cut i plan hcall _ => exact Ok.setCall (hcalls _ s.cache) (by simp [hcall]) (Nat.zero_le _)
  | lockedRuntime i eviction hcall hfree =>
    have hmoved : (s.setCall i .locked).Ok := h.setCall (by simp [hcall]) (Nat.zero_le _)
    refine ⟨hmoved.generation,fun j other hj => ?_,hmoved.bounded⟩
    obtain ⟨rfl,-⟩ := Prod.mk.inj (some.inj hj)
    simp [setCall]
  | released i eviction hheld =>
    constructor
    · intro j
      rw [release_calls]
      split
      · exact Nat.zero_le _
      · exact Nat.le_trans (h.generation j) le_release_generation
    · intro j other hj
      rw [release_held] at hj
      cases hj
    · obtain ⟨n,hn⟩ := h.bounded
      refine ⟨max n (i+1),fun j hj => ?_⟩
      rw [release_calls,if_neg (by omega)]
      exact hn j (by omega)

theorem ok_of_reachable (h : ReachableService s) : s.Ok := by
  obtain ⟨repository,events,hrun⟩ := h
  have hnew : (ServiceState.new repository).Ok :=
    ⟨fun _ => Nat.le_refl _,fun _ _ hheld => (by cases hheld),⟨0,fun _ _ => rfl⟩⟩
  exact run_invariant (fun _ _ _ hs hstep => ok_step hs (effect_of_serviceStep hstep)) hnew hrun

/- Which answers later calls can be given. -/

section
variable (s : ServiceState α δ)

/-- The state in which a call can have the cache: whoever holds the runtime cache is done. -/
def ServiceState.ready : View → ServiceState α δ
  | .configuration => s
  | .projection =>
    match s.runtimeHeld with
    | some (i, eviction) => s.release i eviction
    | none => s

/-- Whether the holder of the runtime cache is going to take the entry out. -/
def ServiceState.hides (view : View) (id : α) : Bool :=
  match view, s.runtimeHeld with
  | .projection, some (_, .cutover ids) => id∈ids
  | .projection, some (_, .invalidate) => true
  | _, _ => false

def ServiceState.nextGeneration (view : View) : Nat :=
  match view, s.runtimeHeld with
  | .projection, some (_, .invalidate) => s.cacheGeneration+1
  | _, _ => s.cacheGeneration

/-- Only a holder of the runtime cache makes a call wait. -/
theorem ready_cases (view : View) : s.ready view=s ∧ s.free view=true ∨ ∃ i eviction, view =
    .projection ∧ s.runtimeHeld=some (i, eviction) ∧ s.ready view=s.release i eviction := by
  cases view with
  | configuration => exact .inl ⟨rfl,rfl⟩
  | projection =>
    cases hheld : s.runtimeHeld with
    | none => exact .inl ⟨by simp [ready,hheld],by simp [free,hheld]⟩
    | some holder => exact .inr ⟨holder.1,holder.2,rfl,rfl,by simp [ready,hheld]⟩

end

theorem free_hides {view : View} {id : α} (h : s.free view=true) : s.hides view id=false := by
  cases view with
  | configuration => rfl
  | projection =>
    rw [free,isNone_iff_eq_none] at h
    simp [hides,h]

omit [DecidableEq α] in
theorem free_nextGeneration {view : View} (h : s.free view=true) :
    s.nextGeneration view=s.cacheGeneration := by
  cases view with
  | configuration => rfl
  | projection =>
    rw [free,isNone_iff_eq_none] at h
    simp [nextGeneration,h]

theorem ready_cache (view : View) (id : α) :
    (s.ready view).cache view id=if s.hides view id then none else s.cache view id := by
  obtain ⟨hready,hfree⟩ | ⟨i,eviction,rfl,hheld,hready⟩ := ready_cases s view
  · simp [hready,free_hides hfree]
  · cases eviction <;> simp [hready,hides,hheld,release]

theorem ready_generation (view : View) : (s.ready view).cacheGeneration=s.nextGeneration view := by
  obtain ⟨hready,hfree⟩ | ⟨i,eviction,rfl,hheld,hready⟩ := ready_cases s view
  · rw [hready,free_nextGeneration hfree]
  · cases eviction <;> simp [hready,nextGeneration,hheld,release]

/-- No entry of the cache is older than `r`, and no read in flight can make one. -/
structure Clean (id : α) (r : Nat) (view : View) (s : ServiceState α δ) : Prop where
  cached : ∀ revision, (s.ready view).cache view id=some revision → r ≤ revision.number
  filling : ∀ i g revision, s.calls i=.filling view id g (some revision) →
    g=(s.ready view).cacheGeneration → r ≤ revision.number

/-- What stays true once it is: `late` are the calls that were not made yet. -/
structure Fresh (id : α) (r : Nat) (late : Nat → Prop) (s : ServiceState α δ) : Prop where
  current : ∃ revision, s.repository id=some revision ∧ r ≤ revision.number
  clean : ∀ view, Clean id r view s
  filling : ∀ j, late j → ∀ view g answer, s.calls j=.filling view id g answer →
    ∃ revision, answer=some revision ∧ r ≤ revision.number
  answered : ∀ j, late j → ∀ view answer, s.calls j=.answered view id answer →
    ∃ revision, answer=some revision ∧ r ≤ revision.number

section Fresh
variable {id : α} {r : Nat} {late : Nat → Prop} {view : View} {i : Nat}

theorem clean_iff : Clean id r view s ↔
    (∀ revision, s.hides view id=false → s.cache view id=some revision → r ≤ revision.number) ∧
    ∀ i g revision, s.calls i=.filling view id g (some revision) → g=s.nextGeneration view →
      r ≤ revision.number := by
  have hcached : ∀ revision, (s.ready view).cache view id=some revision ↔
      s.hides view id=false ∧ s.cache view id=some revision := by
    rw [ready_cache]
    cases s.hides view id <;> simp
  constructor
  · intro h
    refine ⟨fun revision hides hcache => h.cached revision ((hcached revision).mpr ⟨hides,hcache⟩),
      fun i g revision hcall hg => h.filling i g revision hcall ?_⟩
    rw [ready_generation,hg]
  · intro h
    refine ⟨fun revision hrevision => ?_,fun i g revision hcall hg => ?_⟩
    · obtain ⟨hides,hcache⟩ := (hcached revision).mp hrevision
      exact h.1 revision hides hcache
    · rw [ready_generation] at hg
      exact h.2 i g revision hcall hg

/-- The answer in a call, if it is one about `id`, is not older than `r`. -/
structure Call.Recent (id : α) (r : Nat) (call : Call α δ) : Prop where
  filling : ∀ view g answer, call=.filling view id g answer →
    ∃ revision, answer=some revision ∧ r ≤ revision.number
  answered : ∀ view answer, call=.answered view id answer →
    ∃ revision, answer=some revision ∧ r ≤ revision.number

section
variable (h : Fresh id r late s)
include h

theorem Fresh.setCall {call : Call α δ}
    (hfilling : ∀ view g revision, call=.filling view id g (some revision) → r ≤ revision.number)
    (hlate : late i → call.Recent id r) : Fresh id r late (s.setCall i call) := by
  refine ⟨h.current,fun view => ?_,fun j hj view g answer hcall => ?_,
    fun j hj view answer hcall => ?_⟩
  · have hclean := clean_iff.mp (h.clean view)
    refine clean_iff.mpr ⟨hclean.1,fun j g revision hcall hg => ?_⟩
    rw [setCall_calls] at hcall
    split at hcall
    · exact hfilling view g revision hcall
    · exact hclean.2 j g revision hcall hg
  · rw [setCall_calls] at hcall
    split at hcall
    · rename_i heq
      exact (hlate (heq ▸ hj)).filling view g answer hcall
    · exact h.filling j hj view g answer hcall
  · rw [setCall_calls] at hcall
    split at hcall
    · rename_i heq
      exact (hlate (heq ▸ hj)).answered view answer hcall
    · exact h.answered j hj view answer hcall

theorem Fresh.setCall_plain {call : Call α δ}
    (hfilling : ∀ view g answer, call ≠ .filling view id g answer)
    (hanswered : ∀ view answer, call ≠ .answered view id answer) :
    Fresh id r late (s.setCall i call) :=
  h.setCall (fun view g revision hcall => absurd hcall (hfilling view g (some revision)))
    fun _ => ⟨fun view g answer hcall => absurd hcall (hfilling view g answer),
      fun view answer hcall => absurd hcall (hanswered view answer)⟩

theorem Fresh.setCache {id' : α} {value : Option (CanonicalRevision δ)}
    (hvalue : ∀ revision, value=some revision → id'=id → r ≤ revision.number) :
    Fresh id r late (s.setCache view id' value) := by
  refine ⟨h.current,fun view' => ?_,h.filling,h.answered⟩
  have hclean := clean_iff.mp (h.clean view')
  refine clean_iff.mpr ⟨fun revision hides hcache => ?_,hclean.2⟩
  rw [setCache_cache] at hcache
  split at hcache
  · rename_i hplace
    exact hvalue revision hcache hplace.2.symm
  · exact hclean.1 revision hides hcache

theorem Fresh.setRepository {repository : α → Option (CanonicalRevision δ)}
    (hcurrent : ∃ revision, repository id=some revision ∧ r ≤ revision.number) :
    Fresh id r late { s with repository } := by
  refine ⟨hcurrent,fun view => ?_,h.filling,h.answered⟩
  have hclean := clean_iff.mp (h.clean view)
  exact clean_iff.mpr ⟨hclean.1,hclean.2⟩

end

/-- A holder of the runtime cache can only take entries out and end the generation. -/
theorem Fresh.hold (hok : s.Ok) (h : Fresh id r late s) (hfree : s.runtimeHeld=none)
    (eviction : Eviction α) : Fresh id r late { s with runtimeHeld := some (i, eviction) } := by
  refine ⟨h.current,fun view => ?_,h.filling,h.answered⟩
  have hclean := clean_iff.mp (h.clean view)
  have hfreeView : s.free view=true := by
    cases view with
    | projection => simp [free,hfree]
    | configuration => rfl
  refine clean_iff.mpr ⟨fun revision _ hcache => hclean.1 revision (free_hides hfreeView) hcache,
    fun j g revision hcall hg => hclean.2 j g revision hcall ?_⟩
  rw [free_nextGeneration hfreeView]
  have hle := hok.generation j
  rw [hcall,Call.generation] at hle
  cases view with
  | configuration => exact hg
  | projection =>
    cases eviction with
    | cutover ids => exact hg
    | invalidate =>
      have hsucc : g=s.cacheGeneration+1 := hg
      omega

theorem Fresh.release (hok : s.Ok) (h : Fresh id r late s) {eviction : Eviction α}
    (hheld : s.runtimeHeld=some (i, eviction)) : Fresh id r late (s.release i eviction) := by
  have hcalls : ∀ j call, (s.release i eviction).calls j=call → call ≠ .finished →
      s.calls j=call := by
    intro j call hj hne
    rw [release_calls] at hj
    split at hj
    · exact absurd hj.symm hne
    · exact hj
  refine ⟨by rw [release_repository]; exact h.current,fun view => ?_,
    fun j hj view g answer hcall => h.filling j hj view g answer (hcalls j _ hcall (by simp)),
    fun j hj view answer hcall => h.answered j hj view answer (hcalls j _ hcall (by simp))⟩
  have hclean := clean_iff.mp (h.clean view)
  have hfree : (s.release i eviction).free view=true := by
    cases view with
    | projection => simp [free,release_held]
    | configuration => rfl
  refine clean_iff.mpr ⟨fun revision _ hcache => ?_,fun j g revision hcall hg => ?_⟩
  · cases eviction with
    | cutover ids =>
      have hmem : ¬ id∈ids ∧ s.cache view id=some revision := by
        simpa [ServiceState.release] using hcache
      refine hclean.1 revision ?_ hmem.2
      cases view with
      | configuration => rfl
      | projection => simp [hides,hheld,hmem.1]
    | invalidate => cases hcache
  · have hcall' := hcalls j _ hcall (by simp)
    rw [free_nextGeneration hfree] at hg
    have hle := hok.generation j
    rw [hcall',Call.generation] at hle
    cases eviction with
    | cutover ids =>
      refine hclean.2 j g revision hcall' ?_
      cases view with
      | configuration => exact hg
      | projection =>
        simp only [nextGeneration,hheld]
        exact hg
    | invalidate =>
      have hsucc : g=s.cacheGeneration+1 := hg
      omega

omit [DecidableEq α] in
theorem commitRevision_number {current revision : CanonicalRevision δ}
    {intent : CanonicalRevisionIntent α δ}
    (h : commitRevision (some current) intent=.ok revision) :
    current.number < revision.number := by
  cases intent with
  | create id draft => cases h
  | _ =>
    simp only [commitRevision,CanonicalRevisionIntent.expectedRevision,materializeRevision] at h
    split at h
    · cases h
    · cases h
      simp

theorem commitPlan_of_notMem {repository : α → Option (CanonicalRevision δ)} {plan : List (α × δ)}
    (h : ∀ entry∈plan, entry.1≠id) : commitPlan repository plan id=repository id := by
  induction plan generalizing repository with
  | nil => rfl
  | cons entry rest ih =>
    have hne : id≠entry.1 := Ne.symm (h entry List.mem_cons_self)
    rw [commitPlan,List.foldl_cons,← commitPlan,
      ih fun other hother => h other (List.mem_cons_of_mem entry hother),Function.update_of_ne hne]

theorem commitPlan_of_some {plan : List (α × δ)} {current : CanonicalRevision δ}
    (hplan : ∀ entry∈plan, s.repository entry.1=none) (hcurrent : s.repository id=some current) :
    commitPlan s.repository plan id=s.repository id := by
  apply commitPlan_of_notMem
  intro entry hentry heq
  have hnone := hplan entry hentry
  rw [heq,hcurrent] at hnone
  cases hnone

theorem fresh_step (hok : s.Ok) (h : Fresh id r late s) (heffect : Effect s t) :
    Fresh id r late t := by
  cases heffect with
  | reading i view' id' _ => exact h.setCall_plain (by simp) (by simp)
  | writing i call _ hplain =>
    refine h.setCall_plain ?_ ?_
    · rintro view g answer rfl
      exact hplain
    · rintro view answer rfl
      exact hplain
  | hit i view' id' g revision hcall hfree hcached =>
    refine h.setCall (by simp) fun hi => ⟨by simp,fun view answer hanswer => ?_⟩
    cases hanswer
    exact ⟨revision,rfl,(clean_iff.mp (h.clean view')).1 revision (free_hides hfree) hcached⟩
  | miss i view' id' g _ => exact h.setCall_plain (by simp) (by simp)
  | fetched i view' id' g hcall =>
    obtain ⟨current,hcurrent,hr⟩ := h.current
    refine h.setCall (fun view g' revision heq => ?_) fun hi => ⟨fun view g' answer heq => ?_,by simp⟩
    · obtain ⟨-,rfl,-,hanswer⟩ := Call.filling.inj heq
      rw [hcurrent] at hanswer
      rw [← some.inj hanswer]
      exact hr
    · obtain ⟨-,rfl,-,hanswer⟩ := Call.filling.inj heq
      exact ⟨current,hanswer.symm.trans hcurrent,hr⟩
  | retried i view' id' g answer _ => exact h.setCall_plain (by simp) (by simp)
  | filled i view' id' revision hcall hfree =>
    have hrecent : id'=id → r ≤ revision.number := by
      intro heq
      rw [heq] at hcall
      exact (clean_iff.mp (h.clean view')).2 i _ revision hcall (free_nextGeneration hfree).symm
    refine (h.setCache fun value hvalue heq => ?_).setCall (by simp) fun hi =>
      ⟨by simp,fun view answer hanswer => ?_⟩
    · rw [← some.inj hvalue]
      exact hrecent heq
    · cases hanswer
      exact ⟨revision,rfl,hrecent rfl⟩
  | absent i view' id' g hcall =>
    refine h.setCall (by simp) fun hi => ⟨by simp,fun view answer hanswer => ?_⟩
    cases hanswer
    exact h.filling i hi view' g none hcall
  | committed i intent revision hcall hcommit =>
    refine (h.setRepository ?_).setCall_plain (by simp) (by simp)
    obtain ⟨current,hcurrent,hr⟩ := h.current
    by_cases heq : intent.apparatusId=id
    · rw [heq,hcurrent] at hcommit
      have hlt := commitRevision_number hcommit
      exact ⟨revision,by simp [heq],by omega⟩
    · exact ⟨current,by simp [Function.update_of_ne (Ne.symm heq),hcurrent],hr⟩
  | evicted i view' id' revision call _ hnext =>
    have hplain : (∀ view g answer, call ≠ .filling view id g answer) ∧
        ∀ view answer, call ≠ .answered view id answer := by
      cases hnext with
      | inl hcall => simp [hcall]
      | inr hcall => simp [hcall]
    exact (h.setCache (by simp)).setCall_plain hplain.1 hplain.2
  | cut i plan _ hplan =>
    refine (h.setRepository ?_).setCall_plain (by simp) (by simp)
    obtain ⟨current,hcurrent,hr⟩ := h.current
    refine ⟨current,?_,hr⟩
    exact (commitPlan_of_some hplan hcurrent).trans hcurrent
  | lockedRuntime i eviction _ hfree =>
    exact (h.hold hok hfree eviction).setCall_plain (by simp) (by simp)
  | released i eviction hheld => exact h.release hok hheld

end Fresh

/- A committed revision stays below what the repository has. -/

def Stored (s : ServiceState α δ) : Prop :=
  ∀ i id revision, (∃ view, s.calls i=.evicting view id revision) ∨
      s.calls i=.committed id revision →
    ∃ current, s.repository id=some current ∧ revision.number ≤ current.number

section Stored
variable {i : Nat} {call : Call α δ}

omit [DecidableEq α] in
theorem Stored.setCall (h : Stored s)
    (hcall : ∀ id revision, (∃ view, call=.evicting view id revision) ∨
        call=.committed id revision →
      ∃ current, s.repository id=some current ∧ revision.number ≤ current.number) :
    Stored (s.setCall i call) := by
  intro j id revision hj
  rw [setCall_calls] at hj
  split at hj
  · exact hcall id revision hj
  · exact h j id revision hj

omit [DecidableEq α] in
theorem Stored.setRepository (h : Stored s) {repository : α → Option (CanonicalRevision δ)}
    (hgrows : ∀ id current, s.repository id=some current →
      ∃ next, repository id=some next ∧ current.number≤next.number) :
    Stored { s with repository } := by
  intro j id revision hj
  obtain ⟨current,hcurrent,hle⟩ := h j id revision hj
  obtain ⟨next,hnext,hle'⟩ := hgrows id current hcurrent
  exact ⟨next,hnext,Nat.le_trans hle hle'⟩

theorem stored_step (h : Stored s) (heffect : Effect s t) : Stored t := by
  cases heffect with
  | reading i view id _ => exact h.setCall (by simp)
  | writing i call _ hplain =>
    refine h.setCall ?_
    rintro id revision (⟨view,rfl⟩ | rfl)
    · cases hplain
    · cases hplain
  | hit i view id g revision _ _ _ => exact h.setCall (by simp)
  | miss i view id g _ => exact h.setCall (by simp)
  | fetched i view id g _ => exact h.setCall (by simp)
  | retried i view id g answer _ => exact h.setCall (by simp)
  | filled i view id revision _ _ => exact Stored.setCall h (by simp)
  | absent i view id g _ => exact h.setCall (by simp)
  | committed i intent revision hcall hcommit =>
    refine (h.setRepository fun id current hcurrent => ?_).setCall fun id other hother => ?_
    · by_cases heq : intent.apparatusId=id
      · rw [heq,hcurrent] at hcommit
        have hlt := commitRevision_number hcommit
        exact ⟨revision,by simp [heq],by omega⟩
      · exact ⟨current,by simp [Function.update_of_ne (Ne.symm heq),hcurrent],Nat.le_refl _⟩
    · cases hother with
      | inl hevicting =>
        obtain ⟨view,heq⟩ := hevicting
        obtain ⟨-,rfl,rfl⟩ := Call.evicting.inj heq
        exact ⟨revision,by simp,Nat.le_refl _⟩
      | inr heq => cases heq
  | evicted i view id revision call hcall hnext =>
    have hstored := h i id revision (.inl ⟨view,hcall⟩)
    refine Stored.setCall h fun id' other hother => ?_
    have hsame : id'=id ∧ other=revision := by
      cases hnext with
      | inl hnext => simp_all
      | inr hnext => simp_all
    rw [hsame.1,hsame.2]
    exact hstored
  | cut i plan hcall hplan =>
    refine (h.setRepository fun id current hcurrent => ⟨current,?_,Nat.le_refl _⟩).setCall (by simp)
    exact (commitPlan_of_some hplan hcurrent).trans hcurrent
  | lockedRuntime i eviction _ _ => exact Stored.setCall h (by simp)
  | released i eviction _ =>
    intro j id revision hj
    rw [release_calls] at hj
    rw [release_repository]
    split at hj
    · simp at hj
    · exact h j id revision hj

theorem stored_of_reachable (h : ReachableService s) : Stored s := by
  obtain ⟨repository,events,hrun⟩ := h
  have hnew : Stored (ServiceState.new repository) := by
    intro i id revision hi
    simp [ServiceState.new] at hi
  exact run_invariant (fun _ _ _ hs hstep => stored_step hs (effect_of_serviceStep hstep)) hnew hrun

end Stored

/- How a stale answer is given. -/

section Stale
variable {id : α} {view : View} {i j : Nat} {revision : CanonicalRevision δ}

def readyEvents (s : ServiceState α δ) : View → List (ServiceEvent α δ)
  | .configuration => []
  | .projection =>
    match s.runtimeHeld with
    | some (i, _) => [.lockConfiguration i]
    | none => []

theorem run_readyEvents (view : View) :
    run serviceStep s (readyEvents s view)=some (s.ready view) := by
  cases view with
  | configuration => rfl
  | projection =>
    cases hheld : s.runtimeHeld with
    | none => simp [readyEvents,ready,hheld]
    | some holder => simp [readyEvents,ready,hheld,serviceStep,lockConfiguration]

theorem ready_free (view : View) : (s.ready view).free view=true := by
  obtain ⟨hready,hfree⟩ | ⟨i,eviction,rfl,-,hready⟩ := ready_cases s view
  · rw [hready,hfree]
  · simp [hready,free,release_held]

theorem ready_calls (hok : s.Ok) (hj : s.calls j ≠ .locked) (view : View) :
    (s.ready view).calls j=s.calls j := by
  obtain ⟨hready,-⟩ | ⟨k,eviction,rfl,hheld,hready⟩ := ready_cases s view
  · rw [hready]
  · have hne : j≠k := fun heq => hj (heq ▸ hok.held k eviction hheld)
    rw [hready,release_calls,if_neg hne]

theorem run_lookup (hidle : s.calls j=.idle) (hfree : s.free view=true)
    (hcached : s.cache view id=some revision) :
    ∃ t, run serviceStep s [.currentRevision j view id,.lookup j]=some t ∧
      t.calls j=.answered view id (some revision) := by
  have hfree' : (s.setCall j (.looking view id s.cacheGeneration)).free view=true := by
    cases view with
    | configuration => rfl
    | projection => exact hfree
  refine ⟨(s.setCall j (.looking view id s.cacheGeneration)).setCall j
    (.answered view id (some revision)),?_,by simp [setCall_calls]⟩
  simp [serviceStep,start,hidle,lookup,setCall_calls,hfree',hcached]

theorem run_fill (hcall : s.calls i=.filling view id s.cacheGeneration (some revision))
    (hfree : s.free view=true) :
    serviceStep s (.fill i)=some ((s.setCache view id (some revision)).setCall i
      (.answered view id (some revision))) := by
  simp [serviceStep,fill,hcall,hfree]

/-- Unless the cache is clean, a call that was not made yet can be given an older revision. -/
theorem exists_stale_answer (hok : s.Ok) {r : Nat} (hclean : ¬ Clean id r view s) :
    ∃ events t j stale, run serviceStep s events=some t ∧ s.calls j=.idle ∧
      t.calls j=.answered view id (some stale) ∧ stale.number < r := by
  obtain ⟨n,hn⟩ := hok.bounded
  by_cases hcached : ∀ revision, (s.ready view).cache view id=some revision → r ≤ revision.number
  · have hfilling : ∃ i g revision, s.calls i=.filling view id g (some revision) ∧
        g=(s.ready view).cacheGeneration ∧ revision.number < r := by
      by_contra hno
      refine hclean ⟨hcached,fun i g revision hcall hg => ?_⟩
      by_contra hlt
      exact hno ⟨i,g,revision,hcall,hg,by omega⟩
    obtain ⟨i,g,revision,hcall,rfl,hlt⟩ := hfilling
    have hidle : s.calls (max n (i+1))=.idle := hn _ (by omega)
    have hi : (s.ready view).calls i=.filling view id (s.ready view).cacheGeneration
        (some revision) := by
      rw [ready_calls hok (by simp [hcall])]
      exact hcall
    have hfill := run_fill hi (ready_free view)
    have hj : (((s.ready view).setCache view id (some revision)).setCall i
        (.answered view id (some revision))).calls (max n (i+1))=.idle := by
      rw [setCall_calls,if_neg (by omega)]
      exact (ready_calls hok (by simp [hidle]) view).trans hidle
    have hfree : (((s.ready view).setCache view id (some revision)).setCall i
        (.answered view id (some revision))).free view=true := by
      have h : (s.ready view).free view=true := ready_free view
      cases view with
      | configuration => rfl
      | projection => exact h
    have hstored : (((s.ready view).setCache view id (some revision)).setCall i
        (.answered view id (some revision))).cache view id=some revision := by
      rw [setCall_cache,setCache_cache,if_pos ⟨rfl,rfl⟩]
    obtain ⟨t,hrun,ht⟩ := run_lookup hj hfree hstored
    refine ⟨readyEvents s view++(.fill i :: [.currentRevision (max n (i+1)) view id,
      .lookup (max n (i+1))]),t,max n (i+1),revision,?_,hidle,ht,hlt⟩
    rw [run_append,run_readyEvents,bind_some,run_cons,hfill]
    exact hrun
  · have hstale : ∃ revision, (s.ready view).cache view id=some revision ∧ revision.number < r := by
      by_contra hno
      refine hcached fun revision hrevision => ?_
      by_contra hlt
      exact hno ⟨revision,hrevision,by omega⟩
    obtain ⟨revision,hrevision,hlt⟩ := hstale
    have hidle : s.calls n=.idle := hn n (Nat.le_refl n)
    have hj : (s.ready view).calls n=.idle := (ready_calls hok (by simp [hidle]) view).trans hidle
    obtain ⟨t,hrun,ht⟩ := run_lookup hj (ready_free view) hrevision
    refine ⟨readyEvents s view++[.currentRevision n view id,.lookup n],t,n,revision,?_,
      hidle,ht,hlt⟩
    rw [run_append,run_readyEvents,bind_some]
    exact hrun

end Stale

/-- Once a commit has returned, later calls are answered with its revision or a newer one in every
continuation exactly when neither cache has an older entry and no read in flight has an older
answer under the generation at which it will have the cache. -/
theorem no_stale_revision_iff {s : ServiceState α δ} (hs : ReachableService s) {i : Nat} {id : α}
    {revision : CanonicalRevision δ} (hreturned : s.calls i=.committed id revision) :
    (∀ events t j view answer, run serviceStep s events=some t → s.calls j=.idle →
      t.calls j=.answered view id answer →
        ∃ later, answer=some later ∧ revision.number≤later.number) ↔
    ∀ view, Clean id revision.number view s := by
  have hok := ok_of_reachable hs
  constructor
  · intro h view
    by_contra hclean
    obtain ⟨events,t,j,stale,hrun,hidle,hanswer,hlt⟩ := exists_stale_answer hok hclean
    obtain ⟨later,heq,hle⟩ := h events t j view (some stale) hrun hidle hanswer
    rw [← Option.some.inj heq] at hle
    omega
  · intro hclean events t j view answer hrun hidle hanswer
    have hfresh : Fresh id revision.number (fun j => s.calls j=.idle) s := by
      refine ⟨stored_of_reachable hs i id revision (.inr hreturned),hclean,
        fun j hj view g answer hcall => ?_,fun j hj view answer hcall => ?_⟩
      · rw [hj] at hcall
        cases hcall
      · rw [hj] at hcall
        cases hcall
    have hstep : ∀ (u : ServiceState α δ) event v,
        u.Ok ∧ Fresh id revision.number (fun j => s.calls j=.idle) u →
        serviceStep u event=some v →
        v.Ok ∧ Fresh id revision.number (fun j => s.calls j=.idle) v :=
      fun u event v hu hv => ⟨ok_step hu.1 (effect_of_serviceStep hv),
        fresh_step hu.1 hu.2 (effect_of_serviceStep hv)⟩
    exact (run_invariant hstep ⟨hok,hfresh⟩ hrun).2.answered j hidle view answer hanswer

section Sample

def Call.answeredNumber : Call α δ → Option Nat
  | .answered _ _ answer => answer.map (·.number)
  | _ => none

def Call.committedNumber : Call α δ → Option Nat
  | .committed _ revision => some revision.number
  | _ => none

def Call.isIdle : Call α δ → Bool
  | .idle => true
  | _ => false

/-- The call 0 has revision 1 from the repository when the call 1 commits revision 2. -/
def readThenCommit : List (ServiceEvent Unit Unit) :=
  [.currentRevision 0 .projection (),.lookup 0,.fetch 0 true,
    .commitIntent 1 (.update () 1 ()),.commit 1 true,.evict 1,.evict 1]

/-- The call 0 stores what it has, and the call 2 begins. -/
def fillThenRead : List (ServiceEvent Unit Unit) :=
  [.fill 0,.currentRevision 2 .projection (),.lookup 2]

theorem stale_revision_after_commit :
    (run serviceStep (.new fun _ => some ⟨1,()⟩) readThenCommit).map
      (fun s => ((s.calls 1).committedNumber, (s.calls 2).isIdle))=some (some 2, true) ∧
    (run serviceStep (.new fun _ => some ⟨1,()⟩) (readThenCommit++fillThenRead)).map
      (fun s => (s.calls 2).answeredNumber)=some (some 1) := by
  decide +kernel

def commitAlone : List (ServiceEvent Unit Unit) :=
  [.commitIntent 1 (.update () 1 ()),.commit 1 true,.evict 1,.evict 1]

/-- Without a read in flight all later calls see the commit. -/
theorem no_stale_revision_alone : ∃ s : ServiceState Unit Unit,
      run serviceStep (.new fun _ => some ⟨1,()⟩) commitAlone=some s ∧
      ∀ events t j view answer, run serviceStep s events=some t → s.calls j=.idle →
        t.calls j=.answered view () answer → ∃ later, answer=some later ∧ 2≤later.number := by
  refine ⟨_,rfl,?_⟩
  have hreachable : ReachableService (α := Unit) (δ := Unit) _ :=
    ⟨fun _ => some ⟨1,()⟩,commitAlone,rfl⟩
  have hreturned : _=Call.committed () ⟨2,()⟩ := rfl
  refine (no_stale_revision_iff (i := 1) hreachable hreturned).mpr fun view => ?_
  refine clean_iff.mpr ⟨fun revision _ hcached => ?_,fun i g revision hcall _ => ?_⟩
  · cases view with
    | projection => cases hcached
    | configuration => cases hcached
  · by_cases hi : i=1
    · rw [hi] at hcall
      cases hcall
    · simp [setCall,setCache,ServiceState.new,hi] at hcall

end Sample

end MiniErp.Apparatus
