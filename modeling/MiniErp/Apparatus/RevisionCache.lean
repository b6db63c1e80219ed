import MiniErp.Lib.Steps

/-! The read caches of the apparatus service. Calls run in any interleaving; a call is split where
it awaits a lock or the repository. -/
namespace MiniErp.Apparatus
open Steps

structure CanonicalRevision (δ : Type*) where
  number : Nat
  draft : δ

inductive CanonicalRevisionIntent (α δ : Type*) where
  | create (apparatusId : α) (draft : δ)
  | update (apparatusId : α) (expectedRevision : Nat) (draft : δ)
  | patch (apparatusId : α) (expectedRevision : Nat) (patch : δ → δ)
  | replaceFromAasx (apparatusId : α) (expectedRevision : Nat) (draft : δ)
  | retire (apparatusId : α) (expectedRevision : Nat) (retirement : δ → δ)

inductive CanonicalApparatusError where
  | alreadyExists
  | notFound
  | revisionConflict
  deriving DecidableEq

section Repository
variable {α δ : Type*}

def CanonicalRevisionIntent.apparatusId : CanonicalRevisionIntent α δ → α
  | .create id _ => id
  | .update id _ _ => id
  | .patch id _ _ => id
  | .replaceFromAasx id _ _ => id
  | .retire id _ _ => id

def CanonicalRevisionIntent.expectedRevision : CanonicalRevisionIntent α δ → Option Nat
  | .create _ _ => none
  | .update _ expected _ => some expected
  | .patch _ expected _ => some expected
  | .replaceFromAasx _ expected _ => some expected
  | .retire _ expected _ => some expected

def materializeRevision (current : Option (CanonicalRevision δ)) :
    CanonicalRevisionIntent α δ → Except CanonicalApparatusError (CanonicalRevision δ)
  | .create _ draft =>
    match current with
    | some _ => .error .alreadyExists
    | none => .ok ⟨1,draft⟩
  | .update _ _ draft | .replaceFromAasx _ _ draft => .ok ⟨(current.map (·.number)).getD 0+1,draft⟩
  | .patch _ _ change | .retire _ _ change =>
    match current with
    | none => .error .notFound
    | some current => .ok ⟨current.number+1,change current.draft⟩

/-- The revision a commit writes. What else can refuse it is an event of the run. -/
def commitRevision (current : Option (CanonicalRevision δ)) (intent : CanonicalRevisionIntent α δ) :
    Except CanonicalApparatusError (CanonicalRevision δ) :=
  match intent.expectedRevision, current with
  | none, some _ => .error .alreadyExists
  | some _, none => .error .notFound
  | some expected, some revision =>
    if revision.number≠expected then .error .revisionConflict
    else materializeRevision current intent
  | none, none => materializeRevision current intent

end Repository

inductive View where
  | projection
  | configuration
  deriving DecidableEq

/-- What the holder of the runtime cache does once it has the other cache too. -/
inductive Eviction (α : Type*) where
  | cutover (ids : List α)
  | invalidate

/-- Where a call is. A call of the service is made once. -/
inductive Call (α δ : Type*) where
  | idle
  | looking (view : View) (id : α) (generation : Nat)
  | fetching (view : View) (id : α) (generation : Nat)
  | filling (view : View) (id : α) (generation : Nat) (answer : Option (CanonicalRevision δ))
  | answered (view : View) (id : α) (answer : Option (CanonicalRevision δ))
  | committing (intent : CanonicalRevisionIntent α δ)
  | evicting (view : View) (id : α) (revision : CanonicalRevision δ)
  | committed (id : α) (revision : CanonicalRevision δ)
  | preflight
  | cutting (plan : List (α × δ))
  | waiting (eviction : Eviction α)
  | locked
  | finished
  | failed

structure ServiceState (α δ : Type*) where
  repository : α → Option (CanonicalRevision δ)
  cacheGeneration : Nat
  cache : View → α → Option (CanonicalRevision δ)
  /-- The call that holds the runtime cache while it awaits the other one. -/
  runtimeHeld : Option (Nat × Eviction α)
  calls : Nat → Call α δ

namespace ServiceState
variable {α δ : Type*}

def new (repository : α → Option (CanonicalRevision δ)) : ServiceState α δ where
  repository := repository
  cacheGeneration := 0
  cache := fun _ _ => none
  runtimeHeld := none
  calls := fun _ => .idle

def setCall (s : ServiceState α δ) (i : Nat) (call : Call α δ) : ServiceState α δ :=
  { s with calls := Function.update s.calls i call }

def free (s : ServiceState α δ) : View → Bool
  | .projection => s.runtimeHeld.isNone
  | .configuration => true

variable [DecidableEq α]

section
variable (s : ServiceState α δ)

def setCache (view : View) (id : α) (value : Option (CanonicalRevision δ)) : ServiceState α δ :=
  { s with cache := Function.update s.cache view (Function.update (s.cache view) id value) }

/-- The cache is asked; a miss goes to the repository. -/
def lookup (i : Nat) : Option (ServiceState α δ) :=
  match s.calls i with
  | .looking view id generation =>
    if s.free view then
      match s.cache view id with
      | some cached => some (s.setCall i (.answered view id (some cached)))
      | none => some (s.setCall i (.fetching view id generation))
    else none
  | _ => none

def fetch (i : Nat) (ok : Bool) : Option (ServiceState α δ) :=
  match s.calls i with
  | .fetching view id generation =>
    some (s.setCall i (if ok then .filling view id generation (s.repository id) else .failed))
  | _ => none

/-- The answer is stored unless the generation has moved, in which case the call starts over. -/
def fill (i : Nat) : Option (ServiceState α δ) :=
  match s.calls i with
  | .filling view id generation answer =>
    if s.free view then
      if s.cacheGeneration≠generation then
        some (s.setCall i (.looking view id s.cacheGeneration))
      else
        match answer with
        | some revision =>
          some ((s.setCache view id (some revision)).setCall i (.answered view id (some revision)))
        | none => some (s.setCall i (.answered view id none))
    else none
  | _ => none

def commit (i : Nat) (accepted : Bool) : Option (ServiceState α δ) :=
  match s.calls i with
  | .committing intent =>
    match accepted, commitRevision (s.repository intent.apparatusId) intent with
    | true, .ok revision =>
      some ({ s with repository :=
          Function.update s.repository intent.apparatusId (some revision) }.setCall i
        (.evicting .projection intent.apparatusId revision))
    | _, _ => some (s.setCall i .failed)
  | _ => none

/-- The runtime cache first, then the configurations. -/
def evict (i : Nat) : Option (ServiceState α δ) :=
  match s.calls i with
  | .evicting view id revision =>
    if s.free view then
      some ((s.setCache view id none).setCall i (match view with
        | .projection => .evicting .configuration id revision
        | .configuration => .committed id revision))
    else none
  | _ => none

/-- A plan is made from the report, or refused. -/
def prepare (i : Nat) (plan : Option (List (α × δ))) : Option (ServiceState α δ) :=
  match s.calls i with
  | .preflight => some (s.setCall i (match plan with
      | some plan => .cutting plan
      | none => .failed))
  | _ => none

end

/-- The first revisions of apparatuses that have none. -/
def commitPlan (repository : α → Option (CanonicalRevision δ)) (plan : List (α × δ)) :
    α → Option (CanonicalRevision δ) :=
  plan.foldl (fun repository entry => Function.update repository entry.1 (some ⟨1,entry.2⟩))
    repository

section
variable (s : ServiceState α δ) (i : Nat)

def commitCutover (accepted : Bool) : Option (ServiceState α δ) :=
  match s.calls i with
  | .cutting plan =>
    if accepted && plan.all fun entry => (s.repository entry.1).isNone then
      some ({ s with repository := commitPlan s.repository plan }.setCall i
        (.waiting (.cutover (plan.map Prod.fst))))
    else some (s.setCall i .failed)
  | _ => none

def lockRuntime : Option (ServiceState α δ) :=
  match s.calls i with
  | .waiting eviction =>
    if s.free .projection then
      some ({ s with runtimeHeld := some (i, eviction) }.setCall i .locked)
    else none
  | _ => none

/-- Both caches are held: they are changed and given back. -/
def release : Eviction α → ServiceState α δ
  | .cutover ids =>
    { s with
      cache := fun view id => if id∈ids then none else s.cache view id
      runtimeHeld := none }.setCall i .finished
  | .invalidate =>
    { s with
      cacheGeneration := s.cacheGeneration+1
      cache := fun _ _ => none
      runtimeHeld := none }.setCall i .finished

def lockConfiguration : Option (ServiceState α δ) :=
  match s.runtimeHeld with
  | some (holder, eviction) => if holder=i then some (s.release i eviction) else none
  | none => none

def start (call : Call α δ) : Option (ServiceState α δ) :=
  match s.calls i with
  | .idle => some (s.setCall i call)
  | _ => none

end

end ServiceState

inductive ServiceEvent (α δ : Type*) where
  | currentRevision (i : Nat) (view : View) (id : α)
  | lookup (i : Nat)
  | fetch (i : Nat) (ok : Bool)
  | fill (i : Nat)
  | commitIntent (i : Nat) (intent : CanonicalRevisionIntent α δ)
  | commit (i : Nat) (accepted : Bool)
  | evict (i : Nat)
  | applyLegacyCutover (i : Nat)
  | prepare (i : Nat) (plan : Option (List (α × δ)))
  | commitCutover (i : Nat) (accepted : Bool)
  | invalidateRuntimeCaches (i : Nat)
  | lockRuntime (i : Nat)
  | lockConfiguration (i : Nat)

variable {α δ : Type*} [DecidableEq α]

/-- `currentRevision` begins `current_projection` or `current_configuration`. -/
def serviceStep (s : ServiceState α δ) : ServiceEvent α δ → Option (ServiceState α δ)
  | .currentRevision i view id => s.start i (.looking view id s.cacheGeneration)
  | .lookup i => s.lookup i
  | .fetch i ok => s.fetch i ok
  | .fill i => s.fill i
  | .commitIntent i intent => s.start i (.committing intent)
  | .commit i accepted => s.commit i accepted
  | .evict i => s.evict i
  | .applyLegacyCutover i => s.start i .preflight
  | .prepare i plan => s.prepare i plan
  | .commitCutover i accepted => s.commitCutover i accepted
  | .invalidateRuntimeCaches i => s.start i (.waiting .invalidate)
  | .lockRuntime i => s.lockRuntime i
  | .lockConfiguration i => s.lockConfiguration i

def ReachableService (s : ServiceState α δ) : Prop :=
  ∃ repository events, run serviceStep (.new repository) events=some s

end MiniErp.Apparatus
