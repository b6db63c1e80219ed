import MiniErp.Queue.Actions

/-! The strict queue: work starts or continues only at the head of the sequence, the completed and
frozen orders apart. The actions here also return the caller's states as they leave them. -/
namespace MiniErp.Queue
open Text Std Run

/-- `apply_unordered_queue_action` on the caller's states. -/
def applyUnorderedQueueActionMut (states : QueueStates) (orderId : String)
    (action : ApparatusQueueAction) : Except ProductionMapError Unit × QueueStates :=
  let orderId := trim orderId
  if orderId = "" then (.error .missingId, states)
  else if action.takesSlot && otherActive states orderId then
    (.error .queueActionNotAllowed, states)
  else
    match nextQueueState (states[orderId]?.getD .pending) action with
    | .error error => (.error error, states)
    | .ok next => (.ok (), states.insert orderId next)

/-- `apply_queue_action` on the caller's states. -/
def applyQueueActionMut (sequence : List String) (states : QueueStates) (orderId : String)
    (action : ApparatusQueueAction) : Except ProductionMapError Unit × QueueStates :=
  let orderId := trim orderId
  if orderId = "" then (.error .missingId, states)
  else if !(sequence.any fun id => trim id=orderId) then (.error .queueActionNotAllowed, states)
  else if action.takesSlot && firstActionableOrderId sequence states≠some orderId then
    (.error .queueActionNotAllowed, states)
  else applyUnorderedQueueActionMut states orderId action

/-- The answer and the states of an action that has returned. -/
def withStates (states : QueueStates) :
    Except ProductionMapError QueueStates → Except ProductionMapError Unit × QueueStates
  | .ok next => (.ok (), next)
  | .error error => (.error error, states)

variable {sequence : List String} {states : QueueStates} {orderId : String}
  {action : ApparatusQueueAction}

theorem applyUnorderedQueueActionMut_eq : applyUnorderedQueueActionMut states orderId action =
      withStates states (applyUnorderedQueueAction states orderId action) := by
  simp only [applyUnorderedQueueActionMut,applyUnorderedQueueAction]
  by_cases hblank : trim orderId = ""
  · simp [hblank,ensure,withStates,bind,Except.bind]
  · cases hslot : action.takesSlot && otherActive states (trim orderId) with
    | true => simp [hblank,ensure,withStates,bind,Except.bind]
    | false =>
      cases hnext : nextQueueState (states[trim orderId]?.getD .pending) action with
      | ok next => simp [hblank,ensure,withStates,bind,Except.bind,pure,Except.pure]
      | error error => simp [hblank,ensure,withStates,bind,Except.bind]

theorem applyQueueActionMut_eq : applyQueueActionMut sequence states orderId action =
      withStates states (applyQueueAction sequence states orderId action) := by
  simp only [applyQueueActionMut,applyQueueAction,applyUnorderedQueueActionMut_eq]
  by_cases hblank : trim orderId = ""
  · simp [hblank,ensure,withStates,bind,Except.bind]
  · cases hmember : sequence.any fun id => trim id=trim orderId with
    | false => simp [hblank,ensure,withStates,bind,Except.bind]
    | true =>
      cases hfirst : action.takesSlot &&
          firstActionableOrderId sequence states≠some (trim orderId) with
      | true => simp [hblank,ensure,withStates,bind,Except.bind]
      | false => simp [hblank,ensure,bind,Except.bind]

/-- Nothing is left to do for the order here. -/
def isClosed : ApparatusQueueOrderState → Bool
  | .frozen | .completed => true
  | _ => false

def stateOf (states : QueueStates) (id : String) : ApparatusQueueOrderState :=
  states[trim id]?.getD .pending

/-- The places before the first one of the order. -/
def earlier (sequence : List String) (orderId : String) : List String :=
  sequence.takeWhile fun id => trim id≠orderId

/-- An order that is found without being active comes before all other open ones. -/
theorem firstActionableFrom_waiting {waiting : Option String}
    (h : firstActionableFrom states waiting sequence=some orderId)
    (hidle : (states[orderId]?.getD .pending).isActive=false) :
    waiting=some orderId ∨ waiting=none ∧ ∀ id∈earlier sequence orderId,
      trim id ≠ "" → isClosed (stateOf states id)=true := by
  induction sequence generalizing waiting with
  | nil => exact .inl h
  | cons id rest ih =>
    have hcons : ∀ x∈earlier (id::rest) orderId, x=id ∧ trim id≠orderId ∨
        x∈earlier rest orderId := by
      intro x hx
      rw [earlier,List.takeWhile_cons] at hx
      split at hx
      · rename_i hne
        exact (List.mem_cons.mp hx).imp_left fun heq => ⟨heq,by simpa using hne⟩
      · cases hx
    -- an order that waits is the answer, unless one waits already
    have hwait (h : firstActionableFrom states (waiting.or (some (trim id))) rest=some orderId) :
        waiting=some orderId ∨ waiting=none ∧ ∀ x∈earlier (id::rest) orderId,
          trim x ≠ "" → isClosed (stateOf states x)=true := by
      cases waiting with
      | some first => exact .inl (by simpa using ih h)
      | none =>
        have heq : trim id=orderId := by simpa using ih h
        refine .inr ⟨rfl,fun x hx => ?_⟩
        simp [earlier,heq] at hx
    have hskip (hclosed : trim id ≠ "" → isClosed (stateOf states id)=true)
        (h : firstActionableFrom states waiting rest=some orderId) :
        waiting=some orderId ∨ waiting=none ∧ ∀ x∈earlier (id::rest) orderId,
          trim x ≠ "" → isClosed (stateOf states x)=true := by
      refine (ih h).imp_right fun hrest => ⟨hrest.1,fun x hx hx' => ?_⟩
      cases hcons x hx with
      | inl heq =>
        rw [heq.1] at hx' ⊢
        exact hclosed hx'
      | inr hx => exact hrest.2 x hx hx'
    simp only [firstActionableFrom] at h
    split at h
    · rename_i hblank
      exact hskip (fun hne => absurd hblank hne) h
    · split at h
      · rename_i hstate
        rw [← Option.some.inj h,hstate] at hidle
        cases hidle
      · rename_i hstate
        rw [← Option.some.inj h,hstate] at hidle
        cases hidle
      · exact hwait h
      · exact hwait h
      · rename_i hstate
        exact hskip (fun _ => by rw [stateOf,hstate]; rfl) h
      · rename_i hstate
        exact hskip (fun _ => by rw [stateOf,hstate]; rfl) h

theorem nextQueueState_takesSlot {current next : ApparatusQueueOrderState}
    (hslot : action.takesSlot=true) (h : nextQueueState current action=.ok next) :
    current=.printPreflight ∨ current.isActive=false := by
  cases current <;> cases action <;>
    simp_all [nextQueueState,ApparatusQueueAction.takesSlot,ApparatusQueueOrderState.isActive]

/-- Work starts or continues at the head of the queue and while no other order is active, a failed
action changes nothing and a successful one only its order. -/
theorem applyQueueActionMut_strict :
    (action.takesSlot=true → (applyQueueActionMut sequence states orderId action).1=.ok () →
      (∃ id∈sequence, trim id=trim orderId) ∧
      (∀ (id : String) (s : ApparatusQueueOrderState), states[id]?=some s →
        s.isActive=true → trim id=trim orderId) ∧
      (stateOf states orderId=.printPreflight ∨ ∀ id∈earlier sequence (trim orderId),
        trim id ≠ "" → stateOf states id=.completed ∨ stateOf states id=.frozen)) ∧
    (∀ error, (applyQueueActionMut sequence states orderId action).1=.error error →
      (applyQueueActionMut sequence states orderId action).2=states) ∧
    ((applyQueueActionMut sequence states orderId action).1=.ok () → ∀ id, id≠trim orderId →
        (applyQueueActionMut sequence states orderId action).2[id]?=states[id]?) := by
  rw [applyQueueActionMut_eq]
  cases hresult : applyQueueAction sequence states orderId action with
  | error error =>
    refine ⟨fun _ h => ?_,fun _ _ => rfl,fun h => ?_⟩
    · cases h
    · cases h
  | ok next =>
    simp only [applyQueueAction,ensure_bind_eq_ok] at hresult
    obtain ⟨-,hmember,hfirst,hresult⟩ := hresult
    obtain ⟨s,hnext,hother,hs⟩ := applyUnorderedQueueAction_ok hresult
    rw [trim_trim] at hnext hother hs
    refine ⟨fun hslot _ => ⟨by simpa using hmember,fun id t hget hactive => ?_,?_⟩,
      fun _ h => ?_,fun _ id hid => ?_⟩
    · by_contra hne
      refine Bool.eq_false_iff.mp (hother hslot) (otherActive_iff.mpr ⟨trim id,?_,hne⟩)
      exact mem_activeOrders.mpr ⟨id,t,hget,hactive,rfl⟩
    · refine (nextQueueState_takesSlot hslot hs).imp_right fun hidle id hid hne => ?_
      have hfound : firstActionableOrderId sequence states=some (trim orderId) := by
        simpa [hslot] using hfirst
      have hclosed := (firstActionableFrom_waiting hfound hidle).resolve_left (by simp)
      have hstate := hclosed.2 id hid hne
      cases hcase : stateOf states id with
      | completed => exact .inl rfl
      | frozen => exact .inr rfl
      | _ => rw [hcase] at hstate; cases hstate
    · cases h
    · rw [withStates,hnext,getElem?_insert_state,if_neg (Ne.symm hid)]

def frozenHead : QueueStates := TreeMap.ofList [("a", ApparatusQueueOrderState.frozen),("c", .paused)]

/-- Behind a frozen order `b` starts, before `c`. -/
theorem applyQueueActionMut_strict_frozenHead : (∃ id ∈ ["a"," b","c"], trim id=trim "b ") ∧
      (∀ (id : String) (s : ApparatusQueueOrderState), frozenHead[id]?=some s →
        s.isActive=true → trim id=trim "b ") ∧
      (stateOf frozenHead "b " = .printPreflight ∨
        ∀ id∈earlier ["a"," b","c"] (trim "b "), trim id ≠ "" →
          stateOf frozenHead id=.completed ∨ stateOf frozenHead id=.frozen) :=
  (@applyQueueActionMut_strict _ _ _ .start).1 rfl (by decide +kernel)

end MiniErp.Queue
