import MiniErp.Lib.Run
import MiniErp.Queue.Sequence

/-! Queue actions under the two policies, and the single-slot invariant: at most one order
of an apparatus is active. Orders are told apart by their trimmed id, as the code does. -/
namespace MiniErp.Queue
open Text Std Run

inductive ApparatusQueuePolicy where
  | strictSequence
  | freePick
  deriving DecidableEq, Repr

def otherActive (states : QueueStates) (orderId : String) : Bool :=
  states.toList.any fun entry => trim entry.1≠orderId && entry.2.isActive

def applyUnorderedQueueAction (states : QueueStates) (orderId : String)
    (action : ApparatusQueueAction) : Except ProductionMapError QueueStates := do
  let orderId := trim orderId
  ensure (orderId ≠ "") .missingId
  ensure (!(action.takesSlot && otherActive states orderId)) .queueActionNotAllowed
  let next ← nextQueueState (states[orderId]?.getD .pending) action
  return states.insert orderId next

def applyQueueAction (sequence : List String) (states : QueueStates) (orderId : String)
    (action : ApparatusQueueAction) : Except ProductionMapError QueueStates := do
  let orderId := trim orderId
  ensure (orderId ≠ "") .missingId
  ensure (sequence.any fun id => trim id=orderId) .queueActionNotAllowed
  ensure (!(action.takesSlot && firstActionableOrderId sequence states≠some orderId))
    .queueActionNotAllowed
  applyUnorderedQueueAction states orderId action

section
variable (policy : ApparatusQueuePolicy) (sequence : List String) (parsed : QueueStates)
  (orderId : String)

def applyQueuePolicy (action : ApparatusQueueAction) : Except ProductionMapError QueueStates :=
  match policy with
  | .strictSequence => applyQueueAction sequence parsed orderId action
  | .freePick => applyUnorderedQueueAction parsed orderId action

def applyRequeuedResume : Except ProductionMapError QueueStates := do
  ensure (!(policy=.strictSequence && firstActionableOrderId sequence parsed≠some orderId))
    .queueActionNotAllowed
  ensure (parsed[orderId]?.getD .pending=.pending) .queueActionNotAllowed
  return parsed.insert orderId .inProgress

end

/- The invariant and what writing one order's state does to it. -/

def activeOrders (states : QueueStates) : List String :=
  (states.toList.filter fun entry => entry.2.isActive).map fun entry => trim entry.1

def AtMostOneActive (states : QueueStates) : Prop :=
  ∀ a∈activeOrders states, ∀ b∈activeOrders states, a=b

instance (states : QueueStates) : Decidable (AtMostOneActive states) :=
  inferInstanceAs (Decidable (∀ a∈activeOrders states, ∀ b∈activeOrders states, a=b))

variable {states next : QueueStates} {orderId : String} {action : ApparatusQueueAction}
  {policy : ApparatusQueuePolicy} {sequence : List String}

theorem mem_activeOrders {x : String} : x∈activeOrders states ↔
      ∃ id s, states[id]?=some s ∧ s.isActive=true ∧ trim id=x := by
  simp only [activeOrders,List.mem_map,List.mem_filter,Prod.exists,
    TreeMap.mem_toList_iff_getElem?_eq_some,and_assoc]

theorem otherActive_iff : otherActive states orderId=true ↔ ∃ x∈activeOrders states, x≠orderId := by
  simp only [otherActive,List.any_eq_true,Prod.exists,Bool.and_eq_true,decide_eq_true_eq,
    TreeMap.mem_toList_iff_getElem?_eq_some,mem_activeOrders]
  constructor
  · rintro ⟨id,s,hget,hne,hactive⟩
    exact ⟨trim id,⟨id,s,hget,hactive,rfl⟩,hne⟩
  · rintro ⟨x,⟨id,s,hget,hactive,rfl⟩,hne⟩
    exact ⟨id,s,hget,hne,hactive⟩

theorem AtMostOneActive.mono (hsub : ∀ (id : String) (s : ApparatusQueueOrderState),
      next[id]?=some s → s.isActive=true → states[id]?=some s)
    (h : AtMostOneActive states) : AtMostOneActive next := by
  have hmem : ∀ x∈activeOrders next, x∈activeOrders states := by
    intro x hx
    obtain ⟨id,s,hget,hactive,hid⟩ := mem_activeOrders.mp hx
    exact mem_activeOrders.mpr ⟨id,s,hsub id s hget hactive,hactive,hid⟩
  exact fun a ha b hb => h a (hmem a ha) b (hmem b hb)

theorem otherActive_congr {k : String} (hk : trim k=k)
    (hsame : ∀ id, id≠k → next[id]?=states[id]?) : otherActive next k=otherActive states k := by
  have hother : ∀ id, trim id≠k → next[id]?=states[id]? :=
    fun id hid => hsame id fun h => hid (h ▸ hk)
  rw [Bool.eq_iff_iff,otherActive_iff,otherActive_iff]
  constructor
  · rintro ⟨x,hx,hne⟩
    obtain ⟨id,s,hget,hactive,rfl⟩ := mem_activeOrders.mp hx
    exact ⟨trim id,mem_activeOrders.mpr ⟨id,s,hother id hne ▸ hget,hactive,rfl⟩,hne⟩
  · rintro ⟨x,hx,hne⟩
    obtain ⟨id,s,hget,hactive,rfl⟩ := mem_activeOrders.mp hx
    exact ⟨trim id,mem_activeOrders.mpr ⟨id,s,(hother id hne).trans hget,hactive,rfl⟩,hne⟩

section Insert
variable {states : QueueStates} {k : String} {s : ApparatusQueueOrderState}

theorem getElem?_insert_state (id : String) :
    (states.insert k s)[id]?=if k=id then some s else states[id]? := by
  rw [TreeMap.getElem?_insert]
  simp only [Std.LawfulEqCmp.compare_eq_iff_eq]

theorem otherActive_insert (hk : trim k=k) :
    otherActive (states.insert k s) k=otherActive states k :=
  otherActive_congr hk fun id hid => by rw [getElem?_insert_state,if_neg hid.symm]

theorem mem_activeOrders_insert_self (hk : trim k=k) (hs : s.isActive=true) :
    k∈activeOrders (states.insert k s) :=
  mem_activeOrders.mpr ⟨k,s,by simp,hs,hk⟩

theorem atMostOneActive_insert_inactive (hs : s.isActive=false) (h : AtMostOneActive states) :
    AtMostOneActive (states.insert k s) := by
  refine h.mono fun id t hget hactive => ?_
  rw [getElem?_insert_state] at hget
  split at hget
  · rw [← Option.some.inj hget,hs] at hactive
    cases hactive
  · exact hget

/-- Making an order active keeps the slot single exactly when no other order holds it. -/
theorem atMostOneActive_insert_active (hk : trim k=k) (hs : s.isActive=true) :
    AtMostOneActive (states.insert k s) ↔ otherActive states k=false := by
  rw [← Bool.not_eq_true,← otherActive_insert (s := s) hk,otherActive_iff]
  constructor
  · rintro h ⟨x,hx,hne⟩
    exact hne (h x hx k (mem_activeOrders_insert_self hk hs))
  · intro h a ha b hb
    have hall : ∀ x∈activeOrders (states.insert k s), x=k := by
      intro x hx
      by_contra hne
      exact h ⟨x,hx,hne⟩
    rw [hall a ha,hall b hb]

theorem otherActive_of_active (hk : trim k=k) (h : AtMostOneActive states)
    (hactive : (states[k]?.getD .pending).isActive=true) : otherActive states k=false := by
  have hmem : k∈activeOrders states := by
    cases hget : states[k]? with
    | none => simp [hget,ApparatusQueueOrderState.isActive] at hactive
    | some s => exact mem_activeOrders.mpr ⟨k,s,hget,by simpa [hget] using hactive,hk⟩
  rw [← Bool.not_eq_true,otherActive_iff]
  rintro ⟨x,hx,hne⟩
  exact hne (h x hx k hmem)

end Insert

/- What each branch writes. -/

theorem applyUnorderedQueueAction_ok
    (h : applyUnorderedQueueAction states orderId action=.ok next) :
    ∃ s, next=states.insert (trim orderId) s ∧
      (action.takesSlot=true → otherActive states (trim orderId)=false) ∧
      nextQueueState (states[trim orderId]?.getD .pending) action=.ok s := by
  simp only [applyUnorderedQueueAction,ensure_bind_eq_ok] at h
  obtain ⟨-,hslot,h⟩ := h
  obtain ⟨s,hs,hnext⟩ := bind_eq_ok.mp h
  refine ⟨s,(Except.ok.inj hnext).symm,?_,hs⟩
  intro htakes
  simpa [htakes] using hslot

theorem applyQueuePolicy_ok
   
    (h : applyQueuePolicy policy sequence states orderId action=.ok next) :
    ∃ s, next=states.insert (trim orderId) s ∧
      (action.takesSlot=true → otherActive states (trim orderId)=false) ∧
      nextQueueState (states[trim orderId]?.getD .pending) action=.ok s := by
  cases policy with
  | freePick => exact applyUnorderedQueueAction_ok h
  | strictSequence =>
    simp only [applyQueuePolicy,applyQueueAction,ensure_bind_eq_ok] at h
    simpa using applyUnorderedQueueAction_ok h.2.2.2

/-- The ordinary transitions keep the slot single under both policies. -/
theorem applyQueuePolicy_atMostOneActive
   
    (h : applyQueuePolicy policy sequence states orderId action=.ok next)
    (hone : AtMostOneActive states) : AtMostOneActive next := by
  obtain ⟨s,rfl,hslot,hs⟩ := applyQueuePolicy_ok h
  have hk : trim (trim orderId)=trim orderId := trim_trim orderId
  cases hactive : s.isActive with
  | false => exact atMostOneActive_insert_inactive hactive hone
  | true =>
    rw [atMostOneActive_insert_active hk hactive]
    rcases nextQueueState_active hs hactive with htakes | hcurrent
    · exact hslot htakes
    · exact otherActive_of_active hk hone hcurrent

/-- A requeued resume does not look at the other orders: the slot stays single exactly when
it was free or held by the order itself. -/
theorem applyRequeuedResume_atMostOneActive
   
    (hid : trim orderId=orderId)
    (h : applyRequeuedResume policy sequence states orderId=.ok next) :
    AtMostOneActive next ↔ otherActive states orderId=false := by
  simp only [applyRequeuedResume,ensure_bind_eq_ok] at h
  rw [← Except.ok.inj h.2.2]
  exact atMostOneActive_insert_active hid rfl

end MiniErp.Queue
