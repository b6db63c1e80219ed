import MiniErp.Lib.JsonText
import MiniErp.Queue.Barrier
import MiniErp.Queue.Sequence

/-! Operation-based queue editing: one move command against one version of an apparatus queue,
the event it publishes, and the client that replays the event on its own list. -/
namespace MiniErp.Queue
open Text Std Run List Option

structure SequenceMove where
  apparatus : String
  orderId : String
  beforeOrderId : Option String
  afterOrderId : Option String
  expectedVersion : String
  idempotencyKey : String
  deriving DecidableEq, Repr

def SequenceMove.validate (command : SequenceMove) : Except ProductionMapError Unit :=
  ensure
    (isCanonicalApparatusId command.apparatus && !isBlank command.orderId &&
      command.orderId=trim command.orderId && command.expectedVersion.utf8ByteSize=64 &&
      command.expectedVersion.toList.all isAsciiHexdigit && !isBlank command.idempotencyKey &&
      command.idempotencyKey.utf8ByteSize≤200 &&
      !(command.beforeOrderId.isSome && command.afterOrderId.isSome) &&
      (command.beforeOrderId.toList++command.afterOrderId.toList).all fun id =>
        !isBlank id && id=trim id && id≠command.orderId)
    .queueReorderInvalid

structure SequenceMoveResult where
  orderIds : List String
  version : String
  adjusted : Bool
  revision : Option Int
  event : Option Json

structure SequenceMoveState where
  apparatus : String
  orderIds : List String
  states : TreeMap String String
  frozen : TreeSet String

def optionalString : Option String → Json
  | some s => .string s
  | none => .null

def moveOperation (id : String) (beforeId afterId : Option String) : Json :=
  Json.ofFields [("type", .string "move"),("id", .string id),
    ("before_id", optionalString beforeId),("after_id", optionalString afterId)]

def computeCanonicalSequenceDelta (oldSequence newSequence : List String)
    (movedOrderId : String) : Option Json :=
  if oldSequence=newSequence then none
  else do
    let newIdx ← newSequence.idxOf? movedOrderId
    if oldSequence.idxOf? movedOrderId=some newIdx then none
    else
      let beforeId := newSequence[newIdx+1]?
      let afterId := if 0<newIdx then newSequence[newIdx-1]? else none
      return moveOperation movedOrderId beforeId afterId

/-- `op["base_version"] = ..; op["version"] = ..`. -/
def stampVersions (op : Json) (baseVersion version : String) : Option Json := do
  let op ← op.set "base_version" (.string baseVersion)
  op.set "version" (.string version)

def SequenceMove.target (command : SequenceMove) (others : List String) :
    Except ProductionMapError Nat :=
  match command.beforeOrderId, command.afterOrderId with
  | some id, _ =>
    match others.idxOf? id with
    | some index => .ok index
    | none => .error .queueReorderConflict
  | none, some id =>
    match others.idxOf? id with
    | some index => .ok (index+1)
    | none => .error .queueReorderConflict
  | none, none => .ok others.length

/-- The queue a command is checked against, from the stored sequence and what else is stored
about the visible orders. -/
def SequenceMoveState.fromVisible (apparatus : String) (visible stored : List String)
    (rawStates : TreeMap String String) (frozen preflightOrders : TreeSet String) :
    SequenceMoveState :=
  let frozen : TreeSet String := TreeSet.ofList
    (visible.filter fun id => frozen.contains id || rawStates[id]?=some "frozen")
  let orderIds := effectiveApparatusSequenceExcluding stored visible frozen
  { apparatus := apparatus
    orderIds := orderIds
    states := TreeMap.ofList (orderIds.map fun id =>
      (id, if preflightOrders.contains id then "print_preflight"
        else rawStates[id]?.getD "pending"))
    frozen := frozen }

/-- The serialized state, its fields in the order of the struct. -/
def SequenceMoveState.toJson (self : SequenceMoveState) : Json :=
  .object [("apparatus", .string self.apparatus),("order_ids", .array (self.orderIds.map .string)),
    ("states", .object (self.states.toList.map fun entry => (entry.1, .string entry.2))),
    ("frozen", .array (self.frozen.toList.map .string))]

section Apply
variable (digest : String → String)

/-- `digest` stands for the hexadecimal SHA-256 of a text. -/
def SequenceMoveState.version (self : SequenceMoveState) : String := digest self.toJson.write

def SequenceMoveState.apply (self : SequenceMoveState) (command : SequenceMove) :
    Except ProductionMapError SequenceMoveResult := do
  command.validate
  ensure (command.apparatus=self.apparatus) .queueReorderInvalid
  ensure (!self.frozen.contains command.orderId) .queueReorderFrozen
  ensure (command.expectedVersion=self.version digest) .queueReorderConflict
  match self.orderIds.idxOf? command.orderId with
  | none => .error .queueReorderConflict
  | some original =>
    let others := self.orderIds.eraseIdx original
    let target ← command.target others
    let requested := others.insertIdx target command.orderId
    match nearestAllowedSequence self.orderIds requested command.orderId self.states
        self.frozen with
    | .error _ => .error .queueReorderBlocked
    | .ok orderIds =>
      let version := SequenceMoveState.version digest { self with orderIds := orderIds }
      let event := (computeCanonicalSequenceDelta self.orderIds orderIds command.orderId).bind
        fun op => stampVersions op command.expectedVersion version
      return {
        orderIds := orderIds
        version := version
        adjusted := orderIds≠requested
        revision := none
        event := event }

end Apply

/-- A client that holds the old list and executes the published operation. -/
def applyClientDelta (initial : List String) (op : Json) : Option (List String) := do
  let id ← (op.get "id").bind Json.asStr
  let result := initial.filter (· ≠ id)
  let afterId := (op.get "after_id").bind Json.asStr
  let beforeId := (op.get "before_id").bind Json.asStr
  match afterId.bind result.idxOf? with
  | some index => return result.insertIdx (index+1) id
  | none =>
    match beforeId.bind result.idxOf? with
    | some index => return result.insertIdx index id
    | none => return result.insertIdx 0 id

/- The operation carries the neighbours of the moved order, and the neighbours fix its place. -/

theorem moveOperation_get (id : String) (beforeId afterId : Option String) :
    (moveOperation id beforeId afterId).get "id" = some (.string id) ∧
      (moveOperation id beforeId afterId).get "before_id" = some (optionalString beforeId) ∧
      (moveOperation id beforeId afterId).get "after_id" = some (optionalString afterId) := by
  simp [moveOperation,Json.ofFields,Json.get,Json.lookup_setField]

theorem asStr_optionalString (s : Option String) : (optionalString s).asStr=s := by cases s <;> rfl

section Neighbours
variable {rest : List String} {x : String} {i j : Nat}

theorem computeCanonicalSequenceDelta_insertIdx (hx : x∉rest) (hi : i ≤ rest.length)
    (hj : j ≤ rest.length) :
    computeCanonicalSequenceDelta (rest.insertIdx j x) (rest.insertIdx i x) x =
    if j=i then none else some (moveOperation x rest[i]? (if 0 < i then rest[i-1]? else none)) := by
  have hnew := ListMove.idxOf?_insertIdx hx hi
  have hold := ListMove.idxOf?_insertIdx hx hj
  by_cases hij : j=i
  · simp [computeCanonicalSequenceDelta,hij]
  · have hne : rest.insertIdx j x≠rest.insertIdx i x := by
      intro heq
      rw [heq,hnew] at hold
      exact hij (some.inj hold).symm
    have hnext : (rest.insertIdx i x)[i+1]?=rest[i]? := by
      rw [getElem?_insertIdx_of_gt (by omega)]
      rfl
    have hprev : 0 < i → (rest.insertIdx i x)[i-1]?=rest[i-1]? := fun hpos =>
      getElem?_insertIdx_of_lt (by omega)
    simp only [computeCanonicalSequenceDelta,hne,if_false,hnew,hold,hij,some.injEq,
      bind_eq_bind,bind_some,hnext]
    by_cases hpos : 0 < i
    · simp [hpos,hprev hpos]
    · simp [hpos]

/-- Replaying an operation that names the neighbours at place `i` puts the order there. -/
theorem applyClientDelta_insertIdx {op : Json} (hrest : rest.Nodup) (hx : x∉rest)
    (hi : i ≤ rest.length) (hj : j ≤ rest.length)
    (hid : op.get "id" = some (.string x))
    (hafter : op.get "after_id" = some (optionalString (if 0 < i then rest[i-1]? else none)))
    (hbefore : op.get "before_id" = some (optionalString rest[i]?)) :
    applyClientDelta (rest.insertIdx j x) op=some (rest.insertIdx i x) := by
  have hfilter := ListMove.filter_ne_insertIdx hx hj
  simp only [applyClientDelta,hid,hafter,hbefore,bind_some,Json.asStr_string,
    asStr_optionalString,bind_eq_bind,hfilter]
  by_cases hpos : 0 < i
  · have hprev : rest[i-1]?=some (rest.get ⟨i-1,by omega⟩) := by simp
    have hindex := ListMove.idxOf?_of_getElem? hrest hprev
    simp only [hpos,if_true,hprev,bind_some,hindex]
    have hplace : i-1+1=i := Nat.sub_add_cancel hpos
    simp [hplace]
  · have hzero : i=0 := by omega
    subst hzero
    cases hhead : rest[0]? with
    | none => simp
    | some a => simp [ListMove.idxOf?_of_getElem? hrest hhead]

end Neighbours

theorem stampVersions_get {op stamped : Json} {baseVersion version : String}
    (h : stampVersions op baseVersion version=some stamped) :
    stamped.get "base_version" = some (.string baseVersion) ∧
      stamped.get "version" = some (.string version) ∧
      ∀ key, key ≠ "base_version" → key ≠ "version" → stamped.get key=op.get key := by
  obtain ⟨based,hbased,hstamped⟩ := bind_eq_some_iff.mp h
  have hget := Json.get_set hstamped
  have hbase := Json.get_set hbased
  refine ⟨by simp [hget,hbase],by simp [hget],fun key h1 h2 => ?_⟩
  rw [hget,if_neg h2,hbase,if_neg h1]

theorem stampVersions_moveOperation (id : String) (beforeId afterId : Option String)
    (baseVersion version : String) :
    (stampVersions (moveOperation id beforeId afterId) baseVersion version).isSome=true := by
  simp [stampVersions,moveOperation,Json.ofFields,Json.set]

theorem insertIdx_eq_iff {rest : List String} {x : String} {i j : Nat} (hx : x∉rest)
    (hi : i ≤ rest.length) (hj : j ≤ rest.length) :
    rest.insertIdx i x=rest.insertIdx j x ↔ i=j := by
  refine ⟨fun h => ?_,fun h => by rw [h]⟩
  have hpos := ListMove.idxOf?_insertIdx hx hi
  rw [h,ListMove.idxOf?_insertIdx hx hj] at hpos
  exact (some.inj hpos).symm

theorem move_replayed {rest old new : List String} {x : String} {i j : Nat}
    {event : Option Json} {baseVersion version : String} (hrest : rest.Nodup) (hx : x∉rest)
    (hi : i ≤ rest.length) (hj : j ≤ rest.length) (hold : rest.insertIdx j x=old)
    (hnew : new=rest.insertIdx i x)
    (hevent : event=(computeCanonicalSequenceDelta old new x).bind
      fun op => stampVersions op baseVersion version) :
    (event=none ↔ new=old) ∧ ∀ op, event=some op → applyClientDelta old op=some new ∧
      op.get "base_version" = some (.string baseVersion) ∧
      op.get "version" = some (.string version) := by
  subst hold hnew
  rw [computeCanonicalSequenceDelta_insertIdx hx hi hj] at hevent
  rw [insertIdx_eq_iff hx hi hj]
  by_cases hij : j=i
  · simp [hevent,hij]
  · rw [if_neg hij,bind_some] at hevent
    obtain ⟨stamped,hstamped⟩ := isSome_iff_exists.mp
      (stampVersions_moveOperation x rest[i]? (if 0 < i then rest[i-1]? else none)
        baseVersion version)
    rw [hstamped] at hevent
    obtain ⟨hbase,hversion,hsame⟩ := stampVersions_get hstamped
    obtain ⟨hid,hbefore,hafter⟩ := moveOperation_get x rest[i]? (if 0 < i then rest[i-1]? else none)
    refine ⟨by simp [hevent,Ne.symm hij],fun op hop => ?_⟩
    rw [hevent,some.injEq] at hop
    subst hop
    refine ⟨applyClientDelta_insertIdx hrest hx hi hj ?_ ?_ ?_,hbase,hversion⟩
    · rw [hsame "id" (by decide) (by decide),hid]
    · rw [hsame "after_id" (by decide) (by decide),hafter]
    · rw [hsame "before_id" (by decide) (by decide),hbefore]

variable {digest : String → String} {state : SequenceMoveState}
  {command : SequenceMove} {result : SequenceMoveResult}

/-- What an accepted command does: the moved order is taken out of its place and put into
another one, under the version the command expected. -/
theorem SequenceMoveState.apply_ok (h : state.apply digest command=.ok result) :
    command.validate=.ok () ∧ command.apparatus=state.apparatus ∧
      command.expectedVersion=state.version digest ∧ result.revision=none ∧
      result.version=SequenceMoveState.version digest { state with orderIds := result.orderIds } ∧
      result.event=((computeCanonicalSequenceDelta state.orderIds result.orderIds
        command.orderId).bind fun op => stampVersions op (state.version digest) result.version) ∧
      ∃ original index, state.orderIds.idxOf? command.orderId=some original ∧
        index≤(state.orderIds.eraseIdx original).length ∧
        result.orderIds=(state.orderIds.eraseIdx original).insertIdx index command.orderId ∧
        validateActiveSequenceBarrier state.orderIds result.orderIds state.states
          state.frozen=.ok () := by
  simp only [SequenceMoveState.apply,bind_eq_ok,ensure_eq_ok,decide_eq_true_eq] at h
  obtain ⟨_,hvalid,_,happaratus,_,-,_,hversion,h⟩ := h
  split at h
  · cases h
  · simp only [bind_eq_ok] at h
    obtain ⟨target,-,h⟩ := h
    split at h
    · cases h
    · rename_i orderIds hnearest
      obtain ⟨original,index,horiginal,hindex,hnext⟩ := nearestAllowedSequence_ok hnearest
      rw [← Except.ok.inj h]
      exact ⟨hvalid,happaratus,hversion,rfl,rfl,by rw [hversion],original,index,
        horiginal,hindex,hnext⟩

section Accepted
variable (hnodup : state.orderIds.Nodup) (h : state.apply digest command=.ok result)
include hnodup h

theorem SequenceMoveState.apply_perm : result.orderIds.Perm state.orderIds := by
  obtain ⟨-,-,-,-,-,-,original,index,horiginal,hindex,horder,-⟩ := apply_ok h
  obtain ⟨-,hlen,hback⟩ := ListMove.eraseIdx_of_idxOf? hnodup horiginal
  have hold := perm_insertIdx command.orderId _ hlen
  rw [hback] at hold
  rw [horder]
  exact (perm_insertIdx _ _ hindex).trans hold.symm

theorem SequenceMoveState.apply_others : result.orderIds.filter (· ≠ command.orderId) =
      state.orderIds.filter (· ≠ command.orderId) := by
  obtain ⟨-,-,-,-,-,-,original,index,horiginal,hindex,horder,-⟩ := apply_ok h
  obtain ⟨hx,hlen,hback⟩ := ListMove.eraseIdx_of_idxOf? hnodup horiginal
  have hold := ListMove.filter_ne_insertIdx hx hlen
  rw [hback] at hold
  rw [horder,ListMove.filter_ne_insertIdx hx hindex,hold]

theorem SequenceMoveState.apply_event : (result.event=none ↔ result.orderIds=state.orderIds) ∧
    ∀ op, result.event=some op → applyClientDelta state.orderIds op=some result.orderIds ∧
      op.get "base_version" = some (.string (state.version digest)) ∧
      op.get "version" = some (.string result.version) := by
  obtain ⟨-,-,-,-,-,hevent,original,index,horiginal,hindex,horder,-⟩ := apply_ok h
  obtain ⟨hx,hlen,hback⟩ := ListMove.eraseIdx_of_idxOf? hnodup horiginal
  exact move_replayed (hnodup.eraseIdx original) hx hindex hlen hback horder hevent

end Accepted

/-- An accepted move is a permutation that keeps the other orders in place relative to each
other; its event is absent exactly when nothing moved, and otherwise a client that holds the
old list replays it to the new one, between the fingerprints of the old and the new queue. -/
theorem SequenceMoveState.apply_replayed (digest : String → String)
    (state : SequenceMoveState) (command : SequenceMove) (result : SequenceMoveResult)
    (hnodup : state.orderIds.Nodup) (h : state.apply digest command=.ok result) :
    result.orderIds.Perm state.orderIds ∧
    result.orderIds.filter (· ≠ command.orderId)=state.orderIds.filter (· ≠ command.orderId) ∧
    (result.event=none ↔ result.orderIds=state.orderIds) ∧ ∀ op, result.event=some op →
      applyClientDelta state.orderIds op=some result.orderIds ∧
      op.get "base_version" = some (.string (state.version digest)) ∧ op.get "version" =
        some (.string
          (SequenceMoveState.version digest { state with orderIds := result.orderIds })) := by
  obtain ⟨-,-,-,-,hversion,-⟩ := apply_ok h
  rw [← hversion]
  exact ⟨apply_perm hnodup h,apply_others hnodup h,apply_event hnodup h⟩

/-- A queue of three waiting orders, and a digest that tells texts of different length apart. -/
def threeOrders : SequenceMoveState where
  apparatus := "apparatus:default:bosma_8"
  orderIds := ["a","b","c"]
  states := ∅
  frozen := ∅

def lengthDigest (text : String) : String :=
  String.ofList (List.replicate 64 (Nat.digitChar (text.utf8ByteSize%10)))

def moveToFront : SequenceMove where
  apparatus := "apparatus:default:bosma_8"
  orderId := "c"
  beforeOrderId := some "a"
  afterOrderId := none
  expectedVersion := threeOrders.version lengthDigest
  idempotencyKey := "first"

theorem SequenceMoveState.apply_replayed_front :
    ∃ result op, threeOrders.apply lengthDigest moveToFront=.ok result ∧
      result.event=some op ∧ applyClientDelta ["a","b","c"] op=some ["c","a","b"] := by
  have hresult : ((threeOrders.apply lengthDigest moveToFront).toOption.map
      SequenceMoveResult.orderIds)=some ["c","a","b"] := by decide +kernel
  obtain ⟨result,hok,horder⟩ := Option.map_eq_some_iff.mp hresult
  have h := toOption_eq_some.mp hok
  have hmoved := SequenceMoveState.apply_replayed lengthDigest threeOrders moveToFront
    result (by decide) h
  cases hevent : result.event with
  | none =>
    have hsame := hmoved.2.2.1.mp hevent
    rw [horder] at hsame
    exact absurd hsame (by decide)
  | some op => exact ⟨result,op,h,hevent,horder ▸ (hmoved.2.2.2 op hevent).1⟩

end MiniErp.Queue
