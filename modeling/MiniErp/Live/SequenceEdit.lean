import MiniErp.Lib.JsonText

/-! Compact edits of an order list: ranges of the previous list and runs of new ids, sent when they
are shorter than the whole list, and the client that replays them. -/
namespace MiniErp.Live
open Std List Option

/-- FNV-1a over the bytes of the ids, each closed by a byte that UTF-8 does not have. -/
def fingerprint (ids : List String) : String :=
  let mix (hash : UInt64) (byte : UInt8) : UInt64 := (hash ^^^ byte.toUInt64)*0x00000100000001b3
  let hash := ids.foldl (fun hash id => (id.toUTF8.data.toList++[0xff]).foldl mix hash)
    0xcbf29ce484222325
  String.ofList (List.leftpad 16 '0' (Nat.toDigits 16 hash.toNat))

example : fingerprint ["order-000000","ўзбек-😀"] = "054688fb8e618984" := by decide +kernel

inductive SequenceOp where
  | copy (start count : Nat)
  | insert (ids : List String)
  deriving DecidableEq, Repr

def natJson (n : Nat) : Json := .number (.int n)

def idsJson (ids : List String) : Json := .array (ids.map .string)

def SequenceOp.toJson : SequenceOp → Json
  | .copy start count => .array [natJson 0,natJson start,natJson count]
  | .insert ids => .array [natJson 1,idsJson ids]

/-- The place of every id; none where an id is empty or stands twice. -/
def indexPositions : Nat → List String → TreeMap String Nat → Option (TreeMap String Nat)
  | _, [], positions => some positions
  | index, id::rest, positions =>
    if id = "" ∨ positions.contains id then none
    else indexPositions (index+1) rest (positions.insert id index)

/-- How far the new list goes on like the previous one, with the ids seen and what is left. -/
def copyRun : TreeSet String → List String → List String →
    Option (Nat × TreeSet String × List String)
  | seen, b::before, a::after =>
    if b=a then
      if seen.contains a then none
      else (copyRun (seen.insert a) before after).map fun run => (run.1+1, run.2)
    else some (0, seen, a::after)
  | seen, _, after => some (0, seen, after)

/-- The ids up to the next one that the previous list has. -/
def insertRun (positions : TreeMap String Nat) : TreeSet String → List String →
    Option (List String × TreeSet String × List String)
  | seen, [] => some ([], seen, [])
  | seen, a::after =>
    if positions.contains a then some ([], seen, a::after)
    else if a = "" ∨ seen.contains a then none
    else (insertRun positions (seen.insert a) after).map fun run => (a::run.1, run.2)

/-- The turns of the main loop; each takes at least one id of the new list. -/
def editOps (before : List String) (positions : TreeMap String Nat) :
    Nat → TreeSet String → List String → Option (List SequenceOp)
  | _, _, [] => some []
  | 0, _, _ :: _ => none
  | fuel+1, seen, id::after =>
    if id = "" ∨ seen.contains id then none
    else
      match positions[id]? with
      | some start => do
        let (count, seen, rest) ← copyRun (seen.insert id) (before.drop (start+1)) after
        let ops ← editOps before positions fuel seen rest
        return .copy start (count+1)::ops
      | none => do
        let (ids, seen, rest) ← insertRun positions (seen.insert id) after
        let ops ← editOps before positions fuel seen rest
        return .insert (id::ids)::ops

def editJson (before after : List String) (ops : List SequenceOp) : Json :=
  Json.ofFields [("base_len", natJson before.length),("base_hash", .string (fingerprint before)),
    ("len", natJson after.length),("hash", .string (fingerprint after)),
    ("ops", .array (ops.map SequenceOp.toJson))]

def sequenceEdit (before after : List String) : Option Json :=
  if before=after ∨ before=[] ∨ after=[] then none
  else do
    let positions ← indexPositions 0 before ∅
    let ops ← editOps before positions after.length ∅ after
    let edit := editJson before after ops
    let editLen := edit.write.utf8ByteSize
    let replacementLowerBound := 2+(after.length-1)+(after.map fun id => id.utf8ByteSize+2).sum
    if editLen < replacementLowerBound ∨ editLen<(idsJson after).write.utf8ByteSize
    then some edit
    else none

/- The client: it replays the ranges on its own list and checks both fingerprints. -/

def asNat : Json → Option Nat
  | .number (.int (.ofNat n)) => some n
  | _ => none

def replayOp (before : List String) : Json → Option (List String)
  | .array [code,start,count] => do
    let start ← asNat start
    let count ← asNat count
    if asNat code=some 0 ∧ 0 < count ∧ start+count≤before.length
    then some ((before.drop start).take count)
    else none
  | .array [code,ids] => if asNat code=some 1 then ids.asStrings else none
  | _ => none

def replayOps (before : List String) (limit : Nat) : List String → List Json → Option (List String)
  | after, [] => some after
  | after, op::ops => do
    let ids ← replayOp before op
    if (after++ids).length≤limit then replayOps before limit (after++ids) ops else none

def applySequenceEdit (before : List String) (edit : Json) : Option (List String) := do
  let baseLen ← (edit.get "base_len").bind asNat
  let baseHash ← (edit.get "base_hash").bind Json.asStr
  let len ← (edit.get "len").bind asNat
  let hash ← (edit.get "hash").bind Json.asStr
  let .array ops ← edit.get "ops" | none
  if baseLen=before.length ∧ baseHash=fingerprint before then
    let after ← replayOps before len [] ops
    if len=after.length ∧ hash=fingerprint after then some after else none
  else none

/- Every edit that is sent is replayed to the list it was made for. -/

def SequenceOp.expand (before : List String) : SequenceOp → List String
  | .copy start count => (before.drop start).take count
  | .insert ids => ids

def SequenceOp.Fits (before : List String) : SequenceOp → Prop
  | .copy start count => 0 < count ∧ start+count≤before.length
  | .insert _ => True

variable {before after : List String} {positions : TreeMap String Nat}

theorem indexPositions_get {ids : List String} {index : Nat}
    {result : TreeMap String Nat} (h : indexPositions index ids positions=some result)
    (hids : before.drop index=ids)
    (hpositions : ∀ (id : String) (place : Nat), positions[id]?=some place →
      before[place]?=some id) :
    ∀ (id : String) (place : Nat), result[id]?=some place → before[place]?=some id := by
  induction ids generalizing index positions with
  | nil =>
    cases h
    exact hpositions
  | cons first rest ih =>
    rw [indexPositions] at h
    split at h
    · cases h
    · have hfirst : before[index]?=some first := by rw [← head?_drop,hids,head?_cons]
      refine ih h (by rw [← drop_drop,hids,drop_one,tail_cons]) ?_
      intro id place hget
      rw [TreeMap.getElem?_insert] at hget
      split at hget
      · rename_i hsame
        rw [← LawfulEqOrd.eq_of_compare hsame,← some.inj hget]
        exact hfirst
      · exact hpositions id place hget

theorem copyRun_eq {rest : TreeSet String × List String}
    {seen₀ : TreeSet String} {count : Nat} (h : copyRun seen₀ before after=some (count, rest)) :
    after=before.take count++rest.2 ∧ count≤before.length := by
  induction before generalizing after seen₀ count with
  | nil =>
    rw [copyRun] at h
    · cases h
      exact ⟨rfl,le_rfl⟩
    · simp
  | cons b before ih =>
    cases after with
    | nil =>
      cases h
      exact ⟨rfl,Nat.zero_le _⟩
    | cons a after =>
      rw [copyRun] at h
      split at h
      · rename_i hsame
        split at h
        · cases h
        · obtain ⟨⟨n,run⟩,hrun,heq⟩ := map_eq_some_iff.mp h
          cases heq
          obtain ⟨hafter,hle⟩ := ih hrun
          refine ⟨?_,Nat.succ_le_succ hle⟩
          rw [hsame,take_succ_cons,cons_append,← hafter]
      · cases h
        exact ⟨rfl,Nat.zero_le _⟩

theorem insertRun_eq {seen₀ : TreeSet String}
    {ids : List String} {rest : TreeSet String × List String}
    (h : insertRun positions seen₀ after=some (ids, rest)) : after=ids++rest.2 := by
  induction after generalizing seen₀ ids with
  | nil =>
    cases h
    rfl
  | cons a after ih =>
    rw [insertRun] at h
    split at h
    · cases h
      rfl
    · split at h
      · cases h
      · obtain ⟨⟨taken,run⟩,hrun,heq⟩ := map_eq_some_iff.mp h
        cases heq
        rw [cons_append,← ih hrun]

theorem editOps_expand (hpositions : ∀ (id : String) (place : Nat), positions[id]?=some place →
      before[place]?=some id)
    {fuel : Nat} {seen : TreeSet String} {ops : List SequenceOp}
    (h : editOps before positions fuel seen after=some ops) :
    ops.flatMap (SequenceOp.expand before)=after ∧ ∀ op∈ops, op.Fits before := by
  induction fuel generalizing seen after ops with
  | zero =>
    cases after with
    | nil =>
      cases h
      exact ⟨rfl,by simp⟩
    | cons id after => cases h
  | succ fuel ih =>
    cases after with
    | nil =>
      cases h
      exact ⟨rfl,by simp⟩
    | cons id after =>
      rw [editOps] at h
      split at h
      · cases h
      · split at h
        · rename_i start hstart
          simp only [bind_eq_bind,bind_eq_some_iff] at h
          obtain ⟨⟨count,seen,rest⟩,hrun,ops,hops,h⟩ := h
          cases h
          obtain ⟨hafter,hcount⟩ := copyRun_eq hrun
          obtain ⟨hexpand,hfits⟩ := ih hops
          have hplace := hpositions id start hstart
          obtain ⟨hlt,hget⟩ := List.getElem?_eq_some_iff.mp hplace
          rw [length_drop] at hcount
          constructor
          · rw [flatMap_cons,hexpand,SequenceOp.expand,drop_eq_getElem_cons hlt,hget,
              take_succ_cons,cons_append,← hafter]
          · intro op hop
            cases hop with
            | head => exact ⟨Nat.succ_pos _,by omega⟩
            | tail _ hop => exact hfits op hop
        · simp only [bind_eq_bind,bind_eq_some_iff] at h
          obtain ⟨⟨ids,seen,rest⟩,hrun,ops,hops,h⟩ := h
          cases h
          obtain ⟨hexpand,hfits⟩ := ih hops
          constructor
          · rw [flatMap_cons,hexpand,SequenceOp.expand,cons_append,← insertRun_eq hrun]
          · intro op hop
            cases hop with
            | head => trivial
            | tail _ hop => exact hfits op hop

/-- The length of the new list is fuel enough for the main loop. -/
theorem editOps_fuel {fuel more : Nat} {seen : TreeSet String} (hfuel : after.length≤fuel)
    (hmore : fuel ≤ more) :
    editOps before positions fuel seen after=editOps before positions more seen after := by
  induction fuel generalizing seen after more with
  | zero =>
    cases after with
    | nil => simp [editOps]
    | cons id after => simp at hfuel
  | succ fuel ih =>
    cases after with
    | nil => simp [editOps]
    | cons id after =>
      obtain ⟨more,rfl⟩ : ∃ n, more=n+1 := ⟨more-1,by omega⟩
      rw [length_cons] at hfuel
      rw [editOps,editOps]
      split
      · rfl
      · split
        · refine Option.bind_congr fun run hrun => ?_
          obtain ⟨count,seen,rest⟩ := run
          have hlen := congrArg List.length (copyRun_eq hrun).1
          simp only [length_append] at hlen
          have hrest : rest.length≤fuel := by omega
          simp only [ih hrest (Nat.le_of_succ_le_succ hmore)]
        · refine Option.bind_congr fun run hrun => ?_
          obtain ⟨ids,seen,rest⟩ := run
          have hlen := congrArg List.length (insertRun_eq hrun)
          simp only [length_append] at hlen
          have hrest : rest.length≤fuel := by omega
          simp only [ih hrest (Nat.le_of_succ_le_succ hmore)]

theorem replayOp_toJson {op : SequenceOp} (h : op.Fits before) :
    replayOp before op.toJson=some (op.expand before) := by
  cases op with
  | copy start count =>
    have hfits : asNat (natJson 0)=some 0 ∧ 0 < count ∧ start+count≤before.length := ⟨rfl,h.1,h.2⟩
    exact if_pos hfits
  | insert ids => exact Json.asStrings_map_string ids

theorem replayOps_toJson {done : List String} {limit : Nat} {ops : List SequenceOp}
    (hfits : ∀ op∈ops, op.Fits before)
    (hlimit : (done++ops.flatMap (SequenceOp.expand before)).length≤limit) :
    replayOps before limit done (ops.map SequenceOp.toJson) =
      some (done++ops.flatMap (SequenceOp.expand before)) := by
  induction ops generalizing done with
  | nil => simp [replayOps]
  | cons op ops ih =>
    rw [flatMap_cons,← append_assoc] at hlimit
    have hstep : (done++op.expand before).length≤limit := by
      rw [length_append] at hlimit
      omega
    rw [map_cons,replayOps,replayOp_toJson (hfits op mem_cons_self)]
    simp only [bind_eq_bind,bind_some,if_pos hstep]
    rw [ih (fun op hop => hfits op (mem_cons_of_mem _ hop)) hlimit,flatMap_cons, append_assoc]

theorem sequenceEdit_ops {edit : Json} (h : sequenceEdit before after=some edit) :
    ∃ ops : List SequenceOp, edit=editJson before after ops ∧
    ops.flatMap (SequenceOp.expand before)=after ∧ ∀ op∈ops, op.Fits before := by
  unfold sequenceEdit at h
  split at h
  · cases h
  · simp only [bind_eq_bind,bind_eq_some_iff] at h
    obtain ⟨positions,hpositions,ops,hops,h⟩ := h
    have hplaces := indexPositions_get hpositions drop_zero (by simp)
    obtain ⟨hexpand,hfits⟩ := editOps_expand hplaces hops
    split at h
    · exact ⟨ops,(some_inj.mp h).symm,hexpand,hfits⟩
    · cases h

theorem applySequenceEdit_sequenceEdit {edit : Json}
    (h : sequenceEdit before after=some edit) : applySequenceEdit before edit=some after := by
  obtain ⟨ops,rfl,hexpand,hfits⟩ := sequenceEdit_ops h
  have hreplay : replayOps before after.length [] (ops.map SequenceOp.toJson)=some after := by
    rw [replayOps_toJson hfits (by simp [hexpand]),hexpand,nil_append]
  simp [applySequenceEdit,editJson,Json.ofFields,Json.get,Json.lookup_setField,natJson,
    asNat,hreplay]

/-- The operations of an edit rebuild the new list from ranges of the previous one, and the edit
names the lengths and the fingerprints of both. -/
theorem sequenceEdit_rebuilds {before after : List String} {edit : Json}
    (h : sequenceEdit before after=some edit) :
    (∃ ops : List SequenceOp, edit.get "ops" = some (.array (ops.map SequenceOp.toJson)) ∧
      ops.flatMap (SequenceOp.expand before)=after ∧
      ∀ start count, SequenceOp.copy start count∈ops → start+count≤before.length) ∧
    edit.get "base_len" = some (natJson before.length) ∧
    edit.get "base_hash" = some (.string (fingerprint before)) ∧
    edit.get "len" = some (natJson after.length) ∧
    edit.get "hash" = some (.string (fingerprint after)) := by
  obtain ⟨ops,rfl,hexpand,hfits⟩ := sequenceEdit_ops h
  have hfields : (editJson before after ops).get "ops" = some (.array (ops.map SequenceOp.toJson)) ∧
      (editJson before after ops).get "base_len" = some (natJson before.length) ∧
      (editJson before after ops).get "base_hash" = some (.string (fingerprint before)) ∧
      (editJson before after ops).get "len" = some (natJson after.length) ∧
      (editJson before after ops).get "hash" = some (.string (fingerprint after)) := by
    simp [editJson,Json.ofFields,Json.get,Json.lookup_setField]
  refine ⟨⟨ops,hfields.1,hexpand,fun start count hmem => ?_⟩,hfields.2⟩
  exact (hfits (.copy start count) hmem).2

/-- The last of twelve ids moved to the front, beside a new one. -/
theorem sequenceEdit_rebuilds_move :
    let before := (List.range 12).map fun i => "order-00000" ++ toString i
    let after := ["order-0000011","yangi-ўзбек"]++before.take 11
    ∃ edit, sequenceEdit before after=some edit ∧
      edit.get "hash" = some (.string (fingerprint after)) := by
  intro before after
  have hsome : (sequenceEdit before after).isSome=true := by decide +kernel
  obtain ⟨edit,hedit⟩ := Option.isSome_iff_exists.mp hsome
  exact ⟨edit,hedit,(sequenceEdit_rebuilds hedit).2.2.2.2⟩

end MiniErp.Live
