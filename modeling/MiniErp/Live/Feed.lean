import MiniErp.Lib.JsonText
import MiniErp.Lib.Run

/-! The feed of a live view: a bounded history of deltas behind the view, and what it delivers to a
client that held an earlier view. -/
namespace MiniErp.Live

def historyEntries : Nat := 64
def historyBytes : Nat := 256*1024
/-- Ninety seconds, in nanoseconds of the monotonic clock. -/
def historyTtl : Nat := 90*1000000000
def preparedVariants : Nat := 2

/-- The text of a patch that changes nothing. -/
def emptyPatch : String := "\x7b\x7d"

structure PreparedDelta where
  baseRevision : Nat
  revision : Nat
  created : Nat
  epoch : String
  scope : String
  patch : String
  compact : Bool

def PreparedDelta.empty (delta : PreparedDelta) : Bool := delta.patch == emptyPatch

def PreparedDelta.bytes (delta : PreparedDelta) : Nat :=
  (delta.patch.utf8ByteSize+(Json.string delta.epoch).write.utf8ByteSize +
    (Json.string delta.scope).write.utf8ByteSize+160)*(preparedVariants+1)

structure Frame where
  compact : Bool
  epoch : String
  scope : String
  baseRev : Nat
  rev : Nat
  patch : String

def PreparedDelta.frame (delta : PreparedDelta) (baseRevision : Nat) : Frame where
  compact := delta.compact
  epoch := delta.epoch
  scope := delta.scope
  baseRev := baseRevision
  rev := delta.revision
  patch := delta.patch

/-- The total size that the history keeps beside its entries. -/
def totalBytes (entries : List PreparedDelta) : Nat := (entries.map PreparedDelta.bytes).sum

def pruneEntries (now : Nat) : List PreparedDelta → Nat → List PreparedDelta × Nat
  | [], bytes => ([], bytes)
  | entry::rest, bytes =>
    if historyEntries<(entry::rest).length ∨ historyBytes<bytes ∨ historyTtl<now-entry.created
    then pruneEntries now rest (bytes-entry.bytes)
    else (entry::rest, bytes)

section
variable (now : Nat) (entries : List PreparedDelta)

theorem pruneEntries_suffix (bytes : Nat) : (pruneEntries now entries bytes).1 <:+ entries := by
  induction entries generalizing bytes with
  | nil => exact List.suffix_refl _
  | cons entry rest ih =>
    rw [pruneEntries]
    split
    · exact (ih _).trans (List.suffix_cons entry rest)
    · exact List.suffix_refl _

theorem pruneEntries_bytes : (pruneEntries now entries (totalBytes entries)).2 =
      totalBytes (pruneEntries now entries (totalBytes entries)).1 := by
  induction entries with
  | nil => rfl
  | cons entry rest ih =>
    have hrest : totalBytes (entry::rest)-entry.bytes=totalBytes rest := by simp [totalBytes]
    rw [pruneEntries,hrest]
    split
    · exact ih
    · rfl

theorem pruneEntries_bounded :
    (pruneEntries now entries (totalBytes entries)).1.length≤historyEntries ∧
      totalBytes (pruneEntries now entries (totalBytes entries)).1≤historyBytes := by
  induction entries with
  | nil => exact ⟨Nat.zero_le _,Nat.zero_le _⟩
  | cons entry rest ih =>
    have hrest : totalBytes (entry::rest)-entry.bytes=totalBytes rest := by simp [totalBytes]
    rw [pruneEntries,hrest]
    split
    · exact ih
    · rename_i hkeep
      rw [not_or,not_or,Nat.not_lt,Nat.not_lt] at hkeep
      exact ⟨hkeep.1,hkeep.2.1⟩

end

/-- A history is never larger than its bounds, and counts its bytes exactly. -/
structure LiveHistory where
  entries : List PreparedDelta
  bytes : Nat
  bytes_eq : bytes=totalBytes entries
  length_le : entries.length≤historyEntries
  bytes_le : totalBytes entries≤historyBytes

namespace LiveHistory

def clear : LiveHistory where
  entries := []
  bytes := 0
  bytes_eq := rfl
  length_le := Nat.zero_le _
  bytes_le := Nat.zero_le _

def pruned (now : Nat) (entries : List PreparedDelta) (bytes : Nat)
    (h : bytes=totalBytes entries) : LiveHistory where
  entries := (pruneEntries now entries bytes).1
  bytes := (pruneEntries now entries bytes).2
  bytes_eq := h ▸ pruneEntries_bytes now entries
  length_le := h ▸ (pruneEntries_bounded now entries).1
  bytes_le := h ▸ (pruneEntries_bounded now entries).2

def prune (history : LiveHistory) (now : Nat) : LiveHistory :=
  pruned now history.entries history.bytes history.bytes_eq

def push (history : LiveHistory) (delta : PreparedDelta) (now : Nat) : LiveHistory :=
  pruned now (history.entries++[delta]) (history.bytes+delta.bytes)
    (by simp [totalBytes,history.bytes_eq])

theorem prune_suffix (history : LiveHistory) (now : Nat) :
    (history.prune now).entries <:+ history.entries :=
  pruneEntries_suffix _ _ _

theorem push_suffix (history : LiveHistory) (delta : PreparedDelta) (now : Nat) :
    (history.push delta now).entries <:+ history.entries++[delta] :=
  pruneEntries_suffix _ _ _

/-- The loop of `recover`: the whole chain from the cursor, or nothing. -/
def recoverChain (target : Nat) : Nat → List PreparedDelta → Option (List PreparedDelta)
  | _, [] => none
  | cursor, entry::rest =>
    if entry.revision ≤ cursor then recoverChain target cursor rest
    else if entry.baseRevision≠cursor ∨ target<entry.revision then none
    else if entry.revision=target then some [entry]
    else (recoverChain target entry.revision rest).map (entry :: ·)

def recover (history : LiveHistory) (since target now : Nat) :
    LiveHistory × Option (List PreparedDelta) :=
  let history := history.prune now
  (history,
    if since=target then some []
    else if target < since then none
    else recoverChain target since history.entries)

end LiveHistory

/-- A view: what a client shows, and the revision it shows it at. A client that holds a view has its
epoch, scope and revision as its cursor. -/
structure LiveView (γ : Type) where
  content : γ
  revision : Nat
  epoch : String
  scope : String

structure StateFeedData (γ : Type) where
  view : Option (LiveView γ)
  history : LiveHistory
  compact : Bool

inductive FeedPanic
  | uninitialized
  | emptyRevisionGap

namespace StateFeedData
variable {γ : Type}

def new (compact : Bool) : StateFeedData γ where
  view := none
  history := .clear
  compact := compact

def delta (data : StateFeedData γ) (view : LiveView γ) (base : Nat) (patch : String) (now : Nat) :
    PreparedDelta where
  baseRevision := base
  revision := view.revision
  created := now
  epoch := view.epoch
  scope := view.scope
  patch := patch
  compact := data.compact

def advanceUnchanged (revision now : Nat) (data : StateFeedData γ) :
    Except FeedPanic (StateFeedData γ) :=
  match data.view with
  | none => .error .uninitialized
  | some view =>
    let next := { view with revision }
    .ok { data with
      history := data.history.push (data.delta next view.revision emptyPatch now) now
      view := some next }

def replace (next : LiveView γ) (patch : Option String) (now : Nat) (data : StateFeedData γ) :
    StateFeedData γ :=
  let history :=
    match data.view, patch with
    | none, _ => data.history
    | some _, none => .clear
    | some previous, some patch =>
      if previous.epoch≠next.epoch ∨ previous.scope≠next.scope then .clear
      else if previous.revision≠next.revision
      then data.history.push (data.delta next previous.revision patch now) now
      else data.history
  { data with history, view := some next }

end StateFeedData

/-- What happens to a feed. A recovery for a client also evicts. -/
inductive FeedOp (γ : Type)
  | replace (next : LiveView γ) (patch : Option String) (now : Nat)
  | advanceUnchanged (revision now : Nat)
  | recover (since target now : Nat)

variable {γ : Type}

def FeedOp.step : FeedOp γ → StateFeedData γ → Except FeedPanic (StateFeedData γ)
  | .replace next patch now, data => .ok (data.replace next patch now)
  | .advanceUnchanged revision now, data => data.advanceUnchanged revision now
  | .recover since target now, data =>
    .ok { data with history := (data.history.recover since target now).1 }

structure Delivery where
  frames : List Frame
  epoch : String
  scope : String
  revision : Nat
  resync : Bool
  compact : Bool

def materialFrames : Nat → List PreparedDelta → List Frame × Nat
  | cursor, [] => ([], cursor)
  | cursor, delta::rest =>
    if delta.empty then materialFrames cursor rest
    else
      let later := materialFrames delta.revision rest
      (delta.frame cursor::later.1, later.2)

def delivery (data : StateFeedData γ) (clientEpoch : String) (clientRevision : Option Nat)
    (clientScope : String) (checkpoint : Bool) (now : Nat) :
    Except FeedPanic (StateFeedData γ × Delivery) :=
  match data.view with
  | none => .error .uninitialized
  | some view =>
    let resync : Delivery :=
      { frames := [], epoch := view.epoch, scope := view.scope, revision := view.revision,
        resync := true, compact := data.compact }
    match clientRevision with
    | none => .ok (data, resync)
    | some since =>
      if clientEpoch=view.epoch ∧ clientScope=view.scope then
        let recovered := data.history.recover since view.revision now
        let data := { data with history := recovered.1 }
        match recovered.2 with
        | none => .ok (data, resync)
        | some history =>
          let material := materialFrames since history
          let delivered : Delivery :=
            { resync with frames := material.1, revision := material.2, resync := false }
          if checkpoint ∧ material.2≠view.revision then
            match history.getLast? with
            | none => .error .emptyRevisionGap
            -- the revisions that changed nothing are advanced over by their last delta
            | some last => .ok (data, { delivered with
                frames := material.1++[last.frame material.2], revision := view.revision })
          else .ok (data, delivered)
      else .ok (data, resync)

/-- A client takes a frame only at its own cursor. -/
def receive (apply : String → γ → Option γ) (client : LiveView γ) (frame : Frame) :
    Option (LiveView γ) :=
  if frame.epoch=client.epoch ∧ frame.scope=client.scope ∧ frame.baseRev=client.revision
  then (apply frame.patch client.content).map fun content =>
    { client with content, revision := frame.rev }
  else none

/-- A patch given to `replace` leads from the view that the feed shows to the next one. -/
def FeedOp.Correct (apply : String → γ → Option γ) (data : StateFeedData γ) : FeedOp γ → Prop
  | .replace next (some patch) _ => ∀ previous, data.view=some previous →
      previous.epoch=next.epoch → previous.scope=next.scope →
      apply patch previous.content=some next.content
  | _ => True

/-- The feed showed the view after some of the operations. -/
def Published (data : StateFeedData γ) (ops : List (FeedOp γ)) (view : LiveView γ) : Prop :=
  ∃ reached, reached <+: ops ∧ (Run.run FeedOp.step data reached).view=some view

end MiniErp.Live
