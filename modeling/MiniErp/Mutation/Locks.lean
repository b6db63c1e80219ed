import MiniErp.Lib.LockTable
import Mathlib.Algebra.Order.BigOperators.Group.Finset
import Mathlib.Data.List.Sort
import Mathlib.Data.Prod.Lex
import Mathlib.Data.String.Basic

/-! The locks of production mutations: calls of `scoped` lease the locks of their keys from a shared
registry, wait for them in the order of the keys and give them back, in any interleaving. -/
namespace MiniErp.Mutation
open LockTable

abbrev ResourceKey : Type := String ×ₗ String

/-- Where a call of `scoped` is; a call that has all its guards has returned them and stays in
`acquiring` until they are dropped. -/
inductive Phase
  | queued
  | entered
  | acquiring
  | dropping
  | done
deriving DecidableEq

structure Call (κ : Type*) where
  phase : Phase
  leases : List (Lease κ)
  guards : List (Lease κ)
  /-- The lease whose mutex is awaited; the waiting future has its own reference. -/
  pending : Option (Lease κ)
  /-- The reference of something already dropped, not yet counted down. -/
  retired : Option Nat

def Call.new {κ : Type*} : Call κ := ⟨.queued,[],[],none,none⟩

structure LockState (ι κ : Type*) where
  resources : LockTable.Table κ
  holder : Nat → Option ι
  waiters : Nat → List ι
  calls : ι → Call κ
  /-- A mutation of several queues has the barrier for itself. -/
  exclusive : Bool

namespace LockState
variable {ι κ : Type*}

def init : LockState ι κ where
  resources := .empty
  holder := fun _ => none
  waiters := fun _ => []
  calls := fun _ => .new
  exclusive := false

variable [DecidableEq ι] (i : ι) (s : LockState ι κ)

def setCall (call : Call κ) : LockState ι κ := { s with calls := Function.update s.calls i call }

def lockExclusive [Fintype ι] : Option (LockState ι κ) :=
  if s.exclusive=false ∧ ∀ j, (s.calls j).phase=.queued ∨ (s.calls j).phase=.done
  then some { s with exclusive := true } else none

def unlockExclusive : Option (LockState ι κ) :=
  if s.exclusive then some { s with exclusive := false } else none

def enter : Option (LockState ι κ) :=
  if (s.calls i).phase=.queued ∧ s.exclusive=false
  then some (s.setCall i { s.calls i with phase := .entered }) else none

/-- `sort_unstable` and `dedup`. -/
def sortedKeys [LinearOrder κ] (keys : List κ) : List κ := (keys.insertionSort (· ≤ ·)).dedup

/-- The leases of all keys are made while the registry is locked. -/
def lease [LinearOrder κ] (keys : List κ) : Option (LockState ι κ) :=
  if (s.calls i).phase=.entered then
    let leased := s.resources.leaseAll (sortedKeys keys)
    some ({ s with resources := leased.1 }.setCall i
      { s.calls i with phase := .acquiring, leases := leased.2 })
  else none

/-- The next lock is cloned into a future that queues for its mutex. -/
def await : Option (LockState ι κ) :=
  let call := s.calls i
  match call.leases.drop call.guards.length with
  | lease :: _ =>
    if call.phase=.acquiring ∧ call.pending.isNone then
      some ({ s with
        resources := s.resources.clone lease.lock
        waiters := Function.update s.waiters lease.lock (s.waiters lease.lock++[i]) }.setCall i
          { call with pending := some lease })
    else none
  | [] => none

/-- A free mutex goes to the first waiter. -/
def acquire : Option (LockState ι κ) :=
  let call := s.calls i
  match call.pending with
  | some lease =>
    if call.phase=.acquiring ∧ (s.holder lease.lock).isNone ∧
      (s.waiters lease.lock).head?=some i then
      some ({ s with
        holder := Function.update s.holder lease.lock (some i)
        waiters := Function.update s.waiters lease.lock (s.waiters lease.lock).tail }.setCall i
          { call with guards := call.guards++[lease], pending := none })
    else none
  | none => none

/-- The call is cancelled, or its guard is dropped. -/
def cancel : Option (LockState ι κ) :=
  match (s.calls i).phase with
  | .queued => some (s.setCall i { s.calls i with phase := .done })
  | .acquiring => some (s.setCall i { s.calls i with phase := .dropping })
  | _ => none

/-- A cancelled future leaves the queue of its mutex. -/
def dropPending : Option (LockState ι κ) :=
  let call := s.calls i
  match call.pending with
  | some lease =>
    if call.phase=.dropping ∧ call.retired.isNone then
      some ({ s with waiters :=
          Function.update s.waiters lease.lock ((s.waiters lease.lock).erase i) }.setCall i
        { call with pending := none, retired := some lease.lock })
    else none
  | none => none

def dropGuard : Option (LockState ι κ) :=
  let call := s.calls i
  match call.guards with
  | lease::rest =>
    if call.phase=.dropping ∧ call.retired.isNone ∧ call.pending.isNone then
      some ({ s with holder := Function.update s.holder lease.lock none }.setCall i
        { call with guards := rest, retired := some lease.lock })
    else none
  | [] => none

/-- `ResourceLease::drop`, while the registry is locked. -/
def dropLease [DecidableEq κ] : Option (LockState ι κ) :=
  let call := s.calls i
  match call.leases with
  | lease::rest =>
    if call.phase=.dropping ∧ call.retired.isNone ∧ call.pending.isNone ∧ call.guards.isEmpty then
      some ({ s with resources := s.resources.retire lease }.setCall i
        { call with leases := rest, retired := some lease.lock })
    else none
  | [] => none

/-- The reference of what was dropped last is counted down. -/
def decrement : Option (LockState ι κ) :=
  match (s.calls i).retired with
  | some lock => some ({ s with resources := s.resources.drop lock }.setCall i
      { s.calls i with retired := none })
  | none => none

def leave : Option (LockState ι κ) :=
  let call := s.calls i
  if call.phase=.dropping ∧ call.retired.isNone ∧ call.pending.isNone ∧ call.guards.isEmpty ∧
    call.leases.isEmpty
  then some (s.setCall i { call with phase := .done }) else none

end LockState

inductive LockAction (ι : Type*)
  | lockExclusive
  | unlockExclusive
  | enter (i : ι)
  | lease (i : ι)
  | await (i : ι)
  | acquire (i : ι)
  | cancel (i : ι)
  | dropPending (i : ι)
  | dropGuard (i : ι)
  | dropLease (i : ι)
  | decrement (i : ι)
  | leave (i : ι)

section Steps
variable {ι κ : Type*} [DecidableEq ι] [Fintype ι] [LinearOrder κ]

/-- One atomic step of the calls, each made with its own keys. -/
def LockAction.step (keys : ι → List κ) : LockAction ι → LockState ι κ → Option (LockState ι κ)
  | .lockExclusive, s => s.lockExclusive
  | .unlockExclusive, s => s.unlockExclusive
  | .enter i, s => s.enter i
  | .lease i, s => s.lease i (keys i)
  | .await i, s => s.await i
  | .acquire i, s => s.acquire i
  | .cancel i, s => s.cancel i
  | .dropPending i, s => s.dropPending i
  | .dropGuard i, s => s.dropGuard i
  | .dropLease i, s => s.dropLease i
  | .decrement i, s => s.decrement i
  | .leave i, s => s.leave i

/-- The states that some interleaving reaches. -/
inductive Reachable (keys : ι → List κ) : LockState ι κ → Prop
  | init : Reachable keys .init
  | step {s t : LockState ι κ} (action : LockAction ι) :
      Reachable keys s → action.step keys s=some t → Reachable keys t

def runActions (keys : ι → List κ) (actions : List (LockAction ι)) (s : LockState ι κ) :
    Option (LockState ι κ) :=
  actions.foldlM (fun s action => action.step keys s) s

theorem reachable_of_runActions {keys : ι → List κ} {actions : List (LockAction ι)}
    {s t : LockState ι κ} (hs : Reachable keys s) (h : runActions keys actions s=some t) :
    Reachable keys t := by
  induction actions generalizing s with
  | nil =>
    cases h
    exact hs
  | cons action rest ih =>
    obtain ⟨next,hnext,hrest⟩ := Option.bind_eq_some_iff.mp h
    exact ih (.step action hs hnext) hrest

end Steps

/-- All guards of the call were acquired and none is dropped yet. -/
def Call.Acquired {κ : Type*} (call : Call κ) : Prop :=
  call.phase=.acquiring ∧ call.guards.length=call.leases.length

/-- A call waits for the holder of the mutex it awaits, and for those queued there before it. -/
def LockState.Waits {ι κ : Type*} [DecidableEq ι] (s : LockState ι κ) (i j : ι) : Prop :=
  ∃ lease, (s.calls i).pending=some lease ∧ (s.holder lease.lock=some j ∨ j∈s.waiters lease.lock ∧
        (s.waiters lease.lock).idxOf j<(s.waiters lease.lock).idxOf i)

end MiniErp.Mutation
