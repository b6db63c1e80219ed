import Mathlib.Data.List.Basic

/-! Reference-counted locks found by key in a table of weak references: a lock is shared while
somebody holds it, and only its last holder may take it out of the table. -/
namespace MiniErp.LockTable
open List
variable {κ : Type*}

/-- A strong reference to the lock of a key. -/
structure Lease (κ : Type*) where
  key : κ
  lock : Nat

/-- Locks by number with their strong counts; `registry` has weak references only. -/
structure Table (κ : Type*) where
  registry : κ → Option Nat
  strong : Nat → Nat
  next : Nat

namespace Table

def empty : Table κ := ⟨fun _ => none,fun _ => 0,0⟩

def clone (table : Table κ) (lock : Nat) : Table κ :=
  { table with strong := Function.update table.strong lock (table.strong lock+1) }

def drop (table : Table κ) (lock : Nat) : Table κ :=
  { table with strong := Function.update table.strong lock (table.strong lock-1) }

/-- The lock of a key while somebody holds it. -/
def upgrade (table : Table κ) (key : κ) : Option Nat :=
  (table.registry key).filter fun lock => table.strong lock≠0

/-- A lock belongs to one key, and numbers from `next` on were never used. -/
structure Ok (table : Table κ) : Prop where
  fresh : ∀ lock, table.next≤lock → table.strong lock=0
  bounded : ∀ key lock, table.registry key=some lock → lock<table.next
  injective : ∀ first second lock, table.registry first=some lock →
    table.registry second=some lock → first=second

theorem ok_empty : (empty : Table κ).Ok := by
  constructor
  · intro lock _
    rfl
  · intro key lock h
    cases h
  · intro first second lock h
    cases h

variable {table : Table κ}

theorem upgrade_eq_some {key : κ} {lock : Nat} :
    table.upgrade key=some lock ↔ table.registry key=some lock ∧ table.strong lock≠0 := by
  simp [upgrade,Option.filter_eq_some_iff]

/-- The count of a lock that is not new stays in use below `next`. -/
theorem Ok.ok_strong (h : table.Ok) {strong : Nat → Nat}
    (hstrong : ∀ lock, table.next≤lock → strong lock=0) : Ok { table with strong } :=
  ⟨hstrong,h.bounded,h.injective⟩

theorem Ok.clone (h : table.Ok) {lock : Nat} (hlock : lock<table.next) : (table.clone lock).Ok := by
  refine h.ok_strong fun other hother => ?_
  rw [Function.update_of_ne (by omega)]
  exact h.fresh other hother

theorem Ok.drop (h : table.Ok) (lock : Nat) : (table.drop lock).Ok := by
  refine h.ok_strong fun other hother => ?_
  by_cases hsame : other=lock
  · rw [hsame,Function.update_self,h.fresh lock (hsame ▸ hother)]
  · rw [Function.update_of_ne hsame]
    exact h.fresh other hother

variable [DecidableEq κ]

/-- The lock of the key, or a new one that the table then finds. -/
def lease (table : Table κ) (key : κ) : Table κ × Lease κ :=
  match table.upgrade key with
  | some lock => (table.clone lock, ⟨key,lock⟩)
  | none =>
    ({ registry := Function.update table.registry key (some table.next)
       strong := Function.update table.strong table.next 1
       next := table.next+1 }, ⟨key,table.next⟩)

def leaseAll (table : Table κ) : List κ → Table κ × List (Lease κ)
  | [] => (table, [])
  | key::rest =>
    let first := table.lease key
    let others := first.1.leaseAll rest
    (others.1, first.2::others.2)

/-- The last strong reference takes the lock out of the table, if the table still has it. -/
def retire (table : Table κ) (lease : Lease κ) : Table κ :=
  if table.strong lease.lock=1 ∧ table.registry lease.key=some lease.lock
  then { table with registry := Function.update table.registry lease.key none }
  else table

theorem Ok.retire (h : table.Ok) (lease : Lease κ) : (table.retire lease).Ok := by
  unfold Table.retire
  split
  · have hkept : ∀ key lock, Function.update table.registry lease.key none key=some lock →
        table.registry key=some lock := by
      intro key lock hkey
      by_cases hsame : key=lease.key
      · rw [hsame,Function.update_self] at hkey
        cases hkey
      · rwa [Function.update_of_ne hsame] at hkey
    refine ⟨h.fresh,fun key lock hkey => h.bounded key lock (hkept key lock hkey),?_⟩
    intro first second lock hfirst hsecond
    exact h.injective first second lock (hkept _ _ hfirst) (hkept _ _ hsecond)
  · exact h

/-- What a lease does: its lock is counted once more and found by its key, and locks in use stay
found. -/
structure Leased (table next : Table κ) (leases : List (Lease κ)) : Prop where
  ok : next.Ok
  strong : ∀ lock, next.strong lock=table.strong lock+leases.countP fun l => l.lock=lock
  found : ∀ l∈leases, next.registry l.key=some l.lock
  kept : ∀ key lock, table.registry key=some lock → table.strong lock≠0 →
    next.registry key=some lock

theorem leased_lease (h : table.Ok) (key : κ) :
    Leased table (table.lease key).1 [(table.lease key).2] := by
  unfold lease
  cases hupgrade : table.upgrade key with
  | some lock =>
    obtain ⟨hregistry,hstrong⟩ := upgrade_eq_some.mp hupgrade
    refine ⟨h.clone (h.bounded key lock hregistry),?_,?_,fun _ _ hkept _ => hkept⟩
    · intro other
      by_cases hsame : other=lock
      · simp [clone,hsame]
      · simp [clone,hsame,Ne.symm hsame]
    · intro l hl
      rw [mem_singleton.mp hl]
      exact hregistry
  | none =>
    have hnew : ∀ k lock, Function.update table.registry key (some table.next) k=some lock →
        k=key ∧ lock=table.next ∨ table.registry k=some lock := by
      intro k lock hk
      by_cases hsame : k=key
      · rw [hsame,Function.update_self] at hk
        exact .inl ⟨hsame,(Option.some.inj hk).symm⟩
      · rw [Function.update_of_ne hsame] at hk
        exact .inr hk
    refine ⟨⟨?_,?_,?_⟩,?_,?_,?_⟩
    · intro lock hlock
      change table.next+1≤lock at hlock
      change Function.update table.strong table.next 1 lock=0
      rw [Function.update_of_ne (by omega)]
      exact h.fresh lock (by omega)
    · intro k lock hk
      change lock<table.next+1
      cases hnew k lock hk with
      | inl hkey => omega
      | inr hold => exact Nat.lt_succ_of_lt (h.bounded k lock hold)
    · intro first second lock hfirst hsecond
      cases hnew first lock hfirst with
      | inl hkey =>
        cases hnew second lock hsecond with
        | inl hkey' => rw [hkey.1,hkey'.1]
        | inr hold => exact absurd (h.bounded second lock hold) (by omega)
      | inr hold =>
        cases hnew second lock hsecond with
        | inl hkey => exact absurd (h.bounded first lock hold) (by omega)
        | inr hold' => exact h.injective first second lock hold hold'
    · intro lock
      by_cases hsame : lock=table.next
      · simp [hsame,h.fresh table.next (Nat.le_refl _)]
      · simp [hsame,Ne.symm hsame]
    · intro l hl
      rw [mem_singleton.mp hl]
      exact Function.update_self ..
    · intro k lock hk hstrong
      have hne : k≠key := by
        intro heq
        rw [heq] at hk
        rw [upgrade_eq_some.mpr ⟨hk,hstrong⟩] at hupgrade
        cases hupgrade
      change Function.update table.registry key (some table.next) k=some lock
      rw [Function.update_of_ne hne]
      exact hk

theorem leased_leaseAll (h : table.Ok) (keys : List κ) :
    Leased table (table.leaseAll keys).1 (table.leaseAll keys).2 := by
  induction keys generalizing table with
  | nil => exact ⟨h,fun _ => rfl,by simp [leaseAll],fun _ _ hkept _ => hkept⟩
  | cons key rest ih =>
    have hfirst := leased_lease h key
    have hrest := ih hfirst.ok
    have hlive : ∀ lock, table.strong lock≠0 → (table.lease key).1.strong lock≠0 := by
      intro lock hlock
      rw [hfirst.strong]
      omega
    refine ⟨hrest.ok,?_,?_,?_⟩
    · intro lock
      simp only [leaseAll]
      rw [hrest.strong,hfirst.strong,countP_cons,countP_cons,countP_nil]
      omega
    · intro l hl
      cases hl with
      | head =>
        refine hrest.kept _ _ (hfirst.found _ mem_cons_self) ?_
        rw [hfirst.strong]
        simp
      | tail _ hl => exact hrest.found l hl
    · intro k lock hk hlock
      exact hrest.kept k lock (hfirst.kept k lock hk hlock) (hlive lock hlock)

theorem map_key_leaseAll (table : Table κ) (keys : List κ) :
    (table.leaseAll keys).2.map Lease.key=keys := by
  induction keys generalizing table with
  | nil => rfl
  | cons key rest ih =>
    have hkey : (table.lease key).2.key=key := by
      unfold lease
      split
      · rfl
      · rfl
    simp only [leaseAll,map_cons,hkey,ih]

theorem registry_retire {lease : Lease κ} {key : κ} {lock : Nat}
    (h : table.registry key=some lock) (hshared : lock=lease.lock → table.strong lock≠1) :
    (table.retire lease).registry key=some lock := by
  unfold retire
  split
  · rename_i hlast
    have hne : key≠lease.key := by
      intro hkey
      rw [hkey,hlast.2] at h
      have hlock : lock=lease.lock := (Option.some.inj h).symm
      exact hshared hlock (hlock ▸ hlast.1)
    change Function.update table.registry lease.key none key=some lock
    rw [Function.update_of_ne hne]
    exact h
  · exact h

end Table

end MiniErp.LockTable
