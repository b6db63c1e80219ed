import MiniErp.Mutation.Locks

/-! Every interleaving of the lock calls keeps one mutex for each key that is leased, one holder for
each mutex, and no circle of calls that wait for each other. -/
namespace MiniErp.Mutation
open LockTable List

/-- The references to a lock that a call has. -/
def Call.references {κ : Type*} (call : Call κ) (lock : Nat) : Nat :=
  (call.leases.countP fun l => l.lock=lock)+(call.guards.countP fun l => l.lock=lock) +
    (call.pending.toList.countP fun l => l.lock=lock)+call.retired.toList.count lock

theorem references_pos {κ : Type*} {call : Call κ} {l : Lease κ} (h : l∈call.leases) :
    0 < call.references l.lock := by
  have hcount : 0 < call.leases.countP fun other => other.lock=l.lock :=
    countP_pos_iff.mpr ⟨l,h,by simp⟩
  unfold Call.references
  omega

theorem sum_update {ι κ : Type*} [DecidableEq ι] [Fintype ι] (calls : ι → Call κ) (i : ι)
    (call : Call κ) (lock : Nat) :
    (∑ j, (Function.update calls i call j).references lock)+(calls i).references lock =
      (∑ j, (calls j).references lock)+call.references lock := by
  rw [← Finset.add_sum_erase _ _ (Finset.mem_univ i),Function.update_self,
    ← Finset.add_sum_erase Finset.univ (fun j => (calls j).references lock) (Finset.mem_univ i)]
  have hothers : ∑ j∈Finset.univ.erase i, (Function.update calls i call j).references lock =
      ∑ j∈Finset.univ.erase i, (calls j).references lock := by
    refine Finset.sum_congr rfl fun j hj => ?_
    rw [Function.update_of_ne (Finset.ne_of_mem_erase hj)]
  omega

variable {ι κ : Type*} [LinearOrder κ]

theorem pairwise_sortedKeys (keys : List κ) : (LockState.sortedKeys keys).Pairwise (· < ·) := by
  have hsorted : (LockState.sortedKeys keys).Pairwise (· ≤ ·) :=
    (pairwise_insertionSort (· ≤ ·) keys).sublist (dedup_sublist _)
  exact (hsorted.and (nodup_dedup _)).imp fun h => lt_of_le_of_ne h.1 h.2

variable {keys : List κ}

theorem mem_sortedKeys {key : κ} : key∈LockState.sortedKeys keys ↔ key∈keys := by
  rw [LockState.sortedKeys,mem_dedup,mem_insertionSort]

/-- What a call holds, from its phase. -/
structure CallOk (keys : List κ) (call : Call κ) : Prop where
  sorted : call.leases.Pairwise fun first second => first.key < second.key
  outside : call.phase ≠ .acquiring → call.phase ≠ .dropping →
    call.leases=[] ∧ call.guards=[] ∧ call.pending=none ∧ call.retired=none
  acquiring : call.phase=.acquiring → call.retired=none ∧ call.guards <+: call.leases ∧
    call.leases.map Lease.key=LockState.sortedKeys keys
  guards : call.guards.Sublist call.leases
  pending : ∀ lease, call.pending=some lease → call.guards++[lease] <+: call.leases

theorem callOk_outside {call : Call κ} (hphase : call.phase ≠ .acquiring)
    (hleases : call.leases=[]) (hguards : call.guards=[]) (hpending : call.pending=none)
    (hretired : call.retired=none) : CallOk keys call where
  sorted := by simp [hleases]
  outside := fun _ _ => ⟨hleases,hguards,hpending,hretired⟩
  acquiring := fun h => absurd h hphase
  guards := by simp [hguards]
  pending := by simp [hpending]

theorem callOk_dropping {call : Call κ} (hphase : call.phase=.dropping)
    (hsorted : call.leases.Pairwise fun first second => first.key < second.key)
    (hguards : call.guards.Sublist call.leases) (hpending : call.pending=none) :
    CallOk keys call where
  sorted := hsorted
  outside := fun _ h => absurd hphase h
  acquiring := fun h => by rw [hphase] at h; cases h
  guards := hguards
  pending := by simp [hpending]

section Invariant
variable [Fintype ι] {keys : ι → List κ} {s : LockState ι κ}

/-- What holds in every reachable state. -/
structure Safe (keys : ι → List κ) (s : LockState ι κ) : Prop where
  resources : s.resources.Ok
  calls : ∀ i, CallOk (keys i) (s.calls i)
  counted : ∀ lock, s.resources.strong lock = ∑ i, (s.calls i).references lock
  registered : ∀ i, ∀ l∈(s.calls i).leases, s.resources.registry l.key=some l.lock
  holder : ∀ lock i, s.holder lock=some i ↔ ∃ l∈(s.calls i).guards, l.lock=lock
  waiters : ∀ lock i, i∈s.waiters lock ↔ ∃ l, (s.calls i).pending=some l ∧ l.lock=lock
  nodup : ∀ lock, (s.waiters lock).Nodup

theorem safe_init : Safe keys .init where
  resources := LockTable.Table.ok_empty
  calls := fun _ => callOk_outside (by simp [LockState.init,Call.new]) rfl rfl rfl rfl
  counted := by simp [LockState.init,LockTable.Table.empty,Call.references,Call.new]
  registered := by
    intro i l hl
    cases hl
  holder := by simp [LockState.init,Call.new]
  waiters := by simp [LockState.init,Call.new]
  nodup := fun _ => nodup_nil

theorem Safe.references_le (h : Safe keys s) (i : ι) (lock : Nat) :
    (s.calls i).references lock ≤ s.resources.strong lock := by
  rw [h.counted]
  exact Finset.single_le_sum (f := fun j => (s.calls j).references lock)
    (fun _ _ => Nat.zero_le _) (Finset.mem_univ i)

variable {i : ι}

theorem Safe.not_mem_waiters (h : Safe keys s) (hpending : (s.calls i).pending=none)
    (lock : Nat) : i∉s.waiters lock := by
  intro hwait
  obtain ⟨l,hl,_⟩ := (h.waiters lock i).mp hwait
  rw [hpending] at hl
  cases hl

/-- Two leases of one mutex are for one key. -/
theorem Safe.key_eq (h : Safe keys s) {j : ι} {first second : Lease κ}
    (hfirst : first∈(s.calls i).leases) (hsecond : second∈(s.calls j).leases)
    (hlock : first.lock=second.lock) : first.key=second.key := by
  refine h.resources.injective _ _ first.lock (h.registered i first hfirst) ?_
  rw [hlock]
  exact h.registered j second hsecond

variable [DecidableEq ι]

theorem Safe.references_add_le (h : Safe keys s) {j : ι} (hne : j≠i) (lock : Nat) :
    (s.calls i).references lock+(s.calls j).references lock ≤ s.resources.strong lock := by
  rw [h.counted,← Finset.add_sum_erase _ _ (Finset.mem_univ i)]
  refine Nat.add_le_add_left ?_ _
  exact Finset.single_le_sum (f := fun j => (s.calls j).references lock)
    (fun _ _ => Nat.zero_le _) (Finset.mem_erase.mpr ⟨hne,Finset.mem_univ j⟩)

/-- A step that changes one call: what it has to keep of the other calls, and to establish for its
own. -/
theorem Safe.update (h : Safe keys s) {resources : LockTable.Table κ} {holder : Nat → Option ι}
    {waiters : Nat → List ι} {call : Call κ} {exclusive : Bool} (hresources : resources.Ok)
    (hcall : CallOk (keys i) call)
    (hcounted : ∀ lock, resources.strong lock+(s.calls i).references lock =
      s.resources.strong lock+call.references lock)
    (hothers : ∀ j, j≠i → ∀ l∈(s.calls j).leases, resources.registry l.key=some l.lock)
    (hregistered : ∀ l∈call.leases, resources.registry l.key=some l.lock)
    (hholders : ∀ lock j, j≠i → (holder lock=some j ↔ s.holder lock=some j))
    (hholder : ∀ lock, holder lock=some i ↔ ∃ l∈call.guards, l.lock=lock)
    (hqueues : ∀ lock j, j≠i → (j∈waiters lock ↔ j∈s.waiters lock))
    (hqueue : ∀ lock, i∈waiters lock ↔ ∃ l, call.pending=some l ∧ l.lock=lock)
    (hnodup : ∀ lock, (waiters lock).Nodup) :
    Safe keys ⟨resources,holder,waiters,Function.update s.calls i call,exclusive⟩ := by
  refine ⟨hresources,?_,?_,?_,?_,?_,hnodup⟩
  · exact (Function.forall_update_iff s.calls fun j => CallOk (keys j)).mpr
      ⟨hcall,fun j _ => h.calls j⟩
  · intro lock
    have hsum := sum_update s.calls i call lock
    have hbefore := h.counted lock
    have hafter := hcounted lock
    change resources.strong lock = ∑ j, (Function.update s.calls i call j).references lock
    omega
  · exact (Function.forall_update_iff s.calls fun _ call =>
      ∀ l∈call.leases, resources.registry l.key=some l.lock).mpr ⟨hregistered,hothers⟩
  · intro lock
    exact (Function.forall_update_iff s.calls fun j call =>
      holder lock=some j ↔ ∃ l∈call.guards, l.lock=lock).mpr
        ⟨hholder lock,fun j hj => (hholders lock j hj).trans (h.holder lock j)⟩
  · intro lock
    exact (Function.forall_update_iff s.calls fun j call =>
      j∈waiters lock ↔ ∃ l, call.pending=some l ∧ l.lock=lock).mpr
        ⟨hqueue lock,fun j hj => (hqueues lock j hj).trans (h.waiters lock j)⟩

theorem Safe.setPhase (h : Safe keys s) {phase : Phase}
    (hok : CallOk (keys i) { s.calls i with phase }) :
    Safe keys (s.setCall i { s.calls i with phase }) :=
  h.update h.resources hok (fun _ => rfl) (fun j _ => h.registered j) (h.registered i)
    (fun _ _ _ => Iff.rfl) (fun lock => h.holder lock i) (fun _ _ _ => Iff.rfl)
    (fun lock => h.waiters lock i) h.nodup

end Invariant

section Steps
variable [DecidableEq ι] [Fintype ι] {keys : ι → List κ} {s t : LockState ι κ} {i : ι}

section
variable (h : Safe keys s)
include h

theorem safe_enter (hstep : s.enter i=some t) : Safe keys t := by
  unfold LockState.enter at hstep
  split at hstep
  · rename_i hphase
    cases hstep
    obtain ⟨hleases,hguards,hpending,hretired⟩ :=
      (h.calls i).outside (by simp [hphase.1]) (by simp [hphase.1])
    exact h.setPhase (callOk_outside (by simp) hleases hguards hpending hretired)
  · cases hstep

theorem safe_cancel (hstep : s.cancel i=some t) : Safe keys t := by
  unfold LockState.cancel at hstep
  have hok := h.calls i
  split at hstep
  · rename_i hphase
    cases hstep
    obtain ⟨hleases,hguards,hpending,hretired⟩ := hok.outside (by simp [hphase]) (by simp [hphase])
    exact h.setPhase (callOk_outside (by simp) hleases hguards hpending hretired)
  · cases hstep
    exact h.setPhase ⟨hok.sorted,by simp,by simp,hok.guards,hok.pending⟩
  · cases hstep

theorem safe_leave (hstep : s.leave i=some t) : Safe keys t := by
  simp only [LockState.leave] at hstep
  split at hstep
  · rename_i hempty
    cases hstep
    obtain ⟨_,hretired,hpending,hguards,hleases⟩ := hempty
    exact h.setPhase (callOk_outside (by simp) (List.isEmpty_iff.mp hleases)
      (List.isEmpty_iff.mp hguards) (Option.isNone_iff_eq_none.mp hpending)
      (Option.isNone_iff_eq_none.mp hretired))
  · cases hstep

theorem safe_lease (hstep : s.lease i (keys i)=some t) : Safe keys t := by
  simp only [LockState.lease] at hstep
  split at hstep
  · rename_i hphase
    cases hstep
    obtain ⟨hleases,hguards,hpending,hretired⟩ :=
      (h.calls i).outside (by simp [hphase]) (by simp [hphase])
    have hleased := LockTable.Table.leased_leaseAll h.resources (LockState.sortedKeys (keys i))
    have hkeys := LockTable.Table.map_key_leaseAll s.resources (LockState.sortedKeys (keys i))
    refine h.update hleased.ok ⟨?_,by simp,?_,?_,?_⟩ ?_ ?_ hleased.found
      (fun _ _ _ => Iff.rfl) (fun lock => h.holder lock i) (fun _ _ _ => Iff.rfl)
      (fun lock => h.waiters lock i) h.nodup
    · have hsorted := pairwise_sortedKeys (keys i)
      rw [← hkeys] at hsorted
      exact pairwise_map.mp hsorted
    · intro _
      exact ⟨hretired,by simp [hguards],hkeys⟩
    · simp [hguards]
    · simp [hpending]
    · intro lock
      rw [hleased.strong]
      simp only [Call.references,hleases,hguards,hpending,hretired]
      simp
    · intro j _ l hl
      refine hleased.kept _ _ (h.registered j l hl) ?_
      have hpos := references_pos hl
      have hle := h.references_le j l.lock
      omega
  · cases hstep

theorem safe_await (hstep : s.await i=some t) : Safe keys t := by
  simp only [LockState.await] at hstep
  split at hstep
  · rename_i lease rest hdrop
    split at hstep
    · rename_i hphase
      cases hstep
      have hok := h.calls i
      have hpending := Option.isNone_iff_eq_none.mp hphase.2
      have hacquiring := hok.acquiring hphase.1
      have hnext : (s.calls i).guards++[lease] <+: (s.calls i).leases := by
        obtain ⟨tail,htail⟩ := hacquiring.2.1
        rw [← htail,drop_left] at hdrop
        refine ⟨rest,?_⟩
        rw [← htail,hdrop,append_assoc]
        rfl
      have hmem : lease∈(s.calls i).leases := hnext.mem (by simp)
      have hfree := h.not_mem_waiters hpending
      refine h.update (h.resources.clone (h.resources.bounded _ _ (h.registered i lease hmem)))
        ⟨hok.sorted,fun hother => absurd hphase.1 hother,fun _ => hacquiring,hok.guards,?_⟩ ?_
        (fun j _ => h.registered j) (h.registered i) (fun _ _ _ => Iff.rfl)
        (fun lock => h.holder lock i) ?_ ?_ ?_
      · intro l hl
        cases hl
        exact hnext
      · intro lock
        by_cases hlock : lock=lease.lock
        · simp [Call.references,LockTable.Table.clone,hpending,hlock]
          omega
        · simp [Call.references,LockTable.Table.clone,hpending,hlock,Ne.symm hlock]
      · intro lock j hj
        by_cases hlock : lock=lease.lock
        · simp [hlock,hj]
        · simp [hlock]
      · intro lock
        by_cases hlock : lock=lease.lock
        · simp [hlock]
        · simp [hlock,hfree,Ne.symm hlock]
      · refine (Function.forall_update_iff s.waiters fun _ queue => queue.Nodup).mpr
          ⟨?_,fun lock _ => h.nodup lock⟩
        rw [nodup_append_comm]
        exact nodup_cons.mpr ⟨hfree _,h.nodup _⟩
    · cases hstep
  · cases hstep

theorem safe_acquire (hstep : s.acquire i=some t) : Safe keys t := by
  simp only [LockState.acquire] at hstep
  split at hstep
  · rename_i lease hpending
    split at hstep
    · rename_i hphase
      cases hstep
      obtain ⟨hacquiring,hholder,hhead⟩ := hphase
      have hok := h.calls i
      have hheld := hok.acquiring hacquiring
      have hnext := hok.pending lease hpending
      rw [Option.isNone_iff_eq_none] at hholder
      obtain ⟨tail,htail⟩ := head?_eq_some_iff.mp hhead
      have hnodup := h.nodup lease.lock
      rw [htail] at hnodup
      refine h.update h.resources ⟨hok.sorted,fun hother => absurd hacquiring hother,
        fun _ => ⟨hheld.1,hnext,hheld.2.2⟩,hnext.sublist,by simp⟩ ?_ (fun j _ => h.registered j)
        (h.registered i) ?_ ?_ ?_ ?_ ?_
      · simp [Call.references,hpending]
        omega
      · intro lock j hj
        by_cases hlock : lock=lease.lock
        · simp [hlock,hholder,Ne.symm hj]
        · simp [hlock]
      · intro lock
        by_cases hlock : lock=lease.lock
        · simp [hlock]
        · simp [hlock,h.holder lock i,Ne.symm hlock]
      · intro lock j hj
        by_cases hlock : lock=lease.lock
        · simp [hlock,htail,hj]
        · simp [hlock]
      · intro lock
        by_cases hlock : lock=lease.lock
        · simp [hlock,htail,(nodup_cons.mp hnodup).1]
        · simp [hlock,h.waiters lock i,hpending,Ne.symm hlock]
      · refine (Function.forall_update_iff s.waiters fun _ queue => queue.Nodup).mpr
          ⟨?_,fun lock _ => h.nodup lock⟩
        rw [htail]
        exact (nodup_cons.mp hnodup).2
    · cases hstep
  · cases hstep

theorem safe_dropPending (hstep : s.dropPending i=some t) : Safe keys t := by
  simp only [LockState.dropPending] at hstep
  split at hstep
  · rename_i lease hpending
    split at hstep
    · rename_i hphase
      cases hstep
      have hok := h.calls i
      have hretired := Option.isNone_iff_eq_none.mp hphase.2
      refine h.update h.resources (callOk_dropping hphase.1 hok.sorted hok.guards rfl) ?_
        (fun j _ => h.registered j) (h.registered i) (fun _ _ _ => Iff.rfl)
        (fun lock => h.holder lock i) ?_ ?_ ?_
      · simp only [Call.references,hpending,hretired,Option.toList_some,Option.toList_none,
          countP_nil,countP_singleton,count_nil,count_singleton,beq_iff_eq,
          decide_eq_true_eq]
        omega
      · intro lock j hj
        by_cases hlock : lock=lease.lock
        · simp [hlock,mem_erase_of_ne hj]
        · simp [hlock]
      · intro lock
        by_cases hlock : lock=lease.lock
        · simp [hlock,(h.nodup lease.lock).mem_erase_iff]
        · simp [hlock,h.waiters lock i,hpending,Ne.symm hlock]
      · exact (Function.forall_update_iff s.waiters fun _ queue => queue.Nodup).mpr
          ⟨(h.nodup _).erase i,fun lock _ => h.nodup lock⟩
    · cases hstep
  · cases hstep

theorem safe_dropGuard (hstep : s.dropGuard i=some t) : Safe keys t := by
  simp only [LockState.dropGuard] at hstep
  split at hstep
  · rename_i lease rest hguards
    split at hstep
    · rename_i hphase
      cases hstep
      obtain ⟨hdropping,hretired,hpending⟩ := hphase
      rw [Option.isNone_iff_eq_none] at hretired hpending
      have hok := h.calls i
      have hsublist := hok.guards
      have hmem : ∀ l∈(s.calls i).guards, l∈(s.calls i).leases := fun l hl => hok.guards.mem hl
      have hheld : s.holder lease.lock=some i :=
        (h.holder lease.lock i).mpr ⟨lease,by simp [hguards],rfl⟩
      -- no other guard of the call is of this mutex
      have hapart : ∀ l∈rest, l.lock≠lease.lock := by
        intro l hl hlock
        have hsorted := hok.sorted.sublist hok.guards
        rw [hguards] at hsorted hmem
        have hkey := h.key_eq (hmem l (mem_cons_of_mem _ hl)) (hmem lease mem_cons_self) hlock
        exact absurd hkey (ne_of_gt (rel_of_pairwise_cons hsorted hl))
      rw [hguards] at hsublist
      refine h.update h.resources (callOk_dropping hdropping hok.sorted
        ((sublist_cons_self lease rest).trans hsublist) hpending) ?_
        (fun j _ => h.registered j) (h.registered i) ?_ ?_ (fun _ _ _ => Iff.rfl)
        (fun lock => h.waiters lock i) h.nodup
      · simp only [Call.references,hguards,hretired,Option.toList_some,Option.toList_none,
          countP_cons,count_nil,count_singleton,beq_iff_eq,decide_eq_true_eq]
        omega
      · intro lock j hj
        by_cases hlock : lock=lease.lock
        · simp [hlock,hheld,Ne.symm hj]
        · simp [hlock]
      · intro lock
        by_cases hlock : lock=lease.lock
        · simpa [hlock] using hapart
        · simp [hlock,h.holder lock i,hguards,Ne.symm hlock]
    · cases hstep
  · cases hstep

theorem safe_dropLease (hstep : s.dropLease i=some t) : Safe keys t := by
  simp only [LockState.dropLease] at hstep
  split at hstep
  · rename_i lease rest hleases
    split at hstep
    · rename_i hphase
      cases hstep
      obtain ⟨hdropping,hretired,hpending,hguards⟩ := hphase
      rw [Option.isNone_iff_eq_none] at hretired hpending
      rw [List.isEmpty_iff] at hguards
      have hok := h.calls i
      have hsorted := hok.sorted
      have hmem : lease∈(s.calls i).leases := by simp [hleases]
      have hrest : ∀ l∈rest, l∈(s.calls i).leases := by
        intro l hl
        rw [hleases]
        exact mem_cons_of_mem _ hl
      rw [hleases] at hsorted
      refine h.update (h.resources.retire lease) (callOk_dropping hdropping
        (pairwise_cons.mp hsorted).2 (by simp [hguards]) hpending) ?_ ?_ ?_
        (fun _ _ _ => Iff.rfl) (fun lock => h.holder lock i) (fun _ _ _ => Iff.rfl)
        (fun lock => h.waiters lock i) h.nodup
      · intro lock
        have hstrong : (s.resources.retire lease).strong lock=s.resources.strong lock := by
          unfold LockTable.Table.retire
          split
          · rfl
          · rfl
        simp only [Call.references,hleases,hretired,Option.toList_some,
          Option.toList_none,countP_cons,count_nil,count_singleton,beq_iff_eq,
          decide_eq_true_eq]
        omega
      · intro j hj l hl
        refine LockTable.Table.registry_retire (h.registered j l hl) fun hlock => ?_
        have hown := references_pos hmem
        have hother := references_pos hl
        have hle := h.references_add_le hj l.lock
        rw [hlock] at hother hle ⊢
        omega
      · intro l hl
        refine LockTable.Table.registry_retire (h.registered i l (hrest l hl)) fun hlock => ?_
        have hkey := h.key_eq (hrest l hl) hmem hlock
        exact absurd hkey (ne_of_gt (rel_of_pairwise_cons hsorted hl))
    · cases hstep
  · cases hstep

theorem safe_decrement (hstep : s.decrement i=some t) : Safe keys t := by
  simp only [LockState.decrement] at hstep
  split at hstep
  · rename_i retired hretired
    cases hstep
    have hok := h.calls i
    have hle := h.references_le i
    refine h.update (h.resources.drop retired) ⟨hok.sorted,?_,?_,hok.guards,hok.pending⟩ ?_
      (fun j _ => h.registered j) (h.registered i) (fun _ _ _ => Iff.rfl)
      (fun lock => h.holder lock i) (fun _ _ _ => Iff.rfl) (fun lock => h.waiters lock i) h.nodup
    · intro hother hdropping
      have hnone := (hok.outside hother hdropping).2.2.2
      rw [hretired] at hnone
      cases hnone
    · intro hacquiring
      exact ⟨rfl,(hok.acquiring hacquiring).2⟩
    · intro lock
      have hlock := hle lock
      simp only [Call.references,hretired,Option.toList_some,Option.toList_none,
        count_nil,count_singleton,beq_iff_eq,LockTable.Table.drop] at hlock ⊢
      by_cases hsame : lock=retired
      · rw [hsame,Function.update_self]
        rw [hsame,if_pos rfl] at hlock
        rw [if_pos rfl]
        omega
      · rw [Function.update_of_ne hsame,if_neg (Ne.symm hsame)]
  · cases hstep

theorem safe_step {action : LockAction ι} (hstep : action.step keys s=some t) : Safe keys t := by
  cases action with
  | lockExclusive =>
    simp only [LockAction.step,LockState.lockExclusive] at hstep
    split at hstep
    · cases hstep
      exact ⟨h.resources,h.calls,h.counted,h.registered,h.holder,h.waiters,h.nodup⟩
    · cases hstep
  | unlockExclusive =>
    simp only [LockAction.step,LockState.unlockExclusive] at hstep
    split at hstep
    · cases hstep
      exact ⟨h.resources,h.calls,h.counted,h.registered,h.holder,h.waiters,h.nodup⟩
    · cases hstep
  | enter i => exact safe_enter h hstep
  | lease i => exact safe_lease h hstep
  | await i => exact safe_await h hstep
  | acquire i => exact safe_acquire h hstep
  | cancel i => exact safe_cancel h hstep
  | dropPending i => exact safe_dropPending h hstep
  | dropGuard i => exact safe_dropGuard h hstep
  | dropLease i => exact safe_dropLease h hstep
  | decrement i => exact safe_decrement h hstep
  | leave i => exact safe_leave h hstep

end

theorem safe_of_reachable (h : Reachable keys s) : Safe keys s := by
  induction h with
  | init => exact safe_init
  | step action _ hstep ih => exact safe_step ih hstep

end Steps

section Results
variable {keys : ι → List κ} {s : LockState ι κ} {i j : ι}

section Shared
variable [Fintype ι]

/-- One mutex for a key, however the leases are interleaved. -/
theorem lock_eq (h : Safe keys s) {first second : Lease κ} (hfirst : first∈(s.calls i).leases)
    (hsecond : second∈(s.calls j).leases) (hkey : first.key=second.key) :
    first.lock=second.lock := by
  have hregistered := h.registered i first hfirst
  rw [hkey,h.registered j second hsecond] at hregistered
  exact (Option.some.inj hregistered).symm

theorem mem_guards_of_acquired (h : Safe keys s) (hacquired : (s.calls i).Acquired) {key : κ}
    (hkey : key∈keys i) : ∃ l∈(s.calls i).guards, l.key=key := by
  obtain ⟨_,hbegins,hkeys⟩ := (h.calls i).acquiring hacquired.1
  rw [hbegins.eq_of_length hacquired.2]
  rw [← mem_sortedKeys,← hkeys] at hkey
  exact mem_map.mp hkey

end Shared

variable [DecidableEq ι]

/-- Later in the order in which locks are taken: a greater key, or earlier in the same queue. -/
def Later (s : LockState ι κ) (i j : ι) : Prop :=
  ∃ first second, (s.calls i).pending=some first ∧ (s.calls j).pending=some second ∧
    (first.key < second.key ∨ first.lock=second.lock ∧ first.key=second.key ∧
      (s.waiters first.lock).idxOf j<(s.waiters first.lock).idxOf i)

variable {k : ι}

theorem later_trans (hij : Later s i j) (hjk : Later s j k) : Later s i k := by
  obtain ⟨first,second,hfirst,hsecond,horder⟩ := hij
  obtain ⟨second',third,hsecond',hthird,horder'⟩ := hjk
  rw [hsecond] at hsecond'
  cases hsecond'
  refine ⟨first,third,hfirst,hthird,?_⟩
  cases horder with
  | inl hlt =>
    cases horder' with
    | inl hlt' => exact .inl (hlt.trans hlt')
    | inr hsame => exact .inl (hsame.2.1 ▸ hlt)
  | inr hsame =>
    cases horder' with
    | inl hlt' => exact .inl (hsame.2.1 ▸ hlt')
    | inr hsame' =>
      refine .inr ⟨hsame.1.trans hsame'.1,hsame.2.1.trans hsame'.2.1,?_⟩
      rw [← hsame.1] at hsame'
      exact hsame'.2.2.trans hsame.2.2

theorem not_later_self : ¬ Later s i i := by
  intro h
  obtain ⟨first,second,hfirst,hsecond,horder⟩ := h
  rw [hfirst] at hsecond
  cases hsecond
  cases horder with
  | inl hlt => exact lt_irrefl _ hlt
  | inr hsame => exact lt_irrefl _ hsame.2.2

variable [Fintype ι]

/-- A call that waits for a waiting call comes before it. -/
theorem later_of_waits (h : Safe keys s) (hij : s.Waits i j) (hjk : s.Waits j k) : Later s i j := by
  obtain ⟨first,hfirst,hwait⟩ := hij
  obtain ⟨second,hsecond,_⟩ := hjk
  refine ⟨first,second,hfirst,hsecond,?_⟩
  have hpending := (h.calls j).pending second hsecond
  have hmem : first∈(s.calls i).leases := ((h.calls i).pending first hfirst).mem (by simp)
  cases hwait with
  | inl hholder =>
    obtain ⟨guard,hguard,hlock⟩ := (h.holder _ _).mp hholder
    have hkey : guard.key=first.key := h.key_eq (hpending.mem (mem_append_left _ hguard)) hmem hlock
    have hsorted := (h.calls j).sorted.sublist hpending.sublist
    rw [pairwise_append] at hsorted
    exact .inl (hkey ▸ hsorted.2.2 guard hguard second (by simp))
  | inr hqueued =>
    obtain ⟨l,hl,hlock⟩ := (h.waiters _ _).mp hqueued.1
    rw [hsecond] at hl
    cases hl
    have hkey := h.key_eq hmem (hpending.mem (by simp)) hlock.symm
    exact .inr ⟨hlock.symm,hkey,hqueued.2⟩

theorem later_of_transGen (h : Safe keys s) (hij : Relation.TransGen s.Waits i j)
    (hjk : s.Waits j k) : Later s i j := by
  induction hij generalizing k with
  | single hij => exact later_of_waits h hij hjk
  | tail _ hlast ih => exact later_trans (ih hlast) (later_of_waits h hlast hjk)

/-- In every interleaving of `scoped` calls, cancellations and drops: leases of one key that are
alive together have one mutex, calls that have all their guards share no key, and no calls wait for
each other in a circle. -/
theorem scoped_locks_exclusive (keys : ι → List κ) (s : LockState ι κ) (h : Reachable keys s) :
    (∀ i j, ∀ first∈(s.calls i).leases, ∀ second∈(s.calls j).leases,
      first.key=second.key → first.lock=second.lock) ∧
    (∀ i j, i≠j → (s.calls i).Acquired → (s.calls j).Acquired → ∀ key∈keys i, key∉keys j) ∧
    ∀ i, ¬ Relation.TransGen s.Waits i i := by
  have hsafe := safe_of_reachable h
  refine ⟨?_,?_,?_⟩
  · intro i j first hfirst second hsecond hkey
    exact lock_eq hsafe hfirst hsecond hkey
  · intro i j hne hi hj key hkey hkey'
    obtain ⟨first,hfirst,hfirstKey⟩ := mem_guards_of_acquired hsafe hi hkey
    obtain ⟨second,hsecond,hsecondKey⟩ := mem_guards_of_acquired hsafe hj hkey'
    have hlock := lock_eq hsafe ((hsafe.calls i).guards.mem hfirst)
      ((hsafe.calls j).guards.mem hsecond) (hfirstKey.trans hsecondKey.symm)
    have hholder := (hsafe.holder first.lock i).mpr ⟨first,hfirst,rfl⟩
    rw [(hsafe.holder first.lock j).mpr ⟨second,hsecond,hlock.symm⟩] at hholder
    exact hne (Option.some.inj hholder).symm
  · intro i hcycle
    obtain ⟨j,hij,_⟩ := Relation.TransGen.head'_iff.mp hcycle
    exact not_later_self (later_of_transGen hsafe hcycle hij)

end Results

/-- A worker with a roll on a cutter, and another one who asks for the same cutter. -/
def cutterKeys : Fin 2 → List ResourceKey
  | 0 => [toLex ("wip", "roll-1"),toLex ("apparatus", "cut-1"),toLex ("wip", "roll-1")]
  | 1 => [toLex ("apparatus", "cut-1")]

def cutterActions : List (LockAction (Fin 2)) :=
  [.enter 0,.lease 0,.await 0,.acquire 0,.await 0,.acquire 0,.enter 1,.lease 1,.await 1]

theorem scoped_locks_exclusive_cutter :
    ∃ s, runActions cutterKeys cutterActions .init=some s ∧ (s.calls 0).Acquired ∧
      (s.calls 1).pending.isSome=true ∧
      (∀ i j, ∀ first∈(s.calls i).leases, ∀ second∈(s.calls j).leases,
        first.key=second.key → first.lock=second.lock) ∧
      (∀ i j, i≠j → (s.calls i).Acquired → (s.calls j).Acquired →
        ∀ key∈cutterKeys i, key∉cutterKeys j) ∧
      ∀ i, ¬ Relation.TransGen s.Waits i i := by
  have hrun : (runActions cutterKeys cutterActions .init).map (fun s =>
      ((s.calls 0).phase, (s.calls 0).guards.length, (s.calls 0).leases.length,
        (s.calls 1).pending.isSome))=some (.acquiring, 2, 2, true) := by
    decide +kernel
  obtain ⟨s,hs,hfacts⟩ := Option.map_eq_some_iff.mp hrun
  simp only [Prod.mk.injEq] at hfacts
  obtain ⟨hphase,hguards,hleases,hpending⟩ := hfacts
  exact ⟨s,hs,⟨hphase,hguards.trans hleases.symm⟩,hpending,
    scoped_locks_exclusive cutterKeys s (reachable_of_runActions .init hs)⟩

end MiniErp.Mutation
