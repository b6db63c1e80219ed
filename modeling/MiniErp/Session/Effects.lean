import MiniErp.Session.Manager

/-! What a step of the session manager can do to the lock, to the records and to one call. -/
namespace MiniErp.Session
open Auth
variable {τ : Type*}

inductive Mode where
  | shared
  | exclusive
  deriving DecidableEq

def Call.mode : Call τ → Option Mode
  | .idle => none
  | .waiting _ => none
  | .removing _ .done => some .exclusive
  | .evicting _ .done => some .exclusive
  | .accepted _ _ => none
  | .deleted _ => none
  | .rejected => none
  | _ => some .shared

def Call.carried : Call τ → Option (τ × SessionRecord)
  | .checking _ (.answer token record) => some (token, record)
  | .checking _ (.keep token record) => some (token, record)
  | .putting token record => some (token, record)
  | .caching token record => some (token, record)
  | _ => none

theorem Call.mode_of_carried {call : Call τ} {entry : τ × SessionRecord}
    (h : call.carried=some entry) : call.mode=some .shared := by
  cases call with
  | checking principal task => rfl
  | putting token record => rfl
  | caching token record => rfl
  | _ => cases h

namespace SessionState
variable [DecidableEq τ]

/-- A record of the token that the call can see. -/
def Known (s : SessionState τ) (i : Nat) (token : τ) (record : SessionRecord) : Prop :=
  s.store token=some record ∨ s.cache token=some record ∨ (s.calls i).carried=some (token, record)

/-- Everything a step can do. -/
inductive Effect (s : SessionState τ) : SessionState τ → Prop
  | begin (i : Nat) (request : Request τ) (hcall : s.calls i=.idle) :
      Effect s ({ s with used := fun token => s.used token || token∈Request.tokens request }.setCall
        i (.waiting request))
  | share (i : Nat) (request : Request τ) (call : Call τ) (hcall : s.calls i=.waiting request)
      (hfree : s.writer=none) (hmode : call.mode=some .shared)
      (hcarried : call.carried=none) : Effect s ({ s with readers := i::s.readers }.setCall i call)
  | exclude (i : Nat) (request : Request τ) (target : Target τ)
      (hcall : s.calls i=.waiting request)
      (htarget : ∀ token, target=.token token → request=.delete token)
      (hfree : s.writer=none) (hempty : s.readers=[]) :
      Effect s ({ s with writer := some i }.setCall i (.removing target .done))
  | pass (i : Nat) (request : Request τ) (role : PrincipalRole) (ref : String)
      (hcall : s.calls i=.waiting request) (hfree : s.writer=none) (hempty : s.readers=[]) :
      Effect s ({ s with writer := some i }.finish i (.deleted (.principal role ref)))
  | go (i : Nat) (call : Call τ) (hinside : (s.calls i).mode=some .shared)
      (hmode : call.mode=some .shared)
      (hcarried : ∀ token record, call.carried=some (token, record) →
        ∃ old, s.Known i token old ∧ sameIdentity record.principal old.principal=true) :
      Effect s (s.setCall i call)
  | generate (i : Nat) (token : τ) (record : SessionRecord)
      (hinside : (s.calls i).mode=some .shared) (hfresh : s.used token=false) :
      Effect s ({ s with used := Function.update s.used token true }.setCall i
        (.putting token record))
  | leave (i : Nat) (call : Call τ) (hinside : (s.calls i).mode≠none)
      (hnext : call=.rejected ∨ ∃ token record, (s.calls i).carried=some (token, record) ∧
        call=.accepted token record.principal) :
      Effect s (s.finish i call)
  | put (i : Nat) (token : τ) (record : SessionRecord) (hcall : s.calls i=.putting token record) :
      Effect s ({ s with store := Function.update s.store token (some record) }.setCall i
        (.caching token record))
  | putFailed (i : Nat) (token : τ) (record : SessionRecord)
      (hcall : s.calls i=.putting token record) :
      Effect s ({ s with store := Function.update s.store token (some record) }.finish i .rejected)
  | remove (i : Nat) (target : Target τ) (ending : Ending)
      (hcall : s.calls i=.removing target ending) :
      Effect s ({ s with store := erase target s.store }.setCall i (.evicting target ending))
  | removeFailed (i : Nat) (target : Target τ) (hinside : (s.calls i).mode≠none) :
      Effect s ({ s with store := erase target s.store }.finish i .rejected)
  | insert (i : Nat) (token : τ) (record : SessionRecord)
      (hcall : s.calls i=.caching token record) :
      Effect s ({ s with cache := Function.update s.cache token (some record) }.finish i
        (.accepted token record.principal))
  | evict (i : Nat) (target : Target τ) (ending : Ending) (call : Call τ)
      (hcall : s.calls i=.evicting target ending)
      (hnext : ending=.done ∧ call=.deleted target ∨ ending=.unauthorized ∧ call=.rejected) :
      Effect s ({ s with cache := erase target s.cache }.finish i call)

end SessionState

open SessionState
variable [DecidableEq τ] {s t : SessionState τ} {ttlSeconds : Option Nat}

theorem sameIdentity_refl (principal : Principal) : sameIdentity principal principal=true := by
  simp [sameIdentity]

variable {i : Nat} {now : Int}

theorem start_effect {request : Request τ} (h : s.start i request=some t) : Effect s t := by
  simp only [start] at h
  split at h
  · rename_i hcall
    cases h
    exact .begin i request hcall
  · cases h

theorem lock_effect (h : s.lock i=some t) : Effect s t := by
  simp only [lock] at h
  split at h
  · rename_i request hcall
    have hshare : ∀ call : Call τ, call.mode=some .shared → call.carried=none →
        (if s.writer.isNone then some ({ s with readers := i::s.readers }.setCall i call)
          else none)=some t → Effect s t := by
      intro call hmode hcarried h
      split at h
      · rename_i hfree
        cases h
        exact .share i request call hcall (Option.isNone_iff_eq_none.mp hfree) hmode hcarried
      · cases h
    cases request with
    | create principal => exact hshare _ rfl rfl h
    | get token => exact hshare _ rfl rfl h
    | update token principal => exact hshare _ rfl rfl h
    | delete token =>
      simp only at h
      split at h
      · rename_i hfree
        rw [Bool.and_eq_true,Option.isNone_iff_eq_none,List.isEmpty_iff] at hfree
        cases h
        refine .exclude i _ _ hcall (fun token' htoken => ?_) hfree.1 hfree.2
        rw [Target.token.inj htoken]
      · cases h
    | deleteForPrincipal role ref =>
      simp only at h
      split at h
      · rename_i hfree
        rw [Bool.and_eq_true,Option.isNone_iff_eq_none,List.isEmpty_iff] at hfree
        cases h
        rw [deletePrincipalRecords]
        split
        · exact .pass i _ _ _ hcall hfree.1 hfree.2
        · exact .exclude i _ _ hcall (by simp) hfree.1 hfree.2
      · cases h
  · cases h

theorem renew_effect {token : τ} {principal : Principal} {existing : SessionRecord}
    (hinside : (s.calls i).mode=some .shared) (hknown : s.Known i token existing)
    (h : s.renew ttlSeconds i token principal existing now=some t) : Effect s t := by
  simp only [renew] at h
  split at h
  · cases h
    exact .go i _ hinside rfl (by simp [Call.carried])
  · split at h
    · rename_i hsame
      cases h
      refine .go i _ hinside rfl fun token' record hrecord => ?_
      obtain ⟨rfl,rfl⟩ := hrecord
      exact ⟨existing,hknown,hsame⟩
    · cases h

theorem validate_effect {verdict : Option Bool} {generated : τ}
    (h : s.validate ttlSeconds i verdict generated now=some t) : Effect s t := by
  simp only [validate] at h
  split at h
  · rename_i principal task hcall
    have hinside : (s.calls i).mode=some .shared := by rw [hcall]; rfl
    have hsome : (s.calls i).mode≠none := by simp [hinside]
    split at h
    · cases h
      exact .leave i .rejected hsome (.inl rfl)
    · cases h
      rw [deletePrincipalRecords]
      split
      · exact .leave i .rejected hsome (.inl rfl)
      · exact .go i _ hinside rfl (by simp [Call.carried])
    · cases task with
      | create principal =>
        simp only at h
        split at h
        · cases h
        · rename_i hfresh
          cases h
          exact .generate i generated _ hinside (by simpa using hfresh)
      | answer token record =>
        cases h
        exact .leave i _ hsome (.inr ⟨token,record,by rw [hcall]; rfl,rfl⟩)
      | keep token record =>
        cases h
        refine .go i _ hinside rfl fun token' record' hrecord => ?_
        cases hrecord
        exact ⟨record,.inr (.inr (by rw [hcall]; rfl)),sameIdentity_refl _⟩
      | update token principal =>
        cases h
        exact .go i _ hinside rfl (by simp [Call.carried])
  · cases h

theorem readCache_effect (h : s.readCache ttlSeconds i now=some t) : Effect s t := by
  simp only [readCache] at h
  split at h
  · rename_i token reader hcall
    have hinside : (s.calls i).mode=some .shared := by rw [hcall]; rfl
    split at h
    · cases h
      exact .go i _ hinside rfl (by simp [Call.carried])
    · rename_i record hcached
      cases reader with
      | get =>
        simp only at h
        split at h
        · cases h
          exact .go i _ hinside rfl (by simp [Call.carried])
        · cases h
          refine .go i _ hinside rfl fun token' record' hrecord => ?_
          cases hrecord
          exact ⟨record,.inr (.inl hcached),sameIdentity_refl _⟩
      | update principal => exact renew_effect hinside (.inr (.inl hcached)) h
  · cases h

theorem readStore_effect {ok : Bool} (h : s.readStore ttlSeconds i ok now=some t) : Effect s t := by
  simp only [readStore] at h
  split at h
  · rename_i token reader hcall
    have hinside : (s.calls i).mode=some .shared := by rw [hcall]; rfl
    split at h
    · rename_i record hstored
      cases reader with
      | get =>
        simp only at h
        split at h
        · cases h
          exact .go i _ hinside rfl (by simp [Call.carried])
        · cases h
          refine .go i _ hinside rfl fun token' record' hrecord => ?_
          cases hrecord
          exact ⟨record,.inl hstored,sameIdentity_refl _⟩
      | update principal => exact renew_effect hinside (.inl hstored) h
    · cases h
      exact .leave i .rejected (by simp [hinside]) (.inl rfl)
  · cases h

theorem writeStore_effect {outcome : Outcome} (h : s.writeStore i outcome=some t) : Effect s t := by
  simp only [writeStore] at h
  split at h
  · rename_i token record hcall
    have hinside : (s.calls i).mode≠none := by simp [hcall,Call.mode]
    cases h
    cases outcome with
    | ok => exact .put i token record hcall
    | failed written =>
      cases written with
      | true => exact .putFailed i token record hcall
      | false => exact .leave i .rejected hinside (.inl rfl)
  · rename_i token hcall
    have hinside : (s.calls i).mode≠none := by simp [hcall,Call.mode]
    cases h
    cases hhappened : outcome.happened with
    | true => exact .removeFailed i (.token token) hinside
    | false => exact .leave i .rejected hinside (.inl rfl)
  · rename_i target ending hcall
    have hinside : (s.calls i).mode≠none := by cases ending <;> simp [hcall,Call.mode]
    cases h
    cases outcome with
    | ok => exact .remove i target ending hcall
    | failed written =>
      cases written with
      | true => exact .removeFailed i target hinside
      | false => exact .leave i .rejected hinside (.inl rfl)
  · cases h

theorem writeCache_effect (h : s.writeCache i=some t) : Effect s t := by
  simp only [writeCache] at h
  split at h
  · rename_i token record hcall
    cases h
    exact .insert i token record hcall
  · rename_i target ending hcall
    cases h
    refine .evict i target ending _ hcall ?_
    cases ending with
    | done => exact .inl ⟨rfl,rfl⟩
    | unauthorized => exact .inr ⟨rfl,rfl⟩
  · cases h

theorem effect_of_sessionStep {event : SessionEvent τ}
    (h : sessionStep ttlSeconds s event=some t) : Effect s t := by
  cases event with
  | start i request => exact start_effect h
  | lock i => exact lock_effect h
  | validate i verdict generated now => exact validate_effect h
  | readCache i now => exact readCache_effect h
  | readStore i ok now => exact readStore_effect h
  | writeStore i outcome => exact writeStore_effect h
  | writeCache i => exact writeCache_effect h

omit [DecidableEq τ] in
theorem setCall_calls {j : Nat} {call : Call τ} :
    (s.setCall i call).calls j=if j=i then call else s.calls j := by
  simp [setCall,Function.update_apply]

omit [DecidableEq τ] in
theorem finish_calls {j : Nat} {call : Call τ} :
    (s.finish i call).calls j=if j=i then call else s.calls j := by
  simp [finish,Function.update_apply]

theorem erase_eq_some {target : Target τ} {records : τ → Option SessionRecord} {token : τ}
    {record : SessionRecord} : erase target records token=some record ↔
      records token=some record ∧ target.covers token record=false := by
  simp [erase,Option.filter_eq_some_iff]

/- The lock. -/

structure LockOk (s : SessionState τ) : Prop where
  readers : ∀ j, (s.calls j).mode=some .shared → j∈s.readers
  writer : ∀ j, (s.calls j).mode=some .exclusive → s.writer=some j
  alone : ∀ j, s.writer=some j → s.readers=[]

section Lock
variable {i : Nat} {call : Call τ}

omit [DecidableEq τ] in
theorem LockOk.setCall (h : LockOk s) (hmode : call.mode=(s.calls i).mode) :
    LockOk (s.setCall i call) := by
  refine ⟨fun j hj => h.readers j ?_,fun j hj => h.writer j ?_,h.alone⟩
  · rw [setCall_calls] at hj
    split at hj
    · rename_i heq
      rw [heq,← hmode,hj]
    · exact hj
  · rw [setCall_calls] at hj
    split at hj
    · rename_i heq
      rw [heq,← hmode,hj]
    · exact hj

omit [DecidableEq τ] in
theorem LockOk.finish (h : LockOk s) (hmode : call.mode=none) : LockOk (s.finish i call) := by
  have hother : ∀ j mode, ((s.finish i call).calls j).mode=some mode →
      j≠i ∧ (s.calls j).mode=some mode := by
    intro j mode hj
    rw [finish_calls] at hj
    split at hj
    · rw [hmode] at hj
      cases hj
    · rename_i hne
      exact ⟨hne,hj⟩
  constructor
  · intro j hj
    obtain ⟨hne,hj⟩ := hother j _ hj
    simpa [SessionState.finish,hne] using h.readers j hj
  · intro j hj
    obtain ⟨hne,hj⟩ := hother j _ hj
    simp [SessionState.finish,h.writer j hj,hne]
  · intro j hj
    simp only [SessionState.finish] at hj ⊢
    split at hj
    · cases hj
    · rw [h.alone j hj,List.filter_nil]

theorem lockOk_step (h : LockOk s) (heffect : Effect s t) : LockOk t := by
  have hdata : ∀ store cache used, LockOk { s with store := store, cache := cache, used := used } :=
    fun _ _ _ => ⟨h.readers,h.writer,h.alone⟩
  cases heffect with
  | begin i request hcall =>
    exact LockOk.setCall (hdata s.store s.cache _) (by simp [hcall,Call.mode])
  | share i request call hcall hfree hmode _ =>
    refine ⟨fun j hj => ?_,fun j hj => ?_,fun j hj => ?_⟩
    · rw [setCall_calls] at hj
      split at hj
      · rename_i heq
        rw [heq]
        exact List.mem_cons_self
      · exact List.mem_cons_of_mem i (h.readers j hj)
    · rw [setCall_calls] at hj
      split at hj
      · rw [hmode] at hj
        cases hj
      · exact h.writer j hj
    · have hwriter : s.writer=some j := hj
      rw [hfree] at hwriter
      cases hwriter
  | exclude i request target hcall _ hfree hempty =>
    refine ⟨fun j hj => ?_,fun j hj => ?_,fun j hj => hempty⟩
    · rw [setCall_calls] at hj
      split at hj
      · cases hj
      · exact h.readers j hj
    · rw [setCall_calls] at hj
      split at hj
      · rename_i heq
        rw [heq]
        rfl
      · have hwriter := h.writer j hj
        rw [hfree] at hwriter
        cases hwriter
  | pass i request role ref hcall hfree hempty =>
    have hnone : ∀ j, (s.calls j).mode=none := by
      intro j
      cases hmode : (s.calls j).mode with
      | none => rfl
      | some mode =>
        cases mode with
        | shared =>
          have hmem := h.readers j hmode
          rw [hempty] at hmem
          cases hmem
        | exclusive =>
          have hwriter := h.writer j hmode
          rw [hfree] at hwriter
          cases hwriter
    refine LockOk.finish ⟨fun j hj => ?_,fun j hj => ?_,fun _ _ => hempty⟩ rfl
    · rw [show (s.calls j).mode=none from hnone j] at hj
      cases hj
    · rw [show (s.calls j).mode=none from hnone j] at hj
      cases hj
  | go i call hinside hmode _ => exact h.setCall (by rw [hinside,hmode])
  | generate i token record hinside _ => exact LockOk.setCall (hdata s.store s.cache _) hinside.symm
  | leave i call _ hnext =>
    refine h.finish ?_
    cases hnext with
    | inl h => rw [h]; rfl
    | inr h =>
      obtain ⟨token,record,-,h⟩ := h
      rw [h]
      rfl
  | put i token record hcall =>
    exact LockOk.setCall (hdata _ s.cache s.used) (by simp [hcall,Call.mode])
  | putFailed i token record _ => exact LockOk.finish (hdata _ s.cache s.used) rfl
  | remove i target ending hcall =>
    refine LockOk.setCall (hdata _ s.cache s.used) ?_
    cases ending <;> simp [hcall,Call.mode]
  | removeFailed i target _ => exact LockOk.finish (hdata _ s.cache s.used) rfl
  | insert i token record _ => exact LockOk.finish (hdata s.store _ s.used) rfl
  | evict i target ending call _ hnext =>
    refine LockOk.finish (hdata s.store _ s.used) ?_
    cases hnext with
    | inl h => rw [h.2]; rfl
    | inr h => rw [h.2]; rfl

end Lock

/- The calls. -/

/-- How a call can move in a step. -/
inductive Move (s t : SessionState τ) (i : Nat) : Call τ → Prop
  | begin (request : Request τ) (hcall : s.calls i=.idle)
      (hused : ∀ token∈Request.tokens request, t.used token=true) : Move s t i (.waiting request)
  | share (request : Request τ) (call : Call τ) (hcall : s.calls i=.waiting request)
      (hmode : call.mode=some .shared) : Move s t i call
  | exclude (request : Request τ) (target : Target τ) (hcall : s.calls i=.waiting request)
      (htarget : ∀ token, target=.token token → request=.delete token) :
      Move s t i (.removing target .done)
  | pass (request : Request τ) (role : PrincipalRole) (ref : String)
      (hcall : s.calls i=.waiting request) : Move s t i (.deleted (.principal role ref))
  | inside (call : Call τ) (hinside : (s.calls i).mode=some .shared)
      (hmode : call.mode=some .shared) : Move s t i call
  | accept (token : τ) (record : SessionRecord)
      (hcarried : (s.calls i).carried=some (token, record)) :
      Move s t i (.accepted token record.principal)
  | remove (target : Target τ) (hcall : s.calls i=.removing target .done) :
      Move s t i (.evicting target .done)
  | delete (target : Target τ) (hcall : s.calls i=.evicting target .done) :
      Move s t i (.deleted target)
  | reject (hinside : (s.calls i).mode≠none) : Move s t i .rejected

theorem move_of_effect (heffect : Effect s t) (j : Nat) :
    t.calls j=s.calls j ∨ Move s t j (t.calls j) := by
  have hset : ∀ {i : Nat} {call : Call τ}, Move s t i call →
      t.calls=Function.update s.calls i call → t.calls j=s.calls j ∨ Move s t j (t.calls j) := by
    intro i call hmove ht
    rw [ht,Function.update_apply]
    split
    · rename_i heq
      rw [heq]
      exact .inr hmove
    · exact .inl rfl
  cases heffect with
  | begin i request hcall =>
    refine hset (.begin request hcall fun token htoken => ?_) rfl
    simp [setCall,htoken]
  | share i request call hcall _ hmode _ => exact hset (.share request call hcall hmode) rfl
  | exclude i request target hcall htarget _ _ =>
    exact hset (.exclude request target hcall htarget) rfl
  | pass i request role ref hcall _ _ => exact hset (.pass request role ref hcall) rfl
  | go i call hinside hmode _ => exact hset (.inside call hinside hmode) rfl
  | generate i token record hinside _ => exact hset (.inside _ hinside rfl) rfl
  | leave i call hinside hnext =>
    cases hnext with
    | inl heq => exact hset (heq ▸ .reject hinside) rfl
    | inr hanswer =>
      obtain ⟨token,record,hcarried,heq⟩ := hanswer
      exact hset (heq ▸ .accept token record hcarried) rfl
  | put i token record hcall => exact hset (.inside _ (by rw [hcall]; rfl) rfl) rfl
  | putFailed i token record hcall => exact hset (.reject (by simp [hcall,Call.mode])) rfl
  | remove i target ending hcall =>
    cases ending with
    | done => exact hset (.remove target hcall) rfl
    | unauthorized => exact hset (.inside _ (by rw [hcall]; rfl) rfl) rfl
  | removeFailed i target hinside => exact hset (.reject hinside) rfl
  | insert i token record hcall => exact hset (.accept token record (by rw [hcall]; rfl)) rfl
  | evict i target ending call hcall hnext =>
    cases hnext with
    | inl h =>
      obtain ⟨rfl,rfl⟩ := h
      exact hset (.delete target hcall) rfl
    | inr h =>
      obtain ⟨rfl,rfl⟩ := h
      exact hset (.reject (by simp [hcall,Call.mode])) rfl

theorem used_step (heffect : Effect s t) {token : τ} (h : s.used token=true) :
    t.used token=true := by
  cases heffect with
  | begin i request _ => simp [setCall,h]
  | generate i generated record _ _ => simp only [setCall,Function.update_apply,h,ite_self]
  | _ => exact h

end MiniErp.Session
