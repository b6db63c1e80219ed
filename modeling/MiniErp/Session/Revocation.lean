import MiniErp.Session.Effects

/-! Revocation is final. A record of a token comes only from the store, the cache or a call that
has read it, and a deletion has the lock alone: once it has returned no copy of the token is left,
and none can come back. -/
namespace MiniErp.Session
open Text Auth Steps SessionState
variable {τ : Type*} [DecidableEq τ] {s t : SessionState τ} {ttlSeconds : Option Nat}

/- The records that are anywhere. -/

/-- What holds of every record in the store, in the cache and with a call. -/
structure Everywhere (Q : τ → SessionRecord → Prop) (s : SessionState τ) : Prop where
  store : ∀ token record, s.store token=some record → Q token record
  cache : ∀ token record, s.cache token=some record → Q token record
  carried : ∀ j token record, (s.calls j).carried=some (token, record) → Q token record

section Everywhere
variable {Q : τ → SessionRecord → Prop} {i : Nat} {call : Call τ}

omit [DecidableEq τ] in
theorem Everywhere.known (h : Everywhere Q s) {token : τ} {record : SessionRecord}
    (hknown : s.Known i token record) : Q token record := by
  obtain hstore | hcache | hcarried := hknown
  · exact h.store token record hstore
  · exact h.cache token record hcache
  · exact h.carried i token record hcarried

omit [DecidableEq τ] in
theorem Everywhere.setCall (h : Everywhere Q s)
    (hcall : ∀ token record, call.carried=some (token, record) → Q token record) :
    Everywhere Q (s.setCall i call) := by
  refine ⟨h.store,h.cache,fun j token record hj => ?_⟩
  rw [setCall_calls] at hj
  split at hj
  · exact hcall token record hj
  · exact h.carried j token record hj

omit [DecidableEq τ] in
theorem Everywhere.finish (h : Everywhere Q s) (hcall : call.carried=none) :
    Everywhere Q (s.finish i call) := by
  refine ⟨h.store,h.cache,fun j token record hj => ?_⟩
  rw [finish_calls] at hj
  split at hj
  · rw [hcall] at hj
    cases hj
  · exact h.carried j token record hj

/-- What survives a renewal stays true everywhere, but for a generated token. -/
theorem everywhere_step (h : Everywhere Q s) (heffect : Effect s t)
    (hrenew : ∀ token old record, Q token old →
      sameIdentity record.principal old.principal=true → Q token record) :
    Everywhere Q t ∨ ∃ i token record, s.used token=false ∧
      t={ s with used := Function.update s.used token true }.setCall i (.putting token record) := by
  have herase : ∀ (target : Target τ) (records : τ → Option SessionRecord),
      (∀ token record, records token=some record → Q token record) →
      ∀ token record, erase target records token=some record → Q token record :=
    fun target records hrecords token record herased =>
      hrecords token record (erase_eq_some.mp herased).1
  have hupdate : ∀ (records : τ → Option SessionRecord) (token : τ) (record : SessionRecord),
      (∀ token record, records token=some record → Q token record) → Q token record →
      ∀ token' record', Function.update records token (some record) token'=some record' →
        Q token' record' := by
    intro records token record hrecords hrecord token' record' hupdated
    rw [Function.update_apply] at hupdated
    split at hupdated
    · rename_i heq
      rw [heq,← Option.some.inj hupdated]
      exact hrecord
    · exact hrecords token' record' hupdated
  cases heffect with
  | begin i request _ =>
    exact .inl (Everywhere.setCall ⟨h.store,h.cache,h.carried⟩ (by simp [Call.carried]))
  | share i request call _ _ _ hnone =>
    exact .inl (Everywhere.setCall ⟨h.store,h.cache,h.carried⟩ (by simp [hnone]))
  | exclude i request target _ _ _ _ =>
    exact .inl (Everywhere.setCall ⟨h.store,h.cache,h.carried⟩ (by simp [Call.carried]))
  | pass i request role ref _ _ _ => exact .inl (Everywhere.finish ⟨h.store,h.cache,h.carried⟩ rfl)
  | go i call _ _ hsource =>
    refine .inl (h.setCall fun token record hrecord => ?_)
    obtain ⟨old,hknown,hsame⟩ := hsource token record hrecord
    exact hrenew token old record (h.known hknown) hsame
  | generate i token record _ hunused => exact .inr ⟨i,token,record,hunused,rfl⟩
  | leave i call _ hnext =>
    refine .inl (h.finish ?_)
    cases hnext with
    | inl heq => rw [heq]; rfl
    | inr hanswer =>
      obtain ⟨token,record,-,heq⟩ := hanswer
      rw [heq]
      rfl
  | put i token record hcall =>
    have hrecord : Q token record := h.carried i token record (by rw [hcall]; rfl)
    refine .inl (Everywhere.setCall
      ⟨hupdate s.store token record h.store hrecord,h.cache,h.carried⟩
      fun token' record' hcaching => ?_)
    cases hcaching
    exact hrecord
  | putFailed i token record hcall =>
    have hrecord : Q token record := h.carried i token record (by rw [hcall]; rfl)
    exact .inl (Everywhere.finish
      ⟨hupdate s.store token record h.store hrecord,h.cache,h.carried⟩ rfl)
  | remove i target ending _ =>
    exact .inl (Everywhere.setCall ⟨herase target s.store h.store,h.cache,h.carried⟩
      (by simp [Call.carried]))
  | removeFailed i target _ =>
    exact .inl (Everywhere.finish ⟨herase target s.store h.store,h.cache,h.carried⟩ rfl)
  | insert i token record hcall =>
    have hrecord : Q token record := h.carried i token record (by rw [hcall]; rfl)
    exact .inl (Everywhere.finish
      ⟨h.store,hupdate s.cache token record h.cache hrecord,h.carried⟩ rfl)
  | evict i target ending call _ hnext =>
    refine .inl (Everywhere.finish ⟨h.store,herase target s.cache h.cache,h.carried⟩ ?_)
    cases hnext with
    | inl heq => rw [heq.2]; rfl
    | inr heq => rw [heq.2]; rfl

end Everywhere

/-- The tokens a call was asked about, until it deletes them. -/
def Call.named : Call τ → List τ
  | .waiting request => Request.tokens request
  | .removing (.token token) .done => [token]
  | _ => []

omit [DecidableEq τ] in
theorem Call.named_of_shared {call : Call τ} (h : call.mode=some .shared) : call.named=[] := by
  cases call with
  | waiting request => cases h
  | removing target ending =>
    cases ending with
    | done => cases h
    | unauthorized => cases target <;> rfl
  | _ => rfl

def NamedUsed (s : SessionState τ) : Prop := ∀ j, ∀ token∈(s.calls j).named, s.used token=true

theorem namedUsed_step (h : NamedUsed s) (heffect : Effect s t) : NamedUsed t := by
  intro j token htoken
  cases move_of_effect heffect j with
  | inl hsame =>
    rw [hsame] at htoken
    exact used_step heffect (h j token htoken)
  | inr hmove =>
    generalize t.calls j=call at hmove htoken
    cases hmove with
    | begin request _ hused => exact hused token htoken
    | share request call _ hmode =>
      rw [Call.named_of_shared hmode] at htoken
      cases htoken
    | exclude request target hcall htarget =>
      cases target with
      | token named =>
        refine used_step heffect (h j token ?_)
        rw [hcall,htarget named rfl]
        exact htoken
      | principal role ref => cases htoken
    | inside call _ hmode =>
      rw [Call.named_of_shared hmode] at htoken
      cases htoken
    | _ => cases htoken

/-- A call past its request. -/
def Call.begun : Call τ → Bool
  | .idle => false
  | .waiting _ => false
  | _ => true

omit [DecidableEq τ] in
theorem Call.begun_of_mode {call : Call τ} (h : call.mode≠none) : call.begun=true := by
  cases call with
  | idle => exact absurd rfl h
  | waiting request => exact absurd rfl h
  | _ => rfl

variable {j : Nat} {target : Target τ} {token : τ}

theorem begun_step (heffect : Effect s t) (h : (s.calls j).begun=true) :
    (t.calls j).begun=true := by
  cases move_of_effect heffect j with
  | inl hsame => rw [hsame,h]
  | inr hmove =>
    generalize t.calls j=call at hmove
    cases hmove with
    | begin request hcall _ =>
      rw [hcall] at h
      cases h
    | share request call _ hmode => exact Call.begun_of_mode (by simp [hmode])
    | inside call _ hmode => exact Call.begun_of_mode (by simp [hmode])
    | _ => rfl

/-- The lock is taken alone by a request that has waited. -/
theorem exclusive_step (heffect : Effect s t)
    (hbefore : (s.calls j).mode≠some .exclusive) (h : (t.calls j).mode=some .exclusive) :
    ∃ request target, s.calls j=.waiting request ∧ t.calls j=.removing target .done ∧
      ∀ token, target=.token token → request=.delete token := by
  cases move_of_effect heffect j with
  | inl hsame =>
    rw [hsame] at h
    exact absurd h hbefore
  | inr hmove =>
    generalize t.calls j=call at hmove h
    cases hmove with
    | share request call _ hmode => simp [hmode] at h
    | exclude request target hcall htarget => exact ⟨request,target,hcall,rfl,htarget⟩
    | inside call _ hmode => simp [hmode] at h
    | remove target hcall => exact absurd (by rw [hcall]; rfl) hbefore
    | _ => cases h

theorem deleted_step (heffect : Effect s t) (hbefore : (s.calls j).mode≠some .exclusive)
    (h : t.calls j=.deleted target) : s.calls j=.deleted target ∨ (s.calls j).begun=false ∧
    ∃ role ref, target=.principal role ref := by
  cases move_of_effect heffect j with
  | inl hsame => exact .inl (hsame ▸ h)
  | inr hmove =>
    rw [h] at hmove
    cases hmove with
    | share request call _ hmode => cases hmode
    | pass request role ref hcall => exact .inr ⟨by rw [hcall]; rfl,role,ref,rfl⟩
    | inside call _ hmode => cases hmode
    | delete target hcall => exact absurd (by rw [hcall]; rfl) hbefore

/- A token that is gone. -/

structure Gone (token : τ) (s : SessionState τ) : Prop where
  nowhere : Everywhere (fun other _ => other≠token) s
  used : s.used token=true

theorem gone_step (h : Gone token s) (heffect : Effect s t) : Gone token t := by
  refine ⟨?_,used_step heffect h.used⟩
  obtain hall | ⟨i,generated,record,hfresh,rfl⟩ :=
    everywhere_step h.nowhere heffect fun _ _ _ hne _ => hne
  · exact hall
  · refine Everywhere.setCall ⟨h.nowhere.store,h.nowhere.cache,h.nowhere.carried⟩
      fun other record' hrecord => ?_
    cases hrecord
    intro heq
    rw [heq,h.used] at hfresh
    cases hfresh

theorem accepted_step (h : Gone token s) (heffect : Effect s t) {principal : Principal}
    (hcall : t.calls j=.accepted token principal) : s.calls j=.accepted token principal := by
  cases move_of_effect heffect j with
  | inl hsame => exact hsame ▸ hcall
  | inr hmove =>
    rw [hcall] at hmove
    cases hmove with
    | share request call _ hmode => cases hmode
    | inside call _ hmode => cases hmode
    | accept token record hcarried => exact absurd rfl (h.nowhere.carried j token record hcarried)

theorem no_acceptance_of_gone (h : Gone token s) {events : List (SessionEvent τ)}
    (hrun : run (sessionStep ttlSeconds) s events=some t) {principal : Principal}
    (hcall : t.calls j=.accepted token principal) : s.calls j=.accepted token principal := by
  have hkept : Gone token t ∧ ∀ j principal, t.calls j=.accepted token principal →
      s.calls j=.accepted token principal := by
    refine run_invariant (P := fun u => Gone token u ∧ ∀ j principal,
      u.calls j=.accepted token principal → s.calls j=.accepted token principal)
      ?_ ⟨h,fun _ _ hcall => hcall⟩ hrun
    intro u event v hu hv
    have heffect := effect_of_sessionStep hv
    exact ⟨gone_step hu.1 heffect,fun j principal hcall =>
      hu.2 j principal (accepted_step hu.1 heffect hcall)⟩
  exact hkept.2 j principal hcall

/- The owner of a token. -/

/-- The role and the trimmed reference by which a deletion finds a record. -/
def SessionRecord.identity (record : SessionRecord) : PrincipalRole × String :=
  (record.principal.role, trim record.principal.ref)

theorem identity_of_sameIdentity {record old : SessionRecord}
    (h : sameIdentity record.principal old.principal=true) : record.identity=old.identity := by
  simp only [sameIdentity,Bool.and_eq_true,decide_eq_true_eq] at h
  rw [SessionRecord.identity,h.1,h.2,SessionRecord.identity]

theorem Target.covers_of_identity {record other : SessionRecord}
    (h : record.identity=other.identity) :
    target.covers token record=target.covers token other := by
  simp only [SessionRecord.identity,Prod.mk.injEq] at h
  cases target with
  | token deleted => rfl
  | principal role ref => simp only [Target.covers,h.1,h.2]

/-- All records of a token have one identity. -/
def Owned (s : SessionState τ) : Prop :=
  ∃ owner : τ → Option (PrincipalRole × String),
    Everywhere (fun token record => owner token=some record.identity) s ∧
    ∀ token, owner token≠none → s.used token=true

theorem owned_step (h : Owned s) (heffect : Effect s t) : Owned t := by
  obtain ⟨owner,hall,hused⟩ := h
  have hstep := everywhere_step hall heffect fun token old record hold hsame => by
    rw [hold,identity_of_sameIdentity hsame]
  cases hstep with
  | inl hkept => exact ⟨owner,hkept,fun token htoken => used_step heffect (hused token htoken)⟩
  | inr hgenerated =>
    obtain ⟨i,generated,record,hfresh,rfl⟩ := hgenerated
    have hne : ∀ token, owner token≠none → token≠generated := by
      intro token htoken heq
      rw [← heq,hused token htoken] at hfresh
      cases hfresh
    have hkept : ∀ token identity, owner token=some identity →
        Function.update owner generated (some record.identity) token=some identity := by
      intro token identity htoken
      rw [Function.update_of_ne (hne token (by simp [htoken])),htoken]
    refine ⟨Function.update owner generated (some record.identity),
      Everywhere.setCall ⟨fun token old hold => hkept token _ (hall.store token old hold),
        fun token old hold => hkept token _ (hall.cache token old hold),
        fun j token old hold => hkept token _ (hall.carried j token old hold)⟩
        fun token old hold => ?_,fun token htoken => ?_⟩
    · cases hold
      rw [Function.update_self]
    · simp only [setCall,Function.update_apply] at htoken ⊢
      split
      · rfl
      · rename_i hother
        rw [if_neg hother] at htoken
        exact hused token htoken

/- A deletion has the lock alone. -/

omit [DecidableEq τ] in
theorem LockOk.only (h : LockOk s) {i : Nat} (hi : s.writer=some i)
    (hj : (s.calls j).mode≠none) : j=i := by
  cases hmode : (s.calls j).mode with
  | none => exact absurd hmode hj
  | some mode =>
    cases mode with
    | shared =>
      have hmem := h.readers j hmode
      rw [h.alone i hi] at hmem
      cases hmem
    | exclusive => exact Option.some.inj ((h.writer j hmode).symm.trans hi)

/-- What can happen to the records while a deletion runs. -/
inductive Alone (i : Nat) (s t : SessionState τ) : Prop
  | idle (hcall : t.calls i=s.calls i) (hstore : t.store=s.store) (hcache : t.cache=s.cache)
  | remove (target : Target τ) (hcall : s.calls i=.removing target .done)
      (hnext : t.calls i=.evicting target .done) (hstore : t.store=erase target s.store)
      (hcache : t.cache=s.cache)
  | evict (target : Target τ) (hcall : s.calls i=.evicting target .done)
      (hnext : t.calls i=.deleted target) (hstore : t.store=s.store)
      (hcache : t.cache=erase target s.cache) (hother : ∀ j, j≠i → t.calls j=s.calls j)
  | reject (hnext : t.calls i=.rejected)

theorem alone_of_effect (hlock : LockOk s) {i : Nat} (hi : (s.calls i).mode=some .exclusive)
    (heffect : Effect s t) : Alone i s t := by
  have hwriter := hlock.writer i hi
  have hfull : s.writer≠none := by simp [hwriter]
  have honly : ∀ {j mode}, (s.calls j).mode=some mode → j=i :=
    fun hmode => hlock.only hwriter (by simp [hmode])
  have hshared : ∀ {j}, (s.calls j).mode≠some .shared := by
    intro j hmode
    rw [honly hmode,hi] at hmode
    cases hmode
  cases heffect with
  | begin j request hcall =>
    have hne : i≠j := by
      intro heq
      rw [heq,hcall] at hi
      cases hi
    exact .idle (by rw [setCall_calls,if_neg hne]) rfl rfl
  | share _ _ _ _ hfree _ _ => exact absurd hfree hfull
  | exclude _ _ _ _ _ hfree _ => exact absurd hfree hfull
  | pass _ _ _ _ _ hfree _ => exact absurd hfree hfull
  | go j call hinside _ _ => exact absurd hinside hshared
  | generate j token record hinside _ => exact absurd hinside hshared
  | leave j call hinside hnext =>
    have heq : j=i := hlock.only hwriter hinside
    cases hnext with
    | inl hrejected => exact .reject (by rw [finish_calls,if_pos heq.symm,hrejected])
    | inr hanswer =>
      obtain ⟨token,record,hcarried,-⟩ := hanswer
      exact absurd (Call.mode_of_carried hcarried) hshared
  | put j token record hcall => exact absurd (by rw [hcall]; rfl) (hshared (j := j))
  | putFailed j token record hcall => exact absurd (by rw [hcall]; rfl) (hshared (j := j))
  | remove j target ending hcall =>
    cases ending with
    | unauthorized => exact absurd (by rw [hcall]; rfl) (hshared (j := j))
    | done =>
      have heq : j=i := hlock.only hwriter (by simp [hcall,Call.mode])
      rw [heq] at hcall ⊢
      exact .remove target hcall (by rw [setCall_calls,if_pos rfl]) rfl rfl
  | removeFailed j target hinside =>
    have heq : j=i := hlock.only hwriter hinside
    exact .reject (by rw [finish_calls,if_pos heq.symm])
  | insert j token record hcall => exact absurd (by rw [hcall]; rfl) (hshared (j := j))
  | evict j target ending call hcall hnext =>
    cases ending with
    | unauthorized => exact absurd (by rw [hcall]; rfl) (hshared (j := j))
    | done =>
      have heq : j=i := hlock.only hwriter (by simp [hcall,Call.mode])
      have hdeleted : call=.deleted target := by simpa using hnext
      rw [heq] at hcall ⊢
      rw [hdeleted]
      exact .evict target hcall (by rw [finish_calls,if_pos rfl]) rfl rfl
        fun k hk => by rw [finish_calls,if_neg hk]

/-- All records of the token are to be deleted. -/
def Covered (target : Target τ) (token : τ) (records : τ → Option SessionRecord) : Prop :=
  ∀ record, records token=some record → target.covers token record=true

theorem Covered.erase {records : τ → Option SessionRecord}
    (h : Covered target token records) : erase target records token=none := by
  cases herased : SessionState.erase target records token with
  | none => rfl
  | some record =>
    obtain ⟨hrecord,hcovers⟩ := erase_eq_some.mp herased
    rw [h record hrecord] at hcovers
    cases hcovers

/-- How far the deletion `i` is with the token. -/
structure Stage (i : Nat) (target : Target τ) (token : τ) (s : SessionState τ) : Prop where
  /-- A deletion of one token covers whatever it finds. -/
  entered : target=.token token ∨ (s.calls i).begun=true
  removing : s.calls i=.removing target .done →
    Covered target token s.store ∧ Covered target token s.cache ∧ s.used token=true
  evicting : s.calls i=.evicting target .done →
    s.store token=none ∧ Covered target token s.cache ∧ s.used token=true
  deleted : s.calls i=.deleted target → Gone token s

/-- The records the locks and the requests of a reachable state are about. -/
structure Sound (s : SessionState τ) : Prop where
  lock : LockOk s
  named : NamedUsed s
  owned : Owned s

theorem sound_step (h : Sound s) (heffect : Effect s t) : Sound t :=
  ⟨lockOk_step h.lock heffect,namedUsed_step h.named heffect,owned_step h.owned heffect⟩

section Stage
variable {i : Nat} {target : Target τ} {token : τ}

omit [DecidableEq τ] in
theorem no_record_carried (hlock : LockOk s) (hi : (s.calls i).mode=some .exclusive) (j : Nat) :
    (s.calls j).carried=none := by
  cases hcarried : (s.calls j).carried with
  | none => rfl
  | some entry =>
    have hmode := Call.mode_of_carried hcarried
    have heq : j=i := hlock.only (hlock.writer i hi) (by simp [hmode])
    rw [heq,hi] at hmode
    cases hmode

theorem stage_alone (hlock : LockOk s) (hi : (s.calls i).mode=some .exclusive)
    (h : Stage i target token s) (heffect : Effect s t) : Stage i target token t := by
  have hentered : target=.token token ∨ (t.calls i).begun=true :=
    h.entered.imp_right (begun_step heffect)
  have hused := @used_step τ _ s t heffect token
  cases alone_of_effect hlock hi heffect with
  | idle hcall hstore hcache =>
    refine ⟨hentered,?_,?_,?_⟩
    · rw [hcall,hstore,hcache]
      intro hremoving
      obtain ⟨hs,hc,hu⟩ := h.removing hremoving
      exact ⟨hs,hc,hused hu⟩
    · rw [hcall,hstore,hcache]
      intro hevicting
      obtain ⟨hs,hc,hu⟩ := h.evicting hevicting
      exact ⟨hs,hc,hused hu⟩
    · intro hdeleted
      exact gone_step (h.deleted (hcall ▸ hdeleted)) heffect
  | remove other hcall hnext hstore hcache =>
    refine ⟨hentered,?_,?_,?_⟩
    · simp [hnext]
    · rw [hnext,hstore,hcache]
      intro heq
      cases heq
      obtain ⟨hs,hc,hu⟩ := h.removing hcall
      exact ⟨hs.erase,hc,hused hu⟩
    · simp [hnext]
  | evict other hcall hnext hstore hcache hother =>
    refine ⟨hentered,by simp [hnext],by simp [hnext],?_⟩
    rw [hnext]
    intro heq
    cases heq
    obtain ⟨hs,hc,hu⟩ := h.evicting hcall
    refine ⟨⟨fun found record hrecord heq => ?_,fun found record hrecord heq => ?_,
      fun j found record hrecord => ?_⟩,hused hu⟩
    · rw [heq,hstore,hs] at hrecord
      cases hrecord
    · rw [heq,hcache,hc.erase] at hrecord
      cases hrecord
    · by_cases hj : j=i
      · rw [hj,hnext] at hrecord
        cases hrecord
      · rw [hother j hj,no_record_carried hlock hi j] at hrecord
        cases hrecord
  | reject hnext => exact ⟨hentered,by simp [hnext],by simp [hnext],by simp [hnext]⟩

theorem stage_step (hsound : Sound s) (h : Stage i target token s) (heffect : Effect s t) :
    Stage i target token t := by
  by_cases hi : (s.calls i).mode=some .exclusive
  · exact stage_alone hsound.lock hi h heffect
  · refine ⟨h.entered.imp_right (begun_step heffect),fun hcall => ?_,fun hcall => ?_,
      fun hcall => ?_⟩
    · obtain ⟨request,other,hwaiting,hnext,htarget⟩ :=
        exclusive_step heffect hi (by rw [hcall]; rfl)
      have heq : target=other := by simpa [hcall] using hnext
      have htoken : target=.token token := by
        cases h.entered with
        | inl htoken => exact htoken
        | inr hbegun =>
          rw [hwaiting] at hbegun
          cases hbegun
      have hcovered : ∀ records, Covered target token records := by
        intro records record _
        simp [htoken,Target.covers]
      have hnamed : token∈(s.calls i).named := by
        rw [hwaiting,htarget token (heq.symm.trans htoken)]
        exact List.mem_singleton_self token
      exact ⟨hcovered _,hcovered _,used_step heffect (hsound.named i token hnamed)⟩
    · obtain ⟨request,other,-,hnext,-⟩ := exclusive_step heffect hi (by rw [hcall]; rfl)
      rw [hcall] at hnext
      cases hnext
    · obtain hdeleted | ⟨hwaiting,role,ref,hprincipal⟩ := deleted_step heffect hi hcall
      · exact gone_step (h.deleted hdeleted) heffect
      · cases h.entered with
        | inl htoken =>
          rw [hprincipal] at htoken
          cases htoken
        | inr hbegun =>
          rw [hwaiting] at hbegun
          cases hbegun

omit [DecidableEq τ] in
theorem sound_new (store : τ → Option SessionRecord) : Sound (.new store) := by
  refine ⟨⟨fun j hj => ?_,fun j hj => ?_,fun j hj => ?_⟩,fun j token htoken => ?_,
    fun token => (store token).map SessionRecord.identity,
    ⟨fun token record hrecord => ?_,fun token record hrecord => ?_,
      fun j token record hrecord => ?_⟩,fun token htoken => ?_⟩
  · cases hj
  · cases hj
  · cases hj
  · cases htoken
  · exact congrArg (Option.map SessionRecord.identity) hrecord
  · cases hrecord
  · cases hrecord
  · simpa [SessionState.new,Option.isSome_iff_ne_none] using htoken

theorem sound_of_reachable (h : ReachableSessions ttlSeconds s) : Sound s := by
  obtain ⟨store,events,hrun⟩ := h
  exact run_invariant (fun _ _ _ hu hv => sound_step hu (effect_of_sessionStep hv))
    (sound_new store) hrun

theorem stage_run (hsound : Sound s) (h : Stage i target token s) {events : List (SessionEvent τ)}
    (hrun : run (sessionStep ttlSeconds) s events=some t) : Stage i target token t := by
  have hboth : Sound t ∧ Stage i target token t := by
    refine run_invariant (P := fun u => Sound u ∧ Stage i target token u) ?_ ⟨hsound,h⟩ hrun
    intro u event v hu hv
    have heffect := effect_of_sessionStep hv
    exact ⟨sound_step hu.1 heffect,stage_step hu.1 hu.2 heffect⟩
  exact hboth.2

theorem gone_of_deleted (h : ReachableSessions ttlSeconds s)
    (hcall : s.calls i=.deleted (.token token)) : Gone token s := by
  obtain ⟨store,events,hrun⟩ := h
  have hstart : Stage i (.token token) token (.new store) := by
    refine ⟨.inl rfl,fun hidle => ?_,fun hidle => ?_,fun hidle => ?_⟩
    · cases hidle
    · cases hidle
    · cases hidle
  exact (stage_run (sound_new store) hstart hrun).deleted hcall

theorem covered_of_store (howned : Owned s) {record : SessionRecord}
    (hstored : s.store token=some record) (hcovers : target.covers token record=true) :
    Covered target token s.store ∧ Covered target token s.cache := by
  obtain ⟨owner,hall,-⟩ := howned
  have howner := hall.store token record hstored
  have hsame : ∀ other : SessionRecord, owner token=some other.identity →
      target.covers token other=true := by
    intro other hother
    have hidentity : other.identity=record.identity := Option.some.inj (hother.symm.trans howner)
    rw [Target.covers_of_identity hidentity,hcovers]
  exact ⟨fun other hother => hsame other (hall.store token other hother),
    fun other hother => hsame other (hall.cache token other hother)⟩

theorem stage_of_removing (hsound : Sound s) (hcall : s.calls i=.removing target .done)
    {record : SessionRecord} (hstored : s.store token=some record)
    (hcovers : target.covers token record=true) : Stage i target token s := by
  have hused : s.used token=true := by
    obtain ⟨owner,hall,hused⟩ := hsound.owned
    exact hused token (by simp [hall.store token record hstored])
  obtain ⟨hs,hc⟩ := covered_of_store hsound.owned hstored hcovers
  exact ⟨.inr (by rw [hcall]; rfl),fun _ => ⟨hs,hc,hused⟩,by simp [hcall],by simp [hcall]⟩

end Stage

/-- After a deletion has returned no call accepts the tokens it was about: the token of a
`delete`, and the tokens a `delete_for_principal` finds in the store when it has the lock. -/
theorem revocation_is_final :
    (∀ (s t : SessionState τ) (later : List (SessionEvent τ)) (i j : Nat) (token : τ)
      (principal : Principal), ReachableSessions ttlSeconds s →
      s.calls i=.deleted (.token token) → run (sessionStep ttlSeconds) s later=some t →
      t.calls j=.accepted token principal → s.calls j=.accepted token principal) ∧
    ∀ (r s t : SessionState τ) (events later : List (SessionEvent τ)) (i j : Nat)
      (role : PrincipalRole) (ref : String) (token : τ) (record : SessionRecord)
      (principal : Principal), ReachableSessions ttlSeconds r →
      r.calls i=.removing (.principal role ref) .done →
      r.store token=some record → record.principal.role=role →
      trim record.principal.ref=ref → run (sessionStep ttlSeconds) r events=some s →
      s.calls i=.deleted (.principal role ref) → run (sessionStep ttlSeconds) s later=some t →
      t.calls j=.accepted token principal → s.calls j=.accepted token principal := by
  constructor
  · intro s t later i j token principal hreachable hdeleted hrun hcall
    exact no_acceptance_of_gone (gone_of_deleted hreachable hdeleted) hrun hcall
  · intro r s t events later i j role ref token record principal hreachable hremoving hstored
      hrole href hbefore hdeleted hrun hcall
    have hsound := sound_of_reachable hreachable
    have hstage := stage_of_removing hsound hremoving hstored (by simp [Target.covers,hrole,href])
    exact no_acceptance_of_gone ((stage_run hsound hstage hbefore).deleted hdeleted) hrun hcall

section Sample

-- The sample run is evaluated.
attribute [local semireducible] trim

def samplePrincipal : Principal := ⟨.admin,"Admin"," admin "⟩

def sampleStore (token : Nat) : Option SessionRecord :=
  if token<2 then some (.new samplePrincipal 0 none none) else none

/-- The call 0 has read the token 0 when the call 1 asks for its deletion. -/
def getThenDelete : List (SessionEvent Nat) :=
  [.start 0 (.get 0),.lock 0,.readCache 0 5,.readStore 0 true 5,.start 1 (.delete 0),
    .validate 0 (some true) 9 5,.writeCache 0,.lock 1,.writeStore 1 .ok,.writeCache 1]

def askForPrincipal : List (SessionEvent Nat) :=
  [.start 1 (.deleteForPrincipal .admin "admin  "),.lock 1]

def removeRecords : List (SessionEvent Nat) := [.writeStore 1 .ok,.writeCache 1]

theorem revocation_is_final_sample : (∃ s : SessionState Nat,
      run (sessionStep none) (.new sampleStore) getThenDelete=some s ∧
      ∀ later t j principal, run (sessionStep none) s later=some t →
        t.calls j=.accepted 0 principal → s.calls j=.accepted 0 principal) ∧
    ∃ r s : SessionState Nat, run (sessionStep none) (.new sampleStore) askForPrincipal=some r ∧
      run (sessionStep none) r removeRecords=some s ∧
      ∀ later t j principal, run (sessionStep none) s later=some t →
        t.calls j=.accepted 1 principal → s.calls j=.accepted 1 principal := by
  constructor
  · refine ⟨_,rfl,fun later t j principal => ?_⟩
    exact (@revocation_is_final Nat _ none).1 _ t later 1 j 0 principal
      ⟨sampleStore,getThenDelete,rfl⟩ rfl
  · refine ⟨_,_,rfl,rfl,fun later t j principal => ?_⟩
    exact (@revocation_is_final Nat _ none).2 _ _ t removeRecords later 1 j .admin "admin" 1
      (.new samplePrincipal 0 none none) principal ⟨sampleStore,askForPrincipal,rfl⟩ rfl rfl rfl
      (by decide +kernel) rfl rfl

end Sample

end MiniErp.Session
