import MiniErp.Auth.Principal
import MiniErp.Lib.Steps
import MiniErp.Lib.Text

/-! The session manager. Calls run in any interleaving; every access to the store, the cache, the
validator or the lock is a step. -/
namespace MiniErp.Session
open Text Auth Steps

structure SessionRecord where
  principal : Principal
  createdAt : Option Int
  updatedAt : Option Int
  expiresAt : Option Int
  deriving DecidableEq

def SessionRecord.new (principal : Principal) (now : Int) (createdAt : Option Int)
    (ttlSeconds : Option Nat) : SessionRecord where
  principal := principal
  createdAt := some (createdAt.getD now)
  updatedAt := some now
  expiresAt := ttlSeconds.map fun seconds => now+seconds

def SessionRecord.isExpired (record : SessionRecord) (now : Int) : Bool :=
  record.expiresAt.any fun expiresAt => expiresAt<now

/-- What a deletion is about: one token, or the sessions of a principal. -/
inductive Target (τ : Type*) where
  | token (token : τ)
  | principal (role : PrincipalRole) (ref : String)

def Target.covers {τ : Type*} [DecidableEq τ] (target : Target τ) (token : τ)
    (record : SessionRecord) : Bool :=
  match target with
  | .token deleted => token=deleted
  | .principal role ref => record.principal.role=role && trim record.principal.ref=ref

inductive Request (τ : Type*) where
  | create (principal : Principal)
  | get (token : τ)
  | update (token : τ) (principal : Principal)
  | delete (token : τ)
  | deleteForPrincipal (role : PrincipalRole) (ref : String)

/-- What follows `require_active`. -/
inductive Task (τ : Type*) where
  | create (principal : Principal)
  | answer (token : τ) (record : SessionRecord)
  | keep (token : τ) (record : SessionRecord)
  | update (token : τ) (principal : Principal)

/-- Who asks for the record of a token. -/
inductive Reader where
  | get
  | update (principal : Principal)

/-- How a deletion ends: it was asked for, or it precedes a refusal. -/
inductive Ending where
  | done
  | unauthorized
  deriving DecidableEq

/-- Where a call is. -/
inductive Call (τ : Type*) where
  | idle
  | waiting (request : Request τ)
  | checking (principal : Principal) (task : Task τ)
  | reading (token : τ) (reader : Reader)
  | loading (token : τ) (reader : Reader)
  | dropping (token : τ)
  | putting (token : τ) (record : SessionRecord)
  | caching (token : τ) (record : SessionRecord)
  | removing (target : Target τ) (ending : Ending)
  | evicting (target : Target τ) (ending : Ending)
  | accepted (token : τ) (principal : Principal)
  | deleted (target : Target τ)
  | rejected

structure SessionState (τ : Type*) where
  store : τ → Option SessionRecord
  cache : τ → Option SessionRecord
  /-- The holders of the operations lock. -/
  readers : List Nat
  writer : Option Nat
  calls : Nat → Call τ
  /-- The tokens that were seen: a generated one is none of them. -/
  used : τ → Bool

/-- How a write of the store ends; a failed one may have happened. -/
inductive Outcome where
  | ok
  | failed (written : Bool)

def Outcome.happened : Outcome → Bool
  | .ok => true
  | .failed written => written

namespace SessionState
variable {τ : Type*}

def new (store : τ → Option SessionRecord) : SessionState τ where
  store := store
  cache := fun _ => none
  readers := []
  writer := none
  calls := fun _ => .idle
  used := fun token => (store token).isSome

def setCall (s : SessionState τ) (i : Nat) (call : Call τ) : SessionState τ :=
  { s with calls := Function.update s.calls i call }

/-- The call returns and gives the lock back. -/
def finish (s : SessionState τ) (i : Nat) (call : Call τ) : SessionState τ :=
  { s with
    readers := s.readers.filter (· ≠ i)
    writer := if s.writer=some i then none else s.writer
    calls := Function.update s.calls i call }

variable [DecidableEq τ]

def erase (target : Target τ) (records : τ → Option SessionRecord) : τ → Option SessionRecord :=
  fun token => (records token).filter fun record => !target.covers token record

/-- `delete_principal_records`; without a reference it does nothing. -/
def deletePrincipalRecords (s : SessionState τ) (i : Nat) (role : PrincipalRole) (ref : String)
    (ending : Ending) : SessionState τ :=
  if isBlank ref then
    s.finish i (match ending with
      | .done => .deleted (.principal role (trim ref))
      | .unauthorized => .rejected)
  else s.setCall i (.removing (.principal role (trim ref)) ending)

def Request.tokens : Request τ → List τ
  | .create _ => []
  | .get token => [token]
  | .update token _ => [token]
  | .delete token => [token]
  | .deleteForPrincipal _ _ => []

def start (s : SessionState τ) (i : Nat) (request : Request τ) : Option (SessionState τ) :=
  match s.calls i with
  | .idle => some ({ s with used := fun token => s.used token || token∈Request.tokens request }.setCall
      i (.waiting request))
  | _ => none

/-- The lock is shared by `create`, `get` and `update`, and the deletions have it alone. -/
def lock (s : SessionState τ) (i : Nat) : Option (SessionState τ) :=
  match s.calls i with
  | .waiting request =>
    let shared := fun call : Call τ =>
      if s.writer.isNone then some ({ s with readers := i::s.readers }.setCall i call) else none
    match request with
    | .create principal => shared (.checking principal (.create principal))
    | .get token => shared (.reading token .get)
    | .update token principal => shared (.checking principal (.update token principal))
    | .delete token =>
      if s.writer.isNone && s.readers.isEmpty then
        some ({ s with writer := some i }.setCall i (.removing (.token token) .done))
      else none
    | .deleteForPrincipal role ref =>
      if s.writer.isNone && s.readers.isEmpty then
        some ({ s with writer := some i }.deletePrincipalRecords i role ref .done)
      else none
  | _ => none

/-- `require_active`: the validator fails, or says whether the principal is active. A manager
without a validator goes on. -/
def validate (ttlSeconds : Option Nat) (s : SessionState τ) (i : Nat) (verdict : Option Bool)
    (generated : τ) (now : Int) : Option (SessionState τ) :=
  match s.calls i with
  | .checking principal task =>
    match verdict with
    | none => some (s.finish i .rejected)
    | some false => some (s.deletePrincipalRecords i principal.role principal.ref .unauthorized)
    | some true =>
      match task with
      | .create principal =>
        if s.used generated then none
        else some ({ s with used := Function.update s.used generated true }.setCall i
          (.putting generated (.new principal now none ttlSeconds)))
      | .answer token record => some (s.finish i (.accepted token record.principal))
      | .keep token record => some (s.setCall i (.caching token record))
      | .update token principal => some (s.setCall i (.reading token (.update principal)))
  | _ => none

/-- An update keeps the role and the reference of the token. -/
def sameIdentity (principal other : Principal) : Bool :=
  principal.role=other.role && principal.ref=other.ref

section
variable (ttlSeconds : Option Nat) (s : SessionState τ) (i : Nat)

def renew (token : τ)
    (principal : Principal) (existing : SessionRecord) (now : Int) : Option (SessionState τ) :=
  if existing.isExpired now then some (s.setCall i (.removing (.token token) .unauthorized))
  else if sameIdentity principal existing.principal then
    some (s.setCall i (.putting token (.new principal now existing.createdAt ttlSeconds)))
  else none

def readCache (now : Int) : Option (SessionState τ) :=
  match s.calls i with
  | .reading token reader =>
    match s.cache token with
    | none => some (s.setCall i (.loading token reader))
    | some record =>
      match reader with
      | .get =>
        if record.isExpired now then some (s.setCall i (.removing (.token token) .unauthorized))
        else some (s.setCall i (.checking record.principal (.answer token record)))
      | .update principal => s.renew ttlSeconds i token principal record now
  | _ => none

def readStore (ok : Bool) (now : Int) : Option (SessionState τ) :=
  match s.calls i with
  | .loading token reader =>
    match ok, s.store token with
    | true, some record =>
      match reader with
      | .get =>
        if record.isExpired now then some (s.setCall i (.dropping token))
        else some (s.setCall i (.checking record.principal (.keep token record)))
      | .update principal => s.renew ttlSeconds i token principal record now
    | _, _ => some (s.finish i .rejected)
  | _ => none

end

def writeStore (s : SessionState τ) (i : Nat) (outcome : Outcome) : Option (SessionState τ) :=
  match s.calls i with
  | .putting token record =>
    let written :=
      if outcome.happened then { s with store := Function.update s.store token (some record) } else s
    some (match outcome with
      | .ok => written.setCall i (.caching token record)
      | .failed _ => written.finish i .rejected)
  | .dropping token =>
    let written := if outcome.happened then { s with store := erase (.token token) s.store } else s
    some (written.finish i .rejected)
  | .removing target ending =>
    let written := if outcome.happened then { s with store := erase target s.store } else s
    some (match outcome with
      | .ok => written.setCall i (.evicting target ending)
      | .failed _ => written.finish i .rejected)
  | _ => none

def writeCache (s : SessionState τ) (i : Nat) : Option (SessionState τ) :=
  match s.calls i with
  | .caching token record =>
    some ({ s with cache := Function.update s.cache token (some record) }.finish i
      (.accepted token record.principal))
  | .evicting target ending =>
    some ({ s with cache := erase target s.cache }.finish i (match ending with
      | .done => .deleted target
      | .unauthorized => .rejected))
  | _ => none

end SessionState

inductive SessionEvent (τ : Type*) where
  | start (i : Nat) (request : Request τ)
  | lock (i : Nat)
  | validate (i : Nat) (verdict : Option Bool) (generated : τ) (now : Int)
  | readCache (i : Nat) (now : Int)
  | readStore (i : Nat) (ok : Bool) (now : Int)
  | writeStore (i : Nat) (outcome : Outcome)
  | writeCache (i : Nat)

variable {τ : Type*} [DecidableEq τ]

def sessionStep (ttlSeconds : Option Nat) (s : SessionState τ) :
    SessionEvent τ → Option (SessionState τ)
  | .start i request => s.start i request
  | .lock i => s.lock i
  | .validate i verdict generated now => s.validate ttlSeconds i verdict generated now
  | .readCache i now => s.readCache ttlSeconds i now
  | .readStore i ok now => s.readStore ttlSeconds i ok now
  | .writeStore i outcome => s.writeStore i outcome
  | .writeCache i => s.writeCache i

def ReachableSessions (ttlSeconds : Option Nat) (s : SessionState τ) : Prop :=
  ∃ store events, run (sessionStep ttlSeconds) (.new store) events=some s

end MiniErp.Session
