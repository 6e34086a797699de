import ZortilWatch.Lib.Runs
import ZortilWatch.Server.Database
import ZortilWatch.Server.Totp
import ZortilWatch.Signaling.Handler

/-!
# Turning the second factor on and off (`server/src/http/routes.ts`)

`/totp/setup`, `/totp/enable`, `/totp/disable` and `/sessions` as a system that
runs one database statement at a time, like the address book. The row a
statement reads is as of the event; the clock its handler goes on with is any.

`/totp/disable` asks for a code of the secret it read, `/totp/enable` for one of
the secret it brings, and neither asks the table again before it writes. So
the stored secret is protected as long as no secret is enabled over another and
no write comes between the read and the write of a `/totp/disable`
(`factor_kept_of_undisturbed`).
-/

namespace ZortilWatch.Server

open Text (utf16Length)

/-- The columns of an account row. -/
structure Account where
  email : String
  passwordHash : String
  totpSecret : Option String := none
  deriving DecidableEq, Repr

/-- What the routes take from their platform. -/
structure AuthEnv extends TotpEnv where
  verifyPassword : String → String → Bool

inductive HttpReply where
  | ok
  | setup (secret : String)
  | session (accountId : AccountId) (totpEnabled : Bool)
  | error (status : Nat) (error : String)
  | rateLimited (retryAfter : Nat)
  deriving DecidableEq, Repr

/-- A handler suspended at a statement, with what it holds then. -/
inductive AuthTask where
  | setup (accountId : AccountId)
  /-- Before `setTotpSecret(accountId, secret)`; `code` was checked at `checkedAt`. -/
  | enable (accountId : AccountId) (secret code : String) (checkedAt : Nat)
  /-- `/totp/disable` before it reads the account. -/
  | disable (accountId : AccountId) (code : String)
  /-- Before `setTotpSecret(accountId, null)`; `code` was checked for `read`. -/
  | clear (accountId : AccountId) (read code : String) (checkedAt : Nat)
  | session (email password : String) (totpCode : Option String)
  deriving DecidableEq, Repr

structure AuthServer where
  accounts : JsMap AccountId Account
  loginLimiter : RateLimiter
  tasks : List AuthTask := []

namespace AuthServer

/-- A request, with the account its bearer token is for (`none`: no valid token)
and a body (`none`: the schema's shape refuses it), or the statement of a task. -/
inductive Event where
  | setup (token : Option AccountId)
  | enable (token : Option AccountId) (body : Option (String × String)) (now : Nat)
  | disable (token : Option AccountId) (body : Option String)
  | session (ip : String) (body : Option (String × String × Option String)) (now : Nat)
  /-- `fresh` is what `generateTotpSecret()` returns if it is called. -/
  | statement (i : Nat) (fate : Fate) (fresh : String) (now : Nat)
  deriving DecidableEq, Repr

/-- The secret stored for an account. -/
def stored (s : AuthServer) (a : AccountId) : Option String := (s.accounts.get a).bind (·.totpSecret)

/-- `acc?.totpSecret`, where the empty string counts as no secret. -/
def secretOf (acc : Option Account) : Option String := (acc.bind (·.totpSecret)).filter (· != "")

def park (s : AuthServer) (t : AuthTask) : AuthServer := { s with tasks := s.tasks ++ [t] }

/-- Write `totpSecret` of an account; a row that is not there is an exception. -/
def setTotpSecret (s : AuthServer) (a : AccountId) (secret : Option String) : AuthServer × HttpReply :=
  match s.accounts.get a with
  | none => (s, .error 500 "internal")
  | some acc => ({ s with accounts := s.accounts.set a { acc with totpSecret := secret } }, .ok)

/-- What the statement of a task writes. -/
def write (s : AuthServer) : AuthTask → AuthServer × HttpReply
  | .enable a secret _ _ => s.setTotpSecret a (some secret)
  | .clear a _ _ _ => s.setTotpSecret a none
  | _ => (s, .ok)

variable (env : AuthEnv)

/-- `/sessions` from its row on. -/
def logIn (row : Option (AccountId × Account)) (password : String) (totpCode : Option String) (now : Nat) : HttpReply :=
  match row with
  | none => .error 401 "invalid_credentials"
  | some (a, acc) =>
    if env.verifyPassword acc.passwordHash password = false then .error 401 "invalid_credentials"
    else
      match secretOf (some acc), totpCode.filter (· != "") with
      | none, _ => .session a false
      | some _, none => .error 401 "totp_required"
      | some secret, some code =>
        match verifyTotp env.toTotpEnv secret code now with
        | none => .error 500 "internal"
        | some false => .error 401 "totp_invalid"
        | some true => .session a true

/-- `/totp/disable` from its row on. -/
def checkToDisable (s : AuthServer) (a : AccountId) (code : String) (now : Nat) : AuthServer × Option HttpReply :=
  match secretOf (s.accounts.get a) with
  | none => (s, some (.error 400 "totp_invalid"))
  | some secret =>
    match verifyTotp env.toTotpEnv secret code now with
    | none => (s, some (.error 500 "internal"))
    | some false => (s, some (.error 400 "totp_invalid"))
    | some true => (s.park (.clear a secret code now), none)

/-- A task whose statement was answered. -/
def goOn (s : AuthServer) (fresh : String) (now : Nat) : AuthTask → AuthServer × Option HttpReply
  | .setup _ => (s, some (.setup fresh))
  | .disable a code => s.checkToDisable env a code now
  | .session email password totpCode =>
    (s, some (logIn env (s.accounts.entries.find? (·.2.email == email)) password totpCode now))
  | t => ((s.write t).1, some (s.write t).2)

/-- `/totp/enable` up to its statement. -/
def enable (s : AuthServer) (token : Option AccountId) (body : Option (String × String)) (now : Nat) :
    AuthServer × Option HttpReply :=
  match token, body with
  | none, _ => (s, some (.error 401 "unauthorized"))
  | some _, none => (s, some (.error 400 "bad_request"))
  | some a, some (secret, code) =>
    if utf16Length secret.toList < 16 ∨ utf16Length secret.toList > 64 ∨ utf16Length code.toList > 16 then
      (s, some (.error 400 "bad_request"))
    else
      match verifyTotp env.toTotpEnv secret code now with
      | none => (s, some (.error 500 "internal"))
      | some false => (s, some (.error 400 "totp_invalid"))
      | some true => (s.park (.enable a secret code now), none)

/-- `/totp/disable` up to its first statement. -/
def disable (s : AuthServer) (token : Option AccountId) (body : Option String) : AuthServer × Option HttpReply :=
  match token, body with
  | none, _ => (s, some (.error 401 "unauthorized"))
  | some _, none => (s, some (.error 400 "bad_request"))
  | some a, some code =>
    if utf16Length code.toList > 16 then (s, some (.error 400 "bad_request")) else (s.park (.disable a code), none)

/-- `/sessions` up to its statement. -/
def session (s : AuthServer) (ip : String) (body : Option (String × String × Option String)) (now : Nat) :
    AuthServer × Option HttpReply :=
  let rl := s.loginLimiter.check ip now
  let s := { s with loginLimiter := rl.2 }
  if rl.1.allowed = false then (s, some (.rateLimited rl.1.retryAfterSec))
  else
    match body with
    | none => (s, some (.error 400 "bad_request"))
    | some (email, password, totpCode) =>
      if utf16Length password.toList < 8 ∨ utf16Length password.toList > 200 ∨
          totpCode.any (utf16Length ·.toList > 16) then
        (s, some (.error 400 "bad_request"))
      else (s.park (.session email password totpCode), none)

/-- The statement of the `i`-th task. -/
def statement (s : AuthServer) (i : Nat) (fate : Fate) (fresh : String) (now : Nat) : AuthServer × Option HttpReply :=
  match s.tasks[i]? with
  | none => (s, none)
  | some t =>
    let s := { s with tasks := s.tasks.eraseIdx i }
    match fate with
    | .answered => s.goOn env fresh now t
    | .unanswered => ((s.write t).1, some (.error 500 "internal"))
    | .failed => (s, some (.error 500 "internal"))

def handle (s : AuthServer) : Event → AuthServer × Option HttpReply
  | .setup none => (s, some (.error 401 "unauthorized"))
  | .setup (some a) => (s.park (.setup a), none)
  | .enable token body now => s.enable env token body now
  | .disable token body => s.disable token body
  | .session ip body now => s.session ip body now
  | .statement i fate fresh now => s.statement env i fate fresh now

end AuthServer

/-- The runs of the four routes, from any accounts. -/
def authServer (env : AuthEnv) : System AuthServer AuthServer.Event where
  init s := s.tasks = []
  enabled _ _ := True
  step s e := (s.handle env e).1

/-- A code and the secret it was checked for. -/
structure Proof where
  accountId : AccountId
  secret : String
  code : String
  checkedAt : Nat
  deriving DecidableEq, Repr

/-- The check that let a handler come to its write. -/
def AuthTask.proof : AuthTask → Option Proof
  | .enable a secret code checkedAt => some ⟨a, secret, code, checkedAt⟩
  | .clear a read code checkedAt => some ⟨a, read, code, checkedAt⟩
  | _ => none

namespace AuthServer

variable (env : AuthEnv)

/-- Whatever changes a stored secret is the write of a request with a code that
this secret accepts. -/
def FactorKept (s : AuthServer) (e : Event) : Prop :=
  ∀ a secret, s.stored a = some secret → (s.handle env e).1.stored a ≠ some secret →
    ∃ i fate fresh now, e = .statement i fate fresh now ∧ ∃ t ∈ s.tasks[i]?, ∃ p ∈ t.proof,
      p.accountId = a ∧ verifyTotp env.toTotpEnv secret p.code p.checkedAt = some true

/-- A write finds no secret stored, or the one its code was checked for. -/
def Undisturbed (s : AuthServer) : Event → Prop
  | .statement i fate _ _ => fate ≠ .failed → ∀ t ∈ s.tasks[i]?, ∀ p ∈ t.proof,
      s.stored p.accountId = none ∨ s.stored p.accountId = some p.secret
  | _ => True

/-- Every handler before its write has checked its code. -/
def Checked (s : AuthServer) : Prop :=
  ∀ t ∈ s.tasks, ∀ p ∈ t.proof, verifyTotp env.toTotpEnv p.secret p.code p.checkedAt = some true

variable {env} {s : AuthServer}

theorem stored_setTotpSecret {a b : AccountId} {secret : Option String}
    (changed : (s.setTotpSecret a secret).1.stored b ≠ s.stored b) : a = b := by
  by_contra other
  refine changed ?_
  unfold setTotpSecret
  split
  · rfl
  · simp [stored, JsMap.get_set_ne _ _ other]

/-- A write changes the secret of the account it is made for. -/
theorem stored_write {t : AuthTask} {a : AccountId} (changed : (s.write t).1.stored a ≠ s.stored a) :
    ∃ p ∈ t.proof, p.accountId = a := by
  cases t with
  | enable b secret code checkedAt => exact ⟨_, rfl, stored_setTotpSecret changed⟩
  | clear b read code checkedAt => exact ⟨_, rfl, stored_setTotpSecret changed⟩
  | _ => exact absurd rfl changed

theorem accounts_write (tasks : List AuthTask) (t : AuthTask) :
    (({ s with tasks := tasks } : AuthServer).write t).1.accounts = (s.write t).1.accounts := by
  cases t with
  | enable | clear =>
    simp only [write, setTotpSecret]
    split <;> rfl
  | _ => rfl

/-- Only the statement of a task writes accounts. -/
theorem accounts_handle (e : Event) : (s.handle env e).1.accounts = s.accounts ∨
    ∃ i fate fresh now, e = .statement i fate fresh now ∧ fate ≠ .failed ∧
      ∃ t ∈ s.tasks[i]?, (s.handle env e).1.accounts = (s.write t).1.accounts := by
  cases e with
  | setup token => cases token <;> exact .inl rfl
  | enable token body now =>
    refine .inl ?_
    simp only [handle, enable]
    repeat' split
    all_goals rfl
  | disable token body =>
    refine .inl ?_
    simp only [handle, disable]
    repeat' split
    all_goals rfl
  | session ip body now =>
    refine .inl ?_
    simp only [handle, session]
    repeat' split
    all_goals rfl
  | statement i fate fresh now =>
    cases ht : s.tasks[i]? with
    | none => exact .inl (by simp [handle, statement, ht])
    | some t =>
      cases fate with
      | failed => exact .inl (by simp [handle, statement, ht])
      | unanswered =>
        refine .inr ⟨i, _, fresh, now, rfl, by simp, t, ht, ?_⟩
        simp only [handle, statement, ht]
        exact accounts_write _ t
      | answered =>
        refine .inr ⟨i, _, fresh, now, rfl, by simp, t, ht, ?_⟩
        simp only [handle, statement, ht]
        cases t with
        | disable a code =>
          simp only [goOn, checkToDisable]
          repeat' split
          all_goals rfl
        | enable | clear => exact accounts_write _ _
        | _ => rfl

theorem factorKept (checked : Checked env s) {e : Event} (calm : Undisturbed s e) : FactorKept env s e := by
  intro a secret was changed
  have writes : (s.handle env e).1.accounts = s.accounts ∨ _ := accounts_handle e
  rcases writes with same | ⟨i, fate, fresh, now, rfl, done, t, ht, written⟩
  · simp only [stored, same] at changed
    exact absurd was changed
  · have moved : (s.write t).1.stored a ≠ s.stored a := by
      rw [was]
      simpa only [stored, written] using changed
    obtain ⟨p, hp, rfl⟩ := stored_write moved
    refine ⟨i, fate, fresh, now, rfl, t, ht, p, hp, rfl, ?_⟩
    have proven := checked t (List.mem_of_getElem? ht) p hp
    rcases calm done t ht p hp with none_stored | same
    · rw [was] at none_stored
      cases none_stored
    · rw [was] at same
      cases same
      exact proven

theorem Checked.park (checked : Checked env s) {t : AuthTask}
    (own : ∀ p ∈ t.proof, verifyTotp env.toTotpEnv p.secret p.code p.checkedAt = some true) :
    Checked env (s.park t) := by
  intro t' mem p hp
  rcases List.mem_append.1 mem with mem | mem
  · exact checked t' mem p hp
  · rw [List.mem_singleton.1 mem] at hp
    exact own p hp

theorem Checked.sublist (checked : Checked env s) {s' : AuthServer} (fewer : ∀ t ∈ s'.tasks, t ∈ s.tasks) :
    Checked env s' := fun t mem p hp => checked t (fewer t mem) p hp

theorem tasks_write (t : AuthTask) : (s.write t).1.tasks = s.tasks := by
  cases t with
  | enable | clear =>
    simp only [write, setTotpSecret]
    split <;> rfl
  | _ => rfl

theorem Checked.handle (checked : Checked env s) (e : Event) : Checked env (s.handle env e).1 := by
  cases e with
  | setup token =>
    cases token with
    | none => exact checked
    | some a => exact checked.park fun p hp => by cases hp
  | enable token body now =>
    simp only [AuthServer.handle, AuthServer.enable]
    repeat' split
    all_goals try exact checked
    rename_i verified
    refine checked.park fun p hp => ?_
    cases hp
    exact verified
  | disable token body =>
    simp only [AuthServer.handle, AuthServer.disable]
    repeat' split
    all_goals try exact checked
    exact checked.park fun p hp => by cases hp
  | session ip body now =>
    simp only [AuthServer.handle, AuthServer.session]
    repeat' split
    all_goals try exact checked
    exact Checked.park checked fun p hp => by cases hp
  | statement i fate fresh now =>
    simp only [AuthServer.handle, AuthServer.statement]
    cases ht : s.tasks[i]? with
    | none => exact checked
    | some t =>
      have rest : Checked env { s with tasks := s.tasks.eraseIdx i } :=
        checked.sublist fun t mem => List.mem_of_mem_eraseIdx mem
      have written (t : AuthTask) : Checked env (AuthServer.write { s with tasks := s.tasks.eraseIdx i } t).1 :=
        rest.sublist fun t' mem => by rwa [tasks_write] at mem
      cases fate with
      | failed => exact rest
      | unanswered => exact written t
      | answered =>
        cases t with
        | disable a code =>
          simp only [goOn, checkToDisable]
          repeat' split
          all_goals try exact rest
          rename_i verified
          refine rest.park fun p hp => ?_
          cases hp
          exact verified
        | enable | clear => exact written _
        | _ => exact rest

/-- In a run whose writes each find no secret, or the one their code was checked
for, the second factor is changed by those only who have it. -/
theorem factor_kept_of_undisturbed (env : AuthEnv) {start : AuthServer} (hi : (authServer env).init start)
    {es : List Event} (calm : (authServer env).AllSteps Undisturbed start es) :
    (authServer env).AllSteps (FactorKept env) start es := by
  have checked : Checked env start := by
    intro t mem
    rw [show start.tasks = [] from hi] at mem
    cases mem
  clear hi
  induction es generalizing start with
  | nil => trivial
  | cons e es ih => exact ⟨factorKept checked calm.1, ih calm.2 (checked.handle e)⟩

/-! ## A holder of the token -/

/-- HMAC-SHA1 under the keys of the two secrets below, for the counters a code is
compared with at 59 seconds. -/
def sampleHmac (key msg : List UInt8) : List UInt8 :=
  if key = [49, 50, 51, 52, 53, 54, 55, 56, 57, 48, 49, 50, 51, 52, 53, 54, 55, 56, 57, 48] then
    match msg.getLast? with
    | some 0 => [204, 147, 207, 24, 80, 141, 148, 147, 76, 100, 182, 93, 139, 167, 102, 127, 183, 205, 228, 176]
    | some 1 => [117, 164, 138, 25, 212, 203, 225, 0, 100, 78, 138, 193, 57, 126, 234, 116, 122, 45, 51, 171]
    | _ => [11, 172, 183, 250, 8, 47, 239, 48, 120, 34, 17, 147, 139, 193, 197, 231, 4, 22, 255, 68]
  else [133, 63, 121, 182, 101, 10, 158, 60, 90, 129, 241, 121, 162, 9, 37, 59, 203, 190, 116, 2]

def sampleAuth : AuthEnv where
  hmacSha1 := sampleHmac
  toUpperCase := id
  verifyPassword _ _ := true

/-- An account with a second factor. -/
def sampleAccounts : AuthServer where
  accounts := (∅ : JsMap AccountId Account).set "acc"
    { email := "a@example.com", passwordHash := "h", totpSecret := some "GEZDGNBVGY3TQOJQGEZDGNBVGY3TQOJQ" }
  loginLimiter := { limit := 10, windowMs := 60000 }

/-- Whoever holds the token enables a secret of their own over the stored one. -/
theorem factor_swapped :
    ¬ ∀ start es, (authServer sampleAuth).init start →
      (authServer sampleAuth).AllSteps (FactorKept sampleAuth) start es := by
  intro all
  have kept := all sampleAccounts
    [.enable (some "acc") (some ("JBSWY3DPEHPK3PXP", "996554")) 59000, .statement 0 .answered "" 59000] rfl
  obtain ⟨i, fate, fresh, now, same, t, ht, p, hp, -, accepted⟩ := kept.2.1 "acc" "GEZDGNBVGY3TQOJQGEZDGNBVGY3TQOJQ"
    (by decide +kernel) (by decide +kernel)
  cases same
  have parked : t = .enable "acc" "JBSWY3DPEHPK3PXP" "996554" 59000 := by
    refine Option.some.inj (Eq.trans (Eq.symm ht) ?_)
    decide +kernel
  subst parked
  cases hp
  revert accepted
  decide +kernel

instance (s : AuthServer) : (e : Event) → Decidable (Undisturbed s e)
  | .statement i fate _ _ => inferInstanceAs (Decidable (fate ≠ .failed → ∀ t ∈ s.tasks[i]?, ∀ p ∈ t.proof,
      s.stored p.accountId = none ∨ s.stored p.accountId = some p.secret))
  | .setup _ => .isTrue trivial
  | .enable .. => .isTrue trivial
  | .disable .. => .isTrue trivial
  | .session .. => .isTrue trivial

/-- The owner turns the factor off with a code. -/
theorem factor_kept_by_owner :
    (authServer sampleAuth).AllSteps (FactorKept sampleAuth) sampleAccounts
      [.disable (some "acc") (some "287 082"), .statement 0 .answered "" 59000, .statement 0 .answered "" 59100] :=
  factor_kept_of_undisturbed sampleAuth (rfl : sampleAccounts.tasks = []) (by decide +kernel)

end AuthServer

end ZortilWatch.Server
