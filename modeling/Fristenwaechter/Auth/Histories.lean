import Fristenwaechter.Auth.Accounts
import Fristenwaechter.Auth.BruteForce
import Fristenwaechter.Library.Machine

/-!
Owns the exact meaning of the brute-force guard over serial histories of `login` calls.
Each call runs its transactions one after the other with nobody else connected: the check
of the lock, the verification against the accounts, and the record of the outcome, which
on success also replaces a hash made with weaker parameters. Between two calls other
functions may leave any accounts behind. What a call ends with depends only on the row of
its pair and on whether it verifies; the row stands for the failures of the pair since its
last success.
-/

namespace Fristenwaechter.Throttle

open Library (Table Keyed Journal Writes Program Server Machine)
open Accounts (Primitives)

/-! ### The calls -/

/-- What a login rests on besides `str.lower`: SQL's `lower`, and `PasswordHasher.verify`
and `check_needs_rehash` of argon2. A hash that does not match or is none raises, which
`verify_password` turns into `False`. -/
structure Libraries extends Primitives where
  sqlLower : Str → Str
  verify : (hash password : Str) → Bool
  needsRehash : (hash : Str) → Bool

/-- The documented behaviour of the libraries, with argon2 taken as free of collisions:
two passwords with one hash exist, since hashes are bounded, but nobody is to find them.
`hashed` and `one` leave them out, as assumptions on argon2. -/
structure Libraries.Documented (libraries : Libraries) : Prop where
  /-- SQL's `lower` leaves lower-case text alone. -/
  lowered : ∀ email,
    libraries.sqlLower (libraries.normalizeEmail email) = libraries.normalizeEmail email
  /-- A hash verifies the password it was made of, and no other: the second half is freedom
  of collisions. -/
  hashed : ∀ salt password other,
    libraries.verify (libraries.hashPassword salt password) other = true ↔ other = password
  /-- A stored hash is the hash of one password: freedom of collisions for any salt. -/
  one : ∀ {hash first second}, libraries.verify hash first = true →
    libraries.verify hash second = true → first = second
  /-- An encoded hash is not empty. -/
  encoded : ∀ salt password, libraries.hashPassword salt password ≠ []

/-- The rows of `account_user`; `email` is a unique column. -/
structure Accounts where
  table : Table AccountUser
  unique : (table.rows.map AccountUser.email).Nodup

def withHash (hash : Str) (user : AccountUser) : AccountUser :=
  { user with passwordHash := some hash }

theorem key_withHash (hash : Str) (user : AccountUser) :
    Keyed.key (withHash hash user) = Keyed.key user :=
  rfl

def Accounts.rehash (accounts : Accounts) (id : Uuid) (hash : Str) : Accounts where
  table := accounts.table.update id (withHash hash)
  unique := by
    have emails : (accounts.table.update id (withHash hash)).rows.map AccountUser.email =
        accounts.table.rows.map AccountUser.email := by
      rw [Table.update_rows (key_withHash hash), List.map_map]
      refine List.map_congr_left fun user _ => ?_
      simp only [Function.comp]
      split <;> rfl
    rw [emails]
    exact accounts.unique

/-- The arguments of a call as they come from the form, what `now_berlin()` returns in each
of its transactions, and the salt of a hash it makes. -/
structure Call where
  email : Str
  password : Str
  ip : Str
  now : Stage → Instant
  salt : Str

structure Site where
  rows : Rows
  accounts : Accounts

/-- What a call has done: the transactions it has run, and what it ended with. -/
structure Answered where
  call : Call
  stages : List Stage
  outcome : Except Error Unit

section Calls

variable (libraries : Libraries)

/-- `verify_password`. -/
def Libraries.verifyPassword : Option Str → Str → Bool
  | none, _ => false
  | some hash, password => hash ≠ [] && libraries.verify hash password

/-- The account that `auth_lookup_credentials` finds. -/
def Libraries.account (accounts : Accounts) (email : Str) : Option AccountUser :=
  accounts.table.rows.find? fun user => user.email = libraries.sqlLower email

/-- The arguments after `normalize_email`. -/
def Call.attempt (call : Call) : Attempt :=
  ⟨libraries.normalizeEmail call.email, call.password, call.ip⟩

def Call.pair (call : Call) : Pair :=
  ((call.attempt libraries).email, call.ip)

/-- One transaction of a call: how it ends, and the rows after its commit or rollback. -/
def transact (site : Site) (call : Call) (stage : Stage) :
    Option (Except Error Result × Rows) :=
  let request : Request := ⟨call.attempt libraries, stage⟩
  let found := libraries.account site.accounts request.attempt.email
  (postgres.evaluate ⟨site.rows, call.now stage⟩
      ⟨call.now stage, found.map fun user => ⟨user.passwordHash, user.isActive⟩⟩
      (request.body libraries.verifyPassword) () []).map fun (outcome, _, connection) =>
    (outcome,
      match outcome with
      | .ok _ => connection.view site.rows
      | .error _ => site.rows)

/-- The hash that the last transaction of a successful call stores, when the account's own
was made with weaker parameters. -/
def Call.rehashed (call : Call) (accounts : Accounts) : Accounts :=
  match libraries.account accounts (call.attempt libraries).email with
  | none => accounts
  | some user =>
      match user.passwordHash with
      | none => accounts
      | some hash =>
          if hash ≠ [] ∧ libraries.needsRehash hash then
            accounts.rehash user.id (libraries.hashPassword call.salt call.password)
          else accounts

/-- A call from one of its transactions on; at most `fuel` transactions. -/
def Call.proceed (call : Call) : (fuel : Nat) → Site → Stage → Option (Answered × Site)
  | 0, _, _ => none
  | fuel + 1, site, stage => do
      let (outcome, rows) ← transact libraries site call stage
      match login stage outcome with
      | .raises error => return (⟨call, [stage], .error error⟩, { site with rows := rows })
      | .returns =>
          return (⟨call, [stage], .ok ()⟩, ⟨rows, call.rehashed libraries site.accounts⟩)
      | .next following =>
          let (answered, last) ← proceed call fuel { site with rows := rows } following
          return ({ answered with stages := stage :: answered.stages }, last)

/-- A whole call of `login`. -/
def Site.login (site : Site) (call : Call) : Option (Answered × Site) :=
  call.proceed libraries 3 site .assertNotLocked

inductive Event where
  | call (call : Call)
  /-- Other functions have changed the accounts. -/
  | accounts (accounts : Accounts)

/-- The calls of a history with what they have done, and the rows it leaves. -/
def history : Site → List Event → Option (List Answered × Site)
  | site, [] => some ([], site)
  | site, .accounts accounts :: rest => history { site with accounts := accounts } rest
  | site, .call call :: rest => do
      let (answered, next) ← site.login libraries call
      let (log, last) ← history next rest
      return (answered :: log, last)

end Calls

/-! ### What the guard sees -/

section Seen

variable (libraries : Libraries)

/-- `_verify` finds credentials. -/
def Call.verified (call : Call) (accounts : Accounts) : Bool :=
  (libraries.account accounts (call.attempt libraries).email).any fun user =>
    user.isActive && libraries.verifyPassword user.passwordHash call.password

/-- What the guard sees of a call. -/
structure Attempted where
  pair : Pair
  now : Stage → Instant
  verified : Bool

def Call.attempted (call : Call) (accounts : Accounts) : Attempted :=
  ⟨call.pair libraries, call.now, call.verified libraries accounts⟩

/-- What the guard sees of a history. -/
def attempts : Accounts → List Event → List Attempted
  | _, [] => []
  | _, .accounts accounts :: rest => attempts accounts rest
  | accounts, .call call :: rest =>
      call.attempted libraries accounts :: attempts accounts rest

end Seen

/-! ### What a call does -/

/-- Seconds until the lock of a row ends. -/
def lockLeft (row : Option LoginThrottle) (now : Instant) : Option Int :=
  (row.bind LoginThrottle.lockedUntil).bind fun lockedUntil =>
    if lockedUntil > now then some ((lockedUntil - now) / microsPerSecond) else none

/-- A transaction that sends one write: how it ends, and the rows after it. -/
def settle (rows : Rows) (write : Write) : Except Error Unit × Rows :=
  match write.check rows with
  | Except.ok () => (.ok (), write.apply rows)
  | Except.error error => (.error error, rows)

/-- `_record_failure`, as a transaction of its own. -/
def record (rows : Rows) (pair : Pair) (now : Instant) : Except Error Unit × Rows :=
  settle rows (failureWrite pair.1 pair.2 (rows.find pair) now)

/-- `_reset_failures`, as a transaction of its own. -/
def reset (rows : Rows) (pair : Pair) (now : Instant) : Except Error Unit × Rows :=
  match rows.find pair with
  | none => (.ok (), rows)
  | some row => settle rows (resetWrite row now)

section Transactions

variable {libraries : Libraries} {site : Site} {call : Call}

variable {world : World} {env : Env} {email ip : Str}

theorem evaluate_throttleRow :
    postgres.evaluate world env (throttleRow email ip) () [] =
      some (.ok (world.rows.find (email, ip)), (), []) :=
  rfl

theorem evaluate_now :
    postgres.evaluate world env (send .now) () [] = some (.ok env.now, (), []) :=
  rfl

theorem evaluate_execute_ok {write : Write} (valid : write.check world.rows = .ok ()) :
    postgres.evaluate world env (send (.execute write)) () [] =
      some (.ok (), (), [(world, .write write)]) := by
  refine Server.evaluate_send.trans ?_
  change perform world env [] () [] (.execute write) = _
  have valid' : write.check (Journal.view ([] : Connection) world.rows) = .ok () := valid
  simp only [perform, List.any_nil, Bool.false_eq_true, ↓reduceIte, valid']
  rfl

theorem evaluate_execute_error {write : Write} {error : Error}
    (failed : write.check world.rows = .error error) :
    postgres.evaluate world env (send (.execute write)) () [] = some (.error error, (), []) := by
  refine Server.evaluate_send.trans ?_
  change perform world env [] () [] (.execute write) = _
  have failed' : write.check (Journal.view ([] : Connection) world.rows) = .error error := failed
  simp only [perform, List.any_nil, Bool.false_eq_true, ↓reduceIte, failed']

theorem evaluate_assertNotLocked :
    postgres.evaluate world env (assertNotLocked email ip) () [] =
      some ((lockLeft (world.rows.find (email, ip)) env.now).elim (.ok ())
        fun seconds => .error (.accountLocked seconds), (), []) := by
  rw [assertNotLocked, Server.evaluate_bind, evaluate_throttleRow]
  simp only [Option.bind_some]
  unfold lockLeft
  cases (world.rows.find (email, ip)).bind LoginThrottle.lockedUntil with
  | none => rfl
  | some lockedUntil =>
      simp only [Option.bind_some]
      rw [Server.evaluate_bind, evaluate_now]
      change postgres.evaluate world env (if lockedUntil > env.now then _ else _) () [] = _
      split <;> rfl

theorem evaluate_recordFailure :
    postgres.evaluate world env (recordFailure email ip) () [] =
      postgres.evaluate world env (send (.execute
        (failureWrite email ip (world.rows.find (email, ip)) env.now))) () [] := by
  rw [recordFailure, Server.evaluate_bind, evaluate_throttleRow]
  change postgres.evaluate world env (send .now >>= _) () [] = _
  rw [Server.evaluate_bind, evaluate_now]
  unfold failureWrite
  change postgres.evaluate world env (match world.rows.find (email, ip) with
    | none => _
    | some row => _) () [] = _
  cases world.rows.find (email, ip) with
  | none => rfl
  | some row => rfl

theorem evaluate_resetFailures :
    postgres.evaluate world env (resetFailures email ip) () [] =
      match world.rows.find (email, ip) with
      | none => some (.ok (), (), [])
      | some row =>
          postgres.evaluate world env (send (.execute (resetWrite row env.now))) () [] := by
  rw [resetFailures, Server.evaluate_bind, evaluate_throttleRow]
  cases world.rows.find (email, ip) with
  | none => rfl
  | some row =>
      change postgres.evaluate world env (send .now >>= _) () [] = _
      rw [Server.evaluate_bind, evaluate_now]
      rfl

theorem transact_assertNotLocked :
    transact libraries site call .assertNotLocked =
      some ((lockLeft (site.rows.find (call.pair libraries)) (call.now .assertNotLocked)).elim
          (.ok none) fun seconds => .error (.accountLocked seconds),
        site.rows) := by
  change (postgres.evaluate _ _ (assertNotLocked _ _ >>= _) () []).map _ = _
  rw [Server.evaluate_bind, evaluate_assertNotLocked]
  change Option.map _ (Option.bind (some ((lockLeft (site.rows.find (call.pair libraries))
    (call.now .assertNotLocked)).elim _ _, _, _)) _) = _
  cases lockLeft (site.rows.find (call.pair libraries)) (call.now .assertNotLocked) with
  | none => rfl
  | some seconds => rfl

theorem transact_execute {stage : Stage} {write : Write} {work : Work Unit}
    (body : Request.body libraries.verifyPassword ⟨call.attempt libraries, stage⟩ =
      work >>= fun _ => return none)
    (sends : ∀ env, env.now = call.now stage → postgres.evaluate ⟨site.rows, call.now stage⟩ env
      work () [] = postgres.evaluate ⟨site.rows, call.now stage⟩ env
        (send (.execute write)) () []) :
    transact libraries site call stage =
      some ((settle site.rows write).1.map fun _ => none, (settle site.rows write).2) := by
  unfold transact
  simp only [body]
  rw [Server.evaluate_bind, sends _ rfl]
  unfold settle
  cases checked : write.check site.rows with
  | error error =>
      rw [evaluate_execute_error checked]
      rfl
  | ok value =>
      rw [evaluate_execute_ok checked]
      rfl

theorem transact_recordFailure :
    transact libraries site call .recordFailure =
      some ((record site.rows (call.pair libraries) (call.now .recordFailure)).1.map
          fun _ => none,
        (record site.rows (call.pair libraries) (call.now .recordFailure)).2) := by
  refine transact_execute rfl fun env now => ?_
  rw [evaluate_recordFailure, now]
  rfl

theorem transact_resetFailures :
    transact libraries site call .resetFailures =
      some ((reset site.rows (call.pair libraries) (call.now .resetFailures)).1.map
          fun _ => none,
        (reset site.rows (call.pair libraries) (call.now .resetFailures)).2) := by
  unfold reset
  cases found : site.rows.find (call.pair libraries) with
  | none =>
      change (postgres.evaluate _ _ (resetFailures _ _ >>= _) () []).map _ = _
      rw [Server.evaluate_bind, evaluate_resetFailures]
      change Option.map _ (Option.bind (match site.rows.find (call.pair libraries) with
        | none => _
        | some row => _) _) = _
      rw [found]
      rfl
  | some row =>
      refine transact_execute rfl fun env now => ?_
      rw [evaluate_resetFailures, ← now]
      change (match site.rows.find (call.pair libraries) with
        | none => _
        | some row => _) = _
      rw [found]

theorem transact_verify :
    transact libraries site call .verify =
      some (.ok (((libraries.account site.accounts (call.attempt libraries).email).map
          fun user => ⟨user.passwordHash, user.isActive⟩).filter fun creds =>
            creds.isActive && libraries.verifyPassword creds.passwordHash call.password),
        site.rows) := by
  rfl

end Transactions

/-! ### The guard as a machine -/

/-- The transactions of a call with what it ends with, and the rows it leaves. -/
def Attempted.answer (attempted : Attempted) (rows : Rows) :
    (List Stage × Except Error Unit) × Rows :=
  match lockLeft (rows.find attempted.pair) (attempted.now .assertNotLocked) with
  | some seconds => (([.assertNotLocked], .error (.accountLocked seconds)), rows)
  | none =>
      if attempted.verified then
        let ended := reset rows attempted.pair (attempted.now .resetFailures)
        (([.assertNotLocked, .verify, .resetFailures], ended.1), ended.2)
      else
        let ended := record rows attempted.pair (attempted.now .recordFailure)
        (([.assertNotLocked, .verify, .recordFailure],
          ended.1.bind fun _ => .error .invalidCredentials), ended.2)

def guard : Machine Rows Attempted (List Stage × Except Error Unit) where
  step rows attempted := attempted.answer rows

def Call.answered (call : Call) (libraries : Libraries) (site : Site) : Answered :=
  ⟨call, ((call.attempted libraries site.accounts).answer site.rows).1.1,
    ((call.attempted libraries site.accounts).answer site.rows).1.2⟩

/-- What a call leaves behind; only a success can change the accounts. -/
def Call.leaves (call : Call) (libraries : Libraries) (site : Site) : Site where
  rows := ((call.attempted libraries site.accounts).answer site.rows).2
  accounts :=
    match ((call.attempted libraries site.accounts).answer site.rows).1.2 with
    | .ok _ => call.rehashed libraries site.accounts
    | .error _ => site.accounts

section Logins

variable {libraries : Libraries} {site : Site} {call : Call}

theorem proceed_of_transact {fuel : Nat} {stage : Stage} {outcome : Except Error Result}
    {rows : Rows} (ran : transact libraries site call stage = some (outcome, rows)) :
    call.proceed libraries (fuel + 1) site stage =
      match login stage outcome with
      | .raises error => some (⟨call, [stage], .error error⟩, { site with rows := rows })
      | .returns =>
          some (⟨call, [stage], .ok ()⟩, ⟨rows, call.rehashed libraries site.accounts⟩)
      | .next following =>
          (call.proceed libraries fuel { site with rows := rows } following).map
            fun (answered, last) =>
              ({ answered with stages := stage :: answered.stages }, last) := by
  simp only [Call.proceed, ran, Option.bind_eq_bind, Option.bind_some]
  cases login stage outcome with
  | raises error => rfl
  | returns => rfl
  | next following =>
      dsimp only
      cases call.proceed libraries fuel { site with rows := rows } following with
      | none => rfl
      | some ended => rfl

theorem login_verify {outcome : Except Error Result} {rows : Rows}
    (ran : transact libraries site call .verify = some (outcome, rows)) :
    rows = site.rows ∧ login .verify outcome =
      .next (if call.verified libraries site.accounts then .resetFailures else .recordFailure) := by
  rw [transact_verify] at ran
  cases ran
  refine ⟨rfl, ?_⟩
  unfold Call.verified
  cases libraries.account site.accounts (call.attempt libraries).email with
  | none => rfl
  | some user =>
      cases isVerified : user.isActive && libraries.verifyPassword user.passwordHash call.password
      · simp [login, Option.filter, isVerified]
      · simp [login, Option.filter, isVerified]

theorem proceed_resetFailures {fuel : Nat} :
    call.proceed libraries (fuel + 1) site .resetFailures =
      some (⟨call, [.resetFailures],
          (reset site.rows (call.pair libraries) (call.now .resetFailures)).1⟩,
        ⟨(reset site.rows (call.pair libraries) (call.now .resetFailures)).2,
          match (reset site.rows (call.pair libraries) (call.now .resetFailures)).1 with
          | .ok _ => call.rehashed libraries site.accounts
          | .error _ => site.accounts⟩) := by
  rw [proceed_of_transact transact_resetFailures]
  cases (reset site.rows (call.pair libraries) (call.now .resetFailures)).1 with
  | error error => rfl
  | ok value => rfl

theorem proceed_recordFailure {fuel : Nat} :
    call.proceed libraries (fuel + 1) site .recordFailure =
      some (⟨call, [.recordFailure],
          (record site.rows (call.pair libraries) (call.now .recordFailure)).1.bind
            fun _ => .error .invalidCredentials⟩,
        { site with
          rows := (record site.rows (call.pair libraries) (call.now .recordFailure)).2 }) := by
  rw [proceed_of_transact transact_recordFailure]
  cases (record site.rows (call.pair libraries) (call.now .recordFailure)).1 with
  | error error => rfl
  | ok value => rfl

/-- **One call.** `login` answers as the guard does. -/
theorem login_eq :
    site.login libraries call =
      some (call.answered libraries site, call.leaves libraries site) := by
  unfold Site.login Call.answered Call.leaves Attempted.answer Call.attempted
  rw [proceed_of_transact transact_assertNotLocked]
  dsimp only
  cases lockLeft (site.rows.find (call.pair libraries)) (call.now .assertNotLocked) with
  | some seconds => rfl
  | none =>
      obtain ⟨_, goesOn⟩ :=
        login_verify (transact_verify : transact libraries site call .verify = _)
      change (call.proceed libraries 2 site .verify).map _ = _
      rw [proceed_of_transact transact_verify, goesOn]
      cases call.verified libraries site.accounts with
      | false =>
          change ((call.proceed libraries 1 site .recordFailure).map _).map _ = _
          rw [proceed_recordFailure]
          dsimp only [Bool.false_eq_true, ↓reduceIte]
          cases (record site.rows (call.pair libraries) (call.now .recordFailure)).1 with
          | error error => rfl
          | ok value => rfl
      | true =>
          change ((call.proceed libraries 1 site .resetFailures).map _).map _ = _
          rw [proceed_resetFailures]
          rfl

end Logins

end Fristenwaechter.Throttle
