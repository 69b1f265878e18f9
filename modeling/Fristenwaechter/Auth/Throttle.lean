import Fristenwaechter.Dates
import Fristenwaechter.Database
import Fristenwaechter.Library.Locking

/-!
Owns the brute-force guard of `services/auth.py`: the table `login_throttle`, the
transactions of a `login` call as programs over it, and what `login` does with the
end of each. Every transaction runs by itself under READ COMMITTED, so transactions
of other calls may run between any two of its statements.

`login` has put its `email` through `normalize_email` before the first transaction.
The last transaction of a successful call also writes the session and a stronger
hash, to other tables; when that fails, the transaction is aborted as a whole. Primary
keys are left out: rows are named by the unique pair of email and ip.
-/

namespace Fristenwaechter.Throttle

open Library (Table Keyed Journal Writes Program Server Engine Isolation Laws Locking Policy)
open Library.Journal (held)

/-- `MAX_FAILS`. -/
def maxFails : Int := 5

/-- `LOCK_DURATION`, in seconds. -/
def lockDuration : Int := 900

/-! ### The table -/

/-- What `uq_throttle_email_ip` keeps unique. -/
abbrev Pair := Str × Str

/-- `LoginThrottle`. -/
structure LoginThrottle where
  email : Str
  ip : Str
  failCount : Int
  lockedUntil : Option Instant
  updatedAt : Instant
deriving DecidableEq

def LoginThrottle.pair (row : LoginThrottle) : Pair :=
  (row.email, row.ip)

instance : Keyed LoginThrottle Pair where
  key := LoginThrottle.pair

abbrev Rows := Table LoginThrottle

inductive Write where
  | insert (row : LoginThrottle)
  | update (loaded current : LoginThrottle)

/-- `UPDATE login_throttle SET …`: the changed columns. -/
def LoginThrottle.changed (loaded current stored : LoginThrottle) : LoginThrottle :=
  { stored with
    failCount := column loaded.failCount current.failCount stored.failCount
    lockedUntil := column loaded.lockedUntil current.lockedUntil stored.lockedUntil
    updatedAt := column loaded.updatedAt current.updatedAt stored.updatedAt }

@[simp] theorem key_eq (row : LoginThrottle) : Keyed.key row = row.pair :=
  rfl

@[simp] theorem LoginThrottle.changed_pair (loaded current stored : LoginThrottle) :
    (LoginThrottle.changed loaded current stored).pair = stored.pair :=
  rfl

inductive Error where
  | accountLocked (retryAfterSeconds : Int)
  | invalidCredentials
  /-- `sqlalchemy.exc.IntegrityError` on `uq_throttle_email_ip`. -/
  | integrity
  /-- A value that does not fit its column. -/
  | data
  /-- `sqlalchemy.orm.exc.StaleDataError`. -/
  | staleData
deriving DecidableEq

/-- The exceptions `login` declares. -/
def Error.IsAuthError : Error → Prop
  | accountLocked _ => True
  | invalidCredentials => True
  | _ => False

namespace Write

def pair : Write → Pair
  | insert row => row.pair
  | update loaded _ => loaded.pair

def apply : Write → Rows → Rows
  | insert row, rows => rows.insert row
  | update loaded current, rows =>
      rows.update loaded.pair (LoginThrottle.changed loaded current)

/-- Column widths come before the unique index. -/
def check (rows : Rows) : Write → Except Error Unit
  | insert row =>
      if ¬ (fits 254 row.email && fits 45 row.ip && fitsSmallInt row.failCount) then .error .data
      else if (rows.find row.pair).isSome then .error .integrity
      else .ok ()
  | update loaded current =>
      if ¬ fitsSmallInt current.failCount then .error .data
      else if (rows.find loaded.pair).isNone then .error .staleData
      else .ok ()

end Write

instance : Writes Rows Write Pair where
  apply := Write.apply
  footprint write := [write.pair]
  Valid write rows := write.check rows = .ok ()

/-! ### The server -/

structure World where
  rows : Rows
  clock : Instant

/-- A row of `auth_lookup_credentials`. -/
structure Credentials where
  passwordHash : Option Str
  isActive : Bool
deriving DecidableEq

/-- The environment's choices for one statement: the time, and the account that the
lookup finds. -/
structure Env where
  now : Instant
  credentials : Option Credentials

inductive Statement where
  /-- `now_berlin()`. -/
  | now
  | throttleRow (email ip : Str)
  | lookupCredentials (email : Str)
  | execute (write : Write)

abbrev Answer : Statement → Type
  | .now => Instant
  | .throttleRow _ _ => Option LoginThrottle
  | .lookupCredentials _ => Option Credentials
  | .execute _ => Unit

abbrev Connection := Journal World Write Pair

/-- One statement. An INSERT or UPDATE waits while another transaction holds the
entry or the row. -/
def perform (world : World) (env : Env) (others : List Connection) (memory : Unit)
    (connection : Connection) : (statement : Statement) →
    Option (Except Error (Answer statement) × Unit × Connection)
  | .now => some (.ok env.now, memory, connection)
  | .throttleRow email ip =>
      some (.ok ((connection.view world.rows).find (email, ip)), memory, connection)
  | .lookupCredentials _ => some (.ok env.credentials, memory, connection)
  | .execute write =>
      if others.any fun other => write.pair ∈ (held Rows other).map Prod.fst then none
      else
        match write.check (connection.view world.rows) with
        | .error error => some (.error error, memory, connection)
        | .ok () => some (.ok (), memory, connection ++ [(world, .write write)])

def postgres : Server World Unit Connection Statement Answer Env Error where
  admissible world env := world.clock < env.now
  advance world env := { world with clock := env.now }
  perform := perform

/-! ### The transactions -/

abbrev Work := Program Unit Statement Answer Error

def send (statement : Statement) : Work (Answer statement) :=
  Program.send statement

/-- `_throttle_row`. -/
def throttleRow (email ip : Str) : Work (Option LoginThrottle) :=
  send (.throttleRow email ip)

/-- `_assert_not_locked`. -/
def assertNotLocked (email ip : Str) : Work Unit := do
  let row ← throttleRow email ip
  match row.bind LoginThrottle.lockedUntil with
  | none => return ()
  | some lockedUntil =>
      let now ← send .now
      if lockedUntil > now then
        throw (.accountLocked ((lockedUntil - now) / microsPerSecond))

/-- A row after one more failure. -/
def LoginThrottle.failed (row : LoginThrottle) (now : Instant) : LoginThrottle :=
  { row with
    failCount := row.failCount + 1
    updatedAt := now
    lockedUntil :=
      if row.failCount + 1 ≥ maxFails then some (plusSeconds now lockDuration)
      else row.lockedUntil }

/-- `_record_failure`. -/
def recordFailure (email ip : Str) : Work Unit := do
  let row ← throttleRow email ip
  let now ← send .now
  match row with
  | none => send (.execute (.insert (LoginThrottle.failed ⟨email, ip, 0, none, now⟩ now)))
  | some row => send (.execute (.update row (row.failed now)))

/-- `_reset_failures`; the UPDATE is sent by the next flush. -/
def resetFailures (email ip : Str) : Work Unit := do
  match ← throttleRow email ip with
  | none => return ()
  | some row =>
      let now ← send .now
      send (.execute
        (.update row { row with failCount := 0, lockedUntil := none, updatedAt := now }))

/-- `_verify`. -/
def verify (verifyPassword : Option Str → Str → Bool) (email password : Str) :
    Work (Option Credentials) := do
  let creds ← send (.lookupCredentials email)
  return creds.filter fun creds => creds.isActive && verifyPassword creds.passwordHash password

/-! ### The calls -/

/-- The arguments of `login`. -/
structure Attempt where
  email : Str
  password : Str
  ip : Str

inductive Stage where
  | assertNotLocked
  | verify
  | recordFailure
  | resetFailures
deriving DecidableEq

structure Request where
  attempt : Attempt
  stage : Stage

def Request.pair (request : Request) : Pair :=
  (request.attempt.email, request.attempt.ip)

/-- What a transaction returns: the verified credentials, if it looked for them. -/
abbrev Result := Option Credentials

variable (verifyPassword : Option Str → Str → Bool)

def Request.body (request : Request) : Work Result :=
  match request.stage with
  | .assertNotLocked => do
      assertNotLocked request.attempt.email request.attempt.ip
      return none
  | .verify => verify verifyPassword request.attempt.email request.attempt.password
  | .recordFailure => do
      recordFailure request.attempt.email request.attempt.ip
      return none
  | .resetFailures => do
      resetFailures request.attempt.email request.attempt.ip
      return none

inductive Continuation where
  | next (stage : Stage)
  | raises (error : Error)
  | returns
deriving DecidableEq

/-- `login`: how a call goes on when a transaction has ended. -/
def login : Stage → Except Error Result → Continuation
  | _, .error error => .raises error
  | .assertNotLocked, .ok _ => .next .verify
  | .verify, .ok none => .next .recordFailure
  | .verify, .ok (some _) => .next .resetFailures
  | .recordFailure, .ok _ => .raises .invalidCredentials
  | .resetFailures, .ok _ => .returns

def logins : Engine World Unit Connection Statement Answer Env Error Pair Request Result where
  toServer := postgres
  program := Request.body verifyPassword
  connect _ _ := ((), [])
  held connection := held Rows connection
  commit world connection := { world with rows := connection.view world.rows }

/-! ### The laws of isolation -/

def SameRow (pair : Pair) (before after : Rows) : Prop :=
  after.find pair = before.find pair

/-- A held pair is left alone by everybody else. -/
def readCommitted : Isolation World Connection Pair where
  Kept pair before after := SameRow pair before.rows after.rows
  Ready world connection := Journal.Replays connection.writes world.rows

theorem SameRow.refl (pair : Pair) (rows : Rows) : SameRow pair rows rows :=
  rfl

theorem SameRow.trans {pair : Pair} {first second third : Rows} (one : SameRow pair first second)
    (two : SameRow pair second third) : SameRow pair first third :=
  Eq.trans two one

theorem SameRow.frame {pair : Pair} {write : Write} {rows : Rows}
    (outside : pair ∉ Writes.footprint Rows write) :
    SameRow pair rows (Writes.apply write rows) := by
  have other : write.pair ≠ pair := fun same => outside (by simp [Writes.footprint, same])
  cases write with
  | insert row => exact Table.find_insert_other other
  | update loaded current => exact Table.find_update_other (by simp) other

theorem SameRow.apply {write : Write} {pair : Pair} {before after : Rows}
    (_ : ∀ own ∈ Writes.footprint Rows write, SameRow own before after)
    (same : SameRow pair before after) :
    SameRow pair (Writes.apply write before) (Writes.apply write after) := by
  cases write with
  | insert row =>
      change (after.insert row).find pair = (before.insert row).find pair
      rw [Table.find_insert, Table.find_insert, same]
  | update loaded current =>
      change (after.update _ _).find pair = (before.update _ _).find pair
      rw [Table.find_update (by simp), Table.find_update (by simp), same]

theorem SameRow.check {write : Write} {before after : Rows}
    (own : SameRow write.pair before after) : write.check after = write.check before := by
  cases write with
  | insert row => simp only [Write.check, show after.find row.pair = before.find row.pair from own]
  | update loaded current =>
      simp only [Write.check, show after.find loaded.pair = before.find loaded.pair from own]

theorem SameRow.valid {write : Write} {before after : Rows}
    (keeps : ∀ own ∈ Writes.footprint Rows write, SameRow own before after)
    (valid : Writes.Valid write before) : Writes.Valid write after :=
  (SameRow.check (keeps write.pair (by simp [Writes.footprint]))).trans valid

theorem perform_journal {world : World} {env : Env} {others : List Connection}
    {memory memory' : Unit} {connection connection' : Connection} {statement : Statement}
    {answer : Except Error (Answer statement)}
    (performed : perform world env others memory connection statement =
      some (answer, memory', connection')) :
    connection' = connection ∨
      ∃ write, statement = .execute write ∧
        (∀ other ∈ others, write.pair ∉ (held Rows other).map Prod.fst) ∧
        write.check (connection.view world.rows) = .ok () ∧
        connection' = connection ++ [(world, .write write)] := by
  cases statement with
  | execute write =>
      simp only [perform] at performed
      split at performed
      · cases performed
      · rename_i free
        split at performed
        · cases performed
          exact .inl rfl
        · rename_i valid
          cases performed
          exact .inr ⟨write, rfl, by simpa using free, valid, rfl⟩
  | _ =>
      cases performed
      exact .inl rfl

theorem logins_locking : Locking (logins verifyPassword) World.rows id where
  advance _ _ := rfl
  commit _ _ := rfl
  connect _ _ := rfl
  held _ := rfl
  perform := by
    intro world env others memory connection statement answer memory' connection' performed
    rcases perform_journal performed with same | ⟨write, _, free, valid, appended⟩
    · exact .same same
    · refine .writes write (fun pair inside => ?_) valid appended
      rw [show pair = write.pair from List.mem_singleton.mp inside]
      rintro ⟨other, isOther, taken⟩
      exact free other isOther taken

theorem sameRow_keeps : Journal.Keeps SameRow where
  refl := SameRow.refl
  trans := SameRow.trans
  frame := SameRow.frame
  apply := SameRow.apply
  valid := SameRow.valid

theorem logins_laws : Laws (logins verifyPassword) readCommitted :=
  (logins_locking verifyPassword).laws sameRow_keeps

end Fristenwaechter.Throttle
