import Fristenwaechter.Auth.Accounts
import Fristenwaechter.Services.Dsgvo

/-!
Owns the sessions of users: `create_session`, `resolve_session` and `revoke_session` of
`services/auth.py`, `get_tenant_context` of `deps.py` and `logout` of `web/auth.py` as
programs over `account_user` and `user_session`, together with what signups, acceptances of
invitations and `tombstone_company` do to these two tables. Every transaction runs by itself
under READ COMMITTED.

The tenant's session reads and inserts only accounts of the company it has pinned; the job
that tombstones companies reads all. Columns that decide about no access are left out, as are
the other tables and the unique index on the email of an account.
-/

namespace Fristenwaechter.Sessions

open Library (Table Keyed Journal Writes Program Server Engine Isolation Laws Locking)
open Library.Journal (held)
open Library.Program (forEach)
open Accounts (Taken Write.unique unique_iff taken_insert_other taken_insert_both
  find_insert_both isSome_insert isSome_insert_both sessionTtl)

/-! ### The tables -/

/-- The tables that decide about access. -/
structure Db where
  users : Table AccountUser
  sessions : Table UserSession

inductive Ref where
  | user (id : Uuid)
  | session (id : Uuid)
  | token (tokenHash : Str)
deriving DecidableEq

inductive Write where
  | insertUser (row : AccountUser)
  /-- `UPDATE account_user` of a tombstoned company. -/
  | anonymizeUser (id : Uuid)
  | insertSession (row : UserSession)
  /-- `UPDATE user_session SET revoked_at`. -/
  | revokeSessions (ids : List Uuid) (now : Instant)

inductive Error where
  | notAuthenticated
  /-- `sqlalchemy.exc.IntegrityError`. -/
  | integrity
  /-- A value that does not fit its column. -/
  | data
  /-- `sqlalchemy.orm.exc.StaleDataError`. -/
  | staleData
  /-- A row that violates the row-level security policy of its table. -/
  | insufficientPrivilege
deriving DecidableEq

/-- A neutralized user; the new email is not modelled. -/
def anonymized (stored : AccountUser) : AccountUser :=
  { stored with phoneE164 := none, isActive := false, passwordHash := none }

def revoked (now : Instant) (stored : UserSession) : UserSession :=
  { stored with revokedAt := some now }

@[simp] theorem anonymized_id (stored : AccountUser) : (anonymized stored).id = stored.id :=
  rfl

@[simp] theorem revoked_id (now : Instant) (stored : UserSession) :
    (revoked now stored).id = stored.id :=
  rfl

def revokeAll (now : Instant) (ids : List Uuid) (sessions : Table UserSession) :
    Table UserSession :=
  ids.foldl (fun table id => table.update id (revoked now)) sessions

namespace Write

def apply : Write → Db → Db
  | insertUser row, db => { db with users := db.users.insert row }
  | anonymizeUser id, db => { db with users := db.users.update id anonymized }
  | insertSession row, db => { db with sessions := db.sessions.insert row }
  | revokeSessions ids now, db => { db with sessions := revokeAll now ids db.sessions }

def footprint : Write → List Ref
  | insertUser row => [.user row.id]
  | anonymizeUser id => [.user id]
  | insertSession row => [.session row.id, .token row.tokenHash]
  | revokeSessions ids _ => ids.map .session

def demand (condition : Bool) (error : Error) (rest : Except Error Unit) : Except Error Unit :=
  if condition then rest else .error error

/-- Column widths come before unique indexes, and these before foreign keys. -/
def check (db : Db) : Write → Except Error Unit
  | insertUser row => demand (db.users.find row.id).isNone .integrity (.ok ())
  | anonymizeUser id => demand (db.users.find id).isSome .staleData (.ok ())
  | insertSession row =>
      demand (fits 64 row.tokenHash) .data <|
      demand ((db.sessions.find row.id).isNone &&
        Accounts.Write.unique db.sessions UserSession.tokenHash row.tokenHash) .integrity <|
      demand (db.users.find row.accountUserId).isSome .integrity (.ok ())
  | revokeSessions _ _ => .ok ()

/-- `WITH CHECK` of the policy of `account_user`. -/
def permitted (currentCompany : Option Uuid) : Write → Bool
  | insertUser row => currentCompany = some row.companyId
  | _ => true

@[simp] theorem demand_eq_ok {condition : Bool} {error : Error} {rest : Except Error Unit} :
    demand condition error rest = .ok () ↔ condition = true ∧ rest = .ok () := by
  unfold demand
  split <;> simp_all

end Write

instance : Writes Db Write Ref where
  apply := Write.apply
  footprint := Write.footprint
  Valid write db := write.check db = .ok ()

/-! ### The server -/

structure World where
  db : Db
  clock : Instant

/-- The environment's choices for one statement: the time, a new UUID and a new token. -/
structure Env where
  now : Instant
  fresh : Uuid
  token : Str

inductive Statement where
  /-- `now_berlin()`. -/
  | now
  /-- The server default of a primary key. -/
  | uuid
  /-- `new_token()`. -/
  | newToken
  /-- `set_tenant_guc`. -/
  | setTenantGuc (companyId : Uuid)
  | sessionByToken (tokenHash : Str)
  /-- `session.get(AccountUser, id)`, under row-level security. -/
  | getUser (id : Uuid)
  /-- The accounts of a company, as the job reads them. -/
  | companyUsers (companyId : Uuid)
  /-- `UPDATE user_session SET revoked_at` where it is not set. -/
  | revokeSessionsOf (companyId : Uuid) (now : Instant)
  | execute (write : Write)

abbrev Answer : Statement → Type
  | .now => Instant
  | .uuid => Uuid
  | .newToken => Str
  | .setTenantGuc _ => Unit
  | .sessionByToken _ => Option UserSession
  | .getUser _ => Option AccountUser
  | .companyUsers _ => List AccountUser
  | .revokeSessionsOf _ _ => Unit
  | .execute _ => Unit

/-- The uncommitted work of a transaction, and `app.current_company`. -/
structure Connection where
  journal : Journal World Write Ref
  currentCompany : Option Uuid

def Connection.view (connection : Connection) (db : Db) : Db :=
  connection.journal.view db

/-- An INSERT or UPDATE waits while another transaction holds one of the rows or entries. -/
def executeWrite (world : World) (others : List Connection) (memory : Unit)
    (connection : Connection) (write : Write) : Option (Except Error Unit × Unit × Connection) :=
  if write.footprint.any fun ref =>
      others.any fun other => ref ∈ (held Db other.journal).map Prod.fst then none
  else if !write.permitted connection.currentCompany then
    some (.error .insufficientPrivilege, memory, connection)
  else
    match write.check (connection.view world.db) with
    | .error error => some (.error error, memory, connection)
    | .ok () =>
        some (.ok (), memory,
          { connection with journal := connection.journal ++ [(world, .write write)] })

def Db.unrevoked (db : Db) (companyId : Uuid) : List UserSession :=
  db.sessions.rows.filter fun row => row.companyId = companyId ∧ row.revokedAt.isNone

def perform (world : World) (env : Env) (others : List Connection) (memory : Unit)
    (connection : Connection) : (statement : Statement) →
    Option (Except Error (Answer statement) × Unit × Connection)
  | .now => some (.ok env.now, memory, connection)
  | .uuid => some (.ok env.fresh, memory, connection)
  | .newToken => some (.ok env.token, memory, connection)
  | .setTenantGuc companyId =>
      some (.ok (), memory, { connection with currentCompany := some companyId })
  | .sessionByToken tokenHash =>
      some (.ok ((connection.view world.db).sessions.rows.find? fun row =>
        row.tokenHash = tokenHash), memory, connection)
  | .getUser id =>
      some (.ok (((connection.view world.db).users.find id).filter fun row =>
        connection.currentCompany = some row.companyId), memory, connection)
  | .companyUsers companyId =>
      some (.ok ((connection.view world.db).users.rows.filter fun row =>
        row.companyId = companyId), memory, connection)
  | .revokeSessionsOf companyId now =>
      executeWrite world others memory connection (.revokeSessions
        (((connection.view world.db).unrevoked companyId).map UserSession.id) now)
  | .execute write => executeWrite world others memory connection write

def postgres : Server World Unit Connection Statement Answer Env Error where
  admissible world env := world.clock < env.now
  advance world env := { world with clock := env.now }
  perform := perform

/-! ### The transactions -/

abbrev Work := Program Unit Statement Answer Error

def send (statement : Statement) : Work (Answer statement) :=
  Program.send statement

variable (hashToken : Str → Str)

/-- `create_session`; the column `last_login_at` is not modelled. -/
def createSession (userId companyId : Uuid) : Work Str := do
  let raw ← send .newToken
  let now ← send .now
  send (.setTenantGuc companyId)
  let id ← send .uuid
  send (.execute (.insertSession
    { id := id
      accountUserId := userId
      companyId := companyId
      tokenHash := hashToken raw
      expiresAt := plusSeconds now sessionTtl
      revokedAt := none }))
  return raw

/-- The account that `signup` or `accept_invitation` makes; its id is the server's. -/
def insertAccount (user : AccountUser) : Work Uuid := do
  send (.setTenantGuc user.companyId)
  let id ← send .uuid
  send (.execute (.insertUser { user with id := id, isActive := true }))
  return id

/-- The transaction of `signup_submit`. -/
def signupSubmit (user : AccountUser) : Work Str := do
  let ownerId ← insertAccount user
  createSession hashToken ownerId user.companyId

/-- `resolve_session`; the column `last_seen_at` is not modelled. -/
def resolveSession (rawToken : Str) : Work (Option UserSession) := do
  match ← send (.sessionByToken (hashToken rawToken)) with
  | none => return none
  | some row =>
      if row.revokedAt.isSome then return none
      let now ← send .now
      if row.expiresAt ≤ now then return none
      return some row

/-- `get_tenant_context`, up to its `yield`: the user and the session it stems from. -/
def getTenantContext (token : Str) : Work (AccountUser × UserSession) := do
  if token.isEmpty then throw .notAuthenticated
  match ← resolveSession hashToken token with
  | none => throw .notAuthenticated
  | some userSession =>
      send (.setTenantGuc userSession.companyId)
      match ← send (.getUser userSession.accountUserId) with
      | none => throw .notAuthenticated
      | some user =>
          if !user.isActive then throw .notAuthenticated
          return (user, userSession)

/-- `revoke_session`, as `logout` runs it. -/
def revokeSession (rawToken : Str) : Work Unit := do
  match ← send (.sessionByToken (hashToken rawToken)) with
  | none => return ()
  | some row =>
      if row.revokedAt.isNone then
        let now ← send .now
        send (.execute (.revokeSessions [row.id] now))

/-- `tombstone_company`, as far as it decides about access. -/
def tombstoneCompany (companyId : Uuid) : Work Unit := do
  let now ← send .now
  let users ← send (.companyUsers companyId)
  forEach users fun user => send (.execute (.anonymizeUser user.id))
  send (.revokeSessionsOf companyId now)

/-! ### The system -/

inductive Request where
  | signup (user : AccountUser)
  | acceptInvitation (user : AccountUser)
  /-- The last transaction of `login`. -/
  | login (userId companyId : Uuid)
  | logout (token : Str)
  /-- A page, up to the point where its handler starts. -/
  | page (token : Str)
  /-- The companies that `tombstone_deleted_companies` has selected. -/
  | tombstone (companyIds : List Uuid)

inductive Result where
  | accepted (userId : Uuid)
  | opened (token : Str)
  | loggedOut
  | context (user : AccountUser) (userSession : UserSession)
  | tombstoned
deriving DecidableEq

def Request.body : Request → Work Result
  | signup user => do
      let token ← signupSubmit hashToken user
      return .opened token
  | acceptInvitation user => do
      let userId ← insertAccount user
      return .accepted userId
  | login userId companyId => do
      let token ← createSession hashToken userId companyId
      return .opened token
  | logout token => do
      if !token.isEmpty then revokeSession hashToken token
      return .loggedOut
  | page token => do
      let context ← getTenantContext hashToken token
      return .context context.1 context.2
  | tombstone companyIds => do
      forEach companyIds tombstoneCompany
      return .tombstoned

def access : Engine World Unit Connection Statement Answer Env Error Ref Request Result where
  toServer := postgres
  program := Request.body hashToken
  connect _ _ := ((), ⟨[], none⟩)
  held connection := held Db connection.journal
  commit world connection := { world with db := connection.view world.db }

/-! ### Revoked sessions -/

section Revoking

variable {now : Instant} {ids : List Uuid} {sessions : Table UserSession}

theorem find_revokeAll {id : Uuid} : (revokeAll now ids sessions).find id =
    if id ∈ ids then (sessions.find id).map (revoked now) else sessions.find id := by
  induction ids generalizing sessions with
  | nil => simp [revokeAll]
  | cons first rest inductionHypothesis =>
      change (revokeAll now rest (sessions.update first (revoked now))).find id = _
      rw [inductionHypothesis, Table.find_update (by simp)]
      by_cases isFirst : first = id
      · by_cases inRest : id ∈ rest
        · rw [if_pos inRest, if_pos isFirst, if_pos (by simp [inRest]), Option.map_map]
          rfl
        · simp [isFirst, inRest]
      · have differs : id ≠ first := fun same => isFirst same.symm
        simp [isFirst, differs]

theorem mem_revokeAll {row : UserSession} : row ∈ revokeAll now ids sessions ↔
    ∃ old ∈ sessions, row = if old.id ∈ ids then revoked now old else old := by
  constructor
  · intro member
    have found := Table.find_of_mem member
    rw [find_revokeAll] at found
    split at found
    · rename_i inside
      obtain ⟨old, isOld, rfl⟩ := Option.map_eq_some_iff.mp found
      refine ⟨old, Table.mem_of_find isOld, ?_⟩
      rw [if_pos]
      exact inside
    · rename_i outside
      refine ⟨row, Table.mem_of_find found, ?_⟩
      rw [if_neg]
      exact outside
  · rintro ⟨old, oldIn, rfl⟩
    have found : (revokeAll now ids sessions).find old.id = _ := find_revokeAll
    have itself : sessions.find old.id = some old := Table.find_of_mem oldIn
    rw [itself] at found
    split
    · rename_i inside
      rw [if_pos inside] at found
      exact Table.mem_of_find found
    · rename_i outside
      rw [if_neg outside] at found
      exact Table.mem_of_find found

theorem taken_revokeAll {tokenHash : Str} :
    Taken (revokeAll now ids sessions) UserSession.tokenHash tokenHash ↔
      Taken sessions UserSession.tokenHash tokenHash := by
  constructor
  · rintro ⟨row, member, has⟩
    obtain ⟨old, oldIn, rfl⟩ := mem_revokeAll.mp member
    refine ⟨old, oldIn, ?_⟩
    split at has <;> exact has
  · rintro ⟨row, member, has⟩
    refine ⟨_, mem_revokeAll.mpr ⟨row, member, rfl⟩, ?_⟩
    split <;> exact has

end Revoking

/-! ### The laws of isolation -/

def SameEntry : Ref → Db → Db → Prop
  | .user id, before, after => after.users.find id = before.users.find id
  | .session id, before, after => after.sessions.find id = before.sessions.find id
  | .token tokenHash, before, after =>
      Taken after.sessions UserSession.tokenHash tokenHash ↔
        Taken before.sessions UserSession.tokenHash tokenHash

/-- The thing is as it was, and no account has gone. -/
structure KeptEntry (ref : Ref) (before after : Db) : Prop where
  same : SameEntry ref before after
  users : ∀ id, (before.users.find id).isSome = true → (after.users.find id).isSome = true

/-- A held thing is left alone by everybody else. -/
def readCommitted : Isolation World Connection Ref where
  Kept ref before after := KeptEntry ref before.db after.db
  Ready world connection := Journal.Replays connection.journal.writes world.db

theorem KeptEntry.refl (ref : Ref) (db : Db) : KeptEntry ref db db := by
  refine ⟨?_, fun _ there => there⟩
  cases ref <;> rfl

theorem KeptEntry.trans {ref : Ref} {first second third : Db} (one : KeptEntry ref first second)
    (two : KeptEntry ref second third) : KeptEntry ref first third := by
  refine ⟨?_, fun id there => two.users id (one.users id there)⟩
  obtain ⟨first, _⟩ := one
  obtain ⟨second, _⟩ := two
  cases ref <;> first | exact Eq.trans second first | exact Iff.trans second first

theorem isSome_update {users : Table AccountUser} {id looked : Uuid}
    (there : (users.find looked).isSome = true) :
    ((users.update id anonymized).find looked).isSome = true := by
  rw [Table.find_update (by simp)]
  split
  · rw [Option.isSome_map]
    exact there
  · exact there

theorem KeptEntry.frame {ref : Ref} {write : Write} {db : Db}
    (outside : ref ∉ Writes.footprint Db write) : KeptEntry ref db (Writes.apply write db) := by
  cases write with
  | insertUser row =>
      refine ⟨?_, fun id there => isSome_insert there⟩
      cases ref with
      | user id =>
          exact Table.find_insert_other fun same =>
            outside (by simp [Writes.footprint, Write.footprint, ← same, Keyed.key])
      | _ => rfl
  | anonymizeUser id =>
      refine ⟨?_, fun looked there => isSome_update there⟩
      cases ref with
      | user other =>
          exact Table.find_update_other (by simp) fun same =>
            outside (by simp [Writes.footprint, Write.footprint, same])
      | _ => rfl
  | insertSession row =>
      refine ⟨?_, fun id there => there⟩
      cases ref with
      | session id =>
          exact Table.find_insert_other fun same =>
            outside (by simp [Writes.footprint, Write.footprint, ← same, Keyed.key])
      | token tokenHash =>
          exact taken_insert_other fun same =>
            outside (by simp [Writes.footprint, Write.footprint, same])
      | user id => rfl
  | revokeSessions ids now =>
      refine ⟨?_, fun id there => there⟩
      cases ref with
      | session id =>
          change (revokeAll now ids db.sessions).find id = _
          rw [find_revokeAll, if_neg]
          exact fun inside => outside (by simp [Writes.footprint, Write.footprint, inside])
      | token tokenHash => exact taken_revokeAll
      | user id => rfl

theorem KeptEntry.apply {write : Write} {ref : Ref} {before after : Db}
    (own : ∀ own ∈ Writes.footprint Db write, KeptEntry own before after)
    (kept : KeptEntry ref before after) :
    KeptEntry ref (Writes.apply write before) (Writes.apply write after) := by
  obtain ⟨same, users⟩ := kept
  cases write with
  | insertUser row =>
      refine ⟨?_, isSome_insert_both users⟩
      cases ref with
      | user id => exact find_insert_both same
      | _ => exact same
  | anonymizeUser id =>
      refine ⟨?_, ?_⟩
      · cases ref with
        | user other =>
            change (after.users.update _ _).find other = (before.users.update _ _).find other
            rw [Table.find_update (by simp), Table.find_update (by simp),
              show after.users.find other = before.users.find other from same]
        | _ => exact same
      · intro looked there
        change ((before.users.update id anonymized).find looked).isSome = true at there
        change ((after.users.update id anonymized).find looked).isSome = true
        rw [Table.find_update (by simp)] at there
        apply isSome_update
        apply users
        split at there
        · rwa [Option.isSome_map] at there
        · exact there
  | insertSession row =>
      refine ⟨?_, users⟩
      cases ref with
      | session id => exact find_insert_both same
      | token tokenHash =>
          exact taken_insert_both
            (own (.session row.id) (by simp [Writes.footprint, Write.footprint])).same same
      | user id => exact same
  | revokeSessions ids now =>
      refine ⟨?_, users⟩
      cases ref with
      | session id =>
          change (revokeAll now ids after.sessions).find id =
            (revokeAll now ids before.sessions).find id
          rw [find_revokeAll, find_revokeAll,
            show after.sessions.find id = before.sessions.find id from same]
      | token tokenHash => exact (taken_revokeAll.trans same).trans taken_revokeAll.symm
      | user id => exact same

theorem KeptEntry.valid {write : Write} {before after : Db}
    (own : ∀ own ∈ Writes.footprint Db write, KeptEntry own before after)
    (valid : Writes.Valid write before) : Writes.Valid write after := by
  change write.check before = .ok () at valid
  change write.check after = .ok ()
  cases write with
  | insertUser row =>
      have held : after.users.find row.id = before.users.find row.id :=
        (own (.user row.id) (by simp [Writes.footprint, Write.footprint])).same
      simpa only [Write.check, held] using valid
  | anonymizeUser id =>
      have held : after.users.find id = before.users.find id :=
        (own (.user id) (by simp [Writes.footprint, Write.footprint])).same
      simpa only [Write.check, held] using valid
  | insertSession row =>
      have held : after.sessions.find row.id = before.sessions.find row.id :=
        (own (.session row.id) (by simp [Writes.footprint, Write.footprint])).same
      have kept := own (.token row.tokenHash) (by simp [Writes.footprint, Write.footprint])
      have free : Taken after.sessions UserSession.tokenHash row.tokenHash ↔
        Taken before.sessions UserSession.tokenHash row.tokenHash := kept.same
      simp only [Write.check, Write.demand_eq_ok, Bool.and_eq_true, unique_iff, held, free]
        at valid ⊢
      exact ⟨valid.1, valid.2.1, kept.users _ valid.2.2.1, trivial⟩
  | revokeSessions ids now => rfl

theorem executeWrite_journal {world : World} {others : List Connection} {memory memory' : Unit}
    {connection connection' : Connection} {write : Write} {answer : Except Error Unit}
    (performed : executeWrite world others memory connection write =
      some (answer, memory', connection')) :
    connection'.journal = connection.journal ∨
      (∀ ref ∈ write.footprint, ∀ other ∈ others,
        ref ∉ (held Db other.journal).map Prod.fst) ∧
      write.check (connection.view world.db) = .ok () ∧
      connection'.journal = connection.journal ++ [(world, .write write)] := by
  unfold executeWrite at performed
  split at performed
  · cases performed
  · rename_i free
    split at performed
    · cases performed
      exact .inl rfl
    · split at performed
      · cases performed
        exact .inl rfl
      · rename_i valid
        cases performed
        refine .inr ⟨fun ref inside other member taken => free ?_, valid, rfl⟩
        exact List.any_eq_true.mpr ⟨ref, inside, List.any_eq_true.mpr
          ⟨other, member, decide_eq_true taken⟩⟩

def Statement.Executes : Statement → Write → Prop
  | .execute executed, write => write = executed
  | .revokeSessionsOf _ moment, write => ∃ ids, write = .revokeSessions ids moment
  | _, _ => False

theorem perform_journal {world : World} {env : Env} {others : List Connection}
    {memory memory' : Unit} {connection connection' : Connection} {statement : Statement}
    {answer : Except Error (Answer statement)}
    (performed : perform world env others memory connection statement =
      some (answer, memory', connection')) :
    connection'.journal = connection.journal ∨
      ∃ write : Write, statement.Executes write ∧ (∀ ref ∈ write.footprint, ∀ other ∈ others,
          ref ∉ (held Db other.journal).map Prod.fst) ∧
        write.check (connection.view world.db) = .ok () ∧
        connection'.journal = connection.journal ++ [(world, .write write)] := by
  cases statement with
  | execute write => exact (executeWrite_journal performed).imp_right fun new => ⟨write, rfl, new⟩
  | revokeSessionsOf companyId now =>
      exact (executeWrite_journal performed).imp_right fun new => ⟨_, ⟨_, rfl⟩, new⟩
  | _ =>
      cases performed
      exact .inl rfl

theorem access_locking : Locking (access hashToken) World.db Connection.journal where
  advance _ _ := rfl
  commit _ _ := rfl
  connect _ _ := rfl
  held _ := rfl
  perform := by
    intro world env others memory connection statement answer memory' connection' performed
    rcases perform_journal performed with same | ⟨write, _, free, valid, appended⟩
    · exact .same same
    · refine .writes write (fun ref inside => ?_) valid appended
      rintro ⟨other, isOther, taken⟩
      exact free ref inside other isOther taken

theorem keptEntry_keeps : Journal.Keeps KeptEntry where
  refl := KeptEntry.refl
  trans := KeptEntry.trans
  frame := KeptEntry.frame
  apply := KeptEntry.apply
  valid := KeptEntry.valid

theorem access_laws : Laws (access hashToken) readCommitted :=
  (access_locking hashToken).laws keptEntry_keeps

end Fristenwaechter.Sessions
