import Fristenwaechter.Dates
import Fristenwaechter.Database
import Fristenwaechter.Web.Forms
import Fristenwaechter.Library.Locking

/-!
Owns how accounts come to exist: `signup`, `create_invitation`, `accept_invitation` and
`create_session` of `services/auth.py` as programs over the tables they touch, and the
form handler `accept_submit` of `web/auth.py`, which runs two of them. Every transaction
runs by itself under READ COMMITTED.

`company` and `account_user` are under row-level security: a session reads and inserts
only rows of the company it has pinned with `set_tenant_guc`, and the pin goes with the
transaction. Columns that no function here reads are left out.
-/

namespace Fristenwaechter.Accounts

open Library (Table Keyed Journal Writes Program Server Engine Isolation Laws Locking)
open Library.Journal (held)

/-- `INVITATION_TTL`, in seconds. -/
def invitationTtl : Int := 72 * 3600

/-- `SESSION_TTL`, in seconds. -/
def sessionTtl : Int := 14 * 86400

/-! ### The tables -/

/-- The tables that accounts are made in. -/
structure Db where
  companies : Table Company
  users : Table AccountUser
  invitations : Table Invitation
  sessions : Table UserSession

def Db.empty : Db :=
  ⟨Table.empty, Table.empty, Table.empty, Table.empty⟩

/-- Rows and entries of unique indexes. -/
inductive Ref where
  | company (id : Uuid)
  | user (id : Uuid)
  | email (email : Str)
  | invitation (id : Uuid)
  | invitationToken (tokenHash : Str)
  | session (id : Uuid)
  | sessionToken (tokenHash : Str)
deriving DecidableEq

inductive Write where
  | insertCompany (row : Company)
  | insertUser (row : AccountUser)
  | insertInvitation (row : Invitation)
  /-- `UPDATE invitation SET accepted_at`. -/
  | acceptInvitation (loaded : Invitation) (acceptedAt : Instant)
  | insertSession (row : UserSession)

inductive Error where
  | invitationInvalid
  | value
  /-- `sqlalchemy.exc.IntegrityError`. -/
  | integrity
  /-- A value that does not fit its column. -/
  | data
  /-- `sqlalchemy.orm.exc.StaleDataError`. -/
  | staleData
  /-- A row that violates the row-level security policy of its table. -/
  | insufficientPrivilege
deriving DecidableEq

def accepted (acceptedAt : Instant) (stored : Invitation) : Invitation :=
  { stored with acceptedAt := some acceptedAt }

@[simp] theorem accepted_id (acceptedAt : Instant) (stored : Invitation) :
    (accepted acceptedAt stored).id = stored.id :=
  rfl

namespace Write

def apply : Write → Db → Db
  | insertCompany row, db => { db with companies := db.companies.insert row }
  | insertUser row, db => { db with users := db.users.insert row }
  | insertInvitation row, db => { db with invitations := db.invitations.insert row }
  | acceptInvitation loaded acceptedAt, db =>
      { db with invitations := db.invitations.update loaded.id (accepted acceptedAt) }
  | insertSession row, db => { db with sessions := db.sessions.insert row }

def footprint : Write → List Ref
  | insertCompany row => [.company row.id]
  | insertUser row => [.user row.id, .email row.email]
  | insertInvitation row => [.invitation row.id, .invitationToken row.tokenHash]
  | acceptInvitation loaded _ => [.invitation loaded.id]
  | insertSession row => [.session row.id, .sessionToken row.tokenHash]

def unique {Row : Type} [Keyed Row Uuid] (table : Table Row) (column : Row → Str) (value : Str) :
    Bool :=
  table.rows.all fun stored => column stored ≠ value

def demand (condition : Bool) (error : Error) (rest : Except Error Unit) : Except Error Unit :=
  if condition then rest else .error error

/-- Column widths come before unique indexes, and these before foreign keys. -/
def check (db : Db) : Write → Except Error Unit
  | insertCompany row =>
      demand (fits 200 row.name) .data <|
      demand (db.companies.find row.id).isNone .integrity (.ok ())
  | insertUser row =>
      demand (fits 254 row.email && fitsOption 20 row.phoneE164 && fitsOption 200 row.passwordHash)
        .data <|
      demand ((db.users.find row.id).isNone && unique db.users AccountUser.email row.email)
        .integrity <|
      demand (db.companies.find row.companyId).isSome .integrity (.ok ())
  | insertInvitation row =>
      demand (fits 254 row.email && fits 64 row.tokenHash) .data <|
      demand ((db.invitations.find row.id).isNone &&
        unique db.invitations Invitation.tokenHash row.tokenHash) .integrity <|
      demand (db.companies.find row.companyId).isSome .integrity (.ok ())
  | acceptInvitation loaded _ =>
      demand (db.invitations.find loaded.id).isSome .staleData (.ok ())
  | insertSession row =>
      demand (fits 64 row.tokenHash) .data <|
      demand ((db.sessions.find row.id).isNone &&
        unique db.sessions UserSession.tokenHash row.tokenHash) .integrity <|
      demand ((db.users.find row.accountUserId).isSome && (db.companies.find row.companyId).isSome)
        .integrity (.ok ())

/-- `WITH CHECK` of the policies of `company` and `account_user`. -/
def permitted (currentCompany : Option Uuid) : Write → Bool
  | insertCompany row => currentCompany = some row.id
  | insertUser row => currentCompany = some row.companyId
  | _ => true

@[simp] theorem demand_eq_ok {condition : Bool} {error : Error} {rest : Except Error Unit} :
    demand condition error rest = .ok () ↔ condition = true ∧ rest = .ok () := by
  unfold demand
  split <;> simp_all

end Write

instance : Writes Db Write Ref where
  apply := Write.apply
  footprint := Write.footprint
  Valid write db := write.check db = .ok ()

@[simp] theorem footprint_eq (write : Write) : Writes.footprint Db write = write.footprint :=
  rfl

/-! ### The server -/

structure World where
  db : Db
  clock : Instant

/-- The environment's choices for one statement: the time, a new UUID, a new token and a
salt. -/
structure Env where
  now : Instant
  fresh : Uuid
  token : Str
  salt : Str

inductive Statement where
  /-- `now_berlin()`. -/
  | now
  /-- `uuid.uuid4()`, or the server default of a primary key. -/
  | uuid
  /-- `new_token()`. -/
  | newToken
  /-- The salt of `hash_password`. -/
  | salt
  /-- `set_tenant_guc`. -/
  | setTenantGuc (companyId : Uuid)
  | invitationByToken (tokenHash : Str)
  /-- `session.get(AccountUser, id)` of a session that has not loaded the row. -/
  | getUser (id : Uuid)
  | execute (write : Write)

abbrev Answer : Statement → Type
  | .now => Instant
  | .uuid => Uuid
  | .newToken => Str
  | .salt => Str
  | .setTenantGuc _ => Unit
  | .invitationByToken _ => Option Invitation
  | .getUser _ => Option AccountUser
  | .execute _ => Unit

/-- The uncommitted work of a transaction, and `app.current_company`. -/
structure Connection where
  journal : Journal World Write Ref
  currentCompany : Option Uuid

/-- What a connection sees without row-level security. -/
def Connection.view (connection : Connection) (db : Db) : Db :=
  connection.journal.view db

/-- One statement. An INSERT or UPDATE waits while another transaction holds one of the
rows or entries. -/
def perform (world : World) (env : Env) (others : List Connection) (memory : Unit)
    (connection : Connection) : (statement : Statement) →
    Option (Except Error (Answer statement) × Unit × Connection)
  | .now => some (.ok env.now, memory, connection)
  | .uuid => some (.ok env.fresh, memory, connection)
  | .newToken => some (.ok env.token, memory, connection)
  | .salt => some (.ok env.salt, memory, connection)
  | .setTenantGuc companyId =>
      some (.ok (), memory, { connection with currentCompany := some companyId })
  | .invitationByToken tokenHash =>
      some (.ok ((connection.view world.db).invitations.rows.find? fun row =>
        row.tokenHash = tokenHash), memory, connection)
  | .getUser id =>
      some (.ok (((connection.view world.db).users.find id).filter fun row =>
        connection.currentCompany = some row.companyId), memory, connection)
  | .execute write =>
      if write.footprint.any fun ref =>
          others.any fun other => ref ∈ (held Db other.journal).map Prod.fst then none
      else if !write.permitted connection.currentCompany then
        some (.error .insufficientPrivilege, memory, connection)
      else
        match write.check (connection.view world.db) with
        | .error error => some (.error error, memory, connection)
        | .ok () =>
            some (.ok (), memory,
              { connection with journal := connection.journal ++ [(world, .write write)] })

def postgres : Server World Unit Connection Statement Answer Env Error where
  admissible world env := world.clock < env.now
  advance world env := { world with clock := env.now }
  perform := perform

/-! ### The transactions -/

abbrev Work := Program Unit Statement Answer Error

def send (statement : Statement) : Work (Answer statement) :=
  Program.send statement

/-- `str.lower`, argon2 with its salt, and SHA-256 with its hexadecimal digest. -/
structure Primitives where
  lower : Str → Str
  hashPassword : (salt password : Str) → Str
  hashToken : Str → Str

/-- `normalize_email`. -/
def Primitives.normalizeEmail (primitives : Primitives) (email : Str) : Str :=
  primitives.lower (strip email)

variable (primitives : Primitives)

/-- `signup`: the ids of the new company and its OWNER. -/
def signup (companyName ownerEmail password : Str) (phoneE164 : Option Str) :
    Work (Uuid × Uuid) := do
  let companyId ← send .uuid
  send (.setTenantGuc companyId)
  send (.execute (.insertCompany ⟨companyId, companyName, 12, none, none⟩))
  let salt ← send .salt
  let ownerId ← send .uuid
  send (.execute (.insertUser
    { id := ownerId
      companyId := companyId
      email := primitives.normalizeEmail ownerEmail
      role := .owner
      phoneE164 := phoneE164
      isActive := true
      passwordHash := some (primitives.hashPassword salt password) }))
  return (companyId, ownerId)

/-- `create_invitation`: the id of the invitation and its raw token. -/
def createInvitation (companyId : Uuid) (email : Str) (role : Role) : Work (Uuid × Str) := do
  if role = .owner then throw .value
  let raw ← send .newToken
  let now ← send .now
  let id ← send .uuid
  send (.execute (.insertInvitation
    { id := id
      companyId := companyId
      email := primitives.normalizeEmail email
      role := role
      tokenHash := primitives.hashToken raw
      expiresAt := plusSeconds now invitationTtl
      acceptedAt := none }))
  return (id, raw)

/-- The account that an invitation is accepted with. -/
def invitedUser (inv : Invitation) (id : Uuid) (passwordHash : Str) : AccountUser where
  id := id
  companyId := inv.companyId
  email := inv.email
  role := inv.role
  phoneE164 := none
  isActive := true
  passwordHash := some passwordHash

/-- `accept_invitation`; the flush inserts the account before it updates the
invitation. -/
def acceptInvitation (rawToken password : Str) : Work Uuid := do
  let some inv ← send (.invitationByToken (primitives.hashToken rawToken))
    | throw .invitationInvalid
  if inv.acceptedAt.isSome then throw .invitationInvalid
  let now ← send .now
  if inv.expiresAt ≤ now then throw .invitationInvalid
  send (.setTenantGuc inv.companyId)
  let salt ← send .salt
  let acceptedAt ← send .now
  let id ← send .uuid
  send (.execute (.insertUser (invitedUser inv id (primitives.hashPassword salt password))))
  send (.execute (.acceptInvitation inv acceptedAt))
  return id

/-- `create_session`; the column `last_login_at` is not modelled. -/
def createSession (userId companyId : Uuid) : Work Str := do
  let raw ← send .newToken
  let now ← send .now
  send (.setTenantGuc companyId)
  let id ← send .uuid
  send (.execute (.insertSession
    { id := id
      accountUserId := userId
      companyId := companyId
      tokenHash := primitives.hashToken raw
      expiresAt := plusSeconds now sessionTtl
      revokedAt := none }))
  return raw

/-- The second transaction of `accept_submit`. -/
def openSession (userId : Uuid) : Work Str := do
  let some user ← send (.getUser userId) | throw .invitationInvalid
  createSession primitives userId user.companyId

/-! ### The system -/

inductive Request where
  | signup (companyName ownerEmail password : Str) (phoneE164 : Option Str)
  | createInvitation (companyId : Uuid) (email : Str) (role : Role)
  | acceptInvitation (rawToken password : Str)
  | openSession (userId : Uuid)

inductive Result where
  | signedUp (companyId ownerId : Uuid)
  | invited (invitationId : Uuid) (rawToken : Str)
  | accepted (userId : Uuid)
  | opened (token : Str)
deriving DecidableEq

def Request.body : Request → Work Result
  | signup companyName ownerEmail password phoneE164 => do
      let ids ← Accounts.signup primitives companyName ownerEmail password phoneE164
      return .signedUp ids.1 ids.2
  | createInvitation companyId email role => do
      let created ← Accounts.createInvitation primitives companyId email role
      return .invited created.1 created.2
  | acceptInvitation rawToken password => do
      let userId ← Accounts.acceptInvitation primitives rawToken password
      return .accepted userId
  | openSession userId => do
      let token ← Accounts.openSession primitives userId
      return .opened token

def accounts : Engine World Unit Connection Statement Answer Env Error Ref Request Result where
  toServer := postgres
  program := Request.body primitives
  connect _ _ := ((), ⟨[], none⟩)
  held connection := held Db connection.journal
  commit world connection := { world with db := connection.view world.db }

/-! ### The laws of isolation -/

def Taken {Row : Type} [Keyed Row Uuid] (table : Table Row) (column : Row → Str) (value : Str) :
    Prop :=
  ∃ row ∈ table, column row = value

def SameEntry : Ref → Db → Db → Prop
  | .company id, before, after => after.companies.find id = before.companies.find id
  | .user id, before, after => after.users.find id = before.users.find id
  | .email email, before, after =>
      Taken after.users AccountUser.email email ↔ Taken before.users AccountUser.email email
  | .invitation id, before, after => after.invitations.find id = before.invitations.find id
  | .invitationToken tokenHash, before, after =>
      Taken after.invitations Invitation.tokenHash tokenHash ↔
        Taken before.invitations Invitation.tokenHash tokenHash
  | .session id, before, after => after.sessions.find id = before.sessions.find id
  | .sessionToken tokenHash, before, after =>
      Taken after.sessions UserSession.tokenHash tokenHash ↔
        Taken before.sessions UserSession.tokenHash tokenHash

/-- The thing is as it was, and no company or account has gone. -/
structure KeptEntry (ref : Ref) (before after : Db) : Prop where
  same : SameEntry ref before after
  companies : ∀ id, (before.companies.find id).isSome = true →
    (after.companies.find id).isSome = true
  users : ∀ id, (before.users.find id).isSome = true → (after.users.find id).isSome = true

/-- A held thing is left alone by everybody else. -/
def readCommitted : Isolation World Connection Ref where
  Kept ref before after := KeptEntry ref before.db after.db
  Ready world connection := Journal.Replays connection.journal.writes world.db

section Tables

variable {Row : Type} [Keyed Row Uuid] {table other : Table Row} {row : Row} {id : Uuid}
variable {column : Row → Str} {value : Str}

theorem unique_iff : Write.unique table column value = true ↔ ¬ Taken table column value := by
  simp [Write.unique, Taken, Table.mem_iff]

theorem taken_insert : Taken (table.insert row) column value ↔
    Taken table column value ∨ column row = value ∧ table.find (Keyed.key row) = none := by
  constructor
  · rintro ⟨found, member, has⟩
    rcases Table.mem_insert.mp member with old | ⟨rfl, free⟩
    · exact .inl ⟨found, old, has⟩
    · exact .inr ⟨has, free⟩
  · rintro (⟨found, member, has⟩ | ⟨has, free⟩)
    · exact ⟨found, Table.mem_insert.mpr (.inl member), has⟩
    · exact ⟨row, Table.mem_insert.mpr (.inr ⟨rfl, free⟩), has⟩

theorem isSome_insert (there : (table.find id).isSome = true) :
    ((table.insert row).find id).isSome = true := by
  obtain ⟨found, isFound⟩ := Option.isSome_iff_exists.mp there
  rw [Table.find_insert, isFound]
  rfl

theorem isSome_insert_both
    (stays : ∀ id, (table.find id).isSome = true → (other.find id).isSome = true) (id : Uuid) :
    ((table.insert row).find id).isSome = true → ((other.insert row).find id).isSome = true := by
  rw [Table.find_insert, Table.find_insert, Option.isSome_or, Option.isSome_or, Bool.or_eq_true,
    Bool.or_eq_true]
  exact Or.imp_left (stays id)

end Tables

theorem taken_accept {invitations : Table Invitation} {id : Uuid} {acceptedAt : Instant}
    {tokenHash : Str} :
    Taken (invitations.update id (accepted acceptedAt)) Invitation.tokenHash tokenHash ↔
      Taken invitations Invitation.tokenHash tokenHash := by
  constructor
  · rintro ⟨row, member, has⟩
    obtain ⟨old, oldIn, rfl⟩ := (Table.mem_update (by simp)).mp member
    refine ⟨old, oldIn, ?_⟩
    split at has <;> exact has
  · rintro ⟨row, member, has⟩
    refine ⟨_, (Table.mem_update (by simp)).mpr ⟨row, member, rfl⟩, ?_⟩
    split <;> exact has

theorem SameEntry.refl (ref : Ref) (db : Db) : SameEntry ref db db := by
  cases ref <;> rfl

theorem SameEntry.trans {ref : Ref} {first second third : Db} (one : SameEntry ref first second)
    (two : SameEntry ref second third) : SameEntry ref first third := by
  cases ref <;> first | exact Eq.trans two one | exact Iff.trans two one

theorem KeptEntry.refl (ref : Ref) (db : Db) : KeptEntry ref db db :=
  ⟨.refl ref db, fun _ there => there, fun _ there => there⟩

theorem KeptEntry.trans {ref : Ref} {first second third : Db} (one : KeptEntry ref first second)
    (two : KeptEntry ref second third) : KeptEntry ref first third :=
  ⟨one.same.trans two.same, fun id there => two.companies id (one.companies id there),
    fun id there => two.users id (one.users id there)⟩

theorem taken_insert_other {Row : Type} [Keyed Row Uuid] {table : Table Row} {row : Row}
    {column : Row → Str} {value : Str} (other : value ≠ column row) :
    Taken (table.insert row) column value ↔ Taken table column value := by
  rw [taken_insert, or_iff_left fun taken => other taken.1.symm]

theorem SameEntry.frame {ref : Ref} {write : Write} {db : Db}
    (outside : ref ∉ Writes.footprint Db write) : SameEntry ref db (Writes.apply write db) := by
  cases write with
  | insertCompany row =>
      cases ref with
      | company id =>
          exact Table.find_insert_other fun same =>
            outside (by simp [Write.footprint, ← same])
      | _ => rfl
  | insertUser row =>
      cases ref with
      | user id =>
          exact Table.find_insert_other fun same =>
            outside (by simp [Write.footprint, ← same])
      | email email =>
          exact taken_insert_other fun same =>
            outside (by simp [Write.footprint, same])
      | _ => rfl
  | insertInvitation row =>
      cases ref with
      | invitation id =>
          exact Table.find_insert_other fun same =>
            outside (by simp [Write.footprint, ← same])
      | invitationToken tokenHash =>
          exact taken_insert_other fun same =>
            outside (by simp [Write.footprint, same])
      | _ => rfl
  | acceptInvitation loaded acceptedAt =>
      cases ref with
      | invitation id =>
          exact Table.find_update_other (by simp) fun same =>
            outside (by simp [Write.footprint, ← same])
      | invitationToken tokenHash => exact taken_accept
      | _ => rfl
  | insertSession row =>
      cases ref with
      | session id =>
          exact Table.find_insert_other fun same =>
            outside (by simp [Write.footprint, ← same])
      | sessionToken tokenHash =>
          exact taken_insert_other fun same =>
            outside (by simp [Write.footprint, same])
      | _ => rfl

theorem KeptEntry.frame {ref : Ref} {write : Write} {db : Db}
    (outside : ref ∉ Writes.footprint Db write) : KeptEntry ref db (Writes.apply write db) := by
  refine ⟨.frame outside, fun id there => ?_, fun id there => ?_⟩
  · cases write with
    | insertCompany row => exact isSome_insert there
    | _ => exact there
  · cases write with
    | insertUser row => exact isSome_insert there
    | _ => exact there

theorem taken_insert_both {Row : Type} [Keyed Row Uuid] {table other : Table Row} {row : Row}
    {column : Row → Str} {value : Str}
    (held : other.find (Keyed.key row) = table.find (Keyed.key row))
    (same : Taken other column value ↔ Taken table column value) :
    Taken (other.insert row) column value ↔ Taken (table.insert row) column value := by
  rw [taken_insert, taken_insert, same, held]

theorem find_insert_both {Row : Type} [Keyed Row Uuid] {table other : Table Row} {row : Row}
    {id : Uuid} (same : other.find id = table.find id) :
    (other.insert row).find id = (table.insert row).find id := by
  rw [Table.find_insert, Table.find_insert, same]

theorem SameEntry.apply {write : Write} {ref : Ref} {before after : Db}
    (own : ∀ own ∈ Writes.footprint Db write, SameEntry own before after)
    (same : SameEntry ref before after) :
    SameEntry ref (Writes.apply write before) (Writes.apply write after) := by
  cases write with
  | insertCompany row =>
      cases ref with
      | company id => exact find_insert_both same
      | _ => exact same
  | insertUser row =>
      cases ref with
      | user id => exact find_insert_both same
      | email email => exact taken_insert_both (own (.user row.id) (by simp [Write.footprint])) same
      | _ => exact same
  | insertInvitation row =>
      cases ref with
      | invitation id => exact find_insert_both same
      | invitationToken tokenHash =>
          exact taken_insert_both (own (.invitation row.id) (by simp [Write.footprint])) same
      | _ => exact same
  | acceptInvitation loaded acceptedAt =>
      cases ref with
      | invitation id =>
          change (after.invitations.update _ _).find id = (before.invitations.update _ _).find id
          rw [Table.find_update (by simp), Table.find_update (by simp),
            show after.invitations.find id = before.invitations.find id from same]
      | invitationToken tokenHash => exact (taken_accept.trans same).trans taken_accept.symm
      | _ => exact same
  | insertSession row =>
      cases ref with
      | session id => exact find_insert_both same
      | sessionToken tokenHash =>
          exact taken_insert_both (own (.session row.id) (by simp [Write.footprint])) same
      | _ => exact same

theorem KeptEntry.apply {write : Write} {ref : Ref} {before after : Db}
    (own : ∀ own ∈ Writes.footprint Db write, KeptEntry own before after)
    (kept : KeptEntry ref before after) :
    KeptEntry ref (Writes.apply write before) (Writes.apply write after) := by
  refine ⟨.apply (fun ref member => (own ref member).same) kept.same, ?_, ?_⟩
  · cases write with
    | insertCompany row => exact isSome_insert_both kept.companies
    | _ => exact kept.companies
  · cases write with
    | insertUser row => exact isSome_insert_both kept.users
    | _ => exact kept.users

theorem KeptEntry.valid {write : Write} {before after : Db}
    (own : ∀ own ∈ Writes.footprint Db write, KeptEntry own before after)
    (valid : Writes.Valid write before) : Writes.Valid write after := by
  change write.check before = .ok () at valid
  change write.check after = .ok ()
  cases write with
  | insertCompany row =>
      have held : after.companies.find row.id = before.companies.find row.id :=
        (own (.company row.id) (by simp [Write.footprint])).same
      simpa only [Write.check, held] using valid
  | insertUser row =>
      have held : after.users.find row.id = before.users.find row.id :=
        (own (.user row.id) (by simp [Write.footprint])).same
      have kept := own (.email row.email) (by simp [Write.footprint])
      have free : Taken after.users AccountUser.email row.email ↔
        Taken before.users AccountUser.email row.email := kept.same
      simp only [Write.check, Write.demand_eq_ok, Bool.and_eq_true, unique_iff, held, free]
        at valid ⊢
      exact ⟨valid.1, valid.2.1, kept.companies _ valid.2.2.1, trivial⟩
  | insertInvitation row =>
      have held : after.invitations.find row.id = before.invitations.find row.id :=
        (own (.invitation row.id) (by simp [Write.footprint])).same
      have kept := own (.invitationToken row.tokenHash) (by simp [Write.footprint])
      have free : Taken after.invitations Invitation.tokenHash row.tokenHash ↔
        Taken before.invitations Invitation.tokenHash row.tokenHash := kept.same
      simp only [Write.check, Write.demand_eq_ok, Bool.and_eq_true, unique_iff, held, free]
        at valid ⊢
      exact ⟨valid.1, valid.2.1, kept.companies _ valid.2.2.1, trivial⟩
  | acceptInvitation loaded acceptedAt =>
      have held : after.invitations.find loaded.id = before.invitations.find loaded.id :=
        (own (.invitation loaded.id) (by simp [Write.footprint])).same
      simpa only [Write.check, held] using valid
  | insertSession row =>
      have held : after.sessions.find row.id = before.sessions.find row.id :=
        (own (.session row.id) (by simp [Write.footprint])).same
      have kept := own (.sessionToken row.tokenHash) (by simp [Write.footprint])
      have free : Taken after.sessions UserSession.tokenHash row.tokenHash ↔
        Taken before.sessions UserSession.tokenHash row.tokenHash := kept.same
      simp only [Write.check, Write.demand_eq_ok, Bool.and_eq_true, unique_iff, held, free]
        at valid ⊢
      obtain ⟨widths, isNew, ⟨user, company⟩, _⟩ := valid
      exact ⟨widths, isNew, ⟨kept.users _ user, kept.companies _ company⟩, trivial⟩

/-- What one statement can do to the journal of its transaction. -/
theorem perform_journal {world : World} {env : Env} {others : List Connection}
    {memory memory' : Unit} {connection connection' : Connection} {statement : Statement}
    {answer : Except Error (Answer statement)}
    (performed : perform world env others memory connection statement =
      some (answer, memory', connection')) :
    connection'.journal = connection.journal ∨
      ∃ write, statement = .execute write ∧
        (∀ ref ∈ write.footprint, ∀ other ∈ others,
          ref ∉ (held Db other.journal).map Prod.fst) ∧
        write.check (connection.view world.db) = .ok () ∧
        connection'.journal = connection.journal ++ [(world, .write write)] := by
  cases statement with
  | execute write =>
      simp only [perform] at performed
      split at performed
      · cases performed
      · rename_i free
        split at performed
        · cases performed
          exact .inl rfl
        · split at performed
          · cases performed
            exact .inl rfl
          · rename_i valid
            cases performed
            refine .inr ⟨write, rfl, fun ref inside other member taken => free ?_, valid, rfl⟩
            exact List.any_eq_true.mpr ⟨ref, inside, List.any_eq_true.mpr
              ⟨other, member, decide_eq_true taken⟩⟩
  | _ =>
      cases performed
      exact .inl rfl

theorem accounts_locking : Locking (accounts primitives) World.db Connection.journal where
  advance _ _ := rfl
  commit _ _ := rfl
  connect _ _ := rfl
  held _ := rfl
  perform := by
    intro world env others memory connection statement answer memory' connection' performed
    rcases perform_journal performed with same | ⟨write, _, free, valid, appended⟩
    · exact .same same
    · refine .writes write (fun ref inside => ?_) valid appended
      rintro ⟨other, isOther, taken⟩
      exact free ref inside other isOther taken

theorem keptEntry_keeps : Journal.Keeps KeptEntry where
  refl := KeptEntry.refl
  trans := KeptEntry.trans
  frame := KeptEntry.frame
  apply := KeptEntry.apply
  valid := KeptEntry.valid

theorem accounts_laws : Laws (accounts primitives) readCommitted :=
  (accounts_locking primitives).laws keptEntry_keeps

end Fristenwaechter.Accounts
