import Fristenwaechter.Behaviour.Forward
import Fristenwaechter.Library.Timeline
import Fristenwaechter.Relay.Removal
import Fristenwaechter.Tenancy.Permanence

/-!
Owns that a tombstone is final: what `tombstone_company` has found of a company when it looked
is scrubbed or closed in every state from its commit on. The transactions are those of
`system`; a `login` that has verified a password before could still store a new hash of it.
-/

namespace Fristenwaechter

open Library (Config Ended Over Reachable Server Sound Table)
open Library.Program (forEach)
open Library.Table (Carries Marked)

variable {session after : Session} {db later : Db}

/-! ### What it finds -/

def Sent.usersOf (entry : Sent) (companyId : Uuid) : List AccountUser :=
  entry.db.accountUsers.rows.filter fun row =>
    entry.connection.sees row.companyId && row.companyId = companyId

def Sent.driversOf (entry : Sent) (companyId : Uuid) : List Driver :=
  entry.db.drivers.rows.filter fun row =>
    entry.connection.sees row.companyId && row.companyId = companyId

def Sent.openSessionsOf (entry : Sent) (companyId : Uuid) : List Uuid :=
  (entry.db.userSessions.rows.filter fun row =>
    row.companyId = companyId ∧ row.revokedAt.isNone).map UserSession.id

def Sent.openInvitationsOf (entry : Sent) (companyId : Uuid) : List Uuid :=
  (entry.db.invitations.rows.filter fun row =>
    row.companyId = companyId ∧ row.acceptedAt.isNone).map Invitation.id

theorem Sent.mem_openSessionsOf {entry : Sent} {companyId : Uuid} {row : UserSession}
    (member : row ∈ entry.db.userSessions) (own : row.companyId = companyId) :
    row.revokedAt.isSome = true ∨ row.id ∈ entry.openSessionsOf companyId := by
  cases closed : row.revokedAt with
  | some instant => exact .inl rfl
  | none =>
      refine .inr (List.mem_map.mpr ⟨row, List.mem_filter.mpr ⟨member, ?_⟩, rfl⟩)
      simp [own, closed]

theorem Sent.mem_openInvitationsOf {entry : Sent} {companyId : Uuid} {row : Invitation}
    (member : row ∈ entry.db.invitations) (own : row.companyId = companyId) :
    row.acceptedAt.isSome = true ∨ row.id ∈ entry.openInvitationsOf companyId := by
  cases closed : row.acceptedAt with
  | some instant => exact .inl rfl
  | none =>
      refine .inr (List.mem_map.mpr ⟨row, List.mem_filter.mpr ⟨member, ?_⟩, rfl⟩)
      simp [own, closed]

theorem sends_companyUsers {companyId : Uuid} {users : List AccountUser}
    (sent : postgres.Sends (.companyUsers companyId) session (.ok users) after) :
    ∃ entry, session.Asked (.companyUsers companyId) entry ∧ users = entry.usersOf companyId ∧
      after = session.saw entry := by
  obtain ⟨entry, asked, same, isAfter⟩ := sends_reply (fun _ _ _ => rfl) sent
  refine ⟨entry, asked, ?_, isAfter⟩
  rw [Except.ok.inj same, Sent.usersOf, Sent.db, asked.connection]

theorem sends_companyDrivers {companyId : Uuid} {drivers : List Driver}
    (sent : postgres.Sends (.companyDrivers companyId) session (.ok drivers) after) :
    ∃ entry, session.Asked (.companyDrivers companyId) entry ∧
      drivers = entry.driversOf companyId ∧ after = session.saw entry := by
  obtain ⟨entry, asked, same, isAfter⟩ := sends_reply (fun _ _ _ => rfl) sent
  refine ⟨entry, asked, ?_, isAfter⟩
  rw [Except.ok.inj same, Sent.driversOf, Sent.db, asked.connection]

theorem sends_revokeSessionsOf {companyId : Uuid} {now : Instant}
    (sent : postgres.Sends (.revokeSessionsOf companyId now) session (.ok ()) after) :
    ∃ entry, session.Asked (.revokeSessionsOf companyId now) entry ∧
      entry ∈ after.trace ∧
      .revokeSessions (entry.openSessionsOf companyId) now ∈ after.made := by
  obtain ⟨entry, memory, connection, asked, performed, rfl⟩ := sends_iff.mp sent
  refine ⟨entry, asked, by simp, List.mem_append_left _ ?_⟩
  rw [Sent.openSessionsOf, Sent.db, asked.connection]
  delta perform at performed
  dsimp only at performed
  obtain ⟨_, ⟨_, _, same, _⟩ | ⟨_, _, rfl, rfl⟩⟩ := executeAndReply_inv performed
  · cases same
  · change _ ∈ Library.Journal.writes (session.connection.journal ++ [_])
    rw [Library.Journal.writes_append]
    exact List.mem_append_right _ List.mem_cons_self

theorem sends_acceptInvitationsOf {companyId : Uuid} {now : Instant}
    (sent : postgres.Sends (.acceptInvitationsOf companyId now) session (.ok ()) after) :
    ∃ entry, session.Asked (.acceptInvitationsOf companyId now) entry ∧
      entry ∈ after.trace ∧
      .acceptInvitations (entry.openInvitationsOf companyId) now ∈ after.made := by
  obtain ⟨entry, memory, connection, asked, performed, rfl⟩ := sends_iff.mp sent
  refine ⟨entry, asked, by simp, List.mem_append_left _ ?_⟩
  rw [Sent.openInvitationsOf, Sent.db, asked.connection]
  delta perform at performed
  dsimp only at performed
  obtain ⟨_, ⟨_, _, same, _⟩ | ⟨_, _, rfl, rfl⟩⟩ := executeAndReply_inv performed
  · cases same
  · change _ ∈ Library.Journal.writes (session.connection.journal ++ [_])
    rw [Library.Journal.writes_append]
    exact List.mem_append_right _ List.mem_cons_self

/-- What a tombstone has made: each row of the company that it has found is scrubbed or closed,
or was so already. -/
structure Tombstones (company : Company) (after : Session) : Prop where
  itself : ∃ now, .updateCompany company (company.tombstoned now) ∈ after.made
  users : ∃ read : Sent, after.Looked (.companyUsers company.id) read ∧
    ∀ user ∈ read.usersOf company.id,
      user.neutralized = user ∨ .updateUser user user.neutralized ∈ after.made
  drivers : ∃ read : Sent, after.Looked (.companyDrivers company.id) read ∧
    ∀ driver ∈ read.driversOf company.id, ∃ now, driver.tombstoned now = driver ∨
      .updateDriver driver (driver.tombstoned now) ∈ after.made
  sessions : ∃ (read : Sent) (now : Instant),
    after.Looked (.revokeSessionsOf company.id now) read ∧
      .revokeSessions (read.openSessionsOf company.id) now ∈ after.made
  invitations : ∃ (read : Sent) (now : Instant),
    after.Looked (.acceptInvitationsOf company.id now) read ∧
      .acceptInvitations (read.openInvitationsOf company.id) now ∈ after.made

theorem Tombstones.goes {company : Company} {last : Session}
    (tombstones : Tombstones company after) (goes : after.Goes last) :
    Tombstones company last where
  itself := by
    obtain ⟨now, made⟩ := tombstones.itself
    exact ⟨now, goes.kept _ made⟩
  users := by
    obtain ⟨read, looked, each⟩ := tombstones.users
    exact ⟨read, looked.goes goes, fun user member =>
      (each user member).imp_right (goes.kept _)⟩
  drivers := by
    obtain ⟨read, looked, each⟩ := tombstones.drivers
    refine ⟨read, looked.goes goes, fun driver member => ?_⟩
    obtain ⟨now, made⟩ := each driver member
    exact ⟨now, made.imp_right (goes.kept _)⟩
  sessions := by
    obtain ⟨read, now, looked, made⟩ := tombstones.sessions
    exact ⟨read, now, looked.goes goes, goes.kept _ made⟩
  invitations := by
    obtain ⟨read, now, looked, made⟩ := tombstones.invitations
    exact ⟨read, now, looked.goes goes, goes.kept _ made⟩

theorem assignCompany_made {company : Company} {now : Instant} (alive : company.deletedAt = none)
    (ended : postgres.Ends (assignCompany company (company.tombstoned now)) session (.ok ())
      after) : .updateCompany company (company.tombstoned now) ∈ after.made := by
  have changed : company.tombstoned now ≠ company := by
    intro same
    have deleted : (company.tombstoned now).deletedAt = some now := rfl
    rw [same, alive] at deleted
    cases deleted
  obtain ⟨_, rfl⟩ := ends_addAll.mp ended
  refine List.mem_append_right _ (List.mem_append_right _ ?_)
  rw [Company.update, if_neg changed]
  exact List.mem_singleton_self _

theorem neutralize_made {companyId : Uuid} {users : List AccountUser} {listed : Session}
    (unpinned : session.connection.tenant = none)
    (lists : postgres.Ends (select (.companyUsers companyId)) session (.ok users) listed)
    (neutralizes : postgres.Ends (forEach users anonymizeAccountUser) listed (.ok ()) after) :
    ∃ read : Sent, after.Looked (.companyUsers companyId) read ∧
      ∀ user ∈ read.usersOf companyId,
        user.neutralized = user ∨ .updateUser user user.neutralized ∈ after.made := by
  obtain ⟨middle, goes, sent⟩ := select_through lists
  obtain ⟨read, asked, rfl, rfl⟩ := sends_companyUsers sent
  have looked : Session.Looked _ _ read := .select (by simp) (by simp)
    (goes.tenant.trans unpinned) asked sent (by simp)
  refine ⟨read, looked.goes (forward_forEach (fun _ => forward_addAll _) _ _ _ neutralizes),
    fun user member => ?_⟩
  by_cases same : user.neutralized = user
  · exact .inl same
  · refine .inr (forEach_made neutralizes member ?_)
    change _ ∈ user.update user.neutralized
    rw [AccountUser.update, if_neg same]
    exact List.mem_singleton_self _

theorem scrub_made {companyId : Uuid} {drivers : List Driver} {found : Session} {now : Instant}
    (unpinned : session.connection.tenant = none)
    (finds : postgres.Ends (select (.companyDrivers companyId)) session (.ok drivers) found)
    (scrubs : postgres.Ends (forEach drivers fun driver =>
      assignDriver driver (driver.tombstoned now)) found (.ok ()) after) :
    ∃ read : Sent, after.Looked (.companyDrivers companyId) read ∧
      ∀ driver ∈ read.driversOf companyId, driver.tombstoned now = driver ∨
        .updateDriver driver (driver.tombstoned now) ∈ after.made := by
  obtain ⟨middle, goes, sent⟩ := select_through finds
  obtain ⟨read, asked, rfl, rfl⟩ := sends_companyDrivers sent
  have looked : Session.Looked _ _ read := .select (by simp) (by simp)
    (goes.tenant.trans unpinned) asked sent (by simp)
  refine ⟨read, looked.goes (forward_forEach (fun _ => forward_addAll _) _ _ _ scrubs),
    fun driver member => ?_⟩
  by_cases same : driver.tombstoned now = driver
  · exact .inl same
  · refine .inr (forEach_made scrubs member ?_)
    rw [Driver.update, if_neg same]
    exact List.mem_singleton_self _

theorem revoke_made {companyId : Uuid} {now : Instant}
    (unpinned : session.connection.tenant = none)
    (ended : postgres.Ends (select (.revokeSessionsOf companyId now)) session (.ok ()) after) :
    ∃ read : Sent, after.Looked (.revokeSessionsOf companyId now) read ∧
      .revokeSessions (read.openSessionsOf companyId) now ∈ after.made := by
  obtain ⟨middle, goes, sent⟩ := select_through ended
  obtain ⟨read, asked, inTrace, made⟩ := sends_revokeSessionsOf sent
  exact ⟨read, .select (by simp) (by simp) (goes.tenant.trans unpinned) asked sent inTrace, made⟩

theorem accept_made {companyId : Uuid} {now : Instant}
    (unpinned : session.connection.tenant = none)
    (ended : postgres.Ends (select (.acceptInvitationsOf companyId now)) session (.ok ()) after) :
    ∃ read : Sent, after.Looked (.acceptInvitationsOf companyId now) read ∧
      .acceptInvitations (read.openInvitationsOf companyId) now ∈ after.made := by
  obtain ⟨middle, goes, sent⟩ := select_through ended
  obtain ⟨read, asked, inTrace, made⟩ := sends_acceptInvitationsOf sent
  exact ⟨read, .select (by simp) (by simp) (goes.tenant.trans unpinned) asked sent inTrace, made⟩

theorem tombstoneCompany_ends {company : Company} (alive : company.deletedAt = none)
    (unpinned : session.connection.tenant = none)
    (ended : postgres.Ends (tombstoneCompany company) session (.ok ()) after) :
    Tombstones company after := by
  have running : ∀ {Value : Type} {step : Work Value} {value : Value} {first last : Session},
      postgres.Ends step first (.ok value) last → Forward step → first.Goes last :=
    fun ran forward => forward _ _ _ ran
  have looping : ∀ {Item : Type} {items : List Item} {writes : Item → List Write},
      Forward (forEach items fun item => addAll (writes item)) :=
    forward_forEach fun _ => forward_addAll _
  obtain ⟨clock, _, ended⟩ := step_now ended
  obtain ⟨_, assigned, assigns, ended⟩ := ends_through ended
  obtain ⟨users, listed, lists, ended⟩ := ends_through ended
  obtain ⟨_, neutral, neutralizes, ended⟩ := ends_through ended
  obtain ⟨drivers, found, finds, ended⟩ := ends_through ended
  obtain ⟨_, scrubbed, scrubs, ended⟩ := ends_through ended
  obtain ⟨_, revoked, revokes, ended⟩ := ends_through ended
  obtain ⟨_, deleted, deletes, accepts⟩ := ends_through ended
  -- the steps after the assignment to the company
  have toNeutral := (running lists (forward_select (by simp) (by simp))).trans
    (running neutralizes looping)
  have toScrubbed := (running finds (forward_select (by simp) (by simp))).trans
    (running scrubs looping)
  have toRevoked := running revokes (forward_select (by simp) (by simp))
  have toDeleted := running deletes (forward_select (by simp) (by simp))
  have fromRevoked := toDeleted.trans (running accepts (forward_select (by simp) (by simp)))
  have fromScrubbed := toRevoked.trans fromRevoked
  have fromNeutral := toScrubbed.trans fromScrubbed
  -- none of them has a tenant
  have unpinnedAssigned : assigned.connection.tenant = none :=
    (running assigns (forward_addAll _)).tenant.trans unpinned
  have unpinnedNeutral := toNeutral.tenant.trans unpinnedAssigned
  have unpinnedScrubbed := toScrubbed.tenant.trans unpinnedNeutral
  have unpinnedDeleted := (toRevoked.trans toDeleted).tenant.trans unpinnedScrubbed
  refine ⟨⟨clock.env.now, ?_⟩, ?_, ?_, ?_, ?_⟩
  · exact (toNeutral.trans fromNeutral).kept _ (assignCompany_made alive assigns)
  · obtain ⟨read, looked, each⟩ := neutralize_made unpinnedAssigned lists neutralizes
    exact ⟨read, looked.goes fromNeutral, fun user member =>
      (each user member).imp_right (fromNeutral.kept _)⟩
  · obtain ⟨read, looked, each⟩ := scrub_made unpinnedNeutral finds scrubs
    exact ⟨read, looked.goes fromScrubbed, fun driver member =>
      ⟨clock.env.now, (each driver member).imp_right (fromScrubbed.kept _)⟩⟩
  · obtain ⟨read, looked, made⟩ := revoke_made unpinnedScrubbed revokes
    exact ⟨read, clock.env.now, looked.goes fromRevoked, fromRevoked.kept _ made⟩
  · obtain ⟨read, looked, made⟩ := accept_made unpinnedDeleted accepts
    exact ⟨read, clock.env.now, looked, made⟩

/-! ### From its commit on -/

/-- Everything that a tombstone has found of a company is scrubbed or closed: `trace` are its
statements, and each one has found the rows that were committed when it was sent. -/
structure Db.Tombstoned (db : Db) (trace : List Sent) (id : Uuid) : Prop where
  company : ∃ company ∈ db.companies,
    company.id = id ∧ company.name = anonName ∧ company.deletedAt.isSome = true
  users : ∃ read : Sent, read ∈ trace ∧ read.statement = .companyUsers id ∧
    ∀ user ∈ read.world.db.accountUsers, user.companyId = id →
      ∃ later ∈ db.accountUsers, later.id = user.id ∧ later.companyId = id ∧
        later.neutralized = later
  drivers : ∃ read : Sent, read ∈ trace ∧ read.statement = .companyDrivers id ∧
    ∀ driver ∈ read.world.db.drivers, driver.companyId = id →
      ∃ later ∈ db.drivers, later.id = driver.id ∧ later.companyId = id ∧
        later.firstName = anonName ∧ later.lastName = anonName ∧
          later.anonymizedAt.isSome = true
  sessions : ∃ (read : Sent) (now : Instant), read ∈ trace ∧
    read.statement = .revokeSessionsOf id now ∧
    ∀ row ∈ read.world.db.userSessions, row.companyId = id →
      ∃ later ∈ db.userSessions, later.id = row.id ∧ later.companyId = id ∧
        later.revokedAt.isSome = true
  invitations : ∃ (read : Sent) (now : Instant), read ∈ trace ∧
    read.statement = .acceptInvitationsOf id now ∧
    ∀ row ∈ read.world.db.invitations, row.companyId = id →
      ∃ later ∈ db.invitations, later.id = row.id ∧ later.companyId = id ∧
        later.acceptedAt.isSome = true

theorem AccountUser.neutralized_iff {user : AccountUser} : user.neutralized = user ↔
    UserColumn.erased .email user ∧ UserColumn.erased .phoneE164 user ∧
      UserColumn.erased .isActive user ∧ UserColumn.erased .passwordHash user := by
  obtain ⟨id, companyId, email, role, phoneE164, isActive, passwordHash⟩ := user
  simp [AccountUser.neutralized, UserColumn.erased, eq_comm]

theorem AccountUser.stays_neutralized {user later : AccountUser}
    (marked : Marked UserColumn.erased user later) (neutral : user.neutralized = user) :
    later.neutralized = later := by
  obtain ⟨email, phoneE164, isActive, passwordHash⟩ := AccountUser.neutralized_iff.mp neutral
  exact AccountUser.neutralized_iff.mpr ⟨marked.kept _ email, marked.kept _ phoneE164,
    marked.kept _ isActive, marked.kept _ passwordHash⟩

theorem Db.Tombstoned.stays {trace : List Sent} {id : Uuid} (tombstoned : db.Tombstoned trace id)
    (since : StaysScrubbed db later) : later.Tombstoned trace id where
  company := by
    obtain ⟨company, companyIn, rfl, name, deletedAt⟩ := tombstoned.company
    obtain ⟨last, lastIn, toLast⟩ := since.companies company companyIn
    exact ⟨last, lastIn, toLast.key, toLast.kept .name name, toLast.kept .deletedAt deletedAt⟩
  users := by
    obtain ⟨read, inTrace, asked, each⟩ := tombstoned.users
    refine ⟨read, inTrace, asked, fun user member own => ?_⟩
    obtain ⟨found, foundIn, isId, company, neutral⟩ := each user member own
    obtain ⟨last, lastIn, toLast⟩ := since.users found foundIn
    exact ⟨last, lastIn, toLast.key.trans isId, toLast.kept (.companyId id) company,
      AccountUser.stays_neutralized toLast neutral⟩
  drivers := by
    obtain ⟨read, inTrace, asked, each⟩ := tombstoned.drivers
    refine ⟨read, inTrace, asked, fun driver member own => ?_⟩
    obtain ⟨found, foundIn, isId, company, firstName, lastName, anonymizedAt⟩ :=
      each driver member own
    obtain ⟨last, lastIn, toLast⟩ := since.drivers found foundIn
    exact ⟨last, lastIn, toLast.key.trans isId, toLast.kept (.companyId id) company,
      toLast.kept .firstName firstName, toLast.kept .lastName lastName,
      toLast.kept .anonymizedAt anonymizedAt⟩
  sessions := by
    obtain ⟨read, now, inTrace, asked, each⟩ := tombstoned.sessions
    refine ⟨read, now, inTrace, asked, fun row member own => ?_⟩
    obtain ⟨found, foundIn, isId, company, revokedAt⟩ := each row member own
    obtain ⟨last, lastIn, toLast⟩ := since.sessions found foundIn
    exact ⟨last, lastIn, toLast.key.trans isId, toLast.kept (.companyId id) company,
      toLast.kept .closed revokedAt⟩
  invitations := by
    obtain ⟨read, now, inTrace, asked, each⟩ := tombstoned.invitations
    refine ⟨read, now, inTrace, asked, fun row member own => ?_⟩
    obtain ⟨found, foundIn, isId, company, acceptedAt⟩ := each row member own
    obtain ⟨last, lastIn, toLast⟩ := since.invitations found foundIn
    exact ⟨last, lastIn, toLast.key.trans isId, toLast.kept (.companyId id) company,
      toLast.kept .closed acceptedAt⟩

section Commit

variable {writes : List Write} {base view : Db}

theorem column_settled {Value : Type} [DecidableEq Value] (scrubbed : Value → Prop)
    {loaded current : Value} (stored : Value) (sets : scrubbed current) :
    scrubbed loaded ∨ scrubbed (column loaded current stored) := by
  by_cases same : current = loaded
  · exact .inl (same ▸ sets)
  · refine .inr ?_
    rw [column, if_neg same]
    exact sets

theorem Session.Looked.stays {statement : Statement} {read : Sent}
    (looked : after.Looked statement read) (erase : ∀ write ∈ after.writes, write.Erases)
    (upTo : StaysScrubbed read.world.db base) :
    StaysScrubbed (Sent.db read) (base.after after.writes) := by
  obtain ⟨rest, whole⟩ := looked.writes
  rw [← whole] at erase ⊢
  rw [Db.after_append]
  have own : StaysScrubbed (Sent.db read) (base.after read.connection.journal.writes) :=
    staysScrubbed_both (fun write member => erase write (List.mem_append_left _ member)) upTo
  exact own.trans (staysScrubbed_after fun write member =>
    (erase write (List.mem_append_right _ member)).takesNothingBack)

theorem written_after {write : Write} (erase : ∀ write ∈ writes, write.Erases)
    (inside : write ∈ writes) :
    ∃ middle, StaysScrubbed base middle ∧
      StaysScrubbed (write.apply middle) (base.after writes) := by
  obtain ⟨first, rest, rfl⟩ := List.append_of_mem inside
  refine ⟨base.after first, staysScrubbed_after fun other member => ?_, ?_⟩
  · exact (erase other (List.mem_append_left _ member)).takesNothingBack
  · rw [Db.after_append, Db.after_cons]
    exact staysScrubbed_after fun other member =>
      (erase other (List.mem_append_right _ (List.mem_cons_of_mem _ member))).takesNothingBack

theorem tombstoned_company (erase : ∀ write ∈ writes, write.Erases)
    (stays : StaysScrubbed view (base.after writes)) {seen stored : Company}
    (seenIn : seen ∈ view.companies) (storedIn : stored ∈ base.companies)
    (same : stored.id = seen.id) {now : Instant}
    (made : .updateCompany seen (seen.tombstoned now) ∈ writes) :
    ∃ later ∈ (base.after writes).companies, later.id = seen.id ∧ later.name = anonName ∧
      later.deletedAt.isSome = true := by
  obtain ⟨middle, early, late⟩ := written_after erase made
  obtain ⟨found, foundIn, fromStored⟩ := early.companies stored storedIn
  obtain ⟨later, laterIn, own, has⟩ := Carries.settle (marking_company (erase _ made))
    stays.companies late.companies seenIn foundIn rfl (fromStored.key.trans same)
  exact ⟨later, laterIn, own, has .name (column_settled (· = anonName) found.name rfl),
    has .deletedAt (column_settled (Option.isSome · = true) found.deletedAt rfl)⟩

theorem neutralized_user (erase : ∀ write ∈ writes, write.Erases)
    (stays : StaysScrubbed view (base.after writes)) {seen stored : AccountUser}
    (seenIn : seen ∈ view.accountUsers) (storedIn : stored ∈ base.accountUsers)
    (same : stored.id = seen.id)
    (made : seen.neutralized = seen ∨ .updateUser seen seen.neutralized ∈ writes) :
    ∃ later ∈ (base.after writes).accountUsers, later.id = seen.id ∧
      later.companyId = seen.companyId ∧ later.neutralized = later := by
  rcases made with before | inside
  · obtain ⟨later, laterIn, fromSeen⟩ := stays.users seen seenIn
    exact ⟨later, laterIn, fromSeen.key, fromSeen.kept (.companyId seen.companyId) rfl,
      AccountUser.stays_neutralized fromSeen before⟩
  · obtain ⟨middle, early, late⟩ := written_after erase inside
    obtain ⟨found, foundIn, fromStored⟩ := early.users stored storedIn
    have isFound : found.id = seen.id := fromStored.key.trans same
    obtain ⟨later, laterIn, own, has⟩ := Carries.settle (marking_user (erase _ inside)) stays.users
      late.users seenIn foundIn rfl isFound
    refine ⟨later, laterIn, own, has (.companyId seen.companyId) (.inl rfl),
      AccountUser.neutralized_iff.mpr ⟨?_, ?_, ?_, ?_⟩⟩
    · refine has .email ?_
      change seen.email = neutralEmail seen.id ∨
        column seen.email _ found.email = neutralEmail found.id
      rw [isFound]
      exact column_settled (· = neutralEmail seen.id) found.email rfl
    · exact has .phoneE164 (column_settled (· = none) found.phoneE164 rfl)
    · exact has .isActive (column_settled (· = false) found.isActive rfl)
    · exact has .passwordHash (column_settled (· = none) found.passwordHash rfl)

theorem tombstoned_driver (erase : ∀ write ∈ writes, write.Erases)
    (stays : StaysScrubbed view (base.after writes)) {seen stored : Driver}
    (seenIn : seen ∈ view.drivers) (storedIn : stored ∈ base.drivers)
    (same : stored.id = seen.id) {now : Instant}
    (made : seen.tombstoned now = seen ∨ .updateDriver seen (seen.tombstoned now) ∈ writes) :
    ∃ later ∈ (base.after writes).drivers, later.id = seen.id ∧
      later.companyId = seen.companyId ∧ later.firstName = anonName ∧
        later.lastName = anonName ∧ later.anonymizedAt.isSome = true := by
  have known := seen.tombstoned_anonymizedAt now
  rcases made with before | inside
  · obtain ⟨later, laterIn, fromSeen⟩ := stays.drivers seen seenIn
    rw [before] at known
    exact ⟨later, laterIn, fromSeen.key, fromSeen.kept (.companyId seen.companyId) rfl,
      fromSeen.kept .firstName (congrArg Driver.firstName before).symm,
      fromSeen.kept .lastName (congrArg Driver.lastName before).symm,
      fromSeen.kept .anonymizedAt known⟩
  · obtain ⟨middle, early, late⟩ := written_after erase inside
    obtain ⟨found, foundIn, fromStored⟩ := early.drivers stored storedIn
    obtain ⟨later, laterIn, own, has⟩ := Carries.settle (marking_driver (erase _ inside))
      stays.drivers late.drivers seenIn foundIn rfl (fromStored.key.trans same)
    exact ⟨later, laterIn, own, has (.companyId seen.companyId) (.inl rfl),
      has .firstName (column_settled (· = anonName) found.firstName rfl),
      has .lastName (column_settled (· = anonName) found.lastName rfl),
      has .anonymizedAt (column_settled (Option.isSome · = true) found.anonymizedAt known)⟩

theorem revoked_session (erase : ∀ write ∈ writes, write.Erases)
    (stays : StaysScrubbed view (base.after writes)) {seen stored : UserSession}
    (seenIn : seen ∈ view.userSessions) (storedIn : stored ∈ base.userSessions)
    (same : stored.id = seen.id) {ids : List Uuid} {now : Instant}
    (made : seen.revokedAt.isSome = true ∨ seen.id ∈ ids)
    (executed : .revokeSessions ids now ∈ writes) :
    ∃ later ∈ (base.after writes).userSessions, later.id = seen.id ∧
      later.companyId = seen.companyId ∧ later.revokedAt.isSome = true := by
  rcases made with before | inside
  · obtain ⟨later, laterIn, fromSeen⟩ := stays.sessions seen seenIn
    exact ⟨later, laterIn, fromSeen.key, fromSeen.kept (.companyId seen.companyId) rfl,
      fromSeen.kept .closed before⟩
  · obtain ⟨middle, early, late⟩ := written_after erase executed
    obtain ⟨found, foundIn, fromStored⟩ := early.sessions stored storedIn
    obtain ⟨later, laterIn, fromSeen, isRevoked⟩ := Carries.settleEach
      (fun wanted _ => marking_session now wanted) .closed (fun _ => rfl) stays.sessions
      late.sessions seenIn foundIn (fromStored.key.trans same) inside
    exact ⟨later, laterIn, fromSeen.key, fromSeen.kept (.companyId seen.companyId) rfl, isRevoked⟩

theorem accepted_invitation (erase : ∀ write ∈ writes, write.Erases)
    (stays : StaysScrubbed view (base.after writes)) {seen stored : Invitation}
    (seenIn : seen ∈ view.invitations) (storedIn : stored ∈ base.invitations)
    (same : stored.id = seen.id) {ids : List Uuid} {now : Instant}
    (made : seen.acceptedAt.isSome = true ∨ seen.id ∈ ids)
    (executed : .acceptInvitations ids now ∈ writes) :
    ∃ later ∈ (base.after writes).invitations, later.id = seen.id ∧
      later.companyId = seen.companyId ∧ later.acceptedAt.isSome = true := by
  rcases made with before | inside
  · obtain ⟨later, laterIn, fromSeen⟩ := stays.invitations seen seenIn
    exact ⟨later, laterIn, fromSeen.key, fromSeen.kept (.companyId seen.companyId) rfl,
      fromSeen.kept .closed before⟩
  · obtain ⟨middle, early, late⟩ := written_after erase executed
    obtain ⟨found, foundIn, fromStored⟩ := early.invitations stored storedIn
    obtain ⟨later, laterIn, fromSeen, isClosed⟩ := Carries.settleEach
      (fun wanted _ => marking_invitation now wanted) .closed (fun _ => rfl) stays.invitations
      late.invitations seenIn foundIn (fromStored.key.trans same) inside
    exact ⟨later, laterIn, fromSeen.key, fromSeen.kept (.companyId seen.companyId) rfl, isClosed⟩

/-- What a tombstone has made holds of the database that it leaves. -/
theorem Tombstones.settled {company : Company} (tombstones : Tombstones company after)
    (finished : after.memory.pending = []) (erase : ∀ write ∈ after.writes, write.Erases)
    (upTo : ∀ read ∈ after.trace, StaysScrubbed (Library.Entry.world read).db base)
    {claim : Sent} (claimIn : claim ∈ after.trace) (found : company ∈ claim.world.db.companies) :
    (base.after after.writes).Tombstoned after.trace company.id := by
  have executed : ∀ {write : Write}, write ∈ after.made → write ∈ after.writes := by
    intro write made
    rw [Session.made, finished, List.append_nil] at made
    exact made
  have seeing : ∀ {statement : Statement} {read : Sent}, after.Looked statement read →
      StaysScrubbed read.world.db (Sent.db read) ∧
        StaysScrubbed (Sent.db read) (base.after after.writes) := by
    intro statement read looked
    refine ⟨staysScrubbed_after fun write member => ?_,
      looked.stays erase (upTo read looked.inTrace)⟩
    exact (erase write (looked.writes.subset member)).takesNothingBack
  constructor
  · obtain ⟨now, made⟩ := tombstones.itself
    obtain ⟨stored, storedIn, fromSeen⟩ := (upTo claim claimIn).companies company found
    have stays : StaysScrubbed claim.world.db (base.after after.writes) :=
      (upTo claim claimIn).trans (staysScrubbed_after fun write member =>
        (erase write member).takesNothingBack)
    exact tombstoned_company erase stays found storedIn fromSeen.key (executed made)
  · obtain ⟨read, looked, each⟩ := tombstones.users
    obtain ⟨own, stays⟩ := seeing looked
    refine ⟨read, looked.inTrace, looked.asked, fun user member isOwn => ?_⟩
    obtain ⟨seen, seenIn, fromUser⟩ := own.users user member
    obtain ⟨stored, storedIn, toStored⟩ := (upTo read looked.inTrace).users user member
    have inside : seen.companyId = company.id := fromUser.kept (.companyId company.id) isOwn
    have listed : seen ∈ read.usersOf company.id := List.mem_filter.mpr ⟨seenIn, by
      simp [Connection.sees, looked.tenant, inside]⟩
    obtain ⟨later, laterIn, sameId, sameCompany, neutral⟩ := neutralized_user erase stays seenIn
      storedIn (toStored.key.trans fromUser.key.symm) ((each seen listed).imp_right executed)
    exact ⟨later, laterIn, sameId.trans fromUser.key, sameCompany.trans inside, neutral⟩
  · obtain ⟨read, looked, each⟩ := tombstones.drivers
    obtain ⟨own, stays⟩ := seeing looked
    refine ⟨read, looked.inTrace, looked.asked, fun driver member isOwn => ?_⟩
    obtain ⟨seen, seenIn, fromDriver⟩ := own.drivers driver member
    obtain ⟨stored, storedIn, toStored⟩ := (upTo read looked.inTrace).drivers driver member
    have inside : seen.companyId = company.id := fromDriver.kept (.companyId company.id) isOwn
    have listed : seen ∈ read.driversOf company.id := List.mem_filter.mpr ⟨seenIn, by
      simp [Connection.sees, looked.tenant, inside]⟩
    obtain ⟨now, made⟩ := each seen listed
    obtain ⟨later, laterIn, sameId, sameCompany, scrubbed⟩ := tombstoned_driver erase stays seenIn
      storedIn (toStored.key.trans fromDriver.key.symm) (made.imp_right executed)
    exact ⟨later, laterIn, sameId.trans fromDriver.key, sameCompany.trans inside, scrubbed⟩
  · obtain ⟨read, now, looked, made⟩ := tombstones.sessions
    obtain ⟨own, stays⟩ := seeing looked
    refine ⟨read, now, looked.inTrace, looked.asked, fun row member isOwn => ?_⟩
    obtain ⟨seen, seenIn, fromRow⟩ := own.sessions row member
    obtain ⟨stored, storedIn, toStored⟩ := (upTo read looked.inTrace).sessions row member
    have inside : seen.companyId = company.id := fromRow.kept (.companyId company.id) isOwn
    obtain ⟨later, laterIn, sameId, sameCompany, isRevoked⟩ := revoked_session erase stays seenIn
      storedIn (toStored.key.trans fromRow.key.symm) (Sent.mem_openSessionsOf seenIn inside)
      (executed made)
    exact ⟨later, laterIn, sameId.trans fromRow.key, sameCompany.trans inside, isRevoked⟩
  · obtain ⟨read, now, looked, made⟩ := tombstones.invitations
    obtain ⟨own, stays⟩ := seeing looked
    refine ⟨read, now, looked.inTrace, looked.asked, fun row member isOwn => ?_⟩
    obtain ⟨seen, seenIn, fromRow⟩ := own.invitations row member
    obtain ⟨stored, storedIn, toStored⟩ := (upTo read looked.inTrace).invitations row member
    have inside : seen.companyId = company.id := fromRow.kept (.companyId company.id) isOwn
    obtain ⟨later, laterIn, sameId, sameCompany, isClosed⟩ := accepted_invitation erase stays
      seenIn storedIn (toStored.key.trans fromRow.key.symm)
      (Sent.mem_openInvitationsOf seenIn inside) (executed made)
    exact ⟨later, laterIn, sameId.trans fromRow.key, sameCompany.trans inside, isClosed⟩

end Commit

theorem forward_tombstoneCompany (company : Company) : Forward (tombstoneCompany company) := by
  refine forward_then (forward_emit (by simp) (by simp)) fun now => ?_
  refine forward_then (forward_addAll _) fun _ => ?_
  refine forward_then (forward_select (by simp) (by simp)) fun users => ?_
  refine forward_then (forward_forEach fun user => forward_addAll _) fun _ => ?_
  refine forward_then (forward_select (by simp) (by simp)) fun drivers => ?_
  refine forward_then (forward_forEach fun driver => forward_addAll _) fun _ => ?_
  refine forward_then (forward_select (by simp) (by simp)) fun _ => ?_
  exact forward_then (forward_select (by simp) (by simp)) fun _ =>
    forward_select (by simp) (by simp)

/-- The companies whose deletion was requested more than the grace before `now`, and that are
not tombstoned yet. -/
def Company.isDue (company : Company) (now : Instant) : Prop :=
  company.deletionRequestedAt.any (· < plusSeconds now (-(companyDeleteGraceDays * 86400))) =
    true ∧ company.deletedAt = none

section Runs

variable {sha256 : Str → Str} {validateKennzeichen : Str → Option Str}

/-- A committed tombstone has settled each company that was due when it looked. -/
structure Done.TombstonesIn (done : Done) (db : Db) (clock claim : Sent) : Prop where
  timed : clock ∈ done.transaction.trace ∧ clock.statement = .now
  looked : claim ∈ done.transaction.trace ∧ claim.statement =
    .companiesToDelete (plusSeconds clock.env.now (-(companyDeleteGraceDays * 86400)))
  each : ∀ company ∈ claim.world.db.companies, company.isDue clock.env.now →
    db.Tombstoned done.transaction.trace company.id

theorem tombstones_committed {done : Done} {now : World}
    (isOver : Over (system sha256 validateKennzeichen) .unrestricted readCommitted (fun _ => True)
      (fun before after => StaysScrubbed before.db after.db) now done)
    (isTombstone : Ended.request done = .tombstoneDeletedCompanies)
    (committed : Done.isCommitted done = true) :
    ∃ clock claim, done.TombstonesIn done.result clock claim := by
  obtain ⟨result, well⟩ := committed_well committed
  obtain ⟨_, _, start, _, _, chain, ends, _⟩ := isOver
  have ended := ends _ well
  rw [isTombstone] at ended
  have erase : OnlyEver Write.Erases done.transaction :=
    purge_erases (show Request.Purges .tombstoneDeletedCompanies from trivial) _ _ _ ended
      (.opening _ _)
  change postgres.Ends (transaction (Request.tombstoneDeletedCompanies.body sha256
    validateKennzeichen)) (Session.opened none start.clock) (.ok result) done.transaction at ended
  rcases transaction_ends ended with ⟨_, middle, same, body, executed⟩ | ⟨_, same, _⟩
  swap
  · cases same
  rcases ends_return.mp body with ⟨count, _, ran⟩ | ⟨_, same, _⟩
  swap
  · cases same
  obtain ⟨clock, timed, ran⟩ := step_now ran
  obtain ⟨companies, base, first, rest⟩ := ends_through ran
  obtain ⟨claim, asked, isCompanies, rfl⟩ :=
    sends_companiesToDelete ((select_ends_clean (by rfl)).mp first)
  cases isCompanies
  obtain ⟨_, last, loop, _, isMiddle⟩ := ends_through rest
  have toEnd : middle.Goes done.transaction := .flushed executed
  rw [isMiddle] at toEnd
  have looping : Session.Goes _ last :=
    forward_forEach (fun company => forward_tombstoneCompany company) _ _ _ loop
  have grown := (looping.trans toEnd).trace
  have claimIn : claim ∈ done.transaction.trace := grown.subset (by simp)
  refine ⟨clock, claim, ⟨grown.subset (by simp), timed.statement⟩, ⟨claimIn, asked.statement⟩,
    fun company member due => ?_⟩
  have listed : company ∈ claim.companiesToDelete
      (plusSeconds clock.env.now (-(companyDeleteGraceDays * 86400))) := by
    refine List.mem_filter.mpr ⟨?_, ?_⟩
    · rw [asked.db]
      exact member
    · rw [due.1, due.2, Connection.sees, asked.connection]
      rfl
  obtain ⟨earlier, others, before, tombstoned, prior, one, remaining⟩ :=
    Server.ends_forEach_mem loop listed
  have reached : Session.Goes _ before :=
    forward_forEach (fun company => forward_tombstoneCompany company) _ _ _ prior
  have left : Session.Goes tombstoned last :=
    forward_forEach (fun company => forward_tombstoneCompany company) _ _ _ remaining
  have tombstones : Tombstones company done.transaction :=
    (tombstoneCompany_ends due.2 (reached.tenant.trans rfl) one).goes (left.trans toEnd)
  refine tombstones.settled ?_ erase.writes (fun read inTrace => ?_) claimIn member
  · exact executed.pending
  · obtain ⟨_, _, _, _, upTo⟩ := chain.seen read inTrace
    exact upTo

variable (sha256 validateKennzeichen) in
theorem system_clocked : (system sha256 validateKennzeichen).Clocked World.clock where
  advance possible := of_decide_eq_true possible
  commit _ _ := rfl

/-- **A tombstone is final.** In every state from the commit of `tombstone_deleted_companies` on,
however it and the requests beside it and after it are interleaved, every company that was due
when it looked is scrubbed, with every account, driver, session and invitation it has found. -/
theorem tombstone_is_final {world : World}
    {config : Config World Memory Connection Statement Answer Env Error Request Outcome}
    (reached : Reachable (system sha256 validateKennzeichen) .unrestricted ⟨world, [], []⟩
      config)
    {done : Done} (member : done ∈ config.ended)
    (isTombstone : Ended.request done = .tombstoneDeletedCompanies)
    (committed : Done.isCommitted done = true) :
    ∃ clock claim, done.TombstonesIn config.world.db clock claim := by
  have laws := system_laws sha256 validateKennzeichen
  have discipline := permanenceDiscipline sha256 validateKennzeichen
  have sound := (Sound.reachable laws discipline (.quiet trivial) reached).1
  obtain ⟨clock, claim, tombstones⟩ :=
    tombstones_committed (sound.concluded done member) isTombstone committed
  obtain ⟨result, well⟩ := committed_well committed
  have timeline := reached.timeline (system_clocked sha256 validateKennzeichen) laws discipline
    trivial
  have since : StaysScrubbed ((system sha256 validateKennzeichen).leave done).db config.world.db :=
    timeline.left done member
  rw [leave_committed well] at since
  exact ⟨clock, claim, tombstones.timed, tombstones.looked, fun company inside due =>
    (tombstones.each company inside due).stays since⟩

end Runs

def Request.tombstones : Request → Bool
  | .tombstoneDeletedCompanies => true
  | _ => false

theorem Request.tombstones_iff {request : Request} :
    request.tombstones = true ↔ request = .tombstoneDeletedCompanies := by
  cases request <;> simp [Request.tombstones]

/-- The tombstones of one company. -/
theorem tombstone_is_final_alone :
    ∃ config, (system id some).schedule ⟨closingWorld, [], []⟩ closingRun = some config ∧
      ∃ done ∈ config.ended, ∃ clock claim,
        Done.TombstonesIn done config.world.db clock claim := by
  have found : ((system id some).schedule ⟨closingWorld, [], []⟩ closingRun).any (fun config =>
      config.ended.any fun done =>
        (Ended.request done).tombstones && Done.isCommitted done) = true := by
    decide +kernel
  obtain ⟨config, ran, ended⟩ := (Option.any_eq_true _ _).mp found
  obtain ⟨done, member, both⟩ := List.any_eq_true.mp ended
  obtain ⟨isTombstone, committed⟩ := (Bool.and_eq_true _ _).mp both
  exact ⟨config, ran, done, member, tombstone_is_final (Reachable.of_schedule ran) member
    (Request.tombstones_iff.mp isTombstone) committed⟩

end Fristenwaechter
