import Mathlib.Data.List.Induction
import Fristenwaechter.Auth.Sessions
import Fristenwaechter.Library.History
import Fristenwaechter.Library.Timeline

/-!
Owns who gets in. A page is served to the user for whom the session was opened, while the
session is neither expired nor revoked and the user is active. What a logout or a tombstone
has found when it looked is locked out for good from its commit on, whatever is interleaved.
-/

namespace Fristenwaechter.Sessions

open Library (Table Journal Server Engine Entry Transaction Ended Config Commits Discipline Sound
  Reachable Timeline Journalled)
open Library.Program (forEach)
open Accounts (Taken unique_iff)

abbrev Session := Transaction World Unit Connection Statement Env

abbrev Sent := Entry World Unit Connection Statement Env

abbrev Done := Ended World Unit Connection Statement Env Error Request Result

abbrev Requests := Config World Unit Connection Statement Answer Env Error Request Result

def Session.writes (session : Session) : List Write :=
  session.connection.journal.writes

def Session.new : Session :=
  ⟨(), ⟨[], none⟩, []⟩

/-! ### How the tables develop -/

structure UserLater (row later : AccountUser) : Prop where
  id : later.id = row.id
  companyId : later.companyId = row.companyId
  inactive : row.isActive = false → later.isActive = false

structure SessionLater (row later : UserSession) : Prop where
  id : later.id = row.id
  accountUserId : later.accountUserId = row.accountUserId
  companyId : later.companyId = row.companyId
  tokenHash : later.tokenHash = row.tokenHash
  expiresAt : later.expiresAt = row.expiresAt
  revoked : row.revokedAt.isSome = true → later.revokedAt.isSome = true

theorem UserLater.refl (row : AccountUser) : UserLater row row :=
  ⟨rfl, rfl, fun inactive => inactive⟩

theorem UserLater.trans {first second third : AccountUser} (one : UserLater first second)
    (two : UserLater second third) : UserLater first third :=
  ⟨two.id.trans one.id, two.companyId.trans one.companyId,
    fun inactive => two.inactive (one.inactive inactive)⟩

theorem SessionLater.refl (row : UserSession) : SessionLater row row :=
  ⟨rfl, rfl, rfl, rfl, rfl, fun isRevoked => isRevoked⟩

theorem SessionLater.trans {first second third : UserSession} (one : SessionLater first second)
    (two : SessionLater second third) : SessionLater first third :=
  ⟨two.id.trans one.id, two.accountUserId.trans one.accountUserId,
    two.companyId.trans one.companyId, two.tokenHash.trans one.tokenHash,
    two.expiresAt.trans one.expiresAt, fun isRevoked => two.revoked (one.revoked isRevoked)⟩

structure Follows (before after : Db) : Prop where
  users : Table.Carries UserLater before.users after.users
  sessions : Table.Carries SessionLater before.sessions after.sessions

theorem Follows.refl (db : Db) : Follows db db :=
  ⟨.refl UserLater.refl _, .refl SessionLater.refl _⟩

theorem Follows.trans {first second third : Db} (one : Follows first second)
    (two : Follows second third) : Follows first third :=
  ⟨one.users.trans (fun earlier later => earlier.trans later) two.users,
    one.sessions.trans (fun earlier later => earlier.trans later) two.sessions⟩

theorem Follows.apply (write : Write) (db : Db) : Follows db (write.apply db) := by
  cases write with
  | insertUser row =>
      exact ⟨.insert UserLater.refl _ row, .refl SessionLater.refl _⟩
  | anonymizeUser id =>
      refine ⟨.update UserLater.refl (by simp) fun row _ _ => ?_, .refl SessionLater.refl _⟩
      exact ⟨rfl, rfl, fun _ => rfl⟩
  | insertSession row =>
      exact ⟨.refl UserLater.refl _, .insert SessionLater.refl _ row⟩
  | revokeSessions ids now =>
      refine ⟨.refl UserLater.refl _, fun row member => ?_⟩
      refine ⟨_, mem_revokeAll.mpr ⟨row, member, rfl⟩, ?_⟩
      split
      · exact ⟨rfl, rfl, rfl, rfl, rfl, fun _ => rfl⟩
      · exact .refl row

def Db.after (db : Db) (writes : List Write) : Db :=
  writes.foldl (fun current write => write.apply current) db

theorem Follows.after (db : Db) (writes : List Write) : Follows db (db.after writes) := by
  induction writes generalizing db with
  | nil => exact .refl db
  | cons write rest inductionHypothesis =>
      exact (Follows.apply write db).trans (inductionHypothesis (write.apply db))

theorem Db.after_append (db : Db) (first second : List Write) :
    db.after (first ++ second) = (db.after first).after second :=
  List.foldl_append

/-- The unique index on `token_hash`. -/
def UniqueTokens (db : Db) : Prop :=
  ∀ first ∈ db.sessions, ∀ second ∈ db.sessions, first.tokenHash = second.tokenHash →
    first = second

theorem UniqueTokens.apply {write : Write} {db : Db} (unique : UniqueTokens db)
    (valid : write.check db = .ok ()) : UniqueTokens (write.apply db) := by
  cases write with
  | insertUser row => exact unique
  | anonymizeUser id => exact unique
  | insertSession row =>
      simp only [Write.check, Write.demand_eq_ok, Bool.and_eq_true, unique_iff] at valid
      have free := valid.2.1.2
      intro first firstIn second secondIn same
      rcases Table.mem_insert.mp firstIn with firstOld | ⟨rfl, _⟩
      · rcases Table.mem_insert.mp secondIn with secondOld | ⟨rfl, _⟩
        · exact unique first firstOld second secondOld same
        · exact absurd ⟨first, firstOld, same⟩ free
      · rcases Table.mem_insert.mp secondIn with secondOld | ⟨rfl, _⟩
        · exact absurd ⟨second, secondOld, same.symm⟩ free
        · rfl
  | revokeSessions ids now =>
      intro first firstIn second secondIn same
      obtain ⟨one, oneIn, rfl⟩ := mem_revokeAll.mp firstIn
      obtain ⟨two, twoIn, rfl⟩ := mem_revokeAll.mp secondIn
      have tokens : ∀ row : UserSession,
          (if row.id ∈ ids then revoked now row else row).tokenHash = row.tokenHash := by
        intro row
        split <;> rfl
      rw [tokens, tokens] at same
      rw [unique one oneIn two twoIn same]

def KeepsUnique (_ : List Write) (before after : Db) : Prop :=
  UniqueTokens before → UniqueTokens after

theorem UniqueTokens.replays {writes : List Write} {db : Db} (unique : UniqueTokens db)
    (replays : Journal.Replays writes db) : UniqueTokens (db.after writes) := by
  suffices kept : KeepsUnique writes db _ from kept unique
  refine Journal.Replays.fold (fun _ unique => unique) ?_ replays
  intro done write middle _ step valid before
  exact (step before).apply valid

/-- How committed states follow each other. -/
structure Evolves (before after : World) : Prop where
  clock : before.clock ≤ after.clock
  follows : Follows before.db after.db

variable {hashToken : Str → Str}

theorem access_discipline : Discipline (access hashToken) .unrestricted readCommitted
    (fun world => UniqueTokens world.db) Evolves where
  refl world := ⟨le_refl _, .refl world.db⟩
  trans one two := ⟨one.clock.trans two.clock, one.follows.trans two.follows⟩
  advance := by
    intro world env unique possible
    exact ⟨unique, (of_decide_eq_true possible).le, .refl world.db⟩
  commit := by
    intro request start transaction result now commits
    exact ⟨commits.nowInv.replays commits.chain.ready, le_refl _, .after _ _⟩

theorem access_clocked : (access hashToken).Clocked World.clock where
  advance possible := of_decide_eq_true possible
  commit _ _ := rfl

theorem access_journalled :
    Journalled (access hashToken) readCommitted World.db Connection.journal where
  advance _ _ := rfl
  commit _ _ := rfl
  ready := id

/-! ### Statements -/

section Statements

variable {session after : Session} {Value Final : Type} {outcome : Except Error Final}

def Session.sent (session : Session) (connection : Connection) (entry : Sent) : Session :=
  ⟨(), connection, session.trace ++ [entry]⟩

theorem ends_then {first : Work Value} {next : Value → Work Final} :
    postgres.Ends (first >>= next) session outcome after ↔
      (∃ value middle, postgres.Ends first session (.ok value) middle ∧
        postgres.Ends (next value) middle outcome after) ∨
      ∃ error, outcome = .error error ∧ postgres.Ends first session (.error error) after :=
  Server.ends_bind

theorem ends_return {first : Work Value} {wrap : Value → Final} {result : Final}
    (ended : postgres.Ends (first >>= fun value => pure (wrap value)) session (.ok result) after) :
    ∃ value, result = wrap value ∧ postgres.Ends first session (.ok value) after := by
  rcases ends_then.mp ended with ⟨value, middle, began, same, rfl⟩ | ⟨_, isError, _⟩
  · cases same
    exact ⟨value, rfl, began⟩
  · cases isError

theorem step_quiet {statement : Statement} {next : Answer statement → Work Final}
    {connection : Connection} {value : World → Env → Answer statement}
    (performs : ∀ world env others, perform world env others () session.connection statement =
      some (.ok (value world env), (), connection))
    (ended : postgres.Ends (send statement >>= next) session outcome after) :
    ∃ entry : Sent, entry.statement = statement ∧ entry.connection = session.connection ∧
      postgres.Ends (next (value entry.world entry.env)) (session.sent connection entry) outcome
        after := by
  obtain ⟨entry, answer, _, _, isStatement, asked, performed, rest⟩ :=
    Server.ends_send_bind ended
  have same := (performs entry.world entry.env entry.others).symm.trans performed
  cases same
  rcases rest with ⟨_, isOk, rest⟩ | ⟨_, isError, _⟩
  · cases isOk
    exact ⟨entry, isStatement, asked, rest⟩
  · cases isError

theorem step_execute {write : Write} {next : Unit → Work Final}
    (ended : postgres.Ends (send (.execute write) >>= next) session outcome after) :
    (∃ error, outcome = .error error) ∨
      ∃ (entry : Sent) (connection : Connection),
        Session.writes (session.sent connection entry) = Session.writes session ++ [write] ∧
        postgres.Ends (next ()) (session.sent connection entry) outcome after := by
  obtain ⟨entry, answer, _, connection, _, _, performed, rest⟩ := Server.ends_send_bind ended
  rcases rest with ⟨_, rfl, rest⟩ | ⟨error, _, isError, _⟩
  · refine .inr ⟨entry, connection, ?_, rest⟩
    change executeWrite _ _ _ _ _ = _ at performed
    unfold executeWrite at performed
    split at performed
    · cases performed
    · split at performed
      · cases performed
      · split at performed
        · cases performed
        · cases performed
          exact Journal.writes_append _ _
  · exact .inl ⟨error, isError⟩

theorem ends_execute {write : Write}
    (ended : postgres.Ends (send (.execute write)) session (.ok ()) after) :
    Session.writes after = Session.writes session ++ [write] := by
  have sequence : postgres.Ends (send (.execute write) >>= fun done => pure done) session (.ok ())
      after :=
    ends_then.mpr (.inl ⟨(), after, ended, rfl, rfl⟩)
  rcases step_execute sequence with ⟨_, isError⟩ | ⟨entry, connection, appended, _, rfl⟩
  · cases isError
  · exact appended

theorem sent_trace {connection : Connection} {entry : Sent} :
    (session.sent connection entry).trace = session.trace ++ [entry] :=
  rfl

theorem mem_after {program : Work Final} {entry : Sent}
    (ended : postgres.Ends program session outcome after) (member : entry ∈ session.trace) :
    entry ∈ after.trace :=
  (Server.ends_trace ended).subset member

theorem sends_writes {statement : Statement} {answer : Except Error (Answer statement)}
    (sends : postgres.Sends statement session answer after) :
    Session.writes session <+: Session.writes after := by
  obtain ⟨world, env, others, memory, connection, _, performed, rfl⟩ := sends
  rcases perform_journal performed with same | ⟨write, _, _, _, appended⟩
  · change _ <+: Journal.writes connection.journal
    rw [same]
    exact List.prefix_rfl
  · change _ <+: Journal.writes connection.journal
    rw [appended, Journal.writes_append]
    exact List.prefix_append _ _

theorem ends_writes {program : Work Final} (ended : postgres.Ends program session outcome after) :
    Session.writes session <+: Session.writes after := by
  have kept : postgres.Preserves (fun later => Session.writes session <+: Session.writes later)
      program := by
    exact Server.preserves_any (fun sent before => before.trans (sends_writes sent))
      (fun _ before => before) program
  exact kept session outcome after ended List.prefix_rfl

end Statements

/-! ### Pages -/

section Pages

variable {after : Session}

theorem view_of_fresh {connection : Connection} (fresh : connection.journal = []) (db : Db) :
    connection.view db = db := by
  rw [Connection.view, fresh]
  rfl

theorem step_getUser {session : Session} {Final : Type} {outcome : Except Error Final}
    {id companyId : Uuid} {next : Option AccountUser → Work Final}
    (fresh : session.connection.journal = [])
    (pinned : session.connection.currentCompany = some companyId)
    (ended : postgres.Ends (send (.getUser id) >>= next) session outcome after) :
    ∃ load : Sent, load.statement = .getUser id ∧
      postgres.Ends (next ((load.world.db.users.find id).filter fun row =>
        companyId = row.companyId)) (session.sent session.connection load) outcome after := by
  obtain ⟨load, isLoad, _, ended⟩ := step_quiet (fun _ _ _ => rfl) ended
  refine ⟨load, isLoad, ?_⟩
  have visible : ((session.connection.view load.world.db).users.find id).filter
      (fun row => session.connection.currentCompany = some row.companyId) =
        (load.world.db.users.find id).filter fun row => companyId = row.companyId := by
    rw [view_of_fresh fresh, pinned]
    simp
  rw [← visible]
  exact ended

theorem resolveSession_ends {session : Session} {token : Str} {row : UserSession}
    (fresh : session.connection.journal = [])
    (ended : postgres.Ends (resolveSession hashToken token) session (.ok (some row)) after) :
    after.connection.journal = [] ∧
      (∃ look ∈ after.trace, look.statement = .sessionByToken (hashToken token) ∧
        row ∈ look.world.db.sessions ∧ row.tokenHash = hashToken token ∧ row.revokedAt = none) ∧
      ∃ clock ∈ after.trace, clock.statement = .now ∧ clock.env.now < row.expiresAt := by
  unfold resolveSession at ended
  obtain ⟨look, isLook, asked, ended⟩ := step_quiet (fun _ _ _ => rfl) ended
  rw [view_of_fresh fresh] at ended
  cases found : look.world.db.sessions.rows.find? fun row =>
      row.tokenHash = hashToken token with
  | none =>
      rw [found] at ended
      cases ended.1
  | some stored =>
      rw [found] at ended
      simp only at ended
      split at ended
      · cases ended.1
      rename_i unrevoked
      obtain ⟨clock, isClock, _, ended⟩ := step_quiet (fun _ _ _ => rfl) ended
      split at ended
      · cases ended.1
      rename_i inTime
      obtain ⟨same, rfl⟩ := Server.ends_done.mp ended
      cases same
      refine ⟨fresh, ⟨look, by simp [sent_trace], isLook, List.mem_of_find?_eq_some found,
        by simpa using List.find?_some found, by simpa using unrevoked⟩, clock,
        by simp [sent_trace], isClock, not_le.mp inTime⟩

/-- What a page has seen before its handler starts. -/
structure Admits (hashToken : Str → Str) (token : Str) (user : AccountUser) (row : UserSession)
    (look load : Sent) : Prop where
  asks : look.statement = .sessionByToken (hashToken token)
  stored : row ∈ look.world.db.sessions
  presented : row.tokenHash = hashToken token
  unrevoked : row.revokedAt = none
  loads : load.statement = .getUser row.accountUserId
  loaded : user ∈ load.world.db.users
  id : user.id = row.accountUserId
  companyId : user.companyId = row.companyId
  active : user.isActive = true

theorem getTenantContext_ends {token : Str} {user : AccountUser} {row : UserSession}
    (ended : postgres.Ends (getTenantContext hashToken token) Session.new (.ok (user, row))
      after) :
    ∃ look ∈ after.trace, ∃ load ∈ after.trace, Admits hashToken token user row look load ∧
      ∃ clock ∈ after.trace, clock.statement = .now ∧ clock.env.now < row.expiresAt := by
  unfold getTenantContext at ended
  split at ended
  · cases ended.1
  rcases ends_then.mp ended with ⟨found, middle, resolved, ended⟩ | ⟨_, isError, _⟩
  swap
  · cases isError
  cases found with
  | none => cases ended.1
  | some userSession =>
      obtain ⟨fresh, ⟨look, looked, isLook, stored, isToken, unrevoked⟩, clock, read, isClock,
        inTime⟩ := resolveSession_ends rfl resolved
      obtain ⟨pinned, _, _, ended⟩ := step_quiet (fun _ _ _ => rfl) ended
      obtain ⟨load, isLoad, ended⟩ := step_getUser (by exact fresh) rfl ended
      cases visible : (load.world.db.users.find userSession.accountUserId).filter fun row =>
          userSession.companyId = row.companyId with
      | none =>
          rw [visible] at ended
          cases ended.1
      | some account =>
          rw [visible] at ended
          simp only at ended
          split at ended
          · cases ended.1
          rename_i active
          obtain ⟨same, rfl⟩ := Server.ends_done.mp ended
          cases same
          obtain ⟨isAccount, own⟩ := Option.filter_eq_some_iff.mp visible
          obtain ⟨member, isId⟩ := Table.find_eq_some.mp isAccount
          refine ⟨look, ?_, load, ?_, ⟨isLook, stored, isToken, unrevoked, isLoad, member, isId,
            (of_decide_eq_true own).symm, by simpa using active⟩, clock, ?_, isClock, inTime⟩
          · simp [sent_trace, looked]
          · simp [sent_trace]
          · simp [sent_trace, read]

theorem page_ends {token : Str} {result : Result}
    (ended : postgres.Ends (Request.body hashToken (.page token)) Session.new (.ok result) after) :
    ∃ user row, result = .context user row ∧
      ∃ look ∈ after.trace, ∃ load ∈ after.trace, Admits hashToken token user row look load ∧
        ∃ clock ∈ after.trace, clock.statement = .now ∧ clock.env.now < row.expiresAt := by
  obtain ⟨⟨user, row⟩, rfl, served⟩ := ends_return ended
  exact ⟨user, row, rfl, getTenantContext_ends served⟩

end Pages

/-! ### Logouts and tombstones -/

section Closing

variable {session after : Session}

theorem revokeSession_ends {token : Str}
    (ended : postgres.Ends (revokeSession hashToken token) Session.new (.ok ()) after) :
    ∃ look ∈ after.trace, look.statement = .sessionByToken (hashToken token) ∧
      ∀ row ∈ look.world.db.sessions, row.tokenHash = hashToken token →
        UniqueTokens look.world.db → row.revokedAt.isSome = true ∨
          ∃ now, Write.revokeSessions [row.id] now ∈ Session.writes after := by
  unfold revokeSession at ended
  obtain ⟨look, isLook, asked, ended⟩ := step_quiet (fun _ _ _ => rfl) ended
  rw [view_of_fresh rfl] at ended
  refine ⟨look, mem_after ended (by simp [sent_trace]), isLook, fun row member isToken unique => ?_⟩
  cases found : look.world.db.sessions.rows.find? fun row =>
      row.tokenHash = hashToken token with
  | none =>
      have absent := List.find?_eq_none.mp found row member
      exact absurd (decide_eq_true isToken) absent
  | some stored =>
      have isStored : stored = row :=
        unique stored (List.mem_of_find?_eq_some found) row member
          ((by simpa using List.find?_some found : stored.tokenHash = hashToken token).trans
            isToken.symm)
      rw [found, isStored] at ended
      simp only at ended
      split at ended
      · obtain ⟨clock, _, _, ended⟩ := step_quiet (fun _ _ _ => rfl) ended
        refine .inr ⟨clock.env.now, ?_⟩
        rw [ends_execute ended]
        simp
      · rename_i isRevoked
        exact .inl (by simpa [Option.isSome_iff_ne_none] using isRevoked)

theorem tombstoneCompany_ends {companyId : Uuid}
    (ended : postgres.Ends (tombstoneCompany companyId) session (.ok ()) after) :
    ∃ read ∈ after.trace, read.statement = .companyUsers companyId ∧
      ∀ user ∈ read.world.db.users, user.companyId = companyId →
        Write.anonymizeUser user.id ∈ Session.writes after := by
  unfold tombstoneCompany at ended
  obtain ⟨clock, _, _, ended⟩ := step_quiet (fun _ _ _ => rfl) ended
  obtain ⟨read, isRead, asked, ended⟩ := step_quiet (fun _ _ _ => rfl) ended
  refine ⟨read, mem_after ended (by simp [sent_trace]), isRead, fun user member own => ?_⟩
  rcases ends_then.mp ended with ⟨_, middle, loop, last⟩ | ⟨_, isError, _⟩
  · -- the transaction sees the account under what it has written itself
    obtain ⟨seen, seenIn, later⟩ :=
      (Follows.after read.world.db (Session.writes session)).users user member
    have listed : seen ∈ ((session.connection.view read.world.db).users.rows.filter fun row =>
        row.companyId = companyId) :=
      List.mem_filter.mpr ⟨seenIn, decide_eq_true (later.companyId.trans own)⟩
    obtain ⟨_, rest, before, next, _, executed, remaining⟩ :=
      Server.ends_forEach_mem loop listed
    have written : Write.anonymizeUser seen.id ∈ Session.writes next := by
      rw [ends_execute executed]
      simp
    have kept := (ends_writes remaining).trans (ends_writes last)
    rw [← later.id]
    exact kept.subset written
  · cases isError

end Closing

/-! ### Sessions are opened by logins and signups -/

section Opening

variable {session after : Session}

theorem createSession_ends {userId companyId : Uuid} {raw : Str}
    (ended : postgres.Ends (createSession hashToken userId companyId) session (.ok raw) after) :
    ∃ row : UserSession, Session.writes after = Session.writes session ++ [.insertSession row] ∧
      row.accountUserId = userId ∧ row.companyId = companyId ∧ row.tokenHash = hashToken raw := by
  unfold createSession at ended
  obtain ⟨drawn, _, _, ended⟩ := step_quiet (fun _ _ _ => rfl) ended
  obtain ⟨clock, _, _, ended⟩ := step_quiet (fun _ _ _ => rfl) ended
  obtain ⟨pinned, _, _, ended⟩ := step_quiet (fun _ _ _ => rfl) ended
  obtain ⟨isId, _, _, ended⟩ := step_quiet (fun _ _ _ => rfl) ended
  rcases step_execute ended with ⟨_, isError⟩ | ⟨_, _, inserted, ended⟩
  · cases isError
  · obtain ⟨same, rfl⟩ := Server.ends_done.mp ended
    cases same
    exact ⟨_, inserted, rfl, rfl, rfl⟩

theorem insertAccount_ends {user : AccountUser} {id : Uuid}
    (ended : postgres.Ends (insertAccount user) session (.ok id) after) :
    Session.writes after =
      Session.writes session ++ [.insertUser { user with id := id, isActive := true }] := by
  unfold insertAccount at ended
  obtain ⟨pinned, _, _, ended⟩ := step_quiet (fun _ _ _ => rfl) ended
  obtain ⟨isId, _, _, ended⟩ := step_quiet (fun _ _ _ => rfl) ended
  rcases step_execute ended with ⟨_, isError⟩ | ⟨_, _, inserted, ended⟩
  · cases isError
  · obtain ⟨same, rfl⟩ := Server.ends_done.mp ended
    cases same
    exact inserted

/-- The transaction has opened no session. -/
def Session.OpensNone (session : Session) : Prop :=
  ∀ row, Write.insertSession row ∉ Session.writes session

theorem opensNone_send {statement : Statement}
    (other : ∀ row, ¬ statement.Executes (.insertSession row)) :
    postgres.Preserves Session.OpensNone (send statement) := by
  refine Server.preserves_send fun earlier answer later sent none row member => ?_
  obtain ⟨world, env, others, memory, connection, _, performed, rfl⟩ := sent
  change _ ∈ Journal.writes connection.journal at member
  rcases perform_journal performed with same | ⟨write, executes, _, _, appended⟩
  · rw [same] at member
    exact none row member
  · rw [appended, Journal.writes_append] at member
    rcases List.mem_append.mp member with old | new
    · exact none row old
    · have isWrite : Write.insertSession row = write := by simpa [Journal.writes] using new
      exact other row (isWrite ▸ executes)

theorem opensNone_page (token : Str) :
    postgres.Preserves Session.OpensNone (getTenantContext hashToken token) := by
  have resolves : postgres.Preserves Session.OpensNone (resolveSession hashToken token) := by
    refine Server.preserves_bind (opensNone_send fun _ executes => executes) fun found => ?_
    cases found with
    | none => exact Server.preserves_done _
    | some row =>
        simp only
        split
        · exact Server.preserves_done _
        · refine Server.preserves_bind (opensNone_send fun _ executes => executes) fun now => ?_
          split
          · exact Server.preserves_done _
          · exact Server.preserves_done _
  unfold getTenantContext
  split
  · exact Server.preserves_raise _
  · refine Server.preserves_bind resolves fun found => ?_
    cases found with
    | none => exact Server.preserves_raise _
    | some row =>
        refine Server.preserves_bind (opensNone_send fun _ executes => executes) fun _ => ?_
        refine Server.preserves_bind (opensNone_send fun _ executes => executes) fun loaded => ?_
        cases loaded with
        | none => exact Server.preserves_raise _
        | some user =>
            simp only
            split
            · exact Server.preserves_raise _
            · exact Server.preserves_done _

theorem opensNone_logout (token : Str) :
    postgres.Preserves Session.OpensNone (revokeSession hashToken token) := by
  refine Server.preserves_bind (opensNone_send fun _ executes => executes) fun found => ?_
  cases found with
  | none => exact Server.preserves_done _
  | some row =>
      simp only
      split
      · refine Server.preserves_bind (opensNone_send fun _ executes => executes) fun now => ?_
        refine opensNone_send fun _ executes => ?_
        cases executes
      · exact Server.preserves_done _

theorem opensNone_tombstone (companyIds : List Uuid) :
    postgres.Preserves Session.OpensNone (forEach companyIds tombstoneCompany) := by
  refine Server.preserves_forEach fun companyId _ => ?_
  refine Server.preserves_bind (opensNone_send fun _ executes => executes) fun now => ?_
  refine Server.preserves_bind (opensNone_send fun _ executes => executes) fun users => ?_
  refine Server.preserves_bind ?_ fun _ => opensNone_send fun row executes => ?_
  · refine Server.preserves_forEach fun user _ => opensNone_send fun row executes => ?_
    cases executes
  · obtain ⟨ids, same⟩ := executes
    cases same

/-- The login or the signup that has handed out the token of a session. A signup opens it
for the account that it has inserted itself, with the id the database gave it. -/
structure Opens (hashToken : Str → Str) (request : Request) (result : Result) (after : Session)
    (row : UserSession) : Prop where
  token : ∃ raw, result = .opened raw ∧ row.tokenHash = hashToken raw
  request : request = .login row.accountUserId row.companyId ∨
    ∃ user, request = .signup user ∧ row.companyId = user.companyId ∧
      Write.insertUser { user with id := row.accountUserId, isActive := true } ∈
        Session.writes after

theorem opens_of_insert {request : Request} {result : Result}
    (ended : postgres.Ends (Request.body hashToken request) Session.new (.ok result) after)
    {row : UserSession} (inserted : Write.insertSession row ∈ Session.writes after) :
    Opens hashToken request result after row := by
  have nothing : Session.OpensNone Session.new := fun row member => absurd member List.not_mem_nil
  cases request with
  | signup user =>
      obtain ⟨raw, rfl, opened⟩ := ends_return ended
      rcases ends_then.mp opened with ⟨id, middle, account, opened⟩ | ⟨_, isError, _⟩
      · have first := insertAccount_ends account
        obtain ⟨own, second, owner, company, token⟩ := createSession_ends opened
        rw [second, first] at inserted
        have isOwn : row = own := by
          simpa [Session.writes, Session.new, Journal.writes] using inserted
        rw [isOwn]
        refine ⟨⟨raw, rfl, token⟩, .inr ⟨user, rfl, company, ?_⟩⟩
        rw [second, first, owner]
        simp
      · cases isError
  | acceptInvitation user =>
      obtain ⟨id, rfl, account⟩ := ends_return ended
      rw [insertAccount_ends account] at inserted
      simp [Session.writes, Session.new, Journal.writes] at inserted
  | login userId companyId =>
      obtain ⟨raw, rfl, opened⟩ := ends_return ended
      obtain ⟨own, only, isUser, isCompany, token⟩ := createSession_ends opened
      rw [only] at inserted
      have isOwn : row = own := by
        simpa [Session.writes, Session.new, Journal.writes] using inserted
      rw [isOwn]
      exact ⟨⟨raw, rfl, token⟩, .inl (by rw [isUser, isCompany])⟩
  | logout token =>
      have kept : postgres.Preserves Session.OpensNone
          (Request.body hashToken (.logout token)) := by
        unfold Request.body
        simp only
        split
        · exact Server.preserves_bind (opensNone_logout token) fun _ => Server.preserves_done _
        · exact Server.preserves_done _
      exact absurd inserted (kept _ _ _ ended nothing row)
  | page token =>
      have kept : postgres.Preserves Session.OpensNone (Request.body hashToken (.page token)) :=
        Server.preserves_bind (opensNone_page token) fun _ => Server.preserves_done _
      exact absurd inserted (kept _ _ _ ended nothing row)
  | tombstone companyIds =>
      have kept : postgres.Preserves Session.OpensNone
          (Request.body hashToken (.tombstone companyIds)) :=
        Server.preserves_bind (opensNone_tombstone companyIds) fun _ => Server.preserves_done _
      exact absurd inserted (kept _ _ _ ended nothing row)

end Opening

/-! ### What a commit leaves behind -/

section Commits

variable {db : Db} {writes : List Write}

theorem anonymized_after {row : AccountUser} (member : row ∈ db.users)
    (executed : Write.anonymizeUser row.id ∈ writes) :
    ∃ later ∈ (db.after writes).users, UserLater row later ∧ later.isActive = false := by
  obtain ⟨before, rest, rfl⟩ := List.append_of_mem executed
  obtain ⟨middle, middleIn, toMiddle⟩ := (Follows.after db before).users row member
  have changed : anonymized middle ∈
      ((Write.anonymizeUser row.id).apply (db.after before)).users := by
    refine (Table.mem_update (by simp)).mpr ⟨middle, middleIn, ?_⟩
    rw [if_pos]
    exact toMiddle.id
  have becomes : UserLater middle (anonymized middle) := ⟨rfl, rfl, fun _ => rfl⟩
  obtain ⟨later, laterIn, toLater⟩ := (Follows.after _ rest).users _ changed
  rw [Db.after_append]
  exact ⟨later, laterIn, (toMiddle.trans becomes).trans toLater, toLater.inactive rfl⟩

theorem revoked_after {row : UserSession} {now : Instant} (member : row ∈ db.sessions)
    (executed : Write.revokeSessions [row.id] now ∈ writes) :
    ∃ later ∈ (db.after writes).sessions, SessionLater row later ∧
      later.revokedAt.isSome = true := by
  obtain ⟨before, rest, rfl⟩ := List.append_of_mem executed
  obtain ⟨middle, middleIn, toMiddle⟩ := (Follows.after db before).sessions row member
  have changed : revoked now middle ∈
      ((Write.revokeSessions [row.id] now).apply (db.after before)).sessions := by
    refine mem_revokeAll.mpr ⟨middle, middleIn, ?_⟩
    rw [if_pos]
    exact List.mem_singleton.mpr toMiddle.id
  have becomes : SessionLater middle (revoked now middle) :=
    ⟨rfl, rfl, rfl, rfl, rfl, fun _ => rfl⟩
  obtain ⟨later, laterIn, toLater⟩ := (Follows.after _ rest).sessions _ changed
  rw [Db.after_append]
  exact ⟨later, laterIn, (toMiddle.trans becomes).trans toLater, toLater.revoked rfl⟩

theorem sessions_from {row : UserSession} (member : row ∈ (db.after writes).sessions) :
    ∃ first, SessionLater first row ∧
      (first ∈ db.sessions ∨ Write.insertSession first ∈ writes) := by
  induction writes using List.reverseRecOn generalizing row with
  | nil => exact ⟨row, .refl row, .inl member⟩
  | append_singleton before write inductionHypothesis =>
      rw [Db.after_append] at member
      have earlier : ∀ old ∈ (db.after before).sessions, ∃ first, SessionLater first old ∧
          (first ∈ db.sessions ∨ Write.insertSession first ∈ before ++ [write]) := by
        intro old oldIn
        obtain ⟨first, later, origin⟩ := inductionHypothesis oldIn
        exact ⟨first, later, origin.imp_right (List.mem_append_left _)⟩
      cases write with
      | insertUser _ => exact earlier row member
      | anonymizeUser _ => exact earlier row member
      | insertSession new =>
          rcases Table.mem_insert.mp member with old | ⟨rfl, _⟩
          · exact earlier row old
          · exact ⟨row, .refl row, .inr (by simp)⟩
      | revokeSessions ids now =>
          obtain ⟨old, oldIn, rfl⟩ := mem_revokeAll.mp member
          obtain ⟨first, later, origin⟩ := earlier old oldIn
          refine ⟨first, later.trans ?_, origin⟩
          split
          · exact ⟨rfl, rfl, rfl, rfl, rfl, fun _ => rfl⟩
          · exact .refl old

end Commits

section Runs

variable {world : World} {config : Requests}

theorem leave_committed {done : Done} {result : Result}
    (committed : done.outcome = some (.ok result)) :
    ((access hashToken).leave done).db = done.world.db.after (Session.writes done.transaction) := by
  unfold Engine.leave
  rw [committed]
  rfl

theorem read_follows {done : Done} {result : Result}
    (sound : Sound (access hashToken) .unrestricted readCommitted
      (fun world => UniqueTokens world.db) Evolves config)
    (member : done ∈ config.ended) (committed : done.outcome = some (.ok result)) {entry : Sent}
    (inTrace : entry ∈ done.transaction.trace) :
    UniqueTokens entry.world.db ∧ Follows entry.world.db done.world.db := by
  obtain ⟨_, commits⟩ := (sound.concluded done member).commits committed
  obtain ⟨unique, _, _, _, later⟩ := commits.chain.seen entry inTrace
  exact ⟨unique, later.follows⟩

/-- From its commit on, a logout has revoked the session that it has found. -/
theorem logout_revokes {done : Done} {token : Str}
    (sound : Sound (access hashToken) .unrestricted readCommitted
      (fun world => UniqueTokens world.db) Evolves config)
    (member : done ∈ config.ended) (isLogout : done.request = .logout token) (present : token ≠ [])
    (committed : done.outcome = some (.ok .loggedOut)) :
    ∃ asked ∈ done.transaction.trace, asked.statement = .sessionByToken (hashToken token) ∧
      ∀ row ∈ asked.world.db.sessions, row.tokenHash = hashToken token →
        ∃ later ∈ ((access hashToken).leave done).db.sessions, SessionLater row later ∧
          later.revokedAt.isSome = true := by
  obtain ⟨_, commits⟩ := (sound.concluded done member).commits committed
  have ended : postgres.Ends (Request.body hashToken done.request) Session.new (.ok .loggedOut)
      done.transaction := commits.ends
  rw [isLogout] at ended
  unfold Request.body at ended
  simp only at ended
  split at ended
  swap
  · rename_i isEmpty
    exact absurd (by simpa using isEmpty) present
  obtain ⟨_, _, revoking⟩ := ends_return ended
  obtain ⟨asked, inTrace, isAsked, closes⟩ := revokeSession_ends revoking
  refine ⟨asked, inTrace, isAsked, fun row rowIn isToken => ?_⟩
  obtain ⟨unique, follows⟩ := read_follows sound member committed inTrace
  obtain ⟨middle, middleIn, toMiddle⟩ := follows.sessions row rowIn
  rw [leave_committed committed]
  rcases closes row rowIn isToken unique with before | ⟨now, executed⟩
  · obtain ⟨later, laterIn, toLater⟩ :=
      (Follows.after done.world.db (Session.writes done.transaction)).sessions middle middleIn
    exact ⟨later, laterIn, toMiddle.trans toLater, toLater.revoked (toMiddle.revoked before)⟩
  · rw [← toMiddle.id] at executed
    obtain ⟨later, laterIn, toLater, isRevoked⟩ := revoked_after middleIn executed
    exact ⟨later, laterIn, toMiddle.trans toLater, isRevoked⟩

/-- From its commit on, a tombstone has deactivated the accounts that it has found. -/
theorem tombstone_deactivates {done : Done} {companyIds : List Uuid} {companyId : Uuid}
    (sound : Sound (access hashToken) .unrestricted readCommitted
      (fun world => UniqueTokens world.db) Evolves config)
    (member : done ∈ config.ended) (isTombstone : done.request = .tombstone companyIds)
    (inside : companyId ∈ companyIds) (committed : done.outcome = some (.ok .tombstoned)) :
    ∃ read ∈ done.transaction.trace, read.statement = .companyUsers companyId ∧
      ∀ user ∈ read.world.db.users, user.companyId = companyId →
        ∃ later ∈ ((access hashToken).leave done).db.users, UserLater user later ∧
          later.isActive = false := by
  obtain ⟨_, commits⟩ := (sound.concluded done member).commits committed
  have ended : postgres.Ends (Request.body hashToken done.request) Session.new (.ok .tombstoned)
      done.transaction := commits.ends
  rw [isTombstone] at ended
  obtain ⟨_, _, loop⟩ := ends_return ended
  obtain ⟨_, rest, _, middle, _, one, remaining⟩ := Server.ends_forEach_mem loop inside
  obtain ⟨read, readIn, isRead, anonymizes⟩ := tombstoneCompany_ends one
  have inTrace := mem_after remaining readIn
  refine ⟨read, inTrace, isRead, fun user userIn own => ?_⟩
  obtain ⟨_, follows⟩ := read_follows sound member committed inTrace
  obtain ⟨stored, storedIn, toStored⟩ := follows.users user userIn
  have executed := (ends_writes remaining).subset (anonymizes user userIn own)
  rw [← toStored.id] at executed
  rw [leave_committed committed]
  obtain ⟨later, laterIn, toLater, inactive⟩ := anonymized_after storedIn executed
  exact ⟨later, laterIn, toStored.trans toLater, inactive⟩

structure SameSession (row other : UserSession) : Prop where
  id : other.id = row.id
  accountUserId : other.accountUserId = row.accountUserId
  companyId : other.companyId = row.companyId
  tokenHash : other.tokenHash = row.tokenHash
  expiresAt : other.expiresAt = row.expiresAt

theorem SameSession.of_later {row other later : UserSession} (one : SessionLater row later)
    (two : SessionLater other later) : SameSession row other :=
  ⟨two.id.symm.trans one.id, two.accountUserId.symm.trans one.accountUserId,
    two.companyId.symm.trans one.companyId, two.tokenHash.symm.trans one.tokenHash,
    two.expiresAt.symm.trans one.expiresAt⟩

/-- Every session was there at the start or was opened in the run. -/
theorem sessions_opened (unique : UniqueTokens world.db)
    (reached : Reachable (access hashToken) .unrestricted ⟨world, [], []⟩ config)
    {row : UserSession} (member : row ∈ config.world.db.sessions) :
    ∃ first, SessionLater first row ∧ (first ∈ world.db.sessions ∨
      ∃ done ∈ config.ended, ∃ result, done.outcome = some (.ok result) ∧
        Opens hashToken done.request result done.transaction first) := by
  have same := (reached.log access_journalled (access_laws hashToken) access_discipline
    (.quiet unique) rfl).2
  have sound := (Sound.reachable (access_laws hashToken) access_discipline (.quiet unique)
    reached).1
  change config.world.db = world.db.after _ at same
  rw [same] at member
  obtain ⟨first, later, origin⟩ := sessions_from member
  refine ⟨first, later, origin.imp_right fun inLog => ?_⟩
  obtain ⟨done, doneIn, ⟨result, committed⟩, inserted⟩ := Config.mem_log.mp inLog
  obtain ⟨_, commits⟩ := (sound.concluded done doneIn).commits committed
  exact ⟨done, doneIn, result, committed, opens_of_insert commits.ends inserted⟩

/-! ### Access -/

/-- Why a page was served: its session was open when the page looked it up, its user active
when the page loaded it, and neither a logout nor a tombstone that was over by then had found
them. -/
structure Entitled (hashToken : Str → Str) (world : World) (config : Requests) (page : Done)
    (token : Str) (user : AccountUser) (row : UserSession) (look load : Sent) : Prop where
  looked : look ∈ page.transaction.trace
  loaded : load ∈ page.transaction.trace
  admits : Admits hashToken token user row look load
  inTime : ∃ clock ∈ page.transaction.trace, clock.statement = .now ∧
    clock.env.now < row.expiresAt
  opened : ∃ first, SameSession first row ∧ (first ∈ world.db.sessions ∨
    ∃ done ∈ config.ended, ∃ result, done.outcome = some (.ok result) ∧
      Opens hashToken done.request result done.transaction first)
  logouts : ∀ done ∈ config.ended, ∀ other, done.request = .logout other → other ≠ [] →
    hashToken other = hashToken token → done.outcome = some (.ok .loggedOut) →
    look.world.clock < done.world.clock ∨
      ∃ asked ∈ done.transaction.trace, asked.statement = .sessionByToken (hashToken token) ∧
        ¬ Taken asked.world.db.sessions UserSession.tokenHash (hashToken token)
  tombstones : ∀ done ∈ config.ended, ∀ companyIds, done.request = .tombstone companyIds →
    user.companyId ∈ companyIds → done.outcome = some (.ok .tombstoned) →
    load.world.clock < done.world.clock ∨
      ∃ read ∈ done.transaction.trace, read.statement = .companyUsers user.companyId ∧
        ∀ account ∈ read.world.db.users, account.companyId = user.companyId →
          account.id ≠ user.id

/-- **Access is sound.** Whatever is interleaved, a page is served only to a user that is
entitled to it. -/
theorem access_sound (unique : UniqueTokens world.db)
    (reached : Reachable (access hashToken) .unrestricted ⟨world, [], []⟩ config) {page : Done}
    (member : page ∈ config.ended) {token : Str} (isPage : page.request = .page token)
    {user : AccountUser} {row : UserSession}
    (served : page.outcome = some (.ok (.context user row))) :
    ∃ look load, Entitled hashToken world config page token user row look load := by
  have sound := (Sound.reachable (access_laws hashToken) access_discipline (.quiet unique)
    reached).1
  have timeline := reached.timeline access_clocked (access_laws hashToken) access_discipline unique
  obtain ⟨_, commits⟩ := (sound.concluded page member).commits served
  have ended : postgres.Ends (Request.body hashToken page.request) Session.new
      (.ok (.context user row)) page.transaction := commits.ends
  rw [isPage] at ended
  obtain ⟨_, _, same, look, looked, load, loaded, admits, inTime⟩ := page_ends ended
  cases same
  obtain ⟨uniqueThen, lookFollows⟩ := read_follows sound member served looked
  have concluded := (sound.concluded page member).1
  refine ⟨look, load, looked, loaded, admits, inTime, ?_, ?_, ?_⟩
  · -- the session has stayed until now, so it is in the log of the run
    obtain ⟨later, laterIn, toLater⟩ :=
      (lookFollows.trans concluded.follows).sessions row admits.stored
    obtain ⟨first, fromFirst, origin⟩ := sessions_opened unique reached laterIn
    exact ⟨first, .of_later fromFirst toLater, origin⟩
  · intro done doneIn other isLogout present sameHash committed
    rcases timeline.ordered done doneIn look (.inr ⟨page, member, looked⟩) with before | follows
    · exact .inl before
    · obtain ⟨asked, inTrace, isAsked, closes⟩ :=
        logout_revokes sound doneIn isLogout present committed
      refine .inr ⟨asked, inTrace, sameHash ▸ isAsked, ?_⟩
      rintro ⟨found, foundIn, isToken⟩
      obtain ⟨left, leftIn, toLeft, isRevoked⟩ := closes found foundIn (isToken.trans sameHash.symm)
      obtain ⟨later, laterIn, toLater⟩ := follows.follows.sessions left leftIn
      have isRow : later = row := uniqueThen later laterIn row admits.stored
        (((toLater.tokenHash.trans toLeft.tokenHash).trans isToken).trans admits.presented.symm)
      have stillRevoked := toLater.revoked isRevoked
      rw [isRow, admits.unrevoked] at stillRevoked
      cases stillRevoked
  · intro done doneIn companyIds isTombstone inside committed
    rcases timeline.ordered done doneIn load (.inr ⟨page, member, loaded⟩) with before | follows
    · exact .inl before
    · obtain ⟨read, inTrace, isRead, closes⟩ :=
        tombstone_deactivates sound doneIn isTombstone inside committed
      refine .inr ⟨read, inTrace, isRead, fun account accountIn own sameId => ?_⟩
      obtain ⟨left, leftIn, toLeft, inactive⟩ := closes account accountIn own
      obtain ⟨later, laterIn, toLater⟩ := follows.follows.users left leftIn
      have isUser : later = user :=
        Table.eq_of_key laterIn admits.loaded ((toLater.id.trans toLeft.id).trans sameId)
      have stillInactive := toLater.inactive inactive
      rw [isUser, admits.active] at stillInactive
      cases stillInactive

end Runs

/-! ### A day -/

/-- The OWNER of a signup, before the database has given it an id. -/
def newOwner : AccountUser where
  id := ⟨0⟩
  companyId := ⟨7⟩
  email := "owner@co.de".toList
  role := .owner
  phoneE164 := none
  isActive := true
  passwordHash := none

def emptyWorld : World :=
  ⟨⟨Table.empty, Table.empty⟩, 0⟩

def dayRun (first steps : Nat) : List (Library.Choice Env Request) :=
  (List.range steps).map fun step =>
    .run 0 ⟨((first + step : Nat) : Int), ⟨BitVec.ofNat 128 (first + step)⟩, ['t']⟩

def day : List (Library.Choice Env Request) :=
  .start (.signup newOwner) :: dayRun 1 8 ++ .finish 0 :: .start (.page ['t']) :: dayRun 9 4 ++
    .finish 0 :: .start (.logout ['t']) :: dayRun 13 3 ++ [.finish 0]

def Done.serves (token : Str) (done : Done) : Bool :=
  match done.request, done.outcome with
  | .page asked, some (.ok (.context _ _)) => asked = token
  | _, _ => false

theorem Done.serves_iff {token : Str} {done : Done} : Done.serves token done = true ↔
    done.request = .page token ∧ ∃ user row, done.outcome = some (.ok (.context user row)) := by
  unfold Done.serves
  split
  · rename_i asked user row isPage served
    simp [isPage, served]
  · rename_i other
    constructor
    · intro impossible
      cases impossible
    · rintro ⟨isPage, user, row, served⟩
      exact absurd served (other _ _ _ isPage)

/-- The page is served. -/
theorem access_sound_day :
    ∃ config page user row look load, (access id).schedule ⟨emptyWorld, [], []⟩ day = some config ∧
      page ∈ config.ended ∧ Entitled id emptyWorld config page ['t'] user row look load := by
  have found : ((access id).schedule ⟨emptyWorld, [], []⟩ day).any (fun config =>
      config.ended.any (Done.serves ['t'])) = true := by decide +kernel
  obtain ⟨config, ran, stands⟩ := (Option.any_eq_true _ _).mp found
  obtain ⟨page, member, isServed⟩ := List.any_eq_true.mp stands
  obtain ⟨isPage, user, row, served⟩ := Done.serves_iff.mp isServed
  have unique : UniqueTokens emptyWorld.db := fun first firstIn => absurd firstIn List.not_mem_nil
  obtain ⟨look, load, entitled⟩ :=
    access_sound unique (Reachable.of_schedule ran) member isPage served
  exact ⟨config, page, user, row, look, load, ran, member, entitled⟩

end Fristenwaechter.Sessions
