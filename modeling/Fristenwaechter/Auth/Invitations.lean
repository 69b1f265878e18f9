import Fristenwaechter.Auth.Accounts

/-!
Owns where accounts come from: in every interleaving each company has the one OWNER of
its signup, and every other account is the only one made from its invitation. The check
of `accepted_at` takes no lock; two acceptances of one invitation collide on the unique
email of the account.
-/

namespace Fristenwaechter.Accounts

open Library (Table Journal Server Engine Entry Transaction Ended Config Choice Policy Chain Over
  Commits Discipline Sound Reachable)

abbrev Session := Transaction World Unit Connection Statement Env

abbrev Sent := Entry World Unit Connection Statement Env

abbrev Done := Ended World Unit Connection Statement Env Error Request Result

abbrev Calls := Config World Unit Connection Statement Answer Env Error Request Result

def Session.writes (session : Session) : List Write :=
  session.connection.journal.writes

/-! ### Statements -/

section Statements

variable {session after : Session} {Final : Type} {outcome : Except Error Final}

def Session.sent (session : Session) (connection : Connection) (entry : Sent) : Session :=
  ⟨(), connection, session.trace ++ [entry]⟩

theorem ends_then {Value : Type} {first : Work Value} {next : Value → Work Final} :
    postgres.Ends (first >>= next) session outcome after ↔
      (∃ value middle, postgres.Ends first session (.ok value) middle ∧
        postgres.Ends (next value) middle outcome after) ∨
      ∃ error, outcome = .error error ∧ postgres.Ends first session (.error error) after :=
  Server.ends_bind

theorem step_send {statement : Statement} {next : Answer statement → Work Final}
    (ended : postgres.Ends (send statement >>= next) session outcome after) :
    ∃ entry : Sent, ∃ answer connection, entry.statement = statement ∧
      perform entry.world entry.env entry.others () session.connection statement =
        some (answer, (), connection) ∧
      ((∃ value, answer = .ok value ∧
          postgres.Ends (next value) (session.sent connection entry) outcome after) ∨
        ∃ error, answer = .error error ∧ outcome = .error error ∧
          after = session.sent connection entry) := by
  rcases ends_then.mp ended with ⟨value, middle, first, rest⟩ | ⟨error, same, first⟩
  · obtain ⟨world, env, others, _, connection, _, performed, rfl⟩ := Server.ends_send.mp first
    exact ⟨⟨world, others, (), session.connection, statement, env⟩, _, connection, rfl, performed,
      .inl ⟨value, rfl, rest⟩⟩
  · obtain ⟨world, env, others, _, connection, _, performed, rfl⟩ := Server.ends_send.mp first
    exact ⟨⟨world, others, (), session.connection, statement, env⟩, _, connection, rfl, performed,
      .inr ⟨error, rfl, same, rfl⟩⟩

theorem ends_return {Value : Type} {first : Work Value} {wrap : Value → Final} {result : Final}
    (ended : postgres.Ends (first >>= fun value => pure (wrap value)) session (.ok result) after) :
    ∃ value, result = wrap value ∧ postgres.Ends first session (.ok value) after := by
  rcases ends_then.mp ended with ⟨value, middle, began, same, rfl⟩ | ⟨_, isError, _⟩
  · cases same
    exact ⟨value, rfl, began⟩
  · cases isError

theorem step_quiet {statement : Statement} {next : Answer statement → Work Final}
    {connection : Connection} {value : World → Env → Answer statement}
    (performs : ∀ world env others, perform world env others () session.connection statement =
      some (.ok (value world env), (), connection))
    (ended : postgres.Ends (send statement >>= next) session outcome after) :
    ∃ entry : Sent, entry.statement = statement ∧
      postgres.Ends (next (value entry.world entry.env)) (session.sent connection entry)
        outcome after := by
  obtain ⟨entry, answer, connection', same, performed, rest⟩ := step_send ended
  rw [performs] at performed
  cases performed
  rcases rest with ⟨_, isOk, rest⟩ | ⟨_, isError, _⟩
  · cases isOk
    exact ⟨entry, same, rest⟩
  · cases isError

theorem writes_sent {connection : Connection} {entry : Sent} {world : World} {write : Write}
    (appended : connection.journal = session.connection.journal ++ [(world, .write write)]) :
    Session.writes (session.sent connection entry) = Session.writes session ++ [write] := by
  change Journal.writes connection.journal = _
  rw [appended, Journal.writes_append]
  rfl

theorem step_execute {write : Write} {next : Unit → Work Final}
    (ended : postgres.Ends (send (.execute write) >>= next) session outcome after) :
    (∃ error, outcome = .error error) ∨
      ∃ (entry : Sent) (connection : Connection),
        write.check (session.connection.view entry.world.db) = .ok () ∧
        Session.writes (session.sent connection entry) = Session.writes session ++ [write] ∧
        postgres.Ends (next ()) (session.sent connection entry) outcome after := by
  obtain ⟨entry, answer, connection, _, performed, rest⟩ := step_send ended
  rcases rest with ⟨_, rfl, rest⟩ | ⟨error, _, isError, _⟩
  · simp only [perform] at performed
    split at performed
    · cases performed
    · split at performed
      · cases performed
      · split at performed
        · cases performed
        · rename_i valid
          cases performed
          exact .inr ⟨entry, _, valid, writes_sent rfl, rest⟩
  · exact .inl ⟨error, isError⟩

theorem sent_trace {connection : Connection} {entry : Sent} :
    (session.sent connection entry).trace = session.trace ++ [entry] :=
  rfl

end Statements

/-! ### What a committed transaction has done -/

section Deeds

variable (primitives : Primitives)

/-- A signup has made the company and its OWNER. -/
structure Founds (request : Request) (session : Session) (result : Result) (company : Company)
    (owner : AccountUser) : Prop where
  request : ∃ companyName ownerEmail password phoneE164,
    request = .signup companyName ownerEmail password phoneE164
  result : result = .signedUp company.id owner.id
  writes : Session.writes session = [.insertCompany company, .insertUser owner]
  companyId : owner.companyId = company.id
  role : owner.role = .owner

/-- An invitation has been created as it was asked for. -/
structure Invites (request : Request) (session : Session) (result : Result) (inv : Invitation) :
    Prop where
  request : ∃ email, request = .createInvitation inv.companyId email inv.role ∧
    inv.email = primitives.normalizeEmail email
  result : ∃ rawToken, result = .invited inv.id rawToken ∧
    inv.tokenHash = primitives.hashToken rawToken
  writes : Session.writes session = [.insertInvitation inv]
  role : inv.role ≠ .owner

/-- An account has been made from an invitation that was read unused, by somebody who
presented its token and read the clock before it expired. -/
structure Accepts (request : Request) (session : Session) (result : Result) (inv : Invitation)
    (user : AccountUser) : Prop where
  request : ∃ rawToken password, request = .acceptInvitation rawToken password ∧
    inv.tokenHash = primitives.hashToken rawToken
  result : result = .accepted user.id
  read : ∃ entry ∈ session.trace, inv ∈ entry.world.db.invitations
  unused : inv.acceptedAt = none
  free : ∃ entry ∈ session.trace, ¬ Taken entry.world.db.users AccountUser.email inv.email
  inTime : ∃ entry ∈ session.trace, entry.statement = .now ∧ entry.env.now < inv.expiresAt
  writes : ∃ acceptedAt,
    Session.writes session = [.insertUser user, .acceptInvitation inv acceptedAt]
  companyId : user.companyId = inv.companyId
  email : user.email = inv.email
  role : user.role = inv.role

variable {primitives}

def Session.new : Session :=
  ⟨(), ⟨[], none⟩, []⟩

theorem signup_ends {companyName ownerEmail password : Str} {phoneE164 : Option Str}
    {ids : Uuid × Uuid} {after : Session}
    (ended : postgres.Ends (signup primitives companyName ownerEmail password phoneE164)
      Session.new (.ok ids) after) :
    ∃ company owner, Founds (.signup companyName ownerEmail password phoneE164) after
      (.signedUp ids.1 ids.2) company owner := by
  unfold signup at ended
  obtain ⟨isCompanyId, _, ended⟩ := step_quiet (fun _ _ _ => rfl) ended
  obtain ⟨pinned, _, ended⟩ := step_quiet (fun _ _ _ => rfl) ended
  rcases step_execute ended with ⟨_, isError⟩ | ⟨_, _, _, company, ended⟩
  · cases isError
  obtain ⟨salted, _, ended⟩ := step_quiet (fun _ _ _ => rfl) ended
  obtain ⟨isOwnerId, _, ended⟩ := step_quiet (fun _ _ _ => rfl) ended
  rcases step_execute ended with ⟨_, isError⟩ | ⟨_, _, _, owner, ended⟩
  · cases isError
  obtain ⟨same, rfl⟩ := Server.ends_done.mp ended
  cases same
  refine ⟨_, _, ⟨_, _, _, _, rfl⟩, rfl, owner.trans (congrArg (· ++ _) company), rfl, rfl⟩

theorem createInvitation_ends {companyId : Uuid} {email : Str} {role : Role}
    {created : Uuid × Str} {after : Session}
    (ended : postgres.Ends (createInvitation primitives companyId email role) Session.new
      (.ok created) after) :
    ∃ inv, Invites primitives (.createInvitation companyId email role) after
      (.invited created.1 created.2) inv := by
  unfold createInvitation at ended
  split at ended
  · cases ended.1
  · rename_i notOwner
    obtain ⟨drawn, _, ended⟩ := step_quiet (fun _ _ _ => rfl) ended
    obtain ⟨clock, _, ended⟩ := step_quiet (fun _ _ _ => rfl) ended
    obtain ⟨isId, _, ended⟩ := step_quiet (fun _ _ _ => rfl) ended
    rcases step_execute ended with ⟨_, isError⟩ | ⟨_, _, _, inserted, ended⟩
    · cases isError
    obtain ⟨same, rfl⟩ := Server.ends_done.mp ended
    cases same
    exact ⟨_, ⟨_, rfl, rfl⟩, ⟨_, rfl, rfl⟩, inserted, notOwner⟩

theorem acceptInvitation_ends {rawToken password : Str} {userId : Uuid} {after : Session}
    (ended : postgres.Ends (acceptInvitation primitives rawToken password) Session.new
      (.ok userId) after) :
    ∃ inv user, Accepts primitives (.acceptInvitation rawToken password) after
      (.accepted userId) inv user := by
  unfold acceptInvitation at ended
  obtain ⟨read, _, ended⟩ := step_quiet (fun _ _ _ => rfl) ended
  cases found : (Session.new.connection.view read.world.db).invitations.rows.find? fun row =>
      row.tokenHash = primitives.hashToken rawToken with
  | none =>
      rw [found] at ended
      cases ended.1
  | some inv =>
      rw [found] at ended
      simp only at ended
      split at ended
      · cases ended.1
      rename_i unused
      obtain ⟨clock, isClock, ended⟩ := step_quiet (fun _ _ _ => rfl) ended
      split at ended
      · cases ended.1
      rename_i inTime
      obtain ⟨pinned, _, ended⟩ := step_quiet (fun _ _ _ => rfl) ended
      obtain ⟨salted, _, ended⟩ := step_quiet (fun _ _ _ => rfl) ended
      obtain ⟨stamped, _, ended⟩ := step_quiet (fun _ _ _ => rfl) ended
      obtain ⟨isUserId, _, ended⟩ := step_quiet (fun _ _ _ => rfl) ended
      rcases step_execute ended with ⟨_, isError⟩ | ⟨insert, _, valid, inserted, ended⟩
      · cases isError
      rcases step_execute ended with ⟨_, isError⟩ | ⟨_, _, _, updated, ended⟩
      · cases isError
      obtain ⟨same, rfl⟩ := Server.ends_done.mp ended
      cases same
      have member : inv ∈ read.world.db.invitations := List.mem_of_find?_eq_some found
      have free : ¬ Taken insert.world.db.users AccountUser.email inv.email := by
        simp only [Write.check, Write.demand_eq_ok, Bool.and_eq_true, unique_iff] at valid
        exact valid.2.1.2
      refine ⟨inv, _, ⟨_, _, rfl, by simpa using List.find?_some found⟩, rfl,
        ⟨read, by simp [sent_trace], member⟩, by simpa using unused,
        ⟨insert, by simp [sent_trace], free⟩,
        ⟨clock, by simp [sent_trace], isClock, not_le.mp inTime⟩,
        ⟨_, updated.trans (congrArg (· ++ _) inserted)⟩, rfl, rfl, rfl⟩

theorem openSession_ends {userId : Uuid} {token : Str} {after : Session}
    (ended : postgres.Ends (openSession primitives userId) Session.new (.ok token) after) :
    ∃ row, Session.writes after = [.insertSession row] := by
  unfold openSession at ended
  obtain ⟨loaded, _, ended⟩ := step_quiet (fun _ _ _ => rfl) ended
  split at ended
  · unfold createSession at ended
    obtain ⟨drawn, _, ended⟩ := step_quiet (fun _ _ _ => rfl) ended
    obtain ⟨clock, _, ended⟩ := step_quiet (fun _ _ _ => rfl) ended
    obtain ⟨pinned, _, ended⟩ := step_quiet (fun _ _ _ => rfl) ended
    obtain ⟨isId, _, ended⟩ := step_quiet (fun _ _ _ => rfl) ended
    rcases step_execute ended with ⟨_, isError⟩ | ⟨_, _, _, inserted, ended⟩
    · cases isError
    obtain ⟨same, rfl⟩ := Server.ends_done.mp ended
    exact ⟨_, inserted⟩
  · cases ended.1

/-- What a committed transaction can have done. -/
theorem committed_cases {request : Request} {result : Result} {after : Session}
    (ended : postgres.Ends (request.body primitives) Session.new (.ok result) after) :
    (∃ company owner, Founds request after result company owner) ∨
      (∃ inv, Invites primitives request after result inv) ∨
      (∃ inv user, Accepts primitives request after result inv user) ∨
      ∃ row, Session.writes after = [.insertSession row] := by
  cases request with
  | signup companyName ownerEmail password phoneE164 =>
      obtain ⟨ids, rfl, first⟩ := ends_return ended
      exact .inl (signup_ends first)
  | createInvitation companyId email role =>
      obtain ⟨created, rfl, first⟩ := ends_return ended
      exact .inr (.inl (createInvitation_ends first))
  | acceptInvitation rawToken password =>
      obtain ⟨userId, rfl, first⟩ := ends_return ended
      exact .inr (.inr (.inl (acceptInvitation_ends first)))
  | openSession userId =>
      obtain ⟨token, rfl, first⟩ := ends_return ended
      exact .inr (.inr (.inr (openSession_ends first)))

end Deeds

/-! ### The discipline -/

/-- The later row is the same invitation, used or not. -/
structure SameInvitation (inv later : Invitation) : Prop where
  id : later.id = inv.id
  companyId : later.companyId = inv.companyId
  email : later.email = inv.email
  role : later.role = inv.role
  expiresAt : later.expiresAt = inv.expiresAt

theorem SameInvitation.refl (inv : Invitation) : SameInvitation inv inv :=
  ⟨rfl, rfl, rfl, rfl, rfl⟩

theorem SameInvitation.accepted (inv : Invitation) (acceptedAt : Instant) :
    SameInvitation inv (accepted acceptedAt inv) :=
  ⟨rfl, rfl, rfl, rfl, rfl⟩

theorem SameInvitation.trans {first second third : Invitation} (one : SameInvitation first second)
    (two : SameInvitation second third) : SameInvitation first third :=
  ⟨two.id.trans one.id, two.companyId.trans one.companyId, two.email.trans one.email,
    two.role.trans one.role, two.expiresAt.trans one.expiresAt⟩

theorem SameInvitation.symm {inv later : Invitation} (same : SameInvitation inv later) :
    SameInvitation later inv :=
  ⟨same.id.symm, same.companyId.symm, same.email.symm, same.role.symm, same.expiresAt.symm⟩

/-- Nobody is invited as OWNER, and every account belongs to a company. -/
structure Tidy (db : Db) : Prop where
  roles : ∀ inv ∈ db.invitations, inv.role ≠ .owner
  companies : ∀ user ∈ db.users, ∃ company ∈ db.companies, company.id = user.companyId

/-- Companies, accounts and invitations stay. -/
structure Grows (before after : Db) : Prop where
  companies : ∀ company ∈ before.companies, company ∈ after.companies
  users : ∀ user ∈ before.users, user ∈ after.users
  invitations : Table.Carries SameInvitation before.invitations after.invitations

theorem Grows.refl (db : Db) : Grows db db :=
  ⟨fun _ member => member, fun _ member => member, Table.Carries.refl SameInvitation.refl _⟩

theorem Grows.trans {first second third : Db} (one : Grows first second)
    (two : Grows second third) : Grows first third :=
  ⟨fun company member => two.companies company (one.companies company member),
    fun user member => two.users user (one.users user member),
    one.invitations.trans (fun earlier later => earlier.trans later) two.invitations⟩

theorem Grows.apply (write : Write) (db : Db) : Grows db (write.apply db) := by
  cases write with
  | insertCompany row =>
      exact { Grows.refl db with
        companies := fun company member => Table.mem_insert.mpr (.inl member) }
  | insertUser row =>
      exact { Grows.refl db with users := fun user member => Table.mem_insert.mpr (.inl member) }
  | insertInvitation row =>
      exact { Grows.refl db with invitations := Table.Carries.insert SameInvitation.refl _ row }
  | acceptInvitation loaded acceptedAt =>
      exact { Grows.refl db with
        invitations := Table.Carries.update SameInvitation.refl (by simp) fun row _ _ =>
          .accepted row acceptedAt }
  | insertSession row => exact { Grows.refl db with }

theorem Grows.writes (writes : List Write) (db : Db) :
    Grows db (writes.foldl (fun current write => write.apply current) db) := by
  induction writes generalizing db with
  | nil => exact .refl db
  | cons write rest inductionHypothesis =>
      exact (Grows.apply write db).trans (inductionHypothesis (write.apply db))

theorem Tidy.apply {write : Write} {db : Db} (tidy : Tidy db) (valid : write.check db = .ok ())
    (roles : ∀ row, write = .insertInvitation row → row.role ≠ .owner) :
    Tidy (write.apply db) := by
  cases write with
  | insertCompany row =>
      refine ⟨tidy.roles, fun user member => ?_⟩
      obtain ⟨company, companyIn, same⟩ := tidy.companies user member
      exact ⟨company, Table.mem_insert.mpr (.inl companyIn), same⟩
  | insertUser row =>
      refine ⟨tidy.roles, fun user member => ?_⟩
      rcases Table.mem_insert.mp member with old | ⟨rfl, _⟩
      · exact tidy.companies user old
      · simp only [Write.check, Write.demand_eq_ok] at valid
        obtain ⟨company, found⟩ := Option.isSome_iff_exists.mp valid.2.2.1
        exact ⟨company, Table.mem_of_find found, Table.key_of_find found⟩
  | insertInvitation row =>
      refine ⟨fun inv member => ?_, tidy.companies⟩
      rcases Table.mem_insert.mp member with old | ⟨rfl, _⟩
      · exact tidy.roles inv old
      · exact roles inv rfl
  | acceptInvitation loaded acceptedAt =>
      refine ⟨fun inv member => ?_, tidy.companies⟩
      obtain ⟨old, oldIn, rfl⟩ := (Table.mem_update (by simp)).mp member
      split <;> exact tidy.roles old oldIn
  | insertSession row => exact { tidy with }

theorem committed_roles {primitives : Primitives} {request : Request} {result : Result}
    {after : Session}
    (ended : postgres.Ends (request.body primitives) Session.new (.ok result) after)
    {row : Invitation} (member : .insertInvitation row ∈ Session.writes after) :
    row.role ≠ .owner := by
  rcases committed_cases ended with ⟨_, _, founds⟩ | ⟨inv, invites⟩ | ⟨_, _, accepts⟩ |
    ⟨_, opened⟩
  · simp [founds.writes] at member
  · rw [invites.writes] at member
    cases List.mem_singleton.mp member
    exact invites.role
  · obtain ⟨acceptedAt, writes⟩ := accepts.writes
    simp [writes] at member
  · simp [opened] at member

/-- The writes leave a tidy database tidy. -/
def KeepsTidy (_ : List Write) (before after : Db) : Prop :=
  Tidy before → Tidy after

theorem Tidy.replays {writes : List Write} {db : Db} (tidy : Tidy db)
    (roles : ∀ row, .insertInvitation row ∈ writes → row.role ≠ .owner)
    (replays : Journal.Replays writes db) :
    Tidy (writes.foldl (fun current write => write.apply current) db) := by
  suffices kept : KeepsTidy writes db _ from kept tidy
  refine Journal.Replays.fold (fun _ tidy => tidy) ?_ replays
  intro done write middle inside step valid before
  refine (step before).apply valid fun row isInvitation => roles row (inside.subset ?_)
  simp [isInvitation]

variable {primitives : Primitives}

theorem accounts_discipline :
    Discipline (accounts primitives) .unrestricted readCommitted (fun world => Tidy world.db)
      fun before after => Grows before.db after.db where
  refl world := Grows.refl world.db
  trans := Grows.trans
  advance := fun tidy _ => ⟨tidy, Grows.refl _⟩
  commit := by
    intro request start transaction result now commits
    exact ⟨commits.nowInv.replays (fun row => committed_roles commits.ends) commits.chain.ready,
      Grows.writes _ _⟩

/-! ### Where accounts come from -/

def Done.Founded (done : Done) (company : Company) (owner : AccountUser) : Prop :=
  ∃ result, done.outcome = some (.ok result) ∧
    Founds done.request done.transaction result company owner

variable (primitives) in
def Done.Invited (done : Done) (inv : Invitation) : Prop :=
  ∃ result, done.outcome = some (.ok result) ∧
    Invites primitives done.request done.transaction result inv

variable (primitives) in
def Done.Accepted (done : Done) (inv : Invitation) (user : AccountUser) : Prop :=
  ∃ result, done.outcome = some (.ok result) ∧
    Accepts primitives done.request done.transaction result inv user

variable (primitives) in
/-- What the history says about the tables. -/
structure Provenance (world : World) (history : List Done) : Prop where
  companies : ∀ company ∈ world.db.companies, ∃ done ∈ history, ∃ owner,
    Done.Founded done company owner ∧ ∀ user ∈ world.db.users,
      user.companyId = company.id → (user.role = .owner ↔ user = owner)
  owners : ∀ done ∈ history, ∀ company owner, Done.Founded done company owner →
    company ∈ world.db.companies ∧ owner ∈ world.db.users
  invitations : ∀ inv ∈ world.db.invitations, ∃ done ∈ history, ∃ created,
    Done.Invited primitives done created ∧ SameInvitation created inv
  users : ∀ user ∈ world.db.users, ∃ done ∈ history,
    (∃ company, Done.Founded done company user) ∨ ∃ inv, Done.Accepted primitives done inv user
  acceptances : ∀ done ∈ history, ∀ inv user, Done.Accepted primitives done inv user →
    user ∈ world.db.users ∧ ∃ later ∈ world.db.invitations, SameInvitation inv later
  single : history.Pairwise fun earlier later => ∀ first second user other,
    Done.Accepted primitives earlier first user → Done.Accepted primitives later second other →
      first.id ≠ second.id

section Histories

variable {now : World} {history : List Done} {done : Done}

theorem Done.Founded.writes {company : Company} {owner : AccountUser}
    (founded : Done.Founded done company owner) :
    Session.writes done.transaction = [.insertCompany company, .insertUser owner] := by
  obtain ⟨_, _, founds⟩ := founded
  exact founds.writes

theorem Done.Accepted.writes {inv : Invitation} {user : AccountUser}
    (accepted : Done.Accepted primitives done inv user) :
    ∃ acceptedAt, Session.writes done.transaction =
      [.insertUser user, .acceptInvitation inv acceptedAt] := by
  obtain ⟨_, _, accepts⟩ := accepted
  exact accepts.writes

theorem Provenance.idle {later : World} (known : Provenance primitives now history)
    (companies : later.db.companies = now.db.companies) (users : later.db.users = now.db.users)
    (invited : ∀ inv ∈ later.db.invitations, inv ∈ now.db.invitations ∨
      Done.Invited primitives done inv)
    (stays : ∀ inv ∈ now.db.invitations, inv ∈ later.db.invitations)
    (founded : ∀ company owner, ¬ Done.Founded done company owner)
    (accepted : ∀ inv user, ¬ Done.Accepted primitives done inv user) :
    Provenance primitives later (history ++ [done]) where
  companies := by
    rw [companies, users]
    intro company member
    obtain ⟨origin, inHistory, rest⟩ := known.companies company member
    exact ⟨origin, List.mem_append_left _ inHistory, rest⟩
  owners := by
    rw [companies, users]
    intro origin inHistory company owner made
    rcases List.mem_append.mp inHistory with old | new
    · exact known.owners origin old company owner made
    · exact absurd (List.mem_singleton.mp new ▸ made) (founded company owner)
  invitations := by
    intro inv member
    rcases invited inv member with old | new
    · obtain ⟨origin, inHistory, rest⟩ := known.invitations inv old
      exact ⟨origin, List.mem_append_left _ inHistory, rest⟩
    · exact ⟨done, by simp, inv, new, .refl inv⟩
  users := by
    rw [users]
    intro user member
    obtain ⟨origin, inHistory, rest⟩ := known.users user member
    exact ⟨origin, List.mem_append_left _ inHistory, rest⟩
  acceptances := by
    rw [users]
    intro origin inHistory inv user made
    rcases List.mem_append.mp inHistory with old | new
    · obtain ⟨there, later, laterIn, same⟩ := known.acceptances origin old inv user made
      exact ⟨there, later, stays later laterIn, same⟩
    · exact absurd (List.mem_singleton.mp new ▸ made) (accepted inv user)
  single := by
    refine List.pairwise_append.mpr ⟨known.single, List.pairwise_singleton _ _, ?_⟩
    intro _ _ later new first second user other _ made
    exact absurd (List.mem_singleton.mp new ▸ made) (accepted second other)

theorem Provenance.founds {company : Company} {owner : AccountUser} (tidy : Tidy now.db)
    (known : Provenance primitives now history) (founded : Done.Founded done company owner)
    (ready : Journal.Replays (Session.writes done.transaction) now.db) :
    Provenance primitives
      ⟨{ now.db with
          companies := now.db.companies.insert company
          users := now.db.users.insert owner }, now.clock⟩ (history ++ [done]) := by
  obtain ⟨result, isResult, founds⟩ := id founded
  rw [founds.writes] at ready
  obtain ⟨newCompany, newOwner, _⟩ := ready
  change Write.check _ _ = .ok () at newCompany newOwner
  simp only [Write.check, Write.demand_eq_ok, Bool.and_eq_true, Option.isNone_iff_eq_none]
    at newCompany newOwner
  have freeCompany : now.db.companies.find company.id = none := newCompany.2.1
  have freeOwner : now.db.users.find owner.id = none := newOwner.2.1.1
  have noCompany : ∀ other ∈ now.db.companies, other.id ≠ company.id :=
    Table.find_eq_none.mp freeCompany
  have notAccepted : ∀ inv user, ¬ Done.Accepted primitives done inv user := by
    intro inv user accepted
    obtain ⟨_, writes⟩ := accepted.writes
    cases founds.writes.symm.trans writes
  refine ⟨?_, ?_, ?_, ?_, ?_, ?_⟩
  · intro other member
    rcases Table.mem_insert.mp member with old | ⟨rfl, _⟩
    · obtain ⟨origin, inHistory, first, made, only⟩ := known.companies other old
      refine ⟨origin, List.mem_append_left _ inHistory, first, made, fun user userIn same => ?_⟩
      rcases Table.mem_insert.mp userIn with there | ⟨rfl, _⟩
      · exact only user there same
      · exact absurd (same.symm.trans founds.companyId) (noCompany other old)
    · refine ⟨done, by simp, owner, founded, fun user userIn same => ?_⟩
      rcases Table.mem_insert.mp userIn with there | ⟨rfl, _⟩
      · obtain ⟨home, homeIn, isHome⟩ := tidy.companies user there
        exact absurd (isHome.trans same) (noCompany home homeIn)
      · simp [founds.role]
  · intro origin inHistory other first made
    rcases List.mem_append.mp inHistory with old | new
    · obtain ⟨there, present⟩ := known.owners origin old other first made
      exact ⟨Table.mem_insert.mpr (.inl there), Table.mem_insert.mpr (.inl present)⟩
    · obtain ⟨_, _, again⟩ := List.mem_singleton.mp new ▸ made
      have same := again.writes.symm.trans founds.writes
      simp only [List.cons.injEq, Write.insertCompany.injEq, Write.insertUser.injEq] at same
      obtain ⟨rfl, rfl, _⟩ := same
      exact ⟨Table.mem_insert.mpr (.inr ⟨rfl, freeCompany⟩),
        Table.mem_insert.mpr (.inr ⟨rfl, freeOwner⟩)⟩
  · intro inv member
    obtain ⟨origin, inHistory, rest⟩ := known.invitations inv member
    exact ⟨origin, List.mem_append_left _ inHistory, rest⟩
  · intro user member
    rcases Table.mem_insert.mp member with old | ⟨rfl, _⟩
    · obtain ⟨origin, inHistory, rest⟩ := known.users user old
      exact ⟨origin, List.mem_append_left _ inHistory, rest⟩
    · exact ⟨done, by simp, .inl ⟨company, founded⟩⟩
  · intro origin inHistory inv user made
    rcases List.mem_append.mp inHistory with old | new
    · obtain ⟨there, rest⟩ := known.acceptances origin old inv user made
      exact ⟨Table.mem_insert.mpr (.inl there), rest⟩
    · exact absurd (List.mem_singleton.mp new ▸ made) (notAccepted inv user)
  · refine List.pairwise_append.mpr ⟨known.single, List.pairwise_singleton _ _, ?_⟩
    intro _ _ later new first second user other _ made
    exact absurd (List.mem_singleton.mp new ▸ made) (notAccepted second other)

/-- An acceptance is added: its account has an email that no earlier account has, so no
earlier account was made from the same invitation. -/
theorem Provenance.accepts {inv current : Invitation} {user : AccountUser} {acceptedAt : Instant}
    (known : Provenance primitives now history)
    (made : Done.Accepted primitives done inv user)
    (writes : Session.writes done.transaction =
      [.insertUser user, .acceptInvitation inv acceptedAt])
    (role : inv.role ≠ .owner) (currentIn : current ∈ now.db.invitations)
    (same : SameInvitation inv current)
    (ready : Journal.Replays (Session.writes done.transaction) now.db) :
    Provenance primitives
      ⟨{ now.db with
          users := now.db.users.insert user
          invitations := now.db.invitations.update inv.id (accepted acceptedAt) }, now.clock⟩
      (history ++ [done]) := by
  obtain ⟨result, isResult, accepts⟩ := id made
  rw [writes] at ready
  have valid : Write.check now.db (.insertUser user) = .ok () := ready.1
  simp only [Write.check, Write.demand_eq_ok, Bool.and_eq_true, Option.isNone_iff_eq_none,
    unique_iff] at valid
  have freeUser : now.db.users.find user.id = none := valid.2.1.1
  have freeEmail : ¬ Taken now.db.users AccountUser.email user.email := valid.2.1.2
  have notFounded : ∀ company owner, ¬ Done.Founded done company owner := by
    intro company owner founded
    cases writes.symm.trans founded.writes
  have only : ∀ other account, Done.Accepted primitives done other account →
      other = inv ∧ account = user := by
    intro other account again
    obtain ⟨_, isWrites⟩ := again.writes
    have agree := isWrites.symm.trans writes
    simp only [List.cons.injEq, Write.insertUser.injEq, Write.acceptInvitation.injEq] at agree
    exact ⟨agree.2.1.1, agree.1⟩
  have stays : ∀ row ∈ now.db.invitations,
      ∃ later ∈ now.db.invitations.update inv.id (accepted acceptedAt), SameInvitation row later :=
    Table.Carries.update SameInvitation.refl (by simp) fun row _ _ => .accepted row acceptedAt
  refine ⟨?_, ?_, ?_, ?_, ?_, ?_⟩
  · intro company member
    obtain ⟨origin, inHistory, owner, founded, owners⟩ := known.companies company member
    refine ⟨origin, List.mem_append_left _ inHistory, owner, founded, fun account there own => ?_⟩
    rcases Table.mem_insert.mp there with old | ⟨rfl, _⟩
    · exact owners account old own
    · have present := (known.owners origin inHistory company owner founded).2
      refine iff_of_false (fun isOwner => role (accepts.role.symm.trans isOwner)) ?_
      rintro rfl
      exact Table.find_eq_none.mp freeUser _ present rfl
  · intro origin inHistory company owner founded
    rcases List.mem_append.mp inHistory with old | new
    · obtain ⟨there, present⟩ := known.owners origin old company owner founded
      exact ⟨there, Table.mem_insert.mpr (.inl present)⟩
    · exact absurd (List.mem_singleton.mp new ▸ founded) (notFounded company owner)
  · intro row member
    obtain ⟨old, oldIn, rfl⟩ := (Table.mem_update (by simp)).mp member
    obtain ⟨origin, inHistory, created, invited, follows⟩ := known.invitations old oldIn
    refine ⟨origin, List.mem_append_left _ inHistory, created, invited, ?_⟩
    split
    · exact follows.trans (.accepted old acceptedAt)
    · exact follows
  · intro account member
    rcases Table.mem_insert.mp member with old | ⟨rfl, _⟩
    · obtain ⟨origin, inHistory, rest⟩ := known.users account old
      exact ⟨origin, List.mem_append_left _ inHistory, rest⟩
    · exact ⟨done, by simp, .inr ⟨inv, made⟩⟩
  · intro origin inHistory other account taken
    rcases List.mem_append.mp inHistory with old | new
    · obtain ⟨there, later, laterIn, follows⟩ := known.acceptances origin old other account taken
      obtain ⟨last, lastIn, next⟩ := stays later laterIn
      exact ⟨Table.mem_insert.mpr (.inl there), last, lastIn, follows.trans next⟩
    · obtain ⟨rfl, rfl⟩ := only other account (List.mem_singleton.mp new ▸ taken)
      obtain ⟨last, lastIn, next⟩ := stays current currentIn
      exact ⟨Table.mem_insert.mpr (.inr ⟨rfl, freeUser⟩), last, lastIn, same.trans next⟩
  · refine List.pairwise_append.mpr ⟨known.single, List.pairwise_singleton _ _, ?_⟩
    intro earlier old last new first second account other taken again sameId
    obtain ⟨rfl, rfl⟩ := only second other (List.mem_singleton.mp new ▸ again)
    obtain ⟨there, later, laterIn, follows⟩ := known.acceptances earlier old first account taken
    obtain ⟨_, _, took⟩ := taken
    have one : later = current := Table.eq_of_key laterIn currentIn
      (follows.id.trans (sameId.trans same.id.symm))
    refine freeEmail ⟨account, there, ?_⟩
    rw [took.email, ← follows.email, one, same.email, accepts.email]

/-- Every end of a transaction keeps the tables explained. -/
theorem Provenance.leave
    (isOver : Over (accounts primitives) .unrestricted readCommitted (fun world => Tidy world.db)
      (fun before after => Grows before.db after.db) done.world done)
    (known : Provenance primitives done.world history) :
    Provenance primitives ((accounts primitives).leave done) (history ++ [done]) := by
  have failed : (∀ result, done.outcome ≠ some (.ok result)) →
      Provenance primitives done.world (history ++ [done]) := by
    intro noResult
    refine known.idle rfl rfl (fun inv => .inl) (fun inv member => member) ?_ ?_
    · rintro _ _ ⟨result, isResult, _⟩
      exact noResult result isResult
    · rintro _ _ ⟨result, isResult, _⟩
      exact noResult result isResult
  unfold Engine.leave
  cases isOutcome : done.outcome with
  | none => exact failed (by simp [isOutcome])
  | some outcome =>
      cases outcome with
      | error error => exact failed (by simp [isOutcome])
      | ok result =>
          obtain ⟨start, commits⟩ := isOver.commits isOutcome
          have ready : Journal.Replays (Session.writes done.transaction) done.world.db :=
            commits.chain.ready
          have left : (accounts primitives).commit done.world done.transaction.connection =
              ⟨(Session.writes done.transaction).foldl (fun current write => write.apply current)
                done.world.db, done.world.clock⟩ := rfl
          change Provenance primitives ((accounts primitives).commit _ _) _
          rw [left]
          rcases committed_cases commits.ends with ⟨company, owner, founds⟩ | ⟨inv, invites⟩ |
            ⟨inv, user, accepts⟩ | ⟨row, opened⟩
          · have founded := known.founds commits.nowInv ⟨result, isOutcome, founds⟩ ready
            rw [founds.writes]
            exact founded
          · rw [invites.writes]
            refine known.idle rfl rfl ?_ ?_ ?_ ?_
            · intro other member
              rcases Table.mem_insert.mp member with old | ⟨rfl, _⟩
              · exact .inl old
              · exact .inr ⟨result, isOutcome, invites⟩
            · exact fun other member => Table.mem_insert.mpr (.inl member)
            · intro company owner founded
              cases invites.writes.symm.trans founded.writes
            · intro other user accepted
              obtain ⟨_, writes⟩ := accepted.writes
              cases invites.writes.symm.trans writes
          · obtain ⟨acceptedAt, writes⟩ := accepts.writes
            obtain ⟨entry, entryIn, read⟩ := accepts.read
            obtain ⟨tidy, _, _, _, grows⟩ := commits.chain.seen entry entryIn
            obtain ⟨current, currentIn, same⟩ := grows.invitations inv read
            have accepted := known.accepts ⟨result, isOutcome, accepts⟩ writes
              (tidy.roles inv read) currentIn same ready
            rw [writes]
            exact accepted
          · rw [opened]
            refine known.idle rfl rfl (fun inv => .inl) (fun inv member => member) ?_ ?_
            · intro company owner founded
              cases opened.symm.trans founded.writes
            · intro other user accepted
              obtain ⟨_, writes⟩ := accepted.writes
              cases opened.symm.trans writes

end Histories

theorem Provenance.reachable {clock : Instant} {config : Calls}
    (reached : Reachable (accounts primitives) .unrestricted ⟨⟨Db.empty, clock⟩, [], []⟩ config) :
    Provenance primitives config.world config.ended := by
  have sound : Sound (accounts primitives) .unrestricted readCommitted
      (fun world => Tidy world.db) (fun before after => Grows before.db after.db)
      ⟨⟨Db.empty, clock⟩, [], []⟩ :=
    .quiet ⟨by simp [Db.empty, Table.mem_iff, Table.empty],
      by simp [Db.empty, Table.mem_iff, Table.empty]⟩
  refine Sound.recorded (accounts_laws primitives) accounts_discipline ?_ Provenance.leave sound ?_
    reached
  · intro world env ended _ _ known
    exact { known with }
  · constructor <;> simp [Db.empty, Table.mem_iff, Table.empty]

/-- **Ownership and single use.** In every interleaving each company has exactly one
OWNER, the one of its signup; every other account is a MANAGER's or a VIEWER's and was
made from an invitation, as it was asked for and before it expired; and no two accounts
were ever made from one invitation. -/
theorem owners_and_invitations {clock : Instant} {config : Calls}
    (reached : Reachable (accounts primitives) .unrestricted ⟨⟨Db.empty, clock⟩, [], []⟩ config) :
    (∀ company ∈ config.world.db.companies, ∃ done ∈ config.ended, ∃ owner,
      Done.Founded done company owner ∧ ∀ user,
        user ∈ config.world.db.users ∧ user.companyId = company.id ∧ user.role = .owner ↔
          user = owner) ∧
    (∀ user ∈ config.world.db.users, user.role ≠ .owner →
      ∃ done ∈ config.ended, ∃ inv, Done.Accepted primitives done inv user) ∧
    (∀ done ∈ config.ended, ∀ inv user, Done.Accepted primitives done inv user →
      user ∈ config.world.db.users ∧ (user.role = .manager ∨ user.role = .viewer) ∧
        ∃ origin ∈ config.ended, ∃ created,
          Done.Invited primitives origin created ∧ SameInvitation created inv) ∧
    config.ended.Pairwise fun earlier later => ∀ first second user other,
      Done.Accepted primitives earlier first user → Done.Accepted primitives later second other →
        first.id ≠ second.id := by
  have known := Provenance.reachable reached
  refine ⟨?_, ?_, ?_, known.single⟩
  · intro company member
    obtain ⟨done, inHistory, owner, founded, only⟩ := known.companies company member
    refine ⟨done, inHistory, owner, founded, fun user => ⟨?_, ?_⟩⟩
    · rintro ⟨there, own, isOwner⟩
      exact (only user there own).mp isOwner
    · rintro rfl
      obtain ⟨_, _, founds⟩ := id founded
      exact ⟨(known.owners done inHistory company _ founded).2, founds.companyId, founds.role⟩
  · intro user member notOwner
    obtain ⟨done, inHistory, ⟨company, _, _, founds⟩ | accepted⟩ := known.users user member
    · exact absurd founds.role notOwner
    · exact ⟨done, inHistory, accepted⟩
  · intro done inHistory inv user accepted
    obtain ⟨there, later, laterIn, same⟩ := known.acceptances done inHistory inv user accepted
    obtain ⟨origin, originIn, created, invited, follows⟩ := known.invitations later laterIn
    obtain ⟨_, _, accepts⟩ := accepted
    obtain ⟨_, _, invites⟩ := id invited
    have role : user.role ≠ .owner := by
      rw [accepts.role, ← same.role, follows.role]
      exact invites.role
    refine ⟨there, ?_, origin, originIn, created, invited, follows.trans same.symm⟩
    cases isRole : user.role with
    | owner => exact absurd isRole role
    | manager => exact .inl rfl
    | viewer => exact .inr rfl

/-! ### A run -/

def fleetTick (second : Nat) : Env :=
  ⟨second, ⟨BitVec.ofNat 128 second⟩, [Char.ofNat second], "salt".toList⟩

def fleetTicks (index first steps : Nat) : List (Choice Env Request) :=
  (List.range steps).map fun step => .run index (fleetTick (first + step))

def plainPrimitives : Primitives :=
  ⟨id, fun salt password => salt ++ password, id⟩

/-- A signup, an invitation and two overlapping acceptances of it. -/
def fleetRun : List (Choice Env Request) :=
  [.start (.signup "Spedition".toList "chef@spedition.de".toList "geheim1234".toList none)] ++
    fleetTicks 0 1 6 ++ [.finish 0] ++
  [.start (.createInvitation ⟨1⟩ "anna@spedition.de".toList .viewer)] ++
    fleetTicks 0 65 4 ++ [.finish 0] ++
  [.start (.acceptInvitation ['A'] "geheim1234".toList),
    .start (.acceptInvitation ['A'] "geheim5678".toList)] ++
    fleetTicks 0 70 6 ++ fleetTicks 1 80 6 ++ fleetTicks 0 90 2 ++ [.finish 0] ++
    fleetTicks 0 100 1 ++ [.finish 0]

def Done.exception (done : Done) : Option Error :=
  match done.outcome with
  | some (.error error) => some error
  | _ => none

/-- The second acceptance has read the invitation unused and fails on the unique email. -/
theorem owners_and_invitations_fleet : ∃ config : Calls,
    config.world.db.users.rows.map AccountUser.role = [.owner, .viewer] ∧
    config.ended.map Done.exception = [none, none, none, some .integrity] ∧
    config.ended.Pairwise fun earlier later => ∀ first second user other,
      Done.Accepted plainPrimitives earlier first user →
        Done.Accepted plainPrimitives later second other → first.id ≠ second.id := by
  have ran : ((accounts plainPrimitives).schedule ⟨⟨Db.empty, 0⟩, [], []⟩ fleetRun).any
      (fun config => config.world.db.users.rows.map AccountUser.role = [.owner, .viewer] ∧
        config.ended.map Done.exception = [none, none, none, some .integrity]) = true := by
    decide +kernel
  obtain ⟨config, isConfig, holds⟩ := (Option.any_eq_true _ _).mp ran
  obtain ⟨roles, outcomes⟩ := of_decide_eq_true holds
  exact ⟨config, roles, outcomes, (owners_and_invitations (.of_schedule isConfig)).2.2.2⟩

end Fristenwaechter.Accounts
