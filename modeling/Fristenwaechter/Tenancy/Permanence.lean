import Fristenwaechter.Behaviour.Grants
import Fristenwaechter.Library.Marks
import Fristenwaechter.Lockout.Safety

/-!
Owns that an erasure is permanent: no transaction gives back a name, an address, a number or a
password that has been scrubbed, not even one that writes a copy it has loaded before. The
transactions are those of `system`. `login` is none of them: it stores a new hash of a
password that it has verified before, also where the account has been scrubbed meanwhile.
-/

namespace Fristenwaechter

open Library (Config Discipline Reachable Sound Table)
open Library.Table (Carries Marked Marking)

variable {session after : Session} {db before later : Db}

/-! ### Scrubbed columns -/

/-- The address that `anonymize_account_user` gives to the account with an id. -/
def neutralEmail (id : Uuid) : Str :=
  "geloescht+".toList ++ id.text ++ "@invalid.local".toList

inductive CompanyColumn where
  | name
  | deletedAt

/-- What a tombstone leaves in a company. -/
def CompanyColumn.erased : CompanyColumn → Company → Prop
  | .name, company => company.name = anonName
  | .deletedAt, company => company.deletedAt.isSome = true

inductive UserColumn where
  | companyId (id : Uuid)
  | email
  | phoneE164
  | isActive
  | passwordHash

/-- What `anonymize_account_user` leaves in an account, whose company is fixed. -/
def UserColumn.erased : UserColumn → AccountUser → Prop
  | .companyId id, user => user.companyId = id
  | .email, user => user.email = neutralEmail user.id
  | .phoneE164, user => user.phoneE164 = none
  | .isActive, user => user.isActive = false
  | .passwordHash, user => user.passwordHash = none

inductive DriverColumn where
  | companyId (id : Uuid)
  | firstName
  | lastName
  | anonymizedAt

/-- What an anonymization leaves in a driver, whose company is fixed. -/
def DriverColumn.erased : DriverColumn → Driver → Prop
  | .companyId id, driver => driver.companyId = id
  | .firstName, driver => driver.firstName = anonName
  | .lastName, driver => driver.lastName = anonName
  | .anonymizedAt, driver => driver.anonymizedAt.isSome = true

inductive AccessColumn where
  | companyId (id : Uuid)
  | closed

def AccessColumn.revoked : AccessColumn → UserSession → Prop
  | .companyId id, row => row.companyId = id
  | .closed, row => row.revokedAt.isSome = true

def AccessColumn.accepted : AccessColumn → Invitation → Prop
  | .companyId id, row => row.companyId = id
  | .closed, row => row.acceptedAt.isSome = true

/-- Every row is still there, and what has been scrubbed of it stays scrubbed. -/
structure StaysScrubbed (before later : Db) : Prop where
  companies : Carries (Marked CompanyColumn.erased) before.companies later.companies
  users : Carries (Marked UserColumn.erased) before.accountUsers later.accountUsers
  drivers : Carries (Marked DriverColumn.erased) before.drivers later.drivers
  sessions : Carries (Marked AccessColumn.revoked) before.userSessions later.userSessions
  invitations : Carries (Marked AccessColumn.accepted) before.invitations later.invitations

theorem StaysScrubbed.refl (db : Db) : StaysScrubbed db db :=
  ⟨.refl .refl _, .refl .refl _, .refl .refl _, .refl .refl _, .refl .refl _⟩

theorem StaysScrubbed.trans {first second third : Db} (one : StaysScrubbed first second)
    (two : StaysScrubbed second third) : StaysScrubbed first third where
  companies := one.companies.trans .trans two.companies
  users := one.users.trans .trans two.users
  drivers := one.drivers.trans .trans two.drivers
  sessions := one.sessions.trans .trans two.sessions
  invitations := one.invitations.trans .trans two.invitations

/-! ### Writes that take nothing back -/

/-- A write that scrubs the columns it changes, or changes other ones. -/
def Write.TakesNothingBack : Write → Prop
  | .updateCompany loaded current =>
      (current.name = loaded.name ∨ current.name = anonName) ∧
        (current.deletedAt = loaded.deletedAt ∨ current.deletedAt.isSome = true)
  | .updateUser loaded current =>
      (current.email = loaded.email ∨ current.email = neutralEmail loaded.id) ∧
        (current.phoneE164 = loaded.phoneE164 ∨ current.phoneE164 = none) ∧
        (current.isActive = loaded.isActive ∨ current.isActive = false) ∧
        (current.passwordHash = loaded.passwordHash ∨ current.passwordHash = none)
  | .updateDriver loaded current =>
      (current.firstName = loaded.firstName ∨ current.firstName = anonName) ∧
        (current.lastName = loaded.lastName ∨ current.lastName = anonName) ∧
        (current.anonymizedAt = loaded.anonymizedAt ∨ current.anonymizedAt.isSome = true)
  | _ => True

theorem column_scrubs {Row Value : Type} [Library.Keyed Row Uuid] [DecidableEq Value]
    (field : Row → Value) (scrubbed : Value → Prop) {loaded current : Value} {wanted : Uuid}
    (scrubs : current = loaded ∨ scrubbed current) :
    (∀ row, Library.Keyed.key row = wanted → scrubbed (column loaded current (field row))) ∨
      ∀ row, scrubbed (column loaded current (field row)) ↔ scrubbed (field row) := by
  by_cases same : current = loaded
  · refine .inr fun row => ?_
    rw [column, if_pos same]
  · refine .inl fun row _ => ?_
    rw [column, if_neg same]
    exact scrubs.resolve_left same

theorem marking_company {loaded current : Company}
    (takes : (Write.updateCompany loaded current).TakesNothingBack) :
    Marking CompanyColumn.erased loaded.id
      (Company.changed loaded current) := by
  refine ⟨fun _ => rfl, fun index => ?_⟩
  cases index with
  | name => exact column_scrubs Company.name (· = anonName) takes.1
  | deletedAt => exact column_scrubs Company.deletedAt (·.isSome = true) takes.2

theorem marking_user {loaded current : AccountUser}
    (takes : (Write.updateUser loaded current).TakesNothingBack) :
    Marking UserColumn.erased loaded.id
      (AccountUser.changed loaded current) := by
  refine ⟨fun _ => rfl, fun index => ?_⟩
  cases index with
  | companyId id => exact .inr fun row => Iff.rfl
  | email =>
      by_cases same : current.email = loaded.email
      · refine .inr fun row => ?_
        change column loaded.email current.email row.email = _ ↔ _
        rw [column, if_pos same]
        rfl
      · refine .inl fun row own => ?_
        change column loaded.email current.email row.email = neutralEmail row.id
        rw [column, if_neg same, takes.1.resolve_left same]
        exact congrArg neutralEmail own.symm
  | phoneE164 => exact column_scrubs AccountUser.phoneE164 (· = none) takes.2.1
  | isActive => exact column_scrubs AccountUser.isActive (· = false) takes.2.2.1
  | passwordHash => exact column_scrubs AccountUser.passwordHash (· = none) takes.2.2.2

theorem marking_driver {loaded current : Driver}
    (takes : (Write.updateDriver loaded current).TakesNothingBack) :
    Marking DriverColumn.erased loaded.id
      (Driver.changed loaded current) := by
  refine ⟨fun _ => rfl, fun index => ?_⟩
  cases index with
  | companyId id => exact .inr fun row => Iff.rfl
  | firstName => exact column_scrubs Driver.firstName (· = anonName) takes.1
  | lastName => exact column_scrubs Driver.lastName (· = anonName) takes.2.1
  | anonymizedAt => exact column_scrubs Driver.anonymizedAt (·.isSome = true) takes.2.2

theorem marking_session (now : Instant) (wanted : Uuid) :
    Marking AccessColumn.revoked wanted
      fun row => { row with revokedAt := some now } := by
  refine ⟨fun _ => rfl, fun index => ?_⟩
  cases index with
  | companyId id => exact .inr fun row => Iff.rfl
  | closed => exact .inl fun row _ => rfl

theorem marking_invitation (now : Instant) (wanted : Uuid) :
    Marking AccessColumn.accepted wanted
      fun row => { row with acceptedAt := some now } := by
  refine ⟨fun _ => rfl, fun index => ?_⟩
  cases index with
  | companyId id => exact .inr fun row => Iff.rfl
  | closed => exact .inl fun row _ => rfl

theorem Write.TakesNothingBack.stays {write : Write} (takes : write.TakesNothingBack) :
    StaysScrubbed db (write.apply db) := by
  have unchanged := StaysScrubbed.refl db
  cases write with
  | insertDriver row => exact { unchanged with drivers := .insert .refl _ row }
  | updateDriver loaded current =>
      exact { unchanged with drivers := .marking (marking_driver takes) }
  | updateUser loaded current => exact { unchanged with users := .marking (marking_user takes) }
  | updateCompany loaded current =>
      exact { unchanged with companies := .marking (marking_company takes) }
  | revokeSessions ids now =>
      exact { unchanged with sessions := .markEach fun wanted _ => marking_session now wanted }
  | acceptInvitations ids now =>
      exact { unchanged with
        invitations := .markEach fun wanted _ => marking_invitation now wanted }
  | _ => exact { unchanged with }

theorem staysScrubbed_after {writes : List Write}
    (take : ∀ write ∈ writes, write.TakesNothingBack) : StaysScrubbed db (db.after writes) := by
  induction writes generalizing db with
  | nil => exact .refl db
  | cons write rest inductionHypothesis =>
      exact (take write List.mem_cons_self).stays.trans
        (inductionHypothesis fun other member => take other (List.mem_cons_of_mem _ member))

/-! ### Writes of a purge -/

/-- A write that scrubs or closes rows that are there. -/
def Write.Erases : Write → Prop
  | .updateCompany loaded current => (Write.updateCompany loaded current).TakesNothingBack
  | .updateUser loaded current => (Write.updateUser loaded current).TakesNothingBack
  | .updateDriver loaded current => (Write.updateDriver loaded current).TakesNothingBack
  | .deleteOutbox _ => True
  | .revokeSessions _ _ => True
  | .acceptInvitations _ _ => True
  | _ => False

theorem Write.Erases.takesNothingBack {write : Write} (erases : write.Erases) :
    write.TakesNothingBack := by
  cases write <;> first | exact erases | trivial

theorem Write.Erases.both {write : Write} (erases : write.Erases)
    (stays : StaysScrubbed before later) :
    StaysScrubbed (write.apply before) (write.apply later) := by
  cases write with
  | updateDriver loaded current =>
      exact { stays with drivers := .marking_both (marking_driver erases) stays.drivers }
  | updateUser loaded current =>
      exact { stays with users := .marking_both (marking_user erases) stays.users }
  | updateCompany loaded current =>
      exact { stays with companies := .marking_both (marking_company erases) stays.companies }
  | revokeSessions ids now =>
      exact { stays with
        sessions := .markEach_both (fun wanted _ => marking_session now wanted) stays.sessions }
  | acceptInvitations ids now =>
      exact { stays with
        invitations := .markEach_both (fun wanted _ => marking_invitation now wanted)
          stays.invitations }
  | deleteOutbox ids => exact { stays with }
  | _ => exact erases.elim

theorem staysScrubbed_both {writes : List Write} (erase : ∀ write ∈ writes, write.Erases)
    (stays : StaysScrubbed before later) :
    StaysScrubbed (before.after writes) (later.after writes) := by
  induction writes generalizing before later with
  | nil => exact stays
  | cons write rest inductionHypothesis =>
      exact inductionHypothesis (fun other member => erase other (List.mem_cons_of_mem _ member))
        ((erase write List.mem_cons_self).both stays)

/-- An account as `anonymize_account_user` leaves it. -/
def AccountUser.neutralized (user : AccountUser) : AccountUser :=
  { user with
    email := neutralEmail user.id
    phoneE164 := none
    isActive := false
    passwordHash := none }

/-- A company as its tombstone leaves it. -/
def Company.tombstoned (company : Company) (now : Instant) : Company :=
  { company with name := anonName, deletedAt := some now }

/-- A driver as the tombstone of their company leaves them. -/
def Driver.tombstoned (driver : Driver) (now : Instant) : Driver :=
  { driver with
    firstName := anonName
    lastName := anonName
    anonymizedAt := if driver.anonymizedAt.isNone then some now else driver.anonymizedAt }

theorem Driver.tombstoned_anonymizedAt (driver : Driver) (now : Instant) :
    (driver.tombstoned now).anonymizedAt.isSome = true := by
  unfold Driver.tombstoned
  cases known : driver.anonymizedAt with
  | none => simp
  | some instant => simp

theorem erases_tombstoneCompany (company : Company) :
    postgres.Preserves (OnlyEver Write.Erases) (tombstoneCompany company) := by
  refine only_then only_now fun now => ?_
  refine only_then (only_addAll fun write member => ?_) fun _ => ?_
  · rw [Company.mem_update member]
    exact ⟨.inr rfl, .inr rfl⟩
  refine only_then (only_read fun _ may => may) fun users => ?_
  refine only_then (only_forEach fun user _ => only_addAll fun write member => ?_) fun _ => ?_
  · rw [AccountUser.mem_update member]
    exact ⟨.inr rfl, .inr rfl, .inr rfl, .inr rfl⟩
  refine only_then (only_read fun _ may => may) fun drivers => ?_
  refine only_then (only_forEach fun driver _ => only_addAll fun write member => ?_) fun _ => ?_
  · rw [Driver.mem_update member]
    exact ⟨.inr rfl, .inr rfl, .inr (driver.tombstoned_anonymizedAt now)⟩
  refine only_then (only_select ?_) fun _ => only_then (only_select ?_) fun _ => only_select ?_
  · rintro _ ⟨ids, rfl⟩
    trivial
  · rintro _ ⟨ids, rfl⟩
    trivial
  · rintro _ ⟨ids, rfl⟩
    trivial

/-! ### Every transaction -/

theorem others_takeNothingBack : GrantsOthers Write.TakesNothingBack where
  log _ := trivial
  unlocked _ := ⟨.inl rfl, .inl rfl, .inl rfl⟩
  resolved _ := trivial
  completed _ _ := trivial
  successor _ := trivial
  driver _ _ _ _ _ := trivial
  vehicle _ := trivial
  breached _ _ _ _ _ := trivial
  nagged _ _ _ _ _ _ := trivial
  reminded _ _ _ _ _ _ _ _ _ _ := trivial
  anonymized _ _ isSome := ⟨.inr rfl, .inr rfl, .inr isSome⟩

theorem e6_takesNothingBack : GrantsE6 Write.TakesNothingBack where
  locked _ _ := ⟨.inl rfl, .inl rfl, .inl rfl⟩
  case _ := trivial
  alert _ _ _ _ _ := trivial
  failed _ _ _ _ _ _ _ := trivial

section Requests

variable {sha256 : Str → Str} {validateKennzeichen : Str → Option Str}

theorem purge_erases {request : Request} (purges : request.Purges) :
    postgres.Preserves (OnlyEver Write.Erases)
      (transaction (request.body sha256 validateKennzeichen)) := by
  refine only_transaction ?_
  cases request with
  | pruneOldOutbox =>
      refine only_then (only_then only_todayBerlin fun today => ?_) fun _ => only_pure _
      refine only_then (only_orThrow _ _) fun cutoff => only_select ?_
      rintro _ ⟨ids, rfl⟩
      trivial
  | tombstoneDeletedCompanies =>
      refine only_then (only_then only_now fun now => ?_) fun _ => only_pure _
      refine only_then (only_read fun _ may => may) fun companies => ?_
      exact only_then (only_forEach fun company _ => erases_tombstoneCompany company) fun _ =>
        only_pure _
  | _ => exact purges.elim

theorem request_takesNothingBack {request : Request} {world : World}
    {outcome : Except Error Outcome}
    (ended : (system sha256 validateKennzeichen).Ends
      ((system sha256 validateKennzeichen).program request)
      ((system sha256 validateKennzeichen).opening world request) outcome after) :
    OnlyEver Write.TakesNothingBack after := by
  by_cases purges : request.Purges
  · exact (purge_erases purges _ _ _ ended (.opening _ _)).mono fun _ erases =>
      erases.takesNothingBack
  by_cases relay : request = .relayOutbox
  · subst relay
    have kept : postgres.Preserves (OnlyEver Write.TakesNothingBack) relayOutbox :=
      only_relayOutbox (fun _ _ => trivial) fun _ _ _ => trivial
    exact only_transaction (only_then kept fun _ => only_pure _) _ _ _ ended (.opening _ _)
  · exact request_only_of others_takeNothingBack relay (fun _ => e6_takesNothingBack)
      (fun isPurge => absurd isPurge purges) _ _ _ ended (.opening _ _)

variable (sha256 validateKennzeichen) in
theorem permanenceDiscipline :
    Discipline (system sha256 validateKennzeichen) .unrestricted readCommitted (fun _ => True)
      fun before after => StaysScrubbed before.db after.db where
  refl world := .refl world.db
  trans := StaysScrubbed.trans
  advance _ _ := ⟨trivial, .refl _⟩
  commit commits :=
    ⟨trivial, staysScrubbed_after (request_takesNothingBack commits.ends).writes⟩

/-! ### Erasures in a run -/

/-- A company whose deletion was requested 30 days ago, with an open session and an open
invitation. -/
def closingWorld : World :=
  { fleetWorld with
    db :=
      { fleetWorld.db with
        companies := Table.empty.insert
          ⟨fleetId 100, "Nord".toList, 12, some (-2600000000000), none⟩
        userSessions := Table.empty.insert
          ⟨fleetId 7, fleetId 1, fleetId 100, "hash".toList, 1800000000, none⟩
        invitations := Table.empty.insert ⟨fleetId 8, fleetId 100, "anna@nord.de".toList, .viewer,
          "hash".toList, 1800000000, none⟩ } }

def closingRun : List (Library.Choice Env Request) :=
  .start .tombstoneDeletedCompanies :: fleetRun 0 1 28 ++ [.finish 0]

/-- **Erasure is permanent.** However the requests, the sweeps and the purges of `system` are
interleaved, which leaves out logins, and whatever copies they have loaded, no row goes and
nothing scrubbed comes back. -/
theorem erasure_is_permanent {world : World}
    {config next : Config World Memory Connection Statement Answer Env Error Request Outcome}
    (reached : Reachable (system sha256 validateKennzeichen) .unrestricted ⟨world, [], []⟩
      config)
    (continued : Reachable (system sha256 validateKennzeichen) .unrestricted config next) :
    StaysScrubbed config.world.db next.world.db := by
  have laws := system_laws sha256 validateKennzeichen
  have discipline := permanenceDiscipline sha256 validateKennzeichen
  exact ((Sound.reachable laws discipline (.quiet trivial) reached).1.reachable laws discipline
    continued).2

/-- A FAILED check locks a driver that has been scrubbed, and does not name them again. -/
theorem erasure_is_permanent_failed :
    ∃ config next, (system id some).schedule ⟨closingWorld, [], []⟩ closingRun = some config ∧
      (system id some).schedule config
        (.start (fleetCheck "FAILED".toList) :: fleetRun 0 101 40 ++ [.finish 0]) = some next ∧
      ∃ driver ∈ next.world.db.drivers, driver.id = fleetId 2 ∧ driver.firstName = anonName := by
  have found : ((system id some).schedule ⟨closingWorld, [], []⟩ closingRun).any (fun config =>
      ((system id some).schedule config
        (.start (fleetCheck "FAILED".toList) :: fleetRun 0 101 40 ++ [.finish 0])).isSome &&
      config.world.db.drivers.rows.any fun driver =>
        decide (driver.id = fleetId 2 ∧ driver.firstName = anonName)) = true := by
    decide +kernel
  obtain ⟨config, ran, both⟩ := (Option.any_eq_true _ _).mp found
  obtain ⟨goesOn, drivers⟩ := (Bool.and_eq_true _ _).mp both
  obtain ⟨next, continued⟩ := Option.isSome_iff_exists.mp goesOn
  obtain ⟨driver, member, holds⟩ := List.any_eq_true.mp drivers
  obtain ⟨isDriver, scrubbed⟩ := of_decide_eq_true holds
  obtain ⟨last, lastIn, toLast⟩ := (erasure_is_permanent (Reachable.of_schedule ran)
    (Reachable.of_schedule continued)).drivers driver member
  exact ⟨config, next, ran, continued, last, lastIn, toLast.key.trans isDriver,
    toLast.kept .firstName scrubbed⟩

end Requests

end Fristenwaechter
