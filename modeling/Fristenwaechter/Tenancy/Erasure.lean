import Fristenwaechter.Behaviour.Grants
import Fristenwaechter.Behaviour.Made
import Fristenwaechter.Sweeps.Reminders

/-!
Owns what a purge leaves when one of its duties raises: that duty has erased nothing of any
company, and what the duties before it have erased stays erased.
-/

namespace Fristenwaechter

open Library (Config Discipline Ended Over Reachable Sound Table)

variable {session after : Session} {db before : Db} {today : Date}

/-! ### Retention -/

/-- The retention of a company in months; 12 where there is no such company. -/
def Db.retentionMonths (db : Db) (companyId : Uuid) : Int :=
  (db.companies.find companyId).elim 12 Company.driverRetentionMonths

/-- `employment_end` and the months of retention lie before `today`. -/
def Driver.isExpired (driver : Driver) (months : Uuid → Int) (today : Date) : Bool :=
  driver.employmentEnd.any fun employmentEnd =>
    (addMonths employmentEnd (months driver.companyId)).any fun cutoff => cutoff < today

def Db.Anonymized (db : Db) (today : Date) : Prop :=
  ∀ driver ∈ db.drivers, driver.isExpired db.retentionMonths today = true →
    driver.anonymizedAt.isSome = true

/-- A write that takes no anonymization back and brings no leaver. -/
def Write.KeepsErased : Write → Prop
  | .insertDriver row => row.employmentEnd = none
  | .updateDriver loaded current =>
      current.anonymizedAt = loaded.anonymizedAt ∨ current.anonymizedAt.isSome = true
  | _ => True

theorem grants_keepsErased : Grants Write.KeepsErased where
  log _ := trivial
  unlocked _ := .inl rfl
  resolved _ := trivial
  completed _ _ := trivial
  successor _ := trivial
  driver _ _ _ _ _ := rfl
  vehicle _ := trivial
  locked _ _ := .inl rfl
  case _ := trivial
  alert _ _ _ _ _ := trivial
  failed _ _ _ _ _ _ _ := trivial
  breached _ _ _ _ _ := trivial
  nagged _ _ _ _ _ _ := trivial
  reminded _ _ _ _ _ _ _ _ _ _ := trivial
  anonymized _ _ isSome := .inr isSome
  user _ _ := trivial
  company _ _ := trivial
  outbox _ := trivial
  sessions _ _ := trivial
  invitations _ _ := trivial

/-- What was erased stays erased: the retention is fixed, and a driver who has left was there
before and is anonymized if they were. -/
structure StaysErased (before after : Db) : Prop where
  months : after.retentionMonths = before.retentionMonths
  leavers : ∀ later ∈ after.drivers, later.employmentEnd.isSome = true →
    ∃ row ∈ before.drivers, row.id = later.id ∧ row.companyId = later.companyId ∧
      row.employmentEnd = later.employmentEnd ∧
        (row.anonymizedAt.isSome = true → later.anonymizedAt.isSome = true)

theorem StaysErased.refl (db : Db) : StaysErased db db :=
  ⟨rfl, fun later member _ => ⟨later, member, rfl, rfl, rfl, fun isSome => isSome⟩⟩

theorem StaysErased.trans {first second third : Db} (one : StaysErased first second)
    (two : StaysErased second third) : StaysErased first third := by
  refine ⟨two.months.trans one.months, fun last member left => ?_⟩
  obtain ⟨middle, middleIn, sameId, sameCompany, sameEnd, kept⟩ := two.leavers last member left
  obtain ⟨row, rowIn, isId, isCompany, isEnd, before⟩ :=
    one.leavers middle middleIn (sameEnd ▸ left)
  exact ⟨row, rowIn, isId.trans sameId, isCompany.trans sameCompany, isEnd.trans sameEnd,
    fun isSome => kept (before isSome)⟩

theorem StaysErased.of_drivers {after : Db} (months : after.retentionMonths = db.retentionMonths)
    (same : after.drivers = db.drivers) : StaysErased db after :=
  ⟨months, same ▸ (StaysErased.refl db).leavers⟩

theorem retentionMonths_update (loaded current : Company) :
    ((Write.updateCompany loaded current).apply db).retentionMonths = db.retentionMonths := by
  funext companyId
  unfold Db.retentionMonths
  have found : ((Write.updateCompany loaded current).apply db).companies.find companyId =
      if loaded.id = companyId then
        (db.companies.find companyId).map (Company.changed loaded current)
      else db.companies.find companyId := Table.find_update (by simp)
  rw [found]
  split
  · cases db.companies.find companyId <;> rfl
  · rfl

theorem Write.KeepsErased.stays {write : Write} (keeps : write.KeepsErased) :
    StaysErased db (write.apply db) := by
  cases write with
  | insertDriver row =>
      refine ⟨rfl, fun later member left => ?_⟩
      rcases Table.mem_insert.mp member with old | ⟨rfl, _⟩
      · exact ⟨later, old, rfl, rfl, rfl, fun isSome => isSome⟩
      · have none : later.employmentEnd = none := keeps
        rw [none] at left
        cases left
  | updateDriver loaded current =>
      refine ⟨rfl, fun later member left => ?_⟩
      obtain ⟨row, rowIn, rfl⟩ := (Table.mem_update (by simp)).mp member
      refine ⟨row, rowIn, ?_⟩
      split
      · refine ⟨rfl, rfl, rfl, fun isSome => ?_⟩
        change (column loaded.anonymizedAt current.anonymizedAt row.anonymizedAt).isSome = true
        unfold column
        split
        · exact isSome
        · exact keeps.resolve_left ‹_›
      · exact ⟨rfl, rfl, rfl, fun isSome => isSome⟩
  | updateCompany loaded current => exact .of_drivers (retentionMonths_update loaded current) rfl
  | _ => exact .of_drivers rfl rfl

theorem staysErased_after {writes : List Write} (keep : ∀ write ∈ writes, write.KeepsErased) :
    StaysErased db (db.after writes) := by
  induction writes generalizing db with
  | nil => exact .refl db
  | cons write rest inductionHypothesis =>
      exact (keep write List.mem_cons_self).stays.trans
        (inductionHypothesis fun other member => keep other (List.mem_cons_of_mem _ member))

theorem StaysErased.isExpired {after : Db} (stays : StaysErased before after) {row later : Driver}
    (company : row.companyId = later.companyId) (left : row.employmentEnd = later.employmentEnd) :
    row.isExpired before.retentionMonths today = later.isExpired after.retentionMonths today := by
  unfold Driver.isExpired
  rw [company, left, stays.months]

theorem Driver.left_of_expired {driver : Driver} {months : Uuid → Int}
    (expired : driver.isExpired months today = true) : driver.employmentEnd.isSome = true := by
  obtain ⟨employmentEnd, known, _⟩ := (Option.any_eq_true _ _).mp expired
  rw [known]
  rfl

theorem StaysErased.anonymized {after : Db} (stays : StaysErased before after)
    (anonymized : before.Anonymized today) : after.Anonymized today := by
  intro later member expired
  obtain ⟨row, rowIn, _, company, left, kept⟩ :=
    stays.leavers later member (Driver.left_of_expired expired)
  exact kept (anonymized row rowIn ((stays.isExpired company left).trans expired))

/-! ### Every transaction -/

section Requests

variable {sha256 : Str → Str} {validateKennzeichen : Str → Option Str}

theorem request_keepsErased {request : Request} {world : World}
    {outcome : Except Error Outcome} {after : Session}
    (ended : (system sha256 validateKennzeichen).Ends
      ((system sha256 validateKennzeichen).program request)
      ((system sha256 validateKennzeichen).opening world request) outcome after) :
    OnlyEver Write.KeepsErased after := by
  by_cases relay : request = .relayOutbox
  · subst relay
    have kept : postgres.Preserves (OnlyEver Write.KeepsErased) relayOutbox :=
      only_relayOutbox (fun _ _ => trivial) fun _ _ _ => trivial
    exact only_transaction (only_then kept fun _ => only_pure _) _ _ _ ended (.opening _ _)
  · exact request_only grants_keepsErased relay _ _ _ ended (.opening _ _)

variable (sha256 validateKennzeichen) in
theorem erasureDiscipline :
    Discipline (system sha256 validateKennzeichen) .unrestricted readCommitted (fun _ => True)
      fun before after => StaysErased before.db after.db where
  refl world := .refl world.db
  trans := StaysErased.trans
  advance _ _ := ⟨trivial, .refl _⟩
  commit commits := ⟨trivial, staysErased_after (request_keepsErased commits.ends).writes⟩

end Requests

/-! ### An anonymization -/

/-- The session knows the retention of the companies it has loaded, and sees every company. -/
structure Informed (months : Uuid → Int) (session : Session) : Prop where
  copies : ∀ copy ∈ session.memory.companies, copy.driverRetentionMonths = months copy.id
  tenant : session.connection.tenant = none

section Anonymization

variable {months : Uuid → Int}

theorem Memory.flushed_companies (memory : Memory) (write : Write) :
    (memory.flushed write).companies = memory.companies := by
  cases write <;> rfl

theorem Informed.executed {writes : List Write} (executed : Executed writes session after)
    (informed : Informed months session) : Informed months after := by
  induction writes generalizing session with
  | nil =>
      cases executed
      exact informed
  | cons write rest inductionHypothesis =>
      obtain ⟨entry, _, _, remaining⟩ := executed
      refine inductionHypothesis remaining ⟨fun copy member => ?_, informed.tenant⟩
      rw [Session.wrote_memory, Memory.flushed_companies] at member
      exact informed.copies copy member

theorem Sent.company_eq {entry : Sent} (tenant : entry.connection.tenant = none) (id : Uuid) :
    entry.company id = entry.db.companies.find id := by
  unfold Sent.company
  cases entry.db.companies.find id with
  | none => rfl
  | some row => simp [Connection.sees, tenant]

theorem getCompany_informed {id : Uuid} {company : Option Company}
    (informed : Informed months session)
    (ended : postgres.Ends (getCompany id) session (.ok company) after)
    (sees : ∀ entry ∈ after.trace, (Sent.db entry).retentionMonths = months) :
    Informed months after ∧ company.elim 12 Company.driverRetentionMonths = months id := by
  rcases ends_then.mp ended with ⟨memory, middle, looked, rest⟩ | ⟨_, same, _⟩
  swap
  · cases same
  obtain ⟨isMemory, rfl⟩ := Library.Server.ends_memory.mp looked
  cases isMemory
  split at rest
  · rename_i copy found
    obtain ⟨same, rfl⟩ := rest
    cases same
    have own : copy.id = id := by simpa using List.find?_some found
    have known := informed.copies copy (List.mem_of_find?_eq_some found)
    exact ⟨informed, own ▸ known⟩
  · rcases select_ends rest with ⟨flushed, executed, sent⟩ | ⟨_, same, _⟩
    swap
    · cases same
    have kept : Informed months flushed :=
      Informed.executed executed ⟨informed.copies, informed.tenant⟩
    obtain ⟨entry, asked, read⟩ := sends_getCompany sent
    have tenant : entry.connection.tenant = none := by
      rw [asked.connection]
      exact kept.tenant
    rw [Sent.company_eq tenant] at read
    rcases read with ⟨missing, same, rfl⟩ | ⟨row, found, same, rfl⟩
    · cases same
      refine ⟨⟨kept.copies, kept.tenant⟩, ?_⟩
      rw [← sees entry (by simp), Db.retentionMonths, missing]
    · cases same
      have own : row.id = id := Table.key_of_find found
      have isMonths : row.driverRetentionMonths = months row.id := by
        rw [← sees entry (by simp), Db.retentionMonths, own, found]
        rfl
      obtain ⟨isCopy, sameKey⟩ := instanceOf_key flushed.memory.companies row
      have sameId : (Memory.instanceOf flushed.memory.companies row).id = row.id := sameKey
      refine ⟨⟨fun copy member => ?_, kept.tenant⟩, ?_⟩
      · change copy ∈ Memory.loaded flushed.memory.companies row at member
        unfold Memory.loaded at member
        split at member
        · exact kept.copies copy member
        · rcases List.mem_cons.mp member with rfl | old
          · exact isMonths
          · exact kept.copies copy old
      · change (Memory.instanceOf flushed.memory.companies row).driverRetentionMonths = months id
        rw [← own]
        rcases isCopy with old | fresh
        · rw [kept.copies _ old, sameId]
        · rw [fresh, isMonths]

theorem adding_getCompany {allowed : Write → Prop} (id : Uuid) :
    Adding allowed (getCompany id) := by
  refine adding_then (fun session value after ended => ?_) fun session => ?_
  · obtain ⟨_, rfl⟩ := Library.Server.ends_memory.mp ended
    exact .refl _
  · split
    · exact adding_pure _
    · exact adding_read (by simp) (by simp) fun _ may => may

theorem adding_anonymizeDriver (driver : Driver) :
    Adding (fun _ => True) (anonymizeDriver driver) := by
  unfold anonymizeDriver
  split
  · exact adding_pure ()
  · refine adding_then (adding_emit (by simp) (by simp) fun _ _ => trivial) fun now => ?_
    intro session value after ended
    obtain ⟨_, rfl⟩ := ends_addAll.mp ended
    refine ⟨List.prefix_rfl, rfl, rfl, fun write member => ?_, fun _ _ => .inr trivial⟩
    rcases List.mem_append.mp member with executed | pending
    · exact List.mem_append_left _ executed
    · exact List.mem_append_right _ (List.mem_append_left _ pending)

theorem adding_anonymizeEach (drivers : List Driver) (count : Nat) :
    Adding (fun _ => True) (anonymizeEach today drivers count) := by
  induction drivers generalizing count with
  | nil => exact adding_pure count
  | cons driver rest inductionHypothesis =>
      unfold anonymizeEach
      split
      · exact inductionHypothesis count
      · refine adding_then (adding_getCompany _) fun company => ?_
        refine adding_then (adding_orThrow _ _) fun cutoff => ?_
        split
        · exact adding_then (adding_anonymizeDriver driver) fun _ =>
            inductionHypothesis (count + 1)
        · exact inductionHypothesis count

def Driver.scrubbed (driver : Driver) (now : Instant) : Driver :=
  { driver with firstName := anonName, lastName := anonName, anonymizedAt := some now }

theorem anonymizeDriver_scrubs {driver : Driver} (informed : Informed months session)
    (ended : postgres.Ends (anonymizeDriver driver) session (.ok ()) after) :
    Informed months after ∧ (driver.anonymizedAt = none →
      ∃ now, .updateDriver driver (driver.scrubbed now) ∈ after.made) := by
  unfold anonymizeDriver at ended
  split at ended
  · rename_i done
    obtain ⟨_, rfl⟩ := ended
    refine ⟨informed, fun identified => ?_⟩
    rw [identified] at done
    cases done
  · obtain ⟨entry, _, assigned⟩ := step_now ended
    obtain ⟨_, rfl⟩ := ends_addAll.mp assigned
    refine ⟨⟨informed.copies, informed.tenant⟩, fun identified => ⟨entry.env.now, ?_⟩⟩
    have changed : driver.scrubbed entry.env.now ≠ driver := by
      intro same
      have scrubbed : (driver.scrubbed entry.env.now).anonymizedAt = some entry.env.now := rfl
      rw [same, identified] at scrubbed
      cases scrubbed
    refine List.mem_append_right _ (List.mem_append_right _ ?_)
    change Write.updateDriver driver (driver.scrubbed entry.env.now) ∈
      driver.update (driver.scrubbed entry.env.now)
    rw [Driver.update, if_neg changed]
    exact List.mem_singleton_self _

/-- The loop scrubs every driver of the list whose retention has elapsed. -/
theorem anonymizeEach_scrubs {drivers : List Driver} {count total : Nat}
    (informed : Informed months session)
    (ended : postgres.Ends (anonymizeEach today drivers count) session (.ok total) after)
    (sees : ∀ entry ∈ after.trace, (Sent.db entry).retentionMonths = months) :
    ∀ driver ∈ drivers, driver.anonymizedAt = none → driver.isExpired months today = true →
      ∃ now, .updateDriver driver (driver.scrubbed now) ∈ after.made := by
  induction drivers generalizing session count with
  | nil => simp
  | cons first rest inductionHypothesis =>
      unfold anonymizeEach at ended
      split at ended
      · rename_i stays
        intro driver member identified expired
        rcases List.mem_cons.mp member with rfl | later
        · have left := Driver.left_of_expired expired
          rw [stays] at left
          cases left
        · exact inductionHypothesis informed ended driver later identified expired
      · rename_i employmentEnd left
        rcases ends_then.mp ended with ⟨company, loaded, loads, counted⟩ | ⟨_, same, _⟩
        swap
        · cases same
        rcases step_orThrow counted with ⟨cutoff, isCutoff, rest⟩ | ⟨_, same, _⟩
        swap
        · cases same
        have grown : loaded.trace <+: after.trace := by
          split at rest
          · exact (adding_then (adding_anonymizeDriver first) (fun _ =>
              adding_anonymizeEach _ _) _ _ _ rest).trace
          · exact (adding_anonymizeEach _ _ _ _ _ rest).trace
        obtain ⟨informed, isMonths⟩ :=
          getCompany_informed informed loads fun entry member => sees entry (grown.subset member)
        rw [isMonths] at isCutoff
        split at rest
        · rcases ends_then.mp rest with ⟨_, scrubbed, scrubs, remaining⟩ | ⟨_, same, _⟩
          swap
          · cases same
          obtain ⟨informed, done⟩ := anonymizeDriver_scrubs informed scrubs
          intro driver member identified expired
          rcases List.mem_cons.mp member with rfl | later
          · obtain ⟨now, made⟩ := done identified
            exact ⟨now, (adding_anonymizeEach _ _ _ _ _ remaining).kept _ made⟩
          · exact inductionHypothesis informed remaining driver later identified expired
        · rename_i retained
          intro driver member identified expired
          rcases List.mem_cons.mp member with rfl | later
          · rw [Driver.isExpired, left, Option.any_some, isCutoff, Option.any_some] at expired
            exact absurd (of_decide_eq_true expired) retained
          · exact inductionHypothesis informed rest driver later identified expired

end Anonymization

/-- The day a duty has read off the clock with its first statement. -/
def Done.readToday (done : Done) : Option Date :=
  done.transaction.trace.head?.bind fun entry => berlinDate entry.env.now

section Requests

variable {sha256 : Str → Str} {validateKennzeichen : Str → Option Str}

theorem scrubbed_after {writes : List Write} {driver : Driver} {now : Instant}
    (keep : ∀ write ∈ writes, write.KeepsErased) (identified : driver.anonymizedAt = none)
    (scrubs : .updateDriver driver (driver.scrubbed now) ∈ writes) :
    ∀ later ∈ (db.after writes).drivers, later.id = driver.id →
      later.employmentEnd.isSome = true → later.anonymizedAt.isSome = true := by
  intro later member own left
  obtain ⟨first, rest, rfl⟩ := List.append_of_mem scrubs
  rw [Db.after_append, Db.after_cons] at member
  have stays : StaysErased
      ((Write.updateDriver driver (driver.scrubbed now)).apply (db.after first))
      (((Write.updateDriver driver (driver.scrubbed now)).apply (db.after first)).after rest) :=
    staysErased_after fun write inside => keep write (by simp [inside])
  obtain ⟨row, rowIn, sameId, _, _, kept⟩ := stays.leavers later member left
  obtain ⟨stored, _, isRow⟩ := (Table.mem_update (by simp)).mp rowIn
  refine kept ?_
  have sameKey : Library.Keyed.key stored = driver.id := by
    rw [← own, ← sameId, isRow]
    split <;> rfl
  rw [isRow, if_pos sameKey]
  change (column driver.anonymizedAt (some now) stored.anonymizedAt).isSome = true
  rw [identified]
  rfl

/-- **A committed anonymization** has anonymized every driver whose retention has elapsed. -/
theorem anonymized_committed {done : Done} {now : World}
    (isOver : Over (system sha256 validateKennzeichen) .unrestricted readCommitted (fun _ => True)
      (fun before after => StaysErased before.db after.db) now done)
    (isDuty : Ended.request done = .anonymizeExpiredDrivers)
    (committed : Done.isCommitted done = true) (dated : Done.readToday done = some today) :
    (Done.result done).Anonymized today := by
  obtain ⟨result, well⟩ := committed_well committed
  obtain ⟨_, _, start, _, _, chain, ends, _⟩ := isOver
  have ended := ends _ well
  have kept : OnlyEver Write.KeepsErased done.transaction := request_keepsErased ended
  rw [isDuty] at ended
  change postgres.Ends (transaction (Request.anonymizeExpiredDrivers.body sha256
    validateKennzeichen)) (Session.opened none start.clock) (.ok result) done.transaction at ended
  rcases transaction_ends ended with ⟨_, middle, same, body, executed⟩ | ⟨_, same, _⟩
  swap
  · cases same
  cases same
  rcases ends_return.mp body with ⟨total, _, ran⟩ | ⟨_, same, _⟩
  swap
  · cases same
  obtain ⟨clock, asked, ⟨day, isDay, ran⟩ | ⟨_, same, _⟩⟩ := step_todayBerlin ran
  swap
  · cases same
  rcases ends_then.mp ran with ⟨candidates, selected, selects, looped⟩ | ⟨_, same, _⟩
  swap
  · cases same
  obtain ⟨read, looked, isRead, rfl⟩ := sends_leavers ((select_ends_clean rfl).mp selects)
  cases isRead
  have grown : middle.trace <+: done.transaction.trace := executed.grown.trace
  have sent : [clock, read] <+: done.transaction.trace :=
    (adding_anonymizeEach _ _ _ _ _ looped).trace.trans grown
  have isToday : day = today := by
    obtain ⟨later, isTrace⟩ := sent
    rw [Done.readToday, ← isTrace] at dated
    exact Option.some.inj (isDay.symm.trans dated)
  subst isToday
  -- the retention is the same for every statement of the duty and at its commit
  have sees : ∀ entry ∈ middle.trace,
      (Sent.db entry).retentionMonths = (Ended.world done).db.retentionMonths := by
    intro entry member
    obtain ⟨_, _, _, _, upTo⟩ := chain.seen entry (grown.subset member)
    have own : StaysErased entry.world.db (Sent.db entry) :=
      staysErased_after (kept.seen entry (grown.subset member))
    exact own.months.trans upTo.months.symm
  have scrubs := anonymizeEach_scrubs ⟨by simp [Session.opened, Memory.empty], rfl⟩ looped sees
  obtain ⟨_, _, _, _, upTo⟩ := chain.seen read (sent.subset (by simp))
  have committed : StaysErased (Ended.world done).db (Done.result done) :=
    staysErased_after kept.writes
  have whole : StaysErased read.world.db (Done.result done) := upTo.trans committed
  intro driver member expired
  have left := Driver.left_of_expired expired
  obtain ⟨row, rowIn, sameId, company, sameEnd, stays⟩ := whole.leavers driver member left
  cases identified : row.anonymizedAt with
  | some instant => exact stays (by rw [identified]; rfl)
  | none =>
      have candidate : row ∈ read.leavers := by
        unfold Sent.leavers
        rw [looked.db]
        refine List.mem_filter.mpr ⟨rowIn, ?_⟩
        simp [sameEnd, left, identified, Connection.sees, looked.connection, Session.opened]
      have isExpired : row.isExpired (Ended.world done).db.retentionMonths day = true := by
        rw [committed.isExpired company sameEnd]
        exact expired
      obtain ⟨now, made⟩ := scrubs row candidate identified isExpired
      exact scrubbed_after kept.writes identified ((made_committed executed _).mpr made) driver
        member sameId.symm left

end Requests

/-! ### A purge -/

/-- `purge_expired`: three duties in this order, each a transaction of its own; the first one
that raises ends it. -/
def purgeExpired : List Request :=
  [.anonymizeExpiredDrivers, .pruneOldOutbox, .tombstoneDeletedCompanies]

/-- A purge that has raised: `duties` are committed, one after the other, and `raising` is the
next. Other transactions may have come between. -/
structure PurgeRaises (history duties : List Done) (raising : Done) (today : Date) : Prop where
  inOrder : (duties ++ [raising]).Sublist history
  requests : (duties ++ [raising]).map Ended.request <+: purgeExpired
  committed : ∀ done ∈ duties, Done.isCommitted done = true
  raised : ∃ error, Ended.outcome raising = some (.error error)
  dated : ∀ done ∈ duties ++ [raising], Ended.request done = .anonymizeExpiredDrivers →
    Done.readToday done = some today

/-- The drivers whose retention has elapsed are anonymized and the companies past their grace
are tombstoned, except those of one company. -/
structure Db.ErasedElsewhere (db : Db) (failed : Uuid) (today : Date) (threshold : Instant) :
    Prop where
  drivers : ∀ driver ∈ db.drivers, driver.companyId ≠ failed →
    driver.isExpired db.retentionMonths today = true → driver.anonymizedAt.isSome = true
  companies : ∀ company ∈ db.companies, company.id ≠ failed →
    company.deletionRequestedAt.any (· < threshold) = true → company.deletedAt.isSome = true

/-- No driver of another company waits for their anonymization. -/
def Db.NoDriverWaits (db : Db) (failed : Uuid) (today : Date) : Prop :=
  ∀ driver ∈ db.drivers, driver.anonymizedAt = none → driver.companyId ≠ failed →
    driver.isExpired db.retentionMonths today = false

/-- No other company waits for its tombstone. -/
def Db.NoCompanyWaits (db : Db) (failed : Uuid) (threshold : Instant) : Prop :=
  ∀ company ∈ db.companies, company.deletedAt = none → company.id ≠ failed →
    company.deletionRequestedAt.any (· < threshold) = false

theorem erasedElsewhere_iff {failed : Uuid} {threshold : Instant} :
    db.ErasedElsewhere failed today threshold ↔
      db.NoDriverWaits failed today ∧ db.NoCompanyWaits failed threshold := by
  constructor
  · rintro ⟨drivers, companies⟩
    refine ⟨fun driver member waits other => ?_, fun company member waits other => ?_⟩
    · refine Bool.eq_false_iff.mpr fun expired => ?_
      have anonymized := drivers driver member other expired
      rw [waits] at anonymized
      cases anonymized
    · refine Bool.eq_false_iff.mpr fun late => ?_
      have tombstoned := companies company member other late
      rw [waits] at tombstoned
      cases tombstoned
  · rintro ⟨drivers, companies⟩
    refine ⟨fun driver member other expired => ?_, fun company member other late => ?_⟩
    · cases waits : driver.anonymizedAt with
      | some instant => rfl
      | none =>
          rw [drivers driver member waits other] at expired
          cases expired
    · cases waits : company.deletedAt with
      | some instant => rfl
      | none =>
          rw [companies company member waits other] at late
          cases late

/-- A transaction that has anonymized what `today` gives it. -/
structure Done.Anonymizes (done : Done) (today : Date) : Prop where
  isDuty : Ended.request done = .anonymizeExpiredDrivers
  committed : done.isCommitted = true
  dated : Done.readToday done = some today

section Histories

variable (sha256 : Str → Str) (validateKennzeichen : Str → Option Str)

/-- The tables a transaction leaves the evidence and the alerts of. -/
def Done.KeepsLedgers (done : Done) : Prop :=
  ((system sha256 validateKennzeichen).leave done).db.checkLog = (Ended.world done).db.checkLog ∧
    ((system sha256 validateKennzeichen).leave done).db.alerts = (Ended.world done).db.alerts

/-- What a committed anonymization has anonymized is anonymized after every later transaction. -/
structure ErasureKept (world : World) (history : List Done) : Prop where
  now : ∀ done ∈ history, ∀ today, Done.Anonymizes done today → world.db.Anonymized today
  later : history.Pairwise fun earlier later => ∀ today, Done.Anonymizes earlier today →
    ((system sha256 validateKennzeichen).leave later).db.Anonymized today

variable {sha256 validateKennzeichen}

theorem leave_stays {done : Done}
    (isOver : Over (system sha256 validateKennzeichen) .unrestricted readCommitted (fun _ => True)
      (fun before after => StaysErased before.db after.db) done.world done) :
    StaysErased (Ended.world done).db ((system sha256 validateKennzeichen).leave done).db := by
  by_cases committed : done.isCommitted = true
  · obtain ⟨result, well⟩ := committed_well committed
    obtain ⟨_, _, start, _, _, _, ends, _⟩ := isOver
    rw [leave_committed well]
    exact staysErased_after (request_keepsErased (ends _ well)).writes
  · rw [leave_uncommitted (by simpa using committed)]
    exact .refl _

theorem ErasureKept.leave {done : Done} {history : List Done}
    (isOver : Over (system sha256 validateKennzeichen) .unrestricted readCommitted (fun _ => True)
      (fun before after => StaysErased before.db after.db) done.world done)
    (known : ErasureKept sha256 validateKennzeichen done.world history) :
    ErasureKept sha256 validateKennzeichen ((system sha256 validateKennzeichen).leave done)
      (history ++ [done]) := by
  have stays := leave_stays isOver
  constructor
  · intro other member today anonymizes
    rcases List.mem_append.mp member with old | new
    · exact stays.anonymized (known.now other old today anonymizes)
    · cases List.mem_singleton.mp new
      obtain ⟨result, well⟩ := committed_well anonymizes.committed
      rw [leave_committed well]
      exact anonymized_committed isOver anonymizes.isDuty anonymizes.committed anonymizes.dated
  · refine List.pairwise_append.mpr ⟨known.later, List.pairwise_singleton _ _, ?_⟩
    intro earlier member later isDone today anonymizes
    rw [List.mem_singleton.mp isDone]
    exact stays.anonymized (known.now earlier member today anonymizes)

theorem Scrubs.table {write : Write} (scrubs : Scrubs write) :
    write.table ≠ .log ∧ write.table ≠ .alert := by
  cases write <;> first | exact scrubs.elim | exact ⟨by simp [Write.table], by simp [Write.table]⟩

theorem duty_scrubs {request : Request} {start : World} {result : Outcome}
    (isDuty : request ∈ purgeExpired)
    (ended : postgres.Ends (transaction (request.body sha256 validateKennzeichen))
      (Session.opened none start.clock) (.ok result) after) :
    ∀ write ∈ after.writes, Scrubs write := by
  rcases transaction_ends ended with ⟨_, middle, same, body, executed⟩ | ⟨_, same, _⟩
  swap
  · cases same
  cases same
  have within : Within Scrubs (Session.opened none start.clock) middle := by
    have nothing : ∀ allowed : Write → Prop,
        ∀ write ∈ (Session.opened none start.clock).memory.pending, allowed write := by
      simp [Session.opened, Memory.empty]
    simp only [purgeExpired, List.mem_cons, List.not_mem_nil, or_false] at isDuty
    rcases isDuty with rfl | rfl | rfl
    · rcases ends_return.mp body with ⟨count, _, ran⟩ | ⟨_, same, _⟩
      · exact (within_anonymizeExpiredDrivers _ _ _ ran (.refl (nothing _))).mono
          fun _ anonymizes => anonymizes.1
      · cases same
    · rcases ends_return.mp body with ⟨count, _, ran⟩ | ⟨_, same, _⟩
      · exact within_pruneOldOutbox _ _ _ ran (.refl (nothing _))
      · cases same
    · rcases ends_return.mp body with ⟨count, _, ran⟩ | ⟨_, same, _⟩
      · exact within_tombstoneDeletedCompanies _ _ _ ran (.refl (nothing _))
      · cases same
  obtain ⟨more, whole, all⟩ := (within.committed executed).writes
  intro write member
  rw [whole] at member
  exact all write (by simpa using member)

theorem duty_keepsLedgers {done : Done} {now : World}
    (isOver : Over (system sha256 validateKennzeichen) .unrestricted readCommitted (fun _ => True)
      (fun before after => StaysErased before.db after.db) now done)
    (isDuty : Ended.request done ∈ purgeExpired) :
    Done.KeepsLedgers sha256 validateKennzeichen done := by
  unfold Done.KeepsLedgers
  by_cases committed : done.isCommitted = true
  · obtain ⟨result, well⟩ := committed_well committed
    obtain ⟨_, _, start, _, _, _, ends, _⟩ := isOver
    have ended := ends _ well
    have unpinned : Request.tenant (Ended.request done) = none := by
      simp only [purgeExpired, List.mem_cons, List.not_mem_nil, or_false] at isDuty
      rcases isDuty with same | same | same <;> rw [same] <;> rfl
    change postgres.Ends (transaction ((Ended.request done).body sha256 validateKennzeichen))
      (Session.opened (Ended.request done).tenant start.clock) (.ok result)
      done.transaction at ended
    rw [unpinned] at ended
    have scrubs := duty_scrubs isDuty ended
    rw [leave_committed well]
    exact ⟨Db.after_checkLog _ fun write member => (scrubs write member).table.1,
      Db.after_alerts _ fun write member => (scrubs write member).table.2⟩
  · rw [leave_uncommitted (by simpa using committed)]
    exact ⟨rfl, rfl⟩

/-- A purge that raises later has anonymized first. -/
theorem PurgeRaises.anonymized {world : World} {history duties : List Done} {raising : Done}
    (purge : PurgeRaises history duties raising today)
    (known : ErasureKept sha256 validateKennzeichen world history)
    (isLater : Ended.request raising ≠ .anonymizeExpiredDrivers) :
    ((system sha256 validateKennzeichen).leave raising).db.Anonymized today := by
  have requests := purge.requests
  cases duties with
  | nil =>
      obtain ⟨isFirst, _⟩ := List.cons_prefix_cons.mp requests
      exact absurd isFirst isLater
  | cons first rest =>
      obtain ⟨isFirst, _⟩ := List.cons_prefix_cons.mp requests
      have anonymizes : Done.Anonymizes first today :=
        ⟨isFirst, purge.committed first List.mem_cons_self, purge.dated first (by simp) isFirst⟩
      have inOrder := known.later.sublist purge.inOrder
      rw [List.cons_append] at inOrder
      exact (List.pairwise_cons.mp inOrder).1 raising (by simp) today anonymizes

/-- **One tenant's failure undoes the erasure of every other.** A purge that raises leaves the
others erased exactly if nobody else was waiting for the duty that raised, or for a later one. -/
theorem purge_spares_iff {world : World}
    {config : Config World Memory Connection Statement Answer Env Error Request Outcome}
    (reached : Reachable (system sha256 validateKennzeichen) .unrestricted ⟨world, [], []⟩ config)
    {duties : List Done} {raising : Done} (purge : PurgeRaises config.ended duties raising today)
    (failed : Uuid) (threshold : Instant) :
    (((system sha256 validateKennzeichen).leave raising).db.ErasedElsewhere failed today threshold ∧
        ∀ done ∈ duties ++ [raising], Done.KeepsLedgers sha256 validateKennzeichen done) ↔
      (Ended.request raising = .anonymizeExpiredDrivers →
          (Ended.world raising).db.NoDriverWaits failed today) ∧
        (Ended.world raising).db.NoCompanyWaits failed threshold := by
  have laws := system_laws sha256 validateKennzeichen
  have discipline := erasureDiscipline sha256 validateKennzeichen
  have quiet : Sound (system sha256 validateKennzeichen) .unrestricted readCommitted
      (fun _ => True) (fun before after => StaysErased before.db after.db) ⟨world, [], []⟩ :=
    .quiet trivial
  have known : ErasureKept sha256 validateKennzeichen config.world config.ended := by
    refine Sound.recorded laws discipline (fun _ _ known => ⟨known.now, known.later⟩)
      ErasureKept.leave quiet ⟨by simp, List.Pairwise.nil⟩ reached
  have sound := (Sound.reachable laws discipline quiet reached).1
  obtain ⟨error, isError⟩ := purge.raised
  have uncommitted : Done.isCommitted raising = false := by
    simp [Done.isCommitted, isError]
  rw [leave_uncommitted uncommitted, erasedElsewhere_iff]
  constructor
  · rintro ⟨⟨drivers, companies⟩, _⟩
    exact ⟨fun _ => drivers, companies⟩
  · rintro ⟨drivers, companies⟩
    refine ⟨⟨?_, companies⟩, fun done member => ?_⟩
    · by_cases isFirst : Ended.request raising = .anonymizeExpiredDrivers
      · exact drivers isFirst
      · have erased : (Ended.world raising).db.Anonymized today := by
          rw [← leave_uncommitted uncommitted]
          exact purge.anonymized known isFirst
        intro driver member waits _
        refine Bool.eq_false_iff.mpr fun expired => ?_
        have anonymized := erased driver member expired
        rw [waits] at anonymized
        cases anonymized
    · refine duty_keepsLedgers (sound.concluded done (purge.inOrder.subset member)) ?_
      exact purge.requests.subset (List.mem_map_of_mem member)

end Histories

/-! ### A driver beyond the calendar -/

def fleetLeaver (number company : Nat) (employmentEnd : Date) : Driver :=
  { Driver.created (fleetId number) (fleetId company) "Max".toList "Muster".toList none with
    employmentEnd := some employmentEnd }

/-- The retention of this driver ends after the last day of the calendar. -/
def endlessLeaver : Driver :=
  fleetLeaver 5 100 ⟨9999, 6, 30, by decide⟩

/-- The retention of this driver of another company has elapsed. -/
def elapsedLeaver : Driver :=
  fleetLeaver 6 200 ⟨1968, 3, 31, by decide⟩

/-- Two companies that keep their drivers for a year. -/
def leaverWorld (drivers : Table Driver) : World where
  db :=
    { Db.empty with
      companies := (Table.empty.insert ⟨fleetId 100, "Nord".toList, 12, none, none⟩).insert
        ⟨fleetId 200, "Süd".toList, 12, none, none⟩
      drivers := drivers }
  clock := fleetWorld.clock

def purgeRun : List (Library.Choice Env Request) :=
  .start .anonymizeExpiredDrivers :: fleetRun 0 1 8 ++ [.finish 0]

def Done.error (done : Done) : Option Error :=
  match done.outcome with
  | some (.error error) => some error
  | _ => none

def Request.anonymizes : Request → Bool
  | .anonymizeExpiredDrivers => true
  | _ => false

def purgeDay : Date :=
  ⟨1970, 1, 1, by decide⟩

def raisesFirst (done : Done) : Bool :=
  (Ended.request done).anonymizes &&
    decide (done.error = some .value ∧ Done.readToday done = some purgeDay)

theorem purge_of_raisesFirst {history : List Done} {raising : Done} (member : raising ∈ history)
    (raises : raisesFirst raising = true) :
    PurgeRaises history [] raising purgeDay := by
  obtain ⟨isFirst, both⟩ := (Bool.and_eq_true _ _).mp raises
  obtain ⟨isError, dated⟩ := of_decide_eq_true both
  have isDuty : Ended.request raising = .anonymizeExpiredDrivers := by
    unfold Request.anonymizes at isFirst
    split at isFirst
    · assumption
    · cases isFirst
  refine ⟨List.singleton_sublist.mpr member, by simp [purgeExpired, isDuty], by simp, ?_, ?_⟩
  · unfold Done.error at isError
    split at isError
    · rename_i error raised
      exact ⟨error, raised⟩
    · cases isError
  · intro done inside _
    rw [List.mem_singleton.mp inside]
    exact dated

/-- Beside the driver that raises, one of another company who is anonymized already, and one
of whom the retention has not elapsed. -/
def sparedDrivers : Table Driver :=
  ((Table.empty.insert endlessLeaver).insert (elapsedLeaver.scrubbed 0)).insert
    (fleetLeaver 7 200 ⟨1969, 12, 31, by decide⟩)

/-- The driver is due, of another company and anonymized. -/
def Db.spares (db : Db) (driver : Driver) : Bool :=
  driver.isExpired db.retentionMonths purgeDay &&
    decide (driver.companyId ≠ fleetId 100 ∧ driver.anonymizedAt.isSome = true)

/-- Where nobody else waits, the raise harms nobody else: who was anonymized stays so. -/
theorem purge_spares_alone : ∃ config raising,
    Reachable (system id some) .unrestricted ⟨leaverWorld sparedDrivers, [], []⟩ config ∧
      PurgeRaises config.ended [] raising purgeDay ∧
        ((system id some).leave raising).db.ErasedElsewhere (fleetId 100) purgeDay
          fleetWorld.clock ∧
        ∃ driver ∈ ((system id some).leave raising).db.drivers,
          ((system id some).leave raising).db.spares driver = true := by
  have ran : ((system id some).schedule ⟨leaverWorld sparedDrivers, [], []⟩ purgeRun).any
      (fun config => config.ended.any fun done => raisesFirst done &&
        (Ended.world done).db.drivers.rows.all (fun driver =>
          decide (driver.anonymizedAt.isSome = true ∨ driver.companyId = fleetId 100 ∨
            driver.isExpired (Ended.world done).db.retentionMonths purgeDay = false)) &&
        (Ended.world done).db.companies.rows.all (fun company =>
          decide (company.deletionRequestedAt = none)) &&
        ((system id some).leave done).db.drivers.rows.any
          ((system id some).leave done).db.spares) = true := by
    decide +kernel
  obtain ⟨config, ran, found⟩ := (Option.any_eq_true _ _).mp ran
  obtain ⟨raising, member, holds⟩ := List.any_eq_true.mp found
  obtain ⟨both, spared⟩ := (Bool.and_eq_true _ _).mp holds
  obtain ⟨both, companies⟩ := (Bool.and_eq_true _ _).mp both
  obtain ⟨raises, drivers⟩ := (Bool.and_eq_true _ _).mp both
  have purge := purge_of_raisesFirst member raises
  have spares := (purge_spares_iff (Reachable.of_schedule ran) purge (fleetId 100)
    fleetWorld.clock).mpr ⟨fun _ driver inside waits other => ?_, fun company inside _ _ => ?_⟩
  · exact ⟨config, raising, Reachable.of_schedule ran, purge, spares.1,
      List.any_eq_true.mp spared⟩
  · rcases of_decide_eq_true (List.all_eq_true.mp drivers driver inside) with done | own | early
    · rw [waits] at done
      cases done
    · exact absurd own other
    · exact early
  · rw [of_decide_eq_true (List.all_eq_true.mp companies company inside)]
    rfl

/-- Where another company's driver waits, they are not anonymized. -/
theorem purge_leaves_other :
    ¬ ∀ config, Reachable (system id some) .unrestricted
        ⟨leaverWorld ((Table.empty.insert endlessLeaver).insert elapsedLeaver), [], []⟩ config →
      ∀ duties raising today failed threshold, PurgeRaises config.ended duties raising today →
        ((system id some).leave raising).db.ErasedElsewhere failed today threshold ∧
          ∀ done ∈ duties ++ [raising], Done.KeepsLedgers id some done := by
  intro claimed
  have ran : ((system id some).schedule
      ⟨leaverWorld ((Table.empty.insert endlessLeaver).insert elapsedLeaver), [], []⟩
        purgeRun).any (fun config => config.ended.any fun done => raisesFirst done &&
          ((system id some).leave done).db.drivers.rows.any fun driver =>
            driver.isExpired ((system id some).leave done).db.retentionMonths
                purgeDay &&
              decide (driver.companyId ≠ fleetId 100 ∧ driver.anonymizedAt = none)) = true := by
    decide +kernel
  obtain ⟨config, ran, found⟩ := (Option.any_eq_true _ _).mp ran
  obtain ⟨raising, member, holds⟩ := List.any_eq_true.mp found
  obtain ⟨raises, waits⟩ := (Bool.and_eq_true _ _).mp holds
  obtain ⟨driver, inside, both⟩ := List.any_eq_true.mp waits
  obtain ⟨expired, left⟩ := (Bool.and_eq_true _ _).mp both
  obtain ⟨other, waiting⟩ := of_decide_eq_true left
  obtain ⟨erased, _⟩ := claimed config (Reachable.of_schedule ran) [] raising _ (fleetId 100)
    fleetWorld.clock (purge_of_raisesFirst member raises)
  have anonymized := erased.drivers driver inside other expired
  rw [waiting] at anonymized
  cases anonymized

end Fristenwaechter
