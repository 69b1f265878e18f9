import Fristenwaechter.Flushing
import Fristenwaechter.Services.Checks

/-!
Owns what the functions of `services/checks` do from a session without pending
changes: which statements they send, what they write, and where they fail.
-/

namespace Fristenwaechter

variable {sha256 : Str → Str} {session after : Session}

/-! ### Evidence -/

/-- One evidence row is about to be executed: the tip of the subject's chain was read
as `tip`, and `row` points to it. -/
structure Appends (sha256 : Str → Str) (companyId : Uuid) (kind result : Str) (performedOn : Date)
    (driverId vehicleId : Option Uuid) (subject : Subject) (method : Option Str)
    (performedById : Option Uuid) (params : List (Str × Json)) (session : Session)
    (row : ComplianceCheckLog) (tip defaults write : Sent) : Prop where
  read : session.Asked (.latestHash subject) tip
  drawn : (session.saw tip).Asked .serverDefaults defaults
  executed : ((session.saw tip).saw defaults).Asked (.execute (.insertLog row)) write
  isRow : row = entryRow sha256 companyId driverId vehicleId kind result performedOn method
    performedById params ((tip.tip subject).map ComplianceCheckLog.entryHash) defaults.env.fresh
    session.connection.startedAt

theorem appendCheck_ends {companyId : Uuid} {kind result : Str} {performedOn : Date}
    {driverId vehicleId : Option Uuid} {subject : Subject} {method : Option Str}
    {performedById : Option Uuid} {params : List (Str × Json)}
    {outcome : Except Error ComplianceCheckLog} (clean : session.memory.pending = [])
    (ended : postgres.Ends (appendCheck sha256 companyId kind result performedOn driverId vehicleId
      subject method performedById params) session outcome after) :
    ∃ row tip defaults write, Appends sha256 companyId kind result performedOn driverId vehicleId
        subject method performedById params session row tip defaults write ∧
      ((outcome = .ok row ∧ (Write.insertLog row).check write.db = .ok () ∧
          after = ((session.saw tip).saw defaults).wrote write (.insertLog row)) ∨
        ∃ error, outcome = .error error ∧ (Write.insertLog row).check write.db = .error error ∧
          after = ((session.saw tip).saw defaults).saw write) := by
  obtain ⟨tip, tipAsked, ended⟩ := step_latestHash clean ended
  obtain ⟨defaults, defaultsAsked, ended⟩ := step_serverDefaults ended
  have ended := step_add ended
  rw [Session.saw_memory, Session.saw_memory, clean, List.nil_append] at ended
  obtain ⟨write, writeAsked, ⟨valid, rest⟩ | ⟨error, failed, rfl, rfl⟩⟩ :=
    step_flush_one (by simp [clean]) ended
  · obtain ⟨rfl, rfl⟩ := rest
    exact ⟨_, tip, defaults, write, ⟨tipAsked, defaultsAsked, writeAsked, rfl⟩,
      .inl ⟨rfl, valid, rfl⟩⟩
  · exact ⟨_, tip, defaults, write, ⟨tipAsked, defaultsAsked, writeAsked, rfl⟩,
      .inr ⟨error, rfl, failed, rfl⟩⟩

theorem step_appendCheck {Final : Type} {companyId : Uuid} {kind result : Str}
    {performedOn : Date} {driverId vehicleId : Option Uuid} {subject : Subject}
    {method : Option Str} {performedById : Option Uuid} {params : List (Str × Json)}
    {next : ComplianceCheckLog → Work Final} {outcome : Except Error Final}
    (clean : session.memory.pending = [])
    (ended : postgres.Ends (appendCheck sha256 companyId kind result performedOn driverId vehicleId
      subject method performedById params >>= next) session outcome after) :
    ∃ row tip defaults write, Appends sha256 companyId kind result performedOn driverId vehicleId
        subject method performedById params session row tip defaults write ∧
      (((Write.insertLog row).check write.db = .ok () ∧
          postgres.Ends (next row) (((session.saw tip).saw defaults).wrote write (.insertLog row))
            outcome after) ∨
        ∃ error, outcome = .error error ∧ (Write.insertLog row).check write.db = .error error ∧
          after = ((session.saw tip).saw defaults).saw write) := by
  rcases ends_then.mp ended with ⟨value, middle, first, second⟩ | ⟨error, rfl, first⟩
  · obtain ⟨row, tip, defaults, write, appends, ⟨same, valid, rfl⟩ | ⟨_, same, _⟩⟩ :=
      appendCheck_ends clean first
    · cases same
      exact ⟨_, tip, defaults, write, appends, .inl ⟨valid, second⟩⟩
    · cases same
  · obtain ⟨row, tip, defaults, write, appends, ⟨same, _⟩ | ⟨_, same, failed, rfl⟩⟩ :=
      appendCheck_ends clean first
    · cases same
    · cases same
      exact ⟨row, tip, defaults, write, appends, .inr ⟨_, rfl, failed, rfl⟩⟩

/-! ### Resolution -/

/-- The UPDATE of the case that a PASSED check has found. -/
inductive Resolves (resolvedById : Option Uuid) : Option EscalationCase → List Write → Prop
  | nothing : Resolves resolvedById none []
  | resolved (case : EscalationCase) (now : Instant) :
      Resolves resolvedById (some case) [.updateCase (case.resolved now resolvedById)]

theorem maybeResolveOpenCase_ends {driver : Driver} {resolvedById : Option Uuid}
    {outcome : Except Error (Option Uuid)} (clean : session.memory.pending = [])
    (ended : postgres.Ends (maybeResolveOpenCase driver resolvedById) session outcome after) :
    ∃ seen more writes, session.Asked (.openCase driver.id) seen ∧
      Resolves resolvedById (seen.openCase driver.id) writes ∧
      outcome = .ok ((seen.openCase driver.id).map EscalationCase.id) ∧
      after = ((session.saw seen).sawAll more).withPending
        (driver.update driver.unlocked ++ writes) := by
  obtain ⟨seen, asked, ended⟩ := step_openCase clean ended
  have ended := step_addAll ended
  rw [Session.saw_memory, clean, List.nil_append] at ended
  cases found : seen.openCase driver.id with
  | none =>
      rw [found] at ended
      obtain ⟨rfl, rfl⟩ := ended
      exact ⟨seen, [], [], asked, found ▸ .nothing, by rw [found]; rfl, by
        simp [Session.sawAll, Session.saw]⟩
  | some case =>
      rw [found] at ended
      obtain ⟨now, _, ended⟩ := step_now ended
      have ended := step_add ended
      obtain ⟨rfl, rfl⟩ := ended
      exact ⟨seen, [now], _, asked, found ▸ .resolved case now.env.now, by rw [found]; rfl, rfl⟩

/-! ### Completion -/

section Completion

variable (sha256) (deadlineId companyId : Uuid) (result : Str) (completedOn : Date)
variable (performedById : Option Uuid) (method : Option Str)

/-- What a check leaves pending after its evidence: nothing for another result than
PASSED, else the changes of driver and case. -/
inductive Lifts (driver : Driver) (session : Session) :
    Option Uuid → Session → List Write → Prop
  | other (differs : result ≠ resultPassed) : Lifts driver session none session []
  | passed (same : result = resultPassed) (seen : Sent) (more : List Sent) (writes : List Write)
      (asked : session.Asked (.openCase driver.id) seen)
      (resolves : Resolves performedById (seen.openCase driver.id) writes) :
      Lifts driver session ((seen.openCase driver.id).map EscalationCase.id)
        ((session.saw seen).sawAll more) (driver.update driver.unlocked ++ writes)

/-- The FSK branch of a completion has locked the driver row and read the evidence
tip of the copy the session has of it. -/
structure ReadsFsk (driverId : Uuid) (session : Session) (lock : Sent) (row driver : Driver)
    (locked : Session) (log : ComplianceCheckLog) (tip defaults write : Sent) : Prop where
  asked : session.Asked (.driverForUpdate driverId none) lock
  found : lock.driver driverId none = some row
  isCopy : driver = Memory.instanceOf session.memory.drivers row
  isLocked : locked = (session.locked lock [.driver driverId]).withMemory
    (session.memory.loadDriver row)
  appends : Appends sha256 companyId "FSK".toList result completedOn (some driver.id) none
    (.driver driver.id) method performedById [] locked log tip defaults write

/-- The FSK branch of a completion. -/
inductive CompletesFsk (driverId : Uuid) (session : Session) :
    Except Error Completion → Session → Prop
  | missing (lock : Sent) (asked : session.Asked (.driverForUpdate driverId none) lock)
      (absent : lock.driver driverId none = none) (text : Str) :
      CompletesFsk driverId session (.error (.deadlineNotFound text)) (session.saw lock)
  | refused (lock : Sent) (row driver : Driver) (locked : Session) (log : ComplianceCheckLog)
      (tip defaults write : Sent)
      (reads : ReadsFsk sha256 companyId result completedOn performedById method driverId session
        lock row driver locked log tip defaults write)
      (error : Error) (failed : (Write.insertLog log).check write.db = .error error) :
      CompletesFsk driverId session (.error error) (((locked.saw tip).saw defaults).saw write)
  | undated (none : nextFskDue completedOn fskIntervalMonths = none) (after : Session) :
      CompletesFsk driverId session (.error .value) after
  | done (lock : Sent) (row driver : Driver) (locked last : Session) (log : ComplianceCheckLog)
      (tip defaults write : Sent)
      (reads : ReadsFsk sha256 companyId result completedOn performedById method driverId session
        lock row driver locked log tip defaults write)
      (valid : (Write.insertLog log).check write.db = .ok ())
      (caseId : Option Uuid) (lifted : List Write)
      (lifts : Lifts result performedById driver
        (((locked.saw tip).saw defaults).wrote write (.insertLog log)) caseId last lifted)
      (due : Date) (dated : nextFskDue completedOn fskIntervalMonths = some due) :
      CompletesFsk driverId session (.ok (log, caseId, due, false)) (last.withPending lifted)

end Completion

theorem lifts_ends {driver : Driver} {result : Str} {performedById : Option Uuid}
    {outcome : Except Error (Option Uuid)} (clean : session.memory.pending = [])
    (ended : postgres.Ends
      (if result = resultPassed then maybeResolveOpenCase driver performedById else pure none)
      session outcome after) :
    ∃ caseId last lifted, outcome = .ok caseId ∧
      Lifts result performedById driver session caseId last lifted ∧
      after = last.withPending lifted := by
  split at ended
  · rename_i same
    obtain ⟨seen, more, writes, asked, resolves, rfl, rfl⟩ := maybeResolveOpenCase_ends clean ended
    exact ⟨_, _, _, rfl, .passed same seen more writes asked resolves, rfl⟩
  · rename_i differs
    obtain ⟨rfl, rfl⟩ := ended
    exact ⟨none, _, [], rfl, .other differs, (withPending_self clean).symm⟩

theorem completeFsk_ends {deadlineId companyId driverId : Uuid} {result : Str}
    {completedOn : Date} {performedById : Option Uuid} {method : Option Str}
    {outcome : Except Error Completion} (clean : session.memory.pending = [])
    (ended : postgres.Ends (completeFsk sha256 deadlineId companyId result completedOn
      performedById method driverId) session outcome after) :
    CompletesFsk sha256 companyId result completedOn performedById method driverId session
      outcome after := by
  obtain ⟨lock, asked, ⟨absent, ended⟩ | ⟨row, found, ended⟩⟩ := step_driverForUpdate clean ended
  · obtain ⟨rfl, rfl⟩ := ended
    exact .missing lock asked absent _
  · obtain ⟨log, tip, defaults, write, appends, ⟨valid, ended⟩ | ⟨error, rfl, failed, rfl⟩⟩ :=
      step_appendCheck (by simp [clean]) ended
    · rcases ends_then.mp ended with ⟨caseId, last, first, second⟩ | ⟨error, _, first⟩
      · obtain ⟨_, last, lifted, same, lifts, rfl⟩ := lifts_ends (by simp [clean]) first
        cases same
        rcases step_orThrow second with ⟨due, dated, ended⟩ | ⟨none, rfl, rfl⟩
        · obtain ⟨rfl, rfl⟩ := ended
          exact .done lock row _ _ last log tip defaults write ⟨asked, found, rfl, rfl, appends⟩
            valid caseId lifted lifts due dated
        · exact .undated none _
      · obtain ⟨_, _, _, same, _⟩ := lifts_ends (by simp [clean]) first
        cases same
    · exact .refused lock row _ _ log tip defaults write ⟨asked, found, rfl, rfl, appends⟩ error
        failed

/-- The HU or UVV branch of a completion: the evidence of the vehicle is appended and
nothing is left pending. -/
structure Inspects (sha256 : Str → Str) (companyId : Uuid) (kind result : Str)
    (completedOn : Date) (performedById : Option Uuid) (method : Option Str) (vehicleId : Uuid)
    (locked : Session) (log : ComplianceCheckLog) (tip defaults write : Sent) : Prop where
  appends : Appends sha256 companyId kind result completedOn none (some vehicleId)
    (.vehicle vehicleId) method performedById
    (Json.setMember "vehicle_id".toList (.str vehicleId.text) []) locked log tip defaults write
  valid : (Write.insertLog log).check write.db = .ok ()

theorem completeUvv_ends {companyId vehicleId : Uuid} {result : Str} {completedOn : Date}
    {performedById : Option Uuid} {method : Option Str} {completion : Completion}
    (clean : session.memory.pending = [])
    (ended : postgres.Ends (completeUvv sha256 companyId result completedOn performedById method
      (some vehicleId)) session (.ok completion) after) :
    ∃ log tip defaults write due, completion = (log, none, due, false) ∧
      nextUvvDue completedOn = some due ∧
      Inspects sha256 companyId "UVV".toList result completedOn performedById method vehicleId
        session log tip defaults write ∧
      after = ((session.saw tip).saw defaults).wrote write (.insertLog log) := by
  obtain ⟨log, tip, defaults, write, appends, ⟨valid, ended⟩ | ⟨_, same, _⟩⟩ :=
    step_appendCheck clean ended
  · rcases step_orThrow ended with ⟨due, dated, ended⟩ | ⟨_, same, _⟩
    · obtain ⟨same, rfl⟩ := ended
      cases same
      exact ⟨log, tip, defaults, write, due, rfl, dated, ⟨appends, valid⟩, rfl⟩
    · cases same
  · cases same

/-- The UVV branch begins with a SELECT, so it flushes what is pending. -/
theorem completeUvv_autoflush {companyId vehicleId : Uuid} {result : Str} {completedOn : Date}
    {performedById : Option Uuid} {method : Option Str} {outcome : Except Error Completion}
    {writes : List Write} (clean : session.memory.pending = [])
    (ended : postgres.Ends (completeUvv sha256 companyId result completedOn performedById method
      (some vehicleId)) (session.withPending writes) outcome after) :
    (∃ middle, Executed (unitOfWork writes) session middle ∧ middle.memory.pending = [] ∧
        postgres.Ends (completeUvv sha256 companyId result completedOn performedById method
          (some vehicleId)) middle outcome after) ∨
      ∃ error, outcome = .error error ∧ Refused (unitOfWork writes) session error after := by
  rcases ends_then.mp ended with ⟨log, last, first, second⟩ | ⟨error, rfl, first⟩
  · rcases step_autoflush clean first with ⟨middle, executed, cleanAfter, rest⟩ | ⟨_, same, _⟩
    · exact .inl ⟨middle, executed, cleanAfter, ends_then.mpr (.inl ⟨log, last, rest, second⟩)⟩
    · cases same
  · rcases step_autoflush clean first with ⟨middle, executed, cleanAfter, rest⟩ |
      ⟨_, same, refused⟩
    · exact .inl ⟨middle, executed, cleanAfter, ends_then.mpr (.inr ⟨error, rfl, rest⟩)⟩
    · cases same
      exact .inr ⟨_, rfl, refused⟩

theorem completeHu_ends {deadlineId companyId vehicleId : Uuid} {result : Str}
    {completedOn : Date} {performedById : Option Uuid} {method : Option Str}
    {completion : Completion} (clean : session.memory.pending = [])
    (ended : postgres.Ends (completeHu sha256 deadlineId companyId result completedOn
      performedById method vehicleId) session (.ok completion) after) :
    ∃ lock row vehicle locked log tip defaults write due nachpruefung,
      session.Asked (.vehicleForUpdate vehicleId) lock ∧ lock.vehicle vehicleId = some row ∧
      vehicle = Memory.instanceOf session.memory.vehicles row ∧
      locked = (session.locked lock [.vehicle vehicleId]).withMemory
        (session.memory.loadVehicle row) ∧
      completion = (log, none, due, nachpruefung) ∧
      Inspects sha256 companyId "HU".toList result completedOn performedById method vehicle.id
        locked log tip defaults write ∧
      after = ((locked.saw tip).saw defaults).wrote write (.insertLog log) := by
  obtain ⟨lock, asked, ⟨_, ended⟩ | ⟨row, found, ended⟩⟩ := step_vehicleForUpdate clean ended
  · cases ended.1
  · obtain ⟨log, tip, defaults, write, appends, ⟨valid, ended⟩ | ⟨_, same, _⟩⟩ :=
      step_appendCheck (by simp [clean]) ended
    · split at ended
      · rcases step_orThrow ended with ⟨due, _, ended⟩ | ⟨_, same, _⟩
        · obtain ⟨same, rfl⟩ := ended
          cases same
          exact ⟨lock, row, _, _, log, tip, defaults, write, due, true, asked, found, rfl, rfl, rfl,
            ⟨appends, valid⟩, rfl⟩
        · cases same
      · rcases step_orThrow ended with ⟨due, _, ended⟩ | ⟨_, same, _⟩
        · obtain ⟨same, rfl⟩ := ended
          cases same
          exact ⟨lock, row, _, _, log, tip, defaults, write, due, false, asked, found, rfl, rfl,
            rfl, ⟨appends, valid⟩, rfl⟩
        · cases same
    · cases same

section Deadlines

variable (sha256) (deadlineId companyId : Uuid) (result : Str) (completedOn : Date)
variable (performedById : Option Uuid) (method : Option Str)

/-- What a completion has done when its evidence is recorded: by kind of the deadline,
the evidence row of the subject and the changes left pending. -/
inductive RecordsEvidence (parent : Deadline) (session : Session) :
    ComplianceCheckLog → Option Uuid → Date → Bool → Session → List Write → Prop
  | fsk (driverId : Uuid) (kind : parent.kind = .fsk) (subject : parent.subject = .driver driverId)
      (lock : Sent) (row driver : Driver) (locked last : Session) (log : ComplianceCheckLog)
      (tip defaults write : Sent)
      (reads : ReadsFsk sha256 companyId result completedOn performedById method driverId session
        lock row driver locked log tip defaults write)
      (valid : (Write.insertLog log).check write.db = .ok ())
      (caseId : Option Uuid) (lifted : List Write)
      (lifts : Lifts result performedById driver
        (((locked.saw tip).saw defaults).wrote write (.insertLog log)) caseId last lifted)
      (due : Date) (dated : nextFskDue completedOn fskIntervalMonths = some due) :
      RecordsEvidence parent session log caseId due false last lifted
  | hu (vehicleId : Uuid) (kind : parent.kind = .hu) (subject : parent.subject = .vehicle vehicleId)
      (lock : Sent) (row vehicle : Vehicle) (locked : Session)
      (asked : session.Asked (.vehicleForUpdate vehicleId) lock)
      (found : lock.vehicle vehicleId = some row)
      (isCopy : vehicle = Memory.instanceOf session.memory.vehicles row)
      (isLocked : locked = (session.locked lock [.vehicle vehicleId]).withMemory
        (session.memory.loadVehicle row))
      (log : ComplianceCheckLog) (tip defaults write : Sent)
      (inspects : Inspects sha256 companyId "HU".toList result completedOn performedById method
        vehicle.id locked log tip defaults write)
      (due : Date) (nachpruefung : Bool) :
      RecordsEvidence parent session log none due nachpruefung
        (((locked.saw tip).saw defaults).wrote write (.insertLog log)) []
  | uvv (vehicleId : Uuid) (kind : parent.kind = .uvv)
      (subject : parent.subject = .vehicle vehicleId)
      (log : ComplianceCheckLog) (tip defaults write : Sent)
      (inspects : Inspects sha256 companyId "UVV".toList result completedOn performedById method
        vehicleId session log tip defaults write)
      (due : Date) :
      RecordsEvidence parent session log none due false
        (((session.saw tip).saw defaults).wrote write (.insertLog log)) []

/-- Why a completion that has locked its deadline fails; only the FSK failures are
followed further. -/
inductive FailsToComplete (parent : Deadline) (locked : Session) (error : Error)
    (after : Session) : Prop
  | update (refused : Refused (parent.update (parent.completed completedOn)) locked error after)
  | fsk (driverId : Uuid) (kind : parent.kind = .fsk) (subject : parent.subject = .driver driverId)
      (middle : Session)
      (executed : Executed (parent.update (parent.completed completedOn)) locked middle)
      (fails : CompletesFsk sha256 companyId result completedOn performedById method driverId
        middle (.error error) after)
  | inspection (other : ∀ driverId, ¬ (parent.kind = .fsk ∧ parent.subject = .driver driverId))
  | flush (middle last : Session) (log : ComplianceCheckLog) (caseId : Option Uuid) (due : Date)
      (nachpruefung : Bool) (lifted : List Write) (defaults : Sent)
      (executed : Executed (parent.update (parent.completed completedOn)) locked middle)
      (records : RecordsEvidence sha256 companyId result completedOn performedById method parent
        middle log caseId due nachpruefung last lifted)
      (refused : Refused
        (.insertDeadline (spawn parent due nachpruefung defaults.env.fresh) :: lifted)
        (last.saw defaults) error after)

/-- A completion that has locked its deadline. -/
structure LocksDeadline (session : Session) (lock : Sent) (row parent : Deadline)
    (locked : Session) : Prop where
  asked : session.Asked (.deadlineForUpdate deadlineId companyId) lock
  found : lock.deadline deadlineId companyId = some row
  isCopy : parent = Memory.instanceOf session.memory.deadlines row
  isLocked : locked = (session.locked lock [.deadline deadlineId]).withMemory
    (session.memory.loadDeadline row)

inductive Completes (session : Session) : Except Error CompletionResult → Session → Prop
  | absent (lock : Sent) (asked : session.Asked (.deadlineForUpdate deadlineId companyId) lock)
      (missing : lock.deadline deadlineId companyId = none) (text : Str) :
      Completes session (.error (.deadlineNotFound text)) (session.saw lock)
  | failed (lock : Sent) (row parent : Deadline) (locked after : Session) (error : Error)
      (locks : LocksDeadline deadlineId companyId session lock row parent locked)
      (fails : FailsToComplete sha256 companyId result completedOn performedById method parent
        locked error after) :
      Completes session (.error error) after
  | done (lock : Sent) (row parent : Deadline) (locked middle last after : Session)
      (locks : LocksDeadline deadlineId companyId session lock row parent locked)
      (executed : Executed (parent.update (parent.completed completedOn)) locked middle)
      (log : ComplianceCheckLog) (caseId : Option Uuid) (due : Date) (nachpruefung : Bool)
      (lifted : List Write)
      (records : RecordsEvidence sha256 companyId result completedOn performedById method parent
        middle log caseId due nachpruefung last lifted)
      (defaults : Sent) (drawn : (last.withPending lifted).Asked .serverDefaults defaults)
      (written : Executed
        (.insertDeadline (spawn parent due nachpruefung defaults.env.fresh) :: lifted)
        (last.saw defaults) after) :
      Completes session
        (.ok ⟨parent.id, defaults.env.fresh, log.id, caseId, nachpruefung⟩) after

end Deadlines

@[simp] theorem unitOfWork_update (loaded current : Deadline) :
    unitOfWork (loaded.update current) = loaded.update current := by
  unfold Deadline.update
  split <;> rfl

/-- The successor goes before the changes of driver and case. -/
theorem unitOfWork_lifted {result : Str} {performedById : Option Uuid} {driver : Driver}
    {caseId : Option Uuid} {last : Session} {lifted : List Write}
    (lifts : Lifts result performedById driver session caseId last lifted) (row : Deadline) :
    unitOfWork (lifted ++ [.insertDeadline row]) = .insertDeadline row :: lifted := by
  cases lifts with
  | other differs => rfl
  | passed same seen more writes asked resolves =>
      generalize seen.openCase driver.id = found at resolves
      unfold Driver.update
      cases resolves <;> split <;> rfl

theorem Lifts.clean {result : Str} {performedById : Option Uuid} {driver : Driver}
    {caseId : Option Uuid} {last : Session} {lifted : List Write}
    (lifts : Lifts result performedById driver session caseId last lifted)
    (clean : session.memory.pending = []) : last.memory.pending = [] := by
  cases lifts with
  | other differs => exact clean
  | passed same seen more writes asked resolves => exact clean

section Deadlines

variable {deadlineId companyId : Uuid} {result : Str} {completedOn : Date}
variable {performedById : Option Uuid} {method : Option Str} {parent : Deadline}

theorem RecordsEvidence.clean {log : ComplianceCheckLog} {caseId : Option Uuid} {due : Date}
    {nachpruefung : Bool} {last : Session} {lifted : List Write}
    (records : RecordsEvidence sha256 companyId result completedOn performedById method parent
      session log caseId due nachpruefung last lifted)
    (clean : session.memory.pending = []) : last.memory.pending = [] := by
  cases records with
  | fsk driverId kind subject lock row driver locked last log tip defaults write reads valid caseId
      lifted lifts due dated =>
      exact lifts.clean (by simp [reads.isLocked, clean])
  | hu vehicleId kind subject lock row vehicle locked asked found isCopy isLocked log tip defaults
      write inspects due nachpruefung =>
      simp [isLocked, clean]
  | uvv vehicleId kind subject log tip defaults write inspects due => simp [clean]

theorem unitOfWork_successor {log : ComplianceCheckLog} {caseId : Option Uuid} {due : Date}
    {nachpruefung : Bool} {last : Session} {lifted : List Write}
    (records : RecordsEvidence sha256 companyId result completedOn performedById method parent
      session log caseId due nachpruefung last lifted) (row : Deadline) :
    unitOfWork (lifted ++ [.insertDeadline row]) = .insertDeadline row :: lifted := by
  cases records with
  | fsk driverId kind subject lock driverRow driver locked last log tip defaults write reads valid
      caseId lifted lifts due dated =>
      exact unitOfWork_lifted lifts row
  | hu => rfl
  | uvv => rfl

/-- The evidence of a completion, from the session that has locked the deadline and
changed its copy. -/
theorem completeByKind_ends {locked : Session} {outcome : Except Error Completion}
    (clean : locked.memory.pending = [])
    (ended : postgres.Ends (completeByKind sha256 parent deadlineId companyId result completedOn
        performedById method)
      (locked.withPending (parent.update (parent.completed completedOn))) outcome after) :
    (∃ middle last log caseId due nachpruefung lifted,
        outcome = .ok (log, caseId, due, nachpruefung) ∧
        Executed (parent.update (parent.completed completedOn)) locked middle ∧
        RecordsEvidence sha256 companyId result completedOn performedById method parent middle log
          caseId due nachpruefung last lifted ∧
        middle.memory.pending = [] ∧ after = last.withPending lifted) ∨
      ∃ error, outcome = .error error ∧
        FailsToComplete sha256 companyId result completedOn performedById method parent locked
          error after := by
  unfold completeByKind at ended
  split at ended
  · rename_i driverId kind subject
    rcases step_autoflush clean ended with ⟨middle, executed, cleanAfter, rest⟩ |
      ⟨error, rfl, refused⟩
    · rw [unitOfWork_update] at executed
      have completes : CompletesFsk sha256 companyId result completedOn performedById method
          driverId middle outcome after := completeFsk_ends cleanAfter rest
      cases outcome with
      | error error =>
          exact .inr ⟨error, rfl, .fsk driverId kind subject middle executed completes⟩
      | ok completion =>
          cases completes with
          | done lock row driver locked last log tip defaults write reads valid caseId lifted lifts
              due dated =>
              exact .inl ⟨middle, last, log, caseId, due, false, lifted, rfl, executed,
                .fsk driverId kind subject lock row driver locked last log tip defaults write reads
                  valid caseId lifted lifts due dated, cleanAfter, rfl⟩
    · rw [unitOfWork_update] at refused
      exact .inr ⟨error, rfl, .update refused⟩
  · rename_i vehicleId kind subject
    obtain ⟨rfl, rfl⟩ := ended
    exact .inr ⟨_, rfl, .inspection fun driverId both => by simp [subject] at both⟩
  · rename_i vehicleId kind subject
    cases outcome with
    | error error =>
        exact .inr ⟨error, rfl, .inspection fun driverId both => by simp [kind] at both⟩
    | ok completion =>
        rcases step_autoflush clean ended with ⟨middle, executed, cleanAfter, rest⟩ |
          ⟨error, same, _⟩
        · rw [unitOfWork_update] at executed
          obtain ⟨lock, row, vehicle, locked, log, tip, defaults, write, due, nachpruefung, asked,
            found, isCopy, isLocked, rfl, inspects, rfl⟩ :=
            completeHu_ends cleanAfter rest
          exact .inl ⟨middle, _, log, none, due, nachpruefung, [], rfl, executed,
            .hu vehicleId kind subject lock row vehicle locked asked found isCopy isLocked log tip
              defaults write inspects due nachpruefung, cleanAfter,
            (withPending_self (by simp [isLocked, cleanAfter])).symm⟩
        · cases same
  · rename_i driverId kind subject
    obtain ⟨rfl, rfl⟩ := ended
    exact .inr ⟨_, rfl, .inspection fun driverId both => by simp [kind] at both⟩
  · rename_i kind
    cases outcome with
    | error error =>
        exact .inr ⟨error, rfl, .inspection fun driverId both => by simp [kind] at both⟩
    | ok completion =>
        cases subject : parent.subject with
        | driver driverId =>
            rw [subject] at ended
            cases ended.1
        | vehicle vehicleId =>
            rw [subject] at ended
            rcases completeUvv_autoflush clean ended with ⟨middle, executed, cleanAfter, rest⟩ |
              ⟨error, same, _⟩
            · rw [unitOfWork_update] at executed
              obtain ⟨log, tip, defaults, write, due, rfl, _, inspects, rfl⟩ :=
                completeUvv_ends cleanAfter rest
              exact .inl ⟨middle, _, log, none, due, false, [], rfl, executed,
                .uvv vehicleId kind subject log tip defaults write inspects due, cleanAfter,
                (withPending_self (by simp [cleanAfter])).symm⟩
            · cases same

theorem completeDeadline_ends {outcome : Except Error CompletionResult}
    (clean : session.memory.pending = [])
    (ended : postgres.Ends (completeDeadline sha256 deadlineId companyId result completedOn
      performedById method) session outcome after) :
    Completes sha256 deadlineId companyId result completedOn performedById method session outcome
      after := by
  obtain ⟨lock, asked, ⟨missing, ended⟩ | ⟨row, found, ended⟩⟩ := step_deadlineForUpdate clean ended
  · obtain ⟨rfl, rfl⟩ := ended
    exact .absent lock asked missing _
  · have ended := step_addAll ended
    have locks : LocksDeadline deadlineId companyId session lock row
        (Memory.instanceOf session.memory.deadlines row) _ := ⟨asked, found, rfl, rfl⟩
    generalize (session.locked lock [.deadline deadlineId]).withMemory
      (session.memory.loadDeadline row) = locked at ended locks
    generalize Memory.instanceOf session.memory.deadlines row = parent at ended locks
    have cleanLocked : locked.memory.pending = [] := by simp [locks.isLocked, clean]
    rw [cleanLocked, List.nil_append] at ended
    rcases ends_then.mp ended with ⟨completion, last, first, second⟩ | ⟨error, rfl, first⟩
    · rcases completeByKind_ends cleanLocked first with
        ⟨middle, last, log, caseId, due, nachpruefung, lifted, same, executed, records, cleanAfter,
          rfl⟩ | ⟨_, same, _⟩
      · cases same
        obtain ⟨defaults, drawn, second⟩ := step_serverDefaults second
        have second := step_add second
        have cleanLast := records.clean cleanAfter
        have cleanSaw : (last.saw defaults).memory.pending = [] := by simp [cleanLast]
        rcases step_flush_of cleanSaw second with
          ⟨written, inserted, rest⟩ | ⟨error, rfl, refused⟩
        · obtain ⟨rfl, rfl⟩ := rest
          rw [Session.saw_memory, Session.withPending_pending,
            unitOfWork_successor records] at inserted
          exact .done lock row parent locked middle last _ locks executed log caseId due
            nachpruefung lifted records defaults drawn inserted
        · rw [Session.saw_memory, Session.withPending_pending,
            unitOfWork_successor records] at refused
          exact .failed lock row parent locked _ error locks
            (.flush middle last log caseId due nachpruefung lifted defaults executed records
              refused)
      · cases same
    · rcases completeByKind_ends cleanLocked first with
        ⟨_, _, _, _, _, _, _, same, _⟩ | ⟨_, same, fails⟩
      · cases same
      · cases same
        exact .failed lock row parent locked _ _ locks fails

end Deadlines

end Fristenwaechter
