import Fristenwaechter.Behaviour.Jobs
import Fristenwaechter.Behaviour.Requests
import Fristenwaechter.Views

/-!
Owns what a committed transaction has done to locks and cases, read off its trace and
its writes: nothing, the lockout of one driver, the lift of one driver's lock, or a
sweep. Each deed names the statements its decision rests on.
-/

namespace Fristenwaechter

open Library (Journal)

variable {sha256 : Str → Str} {session after : Session}

/-! ### Copies of drivers -/

/-- The copy of a driver is the row that was committed when it was loaded. -/
structure Copied (driver : Driver) (load : Sent) : Prop where
  committed : load.world.db.drivers.find driver.id = some driver
  visible : load.connection.sees driver.companyId = true

/-- The drivers a session has loaded are copies, and it has not written any itself. -/
structure Session.Remembers (session : Session) : Prop where
  copies : ∀ copy ∈ session.memory.drivers, ∃ load ∈ session.trace, Copied copy load ∧
    load.connection.tenant = session.connection.tenant
  unwritten : ∀ write ∈ session.writes, write.table ≠ .driver

theorem instanceOf_key {Row : Type} [Library.Keyed Row Uuid] (copies : List Row) (row : Row) :
    (Memory.instanceOf copies row ∈ copies ∨ Memory.instanceOf copies row = row) ∧
      Library.Keyed.key (Memory.instanceOf copies row) = Library.Keyed.key row := by
  unfold Memory.instanceOf
  cases found : copies.find? fun copy => Library.Keyed.key copy = Library.Keyed.key row with
  | none => exact ⟨.inr rfl, rfl⟩
  | some copy =>
      exact ⟨.inl (List.mem_of_find?_eq_some found), by simpa using List.find?_some found⟩

theorem instanceOf_cases (copies : List Driver) (row : Driver) :
    (Memory.instanceOf copies row ∈ copies ∨ Memory.instanceOf copies row = row) ∧
      (Memory.instanceOf copies row).id = row.id :=
  instanceOf_key copies row

theorem Copied.of_found {statement : Statement} {entry : Sent} {id : Uuid}
    {companyId : Option Uuid} {row : Driver} (asked : session.Asked statement entry)
    (unwritten : ∀ write ∈ session.writes, write.table ≠ .driver)
    (found : entry.driver id companyId = some row) :
    Copied row entry ∧ row.id = id ∧ ∀ company ∈ companyId, row.companyId = company := by
  obtain ⟨seen, visible⟩ := Option.filter_eq_some_iff.mp found
  rw [asked.db, Db.after_drivers _ unwritten] at seen
  have key := Library.Table.key_of_find seen
  simp only [Driver.key_eq] at key
  simp only [Bool.and_eq_true, Option.all_eq_true, decide_eq_true_eq] at visible
  exact ⟨⟨key ▸ seen, visible.1⟩, key, fun company same => (visible.2 company same).symm⟩

/-- The instance that stands for a found row is a copy from some moment up to now. -/
theorem Session.Remembers.instance {statement : Statement} {entry : Sent} {id : Uuid}
    {companyId : Option Uuid} {row : Driver} (remembers : session.Remembers)
    (asked : session.Asked statement entry) (found : entry.driver id companyId = some row) :
    (∃ load ∈ session.trace ++ [entry],
        Copied (Memory.instanceOf session.memory.drivers row) load ∧
        load.connection.tenant = session.connection.tenant) ∧
      (Memory.instanceOf session.memory.drivers row).id = id := by
  obtain ⟨copied, own, _⟩ := Copied.of_found asked remembers.unwritten found
  obtain ⟨member | fresh, same⟩ := instanceOf_cases session.memory.drivers row
  · obtain ⟨load, loaded, isCopy, tenant⟩ := remembers.copies _ member
    exact ⟨⟨load, List.mem_append_left _ loaded, isCopy, tenant⟩, same.trans own⟩
  · refine ⟨⟨entry, by simp, fresh.symm ▸ copied, ?_⟩, same.trans own⟩
    rw [asked.connection]

theorem flushed_drivers {memory : Memory} {write : Write} (other : write.table ≠ .driver) :
    (memory.flushed write).drivers = memory.drivers := by
  cases write <;> first | rfl | exact absurd rfl other

theorem instanceOf_mem_loaded (copies : List Driver) (row : Driver) :
    Memory.instanceOf copies row ∈ Memory.loaded copies row := by
  unfold Memory.instanceOf Memory.loaded
  cases found : copies.find? fun copy => Library.Keyed.key copy = Library.Keyed.key row with
  | none => simp
  | some copy => simpa using List.mem_of_find?_eq_some found

namespace Session.Remembers

theorem saw (remembers : session.Remembers) (entry : Sent) : (session.saw entry).Remembers := by
  refine ⟨fun copy member => ?_, remembers.unwritten⟩
  obtain ⟨load, loaded, rest⟩ := remembers.copies copy member
  exact ⟨load, List.mem_append_left _ loaded, rest⟩

theorem sawAll (remembers : session.Remembers) (entries : List Sent) :
    (session.sawAll entries).Remembers := by
  refine ⟨fun copy member => ?_, remembers.unwritten⟩
  obtain ⟨load, loaded, rest⟩ := remembers.copies copy member
  exact ⟨load, List.mem_append_left _ loaded, rest⟩

theorem saved (remembers : session.Remembers) (entry : Sent) : (session.saved entry).Remembers := by
  refine ⟨fun copy member => ?_, remembers.unwritten⟩
  obtain ⟨load, loaded, rest⟩ := remembers.copies copy member
  exact ⟨load, List.mem_append_left _ loaded, rest⟩

theorem locked (remembers : session.Remembers) (entry : Sent) (refs : List Ref) :
    (session.locked entry refs).Remembers := by
  refine ⟨fun copy member => ?_, by simpa using remembers.unwritten⟩
  obtain ⟨load, loaded, rest⟩ := remembers.copies copy member
  exact ⟨load, List.mem_append_left _ loaded, rest⟩

theorem wrote (remembers : session.Remembers) (entry : Sent) (write : Write)
    (other : write.table ≠ .driver) : (session.wrote entry write).Remembers := by
  refine ⟨fun copy member => ?_, fun executed member => ?_⟩
  · rw [Session.wrote_memory, flushed_drivers other] at member
    obtain ⟨load, loaded, rest⟩ := remembers.copies copy member
    exact ⟨load, List.mem_append_left _ loaded, rest⟩
  · rw [Session.wrote_writes] at member
    rcases List.mem_append.mp member with old | new
    · exact remembers.unwritten executed old
    · exact List.mem_singleton.mp new ▸ other

theorem withMemory (remembers : session.Remembers) {memory : Memory}
    (same : memory.drivers = session.memory.drivers) : (session.withMemory memory).Remembers :=
  ⟨fun copy member => remembers.copies copy (same ▸ member), remembers.unwritten⟩

theorem executed {writes : List Write} (others : ∀ write ∈ writes, write.table ≠ .driver)
    (done : Executed writes session after) (remembers : session.Remembers) : after.Remembers := by
  induction writes generalizing session with
  | nil =>
      cases done
      exact remembers
  | cons write rest inductionHypothesis =>
      obtain ⟨entry, _, _, remaining⟩ := done
      exact inductionHypothesis (fun other member => others other (by simp [member])) remaining
        (remembers.wrote entry write (others write (by simp)))

theorem loads (remembers : session.Remembers) {row : Driver} {load : Sent}
    (loaded : load ∈ session.trace) (copied : Copied row load)
    (tenant : load.connection.tenant = session.connection.tenant) :
    (session.withMemory (session.memory.loadDriver row)).Remembers := by
  refine ⟨fun copy member => ?_, remembers.unwritten⟩
  change copy ∈ Memory.loaded session.memory.drivers row at member
  unfold Memory.loaded at member
  split at member
  · exact remembers.copies copy member
  · rcases List.mem_cons.mp member with rfl | old
    · exact ⟨load, loaded, copied, tenant⟩
    · exact remembers.copies copy old

end Session.Remembers

theorem earlier_later {trace whole : List Sent} {first second : Sent} (earlier : first ∈ trace)
    (later : trace ++ [second] <+: whole) : [first, second].Sublist whole :=
  ((List.singleton_sublist.mpr earlier).append (List.Sublist.refl [second])).trans later.sublist

/-! ### The lockout -/

section E6

variable (companyId triggerCheckId : Uuid) (recipients : List Recipient)

/-- The lockout of a driver: the copy it rests on, the row it has locked, and everything
it has written. -/
structure LocksOut (trace : List Sent) (driver row : Driver) (load lock now alert : Sent)
    (case : EscalationCase) (createdAt : Instant) (ids : List Uuid) (staged : List Write) :
    Prop where
  order : [load, now].Sublist trace
  copied : Copied driver load
  locked : lock ∈ trace
  committed : lock.world.db.drivers.find driver.id = some row
  company : row.companyId = companyId
  caseCompany : case.companyId = companyId
  own : case.driverId = driver.id
  isOpen : case.status = .open
  dated : escalationDeadline now.env.now escalationDays = some case.deadlineAt
  length : ids.length = (recipients.flatMap Recipient.contacts).length
  staged : staged = lockWrites driver now case ++
    tellWrites companyId triggerCheckId recipients createdAt driver case alert ids

end E6

/-- A successful `runE6` locks the driver out, or leaves its session as it was. -/
theorem RunsE6.deed {driverId companyId triggerCheckId : Uuid} {recipients : List Recipient}
    {result : E6Result} (remembers : session.Remembers)
    (unsaved : session.connection.savepoint = none)
    (runs : RunsE6 driverId companyId triggerCheckId recipients session (.ok result) after) :
    session.trace <+: after.trace ∧
      (after.connection = session.connection ∧ after.memory = .empty ∧
          result.alreadyOpen = true ∨
        ∃ driver row load lock now alert case ids staged,
          LocksOut companyId triggerCheckId recipients after.trace driver row load lock now alert
            case session.connection.startedAt ids staged ∧
          driver.id = driverId ∧ after.writes = session.writes ++ staged ∧
          result = ⟨case.id, some alert.env.fresh, ids, false⟩) ∧
      (session.memory.pending = [] → after.memory.pending = []) := by
  cases runs with
  | staged save release middle result saved handled asked =>
      have cleans : session.memory.pending = [] → middle.memory.pending = [] := fun clean =>
        handled.clean (by simpa using clean)
      cases handled with
      | done lock now drawn row driver deadline case base locked _ alert told reads locks length
          tells =>
          have remembersSaved := remembers.saved save
          obtain ⟨⟨load, loaded, copied, _⟩, own⟩ := remembersSaved.instance reads.asked reads.found
          obtain ⟨rowCopied, rowOwn, company⟩ :=
            Copied.of_found reads.asked remembersSaved.unwritten reads.found
          have whole : (session.saved save).trace ++ [lock, now, drawn] <+: middle.trace := by
            have started : (session.saved save).trace ++ [lock, now, drawn] = base.trace := by
              simp [reads.isBase]
            rw [started]
            refine locks.grown.trace.trans (List.IsPrefix.trans ?_ tells.grown.trace)
            simp only [Session.sawAll_trace, Session.saw_trace, List.append_assoc]
            exact List.prefix_append _ _
          have released : middle.trace <+: (middle.released release).trace := List.prefix_append _ _
          refine ⟨?_, .inr ⟨driver, row, load, lock, now, alert, case, _, _, ⟨?_, ?_, ?_, ?_, ?_,
            ?_, ?_, ?_, ?_, ?_, rfl⟩, ?_, ?_, rfl⟩, ?_⟩
          · refine List.IsPrefix.trans ?_ (whole.trans released)
            simp only [Session.saved_trace, List.append_assoc]
            exact List.prefix_append _ _
          · refine earlier_later loaded (List.IsPrefix.trans ?_ (whole.trans released))
            exact ⟨[drawn], by simp⟩
          · exact reads.isCopy ▸ copied
          · refine (whole.trans released).subset ?_
            simp
          · rw [reads.isCopy, own, ← rowOwn]
            exact rowCopied.committed
          · exact company companyId rfl
          · rw [reads.isCase]
            rfl
          · rw [reads.isCase]
            rfl
          · rw [reads.isCase]
            rfl
          · rw [reads.isCase]
            exact reads.dated
          · rw [List.length_map, length]
          · exact reads.isCopy ▸ own
          · rw [Session.released_writes, tells.writes, Session.sawAll_writes, Session.saw_writes,
              locks.writes, reads.isBase]
            simp [List.append_assoc]
            rfl
          · exact fun clean => cleans clean
  | replayed save back seen middle constraint existing saved handled asked found =>
      have grown : session.trace <+: middle.trace :=
        (List.prefix_append _ _).trans handled.grown.trace
      have kept : (middle.rolledBack back).connection = session.connection :=
        handled.rolledBack unsaved
      refine ⟨?_, .inl ⟨kept, rfl, rfl⟩, fun _ => rfl⟩
      refine grown.trans ?_
      simp only [Session.saw_trace, Session.rolledBack_trace, List.append_assoc]
      exact List.prefix_append _ _

/-! ### The lift -/

/-- The lift of a driver's lock: the copy it rests on, and the OPEN case it has read. -/
structure LiftsLock (resolvedById : Option Uuid) (trace : List Sent) (driver : Driver)
    (load seen : Sent) (resolving : List Write) : Prop where
  order : [load, seen].Sublist trace
  copied : Copied driver load
  asked : seen.statement = .openCase driver.id
  visible : seen.connection.sees driver.companyId = true
  remembered : driver ∈ seen.memory.drivers
  unwritten : seen.db.cases = seen.world.db.cases
  resolves : Resolves resolvedById (seen.openCase driver.id) resolving

theorem sees_congr {first second : Connection} (same : first.tenant = second.tenant)
    (companyId : Uuid) : first.sees companyId = second.sees companyId := by
  unfold Connection.sees
  rw [same]

theorem Lifts.grown {result : Str} {resolvedById : Option Uuid} {driver : Driver}
    {caseId : Option Uuid} {lifted : List Write}
    (lifts : Lifts result resolvedById driver session caseId after lifted) :
    Grown session after ∧ after.writes = session.writes ∧ after.memory = session.memory := by
  cases lifts with
  | other differs => exact ⟨.refl _, rfl, rfl⟩
  | passed same seen more writes asked resolves =>
      exact ⟨(Grown.saw session seen).trans (.sawAll _ more), rfl, rfl⟩

theorem Lifts.deed {result : Str} {resolvedById : Option Uuid} {driver : Driver} {load : Sent}
    {caseId : Option Uuid} {lifted : List Write} (loaded : load ∈ session.trace)
    (copied : Copied driver load) (tenant : load.connection.tenant = session.connection.tenant)
    (remembered : driver ∈ session.memory.drivers)
    (unwritten : ∀ write ∈ session.writes, write.table ≠ .case)
    (lifts : Lifts result resolvedById driver session caseId after lifted) :
    lifted = [] ∧ result ≠ resultPassed ∨ result = resultPassed ∧ ∃ seen resolving,
      LiftsLock resolvedById after.trace driver load seen resolving ∧
        caseId = (seen.openCase driver.id).map EscalationCase.id ∧
        lifted = driver.update driver.unlocked ++ resolving := by
  cases lifts with
  | other differs => exact .inl ⟨rfl, differs⟩
  | passed same seen more writes asked resolves =>
      refine .inr ⟨same, seen, writes, ⟨?_, copied, asked.statement, ?_, ?_, ?_, resolves⟩, rfl,
        rfl⟩
      · exact earlier_later loaded ⟨more, rfl⟩
      · have sameTenant : seen.connection.tenant = load.connection.tenant := by
          rw [asked.connection, tenant]
        rw [sees_congr sameTenant, copied.visible]
      · rw [asked.memory]
        exact remembered
      · rw [asked.db, Db.after_cases _ unwritten]

theorem LiftsLock.mono {resolvedById : Option Uuid} {trace whole : List Sent} {driver : Driver}
    {load seen : Sent} {resolving : List Write} (grown : trace <+: whole)
    (lifts : LiftsLock resolvedById trace driver load seen resolving) :
    LiftsLock resolvedById whole driver load seen resolving :=
  { lifts with order := lifts.order.trans grown.sublist }

section Completion

variable {deadlineId companyId : Uuid} {result : Str} {completedOn : Date}
variable {performedById : Option Uuid} {method : Option Str} {parent : Deadline}

/-- The writes that follow the evidence of a completion: none, or a lift. -/
inductive LiftsOrNot (parent : Deadline) (result : Str) (performedById : Option Uuid)
    (trace : List Sent) : List Write → Prop
  | nothing (other : ¬ (parent.kind = .fsk ∧ result = resultPassed)) :
      LiftsOrNot parent result performedById trace []
  | lifts (driver : Driver) (load seen : Sent) (resolving : List Write)
      (kind : parent.kind = .fsk) (subject : parent.subject = .driver driver.id)
      (passed : result = resultPassed)
      (lifts : LiftsLock performedById trace driver load seen resolving) :
      LiftsOrNot parent result performedById trace
        (driver.update driver.unlocked ++ resolving)

theorem RecordsEvidence.about {log : ComplianceCheckLog} {caseId : Option Uuid} {due : Date}
    {nachpruefung : Bool} {last : Session} {lifted : List Write}
    (records : RecordsEvidence sha256 companyId result completedOn performedById method parent
      session log caseId due nachpruefung last lifted) :
    log.companyId = companyId ∧ log.about parent.subject = true := by
  cases records with
  | fsk driverId kind subject lock row driver locked last log tip defaults write reads valid caseId
      lifted lifts due dated =>
      have same : driver.id = driverId := by
        have key := (instanceOf_key session.memory.drivers row).2
        have own := Library.Table.key_of_find (Option.filter_eq_some_iff.mp reads.found).1
        rw [reads.isCopy]
        exact key.trans own
      rw [reads.appends.isRow, subject]
      exact ⟨rfl, by simp [ComplianceCheckLog.about, entryRow, same]⟩
  | hu vehicleId kind subject lock row vehicle locked asked found isCopy isLocked log tip defaults
      write inspects due nachpruefung =>
      have same : vehicle.id = vehicleId := by
        have key := (instanceOf_key session.memory.vehicles row).2
        have own := Library.Table.key_of_find (Option.filter_eq_some_iff.mp found).1
        rw [isCopy]
        exact key.trans own
      rw [inspects.appends.isRow, subject, ← same]
      exact ⟨rfl, ComplianceCheckLog.about_vehicle rfl rfl⟩
  | uvv vehicleId kind subject log tip defaults write inspects due =>
      rw [inspects.appends.isRow, subject]
      exact ⟨rfl, ComplianceCheckLog.about_vehicle rfl rfl⟩

theorem RecordsEvidence.deed {log : ComplianceCheckLog} {caseId : Option Uuid} {due : Date}
    {nachpruefung : Bool} {last : Session} {lifted : List Write} (remembers : session.Remembers)
    (unwritten : ∀ write ∈ session.writes, write.table ≠ .case)
    (records : RecordsEvidence sha256 companyId result completedOn performedById method parent
      session log caseId due nachpruefung last lifted) :
    Grown session last ∧ last.writes = session.writes ++ [.insertLog log] ∧
      LiftsOrNot parent result performedById last.trace lifted := by
  cases records with
  | fsk driverId kind subject lock row driver locked last log tip defaults write reads valid caseId
      lifted lifts due dated =>
      obtain ⟨⟨load, loaded, copied, tenant⟩, own⟩ := remembers.instance reads.asked reads.found
      rw [← reads.isCopy] at copied own
      have isLocked := reads.isLocked
      have grownLocked : Grown session locked := by
        rw [isLocked]
        exact (Grown.locked session lock _).trans (.withMemory _ _)
      have recorded : Grown locked
          (((locked.saw tip).saw defaults).wrote write (.insertLog log)) :=
        ((Grown.saw _ _).trans (.saw _ _)).trans (.wrote _ _ _)
      obtain ⟨grown, writes, memory⟩ := lifts.grown
      have sameWrites : locked.writes = session.writes := by
        rw [isLocked, Session.withMemory_writes, Session.locked_writes]
      refine ⟨(grownLocked.trans recorded).trans grown, ?_, ?_⟩
      · rw [writes]
        simp [sameWrites]
      · have inTrace : load ∈
            (((locked.saw tip).saw defaults).wrote write (.insertLog log)).trace := by
          refine recorded.trace.subset ?_
          rw [isLocked]
          exact loaded
        have inMemory : driver ∈
            (((locked.saw tip).saw defaults).wrote write (.insertLog log)).memory.drivers := by
          rw [Session.wrote_memory, flushed_drivers (by simp [Write.table]), isLocked, reads.isCopy]
          exact instanceOf_mem_loaded _ row
        have stillUnwritten : ∀ executed ∈
            (((locked.saw tip).saw defaults).wrote write (.insertLog log)).writes,
            executed.table ≠ .case := by
          intro executed member
          rw [Session.wrote_writes, Session.saw_writes, Session.saw_writes, sameWrites] at member
          rcases List.mem_append.mp member with old | new
          · exact unwritten executed old
          · rw [List.mem_singleton.mp new]
            simp [Write.table]
        have sameTenant : load.connection.tenant =
            (((locked.saw tip).saw defaults).wrote write (.insertLog log)).connection.tenant := by
          rw [tenant, recorded.tenant, grownLocked.tenant]
        rcases lifts.deed inTrace copied sameTenant inMemory stillUnwritten with ⟨rfl, differs⟩ |
          ⟨passed, seen, resolving, deed, _, rfl⟩
        · exact .nothing fun both => differs both.2
        · exact .lifts driver load seen resolving kind (own ▸ subject) passed deed
  | hu vehicleId kind subject lock row vehicle locked asked found isCopy isLocked log tip defaults
      write inspects due nachpruefung =>
      subst isLocked
      refine ⟨(((Grown.locked session lock _).trans (.withMemory _ _)).trans
        ((Grown.saw _ _).trans (.saw _ _))).trans (.wrote _ _ _), by simp, .nothing ?_⟩
      simp [kind]
  | uvv vehicleId kind subject log tip defaults write inspects due =>
      refine ⟨((Grown.saw _ _).trans (.saw _ _)).trans (.wrote _ _ _), by simp, .nothing ?_⟩
      simp [kind]

theorem Completes.deed {done : CompletionResult} (remembers : session.Remembers)
    (unwritten : ∀ write ∈ session.writes, write.table ≠ .case)
    (completes : Completes sha256 deadlineId companyId result completedOn performedById method
      session (.ok done) after) :
    ∃ lock row parent locked log due nachpruefung successor lifted,
      LocksDeadline deadlineId companyId session lock row parent locked ∧
      (log.companyId = companyId ∧ log.about parent.subject = true) ∧
      (Grown session locked ∧ Grown locked after) ∧
      after.writes = session.writes ++ (parent.update (parent.completed completedOn) ++
        .insertLog log :: .insertDeadline (spawn parent due nachpruefung successor) :: lifted) ∧
      LiftsOrNot parent result performedById after.trace lifted := by
  cases completes with
  | done lock row parent locked middle last _ locks executed log caseId due nachpruefung lifted
      records defaults drawn written =>
      have remembersLocked : locked.Remembers := by
        rw [locks.isLocked]
        exact (remembers.locked lock _).withMemory rfl
      have others : ∀ write ∈ parent.update (parent.completed completedOn),
          write.table = .deadline := by
        intro write member
        rw [Deadline.mem_update member]
        rfl
      have remembersMiddle := remembersLocked.executed
        (fun write member => by simp [others write member]) executed
      have grownLocked : Grown session locked := by
        rw [locks.isLocked]
        exact (Grown.locked session lock _).trans (.withMemory _ _)
      have middleWrites : middle.writes = session.writes ++
          parent.update (parent.completed completedOn) := by
        rw [executed.writes, locks.isLocked]
        simp
      obtain ⟨grown, writes, lifts⟩ := records.deed remembersMiddle (by
        intro write member
        rw [middleWrites] at member
        rcases List.mem_append.mp member with old | new
        · exact unwritten write old
        · simp [others write new])
      have rest : Grown last after := (Grown.saw last defaults).trans written.grown
      refine ⟨lock, row, parent, locked, log, due, nachpruefung, defaults.env.fresh, lifted, locks,
        records.about, ⟨grownLocked, (executed.grown.trans grown).trans rest⟩, ?_, ?_⟩
      · rw [written.writes, Session.saw_writes, writes, middleWrites]
        simp
      · cases lifts with
        | nothing other => exact .nothing other
        | lifts driver load seen resolving kind subject passed lifts =>
            exact .lifts driver load seen resolving kind subject passed (lifts.mono rest.trace)

end Completion

/-! ### Deeds -/

/-- Writes that leave locks and cases alone. -/
def Write.Calm : Write → Prop
  | .insertDriver row =>
      row.isAuthorizedToDrive = true ∧ row.lockReason = none ∧ row.lockedAt = none
  | .updateDriver loaded current =>
      current.isAuthorizedToDrive = loaded.isAuthorizedToDrive ∧
        current.lockReason = loaded.lockReason ∧ current.lockedAt = loaded.lockedAt
  | .insertCase _ => False
  | .updateCase _ => False
  | _ => True

def Write.Elsewhere (write : Write) : Prop :=
  write.table ≠ .driver ∧ write.table ≠ .case

theorem Write.Elsewhere.calm {write : Write} (elsewhere : write.Elsewhere) : write.Calm := by
  cases write <;>
    first | trivial | exact absurd rfl elsewhere.1 | exact absurd rfl elsewhere.2

/-- A sweep's claim: its cases are locked as they were read. -/
structure Claims (after : Session) (claim : Sent) : Prop where
  sent : claim ∈ after.trace
  unwritten : claim.db = claim.world.db
  held : ∀ case ∈ claim.claimableCases,
    (Ref.case case.id, claim.world) ∈ Journal.held Db after.connection.journal

/-- What a committed transaction has done to locks and cases. -/
inductive Deed (after : Session) : Prop
  | calm (all : ∀ write ∈ after.writes, write.Calm)
  | locksOut (companyId triggerCheckId : Uuid) (recipients : List Recipient)
      (driver row : Driver) (load lock now alert : Sent) (case : EscalationCase)
      (createdAt : Instant) (ids : List Uuid) (first staged : List Write)
      (locks : LocksOut companyId triggerCheckId recipients after.trace driver row load lock now
        alert case createdAt ids staged)
      (other : ∀ write ∈ first, write.Elsewhere) (whole : after.writes = first ++ staged)
  | lifts (resolvedById : Option Uuid) (driver : Driver) (load seen : Sent)
      (first resolving : List Write)
      (lifts : LiftsLock resolvedById after.trace driver load seen resolving)
      (other : ∀ write ∈ first, write.Elsewhere)
      (whole : after.writes = first ++ (driver.update driver.unlocked ++ resolving))
  | sweeps (now : Instant) (today : Date) (claim : Sent) (claims : Claims after claim)
      (all : ∀ write ∈ after.writes, SweepWrite now today claim.claimableCases write)

theorem Session.opened_remembers (tenant : Option Uuid) (now : Instant) :
    (Session.opened tenant now).Remembers :=
  ⟨by simp [Session.opened, Memory.empty], by simp⟩

theorem Completes.isDeed {deadlineId companyId : Uuid} {result : Str} {completedOn : Date}
    {performedById : Option Uuid} {method : Option Str} {done : CompletionResult}
    (remembers : session.Remembers) (fresh : session.writes = [])
    (completes : Completes sha256 deadlineId companyId result completedOn performedById method
      session (.ok done) after) : Deed after := by
  obtain ⟨lock, row, parent, locked, log, due, nachpruefung, successor, lifted, _, _, _, writes,
    lifts⟩ := completes.deed remembers (by simp [fresh])
  have other : ∀ write ∈ parent.update (parent.completed completedOn) ++ [.insertLog log,
      .insertDeadline (spawn parent due nachpruefung successor)], write.Elsewhere := by
    intro write member
    rcases List.mem_append.mp member with update | new
    · rw [Deadline.mem_update update]
      simp [Write.Elsewhere, Write.table]
    · simp only [List.mem_cons, List.not_mem_nil, or_false] at new
      rcases new with rfl | rfl <;> simp [Write.Elsewhere, Write.table]
  cases lifts with
  | nothing _ =>
      refine .calm fun write member => (other write ?_).calm
      simpa [writes, fresh] using member
  | lifts driver load seen resolving kind subject passed lifts =>
      refine .lifts performedById driver load seen _ resolving lifts other ?_
      simp [writes, fresh]

theorem RecordsFailed.deed {user : AccountUser} {driverId : Uuid} {performedOn : Date}
    (remembers : session.Remembers) (fresh : session.writes = [])
    (unsaved : session.connection.savepoint = none)
    (records : RecordsFailed sha256 user driverId performedOn session (.ok ()) after) :
    Deed after ∧ (session.memory.pending = [] → after.memory.pending = []) := by
  generalize isOk : (Except.ok () : Except Error Unit) = answer at records
  cases records with
  | refused => cases isOk
  | escalated log tip defaults write told trigger appends valid asked triggered outcome _ runs =>
      cases outcome with
      | error error => cases isOk
      | ok result =>
          have remembersLog := (((((remembers.saw tip).saw defaults).wrote write
            (.insertLog log) (by simp [Write.table])).saw told).saw trigger)
          obtain ⟨grown, deed, clean⟩ := runs.deed remembersLog unsaved
          refine ⟨?_, fun none => clean (by simp [none])⟩
          rcases deed with ⟨kept, _⟩ | ⟨driver, row, load, lock, now, alert, case, ids, staged,
            locks, _, writes, _⟩
          · refine .calm fun executed member => ?_
            have same : after.writes = [.insertLog log] := by
              rw [Session.writes, kept, ← Session.writes]
              simp [fresh]
            rw [same, List.mem_singleton] at member
            exact member ▸ trivial
          · refine .locksOut _ _ _ driver row load lock now alert case _ ids [.insertLog log] staged
              locks ?_ ?_
            · intro executed member
              rw [List.mem_singleton.mp member]
              simp [Write.Elsewhere, Write.table]
            · simpa [fresh] using writes

theorem Completes.grown {deadlineId companyId : Uuid} {result : Str} {completedOn : Date}
    {performedById : Option Uuid} {method : Option Str} {done : CompletionResult}
    (remembers : session.Remembers) (fresh : session.writes = [])
    (completes : Completes sha256 deadlineId companyId result completedOn performedById method
      session (.ok done) after) : Grown session after := by
  obtain ⟨_, _, _, _, _, _, _, _, _, _, _, ⟨locks, rest⟩, _⟩ :=
    completes.deed remembers (by simp [fresh])
  exact locks.trans rest

theorem Completes.clean {deadlineId companyId : Uuid} {result : Str} {completedOn : Date}
    {performedById : Option Uuid} {method : Option Str} {done : CompletionResult}
    (clean : session.memory.pending = [])
    (completes : Completes sha256 deadlineId companyId result completedOn performedById method
      session (.ok done) after) : after.memory.pending = [] := by
  cases completes with
  | done lock row parent locked middle last _ locks executed log caseId due nachpruefung lifted
      records defaults drawn written =>
      have cleanLocked : locked.memory.pending = [] := by simp [locks.isLocked, clean]
      have cleanLast := records.clean (executed.pending.trans cleanLocked)
      exact written.pending.trans cleanLast

theorem unitOfWork_lifts {result : Str} {performedById : Option Uuid} {driver : Driver}
    {caseId : Option Uuid} {lifted : List Write}
    (lifts : Lifts result performedById driver session caseId after lifted) :
    unitOfWork lifted = lifted := by
  cases lifts with
  | other differs => rfl
  | passed same seen more writes asked resolves =>
      generalize seen.openCase driver.id = found at resolves
      unfold Driver.update
      cases resolves <;> split <;> rfl

theorem Lifts.committed {result : Str} {resolvedById : Option Uuid} {driver : Driver}
    {caseId : Option Uuid} {last : Session} {lifted : List Write} {load : Sent}
    (clean : session.memory.pending = []) (loaded : load ∈ session.trace)
    (copied : Copied driver load) (tenant : load.connection.tenant = session.connection.tenant)
    (remembered : driver ∈ session.memory.drivers)
    (other : ∀ write ∈ session.writes, write.Elsewhere)
    (lifts : Lifts result resolvedById driver session caseId last lifted)
    (executed : Executed (unitOfWork (last.withPending lifted).memory.pending)
      ((last.withPending lifted).withPending []) after) : Deed after := by
  obtain ⟨grown, writes, memory⟩ := lifts.grown
  rw [Session.withPending_pending, unitOfWork_lifts lifts, Session.withPending_withPending,
    withPending_self (memory ▸ clean)] at executed
  have whole : after.writes = session.writes ++ lifted := by rw [executed.writes, writes]
  rcases lifts.deed loaded copied tenant remembered fun write member => (other write member).2 with
    ⟨rfl, _⟩ | ⟨_, seen, resolving, deed, _, rfl⟩
  · refine .calm fun write member => ?_
    rw [whole, List.append_nil] at member
    exact (other write member).calm
  · exact .lifts resolvedById driver load seen session.writes resolving
      (deed.mono executed.grown.trace) other whole

section Requests

variable {validateKennzeichen : Str → Option Str} {tenant : Option Uuid} {start : Instant}

theorem OpensCheck.remembers {driverId : Uuid} {data : Form} {performedOn : Date}
    {clock : List Sent} {load : Sent} {row : Driver}
    (opens : OpensCheck driverId data (.opened tenant start) performedOn clock load)
    (found : load.driver driverId none = some row) :
    Copied row load ∧ load.connection.tenant = tenant ∧
      ((((Session.opened tenant start).sawAll clock).saw load).withMemory
        ((Session.opened tenant start).memory.loadDriver row)).Remembers := by
  have remembers := (Session.opened_remembers tenant start).sawAll clock
  obtain ⟨copied, _, _⟩ := Copied.of_found opens.asked remembers.unwritten found
  have sameTenant : load.connection.tenant = tenant := by rw [opens.asked.connection]; rfl
  exact ⟨copied, sameTenant, (remembers.saw load).loads (by simp) copied sameTenant⟩

theorem recordDriverCheck_deed {user : AccountUser} {driverId : Uuid} {data : Form}
    {response : Response} {middle : Session}
    (checks : ChecksDriver sha256 user driverId data (.opened tenant start) (.ok response) middle)
    (executed : Executed (unitOfWork middle.memory.pending) (middle.withPending []) after) :
    Deed after := by
  generalize isOk : (Except.ok response : Except Error Response) = answer at checks
  cases checks with
  | forbidden => cases isOk
  | undated => cases isOk
  | absent performedOn clock load opens missing =>
      cases executed.of_clean rfl
      exact .calm (by simp)
  | failed performedOn clock load row opens found result outcome _ records =>
      obtain ⟨copied, sameTenant, remembers⟩ := opens.remembers found
      cases outcome with
      | error error => cases isOk
      | ok done =>
          obtain ⟨deed, clean⟩ := records.deed remembers rfl rfl
          cases executed.of_clean (clean rfl)
          exact deed
  | passed performedOn clock load row opens found result _ records =>
      obtain ⟨copied, sameTenant, remembers⟩ := opens.remembers found
      cases records with
      | completed pick row asked isOpen result _ completes =>
          cases executed.of_clean (completes.clean rfl)
          refine Completes.isDeed ?_ rfl completes
          exact (remembers.saw pick).withMemory rfl
      | adHoc pick asked none log tip defaults write appends valid caseId last lifted lifts =>
          refine lifts.committed rfl (?_ : load ∈ _) copied sameTenant ?_ ?_ executed
          · simp
          · rw [Session.wrote_memory, flushed_drivers (by simp [Write.table])]
            simp [Session.opened, Memory.empty, Memory.loadDriver, Memory.loaded]
          · intro executed member
            have isLog : executed = .insertLog log := by
              simpa using member
            rw [isLog]
            simp [Write.Elsewhere, Write.table]
  | unpassed => cases isOk

theorem createDriver_deed {user : AccountUser} {response : Response} {middle : Session}
    (creates : CreatesDriver user (.opened tenant start) response middle)
    (executed : Executed (unitOfWork middle.memory.pending) (middle.withPending []) after) :
    Deed after := by
  cases creates with
  | rejected =>
      cases executed.of_clean rfl
      exact .calm (by simp)
  | created first last given drawn write second clock anchor dueOn asked inserted valid isGiven
      dated drawnAgain =>
      refine .calm fun executedWrite member => ?_
      rw [executed.writes] at member
      simp only [Session.withPending_pending, unitOfWork_singleton, Session.withPending_writes,
        Session.saw_writes, Session.sawAll_writes, Session.wrote_writes] at member
      rcases List.mem_append.mp member with old | new
      · rcases List.mem_append.mp old with none | isDriver
        · simp at none
        · rw [List.mem_singleton.mp isDriver]
          exact ⟨rfl, rfl, rfl⟩
      · exact List.mem_singleton.mp new ▸ trivial

theorem createVehicle_deed {user : AccountUser} {response : Response} {middle : Session}
    (creates : CreatesVehicle user (.opened tenant start) response middle)
    (executed : Executed (unitOfWork middle.memory.pending) (middle.withPending []) after) :
    Deed after := by
  cases creates with
  | rejected =>
      cases executed.of_clean rfl
      exact .calm (by simp)
  | created vehicle drawn write second third clock anchor huDue uvvDue asked isNew own inserted
      valid huDated uvvDated =>
      refine .calm fun executedWrite member => ?_
      rw [executed.writes] at member
      simp only [Session.withPending_pending, Session.withPending_writes, Session.saw_writes,
        Session.sawAll_writes, Session.wrote_writes] at member
      rcases List.mem_append.mp member with old | new
      · rcases List.mem_append.mp old with none | isVehicle
        · simp at none
        · exact List.mem_singleton.mp isVehicle ▸ trivial
      · have pending := mem_unitOfWork.mp new
        simp only [List.mem_cons, List.not_mem_nil, or_false] at pending
        rcases pending with rfl | rfl <;> trivial

theorem recordVehicleCheck_deed {user : AccountUser} {vehicleId : Uuid} {middle : Session}
    (checks : ChecksVehicle sha256 user vehicleId (.opened tenant start) middle)
    (executed : Executed (unitOfWork middle.memory.pending) (middle.withPending []) after) :
    Deed after := by
  have remembers := Session.opened_remembers tenant start
  cases checks with
  | completed clock kind result performedOn pick row asked found done _ completes =>
      cases executed.of_clean (completes.clean rfl)
      refine Completes.isDeed ?_ rfl completes
      exact ((remembers.sawAll clock).saw pick).withMemory rfl
  | adHoc clock kind label result performedOn pick asked none log tip defaults write inspects =>
      cases executed.of_clean rfl
      refine .calm fun executedWrite member => ?_
      have isLog : executedWrite = .insertLog log := by
        simpa using member
      exact isLog ▸ trivial

theorem runE6_deed {driverId companyId triggerCheckId : Uuid} {recipients : List Recipient}
    {result : E6Result} {middle : Session}
    (runs : RunsE6 driverId companyId triggerCheckId recipients (.opened tenant start) (.ok result)
      middle)
    (executed : Executed (unitOfWork middle.memory.pending) (middle.withPending []) after) :
    Deed after := by
  obtain ⟨_, deed, clean⟩ := runs.deed (Session.opened_remembers tenant start) rfl
  cases executed.of_clean (clean rfl)
  rcases deed with ⟨kept, _⟩ | ⟨driver, row, load, lock, now, alert, case, ids, staged, locks, _,
    writes, _⟩
  · refine .calm fun write member => ?_
    rw [Session.writes, kept] at member
    simp [Session.opened, Journal.writes] at member
  · exact .locksOut _ _ _ driver row load lock now alert case _ ids [] staged locks (by simp) writes

theorem resolveFor_deed {driverId : Uuid} {resolvedById : Option Uuid} {middle : Session}
    (resolves : ResolvesFor driverId resolvedById (.opened tenant start) middle)
    (executed : Executed (unitOfWork middle.memory.pending) (middle.withPending []) after) :
    Deed after := by
  cases resolves with
  | absent load =>
      cases executed.of_clean rfl
      exact .calm (by simp)
  | lifted statement load row base asked found isBase caseId last lifted lifts =>
      have remembers := Session.opened_remembers tenant start
      obtain ⟨copied, _, _⟩ := Copied.of_found asked remembers.unwritten found
      have sameTenant : load.connection.tenant = tenant := by rw [asked.connection]; rfl
      have base_spec : base.memory.pending = [] ∧ load ∈ base.trace ∧
          base.connection.tenant = tenant ∧ row ∈ base.memory.drivers ∧ base.writes = [] := by
        rcases isBase with rfl | rfl
        · refine ⟨rfl, by simp, rfl, ?_, rfl⟩
          simp [Session.opened, Memory.empty, Memory.loadDriver, Memory.loaded]
        · refine ⟨rfl, by simp, rfl, ?_, by simp⟩
          simp [Session.opened, Memory.empty, Memory.loadDriver, Memory.loaded]
      obtain ⟨clean, inTrace, baseTenant, remembered, unwritten⟩ := base_spec
      exact lifts.committed clean inTrace copied (sameTenant.trans baseTenant.symm) remembered
        (by simp [unwritten]) executed

theorem Within.calm {allowed : Write → Prop} {middle : Session}
    (calm : ∀ write, allowed write → write.Calm)
    (within : Within allowed (.opened tenant start) middle)
    (executed : Executed (unitOfWork middle.memory.pending) (middle.withPending []) after) :
    Deed after := by
  obtain ⟨more, whole, all⟩ := (within.committed executed).writes
  refine .calm fun write member => calm write (all write ?_)
  rw [whole] at member
  simpa using member

theorem Scrubs.calm {write : Write} (scrubs : Scrubs write) : write.Calm := by
  cases write <;> first | exact scrubs | exact scrubs.elim

theorem relayOutbox_deed {middle : Session} {claim now : Sent} {entries : List Sent}
    {writes : List Write} {rows : List OutboxMessage} (relays : Relays rows entries writes)
    (isMiddle : middle = ((((Session.opened tenant start).saw now).locked claim
      (rows.map fun row => .outbox row.id)).sawAll entries).withPending writes)
    (executed : Executed (unitOfWork middle.memory.pending) (middle.withPending []) after) :
    Deed after := by
  have calm : ∀ write ∈ writes, write.Calm := by
    clear isMiddle
    induction relays with
    | nil => simp
    | cons first others inductionHypothesis =>
        intro write member
        rcases List.mem_append.mp member with own | other
        · cases first <;> simp only [List.mem_cons, List.not_mem_nil, or_false] at own
          · exact own ▸ trivial
          · exact own ▸ trivial
          · rcases own with rfl | rfl <;> trivial
        · exact inductionHypothesis write other
  refine .calm fun write member => ?_
  rw [executed.writes, isMiddle] at member
  simp only [Session.withPending_withPending, Session.withPending_writes, Session.sawAll_writes,
    Session.locked_writes, Session.saw_writes, Session.withPending_pending] at member
  rcases List.mem_append.mp member with none | new
  · simp at none
  · exact calm write (mem_unitOfWork.mp new)

theorem Sweeps.claims {middle base : Session} {now clock begun claim : Sent} {today : Date}
    (sweeps : Sweeps (.opened tenant start) now clock begun claim today base)
    (within : Within (SweepWrite now.env.now today claim.claimableCases) base middle)
    (executed : Executed (unitOfWork middle.memory.pending) (middle.withPending []) after) :
    Claims after claim ∧
      ∀ write ∈ after.writes, SweepWrite now.env.now today claim.claimableCases write := by
  have committed := within.committed executed
  have baseWrites : base.writes = [] := by
    simp [sweeps.isBase]
  obtain ⟨more, whole, all⟩ := committed.writes
  refine ⟨⟨?_, ?_, ?_⟩, fun write member => all write ?_⟩
  · refine committed.trace.subset ?_
    simp [sweeps.isBase]
  · rw [sweeps.asked.db]
    rfl
  · intro case claimed
    obtain ⟨rest, grown, _⟩ := committed.grown
    rw [grown, Journal.held_append]
    refine List.mem_append_left _ (Journal.mem_held.mpr ⟨.lock (.case case.id), ?_, ?_⟩)
    · rw [sweeps.isBase, Session.locked_connection, Connection.lock]
      refine List.mem_append_right _ (List.mem_map.mpr ⟨.case case.id, ?_, rfl⟩)
      exact List.mem_map.mpr ⟨case, claimed, rfl⟩
    · simp [Journal.refs]
  · rwa [whole, baseWrites, List.nil_append] at member

theorem sweepEscalations_deed {middle base : Session} {now clock begun claim : Sent}
    {today : Date} (sweeps : Sweeps (.opened tenant start) now clock begun claim today base)
    (within : Within (SweepWrite now.env.now today claim.claimableCases) base middle)
    (executed : Executed (unitOfWork middle.memory.pending) (middle.withPending []) after) :
    Deed after := by
  obtain ⟨claims, all⟩ := sweeps.claims within executed
  exact .sweeps now.env.now today claim claims all

/-- **Deeds.** Every committed transaction has done one of these to locks and cases. -/
theorem deed {request : Request} {world : World} {result : Outcome}
    (ended : (system sha256 validateKennzeichen).Ends
      ((system sha256 validateKennzeichen).program request)
      ((system sha256 validateKennzeichen).opening world request) (.ok result) after) :
    Deed after := by
  change postgres.Ends (transaction (request.body sha256 validateKennzeichen))
    (Session.opened request.tenant world.clock) (.ok result) after at ended
  rcases transaction_ends ended with ⟨_, middle, same, body, executed⟩ | ⟨_, same, _⟩
  swap
  · cases same
  cases same
  cases request with
  | createDriver user data =>
      rcases ends_return.mp body with ⟨response, _, ran⟩ | ⟨_, same, _⟩
      · exact createDriver_deed (createDriver_ends user rfl ran) executed
      · cases same
  | createVehicle user data =>
      rcases ends_return.mp body with ⟨response, _, ran⟩ | ⟨_, same, _⟩
      · exact createVehicle_deed (createVehicle_ends validateKennzeichen user rfl ran) executed
      · cases same
  | recordDriverCheck user driverId data =>
      rcases ends_return.mp body with ⟨response, _, ran⟩ | ⟨_, same, _⟩
      · exact recordDriverCheck_deed (recordDriverCheck_ends sha256 user rfl rfl ran) executed
      · cases same
  | recordVehicleCheck user vehicleId data =>
      rcases ends_return.mp body with ⟨response, _, ran⟩ | ⟨_, same, _⟩
      · exact recordVehicleCheck_deed (recordVehicleCheck_ends sha256 user rfl ran) executed
      · cases same
  | runE6 tenant driverId companyId triggerCheckId recipients =>
      rcases ends_return.mp body with ⟨e6, _, ran⟩ | ⟨_, same, _⟩
      · exact runE6_deed (runE6_ends rfl ran) executed
      · cases same
  | completeDeadline tenant deadlineId companyId checkResult completedOn performedById method =>
      rcases ends_return.mp body with ⟨completion, _, ran⟩ | ⟨_, same, _⟩
      · have completes := completeDeadline_ends rfl ran
        cases executed.of_clean (completes.clean rfl)
        exact completes.isDeed (Session.opened_remembers _ _) rfl
      · cases same
  | maybeResolveOpenCase tenant driverId locking resolvedById =>
      rcases ends_return.mp body with ⟨caseId, _, ran⟩ | ⟨_, same, _⟩
      · exact resolveFor_deed (resolveFor_ends rfl rfl ran) executed
      · cases same
  | sweepEscalations =>
      rcases ends_return.mp body with ⟨⟨⟩, _, ran⟩ | ⟨_, same, _⟩
      · obtain ⟨now, clock, begun, claim, today, base, sweeps, loop⟩ :=
          sweepEscalations_ends rfl ran
        exact sweepEscalations_deed sweeps (sweeps.within rfl loop) executed
      · cases same
  | sendReminders =>
      rcases ends_return.mp body with ⟨⟨⟩, _, ran⟩ | ⟨_, same, _⟩
      · refine Within.calm ?_ (within_sendReminders _ _ _ ran (.refl (by
          simp [Session.opened, Memory.empty]))) executed
        rintro _ ⟨⟩
        trivial
      · cases same
  | relayOutbox =>
      rcases ends_return.mp body with ⟨⟨⟩, _, ran⟩ | ⟨_, same, _⟩
      · obtain ⟨now, claim, _, _, ⟨entries, writes, _, relays, isMiddle⟩ | ⟨same, _⟩⟩ :=
          relayOutbox_ends rfl ran
        · exact relayOutbox_deed relays isMiddle executed
        · cases same
      · cases same
  | anonymizeExpiredDrivers =>
      rcases ends_return.mp body with ⟨count, _, ran⟩ | ⟨_, same, _⟩
      · exact Within.calm (fun _ anonymizes => anonymizes.1.calm)
          (within_anonymizeExpiredDrivers _ _ _ ran (.refl (by
            simp [Session.opened, Memory.empty]))) executed
      · cases same
  | pruneOldOutbox =>
      rcases ends_return.mp body with ⟨count, _, ran⟩ | ⟨_, same, _⟩
      · exact Within.calm (fun _ scrubs => scrubs.calm)
          (within_pruneOldOutbox _ _ _ ran (.refl (by
            simp [Session.opened, Memory.empty]))) executed
      · cases same
  | tombstoneDeletedCompanies =>
      rcases ends_return.mp body with ⟨count, _, ran⟩ | ⟨_, same, _⟩
      · exact Within.calm (fun _ scrubs => scrubs.calm)
          (within_tombstoneDeletedCompanies _ _ _ ran (.refl (by
            simp [Session.opened, Memory.empty]))) executed
      · cases same

end Requests

end Fristenwaechter
