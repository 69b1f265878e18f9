import Fristenwaechter.Calendar.Iso
import Fristenwaechter.Sweeps.SevenDays

/-!
Owns what a driver check records of its form: one evidence row with the submitted result
and day, and a cleared driver only for a PASSED one, as long as the form says either.
-/

namespace Fristenwaechter

open Library (Config Ended Journal Reachable Sound Table)

variable {sha256 : Str → Str} {validateKennzeichen : Str → Option Str}
variable {db : Db} {writes : List Write}

/-! ### Tables -/

/-- A write that can lift a lock or resolve a case. -/
def Write.MayClear : Write → Prop
  | .updateDriver _ current => current.isAuthorizedToDrive = true
  | .updateCase change => change.current.status = .resolvedPassed
  | _ => False

theorem locked_stays {row : Driver} (none : ∀ write ∈ writes, ¬ write.MayClear)
    (stored : row ∈ db.drivers) (locked : row.isAuthorizedToDrive = false) :
    ∃ last ∈ (db.after writes).drivers, last.id = row.id ∧ last.isAuthorizedToDrive = false := by
  induction writes generalizing db row with
  | nil => exact ⟨row, stored, rfl, locked⟩
  | cons write rest inductionHypothesis =>
      obtain ⟨next, nextIn, own, still⟩ : ∃ next ∈ (write.apply db).drivers,
          next.id = row.id ∧ next.isAuthorizedToDrive = false := by
        cases write with
        | insertDriver other => exact ⟨row, Table.mem_insert.mpr (.inl stored), rfl, locked⟩
        | updateDriver loaded current =>
            have keepsLocked : current.isAuthorizedToDrive = false :=
              Bool.eq_false_of_not_eq_true (none _ List.mem_cons_self)
            refine ⟨_, (Table.mem_update (by simp)).mpr ⟨row, stored, rfl⟩, ?_, ?_⟩
            · split <;> rfl
            · split
              · simp [Driver.changed, column, keepsLocked, locked]
              · exact locked
        | _ => exact ⟨row, stored, rfl, locked⟩
      obtain ⟨last, lastIn, same, kept⟩ := inductionHypothesis
        (fun other member => none other (List.mem_cons_of_mem _ member)) nextIn still
      exact ⟨last, lastIn, same.trans own, kept⟩

theorem unresolved_stays {row : EscalationCase} (none : ∀ write ∈ writes, ¬ write.MayClear)
    (stored : row ∈ db.cases) (unresolved : row.status ≠ .resolvedPassed) :
    ∃ last ∈ (db.after writes).cases, last.id = row.id ∧ last.status ≠ .resolvedPassed := by
  induction writes generalizing db row with
  | nil => exact ⟨row, stored, rfl, unresolved⟩
  | cons write rest inductionHypothesis =>
      obtain ⟨next, nextIn, own, still⟩ : ∃ next ∈ (write.apply db).cases,
          next.id = row.id ∧ next.status ≠ .resolvedPassed := by
        cases write with
        | insertCase other => exact ⟨row, Table.mem_insert.mpr (.inl stored), rfl, unresolved⟩
        | updateCase change =>
            have other := none _ List.mem_cons_self
            refine ⟨_, (Table.mem_update (by simp)).mpr ⟨row, stored, rfl⟩, ?_, ?_⟩
            · split <;> rfl
            · split
              · simp only [EscalationCase.changed, column]
                split
                · exact unresolved
                · exact other
              · exact unresolved
        | _ => exact ⟨row, stored, rfl, unresolved⟩
      obtain ⟨last, lastIn, same, kept⟩ := inductionHypothesis
        (fun other member => none other (List.mem_cons_of_mem _ member)) nextIn still
      exact ⟨last, lastIn, same.trans own, kept⟩

theorem log_of_after {log : ComplianceCheckLog} (stored : log ∈ (db.after writes).checkLog) :
    log ∈ db.checkLog ∨ .insertLog log ∈ writes := by
  induction writes generalizing db with
  | nil => exact .inl stored
  | cons write rest inductionHypothesis =>
      rcases inductionHypothesis stored with before | later
      · by_cases isLog : write.table = .log
        · cases write with
          | insertLog row =>
              rcases Table.mem_insert.mp before with old | ⟨rfl, _⟩
              · exact .inl old
              · exact .inr List.mem_cons_self
          | _ => cases isLog
        · rw [apply_checkLog db isLog] at before
          exact .inl before
      · exact .inr (List.mem_cons_of_mem _ later)

theorem insertedLog_after {log : ComplianceCheckLog} (replays : Journal.Replays writes db)
    (inserted : .insertLog log ∈ writes) :
    log ∉ db.checkLog ∧ log ∈ (db.after writes).checkLog := by
  induction writes generalizing db with
  | nil => cases inserted
  | cons write rest inductionHypothesis =>
      rcases List.mem_cons.mp inserted with rfl | later
      · have free : db.checkLog.find log.id = none := by
          have valid : (Write.insertLog log).check db = .ok () := replays.1
          simp only [Write.check, requireNew, ComplianceCheckLog.key_eq, require_then_eq_ok,
            require_eq_ok, Option.isNone_iff_eq_none] at valid
          exact valid.2.1
        refine ⟨fun stored => Table.find_eq_none.mp free log stored rfl, ?_⟩
        exact (persists_after replays.2).checkLog.subset
          (Table.mem_insert.mpr (.inr ⟨rfl, free⟩))
      · obtain ⟨fresh, stored⟩ := inductionHypothesis replays.2 later
        exact ⟨fun old => fresh ((Write.persists replays.1).checkLog.subset old), stored⟩

/-! ### What a check writes -/

/-- One evidence row with this result and day, and nothing is cleared for another result
than PASSED. -/
structure Records (writes : List Write) (result : Str) (performedOn : Date) : Prop where
  recorded : ∃ log, .insertLog log ∈ writes
  only : ∀ log, .insertLog log ∈ writes → log.result = result ∧ log.performedOn = performedOn
  clears : result ≠ resultPassed → ∀ write ∈ writes, ¬ write.MayClear

theorem Records.of_append {result : Str} {performedOn : Date} {log : ComplianceCheckLog}
    {first rest : List Write} (whole : writes = first ++ .insertLog log :: rest)
    (facts : log.result = result ∧ log.performedOn = performedOn)
    (others : ∀ write ∈ first ++ rest, write.table ≠ .log)
    (clears : result ≠ resultPassed → ∀ write ∈ first ++ rest, ¬ write.MayClear) :
    Records writes result performedOn := by
  have split : ∀ write ∈ writes, write = .insertLog log ∨ write ∈ first ++ rest := by
    intro write member
    rw [whole] at member
    rcases List.mem_append.mp member with early | late
    · exact .inr (List.mem_append_left _ early)
    · rcases List.mem_cons.mp late with isLog | late
      · exact .inl isLog
      · exact .inr (List.mem_append_right _ late)
  refine ⟨⟨log, by simp [whole]⟩, fun other member => ?_, fun differs write member => ?_⟩
  · rcases split _ member with same | elsewhere
    · cases same
      exact facts
    · exact absurd rfl (others _ elsewhere)
  · rcases split _ member with rfl | elsewhere
    · exact id
    · exact clears differs _ elsewhere

section Checks

variable {session after last : Session} {result : Str} {performedOn : Date}

theorem Appends.facts {companyId : Uuid} {kind : Str} {driverId vehicleId : Option Uuid}
    {subject : Subject} {method : Option Str} {performedById : Option Uuid}
    {params : List (Str × Json)} {log : ComplianceCheckLog} {tip defaults write : Sent}
    (appends : Appends sha256 companyId kind result performedOn driverId vehicleId subject method
      performedById params session log tip defaults write) :
    log.result = result ∧ log.performedOn = performedOn := by
  rw [appends.isRow]
  exact ⟨rfl, rfl⟩

theorem Lifts.unlogged {resolvedById caseId : Option Uuid} {driver : Driver} {lifted : List Write}
    (lifts : Lifts result resolvedById driver session caseId last lifted) :
    last.writes = session.writes ∧ ∀ write ∈ lifted, write.table ≠ .log := by
  refine ⟨lifts.grown.2.1, ?_⟩
  cases lifts with
  | other differs => simp
  | passed same seen more writes asked resolves =>
      intro write member
      rcases List.mem_append.mp member with update | resolving
      · rw [Driver.mem_update update]
        simp [Write.table]
      · generalize Sent.openCase seen driver.id = found at resolves
        cases resolves with
        | nothing => cases resolving
        | resolved case now =>
            rw [List.mem_singleton.mp resolving]
            simp [Write.table]

theorem RecordsEvidence.entry {companyId : Uuid} {performedById : Option Uuid}
    {method : Option Str} {parent : Deadline} {log : ComplianceCheckLog} {caseId : Option Uuid}
    {due : Date} {nachpruefung : Bool} {lifted : List Write}
    (records : RecordsEvidence sha256 companyId result performedOn performedById method parent
      session log caseId due nachpruefung last lifted) :
    last.writes = session.writes ++ [.insertLog log] ∧
      (log.result = result ∧ log.performedOn = performedOn) ∧
        ∀ write ∈ lifted, write.table ≠ .log := by
  cases records with
  | fsk driverId kind subject lock row driver locked last log tip defaults write reads valid caseId
      lifted lifts due dated =>
      obtain ⟨unwritten, others⟩ := lifts.unlogged
      refine ⟨?_, reads.appends.facts, others⟩
      rw [unwritten]
      simp [reads.isLocked]
  | hu vehicleId kind subject lock row vehicle locked asked found isCopy isLocked log tip defaults
      write inspects due nachpruefung =>
      exact ⟨by simp [isLocked], inspects.appends.facts, by simp⟩
  | uvv vehicleId kind subject log tip defaults write inspects due =>
      exact ⟨by simp, inspects.appends.facts, by simp⟩

theorem Completes.records {deadlineId companyId : Uuid} {performedById : Option Uuid}
    {method : Option Str} {done : CompletionResult} (fresh : session.writes = [])
    (completes : Completes sha256 deadlineId companyId resultPassed performedOn performedById method
      session (.ok done) after) : Records after.writes resultPassed performedOn := by
  cases completes with
  | done lock row parent locked middle last _ locks executed log caseId due nachpruefung lifted
      records defaults drawn written =>
      obtain ⟨entry, facts, others⟩ := records.entry
      have whole : after.writes = parent.update (parent.completed performedOn) ++
          .insertLog log :: .insertDeadline (spawn parent due nachpruefung defaults.env.fresh) ::
            lifted := by
        rw [written.writes, Session.saw_writes, entry, executed.writes, locks.isLocked]
        simp [fresh]
      refine .of_append whole facts (fun write member => ?_) fun differs => absurd rfl differs
      rcases List.mem_append.mp member with update | rest
      · rw [Deadline.mem_update update]
        simp [Write.table]
      · rcases List.mem_cons.mp rest with rfl | lift
        · simp [Write.table]
        · exact others write lift

theorem LocksOut.unlogged {companyId triggerCheckId : Uuid} {recipients : List Recipient}
    {trace : List Sent} {driver row : Driver} {load lock now alert : Sent} {case : EscalationCase}
    {createdAt : Instant} {ids : List Uuid} {staged : List Write}
    (locks : LocksOut companyId triggerCheckId recipients trace driver row load lock now alert case
      createdAt ids staged) : ∀ write ∈ staged, write.table ≠ .log ∧ ¬ write.MayClear := by
  intro write member
  rw [locks.staged, lockWrites] at member
  rcases List.mem_append.mp member with locking | telling
  · rcases List.mem_append.mp locking with update | isCase
    · rw [Driver.mem_update update]
      simp [Write.table, Write.MayClear, Driver.lockedAtInstant]
    · rw [List.mem_singleton.mp isCase]
      simp [Write.table, Write.MayClear]
  · rcases List.mem_append.mp telling with message | isAlert
    · obtain ⟨row, _, rfl⟩ := List.mem_map.mp message
      simp [Write.table, Write.MayClear]
    · rw [List.mem_singleton.mp isAlert]
      simp [Write.table, Write.MayClear]

theorem RecordsFailed.records {user : AccountUser} {driverId : Uuid}
    (remembers : session.Remembers) (fresh : session.writes = [])
    (unsaved : session.connection.savepoint = none)
    (records : RecordsFailed sha256 user driverId performedOn session (.ok ()) after) :
    Records after.writes resultFailed performedOn ∧ session.trace <+: after.trace := by
  generalize isOk : (Except.ok () : Except Error Unit) = answer at records
  cases records with
  | refused => cases isOk
  | escalated log tip defaults write told trigger appends valid asked triggered outcome _ runs =>
      cases outcome with
      | error error => cases isOk
      | ok result =>
          have remembersLog := (((((remembers.saw tip).saw defaults).wrote write
            (.insertLog log) (by simp [Write.table])).saw told).saw trigger)
          obtain ⟨grown, deed, _⟩ := runs.deed remembersLog unsaved
          refine ⟨?_, List.IsPrefix.trans (by simp) grown⟩
          rcases deed with ⟨kept, _⟩ | ⟨driver, row, load, lock, now, alert, case, ids, staged,
            locks, _, writes, _⟩
          · have whole : after.writes = [] ++ .insertLog log :: [] := by
              rw [Session.writes, kept, ← Session.writes]
              simp [fresh]
            exact .of_append whole appends.facts (by simp) fun _ => by simp
          · have whole : after.writes = [] ++ .insertLog log :: staged := by
              rw [writes]
              simp [fresh]
            exact .of_append whole appends.facts (fun write member =>
              (locks.unlogged write member).1) fun _ write member => (locks.unlogged write member).2

theorem RecordsPassed.records {user : AccountUser} {driver : Driver} {driverId : Uuid}
    {committed : Session} (remembers : session.Remembers) (fresh : session.writes = [])
    (clean : session.memory.pending = [])
    (records : RecordsPassed sha256 user driver driverId performedOn session after)
    (executed : Executed (unitOfWork after.memory.pending) (after.withPending []) committed) :
    Records committed.writes resultPassed performedOn ∧
      session.trace <+: committed.trace := by
  cases records with
  | completed pick row asked found result _ completes =>
      cases executed.of_clean (completes.clean (by simpa using clean))
      have grown := completes.grown ((remembers.saw pick).withMemory (by rfl)) (by simp [fresh])
      exact ⟨completes.records (by simp [fresh]), List.IsPrefix.trans (by simp) grown.trace⟩
  | adHoc pick asked none log tip defaults write appends valid caseId last lifted lifts =>
      obtain ⟨unwritten, others⟩ := lifts.unlogged
      have whole : committed.writes = [] ++ .insertLog log :: lifted := by
        rw [executed.writes, Session.withPending_pending, unitOfWork_lifts lifts]
        simp [unwritten, fresh]
      refine ⟨.of_append whole appends.facts others fun differs => absurd rfl differs, ?_⟩
      have grown : last.trace <+: committed.trace := executed.grown.trace
      exact (List.IsPrefix.trans (by simp) lifts.grown.1.trace).trans grown

end Checks

/-! ### Submissions -/

/-- A form whose result is PASSED or FAILED and whose day denotes a date, if it has one. -/
structure WellSubmitted (data : Form) : Prop where
  result : data.get "result".toList = some resultPassed ∨
    data.get "result".toList = some resultFailed
  day : ∀ raw, data.get "performed_on".toList = some raw → raw ≠ [] →
    ∃ date, Date.Denoted raw date

/-- A lock is lifted, a case resolved, or PASSED evidence written. -/
def Clears (before after : Db) : Prop :=
  (∃ row ∈ before.drivers, row.isAuthorizedToDrive = false ∧
      ∃ later ∈ after.drivers, later.id = row.id ∧ later.isAuthorizedToDrive = true) ∨
    (∃ row ∈ before.cases, row.status = .open ∧
      ∃ later ∈ after.cases, later.id = row.id ∧ later.status = .resolvedPassed) ∨
    ∃ log ∈ after.checkLog, log ∉ before.checkLog ∧ log.result = resultPassed

/-- The form fails closed: it clears only when it says PASSED, its evidence has the day it
says, and otherwise nothing is written. -/
structure FailsClosed (data : Form) (before after : Db) : Prop where
  clears : Clears before after → data.get "result".toList = some resultPassed
  dated : ∀ raw, data.get "performed_on".toList = some raw → raw ≠ [] →
    ∀ log ∈ after.checkLog, log ∉ before.checkLog → Date.Denoted raw log.performedOn
  refuses : ¬ WellSubmitted data → after = before

theorem FailsClosed.refl (data : Form) (db : Db) : FailsClosed data db db where
  clears := by
    rintro (⟨row, stored, locked, later, laterIn, own, authorized⟩ |
      ⟨row, stored, isOpen, later, laterIn, own, resolved⟩ | ⟨log, stored, fresh, _⟩)
    · rw [Table.eq_of_key laterIn stored own, locked] at authorized
      cases authorized
    · rw [Table.eq_of_key laterIn stored own, isOpen] at resolved
      cases resolved
    · exact absurd stored fresh
  dated _ _ _ _ stored fresh := absurd stored fresh
  refuses _ := rfl

/-- A committed check has failed closed exactly when its form was well submitted. -/
theorem Records.failsClosed {data : Form} {result : Str} {performedOn : Date}
    (records : Records writes result performedOn) (replays : Journal.Replays writes db)
    (isFailed : data.get "result".toList = some resultFailed → result = resultFailed)
    (given : ∀ day, parseDate (data.get "performed_on".toList) = some day → performedOn = day) :
    FailsClosed data db (db.after writes) ↔ WellSubmitted data := by
  obtain ⟨log, inserted⟩ := records.recorded
  obtain ⟨fresh, stored⟩ := insertedLog_after replays inserted
  constructor
  · intro closed
    by_contra bad
    rw [closed.refuses bad] at stored
    exact fresh stored
  · intro well
    refine ⟨fun clears => ?_, fun raw isRaw nonempty other otherIn new => ?_, fun bad =>
      absurd well bad⟩
    · refine well.result.resolve_right fun failed => ?_
      have isFail := isFailed failed
      have none := records.clears (by rw [isFail]; decide)
      rcases clears with ⟨row, before, locked, later, laterIn, own, authorized⟩ |
        ⟨row, before, isOpen, later, laterIn, own, resolved⟩ | ⟨other, otherIn, new, passed⟩
      · obtain ⟨last, lastIn, same, still⟩ := locked_stays none before locked
        rw [Table.eq_of_key laterIn lastIn (own.trans same.symm), still] at authorized
        cases authorized
      · obtain ⟨last, lastIn, same, still⟩ :=
          unresolved_stays none before (by rw [isOpen]; exact fun other => by cases other)
        rw [Table.eq_of_key laterIn lastIn (own.trans same.symm)] at resolved
        exact still resolved
      · have written := (log_of_after otherIn).resolve_left new
        have facts := (records.only other written).1
        rw [passed, isFail] at facts
        exact absurd facts (by decide)
    · obtain ⟨day, denoted⟩ := well.day raw isRaw nonempty
      have parsed : parseDate (data.get "performed_on".toList) = some day := by
        rw [isRaw, parseDate, if_neg (by simpa using nonempty), denoted.parsed]
      have written := (log_of_after otherIn).resolve_left new
      rw [(records.only other written).2, given day parsed]
      exact denoted

theorem submitted_failed {data : Form} :
    submitted data = resultFailed ↔ data.get "result".toList = some resultFailed := by
  unfold submitted
  cases data.get "result".toList with
  | none => decide
  | some result => simp

theorem ChecksDriver.records {user : AccountUser} {driverId : Uuid} {data : Form}
    {tenant : Option Uuid} {start : Instant} {response : Response} {middle after : Session}
    (checks : ChecksDriver sha256 user driverId data (.opened tenant start) (.ok response) middle)
    (executed : Executed (unitOfWork middle.memory.pending) (middle.withPending []) after) :
    ∃ load ∈ after.trace, load.statement = .getDriver driverId ∧
      (Sent.driver load driverId none = none ∧ after.writes = [] ∨
        Sent.driver load driverId none ≠ none ∧ ∃ result performedOn,
          Records after.writes result performedOn ∧
          (data.get "result".toList = some resultFailed → result = resultFailed) ∧
          ∀ day, parseDate (data.get "performed_on".toList) = some day → performedOn = day) := by
  generalize isOk : (Except.ok response : Except Error Response) = answer at checks
  cases checks with
  | forbidden => cases isOk
  | undated => cases isOk
  | absent performedOn clock load opens missing =>
      cases executed.of_clean rfl
      exact ⟨load, by simp, opens.asked.statement, .inl ⟨missing, by simp⟩⟩
  | failed performedOn clock load row opens found isFailed outcome _ records =>
      obtain ⟨_, _, remembers⟩ := opens.remembers found
      cases outcome with
      | error error => cases isOk
      | ok done =>
          obtain ⟨_, clean⟩ := records.deed remembers rfl rfl
          cases executed.of_clean (clean rfl)
          obtain ⟨whole, grown⟩ := records.records remembers rfl rfl
          exact ⟨load, grown.subset (by simp), opens.asked.statement, .inr ⟨by simp [found], _,
            performedOn, whole, fun _ => rfl, fun day parsed => (opens.given day parsed).1⟩⟩
  | passed performedOn clock load row opens found other _ records =>
      obtain ⟨_, _, remembers⟩ := opens.remembers found
      obtain ⟨whole, grown⟩ := records.records remembers rfl rfl executed
      exact ⟨load, grown.subset (by simp), opens.asked.statement, .inr ⟨by simp [found], _,
        performedOn, whole, fun failed => absurd (submitted_failed.mpr failed) other,
          fun day parsed => (opens.given day parsed).1⟩⟩
  | unpassed => cases isOk

/-! ### Submissions of a run -/

/-- **Fail closed.** In every interleaving a committed driver check of a driver that it has
found fails closed exactly when its form was well submitted; any other outcome leaves the
database alone. -/
theorem driver_check_fails_closed {world : World}
    {config : Config World Memory Connection Statement Answer Env Error Request Outcome}
    (reached : Reachable (system sha256 validateKennzeichen) .unrestricted ⟨world, [], []⟩ config)
    {done : Done} (member : done ∈ config.ended) {user : AccountUser} {driverId : Uuid}
    {data : Form} (isCheck : done.request = .recordDriverCheck user driverId data) :
    (done.isCommitted = false → (system sha256 validateKennzeichen).leave done = done.world) ∧
      (done.isCommitted = true → ∃ load ∈ done.transaction.trace,
        load.statement = .getDriver driverId ∧
          (FailsClosed data done.world.db done.result ↔
            Sent.driver load driverId none = none ∨ WellSubmitted data)) := by
  refine ⟨leave_uncommitted, fun committed => ?_⟩
  obtain ⟨result, well⟩ := committed_well committed
  have sound := (Sound.reachable (system_laws sha256 validateKennzeichen)
    (persistDiscipline sha256 validateKennzeichen .unrestricted) (Sound.quiet trivial) reached).1
  obtain ⟨_, _, start, _, _, chain, ends, _⟩ := sound.concluded done member
  have ended := ends _ well
  rw [isCheck] at ended
  rcases transaction_ends ended with ⟨_, middle, _, body, executed⟩ | ⟨_, same, _⟩
  swap
  · cases same
  rcases ends_return.mp body with ⟨response, _, ran⟩ | ⟨_, same, _⟩
  swap
  · cases same
  obtain ⟨load, sent, asked, ⟨missing, nothing⟩ | ⟨found, checkResult, performedOn, records,
    isFailed, given⟩⟩ := (recordDriverCheck_ends sha256 user rfl rfl ran).records executed
  · refine ⟨load, sent, asked, iff_of_true ?_ (.inl missing)⟩
    have unchanged : done.result = done.world.db := by
      change done.world.db.after (Session.writes done.transaction) = _
      rw [nothing]
      rfl
    rw [unchanged]
    exact .refl data _
  · refine ⟨load, sent, asked, ?_⟩
    rw [or_iff_right found]
    exact records.failsClosed chain.ready isFailed given

/-! ### A check of the fleet -/

def checkedTwice (result : String) (steps : Nat) : List (Library.Choice Env Request) :=
  .start (fleetCheck "FAILED".toList) :: fleetRun 0 1 46 ++
    [.finish 0, .start (fleetCheck result.toList)] ++ fleetRun 0 60 steps ++ [.finish 0]

def committedCheck (result : Str) (done : Done) : Bool :=
  Done.isCommitted done && match Ended.request done with
    | .recordDriverCheck _ _ data => data.get "result".toList = some result
    | _ => false

theorem committedCheck_spec {result : Str} {done : Done}
    (checked : committedCheck result done = true) :
    Done.isCommitted done = true ∧ ∃ user driverId data,
      Ended.request done = .recordDriverCheck user driverId data ∧
        data.get "result".toList = some result := by
  obtain ⟨committed, request⟩ := (Bool.and_eq_true _ _).mp checked
  refine ⟨committed, ?_⟩
  split at request
  · rename_i user driverId data isRequest
    exact ⟨user, driverId, data, isRequest, of_decide_eq_true request⟩
  · cases request

/-- A PASSED check after a FAILED one. -/
theorem driver_check_fails_closed_fleet :
    ∃ config done user driverId data, (system id some).schedule ⟨fleetWorld, [], []⟩
        (checkedTwice "PASSED" 25) = some config ∧ done ∈ config.ended ∧
      Ended.request done = .recordDriverCheck user driverId data ∧
      (Done.isCommitted done = false → (system id some).leave done = Ended.world done) ∧
      (Done.isCommitted done = true → ∃ load ∈ done.transaction.trace,
        load.statement = .getDriver driverId ∧
          (FailsClosed data (Ended.world done).db (Done.result done) ↔
            Sent.driver load driverId none = none ∨ WellSubmitted data)) := by
  have ran : ((system id some).schedule ⟨fleetWorld, [], []⟩ (checkedTwice "PASSED" 25)).any
      (fun config => config.ended.any (committedCheck resultPassed)) = true := by
    decide +kernel
  obtain ⟨config, ran, found⟩ := (Option.any_eq_true _ _).mp ran
  obtain ⟨done, member, checked⟩ := List.any_eq_true.mp found
  obtain ⟨_, user, driverId, data, request, _⟩ := committedCheck_spec checked
  exact ⟨config, done, user, driverId, data, ran, member, request,
    driver_check_fails_closed (.of_schedule ran) member request⟩

/-- A check whose result is written in lower case lifts the lock of a FAILED one. -/
theorem misspelt_result_unlocks :
    ∃ config, Reachable (system id some) .unrestricted ⟨fleetWorld, [], []⟩ config ∧
      ∃ done ∈ config.ended, ∃ user driverId data,
        Ended.request done = .recordDriverCheck user driverId data ∧
        data.get "result".toList = some "failed".toList ∧ Done.isCommitted done = true ∧
        (∃ row ∈ (Ended.world done).db.drivers, row.isAuthorizedToDrive = false ∧
          ∃ later ∈ (Done.result done).drivers,
            later.id = row.id ∧ later.isAuthorizedToDrive = true) ∧
        ¬ FailsClosed data (Ended.world done).db (Done.result done) := by
  have ran : ((system id some).schedule ⟨fleetWorld, [], []⟩ (checkedTwice "failed" 25)).any
      (fun config => config.ended.any fun done => committedCheck "failed".toList done &&
        (Ended.world done).db.drivers.rows.any fun row => !row.isAuthorizedToDrive &&
          (Done.result done).drivers.rows.any fun later =>
            later.id = row.id && later.isAuthorizedToDrive) = true := by
    decide +kernel
  obtain ⟨config, ran, found⟩ := (Option.any_eq_true _ _).mp ran
  obtain ⟨done, member, both⟩ := List.any_eq_true.mp found
  obtain ⟨checked, unlocks⟩ := (Bool.and_eq_true _ _).mp both
  obtain ⟨committed, user, driverId, data, request, isResult⟩ := committedCheck_spec checked
  simp only [List.any_eq_true, Bool.and_eq_true, Bool.not_eq_true', decide_eq_true_eq] at unlocks
  obtain ⟨row, rowIn, locked, later, laterIn, own, authorized⟩ := unlocks
  have unlocked : ∃ row ∈ (Ended.world done).db.drivers, row.isAuthorizedToDrive = false ∧
      ∃ later ∈ (Done.result done).drivers,
        later.id = row.id ∧ later.isAuthorizedToDrive = true :=
    ⟨row, rowIn, locked, later, laterIn, own, authorized⟩
  refine ⟨config, .of_schedule ran, done, member, user, driverId, data, request, isResult,
    committed, unlocked, fun closed => ?_⟩
  have passed := closed.clears (.inl unlocked)
  rw [isResult] at passed
  exact absurd passed (by decide)

end Fristenwaechter
