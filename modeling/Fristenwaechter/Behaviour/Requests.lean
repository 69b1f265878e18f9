import Fristenwaechter.Behaviour.Checks
import Fristenwaechter.Behaviour.E6
import Fristenwaechter.System

/-!
Owns what the web requests and the service calls have done when their transaction
commits: the statements a commit rests on, and the writes in the order they were
executed.
-/

namespace Fristenwaechter

variable {sha256 : Str → Str} {session after : Session}

/-! ### Transactions -/

def Session.opened (tenant : Option Uuid) (now : Instant) : Session :=
  ⟨.empty, ⟨tenant, now, [], none⟩, []⟩

@[simp] theorem Session.opened_writes (tenant : Option Uuid) (now : Instant) :
    (Session.opened tenant now).writes = [] :=
  rfl

/-- A transaction ends with its body and the flush of what is still pending, or where
one of them fails. -/
theorem transaction_ends {Result : Type} {body : Work Result} {outcome : Except Error Result}
    (ended : postgres.Ends (transaction body) session outcome after) :
    (∃ result, ∃ middle : Session, outcome = .ok result ∧
        postgres.Ends body session (.ok result) middle ∧
        Executed (unitOfWork middle.memory.pending) (middle.withPending []) after) ∨
      ∃ error, outcome = .error error ∧
        (postgres.Ends body session (.error error) after ∨
          ∃ result, ∃ middle : Session, postgres.Ends body session (.ok result) middle ∧
            Refused (unitOfWork middle.memory.pending) (middle.withPending []) error after) := by
  rcases ends_then.mp ended with ⟨result, middle, first, rest⟩ | ⟨error, rfl, first⟩
  · rcases ends_then.mp rest with ⟨⟨⟩, last, second, done⟩ | ⟨error, rfl, second⟩
    · obtain ⟨rfl, rfl⟩ := done
      rcases flush_ends second with ⟨_, executed⟩ | ⟨_, same, _⟩
      · exact .inl ⟨result, middle, rfl, first, executed⟩
      · cases same
    · rcases flush_ends second with ⟨same, _⟩ | ⟨_, same, refused⟩
      · cases same
      · cases same
        exact .inr ⟨_, rfl, .inr ⟨result, middle, first, refused⟩⟩
  · exact .inr ⟨error, rfl, .inl first⟩

theorem ends_return {Result Final : Type} {body : Work Result} {wrap : Result → Final}
    {outcome : Except Error Final} :
    postgres.Ends (do return wrap (← body)) session outcome after ↔
      (∃ result, outcome = .ok (wrap result) ∧ postgres.Ends body session (.ok result) after) ∨
      ∃ error, outcome = .error error ∧ postgres.Ends body session (.error error) after := by
  rw [ends_then]
  constructor
  · rintro (⟨result, middle, first, rfl, rfl⟩ | failed)
    · exact .inl ⟨result, rfl, first⟩
    · exact .inr failed
  · rintro (⟨result, rfl, first⟩ | failed)
    · exact .inl ⟨result, after, first, rfl, rfl⟩
    · exact .inr failed

theorem Executed.of_clean {session : Session} (clean : session.memory.pending = [])
    (executed : Executed (unitOfWork session.memory.pending) (session.withPending []) after) :
    after = session := by
  rw [clean, unitOfWork_nil, withPending_self clean] at executed
  exact executed

/-! ### Dates of a form -/

theorem step_dateOrToday {Final : Type} {day : Option Date} {next : Date → Work Final}
    {outcome : Except Error Final}
    (ended : postgres.Ends (dateOrToday day >>= next) session outcome after) :
    (∃ date clock, (∀ known, day = some known → date = known ∧ clock = []) ∧
        (day = none → ∃ now, clock = [now] ∧ session.Asked .now now ∧
          berlinDate now.env.now = some date) ∧
        postgres.Ends (next date) (session.sawAll clock) outcome after) ∨
      ∃ now, day = none ∧ session.Asked .now now ∧ berlinDate now.env.now = none ∧
        outcome = .error .overflow ∧ after = session.saw now := by
  cases day with
  | some known =>
      refine .inl ⟨known, [], fun _ same => ?_, by simp, ?_⟩
      · cases same
        exact ⟨rfl, rfl⟩
      · simpa [Session.sawAll] using step_pure ended
  | none =>
      obtain ⟨now, asked, ⟨date, known, rest⟩ | ⟨unknown, rfl, rfl⟩⟩ := step_todayBerlin ended
      · exact .inl ⟨date, [now], by simp, fun _ => ⟨now, rfl, asked, known⟩, rest⟩
      · exact .inr ⟨now, rfl, asked, unknown, rfl, rfl⟩

/-! ### Drivers -/

section Drivers

variable (sha256) (user : AccountUser)

/-- A FAILED check records its evidence, reads whom to tell, and runs E6. -/
inductive RecordsFailed (driverId : Uuid) (performedOn : Date) (session : Session) :
    Except Error Unit → Session → Prop
  | refused (log : ComplianceCheckLog) (tip defaults write : Sent)
      (appends : Appends sha256 user.companyId "FSK".toList "FAILED".toList performedOn
        (some driverId) none (.driver driverId) (some "SICHT".toList) (some user.id) [] session log
        tip defaults write)
      (error : Error) (failed : (Write.insertLog log).check write.db = .error error) :
      RecordsFailed driverId performedOn session (.error error)
        (((session.saw tip).saw defaults).saw write)
  | escalated (log : ComplianceCheckLog) (tip defaults write told trigger : Sent)
      (appends : Appends sha256 user.companyId "FSK".toList "FAILED".toList performedOn
        (some driverId) none (.driver driverId) (some "SICHT".toList) (some user.id) [] session log
        tip defaults write)
      (valid : (Write.insertLog log).check write.db = .ok ())
      (asked : (((session.saw tip).saw defaults).wrote write (.insertLog log)).Asked
        (.notifiedUsers user.companyId) told)
      (triggered : ((((session.saw tip).saw defaults).wrote write (.insertLog log)).saw
        told).Asked .uuid4 trigger)
      (outcome : Except Error E6Result) (after : Session)
      (runs : RunsE6 driverId user.companyId trigger.env.fresh
        ((told.notifiedUsers user.companyId).map fun account =>
          ⟨some account.email, account.phoneE164⟩)
        (((((session.saw tip).saw defaults).wrote write (.insertLog log)).saw told).saw trigger)
        outcome after) :
      RecordsFailed driverId performedOn session (outcome.map fun _ => ()) after

theorem recordFailedCheck_ends {driverId : Uuid} {performedOn : Date} {outcome : Except Error Unit}
    (clean : session.memory.pending = [])
    (ended : postgres.Ends (recordFailedCheck sha256 user driverId performedOn) session outcome
      after) :
    RecordsFailed sha256 user driverId performedOn session outcome after := by
  obtain ⟨log, tip, defaults, write, appends, ⟨valid, ended⟩ | ⟨error, rfl, failed, rfl⟩⟩ :=
    step_appendCheck clean ended
  · rcases ends_then.mp ended with ⟨recipients, middle, first, rest⟩ | ⟨error, _, first⟩
    · obtain ⟨told, asked, first⟩ := step_notifiedUsers (by simp [clean]) first
      obtain ⟨same, rfl⟩ := first
      cases same
      obtain ⟨trigger, triggered, rest⟩ := step_uuid4 rest
      rcases ends_then.mp rest with ⟨result, last, runs, done⟩ | ⟨error, rfl, runs⟩
      · obtain ⟨rfl, rfl⟩ := done
        exact .escalated log tip defaults write told trigger appends valid asked triggered
          (.ok result) _ (runE6_ends (by simp [clean]) runs)
      · exact .escalated log tip defaults write told trigger appends valid asked triggered
          (.error error) _ (runE6_ends (by simp [clean]) runs)
    · obtain ⟨told, asked, first⟩ := step_notifiedUsers (by simp [clean]) first
      cases first.1
  · exact .refused log tip defaults write appends error failed

/-- A PASSED check completes an OPEN deadline, or records its evidence and resolves. -/
inductive RecordsPassed (driver : Driver) (driverId : Uuid) (performedOn : Date)
    (session : Session) : Session → Prop
  | completed (pick : Sent) (row : Deadline)
      (asked : session.Asked (.openDeadline (.driver driverId) .fsk) pick)
      (found : row ∈ pick.openDeadlinesOf (.driver driverId) .fsk) (result : CompletionResult)
      (after : Session)
      (completes : Completes sha256 (Memory.instanceOf session.memory.deadlines row).id
        user.companyId resultPassed performedOn (some user.id) (some "SICHT".toList)
        ((session.saw pick).withMemory (session.memory.loadDeadline row)) (.ok result) after) :
      RecordsPassed driver driverId performedOn session after
  | adHoc (pick : Sent) (asked : session.Asked (.openDeadline (.driver driverId) .fsk) pick)
      (none : pick.openDeadlinesOf (.driver driverId) .fsk = [])
      (log : ComplianceCheckLog) (tip defaults write : Sent)
      (appends : Appends sha256 user.companyId "FSK".toList "PASSED".toList performedOn
        (some driverId) Option.none (.driver driverId) (some "SICHT".toList) (some user.id) []
        (session.saw pick) log tip defaults write)
      (valid : (Write.insertLog log).check write.db = .ok ()) (caseId : Option Uuid)
      (last : Session) (lifted : List Write)
      (lifts : Lifts resultPassed (some user.id) driver
        ((((session.saw pick).saw tip).saw defaults).wrote write (.insertLog log)) caseId last
        lifted) :
      RecordsPassed driver driverId performedOn session (last.withPending lifted)

theorem recordPassedCheck_ends {driver : Driver} {driverId : Uuid} {performedOn : Date}
    (clean : session.memory.pending = [])
    (ended : postgres.Ends (recordPassedCheck sha256 user driver driverId performedOn) session
      (.ok ()) after) :
    RecordsPassed sha256 user driver driverId performedOn session after := by
  obtain ⟨pick, asked, ⟨none, ended⟩ | ⟨row, found, ended⟩⟩ := step_openDeadline clean ended
  · obtain ⟨log, tip, defaults, write, appends, ⟨valid, ended⟩ | ⟨_, same, _⟩⟩ :=
      step_appendCheck (by simp [clean]) ended
    · rcases ends_then.mp ended with ⟨caseId, middle, first, done⟩ | ⟨_, same, _⟩
      · obtain ⟨_, rfl⟩ := done
        obtain ⟨seen, more, writes, sent, resolves, _, rfl⟩ :=
          maybeResolveOpenCase_ends (by simp [clean]) first
        exact .adHoc pick asked none log tip defaults write appends valid _ _ _
          (.passed rfl seen more writes sent resolves)
      · cases same
    · cases same
  · rcases ends_then.mp ended with ⟨result, middle, first, done⟩ | ⟨_, same, _⟩
    · obtain ⟨_, rfl⟩ := done
      exact .completed pick row asked found result _
        (completeDeadline_ends (by simp [clean]) first)
    · cases same

/-- What a submission has read before it branches: the day, and the driver row. -/
structure OpensCheck (driverId : Uuid) (data : Form) (session : Session) (performedOn : Date)
    (clock : List Sent) (load : Sent) : Prop where
  given : ∀ day, parseDate (data.get "performed_on".toList) = some day →
    performedOn = day ∧ clock = []
  today : parseDate (data.get "performed_on".toList) = none →
    ∃ now, clock = [now] ∧ session.Asked .now now ∧ berlinDate now.env.now = some performedOn
  asked : (session.sawAll clock).Asked (.getDriver driverId) load

def submitted (data : Form) : Str :=
  (data.get "result".toList).getD []

/-- Everything a submission can do; the failures of a PASSED one are not followed. -/
inductive ChecksDriver (driverId : Uuid) (data : Form) (session : Session) :
    Except Error Response → Session → Prop
  | forbidden (viewer : user.role = .viewer) :
      ChecksDriver driverId data session (.error .forbidden) session
  | undated (now : Sent) (asked : session.Asked .now now)
      (unknown : berlinDate now.env.now = none) :
      ChecksDriver driverId data session (.error .overflow) (session.saw now)
  | absent (performedOn : Date) (clock : List Sent) (load : Sent)
      (opens : OpensCheck driverId data session performedOn clock load)
      (missing : load.driver driverId none = none) :
      ChecksDriver driverId data session (.ok (.page 404)) ((session.sawAll clock).saw load)
  | failed (performedOn : Date) (clock : List Sent) (load : Sent) (row : Driver)
      (opens : OpensCheck driverId data session performedOn clock load)
      (found : load.driver driverId none = some row) (result : submitted data = resultFailed)
      (outcome : Except Error Unit) (after : Session)
      (records : RecordsFailed sha256 user driverId performedOn
        (((session.sawAll clock).saw load).withMemory (session.memory.loadDriver row)) outcome
        after) :
      ChecksDriver driverId data session (outcome.map fun _ => .redirect) after
  | passed (performedOn : Date) (clock : List Sent) (load : Sent) (row : Driver)
      (opens : OpensCheck driverId data session performedOn clock load)
      (found : load.driver driverId none = some row) (result : submitted data ≠ resultFailed)
      (after : Session)
      (records : RecordsPassed sha256 user row driverId performedOn
        (((session.sawAll clock).saw load).withMemory (session.memory.loadDriver row)) after) :
      ChecksDriver driverId data session (.ok .redirect) after
  | unpassed (result : submitted data ≠ resultFailed) (error : Error) (after : Session) :
      ChecksDriver driverId data session (.error error) after

theorem recordDriverCheck_ends {driverId : Uuid} {data : Form}
    {outcome : Except Error Response} (clean : session.memory.pending = [])
    (unloaded : session.memory.drivers = [])
    (ended : postgres.Ends (recordDriverCheck sha256 user driverId data) session outcome after) :
    ChecksDriver sha256 user driverId data session outcome after := by
  unfold recordDriverCheck at ended
  split at ended
  · rcases ends_then.mp ended with ⟨_, _, thrown, _⟩ | ⟨error, rfl, thrown⟩
    · cases thrown.1
    · obtain ⟨same, rfl⟩ := thrown
      cases same
      exact .forbidden ‹_›
  · have ended := step_pure ended
    rcases step_dateOrToday ended with ⟨performedOn, clock, given, today, ended⟩ |
      ⟨now, _, asked, unknown, rfl, rfl⟩
    · obtain ⟨load, asked, ⟨missing, ended⟩ | ⟨row, found, ended⟩⟩ :=
        step_getDriver (by simp [clean]) (by simp [unloaded]) ended
      · obtain ⟨rfl, rfl⟩ := ended
        exact .absent performedOn clock load ⟨given, today, asked⟩ missing
      · have copy : Memory.instanceOf (session.sawAll clock).memory.drivers row = row := by
          simp [Memory.instanceOf, unloaded]
        rw [copy] at ended
        change postgres.Ends (if submitted data = resultFailed then _ else _) _ _ _ at ended
        split at ended
        · rename_i isFailed
          rcases ends_then.mp ended with ⟨⟨⟩, middle, first, done⟩ | ⟨error, rfl, first⟩
          · obtain ⟨rfl, rfl⟩ := done
            exact .failed performedOn clock load row ⟨given, today, asked⟩ found isFailed (.ok ()) _
              (recordFailedCheck_ends sha256 user (by simp [clean]) first)
          · exact .failed performedOn clock load row ⟨given, today, asked⟩ found isFailed
              (.error error) _ (recordFailedCheck_ends sha256 user (by simp [clean]) first)
        · rename_i isPassed
          rcases ends_then.mp ended with ⟨⟨⟩, middle, first, done⟩ | ⟨error, rfl, first⟩
          · obtain ⟨rfl, rfl⟩ := done
            exact .passed performedOn clock load row ⟨given, today, asked⟩ found isPassed _
              (recordPassedCheck_ends sha256 user (by simp [clean]) first)
          · exact .unpassed isPassed error _
    · exact .undated now asked unknown

/-- A new driver is flushed, and its first deadline left pending. -/
inductive CreatesDriver (session : Session) : Response → Session → Prop
  | rejected : CreatesDriver session (.page 400) session
  | created (first last : Str) (start : Option Date) (drawn write second : Sent)
      (clock : List Sent) (anchor dueOn : Date)
      (asked : session.Asked .serverDefaults drawn)
      (executed : (session.saw drawn).Asked (.execute (.insertDriver
        (.created drawn.env.fresh user.companyId first last start))) write)
      (valid : (Write.insertDriver (.created drawn.env.fresh user.companyId first last start)).check
        write.db = .ok ())
      (given : ∀ day, start = some day → anchor = day ∧ clock = [])
      (dated : firstFskDue anchor fskIntervalMonths = some dueOn)
      (drawnAgain : (((session.saw drawn).wrote write (.insertDriver
        (.created drawn.env.fresh user.companyId first last start))).sawAll clock).Asked
          .serverDefaults second) :
      CreatesDriver session (.page 200)
        (((((session.saw drawn).wrote write (.insertDriver
          (.created drawn.env.fresh user.companyId first last start))).sawAll clock).saw
            second).withPending
          [.insertDeadline (.opened second.env.fresh user.companyId .fsk
            (.driver drawn.env.fresh) dueOn)])

theorem createDriver_ends {data : Form} {response : Response}
    (clean : session.memory.pending = [])
    (ended : postgres.Ends (createDriver user data) session (.ok response) after) :
    CreatesDriver user session response after := by
  unfold createDriver at ended
  by_cases viewer : user.role = .viewer
  · rw [if_pos viewer] at ended
    rcases ends_then.mp ended with ⟨_, _, thrown, _⟩ | ⟨_, same, _⟩
    · cases thrown.1
    · cases same
  · simp only [if_neg viewer] at ended
    split at ended
    · obtain ⟨same, rfl⟩ := ended
      cases same
      exact .rejected
    · obtain ⟨drawn, asked, ended⟩ := step_serverDefaults ended
      have ended := step_add ended
      rw [Session.saw_memory, clean, List.nil_append] at ended
      obtain ⟨write, executed, ⟨valid, ended⟩ | ⟨_, _, same, _⟩⟩ :=
        step_flush_one (by simp [clean]) ended
      · rcases step_dateOrToday ended with ⟨anchor, clock, given, _, ended⟩ |
          ⟨_, _, _, _, same, _⟩
        · rcases step_orThrow ended with ⟨dueOn, dated, ended⟩ | ⟨_, same, _⟩
          · obtain ⟨second, again, ended⟩ := step_serverDefaults ended
            have ended := step_add ended
            obtain ⟨same, rfl⟩ := ended
            cases same
            simp only [Session.saw_memory, Session.sawAll_memory, Session.wrote_memory,
              Memory.flushed_pending, clean, List.nil_append]
            exact .created _ _ _ drawn write second clock anchor dueOn asked executed valid given
              dated again
          · cases same
        · cases same
      · cases same

end Drivers

/-! ### Vehicles -/

section Vehicles

variable (sha256) (validateKennzeichen : Str → Option Str) (user : AccountUser)

/-- A new vehicle is flushed, and its first deadlines left pending. -/
inductive CreatesVehicle (session : Session) : Response → Session → Prop
  | rejected : CreatesVehicle session (.page 400) session
  | created (vehicle : Vehicle) (drawn write second third : Sent) (clock : List Sent)
      (anchor huDue uvvDue : Date)
      (asked : session.Asked .serverDefaults drawn)
      (isNew : vehicle.id = drawn.env.fresh) (own : vehicle.companyId = user.companyId)
      (executed : (session.saw drawn).Asked (.execute (.insertVehicle vehicle)) write)
      (valid : (Write.insertVehicle vehicle).check write.db = .ok ())
      (huDated : firstHuDue anchor firstHuIntervalMonths = some huDue)
      (uvvDated : firstUvvDue anchor = some uvvDue) :
      CreatesVehicle session (.page 200)
        ((((((session.saw drawn).wrote write (.insertVehicle vehicle)).sawAll clock).saw
            second).saw third).withPending
          [.insertDeadline (.opened second.env.fresh user.companyId .hu
              (.vehicle vehicle.id) huDue),
            .insertDeadline (.opened third.env.fresh user.companyId .uvv
              (.vehicle vehicle.id) uvvDue)])

theorem createVehicle_ends {data : Form} {response : Response}
    (clean : session.memory.pending = [])
    (ended : postgres.Ends (createVehicle validateKennzeichen user data) session (.ok response)
      after) : CreatesVehicle user session response after := by
  have allowed : user.role ≠ .viewer := by
    intro viewer
    simp only [createVehicle, viewer, if_true] at ended
    split at ended
    · rcases ends_then.mp ended with ⟨_, _, thrown, _⟩ | ⟨_, same, _⟩
      · cases thrown.1
      · cases same
    · rcases ends_then.mp ended with ⟨_, _, thrown, _⟩ | ⟨_, same, _⟩
      · cases thrown.1
      · cases same
  simp only [createVehicle, if_neg allowed] at ended
  split at ended
  · obtain ⟨same, rfl⟩ := ended
    cases same
    exact .rejected
  · obtain ⟨drawn, asked, ended⟩ := step_serverDefaults ended
    have ended := step_add ended
    rw [Session.saw_memory, clean, List.nil_append] at ended
    obtain ⟨write, executed, ⟨valid, ended⟩ | ⟨_, _, same, _⟩⟩ :=
      step_flush_one (by simp [clean]) ended
    · rcases step_dateOrToday ended with ⟨anchor, clock, _, _, ended⟩ | ⟨_, _, _, _, same, _⟩
      · rcases step_orThrow ended with ⟨huDue, huDated, ended⟩ | ⟨_, same, _⟩
        · obtain ⟨second, _, ended⟩ := step_serverDefaults ended
          have ended := step_add ended
          rcases step_orThrow ended with ⟨uvvDue, uvvDated, ended⟩ | ⟨_, same, _⟩
          · obtain ⟨third, _, ended⟩ := step_serverDefaults ended
            have ended := step_add ended
            obtain ⟨same, rfl⟩ := ended
            cases same
            simp only [Session.saw_memory, Session.sawAll_memory, Session.wrote_memory,
              Memory.flushed_pending, clean, List.nil_append, Session.withPending_saw,
              Session.withPending_withPending, Session.withPending_pending, List.singleton_append]
            exact .created _ drawn write second third clock anchor huDue uvvDue asked rfl rfl
              executed valid huDated uvvDated
          · cases same
        · cases same
      · cases same
    · cases same

/-- An inspection completes an OPEN deadline, or only records its evidence. -/
inductive ChecksVehicle (vehicleId : Uuid) (session : Session) : Session → Prop
  | completed (clock : List Sent) (kind : DeadlineKind) (result : Str) (performedOn : Date)
      (pick : Sent) (row : Deadline)
      (asked : (session.sawAll clock).Asked (.openDeadline (.vehicle vehicleId) kind) pick)
      (found : row ∈ pick.openDeadlinesOf (.vehicle vehicleId) kind) (done : CompletionResult)
      (after : Session)
      (completes : Completes sha256 (Memory.instanceOf session.memory.deadlines row).id
        user.companyId result performedOn (some user.id) (some "WERKSTATT".toList)
        (((session.sawAll clock).saw pick).withMemory (session.memory.loadDeadline row)) (.ok done)
        after) :
      ChecksVehicle vehicleId session after
  | adHoc (clock : List Sent) (kind : DeadlineKind) (label result : Str) (performedOn : Date)
      (pick : Sent)
      (asked : (session.sawAll clock).Asked (.openDeadline (.vehicle vehicleId) kind) pick)
      (none : pick.openDeadlinesOf (.vehicle vehicleId) kind = [])
      (log : ComplianceCheckLog) (tip defaults write : Sent)
      (inspects : Inspects sha256 user.companyId label result performedOn (some user.id)
        (some "WERKSTATT".toList) vehicleId ((session.sawAll clock).saw pick) log tip defaults
        write) :
      ChecksVehicle vehicleId session
        (((((session.sawAll clock).saw pick).saw tip).saw defaults).wrote write (.insertLog log))

theorem recordVehicleCheck_ends {vehicleId : Uuid} {data : Form} {response : Response}
    (clean : session.memory.pending = [])
    (ended : postgres.Ends (recordVehicleCheck sha256 user vehicleId data) session (.ok response)
      after) : ChecksVehicle sha256 user vehicleId session after := by
  unfold recordVehicleCheck at ended
  by_cases viewer : user.role = .viewer
  · rw [if_pos viewer] at ended
    rcases ends_then.mp ended with ⟨_, _, thrown, _⟩ | ⟨_, same, _⟩
    · cases thrown.1
    · cases same
  · rw [if_neg viewer] at ended
    have ended := step_pure ended
    rcases step_dateOrToday ended with ⟨performedOn, clock, _, _, ended⟩ | ⟨_, _, _, _, same, _⟩
    · obtain ⟨pick, asked, ⟨none, ended⟩ | ⟨row, found, ended⟩⟩ :=
        step_openDeadline (by simp [clean]) ended
      · obtain ⟨log, tip, defaults, write, appends, ⟨valid, ended⟩ | ⟨_, same, _⟩⟩ :=
          step_appendCheck (by simp [clean]) ended
        · obtain ⟨_, rfl⟩ := ended
          exact .adHoc clock _ _ _ performedOn pick asked none log tip defaults write
            ⟨appends, valid⟩
        · cases same
      · rcases ends_then.mp ended with ⟨done, middle, first, rest⟩ | ⟨_, same, _⟩
        · obtain ⟨_, rfl⟩ := rest
          exact .completed clock _ _ performedOn pick row asked found done _
            (completeDeadline_ends (by simp [clean]) first)
        · cases same
    · cases same

end Vehicles

/-! ### Service calls -/

/-- A resolution finds no driver, or lifts the lock of the copy it has loaded. -/
inductive ResolvesFor (driverId : Uuid) (resolvedById : Option Uuid) (session : Session) :
    Session → Prop
  | absent (load : Sent) : ResolvesFor driverId resolvedById session (session.saw load)
  | lifted (statement : Statement) (load : Sent) (row : Driver) (base : Session)
      (asked : session.Asked statement load) (found : load.driver driverId none = some row)
      (isBase : base = (session.saw load).withMemory (session.memory.loadDriver row) ∨
        base = (session.locked load [.driver driverId]).withMemory (session.memory.loadDriver row))
      (caseId : Option Uuid) (last : Session) (lifted : List Write)
      (lifts : Lifts resultPassed resolvedById row base caseId last lifted) :
      ResolvesFor driverId resolvedById session (last.withPending lifted)

theorem resolveFor_ends {driverId : Uuid} {locking : Bool} {resolvedById caseId : Option Uuid}
    (clean : session.memory.pending = []) (unloaded : session.memory.drivers = [])
    (ended : postgres.Ends (resolveFor driverId locking resolvedById) session (.ok caseId) after) :
    ResolvesFor driverId resolvedById session after := by
  have copy : ∀ row : Driver, Memory.instanceOf session.memory.drivers row = row := by
    intro row
    simp [Memory.instanceOf, unloaded]
  cases locking with
  | true =>
      obtain ⟨load, asked, ⟨_, ended⟩ | ⟨row, found, ended⟩⟩ := step_driverForUpdate clean ended
      · obtain ⟨_, rfl⟩ := ended
        exact .absent load
      · rw [copy] at ended
        obtain ⟨seen, more, writes, sent, resolves, _, rfl⟩ :=
          maybeResolveOpenCase_ends (by simp [clean]) ended
        refine .lifted _ load row _ asked ?_ (.inr rfl) _ _ _
          (.passed rfl seen more writes sent resolves)
        simpa using found
  | false =>
      obtain ⟨load, asked, ⟨_, ended⟩ | ⟨row, found, ended⟩⟩ :=
        step_getDriver clean (by simp [unloaded]) ended
      · obtain ⟨_, rfl⟩ := ended
        exact .absent load
      · rw [copy] at ended
        obtain ⟨seen, more, writes, sent, resolves, _, rfl⟩ :=
          maybeResolveOpenCase_ends (by simp [clean]) ended
        exact .lifted _ load row _ asked found (.inl rfl) _ _ _
          (.passed rfl seen more writes sent resolves)

end Fristenwaechter
