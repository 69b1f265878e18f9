import Fristenwaechter.Lockout.Safety
import Fristenwaechter.Tenancy.Ownership

/-!
Owns the references of committed transactions: which rows a request inserts, and that
each of them refers to a subject of its own company. The exception is an inspection of a
vehicle that the company does not have, which still leaves evidence behind.
-/

namespace Fristenwaechter

open Library (Commits Config Discipline Journal Policy Reachable Sound Table)

variable {now : World} {after : Session}

/-- A commit with what its statements have seen. -/
structure Settled (after : Session) (now : World) : Prop where
  seen : ∀ entry ∈ after.trace, Referenced entry.world.db ∧ Persists entry.world.db now.db
  ready : Journal.Replays after.writes now.db
  referenced : Referenced now.db

/-- What a statement has found still belongs to its company. -/
theorem Settled.owns (settled : Settled after now) {entry : Sent} (sent : entry ∈ after.trace)
    {companyId : Uuid} {subject : Subject} (owns : entry.world.db.Owns companyId subject) :
    now.db.Owns companyId subject :=
  owns.later (settled.seen entry sent).2

theorem Settled.committed (settled : Settled after now)
    (inside : ∀ write ∈ after.writes, write.Inside now.db) :
    Referenced (now.db.after after.writes) := by
  have ready : Journal.Replays (after.writes ++ []) now.db := by
    rw [List.append_nil]
    exact settled.ready
  have done := settled.referenced.after ready inside (by simp)
  rwa [List.append_nil] at done

theorem sees_tenant {connection : Connection} {tenant companyId : Uuid}
    (pinned : connection.tenant = some tenant) (visible : connection.sees companyId = true) :
    companyId = tenant := by
  have same : tenant = companyId := by simpa [Connection.sees, pinned] using visible
  exact same.symm

/-! ### Lockouts and completions -/

theorem driver_update_inside {loaded current : Driver} {db : Db} :
    ∀ write ∈ loaded.update current, write.Inside db := by
  intro write member
  exact Driver.mem_update member ▸ trivial

theorem e6Context_names {row : OutboxMessage} {driver : Driver} {deadline : Instant}
    (payload : row.payload = e6Context driver deadline) : row.NamesOwnCompany := by
  intro value named
  rw [payload] at named
  simp [e6Context] at named

theorem LocksOut.inside {companyId triggerCheckId : Uuid} {recipients : List Recipient}
    {driver row : Driver} {load lock entry alert : Sent} {case : EscalationCase}
    {createdAt : Instant} {ids : List Uuid} {staged : List Write} (settled : Settled after now)
    (locks : LocksOut companyId triggerCheckId recipients after.trace driver row load lock entry
      alert case createdAt ids staged) : ∀ write ∈ staged, write.Inside now.db := by
  have owns : now.db.Owns companyId (.driver driver.id) := by
    refine settled.owns locks.locked ⟨row, Table.mem_of_find locks.committed, ?_, locks.company⟩
    exact Table.key_of_find locks.committed
  rw [locks.staged]
  intro write member
  rcases List.mem_append.mp member with lockWrite | tellWrite
  · rcases List.mem_append.mp lockWrite with update | isCase
    · exact driver_update_inside write update
    · rw [List.mem_singleton.mp isCase]
      simp only [Write.Inside, locks.caseCompany, locks.own]
      exact owns
  · rcases List.mem_append.mp tellWrite with message | isAlert
    · obtain ⟨row, inBroadcast, rfl⟩ := List.mem_map.mp message
      obtain ⟨index, inRange, isRow⟩ := List.mem_iff_getElem.mp inBroadcast
      have payload : row.payload = e6Context driver case.deadlineAt := by
        rw [← isRow]
        simp only [broadcast, List.getElem_zipWith]
        rfl
      exact e6Context_names payload
    · rw [List.mem_singleton.mp isAlert]
      intro id own
      cases own
      exact owns

theorem Resolves.inside {resolvedById : Option Uuid} {found : Option EscalationCase}
    {resolving : List Write} (resolves : Resolves resolvedById found resolving) {db : Db} :
    ∀ write ∈ resolving, write.Inside db := by
  cases resolves with
  | nothing => simp
  | resolved case instant => simp [Write.Inside]

theorem Lifts.inside {session last : Session} {result : Str} {resolvedById : Option Uuid}
    {driver : Driver} {caseId : Option Uuid} {lifted : List Write}
    (lifts : Lifts result resolvedById driver session caseId last lifted) {db : Db} :
    ∀ write ∈ lifted, write.Inside db := by
  cases lifts with
  | other differs => simp
  | passed same seen more writes asked resolves =>
      intro write member
      rcases List.mem_append.mp member with update | resolve
      · exact driver_update_inside write update
      · exact resolves.inside write resolve

theorem Completes.inside {sha256 : Str → Str} {session : Session} {deadlineId companyId : Uuid}
    {result : Str} {completedOn : Date} {performedById : Option Uuid} {method : Option Str}
    {done : CompletionResult} {picked : Deadline}
    (remembers : session.Remembers) (fresh : session.writes = [])
    (loaded : session.memory.deadlines = [picked]) (own : picked.id = deadlineId)
    (company : picked.companyId = companyId)
    (owns : now.db.Owns companyId picked.subject)
    (completes : Completes sha256 deadlineId companyId result completedOn performedById method
      session (.ok done) after) : ∀ write ∈ after.writes, write.Inside now.db := by
  obtain ⟨lock, row, parent, locked, log, due, nachpruefung, successor, lifted, locks,
    ⟨logCompany, about⟩, _, writes, lifts⟩ := completes.deed remembers (by simp [fresh])
  have isPicked : parent = picked := by
    have key := Table.key_of_find (Option.filter_eq_some_iff.mp locks.found).1
    have same : row.id = picked.id := key.trans own.symm
    rw [locks.isCopy, loaded]
    simp [Memory.instanceOf, same]
  subst isPicked
  intro write member
  rw [writes, fresh, List.nil_append] at member
  rcases List.mem_append.mp member with update | rest
  · exact Deadline.mem_update update ▸ trivial
  · rcases List.mem_cons.mp rest with rfl | rest
    · exact ⟨parent.subject, about, logCompany ▸ owns⟩
    · rcases List.mem_cons.mp rest with rfl | lift
      · have spawned : now.db.Owns parent.companyId parent.subject := company.symm ▸ owns
        exact spawned
      · cases lifts with
        | nothing _ => cases lift
        | lifts driver load seen resolving kind subject passed lifts =>
            rcases List.mem_append.mp lift with update | resolve
            · exact driver_update_inside write update
            · exact lifts.resolves.inside write resolve

/-! ### Requests -/

section Requests

variable {sha256 : Str → Str} {start : Instant} {user : AccountUser}

theorem createDriver_referenced {response : Response} {middle : Session}
    (settled : Settled after now)
    (creates : CreatesDriver user (.opened (some user.companyId) start) response middle)
    (executed : Executed (unitOfWork middle.memory.pending) (middle.withPending []) after) :
    Referenced (now.db.after after.writes) := by
  cases creates with
  | rejected =>
      cases executed.of_clean rfl
      exact settled.committed (by simp)
  | created first last given drawn write second clock anchor dueOn asked inserted valid isGiven
      dated drawnAgain =>
      have whole : after.writes =
          [.insertDriver (.created drawn.env.fresh user.companyId first last given)] ++
            [.insertDeadline (.opened second.env.fresh user.companyId .fsk
              (.driver drawn.env.fresh) dueOn)] := by
        rw [executed.writes]
        simp
      have ready := settled.ready
      rw [whole] at ready ⊢
      refine settled.referenced.after ready (by simp [Write.Inside]) fun written member => ?_
      rw [List.mem_singleton.mp member]
      have new := ready.1
      change (Write.insertDriver _).check now.db = .ok () at new
      simp only [Write.check, requireNew, require_then_eq_ok, require_eq_ok,
        Option.isNone_iff_eq_none] at new
      exact ⟨_, Table.mem_insert.mpr (.inr ⟨rfl, new.2⟩), rfl, rfl⟩

theorem createVehicle_referenced {response : Response} {middle : Session}
    (settled : Settled after now)
    (creates : CreatesVehicle user (.opened (some user.companyId) start) response middle)
    (executed : Executed (unitOfWork middle.memory.pending) (middle.withPending []) after) :
    Referenced (now.db.after after.writes) := by
  cases creates with
  | rejected =>
      cases executed.of_clean rfl
      exact settled.committed (by simp)
  | created vehicle drawn write second third clock anchor huDue uvvDue asked isNew own inserted
      valid huDated uvvDated =>
      have whole : after.writes = [.insertVehicle vehicle] ++ unitOfWork
          [.insertDeadline (.opened second.env.fresh user.companyId .hu (.vehicle vehicle.id)
              huDue),
            .insertDeadline (.opened third.env.fresh user.companyId .uvv (.vehicle vehicle.id)
              uvvDue)] := by
        rw [executed.writes]
        simp
      have ready := settled.ready
      rw [whole] at ready ⊢
      refine settled.referenced.after ready (by simp [Write.Inside]) fun written member => ?_
      have new := ready.1
      change (Write.insertVehicle vehicle).check now.db = .ok () at new
      simp only [Write.check, requireNew, require_then_eq_ok, require_eq_ok,
        Option.isNone_iff_eq_none] at new
      have owns : (now.db.after [.insertVehicle vehicle]).Owns user.companyId
          (.vehicle vehicle.id) :=
        ⟨vehicle, Table.mem_insert.mpr (.inr ⟨rfl, new.2⟩), rfl, own⟩
      have pending := mem_unitOfWork.mp member
      simp only [List.mem_cons, List.not_mem_nil, or_false] at pending
      rcases pending with rfl | rfl <;> exact owns

theorem loaded_owns {entry : Sent} {session : Session} {statement : Statement} {driverId : Uuid}
    {row : Driver} (asked : session.Asked statement entry) (fresh : session.writes = [])
    (pinned : session.connection.tenant = some user.companyId)
    (found : entry.driver driverId none = some row) :
    entry.world.db.Owns user.companyId (.driver driverId) := by
  obtain ⟨copied, own, _⟩ := Copied.of_found asked (by simp [fresh]) found
  have pinnedHere : entry.connection.tenant = some user.companyId := by
    rw [asked.connection, pinned]
  exact ⟨row, Table.mem_of_find copied.committed, own, sees_tenant pinnedHere copied.visible⟩

theorem picked_owns {entry : Sent} {session : Session} {subject : Subject} {kind : DeadlineKind}
    {row : Deadline} (settled : Settled after now) (sent : entry ∈ after.trace)
    (asked : session.Asked (.openDeadline subject kind) entry) (fresh : session.writes = [])
    (pinned : session.connection.tenant = some user.companyId)
    (found : row ∈ entry.openDeadlinesOf subject kind) :
    row.companyId = user.companyId ∧ now.db.Owns user.companyId row.subject := by
  obtain ⟨inView, holds⟩ := List.mem_filter.mp found
  simp only [Bool.and_eq_true, decide_eq_true_eq] at holds
  have pinnedHere : entry.connection.tenant = some user.companyId := by
    rw [asked.connection, pinned]
  have company := sees_tenant pinnedHere holds.1.1.1
  rw [asked.db, fresh, Db.after_nil] at inView
  have owns := (settled.seen entry sent).1.deadlines row inView
  rw [company] at owns
  exact ⟨company, settled.owns sent owns⟩

theorem recordDriverCheck_inside {driverId : Uuid} {data : Form} {response : Response}
    {middle : Session} (settled : Settled after now)
    (checks : ChecksDriver sha256 user driverId data (.opened (some user.companyId) start)
      (.ok response) middle)
    (executed : Executed (unitOfWork middle.memory.pending) (middle.withPending []) after) :
    ∀ write ∈ after.writes, write.Inside now.db := by
  have remembersOpened := Session.opened_remembers (some user.companyId) start
  have grown : middle.trace <+: after.trace := executed.grown.trace
  generalize isOk : (Except.ok response : Except Error Response) = answer at checks
  cases checks with
  | forbidden => cases isOk
  | undated => cases isOk
  | absent performedOn clock load opens missing =>
      cases executed.of_clean rfl
      simp
  | failed performedOn clock load row opens found result outcome _ records =>
      have owned : load.world.db.Owns user.companyId (.driver driverId) :=
        loaded_owns opens.asked rfl rfl found
      obtain ⟨copied, sameTenant, remembers⟩ := opens.remembers found
      cases records with
      | refused => cases isOk
      | escalated log tip defaults write told trigger appends valid asked triggered outcome _
          runs =>
          cases outcome with
          | error error => cases isOk
          | ok result =>
              have remembersLog := (((((remembers.saw tip).saw defaults).wrote write
                (.insertLog log) (by simp [Write.table])).saw told).saw trigger)
              obtain ⟨earlier, deed, clean⟩ := runs.deed remembersLog rfl
              cases executed.of_clean (clean rfl)
              have sent : load ∈ after.trace := earlier.subset (by simp)
              have logInside : (Write.insertLog log).Inside now.db := by
                rw [appends.isRow]
                exact ⟨.driver driverId, by simp [ComplianceCheckLog.about, entryRow],
                  settled.owns sent owned⟩
              rcases deed with ⟨kept, _⟩ | ⟨driver, row, load, lock, entry, alert, case, ids,
                staged, locks, _, writes, _⟩
              · intro written member
                have same : after.writes = [.insertLog log] := by
                  rw [Session.writes, kept, ← Session.writes]
                  simp
                rw [same, List.mem_singleton] at member
                exact member ▸ logInside
              · intro written member
                rw [writes] at member
                rcases List.mem_append.mp member with first | later
                · have isLog : written = .insertLog log := by simpa using first
                  exact isLog ▸ logInside
                · exact locks.inside settled written later
  | passed performedOn clock load row opens found result _ records =>
      have owned : load.world.db.Owns user.companyId (.driver driverId) :=
        loaded_owns opens.asked rfl rfl found
      obtain ⟨copied, sameTenant, remembers⟩ := opens.remembers found
      cases records with
      | completed pick picked asked isOpen result _ completes =>
          cases executed.of_clean (completes.clean rfl)
          have whole := completes.grown ?_ rfl
          · have sent : pick ∈ after.trace := whole.trace.subset (by simp)
            obtain ⟨company, owns⟩ := picked_owns settled sent asked rfl rfl isOpen
            refine completes.inside ?_ rfl rfl rfl company owns
            exact (remembers.saw pick).withMemory rfl
          · exact (remembers.saw pick).withMemory rfl
      | adHoc pick asked none log tip defaults write appends valid caseId last lifted lifts =>
          have sent : load ∈ after.trace := by
            refine (lifts.grown.1.trace.trans grown).subset ?_
            simp
          have logInside : (Write.insertLog log).Inside now.db := by
            rw [appends.isRow]
            exact ⟨.driver driverId, by simp [ComplianceCheckLog.about, entryRow],
              settled.owns sent owned⟩
          have whole : after.writes = [.insertLog log] ++ lifted := by
            rw [executed.writes, Session.withPending_pending, unitOfWork_lifts lifts]
            simp [lifts.grown.2.1]
          intro written member
          rw [whole] at member
          rcases List.mem_append.mp member with first | lift
          · exact List.mem_singleton.mp first ▸ logInside
          · exact lifts.inside written lift
  | unpassed => cases isOk

theorem recordVehicleCheck_inside {vehicleId : Uuid} {middle : Session}
    (settled : Settled after now)
    (checks : ChecksVehicle sha256 user vehicleId (.opened (some user.companyId) start) middle)
    (executed : Executed (unitOfWork middle.memory.pending) (middle.withPending []) after)
    (owned : now.db.Owns user.companyId (.vehicle vehicleId)) :
    ∀ write ∈ after.writes, write.Inside now.db := by
  have remembersOpened := Session.opened_remembers (some user.companyId) start
  cases checks with
  | completed clock kind result performedOn pick picked asked found done _ completes =>
      cases executed.of_clean (completes.clean rfl)
      have whole := completes.grown ?_ rfl
      · have sent : pick ∈ after.trace := whole.trace.subset (by simp)
        obtain ⟨company, owns⟩ := picked_owns settled sent asked rfl rfl found
        refine completes.inside ?_ rfl rfl rfl company owns
        exact ((remembersOpened.sawAll clock).saw pick).withMemory rfl
      · exact ((remembersOpened.sawAll clock).saw pick).withMemory rfl
  | adHoc clock kind label result performedOn pick asked none log tip defaults write inspects =>
      cases executed.of_clean rfl
      intro written member
      have isLog : written = .insertLog log := by simpa using member
      rw [isLog, inspects.appends.isRow]
      exact ⟨.vehicle vehicleId, ComplianceCheckLog.about_vehicle rfl rfl, owned⟩

end Requests

/-! ### Sweeps -/

theorem SweepWrite.inside {instant : Instant} {today : Date} {cases : List EscalationCase}
    {write : Write} (sweep : SweepWrite instant today cases write) (db : Db) : write.Inside db := by
  cases sweep with
  | breach case claimed late => trivial
  | nag case claimed inTime => trivial
  | breachMessage case claimed late driver id createdAt contact =>
      intro value named
      simpa [EscalationCase.message, EscalationCase.payload, OutboxMessage.staged] using named
  | nagMessage case claimed inTime driver id createdAt contact =>
      intro value named
      simpa [EscalationCase.message, EscalationCase.payload, OutboxMessage.staged] using named

theorem Reminds.inside {write : Write} (reminds : Reminds write) (db : Db) : write.Inside db := by
  obtain ⟨deadline, display, subject, token, subjectNames, id, createdAt, contact⟩ := reminds
  intro value named
  have other : ∀ field ∈ subject, field.1 ≠ "company_id".toList := by
    intro field member same
    have listed : field.1 ∈ subject.map Prod.fst := List.mem_map_of_mem member
    rw [subjectNames, same] at listed
    revert listed
    decide
  change ("company_id".toList, value) ∈ deadline.payload display subject at named
  rcases List.mem_append.mp named with own | names
  · have same : value = .str deadline.companyId.text := by simpa using own
    exact same
  · exact absurd rfl (other _ names)

theorem Within.inside {allowed : Write → Prop} {tenant : Option Uuid} {start : Instant}
    {middle : Session} (inside : ∀ write, allowed write → write.Inside now.db)
    (within : Within allowed (.opened tenant start) middle)
    (executed : Executed (unitOfWork middle.memory.pending) (middle.withPending []) after) :
    ∀ write ∈ after.writes, write.Inside now.db := by
  obtain ⟨more, whole, all⟩ := (within.committed executed).writes
  intro write member
  rw [whole] at member
  exact inside write (all write (by simpa using member))

/-! ### Runs -/

section Runs

variable (sha256 : Str → Str) (validateKennzeichen : Str → Option Str)

/-- The requests of the fleet's users, and the sweeps. -/
def Request.ofFleet : Request → Bool
  | .createDriver _ _ => true
  | .createVehicle _ _ => true
  | .recordDriverCheck _ _ _ => true
  | .recordVehicleCheck _ _ _ => true
  | .sweepEscalations => true
  | .sendReminders => true
  | _ => false

def fleetRequests : Policy World Memory Connection Statement Env Request where
  starts _ request := request.ofFleet = true
  calls _ _ := True
  commits _ _ _ := True
  aborts _ _ _ := True

/-- The vehicle of an inspection exists in the company of its user. -/
def Request.OwnsVehicle (db : Db) : Request → Prop
  | .recordVehicleCheck user vehicleId _ => db.Owns user.companyId (.vehicle vehicleId)
  | _ => True

/-- The runs in which every inspection that commits is of a vehicle of its company. -/
def ownVehicles : Policy World Memory Connection Statement Env Request where
  starts _ request := request.ofFleet = true
  calls _ _ := True
  commits request world _ := request.OwnsVehicle world.db
  aborts _ _ _ := True

theorem commits_referenced {request : Request} {start : World} {result : Outcome}
    (commits : Commits (system sha256 validateKennzeichen) ownVehicles readCommitted
      (fun world => Consistent world ∧ Referenced world.db) Evolves request start after result
      now) :
    Referenced (now.committed after.connection).db := by
  have settled : Settled after now := by
    refine ⟨fun entry member => ?_, commits.chain.ready, commits.nowInv.2⟩
    obtain ⟨inv, _, _, _, upTo⟩ := commits.chain.seen entry member
    exact ⟨inv.2, upTo.persists⟩
  have ended := commits.ends
  rw [committed_eq]
  change postgres.Ends (transaction (request.body sha256 validateKennzeichen))
    (Session.opened request.tenant start.clock) (.ok result) after at ended
  rcases transaction_ends ended with ⟨_, middle, same, body, executed⟩ | ⟨_, same, _⟩
  swap
  · cases same
  cases same
  have fleet := commits.starts
  have owned := commits.commits
  cases request with
  | createDriver user data =>
      rcases ends_return.mp body with ⟨response, _, ran⟩ | ⟨_, same, _⟩
      · exact createDriver_referenced settled (createDriver_ends user rfl ran) executed
      · cases same
  | createVehicle user data =>
      rcases ends_return.mp body with ⟨response, _, ran⟩ | ⟨_, same, _⟩
      · exact createVehicle_referenced settled (createVehicle_ends validateKennzeichen user rfl ran)
          executed
      · cases same
  | recordDriverCheck user driverId data =>
      rcases ends_return.mp body with ⟨response, _, ran⟩ | ⟨_, same, _⟩
      · exact settled.committed (recordDriverCheck_inside settled
          (recordDriverCheck_ends sha256 user rfl rfl ran) executed)
      · cases same
  | recordVehicleCheck user vehicleId data =>
      rcases ends_return.mp body with ⟨response, _, ran⟩ | ⟨_, same, _⟩
      · exact settled.committed (recordVehicleCheck_inside settled
          (recordVehicleCheck_ends sha256 user rfl ran) executed owned)
      · cases same
  | sweepEscalations =>
      rcases ends_return.mp body with ⟨⟨⟩, _, ran⟩ | ⟨_, same, _⟩
      · obtain ⟨instant, clock, begun, claim, today, base, sweeps, loop⟩ :=
          sweepEscalations_ends rfl ran
        obtain ⟨more, whole, all⟩ := ((sweeps.within rfl loop).committed executed).writes
        refine settled.committed fun write member => ?_
        rw [whole, sweeps.isBase] at member
        exact (all write (by simpa using member)).inside now.db
      · cases same
  | sendReminders =>
      rcases ends_return.mp body with ⟨⟨⟩, _, ran⟩ | ⟨_, same, _⟩
      · refine settled.committed (Within.inside (fun _ reminds => reminds.inside now.db)
          (within_sendReminders _ _ _ ran (.refl (by simp [Session.opened, Memory.empty])))
          executed)
      · cases same
  | _ => cases fleet

/-- **References stay inside the tenant.** In every state that any interleaving of the
requests and the sweeps reaches, if no inspection of a foreign vehicle commits. -/
theorem references_stay_inside {world : World} (consistent : Consistent world)
    (referenced : Referenced world.db)
    {config : Config World Memory Connection Statement Answer Env Error Request Outcome}
    (reached : Reachable (system sha256 validateKennzeichen) ownVehicles ⟨world, [], []⟩ config) :
    Referenced config.world.db := by
  have discipline : Discipline (system sha256 validateKennzeichen) ownVehicles readCommitted
      (fun world => Consistent world ∧ Referenced world.db) Evolves :=
    (lockoutDiscipline sha256 validateKennzeichen ownVehicles).strengthen
      (fun _ _ inside => inside) (commits_referenced sha256 validateKennzeichen)
  have sound := Sound.reachable (system_laws sha256 validateKennzeichen) discipline
    (.quiet ⟨consistent, referenced⟩) reached
  exact sound.1.inv.2

end Runs

theorem fleetWorld_referenced : Referenced fleetWorld.db where
  deadlines _ member := absurd member List.not_mem_nil
  cases _ member := absurd member List.not_mem_nil
  alerts _ member := absurd member List.not_mem_nil
  outbox _ member := absurd member List.not_mem_nil
  checkLog _ member := absurd member List.not_mem_nil

/-- A FAILED check alone. -/
theorem references_stay_inside_failed :
    ∃ config, (system id some).checkedSchedule
        (Policy.check (fun _ request => request.ofFleet) (fun _ _ => true)
          (fun request _ _ => request matches .recordDriverCheck _ _ _) true)
        ⟨fleetWorld, [], []⟩
        (.start (fleetCheck "FAILED".toList) :: fleetRun 0 1 46 ++ [.finish 0]) = some config ∧
      Referenced config.world.db := by
  obtain ⟨config, ran⟩ := Option.isSome_iff_exists.mp (by decide +kernel :
    ((system id some).checkedSchedule
        (Policy.check (fun _ request => request.ofFleet) (fun _ _ => true)
          (fun request _ _ => request matches .recordDriverCheck _ _ _) true)
        ⟨fleetWorld, [], []⟩
        (.start (fleetCheck "FAILED".toList) :: fleetRun 0 1 46 ++ [.finish 0])).isSome = true)
  refine ⟨config, ran, references_stay_inside id some fleetWorld_consistent fleetWorld_referenced
    (Reachable.of_checked (fun checked => Policy.allows_of_check ?_ ?_ ?_ ?_ checked) ran)⟩
  · exact fun _ _ fleet => fleet
  · exact fun _ _ _ => trivial
  · intro request world transaction isDriverCheck
    change request.OwnsVehicle world.db
    cases request <;> trivial
  · exact fun _ _ _ _ => trivial

def fleetInspection : Request :=
  .recordVehicleCheck fleetOwner (fleetId 77) [("performed_on".toList, "2026-01-01".toList)]

/-- An inspection of a foreign vehicle finds no deadline and still leaves evidence. -/
theorem foreign_inspection_recorded :
    ¬ ∀ config, Reachable (system id some) fleetRequests ⟨fleetWorld, [], []⟩ config →
      Referenced config.world.db := by
  intro claimed
  have recorded : ((system id some).checkedSchedule
      (Policy.check (fun _ request => request.ofFleet) (fun _ _ => true) (fun _ _ _ => true) true)
      ⟨fleetWorld, [], []⟩ (.start fleetInspection :: fleetRun 0 1 13 ++ [.finish 0])).any
        (fun config => config.world.db.vehicles.rows.isEmpty &&
          config.world.db.checkLog.rows.any fun row => row.driverId.isNone) = true := by
    decide +kernel
  obtain ⟨config, ran, found⟩ := (Option.any_eq_true _ _).mp recorded
  simp only [Bool.and_eq_true, List.isEmpty_iff, List.any_eq_true,
    Option.isNone_iff_eq_none] at found
  obtain ⟨noVehicles, row, member, noDriver⟩ := found
  have reached : Reachable (system id some) fleetRequests ⟨fleetWorld, [], []⟩ config := by
    refine Reachable.of_checked (fun checked => Policy.allows_of_check ?_ ?_ ?_ ?_ checked) ran
    · exact fun _ _ fleet => fleet
    · exact fun _ _ _ => trivial
    · exact fun _ _ _ _ => trivial
    · exact fun _ _ _ _ => trivial
  obtain ⟨subject, about, owns⟩ := (claimed config reached).checkLog row member
  cases subject with
  | driver id => simp [ComplianceCheckLog.about, noDriver] at about
  | vehicle id =>
      obtain ⟨vehicle, vehicleIn, _⟩ := owns
      rw [Table.mem_iff, noVehicles] at vehicleIn
      cases vehicleIn

end Fristenwaechter
