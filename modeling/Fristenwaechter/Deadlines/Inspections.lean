import Fristenwaechter.Deadlines.Ahead
import Fristenwaechter.Sweeps.SevenDays

/-!
Owns what an inspection makes of an OPEN deadline of its vehicle: the submitted kind
selects the deadline, the submitted result the interval of its successor.
-/

namespace Fristenwaechter

open Library (Config Ended Reachable Server Sound)

variable {sha256 : Str → Str} {validateKennzeichen : Str → Option Str}

/-! ### The form -/

/-- The kind of deadline that a form is taken for. -/
def inspectedKind (data : Form) : DeadlineKind :=
  if (data.get "kind".toList).getD "HU".toList = "HU".toList then .hu else .uvv

/-- The result that a form is taken to report. -/
def inspectedResult (data : Form) : Str :=
  (data.get "result".toList).getD resultPassed

/-- A form whose kind and result both select what they name. -/
structure FairSubmission (data : Form) : Prop where
  kind : ∀ kind, data.get "kind".toList = some kind → kind = "HU".toList ∨ kind = "UVV".toList
  result : data.get "result".toList = some resultPassed ∨
    inspectedKind data = .hu ∧ data.get "result".toList = some resultFailedDefects

theorem inspectedKind_text {data : Form} {kind : Str} (given : data.get "kind".toList = some kind) :
    (inspectedKind data).text = kind ↔ kind = "HU".toList ∨ kind = "UVV".toList := by
  rw [inspectedKind, given, Option.getD_some]
  split
  · rename_i isHu
    simp [DeadlineKind.text, isHu]
  · rename_i other
    constructor
    · exact fun same => .inr same.symm
    · rintro (isHu | isUvv)
      · exact absurd isHu other
      · exact isUvv.symm

theorem inspectedResult_defects {data : Form} :
    inspectedResult data = resultFailedDefects ↔
      data.get "result".toList = some resultFailedDefects := by
  unfold inspectedResult
  cases data.get "result".toList with
  | none => decide
  | some result => simp

/-- Only an HU with defects is followed by a Nachprüfung. -/
theorem rollForward_nachpruefung {kind : DeadlineKind} {result : Str} {interval : Int}
    {completedOn due : Date}
    (dated : rollForward kind result interval completedOn = some (due, true)) :
    kind = .hu ∧ result = resultFailedDefects := by
  unfold rollForward at dated
  cases kind with
  | fsk =>
      obtain ⟨_, _, same⟩ := Option.map_eq_some_iff.mp dated
      cases same
  | uvv =>
      obtain ⟨_, _, same⟩ := Option.map_eq_some_iff.mp dated
      cases same
  | hu =>
      dsimp only at dated
      split at dated
      · rename_i defects
        exact ⟨rfl, defects⟩
      · obtain ⟨_, _, same⟩ := Option.map_eq_some_iff.mp dated
        cases same

/-! ### The deadlines -/

def deadlineWrites (writes : List Write) : List Write :=
  writes.filter fun write => write.table = .deadline

theorem deadlines_after {db other : Db} (same : db.deadlines = other.deadlines)
    (writes : List Write) :
    (db.after writes).deadlines = (other.after (deadlineWrites writes)).deadlines := by
  induction writes generalizing db other with
  | nil => exact same
  | cons write rest inductionHypothesis =>
      rw [Db.after_cons]
      by_cases isDeadline : write.table = .deadline
      · rw [deadlineWrites, List.filter_cons_of_pos (by simpa using isDeadline), Db.after_cons]
        refine inductionHypothesis ?_
        cases write <;> simp [Write.table] at isDeadline <;> simp [Write.apply, same]
      · rw [deadlineWrites, List.filter_cons_of_neg (by simpa using isDeadline)]
        refine inductionHypothesis ?_
        cases write <;> first | exact same | exact absurd rfl isDeadline

/-- A completion by the submitted kind and result has rewritten its deadline, appended the
evidence and spawned the successor. -/
structure Renews (data : Form) (writes : List Write) (parent : Deadline) (completedOn due : Date)
    (nachpruefung : Bool) (log : ComplianceCheckLog) (successor : Uuid) : Prop where
  writes : writes = [.updateDeadline parent (parent.completed completedOn), .insertLog log,
    .insertDeadline (spawn parent due nachpruefung successor)]
  kind : parent.kind = inspectedKind data
  dated : ∃ interval,
    rollForward parent.kind (inspectedResult data) interval completedOn = some (due, nachpruefung)

/-- The UPDATE of an OPEN copy is always due. -/
theorem update_completed {parent : Deadline} {completedOn : Date} (isOpen : parent.status = .open) :
    parent.update (parent.completed completedOn) =
      [.updateDeadline parent (parent.completed completedOn)] := by
  unfold Deadline.update
  rw [if_neg]
  intro same
  have status := congrArg Deadline.status same
  rw [isOpen] at status
  cases status

theorem completeDeadline_renews {session after : Session} {companyId : Uuid} {picked : Deadline}
    {data : Form} {completedOn : Date} {performedById : Option Uuid} {method : Option Str}
    {completion : CompletionResult} (remembers : session.Remembers) (fresh : session.writes = [])
    (clean : session.memory.pending = []) (loaded : session.memory.deadlines = [picked])
    (kind : picked.kind = inspectedKind data) (isOpen : picked.status = .open)
    (ended : postgres.Ends (completeDeadline sha256 picked.id companyId (inspectedResult data)
      completedOn performedById method) session (.ok completion) after) :
    ∃ due nachpruefung log successor,
      Renews data after.writes picked completedOn due nachpruefung log successor := by
  obtain ⟨lock, row, parent, locked, log, due, nachpruefung, successor, lifted, locks, _, _, writes,
    lifts⟩ := (completeDeadline_ends clean ended).deed remembers (by simp [fresh])
  have isPicked : parent = picked := by
    have own : row.id = picked.id :=
      Library.Table.key_of_find (Option.filter_eq_some_iff.mp locks.found).1
    rw [locks.isCopy, loaded]
    simp [Memory.instanceOf, own]
  subst isPicked
  have nothingLifted : lifted = [] := by
    cases lifts with
    | nothing _ => rfl
    | lifts driver load seen resolving isFsk subject passed lifts =>
        rw [isFsk, inspectedKind] at kind
        split at kind <;> cases kind
  rw [fresh, nothingLifted, update_completed isOpen, List.nil_append] at writes
  refine ⟨due, nachpruefung, log, successor, writes, kind, ?_⟩
  obtain ⟨other, interval, dueToo, spawns⟩ := completeDeadline_spawns ended
  have inserted := spawns.inserted
  rw [writes] at inserted
  -- only one deadline has been inserted
  have same : spawn other dueToo completion.isNachpruefung completion.successorDeadlineId =
      spawn parent due nachpruefung successor := by
    simpa using inserted
  simp only [spawn, Deadline.mk.injEq] at same
  obtain ⟨_, _, sameKind, _, rfl, _, _, rfl⟩ := same
  have dated := spawns.dated
  rw [sameKind] at dated
  exact ⟨interval, dated⟩

theorem recordVehicleCheck_renews {user : AccountUser} {vehicleId : Uuid} {data : Form}
    {tenant : Option Uuid} {start : Instant} {response : Response} {after : Session}
    (ended : postgres.Ends (recordVehicleCheck sha256 user vehicleId data)
      (Session.opened tenant start) (.ok response) after) :
    after.memory.pending = [] ∧ ∃ pick ∈ after.trace,
      pick.statement = .openDeadline (.vehicle vehicleId) (inspectedKind data) ∧
        ((Sent.openDeadlinesOf pick (.vehicle vehicleId) (inspectedKind data) = [] ∧
            ∃ log, after.writes = [.insertLog log]) ∨
          ∃ parent ∈ Sent.openDeadlinesOf pick (.vehicle vehicleId) (inspectedKind data),
            ∃ completedOn due nachpruefung log successor,
              Renews data after.writes parent completedOn due nachpruefung log successor) := by
  have remembers := Session.opened_remembers tenant start
  unfold recordVehicleCheck at ended
  by_cases viewer : user.role = .viewer
  · rw [if_pos viewer] at ended
    rcases ends_then.mp ended with ⟨_, _, thrown, _⟩ | ⟨_, same, _⟩
    · cases thrown.1
    · cases same
  · rw [if_neg viewer] at ended
    have ended := step_pure ended
    rcases step_dateOrToday ended with ⟨performedOn, clock, _, _, ended⟩ | ⟨_, _, _, _, same, _⟩
    swap
    · cases same
    obtain ⟨pick, asked, ⟨none, ended⟩ | ⟨row, found, ended⟩⟩ := step_openDeadline rfl ended
    · obtain ⟨log, tip, defaults, write, appends, ⟨valid, ended⟩ | ⟨_, same, _⟩⟩ :=
        step_appendCheck rfl ended
      swap
      · cases same
      obtain ⟨_, rfl⟩ := ended
      exact ⟨rfl, pick, by simp, asked.statement, .inl ⟨none, log, by simp⟩⟩
    · rcases ends_then.mp ended with ⟨done, middle, first, rest⟩ | ⟨_, same, _⟩
      swap
      · cases same
      obtain ⟨_, rfl⟩ := rest
      have isCopy : Memory.instanceOf
          ((Session.opened tenant start).sawAll clock).memory.deadlines row = row := by
        simp [Memory.instanceOf, Session.opened, Memory.empty]
      have picked := List.mem_filter.mp found
      simp only [Bool.and_eq_true, decide_eq_true_eq] at picked
      rw [isCopy] at first
      obtain ⟨due, nachpruefung, log, successor, renews⟩ := completeDeadline_renews
        (((remembers.sawAll clock).saw pick).withMemory (by rfl)) rfl rfl rfl picked.2.1.2
        picked.2.2 first
      have grows := Server.ends_trace first
      have clean := (completeDeadline_ends rfl first).clean rfl
      exact ⟨clean, pick, grows.subset (by simp), asked.statement, .inr ⟨row, found, performedOn,
        due, nachpruefung, log, successor, renews⟩⟩

/-! ### Inspections of a run -/

/-- The inspection leaves every deadline as it was, or it touches one of the submitted kind,
whose successor has the full interval only if the inspection was passed. -/
def Done.InspectsFairly (done : Done) (data : Form) : Prop :=
  deadlineWrites (Session.writes done.transaction) = [] ∨
    ∃ parent completedOn due nachpruefung successor,
      deadlineWrites (Session.writes done.transaction) =
          [.updateDeadline parent (parent.completed completedOn),
            .insertDeadline (spawn parent due nachpruefung successor)] ∧
        (∀ kind, data.get "kind".toList = some kind → parent.kind.text = kind) ∧
        (data.get "result".toList = some resultPassed ∨
          nachpruefung = true ∧ daysForward completedOn nachpruefungDays = some due)

theorem Renews.fairly {data : Form} {done : Done} {parent : Deadline} {completedOn due : Date}
    {nachpruefung : Bool} {log : ComplianceCheckLog} {successor : Uuid}
    (renews : Renews data (Session.writes done.transaction) parent completedOn due nachpruefung log
      successor) : done.InspectsFairly data ↔ FairSubmission data := by
  obtain ⟨interval, dated⟩ := renews.dated
  have touched : deadlineWrites (Session.writes done.transaction) =
      [.updateDeadline parent (parent.completed completedOn),
        .insertDeadline (spawn parent due nachpruefung successor)] := by
    rw [renews.writes]
    rfl
  unfold Done.InspectsFairly
  rw [touched]
  constructor
  · rintro (nothing | ⟨other, completedOnToo, dueToo, nachpruefungToo, successorToo, same, kind,
      result⟩)
    · cases nothing
    · simp only [List.cons.injEq, Write.updateDeadline.injEq, Write.insertDeadline.injEq, spawn,
        Deadline.mk.injEq] at same
      obtain ⟨⟨rfl, _⟩, ⟨_, _, _, _, rfl, _, _, rfl⟩, _⟩ := same
      refine ⟨fun submitted given => ?_, result.imp_right ?_⟩
      · have text := kind submitted given
        rw [renews.kind] at text
        exact (inspectedKind_text given).mp text
      · rintro ⟨rfl, _⟩
        obtain ⟨isHu, defects⟩ := rollForward_nachpruefung dated
        exact ⟨renews.kind ▸ isHu, inspectedResult_defects.mp defects⟩
  · intro fair
    refine .inr ⟨parent, completedOn, due, nachpruefung, successor, rfl, fun kind given => ?_,
      fair.result.imp_right ?_⟩
    · rw [renews.kind]
      exact (inspectedKind_text given).mpr (fair.kind kind given)
    · rintro ⟨isHu, defects⟩
      rw [renews.kind, isHu, inspectedResult_defects.mpr defects, rollForward, if_pos rfl] at dated
      obtain ⟨found, moved, same⟩ := Option.map_eq_some_iff.mp dated
      cases same
      exact ⟨rfl, moved⟩

/-- **A failed inspection.** In every interleaving a committed inspection leaves the deadlines
as they were, or renews one of the submitted kind with an interval that its result warrants,
exactly when it finds no OPEN deadline or its submission is fair; any other outcome leaves the
database alone. -/
theorem failed_inspection_interval {world : World}
    {config : Config World Memory Connection Statement Answer Env Error Request Outcome}
    (reached : Reachable (system sha256 validateKennzeichen) .unrestricted ⟨world, [], []⟩ config)
    {done : Done} (member : done ∈ config.ended) {user : AccountUser} {vehicleId : Uuid}
    {data : Form} (isInspection : done.request = .recordVehicleCheck user vehicleId data) :
    (done.isCommitted = false → (system sha256 validateKennzeichen).leave done = done.world) ∧
      (done.isCommitted = true → ∃ pick ∈ done.transaction.trace,
        pick.statement = .openDeadline (.vehicle vehicleId) (inspectedKind data) ∧
          done.result.deadlines = (done.world.db.after
            (deadlineWrites (Session.writes done.transaction))).deadlines ∧
          (done.InspectsFairly data ↔
            Sent.openDeadlinesOf pick (.vehicle vehicleId) (inspectedKind data) = [] ∨
              FairSubmission data)) := by
  refine ⟨leave_uncommitted, fun committed => ?_⟩
  obtain ⟨result, well⟩ := committed_well committed
  have sound := (Sound.reachable (system_laws sha256 validateKennzeichen)
    (persistDiscipline sha256 validateKennzeichen .unrestricted) (Sound.quiet trivial) reached).1
  obtain ⟨_, _, start, _, _, _, ends, _⟩ := sound.concluded done member
  have ended := ends _ well
  rw [isInspection] at ended
  rcases transaction_ends ended with ⟨_, middle, _, body, executed⟩ | ⟨_, same, _⟩
  swap
  · cases same
  rcases ends_return.mp body with ⟨response, _, ran⟩ | ⟨_, same, _⟩
  swap
  · cases same
  obtain ⟨clean, pick, sent, asked, deeds⟩ := recordVehicleCheck_renews ran
  cases executed.of_clean clean
  refine ⟨pick, sent, asked, deadlines_after rfl _, ?_⟩
  rcases deeds with ⟨none, log, writes⟩ | ⟨parent, found, completedOn, due, nachpruefung, log,
    successor, renews⟩
  · refine iff_of_true (.inl ?_) (.inl none)
    rw [writes]
    rfl
  · rw [renews.fairly, or_iff_right (List.ne_nil_of_mem found)]

/-! ### An inspection of the fleet -/

def inspectionForm (kind result : String) : Form :=
  .of [("kind", kind), ("result", result), ("performed_on", "2026-01-31")]

def inspectedFleet (kind result : String) (steps : Nat) : List (Library.Choice Env Request) :=
  .start (fleetVehicle "24") :: fleetRun 0 1 13 ++
    [.finish 0, .start (vehicleInspection kind result "2026-01-31")] ++ fleetRun 0 30 steps ++
      [.finish 0]

def committedInspection (data : Form) (done : Done) : Bool :=
  Done.isCommitted done && match Ended.request done with
    | .recordVehicleCheck _ _ submitted => submitted = data
    | _ => false

theorem committedInspection_spec {data : Form} {done : Done}
    (inspection : committedInspection data done = true) :
    Done.isCommitted done = true ∧
      ∃ user vehicleId, Ended.request done = .recordVehicleCheck user vehicleId data := by
  obtain ⟨committed, request⟩ := (Bool.and_eq_true _ _).mp inspection
  refine ⟨committed, ?_⟩
  split at request
  · rename_i user vehicleId submitted isRequest
    exact ⟨user, vehicleId, isRequest.trans (by rw [of_decide_eq_true request])⟩
  · cases request

/-- An HU with defects. -/
theorem failed_inspection_interval_fleet :
    ∃ config done user vehicleId data, (system id some).schedule ⟨fleetWorld, [], []⟩
        (inspectedFleet "HU" "FAILED_DEFECTS" 26) = some config ∧ done ∈ config.ended ∧
      Ended.request done = .recordVehicleCheck user vehicleId data ∧
      (Done.isCommitted done = false → (system id some).leave done = Ended.world done) ∧
      (Done.isCommitted done = true → ∃ pick ∈ done.transaction.trace,
        pick.statement = .openDeadline (.vehicle vehicleId) (inspectedKind data) ∧
          (Done.result done).deadlines = ((Ended.world done).db.after
            (deadlineWrites (Session.writes done.transaction))).deadlines ∧
          (Done.InspectsFairly done data ↔
            Sent.openDeadlinesOf pick (.vehicle vehicleId) (inspectedKind data) = [] ∨
              FairSubmission data)) := by
  have ran : ((system id some).schedule ⟨fleetWorld, [], []⟩
      (inspectedFleet "HU" "FAILED_DEFECTS" 26)).any (fun config =>
        config.ended.any (committedInspection (inspectionForm "HU" "FAILED_DEFECTS"))) = true := by
    decide +kernel
  obtain ⟨config, ran, found⟩ := (Option.any_eq_true _ _).mp ran
  obtain ⟨done, member, inspection⟩ := List.any_eq_true.mp found
  obtain ⟨_, user, vehicleId, request⟩ := committedInspection_spec inspection
  exact ⟨config, done, user, vehicleId, _, ran, member, request,
    failed_inspection_interval (.of_schedule ran) member request⟩

/-- A UVV inspection with defects moves the deadline by a year. -/
theorem uvv_defects_renewed :
    ∃ config, Reachable (system id some) .unrestricted ⟨fleetWorld, [], []⟩ config ∧
      ∃ done ∈ config.ended, ∃ user vehicleId successor, Ended.request done =
          .recordVehicleCheck user vehicleId (inspectionForm "UVV" "FAILED_DEFECTS") ∧
        Done.isCommitted done = true ∧
        .insertDeadline successor ∈ Session.writes done.transaction ∧
        successor.isNachpruefung = false ∧
        nextUvvDue ⟨2026, 1, 31, by decide⟩ = some successor.dueOn ∧
        ¬ Done.InspectsFairly done (inspectionForm "UVV" "FAILED_DEFECTS") := by
  have ran : ((system id some).schedule ⟨fleetWorld, [], []⟩
      (inspectedFleet "UVV" "FAILED_DEFECTS" 23)).any (fun config =>
        config.ended.any fun done =>
          committedInspection (inspectionForm "UVV" "FAILED_DEFECTS") done &&
            (Session.writes done.transaction).any fun write =>
              match write with
              | .insertDeadline successor => successor.isNachpruefung = false ∧
                  nextUvvDue ⟨2026, 1, 31, by decide⟩ = some successor.dueOn
              | _ => false) = true := by
    decide +kernel
  obtain ⟨config, ran, found⟩ := (Option.any_eq_true _ _).mp ran
  obtain ⟨done, member, both⟩ := List.any_eq_true.mp found
  obtain ⟨inspection, renewed⟩ := (Bool.and_eq_true _ _).mp both
  obtain ⟨committed, user, vehicleId, request⟩ := committedInspection_spec inspection
  obtain ⟨write, written, isInsert⟩ := List.any_eq_true.mp renewed
  split at isInsert
  · rename_i successor
    obtain ⟨plain, dated⟩ := of_decide_eq_true isInsert
    have touched : .insertDeadline successor ∈
        deadlineWrites (Session.writes done.transaction) :=
      List.mem_filter.mpr ⟨written, rfl⟩
    refine ⟨config, .of_schedule ran, done, member, user, vehicleId, successor, request, committed,
      written, plain, dated, ?_⟩
    rintro (nothing | ⟨parent, completedOn, due, nachpruefung, id, same, _, result⟩)
    · rw [nothing] at touched
      cases touched
    · rw [same] at touched
      have isSpawn : successor = spawn parent due nachpruefung id := by simpa using touched
      rcases result with passed | ⟨follows, _⟩
      · exact absurd passed (by decide)
      · rw [isSpawn, follows] at plain
        cases plain
  · cases isInsert

end Fristenwaechter
