import Fristenwaechter.Library.Simulation
import Fristenwaechter.Lockout.Safety
import Fristenwaechter.Relay.Delivery
import Fristenwaechter.Tenancy.Requests

/-!
Owns the isolation of tenants. A transaction that is pinned to a company changes the rows
of no other, and it goes exactly as it would in a database that holds the rows of its
company only. The one thing that shows through is a key that a row of another company has
taken: a generated id, a dedup key or an entry hash.
-/

namespace Fristenwaechter

open Library (Config Ended Entry Journal Policy Projection Reachable Server Sound Table)

variable {companyId other : Uuid} {db : Db} {write : Write}

/-! ### Writes -/

theorem AllOwned.last {trace : List Sent} {writes : List Write}
    (owned : AllOwned companyId trace (writes ++ [write])) (follows : Follows trace db)
    (replays : Journal.Replays (writes ++ [write]) db) :
    Journal.Replays writes db ∧ write.check (db.after writes) = .ok () ∧
      write.Owned companyId (db.after writes) := by
  obtain ⟨before, valid, _⟩ := Journal.replays_append.mp replays
  exact ⟨before, valid, owned writes write [] rfl db follows before⟩

theorem AllOwned.elsewhere {trace : List Sent} {writes : List Write}
    (owned : AllOwned companyId trace writes) (follows : Follows trace db)
    (replays : Journal.Replays writes db) (foreign : other ≠ companyId) :
    (db.after writes).of other = db.of other := by
  induction writes using List.reverseRecOn with
  | nil => rfl
  | append_singleton writes write inductionHypothesis =>
      obtain ⟨before, _, own⟩ := owned.last follows replays
      rw [Db.after_append]
      exact (own.elsewhere foreign).trans (inductionHypothesis owned.take before)

/-- The company's own writes do to its rows what they do to the whole. -/
theorem AllOwned.here {trace : List Sent} {writes : List Write}
    (owned : AllOwned companyId trace writes) (follows : Follows trace db)
    (replays : Journal.Replays writes db) :
    (db.after writes).of companyId = (db.of companyId).after writes := by
  induction writes using List.reverseRecOn with
  | nil => rfl
  | append_singleton writes write inductionHypothesis =>
      obtain ⟨before, valid, own⟩ := owned.last follows replays
      rw [Db.after_append, Db.after_append, ← inductionHypothesis owned.take before]
      exact own.here valid

/-! ### Keys -/

/-- No row of another company has taken a key of the inserted row. -/
def Write.Uncontested (companyId : Uuid) (db : Db) : Write → Prop
  | .insertDriver row => ∀ stored ∈ db.drivers, stored.id = row.id → stored.companyId = companyId
  | .insertVehicle row => ∀ stored ∈ db.vehicles, stored.id = row.id → stored.companyId = companyId
  | .insertDeadline row =>
      ∀ stored ∈ db.deadlines, stored.id = row.id → stored.companyId = companyId
  | .insertCase row => ∀ stored ∈ db.cases, stored.id = row.id → stored.companyId = companyId
  | .insertAlert row => ∀ stored ∈ db.alerts, stored.id = row.id → stored.companyId = companyId
  | .insertOutbox row => ∀ stored ∈ db.outbox,
      stored.id = row.id ∨ stored.dedupKey = row.dedupKey → stored.companyId = companyId
  | .insertLog row => ∀ stored ∈ db.checkLog,
      stored.id = row.id ∨ stored.entryHash = row.entryHash → stored.companyId = companyId
  | _ => True

/-- Each case is in the company of its driver. -/
def Db.CasesOwned (db : Db) : Prop :=
  ∀ case ∈ db.cases, ∃ driver ∈ db.drivers,
    driver.id = case.driverId ∧ driver.companyId = case.companyId

theorem AllOwned.casesOwned {trace : List Sent} {writes : List Write}
    (owned : AllOwned companyId trace writes) (follows : Follows trace db)
    (replays : Journal.Replays writes db) (cases : db.CasesOwned) :
    (db.after writes).CasesOwned := by
  induction writes using List.reverseRecOn with
  | nil => exact cases
  | append_singleton writes write inductionHypothesis =>
      obtain ⟨before, valid, own⟩ := owned.last follows replays
      have earlier := inductionHypothesis owned.take before
      have persists : Persists (db.after writes) (db.after (writes ++ [write])) := by
        rw [Db.after_append]
        exact Write.persists valid
      -- the driver of a case stays with it
      have stays : ∀ case ∈ (db.after writes).cases, ∀ later : EscalationCase,
          later.driverId = case.driverId → later.companyId = case.companyId →
            ∃ driver ∈ (db.after (writes ++ [write])).drivers,
              driver.id = later.driverId ∧ driver.companyId = later.companyId := by
        intro case member later sameDriver sameCompany
        obtain ⟨driver, driverIn, driverId, company⟩ := earlier case member
        obtain ⟨row, rowIn, follows⟩ := persists.drivers driver driverIn
        exact ⟨row, rowIn, by rw [follows.id, driverId, sameDriver],
          by rw [follows.companyId, company, sameCompany]⟩
      intro case member
      rw [Db.after_append] at member
      cases write with
      | insertCase row =>
          rcases Table.mem_insert.mp member with old | ⟨rfl, _⟩
          · exact stays case old case rfl rfl
          · have holds := own.2.later persists
            obtain ⟨driver, driverIn, driverId, company⟩ := holds
            exact ⟨driver, driverIn, driverId, company.trans own.1.symm⟩
      | updateCase change =>
          obtain ⟨old, oldIn, rfl⟩ := (Table.mem_update (by simp)).mp member
          refine stays old oldIn _ ?_ ?_
          · split <;> rfl
          · split <;> rfl
      | _ => first | exact own.elim | exact stays case member case rfl rfl

theorem requireNew_own {Row : Type} [Library.Keyed Row Uuid] {table : Table Row} {row : Row}
    {keep : Row → Bool}
    (own : ∀ stored ∈ table, Library.Keyed.key stored = Library.Keyed.key row →
      keep stored = true) : requireNew (table.restrict keep) row = requireNew table row := by
  rw [requireNew, requireNew, Table.find_restrict_own own]

theorem find_held {Row : Type} [Library.Keyed Row Uuid] {table : Table Row} {id : Uuid}
    {company : Row → Uuid}
    (held : ∃ row ∈ table, Library.Keyed.key row = id ∧ company row = companyId) :
    (table.restrict fun row => company row = companyId).find id = table.find id := by
  obtain ⟨row, member, sameId, own⟩ := held
  refine Table.find_restrict_own fun stored inside same => ?_
  rw [Table.eq_of_key inside member (same.trans sameId.symm)]
  exact decide_eq_true own

/-- A write of the company is checked alike against its own rows. -/
theorem Write.Owned.check (owned : write.Owned companyId db) (cases : db.CasesOwned)
    (uncontested : write.Uncontested companyId db) :
    write.check (db.of companyId) = write.check db := by
  cases write with
  | insertDriver row =>
      simp only [Write.check, Db.of]
      rw [requireNew_own fun stored member same => decide_eq_true (uncontested stored member same)]
  | insertVehicle row =>
      simp only [Write.check, Db.of]
      rw [requireNew_own fun stored member same => decide_eq_true (uncontested stored member same)]
  | insertDeadline row =>
      simp only [Write.check, Db.of]
      rw [requireNew_own fun stored member same => decide_eq_true (uncontested stored member same)]
  | insertAlert row =>
      simp only [Write.check, Db.of]
      rw [requireNew_own fun stored member same => decide_eq_true (uncontested stored member same)]
  | insertCase row =>
      -- an OPEN case of the same driver is in the same company
      have sameDriver : ∀ stored ∈ db.cases, stored.driverId = row.driverId →
          stored.companyId = companyId := by
        intro stored member same
        obtain ⟨driver, driverIn, driverId, company⟩ := cases stored member
        obtain ⟨own, ownIn, ownId, isOwn⟩ := owned.2
        rw [← company, ← isOwn]
        have isDriver : driver = own := by
          refine Table.eq_of_key driverIn ownIn ?_
          simp only [Driver.key_eq]
          rw [driverId, same, ownId]
        rw [isDriver]
      simp only [Write.check, Db.of]
      rw [requireNew_own fun stored member same => decide_eq_true (uncontested stored member same),
        Table.all_restrict]
      intro stored member taken
      refine decide_eq_true (sameDriver stored member ?_)
      simp only [decide_eq_false_iff_not, not_not] at taken
      exact taken.1
  | insertOutbox row =>
      simp only [Write.check, Db.of]
      rw [requireNew_own fun stored member same =>
          decide_eq_true (uncontested stored member (.inl same)), Table.all_restrict]
      intro stored member taken
      refine decide_eq_true (uncontested stored member (.inr ?_))
      simpa using taken
  | insertLog row =>
      simp only [Write.check, Db.of]
      rw [requireNew_own fun stored member same =>
          decide_eq_true (uncontested stored member (.inl same)), Table.all_restrict]
      intro stored member taken
      refine decide_eq_true (uncontested stored member (.inr ?_))
      simpa using taken
  | updateDriver loaded current =>
      simp only [Write.check, Db.of]
      rw [find_held owned]
  | updateDeadline loaded current =>
      simp only [Write.check, Db.of]
      rw [find_held owned]
  | updateCase change =>
      simp only [Write.check, Db.of]
      rw [find_held owned]
  | _ => exact absurd owned id

/-! ### Statements -/

def World.of (world : World) (companyId : Uuid) : World :=
  { world with db := world.db.of companyId }

/-- The connection as it would be in the world of its company. -/
def Connection.of (connection : Connection) (companyId : Uuid) : Connection :=
  { connection with
    journal := connection.journal.map fun stamped => (stamped.1.of companyId, stamped.2) }

def tenantView (companyId : Uuid) : Projection World Connection where
  world world := world.of companyId
  connection connection := connection.of companyId

section Statements

variable {world : World} {env : Env} {others : List Connection}
variable {memory memory' : Memory} {connection connection' : Connection}
variable {statement : Statement} {answer : Except Error (Answer statement)}

theorem Connection.of_writes :
    (connection.of companyId).journal.writes = connection.journal.writes := by
  simp only [Connection.of, Journal.writes, List.filterMap_map]
  rfl

theorem reply_of {given alike : Answer statement} (same : alike = given)
    (replied : reply given memory connection = some (answer, memory', connection')) :
    reply alike memory (connection.of companyId) =
      some (answer, memory', connection'.of companyId) := by
  subst same
  obtain ⟨rfl, rfl, rfl⟩ := reply_inv replied
  rfl

theorem answered_of {given : World → Connection → Answer statement}
    (replies : ∀ world others connection,
      perform world env others memory connection statement =
        reply (given world connection) memory connection)
    (same : given (world.of companyId) (connection.of companyId) = given world connection)
    (performed : perform world env others memory connection statement =
      some (answer, memory', connection')) :
    perform (world.of companyId) env [] memory (connection.of companyId) statement =
      some (answer, memory', connection'.of companyId) := by
  rw [replies] at performed ⊢
  exact reply_of same performed

/-- A look-up is answered alike where it finds the same row. -/
theorem lookUp_of {Row : Type} (found : World → Connection → Option Row)
    (replies : ∀ result, ∃ given loaded, ∀ world others connection,
      found world connection = result →
        perform world env others memory connection statement = reply given loaded connection)
    (same : found (world.of companyId) (connection.of companyId) = found world connection)
    (performed : perform world env others memory connection statement =
      some (answer, memory', connection')) :
    perform (world.of companyId) env [] memory (connection.of companyId) statement =
      some (answer, memory', connection'.of companyId) := by
  obtain ⟨given, loaded, replies⟩ := replies (found world connection)
  rw [replies _ _ _ rfl] at performed
  rw [replies _ _ _ same]
  exact reply_of rfl performed

theorem lockAndReply_of {refs : List Ref} {given : Answer statement}
    (replied : lockAndReply world others refs given memory connection =
      some (answer, memory', connection')) :
    lockAndReply (world.of companyId) [] refs given memory (connection.of companyId) =
      some (answer, memory', connection'.of companyId) := by
  obtain ⟨_, rfl, rfl, rfl⟩ := lockAndReply_inv replied
  rw [lockAndReply, if_neg (by simp [heldByOthers])]
  simp [Connection.lock, Connection.of]

theorem find_seen {Row : Type} [Library.Keyed Row Uuid] {table : Table Row} {id : Uuid}
    {company : Row → Uuid} {condition : Row → Bool}
    (seen : ∀ row, condition row = true → company row = companyId) :
    ((table.restrict fun row => company row = companyId).find id).filter condition =
      (table.find id).filter condition := by
  rw [Table.find_restrict, Option.filter_filter]
  congr 1
  funext row
  cases holds : condition row with
  | true => simp [seen row holds]
  | false => simp

theorem rows_seen {Row : Type} [Library.Keyed Row Uuid] {table : Table Row}
    {company : Row → Uuid} {condition : Row → Bool}
    (seen : ∀ row, condition row = true → company row = companyId) :
    (table.restrict fun row => company row = companyId).rows.filter condition =
      table.rows.filter condition := by
  rw [Table.restrict_rows, List.filter_filter]
  refine List.filter_congr fun row _ => ?_
  cases holds : condition row with
  | true => simp [seen row holds]
  | false => simp

theorem find_first_seen {Row : Type} [Library.Keyed Row Uuid] {table : Table Row}
    {company : Row → Uuid} {condition : Row → Bool}
    (seen : ∀ row, condition row = true → company row = companyId) :
    (table.restrict fun row => company row = companyId).rows.find? condition =
      table.rows.find? condition := by
  rw [← List.head?_filter, ← List.head?_filter, rows_seen seen]

theorem any_seen {Row : Type} [Library.Keyed Row Uuid] {table : Table Row}
    {company : Row → Uuid} {condition : Row → Bool}
    (seen : ∀ row, condition row = true → company row = companyId) :
    (table.restrict fun row => company row = companyId).rows.any condition =
      table.rows.any condition := by
  rw [List.any_eq_not_all_not, List.any_eq_not_all_not, Table.all_restrict]
  intro row _ holds
  exact decide_eq_true (seen row (by simpa using holds))

theorem lockRowAndReply_of {ref : Ref} {given : Answer statement}
    (replied : lockRowAndReply world others ref given memory connection =
      some (answer, memory', connection')) :
    lockRowAndReply (world.of companyId) [] ref given memory (connection.of companyId) =
      some (answer, memory', connection'.of companyId) := by
  rw [lockRowAndReply, if_neg (by simp [sharedByOthers])]
  exact lockAndReply_of (lockRowAndReply_inv replied)

/-- A look-up FOR UPDATE is answered alike where it finds the same row: among the rows of the
company it waits for nobody. -/
theorem forUpdate_of {Row : Type} (found : World → Connection → Option Row) (ref : Ref)
    (absent : ∃ given, ∀ world others connection, found world connection = none →
      perform world env others memory connection statement = reply given memory connection)
    (present : ∀ row, ∃ given loaded, ∀ world others connection,
      found world connection = some row →
        perform world env others memory connection statement =
          lockRowAndReply world others ref given loaded connection)
    (same : found (world.of companyId) (connection.of companyId) = found world connection)
    (performed : perform world env others memory connection statement =
      some (answer, memory', connection')) :
    perform (world.of companyId) env [] memory (connection.of companyId) statement =
      some (answer, memory', connection'.of companyId) := by
  cases isFound : found world connection with
  | none =>
      obtain ⟨given, replies⟩ := absent
      rw [replies _ _ _ isFound] at performed
      rw [replies _ _ _ (same.trans isFound)]
      exact reply_of rfl performed
  | some row =>
      obtain ⟨given, loaded, locks⟩ := present row
      rw [locks _ _ _ isFound] at performed
      rw [locks _ _ _ (same.trans isFound)]
      exact lockRowAndReply_of performed

theorem executeAndReply_of {given : Answer statement}
    (checks : write.check ((connection.view world.db).of companyId) =
      write.check (connection.view world.db))
    (viewed : (connection.of companyId).view (world.of companyId).db =
      (connection.view world.db).of companyId)
    (replied : executeAndReply world others write given memory connection =
      some (answer, memory', connection')) :
    executeAndReply (world.of companyId) [] write given memory (connection.of companyId) =
      some (answer, memory', connection'.of companyId) := by
  rw [executeAndReply, if_neg (by simp [heldByOthers, lockedByOthers, sharedByOthers]), viewed,
    checks]
  obtain ⟨_, ⟨error, failed, rfl, rfl, rfl⟩ | ⟨valid, rfl, rfl, rfl⟩⟩ := executeAndReply_inv replied
  · rw [failed]
  · rw [valid]
    simp [Connection.write, Connection.of]

/-- **A statement of a company** is answered alike where only its rows are. -/
theorem perform_of (pinned : connection.tenant = some companyId)
    (isLocal : statement.isLocal = true)
    (viewed : (connection.of companyId).view (world.of companyId).db =
      (connection.view world.db).of companyId)
    (checks : ∀ write, statement = .execute write →
      write.check ((connection.view world.db).of companyId) =
        write.check (connection.view world.db))
    (performed : perform world env others memory connection statement =
      some (answer, memory', connection')) :
    perform (world.of companyId) env [] memory (connection.of companyId) statement =
      some (answer, memory', connection'.of companyId) := by
  have own : ∀ {company : Uuid}, connection.sees company = true → company = companyId :=
    fun visible => sees_own pinned visible
  cases statement with
  | begin =>
      delta perform at performed
      dsimp only at performed
      obtain ⟨rfl, rfl, rfl⟩ := reply_inv performed
      rfl
  | getDriver id =>
      refine lookUp_of (fun world connection => ((connection.view world.db).drivers.find id).filter
        fun row => connection.sees row.companyId) ?_ ?_ performed
      · rintro (_ | row) <;>
          exact ⟨_, _, fun _ _ _ isFound => by simp only [perform, isFound]; rfl⟩
      · rw [viewed]
        exact find_seen fun row visible => own visible
  | driverForUpdate id company =>
      refine forUpdate_of (fun world connection =>
        ((connection.view world.db).drivers.find id).filter fun row =>
          connection.sees row.companyId && company.all (· = row.companyId)) (.driver id)
        ⟨_, fun _ _ _ isFound => by simp only [perform, isFound]; rfl⟩
        (fun _ => ⟨_, _, fun _ _ _ isFound => by simp only [perform, isFound]; rfl⟩) ?_ performed
      rw [viewed]
      exact find_seen fun row visible => own (Bool.and_eq_true_iff.mp visible).1
  | getVehicle id =>
      refine lookUp_of (fun world connection => ((connection.view world.db).vehicles.find id).filter
        fun row => connection.sees row.companyId) ?_ ?_ performed
      · rintro (_ | row) <;>
          exact ⟨_, _, fun _ _ _ isFound => by simp only [perform, isFound]; rfl⟩
      · rw [viewed]
        exact find_seen fun row visible => own visible
  | vehicleForUpdate id =>
      refine forUpdate_of (fun world connection =>
        ((connection.view world.db).vehicles.find id).filter fun row =>
          connection.sees row.companyId) (.vehicle id)
        ⟨_, fun _ _ _ isFound => by simp only [perform, isFound]; rfl⟩
        (fun _ => ⟨_, _, fun _ _ _ isFound => by simp only [perform, isFound]; rfl⟩) ?_ performed
      rw [viewed]
      exact find_seen fun row visible => own visible
  | getCompany id =>
      refine lookUp_of (fun world connection =>
        ((connection.view world.db).companies.find id).filter fun row => connection.sees row.id)
        ?_ ?_ performed
      · rintro (_ | row) <;>
          exact ⟨_, _, fun _ _ _ isFound => by simp only [perform, isFound]; rfl⟩
      · rw [viewed]
        exact find_seen fun row visible => own visible
  | deadlineForUpdate id company =>
      refine forUpdate_of (fun world connection =>
        ((connection.view world.db).deadlines.find id).filter fun row =>
          connection.sees row.companyId && row.companyId = company) (.deadline id)
        ⟨_, fun _ _ _ isFound => by simp only [perform, isFound]; rfl⟩
        (fun _ => ⟨_, _, fun _ _ _ isFound => by simp only [perform, isFound]; rfl⟩) ?_ performed
      rw [viewed]
      exact find_seen fun row visible => own (Bool.and_eq_true_iff.mp visible).1
  | openDeadline subject kind =>
      let rows (world : World) (connection : Connection) : List Deadline :=
        (connection.view world.db).deadlines.rows.filter fun row => connection.sees row.companyId &&
          row.subject = subject && row.kind = kind && row.status = .open
      have same : rows (world.of companyId) (connection.of companyId) = rows world connection := by
        simp only [rows, viewed]
        refine rows_seen fun row visible => ?_
        simp only [Bool.and_eq_true] at visible
        exact own visible.1.1.1
      refine lookUp_of (fun world connection =>
        (rows world connection)[env.pick % (rows world connection).length]?) ?_ ?_ performed
      · simp only [rows]
        rintro (_ | row) <;>
          exact ⟨_, _, fun _ _ _ isFound => by simp only [perform, isFound]; rfl⟩
      · rw [same]
  | openDeadlines =>
      refine answered_of (fun _ _ _ => rfl) ?_ performed
      rw [viewed]
      exact rows_seen fun row visible => own (Bool.and_eq_true_iff.mp visible).1
  | openCase driverId =>
      refine answered_of (fun _ _ _ => rfl) ?_ performed
      rw [viewed]
      refine find_first_seen fun row visible => ?_
      simp only [Bool.and_eq_true] at visible
      exact own visible.1.1
  | latestHash subject =>
      refine answered_of (fun _ _ _ => rfl) (congrArg
        (fun rows => (latestEntry rows).map ComplianceCheckLog.entryHash) ?_) performed
      rw [viewed]
      exact rows_seen fun row visible => own (Bool.and_eq_true_iff.mp visible).1
  | notifiedUsers company =>
      refine answered_of (fun _ _ _ => rfl) ?_ performed
      rw [viewed]
      exact rows_seen fun row visible => own (Bool.and_eq_true_iff.mp visible).1
  | outboxKey key =>
      refine answered_of (fun _ _ _ => rfl) ?_ performed
      rw [viewed]
      exact any_seen fun row visible => own (Bool.and_eq_true_iff.mp visible).1
  | leavers =>
      refine answered_of (fun _ _ _ => rfl) ?_ performed
      rw [viewed]
      refine rows_seen fun row visible => ?_
      simp only [Bool.and_eq_true] at visible
      exact own visible.1.1
  | companiesToDelete threshold =>
      refine answered_of (fun _ _ _ => rfl) ?_ performed
      rw [viewed]
      refine rows_seen fun row visible => ?_
      simp only [Bool.and_eq_true] at visible
      exact own visible.1.1
  | companyUsers company =>
      refine answered_of (fun _ _ _ => rfl) ?_ performed
      rw [viewed]
      exact rows_seen fun row visible => own (Bool.and_eq_true_iff.mp visible).1
  | companyDrivers company =>
      refine answered_of (fun _ _ _ => rfl) ?_ performed
      rw [viewed]
      exact rows_seen fun row visible => own (Bool.and_eq_true_iff.mp visible).1
  | execute write => exact executeAndReply_of (checks write rfl) viewed performed
  | «savepoint» =>
      delta perform at performed
      dsimp only at performed
      obtain ⟨rfl, rfl, rfl⟩ := reply_inv performed
      delta perform
      dsimp only
      simp only [Connection.of, reply]
      simp
  | rollbackTo =>
      delta perform at performed
      dsimp only at performed
      obtain ⟨rfl, rfl, rfl⟩ := reply_inv performed
      delta perform
      dsimp only
      simp only [Connection.of, List.map_take]
      rfl
  | release =>
      delta perform at performed
      dsimp only at performed
      obtain ⟨rfl, rfl, rfl⟩ := reply_inv performed
      rfl
  | deliver message =>
      delta perform at performed ⊢
      dsimp only at performed ⊢
      split at performed
      · exact reply_of rfl performed
      · exact reply_of rfl performed
      · cases performed
        rfl
  | now => exact answered_of (fun _ _ _ => rfl) rfl performed
  | serverDefaults => exact answered_of (fun _ _ _ => rfl) rfl performed
  | uuid4 => exact answered_of (fun _ _ _ => rfl) rfl performed
  | _ => cases isLocal

/-- No statement inserts a row under a key that another company has taken. -/
def Done.Uncontested (done : Done) (companyId : Uuid) : Prop :=
  ∀ entry ∈ done.transaction.trace, ∀ write, entry.statement = .execute write →
    write.Uncontested companyId (Sent.db entry)

theorem Sent.Confined.answers {past : List Sent} {entry : Sent}
    (confined : Sent.Confined companyId past entry) (follows : Follows past entry.world.db)
    (ready : Journal.Replays entry.connection.journal.writes entry.world.db)
    (cases : entry.world.db.CasesOwned)
    (uncontested : ∀ write, entry.statement = .execute write →
      write.Uncontested companyId (Sent.db entry))
    (possible : postgres.admissible entry.world entry.env = true) :
    (tenantView companyId).Answers postgres entry := by
  refine ⟨possible, fun answer memory connection performed => ?_⟩
  refine perform_of confined.tenant confined.isLocal ?_ ?_ performed
  · have here := confined.writes.here follows ready
    rw [Connection.view_eq, Connection.of_writes]
    exact here.symm
  · intro write isWrite
    have owned := confined.executes write isWrite entry.world.db follows ready
    have own := confined.writes.casesOwned follows ready cases
    exact owned.check own (uncontested write isWrite)

end Statements

/-! ### Two fleets -/

section Fleets

variable {Row Key : Type} [Library.Keyed Row Key]

instance (table : Table Row) (holds : Row → Prop) [DecidablePred holds] :
    Decidable (∀ row ∈ table, holds row) :=
  inferInstanceAs (Decidable (∀ row ∈ table.rows, holds row))

instance (companyId : Uuid) (db : Db) (write : Write) :
    Decidable (write.Uncontested companyId db) := by
  cases write <;> unfold Write.Uncontested <;> infer_instance

def Sent.uncontested (companyId : Uuid) (entry : Sent) : Bool :=
  match entry.statement with
  | .execute write => write.Uncontested companyId (Sent.db entry)
  | _ => true

/-- Another company has moved in. -/
def sharedWorld : World :=
  { fleetWorld with
    db := { fleetWorld.db with
      drivers := fleetWorld.db.drivers.insert
        (.created (fleetId 3) (fleetId 200) "Max".toList "Fremd".toList none) } }

theorem sharedWorld_consistent : Consistent sharedWorld where
  unique first member := absurd member (fleetWorld_cases first)
  owned case member := absurd member (fleetWorld_cases case)
  past := by
    intro driver member instant locked
    have isDriver : driver ∈ [fleetDriver, .created (fleetId 3) (fleetId 200) "Max".toList
      "Fremd".toList none] := member
    rcases List.mem_pair.mp isDriver with rfl | rfl <;> cases locked

end Fleets

/-! ### Runs -/

section Runs

variable {sha256 : Str → Str} {validateKennzeichen : Str → Option Str}

/-- **A tenant's transactions change nobody else's rows**, in every run and however they
end. -/
theorem other_tenants_untouched {world : World} (consistent : Consistent world)
    {config : Config World Memory Connection Statement Answer Env Error Request Outcome}
    (reached : Reachable (system sha256 validateKennzeichen) .unrestricted ⟨world, [], []⟩ config)
    {done : Done} (member : done ∈ config.ended) {tenant other : Uuid}
    (pinned : done.request.tenant = some tenant) (foreign : other ≠ tenant) :
    ((system sha256 validateKennzeichen).leave done).db.of other = done.world.db.of other := by
  have sound := Sound.reachable (system_laws sha256 validateKennzeichen)
    (lockoutDiscipline sha256 validateKennzeichen .unrestricted) (.quiet consistent) reached
  obtain ⟨_, _, start, _, _, chain, ends, _⟩ := sound.1.concluded done member
  unfold Library.Engine.leave
  split
  · rename_i result isOk
    have ended := ends _ isOk
    change postgres.Ends (transaction (done.request.body sha256 validateKennzeichen))
      (Session.opened done.request.tenant start.clock) (.ok result) done.transaction at ended
    rw [pinned] at ended
    have confined := request_confined pinned ended
    have follows : Follows done.transaction.trace done.world.db := by
      intro entry sent
      obtain ⟨_, _, _, _, upTo⟩ := chain.seen entry sent
      exact upTo.persists
    exact confined.writes.elsewhere follows chain.ready foreign
  · rfl

/-- A FAILED check beside a company with a driver of its own. -/
theorem other_tenants_untouched_failed :
    ∃ config, (system id some).schedule ⟨sharedWorld, [], []⟩
        (.start (fleetCheck "FAILED".toList) :: fleetRun 0 1 46 ++ [.finish 0]) = some config ∧
      ∃ done ∈ config.ended, Done.isCommitted done = true ∧
        ((system id some).leave done).db.of (fleetId 200) = done.world.db.of (fleetId 200) ∧
        ∃ driver ∈ (done.world.db.of (fleetId 200)).drivers, driver.lastName = "Fremd".toList := by
  have found : (((system id some).schedule ⟨sharedWorld, [], []⟩
      (.start (fleetCheck "FAILED".toList) :: fleetRun 0 1 46 ++ [.finish 0])).any
        fun config => config.ended.any fun done =>
          decide (done.request.tenant = some (fleetId 100) ∧ Done.isCommitted done = true) &&
          (done.world.db.of (fleetId 200)).drivers.rows.any fun driver =>
            driver.lastName = "Fremd".toList) = true := by decide +kernel
  obtain ⟨config, ran, ended⟩ := (Option.any_eq_true _ _).mp found
  obtain ⟨done, member, stands⟩ := List.any_eq_true.mp ended
  obtain ⟨own, foreign⟩ := (Bool.and_eq_true _ _).mp stands
  obtain ⟨pinned, committed⟩ := of_decide_eq_true own
  obtain ⟨driver, driverIn, isForeign⟩ := List.any_eq_true.mp foreign
  exact ⟨config, ran, done, member, committed, other_tenants_untouched sharedWorld_consistent
    (Reachable.of_schedule ran) member pinned (by decide), driver, driverIn,
    of_decide_eq_true isForeign⟩

/-- A tenant's transaction goes as it would go among the rows of its company. -/
theorem runs_alone {world : World} (consistent : Consistent world)
    {config : Config World Memory Connection Statement Answer Env Error Request Outcome}
    (reached : Reachable (system sha256 validateKennzeichen) .unrestricted ⟨world, [], []⟩ config)
    {done : Done} (member : done ∈ config.ended) {tenant : Uuid}
    (pinned : done.request.tenant = some tenant) (uncontested : Done.Uncontested done tenant)
    {outcome : Except Error Outcome} (concluded : done.outcome = some outcome) :
    ∃ start, postgres.Ends (transaction (done.request.body sha256 validateKennzeichen))
      (Session.opened (some tenant) start) outcome
      ((tenantView tenant).transaction done.transaction) := by
  have laws := system_laws sha256 validateKennzeichen
  have ready := reached.ready laws (lockoutDiscipline sha256 validateKennzeichen .unrestricted)
    (.quiet consistent)
  have sound := Sound.reachable laws
    (lockoutDiscipline sha256 validateKennzeichen (Policy.unrestricted.ready readCommitted))
    (.quiet consistent) ready
  obtain ⟨_, _, start, _, _, chain, ends, _⟩ := sound.1.concluded done member
  have ended := ends _ concluded
  change postgres.Ends (transaction (done.request.body sha256 validateKennzeichen))
    (Session.opened done.request.tenant start.clock) outcome done.transaction at ended
  rw [pinned] at ended
  have confined := request_confined pinned ended
  refine ⟨start.clock, (tenantView tenant).ends ended fun entry sent => ?_⟩
  obtain ⟨past, rest, whole⟩ := List.append_of_mem sent
  obtain ⟨inv, possible, ⟨_, isReady⟩, _⟩ := chain.seen entry sent
  -- everything before the statement has led to the world it sees
  have follows : Follows past entry.world.db := by
    intro earlier before
    have ordered := chain.ordered
    rw [whole] at ordered
    have evolves := (List.pairwise_append.mp ordered).2.2 earlier before entry List.mem_cons_self
    exact evolves.persists
  exact (confined.sent past entry rest whole).answers follows isReady inv.owned
    (uncontested entry sent) possible

/-- **Tenants do not interfere.** Two runs of a tenant's request, whatever the other tenants
do and have: if the statements of the one and the first statements of the other meet the same
rows of the tenant, and the same instants and choices, they end in the same way and write the
same. -/
theorem tenants_do_not_interfere {world world' : World} (consistent : Consistent world)
    (consistent' : Consistent world')
    {config config' : Config World Memory Connection Statement Answer Env Error Request Outcome}
    (reached : Reachable (system sha256 validateKennzeichen) .unrestricted ⟨world, [], []⟩ config)
    (reached' : Reachable (system sha256 validateKennzeichen) .unrestricted ⟨world', [], []⟩
      config')
    {done done' : Done} (member : done ∈ config.ended) (member' : done' ∈ config'.ended)
    {tenant : Uuid} (pinned : done.request.tenant = some tenant)
    (sameRequest : done'.request = done.request)
    (uncontested : Done.Uncontested done tenant) (uncontested' : Done.Uncontested done' tenant)
    {outcome outcome' : Except Error Outcome} (concluded : done.outcome = some outcome)
    (concluded' : done'.outcome = some outcome')
    (opened : ∀ entry ∈ done.transaction.trace.head?, ∀ entry' ∈ done'.transaction.trace.head?,
      entry.connection.startedAt = entry'.connection.startedAt)
    (met : (done.transaction.trace.map fun entry => (entry.world.of tenant, entry.env)) <+:
      done'.transaction.trace.map fun entry => (entry.world.of tenant, entry.env)) :
    outcome = outcome' ∧ done.transaction.connection.journal.writes =
      done'.transaction.connection.journal.writes := by
  obtain ⟨start, alone⟩ := runs_alone consistent reached member pinned uncontested concluded
  obtain ⟨start', alone'⟩ := runs_alone consistent' reached' member' (sameRequest ▸ pinned)
    uncontested' concluded'
  rw [sameRequest] at alone'
  have metAlike : ((tenantView tenant).transaction done.transaction).trace.map Entry.met <+:
      ((tenantView tenant).transaction done'.transaction).trace.map Entry.met := by
    rw [Projection.met, Projection.met]
    have lifted := met.map fun met : World × Env => (met.1, ([] : List Connection), met.2)
    rwa [List.map_map, List.map_map] at lifted
  -- they have been opened at the same instant, or send nothing
  have clock : ((tenantView tenant).transaction done.transaction).trace ≠ [] → start = start' := by
    intro sends
    obtain ⟨entry, rest, whole⟩ := List.exists_cons_of_ne_nil
      (fun nothing => sends (by rw [Projection.transaction, nothing]; rfl) :
        done.transaction.trace ≠ [])
    obtain ⟨entry', rest', whole'⟩ := List.exists_cons_of_ne_nil
      (fun nothing => by simp [whole, nothing] at met : done'.transaction.trace ≠ [])
    have sameClock := opened entry (by simp [whole]) entry' (by simp [whole'])
    have first := Server.ends_first alone (by rw [Projection.transaction, whole]; rfl)
    have first' := Server.ends_first alone' (by rw [Projection.transaction, whole']; rfl)
    calc
      start = entry.connection.startedAt := (congrArg Connection.startedAt first).symm
      _ = entry'.connection.startedAt := sameClock
      _ = start' := congrArg Connection.startedAt first'
  obtain ⟨sameOutcome, alike⟩ := Server.ends_alike alone alone' metAlike fun sends => by
    rw [clock sends]
  refine ⟨sameOutcome, ?_⟩
  have view : ∀ transaction : Session, transaction.connection.journal.writes =
      ((tenantView tenant).transaction transaction).connection.journal.writes :=
    fun transaction => Connection.of_writes.symm
  rw [view, view done'.transaction]
  rcases alike with same | ⟨nothing, nothing'⟩
  · rw [same]
  · rw [nothing, nothing']

def fleetNewcomer : Request :=
  .createDriver fleetOwner
    [("first_name".toList, "Anna".toList), ("last_name".toList, "Neu".toList)]

def fleetHired (world : World) : Option Done :=
  ((system id some).schedule ⟨world, [], []⟩
    (.start fleetNewcomer :: fleetRun 0 1 11 ++ [.finish 0])).bind fun config =>
      config.ended.head?

theorem fleetHired_member {world : World} {done : Done} (hired : fleetHired world = some done) :
    ∃ config, Reachable (system id some) .unrestricted ⟨world, [], []⟩ config ∧
      done ∈ config.ended := by
  obtain ⟨config, ran, head⟩ := Option.bind_eq_some_iff.mp hired
  exact ⟨config, Reachable.of_schedule ran, List.mem_of_head? head⟩

theorem fleetHired_uncontested {world : World} {done : Done}
    (hired : fleetHired world = some done)
    (checked : (fleetHired world).all (fun done =>
      done.transaction.trace.all (Sent.uncontested (fleetId 100))) = true) :
    Done.Uncontested done (fleetId 100) := by
  intro entry sent write isWrite
  rw [hired, Option.all_some] at checked
  have free := List.all_eq_true.mp checked entry sent
  rw [Sent.uncontested, isWrite] at free
  exact of_decide_eq_true free

/-- A driver is hired with and without another company around. -/
theorem tenants_do_not_interfere_hired :
    ∃ done done', fleetHired fleetWorld = some done ∧ fleetHired sharedWorld = some done' ∧
      done.transaction.connection.journal.writes = done'.transaction.connection.journal.writes := by
  obtain ⟨done, hired⟩ := Option.isSome_iff_exists.mp
    (by decide +kernel : (fleetHired fleetWorld).isSome = true)
  obtain ⟨done', hired'⟩ := Option.isSome_iff_exists.mp
    (by decide +kernel : (fleetHired sharedWorld).isSome = true)
  obtain ⟨config, reached, member⟩ := fleetHired_member hired
  obtain ⟨config', reached', member'⟩ := fleetHired_member hired'
  -- what the two transactions are, by running them
  have same : ∀ {Value : Type} (value : Done → Value), (fleetHired fleetWorld).map value =
      (fleetHired sharedWorld).map value → value done = value done' := by
    intro Value value alike
    rw [hired, hired'] at alike
    exact Option.some.inj alike
  have given : ∀ {Value : Type} (value : Done → Value) (result : Value),
      (fleetHired fleetWorld).map value = some result → value done = result := by
    intro Value value result is
    rw [hired] at is
    exact Option.some.inj is
  have requested := given (·.request) fleetNewcomer rfl
  have pinned : done.request.tenant = some (fleetId 100) := by
    rw [requested]
    rfl
  have concluded := given (·.outcome) (some (.ok (.response (.page 200)))) rfl
  have opened := same (fun done => done.transaction.trace.head?.map (·.connection.startedAt)) rfl
  have met := same (fun done => done.transaction.trace.map fun entry =>
    (entry.world.of (fleetId 100), entry.env)) rfl
  refine ⟨done, done', hired, hired', (tenants_do_not_interfere fleetWorld_consistent
    sharedWorld_consistent reached reached' member member' pinned
    (same (·.request) rfl).symm (fleetHired_uncontested hired (by decide +kernel))
    (fleetHired_uncontested hired' (by decide +kernel)) concluded
    ((same (·.outcome) rfl).symm.trans concluded) (fun entry first entry' first' => ?_)
    (met ▸ List.prefix_rfl)).2⟩
  rw [Option.mem_def.mp first, Option.mem_def.mp first'] at opened
  exact Option.some.inj opened

end Runs

end Fristenwaechter
