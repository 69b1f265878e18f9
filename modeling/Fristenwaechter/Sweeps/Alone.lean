import Fristenwaechter.Lockout.Broadcast
import Fristenwaechter.Sweeps.Reminders

/-!
Owns a sweep that nobody disturbs: what its statements see, what its look-ups return, and
that nothing stops it but a message whose key is too long for its column.
-/

namespace Fristenwaechter

open Library (Journal Table)
open Library.Program (forEach)

variable {session after : Session} {db : Db}

/-! ### A session alone -/

/-- The key of a message fits its column. -/
def Write.KeyFits : Write → Prop
  | .insertOutbox row => fits 120 row.dedupKey = true
  | _ => True

/-- What a sweep writes. -/
def Write.Sweeps : Write → Prop
  | .insertOutbox _ => True
  | .updateCase _ => True
  | _ => False

/-- Statements that all see one database and draw new ids. -/
structure Quiet (db : Db) (statements : List Sent) : Prop where
  sees : ∀ entry ∈ statements, entry.world.db = db
  distinct : (statements.map fun entry => entry.env.fresh).Nodup
  unused : ∀ entry ∈ statements, db.outbox.find entry.env.fresh = none

theorem Quiet.earlier {earlier statements : List Sent} (quiet : Quiet db statements)
    (order : earlier <+: statements) : Quiet db earlier where
  sees entry member := quiet.sees entry (order.subset member)
  distinct := quiet.distinct.sublist (order.sublist.map _)
  unused entry member := quiet.unused entry (order.subset member)

/-- A session of a sweep: it writes cases and messages only, its copies are the stored
rows, and its one pending write is valid if it fits. -/
structure Session.Solo (session : Session) (db : Db) : Prop where
  tenant : session.connection.tenant = none
  sweeps : ∀ write ∈ session.made, write.Sweeps
  drawn : ∀ row, .insertOutbox row ∈ session.made →
    ∃ entry ∈ session.trace, entry.env.fresh = row.id
  drivers : ∀ copy ∈ session.memory.drivers, db.drivers.find copy.id = some copy
  vehicles : ∀ copy ∈ session.memory.vehicles, db.vehicles.find copy.id = some copy
  replays : Journal.Replays session.writes db
  pending : session.memory.pending = [] ∨ ∃ write, session.memory.pending = [write] ∧
    (write.KeyFits → write.check (db.after session.writes) = .ok ())

/-- A write that the session has made does not fit. -/
def Session.Jams (session : Session) : Prop :=
  ∃ write ∈ session.made, ¬ write.KeyFits

/-- The session has only seen something since. -/
structure Session.Rests (session after : Session) : Prop where
  trace : session.trace <+: after.trace
  made : after.made = session.made
  startedAt : after.connection.startedAt = session.connection.startedAt

theorem Session.Rests.trans {first second third : Session} (one : first.Rests second)
    (two : second.Rests third) : first.Rests third :=
  ⟨one.trace.trans two.trace, two.made.trans one.made, two.startedAt.trans one.startedAt⟩

theorem Session.Rests.jams (rests : session.Rests after) (jams : after.Jams) : session.Jams := by
  obtain ⟨write, member, long⟩ := jams
  exact ⟨write, rests.made ▸ member, long⟩

theorem Session.made_clean (clean : session.memory.pending = []) :
    session.made = session.writes := by
  rw [Session.made, clean, List.append_nil]

namespace Session.Solo

/-- A session that has done nothing is alone. -/
theorem fresh (tenant : session.connection.tenant = none) (empty : session.memory = .empty)
    (unwritten : session.writes = []) : session.Solo db where
  tenant := tenant
  sweeps := by simp [Session.made, unwritten, empty, Memory.empty]
  drawn := by simp [Session.made, unwritten, empty, Memory.empty]
  drivers := by simp [empty, Memory.empty]
  vehicles := by simp [empty, Memory.empty]
  replays := by
    rw [unwritten]
    trivial
  pending := .inl (by simp [empty, Memory.empty])

theorem saw (solo : session.Solo db) (entry : Sent) : (session.saw entry).Solo db := by
  refine { solo with drawn := fun row member => ?_ }
  obtain ⟨earlier, inTrace, own⟩ := solo.drawn row member
  exact ⟨earlier, List.mem_append_left _ inTrace, own⟩

theorem sees (solo : session.Solo db) (companyId : Uuid) :
    session.connection.sees companyId = true := by
  unfold Connection.sees
  rw [solo.tenant]

/-- The pending write is executed, or it is a message that does not fit. -/
theorem flush (solo : session.Solo db) {outcome : Except Error Unit}
    (ended : postgres.Ends Fristenwaechter.flush session outcome after)
    (sees : ∀ entry ∈ after.trace, entry.world.db = db) :
    (outcome = .ok () ∧ after.Solo db ∧ after.memory.pending = [] ∧ session.Rests after) ∨
      (∃ error, outcome = .error error) ∧ session.Jams := by
  rcases solo.pending with clean | ⟨write, isPending, valid⟩
  · obtain ⟨rfl, rfl⟩ := (flush_ends_clean clean).mp ended
    exact .inl ⟨rfl, solo, clean, List.prefix_rfl, rfl, rfl⟩
  · have isMade : write ∈ session.made := by
      rw [Session.made, isPending]
      simp
    rcases flush_ends ended with ⟨rfl, executed⟩ | ⟨error, rfl, refused⟩
    · rw [isPending, unitOfWork_singleton] at executed
      have replays := executed.replays sees
      obtain ⟨entry, asked, _, rfl⟩ := executed
      have sameMade : ((session.withPending []).wrote entry write).made = session.made := by
        simp [Session.made, isPending]
      have unloaded : (session.withPending []).memory.flushed write =
          (session.withPending []).memory := by
        have sweeps := solo.sweeps write isMade
        cases write <;> first | rfl | exact sweeps.elim
      refine .inl ⟨rfl, ⟨solo.tenant, ?_, ?_, ?_, ?_, ?_, .inl ?_⟩, ?_, ?_, sameMade, rfl⟩
      · rw [sameMade]
        exact solo.sweeps
      · rw [sameMade]
        intro row member
        obtain ⟨earlier, inTrace, own⟩ := solo.drawn row member
        exact ⟨earlier, List.mem_append_left _ inTrace, own⟩
      · rw [Session.wrote_memory, unloaded]
        exact solo.drivers
      · rw [Session.wrote_memory, unloaded]
        exact solo.vehicles
      · rw [Session.wrote_writes]
        exact Journal.replays_append.mpr ⟨solo.replays, replays⟩
      · simp
      · simp
      · exact List.prefix_append _ _
    · refine .inr ⟨⟨error, rfl⟩, write, isMade, fun fit => ?_⟩
      rw [isPending, unitOfWork_singleton] at refused
      exact refused.not_replays sees ⟨valid fit, trivial⟩

/-- A SELECT is sent by a session with nothing pending. -/
theorem select (solo : session.Solo db) {statement : Statement}
    {outcome : Except Error (Answer statement)}
    (ended : postgres.Ends (Fristenwaechter.select statement) session outcome after)
    (sees : ∀ entry ∈ after.trace, entry.world.db = db) :
    (∃ middle, middle.Solo db ∧ middle.memory.pending = [] ∧ session.Rests middle ∧
        postgres.Sends statement middle outcome after) ∨
      (∃ error, outcome = .error error) ∧ session.Jams := by
  rcases ends_then.mp ended with ⟨⟨⟩, middle, first, second⟩ | ⟨error, rfl, first⟩
  · have sent := ends_emit.mp second
    have upTo : middle.trace <+: after.trace := Library.Server.ends_trace second
    rcases solo.flush first fun entry member => sees entry (upTo.subset member) with
      ⟨_, still, clean, rests⟩ | ⟨⟨_, same⟩, _⟩
    · exact .inl ⟨middle, still, clean, rests, sent⟩
    · cases same
  · rcases solo.flush first sees with ⟨same, _⟩ | ⟨_, jams⟩
    · cases same
    · exact .inr ⟨⟨error, rfl⟩, jams⟩

theorem view (solo : session.Solo db) (clean : session.memory.pending = []) {statement : Statement}
    {entry : Sent} (asked : session.Asked statement entry) (sees : entry.world.db = db) :
    entry.db.drivers = db.drivers ∧ entry.db.vehicles = db.vehicles ∧
      entry.db.accountUsers = db.accountUsers := by
  have sweeps : ∀ write ∈ session.writes, write.Sweeps := by
    rw [← Session.made_clean clean]
    exact solo.sweeps
  have unwritten : ∀ {Value : Type} (project : Db → Value),
      (∀ write : Write, write.Sweeps → ∀ current, project (write.apply current) = project current) →
        project (db.after session.writes) = project db :=
    fun project keeps =>
      Db.after_unwritten project (fun write member => keeps write (sweeps write member)) db
  rw [asked.db, sees]
  refine ⟨unwritten Db.drivers ?_, unwritten Db.vehicles ?_, unwritten Db.accountUsers ?_⟩ <;>
    intro write isSweep current <;> cases write <;> first | rfl | exact isSweep.elim

end Session.Solo

/-! ### Look-ups -/

section LookUps

variable {Row : Type} [Library.Keyed Row Uuid] {table : Table Row} {copies : List Row} {row : Row}

theorem instanceOf_stored
    (stored : ∀ copy ∈ copies, table.find (Library.Keyed.key copy) = some copy)
    (found : table.find (Library.Keyed.key row) = some row) :
    Memory.instanceOf copies row = row := by
  unfold Memory.instanceOf
  cases looked : copies.find? fun copy => Library.Keyed.key copy = Library.Keyed.key row with
  | none => rfl
  | some copy =>
      have same : Library.Keyed.key copy = Library.Keyed.key row := by
        simpa using List.find?_some looked
      have isRow := stored copy (List.mem_of_find?_eq_some looked)
      rw [same, found] at isRow
      exact (Option.some.inj isRow).symm

theorem loaded_stored
    (stored : ∀ copy ∈ copies, table.find (Library.Keyed.key copy) = some copy)
    (found : table.find (Library.Keyed.key row) = some row) :
    ∀ copy ∈ Memory.loaded copies row, table.find (Library.Keyed.key copy) = some copy := by
  intro copy member
  unfold Memory.loaded at member
  split at member
  · exact stored copy member
  · rcases List.mem_cons.mp member with rfl | old
    · exact found
    · exact stored copy old

theorem held_stored {id : Uuid}
    (stored : ∀ copy ∈ copies, table.find (Library.Keyed.key copy) = some copy)
    (held : copies.find? (fun copy => Library.Keyed.key copy = id) = some row) :
    table.find id = some row := by
  have own : Library.Keyed.key row = id := by simpa using List.find?_some held
  rw [← own]
  exact stored row (List.mem_of_find?_eq_some held)

/-- A SELECT by key, of whichever table, answers with the stored row. -/
theorem Session.Solo.lookedUp {id : Uuid} {entry : Sent} {seen : Option Row}
    {outcome : Except Error (Option Row)} {load : Row → Memory} (solo : session.Solo db)
    (stored : ∀ copy ∈ copies, table.find (Library.Keyed.key copy) = some copy)
    (seenIs : seen = table.find id)
    (loads : ∀ row, table.find (Library.Keyed.key row) = some row →
      ((session.saw entry).withMemory (load row)).Solo db)
    (pending : ∀ row, (load row).pending = session.memory.pending)
    (looked : (seen = none ∧ outcome = .ok none ∧ after = session.saw entry) ∨
      ∃ row, seen = some row ∧ outcome = .ok (some (Memory.instanceOf copies row)) ∧
        after = (session.saw entry).withMemory (load row)) :
    outcome = .ok (table.find id) ∧ after.Solo db ∧ session.Rests after := by
  subst seenIs
  rcases looked with ⟨missing, rfl, rfl⟩ | ⟨row, found, rfl, rfl⟩
  · exact ⟨by rw [missing], solo.saw entry, List.prefix_append _ _, rfl, rfl⟩
  · have own : Library.Keyed.key row = id := Table.key_of_find found
    rw [← own] at found
    refine ⟨?_, loads row found, List.prefix_append _ _, ?_, rfl⟩
    · rw [← own, found, instanceOf_stored stored found]
    · exact congrArg (session.writes ++ ·) (pending row)

end LookUps

namespace Session.Solo

theorem loadDriver (solo : session.Solo db) {row : Driver}
    (found : db.drivers.find row.id = some row) :
    (session.withMemory (session.memory.loadDriver row)).Solo db :=
  { solo with drivers := loaded_stored solo.drivers found }

theorem loadVehicle (solo : session.Solo db) {row : Vehicle}
    (found : db.vehicles.find row.id = some row) :
    (session.withMemory (session.memory.loadVehicle row)).Solo db :=
  { solo with vehicles := loaded_stored solo.vehicles found }

theorem getDriver (solo : session.Solo db) {id : Uuid} {outcome : Except Error (Option Driver)}
    (ended : postgres.Ends (Fristenwaechter.getDriver id) session outcome after)
    (sees : ∀ entry ∈ after.trace, entry.world.db = db) :
    (outcome = .ok (db.drivers.find id) ∧ after.Solo db ∧ session.Rests after) ∨
      (∃ error, outcome = .error error) ∧ session.Jams := by
  rcases ends_then.mp ended with ⟨memory, _, ⟨isMemory, rfl⟩, ended⟩ | ⟨_, _, same, _⟩
  swap
  · cases same
  cases isMemory
  split at ended
  · rename_i copy held
    obtain ⟨rfl, rfl⟩ := ended
    exact .inl ⟨by rw [held_stored solo.drivers held], solo, List.prefix_rfl, rfl, rfl⟩
  · rcases solo.select ended sees with ⟨middle, still, clean, rests, sent⟩ | jams
    swap
    · exact .inr jams
    obtain ⟨entry, asked, looked⟩ := sends_getDriver sent
    have inTrace : entry ∈ after.trace := by
      rcases looked with ⟨_, _, rfl⟩ | ⟨_, _, _, rfl⟩ <;> simp
    have isDriver : entry.driver id none = db.drivers.find id := by
      rw [Sent.driver, (still.view clean asked (sees entry inTrace)).1, asked.connection]
      cases db.drivers.find id <;> simp [Option.filter, still.sees]
    obtain ⟨isOutcome, alone, seen⟩ := still.lookedUp still.drivers isDriver
      (fun _ found => (still.saw entry).loadDriver found) (fun _ => rfl) looked
    exact .inl ⟨isOutcome, alone, rests.trans seen⟩

theorem getVehicle (solo : session.Solo db) {id : Uuid} {outcome : Except Error (Option Vehicle)}
    (ended : postgres.Ends (Fristenwaechter.getVehicle id) session outcome after)
    (sees : ∀ entry ∈ after.trace, entry.world.db = db) :
    (outcome = .ok (db.vehicles.find id) ∧ after.Solo db ∧ session.Rests after) ∨
      (∃ error, outcome = .error error) ∧ session.Jams := by
  rcases ends_then.mp ended with ⟨memory, _, ⟨isMemory, rfl⟩, ended⟩ | ⟨_, _, same, _⟩
  swap
  · cases same
  cases isMemory
  split at ended
  · rename_i copy held
    obtain ⟨rfl, rfl⟩ := ended
    exact .inl ⟨by rw [held_stored solo.vehicles held], solo, List.prefix_rfl, rfl, rfl⟩
  · rcases solo.select ended sees with ⟨middle, still, clean, rests, sent⟩ | jams
    swap
    · exact .inr jams
    obtain ⟨entry, asked, looked⟩ := sends_getVehicle sent
    have inTrace : entry ∈ after.trace := by
      rcases looked with ⟨_, _, rfl⟩ | ⟨_, _, _, rfl⟩ <;> simp
    have isVehicle : entry.vehicle id = db.vehicles.find id := by
      rw [Sent.vehicle, (still.view clean asked (sees entry inTrace)).2.1, asked.connection]
      cases db.vehicles.find id <;> simp [Option.filter, still.sees]
    obtain ⟨isOutcome, alone, seen⟩ := still.lookedUp still.vehicles isVehicle
      (fun _ found => (still.saw entry).loadVehicle found) (fun _ => rfl) looked
    exact .inl ⟨isOutcome, alone, rests.trans seen⟩

end Session.Solo

/-- Who is notified for a company. -/
def Db.recipients (db : Db) (companyId : Uuid) : List Recipient :=
  (db.accountUsers.rows.filter fun user => user.isNotified companyId).map AccountUser.recipient

/-- The addresses at which a company is notified. -/
def Db.contacts (db : Db) (companyId : Uuid) : List (OutboxChannel × Str) :=
  (db.recipients companyId).flatMap channels

theorem Session.Solo.resolveRecipients (solo : session.Solo db) {companyId : Uuid}
    {outcome : Except Error (List Recipient)}
    (ended : postgres.Ends (Fristenwaechter.resolveRecipients companyId) session outcome after)
    (sees : ∀ entry ∈ after.trace, entry.world.db = db) :
    (outcome = .ok (db.recipients companyId) ∧ after.Solo db ∧ after.memory.pending = [] ∧
        session.Rests after) ∨
      (∃ error, outcome = .error error) ∧ session.Jams := by
  rcases ends_then.mp ended with ⟨users, last, first, rfl, rfl⟩ | ⟨error, rfl, first⟩
  · rcases solo.select first sees with ⟨middle, still, clean, rests, sent⟩ | ⟨⟨_, same⟩, _⟩
    swap
    · cases same
    obtain ⟨entry, asked, isUsers, rfl⟩ := sends_notifiedUsers sent
    refine .inl ⟨?_, still.saw entry, clean, rests.trans ⟨List.prefix_append _ _, rfl, rfl⟩⟩
    have visible := still.sees
    rw [← asked.connection] at visible
    rw [Except.ok.inj isUsers, Sent.notifiedUsers,
      (still.view clean asked (sees entry (by simp))).2.2]
    simp only [visible, Bool.true_and]
    rfl
  · rcases solo.select first sees with ⟨middle, still, clean, rests, sent⟩ | jams
    · obtain ⟨_, _, same, _⟩ := sends_notifiedUsers sent
      cases same
    · exact .inr ⟨⟨error, rfl⟩, jams.2⟩

/-! ### Enqueueing -/

theorem outbox_origin {writes : List Write} (all : ∀ write ∈ writes, write.Sweeps)
    {row : OutboxMessage} (member : row ∈ (db.after writes).outbox) :
    row ∈ db.outbox ∨ .insertOutbox row ∈ writes := by
  induction writes generalizing db with
  | nil => exact .inl member
  | cons write rest inductionHypothesis =>
      rw [Db.after_cons] at member
      rcases inductionHypothesis (fun other inside => all other (List.mem_cons_of_mem _ inside))
        member with old | inserted
      swap
      · exact .inr (List.mem_cons_of_mem _ inserted)
      have isSweep := all write List.mem_cons_self
      cases write with
      | insertOutbox new =>
          rcases Table.mem_insert.mp old with before | ⟨rfl, _⟩
          · exact .inl before
          · exact .inr List.mem_cons_self
      | updateCase change => exact .inl old
      | _ => exact isSweep.elim

namespace Session.Solo

theorem added (solo : session.Solo db) (clean : session.memory.pending = []) {write : Write}
    (sweeps : write.Sweeps)
    (drawn : ∀ row, write = .insertOutbox row → ∃ entry ∈ session.trace, entry.env.fresh = row.id)
    (valid : write.KeyFits → write.check (db.after session.writes) = .ok ()) :
    (session.withPending (session.memory.pending ++ [write])).Solo db := by
  refine { solo with sweeps := ?_, drawn := ?_, pending := .inr ⟨write, ?_, valid⟩ }
  · intro other member
    simp only [Session.made, Session.withPending_writes, Session.withPending_pending, clean,
      List.nil_append, List.mem_append, List.mem_singleton] at member
    rcases member with old | rfl
    · exact solo.sweeps other (List.mem_append_left _ old)
    · exact sweeps
  · intro row member
    simp only [Session.made, Session.withPending_writes, Session.withPending_pending, clean,
      List.nil_append, List.mem_append, List.mem_singleton] at member
    rcases member with old | same
    · exact solo.drawn row (List.mem_append_left _ old)
    · exact drawn row same.symm
  · rw [clean]
    rfl

/-- A new id is not the id of a message. -/
theorem unused (solo : session.Solo db) {entry : Sent}
    (quiet : Quiet db (session.trace ++ [entry])) :
    (db.after session.writes).outbox.find entry.env.fresh = none := by
  refine Table.find_eq_none.mpr fun row member same => ?_
  rcases outbox_origin (fun write inside => solo.sweeps write (List.mem_append_left _ inside))
    member with old | inserted
  · exact Table.find_eq_none.mp (quiet.unused entry (by simp)) row old same
  · obtain ⟨earlier, inTrace, own⟩ := solo.drawn row (List.mem_append_left _ inserted)
    have distinct := quiet.distinct
    rw [List.map_append, List.nodup_append] at distinct
    exact distinct.2.2 _ (List.mem_map.mpr ⟨earlier, inTrace, rfl⟩) _ (List.mem_singleton_self _)
      (own.trans same)

/-- `_enqueue_unique` goes through unless an earlier message does not fit. -/
theorem enqueueUnique (solo : session.Solo db) {companyId : Uuid} {channel : OutboxChannel}
    {recipient template dedupKey : Str} {payload : List (Str × Json)} {priority : Nat}
    (short : fits 254 recipient = true) (named : fits 40 template = true)
    {outcome : Except Error Bool}
    (ended : postgres.Ends
      (Fristenwaechter.enqueueUnique companyId channel recipient template payload priority dedupKey)
      session outcome after)
    (quiet : Quiet db after.trace) :
    (∃ added, outcome = .ok added ∧ after.Solo db) ∨
      (∃ error, outcome = .error error) ∧ session.Jams := by
  rcases ends_then.mp ended with ⟨taken, read, first, second⟩ | ⟨error, rfl, first⟩
  swap
  · rcases solo.select first quiet.sees with ⟨middle, _, _, _, sent⟩ | ⟨_, jams⟩
    · obtain ⟨_, _, _, same⟩ := sends_outboxKey sent
      cases same
    · exact .inr ⟨⟨error, rfl⟩, jams⟩
  have upTo : read.trace <+: after.trace := Library.Server.ends_trace second
  rcases solo.select first (quiet.earlier upTo).sees with ⟨middle, still, clean, rests, sent⟩ |
    ⟨⟨_, same⟩, _⟩
  swap
  · cases same
  obtain ⟨entry, asked, rfl, isTaken⟩ := sends_outboxKey sent
  cases taken with
  | true =>
      obtain ⟨rfl, rfl⟩ := second
      exact .inl ⟨false, rfl, still.saw entry⟩
  | false =>
      obtain ⟨drawn, defaults, second⟩ := step_serverDefaults second
      obtain ⟨rfl, rfl⟩ := second
      have drawing := (still.saw entry).saw drawn
      refine .inl ⟨true, rfl, drawing.added clean trivial (fun row same => ?_) fun keyFits => ?_⟩
      · cases same
        exact ⟨drawn, by simp, rfl⟩
      · have free : ∀ row ∈ (db.after middle.writes).outbox.rows, row.dedupKey ≠ dedupKey := by
          have view : entry.db = db.after middle.writes := by
            rw [asked.db, quiet.sees entry (by simp)]
          have none := (Except.ok.inj isTaken).symm
          rw [view, List.any_eq_false] at none
          intro row member same
          refine none row member ?_
          rw [asked.connection, still.sees, same]
          simp
        have isNew := (still.saw entry).unused quiet
        simp only [Write.check, requireNew, require_then_eq_ok, require_eq_ok, Bool.and_eq_true,
          Option.isNone_iff_eq_none, List.all_eq_true, decide_eq_true_eq]
        exact ⟨⟨⟨short, named⟩, keyFits⟩, isNew, fun row member same => free row member same⟩

end Session.Solo

/-! ### Programs that go through -/

/-- Alone, the program succeeds: it adds nothing but allowed writes and leaves its work done;
or a message that was made before or is allowed now does not fit. -/
def Through (db : Db) (startedAt : Instant) (allowed : Write → Prop) (done : Session → Prop)
    (program : Work Unit) : Prop :=
  ∀ ⦃session : Session⦄ ⦃outcome : Except Error Unit⦄ ⦃after : Session⦄, session.Solo db →
    session.connection.startedAt = startedAt → postgres.Ends program session outcome after →
      Quiet db after.trace →
        (outcome = .ok () ∧ after.Solo db ∧ session.Adds allowed after ∧ done after) ∨
          (∃ error, outcome = .error error) ∧
            (session.Jams ∨ ∃ write, allowed write ∧ ¬ write.KeyFits)

theorem Session.Adds.jams {allowed : Write → Prop} (adds : session.Adds allowed after)
    (jams : after.Jams) : session.Jams ∨ ∃ write, allowed write ∧ ¬ write.KeyFits := by
  obtain ⟨write, isMade, long⟩ := jams
  rcases adds.added write isMade with old | may
  · exact .inl ⟨write, old, long⟩
  · exact .inr ⟨write, may, long⟩

section Rules

variable {startedAt : Instant}

theorem through_pure {allowed : Write → Prop} {done : Session → Prop}
    (already : ∀ session, done session) : Through db startedAt allowed done (pure ()) := by
  rintro session _ _ solo _ ⟨rfl, rfl⟩ _
  exact .inl ⟨rfl, solo, .refl _, already _⟩

theorem through_forEach {Item : Type} {items : List Item} {body : Item → Work Unit}
    {allowed : Item → Write → Prop} {done : Item → Session → Prop}
    (each : ∀ item ∈ items, Through db startedAt (allowed item) (done item) (body item))
    (later : ∀ item (allowed : Write → Prop) {session after : Session}, session.Adds allowed after →
      done item session → done item after) :
    Through db startedAt (fun write => ∃ item ∈ items, allowed item write)
      (fun session => ∀ item ∈ items, done item session) (forEach items body) := by
  induction items with
  | nil =>
      rintro session _ _ solo _ ⟨rfl, rfl⟩ _
      exact .inl ⟨rfl, solo, .refl _, by simp⟩
  | cons item rest inductionHypothesis =>
      intro session outcome after solo began ended quiet
      have restThrough := inductionHypothesis fun other member =>
        each other (List.mem_cons_of_mem _ member)
      rcases ends_then.mp ended with ⟨⟨⟩, middle, first, second⟩ | ⟨error, rfl, first⟩
      · have upTo : middle.trace <+: after.trace := Library.Server.ends_trace second
        rcases each item List.mem_cons_self solo began first (quiet.earlier upTo) with
          ⟨_, still, adds, isDone⟩ | ⟨⟨_, same⟩, _⟩
        swap
        · cases same
        have ownAdds : session.Adds (fun write => ∃ item' ∈ item :: rest, allowed item' write)
            middle := adds.mono fun write may => ⟨item, List.mem_cons_self, may⟩
        rcases restThrough still (adds.startedAt.trans began) second quiet with
          ⟨rfl, last, restAdds, restDone⟩ | ⟨failed, jams | ⟨write, ⟨other, member, may⟩, long⟩⟩
        · refine .inl ⟨rfl, last, ownAdds.trans (restAdds.mono ?_), ?_⟩
          · rintro write ⟨other, member, may⟩
            exact ⟨other, List.mem_cons_of_mem _ member, may⟩
          · exact List.forall_mem_cons.mpr ⟨later item _ restAdds isDone, restDone⟩
        · exact .inr ⟨failed, ownAdds.jams jams⟩
        · exact .inr ⟨failed, .inr ⟨write, ⟨other, List.mem_cons_of_mem _ member, may⟩, long⟩⟩
      · rcases each item List.mem_cons_self solo began first quiet with ⟨same, _⟩ |
          ⟨_, jams | ⟨write, may, long⟩⟩
        · cases same
        · exact .inr ⟨⟨error, rfl⟩, .inl jams⟩
        · exact .inr ⟨⟨error, rfl⟩, .inr ⟨write, ⟨item, List.mem_cons_self, may⟩, long⟩⟩

end Rules

/-- From nothing, a program that goes through commits with the flush behind it, or one of its
writes does not fit. -/
theorem Through.flushed {startedAt : Instant} {allowed : Write → Prop} {done : Session → Prop}
    {program : Work Unit} (through : Through db startedAt allowed done program)
    (began : session.connection.startedAt = startedAt) (tenant : session.connection.tenant = none)
    (empty : session.memory = .empty) (unwritten : session.writes = [])
    {outcome : Except Error Unit}
    (ended : postgres.Ends (program >>= fun _ => flush) session outcome after)
    (quiet : Quiet db after.trace) :
    (outcome = .ok () ∧ (∀ write ∈ after.writes, allowed write) ∧
        ∃ middle : Session, done middle ∧ after.writes = middle.made) ∨
      (∃ error, outcome = .error error) ∧ ∃ write, allowed write ∧ ¬ write.KeyFits := by
  have solo : session.Solo db := .fresh tenant empty unwritten
  have nothing : session.made = [] := by
    rw [Session.made, unwritten, empty]
    rfl
  have unjammed : ¬ session.Jams := by
    rintro ⟨write, isMade, _⟩
    rw [nothing] at isMade
    cases isMade
  rcases ends_then.mp ended with ⟨⟨⟩, middle, ran, flushed⟩ | ⟨error, rfl, ran⟩
  · have upTo : middle.trace <+: after.trace := Library.Server.ends_trace flushed
    rcases through solo began ran (quiet.earlier upTo) with
      ⟨_, still, adds, isDone⟩ | ⟨⟨_, same⟩, _⟩
    swap
    · cases same
    rcases still.flush flushed quiet.sees with ⟨rfl, _, clean, rests⟩ | ⟨failed, jams⟩
    · have made := rests.made
      rw [Session.made_clean clean] at made
      refine .inl ⟨rfl, fun write member => ?_, middle, isDone, made⟩
      rcases adds.added write (made ▸ member) with old | may
      · rw [nothing] at old
        cases old
      · exact may
    · exact .inr ⟨failed, (adds.jams jams).resolve_left unjammed⟩
  · rcases through solo began ran quiet with ⟨same, _⟩ | ⟨failed, jams | long⟩
    · cases same
    · exact absurd jams unjammed
    · exact .inr ⟨failed, long⟩

end Fristenwaechter
