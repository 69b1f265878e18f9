import Fristenwaechter.Tenancy.Confinement

/-!
Owns the rules of confined sessions, one for each step of the unit of work, and by them
the confinement of every request that is pinned to a tenant: the handlers of its users and
the services called on its behalf.
-/

namespace Fristenwaechter

open Library (Journal Server Table)

variable {companyId : Uuid} {known : List Ref} {session after : Session} {Result Final : Type}

/-- A program of a confined session; an exception may forget the rows it knew. -/
abbrev Confines (companyId : Uuid) (known : List Ref) (program : Work Result)
    (post : Result → Session → Prop) : Prop :=
  postgres.Triple (Confined companyId known) program post (Confined companyId [])

/-- A program that still knows afterwards what it knew before. -/
abbrev StaysConfined (companyId : Uuid) (known : List Ref) (program : Work Result) : Prop :=
  Confines companyId known program fun _ => Confined companyId known

theorem Confined.fewer {fewer : List Ref} (confined : Confined companyId known session)
    (fewerKnown : ∀ ref ∈ fewer, ref ∈ known) : Confined companyId fewer session :=
  { confined with known := fun ref member => confined.known ref (fewerKnown ref member) }

section Rules

variable {post : Result → Session → Prop} {last : Final → Session → Prop}

theorem confines_then {first : Work Result} {next : Result → Work Final}
    (one : Confines companyId known first post)
    (two : ∀ value, postgres.Triple (post value) (next value) last (Confined companyId [])) :
    Confines companyId known (first >>= next) last :=
  Server.triple_bind one two

theorem confines_pure (value : Result) : StaysConfined companyId known (pure value) :=
  Server.triple_done fun _ confined => confined

theorem confines_throw (error : Error) :
    Confines companyId known (throw error : Work Result) post :=
  Server.triple_raise fun _ confined => confined.forget

theorem confines_orThrow (error : Error) (value : Option Result) :
    StaysConfined companyId known (orThrow error value) := by
  cases value with
  | none => exact confines_throw error
  | some found => exact confines_pure found

theorem confines_guard {condition : Prop} [Decidable condition] {error : Error}
    {rest : Unit → Work Result} (kept : Confines companyId known (rest ()) post) :
    Confines companyId known
      (if condition then (throw error : Work Unit) >>= rest else rest ()) post := by
  split
  · exact confines_throw error
  · exact kept

/-- After an exception nothing is known. -/
theorem confines_tryCatch {program : Work Result} {handler : Error → Work Result}
    (first : Confines companyId known program post)
    (second : ∀ error, Confines companyId [] (handler error) post) :
    Confines companyId known (tryCatch program handler) post :=
  Server.triple_handle first second

theorem Confines.fewer {fewer : List Ref} {program : Work Result}
    (confines : StaysConfined companyId known program) (fewerKnown : ∀ ref ∈ fewer, ref ∈ known) :
    Confines companyId known program fun _ => Confined companyId fewer :=
  confines.weaken (fun _ before => before) (fun _ _ confined => confined.fewer fewerKnown)
    fun _ forgotten => forgotten

theorem confines_emit {statement : Statement} (isLocal : statement.isLocal = true)
    (kept : statement ≠ .rollbackTo) (reads : ∀ write, ¬ statement.MayWrite write) :
    StaysConfined companyId known (emit statement) :=
  Server.triple_send (fun sent confined => confined.sends sent isLocal kept reads)
    fun sent confined => (confined.sends sent isLocal kept reads).forget

theorem confines_add {write : Write}
    (planned : ∀ session, Confined companyId known session →
      write.Planned companyId session.trace (Session.writes session)) :
    StaysConfined companyId known (add write) := by
  refine Server.triple_change fun session confined => confined.withPending fun other member => ?_
  rcases List.mem_append.mp member with old | new
  · exact confined.pending other old
  · exact List.mem_singleton.mp new ▸ planned session confined

theorem confines_addAll {writes : List Write}
    (planned : ∀ session, Confined companyId known session →
      ∀ write ∈ writes, write.Planned companyId session.trace session.writes) :
    StaysConfined companyId known (addAll writes) := by
  refine Server.triple_change fun session confined => confined.withPending fun other member => ?_
  rcases List.mem_append.mp member with old | new
  · exact confined.pending other old
  · exact planned session confined other new

theorem Confined.executed {writes : List Write} (confined : Confined companyId known session)
    (planned : ∀ write ∈ writes, write.Planned companyId session.trace session.writes)
    (executed : Executed writes session after) : Confined companyId known after := by
  induction writes generalizing session with
  | nil =>
      cases executed
      exact confined
  | cons write rest inductionHypothesis =>
      obtain ⟨entry, asked, _, remaining⟩ := executed
      refine inductionHypothesis (confined.wrote asked (planned write List.mem_cons_self))
        (fun other member => ?_) remaining
      rw [Session.wrote_writes]
      exact (planned other (List.mem_cons_of_mem _ member)).wrote.saw

theorem Executed.planned {writes : List Write} {write : Write}
    (executed : Executed writes session after)
    (planned : write.Planned companyId session.trace session.writes) :
    write.Planned companyId after.trace after.writes := by
  induction writes generalizing session with
  | nil =>
      cases executed
      exact planned
  | cons other rest inductionHypothesis =>
      obtain ⟨entry, _, _, remaining⟩ := executed
      refine inductionHypothesis remaining ?_
      rw [Session.wrote_writes]
      exact planned.wrote.saw

theorem confines_flush : StaysConfined companyId known flush := by
  have cleared : ∀ {session : Session}, Confined companyId known session →
      Confined companyId known (Session.withPending session []) :=
    fun confined => confined.withPending (by simp)
  constructor
  · intro session value after ended confined
    rcases flush_ends ended with ⟨_, executed⟩ | ⟨_, same, _⟩
    · exact (cleared confined).executed
        (fun write member => confined.pending write (mem_unitOfWork.mp member)) executed
    · cases same
  · intro session error after ended confined
    rcases flush_ends ended with ⟨same, _⟩ | ⟨_, _, refused⟩
    · cases same
    · obtain ⟨done, write, rest, middle, entry, whole, executed, asked, _, rfl⟩ := refused
      have planned : ∀ other ∈ done ++ write :: rest,
          other.Planned companyId session.trace (Session.writes session) := fun other member =>
        confined.pending other (mem_unitOfWork.mp (whole ▸ member))
      have reached := (cleared confined).executed
        (fun other member => planned other (List.mem_append_left _ member)) executed
      exact (reached.refused asked (executed.planned (planned write (by simp)))).forget

theorem confines_select {statement : Statement} (isLocal : statement.isLocal = true)
    (kept : statement ≠ .rollbackTo) (reads : ∀ write, ¬ statement.MayWrite write) :
    StaysConfined companyId known (select statement) :=
  confines_then confines_flush fun _ => confines_emit isLocal kept reads

theorem confines_now : StaysConfined companyId known nowBerlin :=
  confines_emit rfl (by simp) fun _ may => may

theorem confines_serverDefaults : StaysConfined companyId known (emit .serverDefaults) :=
  confines_emit rfl (by simp) fun _ may => may

theorem confines_dateOrToday (day : Option Date) :
    StaysConfined companyId known (dateOrToday day) := by
  cases day with
  | some known => exact confines_pure known
  | none => exact confines_then confines_now fun _ => confines_orThrow _ _

/-- A savepoint is released, or rolled back to and everything known forgotten. -/
theorem confines_rollback :
    Confines companyId [] (emit .rollbackTo) fun _ => Confined companyId [] := by
  have rolledBack : ∀ {session after : Session} {answer : Except Error Unit},
      postgres.Sends .rollbackTo session answer after → Confined companyId [] session →
        Confined companyId [] after := by
    intro session after answer sent confined
    obtain ⟨entry, asked, _, rfl⟩ := sends_rollbackTo sent
    have whole := confined.writes
    rw [Session.writes, ← List.take_append_drop (session.connection.savepoint.getD 0)
      session.connection.journal, Journal.writes_append] at whole
    refine ⟨confined.tenant, whole.take.saw, ?_, ?_, ?_, ?_⟩
    · exact fun write member => absurd member List.not_mem_nil
    · exact fun copy member => absurd member List.not_mem_nil
    · exact fun ref member => absurd member List.not_mem_nil
    · exact confined.asked asked rfl fun write same => by cases same
  exact Server.triple_send rolledBack rolledBack

theorem confines_nested {body : Work Result}
    (confines : Confines companyId known body fun _ => Confined companyId []) :
    Confines companyId known (nested body) fun _ => Confined companyId [] := by
  refine confines_then confines_flush fun _ => ?_
  refine confines_then (confines_emit rfl (by simp) fun _ may => may) fun _ => ?_
  refine confines_then (confines_tryCatch ?_ fun error => ?_ :
    Confines companyId known _ fun _ => Confined companyId []) fun result => ?_
  · exact confines_then confines fun _ => confines_then confines_flush fun _ => confines_pure _
  · exact confines_then confines_rollback fun _ => confines_throw error
  · exact confines_then (confines_emit rfl (by simp) fun _ may => may) fun _ => confines_pure result

/-! ### Rows that are looked up -/

theorem sees_own {connection : Connection} {company : Uuid}
    (pinned : connection.tenant = some companyId) (visible : connection.sees company = true) :
    company = companyId := by
  have same : companyId = company := by simpa [Connection.sees, pinned] using visible
  exact same.symm

theorem Confined.learnsDriver {statement : Statement} {entry : Sent} {id : Uuid}
    {company : Option Uuid} {row : Driver} (confined : Confined companyId known session)
    (asked : session.Asked statement entry) (found : entry.driver id company = some row)
    (reached : Confined companyId known after)
    (isTrace : after.trace = session.trace ++ [entry]) (isWrites : after.writes = session.writes) :
    company.all (· = companyId) = true ∧
      Confined companyId (.driver (Memory.instanceOf session.memory.drivers row).id :: known)
        after := by
  obtain ⟨seen, holds⟩ := Option.filter_eq_some_iff.mp found
  simp only [Bool.and_eq_true] at holds
  have own : row.companyId = companyId := sees_own (asked.connection ▸ confined.tenant) holds.1
  have copy := (instanceOf_key session.memory.drivers row).2
  simp only [Driver.key_eq] at copy
  refine ⟨own ▸ holds.2, reached.learns ?_⟩
  rw [isTrace, isWrites, copy]
  exact asked.holds ⟨row, Table.mem_of_find seen, rfl, own⟩

/-- A lookup, and what is known if it finds something. -/
abbrev LooksUp {Row : Type} (companyId : Uuid) (known : List Ref) (pre : Session → Prop)
    (lookup : Work (Option Row)) (ref : Row → Ref) (fact : Row → Prop) : Prop :=
  postgres.Triple pre lookup
    (fun found session => Confined companyId known session ∧ ∀ row, found = some row →
      fact row ∧ Confined companyId (ref row :: known) session) (Confined companyId [])

theorem LooksUp.then {Row : Type} {pre : Session → Prop} {lookup : Work (Option Row)}
    {ref : Row → Ref} {fact : Row → Prop} {next : Option Row → Work Final}
    (looksUp : LooksUp companyId known pre lookup ref fact)
    (absent : Confines companyId known (next none) last)
    (present : ∀ row, fact row → Confines companyId (ref row :: known) (next (some row)) last) :
    postgres.Triple pre (lookup >>= next) last (Confined companyId []) := by
  refine Server.triple_bind looksUp fun found => ?_
  cases found with
  | none => exact absent.weaken (fun _ before => before.1) (fun _ _ done => done) fun _ done => done
  | some row =>
      constructor
      · intro session value after ended before
        obtain ⟨holds, confined⟩ := before.2 row rfl
        exact (present row holds).returns ended confined
      · intro session error after ended before
        obtain ⟨holds, confined⟩ := before.2 row rfl
        exact (present row holds).raises ended confined

theorem looksUp_driverForUpdate {id : Uuid} {company : Option Uuid} :
    LooksUp companyId known (Confined companyId known) (select (.driverForUpdate id company))
      (fun driver => .driver driver.id) fun _ => company.all (· = companyId) = true := by
  refine confines_then confines_flush fun _ => Server.triple_send ?_ ?_
  · intro session answer after sent confined
    have reached := confined.sends sent rfl (by simp) fun _ may => may
    refine ⟨reached, fun driver same => ?_⟩
    obtain ⟨entry, asked, ⟨_, isNone, _⟩ | ⟨row, isFound, isSome, rfl⟩⟩ :=
      sends_driverForUpdate sent
    · cases isNone
      cases same
    · cases isSome
      cases same
      exact confined.learnsDriver asked isFound reached rfl (by simp)
  · exact fun sent confined => (confined.sends sent rfl (by simp) fun _ may => may).forget

theorem looksUp_getDriver {id : Uuid} :
    LooksUp companyId known
      (fun session => Confined companyId known session ∧ session.memory.drivers = [])
      (getDriver id) (fun driver => .driver driver.id) fun _ => True := by
  have selects : LooksUp companyId known (Confined companyId known) (select (.getDriver id))
      (fun driver => .driver driver.id) fun _ => True := by
    refine confines_then confines_flush fun _ => Server.triple_send ?_ ?_
    · intro session answer after sent confined
      have reached := confined.sends sent rfl (by simp) fun _ may => may
      refine ⟨reached, fun driver same => ⟨trivial, ?_⟩⟩
      obtain ⟨entry, asked, ⟨_, isNone, _⟩ | ⟨row, isFound, isSome, rfl⟩⟩ := sends_getDriver sent
      · cases isNone
        cases same
      · cases isSome
        cases same
        exact (confined.learnsDriver asked isFound reached rfl (by simp)).2
    · exact fun sent confined => (confined.sends sent rfl (by simp) fun _ may => may).forget
  have unloaded : ∀ {memory : Memory}, memory.drivers = [] →
      memory.drivers.find? (fun copy => copy.id = id) = none :=
    fun nothing => by rw [nothing, List.find?_nil]
  exact ⟨fun ended before =>
      selects.returns ((getDriver_ends (unloaded before.2)).mp ended) before.1,
    fun ended before => selects.raises ((getDriver_ends (unloaded before.2)).mp ended) before.1⟩

theorem looksUp_deadlineForUpdate {id company : Uuid} :
    LooksUp companyId known (Confined companyId known) (select (.deadlineForUpdate id company))
      (fun deadline => .deadline deadline.id) fun deadline =>
        company = companyId ∧ deadline.companyId = companyId := by
  refine confines_then confines_flush fun _ => Server.triple_send ?_ ?_
  · intro session answer after sent confined
    have reached := confined.sends sent rfl (by simp) fun _ may => may
    refine ⟨reached, fun deadline same => ?_⟩
    obtain ⟨entry, asked, ⟨_, isNone, _⟩ | ⟨row, isFound, isSome, rfl⟩⟩ :=
      sends_deadlineForUpdate sent
    · cases isNone
      cases same
    · cases isSome
      cases same
      obtain ⟨seen, holds⟩ := Option.filter_eq_some_iff.mp isFound
      simp only [Bool.and_eq_true, decide_eq_true_eq] at holds
      have own : row.companyId = companyId := sees_own (asked.connection ▸ confined.tenant) holds.1
      obtain ⟨known, copy⟩ := instanceOf_key session.memory.deadlines row
      simp only [Deadline.key_eq] at copy
      refine ⟨⟨holds.2.symm.trans own, ?_⟩, reached.learns ?_⟩
      · rcases known with old | same
        · exact confined.copies _ old
        · rw [same]
          exact own
      · have held : Foreseen (session.trace ++ [entry]) (Session.writes session) fun db =>
            db.Holds companyId (.deadline row.id) :=
          asked.holds ⟨row, Table.mem_of_find seen, rfl, own⟩
        rw [← copy] at held
        simpa using held
  · exact fun sent confined => (confined.sends sent rfl (by simp) fun _ may => may).forget

theorem looksUp_openCase {driverId : Uuid} :
    LooksUp companyId known (Confined companyId known) (select (.openCase driverId))
      (fun case => .case case.id) fun _ => True := by
  refine confines_then confines_flush fun _ => Server.triple_send ?_ ?_
  · intro session answer after sent confined
    have reached := confined.sends sent rfl (by simp) fun _ may => may
    refine ⟨reached, fun case same => ⟨trivial, ?_⟩⟩
    obtain ⟨entry, asked, isAnswer, rfl⟩ := sends_openCase sent
    cases isAnswer
    have holds := List.find?_some same
    simp only [Bool.and_eq_true] at holds
    have own : case.companyId = companyId :=
      sees_own (asked.connection ▸ confined.tenant) holds.1.1
    exact reached.learns (asked.holds ⟨case, List.mem_of_find?_eq_some same, rfl, own⟩)
  · exact fun sent confined => (confined.sends sent rfl (by simp) fun _ may => may).forget

end Rules

/-! ### Services -/

section Services

variable {sha256 : Str → Str}

theorem Write.Planned.insert {trace : List Sent} {writes : List Write} {write : Write}
    (named : write.Named companyId) (owned : ∀ db, write.Owned companyId db) :
    write.Planned companyId trace writes :=
  ⟨named, .always owned⟩

theorem Confined.plannedDriver {loaded current : Driver}
    (confined : Confined companyId known session) (member : .driver loaded.id ∈ known) :
    ∀ write ∈ loaded.update current, write.Planned companyId session.trace session.writes :=
  fun _ inside => Driver.mem_update inside ▸ ⟨trivial, confined.known _ member⟩

theorem Confined.plannedDeadline {loaded current : Deadline}
    (confined : Confined companyId known session) (member : .deadline loaded.id ∈ known)
    (named : current.companyId = companyId) :
    ∀ write ∈ loaded.update current, write.Planned companyId session.trace session.writes :=
  fun _ inside => Deadline.mem_update inside ▸ ⟨named, confined.known _ member⟩

theorem confines_resolveRecipients (company : Uuid) :
    StaysConfined companyId known (resolveRecipients company) :=
  confines_then (confines_select rfl (by simp) fun _ may => may) fun _ => confines_pure _

theorem confines_recordCheck {kind result : Str} {performedOn : Date}
    {driverId vehicleId : Option Uuid} {method : Option Str} {performedById : Option Uuid}
    {extraParams : List (Str × Json)} :
    StaysConfined companyId known (recordCheck sha256 companyId kind result performedOn driverId
      vehicleId method performedById extraParams) := by
  have appends : ∀ {subject : Subject} {params : List (Str × Json)},
      StaysConfined companyId known (appendCheck sha256 companyId kind result performedOn driverId
        vehicleId subject method performedById params) := by
    intro subject params
    refine confines_then (confines_select rfl (by simp) fun _ may => may) fun prevHash => ?_
    refine confines_then confines_serverDefaults fun given => ?_
    refine confines_then (confines_add fun session _ => .insert trivial fun _ => rfl)
      fun _ => ?_
    exact confines_then confines_flush fun _ => confines_pure _
  unfold recordCheck
  split
  · exact appends
  · exact appends
  · exact confines_throw _

theorem confines_maybeResolveOpenCase {driver : Driver} {resolvedById : Option Uuid}
    (member : .driver driver.id ∈ known) :
    StaysConfined companyId known (maybeResolveOpenCase driver resolvedById) := by
  refine looksUp_openCase.then ?_ fun case _ => ?_
  · exact confines_then (confines_addAll fun session confined => confined.plannedDriver member)
      fun _ => confines_pure _
  · refine (?_ : StaysConfined companyId (.case case.id :: known) _).fewer fun ref inside =>
      List.mem_cons_of_mem _ inside
    refine confines_then (confines_addAll fun session confined =>
      confined.plannedDriver (List.mem_cons_of_mem _ member)) fun _ => ?_
    refine confines_then confines_now fun now => confines_then (confines_add ?_) fun _ =>
      confines_pure _
    exact fun session confined => ⟨trivial, confined.known _ List.mem_cons_self⟩

theorem confines_completeByKind {deadline : Deadline} {deadlineId : Uuid} {result : Str}
    {completedOn : Date} {performedById : Option Uuid} {method : Option Str} :
    StaysConfined companyId known (completeByKind sha256 deadline deadlineId companyId result
      completedOn performedById method) := by
  unfold completeByKind
  split
  · rename_i driverId _ _
    refine looksUp_driverForUpdate.then (confines_throw _) fun driver _ => ?_
    refine (?_ : StaysConfined companyId (.driver driver.id :: known) _).fewer fun ref inside =>
      List.mem_cons_of_mem _ inside
    refine confines_then confines_recordCheck fun check => ?_
    refine confines_then (?_ : StaysConfined companyId (.driver driver.id :: known) _)
      fun resolvedCaseId => ?_
    · split
      · exact confines_maybeResolveOpenCase List.mem_cons_self
      · exact confines_pure none
    · exact confines_then (confines_orThrow _ _) fun nextDue => confines_pure _
  · exact confines_throw _
  · refine confines_then (confines_select rfl (by simp) fun _ may => may) fun found => ?_
    cases found with
    | none => exact confines_throw _
    | some vehicle =>
        refine confines_then confines_recordCheck fun check => ?_
        split
        · exact confines_then (confines_orThrow _ _) fun nextDue => confines_pure _
        · exact confines_then (confines_orThrow _ _) fun nextDue => confines_pure _
  · exact confines_throw _
  · refine confines_then confines_recordCheck fun check => ?_
    exact confines_then (confines_orThrow _ _) fun nextDue => confines_pure _

theorem confines_completeDeadline {deadlineId company : Uuid} {result : Str} {completedOn : Date}
    {performedById : Option Uuid} {method : Option Str} :
    StaysConfined companyId known (completeDeadline sha256 deadlineId company result completedOn
      performedById method) := by
  refine looksUp_deadlineForUpdate.then (confines_throw _) fun deadline own => ?_
  obtain ⟨rfl, named⟩ := own
  refine (?_ : StaysConfined company (.deadline deadline.id :: known) _).fewer fun ref inside =>
    List.mem_cons_of_mem _ inside
  refine confines_then (confines_addAll fun session confined =>
    confined.plannedDeadline List.mem_cons_self named) fun _ => ?_
  refine confines_then confines_completeByKind fun completion => ?_
  refine confines_then confines_serverDefaults fun given => ?_
  refine confines_then (confines_add fun session _ => .insert trivial fun _ => named)
    fun _ => ?_
  exact confines_then confines_flush fun _ => confines_pure _

theorem confines_addMessages {triggerCheckId : Uuid} {context : List (Str × Json)}
    (contacts : List (OutboxChannel × Str)) :
    StaysConfined companyId known (addMessages companyId triggerCheckId context contacts) := by
  induction contacts with
  | nil => exact confines_pure _
  | cons contact rest inductionHypothesis =>
      refine confines_then confines_serverDefaults fun given => ?_
      refine confines_then (confines_add fun session _ => .insert trivial fun _ => rfl)
        fun _ => ?_
      exact confines_then inductionHypothesis fun _ => confines_pure _

theorem confines_handleFailedLicenseCheck {driverId company triggerCheckId : Uuid}
    {recipients : List Recipient} :
    StaysConfined companyId known
      (handleFailedLicenseCheck driverId company triggerCheckId recipients) := by
  refine looksUp_driverForUpdate.then (confines_throw _) fun driver own => ?_
  have isOwn : company = companyId := by simpa using own
  subst isOwn
  refine (?_ : StaysConfined company (.driver driver.id :: known) _).fewer fun ref inside =>
    List.mem_cons_of_mem _ inside
  refine confines_then confines_now fun now => confines_then (confines_orThrow _ _) fun due => ?_
  refine confines_then (confines_addAll fun session confined =>
    confined.plannedDriver List.mem_cons_self) fun _ => ?_
  refine confines_then confines_serverDefaults fun given => ?_
  refine confines_then (confines_add fun session confined => ⟨trivial, fun db follows replays =>
    ⟨rfl, confined.known _ List.mem_cons_self db follows replays⟩⟩) fun _ => ?_
  refine confines_then (confines_tryCatch confines_flush fun error => ?_) fun _ => ?_
  · split <;> exact confines_throw _
  · refine confines_then confines_serverDefaults fun given => ?_
    refine confines_then (confines_add fun session _ => .insert trivial fun _ => rfl)
      fun _ => ?_
    refine confines_then (confines_addMessages _) fun ids => ?_
    exact confines_then confines_flush fun _ => confines_pure _

/-- The lockout, also where its savepoint is rolled back. -/
theorem confines_runE6 {driverId company triggerCheckId : Uuid} {recipients : List Recipient} :
    Confines companyId known (runE6 driverId company triggerCheckId recipients) fun _ =>
      Confined companyId [] := by
  refine confines_tryCatch (confines_nested ?_) fun error => ?_
  · exact confines_handleFailedLicenseCheck.fewer (by simp)
  · split
    · refine confines_then (confines_select rfl (by simp) fun _ may => may) fun found => ?_
      cases found with
      | none => exact confines_throw _
      | some existing => exact confines_pure _
    · exact confines_throw _

end Services

/-! ### Handlers -/

section Handlers

variable {sha256 : Str → Str} {validateKennzeichen : Str → Option Str} {user : AccountUser}

theorem confines_createDriver {data : Form} :
    StaysConfined user.companyId known (createDriver user data) := by
  unfold createDriver
  refine confines_guard ?_
  dsimp only
  split
  · exact confines_pure _
  · refine confines_then confines_serverDefaults fun given => ?_
    refine confines_then (confines_add fun session _ => .insert trivial fun _ => rfl)
      fun _ => ?_
    refine confines_then confines_flush fun _ => ?_
    refine confines_then (confines_dateOrToday _) fun anchor => ?_
    refine confines_then (confines_orThrow _ _) fun dueOn => ?_
    refine confines_then confines_serverDefaults fun given => ?_
    exact confines_then (confines_add fun session _ => .insert trivial fun _ => rfl)
      fun _ => confines_pure _

theorem confines_createVehicle {data : Form} :
    StaysConfined user.companyId known (createVehicle validateKennzeichen user data) := by
  unfold createVehicle
  refine confines_guard ?_
  dsimp only
  split
  · exact confines_pure _
  · refine confines_then confines_serverDefaults fun given => ?_
    refine confines_then (confines_add fun session _ => .insert trivial fun _ => rfl)
      fun _ => ?_
    refine confines_then confines_flush fun _ => ?_
    refine confines_then (confines_dateOrToday _) fun anchor => ?_
    refine confines_then (confines_orThrow _ _) fun huDue => ?_
    refine confines_then confines_serverDefaults fun given => ?_
    refine confines_then (confines_add fun session _ => .insert trivial fun _ => rfl)
      fun _ => ?_
    refine confines_then (confines_orThrow _ _) fun uvvDue => ?_
    refine confines_then confines_serverDefaults fun given => ?_
    exact confines_then (confines_add fun session _ => .insert trivial fun _ => rfl)
      fun _ => confines_pure _

theorem confines_recordFailedCheck {driverId : Uuid} {performedOn : Date} :
    Confines user.companyId known (recordFailedCheck sha256 user driverId performedOn) fun _ =>
      Confined user.companyId [] := by
  refine confines_then confines_recordCheck fun check => ?_
  refine confines_then (confines_resolveRecipients _) fun recipients => ?_
  refine confines_then (confines_emit rfl (by simp) fun _ may => may) fun triggerCheckId => ?_
  exact confines_then confines_runE6 fun _ => confines_pure _

theorem confines_recordPassedCheck {driver : Driver} {driverId : Uuid} {performedOn : Date}
    (member : .driver driver.id ∈ known) :
    StaysConfined user.companyId known
      (recordPassedCheck sha256 user driver driverId performedOn) := by
  refine confines_then (confines_select rfl (by simp) fun _ may => may) fun found => ?_
  cases found with
  | some openFsk => exact confines_then confines_completeDeadline fun _ => confines_pure _
  | none =>
      refine confines_then confines_recordCheck fun check => ?_
      exact confines_then (confines_maybeResolveOpenCase member) fun _ => confines_pure _

theorem confines_dateOrToday_unloaded (day : Option Date) :
    postgres.Triple (fun session => Confined companyId known session ∧ session.memory.drivers = [])
      (dateOrToday day)
      (fun _ session => Confined companyId known session ∧ session.memory.drivers = [])
      (Confined companyId []) := by
  cases day with
  | some given => exact Server.triple_done fun _ before => before
  | none =>
      refine Server.triple_bind (?_ : postgres.Triple _ nowBerlin
        (fun _ session => Confined companyId known session ∧ session.memory.drivers = []) _)
        fun now => ?_
      · refine Server.triple_send (fun sent before => ?_) fun sent before => ?_
        · refine ⟨before.1.sends sent rfl (by simp) fun _ may => may, ?_⟩
          obtain ⟨entry, _, _, rfl⟩ := sends_now sent
          exact before.2
        · exact (before.1.sends sent rfl (by simp) fun _ may => may).forget
      · cases berlinDate now with
        | none => exact Server.triple_raise fun _ before => before.1.forget
        | some today => exact Server.triple_done fun _ before => before

theorem confines_recordDriverCheck {driverId : Uuid} {data : Form} :
    postgres.Triple
      (fun session => Confined user.companyId known session ∧ session.memory.drivers = [])
      (recordDriverCheck sha256 user driverId data) (fun _ => Confined user.companyId [])
      (Confined user.companyId []) := by
  unfold recordDriverCheck
  split
  · exact Server.triple_raise fun _ before => before.1.forget
  · dsimp only
    refine Server.triple_bind (confines_dateOrToday_unloaded _) fun performedOn => ?_
    refine looksUp_getDriver.then ((confines_pure _).fewer (by simp)) fun driver _ => ?_
    dsimp only
    split
    · exact confines_then confines_recordFailedCheck fun _ => confines_pure _
    · exact ((confines_then (confines_recordPassedCheck List.mem_cons_self) fun _ =>
        confines_pure _)).fewer (by simp)

theorem confines_recordVehicleCheck {vehicleId : Uuid} {data : Form} :
    StaysConfined user.companyId known (recordVehicleCheck sha256 user vehicleId data) := by
  unfold recordVehicleCheck
  refine confines_guard ?_
  dsimp only
  refine confines_then (confines_dateOrToday _) fun performedOn => ?_
  refine confines_then (confines_select rfl (by simp) fun _ may => may) fun found => ?_
  cases found with
  | some openDl => exact confines_then confines_completeDeadline fun _ => confines_pure _
  | none => exact confines_then confines_recordCheck fun _ => confines_pure _

theorem confines_resolveFor {driverId : Uuid} {locking : Bool} {resolvedById : Option Uuid} :
    postgres.Triple (fun session => Confined companyId known session ∧ session.memory.drivers = [])
      (resolveFor driverId locking resolvedById) (fun _ => Confined companyId [])
      (Confined companyId []) := by
  have resolves : ∀ driver : Driver, Confines companyId (.driver driver.id :: known)
      (maybeResolveOpenCase driver resolvedById) fun _ => Confined companyId [] :=
    fun driver => (confines_maybeResolveOpenCase List.mem_cons_self).fewer (by simp)
  cases locking with
  | true =>
      have locks : postgres.Triple (Confined companyId known)
          (resolveFor driverId true resolvedById) (fun _ => Confined companyId [])
          (Confined companyId []) :=
        looksUp_driverForUpdate.then ((confines_pure none).fewer (by simp)) fun driver _ =>
          resolves driver
      exact locks.weaken (fun _ before => before.1) (fun _ _ done => done) fun _ done => done
  | false =>
      exact looksUp_getDriver.then ((confines_pure _).fewer (by simp)) fun driver _ =>
        resolves driver

/-- **Every request that is pinned to a tenant** is confined, however it ends. -/
theorem request_confined {request : Request} {tenant : Uuid} (pinned : request.tenant = some tenant)
    {start : Instant} {outcome : Except Error Outcome}
    (ended : postgres.Ends (transaction (request.body sha256 validateKennzeichen))
      (Session.opened (some tenant) start) outcome after) : Confined tenant [] after := by
  have opened : Confined tenant [] (Session.opened (some tenant) start) := by
    refine ⟨rfl, ?_, ?_, ?_, ?_, ?_⟩
    · intro done write rest whole
      simp at whole
    · exact fun write member => absurd member List.not_mem_nil
    · exact fun copy member => absurd member List.not_mem_nil
    · exact fun ref member => absurd member List.not_mem_nil
    · intro past entry rest whole
      simp [Session.opened] at whole
  have bodies : postgres.Triple
      (fun session => Confined tenant [] session ∧ session.memory.drivers = [])
      (request.body sha256 validateKennzeichen) (fun _ => Confined tenant [])
      (Confined tenant []) := by
    have plain : ∀ {Value : Type} {program : Work Value} {wrap : Value → Outcome},
        StaysConfined tenant [] program →
          postgres.Triple (fun session => Confined tenant [] session ∧ session.memory.drivers = [])
            (do return wrap (← program)) (fun _ => Confined tenant []) (Confined tenant []) :=
      fun confines => (confines_then confines fun _ => confines_pure _).weaken
        (fun _ before => before.1) (fun _ _ done => done) fun _ done => done
    cases request with
    | createDriver user data =>
        cases pinned
        exact plain confines_createDriver
    | createVehicle user data =>
        cases pinned
        exact plain confines_createVehicle
    | recordDriverCheck user driverId data =>
        cases pinned
        exact Server.triple_bind confines_recordDriverCheck fun _ => confines_pure _
    | recordVehicleCheck user vehicleId data =>
        cases pinned
        exact plain confines_recordVehicleCheck
    | runE6 own driverId companyId triggerCheckId recipients => exact plain confines_runE6
    | completeDeadline own deadlineId companyId result completedOn performedById method =>
        exact plain confines_completeDeadline
    | maybeResolveOpenCase own driverId locking resolvedById =>
        exact Server.triple_bind confines_resolveFor fun _ => confines_pure _
    | _ => cases pinned
  have whole : postgres.Triple
      (fun session => Confined tenant [] session ∧ session.memory.drivers = [])
      (transaction (request.body sha256 validateKennzeichen)) (fun _ => Confined tenant [])
      (Confined tenant []) :=
    Server.triple_bind bodies fun result => confines_then confines_flush fun _ => confines_pure _
  cases outcome with
  | ok value => exact whole.returns ended ⟨opened, rfl⟩
  | error error => exact whole.raises ended ⟨opened, rfl⟩

end Handlers

end Fristenwaechter
