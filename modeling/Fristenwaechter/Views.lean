import Fristenwaechter.Statements

/-!
Owns which table a write touches, and with it what a session sees: a table it has not
written itself is the committed one.
-/

namespace Fristenwaechter

open Library (Journal)

inductive TableName where
  | company
  | accountUser
  | userSession
  | invitation
  | driver
  | vehicle
  | deadline
  | case
  | alert
  | outbox
  | log
deriving DecidableEq

def Write.table : Write → TableName
  | .insertDriver _ => .driver
  | .updateDriver _ _ => .driver
  | .insertVehicle _ => .vehicle
  | .insertDeadline _ => .deadline
  | .updateDeadline _ _ => .deadline
  | .insertCase _ => .case
  | .updateCase _ => .case
  | .insertAlert _ => .alert
  | .insertOutbox _ => .outbox
  | .updateOutbox _ _ => .outbox
  | .deleteOutbox _ => .outbox
  | .insertLog _ => .log
  | .updateUser _ _ => .accountUser
  | .updateCompany _ _ => .company
  | .revokeSessions _ _ => .userSession
  | .acceptInvitations _ _ => .invitation

section Apply

variable {write : Write} (db : Db)

theorem apply_drivers (other : write.table ≠ .driver) : (write.apply db).drivers = db.drivers := by
  cases write <;> first | rfl | exact absurd rfl other

theorem apply_deadlines (other : write.table ≠ .deadline) :
    (write.apply db).deadlines = db.deadlines := by
  cases write <;> first | rfl | exact absurd rfl other

theorem apply_cases (other : write.table ≠ .case) : (write.apply db).cases = db.cases := by
  cases write <;> first | rfl | exact absurd rfl other

theorem apply_alerts (other : write.table ≠ .alert) : (write.apply db).alerts = db.alerts := by
  cases write <;> first | rfl | exact absurd rfl other

theorem apply_outbox (other : write.table ≠ .outbox) : (write.apply db).outbox = db.outbox := by
  cases write <;> first | rfl | exact absurd rfl other

theorem apply_checkLog (other : write.table ≠ .log) :
    (write.apply db).checkLog = db.checkLog := by
  cases write <;> first | rfl | exact absurd rfl other

theorem apply_accountUsers (other : write.table ≠ .accountUser) :
    (write.apply db).accountUsers = db.accountUsers := by
  cases write <;> first | rfl | exact absurd rfl other

end Apply

def Db.after (db : Db) (writes : List Write) : Db :=
  writes.foldl (fun current write => write.apply current) db

@[simp] theorem Db.after_nil (db : Db) : db.after [] = db :=
  rfl

@[simp] theorem Db.after_cons (db : Db) (write : Write) (writes : List Write) :
    db.after (write :: writes) = (write.apply db).after writes :=
  rfl

theorem Db.after_append (db : Db) (first second : List Write) :
    db.after (first ++ second) = (db.after first).after second :=
  List.foldl_append

theorem Connection.view_eq (connection : Connection) (db : Db) :
    connection.view db = db.after connection.journal.writes :=
  rfl

theorem Db.after_unwritten {Value : Type} (project : Db → Value) {writes : List Write}
    (unchanged : ∀ write ∈ writes, ∀ db, project (write.apply db) = project db) (db : Db) :
    project (db.after writes) = project db := by
  induction writes generalizing db with
  | nil => rfl
  | cons write rest inductionHypothesis =>
      rw [Db.after_cons, inductionHypothesis fun other member => unchanged other (by simp [member])]
      exact unchanged write (by simp) db

section After

variable {writes : List Write} (db : Db)

theorem Db.after_drivers (other : ∀ write ∈ writes, write.table ≠ .driver) :
    (db.after writes).drivers = db.drivers :=
  Db.after_unwritten Db.drivers (fun write member db => apply_drivers db (other write member)) db

theorem Db.after_deadlines (other : ∀ write ∈ writes, write.table ≠ .deadline) :
    (db.after writes).deadlines = db.deadlines :=
  Db.after_unwritten Db.deadlines (fun write member db => apply_deadlines db (other write member))
    db

theorem Db.after_cases (other : ∀ write ∈ writes, write.table ≠ .case) :
    (db.after writes).cases = db.cases :=
  Db.after_unwritten Db.cases (fun write member db => apply_cases db (other write member)) db

theorem Db.after_alerts (other : ∀ write ∈ writes, write.table ≠ .alert) :
    (db.after writes).alerts = db.alerts :=
  Db.after_unwritten Db.alerts (fun write member db => apply_alerts db (other write member)) db

theorem Db.after_checkLog (other : ∀ write ∈ writes, write.table ≠ .log) :
    (db.after writes).checkLog = db.checkLog :=
  Db.after_unwritten Db.checkLog (fun write member db => apply_checkLog db (other write member)) db

theorem Db.after_accountUsers (other : ∀ write ∈ writes, write.table ≠ .accountUser) :
    (db.after writes).accountUsers = db.accountUsers :=
  Db.after_unwritten Db.accountUsers
    (fun write member db => apply_accountUsers db (other write member)) db

end After

theorem Session.Asked.db {session : Session} {statement : Statement} {entry : Sent}
    (asked : session.Asked statement entry) : entry.db = entry.world.db.after session.writes := by
  rw [Sent.db, asked.connection]
  rfl

end Fristenwaechter
