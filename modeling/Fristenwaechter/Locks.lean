import Fristenwaechter.Database

/-!
Owns what a lock keeps. `Kept ref before after` is what everybody else leaves alone
while `ref` is held: a locked row stays as it is, and a locked entry of a unique
index is taken by nobody else.

A write keeps everything outside its footprint (`Kept.frame`), keeps what was kept
before it (`Kept.apply`), and stays valid while its footprint is kept
(`Kept.valid`).
-/

namespace Fristenwaechter

open Library (Table Writes)

/-- What nobody else can change while `ref` is held: the row stays as it is, and a
unique-index entry does not appear. -/
def Kept : Ref → Db → Db → Prop
  | .company id, before, after => after.companies.find id = before.companies.find id
  | .accountUser id, before, after => after.accountUsers.find id = before.accountUsers.find id
  | .userSession id, before, after => after.userSessions.find id = before.userSessions.find id
  | .invitation id, before, after => after.invitations.find id = before.invitations.find id
  | .driver id, before, after => after.drivers.find id = before.drivers.find id
  | .vehicle id, before, after => after.vehicles.find id = before.vehicles.find id
  | .deadline id, before, after => after.deadlines.find id = before.deadlines.find id
  | .case id, before, after => after.cases.find id = before.cases.find id
  | .alert id, before, after => after.alerts.find id = before.alerts.find id
  | .outbox id, before, after => after.outbox.find id = before.outbox.find id
  | .log id, before, after => after.checkLog.find id = before.checkLog.find id
  | .openCase driverId, before, after =>
      ∀ row ∈ after.cases, row.driverId = driverId → row.status = .open →
        ∃ old ∈ before.cases, old.id = row.id ∧ old.driverId = driverId ∧ old.status = .open
  | .dedupKey key, before, after =>
      ∀ row ∈ after.outbox, row.dedupKey = key →
        ∃ old ∈ before.outbox, old.id = row.id ∧ old.dedupKey = key
  | .entryHash hash, before, after =>
      ∀ row ∈ after.checkLog, row.entryHash = hash →
        ∃ old ∈ before.checkLog, old.id = row.id ∧ old.entryHash = hash

section Entries

variable {before after : Db}

theorem kept_openCase {driverId : Uuid} : Kept (.openCase driverId) before after ↔
    Table.Reserves (fun row : EscalationCase => row.driverId = driverId ∧ row.status = .open)
      before.cases after.cases :=
  forall₂_congr fun _ _ => and_imp.symm

theorem kept_dedupKey {key : Str} : Kept (.dedupKey key) before after ↔
    Table.Reserves (fun row : OutboxMessage => row.dedupKey = key) before.outbox after.outbox :=
  Iff.rfl

theorem kept_entryHash {hash : Str} : Kept (.entryHash hash) before after ↔
    Table.Reserves (fun row : ComplianceCheckLog => row.entryHash = hash)
      before.checkLog after.checkLog :=
  Iff.rfl

end Entries

theorem Kept.refl (ref : Ref) (db : Db) : Kept ref db db := by
  cases ref with
  | openCase driverId => exact kept_openCase.mpr (.refl _ _)
  | dedupKey key => exact kept_dedupKey.mpr (.refl _ _)
  | entryHash hash => exact kept_entryHash.mpr (.refl _ _)
  | _ => rfl

theorem Kept.trans {ref : Ref} {first second third : Db} (one : Kept ref first second)
    (two : Kept ref second third) : Kept ref first third := by
  cases ref with
  | openCase driverId =>
      exact kept_openCase.mpr ((kept_openCase.mp one).trans (kept_openCase.mp two))
  | dedupKey key =>
      exact kept_dedupKey.mpr ((kept_dedupKey.mp one).trans (kept_dedupKey.mp two))
  | entryHash hash =>
      exact kept_entryHash.mpr ((kept_entryHash.mp one).trans (kept_entryHash.mp two))
  | _ => exact Eq.trans two one

/-- An UPDATE leaves a case open only where it leaves the status alone. -/
theorem CaseChange.open_of_changed (change : CaseChange) {row : EscalationCase}
    (isOpen : (EscalationCase.changed change.loaded change.current row).status = .open) :
    row.status = .open ∧ ∀ other : EscalationCase, other.status = .open →
      (EscalationCase.changed change.loaded change.current other).status = .open := by
  have unchanged : change.current.status = change.loaded.status := by
    by_contra differs
    simp only [EscalationCase.changed, column, differs, if_false] at isOpen
    exact differs (isOpen.trans (change.stays isOpen).symm)
  simp only [EscalationCase.changed, column, unchanged, if_true] at isOpen ⊢
  exact ⟨isOpen, fun _ otherOpen => otherOpen⟩

theorem find_foldl_update {Row : Type} [Library.Keyed Row Uuid] (ids : List Uuid)
    (change : Row → Row) (keeps : ∀ row, Library.Keyed.key (change row) = Library.Keyed.key row)
    (table : Table Row) {wanted : Uuid} (outside : wanted ∉ ids) :
    (ids.foldl (fun current id => current.update id change) table).find wanted =
      table.find wanted := by
  induction ids generalizing table with
  | nil => rfl
  | cons id rest inductionHypothesis =>
      simp only [List.mem_cons, not_or] at outside
      rw [List.foldl_cons, inductionHypothesis _ outside.2,
        Table.find_update_other keeps (Ne.symm outside.1)]

theorem Kept.frame {ref : Ref} {write : Write} {db : Db}
    (outside : ref ∉ Writes.footprint Db write) : Kept ref db (Writes.apply write db) := by
  change ref ∉ write.footprint at outside
  change Kept ref db (write.apply db)
  have unchanged := Kept.refl ref db
  cases write with
  | insertCase row =>
      cases ref with
      | case id =>
          exact Table.find_insert_other fun same => outside (by
            simpa [Write.footprint, eq_comm] using same)
      | openCase driverId =>
          refine kept_openCase.mpr (Table.reserves_insert fun taken => outside ?_)
          simp [Write.footprint, taken.1]
      | _ => exact unchanged
  | updateCase change =>
      cases ref with
      | case id =>
          exact Table.find_update_other (by simp)
            (by simpa [Write.footprint, eq_comm] using outside)
      | openCase driverId =>
          refine kept_openCase.mpr (Table.reserves_update (by simp) fun row taken => ?_)
          exact ⟨taken.1, (change.open_of_changed taken.2).1⟩
      | _ => exact unchanged
  | insertOutbox row =>
      cases ref with
      | outbox id =>
          exact Table.find_insert_other fun same => outside (by
            simpa [Write.footprint, eq_comm] using same)
      | dedupKey key =>
          refine kept_dedupKey.mpr (Table.reserves_insert fun taken => outside ?_)
          simp [Write.footprint, taken]
      | _ => exact unchanged
  | updateOutbox loaded current =>
      cases ref with
      | outbox id =>
          exact Table.find_update_other (by simp)
            (by simpa [Write.footprint, eq_comm] using outside)
      | dedupKey key =>
          exact kept_dedupKey.mpr (Table.reserves_update (by simp) fun _ taken => taken)
      | _ => exact unchanged
  | deleteOutbox ids =>
      cases ref with
      | outbox id => exact Table.find_remove_other (by simpa [Write.footprint] using outside)
      | dedupKey key => exact kept_dedupKey.mpr Table.reserves_remove
      | _ => exact unchanged
  | insertLog row =>
      cases ref with
      | log id =>
          exact Table.find_insert_other fun same => outside (by
            simpa [Write.footprint, eq_comm] using same)
      | entryHash hash =>
          refine kept_entryHash.mpr (Table.reserves_insert fun taken => outside ?_)
          simp [Write.footprint, taken]
      | _ => exact unchanged
  | insertDriver row =>
      cases ref with
      | driver id =>
          exact Table.find_insert_other (by simpa [Write.footprint, eq_comm] using outside)
      | _ => exact unchanged
  | insertVehicle row =>
      cases ref with
      | vehicle id =>
          exact Table.find_insert_other (by simpa [Write.footprint, eq_comm] using outside)
      | _ => exact unchanged
  | insertDeadline row =>
      cases ref with
      | deadline id =>
          exact Table.find_insert_other (by simpa [Write.footprint, eq_comm] using outside)
      | _ => exact unchanged
  | insertAlert row =>
      cases ref with
      | alert id =>
          exact Table.find_insert_other (by simpa [Write.footprint, eq_comm] using outside)
      | _ => exact unchanged
  | updateDriver loaded current =>
      cases ref with
      | driver id =>
          exact Table.find_update_other (by simp)
            (by simpa [Write.footprint, eq_comm] using outside)
      | _ => exact unchanged
  | updateDeadline loaded current =>
      cases ref with
      | deadline id =>
          exact Table.find_update_other (by simp)
            (by simpa [Write.footprint, eq_comm] using outside)
      | _ => exact unchanged
  | updateUser loaded current =>
      cases ref with
      | accountUser id =>
          exact Table.find_update_other (by simp)
            (by simpa [Write.footprint, eq_comm] using outside)
      | _ => exact unchanged
  | updateCompany loaded current =>
      cases ref with
      | company id =>
          exact Table.find_update_other (by simp)
            (by simpa [Write.footprint, eq_comm] using outside)
      | _ => exact unchanged
  | revokeSessions ids now =>
      cases ref with
      | userSession id =>
          exact find_foldl_update ids (fun row : UserSession => { row with revokedAt := some now })
            (fun _ => rfl) _ (by simpa [Write.footprint] using outside)
      | _ => exact unchanged
  | acceptInvitations ids now =>
      cases ref with
      | invitation id =>
          exact find_foldl_update ids (fun row : Invitation => { row with acceptedAt := some now })
            (fun _ => rfl) _ (by simpa [Write.footprint] using outside)
      | _ => exact unchanged

theorem find_foldl_update_congr {Row : Type} [Library.Keyed Row Uuid] (ids : List Uuid)
    (change : Row → Row) (keeps : ∀ row, Library.Keyed.key (change row) = Library.Keyed.key row)
    {before after : Table Row} {wanted : Uuid}
    (same : after.find wanted = before.find wanted) :
    (ids.foldl (fun current id => current.update id change) after).find wanted =
      (ids.foldl (fun current id => current.update id change) before).find wanted := by
  induction ids generalizing before after with
  | nil => exact same
  | cons id rest inductionHypothesis =>
      rw [List.foldl_cons, List.foldl_cons]
      exact inductionHypothesis (Table.find_update_congr keeps same)

theorem Kept.apply {ref : Ref} {write : Write} {before after : Db}
    (own : ∀ inside ∈ Writes.footprint Db write, Kept inside before after)
    (kept : Kept ref before after) :
    Kept ref (Writes.apply write before) (Writes.apply write after) := by
  change ∀ inside ∈ write.footprint, Kept inside before after at own
  change Kept ref (write.apply before) (write.apply after)
  cases write with
  | insertCase row =>
      cases ref with
      | case id => exact Table.find_insert_congr kept
      | openCase driverId =>
          exact kept_openCase.mpr ((kept_openCase.mp kept).insert
            (own (.case row.id) (by simp [Write.footprint])))
      | _ => exact kept
  | updateCase change =>
      cases ref with
      | case id => exact Table.find_update_congr (by simp) kept
      | openCase driverId =>
          refine kept_openCase.mpr ((kept_openCase.mp kept).update (by simp) fun row taken => ?_)
          obtain ⟨isOpen, others⟩ := change.open_of_changed taken.2
          exact ⟨⟨taken.1, isOpen⟩, fun other old => ⟨old.1, others other old.2⟩⟩
      | _ => exact kept
  | insertOutbox row =>
      cases ref with
      | outbox id => exact Table.find_insert_congr kept
      | dedupKey key =>
          exact kept_dedupKey.mpr ((kept_dedupKey.mp kept).insert
            (own (.outbox row.id) (by simp [Write.footprint])))
      | _ => exact kept
  | updateOutbox loaded current =>
      cases ref with
      | outbox id => exact Table.find_update_congr (by simp) kept
      | dedupKey key =>
          exact kept_dedupKey.mpr ((kept_dedupKey.mp kept).update (by simp)
            fun _ taken => ⟨taken, fun _ old => old⟩)
      | _ => exact kept
  | deleteOutbox ids =>
      cases ref with
      | outbox id => exact Table.find_remove_congr kept
      | dedupKey key => exact kept_dedupKey.mpr (kept_dedupKey.mp kept).remove
      | _ => exact kept
  | insertLog row =>
      cases ref with
      | log id => exact Table.find_insert_congr kept
      | entryHash hash =>
          exact kept_entryHash.mpr ((kept_entryHash.mp kept).insert
            (own (.log row.id) (by simp [Write.footprint])))
      | _ => exact kept
  | insertDriver row =>
      cases ref with
      | driver id => exact Table.find_insert_congr kept
      | _ => exact kept
  | updateDriver loaded current =>
      cases ref with
      | driver id => exact Table.find_update_congr (by simp) kept
      | _ => exact kept
  | insertVehicle row =>
      cases ref with
      | vehicle id => exact Table.find_insert_congr kept
      | _ => exact kept
  | insertDeadline row =>
      cases ref with
      | deadline id => exact Table.find_insert_congr kept
      | _ => exact kept
  | updateDeadline loaded current =>
      cases ref with
      | deadline id => exact Table.find_update_congr (by simp) kept
      | _ => exact kept
  | insertAlert row =>
      cases ref with
      | alert id => exact Table.find_insert_congr kept
      | _ => exact kept
  | updateUser loaded current =>
      cases ref with
      | accountUser id => exact Table.find_update_congr (by simp) kept
      | _ => exact kept
  | updateCompany loaded current =>
      cases ref with
      | company id => exact Table.find_update_congr (by simp) kept
      | _ => exact kept
  | revokeSessions ids now =>
      cases ref with
      | userSession id =>
          exact find_foldl_update_congr ids (fun row : UserSession =>
            { row with revokedAt := some now }) (fun _ => rfl) kept
      | _ => exact kept
  | acceptInvitations ids now =>
      cases ref with
      | invitation id =>
          exact find_foldl_update_congr ids (fun row : Invitation =>
            { row with acceptedAt := some now }) (fun _ => rfl) kept
      | _ => exact kept

private theorem requireNew_kept {Row : Type} [Library.Keyed Row Uuid] {before after : Table Row}
    {row : Row} (kept : after.find (Library.Keyed.key row) = before.find (Library.Keyed.key row))
    (valid : requireNew before row = .ok ()) : requireNew after row = .ok () := by
  rwa [requireNew, kept]

theorem Kept.valid {write : Write} {before after : Db}
    (own : ∀ inside ∈ Writes.footprint Db write, Kept inside before after)
    (valid : Writes.Valid write before) : Writes.Valid write after := by
  change ∀ inside ∈ write.footprint, Kept inside before after at own
  change write.check before = .ok () at valid
  change write.check after = .ok ()
  cases write with
  | insertDriver row =>
      simp only [Write.check, require_then_eq_ok] at valid ⊢
      exact ⟨valid.1, requireNew_kept (own (.driver row.id) (by simp [Write.footprint])) valid.2⟩
  | updateDriver loaded current =>
      have kept : after.drivers.find loaded.id = before.drivers.find loaded.id :=
        own (.driver loaded.id) (by simp [Write.footprint])
      simpa only [Write.check, kept] using valid
  | insertVehicle row =>
      simp only [Write.check, require_then_eq_ok] at valid ⊢
      exact ⟨valid.1, requireNew_kept (own (.vehicle row.id) (by simp [Write.footprint])) valid.2⟩
  | insertDeadline row =>
      exact requireNew_kept (own (.deadline row.id) (by simp [Write.footprint])) valid
  | updateDeadline loaded current =>
      have kept : after.deadlines.find loaded.id = before.deadlines.find loaded.id :=
        own (.deadline loaded.id) (by simp [Write.footprint])
      simpa only [Write.check, kept] using valid
  | insertCase row =>
      have entry := own (.openCase row.driverId) (by simp [Write.footprint])
      simp only [Write.check, requireNew, require_then_eq_ok, require_eq_ok, List.all_eq_true,
        decide_eq_true_eq] at valid ⊢
      refine ⟨?_, fun stored member both => ?_⟩
      · have kept : after.cases.find row.id = before.cases.find row.id :=
          own (.case row.id) (by simp [Write.footprint])
        simpa [kept] using valid.1
      · obtain ⟨old, oldIn, _, rest⟩ := entry stored member both.1 both.2
        exact valid.2 old oldIn rest
  | updateCase change =>
      have kept : after.cases.find change.loaded.id = before.cases.find change.loaded.id :=
        own (.case change.loaded.id) (by simp [Write.footprint])
      simpa only [Write.check, kept] using valid
  | insertAlert row =>
      simp only [Write.check, require_then_eq_ok] at valid ⊢
      exact ⟨valid.1, requireNew_kept (own (.alert row.id) (by simp [Write.footprint])) valid.2⟩
  | insertOutbox row =>
      have entry := own (.dedupKey row.dedupKey) (by simp [Write.footprint])
      simp only [Write.check, requireNew, require_then_eq_ok, require_eq_ok, List.all_eq_true,
        decide_eq_true_eq] at valid ⊢
      refine ⟨valid.1, ?_, fun stored member same => ?_⟩
      · have kept : after.outbox.find row.id = before.outbox.find row.id :=
          own (.outbox row.id) (by simp [Write.footprint])
        simpa [kept] using valid.2.1
      · obtain ⟨old, oldIn, _, oldSame⟩ := entry stored member same
        exact valid.2.2 old oldIn oldSame
  | updateOutbox loaded current =>
      have kept : after.outbox.find loaded.id = before.outbox.find loaded.id :=
        own (.outbox loaded.id) (by simp [Write.footprint])
      simpa only [Write.check, kept] using valid
  | deleteOutbox ids => rfl
  | insertLog row =>
      have entry := own (.entryHash row.entryHash) (by simp [Write.footprint])
      simp only [Write.check, requireNew, require_then_eq_ok, require_eq_ok, List.all_eq_true,
        decide_eq_true_eq] at valid ⊢
      refine ⟨valid.1, ?_, fun stored member same => ?_⟩
      · have kept : after.checkLog.find row.id = before.checkLog.find row.id :=
          own (.log row.id) (by simp [Write.footprint])
        simpa [kept] using valid.2.1
      · obtain ⟨old, oldIn, _, oldSame⟩ := entry stored member same
        exact valid.2.2 old oldIn oldSame
  | updateUser loaded current =>
      have kept : after.accountUsers.find loaded.id = before.accountUsers.find loaded.id :=
        own (.accountUser loaded.id) (by simp [Write.footprint])
      simpa only [Write.check, kept] using valid
  | updateCompany loaded current =>
      have kept : after.companies.find loaded.id = before.companies.find loaded.id :=
        own (.company loaded.id) (by simp [Write.footprint])
      simpa only [Write.check, kept] using valid
  | revokeSessions ids now => rfl
  | acceptInvitations ids now => rfl

end Fristenwaechter
