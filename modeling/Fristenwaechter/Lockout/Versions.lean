import Fristenwaechter.Library.History
import Fristenwaechter.Lockout.Submissions
import Fristenwaechter.Relay.Enqueueing

/-!
Owns the log of the system and optimistic locking on top of it: the committed updates of a
driver have been made from consecutive versions, so none of them has overwritten another
that it had not seen.
-/

namespace Fristenwaechter

open Library (Config Ended Journal Journalled Reachable Sound Table)

variable {sha256 : Str → Str} {validateKennzeichen : Str → Option Str}

/-! ### The log -/

def committedWrites
    (config : Config World Memory Connection Statement Answer Env Error Request Outcome) :
    List Write :=
  config.log Connection.journal

theorem system_journalled :
    Journalled (system sha256 validateKennzeichen) readCommitted World.db Connection.journal where
  advance _ _ := rfl
  commit _ _ := rfl
  ready := id

/-! ### Versions -/

/-- The version that a committed update of the driver was made from. -/
def Write.loadedVersion (driverId : Uuid) : Write → Option Nat
  | .updateDriver loaded _ => if loaded.id = driverId then some loaded.versionId else none
  | _ => none

/-- A new driver has the first version. -/
def Write.StartsVersion : Write → Prop
  | .insertDriver row => row.versionId = 1
  | _ => True

section Logs

variable {db : Db} {log : List Write} {write : Write} {driverId : Uuid}

theorem updateDriver_stored {loaded current : Driver}
    (valid : (Write.updateDriver loaded current).check db = .ok ()) :
    ∃ stored ∈ db.drivers, stored.id = loaded.id ∧ stored.versionId = loaded.versionId := by
  simp only [Write.check, require_then_eq_ok, require_eq_ok] at valid
  obtain ⟨stored, found, sameVersion⟩ := (Option.any_eq_true _ _).mp valid.2
  exact ⟨stored, Table.mem_of_find found, Table.key_of_find found, of_decide_eq_true sameVersion⟩

theorem loadedVersions_absent (replays : Journal.Replays log db)
    (absent : ∀ row ∈ (db.after log).drivers, row.id ≠ driverId) :
    log.filterMap (Write.loadedVersion driverId) = [] := by
  induction log using List.reverseRecOn with
  | nil => rfl
  | append_singleton log write inductionHypothesis =>
      obtain ⟨before, valid, _⟩ := Journal.replays_append.mp replays
      have persists : Persists (db.after log) (db.after (log ++ [write])) := by
        rw [Db.after_append]
        exact Write.persists valid
      have absentBefore : ∀ row ∈ (db.after log).drivers, row.id ≠ driverId := by
        intro row member same
        obtain ⟨later, laterIn, follows⟩ := persists.drivers row member
        exact absent later laterIn (follows.id.trans same)
      rw [List.filterMap_append, inductionHypothesis before absentBefore, List.nil_append]
      cases write with
      | updateDriver loaded current =>
          obtain ⟨stored, storedIn, sameId, _⟩ := updateDriver_stored valid
          have other : loaded.id ≠ driverId := fun same =>
            absentBefore stored storedIn (sameId.trans same)
          simp [Write.loadedVersion, other]
      | _ => rfl

/-- **The log of a driver** counts its version up, from the one it had or from 1. -/
theorem versions_consecutive (replays : Journal.Replays log db)
    (starts : ∀ write ∈ log, write.StartsVersion) {row : Driver}
    (member : row ∈ (db.after log).drivers) :
    ∃ first, first ≤ row.versionId ∧
      log.filterMap (Write.loadedVersion row.id) = List.range' first (row.versionId - first) ∧
      ((∃ old ∈ db.drivers, old.id = row.id ∧ old.versionId = first) ∨
        first = 1 ∧ ∀ old ∈ db.drivers, old.id ≠ row.id) := by
  induction log using List.reverseRecOn generalizing row with
  | nil => exact ⟨row.versionId, le_refl _, by simp, .inl ⟨row, member, rfl, rfl⟩⟩
  | append_singleton log write inductionHypothesis =>
      obtain ⟨before, valid, _⟩ := Journal.replays_append.mp replays
      have startsBefore : ∀ other ∈ log, other.StartsVersion := fun other inLog =>
        starts other (List.mem_append_left _ inLog)
      rw [Db.after_append] at member
      rw [List.filterMap_append]
      -- a write that does not touch the row
      have kept : ∀ old ∈ (db.after log).drivers, old = row →
          write.loadedVersion row.id = none → ∃ first, first ≤ row.versionId ∧
            log.filterMap (Write.loadedVersion row.id) ++
              [write].filterMap (Write.loadedVersion row.id) =
                List.range' first (row.versionId - first) ∧
            ((∃ old ∈ db.drivers, old.id = row.id ∧ old.versionId = first) ∨
              first = 1 ∧ ∀ old ∈ db.drivers, old.id ≠ row.id) := by
        rintro old oldIn rfl noVersion
        obtain ⟨first, upTo, versions, origin⟩ := inductionHypothesis before startsBefore oldIn
        exact ⟨first, upTo, by simpa [noVersion] using versions, origin⟩
      cases write with
      | insertDriver new =>
          rcases Table.mem_insert.mp member with old | ⟨rfl, free⟩
          · exact kept row old rfl rfl
          · have isFirst : row.versionId = 1 := starts (.insertDriver row) (by simp)
            have absent : ∀ old ∈ (db.after log).drivers, old.id ≠ row.id :=
              Table.find_eq_none.mp free
            have noneBefore : ∀ old ∈ db.drivers, old.id ≠ row.id := by
              intro old oldIn same
              have persists : Persists db (db.after log) := persists_after before
              obtain ⟨later, laterIn, follows⟩ := persists.drivers old oldIn
              exact absent later laterIn (follows.id.trans same)
            refine ⟨1, by omega, ?_, .inr ⟨rfl, noneBefore⟩⟩
            rw [loadedVersions_absent before absent, isFirst]
            rfl
      | updateDriver loaded current =>
          obtain ⟨old, oldIn, same⟩ := (Table.mem_update (by simp)).mp member
          obtain ⟨stored, storedIn, sameId, sameVersion⟩ := updateDriver_stored valid
          rw [Driver.key_eq] at same
          by_cases isRow : old.id = loaded.id
          · have isStored : old = stored := Table.eq_of_key oldIn storedIn (isRow.trans sameId.symm)
            rw [if_pos isRow] at same
            subst same isStored
            obtain ⟨first, upTo, versions, origin⟩ := inductionHypothesis before startsBefore oldIn
            -- the row has just left the version that the update was made from
            have next : (Driver.changed loaded current old).versionId - first =
                (old.versionId - first) + 1 := by
              change loaded.versionId + 1 - first = _
              omega
            refine ⟨first, ?_, ?_, origin⟩
            · change first ≤ loaded.versionId + 1
              omega
            · have isLoaded : first + 1 * (old.versionId - first) = loaded.versionId := by omega
              rw [next, List.range'_concat, isLoaded, ← versions]
              simp [Write.loadedVersion, Driver.changed, isRow]
          · have other : loaded.id ≠ old.id := fun same => isRow same.symm
            rw [if_neg isRow] at same
            subst same
            exact kept row oldIn rfl (by simp [Write.loadedVersion, other])
      | _ => exact kept row member rfl rfl

end Logs

/-! ### Runs -/

theorem grants_startsVersion : Grants Write.StartsVersion where
  log _ := trivial
  unlocked _ := trivial
  resolved _ := trivial
  completed _ _ := trivial
  successor _ := trivial
  driver _ _ _ _ _ := rfl
  vehicle _ := trivial
  locked _ _ := trivial
  case _ := trivial
  alert _ _ _ _ _ := trivial
  failed _ _ _ _ _ _ _ := trivial
  breached _ _ _ _ _ := trivial
  nagged _ _ _ _ _ _ := trivial
  reminded _ _ _ _ _ _ _ _ _ _ := trivial
  anonymized _ _ _ := trivial
  user _ _ := trivial
  company _ _ := trivial
  outbox _ := trivial
  sessions _ _ := trivial
  invitations _ _ := trivial

theorem mem_committedWrites
    {config : Config World Memory Connection Statement Answer Env Error Request Outcome}
    {write : Write} : write ∈ committedWrites config ↔
      ∃ done ∈ config.ended, (∃ result, done.outcome = some (.ok result)) ∧
        write ∈ Session.writes done.transaction :=
  Config.mem_log

/-- **No update of a driver is lost.** In every run, the committed updates of a driver have
been made from consecutive versions, each of them once: from the version the driver had at
the beginning, or from 1 where the run has created it, up to the one it has now. -/
theorem driver_updates_consecutive {world : World} (consistent : Consistent world)
    {config : Config World Memory Connection Statement Answer Env Error Request Outcome}
    (reached : Reachable (system sha256 validateKennzeichen) .unrestricted ⟨world, [], []⟩ config)
    {row : Driver} (member : row ∈ config.world.db.drivers) :
    ∃ first, first ≤ row.versionId ∧
      (committedWrites config).filterMap (Write.loadedVersion row.id) =
        List.range' first (row.versionId - first) ∧
      ((∃ old ∈ world.db.drivers, old.id = row.id ∧ old.versionId = first) ∨
        first = 1 ∧ ∀ old ∈ world.db.drivers, old.id ≠ row.id) := by
  obtain ⟨replays, same⟩ := reached.log system_journalled (system_laws sha256 validateKennzeichen)
    (lockoutDiscipline sha256 validateKennzeichen .unrestricted) (.quiet consistent) rfl
  have sound := (Sound.reachable (system_laws sha256 validateKennzeichen)
    (lockoutDiscipline sha256 validateKennzeichen .unrestricted) (.quiet consistent) reached).1
  change config.world.db = world.db.after (committedWrites config) at same
  refine versions_consecutive replays (fun write committed => ?_) (same ▸ member)
  obtain ⟨done, inEnded, ⟨result, isOk⟩, executed⟩ := mem_committedWrites.mp committed
  obtain ⟨_, _, start, _, _, _, ends, _⟩ := sound.concluded done inEnded
  have ended := ends _ isOk
  by_cases relay : done.request = .relayOutbox
  · change postgres.Ends (transaction (done.request.body sha256 validateKennzeichen)) _ _ _ at ended
    rw [relay] at ended
    have updates : postgres.Preserves (OnlyEver Write.StartsVersion) relayOutbox :=
      only_relayOutbox (fun _ _ => trivial) fun _ _ _ => trivial
    have only := only_transaction (only_then updates fun _ => only_pure _) _ _ _ ended
      (.opening _ _)
    exact only.writes write executed
  · exact (request_only grants_startsVersion relay _ _ _ ended (.opening _ _)).writes write executed

/-- A FAILED check updates the driver from version 1, and the PASSED one after it from 2. -/
theorem driver_updates_consecutive_failed :
    ∃ config, (system id some).schedule ⟨fleetWorld, [], []⟩ (checkedTwice "PASSED" 25) =
        some config ∧
      ∃ row ∈ config.world.db.drivers,
        (committedWrites config).filterMap (Write.loadedVersion row.id) = [1, 2] := by
  have found : ((system id some).schedule ⟨fleetWorld, [], []⟩ (checkedTwice "PASSED" 25)).any
      (fun config => config.world.db.drivers.rows.any fun row => decide (row.versionId = 3)) =
        true := by decide +kernel
  obtain ⟨config, ran, stands⟩ := (Option.any_eq_true _ _).mp found
  obtain ⟨row, member, third⟩ := List.any_eq_true.mp stands
  obtain ⟨first, upTo, versions, origin⟩ := driver_updates_consecutive fleetWorld_consistent
    (Reachable.of_schedule ran) member
  have isFirst : first = 1 := by
    rcases origin with ⟨old, oldIn, _, isOld⟩ | ⟨isFirst, _⟩
    · have isDriver : old ∈ [fleetDriver] := oldIn
      rw [List.mem_singleton.mp isDriver] at isOld
      exact isOld.symm
    · exact isFirst
  rw [of_decide_eq_true third, isFirst] at versions
  exact ⟨config, ran, row, member, versions⟩

end Fristenwaechter
