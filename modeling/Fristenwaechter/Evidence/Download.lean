import Mathlib.Data.List.Perm.Subperm
import Fristenwaechter.Evidence.Encoding
import Fristenwaechter.Library.Csv
import Fristenwaechter.Lockout.Safety
import Fristenwaechter.Web.Dsgvo

/-!
Owns `export_csv` of `app/web/dsgvo.py`: the evidence log of a company as a download. A
reader of the file gets back every row, whatever texts the forms have put into it, and no
row that was once downloaded is missing later.
-/

namespace Fristenwaechter

open Library (Config Csv.Dialect Reachable Sound)

/-! ### The download -/

/-- The default dialect of the `csv` module. -/
def excel : Csv.Dialect Char where
  delimiter := ','
  quote := '"'
  carriage := '\r'
  newline := '\n'
  distinct := by decide

/-- `datetime.isoformat`, in UTC. -/
def Timestamp.isoformat (t : Timestamp) : Str :=
  let second := t.instant % microsPerDay / microsPerSecond
  let micros := (t.instant % microsPerSecond).toNat
  let day := (Date.ofOrdinal? (t.instant / microsPerDay + epochOrdinal)).elim [] Date.isoformat
  day ++ 'T' :: (twoDigits (second / 3600).toNat ++ ':' ::
    (twoDigits (second / 60 % 60).toNat ++ ':' :: (twoDigits (second % 60).toNat ++
      ((if micros = 0 then [] else '.' :: digits 10 6 micros) ++ "+00:00".toList))))

/-- A `timestamptz` that is no `datetime` cannot be loaded. -/
def loadTimestamp (instant : Instant) : Except Error Timestamp :=
  if valid : InCalendar instant then .ok ⟨instant, valid⟩ else .error .overflow

def csvHeader : List Str :=
  ["created_at".toList, "kind".toList, "result".toList, "method".toList, "driver_id".toList,
    "performed_on".toList, "prev_hash".toList, "entry_hash".toList]

/-- `text or ""`, as the row of the file has it. -/
def orEmpty (text : Option Str) : Str :=
  text.getD []

/-- The row that `export_csv` writes for an entry. -/
def ComplianceCheckLog.csvRow (entry : ComplianceCheckLog) : Except Error (List Str) := do
  let createdAt ← loadTimestamp entry.createdAt
  return [createdAt.isoformat, entry.kind, entry.result, orEmpty entry.method,
    orEmpty (entry.driverId.map Uuid.text), entry.performedOn.isoformat, orEmpty entry.prevHash,
    entry.entryHash]

/-- `export_csv`, with what its query has returned. -/
def exportCsv (user : AccountUser) (logs : List ComplianceCheckLog) : Except Error Str := do
  if user.role ≠ .owner then throw .forbidden
  let rows ← logs.mapM ComplianceCheckLog.csvRow
  return excel.write (csvHeader :: rows)

/-- An answer to the query: the entries of the company, `ORDER BY created_at`. The order of
entries of one instant is left open. -/
structure AnswersLogs (db : Db) (companyId : Uuid) (logs : List ComplianceCheckLog) : Prop where
  own : logs.Perm (db.checkLog.rows.filter fun entry => entry.companyId = companyId)
  ordered : logs.Pairwise fun first second => first.createdAt ≤ second.createdAt

/-! ### What a row tells -/

theorem fraction_inj {one two : Nat} (first : one < 1000000) (second : two < 1000000)
    (same : (if one = 0 then [] else '.' :: digits 10 6 one) ++ "+00:00".toList =
      (if two = 0 then [] else '.' :: digits 10 6 two) ++ "+00:00".toList) : one = two := by
  have bare := List.append_cancel_right same
  by_cases firstZero : one = 0
  · by_cases secondZero : two = 0
    · rw [firstZero, secondZero]
    · rw [if_pos firstZero, if_neg secondZero] at bare
      exact absurd bare (List.cons_ne_nil _ _).symm
  · by_cases secondZero : two = 0
    · rw [if_neg firstZero, if_pos secondZero] at bare
      exact absurd bare (List.cons_ne_nil _ _)
    · rw [if_neg firstZero, if_neg secondZero] at bare
      have sameDigits := digits_inj (by decide) (by decide) (List.cons.inj bare).2
      omega

theorem Timestamp.day (t : Timestamp) :
    ∃ day, Date.ofOrdinal? (t.instant / microsPerDay + epochOrdinal) = some day := by
  obtain ⟨low, high⟩ := t.valid
  simp only [microsPerDay, microsPerSecond, epochOrdinal] at low high ⊢
  apply ofOrdinal_isSome
  · omega
  · omega

theorem secondOfDay_inj {first second : Int} (firstLow : 0 ≤ first) (firstHigh : first < 86400)
    (secondLow : 0 ≤ second) (secondHigh : second < 86400)
    (hours : (first / 3600).toNat % 10 ^ 2 = (second / 3600).toNat % 10 ^ 2)
    (minutes : (first / 60 % 60).toNat % 10 ^ 2 = (second / 60 % 60).toNat % 10 ^ 2)
    (seconds : (first % 60).toNat % 10 ^ 2 = (second % 60).toNat % 10 ^ 2) : first = second := by
  have sameHours : first / 3600 = second / 3600 := by omega
  have sameMinutes : first / 60 % 60 = second / 60 % 60 := by omega
  have sameSeconds : first % 60 = second % 60 := by omega
  omega

theorem clock_inj {first second : Int}
    (days : first / microsPerDay + epochOrdinal = second / microsPerDay + epochOrdinal)
    (hours : (first % microsPerDay / microsPerSecond / 3600).toNat % 10 ^ 2 =
      (second % microsPerDay / microsPerSecond / 3600).toNat % 10 ^ 2)
    (minutes : (first % microsPerDay / microsPerSecond / 60 % 60).toNat % 10 ^ 2 =
      (second % microsPerDay / microsPerSecond / 60 % 60).toNat % 10 ^ 2)
    (seconds : (first % microsPerDay / microsPerSecond % 60).toNat % 10 ^ 2 =
      (second % microsPerDay / microsPerSecond % 60).toNat % 10 ^ 2)
    (micros : (first % microsPerSecond).toNat = (second % microsPerSecond).toNat) :
    first = second := by
  have inDay : ∀ t : Int, 0 ≤ t % microsPerDay / microsPerSecond ∧
      t % microsPerDay / microsPerSecond < 86400 := by
    intro t
    simp only [microsPerDay, microsPerSecond]
    omega
  have clock := secondOfDay_inj (inDay first).1 (inDay first).2 (inDay second).1 (inDay second).2
    hours minutes seconds
  simp only [microsPerDay, microsPerSecond] at days clock micros
  omega

theorem Timestamp.isoformat_inj {first second : Timestamp}
    (same : first.isoformat = second.isoformat) : first.instant = second.instant := by
  obtain ⟨firstDay, isFirst⟩ := first.day
  obtain ⟨secondDay, isSecond⟩ := second.day
  simp only [Timestamp.isoformat, isFirst, isSecond, Option.elim, twoDigits] at same
  obtain ⟨sameDay, same⟩ := List.append_inj same (by simp [Date.isoformat, twoDigits])
  obtain ⟨hours, same⟩ := digits_append_inj (by decide) (by decide) (List.cons.inj same).2
  obtain ⟨minutes, same⟩ := digits_append_inj (by decide) (by decide) (List.cons.inj same).2
  obtain ⟨seconds, same⟩ := digits_append_inj (by decide) (by decide) (List.cons.inj same).2
  have micros := fraction_inj (by simp only [microsPerSecond]; omega)
    (by simp only [microsPerSecond]; omega) same
  have sameOrdinal : first.instant / microsPerDay + epochOrdinal =
      second.instant / microsPerDay + epochOrdinal := by
    rw [← toOrdinal_ofOrdinal isFirst, ← toOrdinal_ofOrdinal isSecond,
      Date.isoformat_inj sameDay]
  exact clock_inj sameOrdinal hours minutes seconds micros

/-- Two entries cannot be told apart in the file: an absent text is printed like an empty
one. -/
structure ComplianceCheckLog.SameColumns (entry other : ComplianceCheckLog) : Prop where
  createdAt : entry.createdAt = other.createdAt
  kind : entry.kind = other.kind
  result : entry.result = other.result
  method : orEmpty entry.method = orEmpty other.method
  driverId : entry.driverId = other.driverId
  performedOn : entry.performedOn = other.performedOn
  prevHash : orEmpty entry.prevHash = orEmpty other.prevHash
  entryHash : entry.entryHash = other.entryHash

theorem optionalId_inj {first second : Option Uuid}
    (same : orEmpty (first.map Uuid.text) = orEmpty (second.map Uuid.text)) : first = second := by
  have someText : ∀ id : Uuid, id.text ≠ [] := by
    intro id isEmpty
    have length := id.text_length
    rw [isEmpty] at length
    exact absurd length (by decide)
  cases first with
  | none =>
      cases second with
      | none => rfl
      | some id => exact absurd same.symm (someText id)
  | some id =>
      cases second with
      | none => exact absurd same (someText id)
      | some other => exact congrArg some (Uuid.text_inj same)

theorem csvRow_eq_ok {entry : ComplianceCheckLog} {row : List Str} :
    entry.csvRow = .ok row ↔ ∃ valid : InCalendar entry.createdAt,
      row = [Timestamp.isoformat ⟨entry.createdAt, valid⟩, entry.kind, entry.result,
        orEmpty entry.method, orEmpty (entry.driverId.map Uuid.text), entry.performedOn.isoformat,
        orEmpty entry.prevHash, entry.entryHash] := by
  unfold ComplianceCheckLog.csvRow loadTimestamp
  by_cases valid : InCalendar entry.createdAt
  · rw [dif_pos valid]
    constructor
    · intro same
      exact ⟨valid, (Except.ok.inj same).symm⟩
    · rintro ⟨_, rfl⟩
      rfl
  · rw [dif_neg valid]
    constructor
    · intro same
      cases same
    · rintro ⟨inside, _⟩
      exact absurd inside valid

theorem csvRow_inj {entry other : ComplianceCheckLog} {row : List Str}
    (printed : entry.csvRow = .ok row) (otherPrinted : other.csvRow = .ok row) :
    entry.SameColumns other := by
  obtain ⟨valid, isRow⟩ := csvRow_eq_ok.mp printed
  obtain ⟨otherValid, isOther⟩ := csvRow_eq_ok.mp otherPrinted
  rw [isRow] at isOther
  simp only [List.cons.injEq, and_true] at isOther
  obtain ⟨createdAt, kind, result, method, driverId, performedOn, prevHash, entryHash⟩ := isOther
  exact ⟨Timestamp.isoformat_inj createdAt, kind, result, method, optionalId_inj driverId,
    Date.isoformat_inj performedOn, prevHash, entryHash⟩

/-! ### What the file tells -/

theorem mapM_csvRow {logs : List ComplianceCheckLog} {rows : List (List Str)}
    (printed : logs.mapM ComplianceCheckLog.csvRow = .ok rows) :
    List.Forall₂ (fun entry row => entry.csvRow = .ok row) logs rows := by
  induction logs generalizing rows with
  | nil =>
      cases printed
      exact .nil
  | cons entry rest inductionHypothesis =>
      rw [List.mapM_cons] at printed
      cases first : entry.csvRow with
      | error error =>
          rw [first] at printed
          cases printed
      | ok row =>
          cases remaining : rest.mapM ComplianceCheckLog.csvRow with
          | error error =>
              rw [first, remaining] at printed
              cases printed
          | ok others =>
              rw [first, remaining] at printed
              cases printed
              exact .cons first (inductionHypothesis remaining)

/-- Reading the file gives back the header and the row of every entry. -/
theorem exportCsv_read {user : AccountUser} {logs : List ComplianceCheckLog} {text : Str}
    (downloaded : exportCsv user logs = .ok text) :
    ∃ rows, excel.read text = csvHeader :: rows ∧
      List.Forall₂ (fun entry row => entry.csvRow = .ok row) logs rows := by
  unfold exportCsv at downloaded
  split at downloaded
  · cases downloaded
  · cases printed : logs.mapM ComplianceCheckLog.csvRow with
    | error error =>
        rw [printed] at downloaded
        cases downloaded
    | ok rows =>
        rw [printed] at downloaded
        cases downloaded
        exact ⟨rows, Library.Csv.read_write _, mapM_csvRow printed⟩

theorem row_of_entry {logs : List ComplianceCheckLog} {rows : List (List Str)}
    (printed : List.Forall₂ (fun entry row => entry.csvRow = .ok row) logs rows)
    {entry : ComplianceCheckLog} (member : entry ∈ logs) :
    ∃ row ∈ rows, entry.csvRow = .ok row := by
  induction printed with
  | nil => cases member
  | cons first _ inductionHypothesis =>
      rcases List.mem_cons.mp member with rfl | behind
      · exact ⟨_, List.mem_cons_self, first⟩
      · obtain ⟨row, rowIn, isRow⟩ := inductionHypothesis behind
        exact ⟨row, List.mem_cons_of_mem _ rowIn, isRow⟩

theorem rows_subperm {logs laterLogs : List ComplianceCheckLog} {rows laterRows : List (List Str)}
    (kept : logs.Subperm laterLogs)
    (printed : List.Forall₂ (fun entry row => entry.csvRow = .ok row) logs rows)
    (laterPrinted : List.Forall₂ (fun entry row => entry.csvRow = .ok row) laterLogs laterRows) :
    rows.Subperm laterRows := by
  let rowOf (entry : ComplianceCheckLog) : List Str := entry.csvRow.toOption.getD []
  have isMap : ∀ {logs rows}, List.Forall₂ (fun (entry : ComplianceCheckLog) row =>
      entry.csvRow = .ok row) logs rows → rows = logs.map rowOf := by
    intro logs rows all
    induction all with
    | nil => rfl
    | cons first _ inductionHypothesis =>
        rw [List.map_cons, ← inductionHypothesis]
        simp [rowOf, first, Except.toOption]
  rw [isMap printed, isMap laterPrinted]
  obtain ⟨middle, same, inside⟩ := kept
  exact ⟨middle.map rowOf, same.map rowOf, inside.map rowOf⟩

/-! ### Runs -/

variable {sha256 : Str → Str} {validateKennzeichen : Str → Option Str}

/-- **The download is faithful.** Whatever the texts in the log, reading the file with the
`csv` module gives back exactly one row for each entry of the company, a row tells all
columns of its entry, and every row that was downloaded at some moment of a run is in every
later download. -/
theorem download_faithful {world : World} (consistent : Consistent world)
    {config later : Config World Memory Connection Statement Answer Env Error Request Outcome}
    (reached : Reachable (system sha256 validateKennzeichen) .unrestricted ⟨world, [], []⟩ config)
    (continued : Reachable (system sha256 validateKennzeichen) .unrestricted config later)
    {user colleague : AccountUser} (sameCompany : colleague.companyId = user.companyId)
    {logs laterLogs : List ComplianceCheckLog}
    (answered : AnswersLogs config.world.db user.companyId logs)
    (laterAnswered : AnswersLogs later.world.db colleague.companyId laterLogs)
    {text laterText : Str} (downloaded : exportCsv user logs = .ok text)
    (laterDownloaded : exportCsv colleague laterLogs = .ok laterText) :
    ∃ rows laterRows, excel.read text = csvHeader :: rows ∧
      excel.read laterText = csvHeader :: laterRows ∧
      List.Forall₂ (fun entry row => entry.csvRow = .ok row) logs rows ∧
      List.Forall₂ (fun entry row => entry.csvRow = .ok row) laterLogs laterRows ∧
      rows.Subperm laterRows ∧
      ∀ (entry other : ComplianceCheckLog) row, entry.csvRow = .ok row →
        other.csvRow = .ok row → entry.SameColumns other := by
  obtain ⟨rows, read, printed⟩ := exportCsv_read downloaded
  obtain ⟨laterRows, laterRead, laterPrinted⟩ := exportCsv_read laterDownloaded
  have sound := (Sound.reachable (system_laws sha256 validateKennzeichen)
    (lockoutDiscipline sha256 validateKennzeichen .unrestricted) (.quiet consistent) reached).1
  have evolved := (sound.reachable (system_laws sha256 validateKennzeichen)
    (lockoutDiscipline sha256 validateKennzeichen .unrestricted) continued).2
  have kept : logs.Subperm laterLogs := by
    have stored : config.world.db.checkLog.rows <+: later.world.db.checkLog.rows :=
      evolved.persists.checkLog
    have own := stored.sublist.filter fun entry => decide (entry.companyId = user.companyId)
    have laterOwn := laterAnswered.own
    rw [sameCompany] at laterOwn
    exact answered.own.subperm_right.mpr (laterOwn.subperm_left.mpr own.subperm)
  exact ⟨rows, laterRows, read, laterRead, printed, laterPrinted,
    rows_subperm kept printed laterPrinted, fun _ _ _ => csvRow_inj⟩

def Db.logsOf (db : Db) (companyId : Uuid) : List ComplianceCheckLog :=
  db.checkLog.rows.filter fun entry => entry.companyId = companyId

/-- An inspection with a comma and quotes in its result. -/
def quotedInspection : Request :=
  .recordVehicleCheck fleetOwner (fleetId 9) [("kind".toList, "UVV".toList),
    ("result".toList, "Mängel, \"leicht\"".toList), ("performed_on".toList, "2026-01-01".toList)]

def quotedRun : List (Library.Choice Env Request) :=
  .start quotedInspection :: fleetRun 0 1 13 ++ [.finish 0]

def failedRun : List (Library.Choice Env Request) :=
  .start (fleetCheck "FAILED".toList) :: fleetRun 0 60 46 ++ [.finish 0]

def Db.downloads (db : Db) (user : AccountUser) (length : Nat) : Bool :=
  decide ((db.logsOf user.companyId).length = length ∧ (db.logsOf user.companyId).Pairwise
    fun first second => first.createdAt ≤ second.createdAt) &&
  (exportCsv user (db.logsOf user.companyId)).isOk

theorem Db.downloads_spec {db : Db} {user : AccountUser} {length : Nat}
    (found : db.downloads user length = true) :
    ∃ text, exportCsv user (db.logsOf user.companyId) = .ok text ∧
      AnswersLogs db user.companyId (db.logsOf user.companyId) ∧
      (db.logsOf user.companyId).length = length := by
  obtain ⟨log, isOk⟩ := (Bool.and_eq_true _ _).mp found
  obtain ⟨count, ordered⟩ := of_decide_eq_true log
  cases downloaded : exportCsv user (db.logsOf user.companyId) with
  | error error =>
      rw [downloaded] at isOk
      cases isOk
  | ok text => exact ⟨text, rfl, ⟨.refl _, ordered⟩, count⟩

/-- The inspection is in the download before the FAILED check and in the one after it, and
its result is read back as it was written. -/
theorem download_faithful_failed :
    ∃ config later text laterText rows laterRows,
      (system id some).schedule ⟨fleetWorld, [], []⟩ quotedRun = some config ∧
      (system id some).schedule config failedRun = some later ∧
      exportCsv fleetOwner (config.world.db.logsOf fleetOwner.companyId) = .ok text ∧
      exportCsv fleetOwner (later.world.db.logsOf fleetOwner.companyId) = .ok laterText ∧
      excel.read text = csvHeader :: rows ∧ excel.read laterText = csvHeader :: laterRows ∧
      rows.length = 1 ∧ laterRows.length = 2 ∧ rows.Subperm laterRows ∧
      ∃ row ∈ rows, "Mängel, \"leicht\"".toList ∈ row := by
  have found : ((system id some).schedule ⟨fleetWorld, [], []⟩ quotedRun).any (fun config =>
      config.world.db.downloads fleetOwner 1 &&
        (config.world.db.logsOf fleetOwner.companyId).any (fun entry =>
          entry.result = "Mängel, \"leicht\"".toList) &&
        ((system id some).schedule config failedRun).any fun later =>
          later.world.db.downloads fleetOwner 2) = true := by
    decide +kernel
  obtain ⟨config, ran, stands⟩ := (Option.any_eq_true _ _).mp found
  obtain ⟨early, late⟩ := (Bool.and_eq_true _ _).mp stands
  obtain ⟨begun, quoted⟩ := (Bool.and_eq_true _ _).mp early
  obtain ⟨later, continued, ended⟩ := (Option.any_eq_true _ _).mp late
  obtain ⟨text, downloaded, answered, one⟩ := Db.downloads_spec begun
  obtain ⟨laterText, laterDownloaded, laterAnswered, two⟩ := Db.downloads_spec ended
  obtain ⟨entry, entryIn, isQuoted⟩ := List.any_eq_true.mp quoted
  obtain ⟨rows, laterRows, read, laterRead, printed, laterPrinted, kept, _⟩ :=
    download_faithful fleetWorld_consistent (Reachable.of_schedule ran)
      (Reachable.of_schedule continued) rfl answered laterAnswered downloaded laterDownloaded
  obtain ⟨row, rowIn, isRow⟩ := row_of_entry printed entryIn
  obtain ⟨_, columns⟩ := csvRow_eq_ok.mp isRow
  refine ⟨config, later, text, laterText, rows, laterRows, ran, continued, downloaded,
    laterDownloaded, read, laterRead, printed.length_eq ▸ one, laterPrinted.length_eq ▸ two, kept,
    row, rowIn, ?_⟩
  rw [columns, ← of_decide_eq_true isQuoted]
  simp

end Fristenwaechter
