import Fristenwaechter.Calendar.Windows
import Fristenwaechter.Json

/-!
Owns `_collect` of `app/web/dsgvo.py`: the export of a tenant, which reads its columns off
the mapped classes. The tables are those of `app/models.py` with all their columns; the
order of an unordered SELECT is that of the table.
-/

namespace Fristenwaechter

/-! ### Columns -/

inductive ColumnType where
  | uuid
  | timestamp
  | date
  | text
  | integer
  | boolean
  | jsonb
deriving DecidableEq

/-- A `datetime` in UTC, as the driver returns a `timestamptz`. -/
structure Timestamp where
  instant : Instant
  valid : InCalendar instant

/-- The Python values of a column. -/
def ColumnType.Value : ColumnType → Type
  | uuid => Uuid
  | timestamp => Timestamp
  | date => Date
  | text => Str
  | integer => Int
  | boolean => Bool
  | jsonb => List (Str × Json)

/-- `c.name` with the type of the column. -/
structure Column where
  name : String
  type : ColumnType
deriving DecidableEq

/-- The mapped classes that are exported. -/
inductive Model where
  | company
  | accountUser
  | driver
  | vehicle
  | deadline
  | escalationCase
  | complianceCheckLog
deriving DecidableEq

/-- `id` and `created_at`, which every table has. -/
def idColumns : List Column :=
  [⟨"id", .uuid⟩, ⟨"created_at", .timestamp⟩]

/-- `model.__table__.columns`; enumerations are stored and exported as text. -/
def Model.columns : Model → List Column
  | company => idColumns ++ [⟨"name", .text⟩, ⟨"plan", .text⟩,
      ⟨"driver_retention_months", .integer⟩, ⟨"deletion_requested_at", .timestamp⟩,
      ⟨"deleted_at", .timestamp⟩]
  | accountUser => idColumns ++ [⟨"company_id", .uuid⟩, ⟨"email", .text⟩, ⟨"role", .text⟩,
      ⟨"phone_e164", .text⟩, ⟨"is_active", .boolean⟩, ⟨"password_hash", .text⟩,
      ⟨"last_login_at", .timestamp⟩]
  | driver => idColumns ++ [⟨"company_id", .uuid⟩, ⟨"first_name", .text⟩, ⟨"last_name", .text⟩,
      ⟨"employment_start", .date⟩, ⟨"employment_end", .date⟩, ⟨"anonymized_at", .timestamp⟩,
      ⟨"is_authorized_to_drive", .boolean⟩, ⟨"lock_reason", .text⟩, ⟨"locked_at", .timestamp⟩,
      ⟨"version_id", .integer⟩]
  | vehicle => idColumns ++ [⟨"company_id", .uuid⟩, ⟨"kennzeichen", .text⟩, ⟨"make", .text⟩,
      ⟨"model", .text⟩, ⟨"first_registration", .date⟩, ⟨"hu_interval_months", .integer⟩,
      ⟨"is_active", .boolean⟩]
  | deadline => idColumns ++ [⟨"company_id", .uuid⟩, ⟨"kind", .text⟩, ⟨"driver_id", .uuid⟩,
      ⟨"vehicle_id", .uuid⟩, ⟨"due_on", .date⟩, ⟨"status", .text⟩, ⟨"completed_on", .date⟩,
      ⟨"is_nachpruefung", .boolean⟩]
  | escalationCase => idColumns ++ [⟨"company_id", .uuid⟩, ⟨"driver_id", .uuid⟩,
      ⟨"status", .text⟩, ⟨"deadline_at", .timestamp⟩, ⟨"resolved_at", .timestamp⟩,
      ⟨"resolved_by_id", .uuid⟩, ⟨"last_nag_on", .date⟩]
  | complianceCheckLog => idColumns ++ [⟨"company_id", .uuid⟩, ⟨"driver_id", .uuid⟩,
      ⟨"kind", .text⟩, ⟨"result", .text⟩, ⟨"method", .text⟩, ⟨"performed_by_id", .uuid⟩,
      ⟨"performed_on", .date⟩, ⟨"params", .jsonb⟩, ⟨"prev_hash", .text⟩, ⟨"entry_hash", .text⟩]

/-! ### Rows -/

/-- `getattr` of a loaded object; `none` is SQL's NULL. -/
def Row : Type :=
  (column : Column) → Option column.type.Value

def Row.id (row : Row) : Option Uuid :=
  row ⟨"id", .uuid⟩

def Row.companyId (row : Row) : Option Uuid :=
  row ⟨"company_id", .uuid⟩

/-- The tables, with their primary keys. -/
structure Tables where
  rows : Model → List Row
  distinct : ∀ model, ((rows model).map Row.id).Nodup

/-- `session.get`. -/
def Tables.get (tables : Tables) (model : Model) (id : Uuid) : Option Row :=
  (tables.rows model).find? fun row => row.id = some id

/-- `select(model).where(model.company_id == company_id)`. -/
def Tables.ofCompany (tables : Tables) (model : Model) (companyId : Uuid) : List Row :=
  (tables.rows model).filter fun row => row.companyId = some companyId

/-! ### The export -/

/-- `str(datetime)`. -/
def Timestamp.str (t : Timestamp) : Str :=
  let second := t.instant % microsPerDay / microsPerSecond
  let micros := (t.instant % microsPerSecond).toNat
  let day := (Date.ofOrdinal? (t.instant / microsPerDay + epochOrdinal)).elim [] Date.isoformat
  day ++ ' ' :: (twoDigits (second / 3600).toNat ++ ':' ::
    (twoDigits (second / 60 % 60).toNat ++ ':' :: (twoDigits (second % 60).toNat ++
      ((if micros = 0 then [] else '.' :: digits 10 6 micros) ++ "+00:00".toList))))

/-- `_json_safe`. -/
def jsonSafe : (type : ColumnType) → Option type.Value → Json
  | _, none => .null
  | .uuid, some id => .str (Uuid.text id)
  | .timestamp, some t => .str (Timestamp.str t)
  | .date, some date => .str (Date.isoformat date)
  | .text, some text => .str text
  | .integer, some value => .int value
  | .boolean, some value => .bool value
  | .jsonb, some members => .obj members

/-- The object of one row, `{c: _json_safe(getattr(o, c)) for c in cols}`. -/
def Model.exported (model : Model) (row : Row) : Json :=
  .obj (model.columns.map fun column => (column.name.toList, jsonSafe column.type (row column)))

/-- The list of the company, which has at most one row. -/
def exportedCompany (tables : Tables) (companyId : Uuid) : List Json :=
  match tables.get .company companyId with
  | some company => [Model.company.exported company]
  | none => []

/-- `_collect`. -/
def collect (tables : Tables) (companyId : Uuid) : List (String × List Json) :=
  let rows (model : Model) : List Json :=
    (tables.ofCompany model companyId).map model.exported
  [("company", exportedCompany tables companyId),
    ("users", rows .accountUser),
    ("drivers", rows .driver),
    ("vehicles", rows .vehicle),
    ("deadlines", rows .deadline),
    ("escalation_cases", rows .escalationCase),
    ("check_logs", rows .complianceCheckLog)]

end Fristenwaechter
