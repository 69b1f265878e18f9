import Fristenwaechter.UnitOfWork

/-!
Owns what the form handlers of `app/web` share: the parsed form, its optional date
and the responses. What a page shows is not modelled, so its reads are left out.
-/

namespace Fristenwaechter

/-- `form_data(request)`: field names with their last, stripped value. -/
abbrev Form := List (Str × Str)

/-- `data.get(name)`. -/
def Form.get (data : Form) (name : Str) : Option Str :=
  (data.find? fun field => field.1 = name).map Prod.snd

/-- `_parse_date`. -/
def parseDate : Option Str → Option Date
  | none => none
  | some raw => if raw.isEmpty then none else Date.fromIsoFormat raw

/-- A date of the form, or today. -/
def dateOrToday : Option Date → Work Date
  | some day => pure day
  | none => todayBerlin

/-- A rendered page with its status, or a redirect. -/
inductive Response where
  | page (status : Nat)
  | redirect
deriving DecidableEq

end Fristenwaechter
