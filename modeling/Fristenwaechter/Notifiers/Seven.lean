import Fristenwaechter.Session

/-!
Owns `app/notifiers/seven.py` and `app/notifiers/sms_quota.py` up to the HTTP call: the
budget gate with the count it reads. The rendered body, the answer of the provider and
the WARNING of a skip are not modelled.
-/

namespace Fristenwaechter

/-- `CRITICAL_SMS_TEMPLATES`. -/
def criticalSmsTemplates : List Str :=
  ["fsk_failed_critical".toList, "escalation_breached".toList]

/-- The templates `render_sms` has a renderer for. -/
def smsTemplates : List Str :=
  ["fsk_failed_critical".toList, "escalation_nag".toList, "escalation_breached".toList,
    "deadline_reminder".toList]

/-- `SKIPPED_SENTINEL_PREFIX`. -/
def skippedSentinelPrefix : Str :=
  "skipped:sms_cap:".toList

/-! ### The quota -/

/-- `_month_start_instant`. -/
def monthStartInstant (now : Instant) : Option Instant := do
  let today ← berlinDate now
  let first ← Date.of? today.year today.month 1
  return berlinAt first 0

/-- The count of `over_limit`. -/
def Db.smsSent (db : Db) (companyId : Uuid) (monthStart : Instant) : Nat :=
  db.outbox.rows.countP fun row =>
    row.companyId = companyId && row.channel = .sms &&
      row.sentAt.any fun sentAt => monthStart ≤ sentAt

/-- `DbSmsQuota.over_limit`, in a session of its own: it reads what is committed. -/
def overLimit (cap : Nat) (committed : Db) (now : Instant) (companyId : Uuid) : Option Bool :=
  (monthStartInstant now).map fun monthStart => cap ≤ committed.smsSent companyId monthStart

/-! ### The company of a payload -/

def hexValue (c : Char) : Option Nat :=
  if '0' ≤ c ∧ c ≤ '9' then some (c.toNat - '0'.toNat)
  else if 'a' ≤ c ∧ c ≤ 'f' then some (c.toNat - 'a'.toNat + 10)
  else if 'A' ≤ c ∧ c ≤ 'F' then some (c.toNat - 'A'.toNat + 10)
  else none

/-- `text.replace(pattern, "")`; the number bounds the length of the text. -/
def erased (pattern : Str) : Nat → Str → Str
  | 0, text => text
  | _, [] => []
  | bound + 1, c :: rest =>
      if pattern.isPrefixOf (c :: rest) then erased pattern bound ((c :: rest).drop pattern.length)
      else c :: erased pattern bound rest

/-- `text.strip("{}")`. -/
def stripBraces (text : Str) : Str :=
  let isBrace (c : Char) : Bool := c.toNat = 123 || c.toNat = 125
  ((text.dropWhile isBrace).reverse.dropWhile isBrace).reverse

/-- `uuid.UUID(text)`, `none` where it raises `ValueError`. -/
def Uuid.parse (text : Str) : Option Uuid := do
  let bare := erased "uuid:".toList text.length (erased "urn:".toList text.length text)
  let hex := (stripBraces bare).filter (· ≠ '-')
  guard (hex.length = 32)
  let value ← hex.foldlM (fun value c => (hexValue c).map (value * 16 + ·)) 0
  return ⟨BitVec.ofNat 128 value⟩

/-- `uuid.UUID(str(value))`. -/
def Uuid.ofJson : Json → Option Uuid
  | .str text => Uuid.parse text
  | .int value => Uuid.parse (decimalInt value)
  -- the text of no other value has 32 hexadecimal digits
  | _ => none

example : Uuid.parse (Uuid.mk 0x12#128).text = some (Uuid.mk 0x12#128) := by
  decide +kernel

/-! ### The gate -/

/-- What `send` does before it waits for the provider: it posts the message, returns
the sentinel, or raises something else than a `NotifierError`. -/
inductive SevenGate where
  | post
  | skip (companyId : Uuid)
  | raise
deriving DecidableEq

/-- The rest of `send` behind the gate. -/
def rendered (template : Str) : SevenGate :=
  if template ∈ smsTemplates then .post else .raise

/-- `SevenNotifier.send` with a quota. -/
def SevenGate.send (cap : Nat) (committed : Db) (now : Instant) (template : Str)
    (payload : List (Str × Json)) : SevenGate :=
  if template ∈ criticalSmsTemplates then rendered template
  else
    match payload.lookup "company_id".toList with
    | none => rendered template
    | some .null => rendered template
    | some value =>
        match Uuid.ofJson value with
        | none => .raise
        | some companyId =>
            match overLimit cap committed now companyId with
            | none => .raise
            | some true => .skip companyId
            | some false => rendered template

end Fristenwaechter
